import LfsCloud.GoogleDrive.AccessToken

/-!
# What the access-token cache returns

A slot is locked by one call at a time, so one refresh at most is under way for a provider, and a
token that is cached was minted for the configuration of its slot. A call judges a cached token by
the time at which it began, not by the time at which it got the lock.
-/

namespace LfsCloud

open Transition

section Slots

variable {ι : Type} {s : TokenCacheState ι} {id id' : String} {i j : ι}

@[simp] theorem slotOf_setSlot_self {slot : GoogleDriveAccessTokenSlot ι} :
    (s.setSlot id slot).slotOf id = slot := by
  simp [TokenCacheState.slotOf, TokenCacheState.setSlot]

theorem slotOf_setSlot_ne {slot : GoogleDriveAccessTokenSlot ι} (h : id' ≠ id) :
    (s.setSlot id slot).slotOf id' = s.slotOf id' := by
  simp [TokenCacheState.slotOf, TokenCacheState.setSlot, h]

/-- Releasing a lock changes no cached token. -/
theorem cached_unlock : ((s.unlock id).slotOf id').cached = (s.slotOf id').cached := by
  unfold TokenCacheState.unlock
  by_cases h : id' = id
  · subst h
    rw [slotOf_setSlot_self]
  · rw [slotOf_setSlot_ne h]

variable [DecidableEq ι]

@[simp] theorem slotOf_setCall {call : TokenCall} :
    (s.setCall i call).slotOf id = s.slotOf id := rfl

@[simp] theorem calls_setCall_self {call : TokenCall} : (s.setCall i call).calls i = call := by
  simp [TokenCacheState.setCall]

end Slots

section Safety

variable {ι : Type}

/-- A returned token is one that was minted for the configuration it was asked for. -/
def TokenReturn.Minted (minted : List TokenMint) (r : TokenReturn) : Prop :=
  ∃ mint ∈ minted, r.mint = some mint ∧ mint.token = r.token ∧ mint.storage = r.storage

/-- A token is returned just after it was minted, or before it comes near its expiry. -/
def TokenReturn.Timely (r : TokenReturn) : Prop :=
  r.justMinted = true ∨ ∃ mint, r.mint = some mint ∧ mint.Fresh r.decidedAt

/-- One refresh at most is under way for a provider. -/
def SingleFlight (request : ι → String) (s : TokenCacheState ι) : Prop :=
  ∀ i j now since now' since', s.calls i = .refreshing now since →
    s.calls j = .refreshing now' since' → request i = request j → i = j

/-- What a call returned is a return for its configuration. -/
def ReturnsRecorded (configs : StorageProviderConfigs) (request : ι → String)
    (s : TokenCacheState ι) : Prop :=
  ∀ i token, s.calls i = .returned (.ok token) →
    ∃ r ∈ s.returns, r.storage = configs.get (request i) ∧ r.token = token

/-- A call that finds a cached token not due at the time it began gets the lock before the token
comes near its expiry. -/
def LocksInTime [DecidableEq ι] (request : ι → String) (s : TokenCacheState ι) :
    TokenEvent ι → Prop
  | .decide i => ∀ now cached, s.calls i = .locked now →
    (s.slotOf (request i)).cached = some cached → now < cached.refreshAt →
      ∃ mint, s.source (request i) = some mint ∧ mint.Fresh s.clock
  | _ => True

end Safety

section Invariant

variable {ι : Type} (configs : StorageProviderConfigs) (request : ι → String)

/-- What holds of a call, by where it stands. -/
def CallSound (s : TokenCacheState ι) (i : ι) : TokenCall → Prop
  | .idle => True
  | .waitingForMap now => now ≤ s.clock
  | .waitingForSlot now => now ≤ s.clock
  | .locked now => now ≤ s.clock ∧ (s.slotOf (request i)).holder = some i
  | .refreshing now since =>
    now ≤ since ∧ since ≤ s.clock ∧ (s.slotOf (request i)).holder = some i
  | .returned result => ∀ token, result = .ok token →
    ∃ r ∈ s.returns, r.storage = configs.get (request i) ∧ r.token = token
  | .cancelled => True

/-- A cached token comes from a mint for its provider, and is due before it comes near its
expiry. -/
def CachedSound (s : TokenCacheState ι) (id : String) (cached : CachedGoogleDriveAccessToken) :
    Prop :=
  ∃ mint ∈ s.minted, s.source id = some mint ∧ mint.token = cached.token ∧
    mint.storage = configs.get id ∧ ∀ time < cached.refreshAt, mint.Fresh time

/-- The invariant of the cache. -/
structure TokenCacheInv (s : TokenCacheState ι) : Prop where
  calls : ∀ i, CallSound configs request s i (s.calls i)
  cached : ∀ id cached, (s.slotOf id).cached = some cached → CachedSound configs s id cached
  returns : ∀ r ∈ s.returns, r.Minted s.minted

variable {configs request} {s t : TokenCacheState ι}

/-- What holds of a call stays so when time goes on and others return. -/
theorem CallSound.mono {j : ι} {call : TokenCall} (h : CallSound configs request s j call)
    (hclock : s.clock ≤ t.clock) (hreturns : s.returns ⊆ t.returns)
    (hholder : (s.slotOf (request j)).holder = some j → (t.slotOf (request j)).holder = some j) :
    CallSound configs request t j call := by
  cases call with
  | idle => trivial
  | cancelled => trivial
  | waitingForMap now => exact le_trans h hclock
  | waitingForSlot now => exact le_trans h hclock
  | locked now => exact ⟨h.1.trans hclock, hholder h.2⟩
  | refreshing now since => exact ⟨h.1, h.2.1.trans hclock, hholder h.2.2⟩
  | returned result =>
    intro token hresult
    obtain ⟨r, hr, hrest⟩ := h token hresult
    exact ⟨r, hreturns hr, hrest⟩

/-- The calls exclude each other from their slot. -/
theorem TokenCacheInv.singleFlight (h : TokenCacheInv configs request s) :
    SingleFlight request s := by
  intro i j now since now' since' hi hj hid
  have hsi := h.calls i
  have hsj := h.calls j
  rw [hi] at hsi
  rw [hj] at hsj
  have hholder := hsi.2.2
  rw [hid, hsj.2.2] at hholder
  exact (Option.some.inj hholder).symm

theorem TokenCacheInv.returnsRecorded (h : TokenCacheInv configs request s) :
    ReturnsRecorded configs request s := by
  intro i token hi
  have hreturned := h.calls i
  rw [hi] at hreturned
  exact hreturned token rfl

theorem tokenCacheInv_new : TokenCacheInv configs request (TokenCacheState.new : TokenCacheState ι)
    where
  calls _ := trivial
  cached _ cached h := by
    have hnone : (none : Option CachedGoogleDriveAccessToken) = some cached := h
    cases hnone
  returns r h := absurd h List.not_mem_nil

/-- A lock that a call holds is taken from nobody else. -/
theorem holder_setSlot {i j : ι} {slot : GoogleDriveAccessTokenSlot ι} (hj : j ≠ i)
    (hfree : (s.slotOf (request i)).holder = none ∨ (s.slotOf (request i)).holder = some i)
    (h : (s.slotOf (request j)).holder = some j) :
    ((s.setSlot (request i) slot).slotOf (request j)).holder = some j := by
  by_cases hid : request j = request i
  · rw [hid] at h
    rcases hfree with hnone | hsome
    · rw [hnone] at h
      cases h
    · rw [hsome] at h
      exact absurd (Option.some.inj h).symm hj
  · rwa [slotOf_setSlot_ne hid]

variable [DecidableEq ι]

/-- One call moves: the others are where they were. -/
theorem calls_of_moves {i : ι} (call : TokenCall) (h : TokenCacheInv configs request s)
    (hcalls : t.calls = Function.update s.calls i call)
    (hcall : CallSound configs request t i call) (hclock : s.clock ≤ t.clock)
    (hreturns : s.returns ⊆ t.returns)
    (hholder : ∀ j ≠ i, (s.slotOf (request j)).holder = some j →
      (t.slotOf (request j)).holder = some j) :
    ∀ j, CallSound configs request t j (t.calls j) := by
  intro j
  rw [hcalls]
  by_cases hj : j = i
  · subst hj
    rwa [Function.update_self]
  · rw [Function.update_of_ne hj]
    exact (h.calls j).mono hclock hreturns (hholder j hj)

/-- A call moves, and the slots and the clock stay as they are. -/
theorem TokenCacheInv.setCall {i : ι} {call : TokenCall} (h : TokenCacheInv configs request s)
    (hcall : CallSound configs request s i call) :
    TokenCacheInv configs request (s.setCall i call) where
  calls := calls_of_moves call h rfl hcall le_rfl (List.Subset.refl _) fun _ _ hj => hj
  cached := h.cached
  returns := h.returns

/-- The slot of a call changes hands, and keeps what is cached. -/
theorem TokenCacheInv.setHolder {i : ι} (h : TokenCacheInv configs request s) (call : TokenCall)
    (holder : Option ι)
    (hfree : (s.slotOf (request i)).holder = none ∨ (s.slotOf (request i)).holder = some i)
    (hcall : CallSound configs request
      (s.setSlot (request i) { s.slotOf (request i) with holder := holder }) i call) :
    TokenCacheInv configs request
      ((s.setSlot (request i) { s.slotOf (request i) with holder := holder }).setCall i call) where
  calls := calls_of_moves call h rfl hcall le_rfl (List.Subset.refl _) fun j hj hheld =>
    holder_setSlot hj hfree hheld
  cached id cached hcached := by
    apply h.cached
    rw [← hcached, slotOf_setCall]
    by_cases hid : id = request i
    · subst hid
      rw [slotOf_setSlot_self]
    · rw [slotOf_setSlot_ne hid]
  returns := h.returns

theorem durationCheckedSub_eq_some {duration other rest : ℕ}
    (h : durationCheckedSub duration other = some rest) : rest + other = duration := by
  unfold durationCheckedSub at h
  split_ifs at h with hle
  have hrest := Option.some.inj h
  omega

theorem instantCheckedAdd_eq_some {instant duration sum : ℕ}
    (h : instantCheckedAdd instant duration = some sum) : instant + duration = sum := by
  unfold instantCheckedAdd at h
  split at h
  · exact Option.some.inj h
  · cases h

/-- A token is due for a refresh when its lifetime after the call began is over but the skew. -/
theorem refreshAt_eq_some {token : GoogleDriveAccessToken} {now refreshAt : ℕ}
    (h : token.refreshAt now = some refreshAt) :
    ∃ seconds, token.expiresInSeconds = some seconds ∧
      refreshAt + googleAccessTokenRefreshSkew = now + seconds.toNat * nanosPerSecond := by
  unfold GoogleDriveAccessToken.refreshAt at h
  obtain ⟨lifetime, hlifetime, hadd⟩ := Option.bind_eq_some_iff.mp h
  obtain ⟨seconds, hseconds, hsub⟩ := Option.bind_eq_some_iff.mp hlifetime
  have hsum := durationCheckedSub_eq_some hsub
  have hinstant := instantCheckedAdd_eq_some hadd
  exact ⟨seconds, hseconds, by omega⟩

/-- A token that is cached at a time comes due before it comes near its expiry. -/
theorem fresh_of_cachedAt {storage : GoogleDriveTokenConfig} {token : GoogleDriveAccessToken}
    {cached : CachedGoogleDriveAccessToken} {now mintedAt : ℕ} (hle : now ≤ mintedAt)
    (h : token.cachedAt now = some cached) :
    cached.token = token ∧ ∀ time < cached.refreshAt,
      TokenMint.Fresh ⟨storage, token, mintedAt⟩ time := by
  unfold GoogleDriveAccessToken.cachedAt at h
  split at h
  next refreshAt hrefresh =>
    split_ifs at h with hnow
    cases h
    obtain ⟨seconds, hseconds, hsum⟩ := refreshAt_eq_some hrefresh
    refine ⟨rfl, fun time htime => ⟨seconds, hseconds, ?_⟩⟩
    have hlt : time < refreshAt := htime
    have hgoal : time + googleAccessTokenRefreshSkew < mintedAt + seconds.toNat * nanosPerSecond := by
      omega
    exact hgoal
  next => cases h

/-- A cached token is returned. -/
theorem TokenCacheInv.returnCached {i : ι} {now : ℕ} {cached : CachedGoogleDriveAccessToken}
    (h : TokenCacheInv configs request s) (hcall : s.calls i = .locked now)
    (hcached : (s.slotOf (request i)).cached = some cached) :
    TokenCacheInv configs request (s.returnCached configs request i cached) := by
  have hlocked := h.calls i
  rw [hcall] at hlocked
  constructor
  · apply calls_of_moves (.returned (.ok cached.token)) h rfl
    · intro token htoken
      cases htoken
      exact ⟨_, List.mem_cons_self, rfl, rfl⟩
    · exact le_rfl
    · exact List.subset_cons_self _ _
    · exact fun j hj hheld => holder_setSlot hj (.inr hlocked.2) hheld
  · exact (h.setHolder (i := i) .cancelled none (.inr hlocked.2)
      trivial).cached
  · intro r hr
    rcases List.mem_cons.mp hr with rfl | hold
    · obtain ⟨mint, hmem, hsource, htoken, hstorage, _⟩ := h.cached _ _ hcached
      exact ⟨mint, hmem, hsource, htoken, hstorage⟩
    · exact h.returns r hold

/-- A minted token is cached and returned. -/
theorem TokenCacheInv.returnMinted {i : ι} {now since mintedAt : ℕ}
    {token : GoogleDriveAccessToken} (h : TokenCacheInv configs request s)
    (hcall : s.calls i = .refreshing now since) (hsince : since ≤ mintedAt) :
    TokenCacheInv configs request (s.returnMinted configs request i now mintedAt token) := by
  have hrefreshing := h.calls i
  rw [hcall] at hrefreshing
  constructor
  · apply calls_of_moves (.returned (.ok token)) h rfl
    · intro token' htoken
      cases htoken
      exact ⟨_, List.mem_cons_self, rfl, rfl⟩
    · exact le_rfl
    · exact List.subset_cons_self _ _
    · exact fun j hj hheld => holder_setSlot hj (.inr hrefreshing.2.2) hheld
  · intro id cached hcached
    by_cases hid : id = request i
    · subst hid
      have hslot : (s.returnMinted configs request i now mintedAt token).slotOf (request i) =
          ⟨none, token.cachedAt now⟩ := slotOf_setSlot_self (s := s)
      have hnew : token.cachedAt now = some cached := by
        rw [← hcached, hslot]
      obtain ⟨htoken, hfresh⟩ := fresh_of_cachedAt (hrefreshing.1.trans hsince) hnew
      exact ⟨_, List.mem_cons_self, Function.update_self _ _ _, htoken.symm, rfl, hfresh⟩
    · have hslot : (s.returnMinted configs request i now mintedAt token).slotOf id = s.slotOf id :=
        slotOf_setSlot_ne (s := s) hid
      have hold : (s.slotOf id).cached = some cached := by
        rw [← hcached, hslot]
      obtain ⟨mint, hmem, hsource, hrest⟩ := h.cached id cached hold
      have hkept : (s.returnMinted configs request i now mintedAt token).source id = s.source id :=
        Function.update_of_ne hid _ _
      exact ⟨mint, List.mem_cons_of_mem _ hmem, hkept.trans hsource, hrest⟩
  · intro r hr
    rcases List.mem_cons.mp hr with rfl | hold
    · exact ⟨_, List.mem_cons_self, rfl, rfl, rfl⟩
    · obtain ⟨mint, hmem, hrest⟩ := h.returns r hold
      exact ⟨mint, List.mem_cons_of_mem _ hmem, hrest⟩

/-- The lock is released, and the call returns an error or is gone. -/
theorem TokenCacheInv.unlock {i : ι} {now since : ℕ} {call : TokenCall}
    (h : TokenCacheInv configs request s) (hcall : s.calls i = .refreshing now since)
    (hnew : CallSound configs request (s.unlock (request i)) i call) :
    TokenCacheInv configs request ((s.unlock (request i)).setCall i call) := by
  have hrefreshing := h.calls i
  rw [hcall] at hrefreshing
  exact h.setHolder _ _ (.inr hrefreshing.2.2) hnew

/-- Every step keeps the invariant. -/
theorem TokenCacheInv.step {e : TokenEvent ι} (h : TokenCacheInv configs request s)
    (hstep : tokenStep configs request s e = some t) : TokenCacheInv configs request t := by
  cases e with
  | tick duration =>
    cases Option.some.inj hstep
    exact ⟨fun i => (h.calls i).mono (Nat.le_add_right _ _) (List.Subset.refl _) fun hj => hj,
      h.cached, h.returns⟩
  | start i =>
    simp only [tokenStep] at hstep
    split at hstep
    next => exact Option.some.inj hstep ▸ h.setCall (le_refl s.clock)
    next => cases hstep
  | slot i =>
    simp only [tokenStep] at hstep
    split at hstep
    next now hcall =>
      have hle := h.calls i
      rw [hcall] at hle
      have hinv : TokenCacheInv configs request (s.setSlot (request i) (s.slotOf (request i))) := by
        have hslots : ∀ id, (s.setSlot (request i) (s.slotOf (request i))).slotOf id =
            s.slotOf id := by
          intro id
          by_cases hid : id = request i
          · rw [hid, slotOf_setSlot_self]
          · rw [slotOf_setSlot_ne hid]
        exact ⟨fun j => (h.calls j).mono le_rfl (List.Subset.refl _) fun hj => by rwa [hslots],
          fun id cached hcached => h.cached id cached (by rwa [hslots] at hcached), h.returns⟩
      have hnow : CallSound configs request (s.setSlot (request i) (s.slotOf (request i))) i
          (.waitingForSlot now) := hle
      exact Option.some.inj hstep ▸ hinv.setCall hnow
    next => cases hstep
  | lock i =>
    simp only [tokenStep] at hstep
    split at hstep
    next now hcall =>
      split_ifs at hstep with hfree
      have hle := h.calls i
      rw [hcall] at hle
      refine Option.some.inj hstep ▸ h.setHolder _ _ (.inl hfree) ⟨hle, ?_⟩
      rw [slotOf_setSlot_self]
    next => cases hstep
  | decide i =>
    simp only [tokenStep] at hstep
    split at hstep
    next now hcall =>
      cases Option.some.inj hstep
      have hlocked := h.calls i
      rw [hcall] at hlocked
      have hrefresh : TokenCacheInv configs request (s.setCall i (.refreshing now s.clock)) :=
        h.setCall ⟨hlocked.1, le_rfl, hlocked.2⟩
      unfold TokenCacheState.decide
      split
      next cached hcached =>
        split_ifs
        · exact h.returnCached hcall hcached
        · exact hrefresh
      next => exact hrefresh
    next => cases hstep
  | refreshed i mintedAt result =>
    simp only [tokenStep] at hstep
    split at hstep
    next now since hcall =>
      split_ifs at hstep with hminted
      split at hstep
      next token => exact Option.some.inj hstep ▸ h.returnMinted hcall hminted.1
      next error =>
        refine Option.some.inj hstep ▸ h.unlock hcall fun token htoken => ?_
        cases htoken
    next => cases hstep
  | cancel i =>
    simp only [tokenStep] at hstep
    split at hstep
    next => exact Option.some.inj hstep ▸ h.setCall trivial
    next => exact Option.some.inj hstep ▸ h.setCall trivial
    next hcall => exact Option.some.inj hstep ▸ h.unlock hcall trivial
    next => cases hstep

/-- A refresh that fails or is cancelled leaves every cached token as it was. -/
theorem cached_of_failed {e : TokenEvent ι} (hstep : tokenStep configs request s e = some t)
    (hfailed : (∃ i mintedAt error, e = .refreshed i mintedAt (.error error)) ∨
      ∃ i, e = .cancel i) (id : String) : (t.slotOf id).cached = (s.slotOf id).cached := by
  rcases hfailed with ⟨i, mintedAt, error, rfl⟩ | ⟨i, rfl⟩
  · simp only [tokenStep] at hstep
    split at hstep
    next =>
      split_ifs at hstep
      rw [← Option.some.inj hstep]
      exact cached_unlock
    next => cases hstep
  · simp only [tokenStep] at hstep
    split at hstep
    next => rw [← Option.some.inj hstep, slotOf_setCall]
    next => rw [← Option.some.inj hstep, slotOf_setCall]
    next =>
      rw [← Option.some.inj hstep]
      exact cached_unlock
    next => cases hstep

/-- A step that meets the condition adds only timely returns. -/
theorem timely_step {e : TokenEvent ι} (h : ∀ r ∈ s.returns, r.Timely)
    (hmeets : LocksInTime request s e) (hstep : tokenStep configs request s e = some t) :
    ∀ r ∈ t.returns, r.Timely := by
  cases e with
  | tick duration => exact Option.some.inj hstep ▸ h
  | start i =>
    simp only [tokenStep] at hstep
    split at hstep
    next => exact Option.some.inj hstep ▸ h
    next => cases hstep
  | slot i =>
    simp only [tokenStep] at hstep
    split at hstep
    next => exact Option.some.inj hstep ▸ h
    next => cases hstep
  | lock i =>
    simp only [tokenStep] at hstep
    split at hstep
    next =>
      split_ifs at hstep
      exact Option.some.inj hstep ▸ h
    next => cases hstep
  | decide i =>
    simp only [tokenStep] at hstep
    split at hstep
    next now hcall =>
      cases Option.some.inj hstep
      unfold TokenCacheState.decide
      split
      next cached hcached =>
        split_ifs with hlt
        · intro r hr
          rcases List.mem_cons.mp hr with rfl | hold
          · exact .inr (hmeets now cached hcall hcached hlt)
          · exact h r hold
        · exact h
      next => exact h
    next => cases hstep
  | refreshed i mintedAt result =>
    simp only [tokenStep] at hstep
    split at hstep
    next =>
      split_ifs at hstep
      split at hstep
      next =>
        cases Option.some.inj hstep
        intro r hr
        rcases List.mem_cons.mp hr with rfl | hold
        · exact .inl rfl
        · exact h r hold
      next => exact Option.some.inj hstep ▸ h
    next => cases hstep
  | cancel i =>
    simp only [tokenStep] at hstep
    split at hstep
    next => exact Option.some.inj hstep ▸ h
    next => exact Option.some.inj hstep ▸ h
    next => exact Option.some.inj hstep ▸ h
    next => cases hstep

/-- A step that does not meet the condition returns a token near its expiry. -/
theorem not_timely_step {e : TokenEvent ι} (hmeets : ¬LocksInTime request s e)
    (hstep : tokenStep configs request s e = some t) : ¬∀ r ∈ t.returns, r.Timely := by
  cases e with
  | decide i =>
    simp only [LocksInTime, not_forall] at hmeets
    obtain ⟨now, cached, hcall, hcached, hlt, hlate⟩ := hmeets
    simp only [tokenStep, hcall, TokenCacheState.decide, hcached, if_pos hlt] at hstep
    cases Option.some.inj hstep
    intro hall
    rcases hall _ List.mem_cons_self with hminted | hfresh
    · exact Bool.false_ne_true hminted
    · exact hlate hfresh
  | _ => exact absurd trivial hmeets

end Invariant

/-- A provider, a token of an hour, and two calls. -/
def sampleTokenConfigs : StorageProviderConfigs where
  get id := ⟨⟨id⟩, ⟨"", ""⟩, "", none⟩
  id_get _ := rfl
def sampleHourToken : GoogleDriveAccessToken := ⟨"token", "Bearer", some 3600, []⟩

/-- A first call caches a token. A second call begins a second before that is due, and a third one
gets the lock first; its refresh fails after the token has expired. The second call then returns
the token. -/
def sampleLateCalls : List (TokenEvent (Fin 3)) :=
  [.start 0, .slot 0, .lock 0, .decide 0, .refreshed 0 0 (.ok sampleHourToken),
    .tick (3539 * nanosPerSecond), .start 1, .tick (2 * nanosPerSecond), .start 2, .slot 2,
    .lock 2, .decide 2, .slot 1, .tick (120 * nanosPerSecond),
    .refreshed 2 (3661 * nanosPerSecond) (.error (.retryable "drive" "timed out")), .lock 1,
    .decide 1]

end LfsCloud
