import LfsCloud.Server.AuthorizationRules

/-!
# Grants behind authorized calls

What a call that returns `Ok` rests on: an answer of the provider to this call, or a grant
of the same key that was no older than the cache keeps it when the call looked.
-/

namespace LfsCloud

open Transition

variable {ι : Type}

/-- The provider has granted a call of a key at some time. -/
def ProviderGranted (key : AuthorizationCacheKey) (granted : ℕ)
    (events : List (AuthorizationEvent ι)) : Prop :=
  ∃ j request, request.key = key ∧ .authorize j request ∈ events ∧
    .answer j (.ok ()) granted ∈ events

/-- The provider has granted this call, or it has looked at the cache in the lifetime of an
earlier grant of its key. -/
def Entitled (i : ι) (key : AuthorizationCacheKey) (events : List (AuthorizationEvent ι)) :
    Prop :=
  (∃ now, .answer i (.ok ()) now ∈ events) ∨
    ∃ before now after granted, events = before ++ .checkCache i now :: after ∧
      ProviderGranted key granted before ∧ granted ≤ now ∧ now < granted + authorizationCacheTtl

/-- The result of a call that has one. -/
def AuthorizeControl.result : AuthorizeControl → Option (Except ServerError Unit)
  | .concluding _ result => some result
  | .unlocked _ result => some result
  | .tested _ result => some result
  | .returned result => some result
  | _ => none

theorem ProviderGranted.snoc {key : AuthorizationCacheKey} {granted : ℕ}
    {events : List (AuthorizationEvent ι)} (h : ProviderGranted key granted events)
    (e : AuthorizationEvent ι) : ProviderGranted key granted (events ++ [e]) := by
  obtain ⟨j, request, hkey, hcall, hanswer⟩ := h
  exact ⟨j, request, hkey, List.mem_append_left _ hcall, List.mem_append_left _ hanswer⟩

theorem Entitled.snoc {i : ι} {key : AuthorizationCacheKey}
    {events : List (AuthorizationEvent ι)} (h : Entitled i key events)
    (e : AuthorizationEvent ι) : Entitled i key (events ++ [e]) := by
  rcases h with ⟨now, hanswer⟩ | ⟨before, now, after, granted, rfl, hgranted⟩
  · exact .inl ⟨now, List.mem_append_left _ hanswer⟩
  · exact .inr ⟨before, now, after ++ [e], granted, by simp, hgranted⟩

variable [DecidableEq ι]

/-- What the history of a state accounts for: its calls, the entries of the cache, and the
results of calls. -/
structure AuthorizationState.Justified (events : List (AuthorizationEvent ι))
    (s : AuthorizationState ι) : Prop where
  called : ∀ {i request control}, s.At i request control → .authorize i request ∈ events
  cached : ∀ {key expiry}, s.cache.lookup key = some expiry →
    ∃ granted, expiry = granted + authorizationCacheTtl ∧ granted ≤ s.now ∧
      ProviderGranted key granted events
  granted : ∀ {i request lock expiresAt}, s.At i request (.granted lock expiresAt) →
    ∃ granted, expiresAt = granted + authorizationCacheTtl ∧ granted ≤ s.now ∧
      .answer i (.ok ()) granted ∈ events
  entitled : ∀ {i request control}, s.At i request control → control.result = some (.ok ()) →
    Entitled i request.key events

section Justified

variable {events : List (AuthorizationEvent ι)} {s t : AuthorizationState ι} {i : ι}
  {request : AuthorizeRequest} {control : AuthorizeControl}

/-- Nothing is lost by one more event, or by changes of the locks. -/
theorem AuthorizationState.Justified.snoc (hs : s.Justified events) (e : AuthorizationEvent ι)
    (hnow : s.now ≤ t.now) (hcache : t.cache = s.cache) (hcalls : t.calls = s.calls) :
    t.Justified (events ++ [e]) := by
  have hat : ∀ {i request control}, t.At i request control → s.At i request control := by
    intro i request control h
    unfold AuthorizationState.At at h ⊢
    rwa [hcalls] at h
  constructor
  · intro i request control h
    exact List.mem_append_left _ (hs.called (hat h))
  · intro key expiry h
    rw [hcache] at h
    obtain ⟨granted, hexpiry, hgranted, hkey⟩ := hs.cached h
    exact ⟨granted, hexpiry, hgranted.trans hnow, hkey.snoc e⟩
  · intro i request lock expiresAt h
    obtain ⟨granted, hexpiry, hgranted, hanswer⟩ := hs.granted (hat h)
    exact ⟨granted, hexpiry, hgranted.trans hnow, List.mem_append_left _ hanswer⟩
  · intro i request control h hresult
    exact (hs.entitled (hat h) hresult).snoc e

/-- A call moves to a point that the history accounts for. -/
theorem AuthorizationState.Justified.enter (hs : s.Justified events)
    (hcalled : .authorize i request ∈ events)
    (hgranted : ∀ {lock expiresAt}, control = .granted lock expiresAt →
      ∃ granted, expiresAt = granted + authorizationCacheTtl ∧ granted ≤ s.now ∧
        .answer i (.ok ()) granted ∈ events)
    (hentitled : control.result = some (.ok ()) → Entitled i request.key events) :
    (s.move i request control).Justified events := by
  constructor
  · intro j request' control' h
    rcases at_move.mp h with ⟨rfl, rfl, rfl⟩ | ⟨_, h⟩
    · exact hcalled
    · exact hs.called h
  · exact hs.cached
  · intro j request' lock expiresAt h
    rcases at_move.mp h with ⟨rfl, rfl, hcontrol⟩ | ⟨_, h⟩
    · exact hgranted hcontrol.symm
    · exact hs.granted h
  · intro j request' control' h hresult
    rcases at_move.mp h with ⟨rfl, rfl, rfl⟩ | ⟨_, h⟩
    · exact hentitled hresult
    · exact hs.entitled h hresult

/-- A call that has no new result moves on. -/
theorem AuthorizationState.Justified.move (hs : s.Justified events)
    (e : AuthorizationEvent ι) {control' : AuthorizeControl} (hat : s.At i request control)
    (hnow : t.now = s.now) (hcache : t.cache = s.cache) (hcalls : t.calls = s.calls)
    (hgranted : ∀ lock expiresAt, control' ≠ .granted lock expiresAt)
    (hresult : control'.result = some (.ok ()) → control.result = some (.ok ())) :
    (t.move i request control').Justified (events ++ [e]) := by
  have ht : t.Justified (events ++ [e]) := hs.snoc e hnow.ge hcache hcalls
  apply ht.enter
  · exact List.mem_append_left _ (hs.called hat)
  · exact fun h => absurd h (hgranted _ _)
  · exact fun h => (hs.entitled hat (hresult h)).snoc e

/-- A cache with no new entries. -/
theorem AuthorizationState.Justified.setCache (hs : s.Justified events)
    {cache : Table AuthorizationCacheKey ℕ}
    (hcache : ∀ {key expiry}, cache.lookup key = some expiry →
      s.cache.lookup key = some expiry) :
    ({ s with cache := cache } : AuthorizationState ι).Justified events :=
  ⟨hs.called, fun h => hs.cached (hcache h), hs.granted, hs.entitled⟩

end Justified

/-- Looking at the cache adds no entry. -/
theorem lookup_authorizationIsCached {cache : Table AuthorizationCacheKey ℕ}
    {key key' : AuthorizationCacheKey} {now expiry : ℕ}
    (h : (authorizationIsCached cache key now).2.lookup key' = some expiry) :
    cache.lookup key' = some expiry := by
  unfold authorizationIsCached at h
  split at h
  · split at h
    · exact h
    · exact (Table.lookup_erase_eq_some.mp h).2
  · exact h

/-- A hit is an entry that has not expired. -/
theorem authorizationIsCached_hit {cache : Table AuthorizationCacheKey ℕ}
    {key : AuthorizationCacheKey} {now : ℕ}
    (h : (authorizationIsCached cache key now).1 = true) :
    ∃ expiry, cache.lookup key = some expiry ∧ now < expiry := by
  unfold authorizationIsCached at h
  split at h
  next expiry hlookup =>
    split at h
    next hexpiry => exact ⟨expiry, hlookup, hexpiry⟩
    next => cases h
  next => cases h

/-- A hit entitles the call that looks. -/
theorem AuthorizationState.Justified.hit {events : List (AuthorizationEvent ι)}
    {s : AuthorizationState ι} (hs : s.Justified events) (i : ι) {key : AuthorizationCacheKey}
    (h : (authorizationIsCached s.cache key s.now).1 = true) :
    Entitled i key (events ++ [.checkCache i s.now]) := by
  obtain ⟨expiry, hlookup, hexpiry⟩ := authorizationIsCached_hit h
  obtain ⟨granted, rfl, hgranted, hkey⟩ := hs.cached hlookup
  exact .inr ⟨events, s.now, [], granted, rfl, hkey, hgranted, hexpiry⟩

/-- Revoking a session makes no result `Ok`. -/
theorem eq_ok_of_revokeUnknownSession {result : Except ServerError Unit}
    {revoked : Except ServerError Bool} (h : revokeUnknownSession result revoked = .ok ()) :
    result = .ok () := by
  unfold revokeUnknownSession at h
  split at h
  · cases h
  · exact h

/-- Every step keeps the account. -/
theorem AuthorizationState.Justified.step {events : List (AuthorizationEvent ι)}
    {s t : AuthorizationState ι} {e : AuthorizationEvent ι} (hs : s.Justified events)
    (hstep : s.Step e t) : t.Justified (events ++ [e]) := by
  cases hstep with
  | elapse => exact hs.snoc _ (Nat.le_add_right _ _) rfl rfl
  | authorize hnew =>
    exact (hs.snoc _ le_rfl rfl rfl).enter (by simp) nofun nofun
  | @checkCache i request hcall =>
    have hlookup : ∀ {key' expiry},
        (authorizationIsCached s.cache request.key s.now).2.lookup key' = some expiry →
          s.cache.lookup key' = some expiry := lookup_authorizationIsCached
    have hs' := (hs.snoc (t := s) (.checkCache i s.now) le_rfl rfl rfl).setCache hlookup
    apply hs'.enter (List.mem_append_left _ (hs.called hcall))
    · intro lock expiresAt h
      split at h <;> cases h
    · intro h
      split at h
      next hhit => exact hs.hit i hhit
      next => cases h
  | lockFor hcall =>
    apply hs.move _ hcall
    · unfold AuthorizationState.lockFor
      split <;> rfl
    · unfold AuthorizationState.lockFor
      split <;> rfl
    · unfold AuthorizationState.lockFor
      split <;> rfl
    · nofun
    · nofun
  | lock hcall hfree => exact hs.move _ hcall rfl rfl rfl nofun nofun
  | @recheckCache i request lock hcall =>
    have hlookup : ∀ {key' expiry},
        (authorizationIsCached s.cache request.key s.now).2.lookup key' = some expiry →
          s.cache.lookup key' = some expiry := lookup_authorizationIsCached
    have hs' := (hs.snoc (t := s) (.checkCache i s.now) le_rfl rfl rfl).setCache hlookup
    apply hs'.enter (List.mem_append_left _ (hs.called hcall))
    · intro lock expiresAt h
      split at h <;> cases h
    · intro h
      split at h
      next hhit => exact hs.hit i hhit
      next => cases h
  | providerCallPermit hcall => exact hs.move _ hcall rfl rfl rfl nofun nofun
  | @answer i request lock result hcall =>
    cases result with
    | ok =>
      apply (hs.snoc _ le_rfl rfl rfl).enter (List.mem_append_left _ (hs.called hcall))
      · rintro _ _ ⟨⟩
        exact ⟨s.now, rfl, le_rfl, by simp⟩
      · nofun
    | error e => exact hs.move _ hcall rfl rfl rfl nofun nofun
  | @store i request lock expiresAt hcall =>
    obtain ⟨granted, rfl, hgranted, hanswer⟩ := hs.granted hcall
    have hcalled := hs.called hcall
    have hs' := hs.snoc (t := s) (.store i) le_rfl rfl rfl
    apply AuthorizationState.Justified.enter
    · refine ⟨hs'.called, ?_, hs'.granted, hs'.entitled⟩
      intro key expiry h
      rcases Table.lookup_insert_eq_some.mp h with ⟨rfl, rfl⟩ | ⟨_, h⟩
      · have hkey : ProviderGranted request.key granted events :=
          ⟨i, request, rfl, hcalled, hanswer⟩
        exact ⟨granted, rfl, hgranted, hkey.snoc _⟩
      · exact hs'.cached (Table.lookup_filter_eq_some.mp h).1
    · exact List.mem_append_left _ hcalled
    · nofun
    · exact fun _ => .inl ⟨granted, List.mem_append_left _ hanswer⟩
  | unlock hcall => exact hs.move _ hcall rfl rfl rfl nofun (fun h => h)
  | removeUnused hcall =>
    apply hs.move _ hcall
    · unfold AuthorizationState.removeUnusedAuthorizationLock
      split <;> rfl
    · unfold AuthorizationState.removeUnusedAuthorizationLock
      split <;> rfl
    · unfold AuthorizationState.removeUnusedAuthorizationLock
      split <;> rfl
    · nofun
    · exact fun h => h
  | finish hcall =>
    apply hs.move _ hcall rfl rfl rfl
    · nofun
    · intro h
      rw [AuthorizeControl.result, eq_ok_of_revokeUnknownSession (Option.some.inj h)]
  | cancelStart hcall => exact hs.move _ hcall rfl rfl rfl nofun nofun
  | cancelWaiting hcall => exact hs.move _ hcall rfl rfl rfl nofun nofun
  | cancelGuarded hcall =>
    rcases hcall with hcall | hcall
    · exact hs.move _ hcall rfl rfl rfl nofun nofun
    · exact hs.move _ hcall rfl rfl rfl nofun nofun
  | dropReference hcall => exact hs.move _ hcall rfl rfl rfl nofun nofun

/-- Before any call there is nothing to account for. -/
theorem AuthorizationState.justified_new (now : ℕ) : (new (ι := ι) now).Justified [] :=
  ⟨nofun, nofun, nofun, nofun⟩

/-- In every interleaving of calls, with calls dropped and the provider failing at will: a
call that has returned `Ok` was granted by the provider, or it found a grant that was given
less than the lifetime of the cache earlier, to the same session, for the same repository
and for the same kind of operation. And of the calls of one key, at most one is with the
provider. -/
theorem authorization_sound {s t : AuthorizationState ι} {events : List (AuthorizationEvent ι)}
    (hinit : (authorizationSystem ι).init s) (hrun : (authorizationSystem ι).Run s events t) :
    (∀ i request, t.At i request (.returned (.ok ())) →
      (∃ now, .answer i (.ok ()) now ∈ events) ∨
        ∃ before now after granted, events = before ++ .checkCache i now :: after ∧
          granted ≤ now ∧ now < granted + authorizationCacheTtl ∧
            ∃ j request', .authorize j request' ∈ before ∧
              .answer j (.ok ()) granted ∈ before ∧
              request'.session.token = request.session.token ∧
              request'.repository.id = request.repository.id ∧
              (request'.operation = .upload ↔ request.operation = .upload)) ∧
    ∀ i j request request' lock lock', t.At i request (.calling lock) →
      t.At j request' (.calling lock') → request.key = request'.key → i = j := by
  constructor
  · intro i request hat
    have hjustified : t.Justified events := by
      obtain ⟨now, rfl⟩ := hinit
      refine hrun.history (P := AuthorizationState.Justified)
        (AuthorizationState.justified_new now) ?_
      intro events u e v _ hu hstep
      exact hu.step hstep
    rcases hjustified.entitled hat rfl with hanswer | hcached
    · exact .inl hanswer
    · obtain ⟨before, now, after, granted, hsplit, hgranted, hle, hlt⟩ := hcached
      obtain ⟨j, request', hkey, hcall, hanswer⟩ := hgranted
      have htoken := congrArg AuthorizationCacheKey.sessionToken hkey
      have hrepository := congrArg AuthorizationCacheKey.repositoryId hkey
      have hwrite := congrArg AuthorizationCacheKey.write hkey
      refine .inr ⟨before, now, after, granted, hsplit, hle, hlt, j, request', hcall, hanswer,
        htoken, hrepository, ?_⟩
      simpa only [AuthorizeRequest.key, decide_eq_decide] using hwrite
  · intro i j request request' lock lock' hat hat' hkey
    have hsound : t.Sound :=
      AuthorizationState.sound_of_reachable ⟨s, events, hinit, hrun⟩
    exact hsound.guard_unique hat hat' rfl rfl hkey

/-- A call that the provider grants, and one second later a call that finds the grant. -/
theorem authorization_sound_cached : ∃ t : AuthorizationState ℕ,
    t.At 1 authorizeUpload (.returned (.ok ())) ∧
      Entitled 1 authorizeUpload.key [.authorize 0 authorizeUpload, .checkCache 0 0, .lockFor 0,
        .lock 0, .checkCache 0 0, .providerCallPermit 0, .answer 0 (.ok ()) 0, .store 0,
        .elapse 1000000000, .authorize 1 authorizeUpload, .checkCache 1 1000000000] := by
  have hrun : ∃ t : AuthorizationState ℕ, (authorizationSystem ℕ).Run (.new 0)
      [.authorize 0 authorizeUpload, .checkCache 0 0, .lockFor 0, .lock 0, .checkCache 0 0,
        .providerCallPermit 0, .answer 0 (.ok ()) 0, .store 0, .elapse 1000000000,
        .authorize 1 authorizeUpload, .checkCache 1 1000000000] t ∧
      t.At 1 authorizeUpload (.returned (.ok ())) := by
    refine exists_run_cons (.authorize rfl) ?_
    refine exists_run_cons (.checkCache rfl) ?_
    refine exists_run_cons (.lockFor rfl) ?_
    refine exists_run_cons (.lock rfl rfl) ?_
    refine exists_run_cons (.recheckCache rfl) ?_
    refine exists_run_cons (.providerCallPermit rfl) ?_
    refine exists_run_cons (.answer rfl) ?_
    refine exists_run_cons (.store rfl) ?_
    refine exists_run_cons .elapse ?_
    refine exists_run_cons (.authorize rfl) ?_
    refine exists_run_cons (.checkCache rfl) ?_
    exact ⟨_, .nil _, rfl⟩
  obtain ⟨t, hrun, hat⟩ := hrun
  refine ⟨t, hat, ?_⟩
  rcases (authorization_sound ⟨0, rfl⟩ hrun).1 1 authorizeUpload hat with hanswer | hcached
  · exact .inl hanswer
  · obtain ⟨before, now, after, granted, hsplit, hle, hlt, j, request, hcall, hanswer, hsame⟩ :=
      hcached
    exact .inr ⟨before, now, after, granted, hsplit, ⟨j, request, by
      obtain ⟨htoken, hrepository, hwrite⟩ := hsame
      simp only [AuthorizeRequest.key, htoken, hrepository, hwrite], hcall, hanswer⟩, hle, hlt⟩

end LfsCloud
