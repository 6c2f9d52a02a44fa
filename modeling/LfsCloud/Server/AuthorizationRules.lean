import LfsCloud.Server.Authorization

/-!
# Locks of authorization calls

Calls of one key that have not made their test share the lock in the map: the test removes
it only when no other call has a reference. So the guards of two calls of one key exclude
each other, and one of them at most has asked the provider.
-/

namespace LfsCloud

open Transition

/-- A lock to be tested is one the call has a reference to and has not tested. -/
theorem AuthorizeControl.untested_of_pending {control : AuthorizeControl} {lock : ℕ}
    (h : control.pending = some lock) : control.untested = some lock := by
  cases control <;> first | exact h | cases h

theorem AuthorizeControl.reference_of_untested {control : AuthorizeControl} {lock : ℕ}
    (h : control.untested = some lock) : control.reference = some lock := by
  cases control <;> first | exact h | cases h

theorem AuthorizeControl.pending_of_guarded {control : AuthorizeControl} {lock : ℕ}
    (h : control.guarded = some lock) : control.pending = some lock := by
  cases control <;> first | exact h | cases h

variable {ι : Type} [DecidableEq ι]

/-- Where the calls are after one has moved on. -/
theorem AuthorizationState.at_move {s : AuthorizationState ι} {i j : ι}
    {request request' : AuthorizeRequest} {control control' : AuthorizeControl} :
    (s.move i request control).At j request' control' ↔
      (j = i ∧ request' = request ∧ control' = control) ∨
        (j ≠ i ∧ s.At j request' control') := by
  unfold AuthorizationState.At AuthorizationState.move
  rw [Table.lookup_insert_eq_some]
  simp only [AuthorizeCall.mk.injEq, eq_comm]

/-- A call is at one point of its code. -/
theorem AuthorizationState.At.unique {s : AuthorizationState ι} {i : ι}
    {request request' : AuthorizeRequest} {control control' : AuthorizeControl}
    (h : s.At i request control) (h' : s.At i request' control') :
    request' = request ∧ control' = control := by
  have hcall := Option.some.inj (h'.symm.trans h)
  exact ⟨congrArg AuthorizeCall.request hcall, congrArg AuthorizeCall.control hcall⟩

/-- Every key has its own lock, calls refer to the lock of their key until they have tested
it, and a guard is with the call that has it. -/
structure AuthorizationState.Sound (s : AuthorizationState ι) : Prop where
  bounded : ∀ {key lock}, s.locks.lookup key = some lock → lock < s.nextLock
  injective : ∀ {key key' lock}, s.locks.lookup key = some lock →
    s.locks.lookup key' = some lock → key = key'
  referenced : ∀ {i request control lock}, s.At i request control →
    control.reference = some lock → lock < s.nextLock
  stored : ∀ {i request control lock}, s.At i request control →
    control.untested = some lock → s.locks.lookup request.key = some lock
  guard : ∀ {i request control lock}, s.At i request control →
    control.guarded = some lock → s.holder lock = some i

section Sound

variable {s t : AuthorizationState ι} {i : ι} {request : AuthorizeRequest}
  {control control' : AuthorizeControl}

/-- A call moves to a point where the state allows it to be. -/
theorem AuthorizationState.Sound.enter (hs : s.Sound)
    (hreferenced : ∀ {lock}, control'.reference = some lock → lock < s.nextLock)
    (hstored : ∀ {lock}, control'.untested = some lock → s.locks.lookup request.key = some lock)
    (hguard : ∀ {lock}, control'.guarded = some lock → s.holder lock = some i) :
    (s.move i request control').Sound := by
  constructor
  · exact hs.bounded
  · exact hs.injective
  · intro j request' control lock hat hreference
    rcases at_move.mp hat with ⟨rfl, rfl, rfl⟩ | ⟨_, hat⟩
    · exact hreferenced hreference
    · exact hs.referenced hat hreference
  · intro j request' control lock hat huntested
    rcases at_move.mp hat with ⟨rfl, rfl, rfl⟩ | ⟨_, hat⟩
    · exact hstored huntested
    · exact hs.stored hat huntested
  · intro j request' control lock hat hguarded
    rcases at_move.mp hat with ⟨rfl, rfl, rfl⟩ | ⟨_, hat⟩
    · exact hguard hguarded
    · exact hs.guard hat hguarded

/-- A call moves on with what it has. -/
theorem AuthorizationState.Sound.move (hs : s.Sound) (hat : s.At i request control)
    (hreference : ∀ {lock}, control'.reference = some lock → control.reference = some lock)
    (huntested : ∀ {lock}, control'.untested = some lock → control.untested = some lock)
    (hguarded : ∀ {lock}, control'.guarded = some lock → control.guarded = some lock) :
    (s.move i request control').Sound :=
  hs.enter (fun h => hs.referenced hat (hreference h)) (fun h => hs.stored hat (huntested h))
    (fun h => hs.guard hat (hguarded h))

/-- The cache is not part of the invariant. -/
theorem AuthorizationState.Sound.setCache (hs : s.Sound)
    (cache : Table AuthorizationCacheKey ℕ) :
    ({ s with cache := cache } : AuthorizationState ι).Sound :=
  ⟨hs.bounded, hs.injective, hs.referenced, hs.stored, hs.guard⟩

/-- A guard changes hands, where no other call has it. -/
theorem AuthorizationState.Sound.setHolder (hs : s.Sound) {lock : ℕ} {holder : Option ι}
    (honly : ∀ {j request control}, s.At j request control → control.guarded = some lock →
      holder = some j) : (s.setHolder lock holder).Sound := by
  refine ⟨hs.bounded, hs.injective, hs.referenced, hs.stored, ?_⟩
  intro j request control lock' hat hguarded
  change Function.update s.holder lock holder lock' = some j
  by_cases hlock : lock' = lock
  · subst hlock
    rw [Function.update_self]
    exact honly hat hguarded
  · rw [Function.update_of_ne hlock]
    exact hs.guard hat hguarded

/-- A call gives its guard up. -/
theorem AuthorizationState.Sound.release (hs : s.Sound) (hat : s.At i request control)
    {lock : ℕ} (hguarded : control.guarded = some lock) (hnone : control'.guarded = none)
    (hreference : ∀ {lock}, control'.reference = some lock → control.reference = some lock)
    (huntested : ∀ {lock}, control'.untested = some lock → control.untested = some lock) :
    ((s.setHolder lock none).move i request control').Sound := by
  have hmoved : (s.move i request control').Sound := by
    apply hs.move hat hreference huntested
    intro lock' h
    rw [hnone] at h
    cases h
  apply hmoved.setHolder
  intro j request' control'' hat' hguarded'
  rcases at_move.mp hat' with ⟨rfl, rfl, rfl⟩ | ⟨hne, hat'⟩
  · rw [hnone] at hguarded'
    cases hguarded'
  · have hholder := (hs.guard hat hguarded).symm.trans (hs.guard hat' hguarded')
    exact absurd (Option.some.inj hholder).symm hne

omit [DecidableEq ι] in
/-- The map has the lock of a key after it was asked for. -/
theorem AuthorizationState.lookup_lockFor (s : AuthorizationState ι)
    (key : AuthorizationCacheKey) :
    (s.lockFor key).2.locks.lookup key = some (s.lockFor key).1 := by
  unfold AuthorizationState.lockFor
  split
  next lock hlookup => exact hlookup
  next => exact AList.lookup_insert _

/-- Asking for the lock of a key keeps the invariant. -/
theorem AuthorizationState.Sound.lockFor (hs : s.Sound) (key : AuthorizationCacheKey) :
    (s.lockFor key).2.Sound := by
  unfold AuthorizationState.lockFor
  split
  next => exact hs
  next hnone =>
    refine ⟨?_, ?_, ?_, ?_, hs.guard⟩
    · intro key' lock hlookup
      rcases Table.lookup_insert_eq_some.mp hlookup with ⟨_, rfl⟩ | ⟨_, hlookup⟩
      · exact Nat.lt_succ_self _
      · exact Nat.lt_succ_of_lt (hs.bounded hlookup)
    · intro key₁ key₂ lock hlookup₁ hlookup₂
      have hnew : ∀ {key'}, s.locks.lookup key' ≠ some s.nextLock := fun h =>
        absurd (hs.bounded h) (lt_irrefl _)
      rcases Table.lookup_insert_eq_some.mp hlookup₁ with ⟨rfl, rfl⟩ | ⟨_, hold₁⟩
      · rcases Table.lookup_insert_eq_some.mp hlookup₂ with ⟨rfl, _⟩ | ⟨_, hold₂⟩
        · rfl
        · exact absurd hold₂ hnew
      · rcases Table.lookup_insert_eq_some.mp hlookup₂ with ⟨rfl, rfl⟩ | ⟨_, hold₂⟩
        · exact absurd hold₁ hnew
        · exact hs.injective hold₁ hold₂
    · intro j request' control lock hat hreference
      exact Nat.lt_succ_of_lt (hs.referenced hat hreference)
    · intro j request' control lock hat huntested
      have hlookup := hs.stored hat huntested
      refine Table.lookup_insert_eq_some.mpr (.inr ⟨?_, hlookup⟩)
      rintro rfl
      rw [hnone] at hlookup
      cases hlookup

/-- A lock with a reference in the map and two more has no count of two. -/
theorem AuthorizationState.three_le_strongCount {j : ι} {request' : AuthorizeRequest}
    {key : AuthorizationCacheKey} {lock : ℕ} (hlookup : s.locks.lookup key = some lock)
    (hne : j ≠ i) (hat : s.At i request control) (hat' : s.At j request' control')
    (hreference : control.reference = some lock) (hreference' : control'.reference = some lock) :
    3 ≤ s.strongCount lock := by
  have hmap : 0 < s.locks.count fun stored => stored = lock :=
    Table.count_pos_iff.mpr ⟨key, lock, hlookup, by simp⟩
  have hcalls : 2 ≤ s.calls.count fun call => call.control.reference = some lock :=
    Table.two_le_count hne hat' hat (by simpa using hreference') (by simpa using hreference)
  unfold AuthorizationState.strongCount
  omega

/-- A test keeps the invariant: a lock is removed only when no other call has it. -/
theorem AuthorizationState.Sound.removeUnused (hs : s.Sound) {lock : ℕ}
    {result : Except ServerError Unit} (hat : s.At i request (.unlocked lock result)) :
    ((s.removeUnusedAuthorizationLock request.key lock).move i request
      (.tested lock result)).Sound := by
  have hmoved : (s.move i request (.tested lock result)).Sound := by
    apply hs.move hat
    · exact fun h => h
    · nofun
    · nofun
  unfold AuthorizationState.removeUnusedAuthorizationLock
  split
  next hunused =>
    obtain ⟨hcount, hlookup⟩ := hunused
    refine ⟨?_, ?_, hmoved.referenced, ?_, hmoved.guard⟩
    · intro key lock' h
      exact hs.bounded (Table.lookup_erase_eq_some.mp h).2
    · intro key key' lock' h h'
      exact hs.injective (Table.lookup_erase_eq_some.mp h).2 (Table.lookup_erase_eq_some.mp h').2
    · intro j request' control' lock' hat' huntested
      have hlookup' : s.locks.lookup request'.key = some lock' := hmoved.stored hat' huntested
      refine Table.lookup_erase_eq_some.mpr ⟨?_, hlookup'⟩
      -- Another call of the key would be a third reference.
      intro hkey
      rcases at_move.mp hat' with ⟨rfl, rfl, rfl⟩ | ⟨hne, hat'⟩
      · cases huntested
      · rw [hkey, hlookup] at hlookup'
        obtain rfl := Option.some.inj hlookup'
        have hthree := three_le_strongCount hlookup hne hat hat' rfl
          (AuthorizeControl.reference_of_untested huntested)
        omega
  next => exact hmoved

/-- Every step keeps the invariant. -/
theorem AuthorizationState.Sound.step {e : AuthorizationEvent ι} (hs : s.Sound)
    (hstep : s.Step e t) : t.Sound := by
  cases hstep with
  | elapse => exact ⟨hs.bounded, hs.injective, hs.referenced, hs.stored, hs.guard⟩
  | authorize hnew => exact hs.enter nofun nofun nofun
  | @checkCache i request hcall =>
    apply (hs.setCache (authorizationIsCached s.cache request.key s.now).2).enter
    · intro lock h
      split at h <;> cases h
    · intro lock h
      split at h <;> cases h
    · intro lock h
      split at h <;> cases h
  | @lockFor i request hcall =>
    have hlookup := s.lookup_lockFor request.key
    have hs' := hs.lockFor request.key
    apply hs'.enter
    · rintro lock ⟨⟩
      exact hs'.bounded hlookup
    · rintro lock ⟨⟩
      exact hlookup
    · nofun
  | @lock i request lock hcall hfree =>
    have hs' : (s.setHolder lock (some i)).Sound := by
      apply hs.setHolder
      intro j request' control hat hguarded
      have hholder := hs.guard hat hguarded
      rw [hfree] at hholder
      cases hholder
    apply hs'.enter
    · exact fun h => hs.referenced hcall h
    · exact fun h => hs.stored hcall h
    · rintro lock ⟨⟩
      exact Function.update_self ..
  | @recheckCache i request lock hcall =>
    apply (hs.setCache (authorizationIsCached s.cache request.key s.now).2).move hcall
    · intro lock h
      split at h <;> exact h
    · intro lock h
      split at h <;> exact h
    · intro lock h
      split at h <;> exact h
  | providerCallPermit hcall => exact hs.move hcall (fun h => h) (fun h => h) (fun h => h)
  | @answer i request lock result hcall =>
    cases result with
    | ok => exact hs.move hcall (fun h => h) (fun h => h) (fun h => h)
    | error e => exact hs.move hcall (fun h => h) (fun h => h) (fun h => h)
  | @store i request lock expiresAt hcall =>
    exact (hs.setCache (storeAuthorization s.cache request.key s.now expiresAt)).move hcall
      (fun h => h) (fun h => h) (fun h => h)
  | unlock hcall => exact hs.release hcall rfl rfl (fun h => h) (fun h => h)
  | removeUnused hcall => exact hs.removeUnused hcall
  | finish hcall => exact hs.enter nofun nofun nofun
  | cancelStart hcall => exact hs.enter nofun nofun nofun
  | cancelWaiting hcall => exact hs.move hcall (fun h => h) (fun h => h) nofun
  | cancelGuarded hcall =>
    rcases hcall with hcall | hcall
    · exact hs.release hcall rfl rfl (fun h => h) (fun h => h)
    · exact hs.release hcall rfl rfl (fun h => h) (fun h => h)
  | dropReference hcall => exact hs.enter nofun nofun nofun

end Sound

/-- Before any call there is nothing to keep. -/
theorem AuthorizationState.sound_new (now : ℕ) : (new (ι := ι) now).Sound :=
  ⟨nofun, nofun, nofun, nofun, nofun⟩

theorem AuthorizationState.sound_of_reachable {s : AuthorizationState ι}
    (hreach : (authorizationSystem ι).Reachable s) : s.Sound := by
  refine hreach.invariant (P := AuthorizationState.Sound) ?_ ?_
  · rintro s ⟨now, rfl⟩
    exact sound_new now
  · intro s e t _ hs hstep
    exact hs.step hstep

/-- Two calls of one key with a guard are the same call. -/
theorem AuthorizationState.Sound.guard_unique {s : AuthorizationState ι} (hs : s.Sound) {i j : ι}
    {request request' : AuthorizeRequest} {control control' : AuthorizeControl} {lock lock' : ℕ}
    (hat : s.At i request control) (hat' : s.At j request' control')
    (hguarded : control.guarded = some lock) (hguarded' : control'.guarded = some lock')
    (hkey : request.key = request'.key) : i = j := by
  have hlookup := hs.stored hat
    (AuthorizeControl.untested_of_pending (AuthorizeControl.pending_of_guarded hguarded))
  have hlookup' := hs.stored hat'
    (AuthorizeControl.untested_of_pending (AuthorizeControl.pending_of_guarded hguarded'))
  rw [hkey, hlookup'] at hlookup
  obtain rfl := Option.some.inj hlookup
  exact Option.some.inj ((hs.guard hat hguarded).symm.trans (hs.guard hat' hguarded'))

end LfsCloud
