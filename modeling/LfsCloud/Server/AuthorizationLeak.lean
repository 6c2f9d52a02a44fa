import LfsCloud.Server.AuthorizationRules

/-!
# Unused authorization locks

The entry of a key is removed by the test of a call that finds no other reference. A call
that is dropped makes no test, and a call that tests while another reference is left
relies on a test still to come. The entry goes with the last call exactly as long as such
a test is always left.
-/

namespace LfsCloud

open Transition

variable {ι : Type} [DecidableEq ι]

/-- Some other call will test the lock. -/
def AuthorizationState.TestLeft (s : AuthorizationState ι) (i : ι) (lock : ℕ) : Prop :=
  ∃ j request control, j ≠ i ∧ s.At j request control ∧ control.pending = some lock

/-- A call that finds its lock in use, and a call that is dropped with a reference to its
lock, leave the test to some other call. -/
def AuthorizationState.Attended (s : AuthorizationState ι) : AuthorizationEvent ι → Prop
  | .removeUnused i => ∀ request lock result, s.At i request (.unlocked lock result) →
    s.strongCount lock = 2 ∨ s.TestLeft i lock
  | .cancel i => ∀ request control lock, s.At i request control →
    control.reference = some lock → s.TestLeft i lock
  | _ => True

/-- Every call of a key has returned or was dropped. -/
def AuthorizationState.Ended (s : AuthorizationState ι) (key : AuthorizationCacheKey) : Prop :=
  ∀ i request control, s.At i request control → request.key = key → control.ended = true

/-- No entry without a call that will test it. -/
def AuthorizationState.Tested (s : AuthorizationState ι) : Prop :=
  ∀ key lock, s.locks.lookup key = some lock →
    ∃ i request control, s.At i request control ∧ control.pending = some lock

section

variable {s t : AuthorizationState ι} {i : ι} {request : AuthorizeRequest}
  {control control' : AuthorizeControl}

/-- An entry waits for the test of this call, or of another one. -/
theorem AuthorizationState.Tested.covers (hs : s.Tested) (hat : s.At i request control)
    {key : AuthorizationCacheKey} {lock : ℕ} (hlookup : s.locks.lookup key = some lock) :
    control.pending = some lock ∨ s.TestLeft i lock := by
  obtain ⟨j, request', control', hat', hpending⟩ := hs key lock hlookup
  by_cases hne : j = i
  · subst hne
    obtain ⟨rfl, rfl⟩ := hat.unique hat'
    exact .inl hpending
  · exact .inr ⟨j, request', control', hne, hat', hpending⟩

/-- A call moves on, where each entry waits for its test or for another one. -/
theorem AuthorizationState.tested_move (hcalls : t.calls = s.calls)
    (hcover : ∀ key lock, t.locks.lookup key = some lock →
      control.pending = some lock ∨ s.TestLeft i lock) : (t.move i request control).Tested := by
  intro key lock hlookup
  rcases hcover key lock hlookup with hpending | ⟨j, request', control', hne, hat, hpending⟩
  · exact ⟨i, request, control, at_move.mpr (.inl ⟨rfl, rfl, rfl⟩), hpending⟩
  · refine ⟨j, request', control', at_move.mpr (.inr ⟨hne, ?_⟩), hpending⟩
    unfold AuthorizationState.At at hat ⊢
    rwa [hcalls]

/-- A call moves on, and keeps the test that it had to make. -/
theorem AuthorizationState.Tested.move (hs : s.Tested) (hat : s.At i request control)
    (hlocks : t.locks = s.locks) (hcalls : t.calls = s.calls)
    (hpending : ∀ {lock}, control.pending = some lock → control'.pending = some lock) :
    (t.move i request control').Tested := by
  apply tested_move hcalls
  intro key lock hlookup
  rw [hlocks] at hlookup
  exact (hs.covers hat hlookup).imp_left hpending

/-- A call gives up its test, where another one is left. -/
theorem AuthorizationState.Tested.leave (hs : s.Tested) (hat : s.At i request control)
    {lock : ℕ} (hreference : control.reference = some lock) (hleft : s.TestLeft i lock)
    (hlocks : t.locks = s.locks) (hcalls : t.calls = s.calls) :
    (t.move i request control').Tested := by
  apply tested_move hcalls
  intro key lock' hlookup
  rw [hlocks] at hlookup
  rcases hs.covers hat hlookup with hpending | hother
  · have hsame := AuthorizeControl.reference_of_untested
      (AuthorizeControl.untested_of_pending hpending)
    rw [hreference] at hsame
    exact .inr (Option.some.inj hsame ▸ hleft)
  · exact .inr hother

/-- A test removes the entry, or leaves it to another call. -/
theorem AuthorizationState.Tested.removeUnused (hs : s.Tested) (hsound : s.Sound) {lock : ℕ}
    {result : Except ServerError Unit} (hat : s.At i request (.unlocked lock result))
    (hattended : s.strongCount lock = 2 ∨ s.TestLeft i lock) :
    ((s.removeUnusedAuthorizationLock request.key lock).move i request control').Tested := by
  have hstored : s.locks.lookup request.key = some lock := hsound.stored hat rfl
  unfold AuthorizationState.removeUnusedAuthorizationLock
  split
  next =>
    refine tested_move (s := s) rfl ?_
    intro key lock' hlookup
    obtain ⟨hne, hlookup⟩ := Table.lookup_erase_eq_some.mp hlookup
    rcases hs.covers hat hlookup with hpending | hother
    · obtain rfl := Option.some.inj hpending
      exact absurd (hsound.injective hlookup hstored) hne
    · exact .inr hother
  next hused =>
    rcases hattended with hcount | hleft
    · exact absurd ⟨hcount, hstored⟩ hused
    · exact hs.leave hat rfl hleft rfl rfl

omit [DecidableEq ι] in
/-- Asking for the lock of a key makes no entry but that of this call. -/
theorem AuthorizationState.lookup_of_lockFor {key key' : AuthorizationCacheKey} {lock : ℕ}
    (h : (s.lockFor key).2.locks.lookup key' = some lock) :
    lock = (s.lockFor key).1 ∨ s.locks.lookup key' = some lock := by
  by_cases hkey : key' = key
  · subst hkey
    rw [lookup_lockFor] at h
    exact .inl (Option.some.inj h).symm
  · unfold AuthorizationState.lockFor at h
    split at h
    · exact .inr h
    · exact .inr (by rwa [AList.lookup_insert_ne hkey] at h)

/-- Every attended step leaves a test for each entry. -/
theorem AuthorizationState.Tested.step {e : AuthorizationEvent ι} (hs : s.Tested)
    (hsound : s.Sound) (hattended : s.Attended e) (hstep : s.Step e t) : t.Tested := by
  cases hstep with
  | elapse => exact hs
  | authorize hnew =>
    refine tested_move (s := s) rfl ?_
    intro key lock hlookup
    obtain ⟨j, request', control', hat, hpending⟩ := hs key lock hlookup
    refine .inr ⟨j, request', control', ?_, hat, hpending⟩
    rintro rfl
    unfold AuthorizationState.At at hat
    rw [hnew] at hat
    cases hat
  | checkCache hcall => exact hs.move hcall rfl rfl nofun
  | @lockFor i request hcall =>
    refine tested_move (s := s) ?_ ?_
    · unfold AuthorizationState.lockFor
      split <;> rfl
    · intro key lock hlookup
      rcases lookup_of_lockFor hlookup with rfl | hold
      · exact .inl rfl
      · exact .inr ((hs.covers hcall hold).resolve_left nofun)
  | lock hcall hfree => exact hs.move hcall rfl rfl (fun h => h)
  | recheckCache hcall =>
    apply hs.move hcall rfl rfl
    intro lock h
    split <;> exact h
  | providerCallPermit hcall => exact hs.move hcall rfl rfl (fun h => h)
  | @answer i request lock result hcall =>
    cases result with
    | ok => exact hs.move hcall rfl rfl (fun h => h)
    | error e => exact hs.move hcall rfl rfl (fun h => h)
  | store hcall => exact hs.move hcall rfl rfl (fun h => h)
  | unlock hcall => exact hs.move hcall rfl rfl (fun h => h)
  | removeUnused hcall => exact hs.removeUnused hsound hcall (hattended _ _ _ hcall)
  | finish hcall => exact hs.move hcall rfl rfl nofun
  | cancelStart hcall => exact hs.move hcall rfl rfl nofun
  | cancelWaiting hcall => exact hs.leave hcall rfl (hattended _ _ _ hcall rfl) rfl rfl
  | cancelGuarded hcall =>
    rcases hcall with hcall | hcall
    · exact hs.leave hcall rfl (hattended _ _ _ hcall rfl) rfl rfl
    · exact hs.leave hcall rfl (hattended _ _ _ hcall rfl) rfl rfl
  | dropReference hcall => exact hs.move hcall rfl rfl nofun

end

/-- A call that has ended will make no test. -/
theorem AuthorizeControl.not_pending_of_ended {control : AuthorizeControl}
    (h : control.ended = true) (lock : ℕ) : control.pending ≠ some lock := by
  cases control with
  | returned result => nofun
  | dropped => nofun
  | _ => cases h

/-- As long as a call that finds its lock in use, or is dropped with a reference to it, leaves
the test to some other call, the lock map has no entry for a key whose calls have ended. -/
theorem authorization_locks_released {s : AuthorizationState ι}
    (hreach : ((authorizationSystem ι).restrict AuthorizationState.Attended).Reachable s)
    {key : AuthorizationCacheKey} (hended : s.Ended key) : s.locks.lookup key = none := by
  have htested : s.Tested := by
    refine hreach.invariant (P := AuthorizationState.Tested) ?_ ?_
    · rintro s ⟨now, rfl⟩
      nofun
    · intro s e t hs htested hstep
      exact htested.step (AuthorizationState.sound_of_reachable hs.of_restrict) hstep.2 hstep.1
  have hsound := AuthorizationState.sound_of_reachable hreach.of_restrict
  by_contra hentry
  obtain ⟨lock, hlookup⟩ := Option.ne_none_iff_exists'.mp hentry
  obtain ⟨i, request, control, hat, hpending⟩ := htested key lock hlookup
  have hstored := hsound.stored hat (AuthorizeControl.untested_of_pending hpending)
  have hkey := hsound.injective hstored hlookup
  exact AuthorizeControl.not_pending_of_ended (hended i request control hat hkey) lock hpending

/-- The calls of a key have ended if all calls have. -/
theorem AuthorizationState.ended_of_entries {s : AuthorizationState ι}
    (h : (s.calls.entries.all fun entry => entry.2.control.ended) = true)
    (key : AuthorizationCacheKey) : s.Ended key := by
  intro i request control hat _
  exact List.all_eq_true.mp h ⟨i, request, control⟩ (AList.mem_lookup_iff.mp hat)

/-- A call that awaits the lock is dropped, and the call that has it is refused. -/
theorem authorization_locks_released_refused : ∃ s : AuthorizationState ℕ,
    ((authorizationSystem ℕ).restrict AuthorizationState.Attended).Reachable s ∧
      s.Ended authorizeUpload.key ∧ s.locks.lookup authorizeUpload.key = none := by
  have hrun : ∃ s : AuthorizationState ℕ,
      ((authorizationSystem ℕ).restrict AuthorizationState.Attended).Run (.new 0)
        [.authorize 0 authorizeUpload, .checkCache 0 0, .lockFor 0, .lock 0,
          .authorize 1 authorizeUpload, .checkCache 1 0, .lockFor 1, .cancel 1, .dropReference 1,
          .checkCache 0 0, .providerCallPermit 0, .answer 0 (.error (.rateLimited 60)) 0,
          .unlock 0, .removeUnused 0, .finish 0 (.ok false)] s ∧
        s.Ended authorizeUpload.key := by
    refine exists_run_cons ⟨.authorize rfl, trivial⟩ ?_
    refine exists_run_cons ⟨.checkCache rfl, trivial⟩ ?_
    refine exists_run_cons ⟨.lockFor rfl, trivial⟩ ?_
    refine exists_run_cons ⟨.lock rfl rfl, trivial⟩ ?_
    refine exists_run_cons ⟨.authorize rfl, trivial⟩ ?_
    refine exists_run_cons ⟨.checkCache rfl, trivial⟩ ?_
    refine exists_run_cons ⟨.lockFor rfl, trivial⟩ ?_
    refine exists_run_cons ⟨.cancelWaiting rfl, ?_⟩ ?_
    · intro request control lock hat hreference
      obtain ⟨rfl, rfl⟩ := hat.unique (show AuthorizationState.At _ 1 authorizeUpload (.waiting 0)
        from rfl)
      exact ⟨0, authorizeUpload, .locked 0, by decide, rfl, hreference⟩
    refine exists_run_cons ⟨.dropReference rfl, trivial⟩ ?_
    refine exists_run_cons ⟨.recheckCache rfl, trivial⟩ ?_
    refine exists_run_cons ⟨.providerCallPermit rfl, trivial⟩ ?_
    refine exists_run_cons ⟨.answer rfl, trivial⟩ ?_
    refine exists_run_cons ⟨.unlock rfl, trivial⟩ ?_
    refine exists_run_cons ⟨.removeUnused rfl, ?_⟩ ?_
    · intro request lock result hat
      obtain ⟨rfl, hcontrol⟩ := hat.unique (show AuthorizationState.At _ 0 authorizeUpload
        (.unlocked 0 (.error (.rateLimited 60))) from rfl)
      cases hcontrol
      exact .inl rfl
    refine exists_run_cons ⟨.finish rfl, trivial⟩ ?_
    exact ⟨_, .nil _, AuthorizationState.ended_of_entries rfl _⟩
  obtain ⟨s, hrun, hended⟩ := hrun
  have hreach : ((authorizationSystem ℕ).restrict AuthorizationState.Attended).Reachable s :=
    ⟨_, _, ⟨0, rfl⟩, hrun⟩
  exact ⟨s, hreach, hended, authorization_locks_released hreach hended⟩

/-- Two calls of one key, none of them dropped. Each makes its test while the other still has
its reference. -/
theorem authorization_lock_leak_run : ∃ s : AuthorizationState ℕ,
    (authorizationSystem ℕ).Run (.new 0)
      [.authorize 0 authorizeUpload, .checkCache 0 0, .lockFor 0, .lock 0,
        .authorize 1 authorizeUpload, .checkCache 1 0, .lockFor 1,
        .checkCache 0 0, .providerCallPermit 0, .answer 0 (.ok ()) 0, .store 0, .unlock 0,
        .removeUnused 0, .lock 1, .checkCache 1 0, .unlock 1, .removeUnused 1,
        .finish 0 (.ok false), .finish 1 (.ok false)] s ∧
      s.Ended authorizeUpload.key ∧ s.locks.lookup authorizeUpload.key = some 0 := by
  refine exists_run_cons (.authorize rfl) ?_
  refine exists_run_cons (.checkCache rfl) ?_
  refine exists_run_cons (.lockFor rfl) ?_
  refine exists_run_cons (.lock rfl rfl) ?_
  refine exists_run_cons (.authorize rfl) ?_
  refine exists_run_cons (.checkCache rfl) ?_
  refine exists_run_cons (.lockFor rfl) ?_
  refine exists_run_cons (.recheckCache rfl) ?_
  refine exists_run_cons (.providerCallPermit rfl) ?_
  refine exists_run_cons (.answer rfl) ?_
  refine exists_run_cons (.store rfl) ?_
  refine exists_run_cons (.unlock rfl) ?_
  refine exists_run_cons (.removeUnused rfl) ?_
  refine exists_run_cons (.lock rfl rfl) ?_
  refine exists_run_cons (.recheckCache rfl) ?_
  refine exists_run_cons (.unlock rfl) ?_
  refine exists_run_cons (.removeUnused rfl) ?_
  refine exists_run_cons (.finish rfl) ?_
  refine exists_run_cons (.finish rfl) ?_
  exact ⟨_, .nil _, AuthorizationState.ended_of_entries rfl _, rfl⟩

/-- The entry of a key can stay after all its calls have returned. -/
theorem authorization_lock_leak : ¬∀ s : AuthorizationState ℕ,
    (authorizationSystem ℕ).Reachable s → ∀ key, s.Ended key → s.locks.lookup key = none := by
  intro hreleased
  obtain ⟨s, hrun, hended, hlookup⟩ := authorization_lock_leak_run
  have hnone := hreleased s ⟨_, _, ⟨0, rfl⟩, hrun⟩ _ hended
  rw [hlookup] at hnone
  cases hnone

/-- So can the entry of a single call that is dropped while it awaits the lock. -/
theorem authorization_lock_leak_dropped : ∃ s : AuthorizationState ℕ,
    (authorizationSystem ℕ).Run (.new 0) [.authorize 0 authorizeUpload, .checkCache 0 0, .lockFor 0,
      .cancel 0, .dropReference 0] s ∧
      s.Ended authorizeUpload.key ∧ s.locks.lookup authorizeUpload.key = some 0 := by
  refine exists_run_cons (.authorize rfl) ?_
  refine exists_run_cons (.checkCache rfl) ?_
  refine exists_run_cons (.lockFor rfl) ?_
  refine exists_run_cons (.cancelWaiting rfl) ?_
  refine exists_run_cons (.dropReference rfl) ?_
  exact ⟨_, .nil _, AuthorizationState.ended_of_entries rfl _, rfl⟩

end LfsCloud
