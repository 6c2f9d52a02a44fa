import LfsCloud.Server.BlockingPool

/-!
# When uploads cannot deadlock

The wait for a lock file keeps its thread, also after its handler is gone, and the
handler that has the lock needs threads to get to the end. Permits bound the waits of
live handlers, and the holder has one of them; waits that were left behind count on top.
-/

namespace LfsCloud

open Transition Interaction

variable {ι : Type} [DecidableEq ι]

/-- The next step of a handler needs a thread that it does not have. -/
def UploadServer.NeedsThread (s : UploadServer ι) (i : ι) : Prop :=
  (∃ c next, s.handler i = .ready (.call c next) ∧ c.blocking = true) ∨
    ∃ c next, s.handler i = .awaiting c next ∧ ⟨i, c⟩ ∈ s.queue

/-- Every thread waits for a lock file that is with a handler whose next step needs a
thread. -/
def UploadServer.Deadlocked (threads : ℕ) (sha256 : List UInt8 → List UInt8)
    (s : UploadServer ι) : Prop :=
  s.running ≠ [] ∧ s.running.length = threads ∧ ∀ task ∈ s.running, ∃ key holder,
    task.call = .acquireObjectUploadLock key ∧
      s.shared.fileLocks (objectUploadLockStripe sha256 key) = some holder ∧
        s.NeedsThread holder

/-- The tasks that were spawned and are not done. -/
def UploadServer.tasks (s : UploadServer ι) : List (BlockingTask ι) := s.queue ++ s.running

/-- Lock waits whose handler is gone. -/
def UploadServer.abandoned (s : UploadServer ι) : ℕ :=
  s.tasks.countP fun task => task.isLockWait && decide (task.owner ∉ s.active)

/-- A handler is dropped during its lock wait only if the waits left behind and the
permits together do not exceed the threads. -/
def UploadServer.Spared (threads limit : ℕ) (s : UploadServer ι) : UploadEvent ι → Prop
  | .disconnect i => ∀ key next, s.handler i = .awaiting (.acquireObjectUploadLock key) next →
    limit + (s.abandoned + 1) ≤ threads
  | _ => True

/-- A handler is there, and has neither answered nor been dropped. -/
def HandlerState.Live : HandlerState → Prop
  | .ready _ => True
  | .awaiting _ _ => True
  | _ => False

/-- The invariant: permits go with live handlers, lock files are with live handlers, and a
handler has at most one task, the one that it awaits while it is live. -/
structure UploadServer.Sound (limit : ℕ) (s : UploadServer ι) : Prop where
  permits : s.active.card ≤ limit
  live : ∀ i, i ∈ s.active ↔ (s.handler i).Live
  holder : ∀ stripe i, s.shared.fileLocks stripe = some i → i ∈ s.active
  single : (s.tasks.map BlockingTask.owner).Nodup
  task : ∀ task ∈ s.tasks, (∃ next, s.handler task.owner = .awaiting task.call next) ∨
    s.handler task.owner = .gone

/-- Counting what has one of two properties. -/
theorem countP_le_add {α : Type} {p q r : α → Bool} {l : List α}
    (h : ∀ a, p a = true → q a = true ∨ r a = true) :
    l.countP p ≤ l.countP q + l.countP r := by
  induction l with
  | nil => simp
  | cons a l ih =>
    have ha := h a
    simp only [List.countP_cons]
    split_ifs with hp hq hr
    all_goals first | omega | simp_all

/-- Tasks whose handlers are in a set are at most as many as the set. -/
theorem UploadServer.Sound.length_le_card {limit : ℕ} {s : UploadServer ι} (hs : s.Sound limit)
    {tasks : List (BlockingTask ι)} (hsub : tasks.Sublist s.tasks) {owners : Finset ι}
    (howners : ∀ task ∈ tasks, task.owner ∈ owners) : tasks.length ≤ owners.card := by
  have hnodup : (tasks.map BlockingTask.owner).Nodup := hs.single.sublist (hsub.map _)
  have hcard := List.toFinset_card_of_nodup hnodup
  rw [List.length_map] at hcard
  rw [← hcard]
  apply Finset.card_le_card
  intro i hi
  obtain ⟨task, htask, rfl⟩ := List.mem_map.mp (List.mem_toFinset.mp hi)
  exact howners task htask

/-- The last clause: enough threads for the permits and the waits left behind. -/
def UploadServer.Enough (threads limit : ℕ) (s : UploadServer ι) : Prop :=
  limit + s.abandoned ≤ threads

/-- A sound server with enough threads is not deadlocked: the holder has a permit, and no
task on a thread. -/
theorem UploadServer.Sound.not_deadlocked {threads limit : ℕ} {sha256 : List UInt8 → List UInt8}
    {s : UploadServer ι} (hs : s.Sound limit) (henough : s.Enough threads limit) :
    ¬s.Deadlocked threads sha256 := by
  rintro ⟨hne, hlength, hwaits⟩
  obtain ⟨first, hfirst⟩ := List.exists_mem_of_ne_nil _ hne
  obtain ⟨_, holder, _, hlock, hneeds⟩ := hwaits first hfirst
  have hholder : holder ∈ s.active := hs.holder _ _ hlock
  -- The holder awaits nothing that runs.
  have hidle : ∀ task ∈ s.running, task.owner ≠ holder := by
    rintro task htask rfl
    have hmem : task ∈ s.tasks := List.mem_append_right _ htask
    rcases hneeds with ⟨c, next, hready, _⟩ | ⟨c, next, hawaiting, hqueued⟩
    · rcases hs.task task hmem with ⟨next', h⟩ | h
      · rw [h] at hready
        cases hready
      · rw [h] at hready
        cases hready
    · have hnodup := hs.single
      rw [tasks, List.map_append, List.nodup_append] at hnodup
      exact hnodup.2.2 _ (List.mem_map_of_mem hqueued) _ (List.mem_map_of_mem htask) rfl
  -- The other live handlers have a permit each, and a task each at most.
  have hlive : (s.running.filter fun task => decide (task.owner ∈ s.active)).length ≤
      (s.active.erase holder).card := by
    apply hs.length_le_card
    · exact (List.filter_sublist).trans (List.sublist_append_right _ _)
    · intro task htask
      obtain ⟨hmem, hactive⟩ := List.mem_filter.mp htask
      exact Finset.mem_erase.mpr ⟨hidle task hmem, of_decide_eq_true hactive⟩
  have hleft : (s.running.filter fun task => !decide (task.owner ∈ s.active)).length ≤
      s.abandoned := by
    rw [← List.countP_eq_length_filter]
    unfold abandoned tasks
    rw [List.countP_append]
    have hsame : s.running.countP (fun task => !decide (task.owner ∈ s.active)) ≤
        s.running.countP fun task => task.isLockWait && decide (task.owner ∉ s.active) := by
      apply List.countP_mono_left
      intro task htask hgone
      obtain ⟨key, _, hcall, _⟩ := hwaits task htask
      have hwait : task.isLockWait = true := by
        unfold BlockingTask.isLockWait
        rw [hcall]
      rw [hwait, Bool.true_and, decide_not]
      exact hgone
    omega
  have hsplit := List.length_eq_length_filter_add (l := s.running)
    fun task => decide (task.owner ∈ s.active)
  have hcard := Finset.card_erase_of_mem hholder
  have hpos : 0 < s.active.card := Finset.card_pos.mpr ⟨holder, hholder⟩
  have hpermits := hs.permits
  unfold Enough at henough
  omega

section Steps

variable {threads limit : ℕ} {sha256 : List UInt8 → List UInt8} {s t : UploadServer ι} {i : ι}

omit [DecidableEq ι] in
/-- A live handler without a task. -/
theorem UploadServer.Sound.owner_ne {rest : UploadProg} (hs : s.Sound limit)
    (hready : s.handler i = .ready rest) : ∀ task ∈ s.tasks, task.owner ≠ i := by
  rintro task htask rfl
  rcases hs.task task htask with ⟨next, h⟩ | h
  · rw [h] at hready
    cases hready
  · rw [h] at hready
    cases hready

/-- A live handler goes on to another live state, with what the others have unchanged. -/
theorem UploadServer.Sound.update {h : HandlerState} {shared : ServerState ι}
    {lockRef : ι → Option ℕ} {queue running : List (BlockingTask ι)} (hs : s.Sound limit)
    (hactive : i ∈ s.active) (hlive : h.Live)
    (hholder : ∀ stripe j, shared.fileLocks stripe = some j → j ∈ s.active)
    (hsingle : ((queue ++ running).map BlockingTask.owner).Nodup)
    (hown : ∀ task ∈ queue ++ running, task.owner = i → ∃ next, h = .awaiting task.call next)
    (hothers : ∀ task ∈ queue ++ running, task.owner ≠ i → task ∈ s.tasks) :
    UploadServer.Sound limit ⟨shared, Function.update s.handler i h, lockRef, s.active, queue,
      running⟩ := by
  refine ⟨hs.permits, fun j => ?_, hholder, hsingle, fun task htask => ?_⟩
  · by_cases hj : j = i
    · subst hj
      simp only [Function.update_self, hactive, hlive]
    · simp only [Function.update_of_ne hj]
      exact hs.live j
  · by_cases howner : task.owner = i
    · obtain ⟨next, rfl⟩ := hown task htask howner
      left
      exact ⟨next, by simp only [howner, Function.update_self]⟩
    · simp only [Function.update_of_ne howner]
      exact hs.task task (hothers task htask howner)

omit [DecidableEq ι] in
theorem mem_active_of_live (hs : s.Sound limit) {h : HandlerState} (hhandler : s.handler i = h)
    (hlive : h.Live) : i ∈ s.active := by
  rw [hs.live, hhandler]
  exact hlive

/-- After the call of a live handler the lock files are with live handlers. -/
theorem holder_of_serverOp {shared : ServerState ι} {c : ServerCall}
    {answer : serverInterface.Answer c} (hs : s.Sound limit) (hactive : i ∈ s.active)
    (hop : serverOp sha256 i s.shared c answer shared) :
    ∀ stripe j, shared.fileLocks stripe = some j → j ∈ s.active := by
  intro stripe j hj
  rcases serverOp_fileLocks hop hj with hold | rfl
  · exact hs.holder stripe j hold
  · exact hactive

/-- A handler goes. -/
theorem UploadServer.Sound.leave (hs : s.Sound limit) (i : ι) : (s.leave i).Sound limit := by
  refine ⟨?_, fun j => ?_, fun stripe j hj => ?_, hs.single, fun task htask => ?_⟩
  · exact (Finset.card_erase_le).trans hs.permits
  · by_cases hj : j = i
    · subst hj
      simp [UploadServer.leave, HandlerState.Live]
    · simp only [UploadServer.leave, Finset.mem_erase, Function.update_of_ne hj, ne_eq, hj,
        not_false_eq_true, true_and]
      exact hs.live j
  · simp only [UploadServer.leave, ServerState.dropHandler] at hj
    split at hj
    · cases hj
    next hne =>
      refine Finset.mem_erase.mpr ⟨?_, hs.holder stripe j hj⟩
      rintro rfl
      exact hne hj
  · by_cases howner : task.owner = i
    · right
      simp only [UploadServer.leave, howner, Function.update_self]
    · simp only [UploadServer.leave, Function.update_of_ne howner]
      exact hs.task task htask

omit [DecidableEq ι] in
/-- Without the task of a thread, what is left are other tasks of other handlers. -/
theorem UploadServer.Sound.without {c : ServerCall} {before after : List (BlockingTask ι)}
    (hs : s.Sound limit) (hrunning : s.running = before ++ ⟨i, c⟩ :: after) :
    (s.queue ++ (before ++ after)).Sublist s.tasks ∧
      ∀ task ∈ s.queue ++ (before ++ after), task.owner ≠ i := by
  have hsub : (s.queue ++ (before ++ after)).Sublist s.tasks := by
    unfold UploadServer.tasks
    rw [hrunning]
    exact ((List.sublist_cons_self _ _).append_left before).append_left s.queue
  refine ⟨hsub, ?_⟩
  have hnodup := hs.single
  have hperm : (s.tasks.map BlockingTask.owner).Perm
      (i :: (s.queue ++ (before ++ after)).map BlockingTask.owner) := by
    unfold UploadServer.tasks
    rw [hrunning, ← List.append_assoc, ← List.append_assoc]
    exact (List.perm_middle.map BlockingTask.owner)
  have hnotMem := (List.nodup_cons.mp (hperm.nodup_iff.mp hnodup)).1
  rintro task htask rfl
  exact hnotMem (List.mem_map_of_mem htask)

/-- Every step keeps the server sound. -/
theorem UploadServer.Sound.step {e : UploadEvent ι} (hs : s.Sound limit)
    (hstep : s.Step threads limit sha256 e t) : t.Sound limit := by
  cases hstep with
  | @enter i put habsent hpermit =>
    have hnot : i ∉ s.active := by
      intro hactive
      have hlive := (hs.live i).mp hactive
      rw [habsent] at hlive
      exact hlive
    refine ⟨?_, fun j => ?_, fun stripe j hj => ?_, hs.single, fun task htask => ?_⟩
    · rw [Finset.card_insert_of_notMem hnot]
      omega
    · by_cases hj : j = i
      · subst hj
        simp [HandlerState.Live]
      · simp only [Finset.mem_insert, hj, false_or, Function.update_of_ne hj]
        exact hs.live j
    · exact Finset.mem_insert_of_mem (hs.holder stripe j hj)
    · have howner : task.owner ≠ i := by
        rintro rfl
        rcases hs.task task htask with ⟨_, h⟩ | h
        · rw [h] at habsent
          cases habsent
        · rw [h] at habsent
          cases habsent
      simp only [Function.update_of_ne howner]
      exact hs.task task htask
  | @reject i put habsent hpermit =>
    refine ⟨hs.permits, fun j => ?_, hs.holder, hs.single, fun task htask => ?_⟩
    · rw [hs.live]
      by_cases hj : j = i
      · subst hj
        simp [habsent, HandlerState.Live]
      · simp only [Function.update_of_ne hj]
    · by_cases howner : task.owner = i
      · right
        simp only [howner, Function.update_self]
      · simp only [Function.update_of_ne howner]
        exact hs.task task htask
  | @step i c next answer shared hready hblocking hop =>
    have hactive := mem_active_of_live hs hready trivial
    refine hs.update hactive trivial (holder_of_serverOp hs hactive hop) hs.single ?_ ?_
    · exact fun task htask howner => absurd howner (hs.owner_ne hready task htask)
    · exact fun task htask _ => htask
  | @spawn i c next hready hblocking =>
    have hactive := mem_active_of_live hs hready trivial
    have hperm : ((s.queue ++ [(⟨i, c⟩ : BlockingTask ι)]) ++ s.running).Perm
        (⟨i, c⟩ :: s.tasks) := by
      rw [List.append_assoc]
      exact List.perm_middle
    refine hs.update hactive trivial hs.holder ?_ ?_ ?_
    · rw [(hperm.map BlockingTask.owner).nodup_iff]
      refine List.nodup_cons.mpr ⟨fun hmem => ?_, hs.single⟩
      obtain ⟨task, htask, howner⟩ := List.mem_map.mp hmem
      exact hs.owner_ne hready task htask howner
    · intro task htask howner
      rcases List.mem_cons.mp (hperm.mem_iff.mp htask) with rfl | hold
      · exact ⟨next, rfl⟩
      · exact absurd howner (hs.owner_ne hready task hold)
    · intro task htask howner
      rcases List.mem_cons.mp (hperm.mem_iff.mp htask) with rfl | hold
      · exact absurd rfl howner
      · exact hold
  | @start task rest hqueue hthread =>
    have hperm : (rest ++ task :: s.running).Perm s.tasks := by
      unfold UploadServer.tasks
      rw [hqueue]
      exact List.perm_middle
    refine ⟨hs.permits, hs.live, hs.holder, ?_, fun task' htask' => ?_⟩
    · exact (hperm.map BlockingTask.owner).nodup_iff.mpr hs.single
    · exact hs.task task' (hperm.mem_iff.mp htask')
  | @complete i c next answer shared before after hrunning hawaiting hop =>
    have hactive := mem_active_of_live hs hawaiting trivial
    obtain ⟨hsub, hne⟩ := hs.without hrunning
    refine hs.update hactive trivial (holder_of_serverOp hs hactive hop) ?_ ?_ ?_
    · exact hs.single.sublist (hsub.map _)
    · exact fun task htask howner => absurd howner (hne task htask)
    · exact fun task htask _ => hsub.subset htask
  | @discard i c answer shared before after hrunning hgone hop =>
    obtain ⟨hsub, _⟩ := hs.without hrunning
    refine ⟨hs.permits, hs.live, fun stripe j hj => ?_, hs.single.sublist (hsub.map _),
      fun task htask => hs.task task (hsub.subset htask)⟩
    simp only [ServerState.dropHandler] at hj
    split at hj
    · cases hj
    next hne =>
      rcases serverOp_fileLocks hop hj with hold | rfl
      · exact hs.holder stripe j hold
      · exact absurd hj hne
  | finish hready => exact hs.leave _
  | disconnect hactive => exact hs.leave _

/-- Fewer tasks and more permits leave no more waits behind. -/
theorem UploadServer.abandoned_le (hsub : t.tasks.Sublist s.tasks)
    (hactive : ∀ task ∈ t.tasks, task.owner ∈ s.active → task.owner ∈ t.active) :
    t.abandoned ≤ s.abandoned := by
  refine le_trans ?_ hsub.countP_le
  apply List.countP_mono_left
  intro task htask hgone
  simp only [Bool.and_eq_true, decide_eq_true_eq] at hgone ⊢
  exact ⟨hgone.1, fun h => hgone.2 (hactive task htask h)⟩

/-- The task of a handler that goes may be left behind, one at most. -/
theorem UploadServer.abandoned_leave (s : UploadServer ι) (i : ι) :
    (s.leave i).abandoned ≤ s.abandoned + s.tasks.countP fun task =>
      task.isLockWait && decide (task.owner = i) := by
  apply countP_le_add
  intro task hgone
  simp only [UploadServer.leave, Finset.mem_erase, not_and, Bool.and_eq_true,
    decide_eq_true_eq] at hgone ⊢
  by_cases howner : task.owner = i
  · exact .inr ⟨hgone.1, howner⟩
  · exact .inl ⟨hgone.1, hgone.2 howner⟩

/-- A handler has at most one task. -/
theorem UploadServer.Sound.countP_owner_le (hs : s.Sound limit) (i : ι) :
    s.tasks.countP (fun task => task.isLockWait && decide (task.owner = i)) ≤ 1 := by
  rw [List.countP_eq_length_filter, ← Finset.card_singleton i]
  apply hs.length_le_card List.filter_sublist
  intro task htask
  have hfilter := (List.mem_filter.mp htask).2
  simp only [Bool.and_eq_true, decide_eq_true_eq] at hfilter
  exact Finset.mem_singleton.mpr hfilter.2

/-- A handler that does not wait for a lock file leaves no such wait behind. -/
theorem UploadServer.Sound.countP_owner_eq_zero (hs : s.Sound limit) (hactive : i ∈ s.active)
    (hnone : ∀ key next, s.handler i ≠ .awaiting (.acquireObjectUploadLock key) next) :
    s.tasks.countP (fun task => task.isLockWait && decide (task.owner = i)) = 0 := by
  rw [List.countP_eq_zero]
  intro task htask hboth
  simp only [Bool.and_eq_true, decide_eq_true_eq] at hboth
  obtain ⟨hwait, rfl⟩ := hboth
  rcases hs.task task htask with ⟨next, hawaiting⟩ | hgone
  · unfold BlockingTask.isLockWait at hwait
    split at hwait
    next key hcall =>
      obtain ⟨owner, call⟩ := task
      dsimp only at hcall
      subst hcall
      exact hnone key next hawaiting
    next => cases hwait
  · have hlive := (hs.live _).mp hactive
    rw [hgone] at hlive
    exact hlive

/-- Every step of a run that spares lock waits leaves enough threads. -/
theorem UploadServer.Sound.enough {e : UploadEvent ι} (hs : s.Sound limit)
    (henough : s.Enough threads limit) (hspared : s.Spared threads limit e)
    (hstep : s.Step threads limit sha256 e t) : t.Enough threads limit := by
  suffices h : t.abandoned ≤ s.abandoned ∨ limit + (s.abandoned + 1) ≤ threads ∧
      t.abandoned ≤ s.abandoned + 1 by
    unfold UploadServer.Enough at henough ⊢
    omega
  cases hstep with
  | @enter i put habsent hpermit =>
    left
    exact abandoned_le (List.Sublist.refl _) fun task _ h => Finset.mem_insert_of_mem h
  | reject habsent hpermit => exact .inl (abandoned_le (List.Sublist.refl _) fun task _ h => h)
  | step hready hblocking hop =>
    exact .inl (abandoned_le (List.Sublist.refl _) fun task _ h => h)
  | @spawn i c next hready hblocking =>
    left
    have hactive := mem_active_of_live hs hready trivial
    unfold UploadServer.abandoned UploadServer.tasks
    simp [List.countP_append, hactive]
  | @start task rest hqueue hthread =>
    left
    have hperm : (rest ++ task :: s.running).Perm s.tasks := by
      unfold UploadServer.tasks
      rw [hqueue]
      exact List.perm_middle
    exact (hperm.countP_eq _).le
  | complete hrunning hawaiting hop =>
    exact .inl (abandoned_le (hs.without hrunning).1 fun task _ h => h)
  | discard hrunning hgone hop =>
    exact .inl (abandoned_le (hs.without hrunning).1 fun task _ h => h)
  | @finish i result hready =>
    left
    have hactive := mem_active_of_live hs hready trivial
    have hleave := s.abandoned_leave i
    rw [hs.countP_owner_eq_zero hactive (by simp [hready])] at hleave
    exact hleave
  | @disconnect i hactive =>
    have hleave := s.abandoned_leave i
    by_cases hwait : ∃ key next, s.handler i = .awaiting (.acquireObjectUploadLock key) next
    · obtain ⟨key, next, hawaiting⟩ := hwait
      have hone := hs.countP_owner_le i
      exact .inr ⟨hspared key next hawaiting, by omega⟩
    · left
      have hzero := hs.countP_owner_eq_zero hactive fun key next h => hwait ⟨key, next, h⟩
      omega

end Steps

omit [DecidableEq ι] in
/-- Nothing has arrived. -/
theorem UploadServer.sound_start (limit : ℕ) (objects : MetadataObjects)
    (returned : List (MetadataObjectKey × StoredObject)) :
    (UploadServer.start (ι := ι) objects returned).Sound limit := by
  refine ⟨Nat.zero_le _, fun i => ?_, nofun, List.nodup_nil, nofun⟩
  simp [UploadServer.start, HandlerState.Live]

/-- With a thread for each permit, a run that drops no handler during its lock wait, or only
as long as a thread is left for each permit, never reaches a deadlock. -/
theorem upload_deadlock_free {threads limit : ℕ} (sha256 : List UInt8 → List UInt8)
    (hlimit : limit ≤ threads) {s : UploadServer ι}
    (hreach : ((uploadServerSystem threads limit sha256).restrict
      (UploadServer.Spared threads limit)).Reachable s) : ¬s.Deadlocked threads sha256 := by
  have hsound : s.Sound limit ∧ s.Enough threads limit := by
    refine hreach.invariant (P := fun s => s.Sound limit ∧ s.Enough threads limit) ?_ ?_
    · rintro s ⟨objects, returned, rfl⟩
      exact ⟨UploadServer.sound_start limit objects returned, hlimit⟩
    · intro s e t _ hs hstep
      exact ⟨hs.1.step hstep.1, hs.1.enough hs.2 hstep.2 hstep.1⟩
  exact hsound.1.not_deadlocked hsound.2

/-- An upload to a repository. -/
def putTo (repository : String) : PutRequest :=
  ⟨⟨repository, "drive-user-a"⟩, ⟨.zero, .ofNat 0⟩, ⟨true, true⟩, ⟨"github-main", "alice", none⟩⟩

/-- An upload up to the call that takes the lock file, on a thread. -/
def waitEvents (i : ℕ) (put : PutRequest) : List (UploadEvent ℕ) :=
  [.arrive i put, .step i, .spawn i, .start, .complete i, .step i, .step i, .spawn i, .start]

/-- A client that waits for its lock file, on a server with a thread and a permit to spare. -/
theorem upload_deadlock_free_wait : ∃ s, ((uploadServerSystem 2 2 fun _ => []).restrict
    (UploadServer.Spared 2 2)).Run (.start ⟨∅, 1⟩ []) (waitEvents 0 (putTo "owner/a")) s ∧
      ¬s.Deadlocked 2 fun _ => [] := by
  have hrun : ∃ s, ((uploadServerSystem 2 2 fun _ => []).restrict
      (UploadServer.Spared 2 2)).Run (.start ⟨∅, 1⟩ []) (waitEvents 0 (putTo "owner/a")) s ∧
        True := by
    refine exists_run_cons ⟨.enter rfl (by decide), trivial⟩ ?_
    refine exists_run_cons ⟨.step (c := .authorize _) (a := .ok ()) rfl rfl rfl, trivial⟩ ?_
    refine exists_run_cons ⟨.spawn (c := .startTransferAttempt _) rfl rfl, trivial⟩ ?_
    refine exists_run_cons ⟨.start rfl (by decide), trivial⟩ ?_
    refine exists_run_cons ⟨.complete (c := .startTransferAttempt _) (a := .ok ()) (l := [])
      rfl rfl rfl, trivial⟩ ?_
    refine exists_run_cons ⟨.step (c := .uploadLockFor _ _) (a := (0 : ℕ)) rfl rfl ⟨rfl, rfl⟩,
      trivial⟩ ?_
    refine exists_run_cons ⟨.step (c := .lockUpload _ _) (a := ()) rfl rfl ⟨rfl, rfl⟩,
      trivial⟩ ?_
    refine exists_run_cons ⟨.spawn (c := .acquireObjectUploadLock _) rfl rfl, trivial⟩ ?_
    refine exists_run_cons ⟨.start rfl (by decide), trivial⟩ ?_
    exact ⟨_, .nil _, trivial⟩
  obtain ⟨s, hrun, _⟩ := hrun
  exact ⟨s, hrun, upload_deadlock_free _ le_rfl ⟨_, _, ⟨_, _, rfl⟩, hrun⟩⟩

/-- The first upload takes the lock file; the second one waits for it, and its client
disconnects; the third one waits on the last thread. -/
theorem deadlock_run : ∃ s, (uploadServerSystem 2 2 fun _ => []).Run (.start ⟨∅, 1⟩ [])
    (waitEvents 0 (putTo "owner/a") ++ [.complete 0] ++ waitEvents 1 (putTo "owner/b") ++
      [.disconnect 1] ++ waitEvents 2 (putTo "owner/b")) s ∧
        s.Deadlocked 2 fun _ => [] := by
  refine exists_run_cons (.enter rfl (by decide)) ?_
  refine exists_run_cons (.step (c := .authorize _) (a := .ok ()) rfl rfl rfl) ?_
  refine exists_run_cons (.spawn (c := .startTransferAttempt _) rfl rfl) ?_
  refine exists_run_cons (.start rfl (by decide)) ?_
  refine exists_run_cons (.complete (c := .startTransferAttempt _) (a := .ok ()) (l := [])
    rfl rfl rfl) ?_
  refine exists_run_cons (.step (c := .uploadLockFor _ _) (a := (0 : ℕ)) rfl rfl ⟨rfl, rfl⟩) ?_
  refine exists_run_cons (.step (c := .lockUpload _ _) (a := ()) rfl rfl ⟨rfl, rfl⟩) ?_
  refine exists_run_cons (.spawn (c := .acquireObjectUploadLock _) rfl rfl) ?_
  refine exists_run_cons (.start rfl (by decide)) ?_
  refine exists_run_cons (.complete (c := .acquireObjectUploadLock _) (a := .ok ()) (l := [])
    rfl rfl ⟨rfl, rfl⟩) ?_
  refine exists_run_cons (.enter rfl (by decide)) ?_
  refine exists_run_cons (.step (c := .authorize _) (a := .ok ()) rfl rfl rfl) ?_
  refine exists_run_cons (.spawn (c := .startTransferAttempt _) rfl rfl) ?_
  refine exists_run_cons (.start rfl (by decide)) ?_
  refine exists_run_cons (.complete (c := .startTransferAttempt _) (a := .ok ()) (l := [])
    rfl rfl rfl) ?_
  refine exists_run_cons (.step (c := .uploadLockFor _ _) (a := (1 : ℕ)) rfl rfl ⟨rfl, rfl⟩) ?_
  refine exists_run_cons (.step (c := .lockUpload _ _) (a := ()) rfl rfl ⟨rfl, rfl⟩) ?_
  refine exists_run_cons (.spawn (c := .acquireObjectUploadLock _) rfl rfl) ?_
  refine exists_run_cons (.start rfl (by decide)) ?_
  refine exists_run_cons (.disconnect (by decide)) ?_
  refine exists_run_cons (.enter rfl (by decide)) ?_
  refine exists_run_cons (.step (c := .authorize _) (a := .ok ()) rfl rfl rfl) ?_
  refine exists_run_cons (.spawn (c := .startTransferAttempt _) rfl rfl) ?_
  refine exists_run_cons (.start rfl (by decide)) ?_
  refine exists_run_cons (.complete (c := .startTransferAttempt _) (a := .ok ()) (l := [])
    rfl rfl rfl) ?_
  refine exists_run_cons (.step (c := .uploadLockFor _ _) (a := (2 : ℕ)) rfl rfl ⟨rfl, rfl⟩) ?_
  refine exists_run_cons (.step (c := .lockUpload _ _) (a := ()) rfl rfl ⟨rfl, rfl⟩) ?_
  refine exists_run_cons (.spawn (c := .acquireObjectUploadLock _) rfl rfl) ?_
  refine exists_run_cons (.start rfl (by decide)) ?_
  refine ⟨_, .nil _, nofun, rfl, ?_⟩
  refine List.forall_mem_cons.2 ⟨⟨_, 0, rfl, rfl, .inl ⟨_, _, rfl, rfl⟩⟩, ?_⟩
  refine List.forall_mem_cons.2 ⟨⟨_, 0, rfl, rfl, .inl ⟨_, _, rfl, rfl⟩⟩, nofun⟩

/-- A server with as many threads as permits can reach a deadlock: a disconnected client's
wait keeps its thread. -/
theorem upload_deadlock : ¬∀ s : UploadServer ℕ,
    (uploadServerSystem 2 2 fun _ => []).Reachable s → ¬s.Deadlocked 2 fun _ => [] := by
  intro hfree
  obtain ⟨s, hrun, hdead⟩ := deadlock_run
  exact hfree s ⟨_, _, ⟨_, _, rfl⟩, hrun⟩ hdead

end LfsCloud
