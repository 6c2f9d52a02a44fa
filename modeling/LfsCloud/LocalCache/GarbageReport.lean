import LfsCloud.LocalCache.CollectorRules

/-!
# What the collector reports and deletes

The report is a function of what is on disk, the same for a dry run and for a real one. A
real run removes the files of the objects that it reports as unreferenced, and no others.
These files are where the layout puts them exactly as long as no other file has a name
that reads as the identifier of its directories.
-/

namespace LfsCloud

open Interaction

/-- A registry of different keys without the worktree of one key. -/
theorem eraseP_eq_filter {α κ : Type} [DecidableEq κ] {key : α → κ} {l : List α} {k : κ}
    (h : (l.map key).Nodup) : l.eraseP (fun a => key a = k) = l.filter fun a => key a ≠ k := by
  induction l with
  | nil => rfl
  | cons a l ih =>
    obtain ⟨hnot, hrest⟩ := List.nodup_cons.mp h
    by_cases ha : key a = k
    · have hall : l.filter (fun a => key a ≠ k) = l := by
        rw [List.filter_eq_self]
        intro b hb
        simp only [ne_eq, decide_not, Bool.not_eq_eq_eq_not, Bool.not_true, decide_eq_false_iff_not]
        rintro rfl
        exact hnot (ha ▸ List.mem_map_of_mem hb)
      simp only [ne_eq, decide_not] at hall
      simp [ha, hall]
    · simp only [ne_eq, decide_not] at ih
      simp [ha, ih hrest]

variable {w : Worktrees}

/-- Removing worktrees one by one leaves those with other keys. -/
theorem Worktrees.foldl_remove {registry pruned : List LocalCacheWorktreeRegistration}
    (h : (registry.map fun registration => w.pathKey registration.worktreeRoot).Nodup) :
    pruned.foldl (fun registry registration => w.remove registry registration.worktreeRoot)
      registry = registry.filter fun registration => ∀ other ∈ pruned,
        w.pathKey registration.worktreeRoot ≠ w.pathKey other.worktreeRoot := by
  induction pruned generalizing registry with
  | nil => simp
  | cons other pruned ih =>
    have hremove : w.remove registry other.worktreeRoot = registry.filter fun registration =>
        w.pathKey registration.worktreeRoot ≠ w.pathKey other.worktreeRoot := eraseP_eq_filter h
    rw [List.foldl_cons, hremove, ih (h.sublist (List.filter_sublist.map _)), List.filter_filter]
    apply List.filter_congr
    intro registration _
    simp [Bool.and_comm]

variable {s t : LocalCacheState w}

namespace LocalCacheState

/-- The worktrees that are there, and those that are not. -/
def active (s : LocalCacheState w) : List LocalCacheWorktreeRegistration :=
  s.registry.filter w.isActive

def unavailable (s : LocalCacheState w) : List LocalCacheWorktreeRegistration :=
  s.registry.filter fun registration => !w.isActive registration

/-- The registry after the missing worktrees are removed. -/
theorem foldl_remove_unavailable (s : LocalCacheState w) :
    s.unavailable.foldl (fun registry registration =>
      w.remove registry registration.worktreeRoot) s.registry = s.active := by
  rw [Worktrees.foldl_remove s.keys]
  apply List.filter_congr
  intro registration hregistration
  rw [Bool.eq_iff_iff, decide_eq_true_iff]
  constructor
  · intro hother
    by_contra hinactive
    exact hother registration (List.mem_filter.mpr ⟨hregistration, by simpa using hinactive⟩) rfl
  · intro hactive other hmem hkey
    obtain ⟨hother, hmissing⟩ := List.mem_filter.mp hmem
    have hsame := List.inj_on_of_nodup_map s.keys hregistration hother hkey
    rw [← hsame, hactive] at hmissing
    cases hmissing

/-- The objects in the order in which the collector goes through them. -/
def sortedObjects (s : LocalCacheState w) : List LocalCacheGarbageCollectionObject :=
  (collectCacheObjectFiles s.objects).1.mergeSort fun left right =>
    FilePath.le left.path right.path

/-- The classification of the objects on disk. -/
def classified (s : LocalCacheState w) (dryRun prune : Bool) : ClassifiedObjects :=
  ClassifiedObjects.after ⟨[], [], [], []⟩ dryRun
    (s.active.flatMap fun registration => (w.trackedPointers registration).1)
    (!s.unavailable.isEmpty && !prune) s.sortedObjects

/-- The report on what is on disk. -/
def report (s : LocalCacheState w) (dryRun prune : Bool) : LocalCacheGarbageCollection where
  dryRun := dryRun
  activeWorktreeCount := s.active.length
  unavailableWorktrees := s.unavailable
  prunedWorktrees := if prune then s.unavailable else []
  retainedObjects := (s.classified dryRun prune).retainedObjects
  protectedObjects := (s.classified dryRun prune).protectedObjects
  unreferencedObjects := (s.classified dryRun prune).unreferencedObjects
  deletedObjects := (s.classified dryRun prune).deletedObjects
  skippedCachePaths := (collectCacheObjectFiles s.objects).2.mergeSort FilePath.le
  skippedWorktreePointerPaths := ((s.active.flatMap fun registration =>
    (w.trackedPointers registration).2).mergeSort FilePath.le).dedup

/-- The paths of the objects that a run deletes. -/
def unreferencedPaths (s : LocalCacheState w) (prune : Bool) : List FilePath :=
  (s.classified false prune).unreferencedObjects.map (·.path)

/-- The objects directory is one, if it is there. -/
def Readable (s : LocalCacheState w) : Prop :=
  ∀ node, s.objects.nodes.lookup [] = some node → node = .dir

end LocalCacheState

/-- A run that has stopped: a dry run has changed nothing, and a real run has removed at most
the files of objects that it would have reported. -/
def Stopped (s : LocalCacheState w) (dryRun prune : Bool) (t : LocalCacheState w) : Prop :=
  (dryRun = true → t = s) ∧ Interrupted s (s.unreferencedPaths prune) t

/-- A run that has come to its end. -/
def Finished (s : LocalCacheState w) (dryRun prune : Bool) (t : LocalCacheState w) : Prop :=
  if dryRun then t = s
  else Collected s (if prune then s.active else s.registry) (s.unreferencedPaths prune) t

/-- A run that is about to go through the objects. -/
def Prepared (s : LocalCacheState w) (dryRun prune : Bool) (t : LocalCacheState w) : Prop :=
  if dryRun then t = s else Collected s (if prune then s.active else s.registry) [] t

/-- Missing worktrees are taken out of the registry by a real run that prunes. -/
theorem triple_pruneWorktrees (s : LocalCacheState w) (dryRun prune : Bool)
    {pruned : List LocalCacheWorktreeRegistration}
    (hpruned : pruned = if prune then s.unavailable else []) :
    Triple (collectorOp w) (Stopped s dryRun prune) (fun _ t => t = s)
      (pruneWorktrees w dryRun prune s.registry pruned)
      (fun _ _ t => Prepared s dryRun prune t) (fun _ _ t => Stopped s dryRun prune t) := by
  have hself : s.unavailable = [] → s.active = s.registry := by
    intro hnone
    apply List.filter_eq_self.mpr
    intro registration hregistration
    by_contra hinactive
    have hmem : registration ∈ s.unavailable :=
      List.mem_filter.mpr ⟨hregistration, by simpa using hinactive⟩
    rw [hnone] at hmem
    cases hmem
  unfold pruneWorktrees
  split
  next hsave =>
    simp only [Bool.and_eq_true, Bool.not_eq_eq_eq_not, Bool.not_true] at hsave
    obtain ⟨⟨rfl, rfl⟩, _⟩ := hsave
    have hremoved : pruned.foldl (fun registry registration =>
        w.remove registry registration.worktreeRoot) s.registry = s.active := by
      rw [hpruned, if_pos rfl, s.foldl_remove_unavailable]
    have hsaved : ∀ {t : LocalCacheState w}, t.registry = s.active → t.objects = s.objects →
        Collected s s.active [] t := by
      intro t hregistry hobjects
      exact ⟨hregistry, hobjects ▸ .refl _⟩
    have hstopped : ∀ {t : LocalCacheState w} {registry}, Collected s registry [] t →
        Stopped s false true t :=
      fun h => ⟨nofun, h.interrupted (List.nil_subset _)⟩
    apply triple_collectorCall
    rintro _ (e | _) t rfl hop
    · rcases hop with rfl | ⟨hregistry, hobjects⟩
      · have ht : Stopped t false true t := ⟨nofun, interrupted_self _ _⟩
        exact ⟨ht, nofun, fun _ _ => ht⟩
      · have ht := hstopped (hsaved (hregistry.trans hremoved) hobjects)
        exact ⟨ht, nofun, fun _ _ => ht⟩
    · have ht := hsaved (hop.1.trans hremoved) hop.2
      exact ⟨hstopped ht, fun _ _ => ht, nofun⟩
  next hkeep =>
    apply Triple.pure
    rintro _ t rfl
    unfold Prepared
    cases dryRun with
    | true => rfl
    | false =>
      refine ⟨?_, .refl _⟩
      cases prune with
      | true =>
        rw [if_pos rfl] at hpruned
        rw [hpruned] at hkeep
        exact (hself (by simpa using hkeep)).symm
      | false => rfl

/-- The loop over the objects on disk. -/
theorem triple_loop (s : LocalCacheState w) (dryRun prune : Bool) :
    Triple (collectorOp w) (Stopped s dryRun prune) (fun _ t => Prepared s dryRun prune t)
      (collectObjects dryRun
        (s.active.flatMap fun registration => (w.trackedPointers registration).1)
        (!s.unavailable.isEmpty && !prune) s.sortedObjects ⟨[], [], [], []⟩)
      (fun result _ t => result = s.classified dryRun prune ∧ Finished s dryRun prune t)
      (fun _ _ t => Stopped s dryRun prune t) := by
  cases dryRun with
  | true =>
    refine (triple_collectObjects_dryRun _ _).conseq (fun _ _ h => h) (fun _ _ _ h => h) ?_
    rintro _ _ t rfl
    exact ⟨fun _ => rfl, interrupted_self _ _⟩
  | false =>
    have hsub : (s.classified false prune).deletedObjects.map (·.path) ⊆
        s.unreferencedPaths prune := List.Subset.refl _
    have hstop : ∀ t : LocalCacheState w, Interrupted s (s.unreferencedPaths prune) t →
        Stopped s false prune t := fun _ h => ⟨nofun, h⟩
    refine ((triple_collectObjects _ _ hsub).crash hstop).conseq (fun _ _ h => h) ?_
      fun _ _ t h => hstop t h
    rintro _ _ t ⟨rfl, ht⟩
    exact ⟨rfl, ht⟩

/-- A run reports what was on disk. A dry run changes nothing, and a real run removes what it
reports as unreferenced. -/
theorem triple_garbageCollect (s : LocalCacheState w) (dryRun prune : Bool) :
    Triple (collectorOp w) (Stopped s dryRun prune) (fun _ t => t = s)
      (garbageCollect w dryRun prune)
      (fun report _ t => (s.Readable ∧ report = s.report dryRun prune) ∧
        Finished s dryRun prune t)
      (fun _ _ t => Stopped s dryRun prune t) := by
  have hC : Stopped s dryRun prune s := ⟨fun _ => rfl, interrupted_self _ _⟩
  have hE : ∀ (e : LocalCacheError) (m : Unit) (t : LocalCacheState w), t = s →
      Stopped s dryRun prune t := by
    rintro _ _ t rfl
    exact hC
  apply ((triple_lock hC).conseq (fun _ _ h => h) (fun _ _ _ h => h) hE).bind
  intro _
  apply ((triple_loadWorktreeRegistry hC).conseq (fun _ _ h => h) (fun _ _ _ h => h) hE).bind
  intro registry
  apply Triple.of_fact
  rintro rfl
  apply ((triple_partitionExistingWorktrees hC _ _ _).conseq (fun _ _ h => h)
    (fun _ _ _ h => h) hE).bind
  intro worktrees
  apply Triple.of_fact
  rintro rfl
  apply ((triple_referencedWorktreeOids hC _ _ _).conseq (fun _ _ h => h)
    (fun _ _ _ h => h) hE).bind
  intro pointers
  apply Triple.of_fact
  rintro rfl
  apply ((triple_collectCacheObjectFiles hC).conseq (fun _ _ h => h) (fun _ _ _ h => h) hE).bind
  intro found
  apply Triple.of_fact
  rintro ⟨hreadable, rfl⟩
  apply (triple_pruneWorktrees s dryRun prune rfl).bind
  intro _
  apply (triple_loop s dryRun prune).bind
  intro classified
  apply Triple.of_fact
  rintro rfl
  exact .pure fun _ t ht => ⟨⟨hreadable, rfl⟩, ht⟩

section Runs

/-- Some run of a program ends with a result and leaves the disk as it is. -/
def Runs {α : Type} (p : Collector α) (s : LocalCacheState w) : Prop :=
  ∃ a, (p.from ()).Returns (collectorOp w) s (.ok a, ()) s

theorem Runs.pure {α : Type} (a : α) (s : LocalCacheState w) : Runs (pure a) s := ⟨a, .done⟩

theorem Runs.bind {α β : Type} {p : Collector α} {f : α → Collector β} (h : Runs p s)
    (hf : ∀ a, Runs (f a) s) : Runs (p >>= f) s := by
  obtain ⟨a, hp⟩ := h
  obtain ⟨b, hb⟩ := hf a
  exact ⟨b, MemoryProg.returns_bind hp hb⟩

theorem runs_partition (s : LocalCacheState w)
    (registrations active missing : List LocalCacheWorktreeRegistration) :
    Runs (partitionExistingWorktrees registrations active missing) s := by
  induction registrations generalizing active missing with
  | nil => exact .pure _ s
  | cons registration rest ih =>
    cases hdir : w.isDir registration.worktreeRoot with
    | none =>
      obtain ⟨a, ha⟩ := ih active (missing ++ [registration])
      exact ⟨a, .call (.error .notFound) ⟨hdir, rfl⟩ ha⟩
    | some isDir =>
      cases isDir with
      | true =>
        obtain ⟨a, ha⟩ := ih (active ++ [registration]) missing
        exact ⟨a, .call (.ok true) ⟨hdir, rfl⟩ ha⟩
      | false =>
        obtain ⟨a, ha⟩ := ih active (missing ++ [registration])
        exact ⟨a, .call (.ok false) ⟨hdir, rfl⟩ ha⟩

theorem runs_referenced (s : LocalCacheState w)
    (registrations : List LocalCacheWorktreeRegistration) (referenced : List LfsOid)
    (skipped : List FilePath) : Runs (referencedWorktreeOids registrations referenced skipped) s := by
  induction registrations generalizing referenced skipped with
  | nil => exact .pure _ s
  | cons registration rest ih =>
    apply Runs.bind
    · exact ⟨_, .call (.ok (w.trackedPointers registration)) ⟨rfl, rfl⟩ .done⟩
    · exact fun found => ih _ _

theorem runs_collectObjects (s : LocalCacheState w) (referenced : List LfsOid)
    (protectAll : Bool) (objects : List LocalCacheGarbageCollectionObject)
    (classified : ClassifiedObjects) :
    Runs (collectObjects true referenced protectAll objects classified) s := by
  induction objects generalizing classified with
  | nil => exact .pure _ s
  | cons object rest ih =>
    unfold collectObjects
    split
    · exact ih _
    · split
      · exact ih _
      · exact ih _

/-- A dry run can come to its end. -/
theorem runs_garbageCollect (s : LocalCacheState w) (prune : Bool) (hreadable : s.Readable) :
    Runs (garbageCollect w true prune) s := by
  refine Runs.bind ⟨_, .call (Except.ok ()) rfl .done⟩ ?_
  intro _
  refine Runs.bind ⟨_, .call (Except.ok s.registry) ⟨rfl, rfl⟩ .done⟩ ?_
  intro registry
  apply Runs.bind (runs_partition s _ _ _)
  intro worktrees
  apply Runs.bind (runs_referenced s _ _ _)
  intro pointers
  refine Runs.bind ⟨_, .call (Except.ok (collectCacheObjectFiles s.objects))
    ⟨hreadable, rfl, rfl⟩ .done⟩ ?_
  intro found
  apply Runs.bind (.pure _ s)
  intro _
  apply Runs.bind (runs_collectObjects s _ _ _ _)
  exact fun classified => .pure _ s

end Runs

/-- The objects that are reported in one way or another are those on disk. -/
theorem LocalCacheState.report_perm (s : LocalCacheState w) (dryRun prune : Bool) :
    ((s.report dryRun prune).retainedObjects ++ (s.report dryRun prune).protectedObjects ++
      (s.report dryRun prune).unreferencedObjects).Perm (collectCacheObjectFiles s.objects).1 := by
  have hsorted : s.sortedObjects.Perm (collectCacheObjectFiles s.objects).1 :=
    List.mergeSort_perm _ _
  refine List.Perm.trans ?_ hsorted
  simp only [report, classified, ClassifiedObjects.after, List.nil_append]
  generalize (s.active.flatMap fun registration => (w.trackedPointers registration).1) = referenced
  generalize (!s.unavailable.isEmpty && !prune) = protectAll
  have hretained := List.filter_append_perm (isRetained referenced) s.sortedObjects
  refine List.Perm.trans ?_ hretained
  rw [List.append_assoc]
  apply List.Perm.append_left
  cases protectAll with
  | true =>
    have hprotected : isProtected referenced true = fun object => !isRetained referenced object := by
      funext object
      simp [isProtected]
    have hnone : isUnreferenced referenced true = fun _ => false := by
      funext object
      simp [isUnreferenced]
    simp [hprotected, hnone]
  | false =>
    have hnone : isProtected referenced false = fun _ => false := by
      funext object
      simp [isProtected]
    have hunreferenced : isUnreferenced referenced false =
        fun object => !isRetained referenced object := by
      funext object
      simp [isUnreferenced]
    simp [hnone, hunreferenced]

end LfsCloud
