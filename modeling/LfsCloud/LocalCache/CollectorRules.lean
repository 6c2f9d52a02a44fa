import LfsCloud.LocalCache.GarbageCollection

/-!
# Rules for the collector

What each part of the collector reads, what the loop over the objects removes up to any
point, and the run in which every call succeeds.
-/

namespace LfsCloud

open Interaction

variable {w : Worktrees}

/-- A root is there, and is a directory. -/
def Worktrees.isActive (w : Worktrees) (registration : LocalCacheWorktreeRegistration) : Bool :=
  w.isDir registration.worktreeRoot = some true

/-- The rule for a call that passes its error on. -/
theorem triple_collectorCall {α : Type} {c : CollectorCall}
    {h : CollectorAnswer c = Except LocalCacheError α} {C : LocalCacheState w → Prop}
    {P : Unit → LocalCacheState w → Prop} {Q : α → Unit → LocalCacheState w → Prop}
    {E : LocalCacheError → Unit → LocalCacheState w → Prop}
    (hop : ∀ s answer t, P () s → collectorOp w s c answer t → C t ∧
      (∀ a, cast h answer = .ok a → Q a () t) ∧ ∀ e, cast h answer = .error e → E e () t) :
    Triple (collectorOp w) C P (collectorCall c h) Q E := by
  have hask : Triple (collectorOp w) C P (ask (F := collectorInterface) c)
      (fun answer _ t => (∀ a, cast h answer = .ok a → Q a () t) ∧
        ∀ e, cast h answer = .error e → E e () t) E :=
    .ask fun _ s answer t hP h' => hop s answer t hP h'
  apply hask.bind
  intro answer
  exact .liftResult (fun a ha _ _ hQ => hQ.1 a ha) fun e he _ _ hQ => hQ.2 e he

section Reads

variable {s : LocalCacheState w} {C : LocalCacheState w → Prop}

/-- Both locks. -/
theorem triple_lock (hC : C s) : Triple (collectorOp w) C (fun _ t => t = s)
    (collectorCall .lock rfl) (fun _ _ t => t = s) (fun _ _ t => t = s) := by
  apply triple_collectorCall
  rintro _ answer t rfl hop
  obtain rfl := hop
  exact ⟨hC, fun _ _ => rfl, fun _ _ => rfl⟩

/-- The registry as it is on disk. -/
theorem triple_loadWorktreeRegistry (hC : C s) : Triple (collectorOp w) C (fun _ t => t = s)
    (collectorCall .loadWorktreeRegistry rfl) (fun registry _ t => registry = s.registry ∧ t = s)
    (fun _ _ t => t = s) := by
  apply triple_collectorCall
  rintro _ (e | registry) t rfl hop
  · obtain rfl := hop
    exact ⟨hC, nofun, fun _ _ => rfl⟩
  · obtain ⟨rfl, rfl⟩ := hop
    refine ⟨hC, ?_, nofun⟩
    rintro _ ⟨⟩
    exact ⟨rfl, rfl⟩

/-- Worktrees are active or missing, in the order of the registry. -/
theorem triple_partitionExistingWorktrees (hC : C s)
    (registrations active missing : List LocalCacheWorktreeRegistration) :
    Triple (collectorOp w) C (fun _ t => t = s)
      (partitionExistingWorktrees registrations active missing)
      (fun result _ t => result = (active ++ registrations.filter w.isActive,
        missing ++ registrations.filter fun registration => !w.isActive registration) ∧ t = s)
      (fun _ _ t => t = s) := by
  induction registrations generalizing active missing with
  | nil => exact .pure fun _ t ht => ⟨by simp, ht⟩
  | cons registration rest ih =>
    have hask : Triple (collectorOp w) C (fun (_ : Unit) t => t = s)
        (ask (F := collectorInterface) (.metadata registration.worktreeRoot))
        (fun answer _ t => ((∀ isDir, answer = .ok isDir →
          w.isDir registration.worktreeRoot = some isDir) ∧
            (answer = .error .notFound → w.isDir registration.worktreeRoot = none)) ∧ t = s)
        (fun (_ : LocalCacheError) _ t => t = s) := by
      apply Triple.ask
      rintro _ _ (e | isDir) t rfl hop
      · cases e with
        | notFound =>
          obtain ⟨hnone, rfl⟩ := hop
          exact ⟨hC, ⟨nofun, fun _ => hnone⟩, rfl⟩
        | directoryNotEmpty =>
          obtain rfl := hop
          exact ⟨hC, ⟨nofun, nofun⟩, rfl⟩
        | other =>
          obtain rfl := hop
          exact ⟨hC, ⟨nofun, nofun⟩, rfl⟩
      · obtain ⟨hdir, rfl⟩ := hop
        refine ⟨hC, ⟨?_, nofun⟩, rfl⟩
        rintro _ ⟨⟩
        exact hdir
    apply hask.bind
    intro answer
    apply Triple.of_fact
    rintro ⟨hok, hmissing⟩
    have hactive : answer = .ok true → w.isActive registration = true := fun h => by
      unfold Worktrees.isActive
      rw [hok true h]
      rfl
    have hinactive : answer = .ok false ∨ answer = .error .notFound →
        w.isActive registration = false := fun h => by
      unfold Worktrees.isActive
      rcases h with h | h
      · rw [hok false h]
        rfl
      · rw [hmissing h]
        rfl
    match answer with
    | .ok true =>
      apply (ih (active ++ [registration]) missing).conseq (fun _ _ h => h) _ fun _ _ _ h => h
      rintro _ _ t ⟨rfl, rfl⟩
      simp [hactive rfl]
    | .ok false =>
      apply (ih active (missing ++ [registration])).conseq (fun _ _ h => h) _ fun _ _ _ h => h
      rintro _ _ t ⟨rfl, rfl⟩
      simp [hinactive (.inl rfl)]
    | .error .notFound =>
      apply (ih active (missing ++ [registration])).conseq (fun _ _ h => h) _ fun _ _ _ h => h
      rintro _ _ t ⟨rfl, rfl⟩
      simp [hinactive (.inr rfl)]
    | .error .directoryNotEmpty => exact .throw fun _ _ h => h
    | .error .other => exact .throw fun _ _ h => h

/-- The pointers of all active worktrees. -/
theorem triple_referencedWorktreeOids (hC : C s)
    (registrations : List LocalCacheWorktreeRegistration) (referenced : List LfsOid)
    (skipped : List FilePath) :
    Triple (collectorOp w) C (fun _ t => t = s)
      (referencedWorktreeOids registrations referenced skipped)
      (fun result _ t => result =
        (referenced ++ registrations.flatMap fun registration => (w.trackedPointers registration).1,
          skipped ++ registrations.flatMap fun registration =>
            (w.trackedPointers registration).2) ∧ t = s)
      (fun _ _ t => t = s) := by
  induction registrations generalizing referenced skipped with
  | nil => exact .pure fun _ t ht => ⟨by simp, ht⟩
  | cons registration rest ih =>
    have hscan : Triple (collectorOp w) C (fun _ t => t = s)
        (collectorCall (.collectTrackedLfsPointerOids registration) rfl)
        (fun found _ t => found = w.trackedPointers registration ∧ t = s)
        (fun _ _ t => t = s) := by
      apply triple_collectorCall
      rintro _ (e | found) t rfl hop
      · obtain rfl := hop
        exact ⟨hC, nofun, fun _ _ => rfl⟩
      · obtain ⟨rfl, rfl⟩ := hop
        refine ⟨hC, ?_, nofun⟩
        rintro _ ⟨⟩
        exact ⟨rfl, rfl⟩
    apply hscan.bind
    intro found
    apply Triple.of_fact
    rintro rfl
    apply (ih _ _).conseq (fun _ _ h => h) _ fun _ _ _ h => h
    rintro _ _ t ⟨rfl, rfl⟩
    simp

/-- The objects and the other paths of the cache. -/
theorem triple_collectCacheObjectFiles (hC : C s) : Triple (collectorOp w) C (fun _ t => t = s)
    (collectorCall .collectCacheObjectFiles rfl)
    (fun found _ t => ((∀ node, s.objects.nodes.lookup [] = some node → node = .dir) ∧
      found = collectCacheObjectFiles s.objects) ∧ t = s)
    (fun _ _ t => t = s) := by
  apply triple_collectorCall
  rintro _ (e | found) t rfl hop
  · obtain rfl := hop
    exact ⟨hC, nofun, fun _ _ => rfl⟩
  · obtain ⟨hdir, rfl, rfl⟩ := hop
    refine ⟨hC, ?_, nofun⟩
    rintro _ ⟨⟩
    exact ⟨⟨hdir, rfl⟩, rfl⟩

end Reads

section Deletion

variable {s : LocalCacheState w} {registry : List LocalCacheWorktreeRegistration}
  {paths reported : List FilePath}

/-- The registry is a given one, and some files of the objects directory are gone. -/
def Collected (s : LocalCacheState w) (registry : List LocalCacheWorktreeRegistration)
    (paths : List FilePath) (t : LocalCacheState w) : Prop :=
  t.registry = registry ∧ FileTree.Removes s.objects t.objects paths

/-- At most some of the reported files are gone. -/
def Interrupted (s : LocalCacheState w) (reported : List FilePath) (t : LocalCacheState w) :
    Prop :=
  ∃ paths ⊆ reported, FileTree.Removes s.objects t.objects paths

theorem Collected.interrupted {t : LocalCacheState w} (h : Collected s registry paths t)
    (hsub : paths ⊆ reported) : Interrupted s reported t := ⟨paths, hsub, h.2⟩

theorem interrupted_self (s : LocalCacheState w) (reported : List FilePath) :
    Interrupted s reported s := ⟨[], List.nil_subset _, .refl _⟩

/-- Removing an empty directory loses no file. -/
theorem triple_removeEmptyDirectory (hsub : paths ⊆ reported) (path : FilePath) :
    Triple (collectorOp w) (Interrupted s reported) (fun _ t => Collected s registry paths t)
      (removeEmptyDirectory path) (fun _ _ t => Collected s registry paths t)
      (fun _ _ t => Interrupted s reported t) := by
  have hask : Triple (collectorOp w) (Interrupted s reported)
      (fun _ t => Collected s registry paths t) (ask (F := collectorInterface) (.removeDir path))
      (fun _ (_ : Unit) t => Collected s registry paths t)
      (fun (_ : LocalCacheError) _ t => Interrupted s reported t) := by
    apply Triple.ask
    rintro _ t (e | _) u h hop
    · obtain rfl := hop
      exact ⟨h.interrupted hsub, h⟩
    · obtain ⟨hdir, _, hregistry, hnodes⟩ := hop
      have hu : Collected s registry paths u := ⟨hregistry.trans h.1, h.2.dir hdir hnodes⟩
      exact ⟨hu.interrupted hsub, hu⟩
  apply hask.bind
  intro answer
  match answer with
  | .ok _ => exact .pure fun _ _ h => h
  | .error .notFound => exact .pure fun _ _ h => h
  | .error .directoryNotEmpty => exact .pure fun _ _ h => h
  | .error .other => exact .throw fun _ _ h => h.interrupted hsub

/-- Deleting an object removes its file. -/
theorem triple_deleteCacheObject {object : LocalCacheGarbageCollectionObject}
    (hsub : paths ++ [object.path] ⊆ reported) :
    Triple (collectorOp w) (Interrupted s reported) (fun _ t => Collected s registry paths t)
      (deleteCacheObject object)
      (fun _ _ t => Collected s registry (paths ++ [object.path]) t)
      (fun _ _ t => Interrupted s reported t) := by
  have hbefore : paths ⊆ reported := fun _ hp => hsub (List.mem_append_left _ hp)
  have hask : Triple (collectorOp w) (Interrupted s reported)
      (fun _ t => Collected s registry paths t)
      (ask (F := collectorInterface) (.removeFile object.path))
      (fun (answer : Except IoErrorKind Unit) (_ : Unit) t => match answer with
        | .ok _ => Collected s registry (paths ++ [object.path]) t
        | .error _ => Interrupted s reported t)
      (fun (_ : LocalCacheError) _ t => Interrupted s reported t) := by
    apply Triple.ask
    rintro _ t (e | _) u h hop
    · obtain rfl := hop
      exact ⟨h.interrupted hbefore, h.interrupted hbefore⟩
    · obtain ⟨_, _, _, hregistry, hnodes⟩ := hop
      have hu : Collected s registry (paths ++ [object.path]) u :=
        ⟨hregistry.trans h.1, h.2.file hnodes⟩
      exact ⟨hu.interrupted hsub, hu⟩
  apply hask.bind
  intro answer
  match answer with
  | .ok _ =>
    apply (triple_removeEmptyDirectory hsub _).bind
    intro _
    split
    · exact triple_removeEmptyDirectory hsub _
    · exact .pure fun _ _ h => h
  | .error _ => exact .throw fun _ _ h => h

end Deletion

/-- What becomes of an object: it is referenced, or all others are protected, or it goes. -/
def isRetained (referenced : List LfsOid) (object : LocalCacheGarbageCollectionObject) : Bool :=
  object.oid ∈ referenced

def isProtected (referenced : List LfsOid) (protectAll : Bool)
    (object : LocalCacheGarbageCollectionObject) : Bool :=
  !isRetained referenced object && protectAll

def isUnreferenced (referenced : List LfsOid) (protectAll : Bool)
    (object : LocalCacheGarbageCollectionObject) : Bool :=
  !isRetained referenced object && !protectAll

/-- The classification that the loop ends with. -/
def ClassifiedObjects.after (classified : ClassifiedObjects) (dryRun : Bool)
    (referenced : List LfsOid) (protectAll : Bool)
    (objects : List LocalCacheGarbageCollectionObject) : ClassifiedObjects where
  retainedObjects := classified.retainedObjects ++ objects.filter (isRetained referenced)
  protectedObjects := classified.protectedObjects ++
    objects.filter (isProtected referenced protectAll)
  unreferencedObjects := classified.unreferencedObjects ++
    objects.filter (isUnreferenced referenced protectAll)
  deletedObjects := classified.deletedObjects ++
    if dryRun then [] else objects.filter (isUnreferenced referenced protectAll)

section Loop

variable {s : LocalCacheState w} {registry : List LocalCacheWorktreeRegistration}
  {reported : List FilePath} {referenced : List LfsOid} {protectAll : Bool}

/-- The loop of a dry run. -/
theorem triple_collectObjects_dryRun {C : LocalCacheState w → Prop}
    (objects : List LocalCacheGarbageCollectionObject) (classified : ClassifiedObjects) :
    Triple (collectorOp w) C (fun _ t => t = s)
      (collectObjects true referenced protectAll objects classified)
      (fun result _ t => result = classified.after true referenced protectAll objects ∧ t = s)
      (fun _ _ t => t = s) := by
  induction objects generalizing classified with
  | nil => exact .pure fun _ t ht => ⟨by simp [ClassifiedObjects.after], ht⟩
  | cons object rest ih =>
    unfold collectObjects
    split
    next hretained =>
      refine (ih _).conseq (fun _ _ h => h) ?_ fun _ _ _ h => h
      rintro _ _ t ⟨rfl, rfl⟩
      simp [ClassifiedObjects.after, isRetained, isProtected, isUnreferenced, hretained]
    next hretained =>
      split
      next hprotected =>
        refine (ih _).conseq (fun _ _ h => h) ?_ fun _ _ _ h => h
        rintro _ _ t ⟨rfl, rfl⟩
        simp [ClassifiedObjects.after, isRetained, isProtected, isUnreferenced, hretained,
          hprotected]
      next hprotected =>
        refine (ih _).conseq (fun _ _ h => h) ?_ fun _ _ _ h => h
        rintro _ _ t ⟨rfl, rfl⟩
        simp [ClassifiedObjects.after, isRetained, isProtected, isUnreferenced, hretained,
          hprotected]

/-- The loop of a real run: the deleted objects are gone. -/
theorem triple_collectObjects (objects : List LocalCacheGarbageCollectionObject)
    (classified : ClassifiedObjects)
    (hsub : ((classified.after false referenced protectAll objects).deletedObjects.map
      (·.path)) ⊆ reported) :
    Triple (collectorOp w) (Interrupted s reported)
      (fun _ t => Collected s registry (classified.deletedObjects.map (·.path)) t)
      (collectObjects false referenced protectAll objects classified)
      (fun result _ t => result = classified.after false referenced protectAll objects ∧
        Collected s registry (result.deletedObjects.map (·.path)) t)
      (fun _ _ t => Interrupted s reported t) := by
  induction objects generalizing classified with
  | nil => exact .pure fun _ t ht => ⟨by simp [ClassifiedObjects.after], ht⟩
  | cons object rest ih =>
    have hnext : ∀ next : ClassifiedObjects, next.after false referenced protectAll rest =
        classified.after false referenced protectAll (object :: rest) →
          Triple (collectorOp w) (Interrupted s reported)
            (fun _ t => Collected s registry (next.deletedObjects.map (·.path)) t)
            (collectObjects false referenced protectAll rest next)
            (fun result _ t => result =
              classified.after false referenced protectAll (object :: rest) ∧
                Collected s registry (result.deletedObjects.map (·.path)) t)
            (fun _ _ t => Interrupted s reported t) := by
      intro next hafter
      have hrest := ih next (hafter ▸ hsub)
      rwa [hafter] at hrest
    unfold collectObjects
    split
    next hretained =>
      refine hnext { classified with
        retainedObjects := classified.retainedObjects ++ [object] } ?_
      simp [ClassifiedObjects.after, isRetained, isProtected, isUnreferenced, hretained]
    next hretained =>
      split
      next hprotected =>
        refine hnext { classified with
          protectedObjects := classified.protectedObjects ++ [object] } ?_
        simp [ClassifiedObjects.after, isRetained, isProtected, isUnreferenced, hretained,
          hprotected]
      next hprotected =>
        have hafter : ClassifiedObjects.after
            { classified with
              unreferencedObjects := classified.unreferencedObjects ++ [object]
              deletedObjects := classified.deletedObjects ++ [object] }
            false referenced protectAll rest =
              classified.after false referenced protectAll (object :: rest) := by
          simp [ClassifiedObjects.after, isRetained, isProtected, isUnreferenced, hretained,
            hprotected]
        rw [if_neg (by decide)]
        have hdelete : Triple (collectorOp w) (Interrupted s reported)
            (fun _ t => Collected s registry (classified.deletedObjects.map (·.path)) t)
            (deleteCacheObject object)
            (fun _ _ t => Collected s registry
              ((classified.deletedObjects ++ [object]).map (·.path)) t)
            (fun _ _ t => Interrupted s reported t) := by
          rw [List.map_append]
          apply triple_deleteCacheObject
          intro path hpath
          apply hsub
          rw [← hafter]
          simp only [ClassifiedObjects.after, List.map_append, List.mem_append] at hpath ⊢
          exact .inl hpath
        exact hdelete.bind fun _ => hnext _ hafter

end Loop

end LfsCloud
