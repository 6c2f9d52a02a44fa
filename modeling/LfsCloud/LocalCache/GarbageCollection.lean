import LfsCloud.Lib.CrashLogic
import LfsCloud.LocalCache.Layout

/-!
# Garbage collection

The collector as a program over the calls that it makes: it loads the registry, looks at
the registered worktrees, scans the cache, and then goes through the objects once, deleting
as it classifies. Any call may fail, and the process may be killed at any point.
-/

namespace LfsCloud

open Interaction

/-- `LocalCacheWorktreeRegistration`. -/
structure LocalCacheWorktreeRegistration where
  repositoryId : String
  worktreeRoot : FilePath
  gitDir : FilePath
  deriving DecidableEq

/-- The kinds of an I/O error that are told apart. -/
inductive IoErrorKind
  | notFound
  | directoryNotEmpty
  | other
  deriving DecidableEq, Repr

/-- Failures of the collector: of an I/O operation, of the registry, or of a scan by Git. -/
inductive LocalCacheError
  | io (context : String) (path : FilePath)
  | registry
  | git
  deriving DecidableEq

/-- The registered worktrees, which stay as they are while the collector runs. -/
structure Worktrees where
  /-- `normalized_path_key`. -/
  pathKey : FilePath → FilePath
  /-- Whether a root is a directory, `none` if it is not there. -/
  isDir : FilePath → Option Bool
  /-- `collect_tracked_lfs_pointer_oids`: the pointers of a worktree, and skipped paths. -/
  trackedPointers : LocalCacheWorktreeRegistration → List LfsOid × List FilePath

/-- The calls of the collector. -/
inductive CollectorCall
  | lock
  | loadWorktreeRegistry
  | metadata (root : FilePath)
  | collectTrackedLfsPointerOids (registration : LocalCacheWorktreeRegistration)
  | collectCacheObjectFiles
  | saveWorktreeRegistry (registry : List LocalCacheWorktreeRegistration)
  | removeFile (path : FilePath)
  | removeDir (path : FilePath)

/-- The answers to a call. -/
def CollectorAnswer : CollectorCall → Type
  | .lock => Except LocalCacheError Unit
  | .loadWorktreeRegistry => Except LocalCacheError (List LocalCacheWorktreeRegistration)
  | .metadata _ => Except IoErrorKind Bool
  | .collectTrackedLfsPointerOids _ => Except LocalCacheError (List LfsOid × List FilePath)
  | .collectCacheObjectFiles =>
    Except LocalCacheError (List LocalCacheGarbageCollectionObject × List FilePath)
  | .saveWorktreeRegistry _ => Except LocalCacheError Unit
  | .removeFile _ => Except IoErrorKind Unit
  | .removeDir _ => Except IoErrorKind Unit

/-- The interface of the collector. -/
def collectorInterface : Interface := ⟨CollectorCall, CollectorAnswer⟩

/-- A program of the collector. -/
abbrev Collector (α : Type) := MemoryProg collectorInterface Unit LocalCacheError α

/-- One call that passes its error on. -/
def collectorCall {α : Type} (c : CollectorCall)
    (h : CollectorAnswer c = Except LocalCacheError α) : Collector α := do
  let answer ← ask (F := collectorInterface) c
  liftResult (cast h answer)

/-- `partition_existing_worktrees`. -/
def partitionExistingWorktrees : List LocalCacheWorktreeRegistration →
    List LocalCacheWorktreeRegistration → List LocalCacheWorktreeRegistration →
      Collector (List LocalCacheWorktreeRegistration × List LocalCacheWorktreeRegistration)
  | [], active, missing => pure (active, missing)
  | registration :: rest, active, missing => do
    let answer ← ask (F := collectorInterface) (.metadata registration.worktreeRoot)
    match (answer : Except IoErrorKind Bool) with
    | .ok true => partitionExistingWorktrees rest (active ++ [registration]) missing
    | .ok false => partitionExistingWorktrees rest active (missing ++ [registration])
    | .error .notFound => partitionExistingWorktrees rest active (missing ++ [registration])
    | .error _ =>
      throw (.io "failed to inspect registered worktree root" registration.worktreeRoot)

/-- `referenced_worktree_oids`. -/
def referencedWorktreeOids : List LocalCacheWorktreeRegistration → List LfsOid →
    List FilePath → Collector (List LfsOid × List FilePath)
  | [], referenced, skipped => pure (referenced, skipped)
  | registration :: rest, referenced, skipped => do
    let found ← collectorCall (.collectTrackedLfsPointerOids registration) rfl
    referencedWorktreeOids rest (referenced ++ found.1) (skipped ++ found.2)

/-- `remove_empty_directory`. -/
def removeEmptyDirectory (path : FilePath) : Collector Unit := do
  let answer ← ask (F := collectorInterface) (.removeDir path)
  match (answer : Except IoErrorKind Unit) with
  | .ok _ => pure ()
  | .error .notFound => pure ()
  | .error .directoryNotEmpty => pure ()
  | .error .other => throw (.io "failed to remove empty local cache shard directory" path)

/-- `remove_empty_cache_shard_dirs`. -/
def removeEmptyCacheShardDirs (path : FilePath) : Collector Unit := do
  removeEmptyDirectory path.dropLast
  if path.dropLast.dropLast ≠ [] then
    removeEmptyDirectory path.dropLast.dropLast
  else pure ()

/-- `delete_cache_object`. -/
def deleteCacheObject (object : LocalCacheGarbageCollectionObject) : Collector Unit := do
  let answer ← ask (F := collectorInterface) (.removeFile object.path)
  match (answer : Except IoErrorKind Unit) with
  | .ok _ => removeEmptyCacheShardDirs object.path
  | .error _ => throw (.io "failed to remove unreferenced local cache object" object.path)

/-- The objects by what the collector has made of them. -/
structure ClassifiedObjects where
  retainedObjects : List LocalCacheGarbageCollectionObject
  protectedObjects : List LocalCacheGarbageCollectionObject
  unreferencedObjects : List LocalCacheGarbageCollectionObject
  deletedObjects : List LocalCacheGarbageCollectionObject

/-- The loop over the objects: each is classified, and deleted unless it is a dry run. -/
def collectObjects (dryRun : Bool) (referenced : List LfsOid) (protectAll : Bool) :
    List LocalCacheGarbageCollectionObject → ClassifiedObjects → Collector ClassifiedObjects
  | [], classified => pure classified
  | object :: rest, classified =>
    if object.oid ∈ referenced then
      collectObjects dryRun referenced protectAll rest
        { classified with retainedObjects := classified.retainedObjects ++ [object] }
    else if protectAll then
      collectObjects dryRun referenced protectAll rest
        { classified with protectedObjects := classified.protectedObjects ++ [object] }
    else if dryRun then
      collectObjects dryRun referenced protectAll rest
        { classified with unreferencedObjects := classified.unreferencedObjects ++ [object] }
    else do
      deleteCacheObject object
      collectObjects dryRun referenced protectAll rest
        { classified with
          unreferencedObjects := classified.unreferencedObjects ++ [object]
          deletedObjects := classified.deletedObjects ++ [object] }

/-- `LocalCacheGarbageCollection`. -/
structure LocalCacheGarbageCollection where
  dryRun : Bool
  activeWorktreeCount : ℕ
  unavailableWorktrees : List LocalCacheWorktreeRegistration
  prunedWorktrees : List LocalCacheWorktreeRegistration
  retainedObjects : List LocalCacheGarbageCollectionObject
  protectedObjects : List LocalCacheGarbageCollectionObject
  unreferencedObjects : List LocalCacheGarbageCollectionObject
  deletedObjects : List LocalCacheGarbageCollectionObject
  skippedCachePaths : List FilePath
  skippedWorktreePointerPaths : List FilePath

/-- `LocalCacheWorktreeRegistry::remove`. -/
def Worktrees.remove (w : Worktrees) (registry : List LocalCacheWorktreeRegistration)
    (worktreeRoot : FilePath) : List LocalCacheWorktreeRegistration :=
  registry.eraseP fun registration =>
    w.pathKey registration.worktreeRoot = w.pathKey worktreeRoot

/-- The part of `garbage_collect` that takes missing worktrees out of the registry. -/
def pruneWorktrees (w : Worktrees) (dryRun pruneUnavailableWorktrees : Bool)
    (registry pruned : List LocalCacheWorktreeRegistration) : Collector Unit :=
  if !dryRun && pruneUnavailableWorktrees && !pruned.isEmpty then
    collectorCall (.saveWorktreeRegistry (pruned.foldl (fun registry registration =>
      w.remove registry registration.worktreeRoot) registry)) rfl
  else pure ()

/-- `garbage_collect`. -/
def garbageCollect (w : Worktrees) (dryRun pruneUnavailableWorktrees : Bool) :
    Collector LocalCacheGarbageCollection := do
  collectorCall .lock rfl
  let registry ← collectorCall .loadWorktreeRegistry rfl
  let (active, unavailable) ← partitionExistingWorktrees registry [] []
  let (referenced, skippedPointers) ← referencedWorktreeOids active [] []
  let (objects, skipped) ← collectorCall .collectCacheObjectFiles rfl
  let pruned := if pruneUnavailableWorktrees then unavailable else []
  let objects := objects.mergeSort fun left right => FilePath.le left.path right.path
  let skipped := skipped.mergeSort FilePath.le
  let skippedPointers := (skippedPointers.mergeSort FilePath.le).dedup
  pruneWorktrees w dryRun pruneUnavailableWorktrees registry pruned
  let classified ← collectObjects dryRun referenced
    (!unavailable.isEmpty && !pruneUnavailableWorktrees) objects ⟨[], [], [], []⟩
  return {
    dryRun := dryRun
    activeWorktreeCount := active.length
    unavailableWorktrees := unavailable
    prunedWorktrees := pruned
    retainedObjects := classified.retainedObjects
    protectedObjects := classified.protectedObjects
    unreferencedObjects := classified.unreferencedObjects
    deletedObjects := classified.deletedObjects
    skippedCachePaths := skipped
    skippedWorktreePointerPaths := skippedPointers }

/-- What is on disk: a registry, whose roots have different keys, and the objects
directory. -/
structure LocalCacheState (w : Worktrees) where
  registry : List LocalCacheWorktreeRegistration
  keys : (registry.map fun registration => w.pathKey registration.worktreeRoot).Nodup
  objects : FileTree OsString

/-- The calls, for every answer. What is read is as it is on disk. An operation that fails
changes nothing, but for a registry that may have been published before the failure. -/
def collectorOp (w : Worktrees) : Effect collectorInterface (LocalCacheState w) :=
  fun s call answer t =>
  match call, answer with
  | .lock, _ => t = s
  | .loadWorktreeRegistry, .ok registry => registry = s.registry ∧ t = s
  | .loadWorktreeRegistry, .error _ => t = s
  | .metadata root, .ok isDir => w.isDir root = some isDir ∧ t = s
  | .metadata root, .error .notFound => w.isDir root = none ∧ t = s
  | .metadata _, .error _ => t = s
  | .collectTrackedLfsPointerOids registration, .ok found =>
    found = w.trackedPointers registration ∧ t = s
  | .collectTrackedLfsPointerOids _, .error _ => t = s
  | .collectCacheObjectFiles, .ok found =>
    (∀ node, s.objects.nodes.lookup [] = some node → node = .dir) ∧
      found = collectCacheObjectFiles s.objects ∧ t = s
  | .collectCacheObjectFiles, .error _ => t = s
  | .saveWorktreeRegistry registry, .ok _ => t.registry = registry ∧ t.objects = s.objects
  | .saveWorktreeRegistry registry, .error _ =>
    t = s ∨ (t.registry = registry ∧ t.objects = s.objects)
  | .removeFile path, .ok _ => ∃ node, s.objects.nodes.lookup path = some node ∧ node ≠ .dir ∧
    t.registry = s.registry ∧ t.objects.nodes = s.objects.nodes.erase path
  | .removeFile _, .error _ => t = s
  | .removeDir path, .ok _ => s.objects.nodes.lookup path = some .dir ∧
    s.objects.readDir path = [] ∧ t.registry = s.registry ∧
      t.objects.nodes = s.objects.nodes.erase path
  | .removeDir _, .error _ => t = s

end LfsCloud
