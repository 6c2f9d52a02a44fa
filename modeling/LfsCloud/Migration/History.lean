import LfsCloud.GitOutput
import LfsCloud.Lib.Memo
import LfsCloud.Lib.TextLines
import LfsCloud.Migration.GitTree
import LfsCloud.Pointer

/-!
# The scan of a history

The commits that a ref reaches are listed, the trees of the commits are read, and small blobs that
are pointers are gathered where Git has the filter of LFS for their paths. Trees, blobs, attributes
and commits are read once and kept in tables. The same scan without the tables is the walk.
-/

namespace LfsCloud

deriving instance Ord for PathComponent

/-! ## What Git answers -/

/-- `MigrationError`, as far as commands of Git return it. -/
inductive HistoryGitError
  | externalCommandOutput (error : GitCommandOutputError)
  | failed (message : String)
  deriving DecidableEq

/-- How a scan fails: with an error, or with a panic. -/
inductive HistoryError
  | error (source : HistoryGitError)
  | panicked (message : String)
  deriving DecidableEq

/-- `GitBatchObjectInfo`. -/
structure GitBatchObjectInfo where
  objectType : String
  size : ℕ
  deriving DecidableEq

/-- What the processes of Git return to a scan. -/
structure GitObjects where
  /-- `GitBatchObjectReader::start`. -/
  start : Except HistoryGitError Unit
  /-- `GitBatchObjectReader::info`, of an object, for a command. -/
  info : String → String → Except HistoryGitError GitBatchObjectInfo
  /-- `GitBatchObjectReader::contents`, of an object, with a type and a size, for a command. -/
  contents : String → String → ℕ → String → Except HistoryGitError (List UInt8)
  /-- `GitBatchObjectReader::finish`. -/
  finish : Except HistoryGitError Unit
  /-- `git_check_attr_filter_with_source`, in a commit, of a list of paths. -/
  checkAttr : String → List UInt8 → Except HistoryGitError (List UInt8)
  /-- The output of `git rev-list`, for a commit. -/
  revList : String → Except HistoryGitError String

/-- `MAX_HISTORY_TREE_OUTPUT_BYTES`. -/
def maxHistoryTreeOutputBytes : ℕ := 32 * 1024 * 1024

/-- `MAX_HISTORY_CHECK_ATTR_INPUT_BYTES`. -/
def maxHistoryCheckAttrInputBytes : ℕ := 1024 * 1024

/-- An error of a command. -/
def commandOutputError (command message : String) : HistoryError :=
  .error (.externalCommandOutput ⟨command, message⟩)

/-- `is_git_object_id`. -/
def isGitObjectId (value : String) : Bool :=
  (value.utf8ByteSize = 40 || value.utf8ByteSize = 64) && value.toList.all isHexDigit

/-! ## Commits -/

/-- `GitHistoryCommit`. -/
@[ext] structure GitHistoryCommit where
  objectId : String
  treeId : String
  deriving DecidableEq

/-- `GitLfsScannedRef`. -/
structure GitLfsScannedRef where
  name : String
  commit : String
  deriving DecidableEq

/-- A line of `git rev-list`. -/
def parseRevListLine (commandName : String) (line : List Char) :
    Except HistoryError GitHistoryCommit :=
  match Text.splitOnce ' ' line with
  | none => .error (commandOutputError commandName
      "git returned malformed commit and tree output")
  | some (objectId, treeId) =>
    if !isGitObjectId (String.ofList objectId) || !isGitObjectId (String.ofList treeId) then
      .error (commandOutputError commandName "git returned an invalid commit or tree object ID")
    else .ok ⟨String.ofList objectId, String.ofList treeId⟩

/-- `rev_list_commits`. -/
def revListCommits (objects : GitObjects) (rootCommit : String) :
    Except HistoryError (List GitHistoryCommit) := do
  let commandName :=
    "git rev-list --topo-order --format=%H%x20%T --no-commit-header " ++ rootCommit
  let stdout ← (objects.revList rootCommit).mapError .error
  ((Text.lines stdout.toList).filter fun line => line ≠ []).mapM (parseRevListLine commandName)

/-! ## Paths -/

/-- `Path::join`. -/
def UnixPath.join (parent path : UnixPath) : UnixPath :=
  if UnixPath.isAbsolute path then path
  else if parent = [] ∨ parent.getLast? = some 47 then parent ++ path
  else parent ++ 47 :: path

/-- `migration_git_path_output_error`. -/
def migrationGitPathOutputError (commandName : String) (error : GitPathOutputError) :
    HistoryError :=
  commandOutputError commandName
    (match error with
    | .malformedAttributeOutput => "git returned malformed attribute output"
    | .pathOutsideWorktree => "git returned a path outside the worktree")

/-- `git_check_attr_filter_command_name`, of a commit. -/
def gitCheckAttrFilterCommandName (commit : String) : String :=
  "git check-attr -z --stdin --source=" ++ commit ++ " filter"

/-! ## Trees -/

/-- `GitTreeBlob`. -/
structure GitTreeBlob where
  objectId : String
  relativePath : UnixPath
  relativePathBytes : List UInt8
  deriving DecidableEq

/-- `HistoryTreeSummary`. -/
structure HistoryTreeSummary where
  pointerBlobs : List GitTreeBlob
  attributeBlobs : List (UnixPath × String)
  deriving DecidableEq

/-- The mode of a tree in a tree. -/
def treeMode : List UInt8 := [52, 48, 48, 48, 48]

/-- The mode of a commit in a tree. -/
def commitMode : List UInt8 := [49, 54, 48, 48, 48, 48]

/-- The modes of a file, of an executable and of a symbolic link. -/
def blobModes : List (List UInt8) :=
  [[49, 48, 48, 54, 52, 52], [49, 48, 48, 55, 53, 53], [49, 50, 48, 48, 48, 48]]

/-- `.gitattributes`. -/
def gitattributesName : List UInt8 :=
  [46, 103, 105, 116, 97, 116, 116, 114, 105, 98, 117, 116, 101, 115]

/-- The command that a tree is read with. -/
def treeCommandName (treeId : String) : String := "git cat-file --batch-command tree " ++ treeId

/-- The entries of a tree. -/
def readTree (objects : GitObjects) (treeId : String) :
    Except HistoryError (List RawGitTreeEntry) := do
  let contents ← (objects.contents treeId "tree" maxHistoryTreeOutputBytes
    (treeCommandName treeId)).mapError .error
  (parseRawGitTree contents treeId (treeCommandName treeId)).mapError fun error =>
    .error (.externalCommandOutput error)

/-- `read_pointer_blob_candidate`. -/
def readPointerBlobCandidate (objects : GitObjects) (objectId : String) :
    Except HistoryError (Option LfsPointer) := do
  let commandName := "git cat-file --batch-command info " ++ objectId
  let info ← (objects.info objectId commandName).mapError .error
  if info.objectType ≠ "blob" then
    throw (commandOutputError commandName "git tree entry did not resolve to a blob")
  else if lfsPointerSizeCutoff ≤ info.size then return none
  else
    let contents ← (objects.contents objectId "blob" lfsPointerSizeCutoff
      ("git cat-file --batch-command contents " ++ objectId)).mapError .error
    match String.fromUTF8? ⟨contents.toArray⟩ with
    | none => return none
    | some text => return (LfsPointer.parse text).toOption.filter fun pointer => !pointer.isEmpty

/-- `append_prefixed_tree_summary`. -/
def appendPrefixedTreeSummary (target : HistoryTreeSummary) (parent : UnixPath)
    (parentBytes : List UInt8) (child : HistoryTreeSummary) : HistoryTreeSummary where
  pointerBlobs := target.pointerBlobs ++ child.pointerBlobs.map fun blob =>
    ⟨blob.objectId, UnixPath.join parent blob.relativePath,
      parentBytes ++ 47 :: blob.relativePathBytes⟩
  attributeBlobs := target.attributeBlobs ++ child.attributeBlobs.map fun blob =>
    (UnixPath.join parent blob.1, blob.2)

/-- The blobs in the order of their paths. -/
def HistoryTreeSummary.sorted (summary : HistoryTreeSummary) : HistoryTreeSummary where
  pointerBlobs := summary.pointerBlobs.mergeSort fun left right =>
    (compare (UnixPath.components left.relativePath)
      (UnixPath.components right.relativePath)).isLE
  attributeBlobs := summary.attributeBlobs.mergeSort fun left right =>
    (compareLex (compareOn fun blob => UnixPath.components blob.1) (compareOn Prod.snd)
      left right).isLE

/-! ## Attributes -/

/-- `append_git_check_attr_lfs_paths`; a set of paths is listed by the components of its paths. -/
def appendGitCheckAttrLfsPaths (objects : GitObjects) (commit : String) (pathInput : List UInt8)
    (lfsPaths : List (List PathComponent)) : Except HistoryError (List (List PathComponent)) := do
  let stdout ← (objects.checkAttr commit pathInput).mapError .error
  let paths ← (parseLfsFilterAttributePaths stdout).mapError
    (migrationGitPathOutputError (gitCheckAttrFilterCommandName commit))
  return lfsPaths ++ paths.map UnixPath.components

/-- The loop over the blobs, with the paths that were asked for and the number of processes. -/
def checkAttrLoop (objects : GitObjects) (commit : String) : List GitTreeBlob → List UInt8 →
    List (List PathComponent) → ℕ → Except HistoryError (List (List PathComponent) × ℕ)
  | [], pathInput, lfsPaths, processCount => do
    if pathInput = [] then return (lfsPaths, processCount)
    else
      let lfsPaths ← appendGitCheckAttrLfsPaths objects commit pathInput lfsPaths
      return (lfsPaths, processCount + 1)
  | blob :: blobs, pathInput, lfsPaths, processCount => do
    let pathEntryLen := blob.relativePathBytes.length + 1
    if maxHistoryCheckAttrInputBytes < pathEntryLen then
      throw (commandOutputError (gitCheckAttrFilterCommandName commit)
        "historical pointer path is too large for attribute lookup")
    else if pathInput ≠ [] ∧ maxHistoryCheckAttrInputBytes < pathInput.length + pathEntryLen then
      let lfsPaths ← appendGitCheckAttrLfsPaths objects commit pathInput lfsPaths
      checkAttrLoop objects commit blobs (blob.relativePathBytes ++ [0]) lfsPaths
        (processCount + 1)
    else
      checkAttrLoop objects commit blobs (pathInput ++ (blob.relativePathBytes ++ [0])) lfsPaths
        processCount

/-- `git_check_attr_lfs_paths_for_tree_blobs`. -/
def gitCheckAttrLfsPathsForTreeBlobs (objects : GitObjects) (blobs : List GitTreeBlob)
    (commit : String) : Except HistoryError (List (List PathComponent) × ℕ) :=
  checkAttrLoop objects commit blobs [] [] 0

/-- `HistoryAttributeQueryKey`: a path is compared by its components. -/
structure HistoryAttributeQueryKey where
  attributeBlobs : List (List PathComponent × String)
  pointerPaths : List (List PathComponent)
  deriving DecidableEq

/-- The key of the tree of a commit. -/
def HistoryTreeSummary.queryKey (summary : HistoryTreeSummary) : HistoryAttributeQueryKey where
  attributeBlobs := summary.attributeBlobs.map fun blob => (UnixPath.components blob.1, blob.2)
  pointerPaths := summary.pointerBlobs.map fun blob => UnixPath.components blob.relativePath

/-! ## Occurrences -/

/-- `GitLfsHistoryPointerOccurrence`. -/
structure GitLfsHistoryPointerOccurrence where
  commit : String
  relativePath : UnixPath
  object : LfsObject
  deriving DecidableEq

/-- `GitLfsHistoryPointer`. -/
structure GitLfsHistoryPointer where
  refName : String
  commit : String
  relativePath : UnixPath
  object : LfsObject
  deriving DecidableEq

/-- What an occurrence is known by. -/
def GitLfsHistoryPointerOccurrence.key (occurrence : GitLfsHistoryPointerOccurrence) :
    String × List PathComponent × LfsObject :=
  (occurrence.commit, UnixPath.components occurrence.relativePath, occurrence.object)

/-- The pointers of a scan, and the keys that it has seen. -/
structure HistoryFindings where
  pointers : List GitLfsHistoryPointer
  seen : List (String × List PathComponent × LfsObject)
  deriving DecidableEq

/-- An occurrence is added where it was not seen. -/
def HistoryFindings.add (refName : String) (found : HistoryFindings)
    (occurrence : GitLfsHistoryPointerOccurrence) : HistoryFindings :=
  if occurrence.key ∈ found.seen then found
  else ⟨found.pointers ++ [⟨refName, occurrence.commit, occurrence.relativePath,
    occurrence.object⟩], occurrence.key :: found.seen⟩

/-! ## The scan, over any way to read trees, attributes and pointers -/

section

variable {m : Type → Type} [Monad m] [MonadLiftT (Except HistoryError) m]

/-- The scan ends with an error. -/
def scanError {α : Type} (error : HistoryError) : m α :=
  liftM (Except.error error : Except HistoryError α)

/-- The loop over the entries of a tree. -/
def summarizeEntry (treeSummary : String → m HistoryTreeSummary)
    (pointerOf : String → m (Option LfsPointer)) (commandName : String)
    (summary : HistoryTreeSummary) (entry : RawGitTreeEntry) : m HistoryTreeSummary := do
  let relativePath ← liftM ((safeGitRelativePath entry.name).mapError
    (migrationGitPathOutputError commandName))
  if entry.mode = treeMode then
    let child ← treeSummary entry.objectId
    return appendPrefixedTreeSummary summary relativePath entry.name child
  else if entry.mode = commitMode then return summary
  else if entry.mode ∉ blobModes then
    scanError (commandOutputError commandName "git returned an unsupported tree mode")
  else
    let attributeBlobs := if entry.name = gitattributesName
      then summary.attributeBlobs ++ [(relativePath, entry.objectId)] else summary.attributeBlobs
    match ← pointerOf entry.objectId with
    | some _ =>
      return ⟨summary.pointerBlobs ++ [⟨entry.objectId, relativePath, entry.name⟩],
        attributeBlobs⟩
    | none => return ⟨summary.pointerBlobs, attributeBlobs⟩

/-- The occurrences of a commit. -/
def commitOccurrences (treeSummary : String → m HistoryTreeSummary)
    (lfsPathsOf : HistoryTreeSummary → String → m (List (List PathComponent)))
    (pointerOf : String → m (Option LfsPointer)) (commit : GitHistoryCommit) :
    m (List GitLfsHistoryPointerOccurrence) := do
  let summary ← treeSummary commit.treeId
  if summary.pointerBlobs = [] then return []
  else
    let lfsPaths ← lfsPathsOf summary commit.objectId
    (summary.pointerBlobs.filter fun blob =>
      UnixPath.components blob.relativePath ∈ lfsPaths).mapM fun blob => do
        match ← pointerOf blob.objectId with
        | some pointer => return ⟨commit.objectId, blob.relativePath, pointer.object⟩
        | none => scanError (.panicked "tree summaries contain only parsed pointer blobs")

/-- The loop over the commits of a ref. -/
def refFindings (objects : GitObjects)
    (scanCommit : GitHistoryCommit → m (List GitLfsHistoryPointerOccurrence))
    (found : HistoryFindings) (scannedRef : GitLfsScannedRef) : m HistoryFindings := do
  let commits ← liftM (revListCommits objects scannedRef.commit)
  commits.foldlM (fun found commit => do
    let occurrences ← scanCommit commit
    return occurrences.foldl (HistoryFindings.add scannedRef.name) found) found

/-- The pointers of refs. -/
def refPointers (objects : GitObjects)
    (scanCommit : GitHistoryCommit → m (List GitLfsHistoryPointerOccurrence))
    (scannedRefs : List GitLfsScannedRef) : m (List GitLfsHistoryPointer) := do
  if scannedRefs = [] then return []
  else
    liftM (objects.start.mapError HistoryError.error)
    let found ← scannedRefs.foldlM (refFindings objects scanCommit) ⟨[], []⟩
    liftM (objects.finish.mapError HistoryError.error)
    return found.pointers

end

/-! ## Repositories -/

/-- The objects of a repository. A tree is in no tree within it, for its hash is over theirs. -/
structure HistoryRepository extends GitObjects where
  depth : String → ℕ
  depth_lt : ∀ {treeId entries}, readTree toGitObjects treeId = .ok entries →
    ∀ entry ∈ entries, entry.mode = treeMode → depth entry.objectId < depth treeId

/-! ## The scan with its tables -/

/-- `HistoryScanMetrics`. -/
structure HistoryScanMetrics where
  catFileProcesses : ℕ
  attributeProcesses : ℕ
  treeEntriesInspected : ℕ
  blobsInspected : ℕ

/-- `HistoryScanner`: the tables and what is counted. -/
structure HistoryScanner where
  treeCache : Table String HistoryTreeSummary
  blobPointerCache : Table String (Option LfsPointer)
  attributeCache : Table HistoryAttributeQueryKey (List (List PathComponent))
  commitCache : Table String (List GitLfsHistoryPointerOccurrence)
  metrics : HistoryScanMetrics

namespace HistoryScanner

/-- `HistoryScanner::new`. -/
def new : HistoryScanner := ⟨∅, ∅, ∅, ∅, ⟨1, 0, 0, 0⟩⟩

/-- A step of the scan. -/
abbrev ScanM := StateT HistoryScanner (Except HistoryError)

variable (repository : HistoryRepository)

/-- A blob is inspected the first time that it is met. -/
def pointerBlob (objectId : String) : ScanM (Option LfsPointer) :=
  Memo.memo (fun scanner => scanner.blobPointerCache.lookup objectId)
    (fun pointer scanner =>
      { scanner with blobPointerCache := scanner.blobPointerCache.insert objectId pointer })
    do
      modify fun scanner => { scanner with metrics := { scanner.metrics with
        blobsInspected := scanner.metrics.blobsInspected + 1 } }
      liftM (readPointerBlobCandidate repository.toGitObjects objectId)

/-- `tree_summary`, of a tree that is not too deep. -/
def treeSummary : ℕ → String → ScanM HistoryTreeSummary
  | 0, _ => scanError (.panicked "stack overflow")
  | fuel + 1, treeId =>
    Memo.memo (fun scanner => scanner.treeCache.lookup treeId)
      (fun summary scanner =>
        { scanner with treeCache := scanner.treeCache.insert treeId summary })
      do
        let entries ← liftM (readTree repository.toGitObjects treeId)
        modify fun scanner => { scanner with metrics := { scanner.metrics with
          treeEntriesInspected := scanner.metrics.treeEntriesInspected + entries.length } }
        let summary ← entries.foldlM (summarizeEntry (treeSummary fuel) (pointerBlob repository)
          (treeCommandName treeId)) ⟨[], []⟩
        return summary.sorted

/-- The paths with the filter of LFS, asked for the first time that a key is met. -/
def lfsPathsOf (summary : HistoryTreeSummary) (commit : String) :
    ScanM (List (List PathComponent)) :=
  Memo.memo (fun scanner => scanner.attributeCache.lookup summary.queryKey)
    (fun paths scanner =>
      { scanner with attributeCache := scanner.attributeCache.insert summary.queryKey paths })
    do
      let (paths, processCount) ← liftM
        (gitCheckAttrLfsPathsForTreeBlobs repository.toGitObjects summary.pointerBlobs commit)
      modify fun scanner => { scanner with metrics := { scanner.metrics with
        attributeProcesses := scanner.metrics.attributeProcesses + processCount } }
      return paths

/-- The pointer of a blob that was inspected. -/
def cachedPointer (objectId : String) : ScanM (Option LfsPointer) := do
  return ((← get).blobPointerCache.lookup objectId).join

/-- `scan_commit`. -/
def scanCommit (commit : GitHistoryCommit) : ScanM (List GitLfsHistoryPointerOccurrence) :=
  commitOccurrences (treeSummary repository (repository.depth commit.treeId + 1))
    (lfsPathsOf repository) cachedPointer commit

/-- A commit is scanned the first time that it is met. -/
def commitPointers (commit : GitHistoryCommit) : ScanM (List GitLfsHistoryPointerOccurrence) :=
  Memo.memo (fun scanner => scanner.commitCache.lookup commit.objectId)
    (fun occurrences scanner =>
      { scanner with commitCache := scanner.commitCache.insert commit.objectId occurrences })
    (scanCommit repository commit)

/-- `scan_ref`. -/
def scanRef (found : HistoryFindings) (scannedRef : GitLfsScannedRef) : ScanM HistoryFindings :=
  refFindings repository.toGitObjects (commitPointers repository) found scannedRef

end HistoryScanner

/-- `scan_resolved_history_refs`. -/
def scanResolvedHistoryRefs (repository : HistoryRepository)
    (scannedRefs : List GitLfsScannedRef) :
    Except HistoryError (List GitLfsHistoryPointer × HistoryScanMetrics) := do
  let (pointers, scanner) ← (refPointers repository.toGitObjects
    (HistoryScanner.commitPointers repository) scannedRefs).run HistoryScanner.new
  if scannedRefs = [] then return (pointers, ⟨0, 0, 0, 0⟩)
  else return (pointers, scanner.metrics)

/-! ## The walk without tables -/

/-- A tree, read in full. -/
def walkTree (repository : HistoryRepository) : ℕ → String → Except HistoryError HistoryTreeSummary
  | 0, _ => scanError (.panicked "stack overflow")
  | fuel + 1, treeId => do
    let entries ← readTree repository.toGitObjects treeId
    let summary ← entries.foldlM (summarizeEntry (walkTree repository fuel)
      (readPointerBlobCandidate repository.toGitObjects) (treeCommandName treeId)) ⟨[], []⟩
    return summary.sorted

/-- The summary of a tree. -/
def walkTreeSummary (repository : HistoryRepository) (treeId : String) :
    Except HistoryError HistoryTreeSummary :=
  walkTree repository (repository.depth treeId + 1) treeId

/-- The occurrences of a commit, by a way to find the paths with the filter of LFS. -/
def walkCommit (repository : HistoryRepository)
    (lfsPathsOf : HistoryTreeSummary → String → Except HistoryError (List (List PathComponent)))
    (commit : GitHistoryCommit) : Except HistoryError (List GitLfsHistoryPointerOccurrence) :=
  commitOccurrences (walkTreeSummary repository) lfsPathsOf
    (readPointerBlobCandidate repository.toGitObjects) commit

/-- Every commit of every ref is walked in full, and Git is asked for its attributes. -/
def walkHistoryRefs (repository : HistoryRepository) (scannedRefs : List GitLfsScannedRef) :
    Except HistoryError (List GitLfsHistoryPointer) :=
  refPointers repository.toGitObjects (walkCommit repository fun summary commit =>
    (gitCheckAttrLfsPathsForTreeBlobs repository.toGitObjects summary.pointerBlobs commit).map
      Prod.fst) scannedRefs

end LfsCloud
