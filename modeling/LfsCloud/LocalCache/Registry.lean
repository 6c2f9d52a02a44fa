import LfsCloud.LocalCache.GarbageReport
import LfsCloud.Lib.Text

/-!
# The registry of worktrees

The registry is a file that lists the worktrees. A worktree is known by its root as the file
system resolves it, anew on each call, so that what the registry says depends on the file system.
-/

namespace LfsCloud

/-- The version that is written, and the oldest one that is read. -/
def worktreeRegistryVersion : ℕ := 2
def legacyWorktreeRegistryVersion : ℕ := 1

/-- What a name is ordered by: the root comes first, then the parent, then all others by their
bytes. The second part tells apart text and bytes. -/
def OsString.order (name : OsString) : List (List ℕ) :=
  [if name = .text "/" then [0] else if name = .text ".." then [1]
    else 2 :: name.toBytes.map (·.toNat),
    match name with | .text _ => [0] | .bytes _ => [1]]

/-- What a path is ordered by. -/
def FilePath.order (path : FilePath) : List (List ℕ) := path.flatMap OsString.order

/-- `is_absolute`. -/
def FilePath.isAbsolute (path : FilePath) : Bool := path.head? = some (.text "/")

/-- `normalized_path_key`. -/
def normalizedPathKey (canonicalize : FilePath → Option FilePath) (path : FilePath) : FilePath :=
  (canonicalize path).getD path

/-- What the file system says of the worktrees at a time. -/
structure WorktreeRoots where
  /-- `dunce::canonicalize`. -/
  canonicalize : FilePath → Option FilePath
  /-- Whether a root is a directory, `none` if it is not there. -/
  isDir : FilePath → Option Bool
  /-- `collect_tracked_lfs_pointer_oids`. -/
  trackedPointers : LocalCacheWorktreeRegistration → List LfsOid × List FilePath

/-- The worktrees as the collector sees them. -/
def WorktreeRoots.worktrees (roots : WorktreeRoots) : Worktrees where
  pathKey := normalizedPathKey roots.canonicalize
  isDir := roots.isDir
  trackedPointers := roots.trackedPointers

/-- The encoding of paths in the registry, and their text in an error. -/
structure RegistryEncoding where
  /-- `BASE64_STANDARD_NO_PAD` on the bytes of a path. -/
  encode : FilePath → String
  decode : String → Option FilePath
  decode_encode : ∀ path, decode (encode path) = some path
  /-- `PathBuf::from`. -/
  ofText : String → FilePath
  /-- `display`. -/
  display : FilePath → String

/-- Failures of the operations on the registry. -/
inductive WorktreeRegistryError
  | io (context : String)
  | worktreeRegistryJson (context message : String)
  | unsupportedWorktreeRegistryVersion (version supportedVersion : ℕ)
  | invalidWorktreeRegistration (field message : String)
  deriving DecidableEq

/-- `SerializedWorktreeRegistryPath`. -/
inductive SerializedWorktreeRegistryPath
  | legacy (path : String)
  | encoded (encoding value : String)

/-- A registration in the registry file. -/
structure SerializedRegistration where
  repositoryId : String
  worktreeRoot : SerializedWorktreeRegistryPath
  gitDir : SerializedWorktreeRegistryPath

/-- The registry file. -/
structure WorktreeRegistryFile where
  version : ℕ
  worktrees : List SerializedRegistration

/-- `LocalCacheWorktreeRegistry`. -/
structure LocalCacheWorktreeRegistry where
  version : ℕ
  worktrees : List LocalCacheWorktreeRegistration
  deriving DecidableEq

/-- `LocalCacheWorktreeRegistry::new`. -/
def LocalCacheWorktreeRegistry.new : LocalCacheWorktreeRegistry := ⟨worktreeRegistryVersion, []⟩

section

variable (encoding : RegistryEncoding) (w : Worktrees)

/-- `serialize_worktree_registry_path`. -/
def serializeWorktreeRegistryPath (path : FilePath) : SerializedWorktreeRegistryPath :=
  .encoded "unix_bytes_base64" (encoding.encode path)

/-- `decode_worktree_registry_path`. -/
def decodeWorktreeRegistryPath (name value : String) : Except String FilePath :=
  if name = "unix_bytes_base64" then
    match encoding.decode value with
    | some path => .ok path
    | none => .error "invalid base64 in Unix worktree registry path"
  else if name = "utf8" then .ok (encoding.ofText value)
  else .error
    ("unsupported worktree registry path encoding " ++ name.quote ++ " on this platform")

/-- `deserialize_worktree_registry_path`. -/
def deserializeWorktreeRegistryPath : SerializedWorktreeRegistryPath → Except String FilePath
  | .legacy path => .ok (encoding.ofText path)
  | .encoded name value => decodeWorktreeRegistryPath encoding name value

/-- The registration that is written. -/
def serializeRegistration (registration : LocalCacheWorktreeRegistration) :
    SerializedRegistration where
  repositoryId := registration.repositoryId
  worktreeRoot := serializeWorktreeRegistryPath encoding registration.worktreeRoot
  gitDir := serializeWorktreeRegistryPath encoding registration.gitDir

/-- The registration that is read. -/
def deserializeRegistration (registration : SerializedRegistration) :
    Except String LocalCacheWorktreeRegistration := do
  let worktreeRoot ← deserializeWorktreeRegistryPath encoding registration.worktreeRoot
  let gitDir ← deserializeWorktreeRegistryPath encoding registration.gitDir
  return ⟨registration.repositoryId, worktreeRoot, gitDir⟩

/-- The registry that is written. -/
def serializeRegistry (registry : LocalCacheWorktreeRegistry) : WorktreeRegistryFile :=
  ⟨registry.version, registry.worktrees.map (serializeRegistration encoding)⟩

/-- `validate_absolute_path`. -/
def validateAbsolutePath (field : String) (path : FilePath) : Except WorktreeRegistryError Unit :=
  if path.isAbsolute then .ok ()
  else .error (.invalidWorktreeRegistration field
    ("path must be absolute: " ++ encoding.display path))

/-- `LocalCacheWorktreeRegistration::validate`. -/
def LocalCacheWorktreeRegistration.validate (registration : LocalCacheWorktreeRegistration) :
    Except WorktreeRegistryError Unit := do
  if Text.trim registration.repositoryId.toList = [] then
    throw (.invalidWorktreeRegistration "repository_id" "must not be blank")
  if Text.trim registration.repositoryId.toList ≠ registration.repositoryId.toList then
    throw (.invalidWorktreeRegistration "repository_id" "must not be padded")
  validateAbsolutePath encoding "worktree_root" registration.worktreeRoot
  validateAbsolutePath encoding "git_dir" registration.gitDir

/-- The loop of `validate_for_path` over the registrations. -/
def checkWorktreeRoots : List FilePath → List LocalCacheWorktreeRegistration →
    Except WorktreeRegistryError Unit
  | _, [] => .ok ()
  | seen, registration :: rest => do
    registration.validate encoding
    if w.pathKey registration.worktreeRoot ∈ seen then
      throw (.invalidWorktreeRegistration "worktree_root"
        ("duplicate worktree root in registry: " ++ encoding.display registration.worktreeRoot))
    checkWorktreeRoots (w.pathKey registration.worktreeRoot :: seen) rest

/-- `validate_for_path`. -/
def LocalCacheWorktreeRegistry.validateForPath (registry : LocalCacheWorktreeRegistry) :
    Except WorktreeRegistryError Unit :=
  if legacyWorktreeRegistryVersion ≤ registry.version ∧
      registry.version ≤ worktreeRegistryVersion then
    checkWorktreeRoots encoding w [] registry.worktrees
  else .error (.unsupportedWorktreeRegistryVersion registry.version worktreeRegistryVersion)

/-- `load_worktree_registry`, where the file may fail to open. -/
def loadWorktreeRegistry (opens : Bool) (file : Option WorktreeRegistryFile) :
    Except WorktreeRegistryError LocalCacheWorktreeRegistry :=
  if opens then
    match file with
    | none => .ok .new
    | some file =>
      match file.worktrees.mapM (deserializeRegistration encoding) with
      | .error message =>
        .error (.worktreeRegistryJson "failed to decode local cache worktree registry" message)
      | .ok worktrees => do
        LocalCacheWorktreeRegistry.validateForPath encoding w ⟨file.version, worktrees⟩
        return ⟨worktreeRegistryVersion, worktrees⟩
  else .error (.io "failed to open local cache worktree registry")

end

/-- `LocalCacheWorktreeRegistrationStatus`. -/
inductive LocalCacheWorktreeRegistrationStatus
  | added
  | updated
  | unchanged
  deriving DecidableEq

section

variable (w : Worktrees)

/-- The order in which the registry is kept. -/
def Worktrees.le (a b : LocalCacheWorktreeRegistration) : Bool :=
  (w.pathKey a.worktreeRoot).order ≤ (w.pathKey b.worktreeRoot).order

/-- `sort`. -/
def Worktrees.sort (registry : LocalCacheWorktreeRegistry) : LocalCacheWorktreeRegistry :=
  ⟨registry.version, registry.worktrees.mergeSort w.le⟩

/-- The first element that passes a test gives way to another one. -/
def replaceFirst {α : Type} (p : α → Bool) (new : α) : List α → List α
  | [] => []
  | a :: rest => if p a then new :: rest else a :: replaceFirst p new rest

/-- `upsert`. -/
def Worktrees.upsert (registration : LocalCacheWorktreeRegistration)
    (registry : LocalCacheWorktreeRegistry) :
    LocalCacheWorktreeRegistrationStatus × LocalCacheWorktreeRegistry :=
  let same (existing : LocalCacheWorktreeRegistration) : Bool :=
    w.pathKey existing.worktreeRoot = w.pathKey registration.worktreeRoot
  match registry.worktrees.find? same with
  | some existing =>
    if existing = registration then (.unchanged, registry)
    else (.updated,
      w.sort ⟨registry.version, replaceFirst same registration registry.worktrees⟩)
  | none => (.added, w.sort ⟨registry.version, registry.worktrees ++ [registration]⟩)

/-- `remove`: the registration that is removed, and the registry after it. -/
def Worktrees.removeRegistration (worktreeRoot : FilePath)
    (registry : LocalCacheWorktreeRegistry) :
    Option LocalCacheWorktreeRegistration × LocalCacheWorktreeRegistry :=
  match registry.worktrees.find? fun registration =>
      w.pathKey registration.worktreeRoot = w.pathKey worktreeRoot with
  | some registration =>
    (some registration, ⟨registry.version, w.remove registry.worktrees worktreeRoot⟩)
  | none => (none, registry)

end

/-- The steps of `lock_worktree_registry`. -/
inductive RegistryLockStep
  | createRoot
  | openLock
  | lock

/-- The context of a step that fails. -/
def RegistryLockStep.context : RegistryLockStep → String
  | .createRoot => "failed to create local cache root"
  | .openLock => "failed to open local cache worktree registry lock"
  | .lock => "failed to lock local cache worktree registry"

/-- The steps of `save_worktree_registry`. -/
inductive RegistrySaveStep
  | createDirectory
  | createTemporary
  | encode
  | write
  | flush
  | sync
  | publish
  | syncDirectory
  deriving DecidableEq

/-- The error of a step that fails. -/
def RegistrySaveStep.error : RegistrySaveStep → WorktreeRegistryError
  | .createDirectory => .io "failed to create local cache worktree registry directory"
  | .createTemporary => .io "failed to create temporary local cache worktree registry"
  | .encode => .worktreeRegistryJson "failed to encode local cache worktree registry" ""
  | .write => .io "failed to write local cache worktree registry"
  | .flush => .io "failed to flush local cache worktree registry"
  | .sync => .io "failed to sync local cache worktree registry"
  | .publish => .io "failed to publish local cache worktree registry"
  | .syncDirectory => .io "failed to sync local cache worktree registry directory"

/-- The step that fails, of each part of an operation. -/
structure RegistryFaults where
  lock : Option RegistryLockStep
  opens : Bool
  save : Option RegistrySaveStep

section

variable (encoding : RegistryEncoding) (w : Worktrees)

/-- `save_worktree_registry`: what it returns, and the file after it. The file is replaced as a
whole, before the directory is synchronized. -/
def saveWorktreeRegistry (fault : Option RegistrySaveStep)
    (registry : LocalCacheWorktreeRegistry) (file : Option WorktreeRegistryFile) :
    Except WorktreeRegistryError Unit × Option WorktreeRegistryFile :=
  match fault with
  | none => (.ok (), some (serializeRegistry encoding registry))
  | some .syncDirectory =>
    (.error RegistrySaveStep.syncDirectory.error, some (serializeRegistry encoding registry))
  | some step => (.error step.error, file)

/-- A change of the registry under its lock: what is returned, and the registry to save. -/
def withWorktreeRegistry {α : Type} (faults : RegistryFaults)
    (change : LocalCacheWorktreeRegistry → α × Option LocalCacheWorktreeRegistry)
    (file : Option WorktreeRegistryFile) :
    Except WorktreeRegistryError α × Option WorktreeRegistryFile :=
  match faults.lock with
  | some step => (.error (.io step.context), file)
  | none =>
    match loadWorktreeRegistry encoding w faults.opens file with
    | .error e => (.error e, file)
    | .ok registry =>
      match (change registry).2 with
      | none => (.ok (change registry).1, file)
      | some saved =>
        ((saveWorktreeRegistry encoding faults.save saved file).1.map fun _ => (change registry).1,
          (saveWorktreeRegistry encoding faults.save saved file).2)

/-- `register_worktree`. -/
def registerWorktree (faults : RegistryFaults) (registration : LocalCacheWorktreeRegistration)
    (file : Option WorktreeRegistryFile) :
    Except WorktreeRegistryError
      (LocalCacheWorktreeRegistration × LocalCacheWorktreeRegistrationStatus) ×
        Option WorktreeRegistryFile :=
  match registration.validate encoding with
  | .error e => (.error e, file)
  | .ok () => withWorktreeRegistry encoding w faults (fun registry =>
      let upserted := w.upsert registration registry
      ((registration, upserted.1), if upserted.1 = .unchanged then none else some upserted.2)) file

/-- `remove_worktree_registration`. -/
def removeWorktreeRegistration (faults : RegistryFaults) (worktreeRoot : FilePath)
    (file : Option WorktreeRegistryFile) :
    Except WorktreeRegistryError (Option LocalCacheWorktreeRegistration) ×
      Option WorktreeRegistryFile :=
  match validateAbsolutePath encoding "worktree_root" worktreeRoot with
  | .error e => (.error e, file)
  | .ok () => withWorktreeRegistry encoding w faults (fun registry =>
      let removed := w.removeRegistration worktreeRoot registry
      (removed.1, if removed.1 = none then none else some removed.2)) file

end

end LfsCloud
