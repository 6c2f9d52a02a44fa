import LfsCloud.LocalCache.Files

/-!
# Ingest, hydration and dehydration

An object is copied into the cache, a pointer file is replaced by the bytes of its object, and a
file by the pointer of its object. What replaces a file of a worktree is exchanged with it, and
the displaced file is looked at before it is dropped.
-/

namespace LfsCloud

open Interaction

section

variable (digest : List UInt8 → LfsOid) (stripe : DiskPath → String)

/-- The loop of `hash_and_optionally_copy`, which counts what it hashes. -/
def hashChunks : List (List UInt8) → List UInt8 → ℕ → Option (LfsOid × UInt64)
  | [], hasher, totalSize => some (digest hasher, UInt64.ofNat totalSize)
  | chunk :: chunks, hasher, totalSize =>
    if totalSize + chunk.length < 2 ^ 64 then
      hashChunks chunks (hasher ++ chunk) (totalSize + chunk.length)
    else none

/-- The end of `hash_and_optionally_copy`. -/
def hashed (path : DiskPath) (chunks : List (List UInt8)) : FileProg (LfsOid × UInt64) :=
  match hashChunks digest chunks [] 0 with
  | some actual => pure actual
  | none => throw (.io "object is too large to measure" path .invalidData)

/-- `ensure_object_identity`. -/
def ensureObjectIdentity (path : DiskPath) (expected : LfsObject) (actual : LfsOid × UInt64) :
    FileProg Unit :=
  if actual.1 ≠ expected.oid ∨ actual.2 ≠ expected.size then
    throw (.integrityMismatch path expected.oid expected.size actual.1 actual.2)
  else pure ()

/-- `regular_file_exists`. -/
def regularFileExists (path : DiskPath) (inspectContext wrongTypeContext : String) :
    FileProg Bool := do
  match ← tryFile (.metadata path) rfl with
  | .ok (.file _ _) => pure true
  | .ok _ => throw (.io wrongTypeContext path .invalidData)
  | .error .notFound => pure false
  | .error source => throw (.io inspectContext path source)

/-- `cache_object_path_exists`. -/
def cacheObjectPathExists (path : DiskPath) : FileProg Bool :=
  regularFileExists path "failed to inspect cache object" "cache object path is not a file"

/-- `ensure_source_object_file`. -/
def ensureSourceObjectFile (path : DiskPath) (object : LfsObject) : FileProg Unit := do
  if ← regularFileExists path "failed to inspect Git LFS source object"
      "Git LFS source object path is not a file" then pure ()
  else throw (.missingSourceObject object.oid object.size path)

/-- `verify_file_object`. -/
def verifyFileObject (path : DiskPath) (expected : LfsObject) : FileProg Unit := do
  let chunks : List (List UInt8) ←
    askFile (.read path) rfl "failed to open object for hashing" path
  let actual ← hashed digest path chunks
  ensureObjectIdentity path expected actual

/-- `verify_object`. -/
def verifyObject (object : LfsObject) : FileProg Unit := do
  if ← cacheObjectPathExists (objectPath object) then
    verifyFileObject digest (objectPath object) object
  else throw (.missingCacheObject object.oid object.size (objectPath object))

/-- `worktree_file_metadata_without_following_symlinks`: the length and the mode. -/
def worktreeFileMetadata (path : DiskPath) : FileProg (ℕ × ℕ) := do
  match ← tryFile (.symlinkMetadata path) rfl with
  | .error source => throw (.io "failed to inspect worktree path" path source)
  | .ok .symlink => throw (.worktreePathSymlink path)
  | .ok .other => throw (.io "worktree path is not a file" path .invalidData)
  | .ok (.file len mode) => pure (len, mode)

/-- `open_worktree_file_without_following_symlinks`, with the chunks of the opened file. -/
def readWorktreeFile (path : DiskPath) (context : String) : FileProg (List (List UInt8)) := do
  let _ ← worktreeFileMetadata path
  match ← tryFile (.readNoFollow path) rfl with
  | .ok chunks => pure chunks
  | .error source =>
    match ← tryFile (.symlinkMetadata path) rfl with
    | .ok .symlink => throw (.worktreePathSymlink path)
    | _ => throw (.io context path source)

/-- `verify_worktree_file_object`. -/
def verifyWorktreeFileObject (path : DiskPath) (expected : LfsObject) : FileProg Unit := do
  let chunks ← readWorktreeFile path "failed to open worktree object for hashing"
  let actual ← hashed digest path chunks
  ensureObjectIdentity path expected actual

/-- `BoundedPointerBytes` of a regular file, and whether these are text. -/
def pointerText (bytes : List UInt8) : Option String := String.fromUTF8? ⟨bytes.toArray⟩

/-- `read_lfs_pointer_file`. -/
def readLfsPointerFile (path : DiskPath) : FileProg LfsPointer := do
  let chunks ← readWorktreeFile path "failed to open Git LFS pointer file"
  let contents := chunks.flatten
  if lfsPointerSizeCutoff ≤ contents.length then
    throw (.pointerFileTooLarge path contents.length lfsPointerSizeCutoff)
  else match pointerText contents with
    | none => throw (.pointerFileInvalidUtf8 path)
    | some text => match LfsPointer.parse text with
      | .ok pointer => pure pointer
      | .error source => throw (.pointerParse path source)

/-- `read_existing_lfs_pointer_file`. -/
def readExistingLfsPointerFile (path : DiskPath) : FileProg (Option LfsPointer) := do
  let chunks ← readWorktreeFile path "failed to open dehydration target"
  let contents := chunks.flatten
  if lfsPointerSizeCutoff ≤ contents.length then pure none
  else match pointerText contents with
    | none => pure none
    | some text => match LfsPointer.parse text with
      | .ok pointer => pure (some pointer)
      | .error _ => pure none

/-- `CachePublishDurability`. -/
inductive CachePublishDurability
  | recoverable
  | durable
  deriving DecidableEq

/-- `sync_verified_cache_object`. -/
def syncVerifiedCacheObject (cachePath : DiskPath) : FileProg Unit := do
  askFile (.sync cachePath) rfl "failed to sync verified cache object" cachePath
  askFile (.sync cachePath) rfl "failed to sync cache object directory" cachePath

/-- `copy_and_verify_object`, for the chunks of the source. -/
def copyAndVerifyObject (sourcePath temp cachePath : DiskPath) (object : LfsObject)
    (chunks : List (List UInt8)) : FileProg Unit := do
  askFile (.write temp chunks.flatten) rfl "failed to write temporary cache object" cachePath
  let actual ← hashed digest sourcePath chunks
  ensureObjectIdentity sourcePath object actual

/-- `LocalCacheIngestStatus`. -/
inductive LocalCacheIngestStatus
  | copied
  | alreadyCached
  deriving DecidableEq

/-- The verified copy of a source in a temporary file. -/
def stageVerifiedCopy (sourcePath temp cachePath : DiskPath) (object : LfsObject)
    (chunks : List (List UInt8)) (durability : CachePublishDurability) : FileProg Unit := do
  copyAndVerifyObject digest sourcePath temp cachePath object chunks
  if durability = .durable then
    askFile (.sync temp) rfl "failed to sync temporary cache object" cachePath

/-- The publication of a verified copy, unless the object is there already. -/
def publishCacheObject (temp cachePath cacheParent : DiskPath) (object : LfsObject)
    (durability : CachePublishDurability) : FileProg LocalCacheIngestStatus := do
  match ← tryFile (.persistNoclobber temp cachePath) rfl with
  | .ok () => do
    if durability = .durable then do
      askFile (.sync cachePath) rfl "failed to sync published cache object" cachePath
      askFile (.sync cacheParent) rfl "failed to sync cache object directory" cacheParent
    pure .copied
  | .error .alreadyExists => do
    dropTemp temp
    verifyFileObject digest cachePath object
    if durability = .durable then syncVerifiedCacheObject cachePath
    pure .alreadyCached
  | .error source => do
    dropTemp temp
    throw (.io "failed to publish cache object" cachePath source)

/-- `copy_verified_file_to_cache`, for the chunks of the source. -/
def copyVerifiedFileToCache (sourcePath : DiskPath) (object : LfsObject)
    (chunks : List (List UInt8)) (durability : CachePublishDurability) :
    FileProg LocalCacheIngestStatus := do
  let cachePath := objectPath object
  let cacheParent := DiskPath.cache (objectPathForOid object.oid).dropLast
  askFile (.createDirAll cacheParent) rfl "failed to create cache object directory" cacheParent
  let temp : DiskPath ←
    askFile (.createTemp cacheParent) rfl "failed to create temporary cache object" cacheParent
  withTemp temp (stageVerifiedCopy digest sourcePath temp cachePath object chunks durability)
  publishCacheObject digest temp cachePath cacheParent object durability

/-- `copy_verified_object_to_cache`. -/
def copyVerifiedObjectToCache (sourcePath : DiskPath) (object : LfsObject) :
    FileProg LocalCacheIngestStatus := do
  let chunks : List (List UInt8) ←
    askFile (.read sourcePath) rfl "failed to open Git LFS source object" sourcePath
  copyVerifiedFileToCache digest sourcePath object chunks .recoverable

/-- `copy_verified_worktree_object_to_cache`. -/
def copyVerifiedWorktreeObjectToCache (sourcePath : DiskPath) (object : LfsObject) :
    FileProg Unit := do
  let chunks ← readWorktreeFile sourcePath "failed to open hydrated worktree object"
  let _ ← copyVerifiedFileToCache digest sourcePath object chunks .durable

/-- `ingest_git_lfs_object`. -/
def ingestGitLfsObject (gitLfsObjectsDir : FilePath) (object : LfsObject) :
    FileProg LocalCacheIngestStatus := do
  askFile .lockShared rfl "failed to lock local cache operation for shared access"
    (objectPath object)
  let sourcePath := gitLfsObjectPath gitLfsObjectsDir object.oid
  if ← cacheObjectPathExists (objectPath object) then do
    verifyObject digest object
    pure .alreadyCached
  else do
    ensureSourceObjectFile sourcePath object
    copyVerifiedObjectToCache digest sourcePath object

/-- `replace_retaining_displaced`, where paths can be exchanged. -/
def replaceRetainingDisplaced (temp path : DiskPath)
    (verifyDisplaced : DiskPath → FileProg Unit) : FileProg Unit := do
  match ← tryFile (.exchange temp path) rfl with
  | .error source => do
    dropTemp temp
    throw (.io "failed to atomically exchange worktree content" path source)
  | .ok () =>
    match ← attempt (verifyDisplaced temp) with
    | .ok () => dropTemp temp
    | .error e =>
      match ← tryFile (.exchange temp path) rfl with
      | .error source => throw (.worktreeReplacementRollback path temp source)
      | .ok () => do
        dropTemp temp
        throw e

/-- `MaterializationMode`. -/
inductive MaterializationMode
  | noReplace
  | replaceMatchingPointer
  deriving DecidableEq

/-- `LocalCacheMaterializationStatus`, where files are not cloned. -/
inductive LocalCacheMaterializationStatus
  | alreadyMaterialized
  | copied
  deriving DecidableEq

/-- `ExistingDestinationStatus`. -/
inductive ExistingDestinationStatus
  | missing
  | alreadyMaterialized
  | different
  deriving DecidableEq

/-- `existing_destination_status`. -/
def existingDestinationStatus (path : DiskPath) (object : LfsObject) :
    FileProg ExistingDestinationStatus := do
  match ← tryFile (.symlinkMetadata path) rfl with
  | .ok .symlink => throw (.worktreePathSymlink path)
  | .ok (.file len _) =>
    if len ≠ object.size.toNat then pure .different
    else match ← attempt (verifyWorktreeFileObject digest path object) with
      | .ok () => pure .alreadyMaterialized
      | .error (.integrityMismatch _ _ _ _ _) => pure .different
      | .error e => throw e
  | .ok .other => throw (.io "materialization destination is not a file" path .invalidData)
  | .error .notFound => pure .missing
  | .error source => throw (.io "failed to inspect materialization destination" path source)

/-- The refusal to materialize over another file. -/
def targetExists (object : LfsObject) (path : DiskPath) : LocalCacheFileError :=
  .materializationTargetExists object.oid object.size path

/-- The pointer at a path is for an object. -/
def ensureMatchingPointer (path : DiskPath) (object : LfsObject) (reported : DiskPath) :
    FileProg Unit := do
  let pointer ← readLfsPointerFile path
  if pointer.object ≠ object then throw (targetExists object reported) else pure ()

/-- The check of the file that a hydration displaced. -/
def verifyDisplacedPointer (object : LfsObject) (path displaced : DiskPath) : FileProg Unit := do
  match ← attempt (readLfsPointerFile displaced) with
  | .error _ => throw (targetExists object path)
  | .ok pointer =>
    if pointer.object ≠ object then throw (targetExists object path) else pure ()

/-- `DEFAULT_MATERIALIZED_FILE_MODE`. -/
def defaultMaterializedFileMode : ℕ := 0o600

/-- `set_temporary_file_mode`. -/
def setTemporaryFileMode (temp path : DiskPath) (mode : ℕ) : FileProg Unit :=
  askFile (.setPermissions temp mode) rfl "failed to set temporary file permissions" path

/-- `publish_materialized_file`. -/
def publishMaterializedFile (temp path : DiskPath) (mode : MaterializationMode)
    (object : LfsObject) : FileProg Unit :=
  match mode with
  | .noReplace => do
    withTemp temp (setTemporaryFileMode temp path defaultMaterializedFileMode)
    match ← tryFile (.persistNoclobber temp path) rfl with
    | .ok () => pure ()
    | .error .alreadyExists => do
      match ← attempt (verifyWorktreeFileObject digest path object) with
      | .ok () => dropTemp temp
      | .error (.integrityMismatch _ _ _ _ _) => do
        dropTemp temp
        throw (targetExists object path)
      | .error e => do
        dropTemp temp
        throw e
    | .error source => do
      dropTemp temp
      throw (.io "failed to publish materialized object" path source)
  | .replaceMatchingPointer => do
    withTemp temp do
      ensureMatchingPointer path object path
      let metadata ← worktreeFileMetadata path
      setTemporaryFileMode temp path metadata.2
    replaceRetainingDisplaced temp path (verifyDisplacedPointer object path)

/-- `copy_cache_object_to_temporary_file`. -/
def copyCacheObjectToTemporaryFile (temp : DiskPath) (object : LfsObject) : FileProg Unit := do
  let chunks : List (List UInt8) ←
    askFile (.read (objectPath object)) rfl "failed to open verified cache object"
      (objectPath object)
  askFile (.write temp chunks.flatten) rfl "failed to write temporary materialized object" temp
  let actual ← hashed digest (objectPath object) chunks
  ensureObjectIdentity (objectPath object) object actual

/-- `materialize_verified_object` after the destination was looked at. -/
def materializeCopy (object : LfsObject) (path parent : DiskPath) (mode : MaterializationMode) :
    FileProg LocalCacheMaterializationStatus := do
  askFile (.createDirAll parent) rfl "failed to create materialization destination directory"
    parent
  let temp : DiskPath ←
    askFile (.createTemp parent) rfl "failed to create temporary materialized object" parent
  withTemp temp (copyCacheObjectToTemporaryFile digest temp object)
  publishMaterializedFile digest temp path mode object
  verifyWorktreeFileObject digest path object
  pure .copied

/-- The check of `materialize_verified_object` for a destination with other bytes. -/
def checkDestination (object : LfsObject) (path : DiskPath) (mode : MaterializationMode) :
    ExistingDestinationStatus → FileProg Unit
  | .different => match mode with
    | .noReplace => throw (targetExists object path)
    | .replaceMatchingPointer => ensureMatchingPointer path object path
  | _ => pure ()

/-- The rest of `materialize_verified_object`. -/
def materializeInParent (object : LfsObject) (path : DiskPath) (mode : MaterializationMode) :
    FileProg LocalCacheMaterializationStatus :=
  match path.parent with
  | none => throw (.io "failed to resolve materialization destination parent" path .invalidInput)
  | some parent => materializeCopy digest object path parent mode

/-- `materialize_verified_object`. -/
def materializeVerifiedObject (object : LfsObject) (path : DiskPath)
    (mode : MaterializationMode) : FileProg LocalCacheMaterializationStatus := do
  let status ← existingDestinationStatus digest path object
  if status = .alreadyMaterialized then pure .alreadyMaterialized
  else do
    checkDestination object path mode status
    materializeInParent digest object path mode

/-- What is done under the lock of a path. -/
def withPathLock {α : Type} (path : DiskPath) (p : FileProg α) : FileProg α := do
  askFile (.lockPath (stripe path)) rfl "failed to lock local cache worktree path" path
  let result ← attempt p
  let _ ← ask (F := fileInterface) (.unlockPath (stripe path))
  liftResult result

/-- `materialize_object`. -/
def materializeObject (object : LfsObject) (path : DiskPath) :
    FileProg LocalCacheMaterializationStatus := do
  askFile .lockShared rfl "failed to lock local cache operation for shared access" path
  withPathLock stripe path do
    verifyObject digest object
    materializeVerifiedObject digest object path .noReplace

/-- `hydrate_pointer_file`, under the locks: the object, and what was done. -/
def hydrateLocked (path : DiskPath) :
    FileProg (LfsObject × LocalCacheMaterializationStatus) := do
  let pointer ← readLfsPointerFile path
  if pointer.isEmpty then pure (pointer.object, .alreadyMaterialized)
  else do
    verifyObject digest pointer.object
    let status ← materializeVerifiedObject digest pointer.object path .replaceMatchingPointer
    pure (pointer.object, status)

/-- `hydrate_pointer_file`. -/
def hydratePointerFile (path : DiskPath) :
    FileProg (LfsObject × LocalCacheMaterializationStatus) := do
  askFile .lockShared rfl "failed to lock local cache operation for shared access" path
  withPathLock stripe path (hydrateLocked digest path)

/-- `remap_integrity_path`. -/
def remapIntegrityPath (publicPath : DiskPath) : LocalCacheFileError → LocalCacheFileError
  | .integrityMismatch _ expectedOid expectedSize actualOid actualSize =>
    .integrityMismatch publicPath expectedOid expectedSize actualOid actualSize
  | error => error

/-- The check of the file that a dehydration displaced. -/
def verifyDisplacedObject (object : LfsObject) (path displaced : DiskPath) : FileProg Unit := do
  match ← attempt (verifyWorktreeFileObject digest displaced object) with
  | .ok () => pure ()
  | .error e => throw (remapIntegrityPath path e)

/-- `publish_pointer_file`. -/
def publishPointerFile (path : DiskPath) (object : LfsObject) : FileProg Unit := do
  match path.parent with
  | none => throw (.io "failed to resolve dehydration target parent" path .invalidInput)
  | some parent => do
    let metadata ← worktreeFileMetadata path
    let temp : DiskPath ←
      askFile (.createTemp parent) rfl "failed to create temporary Git LFS pointer" parent
    withTemp temp do
      askFile (.write temp (LfsPointer.new object).toPointerFile.toUTF8.data.toList) rfl
        "failed to write temporary Git LFS pointer" path
      setTemporaryFileMode temp path metadata.2
    replaceRetainingDisplaced temp path (verifyDisplacedObject digest object path)
    let pointer ← readLfsPointerFile path
    if pointer.object ≠ object then
      throw (.pointerParse path (.pointerUnexpectedLine
        "dehydrated pointer did not round-trip to the expected object"))
    else pure ()

/-- `LocalCacheDehydrationStatus`. -/
inductive LocalCacheDehydrationStatus
  | alreadyDehydrated
  | replacedWithPointer
  | cachedAndReplacedWithPointer
  deriving DecidableEq

/-- The object of a file is in the cache, or is copied there. -/
def cacheWorktreeObject (path : DiskPath) (object : LfsObject) :
    FileProg LocalCacheDehydrationStatus := do
  if ← cacheObjectPathExists (objectPath object) then do
    verifyObject digest object
    syncVerifiedCacheObject (objectPath object)
    pure .replacedWithPointer
  else do
    copyVerifiedWorktreeObjectToCache digest path object
    pure .cachedAndReplacedWithPointer

/-- The file is replaced by its pointer. -/
def replaceWithPointer (path : DiskPath) (object : LfsObject) :
    FileProg LocalCacheDehydrationStatus := do
  let status ← cacheWorktreeObject digest path object
  publishPointerFile digest path object
  pure status

/-- `dehydrate_file`, under the locks. -/
def dehydrateLocked (object : LfsObject) (path : DiskPath) :
    FileProg LocalCacheDehydrationStatus := do
  match ← readExistingLfsPointerFile path with
  | some pointer =>
    if pointer.object = object then pure .alreadyDehydrated
    else do
      match ← attempt (verifyWorktreeFileObject digest path object) with
      | .error _ => throw (.pointerObjectMismatch path object.oid object.size pointer.object.oid
          pointer.object.size)
      | .ok () => replaceWithPointer digest path object
  | none => replaceWithPointer digest path object

/-- `dehydrate_file`. -/
def dehydrateFile (object : LfsObject) (path : DiskPath) :
    FileProg LocalCacheDehydrationStatus := do
  askFile .lockShared rfl "failed to lock local cache operation for shared access" path
  withPathLock stripe path (dehydrateLocked digest object path)

end

end LfsCloud
