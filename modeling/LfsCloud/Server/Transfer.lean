import LfsCloud.Lib.Interaction
import LfsCloud.Metadata.Objects

/-!
# Object transfer handlers

The handlers that read and repair object metadata, as programs over the calls they
make to the metadata database, the storage provider and the upload locks. Every call
is one atomic step; what lies between two calls is local to the handler.
-/

namespace LfsCloud

open Interaction

/-- The part of a repository mapping that the transfer handlers read. -/
structure RepositoryMapping where
  id : String
  storageProvider : String
  deriving DecidableEq, Repr

/-- What the configured runtime of a storage provider supports. -/
structure ServerStorageProvider where
  backendIdLookup : Bool
  streamingDownload : Bool
  deriving DecidableEq, Repr

/-- The key of an object of a repository. -/
def RepositoryMapping.key (repository : RepositoryMapping) (object : LfsObject) :
    MetadataObjectKey :=
  ⟨repository.id, repository.storageProvider, object⟩

/-- The calls of a handler. Calls to the storage provider carry the key they are made
for: the provider, the namespace and the object. -/
inductive ServerCall
  /-- Authorization, and the other checks before anything is read or written. -/
  | authorize (key : MetadataObjectKey)
  | startTransferAttempt (key : MetadataObjectKey)
  /-- The backend identifier of a success, `none` for a failure. -/
  | finishTransferAttempt (key : MetadataObjectKey) (backendId : Option String)
  | lookupMetadata (key : MetadataObjectKey)
  | markObjectStale (key : MetadataObjectKey) (expectedBackendId : String)
  | recordVerifiedObject (key : MetadataObjectKey) (backendId : String)
      (creatorIfMissing : RepositoryUser)
  | providerLookup (key : MetadataObjectKey)
  | providerLookupByBackendId (key : MetadataObjectKey) (backendId : String)
  | providerUpload (key : MetadataObjectKey)
  | providerDownload (key : MetadataObjectKey)
  | providerDownloadResponse (key : MetadataObjectKey) (stored : StoredObject)
  /-- Create a temporary file, or open it again for the response. -/
  | stagingFile (key : MetadataObjectKey)
  /-- Staging admission and the body of the request. -/
  | stageUpload (key : MetadataObjectKey)
  /-- `upload_lock_for` of one server state: a reference to a lock. -/
  | uploadLockFor (server : ℕ) (name : String)
  | lockUpload (server lock : ℕ)
  | unlockUpload (server lock : ℕ)
  /-- The reference goes away. -/
  | dropUploadLock (server lock : ℕ)
  | acquireObjectUploadLock (key : MetadataObjectKey)
  /-- The file behind the lock is closed. -/
  | releaseObjectUploadLock (key : MetadataObjectKey)
  deriving DecidableEq

/-- The answers to a call. -/
def ServerAnswer : ServerCall → Type
  | .authorize _ => Except ServerError Unit
  | .startTransferAttempt _ => Except ServerError Unit
  | .finishTransferAttempt _ _ => Except ServerError Unit
  | .lookupMetadata _ => Except ServerError (Option MetadataObjectRecord)
  | .markObjectStale _ _ => Except ServerError Bool
  | .recordVerifiedObject _ _ _ => Except ServerError Unit
  | .providerLookup _ => Except StorageError (Option StoredObject)
  | .providerLookupByBackendId _ _ => Except StorageError (Option StoredObject)
  | .providerUpload _ => Except StorageError StoredObject
  | .providerDownload _ => Except StorageError StoredObject
  | .providerDownloadResponse _ _ => Except StorageError StoredObject
  | .stagingFile _ => Except ServerError Unit
  | .stageUpload _ => Except ServerError Unit
  | .uploadLockFor _ _ => ℕ
  | .lockUpload _ _ => Unit
  | .unlockUpload _ _ => Unit
  | .dropUploadLock _ _ => Unit
  | .acquireObjectUploadLock _ => Except ServerError Unit
  | .releaseObjectUploadLock _ => Unit

/-- The interface of the handlers. -/
def serverInterface : Interface := ⟨ServerCall, ServerAnswer⟩

/-- A handler: a program that may end in a server error. -/
abbrev Handler (α : Type) := ExceptT ServerError (Prog serverInterface) α

/-- Run a call to the storage provider, with its errors as server errors. -/
def storageCall {α : Type} (p : Prog serverInterface (Except StorageError α)) : Handler α :=
  ExceptT.mk (p.bind fun answer => .done (answer.mapError .storage))

/-- Run a cleanup after the handler, whatever its result. -/
def Handler.finally {α : Type} (p : Handler α) (cleanup : Prog serverInterface Unit) :
    Handler α :=
  ExceptT.mk (p.run.bind fun result => cleanup.bind fun _ => .done result)

section Calls

variable (repository : RepositoryMapping) (object : LfsObject)

def authorize : Handler Unit :=
  ExceptT.mk (request (F := serverInterface) (.authorize (repository.key object)))

def startTransferAttempt : Handler Unit :=
  ExceptT.mk (request (F := serverInterface) (.startTransferAttempt (repository.key object)))

def finishTransferAttempt (backendId : Option String) : Handler Unit :=
  ExceptT.mk (request (F := serverInterface)
    (.finishTransferAttempt (repository.key object) backendId))

def lookupMetadata : Handler (Option MetadataObjectRecord) :=
  ExceptT.mk (request (F := serverInterface) (.lookupMetadata (repository.key object)))

def markObjectStale (expectedBackendId : String) : Handler Bool :=
  ExceptT.mk (request (F := serverInterface)
    (.markObjectStale (repository.key object) expectedBackendId))

def recordVerifiedObjectMetadata (backendId : String) (createdBy : RepositoryUser) :
    Handler Unit :=
  ExceptT.mk (request (F := serverInterface)
    (.recordVerifiedObject (repository.key object) backendId createdBy))

def providerLookup : Handler (Option StoredObject) :=
  storageCall (request (F := serverInterface) (.providerLookup (repository.key object)))

def providerLookupByBackendId (backendId : String) : Handler (Option StoredObject) :=
  storageCall (request (F := serverInterface)
    (.providerLookupByBackendId (repository.key object) backendId))

def providerUpload : Handler StoredObject :=
  storageCall (request (F := serverInterface) (.providerUpload (repository.key object)))

def providerDownload : Prog serverInterface (Except StorageError StoredObject) :=
  request (F := serverInterface) (.providerDownload (repository.key object))

def providerDownloadResponse (stored : StoredObject) : Handler StoredObject :=
  storageCall (request (F := serverInterface)
    (.providerDownloadResponse (repository.key object) stored))

def stagingFile : Handler Unit :=
  ExceptT.mk (request (F := serverInterface) (.stagingFile (repository.key object)))

def stageUpload : Handler Unit :=
  ExceptT.mk (request (F := serverInterface) (.stageUpload (repository.key object)))

def acquireObjectUploadLock : Handler Unit :=
  ExceptT.mk (request (F := serverInterface) (.acquireObjectUploadLock (repository.key object)))

def releaseObjectUploadLock : Prog serverInterface Unit :=
  request (F := serverInterface) (.releaseObjectUploadLock (repository.key object))

end Calls

section Handlers

variable (repository : RepositoryMapping) (object : LfsObject)

/-- `ensure_stored_object_namespace`: only provider and namespace are compared. -/
def ensureStoredObjectNamespace (stored : StoredObject) : Handler StoredObject :=
  if stored.providerId = repository.storageProvider ∧
      stored.repositoryNamespace = repository.id then
    return stored
  else
    throw (.storage (.repositoryNamespaceMismatch repository.storageProvider))

/-- The same check on an optional object. -/
def ensureFoundNamespace : Option StoredObject → Handler (Option StoredObject)
  | none => return none
  | some stored => some <$> ensureStoredObjectNamespace repository stored

/-- The repair of a row by a lookup of the object: another backend identifier, or a row
that is not verified, is recorded; an object that is gone leaves the row stale. -/
def repairByLookup (metadata : MetadataObjectRecord) : Handler (Option StoredObject) := do
  let found ← providerLookup repository object
  let replacement ← ensureFoundNamespace repository found
  match replacement with
  | some stored =>
    if stored.backendId ≠ metadata.backendId ∨ metadata.verificationStatus ≠ .verified then
      recordVerifiedObjectMetadata repository object stored.backendId metadata.createdBy
    return some stored
  | none =>
    let _ ← markObjectStale repository object metadata.backendId
    return none

/-- The repair of a row by a lookup of its backend identifier, where the provider
supports that, else by a lookup of the object. -/
def repairByBackendId (runtime : ServerStorageProvider) (metadata : MetadataObjectRecord) :
    Handler (Option StoredObject) :=
  if runtime.backendIdLookup then do
    let found ← providerLookupByBackendId repository object metadata.backendId
    match found with
    | some stored =>
      let stored ← ensureStoredObjectNamespace repository stored
      if metadata.verificationStatus ≠ .verified then
        recordVerifiedObjectMetadata repository object stored.backendId metadata.createdBy
      return some stored
    | none => repairByLookup repository object metadata
  else repairByLookup repository object metadata

/-- `lookup_and_repair_object_with_runtime`. -/
def lookupAndRepairObjectWithRuntime (runtime : ServerStorageProvider) :
    Handler (Option StoredObject) := do
  let metadata ← lookupMetadata repository object
  match metadata with
  | none =>
    let found ← providerLookup repository object
    ensureFoundNamespace repository found
  | some metadata => repairByBackendId repository object runtime metadata

/-- The reconciliation after a staged download has found the object. -/
def reconcileDownload (metadata : Option MetadataObjectRecord) (stored : StoredObject) :
    Handler Unit :=
  match metadata with
  | none => return ()
  | some metadata =>
    if stored.backendId ≠ metadata.backendId ∨ metadata.verificationStatus ≠ .verified then
      recordVerifiedObjectMetadata repository object stored.backendId metadata.createdBy
    else return ()

/-- A row whose object turns out to be missing is left stale. -/
def markMissing (metadata : Option MetadataObjectRecord) (source : StorageError) :
    Handler Unit :=
  match source, metadata with
  | .objectNotFound _ _ _, some metadata => do
    let _ ← markObjectStale repository object metadata.backendId
    return ()
  | _, _ => return ()

/-- The answer of a staged download; every failure is passed on. -/
def stagedDownloadResult (metadata : Option MetadataObjectRecord) :
    Except StorageError StoredObject → Handler StoredObject
  | .ok stored => return stored
  | .error source => do
    markMissing repository object metadata source
    throw (.storage source)

/-- `staged_download_response`. -/
def stagedDownloadResponse : Handler StoredObject := do
  let metadata ← lookupMetadata repository object
  stagingFile repository object
  let result ← ExceptT.lift (providerDownload repository object)
  let stored ← stagedDownloadResult repository object metadata result
  let stored ← ensureStoredObjectNamespace repository stored
  reconcileDownload repository object metadata stored
  stagingFile repository object
  return stored

/-- `download_object_response` of a streaming provider. -/
def streamedDownloadResponse (runtime : ServerStorageProvider) : Handler StoredObject := do
  let found ← lookupAndRepairObjectWithRuntime repository object runtime
  match found with
  | none =>
    throw (.storage (.objectNotFound repository.storageProvider object.oid.hex object.size))
  | some stored =>
    let stored ← ensureStoredObjectNamespace repository stored
    let download ← providerDownloadResponse repository object stored
    ensureStoredObjectNamespace repository download

/-- `download_object_response`. -/
def downloadObjectResponse (runtime : ServerStorageProvider) : Handler StoredObject :=
  if runtime.streamingDownload then streamedDownloadResponse repository object runtime
  else stagedDownloadResponse repository object

/-- Record a failed attempt before an error is passed on. An error of that record is
only logged. -/
def orFinishFailed {α : Type} (p : Handler α) : Handler α :=
  ExceptT.mk (p.run.bind fun
    | .ok a => .done (.ok a)
    | .error error => (finishTransferAttempt repository object none).run.bind fun _ =>
        .done (.error error))

/-- `handle_lfs_download_request`. -/
def handleLfsDownloadRequest (runtime : ServerStorageProvider) : Handler StoredObject := do
  authorize repository object
  startTransferAttempt repository object
  let download ← orFinishFailed repository object
    (downloadObjectResponse repository object runtime)
  finishTransferAttempt repository object (some download.backendId)
  return download

/-- `StorageProviderTransferStore::upload_object`. -/
def uploadObject (createdBy : RepositoryUser) : Handler StoredObject := do
  let stored ← providerUpload repository object
  let stored ← ensureStoredObjectNamespace repository stored
  recordVerifiedObjectMetadata repository object stored.backendId createdBy
  return stored

/-- The part of an upload that runs under both upload locks. -/
def uploadUnderLock (runtime : ServerStorageProvider) (createdBy : RepositoryUser) :
    Handler StoredObject := do
  let found ← orFinishFailed repository object
    (lookupAndRepairObjectWithRuntime repository object runtime)
  match found with
  | some stored =>
    orFinishFailed repository object
      (recordVerifiedObjectMetadata repository object stored.backendId createdBy)
    finishTransferAttempt repository object (some stored.backendId)
    return stored
  | none =>
    orFinishFailed repository object (stageUpload repository object)
    let stored ← orFinishFailed repository object (uploadObject repository object createdBy)
    finishTransferAttempt repository object (some stored.backendId)
    return stored

/-- The name of the in-process lock of an object identifier. -/
def uploadLockName (oid : LfsOid) : String :=
  repository.id ++ ":" ++ repository.storageProvider ++ ":" ++ oid.hex

/-- Take the upload lock of the server state, run the handler under it, and let go of
the lock and of the reference to it. -/
def underUploadLock {α : Type} (server : ℕ) (p : Handler α) : Handler α :=
  ExceptT.mk ((request (F := serverInterface)
    (.uploadLockFor server (uploadLockName repository object.oid))).bind fun lock =>
      (request (F := serverInterface) (.lockUpload server lock)).bind fun _ =>
        ((p.finally (request (F := serverInterface) (.unlockUpload server lock))).finally
          (request (F := serverInterface) (.dropUploadLock server lock))).run)

/-- `handle_lfs_upload_request`. The result stands for the success response and the
object that the finished attempt refers to. -/
def handleLfsUploadRequest (server : ℕ) (runtime : ServerStorageProvider)
    (createdBy : RepositoryUser) : Handler StoredObject := do
  authorize repository object
  startTransferAttempt repository object
  underUploadLock repository object server do
    orFinishFailed repository object (acquireObjectUploadLock repository object)
    (uploadUnderLock repository object runtime createdBy).finally
      (releaseObjectUploadLock repository object)

end Handlers

end LfsCloud
