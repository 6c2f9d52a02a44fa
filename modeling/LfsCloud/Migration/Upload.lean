import LfsCloud.Lib.Unordered
import LfsCloud.Lib.SharedLogic
import LfsCloud.Migration.Checkpoint

/-!
# Migration uploads

A migration uploads its objects to storage, a bounded number at a time. An object that the
checkpoint holds is not uploaded again where storage has one for it. Outcomes are collected as they
come, and reported in the order of the objects.
-/

namespace LfsCloud

open Interaction

/-- `LocalMigrationObjectLocationKind`. -/
inductive LocalMigrationObjectLocationKind
  | gitLfsMedia
  | sharedCache
  deriving DecidableEq

/-- `LocalMigrationObjectLocationStatus`. -/
inductive LocalMigrationObjectLocationStatus
  | available
  | missing
  | invalid (message : String)
  deriving DecidableEq

/-- `LocalMigrationObjectLocation`. -/
structure LocalMigrationObjectLocation where
  kind : LocalMigrationObjectLocationKind
  path : String
  status : LocalMigrationObjectLocationStatus

/-- `LocalMigrationObject`. -/
structure LocalMigrationObject where
  object : LfsObject
  locations : List LocalMigrationObjectLocation

/-- `MigrationObjectUploadStatus`. -/
inductive MigrationObjectUploadStatus
  | alreadyPresent (resumed : Bool)
  | uploaded (storedObject : StoredObject) (resumed : Bool)
  | failed (message : String)
  deriving DecidableEq

/-- `MigrationObjectUploadOutcome`. -/
structure MigrationObjectUploadOutcome where
  object : LfsObject
  status : MigrationObjectUploadStatus
  deriving DecidableEq

/-- `MigrationObjectUploadFailure`. -/
structure MigrationObjectUploadFailure where
  object : LfsObject
  message : String
  deriving DecidableEq

/-- `MigrationStorageUpload`. -/
structure MigrationStorageUpload where
  storageProviderId : String
  repositoryNamespace : String
  alreadyPresentObjects : List LfsObject
  uploadedObjects : List StoredObject
  failedObjects : List MigrationObjectUploadFailure
  outcomes : List MigrationObjectUploadOutcome
  checkpointPath : String

/-- `MigrationError`, as the upload of an object returns it. -/
inductive MigrationUploadError
  | migration (error : MigrationError)
  | sourceObjectMissing (oid : String) (size : UInt64)
  | storage (error : StorageError)

/-- The texts of failures. -/
structure MigrationMessages where
  /-- `SanitizedMessage::new`. -/
  sanitize : String → String
  /-- `to_string` of an error. -/
  display : MigrationUploadError → String

/-- The calls of an upload: to the provider, to hash a file, and to append to the checkpoint. -/
inductive MigrationCall
  | objectExists (repositoryNamespace : String) (object : LfsObject)
  | hashMigrationObjectFile (path : String)
  | uploadObject (repositoryNamespace : String) (object : LfsObject) (source : String)
  | appendCheckpoint (object : LfsObject) (completion : MigrationUploadCheckpointCompletion)

/-- The answers to a call. -/
def MigrationAnswer : MigrationCall → Type
  | .objectExists _ _ => Except StorageError Bool
  | .hashMigrationObjectFile _ => Except MigrationError (LfsOid × UInt64)
  | .uploadObject _ _ _ => Except StorageError StoredObject
  | .appendCheckpoint _ _ => Except MigrationError Unit

/-- The interface of an upload. -/
def migrationInterface : Interface := ⟨MigrationCall, MigrationAnswer⟩

/-- A program of an upload. -/
abbrev MigrationProg (α : Type) := MemoryProg migrationInterface Unit MigrationUploadError α

/-- A call to the provider that passes its error on. -/
def askStorage {α : Type} (c : MigrationCall) (hc : MigrationAnswer c = Except StorageError α) :
    MigrationProg α :=
  ask (F := migrationInterface) c >>= fun answer =>
    liftResult ((cast hc answer).mapError .storage)

/-- The first available location of a kind. -/
def LocalMigrationObject.pathOf (localObject : LocalMigrationObject)
    (kind : LocalMigrationObjectLocationKind) : Option String :=
  (localObject.locations.find? fun location =>
    location.kind = kind ∧ location.status = .available).map (·.path)

/-- `verified_migration_upload_source_path`. -/
def verifiedMigrationUploadSourcePath (localObject : LocalMigrationObject) :
    Except MigrationUploadError String :=
  match [LocalMigrationObjectLocationKind.gitLfsMedia, .sharedCache].findSome?
      localObject.pathOf with
  | some path => .ok path
  | none => .error (.sourceObjectMissing localObject.object.oid.hex localObject.object.size)

/-- `verify_migration_upload_source`, after the file was hashed. -/
def checkMigrationUploadSource (path : String) (object : LfsObject) (actual : LfsOid × UInt64) :
    Except MigrationUploadError Unit :=
  if actual.1 = object.oid ∧ actual.2 = object.size then .ok ()
  else .error (.migration (.invalidInput ("local migration source " ++ path ++
    " no longer matches sha256:" ++ object.oid.hex ++ " (" ++ toString object.size ++
    " bytes): got sha256:" ++ actual.1.hex ++ " (" ++ toString actual.2 ++ " bytes)")))

/-- `verify_migration_upload_source`. -/
def verifyMigrationUploadSource (path : String) (object : LfsObject) : MigrationProg Unit :=
  ask (F := migrationInterface) (.hashMigrationObjectFile path) >>= fun answer =>
    liftResult ((answer : Except MigrationError (LfsOid × UInt64)).mapError .migration) >>=
      fun actual => liftResult (checkMigrationUploadSource path object actual)

section

variable (identity : CheckpointIdentity) (messages : MigrationMessages)

/-- `upload_missing_migration_object`. -/
def uploadMissingMigrationObject (localObject : LocalMigrationObject) :
    MigrationProg MigrationObjectUploadStatus := do
  let source ← liftResult (verifiedMigrationUploadSourcePath localObject)
  verifyMigrationUploadSource source localObject.object
  let storedObject : StoredObject ←
    askStorage (.uploadObject identity.repositoryNamespace localObject.object source) rfl
  liftResult ((validateMigrationUploadedObject localObject.object identity
    storedObject).mapError .migration)
  return .uploaded storedObject false

/-- `upload_one_migration_object`. -/
def uploadOneMigrationObject (localObject : LocalMigrationObject) :
    MigrationProg MigrationObjectUploadStatus := do
  let present : Bool ←
    askStorage (.objectExists identity.repositoryNamespace localObject.object) rfl
  if present then return .alreadyPresent false
  else uploadMissingMigrationObject identity localObject

/-- The completion that an outcome is checkpointed with. -/
def MigrationObjectUploadStatus.completion :
    MigrationObjectUploadStatus → Option MigrationUploadCheckpointCompletion
  | .alreadyPresent _ => some .alreadyPresent
  | .uploaded storedObject _ => some (.uploaded storedObject.backendId)
  | .failed _ => none

/-- What is reported where the checkpoint could not be written. -/
def afterAppend (object : LfsObject) (status : MigrationObjectUploadStatus) :
    Except MigrationError Unit → MigrationObjectUploadOutcome
  | .ok () => ⟨object, status⟩
  | .error error => ⟨object, .failed (messages.sanitize
    ("object completed in storage but durable checkpoint failed: " ++
      messages.display (.migration error)))⟩

/-- `checkpoint_migration_upload_outcome`. -/
def checkpointMigrationUploadOutcome (object : LfsObject)
    (status : Except MigrationUploadError MigrationObjectUploadStatus) :
    Prog migrationInterface MigrationObjectUploadOutcome :=
  match status with
  | .error error => .done ⟨object, .failed (messages.sanitize (messages.display error))⟩
  | .ok status =>
    match status.completion with
    | none => .done ⟨object, status⟩
    | some completion => .call (.appendCheckpoint object completion) fun answer =>
      .done (afterAppend messages object status answer)

/-- `resumed_migration_upload_outcome`. -/
def resumedMigrationUploadOutcome (object : LfsObject) :
    MigrationUploadCheckpointCompletion → MigrationObjectUploadOutcome
  | .alreadyPresent => ⟨object, .alreadyPresent true⟩
  | .uploaded backendId => ⟨object, .uploaded
    ⟨identity.storageProviderId, identity.repositoryNamespace, object, backendId⟩ true⟩

/-- The outcome of a checkpointed object, by whether storage has one for it. -/
def afterExists (localObject : LocalMigrationObject)
    (completion : MigrationUploadCheckpointCompletion) :
    Except StorageError Bool → Prog migrationInterface MigrationObjectUploadOutcome
  | .ok true => .done (resumedMigrationUploadOutcome identity localObject.object completion)
  | .ok false => ((uploadMissingMigrationObject identity localObject).from ()).bind fun result =>
    checkpointMigrationUploadOutcome messages localObject.object result.1
  | .error error =>
    checkpointMigrationUploadOutcome messages localObject.object (.error (.storage error))

/-- The task of an object. -/
def migrationTask (checkpointed : CheckpointCompletions) (localObject : LocalMigrationObject) :
    Prog migrationInterface MigrationObjectUploadOutcome :=
  match checkpointed.lookup localObject.object with
  | some completion =>
    .call (.objectExists identity.repositoryNamespace localObject.object) fun answer =>
      afterExists identity messages localObject completion answer
  | none => ((uploadOneMigrationObject identity localObject).from ()).bind fun result =>
    checkpointMigrationUploadOutcome messages localObject.object result.1

/-- The tasks of `upload_migration_objects_to_storage_with_options`, after the checkpoint is
loaded. -/
def migrationTasks (codec : CheckpointCodec) (maxConcurrentUploads : ℕ)
    (objects : List LocalMigrationObject) (checkpoint : ByteArray) :
    Except MigrationError (List (Prog migrationInterface MigrationObjectUploadOutcome)) :=
  if maxConcurrentUploads = 0 then
    .error (.invalidInput (messages.sanitize
      "migration upload concurrency must be greater than zero"))
  else match loadMigrationUploadCheckpoint codec identity checkpoint with
    | .error error => .error error
    | .ok checkpointed => .ok (objects.map (migrationTask identity messages checkpointed))

/-- The report on the outcomes. -/
def migrationStorageUpload (outcomes : List MigrationObjectUploadOutcome) :
    MigrationStorageUpload where
  storageProviderId := identity.storageProviderId
  repositoryNamespace := identity.repositoryNamespace
  alreadyPresentObjects := outcomes.filterMap fun outcome => match outcome.status with
    | .alreadyPresent _ => some outcome.object
    | _ => none
  uploadedObjects := outcomes.filterMap fun outcome => match outcome.status with
    | .uploaded storedObject _ => some storedObject
    | _ => none
  failedObjects := outcomes.filterMap fun outcome => match outcome.status with
    | .failed message => some ⟨outcome.object, message⟩
    | _ => none
  outcomes := outcomes
  checkpointPath := identity.checkpointPath

end

/-- The identifiers of what storage holds, by namespace and object. -/
abbrev HeldObjects := String → LfsObject → Set String

/-- A storage provider, by what its calls may answer and leave. It says that it has an object only
where it holds one, and what it returns for an upload it then holds. -/
structure StorageProvider where
  objectExists : HeldObjects → String → LfsObject → Except StorageError Bool → Prop
  uploadObject : HeldObjects → String → LfsObject → String → Except StorageError StoredObject →
    HeldObjects → Prop
  held_of_exists : ∀ held repositoryNamespace object,
    objectExists held repositoryNamespace object (.ok true) →
      (held repositoryNamespace object).Nonempty
  held_of_upload : ∀ held repositoryNamespace object source stored held',
    uploadObject held repositoryNamespace object source (.ok stored) held' →
      stored.backendId ∈ held' repositoryNamespace object

/-- What storage holds, what it held at any time of the run, and the checkpoint file. -/
structure MigrationState where
  held : HeldObjects
  everHeld : HeldObjects
  checkpoint : ByteArray

/-- The state after storage came to hold other objects. -/
def MigrationState.holding (s : MigrationState) (held : HeldObjects) : MigrationState where
  held := held
  everHeld repositoryNamespace object :=
    s.everHeld repositoryNamespace object ∪ held repositoryNamespace object
  checkpoint := s.checkpoint

/-- The calls of an upload. An append that fails may leave a part of its line. -/
def migrationOp (codec : CheckpointCodec) (identity : CheckpointIdentity)
    (provider : StorageProvider) : Effect migrationInterface MigrationState
  | s, .objectExists repositoryNamespace object, answer, t =>
    provider.objectExists s.held repositoryNamespace object answer ∧ t = s
  | s, .hashMigrationObjectFile _, _, t => t = s
  | s, .uploadObject repositoryNamespace object source, answer, t =>
    ∃ held, provider.uploadObject s.held repositoryNamespace object source answer held ∧
      t = s.holding held
  | s, .appendCheckpoint object completion, answer, t =>
    ∃ cut, (answer = Except.ok () → cut = none) ∧ t = { s with
      checkpoint := s.checkpoint ++
        writtenBytes (checkpointLine codec identity object completion) cut }

end LfsCloud
