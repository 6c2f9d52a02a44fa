import LfsCloud.Lib.Lines
import LfsCloud.Lib.Table
import LfsCloud.Providers

/-!
# The migration upload checkpoint

A migration appends one JSON line to its checkpoint file for every completed
object, under an exclusive file lock, and a later run loads the file to skip what
is done. An append can be cut short at any byte, by a crash or by a failed write.
This file models the record, the loader, the append, and the runs over one file.
-/

namespace LfsCloud

/-- Failures of a migration that the checkpoint code reports. -/
inductive MigrationError
  | io (context : String)
  | invalidInput (message : String)
  deriving DecidableEq, Repr

/-- How an object was completed. -/
inductive MigrationUploadCheckpointCompletion
  | alreadyPresent
  | uploaded (backendId : String)
  deriving DecidableEq, Repr

/-- One line of the checkpoint. -/
structure MigrationUploadCheckpointRecord where
  version : UInt32
  storageProviderId : String
  repositoryNamespace : String
  oid : String
  size : UInt64
  completion : MigrationUploadCheckpointCompletion
  deriving DecidableEq

/-- `MIGRATION_UPLOAD_CHECKPOINT_VERSION`. -/
def migrationUploadCheckpointVersion : UInt32 := 2

/-- The JSON serializer and parser of records: parsing takes back what was
serialized, refuses a text that is cut short, and the compact text of a record has
no control characters. -/
structure CheckpointCodec where
  encode : MigrationUploadCheckpointRecord → List Char
  decode : List Char → Except String MigrationUploadCheckpointRecord
  encode_ne_nil : ∀ record, encode record ≠ []
  control_free : ∀ record, ∀ c ∈ encode record, 32 ≤ c.toNat
  decode_encode : ∀ record, decode (encode record) = .ok record
  decode_prefix : ∀ record text, text <+: encode record → text ≠ encode record →
    ∃ source, decode text = .error source

/-- The file, provider and namespace a checkpoint is bound to. -/
structure CheckpointIdentity where
  checkpointPath : String
  storageProviderId : String
  repositoryNamespace : String

/-- The completions a checkpoint holds, by object. -/
abbrev CheckpointCompletions := Table LfsObject MigrationUploadCheckpointCompletion

/-- The checks of the loader on one parsed record. -/
def MigrationUploadCheckpointRecord.completedObject (record : MigrationUploadCheckpointRecord)
    (identity : CheckpointIdentity) :
    Except MigrationError (LfsObject × MigrationUploadCheckpointCompletion) :=
  let fail (text : String) : Except MigrationError (LfsObject × _) :=
    .error (.invalidInput ("migration upload checkpoint " ++ identity.checkpointPath ++ text))
  if record.version ≠ migrationUploadCheckpointVersion then
    fail (" uses unsupported version " ++ toString record.version)
  else if record.storageProviderId ≠ identity.storageProviderId then
    fail " belongs to a different storage provider"
  else if record.repositoryNamespace ≠ identity.repositoryNamespace then
    fail " belongs to a different repository namespace"
  else
    match LfsOid.new record.oid with
    | .error source => fail (" contains an invalid object ID: " ++ source.message)
    | .ok oid =>
      match record.completion with
      | .alreadyPresent => .ok (⟨oid, record.size⟩, .alreadyPresent)
      | .uploaded backendId =>
        if Text.isBlank backendId then fail " contains an empty backend object ID"
        else .ok (⟨oid, record.size⟩, .uploaded backendId)

/-- The loop of `parse_migration_upload_checkpoint`. Only a last chunk without a line
end may fail to parse: it is ignored as a torn append. -/
def parseCheckpointChunks (codec : CheckpointCodec) (identity : CheckpointIdentity) :
    List (List Char) → ℕ → CheckpointCompletions → Except MigrationError CheckpointCompletions
  | [], _, completed => .ok completed
  | chunk :: chunks, index, completed =>
    let line := Lines.trimEnd '\r' (Lines.stripSuffix '\n' chunk)
    if line = [] then parseCheckpointChunks codec identity chunks (index + 1) completed
    else
      match codec.decode line with
      | .error source =>
        if chunks = [] ∧ chunk.getLast? ≠ some '\n' then .ok completed
        else .error (.invalidInput ("migration upload checkpoint " ++ identity.checkpointPath ++
          " contains invalid record " ++ toString (index + 1) ++ ": " ++ source))
      | .ok record =>
        match record.completedObject identity with
        | .error error => .error error
        | .ok (object, completion) =>
          parseCheckpointChunks codec identity chunks (index + 1)
            (completed.insert object completion)

/-- `parse_migration_upload_checkpoint`. -/
def parseMigrationUploadCheckpoint (codec : CheckpointCodec) (identity : CheckpointIdentity)
    (contents : List Char) : Except MigrationError CheckpointCompletions :=
  parseCheckpointChunks codec identity (Lines.splitInclusive '\n' contents) 0 ∅

/-- `load_migration_upload_checkpoint_blocking` on the bytes of the file. -/
def loadMigrationUploadCheckpoint (codec : CheckpointCodec) (identity : CheckpointIdentity)
    (file : ByteArray) : Except MigrationError CheckpointCompletions :=
  match String.fromUTF8? file with
  | none => .error (.io ("failed to read migration upload checkpoint " ++
      identity.checkpointPath))
  | some contents => parseMigrationUploadCheckpoint codec identity contents.toList

/-- The line that `append_migration_upload_checkpoint_blocking` writes. -/
def checkpointLine (codec : CheckpointCodec) (identity : CheckpointIdentity) (object : LfsObject)
    (completion : MigrationUploadCheckpointCompletion) : List Char :=
  codec.encode
    { version := migrationUploadCheckpointVersion
      storageProviderId := identity.storageProviderId
      repositoryNamespace := identity.repositoryNamespace
      oid := object.oid.hex
      size := object.size
      completion := completion } ++ ['\n']

/-- The bytes of a write that reach the file: all of them, or those before a cut. -/
def writtenBytes (line : List Char) (cut : Option ℕ) : ByteArray :=
  let bytes := (String.ofList line).toByteArray
  match cut with
  | none => bytes
  | some length => bytes.extract 0 length

/-- `validate_migration_uploaded_object`. -/
def validateMigrationUploadedObject (expected : LfsObject) (identity : CheckpointIdentity)
    (stored : StoredObject) : Except MigrationError Unit :=
  if stored.providerId ≠ identity.storageProviderId then
    .error (.invalidInput ("storage provider returned provider ID " ++ stored.providerId ++
      ", expected " ++ identity.storageProviderId))
  else if stored.repositoryNamespace ≠ identity.repositoryNamespace then
    .error (.invalidInput "storage provider returned a different repository namespace")
  else if Text.isBlank stored.backendId then
    .error (.invalidInput ("storage provider " ++ identity.storageProviderId ++
      " returned an empty backend object ID"))
  else if stored.object ≠ expected then
    .error (.invalidInput ("storage provider returned object sha256:" ++ stored.object.oid.hex ++
      " (" ++ toString stored.object.size ++ " bytes), expected sha256:" ++ expected.oid.hex ++
      " (" ++ toString expected.size ++ " bytes)"))
  else .ok ()

/-- The completion that is checkpointed for an object: storage had it already, or
returned metadata for the upload that passes validation. -/
def migrationUploadCompletion (identity : CheckpointIdentity) (object : LfsObject)
    (uploaded : Option StoredObject) :
    Except MigrationError MigrationUploadCheckpointCompletion :=
  match uploaded with
  | none => .ok .alreadyPresent
  | some stored =>
    (validateMigrationUploadedObject object identity stored).map fun _ =>
      .uploaded stored.backendId

/-- One append, as the process that made it saw it. -/
structure CheckpointAppend where
  object : LfsObject
  completion : MigrationUploadCheckpointCompletion
  /-- The append returned success. -/
  reported : Bool
  deriving DecidableEq

/-- A checkpoint file, the runs that have loaded it, and all appends so far. -/
structure CheckpointState where
  file : ByteArray
  runs : ℕ
  appends : List CheckpointAppend

/-- The file does not exist yet; opening it creates it empty. -/
def CheckpointState.new : CheckpointState := ⟨ByteArray.empty, 0, []⟩

/-- What can happen to a checkpoint. -/
inductive CheckpointEvent
  /-- A run starts and loads the checkpoint. -/
  | load
  /-- A task of some run completes an object and appends it; a cut leaves only the
  bytes before it in the file. -/
  | complete (object : LfsObject) (uploaded : Option StoredObject) (cut : Option ℕ)
  /-- A run ends or crashes. -/
  | stop
  deriving DecidableEq

/-- One event. A run whose load fails goes no further, and only a run that is under
way can append. -/
def checkpointStep (codec : CheckpointCodec) (identity : CheckpointIdentity)
    (s : CheckpointState) : CheckpointEvent → Option CheckpointState
  | .load =>
    match loadMigrationUploadCheckpoint codec identity s.file with
    | .error _ => some s
    | .ok _ => some { s with runs := s.runs + 1 }
  | .complete object uploaded cut =>
    if s.runs = 0 then none
    else
      match migrationUploadCompletion identity object uploaded with
      | .error _ => some s
      | .ok completion =>
        some { s with
          file := s.file ++ writtenBytes (checkpointLine codec identity object completion) cut
          appends := s.appends ++ [⟨object, completion, cut.isNone⟩] }
  | .stop => if s.runs = 0 then none else some { s with runs := s.runs - 1 }

end LfsCloud
