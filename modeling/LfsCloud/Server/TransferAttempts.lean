import LfsCloud.Metadata.Transfers
import LfsCloud.Server.Transfer

/-!
# Transfer attempts of the handlers

Uploads and downloads of any objects over one table of transfer attempts. Whatever the
other calls answer, a handler starts at most one row, and gives it the status that goes
with its response, unless the update of a success fails: then the row stays `started`.
-/

namespace LfsCloud

open Transition Interaction

variable {ι : Type}

/-- A request that is recorded. -/
inductive AttemptRequest
  | download (repository : RepositoryMapping) (object : LfsObject)
      (runtime : ServerStorageProvider)
  | upload (repository : RepositoryMapping) (object : LfsObject) (server : ℕ)
      (runtime : ServerStorageProvider) (createdBy : RepositoryUser)

/-- The handler of a request. -/
def AttemptRequest.handler : AttemptRequest → Handler StoredObject
  | .download repository object runtime => handleLfsDownloadRequest repository object runtime
  | .upload repository object server runtime createdBy =>
    handleLfsUploadRequest repository object server runtime createdBy

/-- The result that a call of `finish_transfer_attempt` stands for. -/
def transferResult : Option String → MetadataTransferResult
  | some backendId => .succeeded (some backendId)
  | none => .failed

/-- The table, and what each handler has done: the row it has started, how many it has
started, and the results it has tried to record. -/
structure AttemptState (ι : Type) where
  attempts : TransferAttempts
  attemptId : ι → Option ℕ
  starts : ι → ℕ
  tried : ι → List MetadataTransferResult

section Operations

variable [DecidableEq ι]

/-- A handler has started a row. -/
def AttemptState.start (s : AttemptState ι) (i : ι) (id : ℕ) (attempts : TransferAttempts) :
    AttemptState ι where
  attempts := attempts
  attemptId := Function.update s.attemptId i (some id)
  starts := Function.update s.starts i (s.starts i + 1)
  tried := s.tried

/-- A handler has tried to record a result. -/
def AttemptState.try (s : AttemptState ι) (i : ι) (result : MetadataTransferResult)
    (attempts : TransferAttempts) : AttemptState ι :=
  { s with
    attempts := attempts
    tried := Function.update s.tried i (s.tried i ++ [result]) }

/-- The calls that the table is about. A statement that fails changes nothing, and any
statement may fail. All other calls may answer anything. -/
def attemptOp : Semantics serverInterface (AttemptState ι) ι := fun i s call answer t =>
  match call, answer with
  | .startTransferAttempt key, .ok _ =>
    ∃ id attempts, s.attempts.startTransferAttempt key = .ok (id, attempts) ∧
      t = s.start i id attempts
  | .startTransferAttempt _, .error _ => t = s
  | .finishTransferAttempt _ backendId, .ok _ =>
    ∃ id attempts, s.attemptId i = some id ∧
      s.attempts.finishTransferAttempt id (transferResult backendId) = .ok attempts ∧
        t = s.try i (transferResult backendId) attempts
  | .finishTransferAttempt _ backendId, .error _ =>
    t = s.try i (transferResult backendId) s.attempts
  | _, _ => t = s

/-- No handler has begun, over any rows of earlier transfers. -/
def attemptInit (requests : ι → AttemptRequest)
    (s : Pool serverInterface (AttemptState ι) ι (Except ServerError StoredObject)) : Prop :=
  s.shared.attempts.Bounded ∧
    ∀ i, s.shared.attemptId i = none ∧ s.shared.starts i = 0 ∧ s.shared.tried i = [] ∧
      s.thread i = (requests i).handler.run

/-- The requests over one table as a system; a label is the handler that steps. -/
def attemptSystem (requests : ι → AttemptRequest) :
    System (Pool serverInterface (AttemptState ι) ι (Except ServerError StoredObject)) ι :=
  poolSystem attemptOp (attemptInit requests)

end Operations

/-- The calls that leave the table alone. -/
def ServerCall.KeepsAttempts : ServerCall → Prop
  | .startTransferAttempt _ => False
  | .finishTransferAttempt _ _ => False
  | _ => True

section Calls

variable {repository : RepositoryMapping} {object : LfsObject} {runtime : ServerStorageProvider}

/-- The handler does not touch the table. -/
abbrev Handler.KeepsAttempts {α : Type} (p : Handler α) : Prop :=
  p.run.Calls (F := serverInterface) ServerCall.KeepsAttempts

theorem storageCall_keepsAttempts {α : Type} {p : Prog serverInterface (Except StorageError α)}
    (h : p.Calls ServerCall.KeepsAttempts) : (storageCall p).KeepsAttempts :=
  h.bind fun _ => trivial

theorem recordVerified_keepsAttempts {backendId : String} {createdBy : RepositoryUser} :
    (recordVerifiedObjectMetadata repository object backendId createdBy).KeepsAttempts :=
  .request trivial

theorem ensureStoredObjectNamespace_keepsAttempts {stored : StoredObject} :
    (ensureStoredObjectNamespace repository stored).KeepsAttempts := by
  unfold ensureStoredObjectNamespace
  split
  · exact .pureE
  · exact .throwE

theorem ensureFoundNamespace_keepsAttempts {found : Option StoredObject} :
    (ensureFoundNamespace repository found).KeepsAttempts := by
  cases found with
  | none => exact .pureE
  | some stored => exact Prog.Calls.bind ensureStoredObjectNamespace_keepsAttempts fun
      | .ok _ => trivial
      | .error _ => trivial

theorem repairByLookup_keepsAttempts {metadata : MetadataObjectRecord} :
    (repairByLookup repository object metadata).KeepsAttempts := by
  apply Prog.Calls.bindE (storageCall_keepsAttempts (.request trivial))
  intro found
  apply Prog.Calls.bindE ensureFoundNamespace_keepsAttempts
  rintro (_ | stored)
  · exact Prog.Calls.bindE (.request trivial) fun _ => .pureE
  · dsimp only
    split
    · exact Prog.Calls.bindE recordVerified_keepsAttempts fun _ => .pureE
    · exact .pureE

theorem repairByBackendId_keepsAttempts {metadata : MetadataObjectRecord} :
    (repairByBackendId repository object runtime metadata).KeepsAttempts := by
  unfold repairByBackendId
  split
  · apply Prog.Calls.bindE (storageCall_keepsAttempts (.request trivial))
    rintro (_ | stored)
    · exact repairByLookup_keepsAttempts
    · apply Prog.Calls.bindE ensureStoredObjectNamespace_keepsAttempts
      intro stored
      dsimp only
      split
      · exact Prog.Calls.bindE recordVerified_keepsAttempts fun _ => .pureE
      · exact .pureE
  · exact repairByLookup_keepsAttempts

theorem lookupAndRepair_keepsAttempts :
    (lookupAndRepairObjectWithRuntime repository object runtime).KeepsAttempts := by
  apply Prog.Calls.bindE (.request trivial)
  rintro (_ | metadata)
  · apply Prog.Calls.bindE (storageCall_keepsAttempts (.request trivial))
    exact fun _ => ensureFoundNamespace_keepsAttempts
  · exact repairByBackendId_keepsAttempts

theorem stagedDownloadResult_keepsAttempts {metadata : Option MetadataObjectRecord}
    {result : Except StorageError StoredObject} :
    (stagedDownloadResult repository object metadata result).KeepsAttempts := by
  cases result with
  | ok stored => exact .pureE
  | error source =>
    apply Prog.Calls.bindE
    · unfold markMissing
      split
      · exact Prog.Calls.bindE (.request trivial) fun _ => .pureE
      · exact .pureE
    · exact fun _ => .throwE

theorem stagedDownloadResponse_keepsAttempts :
    (stagedDownloadResponse repository object).KeepsAttempts := by
  apply Prog.Calls.bindE (.request trivial)
  intro metadata
  apply Prog.Calls.bindE (.request trivial)
  intro _
  apply Prog.Calls.bindE
  · exact Prog.Calls.bind (.request trivial) fun _ => trivial
  intro result
  apply Prog.Calls.bindE stagedDownloadResult_keepsAttempts
  intro stored
  apply Prog.Calls.bindE ensureStoredObjectNamespace_keepsAttempts
  intro stored
  apply Prog.Calls.bindE
  · unfold reconcileDownload
    split
    · exact .pureE
    · split
      · exact recordVerified_keepsAttempts
      · exact .pureE
  · exact fun _ => Prog.Calls.bindE (.request trivial) fun _ => .pureE

theorem downloadObjectResponse_keepsAttempts :
    (downloadObjectResponse repository object runtime).KeepsAttempts := by
  unfold downloadObjectResponse
  split
  · apply Prog.Calls.bindE lookupAndRepair_keepsAttempts
    rintro (_ | stored)
    · exact .throwE
    · apply Prog.Calls.bindE ensureStoredObjectNamespace_keepsAttempts
      intro stored
      apply Prog.Calls.bindE (storageCall_keepsAttempts (.request trivial))
      exact fun _ => ensureStoredObjectNamespace_keepsAttempts
  · exact stagedDownloadResponse_keepsAttempts

theorem uploadObject_keepsAttempts {createdBy : RepositoryUser} :
    (uploadObject repository object createdBy).KeepsAttempts := by
  apply Prog.Calls.bindE (storageCall_keepsAttempts (.request trivial))
  intro stored
  apply Prog.Calls.bindE ensureStoredObjectNamespace_keepsAttempts
  exact fun _ => Prog.Calls.bindE recordVerified_keepsAttempts fun _ => .pureE

end Calls

end LfsCloud
