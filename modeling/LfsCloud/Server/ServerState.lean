import LfsCloud.Server.Transfer

/-!
# The state behind the handlers

What the calls of the handlers read and write: the objects table, the upload locks of
every server state, the lock files next to the database, and the storage provider.
Besides that the state keeps a history: what the provider has returned, which
verifications were recorded, when a handler last read a row, and how the upload calls
ended.
-/

namespace LfsCloud

open Interaction

/-- `OBJECT_UPLOAD_LOCK_STRIPES`. -/
def objectUploadLockStripes : ℕ := 64

/-- The eight bytes of a number, the most significant first. -/
def beBytes (n : ℕ) : List UInt8 :=
  [56, 48, 40, 32, 24, 16, 8, 0].map fun shift => UInt8.ofNat (n >>> shift)

/-- The bytes that `object_upload_lock_path` hashes: every component behind its length,
then the size. -/
def uploadLockDigestInput (key : MetadataObjectKey) : List UInt8 :=
  [key.repoId, key.storageProviderId, key.object.oid.hex].flatMap (fun component =>
    beBytes component.toUTF8.size ++ component.toUTF8.data.toList) ++
      beBytes key.object.size.toNat

/-- The lock file of a key: the first byte of its digest picks a stripe. -/
def objectUploadLockStripe (sha256 : List UInt8 → List UInt8) (key : MetadataObjectKey) :
    Fin objectUploadLockStripes :=
  ⟨((sha256 (uploadLockDigestInput key)).headD 0).toNat % objectUploadLockStripes,
    Nat.mod_lt _ (by decide)⟩

/-- The upload locks of one server state: weak references by name. The lock behind a
reference is shared by the handlers that hold a reference to it. -/
structure UploadLocks (ι : Type) where
  locks : Table String ℕ
  /-- Handlers that hold a reference to a lock. -/
  strongCount : ℕ → ℕ
  /-- The handler that has a lock. -/
  holder : ℕ → Option ι
  nextLock : ℕ

/-- No lock has been made yet. -/
def UploadLocks.new {ι : Type} : UploadLocks ι := ⟨∅, fun _ => 0, fun _ => none, 0⟩

/-- `upload_lock_for`: dead entries are purged, a live one is upgraded, and else a new
lock is made. -/
def UploadLocks.uploadLockFor {ι : Type} (u : UploadLocks ι) (name : String) :
    ℕ × UploadLocks ι :=
  let locks := u.locks.filter fun _ lock => 0 < u.strongCount lock
  match locks.lookup name with
  | some lock =>
    (lock, { u with
      locks := locks
      strongCount := Function.update u.strongCount lock (u.strongCount lock + 1) })
  | none =>
    (u.nextLock, { u with
      locks := locks.insert name u.nextLock
      strongCount := Function.update u.strongCount u.nextLock 1
      nextLock := u.nextLock + 1 })

/-- The state that all handlers share. -/
structure ServerState (ι : Type) where
  objects : MetadataObjects
  /-- The upload locks of every server state. -/
  uploadLocks : ℕ → UploadLocks ι
  /-- The handler that has a lock file. -/
  fileLocks : Fin objectUploadLockStripes → Option ι
  /-- What the provider has returned, with the key it was asked for. -/
  returned : List (MetadataObjectKey × StoredObject)
  /-- The verifications that were recorded, in order. -/
  recorded : List (MetadataObjectKey × String)
  /-- How many verifications were recorded up to the last one of a key. -/
  revision : MetadataObjectKey → ℕ
  /-- How many verifications were recorded when a handler last read a row. -/
  readAt : ι → ℕ
  /-- Backend objects that upload calls have created. -/
  created : MetadataObjectKey → ℕ
  /-- Upload calls that returned an object. -/
  succeeded : MetadataObjectKey → ℕ
  /-- Upload calls that reported failure. -/
  failed : MetadataObjectKey → ℕ

/-- The state before any handler has begun, over an existing objects table and what the
provider has returned so far. -/
def ServerState.new {ι : Type} (objects : MetadataObjects)
    (returned : List (MetadataObjectKey × StoredObject)) : ServerState ι where
  objects := objects
  uploadLocks _ := .new
  fileLocks _ := none
  returned := returned
  recorded := []
  revision _ := 0
  readAt _ := 0
  created _ := 0
  succeeded _ := 0
  failed _ := 0

section

variable {ι : Type} [DecidableEq ι]

/-- The provider has returned a backend identifier for exactly this key: asked for the
namespace and object, it named itself, the namespace and the identifier. -/
def ServerState.Returned (s : ServerState ι) (key : MetadataObjectKey) (backendId : String) :
    Prop :=
  ∃ stored, (key, stored) ∈ s.returned ∧ stored.providerId = key.storageProviderId ∧
    stored.repositoryNamespace = key.repoId ∧ stored.backendId = backendId

/-- A row has been read. -/
def ServerState.read (s : ServerState ι) (i : ι) : ServerState ι :=
  { s with readAt := Function.update s.readAt i s.recorded.length }

/-- A row is moved to `stale`, where it still has the expected backend identifier. -/
def ServerState.MarksStale (s : ServerState ι) (key : MetadataObjectKey)
    (expectedBackendId : String) (t : ServerState ι) : Prop :=
  ∃ marked objects, s.objects.markObjectStale key expectedBackendId = .ok (marked, objects) ∧
    t = { s with objects := objects }

/-- A verification is recorded. -/
def ServerState.Records (s : ServerState ι) (key : MetadataObjectKey) (backendId : String)
    (creatorIfMissing : RepositoryUser) (t : ServerState ι) : Prop :=
  ∃ now objects, s.objects.recordVerifiedObject key backendId creatorIfMissing now = .ok objects ∧
    t = { s with
      objects := objects
      recorded := s.recorded ++ [(key, backendId)]
      revision := Function.update s.revision key (s.recorded.length + 1) }

/-- The provider has returned an object. -/
def ServerState.provide (s : ServerState ι) (key : MetadataObjectKey) (stored : StoredObject) :
    ServerState ι :=
  { s with returned := (key, stored) :: s.returned }

/-- An upload call has created backend objects. -/
def ServerState.create (s : ServerState ι) (key : MetadataObjectKey) (count : ℕ) :
    ServerState ι :=
  { s with created := Function.update s.created key (s.created key + count) }

/-- An upload call has returned an object. -/
def ServerState.succeed (s : ServerState ι) (key : MetadataObjectKey) : ServerState ι :=
  { s with succeeded := Function.update s.succeeded key (s.succeeded key + 1) }

/-- An upload call has reported failure. -/
def ServerState.fail (s : ServerState ι) (key : MetadataObjectKey) : ServerState ι :=
  { s with failed := Function.update s.failed key (s.failed key + 1) }

/-- The upload locks of one server state change. -/
def ServerState.setUploadLocks (s : ServerState ι) (server : ℕ) (u : UploadLocks ι) :
    ServerState ι :=
  { s with uploadLocks := Function.update s.uploadLocks server u }

/-- A lock file changes hands. -/
def ServerState.setFileLock (s : ServerState ι) (stripe : Fin objectUploadLockStripes)
    (holder : Option ι) : ServerState ι :=
  { s with fileLocks := Function.update s.fileLocks stripe holder }

/-- What a lookup or a download of the provider may answer: nothing, an error, or any
object, which it then has returned. -/
def ServerState.Provides (s : ServerState ι) (key : MetadataObjectKey) :
    Except StorageError (Option StoredObject) → ServerState ι → Prop
  | .ok (some stored), t => t = s.provide key stored
  | _, t => t = s

/-- The calls, for every answer. Any of them may fail; a write that fails may have taken
effect. An upload call creates at most one backend object. -/
def serverOp (sha256 : List UInt8 → List UInt8) :
    Semantics serverInterface (ServerState ι) ι := fun i s call answer t =>
  match call, answer with
  | .authorize _, _ => t = s
  | .startTransferAttempt _, _ => t = s
  | .finishTransferAttempt _ _, _ => t = s
  | .stagingFile _, _ => t = s
  | .stageUpload _, _ => t = s
  | .lookupMetadata _, .error _ => t = s
  | .lookupMetadata key, .ok record => s.objects.lookupObject key = .ok record ∧ t = s.read i
  | .markObjectStale key expected, .ok _ => s.MarksStale key expected t
  | .markObjectStale key expected, .error _ => t = s ∨ s.MarksStale key expected t
  | .recordVerifiedObject key backendId creator, .ok _ => s.Records key backendId creator t
  | .recordVerifiedObject key backendId creator, .error _ =>
    t = s ∨ s.Records key backendId creator t
  | .providerLookup key, answer => s.Provides key answer t
  | .providerLookupByBackendId key _, answer => s.Provides key answer t
  | .providerDownload key, answer => s.Provides key (answer.map some) t
  | .providerDownloadResponse key _, answer => s.Provides key (answer.map some) t
  | .providerUpload key, .ok stored =>
    ∃ count ≤ 1, t = ((s.provide key stored).create key count).succeed key
  | .providerUpload key, .error _ => ∃ count ≤ 1, t = (s.create key count).fail key
  | .uploadLockFor server name, lock =>
    lock = ((s.uploadLocks server).uploadLockFor name).1 ∧
      t = s.setUploadLocks server ((s.uploadLocks server).uploadLockFor name).2
  | .lockUpload server lock, _ =>
    (s.uploadLocks server).holder lock = none ∧
      t = s.setUploadLocks server { s.uploadLocks server with
        holder := Function.update (s.uploadLocks server).holder lock (some i) }
  | .unlockUpload server lock, _ =>
    t = s.setUploadLocks server { s.uploadLocks server with
      holder := Function.update (s.uploadLocks server).holder lock none }
  | .dropUploadLock server lock, _ =>
    t = s.setUploadLocks server { s.uploadLocks server with
      strongCount := Function.update (s.uploadLocks server).strongCount lock
        ((s.uploadLocks server).strongCount lock - 1) }
  | .acquireObjectUploadLock key, .ok _ =>
    s.fileLocks (objectUploadLockStripe sha256 key) = none ∧
      t = s.setFileLock (objectUploadLockStripe sha256 key) (some i)
  | .acquireObjectUploadLock _, .error _ => t = s
  | .releaseObjectUploadLock key, _ =>
    t = s.setFileLock (objectUploadLockStripe sha256 key) none

end

end LfsCloud
