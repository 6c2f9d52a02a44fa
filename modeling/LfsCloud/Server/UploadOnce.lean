import LfsCloud.Server.TransferRules

/-!
# At most one backend object

Any number of uploads of one object, on any number of server states over one metadata
path. The lock file of the object admits one handler at a time to the lookup and the
upload behind it, so a lookup that finds nothing tells its handler that no upload has
succeeded before, and that none will until the handler lets go.
-/

namespace LfsCloud

open Transition Interaction

variable {ι : Type}

/-- The provider's lookup sees every object whose upload has returned. -/
def LookupSees (s : ServerState ι) : (c : ServerCall) → serverInterface.Answer c → Prop
  | .providerLookup key, answer =>
    (answer : Except StorageError (Option StoredObject)) = .ok none → s.succeeded key = 0
  | _, _ => True

/-- The calls, over a provider whose lookup sees what was uploaded. -/
def uploadOp [DecidableEq ι] (sha256 : List UInt8 → List UInt8) :
    Semantics serverInterface (ServerState ι) ι :=
  fun i s c answer t => serverOp sha256 i s c answer t ∧ LookupSees s c answer

/-- One upload request for the object: the server state that handles it, the provider
runtime there, and the user. -/
structure UploadRequest where
  server : ℕ
  runtime : ServerStorageProvider
  createdBy : RepositoryUser

/-- Every row of the key carries a backend identifier that the provider has returned. -/
def RowReturned (key : MetadataObjectKey) (s : ServerState ι) : Prop :=
  ∀ record, s.objects.rows.lookup key = some record → s.Returned key record.backendId

/-- All uploads of one object, before the first of them begins. -/
def uploadInit (repository : RepositoryMapping) (object : LfsObject)
    (requests : ι → UploadRequest)
    (s : Pool serverInterface (ServerState ι) ι (Except ServerError StoredObject)) : Prop :=
  (∃ objects returned, s.shared = .new objects returned) ∧
    RowReturned (repository.key object) s.shared ∧
      ∀ i, s.thread i = (handleLfsUploadRequest repository object (requests i).server
        (requests i).runtime (requests i).createdBy).run

/-- The uploads of one object as a system; a label is the upload that steps. -/
def uploadSystem [DecidableEq ι] (sha256 : List UInt8 → List UInt8) (repository : RepositoryMapping)
    (object : LfsObject) (requests : ι → UploadRequest) :
    System (Pool serverInterface (ServerState ι) ι (Except ServerError StoredObject)) ι :=
  poolSystem (uploadOp sha256) (uploadInit repository object requests)

/-- The invariant: at most one upload has succeeded, and every created object is paid for
by an upload call of its own. -/
structure UploadInv (key : MetadataObjectKey) (s : ServerState ι) : Prop where
  row : RowReturned key s
  once : s.succeeded key ≤ 1
  created : s.created key ≤ s.failed key + s.succeeded key

/-- What a handler may do to the others: provider answers are for good, a lock file that
another handler has stays with it, uploads need the lock file, and none follows a
success. -/
structure UploadGuar (sha256 : List UInt8 → List UInt8) (key : MetadataObjectKey) (i : ι)
    (s t : ServerState ι) : Prop where
  returned : s.returned ⊆ t.returned
  locks : ∀ stripe j, j ≠ i → s.fileLocks stripe = some j → t.fileLocks stripe = some j
  uploads : s.fileLocks (objectUploadLockStripe sha256 key) ≠ some i →
    t.succeeded key = s.succeeded key
  once : 1 ≤ s.succeeded key → t.created key = s.created key

/-- The handler has the lock file of the key. -/
def HoldsFileLock (sha256 : List UInt8 → List UInt8) (key : MetadataObjectKey) (i : ι)
    (s : ServerState ι) : Prop :=
  s.fileLocks (objectUploadLockStripe sha256 key) = some i

/-- No upload of the key has succeeded. -/
def NoneUploaded (key : MetadataObjectKey) (s : ServerState ι) : Prop := s.succeeded key = 0

variable {sha256 : List UInt8 → List UInt8} {key : MetadataObjectKey} {i : ι}

/-- A step that leaves locks and uploads alone is allowed to every handler. -/
theorem UploadGuar.of_eq {s t : ServerState ι} (hreturned : s.returned ⊆ t.returned)
    (hlocks : t.fileLocks = s.fileLocks) (hsucceeded : t.succeeded = s.succeeded)
    (hcreated : t.created = s.created) : UploadGuar sha256 key i s t :=
  ⟨hreturned, fun _ _ _ h => by rw [hlocks, h], fun _ => by rw [hsucceeded],
    fun _ => by rw [hcreated]⟩

theorem RowReturned.mono {s t : ServerState ι} (h : RowReturned key s)
    (hreturned : s.returned ⊆ t.returned) (hrows : t.objects = s.objects) : RowReturned key t := by
  intro record hrecord
  rw [hrows] at hrecord
  obtain ⟨stored, hmem, hstored⟩ := h record hrecord
  exact ⟨stored, hreturned hmem, hstored⟩

/-- Moving a row to `stale` keeps its backend identifier. -/
theorem RowReturned.marksStale {s t : ServerState ι} (h : RowReturned key s)
    {expected : String} (hmark : s.MarksStale key expected t) : RowReturned key t := by
  obtain ⟨marked, objects, hok, rfl⟩ := hmark
  intro record hrecord
  rw [MetadataObjects.markStale_of_ok hok] at hrecord
  obtain ⟨old, hold, hsame, _⟩ := MetadataObjects.lookup_markStale hrecord
  rw [hsame]
  exact h old hold

/-- Recording a returned backend identifier keeps the rows returned. -/
theorem RowReturned.records {s t : ServerState ι} {backendId : String}
    {creator : RepositoryUser} (hreturned : s.Returned key backendId)
    (hrecord : s.Records key backendId creator t) : RowReturned key t := by
  obtain ⟨now, objects, hok, rfl⟩ := hrecord
  intro record hlookup
  rw [MetadataObjects.recordVerified_of_ok hok] at hlookup
  obtain ⟨new, hnew, hsame, _⟩ := MetadataObjects.lookup_recordVerified s.objects key backendId
    creator now
  cases Option.some.inj (hnew.symm.trans hlookup)
  rw [hsame]
  exact hreturned

variable [DecidableEq ι]

/-- A quiet call changes neither locks nor upload counts, and keeps the invariant. -/
theorem uploadOp_quiet {s t : ServerState ι} {c : ServerCall}
    {answer : serverInterface.Answer c} (hquiet : c.Quiet key) (hallowed : c.Allowed s)
    (hs : UploadInv key s) (hop : uploadOp sha256 i s c answer t) :
    UploadInv key t ∧ UploadGuar sha256 key i s t ∧ t.fileLocks = s.fileLocks ∧
      t.succeeded = s.succeeded := by
  rcases serverOp_quiet_cases hquiet hop.1 with rfl | rfl | ⟨stored, rfl⟩ | ⟨server, u, rfl⟩ |
    ⟨expected, rfl, hmark⟩ | ⟨backendId, creator, rfl, hrecord⟩
  · exact ⟨hs, .of_eq (List.Subset.refl _) rfl rfl rfl, rfl, rfl⟩
  · exact ⟨⟨hs.row, hs.once, hs.created⟩, .of_eq (List.Subset.refl _) rfl rfl rfl, rfl, rfl⟩
  · have hsub : s.returned ⊆ (s.provide key stored).returned := List.subset_cons_self _ _
    exact ⟨⟨hs.row.mono hsub rfl, hs.once, hs.created⟩, .of_eq hsub rfl rfl rfl, rfl, rfl⟩
  · exact ⟨⟨hs.row, hs.once, hs.created⟩, .of_eq (List.Subset.refl _) rfl rfl rfl, rfl, rfl⟩
  · have hrow := hs.row.marksStale hmark
    obtain ⟨_, _, _, rfl⟩ := hmark
    exact ⟨⟨hrow, hs.once, hs.created⟩, .of_eq (List.Subset.refl _) rfl rfl rfl, rfl, rfl⟩
  · have hrow := RowReturned.records hallowed hrecord
    obtain ⟨_, _, _, rfl⟩ := hrecord
    exact ⟨⟨hrow, hs.once, hs.created⟩, .of_eq (List.Subset.refl _) rfl rfl rfl, rfl, rfl⟩

/-- An upload call behind a lookup that found nothing is the first to succeed, or pays for
what it has created by its failure. -/
theorem uploadOp_upload {s t : ServerState ι} {answer : Except StorageError StoredObject}
    (hs : UploadInv key s) (hheld : HoldsFileLock sha256 key i s) (habsent : NoneUploaded key s)
    (hop : uploadOp sha256 i s (.providerUpload key) answer t) :
    UploadInv key t ∧ UploadGuar sha256 key i s t ∧ HoldsFileLock sha256 key i t := by
  have hzero : s.succeeded key = 0 := habsent
  have hcreated := hs.created
  have hfirst : ∀ u : ServerState ι, 1 ≤ s.succeeded key → u.created key = s.created key := by
    intro u hone
    omega
  rcases answer with e | stored
  · obtain ⟨count, hcount, rfl⟩ : ∃ count ≤ 1, t = (s.create key count).fail key := hop.1
    refine ⟨⟨hs.row, hs.once, ?_⟩,
      ⟨List.Subset.refl _, fun _ _ _ h => h, fun _ => rfl, hfirst _⟩, hheld⟩
    simp only [ServerState.create, ServerState.fail, Function.update_self]
    omega
  · obtain ⟨count, hcount, rfl⟩ :
        ∃ count ≤ 1, t = ((s.provide key stored).create key count).succeed key := hop.1
    have hsub : s.returned ⊆ (s.provide key stored).returned := List.subset_cons_self _ _
    refine ⟨⟨hs.row.mono hsub rfl, ?_, ?_⟩,
      ⟨hsub, fun _ _ _ h => h, fun hnot => absurd hheld hnot, hfirst _⟩, hheld⟩
    · simp only [ServerState.succeed, ServerState.create, ServerState.provide,
        Function.update_self]
      omega
    · simp only [ServerState.succeed, ServerState.create, ServerState.provide,
        Function.update_self]
      omega

/-- The rules of the upload handlers. -/
theorem uploadRules (sha256 : List UInt8 → List UInt8) (key : MetadataObjectKey) (i : ι) :
    TransferRules sha256 (uploadOp sha256) (UploadInv key) (UploadGuar sha256 key) i key
      (HoldsFileLock sha256 key i) (NoneUploaded key) where
  refines hop := hop.1
  guar_returned hguar := hguar.returned
  held_stable j s t hj _ _ hguar hheld := hguar.locks _ i (Ne.symm hj) hheld
  absent_stable j s t hj _ _ hguar h := by
    refine ⟨hguar.locks _ i (Ne.symm hj) h.1, ?_⟩
    have hother : s.fileLocks (objectUploadLockStripe sha256 key) ≠ some j := by
      rw [h.1]
      exact fun hsame => hj (Option.some.inj hsame).symm
    exact (hguar.uploads hother).trans h.2
  quiet hquiet hallowed hs hop := by
    obtain ⟨ht, hguar, hlocks, hsucceeded⟩ := uploadOp_quiet hquiet hallowed hs hop
    refine ⟨ht, hguar, fun hheld => ?_, fun habsent => ?_⟩
    · rw [HoldsFileLock, hlocks]
      exact hheld
    · rw [NoneUploaded, hsucceeded]
      exact habsent
  lookup_none _ hop := by
    have hsame := hop.1
    cases hsame
    exact hop.2 rfl
  upload := uploadOp_upload
  acquire {s t answer} hs hop := by
    rcases answer with e | _
    · obtain rfl : t = s := hop.1
      exact ⟨hs, .of_eq (List.Subset.refl _) rfl rfl rfl, nofun⟩
    · obtain ⟨hfree, rfl⟩ := hop.1
      refine ⟨⟨hs.row, hs.once, hs.created⟩,
        ⟨List.Subset.refl _, fun stripe j _ hj => ?_, fun _ => rfl, fun _ => rfl⟩,
        fun _ => Function.update_self ..⟩
      have hne : stripe ≠ objectUploadLockStripe sha256 key := by
        rintro rfl
        rw [hfree] at hj
        cases hj
      exact (Function.update_of_ne hne _ _).trans hj
  release {s answer t} hs hheld hop := by
    obtain rfl : t = s.setFileLock (objectUploadLockStripe sha256 key) none := hop.1
    refine ⟨⟨hs.row, hs.once, hs.created⟩,
      ⟨List.Subset.refl _, fun stripe j hj hstripe => ?_, fun _ => rfl, fun _ => rfl⟩⟩
    have hne : stripe ≠ objectUploadLockStripe sha256 key := by
      rintro rfl
      exact hj (Option.some.inj (hstripe.symm.trans hheld))
    exact (Function.update_of_ne hne _ _).trans hstripe

/-- The uploads are verified from the start. -/
theorem wellRun_of_uploadInit {repository : RepositoryMapping} {object : LfsObject}
    {requests : ι → UploadRequest}
    {s : Pool serverInterface (ServerState ι) ι (Except ServerError StoredObject)}
    (hinit : uploadInit repository object requests s) :
    s.WellRun (uploadOp sha256) (UploadInv (repository.key object))
      (UploadGuar sha256 (repository.key object))
        fun _ => TransferRules.Uploaded (repository.key object) := by
  obtain ⟨⟨objects, returned, hnew⟩, hrow, hthread⟩ := hinit
  refine ⟨⟨hrow, ?_, ?_⟩, fun i => ⟨fun _ => True, .const True, trivial, ?_⟩⟩
  · rw [hnew]
    exact Nat.zero_le 1
  · rw [hnew]
    exact le_refl 0
  · rw [hthread i]
    exact (uploadRules sha256 (repository.key object) i).handleLfsUploadRequest
      (requests i).server (requests i).runtime (requests i).createdBy

/-- What holds of the uploads of one object in every state. -/
structure CreatedOnce (key : MetadataObjectKey)
    (s : Pool serverInterface (ServerState ι) ι (Except ServerError StoredObject)) : Prop where
  /-- One backend object for every failed upload call, and one more. -/
  created_le : s.shared.created key ≤ s.shared.failed key + 1
  /-- The metadata row refers to an object that the provider has returned. -/
  row : RowReturned key s.shared
  /-- So does every success response. -/
  response : ∀ i stored, s.thread i = .done (.ok stored) →
    s.shared.Returned key stored.backendId

/-- However the uploads of one object interleave: at most one backend object is created
for every failed upload call plus one, none after an upload call has succeeded, and row
and responses refer to objects the provider has returned. -/
theorem upload_creates_once (sha256 : List UInt8 → List UInt8) (repository : RepositoryMapping)
    (object : LfsObject) (requests : ι → UploadRequest)
    {s : Pool serverInterface (ServerState ι) ι (Except ServerError StoredObject)}
    (hreach : (uploadSystem sha256 repository object requests).Reachable s) :
    CreatedOnce (repository.key object) s ∧
      ∀ i t, (uploadSystem sha256 repository object requests).step s i t →
        1 ≤ s.shared.succeeded (repository.key object) →
          t.shared.created (repository.key object) =
            s.shared.created (repository.key object) := by
  have hrun : s.WellRun (uploadOp sha256) (UploadInv (repository.key object))
      (UploadGuar sha256 (repository.key object))
        fun _ => TransferRules.Uploaded (repository.key object) :=
    wellRun_of_reachable (fun _ => wellRun_of_uploadInit) hreach
  obtain ⟨hrow, honce, hcreated⟩ := hrun.1
  refine ⟨⟨by omega, hrow, fun i stored hdone => ?_⟩, fun i t hstep => ?_⟩
  · exact hrun.result hdone
  · exact (hrun.step hstep).1.once

/-- An object, its repository, and the one request for it. -/
def soleObject : LfsObject :=
  ⟨.zero, .ofNat 1⟩

def soleRepository : RepositoryMapping := ⟨"github-main:owner/repo", "drive-user-a"⟩

def soleRequest : UploadRequest := ⟨0, ⟨true, true⟩, ⟨"github-main", "alice", none⟩⟩

/-- What the provider returns for the object. -/
def soleStored : StoredObject := ⟨"drive-user-a", "github-main:owner/repo", soleObject, "file-1"⟩

/-- The request before it begins, over an empty objects table. -/
def solePool : Pool serverInterface (ServerState Unit) Unit (Except ServerError StoredObject) :=
  ⟨.new ⟨∅, 1⟩ [], fun _ =>
    (handleLfsUploadRequest soleRepository soleObject 0 ⟨true, true⟩
      ⟨"github-main", "alice", none⟩).run⟩

/-- The request on its own, from the first call to its success response. -/
theorem solePool_run : ∃ s, (uploadSystem (fun _ => []) soleRepository soleObject
    fun _ : Unit => soleRequest).Run solePool (List.replicate 14 ()) s ∧
      s.thread () = .done (.ok soleStored) := by
  refine poolSystem_run_cons (c := .authorize _) (.ok ()) rfl ⟨rfl, trivial⟩ ?_
  refine poolSystem_run_cons (c := .startTransferAttempt _) (.ok ()) rfl ⟨rfl, trivial⟩ ?_
  refine poolSystem_run_cons (c := .uploadLockFor _ _) (0 : ℕ) rfl ⟨⟨rfl, rfl⟩, trivial⟩ ?_
  refine poolSystem_run_cons (c := .lockUpload _ _) () rfl ⟨⟨rfl, rfl⟩, trivial⟩ ?_
  refine poolSystem_run_cons (c := .acquireObjectUploadLock _) (.ok ()) rfl ⟨⟨rfl, rfl⟩, trivial⟩ ?_
  refine poolSystem_run_cons (c := .lookupMetadata _) (.ok none) rfl ⟨⟨rfl, rfl⟩, trivial⟩ ?_
  refine poolSystem_run_cons (c := .providerLookup _) (.ok none) rfl ⟨rfl, fun _ => rfl⟩ ?_
  refine poolSystem_run_cons (c := .stageUpload _) (.ok ()) rfl ⟨rfl, trivial⟩ ?_
  refine poolSystem_run_cons (c := .providerUpload _) (.ok soleStored) rfl
    ⟨⟨1, le_rfl, rfl⟩, trivial⟩ ?_
  refine poolSystem_run_cons (c := .recordVerifiedObject _ _ _) (.ok ()) rfl
    ⟨⟨0, _, rfl, rfl⟩, trivial⟩ ?_
  refine poolSystem_run_cons (c := .finishTransferAttempt _ _) (.ok ()) rfl ⟨rfl, trivial⟩ ?_
  refine poolSystem_run_cons (c := .releaseObjectUploadLock _) () rfl ⟨rfl, trivial⟩ ?_
  refine poolSystem_run_cons (c := .unlockUpload _ _) () rfl ⟨rfl, trivial⟩ ?_
  refine poolSystem_run_cons (c := .dropUploadLock _ _) () rfl ⟨rfl, trivial⟩ ?_
  exact ⟨_, .nil _, rfl⟩

/-- After the one request has succeeded, the object that it names has been returned. -/
theorem upload_creates_once_sole : ∃ s, s.thread () = .done (.ok soleStored) ∧
    CreatedOnce (soleRepository.key soleObject) s := by
  obtain ⟨s, hrun, hdone⟩ := solePool_run
  have hinit : uploadInit soleRepository soleObject (fun _ : Unit => soleRequest) solePool :=
    ⟨⟨_, _, rfl⟩, nofun, fun _ => rfl⟩
  exact ⟨s, hdone, (upload_creates_once (fun _ => []) soleRepository soleObject
    (fun _ => soleRequest) ⟨solePool, _, hinit, hrun⟩).1⟩

end LfsCloud
