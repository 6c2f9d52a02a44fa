import LfsCloud.Server.TransferRules

/-!
# Metadata repair under concurrency

Batch lookups, downloads and uploads of one object repair its row from what the provider
tells them. What they record is always something the provider has returned, and they
leave creators and other rows alone. The move to `stale` compares backend identifiers
only, so it is undisturbed exactly as long as nobody has recorded the very identifier
again that the handler read.
-/

namespace LfsCloud

open Transition Interaction

variable {ι : Type}

/-- A request for one object. -/
inductive TransferRequest
  | batchLookup (runtime : ServerStorageProvider)
  | download (runtime : ServerStorageProvider)
  | upload (server : ℕ) (runtime : ServerStorageProvider) (createdBy : RepositoryUser)

/-- The handler of a request. -/
def TransferRequest.handler (repository : RepositoryMapping) (object : LfsObject) :
    TransferRequest → Handler (Option StoredObject)
  | .batchLookup runtime => do
    authorize repository object
    lookupAndRepairObjectWithRuntime repository object runtime
  | .download runtime => do
    let stored ← handleLfsDownloadRequest repository object runtime
    return some stored
  | .upload server runtime createdBy => do
    let stored ← handleLfsUploadRequest repository object server runtime createdBy
    return some stored

/-- A pool of handlers. -/
abbrev TransferPool (ι : Type) :=
  Pool serverInterface (ServerState ι) ι (Except ServerError (Option StoredObject))

/-- A verified row carries a backend identifier that the provider has returned. -/
def VerifiedReturned (key : MetadataObjectKey) (s : ServerState ι) : Prop :=
  ∀ record, s.objects.rows.lookup key = some record → record.verificationStatus = .verified →
    s.Returned key record.backendId

/-- All requests for one object, before the first of them is handled. -/
def transferInit (repository : RepositoryMapping) (object : LfsObject)
    (requests : ι → TransferRequest) (s : TransferPool ι) : Prop :=
  (∃ objects returned, s.shared = .new objects returned) ∧
    VerifiedReturned (repository.key object) s.shared ∧
      ∀ i, s.thread i = ((requests i).handler repository object).run

/-- The requests for one object as a system; a label is the handler that steps. -/
def transferSystem [DecidableEq ι] (sha256 : List UInt8 → List UInt8)
    (repository : RepositoryMapping) (object : LfsObject) (requests : ι → TransferRequest) :
    System (TransferPool ι) ι :=
  poolSystem (serverOp sha256) (transferInit repository object requests)

/-- A step that turns the row `stale` although it was recorded verified after the handler
had read it. -/
def TurnsNewerStale (key : MetadataObjectKey) (i : ι) (s t : ServerState ι) : Prop :=
  s.readAt i < s.revision key ∧
    (∃ record, s.objects.rows.lookup key = some record ∧ record.verificationStatus = .verified) ∧
      ∃ record, t.objects.rows.lookup key = some record ∧ record.verificationStatus = .stale

/-- The verification that was recorded last, since the handler has read the row, carries
the expected backend identifier, and the row is still verified. -/
def ReverifiedSinceRead (key : MetadataObjectKey) (expected : String) (i : ι)
    (s : ServerState ι) : Prop :=
  (s.recorded.drop (s.readAt i)).getLast? = some (key, expected) ∧
    ∃ record, s.objects.rows.lookup key = some record ∧ record.verificationStatus = .verified

/-- The next call of a handler does not move a row to `stale` whose backend identifier has
been recorded again. -/
def Undisturbed (s : TransferPool ι) (i : ι) : Prop :=
  ∀ key expected next, s.thread i = .call (.markObjectStale key expected) next →
    ¬ReverifiedSinceRead key expected i s.shared

/-- The invariant: verified rows are returned, and the last verification that was recorded
is that of the row. -/
structure RepairInv (key : MetadataObjectKey) (s : ServerState ι) : Prop where
  verified : VerifiedReturned key s
  revision : s.revision key = s.recorded.length
  last : ∀ entry, s.recorded.getLast? = some entry → entry.1 = key ∧
    (∃ size, sqliteSizeBytes key.object = .ok size) ∧
      ∃ record, s.objects.rows.lookup key = some record ∧ record.backendId = entry.2

/-- What a handler does to the others: provider answers are for good, and only its own row
changes, but for the creator. -/
structure RepairGuar (key : MetadataObjectKey) (s t : ServerState ι) : Prop where
  returned : s.returned ⊆ t.returned
  objects : MetadataObjects.Keeps key s.objects t.objects

variable {sha256 : List UInt8 → List UInt8} {key : MetadataObjectKey} {i : ι}
  {s t : ServerState ι}

/-- The part of the state that the invariant is about, and the answers so far. -/
theorem RepairInv.frame (hs : RepairInv key s) (hreturned : s.returned ⊆ t.returned)
    (hobjects : t.objects = s.objects) (hrecorded : t.recorded = s.recorded)
    (hrevision : t.revision = s.revision) : RepairInv key t ∧ RepairGuar key s t := by
  refine ⟨⟨fun record hrecord hverified => ?_, ?_, ?_⟩, hreturned, ?_⟩
  · rw [hobjects] at hrecord
    obtain ⟨stored, hmem, hstored⟩ := hs.verified record hrecord hverified
    exact ⟨stored, hreturned hmem, hstored⟩
  · rw [hrevision, hrecorded]
    exact hs.revision
  · rw [hrecorded, hobjects]
    exact hs.last
  · rw [hobjects]
    exact .refl key _

/-- Moving the row to `stale` keeps the invariant. -/
theorem RepairInv.marksStale {expected : String} (hs : RepairInv key s)
    (hmark : s.MarksStale key expected t) : RepairInv key t ∧ RepairGuar key s t := by
  obtain ⟨marked, objects, hok, rfl⟩ := hmark
  obtain rfl := MetadataObjects.markStale_of_ok hok
  refine ⟨⟨fun record hrecord hverified => ?_, hs.revision, fun entry hentry => ?_⟩,
    List.Subset.refl _, MetadataObjects.keeps_markStale ..⟩
  · obtain ⟨old, hold, _, rfl | ⟨hstale, _⟩⟩ := MetadataObjects.lookup_markStale hrecord
    · exact hs.verified record hold hverified
    · rw [hstale] at hverified
      cases hverified
  · obtain ⟨hkey, hsize, record, hrecord, hbackend⟩ := hs.last entry hentry
    obtain ⟨record', hrecord', hsame⟩ :=
      MetadataObjects.markStale_lookup s.objects expected hrecord
    exact ⟨hkey, hsize, record', hrecord', hsame.trans hbackend⟩

/-- Recording a returned backend identifier establishes the invariant. -/
theorem repairInv_of_records {backendId : String} {creator : RepositoryUser}
    (hreturned : s.Returned key backendId)
    (hrecord : s.Records key backendId creator t) : RepairInv key t ∧ RepairGuar key s t := by
  obtain ⟨now, objects, hok, rfl⟩ := hrecord
  have hsize := MetadataObjects.size_of_recordVerifiedObject hok
  obtain rfl := MetadataObjects.recordVerified_of_ok hok
  obtain ⟨new, hnew, hsame, _⟩ := MetadataObjects.lookup_recordVerified s.objects key backendId
    creator now
  refine ⟨⟨fun record hlookup _ => ?_, ?_, fun entry hentry => ?_⟩,
    List.Subset.refl _, MetadataObjects.keeps_recordVerified ..⟩
  · cases Option.some.inj (hnew.symm.trans hlookup)
    rw [hsame]
    exact hreturned
  · simp only [Function.update_self, List.length_append, List.length_singleton]
  · simp only [List.getLast?_concat, Option.some.injEq] at hentry
    subst hentry
    exact ⟨rfl, hsize, new, hnew, hsame⟩

/-- Recording a verification turns no row `stale`. -/
theorem not_turnsNewerStale_of_records {k : MetadataObjectKey} {backendId : String}
    {creator : RepositoryUser} (hrecord : s.Records k backendId creator t) :
    ¬TurnsNewerStale key i s t := by
  rintro ⟨_, ⟨record, hold, hverified⟩, record', hnew, hstale⟩
  obtain ⟨now, objects, hok, rfl⟩ := hrecord
  obtain rfl := MetadataObjects.recordVerified_of_ok hok
  by_cases hkey : key = k
  · subst hkey
    obtain ⟨new, hlookup, _, hstatus⟩ := MetadataObjects.lookup_recordVerified s.objects key
      backendId creator now
    cases Option.some.inj (hlookup.symm.trans hnew)
    rw [hstatus] at hstale
    cases hstale
  · have hkeeps := MetadataObjects.keeps_recordVerified s.objects k backendId creator now
    cases Option.some.inj (hold.symm.trans ((hkeeps.other key hkey).symm.trans hnew))
    rw [hverified] at hstale
    cases hstale

/-- Marking a row `stale` turns it so only where the backend identifier is the expected
one. -/
theorem backendId_of_marksStale {k : MetadataObjectKey} {expected : String}
    (hmark : s.MarksStale k expected t) (hturns : TurnsNewerStale key i s t) :
    k = key ∧ ∃ record, s.objects.rows.lookup key = some record ∧
      record.verificationStatus = .verified ∧ record.backendId = expected := by
  obtain ⟨_, ⟨record, hold, hverified⟩, record', hnew, hstale⟩ := hturns
  obtain ⟨marked, objects, hok, rfl⟩ := hmark
  obtain rfl := MetadataObjects.markStale_of_ok hok
  by_cases hkey : key = k
  · subst hkey
    obtain ⟨old, hlookup, _, rfl | ⟨_, hexpected⟩⟩ := MetadataObjects.lookup_markStale hnew
    · cases Option.some.inj (hold.symm.trans hlookup)
      rw [hverified] at hstale
      cases hstale
    · cases Option.some.inj (hold.symm.trans hlookup)
      exact ⟨rfl, record, hold, hverified, hexpected⟩
  · have hkeeps := MetadataObjects.keeps_markStale s.objects k expected
    cases Option.some.inj (hold.symm.trans ((hkeeps.other key hkey).symm.trans hnew))
    rw [hverified] at hstale
    cases hstale

variable [DecidableEq ι]

/-- The rules of the transfer handlers, which rely on no lock. -/
theorem repairRules (sha256 : List UInt8 → List UInt8) (key : MetadataObjectKey) (i : ι) :
    TransferRules sha256 (serverOp sha256) (RepairInv key) (fun _ => RepairGuar key) i key
      (fun _ => True) (fun _ => True) where
  refines hop := hop
  guar_returned hguar := hguar.returned
  held_stable := .const True
  absent_stable := (Stable.const True).and (.const True)
  quiet hquiet hallowed hs hop := by
    suffices h : _ ∧ _ from ⟨h.1, h.2, id, id⟩
    rcases serverOp_quiet_cases hquiet hop with rfl | rfl | ⟨stored, rfl⟩ | ⟨server, u, rfl⟩ |
      ⟨expected, rfl, hmark⟩ | ⟨backendId, creator, rfl, hrecord⟩
    · exact hs.frame (List.Subset.refl _) rfl rfl rfl
    · exact hs.frame (List.Subset.refl _) rfl rfl rfl
    · exact hs.frame (List.subset_cons_self _ _) rfl rfl rfl
    · exact hs.frame (List.Subset.refl _) rfl rfl rfl
    · exact hs.marksStale hmark
    · exact repairInv_of_records hallowed hrecord
  lookup_none _ _ := trivial
  upload {s answer t} hs _ _ hop := by
    suffices h : _ ∧ _ from ⟨h.1, h.2, trivial⟩
    rcases answer with e | stored
    · obtain ⟨count, _, rfl⟩ : ∃ count ≤ 1, t = (s.create key count).fail key := hop
      exact hs.frame (List.Subset.refl _) rfl rfl rfl
    · obtain ⟨count, _, rfl⟩ :
          ∃ count ≤ 1, t = ((s.provide key stored).create key count).succeed key := hop
      exact hs.frame (List.subset_cons_self _ _) rfl rfl rfl
  acquire {s t a} hs hop := by
    suffices h : _ ∧ _ from ⟨h.1, h.2, fun _ => trivial⟩
    rcases a with e | _
    · obtain rfl : t = s := hop
      exact hs.frame (List.Subset.refl _) rfl rfl rfl
    · obtain ⟨_, rfl⟩ := hop
      exact hs.frame (List.Subset.refl _) rfl rfl rfl
  release {s answer t} hs _ hop := by
    obtain rfl : t = s.setFileLock (objectUploadLockStripe sha256 key) none := hop
    exact hs.frame (List.Subset.refl _) rfl rfl rfl

/-- Every request is verified under the rules. -/
theorem verified_handler (sha256 : List UInt8 → List UInt8) (repository : RepositoryMapping)
    (object : LfsObject) (i : ι) (transfer : TransferRequest) :
    Verified (serverOp sha256) (RepairInv (repository.key object))
      (fun _ => RepairGuar (repository.key object)) i
        (Outcome (fun _ _ => True) fun _ => True)
          (transfer.handler repository object).run fun _ => True := by
  have h := repairRules sha256 (repository.key object) i
  cases transfer with
  | batchLookup runtime =>
    have hauthorize := (h.request (c := .authorize (repository.key object)) rfl
      TransferRules.carries_true fun _ _ => trivial).outcome
    refine hauthorize.bindE fun _ => ?_
    exact (h.lookupAndRepair runtime).postE (fun _ _ _ _ => trivial) fun _ _ _ => trivial
  | download runtime =>
    refine ((h.handleLfsDownloadRequest runtime).postE (fun _ _ _ _ => trivial)
      fun _ _ _ => trivial).bindE fun stored => ?_
    exact .pureE fun _ _ hP => hP
  | upload server runtime createdBy =>
    refine ((h.handleLfsUploadRequest server runtime createdBy).postE (fun _ _ _ _ => trivial)
      fun _ _ _ => trivial).bindE fun stored => ?_
    exact .pureE fun _ _ hP => hP

variable {repository : RepositoryMapping} {object : LfsObject} {requests : ι → TransferRequest}

/-- The requests are verified from the start. -/
theorem wellRun_of_transferInit {s : TransferPool ι}
    (hinit : transferInit repository object requests s) :
    s.WellRun (serverOp sha256) (RepairInv (repository.key object))
      (fun _ => RepairGuar (repository.key object))
        fun _ => Outcome (fun _ _ => True) fun _ => True := by
  obtain ⟨⟨objects, returned, hnew⟩, hverified, hthread⟩ := hinit
  refine ⟨⟨hverified, ?_, ?_⟩, fun i => ⟨fun _ => True, .const True, trivial, ?_⟩⟩
  · rw [hnew]
    rfl
  · rw [hnew]
    exact nofun
  · rw [hthread i]
    exact verified_handler sha256 repository object i (requests i)

/-- In every reachable state the rest of each handler is verified. -/
theorem wellRun_of_reachable_transfer {s : TransferPool ι}
    (hreach : (transferSystem sha256 repository object requests).Reachable s) :
    s.WellRun (serverOp sha256) (RepairInv (repository.key object))
      (fun _ => RepairGuar (repository.key object))
        fun _ => Outcome (fun _ _ => True) fun _ => True :=
  wellRun_of_reachable (fun _ => wellRun_of_transferInit) hreach

/-- What has been recorded since a read, at the end. -/
theorem getLast?_drop_of_lt {α : Type} {l : List α} {n : ℕ} (h : n < l.length) :
    (l.drop n).getLast? = l.getLast? := by
  rw [List.getLast?_drop, if_neg (by omega)]

/-- No step of the handler turns a newer row `stale`. -/
def NeverTurnsNewerStale (sha256 : List UInt8 → List UInt8) (repository : RepositoryMapping)
    (object : LfsObject) (requests : ι → TransferRequest) (s : TransferPool ι) (i : ι) : Prop :=
  ∀ t, (transferSystem sha256 repository object requests).step s i t →
    ¬TurnsNewerStale (repository.key object) i s.shared t.shared

/-- In a reachable state, a handler turns no newer row `stale` exactly when its next call is
undisturbed. -/
theorem undisturbed_iff {s : TransferPool ι}
    (hreach : (transferSystem sha256 repository object requests).Reachable s) :
    Undisturbed s i ↔ NeverTurnsNewerStale sha256 repository object requests s i := by
  obtain ⟨hs, _⟩ := wellRun_of_reachable_transfer hreach
  constructor
  · rintro hundisturbed t ⟨c, next, answer, hthread, hop, _⟩ hturns
    rcases serverOp_objects_cases hop with hsame | ⟨k, expected, rfl, hmark⟩ |
      ⟨k, backendId, creator, hrecord⟩
    · obtain ⟨_, ⟨record, hold, hverified⟩, record', hnew, hstale⟩ := hturns
      rw [hsame] at hnew
      cases Option.some.inj (hold.symm.trans hnew)
      rw [hverified] at hstale
      cases hstale
    · obtain ⟨rfl, record, hold, hverified, rfl⟩ := backendId_of_marksStale hmark hturns
      refine hundisturbed _ _ next hthread ⟨?_, record, hold, hverified⟩
      have hnewer := hturns.1
      rw [hs.revision] at hnewer
      rw [getLast?_drop_of_lt hnewer]
      have hne : s.shared.recorded ≠ [] := List.ne_nil_of_length_pos (by omega)
      obtain ⟨hkey, _, record', hlookup, hbackend⟩ :=
        hs.last _ (List.getLast?_eq_getLast_of_ne_nil hne)
      cases Option.some.inj (hold.symm.trans hlookup)
      rw [List.getLast?_eq_getLast_of_ne_nil hne, ← hkey, hbackend]
    · exact not_turnsNewerStale_of_records hrecord hturns
  · intro hnever k expected next hthread hreverified
    obtain ⟨hlast, record, hold, hverified⟩ := hreverified
    have hnewer : s.shared.readAt i < s.shared.recorded.length := by
      by_contra hlt
      rw [List.drop_eq_nil_of_le (by omega)] at hlast
      cases hlast
    rw [getLast?_drop_of_lt hnewer] at hlast
    obtain ⟨rfl, ⟨size, hsize⟩, record', hlookup, hbackend⟩ := hs.last _ hlast
    cases Option.some.inj (hold.symm.trans hlookup)
    obtain ⟨stale, hstale, hstatus⟩ := s.shared.objects.markStale_self hlookup
    dsimp only at hbackend
    rw [hbackend] at hstale
    let marked := s.shared.objects.markStale (repository.key object) expected
    refine hnever ⟨{ s.shared with objects := marked.2 }, _⟩ ⟨_, next, .ok marked.1, hthread,
      ⟨marked.1, marked.2, MetadataObjects.markObjectStale_of_size expected hsize, rfl⟩, rfl⟩ ?_
    refine ⟨?_, ⟨record, hold, hverified⟩, stale, hstale, hstatus⟩
    rw [hs.revision]
    exact hnewer

/-- What a run of the handlers leaves alone, and what it keeps. -/
structure RepairSafe (key : MetadataObjectKey) (s t : ServerState ι) : Prop where
  /-- A verified row carries a backend identifier that the provider has returned. -/
  verified : VerifiedReturned key t
  /-- The creator of the row, once there is one, and all other rows are as before. -/
  objects : MetadataObjects.Keeps key s.objects t.objects

/-- However batch lookups, downloads and uploads of one object interleave: verified rows
are returned, creators and other rows do not change; and no step of a run can turn a newer
row `stale` exactly if every step of it is undisturbed. -/
theorem metadata_repair_safe (sha256 : List UInt8 → List UInt8) (repository : RepositoryMapping)
    (object : LfsObject) (requests : ι → TransferRequest) {s₀ s t : TransferPool ι}
    {before is : List ι} (hinit : transferInit repository object requests s₀)
    (hbefore : (transferSystem sha256 repository object requests).Run s₀ before s)
    (hrun : (transferSystem sha256 repository object requests).Run s is t) :
    RepairSafe (repository.key object) s.shared t.shared ∧
      (((transferSystem sha256 repository object requests).restrict Undisturbed).Run s is t ↔
        ((transferSystem sha256 repository object requests).restrict
          (NeverTurnsNewerStale sha256 repository object requests)).Run s is t) := by
  have hreach : (transferSystem sha256 repository object requests).Reachable s :=
    ⟨s₀, before, hinit, hbefore⟩
  refine ⟨⟨?_, ?_⟩, System.restrict_run_congr (fun h => undisturbed_iff h) hreach⟩
  · exact (wellRun_of_reachable_transfer (hreach.run hrun)).1.verified
  · refine hrun.relates (R := fun s t : TransferPool ι => MetadataObjects.Keeps
      (repository.key object) s.shared.objects t.shared.objects) ?_ ?_ ?_ hreach
    · exact fun s => .refl _ _
    · exact fun h h' => h.trans h'
    · exact fun hreach hstep => ((wellRun_of_reachable_transfer hreach).step hstep).1.objects

/-- An object with a stale row, and two batch lookups of it. -/
def raceObject : LfsObject :=
  ⟨.zero, .ofNat 1⟩

def raceRepository : RepositoryMapping := ⟨"github-main:owner/repo", "drive-user-a"⟩

def raceStored : StoredObject := ⟨"drive-user-a", "github-main:owner/repo", raceObject, "file-1"⟩

def raceRow : MetadataObjectRecord :=
  ⟨1, "file-1", ⟨"github-main", "alice", none⟩, 0, none, .stale⟩

def raceRequests (_ : Bool) : TransferRequest := .batchLookup ⟨true, true⟩

def racePool : TransferPool Bool :=
  ⟨.new ⟨AList.singleton (raceRepository.key raceObject) raceRow, 2⟩
    [(raceRepository.key raceObject, raceStored)],
    fun i => ((raceRequests i).handler raceRepository raceObject).run⟩

theorem racePool_init : transferInit raceRepository raceObject raceRequests racePool := by
  refine ⟨⟨_, _, rfl⟩, fun record hrecord hverified => ?_, fun _ => rfl⟩
  have hrow : record = raceRow := Option.some.inj (hrecord.symm.trans rfl)
  rw [hrow] at hverified
  cases hverified

/-- The first lookup reads the row and does not find the object; the second one finds it
and records it; the next step of the first one turns the row `stale` again. -/
theorem racePool_run : ∃ s, (transferSystem (fun _ => []) raceRepository raceObject
    raceRequests).Run racePool
      [false, false, false, false, true, true, true, true] s ∧ ∃ t,
        (transferSystem (fun _ => []) raceRepository raceObject raceRequests).step s false t ∧
          TurnsNewerStale (raceRepository.key raceObject) false s.shared t.shared := by
  refine poolSystem_run_cons (c := .authorize _) (.ok ()) rfl rfl ?_
  refine poolSystem_run_cons (c := .lookupMetadata _) (.ok (some raceRow)) rfl ⟨rfl, rfl⟩ ?_
  refine poolSystem_run_cons (c := .providerLookupByBackendId _ _) (.ok none) rfl rfl ?_
  refine poolSystem_run_cons (c := .providerLookup _) (.ok none) rfl rfl ?_
  refine poolSystem_run_cons (c := .authorize _) (.ok ()) rfl rfl ?_
  refine poolSystem_run_cons (c := .lookupMetadata _) (.ok (some raceRow)) rfl ⟨rfl, rfl⟩ ?_
  refine poolSystem_run_cons (c := .providerLookupByBackendId _ _) (.ok (some raceStored)) rfl
    rfl ?_
  refine poolSystem_run_cons (c := .recordVerifiedObject _ _ _) (.ok ()) rfl ⟨0, _, rfl, rfl⟩ ?_
  refine ⟨_, .nil _, ?_⟩
  refine ⟨⟨_, _⟩, ⟨.markObjectStale _ _, _, .ok true, rfl, ⟨true, _, rfl, rfl⟩, rfl⟩, ?_⟩
  exact ⟨by decide, ⟨_, rfl, rfl⟩, _, rfl, rfl⟩

/-- A row that was recorded verified after it had been read turns `stale`. -/
theorem metadata_repair_race : ¬∀ (s t : TransferPool Bool) (i : Bool),
    (transferSystem (fun _ => []) raceRepository raceObject raceRequests).Reachable s →
      (transferSystem (fun _ => []) raceRepository raceObject raceRequests).step s i t →
        ¬TurnsNewerStale (raceRepository.key raceObject) i s.shared t.shared := by
  intro h
  obtain ⟨s, hrun, t, hstep, hturns⟩ := racePool_run
  exact h s t false ⟨racePool, _, racePool_init, hrun⟩ hstep hturns

/-- Up to that step the run is safe. -/
theorem metadata_repair_safe_race : ∃ s : TransferPool Bool,
    RepairSafe (raceRepository.key raceObject) racePool.shared s.shared := by
  obtain ⟨s, hrun, _⟩ := racePool_run
  exact ⟨s, (metadata_repair_safe (fun _ => []) raceRepository raceObject raceRequests
    racePool_init (.nil _) hrun).1⟩

end LfsCloud
