import LfsCloud.Lib.Results
import LfsCloud.Migration.CheckpointCrash
import LfsCloud.Migration.CheckpointText
import LfsCloud.Migration.Upload

/-!
# The outcomes of migration uploads

Whatever the order in which the uploads complete, the report has one outcome for each object, in
the order of the objects. An object that was uploaded in this run is one that storage came to hold
in it. An object that was resumed is known to be there, but not under which identifier: where
storage has lost the object that the checkpoint names and holds another one for it, the report
names the one that is lost.
-/

namespace LfsCloud

open Interaction Transition Unordered

/-- Whoever else uses the storage may change what it holds. -/
def storageChanges (held : HeldObjects) (s t : MigrationState) : Prop := t = s.holding held

/-- A condition on the calls of an upload. -/
abbrev CallCondition := MigrationState → (c : MigrationCall) → MigrationAnswer c → Prop

/-- Where storage says that it has an object that the checkpoint names as uploaded, it has held
in this run the one that the checkpoint names. -/
def ResumesHeld (checkpointed : CheckpointCompletions) : CallCondition
  | s, .objectExists repositoryNamespace object, answer =>
    answer = Except.ok true → ∀ backendId,
      checkpointed.lookup object = some (.uploaded backendId) →
        backendId ∈ s.everHeld repositoryNamespace object
  | _, _, _ => True

/-- The calls of an upload that meet a condition. -/
abbrev migrationOpMeeting (codec : CheckpointCodec) (identity : CheckpointIdentity)
    (provider : StorageProvider) (C : CallCondition) : Effect migrationInterface MigrationState :=
  fun s c answer t => migrationOp codec identity provider s c answer t ∧ C s c answer

/-- The runs of the tasks whose calls meet a condition. -/
def migrationSystem (codec : CheckpointCodec) (identity : CheckpointIdentity)
    (provider : StorageProvider) (maxConcurrentUploads : ℕ)
    (tasks : List (Prog migrationInterface MigrationObjectUploadOutcome)) (checkpoint : ByteArray)
    (C : CallCondition) :
    System (State migrationInterface MigrationState MigrationObjectUploadOutcome)
      (Event HeldObjects) :=
  Unordered.system maxConcurrentUploads (migrationOpMeeting codec identity provider C) storageChanges
    (fun s => s.everHeld = s.held ∧ s.checkpoint = checkpoint) tasks

/-- What storage holds it has held. -/
def HeldInv (s : MigrationState) : Prop :=
  ∀ repositoryNamespace object,
    s.held repositoryNamespace object ⊆ s.everHeld repositoryNamespace object

/-- What storage has held is not forgotten. -/
def HeldGrows (s t : MigrationState) : Prop :=
  ∀ repositoryNamespace object,
    s.everHeld repositoryNamespace object ⊆ t.everHeld repositoryNamespace object

theorem heldInv_holding {s : MigrationState} (held : HeldObjects) : HeldInv (s.holding held) :=
  fun _ _ => Set.subset_union_right

theorem heldGrows_holding (s : MigrationState) (held : HeldObjects) :
    HeldGrows s (s.holding held) :=
  fun _ _ => Set.subset_union_left

/-- A status names an object of this target that storage has held in this run; where the object
was resumed, this much is known if `Good` holds. -/
def StatusSound (identity : CheckpointIdentity) (Good : Prop) (object : LfsObject)
    (status : MigrationObjectUploadStatus) (s : MigrationState) : Prop :=
  ∀ stored resumed, status = .uploaded stored resumed →
    stored.providerId = identity.storageProviderId ∧
      stored.repositoryNamespace = identity.repositoryNamespace ∧ stored.object = object ∧
      ((resumed = true → Good) →
        stored.backendId ∈ s.everHeld identity.repositoryNamespace object)

section

variable {codec : CheckpointCodec} {identity : CheckpointIdentity} {provider : StorageProvider}
  {messages : MigrationMessages} {C : CallCondition} {Good : Prop}
  {checkpointed : CheckpointCompletions}

theorem stable_grows {X : MigrationState → Prop} (h : ∀ {s t}, HeldGrows s t → X s → X t) :
    Stable HeldInv (Anyone HeldGrows) true X :=
  fun _ _ _ _ _ _ hgrows hX => h hgrows hX

theorem stable_statusSound (object : LfsObject) (status : MigrationObjectUploadStatus) :
    Stable HeldInv (Anyone HeldGrows) true (StatusSound identity Good object status) := by
  refine stable_grows fun hgrows h stored resumed hstatus => ?_
  obtain ⟨hprovider, hnamespace, hobject, hheld⟩ := h stored resumed hstatus
  exact ⟨hprovider, hnamespace, hobject, fun hgood => hgrows _ _ (hheld hgood)⟩

/-- What every call does to what storage has held. -/
theorem migrationOp_grows {s t : MigrationState} {c : MigrationCall} {answer : MigrationAnswer c}
    (hs : HeldInv s) (h : migrationOp codec identity provider s c answer t) :
    HeldInv t ∧ HeldGrows s t := by
  cases c with
  | objectExists repositoryNamespace object =>
    obtain ⟨_, rfl⟩ := h
    exact ⟨hs, fun _ _ => subset_rfl⟩
  | hashMigrationObjectFile path =>
    obtain rfl := h
    exact ⟨hs, fun _ _ => subset_rfl⟩
  | uploadObject repositoryNamespace object source =>
    obtain ⟨held, _, rfl⟩ := h
    exact ⟨heldInv_holding held, heldGrows_holding s held⟩
  | appendCheckpoint object completion =>
    obtain ⟨cut, _, rfl⟩ := h
    exact ⟨hs, fun _ _ => subset_rfl⟩

/-- A program of an upload whose result is of a kind. -/
abbrev Uploads (codec : CheckpointCodec) (identity : CheckpointIdentity)
    (provider : StorageProvider) (C : CallCondition) {α : Type} (P : MigrationState → Prop)
    (p : MigrationProg α) (Q : α → MigrationState → Prop) : Prop :=
  Shares (fun _ : Bool => migrationOpMeeting codec identity provider C) HeldInv
    (Anyone HeldGrows) true P p Q fun _ _ => True

/-- A call whose answer nothing is said of. -/
theorem uploads_ask (c : MigrationCall) {P : MigrationState → Prop} :
    Uploads codec identity provider C P (ask (F := migrationInterface) c) fun _ _ => True := by
  refine .ask (fun _ => .const _) fun s answer t hs _ hop => ?_
  obtain ⟨ht, hgrows⟩ := migrationOp_grows hs hop.1
  exact ⟨ht, hgrows, trivial⟩

/-- A result that nothing is said of. -/
theorem uploads_liftResult {α : Type} {result : Except MigrationUploadError α}
    {P : MigrationState → Prop} :
    Uploads codec identity provider C P (liftResult result) fun a s => result = .ok a ∧ P s :=
  .liftResult (fun _ hok _ _ hP => ⟨hok, hP⟩) fun _ _ _ _ _ => trivial

/-- The source is hashed and compared. -/
theorem uploads_verify (path : String) (object : LfsObject) {P : MigrationState → Prop} :
    Uploads codec identity provider C P (verifyMigrationUploadSource path object)
      fun _ _ => True := by
  refine (uploads_ask _).bind fun answer => ?_
  refine uploads_liftResult.bind fun actual => ?_
  exact uploads_liftResult.conseq (fun _ _ _ _ => trivial) fun _ _ _ _ => trivial

/-- What storage returns for an upload it holds. -/
theorem uploads_uploadObject (object : LfsObject) (source : String) {P : MigrationState → Prop} :
    Uploads codec identity provider C P
      (askStorage (.uploadObject identity.repositoryNamespace object source) rfl :
        MigrationProg StoredObject)
      fun stored s => stored.backendId ∈ s.everHeld identity.repositoryNamespace object := by
  refine Shares.bind (Q := fun answer s => ∀ stored, answer = Except.ok stored →
    stored.backendId ∈ s.everHeld identity.repositoryNamespace object) ?_ fun answer => ?_
  · refine .ask (fun answer => stable_grows fun hgrows h stored hstored =>
      hgrows _ _ (h stored hstored)) fun s answer t hs _ hop => ?_
    obtain ⟨ht, hgrows⟩ := migrationOp_grows hs hop.1
    refine ⟨ht, hgrows, ?_⟩
    rintro stored rfl
    obtain ⟨⟨held, hupload, rfl⟩, _⟩ := hop
    exact .inr (provider.held_of_upload _ _ _ _ _ _ hupload)
  · refine .liftResult (fun stored hok s _ h => h stored ?_) fun _ _ _ _ _ => trivial
    change Except.mapError _ (answer : Except StorageError StoredObject) = _ at hok
    cases answer with
    | ok other =>
      cases hok
      rfl
    | error e => cases hok

/-- What an upload has passed validation with. -/
theorem validateMigrationUploadedObject_eq_ok {object : LfsObject} {stored : StoredObject}
    (h : validateMigrationUploadedObject object identity stored = .ok ()) :
    stored.providerId = identity.storageProviderId ∧
      stored.repositoryNamespace = identity.repositoryNamespace ∧ stored.object = object := by
  unfold validateMigrationUploadedObject at h
  split at h
  · cases h
  next hprovider =>
  split at h
  · cases h
  next hnamespace =>
  split at h
  · cases h
  split at h
  · cases h
  next hobject => exact ⟨not_not.mp hprovider, not_not.mp hnamespace, not_not.mp hobject⟩

/-- A missing object is uploaded. -/
theorem uploads_missing (localObject : LocalMigrationObject) {P : MigrationState → Prop} :
    Uploads codec identity provider C P (uploadMissingMigrationObject identity localObject)
      (StatusSound identity Good localObject.object) := by
  refine uploads_liftResult.bind fun source => ?_
  refine (uploads_verify source localObject.object).bind fun _ => ?_
  refine (uploads_uploadObject localObject.object source).bind fun stored => ?_
  refine uploads_liftResult.bind fun _ => .pure ?_
  rintro s _ ⟨hvalid, hheld⟩ other resumed hstatus
  cases hstatus
  obtain ⟨hprovider, hnamespace, hobject⟩ :=
    validateMigrationUploadedObject_eq_ok (mapError_eq_ok hvalid)
  exact ⟨hprovider, hnamespace, hobject, fun _ => hheld⟩

/-- An object that the checkpoint does not have. -/
theorem uploads_one (localObject : LocalMigrationObject) {P : MigrationState → Prop} :
    Uploads codec identity provider C P (uploadOneMigrationObject identity localObject)
      (StatusSound identity Good localObject.object) := by
  refine Shares.bind (Q := fun _ _ => True) ?_ fun present => ?_
  · refine (uploads_ask _).bind fun answer => ?_
    exact uploads_liftResult.conseq (fun _ _ _ _ => trivial) fun _ _ _ _ => trivial
  · split
    next =>
      refine .pure fun s _ _ stored resumed hstatus => ?_
      cases hstatus
    next => exact uploads_missing localObject

/-- The outcome of an object of the list. -/
def OutcomeSound (identity : CheckpointIdentity) (Good : Prop) (object : LfsObject)
    (outcome : MigrationObjectUploadOutcome) (s : MigrationState) : Prop :=
  outcome.object = object ∧ StatusSound identity Good object outcome.status s

theorem stable_outcomeSound (object : LfsObject) (outcome : MigrationObjectUploadOutcome) :
    Stable HeldInv (Anyone HeldGrows) true (OutcomeSound identity Good object outcome) :=
  (Stable.const _).and (stable_statusSound object outcome.status)

/-- A failure names no object of the storage. -/
theorem statusSound_failed (object : LfsObject) (message : String) (s : MigrationState) :
    StatusSound identity Good object (.failed message) s := by
  intro stored resumed hstatus
  cases hstatus

/-- A program of an upload that comes to an outcome. -/
abbrev UploadVerified (codec : CheckpointCodec) (identity : CheckpointIdentity)
    (provider : StorageProvider) (C : CallCondition) (Good : Prop) (object : LfsObject)
    (p : Prog migrationInterface MigrationObjectUploadOutcome) (P : MigrationState → Prop) : Prop :=
  Verified (fun _ : Bool => migrationOpMeeting codec identity provider C) HeldInv
    (Anyone HeldGrows) true (OutcomeSound identity Good object) p P

/-- A status that cannot be recorded becomes a failure. -/
theorem verified_checkpoint (object : LfsObject)
    (status : Except MigrationUploadError MigrationObjectUploadStatus) :
    UploadVerified codec identity provider C Good object
      (checkpointMigrationUploadOutcome messages object status)
      fun s => ∀ a, status = .ok a → StatusSound identity Good object a s := by
  unfold checkpointMigrationUploadOutcome
  cases status with
  | error error => exact .done fun s _ _ => ⟨rfl, statusSound_failed object _ s⟩
  | ok status =>
    dsimp only
    split
    next => exact .done fun s _ h => ⟨rfl, h status rfl⟩
    next completion _ =>
      intro s answer t hs h hop
      obtain ⟨ht, hgrows⟩ := migrationOp_grows hs hop.1
      have hstable : Stable HeldInv (Anyone HeldGrows) true
          (StatusSound identity Good object status) := stable_statusSound object status
      refine ⟨ht, hgrows, _, hstable, hstable false _ _ Bool.false_ne_true hs ht hgrows
        (h status rfl), fun u _ hsound => ?_⟩
      cases answer with
      | ok _ => exact ⟨rfl, hsound⟩
      | error error => exact ⟨rfl, statusSound_failed object _ u⟩

/-- An upload whose status is recorded. -/
theorem verified_upload {object : LfsObject} {p : MigrationProg MigrationObjectUploadStatus}
    {P : MigrationState → Prop}
    (h : Uploads codec identity provider C P p (StatusSound identity Good object)) :
    UploadVerified codec identity provider C Good object
      ((p.from ()).bind fun result => checkpointMigrationUploadOutcome messages object result.1)
      P := by
  refine Verified.bind h fun result => ?_
  refine (verified_checkpoint object result.1).of_imp fun s _ hresult a ha => ?_
  obtain ⟨result, _⟩ := result
  cases ha
  exact hresult

/-- The task of an object. -/
theorem verified_migrationTask
    (hgood : Good → ∀ s c answer, C s c answer → ResumesHeld checkpointed s c answer)
    (localObject : LocalMigrationObject) :
    UploadVerified codec identity provider C Good localObject.object
      (migrationTask identity messages checkpointed localObject) fun _ => True := by
  unfold migrationTask
  split
  next completion hcompletion =>
    intro s answer t hs _ hop
    obtain ⟨ht, hgrows⟩ := migrationOp_grows hs hop.1
    -- What is known of the object that the checkpoint names.
    refine ⟨ht, hgrows, fun s => answer = Except.ok true → Good → ∀ backendId,
      completion = .uploaded backendId →
        backendId ∈ s.everHeld identity.repositoryNamespace localObject.object, ?_, ?_, ?_⟩
    · exact stable_grows fun hgrows h hanswer hGood backendId hid =>
        hgrows _ _ (h hanswer hGood backendId hid)
    · rintro hanswer hGood backendId rfl
      exact hgrows _ _ (hgood hGood s (.objectExists identity.repositoryNamespace
        localObject.object) answer hop.2 hanswer backendId hcompletion)
    · change UploadVerified codec identity provider C Good localObject.object
        (afterExists identity messages localObject completion
          (answer : Except StorageError Bool)) _
      cases answer with
      | error error =>
        change UploadVerified codec identity provider C Good localObject.object
          (checkpointMigrationUploadOutcome messages localObject.object
            (.error (.storage error))) _
        refine Verified.of_imp (fun s _ _ a ha => ?_) (verified_checkpoint _ _)
        cases ha
      | ok present =>
        cases present with
        | true =>
          refine .done fun u _ hknown => ?_
          cases completion with
          | alreadyPresent =>
            refine ⟨rfl, fun stored resumed hstatus => ?_⟩
            cases hstatus
          | uploaded backendId =>
            refine ⟨rfl, fun stored resumed hstatus => ?_⟩
            cases hstatus
            exact ⟨rfl, rfl, rfl, fun hGood => hknown rfl (hGood rfl) backendId rfl⟩
        | false => exact verified_upload (uploads_missing localObject)
  next => exact verified_upload (uploads_one localObject)

/-- All tasks are verified in every state of every run. -/
theorem wellRun_migration {maxConcurrentUploads : ℕ} {objects : List LocalMigrationObject}
    {checkpoint : ByteArray}
    (hgood : Good → ∀ s c answer, C s c answer → ResumesHeld checkpointed s c answer)
    {s : State migrationInterface MigrationState MigrationObjectUploadOutcome}
    (hs : (migrationSystem codec identity provider maxConcurrentUploads
      (objects.map (migrationTask identity messages checkpointed)) checkpoint C).Reachable s) :
    WellRun (migrationOpMeeting codec identity provider C) HeldInv HeldGrows
      (fun index outcome s => ∀ localObject, objects[index]? = some localObject →
        OutcomeSound identity Good localObject.object outcome s)
      (List.range (objects.map (migrationTask identity messages checkpointed)).length) s := by
  refine System.Reachable.invariant (P := WellRun _ _ _ _ _) ?_ ?_ hs
  · rintro ⟨shared, waiting, inFlight, output⟩ ⟨⟨hheld, _⟩, hwaiting, hflight, houtput⟩
    dsimp only at hheld hwaiting hflight houtput
    subst hwaiting hflight houtput
    refine ⟨fun _ _ => by rw [hheld], fun task htask => ?_, nofun, ?_⟩
    · rw [List.append_nil] at htask
      obtain ⟨⟨program, index⟩, hmem, rfl⟩ := List.mem_map.mp htask
      obtain ⟨_, hindex, hprogram⟩ := List.mem_zipIdx hmem
      rw [List.getElem_map] at hprogram
      refine ⟨fun _ => True, .const _, trivial, ?_⟩
      refine Verified.post ?_ (hprogram ▸ verified_migrationTask hgood _)
      intro outcome u _ hsound localObject hobject
      dsimp only [Prod.swap] at hobject
      rw [← Option.some.inj ((List.getElem?_eq_getElem _).symm.trans hobject)]
      simpa using hsound
    · dsimp only
      rw [List.append_nil, List.map_nil, List.append_nil, fst_numbered]
  · intro s event t _ hwell hstep
    refine hwell.step (fun index a => ?_) ?_ hstep
    · intro j s t hj hs ht hgrows h localObject hobject
      exact stable_outcomeSound _ _ j s t hj hs ht hgrows (h localObject hobject)
    · rintro held s t hs rfl
      exact ⟨heldInv_holding held, heldGrows_holding s held⟩

end

/-- What a report says of the outcomes. -/
structure UploadReport (identity : CheckpointIdentity) (objects : List LocalMigrationObject)
    (report : MigrationStorageUpload) : Prop where
  /-- One outcome for each object, in their order. -/
  inOrder : report.outcomes.map (·.object) = objects.map (·.object)
  /-- The three lists have every object once. -/
  partition : (report.alreadyPresentObjects ++ report.uploadedObjects.map (·.object) ++
    report.failedObjects.map (·.object)).Perm (objects.map (·.object))
  /-- The lists say of an object what its outcome says. -/
  alreadyPresent : ∀ object, object ∈ report.alreadyPresentObjects ↔
    ∃ outcome ∈ report.outcomes, outcome.object = object ∧
      ∃ resumed, outcome.status = .alreadyPresent resumed
  uploaded : ∀ stored, stored ∈ report.uploadedObjects ↔
    ∃ outcome ∈ report.outcomes, outcome.object = stored.object ∧
      ∃ resumed, outcome.status = .uploaded stored resumed
  failed : ∀ failure, failure ∈ report.failedObjects ↔
    ∃ outcome ∈ report.outcomes, outcome.object = failure.object ∧
      outcome.status = .failed failure.message

section

variable {identity : CheckpointIdentity} {outcomes : List MigrationObjectUploadOutcome}
  {objects : List LocalMigrationObject}

/-- The stored object of an outcome is that of its object. -/
def NamesItsObject (outcome : MigrationObjectUploadOutcome) : Prop :=
  ∀ stored resumed, outcome.status = .uploaded stored resumed → stored.object = outcome.object

/-- The three lists have the object of every outcome once. -/
theorem perm_migrationStorageUpload (h : ∀ outcome ∈ outcomes, NamesItsObject outcome) :
    ((migrationStorageUpload identity outcomes).alreadyPresentObjects ++
      (migrationStorageUpload identity outcomes).uploadedObjects.map (·.object) ++
      (migrationStorageUpload identity outcomes).failedObjects.map (·.object)).Perm
        (outcomes.map (·.object)) := by
  induction outcomes with
  | nil => exact .nil
  | cons outcome rest ih =>
    have hrest := ih fun other hother => h other (List.mem_cons_of_mem _ hother)
    have hhead := h outcome List.mem_cons_self
    obtain ⟨object, status⟩ := outcome
    cases status with
    | alreadyPresent resumed => exact hrest.cons object
    | uploaded stored resumed =>
      obtain rfl : stored.object = object := hhead stored resumed rfl
      rw [List.append_assoc] at hrest ⊢
      exact List.perm_middle.trans (hrest.cons stored.object)
    | failed message => exact List.perm_middle.trans (hrest.cons object)

/-- The report on outcomes that are in the order of the objects. -/
theorem uploadReport_of_outcomes (h : ∀ outcome ∈ outcomes, NamesItsObject outcome)
    (horder : outcomes.map (·.object) = objects.map (·.object)) :
    UploadReport identity objects (migrationStorageUpload identity outcomes) where
  inOrder := horder
  partition := horder ▸ perm_migrationStorageUpload h
  alreadyPresent := by
    intro object
    refine List.mem_filterMap.trans (exists_congr fun outcome => and_congr_right fun _ => ?_)
    obtain ⟨own, status⟩ := outcome
    cases status with
    | alreadyPresent resumed => simp
    | uploaded stored resumed => simp
    | failed message => simp
  uploaded := by
    intro stored
    refine List.mem_filterMap.trans (exists_congr fun outcome => and_congr_right fun hmem => ?_)
    have hown := h outcome hmem
    obtain ⟨own, status⟩ := outcome
    cases status with
    | alreadyPresent resumed => simp
    | uploaded other resumed =>
      obtain rfl : other.object = own := hown other resumed rfl
      simp only [Option.some.injEq, MigrationObjectUploadStatus.uploaded.injEq]
      constructor
      · rintro rfl
        exact ⟨rfl, resumed, rfl, rfl⟩
      · rintro ⟨_, _, rfl, _⟩
        rfl
    | failed message => simp
  failed := by
    intro failure
    refine List.mem_filterMap.trans (exists_congr fun outcome => and_congr_right fun _ => ?_)
    obtain ⟨own, status⟩ := outcome
    obtain ⟨object, message⟩ := failure
    cases status with
    | alreadyPresent resumed => simp
    | uploaded stored resumed => simp
    | failed other => simp

end

/-- The tasks are those of the objects. -/
theorem migrationTasks_eq_ok {codec : CheckpointCodec} {identity : CheckpointIdentity}
    {messages : MigrationMessages} {maxConcurrentUploads : ℕ} {objects : List LocalMigrationObject}
    {checkpoint : ByteArray} {checkpointed : CheckpointCompletions}
    {tasks : List (Prog migrationInterface MigrationObjectUploadOutcome)}
    (hload : loadMigrationUploadCheckpoint codec identity checkpoint = .ok checkpointed)
    (htasks : migrationTasks identity messages codec maxConcurrentUploads objects checkpoint =
      .ok tasks) : tasks = objects.map (migrationTask identity messages checkpointed) := by
  unfold migrationTasks at htasks
  split at htasks
  · cases htasks
  · rw [hload] at htasks
    exact (Except.ok.inj htasks).symm

/-- The results of a run that has come to its end, for the calls that it may make. -/
theorem results_of_migration {codec : CheckpointCodec} {identity : CheckpointIdentity}
    {messages : MigrationMessages} {provider : StorageProvider} {maxConcurrentUploads : ℕ}
    {objects : List LocalMigrationObject} {checkpoint : ByteArray}
    {checkpointed : CheckpointCompletions} {C : CallCondition} {Good : Prop}
    (hgood : Good → ∀ s c answer, C s c answer → ResumesHeld checkpointed s c answer)
    {s : State migrationInterface MigrationState MigrationObjectUploadOutcome}
    (hs : (migrationSystem codec identity provider maxConcurrentUploads
      (objects.map (migrationTask identity messages checkpointed)) checkpoint C).Reachable s)
    (hfinished : s.Finished) :
    s.results.map (·.object) = objects.map (·.object) ∧
      ∀ outcome ∈ s.results, OutcomeSound identity Good outcome.object outcome s.shared := by
  obtain ⟨hlength, hall⟩ := results_of_finished (wellRun_migration hgood hs) hfinished
  rw [List.length_map] at hlength
  constructor
  · apply List.ext_getElem
    · rw [List.length_map, List.length_map, hlength]
    · intro index hresult hobject
      rw [List.getElem_map, List.getElem_map]
      rw [List.length_map] at hresult hobject
      exact (hall index _ (List.getElem?_eq_getElem hresult) _
        (List.getElem?_eq_getElem hobject)).1
  · intro outcome houtcome
    obtain ⟨index, hresult, rfl⟩ := List.mem_iff_getElem.mp houtcome
    obtain ⟨hown, hsound⟩ := hall index _ (List.getElem?_eq_getElem hresult) _
      (List.getElem?_eq_getElem (hlength ▸ hresult))
    exact ⟨rfl, hown ▸ hsound⟩

/-- The identifiers of the outcomes that hold of a kind, `resumed` or not, were held. -/
def UploadsHeld (identity : CheckpointIdentity) (outcomes : List MigrationObjectUploadOutcome)
    (Kind : Bool → Prop) (s : MigrationState) : Prop :=
  ∀ outcome ∈ outcomes, ∀ stored resumed, outcome.status = .uploaded stored resumed →
    Kind resumed → stored.providerId = identity.storageProviderId ∧
      stored.repositoryNamespace = identity.repositoryNamespace ∧
      stored.object = outcome.object ∧
      stored.backendId ∈ s.everHeld identity.repositoryNamespace outcome.object

/-- A storage that holds what it holds, and takes no uploads. -/
def readOnlyStorage : StorageProvider where
  objectExists held repositoryNamespace object answer :=
    answer = .ok true ∧ (held repositoryNamespace object).Nonempty
  uploadObject _ _ _ _ _ _ := False
  held_of_exists _ _ _ h := h.2
  held_of_upload _ _ _ _ _ _ h := h.elim

/-- The completion of an earlier run. -/
def earlierCompletion : LfsObject × MigrationUploadCheckpointCompletion :=
  (tornObject 1, .uploaded "first-id")

/-- The checkpoint of the earlier run. -/
def earlierCheckpoint : ByteArray :=
  (String.ofList (linesText checkpointText tornIdentity [earlierCompletion])).toByteArray

/-- The texts of failures do not matter. -/
def plainMessages : MigrationMessages := ⟨id, fun _ => ""⟩

/-- The outcome of the object in a later run. -/
def laterOutcome : MigrationObjectUploadOutcome :=
  ⟨tornObject 1, .uploaded ⟨"drive", "owner/repo", tornObject 1, "first-id"⟩ true⟩

/-- What storage holds in the later run. -/
def laterState (backendId : String) : MigrationState where
  held := fun _ _ => {backendId}
  everHeld := fun _ _ => {backendId}
  checkpoint := earlierCheckpoint

theorem load_earlierCheckpoint :
    loadMigrationUploadCheckpoint checkpointText tornIdentity earlierCheckpoint =
      .ok (completionsOf [earlierCompletion]) := by
  apply load_linesText
  intro entry hentry
  rw [List.mem_singleton.mp hentry]
  change Text.isBlank "first-id" = false
  decide

/-- The tasks of the later run. -/
def laterTasks : List (Prog migrationInterface MigrationObjectUploadOutcome) :=
  [⟨tornObject 1, []⟩].map
    (migrationTask tornIdentity plainMessages (completionsOf [earlierCompletion]))

theorem migrationTasks_later :
    migrationTasks tornIdentity plainMessages checkpointText 1 [⟨tornObject 1, []⟩]
      earlierCheckpoint = .ok laterTasks := by
  unfold migrationTasks
  rw [if_neg one_ne_zero, load_earlierCheckpoint]
  rfl

/-- The task of the object, as calls. -/
def laterTask : Prog migrationInterface MigrationObjectUploadOutcome :=
  .call (.objectExists "owner/repo" (tornObject 1)) fun answer =>
    afterExists tornIdentity plainMessages ⟨tornObject 1, []⟩ (.uploaded "first-id") answer

theorem laterTasks_eq : laterTasks = [laterTask] := by
  have hlookup : (completionsOf [earlierCompletion]).lookup (tornObject 1) =
      some (.uploaded "first-id") := AList.lookup_insert _
  unfold laterTasks
  rw [List.map_singleton]
  unfold migrationTask
  rw [hlookup]
  rfl

/-- The later run: storage has an object for the one that was uploaded earlier. -/
theorem laterRun {C : CallCondition} {backendId : String}
    (hC : C (laterState backendId) (.objectExists "owner/repo" (tornObject 1)) (Except.ok true)) :
    (migrationSystem checkpointText tornIdentity readOnlyStorage 1 laterTasks earlierCheckpoint
      C).Reachable ⟨laterState backendId, [], [], [(0, laterOutcome)]⟩ := by
  rw [laterTasks_eq]
  have hexists : migrationOpMeeting checkpointText tornIdentity readOnlyStorage C
      (laterState backendId) (.objectExists "owner/repo" (tornObject 1)) (Except.ok true)
      (laterState backendId) := ⟨⟨⟨rfl, Set.singleton_nonempty _⟩, rfl⟩, hC⟩
  have hcheckpoint : (laterState backendId).checkpoint = earlierCheckpoint := by
    rw [laterState]
  refine ⟨⟨laterState backendId, [(0, laterTask)], [], []⟩, [.start, .call 0, .finish 0],
    ⟨⟨rfl, hcheckpoint⟩, rfl, rfl, rfl⟩, ?_⟩
  have hcall : Step 1 (migrationOpMeeting checkpointText tornIdentity readOnlyStorage C)
      storageChanges
      ⟨laterState backendId, [], [] ++ [(0, laterTask)], []⟩ (.call 0)
      ⟨laterState backendId, [], [] ++ [(0, afterExists tornIdentity plainMessages
        ⟨tornObject 1, []⟩ (.uploaded "first-id") (.ok true))], []⟩ := .call hexists
  exact .cons (.start Nat.one_pos) (.cons hcall (.cons .finish (.nil _)))

end LfsCloud
