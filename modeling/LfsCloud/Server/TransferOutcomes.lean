import LfsCloud.Server.TransferAttempts

/-!
# Attempts match responses

Each handler is verified on its own, against others that leave its row alone. At its end a
success goes with a row that has succeeded, and a failure with a row for which the failure
was recorded, or the success could not be.
-/

namespace LfsCloud

open Transition Interaction

variable {ι : Type} [DecidableEq ι]

/-- The invariant: a handler starts one row at most, which is there, and is its own. -/
structure AttemptInv (s : AttemptState ι) : Prop where
  bounded : s.attempts.Bounded
  row : ∀ {i id}, s.attemptId i = some id → ∃ row, s.attempts.rows.lookup id = some row
  own : ∀ {i j id}, s.attemptId i = some id → s.attemptId j = some id → i = j
  once : ∀ i, s.starts i ≤ 1

/-- What a handler does to the others: it changes no row but its own, and that only as long
as it has no terminal status. -/
structure AttemptGuar (i : ι) (s t : AttemptState ι) : Prop where
  others : ∀ {j}, j ≠ i → t.attemptId j = s.attemptId j ∧ t.starts j = s.starts j ∧
    t.tried j = s.tried j
  rows : ∀ {id row}, s.attempts.rows.lookup id = some row → s.attemptId i ≠ some id →
    t.attempts.rows.lookup id = some row
  terminal : ∀ {id row}, s.attempts.rows.lookup id = some row → row.status ≠ .started →
    t.attempts.rows.lookup id = some row

/-- The handler has not started a row. -/
def NoAttempt (i : ι) (s : AttemptState ι) : Prop :=
  s.attemptId i = none ∧ s.starts i = 0 ∧ s.tried i = []

/-- The handler has started one row, which has a status now, and has tried to record some
results for it. -/
def HasAttempt (i : ι) (key : MetadataObjectKey) (tried : List MetadataTransferResult)
    (status : TransferAttemptStatus) (s : AttemptState ι) : Prop :=
  ∃ id, s.attemptId i = some id ∧ s.starts i = 1 ∧ s.tried i = tried ∧
    s.attempts.rows.lookup id = some ⟨key, status⟩

/-- A success is recorded. -/
def AttemptSucceeded (i : ι) (key : MetadataObjectKey) (backendId : String) :
    AttemptState ι → Prop :=
  HasAttempt i key [.succeeded (some backendId)] (.succeeded (some backendId))

/-- There is no row, or its failure was to be recorded, or its success was and could not
be. -/
def AttemptFailed (i : ι) (key : MetadataObjectKey) (s : AttemptState ι) : Prop :=
  NoAttempt i s ∨
    (∃ status, (status = .started ∨ status = .failed) ∧ HasAttempt i key [.failed] status s) ∨
      ∃ backendId, HasAttempt i key [.succeeded (some backendId)] .started s

section Rules

variable {i : ι} {key : MetadataObjectKey}

omit [DecidableEq ι] in
theorem NoAttempt.stable : Stable AttemptInv AttemptGuar i (NoAttempt i) := by
  intro j s t hj hs ht hguar hX
  obtain ⟨hid, hstarts, htried⟩ := hguar.others hj.symm
  unfold NoAttempt
  rw [hid, hstarts, htried]
  exact hX

omit [DecidableEq ι] in
theorem HasAttempt.stable {tried : List MetadataTransferResult}
    {status : TransferAttemptStatus} :
    Stable AttemptInv AttemptGuar i (HasAttempt i key tried status) := by
  rintro j s t hj hs ht hguar ⟨id, hid, hstarts, htried, hlookup⟩
  obtain ⟨hid', hstarts', htried'⟩ := hguar.others hj.symm
  refine ⟨id, hid'.trans hid, hstarts'.trans hstarts, htried'.trans htried, ?_⟩
  exact hguar.rows hlookup fun hother => hj (hs.own hother hid)

omit [DecidableEq ι] in
theorem AttemptFailed.stable : Stable AttemptInv AttemptGuar i (AttemptFailed i key) := by
  rintro j s t hj hs ht hguar (hnone | ⟨status, hstatus, hrow⟩ | ⟨backendId, hrow⟩)
  · exact .inl (NoAttempt.stable j s t hj hs ht hguar hnone)
  · exact .inr (.inl ⟨status, hstatus, HasAttempt.stable j s t hj hs ht hguar hrow⟩)
  · exact .inr (.inr ⟨backendId, HasAttempt.stable j s t hj hs ht hguar hrow⟩)

omit [DecidableEq ι] in
theorem AttemptGuar.refl (s : AttemptState ι) : AttemptGuar i s s :=
  ⟨fun _ => ⟨rfl, rfl, rfl⟩, fun h _ => h, fun h _ => h⟩

/-- The calls that leave the table alone change nothing. -/
theorem attemptOp_keeps {s t : AttemptState ι} {c : ServerCall}
    {answer : serverInterface.Answer c} (hkeeps : c.KeepsAttempts)
    (hop : attemptOp i s c answer t) : t = s := by
  cases c with
  | startTransferAttempt _ => exact hkeeps.elim
  | finishTransferAttempt _ _ => exact hkeeps.elim
  | _ => exact hop

/-- A program that leaves the table alone keeps what is stable. -/
theorem verified_keeps {α : Type} {p : Prog serverInterface α} {X : AttemptState ι → Prop}
    (hstable : Stable AttemptInv AttemptGuar i X) (h : p.Calls ServerCall.KeepsAttempts) :
    Verified attemptOp AttemptInv AttemptGuar i (fun _ => X) p X := by
  refine .of_calls hstable (fun c s answer t hc hs hX hop => ?_) h
  obtain rfl := attemptOp_keeps hc hop
  exact ⟨hs, .refl t, hX⟩

/-- A started row is new. -/
theorem AttemptInv.start {s : AttemptState ι} {id : ℕ} {attempts : TransferAttempts}
    (hs : AttemptInv s) (hnone : NoAttempt i s)
    (h : s.attempts.startTransferAttempt key = .ok (id, attempts)) :
    AttemptInv (s.start i id attempts) ∧ AttemptGuar i s (s.start i id attempts) ∧
      HasAttempt i key [] .started (s.start i id attempts) := by
  obtain ⟨rfl, hrows, hnext⟩ := TransferAttempts.startTransferAttempt_eq_ok h
  have hold : ∀ {id row}, s.attempts.rows.lookup id = some row →
      attempts.rows.lookup id = some row := by
    intro id row hlookup
    rw [hrows]
    exact Table.lookup_insert_eq_some.mpr (.inr ⟨(hs.bounded id row hlookup).ne, hlookup⟩)
  have hnew : attempts.rows.lookup s.attempts.nextId = some ⟨key, .started⟩ := by
    rw [hrows]
    exact AList.lookup_insert _
  have hunused : ∀ {j}, s.attemptId j ≠ some s.attempts.nextId := by
    intro j hj
    obtain ⟨row, hlookup⟩ := hs.row hj
    exact absurd (hs.bounded _ row hlookup) (lt_irrefl _)
  have hstarts : (s.start i s.attempts.nextId attempts).starts i = 1 := by
    change Function.update _ _ _ _ = _
    rw [Function.update_self, hnone.2.1]
  refine ⟨⟨hs.bounded.startTransferAttempt h, ?_, ?_, ?_⟩, ⟨?_, ?_, ?_⟩, ?_⟩
  · intro j id hj
    change Function.update _ _ _ _ = _ at hj
    by_cases hji : j = i
    · rw [hji, Function.update_self] at hj
      obtain rfl := Option.some.inj hj
      exact ⟨_, hnew⟩
    · rw [Function.update_of_ne hji] at hj
      obtain ⟨row, hlookup⟩ := hs.row hj
      exact ⟨row, hold hlookup⟩
  · intro j k id hj hk
    change Function.update _ _ _ _ = _ at hj hk
    by_cases hji : j = i
    · by_cases hki : k = i
      · rw [hji, hki]
      · rw [hji, Function.update_self] at hj
        rw [Function.update_of_ne hki, ← hj] at hk
        exact absurd hk hunused
    · rw [Function.update_of_ne hji] at hj
      by_cases hki : k = i
      · rw [hki, Function.update_self] at hk
        rw [← hk] at hj
        exact absurd hj hunused
      · rw [Function.update_of_ne hki] at hk
        exact hs.own hj hk
  · intro j
    by_cases hji : j = i
    · rw [hji]
      exact hstarts.le
    · have hsame : (s.start i s.attempts.nextId attempts).starts j = s.starts j :=
        Function.update_of_ne hji ..
      rw [hsame]
      exact hs.once j
  · intro j hji
    exact ⟨Function.update_of_ne hji .., Function.update_of_ne hji .., rfl⟩
  · exact fun hlookup _ => hold hlookup
  · exact fun hlookup _ => hold hlookup
  · exact ⟨s.attempts.nextId, Function.update_self .., hstarts, hnone.2.2, hnew⟩

/-- An attempt to record a result, with the update of the own row or without. -/
theorem AttemptInv.try {s : AttemptState ι} {result : MetadataTransferResult}
    {status : TransferAttemptStatus} {attempts : TransferAttempts} (hs : AttemptInv s)
    (hrow : HasAttempt i key [] .started s) (hbounded : attempts.Bounded)
    (hown : ∀ {id}, s.attemptId i = some id → attempts.rows.lookup id = some ⟨key, status⟩)
    (hothers : ∀ {id row}, s.attempts.rows.lookup id = some row → s.attemptId i ≠ some id →
      attempts.rows.lookup id = some row) :
    AttemptInv (s.try i result attempts) ∧ AttemptGuar i s (s.try i result attempts) ∧
      HasAttempt i key [result] status (s.try i result attempts) := by
  obtain ⟨id, hid, hstarts, htried, hlookup⟩ := hrow
  refine ⟨⟨hbounded, ?_, hs.own, hs.once⟩, ⟨?_, hothers, ?_⟩, id, hid, hstarts, ?_, hown hid⟩
  · intro j id' hj
    by_cases hji : j = i
    · subst hji
      exact ⟨_, hown hj⟩
    · obtain ⟨row, hlookup'⟩ := hs.row hj
      exact ⟨row, hothers hlookup' fun hi => hji (hs.own hj hi)⟩
  · intro j hji
    exact ⟨rfl, rfl, Function.update_of_ne hji ..⟩
  · intro id' row hlookup' hterminal
    apply hothers hlookup'
    intro hi
    obtain rfl := Option.some.inj (hid.symm.trans hi)
    obtain rfl := Option.some.inj (hlookup.symm.trans hlookup')
    exact hterminal rfl
  · change Function.update _ _ _ _ = _
    rw [Function.update_self, htried]
    rfl

variable {repository : RepositoryMapping} {object : LfsObject}

/-- The checks before a row is started. -/
theorem verified_authorize : Verified attemptOp AttemptInv AttemptGuar i
    (Outcome (fun _ => NoAttempt i) (NoAttempt i)) (authorize repository object).run
      (NoAttempt i) := by
  have hkeeps : (authorize repository object).KeepsAttempts := .request trivial
  exact (verified_keeps NoAttempt.stable hkeeps).outcome

/-- Starting a row. -/
theorem verified_startTransferAttempt : Verified attemptOp AttemptInv AttemptGuar i
    (Outcome (fun _ => HasAttempt i (repository.key object) [] .started) (NoAttempt i))
      (startTransferAttempt repository object).run (NoAttempt i) := by
  apply Verified.request
  · rintro (e | _)
    · exact NoAttempt.stable
    · exact HasAttempt.stable
  · rintro s (e | _) t hs hnone hop
    · obtain rfl := hop
      exact ⟨hs, .refl t, hnone⟩
    · obtain ⟨id, attempts, hstart, rfl⟩ := hop
      exact hs.start hnone hstart

/-- Recording a result: the row has it, or it is still `started`. -/
theorem verified_finishTransferAttempt (backendId : Option String) :
    Verified attemptOp AttemptInv AttemptGuar i
      (Outcome
        (fun _ => HasAttempt i (repository.key object) [transferResult backendId]
          (transferResult backendId).status)
        (HasAttempt i (repository.key object) [transferResult backendId] .started))
      (finishTransferAttempt repository object backendId).run
      (HasAttempt i (repository.key object) [] .started) := by
  apply Verified.request
  · rintro (e | _)
    · exact HasAttempt.stable
    · exact HasAttempt.stable
  · rintro s (e | _) t hs hrow hop
    · obtain rfl := hop
      apply hs.try hrow hs.bounded
      · intro id hi
        obtain ⟨id', hid, _, _, hlookup⟩ := hrow
        obtain rfl := Option.some.inj (hid.symm.trans hi)
        exact hlookup
      · exact fun hlookup _ => hlookup
    · obtain ⟨id, attempts, hid, hfinish, rfl⟩ := hop
      obtain ⟨old, hold, hstarted, hrows, _⟩ :=
        TransferAttempts.finishTransferAttempt_eq_ok hfinish
      apply hs.try hrow (hs.bounded.finishTransferAttempt hfinish)
      · intro id' hi
        obtain rfl := Option.some.inj (hid.symm.trans hi)
        obtain ⟨id', hid', _, _, hlookup⟩ := hrow
        obtain rfl := Option.some.inj (hid.symm.trans hid')
        obtain rfl := Option.some.inj (hlookup.symm.trans hold)
        rw [hrows]
        exact AList.lookup_insert _
      · intro id' row hlookup hne
        rw [hrows]
        refine Table.lookup_insert_eq_some.mpr (.inr ⟨?_, hlookup⟩)
        rintro rfl
        exact hne hid

/-- The record of a success. -/
theorem verified_finishSucceeded {stored : StoredObject} :
    Verified attemptOp AttemptInv AttemptGuar i
      (Outcome (fun s => AttemptSucceeded i (repository.key object) s.backendId)
        (AttemptFailed i (repository.key object)))
      (do
        finishTransferAttempt repository object (some stored.backendId)
        return stored : Handler StoredObject).run
      (HasAttempt i (repository.key object) [] .started) := by
  have hfailed : ∀ s, AttemptInv s → HasAttempt i (repository.key object)
      [transferResult (some stored.backendId)] .started s → AttemptFailed i (repository.key object) s :=
    fun _ _ h => .inr (.inr ⟨stored.backendId, h⟩)
  have hfinish := (verified_finishTransferAttempt (i := i) (some stored.backendId)).postE
    (fun _ _ _ h => h) hfailed
  exact hfinish.bindE fun _ => .pureE fun _ _ h => h

/-- A failure is to be recorded before it is passed on. -/
theorem verified_orFinishFailed {α : Type} {p : Handler α} (h : p.KeepsAttempts) :
    Verified attemptOp AttemptInv AttemptGuar i
      (Outcome (fun _ => HasAttempt i (repository.key object) [] .started)
        (AttemptFailed i (repository.key object)))
      (orFinishFailed repository object p).run
      (HasAttempt i (repository.key object) [] .started) := by
  apply (verified_keeps HasAttempt.stable h).bind
  rintro (e | a)
  · apply (verified_finishTransferAttempt none).bind
    rintro (e' | _)
    · exact .done fun _ _ hrow => .inr (.inl ⟨.started, .inl rfl, hrow⟩)
    · exact .done fun _ _ hrow => .inr (.inl ⟨.failed, .inr rfl, hrow⟩)
  · exact .done fun _ _ hrow => hrow

/-- A cleanup that leaves the table alone. -/
theorem verified_finally {p : Handler StoredObject} {cleanup : Prog serverInterface Unit}
    {P : AttemptState ι → Prop}
    (h : Verified attemptOp AttemptInv AttemptGuar i
      (Outcome (fun s => AttemptSucceeded i (repository.key object) s.backendId)
        (AttemptFailed i (repository.key object))) p.run P)
    (hcleanup : cleanup.Calls ServerCall.KeepsAttempts) :
    Verified attemptOp AttemptInv AttemptGuar i
      (Outcome (fun s => AttemptSucceeded i (repository.key object) s.backendId)
        (AttemptFailed i (repository.key object))) (p.finally cleanup).run P := by
  apply h.bind
  rintro (e | stored)
  · exact (verified_keeps AttemptFailed.stable hcleanup).bind fun _ => .done fun _ _ hX => hX
  · exact (verified_keeps HasAttempt.stable hcleanup).bind fun _ => .done fun _ _ hX => hX

/-- Downloads. -/
theorem verified_handleLfsDownloadRequest {runtime : ServerStorageProvider} :
    Verified attemptOp AttemptInv AttemptGuar i
      (Outcome (fun s => AttemptSucceeded i (repository.key object) s.backendId)
        (AttemptFailed i (repository.key object)))
      (handleLfsDownloadRequest repository object runtime).run (NoAttempt i) := by
  apply (verified_authorize.postE (fun _ _ _ h => h) fun _ _ h => .inl h).bindE
  intro _
  apply (verified_startTransferAttempt.postE (fun _ _ _ h => h) fun _ _ h => .inl h).bindE
  intro _
  apply (verified_orFinishFailed downloadObjectResponse_keepsAttempts).bindE
  exact fun download => verified_finishSucceeded

/-- What runs under the upload locks. -/
theorem verified_uploadUnderLock {runtime : ServerStorageProvider} {createdBy : RepositoryUser} :
    Verified attemptOp AttemptInv AttemptGuar i
      (Outcome (fun s => AttemptSucceeded i (repository.key object) s.backendId)
        (AttemptFailed i (repository.key object)))
      (uploadUnderLock repository object runtime createdBy).run
      (HasAttempt i (repository.key object) [] .started) := by
  apply (verified_orFinishFailed lookupAndRepair_keepsAttempts).bindE
  rintro (_ | stored)
  · have hkeeps : (stageUpload repository object).KeepsAttempts := .request trivial
    apply (verified_orFinishFailed hkeeps).bindE
    intro _
    apply (verified_orFinishFailed uploadObject_keepsAttempts).bindE
    exact fun stored => verified_finishSucceeded
  · apply (verified_orFinishFailed recordVerified_keepsAttempts).bindE
    exact fun _ => verified_finishSucceeded

/-- Uploads. -/
theorem verified_handleLfsUploadRequest {server : ℕ} {runtime : ServerStorageProvider}
    {createdBy : RepositoryUser} :
    Verified attemptOp AttemptInv AttemptGuar i
      (Outcome (fun s => AttemptSucceeded i (repository.key object) s.backendId)
        (AttemptFailed i (repository.key object)))
      (handleLfsUploadRequest repository object server runtime createdBy).run (NoAttempt i) := by
  apply (verified_authorize.postE (fun _ _ _ h => h) fun _ _ h => .inl h).bindE
  intro _
  apply (verified_startTransferAttempt.postE (fun _ _ _ h => h) fun _ _ h => .inl h).bindE
  intro _
  refine Verified.bind (verified_keeps HasAttempt.stable (.request ?_)) ?_
  · trivial
  intro lock
  refine Verified.bind (verified_keeps HasAttempt.stable (.request ?_)) ?_
  · trivial
  intro _
  have hkeeps : (acquireObjectUploadLock repository object).KeepsAttempts := .request trivial
  refine verified_finally (verified_finally ?_ (Prog.Calls.request ?_)) (Prog.Calls.request ?_)
  · apply (verified_orFinishFailed hkeeps).bindE
    intro _
    apply verified_finally verified_uploadUnderLock
    exact Prog.Calls.request trivial
  · trivial
  · trivial

end Rules

/-- The key of a request. -/
def AttemptRequest.key : AttemptRequest → MetadataObjectKey
  | .download repository object _ => repository.key object
  | .upload repository object _ _ _ => repository.key object

/-- Every handler is verified. -/
theorem verified_attemptHandler (i : ι) (request : AttemptRequest) :
    Verified attemptOp AttemptInv AttemptGuar i
      (Outcome (fun s => AttemptSucceeded i request.key s.backendId)
        (AttemptFailed i request.key)) request.handler.run (NoAttempt i) := by
  cases request with
  | download repository object runtime => exact verified_handleLfsDownloadRequest
  | upload repository object server runtime createdBy => exact verified_handleLfsUploadRequest

variable {requests : ι → AttemptRequest}
  {s t : Pool serverInterface (AttemptState ι) ι (Except ServerError StoredObject)}

/-- In every reachable state the handlers are verified from where they stand. -/
theorem wellRun_of_attemptReachable (h : (attemptSystem requests).Reachable s) :
    s.WellRun attemptOp AttemptInv AttemptGuar fun i =>
      Outcome (fun stored => AttemptSucceeded i (requests i).key stored.backendId)
        (AttemptFailed i (requests i).key) := by
  apply wellRun_of_reachable _ h
  rintro s ⟨hbounded, hall⟩
  refine ⟨⟨hbounded, ?_, ?_, fun i => (hall i).2.1.trans_le (Nat.zero_le 1)⟩, ?_⟩
  · intro i id hid
    rw [(hall i).1] at hid
    cases hid
  · intro i j id hid
    rw [(hall i).1] at hid
    cases hid
  · intro i
    obtain ⟨hid, hstarts, htried, hthread⟩ := hall i
    refine ⟨NoAttempt i, NoAttempt.stable, ⟨hid, hstarts, htried⟩, ?_⟩
    rw [hthread]
    exact verified_attemptHandler i (requests i)

/-- A terminal status stays. -/
theorem terminal_of_run {is : List ι} (hreach : (attemptSystem requests).Reachable s)
    (hrun : (attemptSystem requests).Run s is t) {id : ℕ} {row : TransferAttempt}
    (hlookup : s.shared.attempts.rows.lookup id = some row) (hterminal : row.status ≠ .started) :
    t.shared.attempts.rows.lookup id = some row := by
  refine hrun.invariant (P := fun s => s.shared.attempts.rows.lookup id = some row) ?_ hreach
    hlookup
  intro s i t hs hlookup hstep
  exact ((wellRun_of_attemptReachable hs).step hstep).1.terminal hlookup hterminal

/-- A handler that has answered has done what goes with the answer. -/
theorem outcome_of_done (hreach : (attemptSystem requests).Reachable s) {i : ι}
    {result : Except ServerError StoredObject} (hdone : s.thread i = .done result) :
    Outcome (fun stored => AttemptSucceeded i (requests i).key stored.backendId)
      (AttemptFailed i (requests i).key) result s.shared :=
  (wellRun_of_attemptReachable hreach).result hdone

/-- For any uploads and downloads, whatever their calls answer and in whatever order they
run: a request starts one row at most. A terminal status is never overwritten. A success
is sent only with a row that has succeeded with the backend identifier of the object, and a
row that has succeeded is answered with a success. A failure is sent after the start of a
row only after the failure was to be recorded, or the success was and could not be. -/
theorem transfer_attempts_match {is : List ι} (hreach : (attemptSystem requests).Reachable s)
    (hrun : (attemptSystem requests).Run s is t) :
    (∀ i, t.shared.starts i ≤ 1) ∧
    (∀ id row, s.shared.attempts.rows.lookup id = some row → row.status ≠ .started →
      t.shared.attempts.rows.lookup id = some row) ∧
    (∀ i stored, t.thread i = .done (.ok stored) →
      ∃ id, t.shared.attemptId i = some id ∧ t.shared.attempts.rows.lookup id =
        some ⟨(requests i).key, .succeeded (some stored.backendId)⟩) ∧
    (∀ i id row backendId result, t.shared.attemptId i = some id →
      t.shared.attempts.rows.lookup id = some row → row.status = .succeeded backendId →
        t.thread i = .done result →
          ∃ stored, result = .ok stored ∧ backendId = some stored.backendId) ∧
    ∀ i id e, t.shared.attemptId i = some id → t.thread i = .done (.error e) →
      .failed ∈ t.shared.tried i ∨ ∃ backendId, .succeeded (some backendId) ∈ t.shared.tried i ∧
        t.shared.attempts.rows.lookup id = some ⟨(requests i).key, .started⟩ := by
  have hreach' := hreach.run hrun
  have hinv := (wellRun_of_attemptReachable hreach').1
  refine ⟨hinv.once, fun id row => terminal_of_run hreach hrun, ?_, ?_, ?_⟩
  · intro i stored hdone
    obtain ⟨id, hid, _, _, hlookup⟩ := outcome_of_done hreach' hdone
    exact ⟨id, hid, hlookup⟩
  · intro i id row backendId result hid hlookup hstatus hdone
    have houtcome := outcome_of_done hreach' hdone
    cases result with
    | ok stored =>
      obtain ⟨id', hid', _, _, hlookup'⟩ := houtcome
      obtain rfl := Option.some.inj (hid.symm.trans hid')
      obtain rfl := Option.some.inj (hlookup.symm.trans hlookup')
      exact ⟨stored, rfl, (TransferAttemptStatus.succeeded.inj hstatus).symm⟩
    | error e =>
      exfalso
      rcases houtcome with ⟨hnone, _⟩ | ⟨status, hopen, id', hid', _, _, hlookup'⟩ |
        ⟨_, id', hid', _, _, hlookup'⟩
      · rw [hid] at hnone
        cases hnone
      · obtain rfl := Option.some.inj (hid.symm.trans hid')
        obtain rfl := Option.some.inj (hlookup.symm.trans hlookup')
        rcases hopen with rfl | rfl
        · cases hstatus
        · cases hstatus
      · obtain rfl := Option.some.inj (hid.symm.trans hid')
        obtain rfl := Option.some.inj (hlookup.symm.trans hlookup')
        cases hstatus
  · intro i id e hid hdone
    rcases outcome_of_done hreach' hdone with ⟨hnone, _⟩ | ⟨status, _, id', _, _, htried, _⟩ |
      ⟨backendId, id', hid', _, htried, hlookup⟩
    · rw [hid] at hnone
      cases hnone
    · rw [htried]
      exact .inl List.mem_cons_self
    · obtain rfl := Option.some.inj (hid.symm.trans hid')
      rw [htried]
      exact .inr ⟨backendId, List.mem_cons_self, hlookup⟩

/-- A download of an empty object. -/
def attemptDownload : AttemptRequest :=
  .download ⟨"github-main:owner/repo", "drive-user-a"⟩ ⟨.zero, .ofNat 0⟩ ⟨true, true⟩

/-- The object that the provider has. -/
def attemptStored : StoredObject :=
  ⟨"drive-user-a", "github-main:owner/repo", ⟨.zero, .ofNat 0⟩, "drive-file"⟩

/-- The state before the download. -/
def attemptStart :
    Pool serverInterface (AttemptState Unit) Unit (Except ServerError StoredObject) where
  shared := ⟨⟨∅, 1⟩, fun _ => none, fun _ => 0, fun _ => []⟩
  thread _ := attemptDownload.handler.run

/-- No other rows, and no handler has begun. -/
theorem attemptStart_init : attemptInit (fun _ : Unit => attemptDownload) attemptStart :=
  ⟨nofun, fun _ => ⟨rfl, rfl, rfl, rfl⟩⟩

/-- A download that goes well. -/
theorem attempt_run_succeeded : ∃ s, (attemptSystem fun _ : Unit => attemptDownload).Run
    attemptStart (List.replicate 6 ()) s ∧ s.thread () = .done (.ok attemptStored) := by
  refine poolSystem_run_cons (c := .authorize _) (.ok ()) rfl rfl ?_
  refine poolSystem_run_cons (c := .startTransferAttempt _) (.ok ()) rfl ⟨_, _, rfl, rfl⟩ ?_
  refine poolSystem_run_cons (c := .lookupMetadata _) (.ok none) rfl rfl ?_
  refine poolSystem_run_cons (c := .providerLookup _) (.ok (some attemptStored)) rfl rfl ?_
  refine poolSystem_run_cons (c := .providerDownloadResponse _ _) (.ok attemptStored) rfl rfl ?_
  refine poolSystem_run_cons (c := .finishTransferAttempt _ _) (.ok ()) rfl
    ⟨_, _, rfl, rfl, rfl⟩ ?_
  exact ⟨_, .nil _, rfl⟩

/-- The row of the download has its backend identifier. -/
theorem transfer_attempts_match_download : ∃ s, (attemptSystem fun _ : Unit =>
    attemptDownload).Run attemptStart (List.replicate 6 ()) s ∧ ∃ id,
      s.shared.attemptId () = some id ∧ s.shared.attempts.rows.lookup id =
        some ⟨attemptDownload.key, .succeeded (some "drive-file")⟩ := by
  obtain ⟨s, hrun, hdone⟩ := attempt_run_succeeded
  have hmatch := transfer_attempts_match (.init attemptStart_init) hrun
  exact ⟨s, hrun, hmatch.2.2.1 () attemptStored hdone⟩

/-- A download whose success cannot be recorded. -/
theorem attempt_run_unrecorded : ∃ s, (attemptSystem fun _ : Unit => attemptDownload).Run
    attemptStart (List.replicate 6 ()) s ∧ s.shared.attemptId () = some 1 ∧
      s.shared.tried () = [.succeeded (some "drive-file")] ∧
        s.thread () = .done (.error .metadataOperation) := by
  refine poolSystem_run_cons (c := .authorize _) (.ok ()) rfl rfl ?_
  refine poolSystem_run_cons (c := .startTransferAttempt _) (.ok ()) rfl ⟨_, _, rfl, rfl⟩ ?_
  refine poolSystem_run_cons (c := .lookupMetadata _) (.ok none) rfl rfl ?_
  refine poolSystem_run_cons (c := .providerLookup _) (.ok (some attemptStored)) rfl rfl ?_
  refine poolSystem_run_cons (c := .providerDownloadResponse _ _) (.ok attemptStored) rfl rfl ?_
  refine poolSystem_run_cons (c := .finishTransferAttempt _ _) (.error .metadataOperation) rfl
    rfl ?_
  exact ⟨_, .nil _, rfl, rfl, rfl⟩

/-- A failure can be sent without an attempt to record it: when the success was not recorded. -/
theorem transfer_failure_unrecorded : ¬∀ s, (attemptSystem fun _ : Unit =>
    attemptDownload).Reachable s → ∀ i id e, s.shared.attemptId i = some id →
      s.thread i = .done (.error e) → .failed ∈ s.shared.tried i := by
  intro hrecorded
  obtain ⟨s, hrun, hid, htried, hdone⟩ := attempt_run_unrecorded
  have hfailed := hrecorded s ⟨_, _, attemptStart_init, hrun⟩ () 1 _ hid hdone
  rw [htried] at hfailed
  simp at hfailed

end LfsCloud
