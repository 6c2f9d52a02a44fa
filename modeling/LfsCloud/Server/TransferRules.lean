import LfsCloud.Server.ServerState

/-!
# Verifying the handlers

Both properties of the transfer handlers are proved from the same rules. What differs is
what a handler may rely on while it runs and what a lookup that finds nothing tells it,
so the rules for single calls are collected in a structure, and one specification for
each handler follows from them.
-/

namespace LfsCloud

open Interaction

variable {ι : Type} [DecidableEq ι]

/-- The calls of a handler for a key that need no lock and create no backend object. -/
def ServerCall.Quiet (key : MetadataObjectKey) : ServerCall → Prop
  | .authorize k => k = key
  | .startTransferAttempt k => k = key
  | .finishTransferAttempt k _ => k = key
  | .lookupMetadata k => k = key
  | .markObjectStale k _ => k = key
  | .recordVerifiedObject k _ _ => k = key
  | .providerLookup k => k = key
  | .providerLookupByBackendId k _ => k = key
  | .providerDownload k => k = key
  | .providerDownloadResponse k _ => k = key
  | .stagingFile k => k = key
  | .stageUpload k => k = key
  | .uploadLockFor _ _ => True
  | .lockUpload _ _ => True
  | .unlockUpload _ _ => True
  | .dropUploadLock _ _ => True
  | .providerUpload _ => False
  | .acquireObjectUploadLock _ => False
  | .releaseObjectUploadLock _ => False

/-- A verification is only recorded for a backend identifier the provider has returned. -/
def ServerCall.Allowed (s : ServerState ι) : ServerCall → Prop
  | .recordVerifiedObject key backendId _ => s.Returned key backendId
  | _ => True

/-- Everything a quiet call can do. -/
theorem serverOp_quiet_cases {sha256 : List UInt8 → List UInt8} {i : ι} {s t : ServerState ι}
    {key : MetadataObjectKey} {c : ServerCall} {answer : serverInterface.Answer c}
    (hquiet : c.Quiet key) (hop : serverOp sha256 i s c answer t) :
    t = s ∨ t = s.read i ∨ (∃ stored, t = s.provide key stored) ∨
      (∃ server u, t = s.setUploadLocks server u) ∨
      (∃ expected, c = .markObjectStale key expected ∧ s.MarksStale key expected t) ∨
      (∃ backendId creator, c = .recordVerifiedObject key backendId creator ∧
        s.Records key backendId creator t) := by
  have hprovides : ∀ {answer : Except StorageError (Option StoredObject)},
      s.Provides key answer t → t = s ∨ ∃ stored, t = s.provide key stored := by
    rintro (e | _ | stored) h
    · exact .inl h
    · exact .inl h
    · exact .inr ⟨stored, h⟩
  cases c with
  | authorize _ | startTransferAttempt _ | finishTransferAttempt _ _ | stagingFile _
  | stageUpload _ => exact .inl hop
  | lookupMetadata _ =>
    rcases answer with e | record
    · exact .inl hop
    · exact .inr (.inl hop.2)
  | markObjectStale k expected =>
    obtain rfl : k = key := hquiet
    rcases answer with e | marked
    · rcases hop with hsame | hmark
      · exact .inl hsame
      · exact .inr (.inr (.inr (.inr (.inl ⟨expected, rfl, hmark⟩))))
    · exact .inr (.inr (.inr (.inr (.inl ⟨expected, rfl, hop⟩))))
  | recordVerifiedObject k backendId creator =>
    obtain rfl : k = key := hquiet
    rcases answer with e | _
    · rcases hop with hsame | hrecord
      · exact .inl hsame
      · exact .inr (.inr (.inr (.inr (.inr ⟨backendId, creator, rfl, hrecord⟩))))
    · exact .inr (.inr (.inr (.inr (.inr ⟨backendId, creator, rfl, hop⟩))))
  | providerLookup k | providerLookupByBackendId k _ | providerDownload k
  | providerDownloadResponse k _ =>
    obtain rfl : k = key := hquiet
    rcases hprovides hop with hsame | hprovide
    · exact .inl hsame
    · exact .inr (.inr (.inl hprovide))
  | uploadLockFor server _ => exact .inr (.inr (.inr (.inl ⟨server, _, hop.2⟩)))
  | lockUpload server _ => exact .inr (.inr (.inr (.inl ⟨server, _, hop.2⟩)))
  | unlockUpload server _ | dropUploadLock server _ =>
    exact .inr (.inr (.inr (.inl ⟨server, _, hop⟩)))
  | providerUpload _ | acquireObjectUploadLock _ | releaseObjectUploadLock _ =>
    exact absurd hquiet id

/-- Only two calls write the objects table. -/
theorem serverOp_objects_cases {sha256 : List UInt8 → List UInt8} {i : ι} {s t : ServerState ι}
    {c : ServerCall} {answer : serverInterface.Answer c} (hop : serverOp sha256 i s c answer t) :
    t.objects = s.objects ∨
      (∃ key expected, c = .markObjectStale key expected ∧ s.MarksStale key expected t) ∨
      ∃ key backendId creator, s.Records key backendId creator t := by
  have hquiet : ∀ key, c.Quiet key → t.objects = s.objects ∨
      (∃ key expected, c = .markObjectStale key expected ∧ s.MarksStale key expected t) ∨
      ∃ key backendId creator, s.Records key backendId creator t := by
    intro key hquiet
    rcases serverOp_quiet_cases hquiet hop with rfl | rfl | ⟨_, rfl⟩ | ⟨_, _, rfl⟩ |
      ⟨expected, hc, hmark⟩ | ⟨backendId, creator, _, hrecord⟩
    · exact .inl rfl
    · exact .inl rfl
    · exact .inl rfl
    · exact .inl rfl
    · exact .inr (.inl ⟨key, expected, hc, hmark⟩)
    · exact .inr (.inr ⟨key, backendId, creator, hrecord⟩)
  cases c with
  | authorize key | startTransferAttempt key | finishTransferAttempt key _ | lookupMetadata key
  | markObjectStale key _ | recordVerifiedObject key _ _ | providerLookup key
  | providerLookupByBackendId key _ | providerDownload key | providerDownloadResponse key _
  | stagingFile key | stageUpload key => exact hquiet key rfl
  | uploadLockFor server _ | lockUpload server _ =>
    obtain ⟨_, rfl⟩ := hop
    exact .inl rfl
  | unlockUpload server _ | dropUploadLock server _ =>
    obtain ⟨u, rfl⟩ : ∃ u, t = s.setUploadLocks server u := ⟨_, hop⟩
    exact .inl rfl
  | providerUpload key =>
    rcases answer with e | stored
    · obtain ⟨count, _, rfl⟩ : ∃ count ≤ 1, t = (s.create key count).fail key := hop
      exact .inl rfl
    · obtain ⟨count, _, rfl⟩ :
          ∃ count ≤ 1, t = ((s.provide key stored).create key count).succeed key := hop
      exact .inl rfl
  | acquireObjectUploadLock key =>
    rcases answer with e | _
    · exact .inl (congrArg ServerState.objects hop)
    · obtain ⟨_, rfl⟩ := hop
      exact .inl rfl
  | releaseObjectUploadLock key =>
    obtain rfl : t = s.setFileLock (objectUploadLockStripe sha256 key) none := hop
    exact .inl rfl

/-- After a call a lock file is where it was, or with the handler that made the call. -/
theorem serverOp_fileLocks {sha256 : List UInt8 → List UInt8} {i : ι} {s t : ServerState ι}
    {c : ServerCall} {answer : serverInterface.Answer c} (hop : serverOp sha256 i s c answer t)
    {stripe : Fin objectUploadLockStripes} {holder : ι}
    (hholder : t.fileLocks stripe = some holder) :
    s.fileLocks stripe = some holder ∨ holder = i := by
  have hsame : t.fileLocks = s.fileLocks → s.fileLocks stripe = some holder ∨ holder = i := by
    intro hsame
    rw [← hsame]
    exact .inl hholder
  have hquiet : ∀ key, c.Quiet key → s.fileLocks stripe = some holder ∨ holder = i := by
    intro key hquiet
    rcases serverOp_quiet_cases hquiet hop with rfl | rfl | ⟨_, rfl⟩ | ⟨_, _, rfl⟩ |
      ⟨_, _, _, _, _, rfl⟩ | ⟨_, _, _, _, _, _, rfl⟩
    all_goals exact .inl hholder
  have hupdate : ∀ stripe' value, (value = none ∨ value = some i) →
      t = s.setFileLock stripe' value → s.fileLocks stripe = some holder ∨ holder = i := by
    rintro stripe' value hvalue rfl
    simp only [ServerState.setFileLock, Function.update_apply] at hholder
    split at hholder
    · rcases hvalue with rfl | rfl
      · cases hholder
      · exact .inr (Option.some.inj hholder).symm
    · exact .inl hholder
  cases c with
  | authorize key | startTransferAttempt key | finishTransferAttempt key _ | lookupMetadata key
  | markObjectStale key _ | recordVerifiedObject key _ _ | providerLookup key
  | providerLookupByBackendId key _ | providerDownload key | providerDownloadResponse key _
  | stagingFile key | stageUpload key => exact hquiet key rfl
  | uploadLockFor server _ | lockUpload server _ =>
    obtain ⟨_, rfl⟩ := hop
    exact .inl hholder
  | unlockUpload server _ | dropUploadLock server _ =>
    obtain ⟨u, rfl⟩ : ∃ u, t = s.setUploadLocks server u := ⟨_, hop⟩
    exact .inl hholder
  | providerUpload key =>
    rcases answer with e | stored
    · obtain ⟨count, _, rfl⟩ : ∃ count ≤ 1, t = (s.create key count).fail key := hop
      exact .inl hholder
    · obtain ⟨count, _, rfl⟩ :
          ∃ count ≤ 1, t = ((s.provide key stored).create key count).succeed key := hop
      exact .inl hholder
  | acquireObjectUploadLock key =>
    rcases answer with e | _
    · exact hsame (congrArg ServerState.fileLocks hop)
    · exact hupdate _ _ (.inr rfl) hop.2
  | releaseObjectUploadLock key => exact hupdate _ _ (.inl rfl) hop

/-- The rules for the calls of a handler. `Held` is what it relies on while it runs under
the upload locks; `Absent` is what it learns from a lookup that finds nothing. -/
structure TransferRules (sha256 : List UInt8 → List UInt8)
    (op : Semantics serverInterface (ServerState ι) ι) (Inv : ServerState ι → Prop)
    (Guar : ι → ServerState ι → ServerState ι → Prop) (i : ι) (key : MetadataObjectKey)
    (Held Absent : ServerState ι → Prop) : Prop where
  refines : ∀ {s c answer t}, op i s c answer t → serverOp sha256 i s c answer t
  guar_returned : ∀ {j s t}, Guar j s t → s.returned ⊆ t.returned
  held_stable : Stable Inv Guar i Held
  absent_stable : Stable Inv Guar i fun s => Held s ∧ Absent s
  quiet : ∀ {s c answer t}, c.Quiet key → c.Allowed s → Inv s → op i s c answer t →
    Inv t ∧ Guar i s t ∧ (Held s → Held t) ∧ (Absent s → Absent t)
  lookup_none : ∀ {s t}, Inv s → op i s (.providerLookup key) (.ok none : Except _ _) t →
    Absent t
  upload : ∀ {s answer t}, Inv s → Held s → Absent s →
    op i s (.providerUpload key) answer t → Inv t ∧ Guar i s t ∧ Held t
  acquire : ∀ {s t} {a : Except ServerError Unit}, Inv s →
    op i s (.acquireObjectUploadLock key) a t → Inv t ∧ Guar i s t ∧ (a = .ok () → Held t)
  release : ∀ {s answer t}, Inv s → Held s → op i s (.releaseObjectUploadLock key) answer t →
    Inv t ∧ Guar i s t

namespace TransferRules

variable {sha256 : List UInt8 → List UInt8} {op : Semantics serverInterface (ServerState ι) ι}
  {Inv : ServerState ι → Prop} {Guar : ι → ServerState ι → ServerState ι → Prop} {i : ι}
  {key : MetadataObjectKey} {Held Absent : ServerState ι → Prop}

/-- An assertion that a handler can carry through its quiet calls. -/
structure Carries (op : Semantics serverInterface (ServerState ι) ι)
    (Inv : ServerState ι → Prop) (Guar : ι → ServerState ι → ServerState ι → Prop) (i : ι)
    (key : MetadataObjectKey) (X : ServerState ι → Prop) : Prop where
  stable : Stable Inv Guar i X
  quiet : ∀ {s c answer t}, c.Quiet key → c.Allowed s → Inv s → op i s c answer t → X s → X t

omit [DecidableEq ι] in
theorem carries_true : Carries op Inv Guar i key fun _ => True :=
  ⟨.const True, fun _ _ _ _ _ => trivial⟩

variable (h : TransferRules sha256 op Inv Guar i key Held Absent)
include h

theorem carries_held : Carries op Inv Guar i key Held :=
  ⟨h.held_stable, fun hquiet hallowed hs hop => (h.quiet hquiet hallowed hs hop).2.2.1⟩

theorem carries_absent : Carries op Inv Guar i key fun s => Held s ∧ Absent s :=
  ⟨h.absent_stable, fun hquiet hallowed hs hop hX =>
    have hstep := h.quiet hquiet hallowed hs hop
    ⟨hstep.2.2.1 hX.1, hstep.2.2.2 hX.2⟩⟩

/-- What the provider has returned it has returned for good. -/
theorem carries_returned (backendId : String) :
    Carries op Inv Guar i key fun s => s.Returned key backendId := by
  refine ⟨fun j s t _ _ _ hguar hX => ?_, fun hquiet hallowed hs hop hX => ?_⟩
  · obtain ⟨stored, hmem, hstored⟩ := hX
    exact ⟨stored, h.guar_returned hguar hmem, hstored⟩
  · obtain ⟨stored, hmem, hstored⟩ := hX
    exact ⟨stored, h.guar_returned (h.quiet hquiet hallowed hs hop).2.1 hmem, hstored⟩

theorem carries_held_returned (backendId : String) :
    Carries op Inv Guar i key fun s => Held s ∧ s.Returned key backendId :=
  ⟨h.held_stable.and (h.carries_returned backendId).stable,
    fun hquiet hallowed hs hop hX =>
      ⟨h.carries_held.quiet hquiet hallowed hs hop hX.1,
        (h.carries_returned backendId).quiet hquiet hallowed hs hop hX.2⟩⟩

/-- A quiet call keeps what is carried. -/
theorem request {c : ServerCall} (hquiet : c.Quiet key) {X : ServerState ι → Prop}
    (hX : Carries op Inv Guar i key X) (hallowed : ∀ s, X s → c.Allowed s) :
    Verified op Inv Guar i (fun _ => X) (Interaction.request (F := serverInterface) c) X := by
  refine .request (fun _ => hX.stable) fun s answer t hs hP hop => ?_
  obtain ⟨ht, hguar, _⟩ := h.quiet hquiet (hallowed s hP) hs hop
  exact ⟨ht, hguar, hX.quiet hquiet (hallowed s hP) hs hop hP⟩

/-- The provider has returned this object. -/
def Provided (key : MetadataObjectKey) (Held : ServerState ι → Prop) (stored : StoredObject)
    (s : ServerState ι) : Prop :=
  Held s ∧ (key, stored) ∈ s.returned

/-- What a lookup tells: nothing is there, or the provider has returned an object. -/
def Found (key : MetadataObjectKey) (Held None : ServerState ι → Prop) :
    Option StoredObject → ServerState ι → Prop
  | none => fun s => Held s ∧ None s
  | some stored => Provided key Held stored

theorem found_stable {None : ServerState ι → Prop}
    (hnone : Stable Inv Guar i fun s => Held s ∧ None s)
    (answer : Except StorageError (Option StoredObject)) :
    Stable Inv Guar i (Outcome (Found key Held None) Held answer) := by
  cases answer with
  | error e => exact h.held_stable
  | ok found =>
    cases found with
    | none => exact hnone
    | some stored =>
      exact h.held_stable.and fun j s t _ _ _ hguar hmem => h.guar_returned hguar hmem

omit h [DecidableEq ι] in
/-- An answer of the provider that carries an object has been returned for the key. -/
theorem mem_returned_of_provides {s t : ServerState ι} {stored : StoredObject}
    (h : s.Provides key (.ok (some stored)) t) : (key, stored) ∈ t.returned := by
  have ht : t = s.provide key stored := h
  subst ht
  exact List.mem_cons_self

theorem provided_stable (answer : Except StorageError StoredObject) :
    Stable Inv Guar i (Outcome (Provided key Held) Held answer) := by
  cases answer with
  | error e => exact h.held_stable
  | ok stored =>
    exact h.held_stable.and fun j s t _ _ _ hguar hmem => h.guar_returned hguar hmem

omit h [DecidableEq ι] in
theorem provided_of_provides {s t : ServerState ι} {answer : Except StorageError StoredObject}
    (hprovides : s.Provides key (answer.map some) t) (hheld : Held t) :
    Outcome (Provided key Held) Held answer t := by
  cases answer with
  | error e => exact hheld
  | ok stored => exact ⟨hheld, mem_returned_of_provides hprovides⟩

omit h [DecidableEq ι] in
/-- The errors of the provider are errors of the handler. -/
theorem storageCall {α : Type} {Q : α → ServerState ι → Prop} {E P : ServerState ι → Prop}
    {p : Prog serverInterface (Except StorageError α)}
    (hp : Verified op Inv Guar i (Outcome Q E) p P) :
    Verified op Inv Guar i (Outcome Q E) (LfsCloud.storageCall p).run P := by
  refine hp.bind fun answer => ?_
  cases answer with
  | ok a => exact fun _ _ hQ => hQ
  | error e => exact fun _ _ hE => hE

omit h [DecidableEq ι] in
/-- An answer of the provider, where one without an object has been interpreted. -/
theorem found_of_provides {None : ServerState ι → Prop} {s t : ServerState ι}
    {answer : Except StorageError (Option StoredObject)} (hprovides : s.Provides key answer t)
    (hheld : Held t) (hnone : answer = .ok none → None t) :
    Outcome (Found key Held None) Held answer t := by
  cases answer with
  | error e => exact hheld
  | ok found =>
    cases found with
    | none => exact ⟨hheld, hnone rfl⟩
    | some stored => exact ⟨hheld, mem_returned_of_provides hprovides⟩

end TransferRules

section Handlers

variable {sha256 : List UInt8 → List UInt8} {op : Semantics serverInterface (ServerState ι) ι}
  {Inv : ServerState ι → Prop} {Guar : ι → ServerState ι → ServerState ι → Prop} {i : ι}
  {repository : RepositoryMapping} {object : LfsObject} {Held Absent : ServerState ι → Prop}
  (h : TransferRules sha256 op Inv Guar i (repository.key object) Held Absent)
include h

namespace TransferRules

theorem providerLookup : Verified op Inv Guar i
    (Outcome (Found (repository.key object) Held Absent) Held)
      (LfsCloud.providerLookup repository object).run Held := by
  refine storageCall (.request (fun _ => h.found_stable h.absent_stable _) ?_)
  intro s answer t hs hP hop
  obtain ⟨ht, hguar, hheld, _⟩ := h.quiet (c := .providerLookup _) rfl trivial hs hop
  refine ⟨ht, hguar, found_of_provides (h.refines hop) (hheld hP) ?_⟩
  rintro rfl
  exact h.lookup_none hs hop

theorem providerLookupByBackendId (backendId : String) : Verified op Inv Guar i
    (Outcome (Found (repository.key object) Held fun _ => True) Held)
      (LfsCloud.providerLookupByBackendId repository object backendId).run Held := by
  refine storageCall (.request
    (fun _ => h.found_stable (h.held_stable.and (.const True)) _) ?_)
  intro s answer t hs hP hop
  obtain ⟨ht, hguar, hheld, _⟩ := h.quiet (c := .providerLookupByBackendId _ _) rfl trivial hs hop
  exact ⟨ht, hguar, found_of_provides (h.refines hop) (hheld hP) fun _ => trivial⟩

omit h [DecidableEq ι] in
/-- A stored object that passes the namespace check names a returned backend
identifier. -/
theorem ensureStoredObjectNamespace (stored : StoredObject) : Verified op Inv Guar i
    (Outcome (fun stored s => Held s ∧ s.Returned (repository.key object) stored.backendId) Held)
      (LfsCloud.ensureStoredObjectNamespace repository stored).run
        (Provided (repository.key object) Held stored) := by
  unfold LfsCloud.ensureStoredObjectNamespace
  split
  next hsame => exact .pureE fun s _ hP => ⟨hP.1, stored, hP.2, hsame.1, hsame.2, rfl⟩
  next => exact .throwE fun s _ hP => hP.1

/-- What a handler knows about an object it has found. -/
def Kept (key : MetadataObjectKey) (Held Absent : ServerState ι → Prop) :
    Option StoredObject → ServerState ι → Prop
  | none => fun s => Held s ∧ Absent s
  | some stored => fun s => Held s ∧ s.Returned key stored.backendId

omit h [DecidableEq ι] in
theorem ensureFoundNamespace {None : ServerState ι → Prop} (found : Option StoredObject) :
    Verified op Inv Guar i (Outcome (Kept (repository.key object) Held None) Held)
      (LfsCloud.ensureFoundNamespace repository found).run
        (Found (repository.key object) Held None found) := by
  cases found with
  | none => exact .pureE fun _ _ hP => hP
  | some stored =>
    exact (TransferRules.ensureStoredObjectNamespace stored).bindE fun _ =>
      .pureE fun _ _ hP => hP

theorem recordVerified (backendId : String) (createdBy : RepositoryUser) :
    Verified op Inv Guar i
      (Outcome (fun _ s => Held s ∧ s.Returned (repository.key object) backendId) Held)
        (recordVerifiedObjectMetadata repository object backendId createdBy).run
          fun s => Held s ∧ s.Returned (repository.key object) backendId :=
  (h.request (c := .recordVerifiedObject (repository.key object) backendId createdBy) rfl
    (h.carries_held_returned backendId) fun _ hP => hP.2).outcome.postE (fun _ _ _ hQ => hQ)
      fun _ _ hE => hE.1

/-- A repair by a lookup of the object. -/
theorem repairByLookup (metadata : MetadataObjectRecord) : Verified op Inv Guar i
    (Outcome (Kept (repository.key object) Held Absent) Held)
      (LfsCloud.repairByLookup repository object metadata).run Held := by
  refine h.providerLookup.bindE fun found => ?_
  refine (ensureFoundNamespace found).bindE fun replacement => ?_
  cases replacement with
  | none =>
    have hmark := (h.request (c := .markObjectStale (repository.key object) metadata.backendId)
      rfl h.carries_absent fun _ _ => trivial).outcome
    exact (hmark.postE (fun _ _ _ hQ => hQ) fun _ _ hE => hE.1).bindE
      fun _ => .pureE fun _ _ hP => hP
  | some stored =>
    dsimp only
    split
    · exact (h.recordVerified stored.backendId metadata.createdBy).bindE
        fun _ => .pureE fun _ _ hP => hP
    · exact .pureE fun _ _ hP => hP

/-- A repair by a lookup of the backend identifier. -/
theorem repairByBackendId (runtime : ServerStorageProvider) (metadata : MetadataObjectRecord) :
    Verified op Inv Guar i (Outcome (Kept (repository.key object) Held Absent) Held)
      (LfsCloud.repairByBackendId repository object runtime metadata).run Held := by
  unfold LfsCloud.repairByBackendId
  split
  swap
  · exact h.repairByLookup metadata
  refine (h.providerLookupByBackendId metadata.backendId).bindE fun found => ?_
  cases found with
  | none => exact (h.repairByLookup metadata).of_imp fun _ _ hP => hP.1
  | some stored =>
    refine (ensureStoredObjectNamespace stored).bindE fun stored => ?_
    dsimp only
    split
    · exact (h.recordVerified stored.backendId metadata.createdBy).bindE
        fun _ => .pureE fun _ _ hP => hP
    · exact .pureE fun _ _ hP => hP

theorem lookupMetadata : Verified op Inv Guar i (Outcome (fun _ => Held) Held)
    (LfsCloud.lookupMetadata repository object).run Held :=
  (h.request (c := .lookupMetadata (repository.key object)) rfl h.carries_held
    fun _ _ => trivial).outcome

/-- The batch lookup with its repair. -/
theorem lookupAndRepair (runtime : ServerStorageProvider) : Verified op Inv Guar i
    (Outcome (Kept (repository.key object) Held Absent) Held)
      (lookupAndRepairObjectWithRuntime repository object runtime).run Held := by
  refine h.lookupMetadata.bindE fun metadata => ?_
  cases metadata with
  | none => exact h.providerLookup.bindE fun found => ensureFoundNamespace found
  | some metadata => exact h.repairByBackendId runtime metadata

/-- A quiet call that may fail keeps what a handler holds and knows. -/
theorem stagingFile {X : ServerState ι → Prop}
    (hX : Carries op Inv Guar i (repository.key object) X) :
    Verified op Inv Guar i (Outcome (fun _ => X) X)
      (LfsCloud.stagingFile repository object).run X :=
  (h.request (c := .stagingFile (repository.key object)) rfl hX fun _ _ => trivial).outcome

theorem finishTransferAttempt (backendId : Option String) {X : ServerState ι → Prop}
    (hX : Carries op Inv Guar i (repository.key object) X) :
    Verified op Inv Guar i (Outcome (fun _ => X) X)
      (LfsCloud.finishTransferAttempt repository object backendId).run X :=
  (h.request (c := .finishTransferAttempt (repository.key object) backendId) rfl hX
    fun _ _ => trivial).outcome

/-- Recording a failed attempt passes the error on, under what still holds. -/
theorem orFinishFailed {α : Type} {p : Handler α} {Q : α → ServerState ι → Prop}
    {E P : ServerState ι → Prop} (hE : Carries op Inv Guar i (repository.key object) E)
    (hp : Verified op Inv Guar i (Outcome Q E) p.run P) :
    Verified op Inv Guar i (Outcome Q E) (LfsCloud.orFinishFailed repository object p).run P := by
  refine hp.bind fun result => ?_
  cases result with
  | ok a => exact fun _ _ hQ => hQ
  | error e =>
    refine (h.finishTransferAttempt none hE).bind fun answer => ?_
    cases answer with
    | ok _ => exact fun _ _ hP => hP
    | error _ => exact fun _ _ hP => hP

theorem providerDownload : Verified op Inv Guar i
    (Outcome (Provided (repository.key object) Held) Held)
      (LfsCloud.providerDownload repository object) Held := by
  refine .request h.provided_stable fun s answer t hs hP hop => ?_
  obtain ⟨ht, hguar, hheld, _⟩ := h.quiet (c := .providerDownload _) rfl trivial hs hop
  exact ⟨ht, hguar, provided_of_provides (h.refines hop) (hheld hP)⟩

theorem providerDownloadResponse (stored : StoredObject) : Verified op Inv Guar i
    (Outcome (Provided (repository.key object) Held) Held)
      (LfsCloud.providerDownloadResponse repository object stored).run Held := by
  refine storageCall (.request h.provided_stable fun s answer t hs hP hop => ?_)
  obtain ⟨ht, hguar, hheld, _⟩ := h.quiet (c := .providerDownloadResponse _ _) rfl trivial hs hop
  exact ⟨ht, hguar, provided_of_provides (h.refines hop) (hheld hP)⟩

theorem markMissing (metadata : Option MetadataObjectRecord) (source : StorageError) :
    Verified op Inv Guar i (Outcome (fun _ => Held) Held)
      (LfsCloud.markMissing repository object metadata source).run Held := by
  unfold LfsCloud.markMissing
  split
  next metadata =>
    have hmark := (h.request (c := .markObjectStale (repository.key object) metadata.backendId)
      rfl h.carries_held fun _ _ => trivial).outcome
    exact hmark.bindE fun _ => .pureE fun _ _ hP => hP
  next => exact .pureE fun _ _ hP => hP

/-- The answer of a staged download. -/
theorem stagedDownloadResult (metadata : Option MetadataObjectRecord)
    (answer : Except StorageError StoredObject) : Verified op Inv Guar i
      (Outcome (Provided (repository.key object) Held) Held)
        (LfsCloud.stagedDownloadResult repository object metadata answer).run
          (Outcome (Provided (repository.key object) Held) Held answer) := by
  cases answer with
  | ok stored => exact .pureE fun _ _ hP => hP
  | error source => exact (h.markMissing metadata source).bindE fun _ => .throwE fun _ _ hP => hP

theorem reconcileDownload (metadata : Option MetadataObjectRecord) (stored : StoredObject) :
    Verified op Inv Guar i
      (Outcome (fun _ s => Held s ∧ s.Returned (repository.key object) stored.backendId) Held)
        (LfsCloud.reconcileDownload repository object metadata stored).run
          fun s => Held s ∧ s.Returned (repository.key object) stored.backendId := by
  unfold LfsCloud.reconcileDownload
  split
  · exact .pureE fun _ _ hP => hP
  split
  · exact h.recordVerified _ _
  · exact .pureE fun _ _ hP => hP

theorem stagedDownloadResponse : Verified op Inv Guar i
    (Outcome (fun stored s => Held s ∧ s.Returned (repository.key object) stored.backendId) Held)
      (LfsCloud.stagedDownloadResponse repository object).run Held := by
  refine h.lookupMetadata.bindE fun metadata => ?_
  refine (h.stagingFile h.carries_held).bindE fun _ => ?_
  refine Verified.bindE (Q := fun answer => Outcome (Provided (repository.key object) Held) Held
    answer) (h.providerDownload.bind fun answer => .done fun _ _ hP => hP) fun answer => ?_
  refine (h.stagedDownloadResult metadata answer).bindE fun stored => ?_
  refine (ensureStoredObjectNamespace stored).bindE fun stored => ?_
  refine (h.reconcileDownload metadata stored).bindE fun _ => ?_
  refine ((h.stagingFile (h.carries_held_returned stored.backendId)).postE (fun _ _ _ hQ => hQ)
    fun _ _ hE => hE.1).bindE fun _ => ?_
  exact .pureE fun _ _ hP => hP

theorem streamedDownloadResponse (runtime : ServerStorageProvider) : Verified op Inv Guar i
    (Outcome (fun stored s => Held s ∧ s.Returned (repository.key object) stored.backendId) Held)
      (LfsCloud.streamedDownloadResponse repository object runtime).run Held := by
  refine (h.lookupAndRepair runtime).bindE fun found => ?_
  cases found with
  | none => exact .throwE fun _ _ hP => hP.1
  | some stored =>
    have hensure : Verified op Inv Guar i (Outcome (fun _ => Held) Held)
        (LfsCloud.ensureStoredObjectNamespace repository stored).run
          (Kept (repository.key object) Held Absent (some stored)) := by
      unfold LfsCloud.ensureStoredObjectNamespace
      split
      · exact .pureE fun _ _ hP => hP.1
      · exact .throwE fun _ _ hP => hP.1
    refine hensure.bindE fun stored => ?_
    exact (h.providerDownloadResponse stored).bindE fun download =>
      ensureStoredObjectNamespace download

/-- A download names a backend identifier that the provider has returned. -/
theorem handleLfsDownloadRequest (runtime : ServerStorageProvider) : Verified op Inv Guar i
    (Outcome (fun stored s => Held s ∧ s.Returned (repository.key object) stored.backendId) Held)
      (LfsCloud.handleLfsDownloadRequest repository object runtime).run Held := by
  have hauthorize : Verified op Inv Guar i (Outcome (fun _ => Held) Held)
      (authorize repository object).run Held :=
    (h.request (c := .authorize (repository.key object)) rfl h.carries_held
      fun _ _ => trivial).outcome
  have hstart : Verified op Inv Guar i (Outcome (fun _ => Held) Held)
      (startTransferAttempt repository object).run Held :=
    (h.request (c := .startTransferAttempt (repository.key object)) rfl h.carries_held
      fun _ _ => trivial).outcome
  have hdownload : Verified op Inv Guar i
      (Outcome (fun stored s => Held s ∧ s.Returned (repository.key object) stored.backendId) Held)
        (downloadObjectResponse repository object runtime).run Held := by
    unfold downloadObjectResponse
    split
    · exact h.streamedDownloadResponse runtime
    · exact h.stagedDownloadResponse
  refine hauthorize.bindE fun _ => hstart.bindE fun _ => ?_
  refine (h.orFinishFailed h.carries_held hdownload).bindE fun stored => ?_
  refine ((h.finishTransferAttempt (some stored.backendId)
    (h.carries_held_returned stored.backendId)).postE (fun _ _ _ hQ => hQ)
      fun _ _ hE => hE.1).bindE fun _ => ?_
  exact .pureE fun _ _ hP => hP

/-- An upload to the provider, when nothing is there yet. -/
theorem uploadObject (createdBy : RepositoryUser) : Verified op Inv Guar i
    (Outcome (fun stored s => Held s ∧ s.Returned (repository.key object) stored.backendId) Held)
      (LfsCloud.uploadObject repository object createdBy).run fun s => Held s ∧ Absent s := by
  have hupload : Verified op Inv Guar i (Outcome (Provided (repository.key object) Held) Held)
      (providerUpload repository object).run fun s => Held s ∧ Absent s := by
    refine storageCall (.request h.provided_stable fun s answer t hs hP hop => ?_)
    obtain ⟨ht, hguar, hheld⟩ := h.upload hs hP.1 hP.2 hop
    refine ⟨ht, hguar, ?_⟩
    cases answer with
    | error e => exact hheld
    | ok stored =>
      obtain ⟨count, _, ht⟩ : ∃ count ≤ 1, t = ((s.provide (repository.key object) stored).create
        (repository.key object) count).succeed (repository.key object) := h.refines hop
      refine ⟨hheld, ?_⟩
      rw [ht]
      exact List.mem_cons_self
  refine hupload.bindE fun stored => ?_
  refine (ensureStoredObjectNamespace stored).bindE fun stored => ?_
  exact (h.recordVerified stored.backendId createdBy).bindE fun _ => .pureE fun _ _ hP => hP

/-- What runs under the upload locks. -/
theorem uploadUnderLock (runtime : ServerStorageProvider) (createdBy : RepositoryUser) :
    Verified op Inv Guar i
      (Outcome (fun stored s => Held s ∧ s.Returned (repository.key object) stored.backendId) Held)
        (LfsCloud.uploadUnderLock repository object runtime createdBy).run Held := by
  have hfinish : ∀ stored : StoredObject, Verified op Inv Guar i
      (Outcome (fun stored s => Held s ∧ s.Returned (repository.key object) stored.backendId) Held)
        (do
          LfsCloud.finishTransferAttempt repository object (some stored.backendId)
          return stored : Handler StoredObject).run
          fun s => Held s ∧ s.Returned (repository.key object) stored.backendId := fun stored =>
    ((h.finishTransferAttempt (some stored.backendId)
      (h.carries_held_returned stored.backendId)).postE (fun _ _ _ hQ => hQ)
        fun _ _ hE => hE.1).bindE fun _ => .pureE fun _ _ hP => hP
  refine (h.orFinishFailed h.carries_held (h.lookupAndRepair runtime)).bindE fun found => ?_
  cases found with
  | some stored =>
    exact (h.orFinishFailed h.carries_held
      (h.recordVerified stored.backendId createdBy)).bindE fun _ => hfinish stored
  | none =>
    have hstage : Verified op Inv Guar i (Outcome (fun _ s => Held s ∧ Absent s) Held)
        (stageUpload repository object).run fun s => Held s ∧ Absent s :=
      (h.request (c := .stageUpload (repository.key object)) rfl h.carries_absent
        fun _ _ => trivial).outcome.postE (fun _ _ _ hQ => hQ) fun _ _ hE => hE.1
    refine (h.orFinishFailed h.carries_held hstage).bindE fun _ => ?_
    exact (h.orFinishFailed h.carries_held (h.uploadObject createdBy)).bindE fun stored =>
      hfinish stored

omit h [DecidableEq ι] in
/-- A cleanup that turns one outcome into another, whatever the result is. -/
theorem finally_cleanup {α : Type} {p : Handler α} {cleanup : Prog serverInterface Unit}
    {R R' : Except ServerError α → ServerState ι → Prop} {P : ServerState ι → Prop}
    (hp : Verified op Inv Guar i R p.run P)
    (hcleanup : ∀ result, Verified op Inv Guar i (fun _ => R' result) cleanup (R result)) :
    Verified op Inv Guar i R' (p.finally cleanup).run P :=
  hp.bind fun result => (hcleanup result).bind fun _ => .done fun _ _ hP => hP

/-- The outcome of an upload: the object behind a success has been returned. -/
def Uploaded (key : MetadataObjectKey) : Except ServerError StoredObject → ServerState ι → Prop :=
  Outcome (fun stored s => s.Returned key stored.backendId) fun _ => True

theorem carries_uploaded (result : Except ServerError StoredObject) :
    Carries op Inv Guar i (repository.key object) (Uploaded (repository.key object) result) := by
  cases result with
  | error e => exact carries_true
  | ok stored => exact h.carries_returned stored.backendId

/-- The lock file is let go of at the end of what runs under it. -/
theorem releaseObjectUploadLock (result : Except ServerError StoredObject) :
    Verified op Inv Guar i (fun _ => Uploaded (repository.key object) result)
      (LfsCloud.releaseObjectUploadLock repository object)
        (Outcome (fun stored s => Held s ∧
          s.Returned (repository.key object) stored.backendId) Held result) := by
  refine .request (fun _ => (h.carries_uploaded result).stable) fun s answer t hs hP hop => ?_
  cases result with
  | error e =>
    obtain ⟨ht, hguar⟩ := h.release hs hP hop
    exact ⟨ht, hguar, trivial⟩
  | ok stored =>
    obtain ⟨ht, hguar⟩ := h.release hs hP.1 hop
    obtain ⟨found, hmem, hfound⟩ := hP.2
    exact ⟨ht, hguar, found, h.guar_returned hguar hmem, hfound⟩

/-- Taking the in-process lock around a handler changes nothing about its outcome. -/
theorem underUploadLock {server : ℕ} {p : Handler StoredObject}
    (hp : Verified op Inv Guar i (Uploaded (repository.key object)) p.run fun _ => True) :
    Verified op Inv Guar i (Uploaded (repository.key object))
      (LfsCloud.underUploadLock repository object server p).run fun _ => True := by
  have hcall : ∀ {c : ServerCall}, c.Quiet (repository.key object) →
      (∀ s : ServerState ι, c.Allowed s) → Verified op Inv Guar i (fun _ _ => True)
        (Interaction.request (F := serverInterface) c) fun _ => True := fun hquiet hallowed =>
    h.request hquiet carries_true fun s _ => hallowed s
  have hcleanup : ∀ (c : ServerCall) (_ : c.Quiet (repository.key object))
      (_ : ∀ s : ServerState ι, c.Allowed s) (result : Except ServerError StoredObject),
        Verified op Inv Guar i (fun _ => Uploaded (repository.key object) result)
          (Interaction.request (F := serverInterface) c)
            (Uploaded (repository.key object) result) :=
    fun c hquiet hallowed result =>
      h.request hquiet (h.carries_uploaded result) fun s _ => hallowed s
  refine (hcall (c := .uploadLockFor server (uploadLockName repository object.oid)) trivial
    fun _ => trivial).bind fun lock => ?_
  refine (hcall (c := .lockUpload server lock) trivial fun _ => trivial).bind fun _ => ?_
  have hunlock := finally_cleanup hp
    (hcleanup (.unlockUpload server lock) trivial fun _ => trivial)
  exact finally_cleanup hunlock
    (hcleanup (.dropUploadLock server lock) trivial fun _ => trivial)

/-- An upload that reports success names an object the provider has returned. -/
theorem handleLfsUploadRequest (server : ℕ) (runtime : ServerStorageProvider)
    (createdBy : RepositoryUser) :
    Verified op Inv Guar i (Uploaded (repository.key object))
      (LfsCloud.handleLfsUploadRequest repository object server runtime createdBy).run
        fun _ => True := by
  have hauthorize : Verified op Inv Guar i (Outcome (fun _ _ => True) fun _ => True)
      (authorize repository object).run fun _ => True :=
    (h.request (c := .authorize (repository.key object)) rfl carries_true
      fun _ _ => trivial).outcome
  have hstart : Verified op Inv Guar i (Outcome (fun _ _ => True) fun _ => True)
      (startTransferAttempt repository object).run fun _ => True :=
    (h.request (c := .startTransferAttempt (repository.key object)) rfl carries_true
      fun _ _ => trivial).outcome
  have hacquire : Verified op Inv Guar i (Outcome (fun _ => Held) fun _ => True)
      (acquireObjectUploadLock repository object).run fun _ => True := by
    refine .request (fun answer => ?_) fun s answer t hs _ hop => ?_
    · cases answer with
      | ok _ => exact h.held_stable
      | error _ => exact .const True
    · obtain ⟨ht, hguar, hheld⟩ := h.acquire (a := answer) hs hop
      refine ⟨ht, hguar, ?_⟩
      cases answer with
      | ok _ => exact hheld rfl
      | error _ => exact trivial
  refine hauthorize.bindE fun _ => hstart.bindE fun _ => h.underUploadLock ?_
  refine (h.orFinishFailed carries_true hacquire).bindE fun _ => ?_
  exact finally_cleanup (h.uploadUnderLock runtime createdBy) h.releaseObjectUploadLock

end TransferRules

end Handlers

end LfsCloud
