import LfsCloud.Lib.Table
import LfsCloud.Providers

/-!
# Object metadata

The table of repository-scoped object mappings. A row is named by its repository,
storage provider and object, and is never deleted; the writes are the insert-or-repair
after a verification and the conditional move to `stale`.
-/

namespace LfsCloud

/-- A user of a repository provider. -/
structure RepositoryUser where
  providerId : String
  login : String
  stableId : Option String
  deriving DecidableEq, Repr

/-- Verification state of a mapping. -/
inductive MetadataObjectVerificationStatus
  | verified
  | stale
  | failed
  deriving DecidableEq, Repr

/-- The unique key of a row. -/
structure MetadataObjectKey where
  repoId : String
  storageProviderId : String
  object : LfsObject
  deriving DecidableEq

/-- The other columns of a row. -/
structure MetadataObjectRecord where
  id : ℕ
  backendId : String
  createdBy : RepositoryUser
  createdAtUnixSeconds : ℤ
  lastVerifiedAtUnixSeconds : Option ℤ
  verificationStatus : MetadataObjectVerificationStatus
  deriving DecidableEq

/-- Failures of the server that the object handlers produce or pass on. -/
inductive ServerError
  | invalidConfiguration (message : String)
  | invalidRequest (message : String)
  | rateLimited (retryAfterSeconds : ℕ)
  | repositoryProvider (source : RepositoryProviderError)
  | storage (source : StorageError)
  | metadataOperation
  | internal (message : String)
  deriving DecidableEq, Repr

/-- The objects table and its row counter. -/
structure MetadataObjects where
  rows : Table MetadataObjectKey MetadataObjectRecord
  nextId : ℕ

/-- `sqlite_size_bytes`: sizes are stored as signed 64-bit integers. -/
def sqliteSizeBytes (object : LfsObject) : Except ServerError ℕ :=
  if object.size.toNat < 2 ^ 63 then .ok object.size.toNat
  else .error (.invalidRequest ("LFS object " ++ object.oid.hex ++ " size " ++
    toString object.size ++ " exceeds SQLite metadata integer range"))

namespace MetadataObjects

/-- `lookup_object`. -/
def lookupObject (m : MetadataObjects) (key : MetadataObjectKey) :
    Except ServerError (Option MetadataObjectRecord) :=
  (sqliteSizeBytes key.object).map fun _ => m.rows.lookup key

/-- The update of `mark_object_stale`: only a row that still has the expected backend
identifier changes. -/
def markStale (m : MetadataObjects) (key : MetadataObjectKey) (expectedBackendId : String) :
    Bool × MetadataObjects :=
  match m.rows.lookup key with
  | none => (false, m)
  | some record =>
    if record.backendId = expectedBackendId then
      (true, { m with rows := m.rows.insert key { record with
        verificationStatus := .stale, lastVerifiedAtUnixSeconds := none } })
    else (false, m)

/-- `mark_object_stale`. -/
def markObjectStale (m : MetadataObjects) (key : MetadataObjectKey)
    (expectedBackendId : String) : Except ServerError (Bool × MetadataObjects) :=
  (sqliteSizeBytes key.object).map fun _ => m.markStale key expectedBackendId

/-- The insert of `record_verified_object`, which on conflict only updates the backend
identifier, the status and the time of verification. -/
def recordVerified (m : MetadataObjects) (key : MetadataObjectKey) (backendId : String)
    (creatorIfMissing : RepositoryUser) (now : ℤ) : MetadataObjects :=
  match m.rows.lookup key with
  | none =>
    { rows := m.rows.insert key ⟨m.nextId, backendId, creatorIfMissing, now, some now, .verified⟩
      nextId := m.nextId + 1 }
  | some record =>
    { m with rows := m.rows.insert key { record with
      backendId := backendId
      verificationStatus := .verified
      lastVerifiedAtUnixSeconds := some now } }

/-- `record_verified_object`. -/
def recordVerifiedObject (m : MetadataObjects) (key : MetadataObjectKey) (backendId : String)
    (creatorIfMissing : RepositoryUser) (now : ℤ) : Except ServerError MetadataObjects :=
  (sqliteSizeBytes key.object).map fun _ => m.recordVerified key backendId creatorIfMissing now

theorem markStale_of_ok {m m' : MetadataObjects} {key : MetadataObjectKey}
    {expectedBackendId : String} {marked : Bool}
    (h : m.markObjectStale key expectedBackendId = .ok (marked, m')) :
    m' = (m.markStale key expectedBackendId).2 := by
  unfold markObjectStale Except.map at h
  split at h
  · cases h
  · exact (congrArg Prod.snd (Except.ok.inj h)).symm

theorem recordVerified_of_ok {m m' : MetadataObjects} {key : MetadataObjectKey}
    {backendId : String} {creatorIfMissing : RepositoryUser} {now : ℤ}
    (h : m.recordVerifiedObject key backendId creatorIfMissing now = .ok m') :
    m' = m.recordVerified key backendId creatorIfMissing now := by
  unfold recordVerifiedObject Except.map at h
  split at h <;> cases h
  rfl

/-- Only an object whose size fits is recorded. -/
theorem size_of_recordVerifiedObject {m m' : MetadataObjects} {key : MetadataObjectKey}
    {backendId : String} {creatorIfMissing : RepositoryUser} {now : ℤ}
    (h : m.recordVerifiedObject key backendId creatorIfMissing now = .ok m') :
    ∃ size, sqliteSizeBytes key.object = .ok size := by
  unfold recordVerifiedObject Except.map at h
  split at h
  · cases h
  next size hsize => exact ⟨size, hsize⟩

/-- What a write to one row leaves alone: all other rows, and the creator of this one. -/
structure Keeps (key : MetadataObjectKey) (m m' : MetadataObjects) : Prop where
  other : ∀ k, k ≠ key → m'.rows.lookup k = m.rows.lookup k
  creator : ∀ record, m.rows.lookup key = some record →
    ∃ record', m'.rows.lookup key = some record' ∧ record'.createdBy = record.createdBy

theorem Keeps.refl (key : MetadataObjectKey) (m : MetadataObjects) : Keeps key m m :=
  ⟨fun _ _ => rfl, fun record h => ⟨record, h, rfl⟩⟩

theorem Keeps.trans {key : MetadataObjectKey} {m m' m'' : MetadataObjects}
    (h : Keeps key m m') (h' : Keeps key m' m'') : Keeps key m m'' := by
  refine ⟨fun k hk => (h'.other k hk).trans (h.other k hk), fun record hrecord => ?_⟩
  obtain ⟨record', hrecord', hcreator⟩ := h.creator record hrecord
  obtain ⟨record'', hrecord'', hcreator'⟩ := h'.creator record' hrecord'
  exact ⟨record'', hrecord'', hcreator'.trans hcreator⟩

theorem keeps_markStale (m : MetadataObjects) (key : MetadataObjectKey)
    (expectedBackendId : String) : Keeps key m (m.markStale key expectedBackendId).2 := by
  unfold markStale
  split
  · exact .refl key m
  next record hrecord =>
  split
  · refine ⟨fun k hk => AList.lookup_insert_ne hk, fun old hold => ?_⟩
    rw [hrecord] at hold
    cases hold
    exact ⟨_, AList.lookup_insert _, rfl⟩
  · exact .refl key m

theorem keeps_recordVerified (m : MetadataObjects) (key : MetadataObjectKey)
    (backendId : String) (creatorIfMissing : RepositoryUser) (now : ℤ) :
    Keeps key m (m.recordVerified key backendId creatorIfMissing now) := by
  unfold recordVerified
  split
  next hmissing =>
    refine ⟨fun k hk => AList.lookup_insert_ne hk, fun old hold => ?_⟩
    rw [hmissing] at hold
    cases hold
  next record hrecord =>
    refine ⟨fun k hk => AList.lookup_insert_ne hk, fun old hold => ?_⟩
    rw [hrecord] at hold
    cases hold
    exact ⟨_, AList.lookup_insert _, rfl⟩

/-- The row after a move to `stale`: it keeps its backend identifier, and a status other
than `stale` means that nothing has changed. -/
theorem lookup_markStale {m : MetadataObjects} {key : MetadataObjectKey}
    {expectedBackendId : String} {record : MetadataObjectRecord}
    (h : (m.markStale key expectedBackendId).2.rows.lookup key = some record) :
    ∃ old, m.rows.lookup key = some old ∧ record.backendId = old.backendId ∧
      (record = old ∨ (record.verificationStatus = .stale ∧ old.backendId = expectedBackendId)) := by
  unfold markStale at h
  split at h
  next hmissing =>
    rw [hmissing] at h
    cases h
  next old hold =>
  split at h
  next hexpected =>
    obtain ⟨_, rfl⟩ | ⟨hne, _⟩ := Table.lookup_insert_eq_some.mp h
    · exact ⟨old, hold, rfl, .inr ⟨rfl, hexpected⟩⟩
    · exact absurd rfl hne
  · exact ⟨record, h, rfl, .inl rfl⟩

/-- A move to `stale` keeps the row, under its backend identifier. -/
theorem markStale_lookup (m : MetadataObjects) {key : MetadataObjectKey}
    (expectedBackendId : String) {record : MetadataObjectRecord}
    (h : m.rows.lookup key = some record) :
    ∃ record', (m.markStale key expectedBackendId).2.rows.lookup key = some record' ∧
      record'.backendId = record.backendId := by
  unfold markStale
  rw [h]
  dsimp only
  split
  · exact ⟨_, AList.lookup_insert _, rfl⟩
  · exact ⟨record, h, rfl⟩

/-- A move to `stale` under the backend identifier of the row. -/
theorem markStale_self (m : MetadataObjects) {key : MetadataObjectKey}
    {record : MetadataObjectRecord} (h : m.rows.lookup key = some record) :
    ∃ record', (m.markStale key record.backendId).2.rows.lookup key = some record' ∧
      record'.verificationStatus = .stale := by
  unfold markStale
  rw [h]
  dsimp only
  rw [if_pos rfl]
  exact ⟨_, AList.lookup_insert _, rfl⟩

theorem markObjectStale_of_size {m : MetadataObjects} {key : MetadataObjectKey} {size : ℕ}
    (expectedBackendId : String) (hsize : sqliteSizeBytes key.object = .ok size) :
    m.markObjectStale key expectedBackendId = .ok (m.markStale key expectedBackendId) := by
  rw [markObjectStale, hsize]
  rfl

/-- The row after a verification is verified under the given backend identifier. -/
theorem lookup_recordVerified (m : MetadataObjects) (key : MetadataObjectKey)
    (backendId : String) (creatorIfMissing : RepositoryUser) (now : ℤ) :
    ∃ record, (m.recordVerified key backendId creatorIfMissing now).rows.lookup key =
      some record ∧ record.backendId = backendId ∧ record.verificationStatus = .verified := by
  unfold recordVerified
  split
  · exact ⟨_, AList.lookup_insert _, rfl, rfl⟩
  · exact ⟨_, AList.lookup_insert _, rfl, rfl⟩

end MetadataObjects

end LfsCloud
