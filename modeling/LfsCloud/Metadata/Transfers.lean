import LfsCloud.Metadata.Objects

/-!
# Transfer attempts

The rows that tell how the transfers of objects went. A row is written when a transfer
starts, and one update at most gives it a terminal status.
-/

namespace LfsCloud

/-- The status of a row; a failure also has a category and a message. -/
inductive TransferAttemptStatus
  | started
  | succeeded (backendId : Option String)
  | failed
  deriving DecidableEq, Repr

/-- A row. -/
structure TransferAttempt where
  key : MetadataObjectKey
  status : TransferAttemptStatus
  deriving DecidableEq

/-- The table of transfer attempts and its row counter. -/
structure TransferAttempts where
  rows : Table ℕ TransferAttempt
  nextId : ℕ

/-- `MetadataTransferResult`. -/
inductive MetadataTransferResult
  | succeeded (backendId : Option String)
  | failed
  deriving DecidableEq, Repr

/-- The status that a result leaves. -/
def MetadataTransferResult.status : MetadataTransferResult → TransferAttemptStatus
  | .succeeded backendId => .succeeded backendId
  | .failed => .failed

namespace TransferAttempts

/-- `start_transfer_attempt`. -/
def startTransferAttempt (a : TransferAttempts) (key : MetadataObjectKey) :
    Except ServerError (ℕ × TransferAttempts) :=
  (sqliteSizeBytes key.object).map fun _ =>
    (a.nextId, { rows := a.rows.insert a.nextId ⟨key, .started⟩, nextId := a.nextId + 1 })

/-- `finish_transfer_attempt`: only a row that is `started` is updated, and it is an error
if none is. -/
def finishTransferAttempt (a : TransferAttempts) (attemptId : ℕ)
    (result : MetadataTransferResult) : Except ServerError TransferAttempts :=
  match a.rows.lookup attemptId with
  | some row =>
    if row.status = .started then
      .ok { a with rows := a.rows.insert attemptId { row with status := result.status } }
    else .error .metadataOperation
  | none => .error .metadataOperation

/-- The row counter is above all rows. -/
def Bounded (a : TransferAttempts) : Prop := ∀ id row, a.rows.lookup id = some row → id < a.nextId

variable {a a' : TransferAttempts} {key : MetadataObjectKey} {id : ℕ}
  {result : MetadataTransferResult}

/-- What a start does. -/
theorem startTransferAttempt_eq_ok (h : a.startTransferAttempt key = .ok (id, a')) :
    id = a.nextId ∧ a'.rows = a.rows.insert id ⟨key, .started⟩ ∧ a'.nextId = id + 1 := by
  unfold startTransferAttempt Except.map at h
  split at h
  · cases h
  · cases h
    exact ⟨rfl, rfl, rfl⟩

/-- What a finish does. -/
theorem finishTransferAttempt_eq_ok (h : a.finishTransferAttempt id result = .ok a') :
    ∃ row, a.rows.lookup id = some row ∧ row.status = .started ∧
      a'.rows = a.rows.insert id { row with status := result.status } ∧ a'.nextId = a.nextId := by
  unfold finishTransferAttempt at h
  split at h
  next row hlookup =>
    split at h
    next hstarted =>
      cases h
      exact ⟨row, hlookup, hstarted, rfl, rfl⟩
    next => cases h
  next => cases h

theorem Bounded.startTransferAttempt (ha : a.Bounded)
    (h : a.startTransferAttempt key = .ok (id, a')) : a'.Bounded := by
  obtain ⟨rfl, hrows, hnext⟩ := startTransferAttempt_eq_ok h
  intro id row hlookup
  rw [hrows] at hlookup
  rcases Table.lookup_insert_eq_some.mp hlookup with ⟨rfl, _⟩ | ⟨_, hold⟩
  · omega
  · have := ha id row hold
    omega

theorem Bounded.finishTransferAttempt (ha : a.Bounded)
    (h : a.finishTransferAttempt id result = .ok a') : a'.Bounded := by
  obtain ⟨old, hold, _, hrows, hnext⟩ := finishTransferAttempt_eq_ok h
  intro id' row hlookup
  rw [hrows] at hlookup
  rcases Table.lookup_insert_eq_some.mp hlookup with ⟨rfl, _⟩ | ⟨_, hrow⟩
  · have := ha _ old hold
    omega
  · have := ha id' row hrow
    omega

end TransferAttempts

end LfsCloud
