import LfsCloud.Lib.JsonText
import LfsCloud.Migration.Checkpoint

/-!
# The text of a checkpoint record

The serializer writes the fields of a record in order, without whitespace, and
tags the completion with its status. Reading the same text back strictly is a
codec: whatever the serializer writes is self-delimiting.
-/

namespace LfsCloud

open JsonText Reader

/-- The opening brace and the name of the first field. -/
def firstField (name : String) : List Char := Char.ofNat 123 :: renderString name ++ [':']

/-- The comma and the name of a later field. -/
def nextField (name : String) : List Char := ',' :: renderString name ++ [':']

/-- The closing brace. -/
def closeObject : List Char := [Char.ofNat 125]

/-- The whole object of an object that was already present. -/
def alreadyPresentText : List Char :=
  firstField "status" ++ renderString "already_present" ++ closeObject

/-- The object of an uploaded object up to its backend identifier. -/
def uploadedText : List Char :=
  firstField "status" ++ renderString "uploaded" ++ nextField "backend_id"

/-- The object of a completion. -/
def renderCompletion : MigrationUploadCheckpointCompletion → List Char
  | .alreadyPresent => alreadyPresentText
  | .uploaded backendId => uploadedText ++ renderString backendId ++ closeObject

/-- The object of a record. -/
def renderRecord (record : MigrationUploadCheckpointRecord) : List Char :=
  firstField "version" ++ renderNat record.version.toNat ++
    nextField "storage_provider_id" ++ renderString record.storageProviderId ++
    nextField "repository_namespace" ++ renderString record.repositoryNamespace ++
    nextField "oid" ++ renderString record.oid ++
    nextField "size" ++ renderNat record.size.toNat ++
    nextField "completion" ++ renderCompletion record.completion ++ closeObject

/-- Read a completion. -/
def readCompletion : Reader MigrationUploadCheckpointCompletion := fun text =>
  match literal alreadyPresentText text with
  | some (_, rest) => some (.alreadyPresent, rest)
  | none => do
    let (_, rest) ← literal uploadedText text
    let (backendId, rest) ← readString rest
    let (_, rest) ← literal closeObject rest
    return (.uploaded backendId, rest)

/-- Read a record. -/
def readRecord : Reader MigrationUploadCheckpointRecord := fun text => do
  let (_, rest) ← literal (firstField "version") text
  let (version, rest) ← readNat rest
  let (_, rest) ← literal (nextField "storage_provider_id") rest
  let (storageProviderId, rest) ← readString rest
  let (_, rest) ← literal (nextField "repository_namespace") rest
  let (repositoryNamespace, rest) ← readString rest
  let (_, rest) ← literal (nextField "oid") rest
  let (oid, rest) ← readString rest
  let (_, rest) ← literal (nextField "size") rest
  let (size, rest) ← readNat rest
  let (_, rest) ← literal (nextField "completion") rest
  let (completion, rest) ← readCompletion rest
  let (_, rest) ← literal closeObject rest
  return (⟨.ofNat version, storageProviderId, repositoryNamespace, oid, .ofNat size, completion⟩,
    rest)

theorem literal_alreadyPresent_uploaded (rest : List Char) :
    literal alreadyPresentText (uploadedText ++ rest) = none := rfl

theorem readCompletion_renderCompletion (completion : MigrationUploadCheckpointCompletion)
    (rest : List Char) :
    readCompletion (renderCompletion completion ++ rest) = some (completion, rest) := by
  cases completion with
  | alreadyPresent => simp [readCompletion, renderCompletion]
  | uploaded backendId =>
    simp only [readCompletion, renderCompletion, List.append_assoc,
      literal_alreadyPresent_uploaded, literal_append, readString_renderString,
      Option.bind_eq_bind, Option.bind_some, Option.pure_def]

/-- A number in front of a field reads back. -/
theorem readNat_nextField (n : ℕ) (name : String) (rest : List Char) :
    readNat (renderNat n ++ (nextField name ++ rest)) = some (n, nextField name ++ rest) :=
  readNat_renderNat n (by decide) _

/-- The text of a record reads back in front of any rest. -/
theorem readRecord_renderRecord : Reads renderRecord readRecord := by
  intro record rest
  simp only [readRecord, renderRecord, List.append_assoc, literal_append,
    readString_renderString, readNat_nextField, readCompletion_renderCompletion,
    Option.bind_eq_bind, Option.bind_some, Option.pure_def, UInt32.ofNat_toNat,
    UInt64.ofNat_toNat]

/-- A field name has no control characters. -/
theorem control_free_nextField {name : String} {c : Char} (h : c ∈ nextField name) :
    32 ≤ c.toNat := by
  simp only [nextField, List.mem_cons, List.mem_append, List.not_mem_nil, or_false] at h
  rcases h with (rfl | h) | rfl
  · decide
  · exact control_free_renderString h
  · decide

theorem control_free_renderCompletion {completion : MigrationUploadCheckpointCompletion}
    {c : Char} (h : c ∈ renderCompletion completion) : 32 ≤ c.toNat := by
  cases completion with
  | alreadyPresent => exact Text.forall_of_all (P := fun c => 32 ≤ c.toNat) (by decide) c h
  | uploaded backendId =>
    have hfixed : ∀ d ∈ uploadedText ++ closeObject, 32 ≤ d.toNat :=
      Text.forall_of_all (by decide)
    simp only [renderCompletion, List.mem_append] at h
    rcases h with (h | h) | h
    · exact hfixed c (List.mem_append_left _ h)
    · exact control_free_renderString h
    · exact hfixed c (List.mem_append_right _ h)

/-- The text of a record is one line. -/
theorem control_free_renderRecord {record : MigrationUploadCheckpointRecord} {c : Char}
    (h : c ∈ renderRecord record) : 32 ≤ c.toNat := by
  have hfixed : ∀ d ∈ firstField "version" ++ closeObject, 32 ≤ d.toNat :=
    Text.forall_of_all (by decide)
  simp only [renderRecord, List.mem_append] at h
  rcases h with ((((((((((((h | h) | h) | h) | h) | h) | h) | h) | h) | h) | h) | h) | h)
  · exact hfixed c (List.mem_append_left _ h)
  · exact control_free_renderNat h
  · exact control_free_nextField h
  · exact control_free_renderString h
  · exact control_free_nextField h
  · exact control_free_renderString h
  · exact control_free_nextField h
  · exact control_free_renderString h
  · exact control_free_nextField h
  · exact control_free_renderNat h
  · exact control_free_nextField h
  · exact control_free_renderCompletion h
  · exact hfixed c (List.mem_append_right _ h)

/-- The codec that reads back exactly the text of records. -/
def checkpointText : CheckpointCodec where
  encode := renderRecord
  decode text := (strict renderRecord readRecord text).elim (.error "expected a record") .ok
  encode_ne_nil record h := by simp [renderRecord, firstField] at h
  control_free _ _ h := control_free_renderRecord h
  decode_encode record := by rw [readRecord_renderRecord.strict_render]; rfl
  decode_prefix record text hpre hne :=
    ⟨_, by rw [readRecord_renderRecord.strict_of_prefix hpre hne]; rfl⟩

end LfsCloud
