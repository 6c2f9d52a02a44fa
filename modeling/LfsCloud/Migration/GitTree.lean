import LfsCloud.Lib.Records

/-!
# Raw Git trees

A tree is a list of entries: a mode, a space, a name, a zero byte, and the hash of the object. The
parser of trees accepts what is written so, and nothing else.
-/

namespace LfsCloud

/-! ## The parser -/

/-- `RawGitTreeEntry`. -/
structure RawGitTreeEntry where
  mode : List UInt8
  objectId : String
  name : List UInt8
  deriving DecidableEq

/-- `MigrationError::ExternalCommandOutput`. -/
structure GitCommandOutputError where
  command : String
  message : String
  deriving DecidableEq

/-- A hexadecimal digit. -/
def hexDigit (n : ℕ) : Char := if n < 10 then Char.ofNat (48 + n) else Char.ofNat (87 + n)

/-- A byte as two hexadecimal digits. -/
def hexByte (byte : UInt8) : List Char := [hexDigit (byte.toNat / 16), hexDigit (byte.toNat % 16)]

/-- The object ID of a hash. -/
def hexText (bytes : List UInt8) : String := String.ofList (bytes.flatMap hexByte)

/-- The first entry of a tree whose hashes have a number of bytes, and what is behind it. -/
def readRawGitTreeEntry (objectIdBytes : ℕ) (contents : List UInt8) :
    Option (RawGitTreeEntry × List UInt8) := do
  let (mode, afterMode) ← Records.cut 32 contents
  let (name, afterName) ← Records.cut 0 afterMode
  if afterName.length < objectIdBytes then none
  else if mode = [] ∨ name = [] then none
  else some (⟨mode, hexText (afterName.take objectIdBytes), name⟩, afterName.drop objectIdBytes)

theorem readRawGitTreeEntry_eq_some {objectIdBytes : ℕ} {contents rest : List UInt8}
    {entry : RawGitTreeEntry}
    (h : readRawGitTreeEntry objectIdBytes contents = some (entry, rest)) :
    ∃ hash, hash.length = objectIdBytes ∧ entry.objectId = hexText hash ∧
      contents = entry.mode ++ 32 :: (entry.name ++ 0 :: (hash ++ rest)) ∧
      32 ∉ entry.mode ∧ entry.mode ≠ [] ∧ 0 ∉ entry.name ∧ entry.name ≠ [] := by
  obtain ⟨⟨mode, afterMode⟩, hmode, h⟩ := Option.bind_eq_some_iff.mp h
  obtain ⟨⟨name, afterName⟩, hname, h⟩ := Option.bind_eq_some_iff.mp h
  dsimp only at h hname
  split_ifs at h with hlength hempty
  obtain ⟨rfl, rfl⟩ := Prod.mk.inj (Option.some.inj h)
  obtain ⟨rfl, hspace⟩ := Records.cut_eq_some.mp hmode
  obtain ⟨rfl, hnul⟩ := Records.cut_eq_some.mp hname
  rw [not_or] at hempty
  refine ⟨afterName.take objectIdBytes, ?_, rfl, ?_, hspace, hempty.1, hnul, hempty.2⟩
  · rw [List.length_take]
    omega
  · rw [List.take_append_drop]

/-- The entries of a tree are read one after the other. -/
def rawGitTreeReader (objectIdBytes : ℕ) : Records.RecordReader RawGitTreeEntry UInt8 where
  read := readRawGitTreeEntry objectIdBytes
  shorter h := by
    obtain ⟨hash, _, _, rfl, _⟩ := readRawGitTreeEntry_eq_some h
    simp only [List.length_append, List.length_cons]
    omega

/-- `parse_raw_git_tree`. -/
def parseRawGitTree (contents : List UInt8) (treeId commandName : String) :
    Except GitCommandOutputError (List RawGitTreeEntry) :=
  let objectIdBytes := treeId.utf8ByteSize / 2
  if ¬(objectIdBytes = 20 ∨ objectIdBytes = 32) then
    .error ⟨commandName, "git returned an invalid tree object ID"⟩
  else
    match (rawGitTreeReader objectIdBytes).readAll contents with
    | none => .error ⟨commandName, "git returned malformed tree object data"⟩
    | some entries => .ok entries

/-! ## The encoding of Git -/

/-- An entry of a tree whose hashes have a number of bytes. -/
structure GitTreeEntry (size : ℕ) where
  mode : List UInt8
  name : List UInt8
  hash : List UInt8
  mode_ne_nil : mode ≠ []
  mode_space : 32 ∉ mode
  name_ne_nil : name ≠ []
  name_nul : 0 ∉ name
  hash_length : hash.length = size

variable {size : ℕ}

/-- What Git writes for an entry. -/
def GitTreeEntry.encode (entry : GitTreeEntry size) : List UInt8 :=
  entry.mode ++ 32 :: (entry.name ++ 0 :: entry.hash)

/-- What Git writes for a tree. -/
def encodeGitTree (entries : List (GitTreeEntry size)) : List UInt8 :=
  entries.flatMap GitTreeEntry.encode

/-- The entry as it is returned. -/
def GitTreeEntry.raw (entry : GitTreeEntry size) : RawGitTreeEntry where
  mode := entry.mode
  objectId := hexText entry.hash
  name := entry.name

/-! ## Object IDs -/

theorem hexByte_injective : Function.Injective hexByte := by
  have hdigit : ∀ m < 16, ∀ n < 16, hexDigit m = hexDigit n → m = n := by
    decide
  intro a b h
  unfold hexByte at h
  simp only [List.cons.injEq, and_true] at h
  have ha := a.toNat_lt
  have hb := b.toNat_lt
  have hhigh := hdigit (a.toNat / 16) (by omega) (b.toNat / 16) (by omega) h.1
  have hlow := hdigit (a.toNat % 16) (by omega) (b.toNat % 16) (by omega) h.2
  exact UInt8.toNat_inj.mp (by omega)

/-- Different hashes have different object IDs. -/
theorem hexText_injective : Function.Injective hexText := by
  intro a b h
  have hchars : a.flatMap hexByte = b.flatMap hexByte := by
    simpa [hexText] using congrArg String.toList h
  clear h
  induction a generalizing b with
  | nil =>
    cases b with
    | nil => rfl
    | cons y b => cases hchars
  | cons x a ih =>
    cases b with
    | nil => cases hchars
    | cons y b =>
      have hparts : hexByte x ++ a.flatMap hexByte = hexByte y ++ b.flatMap hexByte := hchars
      obtain ⟨hbyte, hrest⟩ := List.append_inj hparts rfl
      rw [hexByte_injective hbyte, ih hrest]

/-- Different entries are returned as different ones. -/
theorem GitTreeEntry.raw_injective :
    Function.Injective (GitTreeEntry.raw : GitTreeEntry size → RawGitTreeEntry) := by
  intro a b h
  obtain ⟨mode, name, hash⟩ := a
  obtain ⟨mode', name', hash'⟩ := b
  obtain ⟨rfl, hid, rfl⟩ := RawGitTreeEntry.mk.inj h
  obtain rfl := hexText_injective hid
  rfl

/-! ## Exactness -/

/-- The reader of entries inverts their encoding. -/
theorem rawGitTreeReader_inverts :
    (rawGitTreeReader size).Inverts (GitTreeEntry.raw : GitTreeEntry size → RawGitTreeEntry)
      GitTreeEntry.encode := by
  constructor
  · intro entry rest
    have hmode : Records.cut 32 (entry.encode ++ rest) =
        some (entry.mode, entry.name ++ 0 :: (entry.hash ++ rest)) := by
      rw [Records.cut_eq_some]
      refine ⟨?_, entry.mode_space⟩
      simp only [GitTreeEntry.encode, List.append_assoc, List.cons_append]
    have hname : Records.cut 0 (entry.name ++ 0 :: (entry.hash ++ rest)) =
        some (entry.name, entry.hash ++ rest) :=
      Records.cut_eq_some.mpr ⟨rfl, entry.name_nul⟩
    have hlength : ¬(entry.hash ++ rest).length < size := by
      rw [List.length_append, entry.hash_length]
      omega
    change readRawGitTreeEntry size (entry.encode ++ rest) = _
    unfold readRawGitTreeEntry
    rw [hmode, Option.bind_eq_bind, Option.bind_some]
    dsimp only
    rw [hname, Option.bind_some]
    dsimp only
    rw [if_neg hlength, if_neg (not_or.mpr ⟨entry.mode_ne_nil, entry.name_ne_nil⟩),
      List.take_left' entry.hash_length, List.drop_left' entry.hash_length]
    rfl
  · intro contents entry rest h
    obtain ⟨hash, hlength, hid, hcontents, hspace, hmode, hnul, hname⟩ :=
      readRawGitTreeEntry_eq_some h
    refine ⟨⟨entry.mode, entry.name, hash, hmode, hspace, hname, hnul, hlength⟩, ?_, ?_⟩
    · obtain ⟨mode, objectId, name⟩ := entry
      obtain rfl : objectId = hexText hash := hid
      rfl
    · rw [hcontents]
      simp only [GitTreeEntry.encode, List.append_assoc, List.cons_append]

/-- A tree whose ID has the length of the hashes is parsed exactly when it is the encoding of a list
of entries, and what is returned is this list. -/
theorem parse_raw_git_tree_exact {treeId : String} (commandName : String)
    (hid : treeId.utf8ByteSize / 2 = size) (hsize : size = 20 ∨ size = 32) :
    (∀ entries : List (GitTreeEntry size),
      parseRawGitTree (encodeGitTree entries) treeId commandName =
        .ok (entries.map GitTreeEntry.raw)) ∧
    (∀ contents, (∀ entries : List (GitTreeEntry size), contents ≠ encodeGitTree entries) →
      parseRawGitTree contents treeId commandName =
        .error ⟨commandName, "git returned malformed tree object data"⟩) ∧
    (∀ contents raws, parseRawGitTree contents treeId commandName = .ok raws →
      ∃ entries : List (GitTreeEntry size), contents = encodeGitTree entries ∧
        raws = entries.map GitTreeEntry.raw) ∧
    Function.Injective (GitTreeEntry.raw : GitTreeEntry size → RawGitTreeEntry) := by
  have hparse : ∀ contents, parseRawGitTree contents treeId commandName =
      match (rawGitTreeReader size).readAll contents with
      | none => .error ⟨commandName, "git returned malformed tree object data"⟩
      | some entries => .ok entries := by
    intro contents
    unfold parseRawGitTree
    rw [hid]
    exact if_neg (not_not.mpr hsize)
  have hread : ∀ contents raws, (rawGitTreeReader size).readAll contents = some raws ↔
      ∃ entries : List (GitTreeEntry size), contents = encodeGitTree entries ∧
        raws = entries.map GitTreeEntry.raw :=
    fun _ _ => rawGitTreeReader_inverts.readAll_eq_some
  have hexact : ∀ contents raws, parseRawGitTree contents treeId commandName = .ok raws →
      ∃ entries : List (GitTreeEntry size), contents = encodeGitTree entries ∧
        raws = entries.map GitTreeEntry.raw := by
    intro contents raws h
    rw [hparse] at h
    cases hall : (rawGitTreeReader size).readAll contents with
    | none =>
      rw [hall] at h
      cases h
    | some found =>
      rw [hall] at h
      obtain rfl := Except.ok.inj h
      exact (hread contents found).mp hall
  refine ⟨fun entries => ?_, fun contents hnone => ?_, hexact, GitTreeEntry.raw_injective⟩
  · rw [hparse, (hread _ _).mpr ⟨entries, rfl, rfl⟩]
  · rw [hparse]
    cases hall : (rawGitTreeReader size).readAll contents with
    | none => rfl
    | some found =>
      obtain ⟨entries, hcontents, _⟩ := (hread contents found).mp hall
      exact absurd hcontents (hnone entries)

/-- A tree of one entry. -/
theorem parse_raw_git_tree_exact_one :
    parseRawGitTree ([49, 32, 97, 0] ++ List.replicate 20 7)
        "0123456789012345678901234567890123456789" "git" =
      .ok [⟨[49], hexText (List.replicate 20 7), [97]⟩] := by
  have hexact := (parse_raw_git_tree_exact "git" (by decide) (.inl rfl) :
    (∀ entries : List (GitTreeEntry 20), parseRawGitTree (encodeGitTree entries)
      "0123456789012345678901234567890123456789" "git" = .ok (entries.map GitTreeEntry.raw)) ∧ _)
  exact hexact.1 [⟨[49], [97], List.replicate 20 7, by decide, by decide, by decide, by decide,
    List.length_replicate⟩]

end LfsCloud
