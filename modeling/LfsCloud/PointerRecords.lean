import LfsCloud.Pointer

/-!
# The records of a pointer

Every pointer that is parsed or built has valid extension records: valid keys, one record for
each priority and identifiers for values.
-/

namespace LfsCloud

/-- The digits of an identifier are canonical. -/
@[simp] theorem LfsOid.fromCanonicalSha256Hex_hex (oid : LfsOid) :
    LfsOid.fromCanonicalSha256Hex oid.hex.toList = .ok oid := by
  have hone : ∀ c ∈ oid.hex.toList, c.utf8Size = 1 :=
    fun c hc => (isHexDigit_spec (isLowerHex_spec (oid.lower c hc)).1).1
  have hlength : Text.byteLength oid.hex.toList = sha256HexLength := by
    rw [Text.byteLength_eq_length hone, oid.length_eq]
  have hlower : oid.hex.toList.all isLowerHex = true := List.all_eq_true.mpr oid.lower
  unfold LfsOid.fromCanonicalSha256Hex
  rw [dif_pos hlength, dif_pos hlower]
  simp only [String.ofList_toList]

theorem LfsOid.toList_asPointerOid (oid : LfsOid) :
    oid.asPointerOid.toList = sha256Prefix.toList ++ oid.hex.toList := String.toList_append

/-- A character that ends a line or a key. -/
def isSeparator (c : Char) : Bool := c = ' ' || c = '\n' || c = '\r'

/-- An identifier in a pointer is plain text. -/
theorem LfsOid.asPointerOid_plain (oid : LfsOid) :
    ∀ c ∈ oid.asPointerOid.toList, isSeparator c = false := by
  intro c hc
  rw [oid.toList_asPointerOid, List.mem_append] at hc
  rcases hc with hc | hc
  · have hfront : ∀ d ∈ sha256Prefix.toList, isSeparator d = false :=
      Text.forall_of_all (by decide)
    exact hfront c hc
  · have hwhite := (isLowerHex_spec (oid.lower c hc)).2.1
    have hspace : Text.isWhitespace ' ' = true := by decide
    have hnewline : Text.isWhitespace '\n' = true := by decide
    have hreturn : Text.isWhitespace '\r' = true := by decide
    unfold isSeparator
    by_contra hsep
    simp only [Bool.not_eq_false, Bool.or_eq_true, decide_eq_true_eq] at hsep
    rcases hsep with (rfl | rfl) | rfl
    · rw [hspace] at hwhite; cases hwhite
    · rw [hnewline] at hwhite; cases hwhite
    · rw [hreturn] at hwhite; cases hwhite

/-- The digits of a number are plain text. -/
theorem toString_u64_plain (n : UInt64) : ∀ c ∈ (toString n).toList, isSeparator c = false := by
  intro c hc
  have hlist : (toString n).toList = Nat.toDigits 10 n.toNat := Nat.toList_repr
  rw [hlist] at hc
  have hdigit : c.isDigit = true := Nat.isDigit_of_mem_toDigits (by decide) (by decide) hc
  unfold isSeparator
  by_contra hsep
  simp only [Bool.not_eq_false, Bool.or_eq_true, decide_eq_true_eq] at hsep
  rcases hsep with (rfl | rfl) | rfl <;> cases hdigit

namespace LfsPointer

/-- A valid extension record: its key has a priority, and its value is an identifier. -/
structure ValidRecord (key value : String) : Prop where
  validKey : isValidExtensionKey key = true
  canonicalValue : ∃ oid : LfsOid, value = oid.asPointerOid

/-- Extension records as a pointer file may have them. -/
structure ValidExtensions (extensions : SortedMap String String) : Prop where
  records : ∀ entry ∈ extensions.entries, ValidRecord entry.1 entry.2
  /-- Records with one priority are one record. -/
  priorities : ∀ a ∈ extensions.entries, ∀ b ∈ extensions.entries,
    extensionPriority a.1.toList = extensionPriority b.1.toList → a.1 = b.1

/-- What holds of every pointer that is parsed or built. -/
structure WellFormed (pointer : LfsPointer) : Prop where
  version_eq : pointer.version = lfsPointerVersion
  extensions_valid : ValidExtensions pointer.extensions

section Records

variable {extensions extensions' : SortedMap String String} {key value : String}

theorem ValidExtensions.empty : ValidExtensions .empty :=
  ⟨fun _ h => absurd h List.not_mem_nil, fun _ h => absurd h List.not_mem_nil⟩

/-- What `extension_priority` asks of a key. -/
theorem extensionPriority_eq_some {key : List Char} {priority : ℕ}
    (h : extensionPriority key = some priority) :
    ∃ digit name, key = "ext-".toList ++ digit ++ '-' :: name ∧
      (digit.length = 1 ∧ ∀ d ∈ digit, d.isDigit = true) ∧
      name.any isAsciiWhitespace = false := by
  unfold extensionPriority at h
  obtain ⟨extensionName, hfront, h⟩ := Option.bind_eq_some_iff.mp h
  obtain ⟨⟨digit, name⟩, hsplit, hdigits⟩ := Option.bind_eq_some_iff.mp h
  rw [List.isPrefixOf?_eq_some_iff_append_eq] at hfront
  obtain ⟨rfl, _⟩ := Text.splitOnce_eq_some hsplit
  dsimp only at hdigits
  split at hdigits
  next => cases hdigits
  next hform =>
    simp only [not_or, not_not, Bool.not_eq_true] at hform
    obtain ⟨hlength, _, hname⟩ := hform
    obtain ⟨c, hhead, hvalue⟩ := Option.bind_eq_some_iff.mp hdigits
    obtain ⟨v, hsub, hle⟩ := Option.bind_eq_some_iff.mp hvalue
    obtain ⟨rest, rfl⟩ := List.head?_eq_some_iff.mp hhead
    have hpos := c.utf8Size_pos
    have hrest : rest = [] := by
      cases rest with
      | nil => rfl
      | cons e rest =>
        have := e.utf8Size_pos
        simp only [Text.byteLength, List.map_cons, List.sum_cons] at hlength
        omega
    subst hrest
    have hdigit : c.isDigit = true := by
      rw [checkedSub_eq_some] at hsub
      split at hle
      next hle =>
        have hzero : '0'.toNat = 48 := rfl
        have hlow : 48 ≤ c.val.toNat := by
          have := hsub.1
          rwa [hzero] at this
        have hhigh : c.val.toNat ≤ 57 := by
          have heq := hsub.2
          have hc : c.toNat = c.val.toNat := rfl
          omega
        simp only [Char.isDigit, Bool.and_eq_true, decide_eq_true_eq]
        exact ⟨hlow, hhigh⟩
      next => cases hle
    refine ⟨[c], name, ?_, ⟨rfl, ?_⟩, hname⟩
    · rw [← hfront, List.append_assoc]
    · simpa using hdigit

/-- The characters of a valid key are plain, and it stands before `oid`. -/
theorem validKey_spec (hkey : isValidExtensionKey key = true) :
    (∀ c ∈ key.toList, isSeparator c = false) ∧ 'e' ∈ key.toList ∧ key < "oid" := by
  obtain ⟨priority, hpriority⟩ := Option.isSome_iff_exists.mp hkey
  obtain ⟨digit, name, hform, ⟨_, hdigit⟩, hname⟩ := extensionPriority_eq_some hpriority
  have hlist : key.toList = 'e' :: 'x' :: 't' :: '-' :: (digit ++ '-' :: name) := by
    rw [hform]
    rfl
  refine ⟨?_, by rw [hlist]; exact List.mem_cons_self, ?_⟩
  · intro c hc
    rw [hform, List.append_assoc, List.mem_append, List.mem_append, List.mem_cons] at hc
    rcases hc with hc | hc | rfl | hc
    · have hplain : ∀ d ∈ "ext-".toList, isSeparator d = false :=
        Text.forall_of_all (by decide)
      exact hplain c hc
    · have := hdigit c hc
      unfold isSeparator
      by_contra hsep
      simp only [Bool.not_eq_false, Bool.or_eq_true, decide_eq_true_eq] at hsep
      rcases hsep with (rfl | rfl) | rfl <;> cases this
    · decide
    · have hc : isAsciiWhitespace c = false := by
        have := List.any_eq_false.mp hname c hc
        simpa using this
      unfold isSeparator
      by_contra hsep
      simp only [Bool.not_eq_false, Bool.or_eq_true, decide_eq_true_eq] at hsep
      rcases hsep with (rfl | rfl) | rfl <;> cases hc
  · rw [String.lt_iff_toList_lt, hlist]
    exact List.Lex.rel (by decide)

/-- The canonical value of a record is the value itself. -/
theorem normalizeExtensionValue_asPointerOid (oid : LfsOid) :
    normalizeExtensionValue key oid.asPointerOid = .ok oid.asPointerOid := by
  have hplain := oid.asPointerOid_plain
  have hends : ¬('\r' ∈ oid.asPointerOid.toList ∨ '\n' ∈ oid.asPointerOid.toList) := by
    rintro (h | h) <;> cases hplain _ h
  have hfront : sha256Prefix.toList.isPrefixOf? oid.asPointerOid.toList =
      some oid.hex.toList :=
    List.isPrefixOf?_eq_some_iff_append_eq.mpr oid.toList_asPointerOid.symm
  unfold normalizeExtensionValue
  rw [if_neg hends, hfront]
  simp

theorem normalizeExtensionValue_eq_ok {value' : String}
    (h : normalizeExtensionValue key value = .ok value') :
    ∃ oid : LfsOid, value' = oid.asPointerOid := by
  unfold normalizeExtensionValue at h
  split at h
  · cases h
  · split at h
    · cases h
    · split at h
      · cases h
      · next oid _ =>
        cases h
        exact ⟨oid, rfl⟩

/-- A failed insertion leaves the records as they are. -/
theorem insertExtensionRecord_error {error : LfsPointerError}
    (h : insertExtensionRecord extensions key value = (.error error, extensions')) :
    extensions' = extensions := by
  unfold insertExtensionRecord at h
  split at h
  · cases h
    rfl
  · split at h
    · cases h
      rfl
    · cases h

/-- A record is inserted where no other key has its priority. -/
theorem insertExtensionRecord_eq_ok :
    insertExtensionRecord extensions key value = (.ok (), extensions') ↔
      isValidExtensionKey key = true ∧
      (∀ entry ∈ extensions.entries,
        extensionPriority entry.1.toList = extensionPriority key.toList → entry.1 = key) ∧
      extensions' = extensions.insert key value := by
  unfold insertExtensionRecord isValidExtensionKey
  cases hpriority : extensionPriority key.toList with
  | none => simp
  | some priority =>
    have hany : (extensions.keys.any fun existingKey =>
        existingKey ≠ key && extensionPriority existingKey.toList = some priority) = false ↔
        ∀ entry ∈ extensions.entries,
          extensionPriority entry.1.toList = some priority → entry.1 = key := by
      simp only [SortedMap.keys, List.any_map, List.any_eq_false, Function.comp_apply,
        Bool.and_eq_true, decide_eq_true_eq, not_and, ne_eq]
      constructor
      · intro h entry hmem hsame
        by_contra hne
        exact h entry hmem hne hsame
      · intro h entry hmem hne hsame
        exact hne (h entry hmem hsame)
    dsimp only
    rw [Option.isSome_some, ← hany]
    cases extensions.keys.any fun existingKey =>
        existingKey ≠ key && extensionPriority existingKey.toList = some priority with
    | true => simp
    | false => simp [eq_comm]

theorem ValidExtensions.insert (hvalid : ValidExtensions extensions)
    (hrecord : ValidRecord key value)
    (hfree : ∀ entry ∈ extensions.entries,
      extensionPriority entry.1.toList = extensionPriority key.toList → entry.1 = key) :
    ValidExtensions (extensions.insert key value) := by
  constructor
  · intro entry hentry
    rcases SortedMap.mem_insert.mp hentry with rfl | ⟨hentry, _⟩
    · exact hrecord
    · exact hvalid.records entry hentry
  · intro a ha b hb hsame
    rcases SortedMap.mem_insert.mp ha with rfl | ⟨ha, _⟩ <;>
      rcases SortedMap.mem_insert.mp hb with rfl | ⟨hb, _⟩
    · rfl
    · exact (hfree b hb hsame.symm).symm
    · exact hfree a ha hsame
    · exact hvalid.priorities a ha b hb hsame

end Records

section Obtained

variable {pointer : LfsPointer} {key value : String}

/-- Inserting an extension keeps a pointer well formed. -/
theorem WellFormed.insertExtension (h : WellFormed pointer) :
    WellFormed (pointer.insertExtension key value).2 := by
  unfold LfsPointer.insertExtension validateExtensionKey
  split
  next => exact h
  next hkey =>
    split
    next => exact h
    next canonical hnormal =>
      cases hrecord : insertExtensionRecord pointer.extensions key canonical with
      | mk result extensions' =>
        cases result with
        | error error =>
          rw [insertExtensionRecord_error hrecord]
          exact h
        | ok _ =>
          obtain ⟨hvalidKey, hfree, rfl⟩ := insertExtensionRecord_eq_ok.mp hrecord
          have hvalue := normalizeExtensionValue_eq_ok hnormal
          exact ⟨h.version_eq, h.extensions_valid.insert ⟨hvalidKey, hvalue⟩ hfree⟩

/-- A failed insertion leaves the pointer as it is. -/
theorem insertExtension_error {error : LfsPointerError}
    (h : (pointer.insertExtension key value).1 = .error error) :
    (pointer.insertExtension key value).2 = pointer := by
  unfold LfsPointer.insertExtension at h ⊢
  split
  next => rfl
  next hkey =>
    rw [hkey] at h
    dsimp only at h
    split
    next => rfl
    next canonical hnormal =>
      rw [hnormal] at h
      dsimp only at h
      cases hrecord : insertExtensionRecord pointer.extensions key canonical with
      | mk result extensions' =>
        rw [hrecord] at h
        cases h
        rw [insertExtensionRecord_error hrecord]

/-- A line leaves valid records. -/
theorem parseLine_valid {parsed parsed' : ParsedLines} {line : List Char}
    (hvalid : ValidExtensions parsed.extensions) (h : parseLine parsed line = .ok parsed') :
    ValidExtensions parsed'.extensions := by
  unfold parseLine at h
  split at h
  · cases h
  dsimp only at h
  split at h
  · cases h
  split at h
  · split at h <;> cases h
    exact hvalid
  split at h
  · split at h <;> cases h
    exact hvalid
  split at h
  · split at h
    · cases h
    next canonical hnormal =>
      split at h
      · cases h
      next extensions' hrecord =>
        cases h
        obtain ⟨hvalidKey, hfree, rfl⟩ := insertExtensionRecord_eq_ok.mp hrecord
        exact hvalid.insert ⟨hvalidKey, normalizeExtensionValue_eq_ok hnormal⟩ hfree
  · cases h

theorem foldlM_parseLine_valid {lines : List (List Char)} {parsed parsed' : ParsedLines}
    (hvalid : ValidExtensions parsed.extensions)
    (h : lines.foldlM parseLine parsed = .ok parsed') : ValidExtensions parsed'.extensions := by
  induction lines generalizing parsed with
  | nil =>
    cases h
    exact hvalid
  | cons line lines ih =>
    rw [List.foldlM_cons] at h
    cases hline : parseLine parsed line with
    | error error =>
      rw [hline] at h
      cases h
    | ok next =>
      rw [hline] at h
      exact ih (parseLine_valid hvalid hline) h

/-- A parsed pointer is well formed. -/
theorem wellFormed_of_parse {contents : String} (h : parse contents = .ok pointer) :
    WellFormed pointer := by
  unfold parse at h
  dsimp only at h
  split at h
  · cases h
  split at h
  · cases h
    exact ⟨rfl, .empty⟩
  split at h
  · cases h
  split at h
  · cases h
  split at h
  · cases h
  next versionLine lines _ _ version _ _ =>
    cases hlines : lines.foldlM parseLine ⟨none, .empty, none, none⟩ with
    | error error =>
      rw [hlines] at h
      cases h
    | ok parsed =>
      rw [hlines] at h
      change ofParsedLines parsed = .ok pointer at h
      have hvalid := foldlM_parseLine_valid .empty hlines
      unfold ofParsedLines at h
      split at h <;> cases h
      exact ⟨rfl, hvalid⟩

/-- The pointers that are parsed, or built by insertions into a new one. -/
inductive Obtained : LfsPointer → Prop
  | parse {contents : String} {pointer : LfsPointer} :
      LfsPointer.parse contents = .ok pointer → Obtained pointer
  | new (object : LfsObject) : Obtained (.new object)
  | insert {pointer : LfsPointer} (key value : String) :
      Obtained pointer → Obtained (pointer.insertExtension key value).2

theorem Obtained.wellFormed (h : Obtained pointer) : WellFormed pointer := by
  induction h with
  | parse hparse => exact wellFormed_of_parse hparse
  | new object => exact ⟨rfl, .empty⟩
  | insert key value _ ih => exact ih.insertExtension

end Obtained

end LfsPointer

end LfsCloud
