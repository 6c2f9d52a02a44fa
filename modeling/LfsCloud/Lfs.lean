import LfsCloud.Lib.Text

/-!
# LFS objects

An object is named by a canonical SHA-256 identifier and an exact size. The
identifier carries the proof of its form, so parsing is the only place where a
malformed one is met.
-/

namespace LfsCloud

/-- The part of `LfsObjectError` that concerns object identifiers. -/
inductive LfsObjectError
  | emptyOid
  | unsupportedOidAlgorithm (algorithm : String)
  | invalidSha256Length (actual : ℕ)
  | invalidSha256Hex (index : ℕ)
  deriving DecidableEq, Repr

/-- The message of an identifier error. -/
def LfsObjectError.message : LfsObjectError → String
  | emptyOid => "LFS object identifier is empty"
  | unsupportedOidAlgorithm algorithm =>
    "unsupported LFS object hash algorithm: " ++ algorithm
  | invalidSha256Length actual =>
    "invalid SHA-256 object identifier length: expected 64 hex characters, got " ++ toString actual
  | invalidSha256Hex index =>
    "invalid SHA-256 object identifier: non-hex character at byte " ++ toString index

/-- `SHA256_HEX_LENGTH`. -/
def sha256HexLength : ℕ := 64

/-- A digit or a lowercase letter up to `f`. -/
def isLowerHex (c : Char) : Bool := c.isDigit || ('a' ≤ c && c ≤ 'f')

/-- `is_ascii_hexdigit`. -/
def isHexDigit (c : Char) : Bool := isLowerHex c || ('A' ≤ c && c ≤ 'F')

/-- A validated SHA-256 object identifier without the `sha256:` prefix. -/
structure LfsOid where
  hex : String
  length_eq : hex.toList.length = sha256HexLength
  lower : ∀ c ∈ hex.toList, isLowerHex c = true
  deriving DecidableEq

theorem toNat_lt_of_isHexDigit {c : Char} (h : isHexDigit c = true) : c.toNat < 128 := by
  simp only [isHexDigit, isLowerHex, Char.isDigit, Bool.or_eq_true, Bool.and_eq_true,
    decide_eq_true_eq, Char.le_def, UInt32.le_iff_toNat_le] at h
  have hc : c.toNat = c.val.toNat := rfl
  rcases h with (⟨_, h⟩ | ⟨_, h⟩) | ⟨_, h⟩ <;> exact lt_of_le_of_lt h (by decide)

/-- A digit is one byte, and lowercase after conversion. -/
theorem isHexDigit_spec {c : Char} (h : isHexDigit c = true) :
    c.utf8Size = 1 ∧ isLowerHex c.toLower = true :=
  Text.forall_of_toNat_lt
    (P := fun c => isHexDigit c = true → c.utf8Size = 1 ∧ isLowerHex c.toLower = true)
    (by decide) (toNat_lt_of_isHexDigit h) h

/-- A lowercase digit is no whitespace, no colon, and lowercase already. -/
theorem isLowerHex_spec {c : Char} (h : isLowerHex c = true) :
    isHexDigit c = true ∧ Text.isWhitespace c = false ∧ c ≠ ':' ∧ c.toLower = c := by
  have hascii : c.toNat < 128 := toNat_lt_of_isHexDigit (by simp [isHexDigit, h])
  exact Text.forall_of_toNat_lt
    (P := fun c => isLowerHex c = true →
      isHexDigit c = true ∧ Text.isWhitespace c = false ∧ c ≠ ':' ∧ c.toLower = c)
    (by decide) hascii h

/-- An identifier from hexadecimal digits in either case. -/
def LfsOid.ofHexDigits (hex : List Char) (hlength : hex.length = sha256HexLength)
    (hdigits : ∀ c ∈ hex, isHexDigit c = true) : LfsOid where
  hex := String.ofList (hex.map Char.toLower)
  length_eq := by simpa using hlength
  lower c hc := by
    rw [String.toList_ofList] at hc
    obtain ⟨d, hd, rfl⟩ := List.mem_map.mp hc
    exact (isHexDigit_spec (hdigits d hd)).2

/-- The identifier of zeros. -/
def LfsOid.zero : LfsOid :=
  .ofHexDigits (List.replicate sha256HexLength '0') List.length_replicate
    fun _ hc => (List.eq_of_mem_replicate hc).symm ▸ rfl

/-- `from_sha256_hex`: the length in bytes, then the digits, then lowercase. -/
def LfsOid.fromSha256Hex (hex : List Char) : Except LfsObjectError LfsOid :=
  if hlength : Text.byteLength hex = sha256HexLength then
    if hdigits : hex.all isHexDigit = true then
      have hdigits := List.all_eq_true.mp hdigits
      .ok (.ofHexDigits hex
        ((Text.byteLength_eq_length fun c hc => (isHexDigit_spec (hdigits c hc)).1).symm.trans
          hlength) hdigits)
    else .error (.invalidSha256Hex (hex.findIdx fun c => !isHexDigit c))
  else .error (.invalidSha256Length (Text.byteLength hex))

/-- `LfsOid::new`: raw hexadecimal digits, or digits after `sha256:`. -/
def LfsOid.new (value : String) : Except LfsObjectError LfsOid :=
  let value := Text.trim value.toList
  if value = [] then .error .emptyOid
  else
    match Text.splitOnce ':' value with
    | some (algorithm, hex) =>
      if algorithm = "sha256".toList then fromSha256Hex hex
      else .error (.unsupportedOidAlgorithm (String.ofList algorithm))
    | none => fromSha256Hex value

/-- The digits of an identifier parse back to it. -/
@[simp] theorem LfsOid.new_hex (oid : LfsOid) : LfsOid.new oid.hex = .ok oid := by
  have htrim : Text.trim oid.hex.toList = oid.hex.toList :=
    Text.trim_eq_self fun c hc => (isLowerHex_spec (oid.lower c hc)).2.1
  have hne : oid.hex.toList ≠ [] := by
    intro hnil
    have := oid.length_eq
    rw [hnil] at this
    cases this
  have hsplit : Text.splitOnce ':' oid.hex.toList = none :=
    Text.splitOnce_of_notMem fun hc => (isLowerHex_spec (oid.lower _ hc)).2.2.1 rfl
  have hdigits : ∀ c ∈ oid.hex.toList, isHexDigit c = true :=
    fun c hc => (isLowerHex_spec (oid.lower c hc)).1
  have hlength : Text.byteLength oid.hex.toList = sha256HexLength := by
    rw [Text.byteLength_eq_length fun c hc => (isHexDigit_spec (hdigits c hc)).1]
    exact oid.length_eq
  have hlower : oid.hex.toList.map Char.toLower = oid.hex.toList := by
    conv_rhs => rw [← List.map_id oid.hex.toList]
    exact List.map_congr_left fun c hc => (isLowerHex_spec (oid.lower c hc)).2.2.2
  unfold LfsOid.new
  rw [htrim]
  simp only [hne, if_false, hsplit]
  unfold LfsOid.fromSha256Hex
  rw [dif_pos hlength, dif_pos (List.all_eq_true.mpr hdigits)]
  obtain ⟨hex, _, _⟩ := oid
  simp only [LfsOid.ofHexDigits, Except.ok.injEq, LfsOid.mk.injEq] at hlower ⊢
  rw [hlower, String.ofList_toList]

/-- Provider-independent identity of a Git LFS object. -/
structure LfsObject where
  oid : LfsOid
  size : UInt64
  deriving DecidableEq

end LfsCloud
