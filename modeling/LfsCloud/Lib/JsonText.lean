import LfsCloud.Lib.Reader
import LfsCloud.Lib.Text

/-!
# Compact JSON text

Strings and natural numbers as a compact JSON serializer writes them: quotes,
backslashes and control characters are escaped, everything else stands for
itself, and numbers are decimal without leading zeros. The readers here take back
what the renderers write.
-/

namespace JsonText

/-- The double quote. -/
def quote : Char := Char.ofNat 34

/-- The backslash. -/
def backslash : Char := Char.ofNat 92

/-- The characters with a two-character escape, with the second character of it. -/
def shortEscapes : List (Char × Char) :=
  [(quote, quote), (backslash, backslash), (Char.ofNat 8, 'b'), (Char.ofNat 12, 'f'),
    (Char.ofNat 10, 'n'), (Char.ofNat 13, 'r'), (Char.ofNat 9, 't')]

/-- A character inside a string. -/
def escapeChar (c : Char) : List Char :=
  match shortEscapes.lookup c with
  | some e => [backslash, e]
  | none =>
    if c.toNat < 32 then
      [backslash, 'u', '0', '0', Nat.digitChar (c.toNat / 16), Nat.digitChar (c.toNat % 16)]
    else [c]

/-- A string with its quotes. -/
def renderString (s : String) : List Char := quote :: (s.toList.flatMap escapeChar ++ [quote])

/-- The value of a hexadecimal digit. -/
def hexValue (c : Char) : ℕ := if c.isDigit then c.toNat - 48 else c.toNat - 87

/-- The character of a two-character escape. -/
def unescape (e : Char) : Option Char := (shortEscapes.find? (·.2 = e)).map Prod.fst

/-- The rest of a string after its opening quote. -/
def readChars : List Char → Option (List Char × List Char)
  | [] => none
  | c :: rest =>
    if c = quote then some ([], rest)
    else if c = backslash then
      match rest with
      | 'u' :: '0' :: '0' :: h :: l :: rest =>
        (readChars rest).map fun (cs, rest) =>
          (Char.ofNat (16 * hexValue h + hexValue l) :: cs, rest)
      | e :: rest =>
        (unescape e).bind fun c => (readChars rest).map fun (cs, rest) => (c :: cs, rest)
      | [] => none
    else (readChars rest).map fun (cs, rest) => (c :: cs, rest)

/-- A string with its quotes. -/
def readString : Reader String
  | [] => none
  | c :: rest =>
    if c = quote then (readChars rest).map fun (cs, rest) => (String.ofList cs, rest) else none

/-- A character that needs no escape stands for itself. -/
theorem escapeChar_of_plain {c : Char} (hcontrol : 32 ≤ c.toNat) (hquote : c ≠ quote)
    (hbackslash : c ≠ backslash) : escapeChar c = [c] := by
  have hne : ∀ n, (Char.ofNat n).toNat < 32 → (c != Char.ofNat n) = true := by
    rintro n hn
    rw [bne_iff_ne]
    rintro rfl
    omega
  have hlookup : shortEscapes.lookup c = none := by
    rw [List.lookup_eq_none_iff]
    intro pair hpair
    simp only [shortEscapes, List.mem_cons, List.not_mem_nil, or_false] at hpair
    rcases hpair with rfl | rfl | rfl | rfl | rfl | rfl | rfl
    · simpa using hquote
    · simpa using hbackslash
    · exact hne 8 (by decide)
    · exact hne 12 (by decide)
    · exact hne 10 (by decide)
    · exact hne 13 (by decide)
    · exact hne 9 (by decide)
  simp [escapeChar, hlookup, Nat.not_lt.mpr hcontrol]

/-- The escape of every character reads back as that character. -/
theorem readChars_escapeChar (c : Char) (rest : List Char) :
    readChars (escapeChar c ++ rest) =
      (readChars rest).map fun (cs, rest) => (c :: cs, rest) := by
  by_cases hcontrol : c.toNat < 32
  · refine Text.forall_of_toNat_lt (P := fun c => readChars (escapeChar c ++ rest) =
      (readChars rest).map fun (cs, rest) => (c :: cs, rest)) (fun n hn => ?_) hcontrol
    interval_cases n <;> rfl
  by_cases hquote : c = quote
  · subst hquote
    rfl
  by_cases hbackslash : c = backslash
  · subst hbackslash
    rfl
  rw [escapeChar_of_plain (by omega) hquote hbackslash, List.singleton_append, readChars.eq_def]
  simp [hquote, hbackslash]

theorem readChars_flatMap (cs rest : List Char) :
    readChars (cs.flatMap escapeChar ++ quote :: rest) = some (cs, rest) := by
  induction cs with
  | nil =>
    rw [List.flatMap_nil, List.nil_append, readChars.eq_def]
    simp
  | cons c cs ih =>
    rw [List.flatMap_cons, List.append_assoc, readChars_escapeChar, ih]
    rfl

/-- A rendered string reads back in front of any rest. -/
@[simp] theorem readString_renderString (s : String) (rest : List Char) :
    readString (renderString s ++ rest) = some (s, rest) := by
  simp [readString, renderString, readChars_flatMap]

/-- No character of a rendered string is a control character. -/
theorem control_free_escapeChar {c d : Char} (h : d ∈ escapeChar c) : 32 ≤ d.toNat := by
  by_cases hcontrol : c.toNat < 32
  · have hall : (escapeChar c).all fun d => decide (32 ≤ d.toNat) :=
      Text.forall_of_toNat_lt (P := fun c => (escapeChar c).all fun d => decide (32 ≤ d.toNat))
        (by decide) hcontrol
    exact Text.forall_of_all hall d h
  by_cases hquote : c = quote
  · subst hquote
    exact Text.forall_of_all (P := fun d => 32 ≤ d.toNat) (by decide) d h
  by_cases hbackslash : c = backslash
  · subst hbackslash
    exact Text.forall_of_all (P := fun d => 32 ≤ d.toNat) (by decide) d h
  rw [escapeChar_of_plain (by omega) hquote hbackslash] at h
  rw [List.mem_singleton.mp h]
  omega

theorem control_free_renderString {s : String} {d : Char} (h : d ∈ renderString s) :
    32 ≤ d.toNat := by
  simp only [renderString, List.mem_cons, List.mem_append, List.mem_flatMap] at h
  rcases h with rfl | ⟨c, _, hd⟩ | rfl | h
  · decide
  · exact control_free_escapeChar hd
  · decide
  · cases h

/-- A natural number in decimal. -/
def renderNat (n : ℕ) : List Char := Nat.toDigits 10 n

/-- The longest run of digits at the front, as a number. -/
def readNat : Reader ℕ := fun text =>
  match text.span Char.isDigit with
  | ([], _) => none
  | (digits, rest) => some (Nat.ofDigitChars 10 digits 0, rest)

/-- A rendered number reads back in front of anything but another digit. -/
theorem readNat_renderNat (n : ℕ) {c : Char} (hc : c.isDigit = false) (rest : List Char) :
    readNat (renderNat n ++ c :: rest) = some (n, c :: rest) := by
  have hdigits : ∀ d ∈ renderNat n, d.isDigit = true :=
    fun d hd => Nat.isDigit_of_mem_toDigits (by decide) (by decide) hd
  have hspan : (renderNat n ++ c :: rest).span Char.isDigit = (renderNat n, c :: rest) := by
    rw [List.span_eq_takeWhile_dropWhile, List.takeWhile_append_of_pos hdigits,
      List.dropWhile_append_of_pos hdigits]
    simp [hc]
  unfold readNat
  rw [hspan]
  cases hn : renderNat n with
  | nil => exact absurd hn Nat.toDigits_ne_nil
  | cons d ds =>
    dsimp only
    rw [← hn, renderNat, Nat.ofDigitChars_ten_toDigits]

theorem control_free_renderNat {n : ℕ} {d : Char} (h : d ∈ renderNat n) : 32 ≤ d.toNat := by
  have hdigit : d.isDigit = true := Nat.isDigit_of_mem_toDigits (by decide) (by decide) h
  simp only [Char.isDigit, Bool.and_eq_true, decide_eq_true_eq] at hdigit
  have hge : (48 : UInt32).toNat ≤ d.val.toNat := hdigit.1
  exact le_trans (by decide) hge

end JsonText
