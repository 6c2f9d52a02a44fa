import Mathlib.Data.List.DropRight
import Mathlib.Tactic

/-!
# Text

Texts are lists of characters. Whitespace is the Unicode property `White_Space`,
and trimming removes it at both ends.
-/

namespace Text

/-- A property of characters below a bound is checked one code point at a time. -/
theorem forall_of_toNat_lt {P : Char → Prop} {bound : ℕ} (h : ∀ n < bound, P (Char.ofNat n))
    {c : Char} (hc : c.toNat < bound) : P c := by
  have := h c.toNat hc
  rwa [Char.ofNat_toNat] at this

/-- A property of the characters of a given text is checked one by one. -/
theorem forall_of_all {text : List Char} {P : Char → Prop} [DecidablePred P]
    (h : (text.all fun c => decide (P c)) = true) : ∀ c ∈ text, P c := by
  simpa only [List.all_eq_true, decide_eq_true_eq] using h

/-- The Unicode property `White_Space`. -/
def isWhitespace (c : Char) : Bool :=
  let n := c.toNat
  (9 ≤ n && n ≤ 13) || n = 0x20 || n = 0x85 || n = 0xa0 || n = 0x1680 ||
    (0x2000 ≤ n && n ≤ 0x200a) || n = 0x2028 || n = 0x2029 || n = 0x202f || n = 0x205f ||
    n = 0x3000

/-- A control character: the general category `Cc`. -/
def isControl (c : Char) : Bool := c.toNat < 0x20 || (0x7f ≤ c.toNat && c.toNat < 0xa0)

/-- Remove whitespace at both ends. -/
def trim (text : List Char) : List Char :=
  (text.dropWhile isWhitespace).rdropWhile isWhitespace

/-- A text without whitespace is left alone. -/
theorem trim_eq_self {text : List Char} (h : ∀ c ∈ text, isWhitespace c = false) :
    trim text = text := by
  have hfront : text.dropWhile isWhitespace = text := by
    rw [List.dropWhile_eq_self_iff]
    intro hpos
    simp [h _ (List.getElem_mem hpos)]
  unfold trim
  rw [hfront]
  exact List.rdropWhile_eq_self_iff.mpr fun hne => by simp [h _ (List.getLast_mem hne)]

/-- The string has nothing but whitespace. -/
def isBlank (s : String) : Bool := trim s.toList = []

/-- The text around the first occurrence of a separator. -/
def splitOnce (sep : Char) : List Char → Option (List Char × List Char)
  | [] => none
  | c :: rest =>
    if c = sep then some ([], rest)
    else (splitOnce sep rest).map fun (before, after) => (c :: before, after)

theorem splitOnce_of_notMem {sep : Char} {text : List Char} (h : sep ∉ text) :
    splitOnce sep text = none := by
  induction text with
  | nil => rfl
  | cons c text ih =>
    have hne : c ≠ sep := fun hc => h (by simp [hc])
    have hrest : sep ∉ text := fun hc => h (by simp [hc])
    simp [splitOnce, hne, ih hrest]

/-- The length in bytes of a text in UTF-8. -/
def byteLength (text : List Char) : ℕ := (text.map Char.utf8Size).sum

/-- A text of one-byte characters has as many bytes as characters. -/
theorem byteLength_eq_length {text : List Char} (h : ∀ c ∈ text, c.utf8Size = 1) :
    byteLength text = text.length := by
  unfold byteLength
  rw [List.map_congr_left h]
  simp

/-- The length in bytes of a string. -/
theorem utf8ByteSize_ofList (text : List Char) :
    (String.ofList text).utf8ByteSize = byteLength text := by
  induction text with
  | nil => rfl
  | cons c text ih =>
    rw [String.ofList_cons, String.utf8ByteSize_append, ih]
    simp [byteLength]

/-- A string of one-byte characters has as many bytes as characters. -/
theorem utf8ByteSize_eq_length {s : String} (h : ∀ c ∈ s.toList, c.utf8Size = 1) :
    s.utf8ByteSize = s.toList.length := by
  rw [← byteLength_eq_length h, ← utf8ByteSize_ofList, String.ofList_toList]

end Text
