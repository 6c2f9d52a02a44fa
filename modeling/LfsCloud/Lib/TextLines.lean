import LfsCloud.Lib.Lines
import LfsCloud.Lib.Text

/-!
# The lines of a text

A line ends at a line feed, with or without a carriage return before it; the last line may
lack its end. A text that is made of ended lines is split into them again.
-/

namespace Text

/-- The line without its end. -/
def stripLineEnd (piece : List Char) : List Char :=
  if piece.getLast? = some '\n' then Lines.stripSuffix '\r' piece.dropLast else piece

/-- `str::lines`. -/
def lines (text : List Char) : List (List Char) := (Lines.splitInclusive '\n' text).map stripLineEnd

/-- Lines without a line feed or a carriage return are read back. -/
theorem lines_flatMap {ls : List (List Char)} (hls : ∀ l ∈ ls, '\n' ∉ l ∧ '\r' ∉ l) :
    lines (ls.flatMap fun l => l ++ ['\n']) = ls := by
  induction ls with
  | nil => rfl
  | cons l ls ih =>
    obtain ⟨hnewline, hreturn⟩ := hls l List.mem_cons_self
    have hrest := ih fun m hm => hls m (List.mem_cons_of_mem l hm)
    have htext : ((l :: ls).flatMap fun l => l ++ ['\n']) =
        l ++ '\n' :: ls.flatMap fun l => l ++ ['\n'] := by
      simp
    have hend : stripLineEnd (l ++ ['\n']) = l := by
      unfold stripLineEnd
      rw [if_pos (by simp), List.dropLast_concat, Lines.stripSuffix_of_notMem hreturn]
    unfold lines at hrest ⊢
    rw [htext, Lines.splitInclusive_line hnewline, List.map_cons, hend, hrest]

/-- A text with a character that is no whitespace is not trimmed away. -/
theorem trim_ne_nil {text : List Char} {c : Char} (hmem : c ∈ text)
    (hc : isWhitespace c = false) : trim text ≠ [] := by
  have hfront : c ∈ text.dropWhile isWhitespace := by
    rcases List.mem_append.mp
      ((List.takeWhile_append_dropWhile (p := isWhitespace) (l := text)).symm ▸ hmem) with h | h
    · have := List.mem_takeWhile_imp h
      rw [hc] at this
      cases this
    · exact h
  intro hnil
  have hall := List.rdropWhile_eq_nil_iff.mp hnil c hfront
  rw [hc] at hall
  cases hall

/-- The first separator splits a text. -/
theorem splitOnce_append {sep : Char} {before : List Char} (hbefore : sep ∉ before)
    (after : List Char) : splitOnce sep (before ++ sep :: after) = some (before, after) := by
  induction before with
  | nil => simp [splitOnce]
  | cons c before ih =>
    have hne : c ≠ sep := fun h => hbefore (by simp [h])
    have hrest : sep ∉ before := fun h => hbefore (by simp [h])
    simp [splitOnce, hne, ih hrest]

/-- A split text is the two parts around the separator. -/
theorem splitOnce_eq_some {sep : Char} {text before after : List Char}
    (h : splitOnce sep text = some (before, after)) :
    text = before ++ sep :: after ∧ sep ∉ before := by
  induction text generalizing before with
  | nil => cases h
  | cons c text ih =>
    rw [splitOnce] at h
    split at h
    next heq =>
      cases h
      exact ⟨by rw [heq]; rfl, List.not_mem_nil⟩
    next hne =>
      obtain ⟨⟨front, rest⟩, hsplit, heq⟩ := Option.map_eq_some_iff.mp h
      cases heq
      obtain ⟨rfl, hfront⟩ := ih hsplit
      exact ⟨rfl, by simpa [List.mem_cons, hfront] using Ne.symm hne⟩

theorem byteLength_append (s t : List Char) :
    byteLength (s ++ t) = byteLength s + byteLength t := by
  simp [byteLength]

/-- The bytes of a string of parts. -/
theorem byteLength_flatMap {α : Type*} (f : α → List Char) (l : List α) :
    byteLength (l.flatMap f) = (l.map fun a => byteLength (f a)).sum := by
  induction l with
  | nil => rfl
  | cons a l ih => rw [List.flatMap_cons, byteLength_append, ih, List.map_cons, List.sum_cons]

end Text
