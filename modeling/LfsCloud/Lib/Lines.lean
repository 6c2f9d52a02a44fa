import Mathlib.Data.List.DropRight
import Mathlib.Tactic

/-!
# Splitting at a separator

A text is split after every separator; the separator stays with the piece it
ends. Only the last piece can lack one, so it is the only piece a cut can have
torn.
-/

universe u

namespace Lines

variable {α : Type u} [DecidableEq α]

/-- The pieces of a text, each with the separator that ends it. -/
def splitInclusive (sep : α) : List α → List (List α)
  | [] => []
  | a :: rest =>
    if a = sep then [a] :: splitInclusive sep rest
    else
      match splitInclusive sep rest with
      | [] => [[a]]
      | piece :: pieces => (a :: piece) :: pieces

/-- A line that ends in a separator is the first piece. -/
theorem splitInclusive_line {sep : α} {line : List α} (hline : sep ∉ line) (rest : List α) :
    splitInclusive sep (line ++ sep :: rest) = (line ++ [sep]) :: splitInclusive sep rest := by
  induction line with
  | nil => simp [splitInclusive]
  | cons a line ih =>
    have hne : a ≠ sep := fun h => hline (by simp [h])
    have hrest : sep ∉ line := fun h => hline (by simp [h])
    simp [splitInclusive, hne, ih hrest]

/-- A nonempty text without a separator is a single piece. -/
theorem splitInclusive_torn {sep : α} {torn : List α} (htorn : sep ∉ torn) (hne : torn ≠ []) :
    splitInclusive sep torn = [torn] := by
  induction torn with
  | nil => exact absurd rfl hne
  | cons a torn ih =>
    have ha : a ≠ sep := fun h => htorn (by simp [h])
    have hrest : sep ∉ torn := fun h => htorn (by simp [h])
    cases torn with
    | nil => simp [splitInclusive, ha]
    | cons b torn => rw [splitInclusive, if_neg ha, ih hrest (by simp)]

/-- Remove one separator at the end, where there is one. -/
def stripSuffix (sep : α) (piece : List α) : List α :=
  if piece.getLast? = some sep then piece.dropLast else piece

@[simp] theorem stripSuffix_append (sep : α) (line : List α) :
    stripSuffix sep (line ++ [sep]) = line := by
  simp [stripSuffix]

theorem stripSuffix_of_notMem {sep : α} {line : List α} (h : sep ∉ line) :
    stripSuffix sep line = line := by
  unfold stripSuffix
  rw [if_neg]
  exact fun hlast => h (List.mem_of_getLast? hlast)

/-- Remove every copy of an element at the end. -/
def trimEnd (a : α) (line : List α) : List α := line.rdropWhile (· = a)

theorem trimEnd_of_notMem {a : α} {line : List α} (h : a ∉ line) : trimEnd a line = line := by
  unfold trimEnd
  refine List.rdropWhile_eq_self_iff.mpr fun hne hlast => h ?_
  rw [← of_decide_eq_true hlast]
  exact List.getLast_mem hne

end Lines
