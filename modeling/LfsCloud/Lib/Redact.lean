import Mathlib.Tactic

/-!
# Replacing a pattern

The occurrences of a pattern are replaced from left to right. A marker whose first and last elements
are not in the pattern separates what is around it, so that no occurrence is left.
-/

namespace Redact

section Infixes

variable {α : Type*} {s l r : List α} {x : α}

/-- Something without an element lies on one side of the element. -/
theorem infix_of_append_cons (hx : x ∉ s) (h : s <:+: l ++ x :: r) : s <:+: l ∨ s <:+: r := by
  obtain ⟨u, v, huv⟩ := h
  rcases List.append_eq_append_iff.mp huv with ⟨rest, hl, _⟩ | ⟨rest, hu, hr⟩
  · exact .inl ⟨u, rest, hl.symm⟩
  · cases rest with
    | nil => exact .inl ⟨u, [], by simpa using hu⟩
    | cons y rest =>
      obtain ⟨rfl, _⟩ := List.cons.inj hr
      rcases List.append_eq_append_iff.mp hu with ⟨rest', _, hs⟩ | ⟨rest', _, hs⟩
      · exact absurd (hs ▸ List.mem_append_right _ List.mem_cons_self) hx
      · cases rest' with
        | nil =>
          rw [List.nil_append] at hs
          exact absurd (hs ▸ List.mem_cons_self) hx
        | cons z rest' =>
          obtain ⟨_, hrest⟩ := List.cons.inj hs
          obtain ⟨_, htail⟩ := List.cons.inj hr
          refine .inr ⟨rest', v, ?_⟩
          rw [htail, hrest]
          rfl

/-- Something lies left, right, or across the middle. -/
theorem infix_append_iff : s <:+: l ++ r ↔ s <:+: l ∨ s <:+: r ∨
    ∃ q d, s = q ++ d ∧ q ≠ [] ∧ d ≠ [] ∧ q <:+ l ∧ d <+: r := by
  constructor
  · rintro ⟨u, v, huv⟩
    rcases List.append_eq_append_iff.mp huv with ⟨rest, hl, _⟩ | ⟨rest, hu, hr⟩
    · exact .inl ⟨u, rest, hl.symm⟩
    · rcases List.append_eq_append_iff.mp hu with ⟨rest', hl, hs⟩ | ⟨rest', _, hs⟩
      · by_cases hq : rest' = []
        · subst hq
          exact .inr (.inl ⟨[], v, by rw [hr, hs]; simp⟩)
        · by_cases hd : rest = []
          · subst hd
            exact .inl ⟨u, [], by rw [hl, hs]; simp⟩
          · exact .inr (.inr ⟨rest', rest, hs, hq, hd, ⟨u, hl.symm⟩, ⟨v, hr.symm⟩⟩)
      · exact .inr (.inl ⟨rest', v, by rw [hr, hs]⟩)
  · rintro (h | h | ⟨q, d, rfl, _, _, ⟨u, rfl⟩, ⟨v, rfl⟩⟩)
    · exact h.trans (List.prefix_append _ _).isInfix
    · exact h.trans (List.suffix_append _ _).isInfix
    · exact ⟨u, v, by simp⟩

end Infixes

variable {α : Type*} [DecidableEq α]

/-- Replace the occurrences of a pattern, where some elements still belong to the occurrence
before. -/
def replaceFrom (pattern marker : List α) : ℕ → List α → List α
  | _, [] => []
  | skip + 1, _ :: text => replaceFrom pattern marker skip text
  | 0, a :: text =>
    if pattern <+: a :: text then marker ++ replaceFrom pattern marker (pattern.length - 1) text
    else a :: replaceFrom pattern marker 0 text

/-- Replace the occurrences of a pattern. -/
def replace (pattern marker text : List α) : List α := replaceFrom pattern marker 0 text

variable {pattern marker text : List α}

theorem replaceFrom_zero_cons {a : α} :
    replaceFrom pattern marker 0 (a :: text) =
      if pattern <+: a :: text then marker ++ replaceFrom pattern marker (pattern.length - 1) text
      else a :: replaceFrom pattern marker 0 text := rfl

@[simp] theorem replaceFrom_nil {skip : ℕ} : replaceFrom pattern marker skip [] = [] := by
  cases skip <;> rfl

/-- A beginning that is free of the marker was there before. -/
theorem isPrefix_of_replaceFrom {s : List α} {first : α} {rest : List α}
    (hmarker : marker = first :: rest) (hfirst : first ∉ s)
    (h : s <+: replaceFrom pattern marker 0 text) : s <+: text := by
  induction text generalizing s with
  | nil => exact h
  | cons a text ih =>
    cases s with
    | nil => exact List.nil_prefix
    | cons b s =>
      rw [replaceFrom_zero_cons] at h
      split_ifs at h
      · rw [hmarker, List.cons_append] at h
        exact absurd ((List.cons_prefix_cons.mp h).1 ▸ List.mem_cons_self) hfirst
      · obtain ⟨rfl, hs⟩ := List.cons_prefix_cons.mp h
        have hrest : first ∉ s := fun hmem => hfirst (List.mem_cons_of_mem _ hmem)
        exact List.cons_prefix_cons.mpr ⟨rfl, ih hrest hs⟩

/-- After the replacement there is no occurrence. -/
theorem not_infix_replaceFrom {first last : α} {inner : List α} (hne : pattern ≠ [])
    (hmarker : marker = first :: (inner ++ [last])) (hfirst : first ∉ pattern)
    (hlast : last ∉ pattern) (hinner : ¬pattern <:+: marker) (skip : ℕ) :
    ¬pattern <:+: replaceFrom pattern marker skip text := by
  induction text generalizing skip with
  | nil =>
    rw [replaceFrom_nil]
    exact fun h => hne (List.infix_nil.mp h)
  | cons a text ih =>
    cases skip with
    | succ skip => exact ih skip
    | zero =>
      rw [replaceFrom_zero_cons]
      split_ifs with hmatch
      · intro h
        have hsplit : marker ++ replaceFrom pattern marker (pattern.length - 1) text =
            (first :: inner) ++ last :: replaceFrom pattern marker (pattern.length - 1) text := by
          rw [hmarker]
          simp
        rw [hsplit] at h
        rcases infix_of_append_cons hlast h with hleft | hright
        · apply hinner
          rw [hmarker, ← List.cons_append]
          exact hleft.trans (List.prefix_append _ _).isInfix
        · exact ih _ hright
      · intro h
        rcases List.infix_cons_iff.mp h with hstart | hrest
        · obtain ⟨b, rest, hpattern⟩ := List.exists_cons_of_ne_nil hne
          rw [hpattern] at hstart hmatch hfirst
          obtain ⟨rfl, htail⟩ := List.cons_prefix_cons.mp hstart
          apply hmatch
          rw [← hpattern] at htail
          exact List.cons_prefix_cons.mpr ⟨rfl, isPrefix_of_replaceFrom hmarker
            (fun hmem => hfirst (List.mem_cons_of_mem _ hmem)) htail⟩
        · exact ih 0 hrest

/-- How many occurrences are replaced, where some elements belong to the one before. -/
def countFrom (pattern : List α) : ℕ → List α → ℕ
  | _, [] => 0
  | skip + 1, _ :: text => countFrom pattern skip text
  | 0, a :: text =>
    if pattern <+: a :: text then countFrom pattern (pattern.length - 1) text + 1
    else countFrom pattern 0 text

/-- How many occurrences are replaced. -/
def count (pattern text : List α) : ℕ := countFrom pattern 0 text

/-- What follows the last replaced occurrence, where some elements belong to the one before. -/
def restFrom (pattern : List α) : ℕ → List α → List α
  | _, [] => []
  | skip + 1, _ :: text => restFrom pattern skip text
  | 0, a :: text =>
    if pattern <+: a :: text then restFrom pattern (pattern.length - 1) text
    else if countFrom pattern 0 text = 0 then a :: text
    else restFrom pattern 0 text

/-- What follows the last replaced occurrence. -/
def rest (pattern text : List α) : List α := restFrom pattern 0 text

variable (pattern marker text) in
/-- Without an occurrence to replace the text stays, otherwise the marker is in it. -/
theorem countFrom_zero_cases : (countFrom pattern 0 text = 0 ∧
    replaceFrom pattern marker 0 text = text) ∨ countFrom pattern 0 text ≠ 0 ∧
      ∀ x ∈ marker, x ∈ replaceFrom pattern marker 0 text := by
  induction text with
  | nil => exact .inl ⟨rfl, rfl⟩
  | cons a text ih =>
    rw [replaceFrom_zero_cons]
    simp only [countFrom]
    split_ifs
    · exact .inr ⟨Nat.succ_ne_zero _, fun x hx => List.mem_append_left _ hx⟩
    · rcases ih with ⟨hcount, hsame⟩ | ⟨hcount, hmem⟩
      · exact .inl ⟨hcount, by rw [hsame]⟩
      · exact .inr ⟨hcount, fun x hx => List.mem_cons_of_mem _ (hmem x hx)⟩

/-- An end without the last element of the marker is an end of what was not replaced. -/
theorem suffix_replaceFrom_iff {s inner : List α} {last : α} (hmarker : marker = inner ++ [last])
    (hlast : last ∉ s) {skip : ℕ} :
    s <:+ replaceFrom pattern marker skip text ↔ s <:+ restFrom pattern skip text := by
  induction text generalizing skip with
  | nil => simp [restFrom]
  | cons a text ih =>
    cases skip with
    | succ skip => exact ih
    | zero =>
      rw [replaceFrom_zero_cons]
      simp only [restFrom]
      split_ifs with hmatch hcount
      · rw [← ih, hmarker]
        constructor
        · intro h
          rcases List.suffix_or_suffix_of_suffix h (List.suffix_append _ _) with hshort | hlong
          · exact hshort
          · obtain ⟨u, hu⟩ := hlong
            obtain ⟨v, hv⟩ := h
            rw [← hu, ← List.append_assoc] at hv
            have hends := List.append_cancel_right hv
            cases u using List.reverseRecOn with
            | nil => exact ⟨[], hu.symm⟩
            | append_singleton u b =>
              rw [← List.append_assoc] at hends
              obtain ⟨_, hb⟩ := List.append_inj' hends rfl
              rw [hb] at hu
              exact absurd (hu ▸ by simp) hlast
        · exact fun h => h.trans (List.suffix_append _ _)
      · rcases countFrom_zero_cases pattern marker text with ⟨_, hsame⟩ | ⟨hne, _⟩
        · rw [hsame]
        · exact absurd hcount hne
      · rw [← ih]
        constructor
        · intro h
          rcases List.suffix_cons_iff.mp h with rfl | hrest
          · rcases countFrom_zero_cases pattern marker text with ⟨hzero, _⟩ | ⟨_, hmem⟩
            · exact absurd hzero hcount
            · have hin := hmem last (hmarker ▸ by simp)
              exact absurd (List.mem_cons_of_mem _ hin) hlast
          · exact hrest
        · exact fun h => h.trans (List.suffix_cons _ _)

variable (pattern marker text) in
/-- Replacing where elements are skipped is replacing in what follows them. -/
theorem from_eq_drop (skip : ℕ) :
    replaceFrom pattern marker skip text = replaceFrom pattern marker 0 (text.drop skip) ∧
      countFrom pattern skip text = countFrom pattern 0 (text.drop skip) ∧
      restFrom pattern skip text = restFrom pattern 0 (text.drop skip) := by
  induction text generalizing skip with
  | nil => simp [countFrom, restFrom]
  | cons a text ih =>
    cases skip with
    | zero => exact ⟨rfl, rfl, rfl⟩
    | succ skip => exact ih skip

/-- An occurrence at the beginning is one more, and the rest is behind it. -/
theorem count_rest_append (hne : pattern ≠ []) :
    count pattern (pattern ++ text) = count pattern text + 1 ∧
      rest pattern (pattern ++ text) = rest pattern text := by
  obtain ⟨a, pattern', rfl⟩ := List.exists_cons_of_ne_nil hne
  obtain ⟨_, hcount, hrest⟩ := from_eq_drop (a :: pattern') [] (pattern' ++ text)
    ((a :: pattern').length - 1)
  have hdrop : (pattern' ++ text).drop ((a :: pattern').length - 1) = text := by simp
  rw [hdrop] at hcount hrest
  have hmatch : a :: pattern' <+: a :: (pattern' ++ text) := ⟨text, rfl⟩
  unfold count rest
  rw [List.cons_append, countFrom, restFrom, if_pos hmatch, if_pos hmatch]
  exact ⟨congrArg (· + 1) hcount, hrest⟩

/-- Behind the last occurrence there is what is too short for another. -/
theorem count_rest_of_lt (hlt : text.length < pattern.length) :
    count pattern text = 0 ∧ rest pattern text = text := by
  unfold count rest
  induction text with
  | nil => exact ⟨rfl, rfl⟩
  | cons a text ih =>
    have hshort : text.length < pattern.length := by
      rw [List.length_cons] at hlt
      omega
    have hno : ¬pattern <+: a :: text := fun h => absurd h.length_le (by omega)
    rw [countFrom, restFrom, if_neg hno, if_neg hno, if_pos (ih hshort).1]
    exact ⟨(ih hshort).1, rfl⟩

/-- In a text of one element the occurrences of a shorter one are counted by division. -/
theorem count_rest_replicate {a : α} {m k r : ℕ} (hlt : r < m) :
    count (List.replicate m a) (List.replicate (k * m + r) a) = k ∧
      rest (List.replicate m a) (List.replicate (k * m + r) a) = List.replicate r a := by
  induction k with
  | zero =>
    rw [Nat.zero_mul, Nat.zero_add]
    exact count_rest_of_lt (by simpa using hlt)
  | succ k ih =>
    have hsplit : List.replicate ((k + 1) * m + r) a =
        List.replicate m a ++ List.replicate (k * m + r) a := by
      rw [List.replicate_append_replicate]
      congr 1
      ring
    have hne : List.replicate m a ≠ [] := by
      rw [ne_eq, List.replicate_eq_nil_iff]
      omega
    obtain ⟨hcount, hrest⟩ := count_rest_append hne
    rw [hsplit, hcount, hrest, ih.1, ih.2]
    exact ⟨rfl, rfl⟩

variable (marker text) in
/-- Each replacement exchanges the weight of the pattern for that of the marker. -/
theorem weight_replace (weight : α → ℕ) (hne : pattern ≠ []) :
    ((replace pattern marker text).map weight).sum + count pattern text * (pattern.map weight).sum =
      (text.map weight).sum + count pattern text * (marker.map weight).sum := by
  unfold replace count
  induction hlength : text.length using Nat.strong_induction_on generalizing text with
  | h n ih =>
    cases text with
    | nil => simp [countFrom]
    | cons a text =>
      rw [replaceFrom_zero_cons]
      simp only [countFrom]
      split_ifs with hmatch
      · obtain ⟨after, hafter⟩ := hmatch
        obtain ⟨b, pattern', rfl⟩ := List.exists_cons_of_ne_nil hne
        have hdrop : text.drop ((b :: pattern').length - 1) = after := by
          obtain ⟨_, htail⟩ := List.cons.inj hafter
          rw [← htail]
          simp
        obtain ⟨hreplace, hcount, _⟩ := from_eq_drop (b :: pattern') marker text
          ((b :: pattern').length - 1)
        have hshorter : after.length < n := by
          have := congrArg List.length hafter
          simp only [List.length_append, List.length_cons] at this hlength
          omega
        have hstep := ih _ hshorter _ rfl
        rw [hreplace, hcount, hdrop, ← hafter]
        simp only [List.map_append, List.sum_append, Nat.add_mul] at hstep ⊢
        omega
      · have hshorter : text.length < n := by
          rw [← hlength, List.length_cons]
          exact Nat.lt_succ_self _
        have hstep := ih _ hshorter _ rfl
        simp only [List.map_cons, List.sum_cons] at hstep ⊢
        omega

/-- Without an occurrence nothing is replaced. -/
theorem replace_of_not_infix (h : ¬pattern <:+: text) : replace pattern marker text = text := by
  unfold replace
  induction text with
  | nil => rfl
  | cons a text ih =>
    rw [replaceFrom_zero_cons, if_neg fun hstart => h hstart.isInfix,
      ih fun hrest => h (hrest.trans (List.suffix_cons _ _).isInfix)]

variable (pattern marker text) in
/-- Something is replaced, and the marker is there, or nothing is. -/
theorem replace_eq_or_mem : replace pattern marker text = text ∨
    ∀ x ∈ marker, x ∈ replace pattern marker text :=
  (countFrom_zero_cases pattern marker text).imp And.right And.right

theorem replaceFrom_ne_nil {a : α} (hmarker : marker ≠ []) :
    replaceFrom pattern marker 0 (a :: text) ≠ [] := by
  rw [replaceFrom_zero_cons]
  split_ifs
  · simp [hmarker]
  · simp

/-- The last element is the last one of the text, or the last one of the marker. -/
theorem getLast?_replaceFrom (hmarker : marker ≠ []) {skip : ℕ} {e : α}
    (h : (replaceFrom pattern marker skip text).getLast? = some e) :
    text.getLast? = some e ∨ marker.getLast? = some e := by
  induction text generalizing skip with
  | nil => simp at h
  | cons a text ih =>
    have hrest : ∀ n, (replaceFrom pattern marker n text).getLast? = some e →
        (a :: text).getLast? = some e ∨ marker.getLast? = some e := by
      intro n hn
      refine (ih hn).imp_left fun hlast => ?_
      rw [List.getLast?_cons, hlast]
      rfl
    cases skip with
    | succ skip => exact hrest skip h
    | zero =>
      rw [replaceFrom_zero_cons] at h
      split_ifs at h
      · rw [List.getLast?_append] at h
        cases hlast : (replaceFrom pattern marker (pattern.length - 1) text).getLast? with
        | none =>
          rw [hlast] at h
          exact .inr h
        | some e' =>
          rw [hlast] at h
          exact hrest _ (hlast.trans h)
      · cases text with
        | nil => exact .inl h
        | cons b text =>
          apply hrest 0
          rw [List.getLast?_cons] at h
          cases hlast : (replaceFrom pattern marker 0 (b :: text)).getLast? with
          | none => exact absurd (List.getLast?_eq_none_iff.mp hlast) (replaceFrom_ne_nil hmarker)
          | some e' =>
            rw [hlast] at h
            exact h

end Redact
