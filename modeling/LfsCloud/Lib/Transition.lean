import Mathlib.Tactic

/-!
# Labelled transition systems

A system has initial states and labelled steps. A run records the labels of its
steps, so conditions can be put on the schedule itself: `restrict` keeps only
the steps whose state and label meet a condition. Safety arguments need two
rules, one for invariants of all reachable states and one for relations between
the two ends of a run.
-/

universe u v

namespace Transition

/-- A labelled transition system on states `σ` with labels `ι`. -/
structure System (σ : Type u) (ι : Type v) where
  /-- The states in which a run may begin. -/
  init : σ → Prop
  /-- One step, with the label that causes it. -/
  step : σ → ι → σ → Prop

variable {σ : Type u} {ι : Type v} {M : System σ ι}

/-- A finite run with the labels of its steps in order. -/
inductive System.Run (M : System σ ι) : σ → List ι → σ → Prop
  | nil (s : σ) : Run M s [] s
  | cons {s t u : σ} {i : ι} {is : List ι} :
      M.step s i t → Run M t is u → Run M s (i :: is) u

/-- A state that some run from an initial state ends in. -/
def System.Reachable (M : System σ ι) (t : σ) : Prop := ∃ s is, M.init s ∧ M.Run s is t

/-- Runs compose, and their labels concatenate. -/
theorem System.Run.append {s t u : σ} {is js : List ι} (h₁ : M.Run s is t)
    (h₂ : M.Run t js u) : M.Run s (is ++ js) u := by
  induction h₁ with
  | nil => exact h₂
  | cons hstep _ ih => exact .cons hstep (ih h₂)

/-- A run can be extended by one step at its end. -/
theorem System.Run.snoc {s t u : σ} {is : List ι} {i : ι} (h : M.Run s is t)
    (hstep : M.step t i u) : M.Run s (is ++ [i]) u :=
  h.append (.cons hstep (.nil u))

theorem System.Reachable.init {s : σ} (h : M.init s) : M.Reachable s := ⟨s, [], h, .nil s⟩

theorem System.Reachable.step {s t : σ} {i : ι} (h : M.Reachable s) (hstep : M.step s i t) :
    M.Reachable t := by
  obtain ⟨s₀, is, hinit, hrun⟩ := h
  exact ⟨s₀, is ++ [i], hinit, hrun.snoc hstep⟩

theorem System.Reachable.run {s t : σ} {is : List ι} (h : M.Reachable s) (hrun : M.Run s is t) :
    M.Reachable t := by
  obtain ⟨s₀, js, hinit, hfirst⟩ := h
  exact ⟨s₀, js ++ is, hinit, hfirst.append hrun⟩

/-- A run to a state of interest, one step at a time. -/
theorem exists_run_cons {P : σ → Prop} {s t : σ} {i : ι} {is : List ι} (h : M.step s i t)
    (hrun : ∃ u, M.Run t is u ∧ P u) : ∃ u, M.Run s (i :: is) u ∧ P u := by
  obtain ⟨u, hrest, hP⟩ := hrun
  exact ⟨u, .cons h hrest, hP⟩

/-- The invariant rule along a run: a step out of a reachable state keeps `P`. -/
theorem System.Run.invariant {P : σ → Prop}
    (hstep : ∀ {s i t}, M.Reachable s → P s → M.step s i t → P t)
    {s t : σ} {is : List ι} (hreach : M.Reachable s) (hs : P s) (hrun : M.Run s is t) : P t := by
  induction hrun with
  | nil => exact hs
  | cons h _ ih => exact ih (hreach.step h) (hstep hreach hs h)

/-- The invariant rule: `P` holds initially and every step keeps it. -/
theorem System.Reachable.invariant {P : σ → Prop} (hinit : ∀ {s}, M.init s → P s)
    (hstep : ∀ {s i t}, M.Reachable s → P s → M.step s i t → P t)
    {s : σ} (h : M.Reachable s) : P s := by
  obtain ⟨s₀, is, h₀, hrun⟩ := h
  exact hrun.invariant hstep (.init h₀) (hinit h₀)

/-- The invariant rule for a property of the labels so far and the state: a run is extended
at its end. -/
theorem System.Run.history {P : List ι → σ → Prop} {s : σ} (hnil : P [] s)
    (hsnoc : ∀ {is t i u}, M.Run s is t → P is t → M.step t i u → P (is ++ [i]) u)
    {t : σ} {is : List ι} (hrun : M.Run s is t) : P is t := by
  have hall : ∀ {u v js}, M.Run u js v → ∀ {pre}, M.Run s pre u → P pre u → P (pre ++ js) v := by
    intro u v js h
    induction h with
    | nil => intro pre _ hP; simpa using hP
    | cons hstep _ ih =>
      intro pre hpre hP
      have := ih (hpre.snoc hstep) (hsnoc hpre hP hstep)
      simpa using this
  exact hall hrun (.nil s) hnil

/-- `P` was the case at some point, and `Q` at no point since. -/
def Since (P Q : ι → Prop) (is : List ι) : Prop :=
  ∃ before i after, is = before ++ i :: after ∧ P i ∧ ∀ j ∈ after, ¬Q j

/-- What holds after one more label. -/
theorem since_snoc {P Q : ι → Prop} {is : List ι} {i : ι} :
    Since P Q (is ++ [i]) ↔ P i ∨ (Since P Q is ∧ ¬Q i) := by
  constructor
  · rintro ⟨before, j, after, hsplit, hj, hafter⟩
    rcases List.eq_nil_or_concat after with rfl | ⟨init, last, rfl⟩
    · have hlast := congrArg List.getLast? hsplit
      simp only [List.getLast?_append_cons, List.getLast?_singleton, Option.some.injEq] at hlast
      exact .inl (hlast ▸ hj)
    · rw [List.concat_eq_append, ← List.cons_append, ← List.append_assoc] at hsplit
      obtain ⟨rfl, hlast⟩ := List.append_inj' hsplit rfl
      obtain rfl := List.singleton_inj.mp hlast
      refine .inr ⟨⟨before, j, init, rfl, hj, fun k hk => hafter k ?_⟩, hafter i ?_⟩
      · simp [hk]
      · simp
  · rintro (hi | ⟨⟨before, j, after, rfl, hj, hafter⟩, hi⟩)
    · exact ⟨is, i, [], by simp, hi, nofun⟩
    · refine ⟨before, j, after ++ [i], by simp, hj, ?_⟩
      intro k hk
      rcases List.mem_append.mp hk with hk | hk
      · exact hafter k hk
      · rw [List.mem_singleton.mp hk]
        exact hi

/-- A preorder kept by every step relates the two ends of every run. -/
theorem System.Run.relates {R : σ → σ → Prop} (hrefl : ∀ s, R s s)
    (htrans : ∀ {s t u}, R s t → R t u → R s u)
    (hstep : ∀ {s i t}, M.Reachable s → M.step s i t → R s t)
    {s t : σ} {is : List ι} (hreach : M.Reachable s) (hrun : M.Run s is t) : R s t := by
  induction hrun with
  | nil s => exact hrefl s
  | cons h _ ih => exact htrans (hstep hreach h) (ih (hreach.step h))

/-- The system whose steps must also meet a condition on state and label. -/
def System.restrict (M : System σ ι) (C : σ → ι → Prop) : System σ ι where
  init := M.init
  step s i t := M.step s i t ∧ C s i

theorem System.Run.of_restrict {C : σ → ι → Prop} {s t : σ} {is : List ι}
    (h : (M.restrict C).Run s is t) : M.Run s is t := by
  induction h with
  | nil s => exact .nil s
  | cons hstep _ ih => exact .cons hstep.1 ih

/-- Restricting the schedule reaches no new states. -/
theorem System.Reachable.of_restrict {C : σ → ι → Prop} {s : σ}
    (h : (M.restrict C).Reachable s) : M.Reachable s := by
  obtain ⟨s₀, is, hinit, hrun⟩ := h
  exact ⟨s₀, is, hinit, hrun.of_restrict⟩

/-- Conditions that agree in every reachable state restrict to the same runs. -/
theorem System.restrict_run_congr {C C' : σ → ι → Prop}
    (hCC' : ∀ {s i}, M.Reachable s → (C s i ↔ C' s i)) {s t : σ} {is : List ι}
    (hreach : M.Reachable s) : (M.restrict C).Run s is t ↔ (M.restrict C').Run s is t := by
  constructor
  · intro h
    induction h with
    | nil s => exact .nil s
    | cons hstep _ ih =>
      exact .cons ⟨hstep.1, (hCC' hreach).mp hstep.2⟩ (ih (hreach.step hstep.1))
  · intro h
    induction h with
    | nil s => exact .nil s
    | cons hstep _ ih =>
      exact .cons ⟨hstep.1, (hCC' hreach).mpr hstep.2⟩ (ih (hreach.step hstep.1))

/-- A system whose labels determine the step, with `none` for a label that is
not enabled. -/
def System.ofStep (init : σ → Prop) (step : σ → ι → Option σ) : System σ ι :=
  ⟨init, fun s i t => step s i = some t⟩

/-- Execute a list of labels, stopping at the first that is not enabled. -/
def exec (step : σ → ι → Option σ) : σ → List ι → Option σ
  | s, [] => some s
  | s, i :: is => (step s i).bind fun t => exec step t is

/-- Every state on the way through a list of labels satisfies `P`. -/
def Throughout (step : σ → ι → Option σ) (P : σ → Prop) : σ → List ι → Prop
  | s, [] => P s
  | s, i :: is => P s ∧ ∀ t, step s i = some t → Throughout step P t is

/-- Every step taken on the way through a list of labels meets the condition. -/
def Meets (step : σ → ι → Option σ) (C : σ → ι → Prop) : σ → List ι → Prop
  | _, [] => True
  | s, i :: is => ∀ t, step s i = some t → C s i ∧ Meets step C t is

section

variable {step : σ → ι → Option σ} {P I : σ → Prop} {C : σ → ι → Prop}

/-- In particular, the state at the end of an execution satisfies `P`. -/
theorem Throughout.of_exec {s t : σ} {is : List ι} (h : Throughout step P s is)
    (hexec : exec step s is = some t) : P t := by
  induction is generalizing s with
  | nil => exact Option.some.inj hexec ▸ h
  | cons i is ih =>
    obtain ⟨u, hstep, hrest⟩ := Option.bind_eq_some_iff.mp hexec
    exact ih (h.2 u hstep) hrest

theorem Throughout.head {s : σ} {is : List ι} (h : Throughout step P s is) : P s := by
  cases is with
  | nil => exact h
  | cons _ _ => exact h.1

theorem Throughout.mono {Q : σ → Prop} (hPQ : ∀ {s}, P s → Q s) {s : σ} {is : List ι}
    (h : Throughout step P s is) : Throughout step Q s is := by
  induction is generalizing s with
  | nil => exact hPQ h
  | cons i is ih => exact ⟨hPQ h.1, fun t hstep => ih (h.2 t hstep)⟩

/-- The invariant rule for executions whose steps meet a condition. -/
theorem Meets.throughout (hkeep : ∀ {s i t}, I s → C s i → step s i = some t → I t)
    {s : σ} (hs : I s) {is : List ι} (h : Meets step C s is) : Throughout step I s is := by
  induction is generalizing s with
  | nil => exact hs
  | cons i is ih =>
    exact ⟨hs, fun t hstep => ih (hkeep hs (h t hstep).1 hstep) (h t hstep).2⟩

/-- A property that is kept by the steps meeting a condition, and lost by every other
step, holds throughout exactly when all steps meet the condition. -/
theorem throughout_iff_meets (hgood : ∀ {s}, I s → P s)
    (hkeep : ∀ {s i t}, I s → C s i → step s i = some t → I t)
    (hbreak : ∀ {s i t}, I s → ¬C s i → step s i = some t → ¬P t)
    {s : σ} (hs : I s) {is : List ι} : Throughout step P s is ↔ Meets step C s is := by
  refine ⟨fun h => ?_, fun h => (h.throughout hkeep hs).mono hgood⟩
  induction is generalizing s with
  | nil => trivial
  | cons i is ih =>
    intro t hstep
    have hC : C s i := by
      by_contra hC
      exact hbreak hs hC hstep (h.2 t hstep).head
    exact ⟨hC, ih (hkeep hs hC hstep) (h.2 t hstep)⟩

end

end Transition
