import LfsCloud.Lib.CrashLogic
import Mathlib.Data.List.Sort

/-!
# Programs in flight whose results come in any order

Programs with a number are started in their order, no more than a limit of them are in flight, and
their calls interleave with each other and with changes from outside. The results are collected as
they come; sorted by their numbers they are those of the programs one by one.
-/

open Transition

namespace Unordered

open Interaction

variable {F : Interface} {σ α κ : Type}

/-- The shared state, the programs that wait, those in flight, and the results so far. -/
structure State (F : Interface) (σ α : Type) where
  shared : σ
  waiting : List (ℕ × Prog F α)
  inFlight : List (ℕ × Prog F α)
  output : List (ℕ × α)

/-- What happens in a step. -/
inductive Event (κ : Type)
  | start
  | call (index : ℕ)
  | finish (index : ℕ)
  | outside (k : κ)

/-- One step. -/
inductive Step (limit : ℕ) (op : Effect F σ) (outside : κ → σ → σ → Prop) :
    State F σ α → Event κ → State F σ α → Prop
  | start {s : σ} {task : ℕ × Prog F α} {waiting inFlight : List (ℕ × Prog F α)}
      {output : List (ℕ × α)} : inFlight.length < limit →
      Step limit op outside ⟨s, task :: waiting, inFlight, output⟩ .start
        ⟨s, waiting, inFlight ++ [task], output⟩
  | call {s t : σ} {index : ℕ} {c : F.Call} {next : F.Answer c → Prog F α} {answer : F.Answer c}
      {waiting before after : List (ℕ × Prog F α)} {output : List (ℕ × α)} :
      op s c answer t →
      Step limit op outside ⟨s, waiting, before ++ (index, .call c next) :: after, output⟩
        (.call index) ⟨t, waiting, before ++ (index, next answer) :: after, output⟩
  | finish {s : σ} {index : ℕ} {a : α} {waiting before after : List (ℕ × Prog F α)}
      {output : List (ℕ × α)} :
      Step limit op outside ⟨s, waiting, before ++ (index, .done a) :: after, output⟩
        (.finish index) ⟨s, waiting, before ++ after, output ++ [(index, a)]⟩
  | outside {s t : σ} {k : κ} {waiting inFlight : List (ℕ × Prog F α)}
      {output : List (ℕ × α)} : outside k s t →
      Step limit op outside ⟨s, waiting, inFlight, output⟩ (.outside k)
        ⟨t, waiting, inFlight, output⟩

/-- The programs by their places in a list. -/
def numbered (programs : List (Prog F α)) : List (ℕ × Prog F α) :=
  programs.zipIdx.map Prod.swap

/-- The runs of a list of programs. -/
def system (limit : ℕ) (op : Effect F σ) (outside : κ → σ → σ → Prop) (init : σ → Prop)
    (programs : List (Prog F α)) : System (State F σ α) (Event κ) where
  init s := init s.shared ∧ s.waiting = numbered programs ∧ s.inFlight = [] ∧ s.output = []
  step := Step limit op outside

/-- Every program has come to its end. -/
def State.Finished (s : State F σ α) : Prop := s.waiting = [] ∧ s.inFlight = []

/-- The results, sorted by their numbers. -/
def State.results (s : State F σ α) : List α :=
  (s.output.mergeSort fun a b => decide (a.1 ≤ b.1)).map Prod.snd

/-- Whoever changes the shared state changes it like this. -/
abbrev Anyone (Grows : σ → σ → Prop) : Bool → σ → σ → Prop := fun _ => Grows

section Rules

variable {limit : ℕ} {op : Effect F σ} {outside : κ → σ → σ → Prop} {init : σ → Prop}
  {programs : List (Prog F α)} {Inv : σ → Prop} {Grows : σ → σ → Prop} {P : ℕ → σ → Prop}
  {Q : ℕ → α → σ → Prop}

/-- A program of the list stands at an assertion from which the rest of it is verified. -/
def Stands (op : Effect F σ) (Inv : σ → Prop) (Grows : σ → σ → Prop) (Q : ℕ → α → σ → Prop)
    (s : σ) (task : ℕ × Prog F α) : Prop :=
  ∃ X, Stable Inv (Anyone Grows) true X ∧ X s ∧
    Verified (fun _ : Bool => op) Inv (Anyone Grows) true (Q task.1) task.2 X

/-- All programs are verified from where they stand, and all results are good. -/
structure WellRun (op : Effect F σ) (Inv : σ → Prop) (Grows : σ → σ → Prop) (Q : ℕ → α → σ → Prop)
    (numbers : List ℕ) (s : State F σ α) : Prop where
  inv : Inv s.shared
  stands : ∀ task ∈ s.waiting ++ s.inFlight, Stands op Inv Grows Q s.shared task
  results : ∀ result ∈ s.output, Q result.1 result.2 s.shared
  numbers : ((s.waiting ++ s.inFlight).map Prod.fst ++ s.output.map Prod.fst).Perm numbers

theorem Stands.grow {s t : σ} {task : ℕ × Prog F α} (h : Stands op Inv Grows Q s task)
    (hs : Inv s) (ht : Inv t) (hgrows : Grows s t) : Stands op Inv Grows Q t task := by
  obtain ⟨X, hX, hXs, hverified⟩ := h
  exact ⟨X, hX, hX false s t Bool.false_ne_true hs ht hgrows hXs, hverified⟩

/-- One step of programs that are verified, among changes that grow the state. -/
theorem WellRun.step {numbers : List ℕ} {s t : State F σ α} {event : Event κ}
    (h : WellRun op Inv Grows Q numbers s)
    (hQ : ∀ index a, Stable Inv (Anyone Grows) true (Q index a))
    (houtside : ∀ k s t, Inv s → outside k s t → Inv t ∧ Grows s t)
    (hstep : Step limit op outside s event t) : WellRun op Inv Grows Q numbers t := by
  obtain ⟨hinv, hstands, hresults, hnumbers⟩ := h
  cases hstep with
  | @start s task waiting inFlight output hlimit =>
    refine ⟨hinv, fun other hother => hstands other ?_, hresults, ?_⟩
    · simp only [List.mem_append, List.mem_cons, List.not_mem_nil, or_false] at hother ⊢
      tauto
    · apply List.Perm.trans _ hnumbers
      apply List.Perm.append_right
      apply List.Perm.map
      rw [← List.append_assoc]
      exact List.perm_append_singleton _ _
  | @call s t index c next answer waiting before after output hop =>
    have hmem : (index, .call c next) ∈ waiting ++ (before ++ (index, .call c next) :: after) :=
      List.mem_append_right _ (List.mem_append_right _ List.mem_cons_self)
    obtain ⟨X, _, hXs, hverified⟩ := hstands _ hmem
    obtain ⟨ht, hgrows, X', hX', hXt, hnext⟩ := hverified s answer t hinv hXs hop
    refine ⟨ht, fun other hother => ?_, fun result hresult => ?_, ?_⟩
    · have hcase : other = (index, next answer) ∨
          other ∈ waiting ++ (before ++ (index, .call c next) :: after) := by
        simp only [List.mem_append, List.mem_cons] at hother ⊢
        tauto
      rcases hcase with rfl | hold
      · exact ⟨X', hX', hXt, hnext⟩
      · exact (hstands other hold).grow hinv ht hgrows
    · exact hQ _ _ false s t Bool.false_ne_true hinv ht hgrows (hresults result hresult)
    · simpa using hnumbers
  | @finish s index a waiting before after output =>
    have hmem : (index, .done a) ∈ waiting ++ (before ++ (index, .done a) :: after) :=
      List.mem_append_right _ (List.mem_append_right _ List.mem_cons_self)
    obtain ⟨X, _, hXs, hverified⟩ := hstands _ hmem
    refine ⟨hinv, fun other hother => hstands other ?_, fun result hresult => ?_, ?_⟩
    · simp only [List.mem_append, List.mem_cons] at hother ⊢
      tauto
    · rcases List.mem_append.mp hresult with hold | hnew
      · exact hresults result hold
      · rw [List.mem_singleton.mp hnew]
        exact hverified s hinv hXs
    · apply List.Perm.trans _ hnumbers
      simp only [List.map_append, List.map_cons, List.map_nil, List.append_assoc]
      apply List.Perm.append_left
      apply List.Perm.append_left
      rw [← List.append_assoc]
      exact List.perm_append_singleton _ _
  | @outside s t k waiting inFlight output hk =>
    obtain ⟨ht, hgrows⟩ := houtside k s t hinv hk
    refine ⟨ht, fun other hother => (hstands other hother).grow hinv ht hgrows, ?_, hnumbers⟩
    exact fun result hresult =>
      hQ _ _ false s t Bool.false_ne_true hinv ht hgrows (hresults result hresult)

theorem fst_numbered (programs : List (Prog F α)) :
    (numbered programs).map Prod.fst = List.range programs.length := by
  unfold numbered
  rw [List.map_map]
  have hswap : (Prod.fst ∘ Prod.swap : Prog F α × ℕ → ℕ) = Prod.snd := rfl
  rw [hswap, List.zipIdx_map_snd, List.range_eq_range']

/-- When all programs have come to their ends, the results sorted by their numbers are those of the
programs one by one. -/
theorem results_of_finished {s : State F σ α} {programs : List (Prog F α)}
    (h : WellRun op Inv Grows Q (List.range programs.length) s) (hfinished : s.Finished) :
    s.results.length = programs.length ∧
      ∀ index a, s.results[index]? = some a → Q index a s.shared := by
  obtain ⟨hwaiting, hflight⟩ := hfinished
  have hnumbers := h.numbers
  rw [hwaiting, hflight] at hnumbers
  have hperm : (s.output.mergeSort fun a b => decide (a.1 ≤ b.1)).Perm s.output :=
    List.mergeSort_perm _ _
  have hsorted : (s.output.mergeSort fun a b => decide (a.1 ≤ b.1)).Pairwise
      fun a b => decide (a.1 ≤ b.1) = true := by
    apply List.pairwise_mergeSort
    · intro a b c hab hbc
      exact decide_eq_true ((of_decide_eq_true hab).trans (of_decide_eq_true hbc))
    · intro a b
      rw [Bool.or_eq_true]
      exact (le_total a.1 b.1).imp decide_eq_true decide_eq_true
  -- The numbers in their order are the first ones.
  have hrange : (s.output.mergeSort fun a b => decide (a.1 ≤ b.1)).map Prod.fst =
      List.range programs.length := by
    have hpairwise : ((s.output.mergeSort fun a b => decide (a.1 ≤ b.1)).map Prod.fst).Pairwise
        fun a b => a ≤ b := List.pairwise_map.mpr (hsorted.imp fun h => of_decide_eq_true h)
    have hnumbers' : (s.output.map Prod.fst).Perm (List.range programs.length) := by
      simpa using hnumbers
    exact List.Perm.eq_of_pairwise (fun a b _ _ hab hba => le_antisymm hab hba) hpairwise
      List.pairwise_le_range ((hperm.map _).trans hnumbers')
  have hlength : s.results.length = programs.length := by
    have hcongr := congrArg List.length hrange
    rw [List.length_map, List.length_range] at hcongr
    unfold State.results
    rw [List.length_map, hcongr]
  refine ⟨hlength, fun index a hget => ?_⟩
  unfold State.results at hget
  rw [List.getElem?_map, Option.map_eq_some_iff] at hget
  obtain ⟨⟨number, b⟩, hget, rfl⟩ := hget
  have hnumber : number = index := by
    have hcongr := congrArg (fun l => l[index]?) hrange
    simp only [List.getElem?_map, hget, Option.map_some] at hcongr
    have hlt : index < programs.length := by
      by_contra hnot
      rw [List.getElem?_eq_none (by rw [List.length_range]; omega)] at hcongr
      cases hcongr
    rw [List.getElem?_range hlt] at hcongr
    exact Option.some.inj hcongr
  have hmem : (number, b) ∈ s.output := hperm.mem_iff.mp (List.mem_of_getElem? hget)
  exact hnumber ▸ h.results _ hmem

end Rules

end Unordered
