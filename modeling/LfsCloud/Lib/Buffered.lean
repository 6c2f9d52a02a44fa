import LfsCloud.Lib.Transition

/-!
# Tasks with a bounded number in flight

Inputs are started in their order, and no more than a limit of them are in flight. They are
answered in any order, and their answers are taken in the order of the inputs. Whatever the
schedule is, the answers that come out are those of the inputs one by one.
-/

universe u v

open Transition

namespace Buffered

variable {α : Type u} {β : Type v}

/-- The inputs that wait, those in flight with their answers, and the answers taken. -/
structure State (α : Type u) (β : Type v) where
  waiting : List α
  inFlight : List (α × Option β)
  output : List β

/-- What happens in a step. -/
inductive Event
  | start
  | answer (index : ℕ)
  | take
  deriving DecidableEq

/-- One step; an input may have the answers that `R` gives it. -/
inductive Step (limit : ℕ) (R : α → β → Prop) : State α β → Event → State α β → Prop
  | start {a : α} {waiting : List α} {inFlight : List (α × Option β)} {output : List β} :
      inFlight.length < limit →
      Step limit R ⟨a :: waiting, inFlight, output⟩ .start
        ⟨waiting, inFlight ++ [(a, none)], output⟩
  | answer {a : α} {b : β} {waiting : List α} {before after : List (α × Option β)}
      {output : List β} : R a b →
      Step limit R ⟨waiting, before ++ (a, none) :: after, output⟩ (.answer before.length)
        ⟨waiting, before ++ (a, some b) :: after, output⟩
  | take {a : α} {b : β} {waiting : List α} {inFlight : List (α × Option β)} {output : List β} :
      Step limit R ⟨waiting, (a, some b) :: inFlight, output⟩ .take
        ⟨waiting, inFlight, output ++ [b]⟩

/-- The runs over a list of inputs. -/
def system (limit : ℕ) (R : α → β → Prop) (inputs : List α) : System (State α β) Event where
  init s := s = ⟨inputs, [], []⟩
  step := Step limit R

/-- Every answer is taken. -/
def State.Finished (s : State α β) : Prop := s.waiting = [] ∧ s.inFlight = []

/-- The answers taken are those of the first inputs, and those in flight follow them. -/
def Ordered (R : α → β → Prop) (inputs : List α) (s : State α β) : Prop :=
  ∃ taken, inputs = taken ++ (s.inFlight.map Prod.fst ++ s.waiting) ∧
    List.Forall₂ R taken s.output ∧ ∀ a b, (a, some b) ∈ s.inFlight → R a b

variable {limit : ℕ} {R : α → β → Prop} {inputs : List α}

theorem Ordered.step {s t : State α β} {event : Event} (h : Ordered R inputs s)
    (hstep : Step limit R s event t) : Ordered R inputs t := by
  obtain ⟨taken, hinputs, houtput, hanswers⟩ := h
  cases hstep with
  | start hlimit =>
    refine ⟨taken, by simpa using hinputs, houtput, ?_⟩
    intro a b hmem
    rcases List.mem_append.mp hmem with hmem | hmem
    · exact hanswers a b hmem
    · cases List.mem_singleton.mp hmem
  | @answer c d waiting before after output hd =>
    refine ⟨taken, by simpa using hinputs, houtput, ?_⟩
    intro a b hmem
    rcases List.mem_append.mp hmem with hmem | hmem
    · exact hanswers a b (List.mem_append_left _ hmem)
    · rcases List.mem_cons.mp hmem with heq | hmem
      · cases heq
        exact hd
      · exact hanswers a b (List.mem_append_right _ (List.mem_cons_of_mem _ hmem))
  | @take a b waiting inFlight output =>
    have hb : R a b := hanswers a b List.mem_cons_self
    refine ⟨taken ++ [a], by simpa using hinputs, ?_, ?_⟩
    · exact List.rel_append houtput (.cons hb .nil)
    · exact fun c d hmem => hanswers c d (List.mem_cons_of_mem _ hmem)

/-- When all is taken, the output is the answers of the inputs in their order. -/
theorem output_of_finished {s : State α β} (hreach : (system limit R inputs).Reachable s)
    (hfinished : s.Finished) : List.Forall₂ R inputs s.output := by
  have hordered : Ordered R inputs s := by
    refine hreach.invariant ?_ fun _ h hstep => h.step hstep
    rintro s rfl
    exact ⟨[], rfl, .nil, fun _ _ h => absurd h List.not_mem_nil⟩
  obtain ⟨taken, hinputs, houtput, _⟩ := hordered
  obtain ⟨hwaiting, hflight⟩ := hfinished
  rw [hwaiting, hflight] at hinputs
  have htaken : inputs = taken := by simpa using hinputs
  rw [htaken]
  exact houtput

/-- The steps that are left. -/
def State.measure (s : State α β) : ℕ :=
  3 * s.waiting.length + (s.inFlight.map fun task => if task.2.isSome then 1 else 2).sum

/-- Every step is one fewer. -/
theorem Step.measure {s t : State α β} {event : Event} (hstep : Step limit R s event t) :
    t.measure + 1 = s.measure := by
  unfold State.measure
  cases hstep with
  | start hlimit =>
    simp only [List.length_cons, List.map_append, List.sum_append, List.map_cons, List.map_nil,
      List.sum_cons, List.sum_nil, Option.isSome_none, Bool.false_eq_true, if_false]
    omega
  | answer h =>
    simp only [List.map_append, List.sum_append, List.map_cons, List.sum_cons,
      Option.isSome_none, Option.isSome_some, Bool.false_eq_true, if_false, if_true]
    omega
  | take =>
    simp only [List.map_cons, List.sum_cons, Option.isSome_some, if_true]
    omega

/-- While something is left to do, a step can be made, if every input has an answer. -/
theorem exists_step {s : State α β} (hlimit : 0 < limit) (htotal : ∀ a, ∃ b, R a b)
    (hunfinished : ¬s.Finished) : ∃ event t, Step limit R s event t := by
  obtain ⟨waiting, inFlight, output⟩ := s
  cases inFlight with
  | nil =>
    cases waiting with
    | nil => exact absurd ⟨rfl, rfl⟩ hunfinished
    | cons a waiting => exact ⟨_, _, .start hlimit⟩
  | cons task inFlight =>
    obtain ⟨a, answer⟩ := task
    cases answer with
    | none =>
      obtain ⟨b, hb⟩ := htotal a
      have hstep : Step limit R ⟨waiting, [] ++ (a, none) :: inFlight, output⟩ (.answer 0)
        ⟨waiting, [] ++ (a, some b) :: inFlight, output⟩ := .answer hb
      exact ⟨_, _, hstep⟩
    | some b => exact ⟨_, _, .take⟩

end Buffered
