import LfsCloud.Lib.Interaction

/-!
# Programs whose calls are recorded

A program on its own, whose calls may be answered in any way. The state is the record of its calls
with their answers. A guard on some of the calls is a condition on the record that they find.
-/

open Transition

namespace Interaction

variable {F : Interface} {α β ε : Type}

/-- The calls of a program with their answers, in their order. -/
abbrev Record (F : Interface) := List (Σ c : F.Call, F.Answer c)

/-- A condition on the record that later calls keep. -/
def Record.Kept (P : Record F → Prop) : Prop := ∀ record event, P record → P (record ++ [event])

/-- Every call is recorded, whatever the answer is. -/
def recorded : Semantics F (Record F) Unit := fun _ s c answer t => t = s ++ [⟨c, answer⟩]

/-- The runs of a program. -/
def recordedSystem (p : Prog F α) : System (Pool F (Record F) Unit α) Unit :=
  poolSystem recorded fun s => s.shared = [] ∧ s.thread () = p

/-- A call of a run is answered. -/
theorem reachable_answer {p : Prog F α} {s : Record F} {c : F.Call}
    {next : F.Answer c → Prog F α} (answer : F.Answer c)
    (h : (recordedSystem p).Reachable ⟨s, fun _ => .call c next⟩) :
    (recordedSystem p).Reachable ⟨s ++ [⟨c, answer⟩], fun _ => next answer⟩ := by
  refine h.step (i := ()) ⟨c, next, answer, rfl, rfl, funext fun i => ?_⟩
  rw [Function.update_self]

/-- Every call of a kind finds a record with `G`. -/
def CallsAfter (W : F.Call → Prop) (G : Record F → Prop) (s : Record F) : Prop :=
  ∀ before event after, s = before ++ event :: after → W event.1 → G before

theorem callsAfter_nil {W : F.Call → Prop} {G : Record F → Prop} : CallsAfter W G [] := by
  intro before event after h
  cases (List.append_eq_nil_iff.mp h.symm).2

/-- One more call. -/
theorem CallsAfter.snoc {W : F.Call → Prop} {G : Record F → Prop} {s : Record F}
    {last : Σ c : F.Call, F.Answer c} (h : CallsAfter W G s) (hlast : W last.1 → G s) :
    CallsAfter W G (s ++ [last]) := by
  intro before event after hsplit hevent
  rcases List.eq_nil_or_concat after with rfl | ⟨init, final, rfl⟩
  · obtain ⟨rfl, heq⟩ := List.append_inj' hsplit rfl
    obtain rfl := List.singleton_inj.mp heq
    exact hlast hevent
  · rw [List.concat_eq_append, ← List.cons_append, ← List.append_assoc] at hsplit
    obtain ⟨rfl, _⟩ := List.append_inj' hsplit rfl
    exact h before event init rfl hevent

section Rules

variable (W : F.Call → Prop) (G : Record F → Prop)

/-- From a record with `P` a program makes its guarded calls where `G` holds, and ends with a
result and a record with `Q`. -/
def Records (P : Record F → Prop) (p : Prog F α) (Q : α → Record F → Prop) : Prop :=
  Verified recorded (CallsAfter W G) (fun _ _ _ => True) () Q p P

/-- The same for a program that may fail, where nothing is said of a failure. -/
def RecordsOk (P : Record F → Prop) (p : ExceptT ε (Prog F) α) (Q : α → Record F → Prop) : Prop :=
  Records W G P p.run (Outcome Q fun _ => True)

variable {W G} {P P' : Record F → Prop} {Q : α → Record F → Prop} {R : β → Record F → Prop}

theorem Records.done {a : α} (h : ∀ s, P s → Q a s) : Records W G P (.done a) Q :=
  fun s _ hP => h s hP

theorem Records.bind {p : Prog F α} {f : α → Prog F β} (h : Records W G P p Q)
    (hf : ∀ a, Records W G (Q a) (f a) R) : Records W G P (p.bind f) R :=
  Verified.bind h hf

theorem Records.of_imp {p : Prog F α} (h : Records W G P p Q) (hP : ∀ s, P' s → P s) :
    Records W G P' p Q :=
  Verified.of_imp (fun s _ hP' => hP s hP') h

theorem Records.post {Q' : α → Record F → Prop} {p : Prog F α} (h : Records W G P p Q)
    (hQ : ∀ a s, Q a s → Q' a s) : Records W G P p Q' :=
  Verified.post (fun a s _ => hQ a s) h

/-- A call that is guarded where it needs to be. -/
theorem Records.request {c : F.Call} {Q : F.Answer c → Record F → Prop}
    (hguard : W c → ∀ s, P s → G s) (h : ∀ answer s, P s → Q answer (s ++ [⟨c, answer⟩])) :
    Records W G P (Interaction.request c) Q := by
  refine Verified.request (fun _ => .of_subsingleton _) ?_
  rintro s answer t hs hP rfl
  exact ⟨hs.snoc fun hc => hguard hc s hP, trivial, h answer s hP⟩

theorem RecordsOk.pure {a : α} (h : ∀ s, P s → Q a s) :
    RecordsOk W G P (Pure.pure a : ExceptT ε (Prog F) α) Q :=
  fun s _ hP => h s hP

theorem RecordsOk.bind {p : ExceptT ε (Prog F) α} {f : α → ExceptT ε (Prog F) β}
    (h : RecordsOk W G P p Q) (hf : ∀ a, RecordsOk W G (Q a) (f a) R) :
    RecordsOk W G P (p >>= f) R :=
  Verified.bindE h hf

/-- A computed result. -/
theorem RecordsOk.result {result : Except ε α} (h : ∀ a, result = .ok a → ∀ s, P s → Q a s) :
    RecordsOk W G P (ExceptT.mk (.done result) : ExceptT ε (Prog F) α) Q := by
  cases result with
  | ok a => exact .done fun s hP => h a rfl s hP
  | error e => exact .done fun _ _ => trivial

/-- A loop whose body may fail: with more fuel than the measure it leaves with a result. -/
theorem RecordsOk.iterate {τ : Type} {body : τ → ExceptT ε (Prog F) (τ ⊕ α)}
    {J : τ → Record F → Prop} (measure : τ → ℕ)
    (hbody : ∀ x, RecordsOk W G (J x) (body x) (LoopTurn measure J Q x)) {fuel : ℕ} {x : τ}
    (hfuel : measure x < fuel) :
    Records W G (J x) (iterateE body fuel x)
      fun result s => ∃ r, result = some r ∧ Outcome Q (fun _ => True) r s :=
  Verified.iterateE measure hbody hfuel

end Rules

variable {W : F.Call → Prop} {G : Record F → Prop} {Q : α → Record F → Prop} {p : Prog F α}
  {s : Pool F (Record F) Unit α}

theorem wellRun_of_recorded (h : Records W G (· = []) p Q)
    (hs : (recordedSystem p).Reachable s) :
    s.WellRun recorded (CallsAfter W G) (fun _ _ _ => True) fun _ => Q := by
  refine wellRun_of_reachable (fun t ht => ?_) hs
  obtain ⟨hshared, hthread⟩ := ht
  refine ⟨hshared ▸ callsAfter_nil, fun i => ⟨(· = []), .of_subsingleton _, hshared, ?_⟩⟩
  exact hthread ▸ h

/-- In every state of every run the guarded calls were made where the guard held. -/
theorem callsAfter_of_recorded (h : Records W G (· = []) p Q)
    (hs : (recordedSystem p).Reachable s) : CallsAfter W G s.shared :=
  (wellRun_of_recorded h hs).1

/-- The result of a run that has come to its end. -/
theorem result_of_recorded (h : Records W G (· = []) p Q) (hs : (recordedSystem p).Reachable s)
    {a : α} (hdone : s.thread () = .done a) : Q a s.shared :=
  (wellRun_of_recorded h hs).result hdone

end Interaction
