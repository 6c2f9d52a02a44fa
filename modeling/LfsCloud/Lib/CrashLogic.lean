import LfsCloud.Lib.Interaction

/-!
# Programs that can be killed

A program on its own, over a durable state that its calls read and write, and a
volatile memory that it keeps to itself. It either returns, or it is killed after one of
its calls, which loses the memory and leaves the durable state as it is. A triple gives
a postcondition for each way out: a result, an error, and a crash condition on the
durable state after every call.
-/

namespace Interaction

variable {F : Interface} {σ μ ε α β : Type}

/-- What a call may do to the durable state, for each answer. -/
abbrev Effect (F : Interface) (σ : Type) := σ → (c : F.Call) → F.Answer c → σ → Prop

/-- A complete run of a program. -/
inductive Prog.Returns (op : Effect F σ) : Prog F α → σ → α → σ → Prop
  | done {a s} : Returns op (.done a) s a s
  | call {c next s t u a} (answer : F.Answer c) (hop : op s c answer t)
      (hrest : Returns op (next answer) t a u) : Returns op (.call c next) s a u

/-- A run that is cut short after a call. -/
inductive Prog.Killed (op : Effect F σ) : Prog F α → σ → σ → Prop
  | now {c next s t} (answer : F.Answer c) (hop : op s c answer t) :
      Killed op (.call c next) s t
  | later {c next s t u} (answer : F.Answer c) (hop : op s c answer t)
      (hrest : Killed op (next answer) t u) : Killed op (.call c next) s u

variable {op : Effect F σ}

/-- A run of two programs in sequence is a run of each. -/
theorem Prog.Returns.of_bind {p : Prog F α} {f : α → Prog F β} {s u : σ} {b : β}
    (h : (p.bind f).Returns op s b u) : ∃ a t, p.Returns op s a t ∧ (f a).Returns op t b u := by
  induction p generalizing s with
  | done a => exact ⟨a, s, .done, h⟩
  | call c next ih =>
    cases h with
    | call answer hop hrest =>
      obtain ⟨a, t, hp, hf⟩ := ih answer hrest
      exact ⟨a, t, .call answer hop hp, hf⟩

/-- Two programs in sequence are killed in the first one or in the second one. -/
theorem Prog.Killed.of_bind {p : Prog F α} {f : α → Prog F β} {s u : σ}
    (h : (p.bind f).Killed op s u) :
    p.Killed op s u ∨ ∃ a t, p.Returns op s a t ∧ (f a).Killed op t u := by
  induction p generalizing s with
  | done a => exact .inr ⟨a, s, .done, h⟩
  | call c next ih =>
    cases h with
    | now answer hop => exact .inl (.now answer hop)
    | later answer hop hrest =>
      rcases ih answer hrest with hp | ⟨a, t, hp, hf⟩
      · exact .inl (.later answer hop hp)
      · exact .inr ⟨a, t, .call answer hop hp, hf⟩

/-- Runs of two programs make a run of both in sequence. -/
theorem Prog.Returns.bind {p : Prog F α} {f : α → Prog F β} {s t u : σ} {a : α} {b : β}
    (h : p.Returns op s a t) (hf : (f a).Returns op t b u) : (p.bind f).Returns op s b u := by
  induction h with
  | done => exact hf
  | call answer hop _ ih => exact .call answer hop (ih hf)

/-- Where every call has an answer, every program has a complete run. -/
theorem Prog.exists_returns (htotal : ∀ s c, ∃ answer t, op s c answer t) (p : Prog F α) (s : σ) :
    ∃ a t, p.Returns op s a t := by
  induction p generalizing s with
  | done a => exact ⟨a, s, .done⟩
  | call c next ih =>
    obtain ⟨answer, t, hop⟩ := htotal s c
    obtain ⟨a, u, hrest⟩ := ih answer t
    exact ⟨a, u, .call answer hop hrest⟩

/-- A program with a volatile memory, which survives an error but not a crash. -/
abbrev MemoryProg (F : Interface) (μ ε α : Type) := ExceptT ε (StateT μ (Prog F)) α

/-- The calls of a program that starts with a memory. -/
def MemoryProg.from (p : MemoryProg F μ ε α) (m : μ) : Prog F (Except ε α × μ) := p.run.run m

/-- One call. -/
def ask (c : F.Call) : MemoryProg F μ ε (F.Answer c) :=
  ExceptT.mk fun m => .call c fun answer => .done (.ok answer, m)

/-- The calls of a sequence: an error skips what follows. -/
theorem MemoryProg.from_bind {p : MemoryProg F μ ε α} {f : α → MemoryProg F μ ε β} {m : μ} :
    (p >>= f).from m = (p.from m).bind fun
      | (.ok a, m') => (f a).from m'
      | (.error e, m') => .done (.error e, m') := by
  unfold MemoryProg.from
  show Prog.bind _ _ = Prog.bind _ _
  congr 1
  funext ⟨result, m'⟩
  cases result <;> rfl

/-- A run of a sequence whose first part has a result. -/
theorem MemoryProg.returns_bind {p : MemoryProg F μ ε α} {f : α → MemoryProg F μ ε β} {m m' : μ}
    {s t u : σ} {a : α} {r : Except ε β × μ} (h : (p.from m).Returns op s (.ok a, m') t)
    (hf : ((f a).from m').Returns op t r u) : ((p >>= f).from m).Returns op s r u := by
  rw [MemoryProg.from_bind]
  exact h.bind hf

/-- A computed result. -/
def liftResult (result : Except ε α) : MemoryProg F μ ε α :=
  match result with
  | .ok a => pure a
  | .error e => throw e

/-- From a memory and a durable state, a program ends with a result and `Q`, or with an
error and `E`; and it is killed only where `C` holds. -/
def Triple (op : Effect F σ) (C : σ → Prop) (P : μ → σ → Prop) (p : MemoryProg F μ ε α)
    (Q : α → μ → σ → Prop) (E : ε → μ → σ → Prop) : Prop :=
  ∀ m s, P m s →
    (∀ a m' t, (p.from m).Returns op s (.ok a, m') t → Q a m' t) ∧
    (∀ e m' t, (p.from m).Returns op s (.error e, m') t → E e m' t) ∧
    ∀ t, (p.from m).Killed op s t → C t

namespace Triple

variable {C : σ → Prop} {P P' : μ → σ → Prop} {Q Q' : α → μ → σ → Prop} {E E' : ε → μ → σ → Prop}

/-- Consequence. -/
theorem conseq {p : MemoryProg F μ ε α} (h : Triple op C P p Q E)
    (hP : ∀ m s, P' m s → P m s) (hQ : ∀ a m s, Q a m s → Q' a m s)
    (hE : ∀ e m s, E e m s → E' e m s) : Triple op C P' p Q' E' := by
  intro m s hm
  obtain ⟨hok, herror, hkilled⟩ := h m s (hP m s hm)
  exact ⟨fun a m' t hret => hQ a m' t (hok a m' t hret),
    fun e m' t hret => hE e m' t (herror e m' t hret), hkilled⟩

/-- A weaker crash condition. -/
theorem crash {C' : σ → Prop} {p : MemoryProg F μ ε α} (h : Triple op C P p Q E)
    (hC : ∀ s, C s → C' s) : Triple op C' P p Q E := by
  intro m s hm
  obtain ⟨hok, herror, hkilled⟩ := h m s hm
  exact ⟨hok, herror, fun t hkill => hC t (hkilled t hkill)⟩

/-- A weaker assertion suffices where a stronger one holds. -/
theorem of_imp {p : MemoryProg F μ ε α} (h : Triple op C P p Q E)
    (hP : ∀ m s, P' m s → P m s) : Triple op C P' p Q E :=
  h.conseq hP (fun _ _ _ hQ => hQ) fun _ _ _ hE => hE

/-- A fact in front of an assertion is available to the proof. -/
theorem of_fact {p : MemoryProg F μ ε α} {φ : Prop} (h : φ → Triple op C P p Q E) :
    Triple op C (fun m s => φ ∧ P m s) p Q E := by
  intro m s hm
  exact h hm.1 m s hm.2

theorem pure {a : α} (h : ∀ m s, P m s → Q a m s) :
    Triple op C P (pure a : MemoryProg F μ ε α) Q E := by
  intro m s hm
  refine ⟨fun a' m' t hret => ?_, nofun, nofun⟩
  cases hret with
  | done => exact h m s hm

theorem throw {e : ε} (h : ∀ m s, P m s → E e m s) :
    Triple op C P (throw e : MemoryProg F μ ε α) Q E := by
  intro m s hm
  refine ⟨nofun, fun e' m' t hret => ?_, nofun⟩
  cases hret with
  | done => exact h m s hm

/-- A computed result, with what is known of it. -/
theorem liftResult {result : Except ε α} (hok : ∀ a, result = .ok a → ∀ m s, P m s → Q a m s)
    (herror : ∀ e, result = .error e → ∀ m s, P m s → E e m s) :
    Triple op C P (liftResult result) Q E := by
  cases result with
  | ok a => exact .pure (hok a rfl)
  | error e => exact .throw (herror e rfl)

/-- A call: its effect leads to the crash condition and to the postcondition. -/
theorem ask {c : F.Call} {Q : F.Answer c → μ → σ → Prop}
    (h : ∀ m s answer t, P m s → op s c answer t → C t ∧ Q answer m t) :
    Triple op C P (ask c) Q E := by
  intro m s hm
  refine ⟨fun a m' t hret => ?_, fun e m' t hret => ?_, fun t hkill => ?_⟩
  · cases hret with
    | call answer hop hrest =>
      cases hrest with
      | done => exact (h m s _ _ hm hop).2
  · cases hret with
    | call answer hop hrest => cases hrest
  · cases hkill with
    | now answer hop => exact (h m s answer t hm hop).1
    | later answer hop hrest => cases hrest

/-- A change of the memory. -/
theorem modify {f : μ → μ} {Q : Unit → μ → σ → Prop} (h : ∀ m s, P m s → Q () (f m) s) :
    Triple op C P (modify f : MemoryProg F μ ε Unit) Q E := by
  intro m s hm
  refine ⟨fun a m' t hret => ?_, nofun, nofun⟩
  cases hret with
  | done => exact h m s hm

/-- A new memory. -/
theorem set {m' : μ} {Q : PUnit → μ → σ → Prop} (h : ∀ m s, P m s → Q ⟨⟩ m' s) :
    Triple op C P (set m' : MemoryProg F μ ε PUnit) Q E := by
  intro m s hm
  refine ⟨fun a m'' t hret => ?_, nofun, nofun⟩
  cases hret with
  | done => exact h m s hm

/-- The memory as it is. -/
theorem get {Q : μ → μ → σ → Prop} (h : ∀ m s, P m s → Q m m s) :
    Triple op C P (get : MemoryProg F μ ε μ) Q E := by
  intro m s hm
  refine ⟨fun a m' t hret => ?_, nofun, nofun⟩
  cases hret with
  | done => exact h m s hm

/-- Sequencing: an error skips what follows. -/
theorem bind {p : MemoryProg F μ ε α} {f : α → MemoryProg F μ ε β} {R : β → μ → σ → Prop}
    (h : Triple op C P p Q E) (hf : ∀ a, Triple op C (Q a) (f a) R E) :
    Triple op C P (p >>= f) R E := by
  intro m s hm
  obtain ⟨hok, herror, hkilled⟩ := h m s hm
  rw [MemoryProg.from_bind]
  refine ⟨fun b m' u hret => ?_, fun e m' u hret => ?_, fun u hkill => ?_⟩
  · obtain ⟨⟨a | a, m''⟩, t, hp, hrest⟩ := hret.of_bind
    · cases hrest
    · exact (hf a m'' t (hok a m'' t hp)).1 b m' u hrest
  · obtain ⟨⟨a | a, m''⟩, t, hp, hrest⟩ := hret.of_bind
    · cases hrest
      exact herror e m' u hp
    · exact (hf a m'' t (hok a m'' t hp)).2.1 e m' u hrest
  · rcases hkill.of_bind with hp | ⟨⟨a | a, m''⟩, t, hp, hrest⟩
    · exact hkilled u hp
    · cases hrest
    · exact (hf a m'' t (hok a m'' t hp)).2.2 u hrest

end Triple

end Interaction
