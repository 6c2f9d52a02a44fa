import LfsCloud.Lib.Transition

/-!
# Concurrent programs over atomic calls

A program is a tree of calls, each followed by a continuation for every answer. A
pool runs one program per thread over a shared state; a step lets one thread make
its next call, atomically. Threads are verified one at a time: a thread's assertion
must be stable under what the other threads are allowed to do, and each of its
calls must keep the invariant and stay within what the thread itself is allowed.
-/

namespace Interaction

open Transition

/-- The calls of a program, with the type of the answers to each. -/
structure Interface where
  Call : Type
  Answer : Call → Type

/-- A program: it is done, or it makes a call and goes on with the answer. -/
inductive Prog (F : Interface) (α : Type)
  | done (a : α)
  | call (c : F.Call) (next : F.Answer c → Prog F α)

variable {F : Interface} {α β : Type}

/-- Run a program, then one that depends on its result. -/
def Prog.bind : Prog F α → (α → Prog F β) → Prog F β
  | .done a, f => f a
  | .call c next, f => .call c fun answer => (next answer).bind f

instance : Monad (Prog F) where
  pure := .done
  bind := .bind

/-- The program that makes one call and returns its answer. -/
def request (c : F.Call) : Prog F (F.Answer c) := .call c .done

/-- Run a loop: its body goes on with a new loop state, or leaves with a result. There is
no result when the fuel does not suffice. -/
def iterate {τ : Type} (body : τ → Prog F (τ ⊕ α)) : ℕ → τ → Prog F (Option α)
  | 0, _ => .done none
  | fuel + 1, x => (body x).bind fun
    | .inl y => iterate body fuel y
    | .inr a => .done (some a)

/-- A loop whose body may fail, which leaves the loop. -/
def iterateE {ε τ : Type} (body : τ → ExceptT ε (Prog F) (τ ⊕ α)) :
    ℕ → τ → Prog F (Option (Except ε α)) :=
  iterate fun x => (body x).run.bind fun
    | .ok (.inl y) => .done (.inl y)
    | .ok (.inr a) => .done (.inr (.ok a))
    | .error e => .done (.inr (.error e))

/-- Every call that the program can make is of a kind. -/
def Prog.Calls (C : F.Call → Prop) : Prog F α → Prop
  | .done _ => True
  | .call c next => C c ∧ ∀ answer, (next answer).Calls C

section Calls

variable {C : F.Call → Prop} {ε : Type}

theorem Prog.Calls.bind {p : Prog F α} {f : α → Prog F β} (h : p.Calls C)
    (hf : ∀ a, (f a).Calls C) : (p.bind f).Calls C := by
  induction p with
  | done a => exact hf a
  | call c next ih => exact ⟨h.1, fun answer => ih answer (h.2 answer)⟩

theorem Prog.Calls.request {c : F.Call} (h : C c) : (Interaction.request c).Calls C :=
  ⟨h, fun _ => trivial⟩

theorem Prog.Calls.pureE {a : α} : (pure a : ExceptT ε (Prog F) α).run.Calls C := trivial

theorem Prog.Calls.throwE {e : ε} : (throw e : ExceptT ε (Prog F) α).run.Calls C := trivial

theorem Prog.Calls.bindE {p : ExceptT ε (Prog F) α} {f : α → ExceptT ε (Prog F) β}
    (h : p.run.Calls C) (hf : ∀ a, (f a).run.Calls C) : (p >>= f).run.Calls C := by
  apply h.bind
  rintro (e | a)
  · trivial
  · exact hf a

end Calls

/-- A shared state and the programs that are left to run. -/
structure Pool (F : Interface) (σ ι α : Type) where
  shared : σ
  thread : ι → Prog F α

variable {σ ι : Type}

/-- What a call of a thread may do to the shared state, for each answer. -/
abbrev Semantics (F : Interface) (σ ι : Type) :=
  ι → σ → (c : F.Call) → F.Answer c → σ → Prop

/-- The pool as a system; a label is the thread that steps. -/
def poolSystem [DecidableEq ι] (op : Semantics F σ ι) (init : Pool F σ ι α → Prop) :
    System (Pool F σ ι α) ι where
  init := init
  step s i t := ∃ c next answer, s.thread i = .call c next ∧
    op i s.shared c answer t.shared ∧ t.thread = Function.update s.thread i (next answer)

/-- A run of the pool to a state of interest, one call at a time. -/
theorem poolSystem_run_cons [DecidableEq ι] {op : Semantics F σ ι}
    {init P : Pool F σ ι α → Prop} {s : Pool F σ ι α} {i : ι} {is : List ι} {c : F.Call}
    {next : F.Answer c → Prog F α} (answer : F.Answer c) {shared : σ}
    (hthread : s.thread i = .call c next) (hop : op i s.shared c answer shared)
    (hrun : ∃ t, (poolSystem op init).Run
      ⟨shared, Function.update s.thread i (next answer)⟩ is t ∧ P t) :
    ∃ t, (poolSystem op init).Run s (i :: is) t ∧ P t := by
  exact exists_run_cons ⟨c, next, answer, hthread, hop, rfl⟩ hrun

section Rules

variable (op : Semantics F σ ι) (Inv : σ → Prop) (Guar : ι → σ → σ → Prop)

/-- An assertion that no other thread can invalidate. -/
def Stable (i : ι) (P : σ → Prop) : Prop :=
  ∀ j s t, j ≠ i → Inv s → Inv t → Guar j s t → P s → P t

/-- A program is verified from an assertion: every call keeps the invariant, is
allowed to its thread, and leads to a stable assertion from which the rest is
verified; a result satisfies the postcondition. -/
def Verified (i : ι) (Q : α → σ → Prop) : Prog F α → (σ → Prop) → Prop
  | .done a, P => ∀ s, Inv s → P s → Q a s
  | .call c next, P => ∀ s answer t, Inv s → P s → op i s c answer t →
      Inv t ∧ Guar i s t ∧ ∃ P', Stable Inv Guar i P' ∧ P' t ∧ Verified i Q (next answer) P'

variable {op Inv Guar} {i : ι}

theorem Stable.and {P P' : σ → Prop} (h : Stable Inv Guar i P) (h' : Stable Inv Guar i P') :
    Stable Inv Guar i fun s => P s ∧ P' s :=
  fun j s t hj hs ht hguar hP =>
    ⟨h j s t hj hs ht hguar hP.1, h' j s t hj hs ht hguar hP.2⟩

/-- A thread on its own has no one to rely on. -/
theorem Stable.of_subsingleton [Subsingleton ι] (P : σ → Prop) : Stable Inv Guar i P :=
  fun j _ _ hj => absurd (Subsingleton.elim j i) hj

theorem Stable.const (P : Prop) : Stable Inv Guar i fun _ => P := fun _ _ _ _ _ _ _ h => h

/-- A weaker assertion suffices where a stronger one holds. -/
theorem Verified.of_imp {Q : α → σ → Prop} {p : Prog F α} {P P' : σ → Prop}
    (hP : ∀ s, Inv s → P' s → P s) (h : Verified op Inv Guar i Q p P) :
    Verified op Inv Guar i Q p P' := by
  cases p with
  | done a => exact fun s hs hP' => h s hs (hP s hs hP')
  | call c next => exact fun s answer t hs hP' => h s answer t hs (hP s hs hP')

/-- Anything is verified from an assertion that cannot hold. -/
theorem Verified.of_not {Q : α → σ → Prop} {p : Prog F α} {P : σ → Prop}
    (hP : ∀ s, Inv s → ¬P s) : Verified op Inv Guar i Q p P := by
  cases p with
  | done a => exact fun s hs h => absurd h (hP s hs)
  | call c next => exact fun s answer t hs h => absurd h (hP s hs)

/-- A fact in front of an assertion is available to the proof. -/
theorem Verified.of_fact {Q : α → σ → Prop} {p : Prog F α} {φ : Prop} {P : σ → Prop}
    (h : φ → Verified op Inv Guar i Q p P) : Verified op Inv Guar i Q p fun s => φ ∧ P s := by
  by_cases hφ : φ
  · exact (h hφ).of_imp fun _ _ hP => hP.2
  · exact .of_not fun _ _ hP => hφ hP.1

/-- A weaker postcondition follows. -/
theorem Verified.post {Q Q' : α → σ → Prop} (hQ : ∀ a s, Inv s → Q a s → Q' a s)
    {p : Prog F α} {P : σ → Prop} (h : Verified op Inv Guar i Q p P) :
    Verified op Inv Guar i Q' p P := by
  induction p generalizing P with
  | done a => exact fun s hs hP => hQ a s hs (h s hs hP)
  | call c next ih =>
    intro s answer t hs hP hop
    obtain ⟨ht, hguar, P', hstable, hP', hnext⟩ := h s answer t hs hP hop
    exact ⟨ht, hguar, P', hstable, hP', ih answer hnext⟩

theorem Verified.done {Q : α → σ → Prop} {a : α} {P : σ → Prop}
    (h : ∀ s, Inv s → P s → Q a s) : Verified op Inv Guar i Q (.done a) P :=
  h

/-- Sequencing: what follows is verified from the postcondition of what comes first. -/
theorem Verified.bind {Q : α → σ → Prop} {Q' : β → σ → Prop} {p : Prog F α}
    {f : α → Prog F β} {P : σ → Prop} (h : Verified op Inv Guar i Q p P)
    (hf : ∀ a, Verified op Inv Guar i Q' (f a) (Q a)) :
    Verified op Inv Guar i Q' (p.bind f) P := by
  induction p generalizing P with
  | done a => exact (hf a).of_imp h
  | call c next ih =>
    intro s answer t hs hP hop
    obtain ⟨ht, hguar, P', hstable, hP', hnext⟩ := h s answer t hs hP hop
    exact ⟨ht, hguar, P', hstable, hP', ih answer hnext⟩

/-- A single call with a stable postcondition for each answer. -/
theorem Verified.request {c : F.Call} {P : σ → Prop} {Q : F.Answer c → σ → Prop}
    (hstable : ∀ answer, Stable Inv Guar i (Q answer))
    (h : ∀ s answer t, Inv s → P s → op i s c answer t → Inv t ∧ Guar i s t ∧ Q answer t) :
    Verified op Inv Guar i Q (Interaction.request c) P := by
  intro s answer t hs hP hop
  obtain ⟨ht, hguar, hQ⟩ := h s answer t hs hP hop
  exact ⟨ht, hguar, Q answer, hstable answer, hQ, fun _ _ h => h⟩

/-- A program whose calls all keep a stable assertion keeps it. -/
theorem Verified.of_calls {C : F.Call → Prop} {X : σ → Prop} (hstable : Stable Inv Guar i X)
    (hcall : ∀ c s answer t, C c → Inv s → X s → op i s c answer t →
      Inv t ∧ Guar i s t ∧ X t) {p : Prog F α} (h : p.Calls C) :
    Verified op Inv Guar i (fun _ => X) p X := by
  induction p with
  | done a => exact fun _ _ hX => hX
  | call c next ih =>
    intro s answer t hs hX hop
    obtain ⟨ht, hguar, hXt⟩ := hcall c s answer t h.1 hs hX hop
    exact ⟨ht, hguar, X, hstable, hXt, ih answer (h.2 answer)⟩

/-- After one turn of a loop: it goes on with a smaller measure and the invariant, or it
leaves with the postcondition. -/
def LoopTurn {τ : Type} (measure : τ → ℕ) (J : τ → σ → Prop) (Q : α → σ → Prop) (x : τ) :
    τ ⊕ α → σ → Prop
  | .inl y => fun s => measure y < measure x ∧ J y s
  | .inr a => Q a

/-- A loop under an invariant and a measure: with more fuel than the measure it leaves with
a result. -/
theorem Verified.iterate {τ : Type} {body : τ → Prog F (τ ⊕ α)} {J : τ → σ → Prop}
    {Q : α → σ → Prop} (measure : τ → ℕ)
    (hbody : ∀ x, Verified op Inv Guar i (LoopTurn measure J Q x) (body x) (J x))
    {fuel : ℕ} {x : τ} (hfuel : measure x < fuel) :
    Verified op Inv Guar i (fun result s => ∃ a, result = some a ∧ Q a s)
      (Interaction.iterate body fuel x) (J x) := by
  induction fuel generalizing x with
  | zero => omega
  | succ fuel ih =>
    apply (hbody x).bind
    rintro (y | a)
    · by_cases hless : measure y < measure x
      · have hrest := ih (x := y) (by omega)
        exact hrest.of_imp fun s _ hP => hP.2
      · exact .of_not fun s _ hP => hless hP.1
    · exact .done fun s _ hQ => ⟨a, rfl, hQ⟩

/-- A postcondition for a result and one for a failure. -/
def Outcome {ε : Type} (Q : α → σ → Prop) (E : σ → Prop) : Except ε α → σ → Prop
  | .ok a => Q a
  | .error _ => E

section Fallible

variable {ε : Type} {Q : α → σ → Prop} {Q' : β → σ → Prop} {E P : σ → Prop}

/-- An assertion that holds whatever the result is an outcome. -/
theorem Verified.outcome {p : Prog F (Except ε α)} {X : σ → Prop}
    (h : Verified op Inv Guar i (fun _ => X) p P) :
    Verified op Inv Guar i (Outcome (fun _ => X) X) p P := by
  refine h.post fun result s _ hX => ?_
  cases result with
  | ok a => exact hX
  | error e => exact hX

theorem Verified.pureE {a : α} (h : ∀ s, Inv s → P s → Q a s) :
    Verified op Inv Guar i (Outcome Q E) (pure a : ExceptT ε (Prog F) α).run P :=
  h

theorem Verified.throwE {e : ε} (h : ∀ s, Inv s → P s → E s) :
    Verified op Inv Guar i (Outcome Q E) (throw e : ExceptT ε (Prog F) α).run P :=
  h

/-- Sequencing of programs that may fail: a failure skips what follows. -/
theorem Verified.bindE {p : ExceptT ε (Prog F) α} {f : α → ExceptT ε (Prog F) β}
    (h : Verified op Inv Guar i (Outcome Q E) p.run P)
    (hf : ∀ a, Verified op Inv Guar i (Outcome Q' E) (f a).run (Q a)) :
    Verified op Inv Guar i (Outcome Q' E) (p >>= f).run P := by
  refine Verified.bind h fun result => ?_
  cases result with
  | ok a => exact hf a
  | error e => exact fun _ _ hE => hE

/-- The rule for a loop whose body may fail. -/
theorem Verified.iterateE {τ : Type} {body : τ → ExceptT ε (Prog F) (τ ⊕ α)}
    {J : τ → σ → Prop} (measure : τ → ℕ)
    (hbody : ∀ x, Verified op Inv Guar i (Outcome (LoopTurn measure J Q x) E) (body x).run (J x))
    {fuel : ℕ} {x : τ} (hfuel : measure x < fuel) :
    Verified op Inv Guar i (fun result s => ∃ r, result = some r ∧ Outcome Q E r s)
      (Interaction.iterateE body fuel x) (J x) := by
  apply Verified.iterate measure _ hfuel
  intro x
  apply (hbody x).bind
  rintro (e | y | a)
  · exact .done fun s _ hE => hE
  · exact .done fun s _ hJ => hJ
  · exact .done fun s _ hQ => hQ

/-- A weaker outcome follows. -/
theorem Verified.postE {Q'' : α → σ → Prop} {E' : σ → Prop} {p : ExceptT ε (Prog F) α}
    (h : Verified op Inv Guar i (Outcome Q E) p.run P)
    (hQ : ∀ a s, Inv s → Q a s → Q'' a s) (hE : ∀ s, Inv s → E s → E' s) :
    Verified op Inv Guar i (Outcome Q'' E') p.run P := by
  refine h.post fun result s hs hresult => ?_
  cases result with
  | ok a => exact hQ a s hs hresult
  | error e => exact hE s hs hresult

end Fallible

variable (op Inv Guar) in
/-- Every thread stands at an assertion from which the rest of it is verified. -/
def Pool.WellRun (Q : ι → α → σ → Prop) (s : Pool F σ ι α) : Prop :=
  Inv s.shared ∧ ∀ i, ∃ P, Stable Inv Guar i P ∧ P s.shared ∧
    Verified op Inv Guar i (Q i) (s.thread i) P

/-- One step of a pool of verified threads is allowed, and leaves them verified. -/
theorem Pool.WellRun.step [DecidableEq ι] {Q : ι → α → σ → Prop} {init : Pool F σ ι α → Prop}
    {s t : Pool F σ ι α} (hs : s.WellRun op Inv Guar Q)
    (hstep : (poolSystem op init).step s i t) :
    Guar i s.shared t.shared ∧ t.WellRun op Inv Guar Q := by
  obtain ⟨c, next, answer, hthread, hop, hrest⟩ := hstep
  obtain ⟨hinv, hall⟩ := hs
  obtain ⟨P, hstable, hP, hverified⟩ := hall i
  rw [hthread] at hverified
  obtain ⟨ht, hguar, P', hstable', hP', hnext⟩ := hverified _ answer _ hinv hP hop
  refine ⟨hguar, ht, fun j => ?_⟩
  by_cases hj : j = i
  · subst hj
    exact ⟨P', hstable', hP', by rw [hrest, Function.update_self]; exact hnext⟩
  · obtain ⟨Pj, hstablej, hPj, hverifiedj⟩ := hall j
    refine ⟨Pj, hstablej, hstablej i _ _ (Ne.symm hj) hinv ht hguar hPj, ?_⟩
    rw [hrest, Function.update_of_ne hj]
    exact hverifiedj

/-- In every reachable state the threads are verified from where they stand. -/
theorem wellRun_of_reachable [DecidableEq ι] {Q : ι → α → σ → Prop} {init : Pool F σ ι α → Prop}
    (hinit : ∀ s, init s → s.WellRun op Inv Guar Q) {s : Pool F σ ι α}
    (h : (poolSystem op init).Reachable s) : s.WellRun op Inv Guar Q :=
  h.invariant (fun hs => hinit _ hs) fun _ hs hstep => (hs.step hstep).2

/-- The result of a thread that is done satisfies its postcondition. -/
theorem Pool.WellRun.result {Q : ι → α → σ → Prop} {s : Pool F σ ι α}
    (hs : s.WellRun op Inv Guar Q) {a : α} (hdone : s.thread i = .done a) : Q i a s.shared := by
  obtain ⟨P, _, hP, hverified⟩ := hs.2 i
  rw [hdone] at hverified
  exact hverified _ hs.1 hP

end Rules

end Interaction
