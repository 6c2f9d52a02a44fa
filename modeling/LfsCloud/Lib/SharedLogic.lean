import LfsCloud.Lib.CrashLogic

/-!
# Programs that share their state

The rules of verified threads for programs that may fail, and a single program among changes that
come from outside. The schedule of such a program may be restricted by a condition on its calls.
-/

open Transition

namespace Interaction

variable {F : Interface} {σ ι ε α β κ : Type}

/-- What no thread destroys holds next to any assertion. -/
theorem Verified.frame {op : Semantics F σ ι} {Inv : σ → Prop} {Guar : ι → σ → σ → Prop} {i : ι}
    {R : σ → Prop} (hR : ∀ j s t, Guar j s t → R s → R t) {Q : α → σ → Prop} {p : Prog F α}
    {P : σ → Prop} (h : Verified op Inv Guar i Q p P) :
    Verified op Inv Guar i (fun a s => R s ∧ Q a s) p fun s => R s ∧ P s := by
  induction p generalizing P with
  | done a => exact fun s hs hP => ⟨hP.1, h s hs hP.2⟩
  | call c next ih =>
    rintro s answer t hs ⟨hRs, hP⟩ hop
    obtain ⟨ht, hguar, P', hstable, hP', hnext⟩ := h s answer t hs hP hop
    have hRstable : Stable Inv Guar i R := fun j s t _ _ _ => hR j s t
    exact ⟨ht, hguar, _, hRstable.and hstable, ⟨hR i s t hguar hRs, hP'⟩, ih answer hnext⟩

/-- What holds of a result: one thing of a value, another one of an error. -/
def ResultHolds (Q : α → σ → Prop) (E : ε → σ → Prop) : Except ε α × Unit → σ → Prop
  | (.ok a, _) => Q a
  | (.error e, _) => E e

section Rules

variable (op : Semantics F σ ι) (Inv : σ → Prop) (Guar : ι → σ → σ → Prop) (i : ι)

/-- A program of a thread that may fail: it ends with a result and `Q`, or with an error
and `E`. -/
def Shares (P : σ → Prop) (p : MemoryProg F Unit ε α) (Q : α → σ → Prop) (E : ε → σ → Prop) :
    Prop :=
  Verified op Inv Guar i (ResultHolds Q E) (p.from ()) P

variable {op Inv Guar i}

namespace Shares

variable {P P' : σ → Prop} {Q Q' : α → σ → Prop} {R : β → σ → Prop} {E E' : ε → σ → Prop}

theorem pure {a : α} (h : ∀ s, Inv s → P s → Q a s) :
    Shares op Inv Guar i P (Pure.pure a) Q E :=
  h

theorem throw {e : ε} (h : ∀ s, Inv s → P s → E e s) :
    Shares op Inv Guar i P (throw e : MemoryProg F Unit ε α) Q E :=
  h

theorem of_imp {p : MemoryProg F Unit ε α} (h : Shares op Inv Guar i P p Q E)
    (hP : ∀ s, Inv s → P' s → P s) : Shares op Inv Guar i P' p Q E :=
  Verified.of_imp hP h

theorem of_fact {p : MemoryProg F Unit ε α} {φ : Prop}
    (h : φ → Shares op Inv Guar i P p Q E) : Shares op Inv Guar i (fun s => φ ∧ P s) p Q E :=
  Verified.of_fact h

theorem conseq {p : MemoryProg F Unit ε α} (h : Shares op Inv Guar i P p Q E)
    (hQ : ∀ a s, Inv s → Q a s → Q' a s) (hE : ∀ e s, Inv s → E e s → E' e s) :
    Shares op Inv Guar i P p Q' E' := by
  apply Verified.post _ h
  rintro ⟨result, m⟩ s hs hresult
  cases result with
  | ok a => exact hQ a s hs hresult
  | error e => exact hE e s hs hresult

/-- Sequencing. -/
theorem bind {p : MemoryProg F Unit ε α} {f : α → MemoryProg F Unit ε β}
    (h : Shares op Inv Guar i P p Q E) (hf : ∀ a, Shares op Inv Guar i (Q a) (f a) R E) :
    Shares op Inv Guar i P (p >>= f) R E := by
  unfold Shares
  rw [MemoryProg.from_bind]
  apply Verified.bind h
  rintro ⟨result, m⟩
  cases result with
  | ok a => exact hf a
  | error e => exact fun s _ hE => hE

/-- A call, with a stable assertion for each answer. -/
theorem ask {c : F.Call} {Q : F.Answer c → σ → Prop}
    (hstable : ∀ answer, Stable Inv Guar i (Q answer))
    (h : ∀ s answer t, Inv s → P s → op i s c answer t → Inv t ∧ Guar i s t ∧ Q answer t) :
    Shares op Inv Guar i P (ask (F := F) c) Q E := by
  intro s answer t hs hP hop
  obtain ⟨ht, hguar, hQ⟩ := h s answer t hs hP hop
  exact ⟨ht, hguar, Q answer, hstable answer, hQ, fun _ _ hQ => hQ⟩

/-- A computed result. -/
theorem liftResult {result : Except ε α} (hok : ∀ a, result = .ok a → ∀ s, Inv s → P s → Q a s)
    (herror : ∀ e, result = .error e → ∀ s, Inv s → P s → E e s) :
    Shares op Inv Guar i P (liftResult result) Q E := by
  cases result with
  | ok a => exact hok a rfl
  | error e => exact herror e rfl

/-- A program whose calls all keep a stable assertion keeps it. -/
theorem of_calls {C : F.Call → Prop} {X : σ → Prop} (hstable : Stable Inv Guar i X)
    (hcall : ∀ c s answer t, C c → Inv s → X s → op i s c answer t →
      Inv t ∧ Guar i s t ∧ X t) {p : MemoryProg F Unit ε α} (h : (p.from ()).Calls C) :
    Shares op Inv Guar i X p (fun _ => X) fun _ => X := by
  apply Verified.post _ (Verified.of_calls hstable hcall h)
  rintro ⟨result, m⟩ s _ hX
  cases result with
  | ok a => exact hX
  | error e => exact hX

/-- What no thread destroys holds next to any assertion. -/
theorem frame {p : MemoryProg F Unit ε α} {R : σ → Prop}
    (hR : ∀ j s t, Guar j s t → R s → R t) (h : Shares op Inv Guar i P p Q E) :
    Shares op Inv Guar i (fun s => R s ∧ P s) p (fun a s => R s ∧ Q a s)
      fun e s => R s ∧ E e s := by
  apply Verified.post _ (Verified.frame hR h)
  rintro ⟨result, m⟩ s _ ⟨hRs, hresult⟩
  cases result with
  | ok a => exact ⟨hRs, hresult⟩
  | error e => exact ⟨hRs, hresult⟩

end Shares

end Rules

section Calls

variable {C : F.Call → Prop}

/-- The calls of a sequence are those of its parts. -/
theorem calls_bind {p : MemoryProg F Unit ε α} {f : α → MemoryProg F Unit ε β}
    (hp : (p.from ()).Calls C) (hf : ∀ a, ((f a).from ()).Calls C) :
    ((p >>= f).from ()).Calls C := by
  rw [MemoryProg.from_bind]
  apply hp.bind
  rintro ⟨result, m⟩
  cases result with
  | ok a => exact hf a
  | error e => trivial

theorem calls_ask {c : F.Call} (h : C c) :
    ((ask c : MemoryProg F Unit ε (F.Answer c)).from ()).Calls C :=
  ⟨h, fun _ => trivial⟩

theorem calls_liftResult {result : Except ε α} :
    ((liftResult result : MemoryProg F Unit ε α).from ()).Calls C := by
  cases result with
  | ok a => trivial
  | error e => trivial

/-- A program whose calls are of a kind makes calls of a wider kind. -/
theorem Prog.Calls.mono {C' : F.Call → Prop} {p : Prog F α} (h : p.Calls C)
    (hC : ∀ c, C c → C' c) : p.Calls C' := by
  induction p with
  | done a => trivial
  | call c next ih => exact ⟨hC c h.1, fun answer => ih answer (h.2 answer)⟩

end Calls

section Ghost

variable {γ : Type} {op : Semantics F σ ι} {update : ι → γ → (c : F.Call) → F.Answer c → γ}

/-- The calls next to a part of the state that only a proof looks at. -/
def withGhost (op : Semantics F σ ι) (update : ι → γ → (c : F.Call) → F.Answer c → γ) :
    Semantics F (σ × γ) ι :=
  fun i s c answer t => op i s.1 c answer t.1 ∧ t.2 = update i s.2 c answer

/-- The pool next to such a part. -/
def Pool.withGhost (s : Pool F σ ι α) (g : γ) : Pool F (σ × γ) ι α := ⟨(s.shared, g), s.thread⟩

/-- Every run has one next to such a part, whatever that is at the start. -/
theorem run_withGhost [DecidableEq ι] {init : Pool F σ ι α → Prop}
    {init' : Pool F (σ × γ) ι α → Prop} {s t : Pool F σ ι α} {is : List ι}
    (h : (poolSystem op init).Run s is t) (g : γ) :
    ∃ g', (poolSystem (Interaction.withGhost op update) init').Run (s.withGhost g) is
      (t.withGhost g') := by
  induction h generalizing g with
  | nil s => exact ⟨g, .nil _⟩
  | @cons s t u i is hstep _ ih =>
    obtain ⟨c, next, answer, hthread, hop, hrest⟩ := hstep
    obtain ⟨g', hrun⟩ := ih (update i g c answer)
    have hfirst : (poolSystem (Interaction.withGhost op update) init').step (s.withGhost g) i
        (t.withGhost (update i g c answer)) :=
      ⟨c, next, answer, hthread, ⟨hop, rfl⟩, hrest⟩
    exact ⟨g', .cons hfirst hrun⟩

end Ghost

/-- A shared state, and what a program has left to do. -/
structure Among (F : Interface) (σ α : Type) where
  shared : σ
  thread : Prog F α

/-- A program among changes from outside. A label is such a change, or none for a call. -/
def amongSystem (op : Effect F σ) (outside : κ → σ → σ → Prop) (init : σ → Prop) (p : Prog F α) :
    System (Among F σ α) (Option κ) where
  init s := init s.shared ∧ s.thread = p
  step s label t := match label with
    | none => ∃ c next answer, s.thread = .call c next ∧ op s.shared c answer t.shared ∧
      t.thread = next answer
    | some k => outside k s.shared t.shared ∧ t.thread = s.thread

/-- The calls are made where a condition holds. -/
def CallsMeet (C : σ → F.Call → Prop) (s : Among F σ α) (label : Option κ) : Prop :=
  label = none → ∀ c next, s.thread = .call c next → C s.shared c

/-- The calls of a program, where they meet a condition. -/
def opMeeting (op : Effect F σ) (C : σ → F.Call → Prop) : Semantics F σ Bool :=
  fun _ s c answer t => op s c answer t ∧ C s c

/-- What changes from outside the program, which is the thread `true`. -/
def OutsideGuar (outside : κ → σ → σ → Prop) (j : Bool) (s t : σ) : Prop :=
  j = true ∨ ∃ k, outside k s t

variable {op : Effect F σ} {outside : κ → σ → σ → Prop} {init Inv P : σ → Prop}
  {C : σ → F.Call → Prop} {Q : α → σ → Prop} {p : Prog F α}

/-- An assertion that no change from outside invalidates. -/
theorem stable_outside {X : σ → Prop} (h : ∀ k s t, Inv s → X s → outside k s t → X t) :
    Stable Inv (OutsideGuar outside) true X := by
  rintro j s t hj hs _ (htrue | ⟨k, hk⟩) hX
  · exact absurd htrue hj
  · exact h k s t hs hX hk

/-- The invariant rule for a verified program among changes from outside: it stands at a stable
assertion from which the rest is verified. -/
theorem verified_of_reachable (hp : Verified (opMeeting op C) Inv (OutsideGuar outside) true Q p P)
    (hstable : Stable Inv (OutsideGuar outside) true P) (hinit : ∀ s, init s → Inv s ∧ P s)
    (hinv : ∀ k s t, Inv s → outside k s t → Inv t) {s : Among F σ α}
    (h : ((amongSystem op outside init p).restrict (CallsMeet C)).Reachable s) :
    Inv s.shared ∧ ∃ X, Stable Inv (OutsideGuar outside) true X ∧ X s.shared ∧
      Verified (opMeeting op C) Inv (OutsideGuar outside) true Q s.thread X := by
  apply System.Reachable.invariant (P := fun s : Among F σ α => Inv s.shared ∧
    ∃ X, Stable Inv (OutsideGuar outside) true X ∧ X s.shared ∧
      Verified (opMeeting op C) Inv (OutsideGuar outside) true Q s.thread X) _ _ h
  · rintro s ⟨hs, hthread⟩
    obtain ⟨hI, hP⟩ := hinit _ hs
    exact ⟨hI, P, hstable, hP, hthread ▸ hp⟩
  · rintro s label t _ ⟨hI, X, hX, hXs, hverified⟩ ⟨hstep, hmeets⟩
    cases label with
    | none =>
      obtain ⟨c, next, answer, hthread, hop, hrest⟩ := hstep
      rw [hthread] at hverified
      obtain ⟨ht, _, X', hX', hXt, hnext⟩ :=
        hverified _ answer _ hI hXs ⟨hop, hmeets rfl c next hthread⟩
      exact ⟨ht, X', hX', hXt, hrest ▸ hnext⟩
    | some k =>
      obtain ⟨houtside, hthread⟩ := hstep
      have ht := hinv k _ _ hI houtside
      have hXt := hX false _ _ Bool.false_ne_true hI ht (.inr ⟨k, houtside⟩) hXs
      exact ⟨ht, X, hX, hXt, hthread ▸ hverified⟩

/-- The result of a verified program. -/
theorem result_of_reachable (hp : Verified (opMeeting op C) Inv (OutsideGuar outside) true Q p P)
    (hstable : Stable Inv (OutsideGuar outside) true P) (hinit : ∀ s, init s → Inv s ∧ P s)
    (hinv : ∀ k s t, Inv s → outside k s t → Inv t) {s : Among F σ α}
    (h : ((amongSystem op outside init p).restrict (CallsMeet C)).Reachable s) {a : α}
    (hdone : s.thread = .done a) : Q a s.shared := by
  obtain ⟨hI, X, _, hXs, hverified⟩ := verified_of_reachable hp hstable hinit hinv h
  rw [hdone] at hverified
  exact hverified _ hI hXs

end Interaction
