import Mathlib.Tactic

/-!
# Transactions

A transaction is a program of statements over a state. Every statement gets its turn from
outside: an input, such as the time of day, or a fault. A statement may also fail by itself,
where it breaks a constraint. A failure of any statement takes all of them back.
-/

universe u

/-- A program of statements over states `σ`, each of which gets an input of type `ι` or a
fault; it counts the statements that it has run. -/
abbrev Transaction (ι ε σ : Type) (α : Type) : Type :=
  ReaderT (ℕ → Except ε ι) (StateT (ℕ × σ) (Except ε)) α

namespace Transaction

variable {ι ε σ α β : Type}

/-- What the program does to a state, and how many statements have run after it. -/
def eval (body : Transaction ι ε σ α) (turns : ℕ → Except ε ι) (n : ℕ) (s : σ) :
    Except ε (α × ℕ × σ) :=
  body turns (n, s)

/-- A statement. -/
def statement (run : ι → σ → Except ε (α × σ)) : Transaction ι ε σ α := fun turns (n, s) => do
  let input ← turns n
  let (a, s') ← run input s
  return (a, n + 1, s')

/-- A statement that only changes the state. -/
def execute (run : ι → σ → Except ε σ) : Transaction ι ε σ Unit :=
  statement fun input s => (run input s).map fun s' => ((), s')

/-- A statement that only reads the state. -/
def query (run : ι → σ → α) : Transaction ι ε σ α :=
  statement fun input s => .ok (run input s, s)

/-- The statements between a begin and a commit. -/
def bracket (body : Transaction ι ε σ α) : Transaction ι ε σ α := do
  query fun _ _ => ()
  let a ← body
  query fun _ _ => ()
  return a

/-- Run a transaction: the state changes only if every statement succeeds. -/
def transact (body : Transaction ι ε σ α) (turns : ℕ → Except ε ι) (s : σ) : Except ε α × σ :=
  match body.bracket.eval turns 0 s with
  | .ok (a, _, s') => (.ok a, s')
  | .error e => (.error e, s)

/-- From a state with `P` the program reaches a result and a state with `Q`, unless a fault
from outside stops it. -/
def Ensures (P : σ → Prop) (body : Transaction ι ε σ α) (Q : α → σ → Prop) : Prop :=
  ∀ turns n s, P s →
    (∃ a n' s', body.eval turns n s = .ok (a, n', s') ∧ Q a s') ∨
      ∃ e m, body.eval turns n s = .error e ∧ turns m = .error e

variable {P P' : σ → Prop} {Q Q' : α → σ → Prop} {R : β → σ → Prop}
  {body : Transaction ι ε σ α} {next : α → Transaction ι ε σ β}

theorem Ensures.mono (h : Ensures P body Q) (hP : ∀ {s}, P' s → P s)
    (hQ : ∀ {a s}, Q a s → Q' a s) : Ensures P' body Q' := by
  intro turns n s hs
  rcases h turns n s (hP hs) with ⟨a, n', s', heval, hQs⟩ | hfault
  · exact .inl ⟨a, n', s', heval, hQ hQs⟩
  · exact .inr hfault

theorem Ensures.pure {a : α} : Ensures (Q a) (Pure.pure a : Transaction ι ε σ α) Q :=
  fun _ n s hs => .inl ⟨a, n, s, rfl, hs⟩

/-- One program after another. -/
theorem Ensures.bind (h : Ensures P body Q) (hnext : ∀ a, Ensures (Q a) (next a) R) :
    Ensures P (body >>= next) R := by
  intro turns n s hs
  have hbind : (body >>= next).eval turns n s =
      body.eval turns n s >>= fun r => (next r.1).eval turns r.2.1 r.2.2 := rfl
  rcases h turns n s hs with ⟨a, n', s', heval, hQs⟩ | ⟨e, m, heval, hfault⟩
  · rw [hbind, heval]
    exact hnext a turns n' s' hQs
  · rw [hbind, heval]
    exact .inr ⟨e, m, rfl, hfault⟩

/-- A statement that breaks no constraint. -/
theorem Ensures.statement {run : ι → σ → Except ε (α × σ)}
    (h : ∀ input s, P s → ∃ a s', run input s = .ok (a, s') ∧ Q a s') :
    Ensures P (statement run) Q := by
  intro turns n s hs
  have heval : (Transaction.statement run).eval turns n s =
      turns n >>= fun input => run input s >>= fun r => .ok (r.1, n + 1, r.2) := rfl
  cases hturn : turns n with
  | error e => exact .inr ⟨e, n, by rw [heval, hturn]; rfl, hturn⟩
  | ok input =>
    obtain ⟨a, s', hrun, hQs⟩ := h input s hs
    refine .inl ⟨a, n + 1, s', ?_, hQs⟩
    rw [heval, hturn]
    change (run input s >>= _) = _
    rw [hrun]
    rfl

theorem Ensures.execute {run : ι → σ → Except ε σ} {Q : σ → Prop}
    (h : ∀ input s, P s → ∃ s', run input s = .ok s' ∧ Q s') :
    Ensures P (execute run) fun _ => Q := by
  refine .statement fun input s hs => ?_
  obtain ⟨s', hrun, hQs⟩ := h input s hs
  exact ⟨(), s', by rw [hrun]; rfl, hQs⟩

theorem Ensures.query {run : ι → σ → α} (h : ∀ input s, P s → Q (run input s) s) :
    Ensures P (query run : Transaction ι ε σ α) Q :=
  .statement fun input s hs => ⟨run input s, s, rfl, h input s hs⟩

/-- The rule for loops: the invariant speaks of the elements that are done. -/
theorem Ensures.forM {f : β → Transaction ι ε σ PUnit} {xs : List β} {I : List β → σ → Prop}
    (h : ∀ before x after, xs = before ++ x :: after →
      Ensures (I before) (f x) fun _ => I (before ++ [x])) :
    Ensures (I []) (xs.forM f) fun _ => I xs := by
  have hrest : ∀ after before, xs = before ++ after →
      Ensures (I before) (after.forM f) fun _ => I xs := by
    intro after
    induction after with
    | nil =>
      intro before hxs
      rw [List.append_nil] at hxs
      subst hxs
      exact Ensures.pure (Q := fun _ => I xs)
    | cons x after ih =>
      intro before hxs
      refine (h before x after hxs).bind fun _ => ih (before ++ [x]) ?_
      rw [hxs, List.append_assoc, List.singleton_append]
  exact hrest xs [] rfl

/-- A transaction has succeeded with a result and a state with `Q`, or a fault from outside
has stopped it, and the state is as it was. -/
def Settles (turns : ℕ → Except ε ι) (s : σ) (outcome : Except ε α × σ) (Q : α → σ → Prop) :
    Prop :=
  (∃ a s', outcome = (.ok a, s') ∧ Q a s') ∨
    ∃ e m, outcome = (.error e, s) ∧ turns m = .error e

/-- The rule for transactions. -/
theorem Ensures.transact (h : Ensures P body Q) (turns : ℕ → Except ε ι) {s : σ} (hs : P s) :
    Settles turns s (body.transact turns s) Q := by
  have hbracket : Ensures P body.bracket Q := by
    refine Ensures.bind (Q := fun _ => P) (.query fun _ _ => id) fun _ => ?_
    refine h.bind fun a => ?_
    exact Ensures.bind (Q := fun _ => Q a) (.query fun _ _ => id) fun _ => .pure
  unfold Transaction.transact
  rcases hbracket turns 0 s hs with ⟨a, n', s', heval, hQs⟩ | ⟨e, m, heval, hfault⟩
  · exact .inl ⟨a, s', by rw [heval], hQs⟩
  · exact .inr ⟨e, m, by rw [heval], hfault⟩

theorem Settles.mono {turns : ℕ → Except ε ι} {s : σ} {outcome : Except ε α × σ}
    (h : Settles turns s outcome Q) (hQ : ∀ {a s'}, Q a s' → Q' a s') :
    Settles turns s outcome Q' := by
  rcases h with ⟨a, s', houtcome, hQs⟩ | hfault
  · exact .inl ⟨a, s', houtcome, hQ hQs⟩
  · exact .inr hfault

/-- Without faults a transaction succeeds. -/
theorem Settles.succeeds {turns : ℕ → Except ε ι} {s : σ} {outcome : Except ε α × σ}
    (h : Settles turns s outcome Q) (hturns : ∀ n e, turns n ≠ .error e) :
    ∃ a, outcome.1 = .ok a := by
  rcases h with ⟨a, s', rfl, _⟩ | ⟨e, m, _, hfault⟩
  · exact ⟨a, rfl⟩
  · exact absurd hfault (hturns m e)

/-- What a transaction does to the state, whether it succeeds or not. -/
theorem Settles.state {turns : ℕ → Except ε ι} {s : σ} {outcome : Except ε α × σ} {J : σ → Prop}
    (h : Settles turns s outcome fun _ => J) (hs : J s) : J outcome.2 := by
  rcases h with ⟨a, s', rfl, hJ⟩ | ⟨e, m, rfl, _⟩
  · exact hJ
  · exact hs

end Transaction
