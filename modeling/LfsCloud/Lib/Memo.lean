import LfsCloud.Lib.Results
import LfsCloud.Lib.Table

/-!
# Memoised computations

A computation that keeps results in tables is compared with computations that keep nothing. It
lies between two of them when it returns wherever the first one does, and returns what the second
one returns. Both may be the same.
-/

namespace Memo

variable {σ ε α β γ κ : Type}

/-- From every state with `P` the computation returns what `lower` returns, and all that it returns
is returned by `upper`; then `Q` holds of the result and of the state behind it. Where it fails, it
fails with an error that is allowed. -/
structure Between (E : ε → Prop) (P : σ → Prop) (m : StateT σ (Except ε) α)
    (lower upper : Except ε α) (Q : α → σ → Prop) : Prop where
  returns : ∀ {s}, P s → ∀ {a}, lower = .ok a → ∃ s', m.run s = .ok (a, s')
  returned : ∀ {s}, P s → ∀ {a s'}, m.run s = .ok (a, s') → upper = .ok a ∧ Q a s'
  fails : ∀ {s}, P s → ∀ {e}, m.run s = .error e → E e

variable {E : ε → Prop} {P N : σ → Prop} {Q Q' : α → σ → Prop} {R : β → σ → Prop}
  {m : StateT σ (Except ε) α} {lower upper : Except ε α}

/-! ## Rules -/

theorem Between.weaken (h : Between E P m lower upper Q) (hP : ∀ s, N s → P s)
    (hQ : ∀ a s, upper = .ok a → Q a s → Q' a s) : Between E N m lower upper Q' where
  returns hs _ ha := h.returns (hP _ hs) ha
  returned hs _ _ hrun := by
    obtain ⟨ha, hq⟩ := h.returned (hP _ hs) hrun
    exact ⟨ha, hQ _ _ ha hq⟩
  fails hs _ hrun := h.fails (hP _ hs) hrun

/-- The bounds may be wider. -/
theorem Between.widen {lower' upper' : Except ε α} (h : Between E P m lower upper Q)
    (hlower : ∀ a, lower' = .ok a → lower = .ok a) (hupper : ∀ a, upper = .ok a → upper' = .ok a) :
    Between E P m lower' upper' Q where
  returns hs _ ha := h.returns hs (hlower _ ha)
  returned hs _ _ hrun := by
    obtain ⟨ha, hq⟩ := h.returned hs hrun
    exact ⟨hupper _ ha, hq⟩
  fails := h.fails

/-- A result without a computation. -/
theorem Between.pure {a : α} (h : ∀ s, P s → Q a s) :
    Between E P (Pure.pure a : StateT σ (Except ε) α) (.ok a) (.ok a) Q where
  returns {s} _ _ ha := ⟨s, congrArg (fun c => Except.ok (c, s)) (Except.ok.inj ha)⟩
  returned hs _ _ hrun := by
    obtain ⟨rfl, rfl⟩ := Prod.mk.inj (Except.ok.inj hrun)
    exact ⟨rfl, h _ hs⟩
  fails _ _ hrun := by cases hrun

/-- A computation that keeps nothing. -/
theorem Between.lift {x : Except ε α} (h : ∀ a s, x = .ok a → P s → Q a s)
    (he : ∀ e, x = .error e → E e) : Between E P (liftM x : StateT σ (Except ε) α) x x Q := by
  cases x with
  | error e =>
    refine ⟨fun _ _ ha => (by cases ha), fun _ _ _ hrun => (by cases hrun), fun _ e' hrun => ?_⟩
    have hsame : (Except.error e : Except ε (α × σ)) = .error e' := hrun
    exact he e' (congrArg _ (Except.error.inj hsame))
  | ok a =>
    refine ⟨fun {s} _ _ ha => ⟨s, congrArg (fun c => Except.ok (c, s)) (Except.ok.inj ha)⟩,
      fun hs _ _ hrun => ?_, fun _ _ hrun => (by cases hrun)⟩
    obtain ⟨rfl, rfl⟩ := Prod.mk.inj (Except.ok.inj hrun)
    exact ⟨rfl, h _ _ rfl hs⟩

/-- Two computations in sequence. -/
theorem Between.bind {f : α → StateT σ (Except ε) β} {g h : α → Except ε β}
    (hm : Between E P m lower upper Q)
    (hf : ∀ a, upper = .ok a → Between E (Q a) (f a) (g a) (h a) R) :
    Between E P (m >>= f) (lower >>= g) (upper >>= h) R where
  returns hs b hb := by
    obtain ⟨a, ha, hg⟩ := except_bind_eq_ok hb
    obtain ⟨s', hrun⟩ := hm.returns hs ha
    obtain ⟨hupper, hq⟩ := hm.returned hs hrun
    obtain ⟨s'', hrest⟩ := (hf a hupper).returns hq hg
    refine ⟨s'', ?_⟩
    rw [StateT.run_bind, hrun]
    exact hrest
  returned hs b s'' hrun := by
    rw [StateT.run_bind] at hrun
    obtain ⟨⟨a, s'⟩, hfirst, hrest⟩ := except_bind_eq_ok hrun
    obtain ⟨ha, hq⟩ := hm.returned hs hfirst
    obtain ⟨hb, hr⟩ := (hf a ha).returned hq hrest
    rw [ha]
    exact ⟨hb, hr⟩
  fails {s} hs e hrun := by
    rw [StateT.run_bind] at hrun
    cases hfirst : m.run s with
    | error e' =>
      rw [hfirst] at hrun
      obtain rfl := Except.error.inj hrun
      exact hm.fails hs hfirst
    | ok result =>
      rw [hfirst] at hrun
      obtain ⟨ha, hq⟩ := hm.returned hs hfirst
      exact (hf result.1 ha).fails hq hrun

/-- A change of the state that the result does not depend on. -/
theorem Between.modify {f : σ → σ} {k : Unit → StateT σ (Except ε) α}
    (h : Between E N (k ()) lower upper Q) (hf : ∀ s, P s → N (f s)) :
    Between E P (modify f >>= k) lower upper Q where
  returns hs _ ha := h.returns (hf _ hs) ha
  returned hs _ _ hrun := h.returned (hf _ hs) hrun
  fails hs _ hrun := h.fails (hf _ hs) hrun

/-- A loop: each turn keeps an invariant of what was gathered so far. -/
theorem Between.foldlM {J : β → σ → Prop} {f : β → α → StateT σ (Except ε) β}
    {g h : β → α → Except ε β} {xs : List α}
    (hf : ∀ x ∈ xs, ∀ b, Between E (J b) (f b x) (g b x) (h b x) J) (b : β) :
    Between E (J b) (xs.foldlM f b) (xs.foldlM g b) (xs.foldlM h b) J := by
  induction xs generalizing b with
  | nil => exact Between.pure fun _ hs => hs
  | cons x xs ih =>
    rw [List.foldlM_cons, List.foldlM_cons, List.foldlM_cons]
    exact (hf x List.mem_cons_self b).bind fun b' _ =>
      ih (fun y hy => hf y (List.mem_cons_of_mem _ hy)) b'

/-- A list of results, while an invariant of the state is kept. -/
theorem Between.mapM {I : σ → Prop} {f : α → StateT σ (Except ε) β} {g h : α → Except ε β}
    {xs : List α} (hf : ∀ x ∈ xs, Between E I (f x) (g x) (h x) fun _ => I) :
    Between E I (xs.mapM f) (xs.mapM g) (xs.mapM h) fun _ => I := by
  induction xs with
  | nil => exact Between.pure fun _ hs => hs
  | cons x xs ih =>
    rw [List.mapM_cons, List.mapM_cons, List.mapM_cons]
    exact (hf x List.mem_cons_self).bind fun y _ =>
      (ih fun z hz => hf z (List.mem_cons_of_mem _ hz)).bind fun ys _ =>
        Between.pure fun _ hs => hs

/-! ## Tables of results -/

/-- A computation whose result is looked up first, and put into a table otherwise. -/
def memo (look : σ → Option α) (put : α → σ → σ) (m : StateT σ (Except ε) α) :
    StateT σ (Except ε) α := fun s =>
  match look s with
  | some a => .ok (a, s)
  | none => (m.run s).map fun result => (result.1, put result.1 result.2)

variable {look : σ → Option α} {put : α → σ → σ} {s s' : σ} {a : α}

theorem memo_of_look (h : look s = some a) : (memo look put m).run s = .ok (a, s) := by
  unfold memo
  simp only [StateT.run, h]

/-- What a computation puts into the table. -/
theorem memo_of_run (h : look s = none) (hrun : m.run s = .ok (a, s')) :
    (memo look put m).run s = .ok (a, put a s') := by
  unfold memo
  simp only [StateT.run] at hrun ⊢
  simp only [h, hrun, Except.map]

theorem memo_of_error {e : ε} (h : look s = none) (hrun : m.run s = .error e) :
    (memo look put m).run s = .error e := by
  unfold memo
  simp only [StateT.run] at hrun ⊢
  simp only [h, hrun, Except.map]

/-- A result in the table is the one that would be computed, and a result that was computed may be
put there. -/
theorem Between.memo {M : α → σ → Prop}
    (hlook : ∀ s a, P s → look s = some a → upper = .ok a ∧ Q a s)
    (hm : Between E P m lower upper M) (hput : ∀ a s, upper = .ok a → M a s → Q a (put a s)) :
    Between E P (memo look put m) lower upper Q where
  returns {s} hs a ha := by
    obtain ⟨s', hrun⟩ := hm.returns hs ha
    cases hfound : look s with
    | some b =>
      have hsame := (hlook s b hs hfound).1.symm.trans (hm.returned hs hrun).1
      exact ⟨s, by rw [memo_of_look hfound, Except.ok.inj hsame]⟩
    | none => exact ⟨_, memo_of_run hfound hrun⟩
  returned {s} hs a s' hresult := by
    cases hfound : look s with
    | some b =>
      rw [memo_of_look hfound] at hresult
      obtain ⟨rfl, rfl⟩ := Prod.mk.inj (Except.ok.inj hresult)
      exact hlook s b hs hfound
    | none =>
      cases hrun : m.run s with
      | error e =>
        rw [memo_of_error hfound hrun] at hresult
        cases hresult
      | ok result =>
        rw [memo_of_run hfound hrun] at hresult
        obtain ⟨rfl, rfl⟩ := Prod.mk.inj (Except.ok.inj hresult)
        obtain ⟨ha, hM⟩ := hm.returned hs hrun
        exact ⟨ha, hput _ _ ha hM⟩
  fails {s} hs e hresult := by
    cases hfound : look s with
    | some b =>
      rw [memo_of_look hfound] at hresult
      cases hresult
    | none =>
      cases hrun : m.run s with
      | error e' =>
        rw [memo_of_error hfound hrun] at hresult
        obtain rfl := Except.error.inj hresult
        exact hm.fails hs hrun
      | ok result =>
        rw [memo_of_run hfound hrun] at hresult
        cases hresult

end Memo
