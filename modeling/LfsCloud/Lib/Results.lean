import Mathlib.Tactic

/-!
# Results

What a result says of the steps that it is made of.
-/

/-- A result of two steps is a result of each. -/
theorem except_bind_eq_ok {ε α β : Type} {p : Except ε α} {f : α → Except ε β} {b : β}
    (h : (p >>= f) = .ok b) : ∃ a, p = .ok a ∧ f a = .ok b := by
  cases p with
  | ok a => exact ⟨a, rfl, h⟩
  | error e => cases h

/-- The same for a step that may run out of fuel. -/
theorem exceptT_bind_eq_ok {ε α β : Type} {p : ExceptT ε Option α} {f : α → ExceptT ε Option β}
    {b : β} (h : (p >>= f).run = some (.ok b)) :
    ∃ a, p.run = some (.ok a) ∧ (f a).run = some (.ok b) := by
  rw [ExceptT.run_bind] at h
  obtain ⟨result, hp, hf⟩ := Option.bind_eq_some_iff.mp h
  cases result with
  | ok a => exact ⟨a, hp, hf⟩
  | error e => cases Option.some.inj hf

/-- Each element of a list has its result in the list of results. -/
theorem mem_of_mapM_eq_ok {ε α β : Type} {f : α → Except ε β} {xs : List α} {ys : List β}
    (h : xs.mapM f = .ok ys) : ∀ x ∈ xs, ∃ y ∈ ys, f x = .ok y := by
  induction xs generalizing ys with
  | nil => exact fun x hx => absurd hx List.not_mem_nil
  | cons x xs ih =>
    rw [List.mapM_cons] at h
    cases hx : f x with
    | error e =>
      rw [hx] at h
      cases h
    | ok y =>
      rw [hx] at h
      cases hxs : xs.mapM f with
      | error e =>
        rw [hxs] at h
        cases h
      | ok rest =>
        rw [hxs] at h
        obtain rfl := Except.ok.inj h
        rintro z hz
        rcases List.mem_cons.mp hz with rfl | hz
        · exact ⟨y, List.mem_cons_self, hx⟩
        · obtain ⟨w, hw, hfw⟩ := ih hxs z hz
          exact ⟨w, List.mem_cons_of_mem _ hw, hfw⟩

/-- Each element of the list of results is the result of an element of the list. -/
theorem exists_of_mem_mapM_eq_ok {ε α β : Type} {f : α → Except ε β} {xs : List α} {ys : List β}
    (h : xs.mapM f = .ok ys) : ∀ y ∈ ys, ∃ x ∈ xs, f x = .ok y := by
  induction xs generalizing ys with
  | nil =>
    obtain rfl := Except.ok.inj h
    exact fun y hy => absurd hy List.not_mem_nil
  | cons x xs ih =>
    rw [List.mapM_cons] at h
    obtain ⟨first, hfirst, h⟩ := except_bind_eq_ok h
    obtain ⟨rest, hrest, h⟩ := except_bind_eq_ok h
    obtain rfl := Except.ok.inj h
    intro y hy
    rcases List.mem_cons.mp hy with rfl | hy
    · exact ⟨x, List.mem_cons_self, hfirst⟩
    · obtain ⟨z, hz, hfz⟩ := ih hrest y hy
      exact ⟨z, List.mem_cons_of_mem _ hz, hfz⟩

/-- Steps that agree on the elements of a list give the same results. -/
theorem mapM_congr_mem {ε α β : Type} {f g : α → Except ε β} {xs : List α}
    (h : ∀ x ∈ xs, f x = g x) : xs.mapM f = xs.mapM g := by
  induction xs with
  | nil => rfl
  | cons x xs ih =>
    rw [List.mapM_cons, List.mapM_cons, h x List.mem_cons_self,
      ih fun y hy => h y (List.mem_cons_of_mem x hy)]

/-- Steps that succeed exactly under a condition, with a given result. -/
theorem mapM_eq_ok_iff {ε α β : Type} {f : α → Except ε β} {p : α → Prop} {g : α → β}
    {xs : List α} {ys : List β} (hok : ∀ x ∈ xs, p x → f x = .ok (g x))
    (hfails : ∀ x ∈ xs, ¬p x → ∃ e, f x = .error e) :
    xs.mapM f = .ok ys ↔ (∀ x ∈ xs, p x) ∧ ys = xs.map g := by
  induction xs generalizing ys with
  | nil =>
    constructor
    · intro h
      exact ⟨fun x hx => absurd hx List.not_mem_nil, (Except.ok.inj h).symm⟩
    · rintro ⟨_, rfl⟩
      rfl
  | cons x xs ih =>
    have hrest : ∀ {others}, xs.mapM f = .ok others ↔ (∀ y ∈ xs, p y) ∧ others = xs.map g :=
      ih (fun y hy => hok y (List.mem_cons_of_mem _ hy))
        fun y hy => hfails y (List.mem_cons_of_mem _ hy)
    rw [List.mapM_cons]
    constructor
    · intro h
      obtain ⟨first, hfirst, h⟩ := except_bind_eq_ok h
      obtain ⟨others, hothers, h⟩ := except_bind_eq_ok h
      cases h
      have hx : p x := by
        by_contra hnot
        obtain ⟨e, he⟩ := hfails x List.mem_cons_self hnot
        cases hfirst.symm.trans he
      obtain ⟨hall, rfl⟩ := hrest.mp hothers
      cases hfirst.symm.trans (hok x List.mem_cons_self hx)
      exact ⟨List.forall_mem_cons.mpr ⟨hx, hall⟩, rfl⟩
    · rintro ⟨hall, rfl⟩
      obtain ⟨hx, hxs⟩ := List.forall_mem_cons.mp hall
      rw [hok x List.mem_cons_self hx, hrest.mpr ⟨hxs, rfl⟩]
      rfl

/-- A loop is the same loop where its turns are. -/
theorem foldlM_congr_mem {ε α β : Type} {f g : β → α → Except ε β} {xs : List α}
    (h : ∀ x ∈ xs, ∀ b, f b x = g b x) (b : β) : xs.foldlM f b = xs.foldlM g b := by
  induction xs generalizing b with
  | nil => rfl
  | cons x xs ih =>
    rw [List.foldlM_cons, List.foldlM_cons, h x List.mem_cons_self b]
    exact congrArg _ (funext fun b' => ih (fun y hy => h y (List.mem_cons_of_mem _ hy)) b')

/-- A result with its errors in other terms. -/
theorem mapError_eq_ok {ε ε' α : Type} {f : ε → ε'} {result : Except ε α} {a : α}
    (h : result.mapError f = .ok a) : result = .ok a := by
  cases result with
  | ok b => exact congrArg Except.ok (Except.ok.inj h)
  | error e => cases h
