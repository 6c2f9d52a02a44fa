import Mathlib.Tactic

/-!
# Records

A list is cut at separators, or read as records one after the other. A reader of records that reads
what is written and nothing else does so for lists of records.
-/

namespace Records

variable {α β γ : Type}

/-! ## Cuts -/

/-- The parts of a list around the first occurrence of a separator. -/
def cut [DecidableEq β] (sep : β) : List β → Option (List β × List β)
  | [] => none
  | b :: rest =>
    if b = sep then some ([], rest)
    else (cut sep rest).map fun parts => (b :: parts.1, parts.2)

/-- A cut is at the first separator. -/
theorem cut_eq_some [DecidableEq β] {sep : β} {list front back : List β} :
    cut sep list = some (front, back) ↔ list = front ++ sep :: back ∧ sep ∉ front := by
  induction list generalizing front with
  | nil =>
    constructor
    · intro h
      cases h
    · rintro ⟨h, _⟩
      exact absurd h.symm (List.append_ne_nil_of_right_ne_nil _ (List.cons_ne_nil _ _))
  | cons b rest ih =>
    unfold cut
    split_ifs with hsep
    · subst hsep
      constructor
      · intro h
        obtain ⟨rfl, rfl⟩ := Prod.mk.inj (Option.some.inj h)
        exact ⟨rfl, List.not_mem_nil⟩
      · rintro ⟨h, hmem⟩
        cases front with
        | nil => rw [(List.cons.inj h).2]
        | cons c front =>
          exact absurd (List.mem_cons.mpr (.inl (List.cons.inj h).1)) hmem
    · rw [Option.map_eq_some_iff]
      constructor
      · rintro ⟨⟨front', back'⟩, hcut, heq⟩
        obtain ⟨rfl, rfl⟩ := Prod.mk.inj heq
        obtain ⟨rfl, hmem⟩ := ih.mp hcut
        refine ⟨rfl, fun h => ?_⟩
        rcases List.mem_cons.mp h with h | h
        · exact hsep h.symm
        · exact hmem h
      · rintro ⟨h, hmem⟩
        cases front with
        | nil => exact absurd (List.cons.inj h).1 hsep
        | cons c front =>
          obtain ⟨rfl, hrest⟩ := List.cons.inj h
          exact ⟨(front, back), ih.mpr ⟨hrest, fun h => hmem (List.mem_cons_of_mem _ h)⟩, rfl⟩

/-- The pieces of a list hold its elements, but not the separator. -/
theorem mem_of_mem_splitOn [BEq β] [LawfulBEq β] {sep : β} {list : List β} :
    ∀ piece ∈ list.splitOn sep, ∀ b ∈ piece, b ∈ list ∧ b ≠ sep := by
  induction list with
  | nil =>
    intro piece hpiece b hb
    rw [List.splitOn_nil] at hpiece
    rw [List.mem_singleton.mp hpiece] at hb
    cases hb
  | cons first list ih =>
    intro piece hpiece b hb
    rw [List.splitOn_cons_eq_if_modifyHead] at hpiece
    split_ifs at hpiece with hfirst
    · rcases List.mem_cons.mp hpiece with rfl | hrest
      · cases hb
      · obtain ⟨hmem, hne⟩ := ih piece hrest b hb
        exact ⟨List.mem_cons_of_mem _ hmem, hne⟩
    · cases hpieces : list.splitOn sep with
      | nil => exact absurd hpieces (List.splitOn_ne_nil _ _)
      | cons front pieces =>
        rw [hpieces] at hpiece ih
        rw [List.modifyHead_cons] at hpiece
        rcases List.mem_cons.mp hpiece with rfl | hrest
        · rcases List.mem_cons.mp hb with rfl | hmem
          · exact ⟨List.mem_cons_self, fun h => hfirst (by simp [h])⟩
          · obtain ⟨hmem, hne⟩ := ih front List.mem_cons_self b hmem
            exact ⟨List.mem_cons_of_mem _ hmem, hne⟩
        · obtain ⟨hmem, hne⟩ := ih piece (List.mem_cons_of_mem _ hrest) b hb
          exact ⟨List.mem_cons_of_mem _ hmem, hne⟩

/-! ## Records one after the other -/

/-- A reader of a record: it leaves less than there was. -/
structure RecordReader (α β : Type) where
  read : List β → Option (α × List β)
  shorter : ∀ {list record rest}, read list = some (record, rest) → rest.length < list.length

/-- The records of a whole list. -/
def RecordReader.readAll (reader : RecordReader α β) (list : List β) : Option (List α) :=
  if list = [] then some []
  else
    match _h : reader.read list with
    | none => none
    | some (record, rest) => (reader.readAll rest).map (record :: ·)
termination_by list.length
decreasing_by exact reader.shorter _h

/-- What is read is what was written: `view` is what the reader returns for a value. -/
structure RecordReader.Inverts (reader : RecordReader α β) (view : γ → α) (write : γ → List β) :
    Prop where
  read_write : ∀ value rest, reader.read (write value ++ rest) = some (view value, rest)
  write_read : ∀ {list record rest}, reader.read list = some (record, rest) →
    ∃ value, record = view value ∧ list = write value ++ rest

variable {reader : RecordReader α β} {view : γ → α} {write : γ → List β}

/-- A whole list is read exactly when it was written. -/
theorem RecordReader.Inverts.readAll_eq_some (h : reader.Inverts view write) {list : List β}
    {records : List α} :
    reader.readAll list = some records ↔
      ∃ values : List γ, list = values.flatMap write ∧ records = values.map view := by
  constructor
  · intro hread
    induction hlength : list.length using Nat.strong_induction_on generalizing list records with
    | _ length ih =>
      unfold readAll at hread
      split_ifs at hread with hempty
      · obtain rfl := Option.some.inj hread
        exact ⟨[], hempty, rfl⟩
      · split at hread
        · cases hread
        · next record rest hrecord =>
          obtain ⟨others, hothers, rfl⟩ := Option.map_eq_some_iff.mp hread
          obtain ⟨value, rfl, rfl⟩ := h.write_read hrecord
          have hless := reader.shorter hrecord
          obtain ⟨values, rfl, rfl⟩ := ih rest.length (hlength ▸ hless) hothers rfl
          exact ⟨value :: values, rfl, rfl⟩
  · rintro ⟨values, rfl, rfl⟩
    induction values with
    | nil =>
      unfold readAll
      exact if_pos rfl
    | cons value values ih =>
      have hrecord := h.read_write value (values.flatMap write)
      have hless := reader.shorter hrecord
      unfold readAll
      rw [List.flatMap_cons, if_neg]
      · split
        · next hnone => cases hnone.symm.trans hrecord
        · next record rest hsome =>
          obtain ⟨rfl, rfl⟩ := Prod.mk.inj (Option.some.inj (hsome.symm.trans hrecord))
          rw [ih]
          rfl
      · intro hempty
        rw [hempty] at hless
        exact Nat.not_lt_zero _ hless

end Records
