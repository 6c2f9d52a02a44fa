import LfsCloud.Lib.Sql

/-!
# No statement breaks a constraint

A reference to a row is kept by every change that keeps the row, whatever else it does.
-/

namespace Sql

variable {τ κ ι : Type} {now : ℤ} {db db' : Database τ κ ι} {contents contents' : Contents τ κ}
  {schema : Schema τ κ} {row : Row κ} {t target : τ}

namespace Database

/-- Every row of a table is still there, with what it said before. -/
def Survives (db db' : Database τ κ ι) (t : τ) : Prop :=
  db.names t ⊆ db'.names t ∧
    ∀ row ∈ db.rows t, ∃ row' ∈ db'.rows t, ∀ c ∈ db.names t, row' c = row c

theorem survives_of_tables_eq (h : db'.tables t = db.tables t) : db.Survives db' t := by
  unfold Survives names rows
  rw [h]
  exact ⟨fun _ hc => hc, fun row hrow => ⟨row, hrow, fun _ _ => rfl⟩⟩

theorem survives_of_none (h : db.tables t = none) : db.Survives db' t := by
  unfold Survives names rows
  rw [h]
  exact ⟨fun c hc => absurd hc List.not_mem_nil, fun row hrow => absurd hrow List.not_mem_nil⟩

/-- A reference stays where the tables that it is to survive. -/
theorem Resolves.mono (h : db.Resolves schema row)
    (hsurvives : ∀ c ∈ schema.columns, ∀ target ∈ c.2.references, db.Survives db' target.1) :
    db'.Resolves schema row := by
  intro c hc target htarget
  rcases h c hc target htarget with hnull | ⟨hname, parent, hparent, heq⟩
  · exact .inl hnull
  · obtain ⟨hnames, hrows⟩ := hsurvives c hc target htarget
    obtain ⟨parent', hparent', hsame⟩ := hrows parent hparent
    exact .inr ⟨hnames hname, parent', hparent', (hsame _ hname).trans heq⟩

theorem not_referred_iff : ¬db.Referred t ↔ ∀ t', ∀ contents ∈ db.tables t',
    ∀ c ∈ contents.schema.columns, ∀ target ∈ c.2.references, target.1 ≠ t := by
  simp only [Referred, not_exists, not_and, ne_eq]

/-- The tables alone decide whether a database is sound. -/
theorem Sound.of_tables (h : db.Sound) (htables : db'.tables = db.tables) : db'.Sound := by
  have hsurvives : ∀ t, db.Survives db' t := fun t => survives_of_tables_eq (by rw [htables])
  refine ⟨?_, ?_, ?_, ?_⟩ <;> rw [htables]
  · exact h.typed
  · exact h.admits
  · exact h.distinct
  · exact fun t contents ht row hrow => (h.resolves t contents ht row hrow).mono
      fun _ _ target _ => hsurvives target.1

/-- The rows of a table as they have to be; what they refer to is looked up in a database. -/
structure Fits (db : Database τ κ ι) (contents : Contents τ κ) : Prop where
  typed : ∀ row ∈ contents.rows, contents.schema.Typed row
  admits : ∀ row ∈ contents.rows, contents.schema.Admits row
  distinct : contents.rows.Pairwise fun row row' => ¬contents.schema.Clash row row'
  resolves : ∀ row ∈ contents.rows, db.Resolves contents.schema row

theorem Sound.fits (h : db.Sound) (ht : db.tables t = some contents) : db.Fits contents :=
  ⟨h.typed t contents ht, h.admits t contents ht, h.distinct t contents ht,
    h.resolves t contents ht⟩

section

variable [DecidableEq κ]

theorem insertRow_eq_ok (h : db.insertRow contents row = .ok contents') :
    contents' = { contents with rows := contents.rows ++ [row] } ∧ contents.schema.Typed row ∧
      contents.schema.Admits row ∧ (∀ old ∈ contents.rows, ¬contents.schema.Clash old row) ∧
      db.Resolves contents.schema row := by
  unfold insertRow at h
  split at h
  · cases h
  rename_i htyped
  split at h
  · cases h
  rename_i hconstraint
  split at h
  · cases h
  rename_i hresolves
  rw [not_or, not_not, not_exists] at hconstraint
  obtain rfl := Except.ok.inj h
  exact ⟨rfl, not_not.mp htyped, hconstraint.1, fun old hold hclash =>
    hconstraint.2 old ⟨hold, hclash⟩, not_not.mp hresolves⟩

theorem Fits.insertRow (h : db.Fits contents) (hinsert : db.insertRow contents row = .ok contents') :
    db.Fits contents' ∧ contents'.schema = contents.schema ∧
      contents'.rows = contents.rows ++ [row] := by
  obtain ⟨rfl, htyped, hadmits, hclash, hresolves⟩ := insertRow_eq_ok hinsert
  have hall : ∀ {P : Row κ → Prop}, (∀ old ∈ contents.rows, P old) → P row →
      ∀ new ∈ contents.rows ++ [row], P new := by
    intro P hold hrow new hnew
    rcases List.mem_append.mp hnew with hnew | hnew
    · exact hold new hnew
    · rw [List.mem_singleton.mp hnew]
      exact hrow
  refine ⟨⟨hall h.typed htyped, hall h.admits hadmits, ?_, hall h.resolves hresolves⟩, rfl, rfl⟩
  refine List.pairwise_append.mpr ⟨h.distinct, List.pairwise_singleton _ _, ?_⟩
  intro old hold new hnew
  rw [List.mem_singleton.mp hnew]
  exact hclash old hold

theorem Fits.insertRows {new : List (Row κ)} (h : db.Fits contents)
    (hinsert : db.insertRows contents new = .ok contents') :
    db.Fits contents' ∧ contents'.schema = contents.schema ∧
      contents'.rows = contents.rows ++ new := by
  induction new generalizing contents with
  | nil =>
    obtain rfl := Except.ok.inj hinsert
    exact ⟨h, rfl, (List.append_nil _).symm⟩
  | cons row rest ih =>
    rw [Database.insertRows] at hinsert
    cases hrow : db.insertRow contents row with
    | error error =>
      rw [hrow] at hinsert
      cases hinsert
    | ok next =>
      rw [hrow] at hinsert
      obtain ⟨hnext, hschema, hrows⟩ := h.insertRow hrow
      obtain ⟨hfits, hschema', hrows'⟩ := ih hnext hinsert
      refine ⟨hfits, hschema'.trans hschema, ?_⟩
      rw [hrows', hrows, List.append_assoc, List.singleton_append]

end

variable [DecidableEq τ]

theorem setTable_tables_self (contents : Option (Contents τ κ)) :
    (db.setTable t contents).tables t = contents := Function.update_self ..

theorem setTable_tables_of_ne {t' : τ} (h : t' ≠ t) (contents : Option (Contents τ κ)) :
    (db.setTable t contents).tables t' = db.tables t' := Function.update_of_ne h ..

theorem rows_setTable_of_ne {t' : τ} (h : t' ≠ t) (found : Option (Contents τ κ)) :
    (db.setTable t found).rows t' = db.rows t' := by
  unfold rows
  rw [setTable_tables_of_ne h]

theorem rows_setTable_self (contents : Contents τ κ) :
    (db.setTable t (some contents)).rows t = contents.rows := by
  unfold rows
  rw [setTable_tables_self]
  rfl

theorem survives_setTable_of_ne {t' : τ} (h : t' ≠ t) (contents : Option (Contents τ κ)) :
    db.Survives (db.setTable t contents) t' :=
  survives_of_tables_eq (setTable_tables_of_ne h contents)

/-- A table is written, and its rows survive. -/
theorem Sound.setTable (h : db.Sound)
    (htyped : ∀ row ∈ contents.rows, contents.schema.Typed row)
    (hadmits : ∀ row ∈ contents.rows, contents.schema.Admits row)
    (hdistinct : contents.rows.Pairwise fun row row' => ¬contents.schema.Clash row row')
    (hresolves : ∀ row ∈ contents.rows, db.Resolves contents.schema row)
    (hself : db.Survives (db.setTable t (some contents)) t) :
    (db.setTable t (some contents)).Sound := by
  have hsurvives : ∀ t', db.Survives (db.setTable t (some contents)) t' := by
    intro t'
    by_cases ht : t' = t
    · rw [ht]
      exact hself
    · exact survives_setTable_of_ne ht _
  have hcases : ∀ t', ∀ found ∈ (db.setTable t (some contents)).tables t',
      found = contents ∨ found ∈ db.tables t' := by
    intro t' found hfound
    by_cases ht : t' = t
    · rw [ht, setTable_tables_self] at hfound
      exact .inl (Option.some.inj hfound).symm
    · rw [setTable_tables_of_ne ht] at hfound
      exact .inr hfound
  refine ⟨fun t' found hfound => ?_, fun t' found hfound => ?_, fun t' found hfound => ?_,
    fun t' found hfound row hrow => ?_⟩
  · rcases hcases t' found hfound with rfl | hold
    · exact htyped
    · exact h.typed t' found hold
  · rcases hcases t' found hfound with rfl | hold
    · exact hadmits
    · exact h.admits t' found hold
  · rcases hcases t' found hfound with rfl | hold
    · exact hdistinct
    · exact h.distinct t' found hold
  · refine Resolves.mono ?_ fun _ _ target _ => hsurvives target.1
    rcases hcases t' found hfound with rfl | hold
    · exact hresolves row hrow
    · exact h.resolves t' found hold row hrow

/-- A table is taken away, or written anew, and no table refers to it. -/
theorem Sound.unreferred (h : db.Sound) (hreferred : ¬db.Referred t)
    (hcontents : ∀ found ∈ db'.tables t, found.rows = [])
    (htables : ∀ t', t' ≠ t → db'.tables t' = db.tables t') : db'.Sound := by
  have hold : ∀ t', ∀ found ∈ db'.tables t', found.rows = [] ∨ found ∈ db.tables t' := by
    intro t' found hfound
    by_cases ht : t' = t
    · subst ht
      exact .inl (hcontents found hfound)
    · rw [htables t' ht] at hfound
      exact .inr hfound
  refine ⟨fun t' found hfound row hrow => ?_, fun t' found hfound row hrow => ?_,
    fun t' found hfound => ?_, fun t' found hfound row hrow => ?_⟩
  · rcases hold t' found hfound with hnil | hfound
    · exact absurd hrow (hnil ▸ List.not_mem_nil)
    · exact h.typed t' found hfound row hrow
  · rcases hold t' found hfound with hnil | hfound
    · exact absurd hrow (hnil ▸ List.not_mem_nil)
    · exact h.admits t' found hfound row hrow
  · rcases hold t' found hfound with hnil | hfound
    · rw [hnil]
      exact List.Pairwise.nil
    · exact h.distinct t' found hfound
  · rcases hold t' found hfound with hnil | hfound
    · exact absurd hrow (hnil ▸ List.not_mem_nil)
    · refine (h.resolves t' found hfound row hrow).mono fun c hc target htarget => ?_
      exact survives_of_tables_eq
        (htables _ (not_referred_iff.mp hreferred t' found hfound c hc target htarget))

/-- More rows, and the others survive. -/
theorem survives_append {added : List (Row κ)} (ht : db.tables t = some contents)
    (hschema : contents'.schema = contents.schema)
    (hrows : contents'.rows = contents.rows ++ added) :
    db.Survives (db.setTable t (some contents')) t := by
  unfold Survives names rows
  rw [setTable_tables_self, ht]
  refine ⟨?_, fun row hrow => ⟨row, ?_, fun _ _ => rfl⟩⟩
  · change contents.schema.names ⊆ contents'.schema.names
    rw [hschema]
    exact List.Subset.refl _
  · change row ∈ contents'.rows
    rw [hrows]
    exact List.mem_append_left _ hrow

theorem Fits.setTable (hfits : db.Fits contents) (h : db.Sound)
    (hself : db.Survives (db.setTable t (some contents)) t) :
    (db.setTable t (some contents)).Sound :=
  h.setTable hfits.typed hfits.admits hfits.distinct hfits.resolves hself

end Database

/-! ## Columns -/

theorem Column.added_eq_some {column : Column τ κ} {v : Value} (h : column.added = some v) :
    column.default = .value v ∧ column.type.holds v = true ∧
      (column.notNull = true → v ≠ .null) ∧ (column.references.isSome = true → v = .null) := by
  unfold Column.added at h
  split at h
  · cases h
  rename_i value hdefault
  split at h
  · cases h
  rename_i hfits
  obtain rfl := Option.some.inj h
  simp only [not_or, not_and, not_not, Bool.not_eq_false] at hfits
  exact ⟨hdefault, hfits.1, hfits.2.1, hfits.2.2⟩

section

variable [DecidableEq κ] {name : κ} {column : Column τ κ} {v : Value}

/-- The columns that were there are looked at as before. -/
theorem update_of_mem_names (hname : name ∉ schema.names) {c : κ} (hc : c ∈ schema.names) :
    Function.update row name v c = row c := by
  have hne : c ≠ name := fun h => hname (h ▸ hc)
  exact Function.update_of_ne hne v row

/-- A fact about each column of a row, old or new. -/
theorem forall_addColumn {P : κ × Column τ κ → Value → Prop} (hname : name ∉ schema.names)
    (hold : ∀ c ∈ schema.columns, P c (row c.1)) (hnew : P (name, column) v) :
    ∀ c ∈ (schema.addColumn name column).columns, P c (Function.update row name v c.1) := by
  intro c hc
  rcases List.mem_append.mp hc with hc | hc
  · rw [update_of_mem_names hname (List.mem_map_of_mem hc)]
    exact hold c hc
  · rw [List.mem_singleton.mp hc, Function.update_self]
    exact hnew

/-- The rows with a column more clash as they did before. -/
theorem clash_addColumn {row' : Row κ} (hname : name ∉ schema.names) :
    (schema.addColumn name column).Clash (Function.update row name v)
      (Function.update row' name v) ↔ schema.Clash row row' := by
  have hkey : ∀ key ∈ schema.keys, (∀ c ∈ key, Function.update row name v c ≠ .null ∧
      Function.update row name v c = Function.update row' name v c) ↔
      ∀ c ∈ key, row c ≠ .null ∧ row c = row' c := by
    intro key hkey
    refine forall₂_congr fun c hc => ?_
    have hmem := schema.keys_named key hkey c hc
    rw [update_of_mem_names hname hmem, update_of_mem_names hname hmem]
  exact exists_congr fun key => and_congr_right fun hmem => hkey key hmem

/-- A column is added, whose value meets its checks where there are rows. -/
theorem Database.Fits.addColumn (h : db.Fits contents) (hname : name ∉ contents.schema.names)
    (hadded : column.added = some v)
    (hchecks : contents.rows = [] ∨ ∀ check ∈ column.check, check.passes v = true) :
    db.Fits (contents.addColumn name column v) := by
  obtain ⟨_, htype, hnull, hreference⟩ := Column.added_eq_some hadded
  rcases hchecks with hnil | hchecks
  · have hrows : (contents.addColumn name column v).rows = [] := by
      unfold Contents.addColumn
      rw [hnil]
      rfl
    refine ⟨?_, ?_, ?_, ?_⟩ <;> rw [hrows]
    · exact fun _ hrow => absurd hrow List.not_mem_nil
    · exact fun _ hrow => absurd hrow List.not_mem_nil
    · exact List.Pairwise.nil
    · exact fun _ hrow => absurd hrow List.not_mem_nil
  have hrows : ∀ {P : Row κ → Prop}, (∀ row ∈ contents.rows, P (Function.update row name v)) →
      ∀ row ∈ (contents.addColumn name column v).rows, P row := by
    intro P hP row hrow
    obtain ⟨old, hold, rfl⟩ := List.mem_map.mp hrow
    exact hP old hold
  refine ⟨hrows fun row hrow => ?_, hrows fun row hrow => ?_, ?_, hrows fun row hrow => ?_⟩
  · exact forall_addColumn (P := fun c value => c.2.type.holds value = true) hname
      (h.typed row hrow) htype
  · exact forall_addColumn (P := fun c value => (c.2.notNull = true → value ≠ .null) ∧
      ∀ check ∈ c.2.check, check.passes value = true) hname (h.admits row hrow) ⟨hnull, hchecks⟩
  · refine List.pairwise_map.mpr (h.distinct.imp fun hclash => ?_)
    exact fun hnew => hclash ((clash_addColumn hname).mp hnew)
  · refine forall_addColumn (P := fun c value => ∀ target ∈ c.2.references, value = .null ∨
      target.2 ∈ db.names target.1 ∧ ∃ parent ∈ db.rows target.1, parent target.2 = value) hname
      (h.resolves row hrow) fun target htarget => .inl (hreference ?_)
    exact Option.isSome_iff_exists.mpr ⟨target, htarget⟩

end

section

variable [DecidableEq τ] [DecidableEq κ] {name : κ} {column : Column τ κ} {v : Value}

theorem Database.survives_addColumn (ht : db.tables t = some contents)
    (hname : name ∉ contents.schema.names) :
    db.Survives (db.setTable t (some (contents.addColumn name column v))) t := by
  unfold Survives names rows
  rw [setTable_tables_self, ht]
  refine ⟨fun c hc => ?_, fun row hrow => ⟨Function.update row name v,
    List.mem_map_of_mem hrow, fun c hc => update_of_mem_names hname hc⟩⟩
  change c ∈ (contents.schema.columns ++ [(name, column)]).map Prod.fst
  rw [List.map_append]
  exact List.mem_append_left _ hc

end

/-! ## Statements -/

section

variable [Fintype τ] [DecidableEq τ] [DecidableEq κ] [DecidableEq ι]

theorem exec_createTable_sound {ifNotExists : Bool} (h : db.Sound)
    (hexec : exec now db (.createTable ifNotExists t schema) = .ok db') : db'.Sound := by
  simp only [exec] at hexec
  split at hexec
  next =>
    split at hexec
    · obtain rfl := Except.ok.inj hexec
      exact h
    · cases hexec
  next hnone =>
    obtain rfl := Except.ok.inj hexec
    refine h.setTable ?_ ?_ List.Pairwise.nil ?_ (Database.survives_of_none hnone)
    all_goals exact fun row hrow => absurd hrow List.not_mem_nil

theorem exec_dropTable_sound (h : db.Sound) (hexec : exec now db (.dropTable t) = .ok db') :
    db'.Sound := by
  simp only [exec] at hexec
  split at hexec
  · cases hexec
  split at hexec
  · cases hexec
  rename_i hreferred
  obtain rfl := Except.ok.inj hexec
  refine h.unreferred hreferred (fun found hfound => ?_)
    fun t' ht => Database.setTable_tables_of_ne ht none
  rw [Option.mem_def, Database.setTable_tables_self] at hfound
  cases hfound

theorem exec_deleteAll_sound (h : db.Sound) (hexec : exec now db (.deleteAll t) = .ok db') :
    db'.Sound := by
  simp only [exec] at hexec
  split at hexec
  · cases hexec
  split at hexec
  · cases hexec
  rename_i hreferred
  obtain rfl := Except.ok.inj hexec
  refine h.unreferred hreferred (fun found hfound => ?_)
    fun t' ht => Database.setTable_tables_of_ne ht _
  rw [Option.mem_def, Database.setTable_tables_self] at hfound
  rw [← Option.some.inj hfound]

theorem exec_renameTable_sound (h : db.Sound)
    (hexec : exec now db (.renameTable t target) = .ok db') : db'.Sound := by
  simp only [exec] at hexec
  split at hexec
  · cases hexec
  · cases hexec
  rename_i contents hcontents hnone
  split at hexec
  · cases hexec
  rename_i hreferred
  obtain rfl := Except.ok.inj hexec
  have hwithout : (db.setTable t none).Sound := by
    refine h.unreferred hreferred (fun found hfound => ?_)
      fun t' ht => Database.setTable_tables_of_ne ht none
    rw [Option.mem_def, Database.setTable_tables_self] at hfound
    cases hfound
  have hne : target ≠ t := by
    rintro rfl
    rw [hcontents] at hnone
    cases hnone
  have hsurvives : ∀ c ∈ contents.schema.columns, ∀ found ∈ c.2.references,
      db.Survives (db.setTable t none) found.1 := fun c hc found hfound =>
    Database.survives_setTable_of_ne
      (Database.not_referred_iff.mp hreferred t contents hcontents c hc found hfound) none
  have hfits : (db.setTable t none).Fits contents :=
    ⟨h.typed t contents hcontents, h.admits t contents hcontents, h.distinct t contents hcontents,
      fun row hrow => (h.resolves t contents hcontents row hrow).mono hsurvives⟩
  have hnone' : (db.setTable t none).tables target = none := by
    rw [Database.setTable_tables_of_ne hne]
    exact hnone
  exact Database.Sound.of_tables (hfits.setTable hwithout (Database.survives_of_none hnone')) rfl

theorem exec_addColumn_sound {name : κ} {column : Column τ κ} (h : db.Sound)
    (hexec : exec now db (.addColumn t name column) = .ok db') : db'.Sound := by
  simp only [exec] at hexec
  split at hexec
  · cases hexec
  · cases hexec
  rename_i contents v ht hadded
  split at hexec
  · cases hexec
  rename_i hname
  split at hexec
  · cases hexec
  rename_i hchecks
  obtain rfl := Except.ok.inj hexec
  simp only [not_and, not_exists, Bool.not_eq_false] at hchecks
  have hfits : db.Fits (contents.addColumn name column v) := by
    refine (h.fits ht).addColumn hname hadded ?_
    by_cases hrows : contents.rows = []
    · exact .inl hrows
    · exact .inr fun check hcheck => hchecks hrows check hcheck
  exact hfits.setTable h (Database.survives_addColumn ht hname)

theorem exec_insertOrIgnore_sound {values : List (κ × Value)} (h : db.Sound)
    (hexec : exec now db (.insertOrIgnore t values) = .ok db') : db'.Sound := by
  simp only [exec] at hexec
  split at hexec
  · cases hexec
  rename_i contents ht
  split at hexec
  · cases hexec
  split at hexec
  · rename_i hinsert
    obtain rfl := Except.ok.inj hexec
    obtain ⟨hfits, hschema, hrows⟩ := (h.fits ht).insertRow hinsert
    exact hfits.setTable h (Database.survives_append ht hschema hrows)
  · split at hexec
    · obtain rfl := Except.ok.inj hexec
      exact h
    · cases hexec

theorem exec_insertSelect_sound {columns : List κ} {source : τ} (h : db.Sound)
    (hexec : exec now db (.insertSelect target columns source) = .ok db') : db'.Sound := by
  simp only [exec] at hexec
  split at hexec
  · rename_i contents sourceContents ht hsource
    split at hexec
    · cases hexec
    cases hinsert : db.insertRows contents
        (sourceContents.rows.map (contents.schema.copyRow now columns)) with
    | error error =>
      rw [hinsert] at hexec
      cases hexec
    | ok written =>
      rw [hinsert] at hexec
      obtain rfl := Except.ok.inj hexec
      obtain ⟨hfits, hschema, hrows⟩ := (h.fits ht).insertRows hinsert
      exact hfits.setTable h (Database.survives_append ht hschema hrows)
  · cases hexec

/-- No statement breaks a constraint. -/
theorem exec_sound (h : db.Sound) {statement : Statement τ κ ι}
    (hexec : exec now db statement = .ok db') : db'.Sound := by
  cases statement with
  | createTable => exact exec_createTable_sound h hexec
  | createIndex name t columns =>
    simp only [exec] at hexec
    split at hexec
    · cases hexec
    · obtain rfl := Except.ok.inj hexec
      exact h
    · split at hexec
      · obtain rfl := Except.ok.inj hexec
        exact h.of_tables rfl
      · cases hexec
  | dropIndex =>
    obtain rfl := Except.ok.inj hexec
    exact h.of_tables rfl
  | dropTable => exact exec_dropTable_sound h hexec
  | renameTable => exact exec_renameTable_sound h hexec
  | addColumn => exact exec_addColumn_sound h hexec
  | insertOrIgnore => exact exec_insertOrIgnore_sound h hexec
  | insertSelect => exact exec_insertSelect_sound h hexec
  | deleteAll => exact exec_deleteAll_sound h hexec
  | setUserVersion =>
    obtain rfl := Except.ok.inj hexec
    exact h.of_tables rfl

end

end Sql
