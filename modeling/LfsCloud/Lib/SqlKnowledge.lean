import LfsCloud.Lib.SqlSound
import LfsCloud.Lib.Transaction

/-!
# What is known of a database

What a list of statements does to the schema of a database can be computed from its schema alone.
Of its rows it is known from which table they come. What is computed holds of every database that
is described so, whatever its rows are.
-/

namespace Sql

variable {τ κ ι : Type}

/-- Where the rows of a table come from: there are none, they are those of a table at the start,
or nothing is known of them. -/
inductive Origin (τ : Type)
  | nothing
  | of (t : τ)
  | unknown
  deriving DecidableEq

/-- A table that is there, or one that may not be there. -/
structure Known (τ κ : Type) where
  schema : Schema τ κ
  origin : Origin τ
  certain : Bool
  deriving DecidableEq

/-- What is known of a database: its tables; the tables that its indexes are on, and whether they
are there for certain; and its version. -/
structure Knowledge (τ κ ι : Type) where
  tables : τ → Option (Known τ κ)
  indexes : ι → Option (τ × Bool)
  userVersion : ℤ

/-- The rows are those of a table at the start: as many, in the same order, and each says what it
said. -/
def SameRows (start : Database τ κ ι) (t : τ) (names : List κ) (rows : List (Row κ)) : Prop :=
  start.names t ⊆ names ∧
    List.Forall₂ (fun row row' => ∀ c ∈ start.names t, row' c = row c) (start.rows t) rows

/-- The rows come from where they are known to. -/
def Origin.Holds (start : Database τ κ ι) (names : List κ) (rows : List (Row κ)) :
    Origin τ → Prop
  | .nothing => rows = []
  | .of t => SameRows start t names rows
  | .unknown => True

/-- What is known of a table. -/
def Known.Describes (start : Database τ κ ι) (known : Known τ κ) (found : Option (Contents τ κ)) :
    Prop :=
  (known.certain = false ∧ found = none ∧ known.origin.Holds start known.schema.names []) ∨
    ∃ contents, found = some contents ∧ contents.schema = known.schema ∧
      known.origin.Holds start known.schema.names contents.rows

/-- What is known of a name of a table. -/
def TableDescribed (start : Database τ κ ι) (found : Option (Contents τ κ)) :
    Option (Known τ κ) → Prop
  | none => found = none
  | some known => known.Describes start found

/-- What is known of a name of an index. -/
def IndexDescribed (found : Option (τ × List κ)) : Option (τ × Bool) → Prop
  | none => found = none
  | some (t, certain) => certain = false ∧ found = none ∨ ∃ columns, found = some (t, columns)

/-- A database is as it is known to be, after it was `start`. -/
structure Knowledge.Describes (K : Knowledge τ κ ι) (start db : Database τ κ ι) : Prop where
  tables : ∀ t, TableDescribed start (db.tables t) (K.tables t)
  indexes : ∀ name, IndexDescribed (db.indexes name) (K.indexes name)
  userVersion : db.userVersion = K.userVersion

/-- Whatever one column lets through, the other does. -/
def Column.Relaxes (column relaxed : Column τ κ) : Prop :=
  relaxed.type = column.type ∧ relaxed.check = column.check ∧
    relaxed.references = column.references ∧ (relaxed.notNull = true → column.notNull = true)

instance [DecidableEq τ] [DecidableEq κ] (column relaxed : Column τ κ) :
    Decidable (column.Relaxes relaxed) :=
  inferInstanceAs (Decidable (_ ∧ _ ∧ _ ∧ (_ → _)))

/-- All columns of a table go to a table that lets their rows through. -/
structure Schema.CopiesTo (source : Schema τ κ) (columns : List κ) (target : Schema τ κ) : Prop where
  named : ∀ c ∈ columns, c ∈ target.names ∧ c ∈ source.names
  relaxed : ∀ c ∈ target.columns, c.1 ∈ columns ∧ ∃ c' ∈ source.columns, c'.1 = c.1 ∧
    c'.2.Relaxes c.2
  keys : ∀ key ∈ target.keys, key ∈ source.keys
  whole : ∀ c ∈ source.names, c ∈ columns

instance [DecidableEq τ] [DecidableEq κ] (source target : Schema τ κ) (columns : List κ) :
    Decidable (source.CopiesTo columns target) :=
  decidable_of_iff ((∀ c ∈ columns, c ∈ target.names ∧ c ∈ source.names) ∧
      (∀ c ∈ target.columns, c.1 ∈ columns ∧ ∃ c' ∈ source.columns, c'.1 = c.1 ∧
        c'.2.Relaxes c.2) ∧
      (∀ key ∈ target.keys, key ∈ source.keys) ∧ ∀ c ∈ source.names, c ∈ columns)
    ⟨fun ⟨hnamed, hrelaxed, hkeys, hwhole⟩ => ⟨hnamed, hrelaxed, hkeys, hwhole⟩,
      fun h => ⟨h.named, h.relaxed, h.keys, h.whole⟩⟩

namespace Knowledge

/-- Some table refers to the table. -/
def Referred (K : Knowledge τ κ ι) (t : τ) : Prop :=
  ∃ t', ∃ known ∈ K.tables t', ∃ c ∈ known.schema.columns, ∃ target ∈ c.2.references,
    target.1 = t

instance [Fintype τ] [DecidableEq τ] (K : Knowledge τ κ ι) (t : τ) : Decidable (K.Referred t) :=
  inferInstanceAs (Decidable (∃ _, ∃ _ ∈ _, ∃ _ ∈ _, ∃ _ ∈ _, _))

section

variable [DecidableEq τ]

/-- Something else is known of a table. -/
def setTable (K : Knowledge τ κ ι) (t : τ) (known : Option (Known τ κ)) : Knowledge τ κ ι :=
  { K with tables := Function.update K.tables t known }

variable [Fintype τ] [DecidableEq κ] [DecidableEq ι]

/-- What is known after a statement, if it is known that the statement does not fail. -/
def predict (K : Knowledge τ κ ι) : Statement τ κ ι → Option (Knowledge τ κ ι)
  | .createTable ifNotExists t schema =>
    match K.tables t with
    | none => some (K.setTable t (some ⟨schema, .nothing, true⟩))
    | some known =>
      if ifNotExists = true ∧ (known.certain = true ∨ known.schema = schema) then
        some (K.setTable t (some { known with certain := true }))
      else none
  | .createIndex name t columns =>
    match K.tables t with
    | none => none
    | some known =>
      if known.certain = true ∧ (∀ c ∈ columns, c ∈ known.schema.names) ∧
          ∀ index ∈ K.indexes name, index.1 = t then
        some { K with indexes := Function.update K.indexes name (some (t, true)) }
      else none
  | .dropIndex name => some { K with indexes := Function.update K.indexes name none }
  | .dropTable t =>
    match K.tables t with
    | none => none
    | some known =>
      if known.certain = true ∧ ¬K.Referred t then
        some { K.setTable t none with
          indexes := fun name => (K.indexes name).filter fun index => index.1 ≠ t }
      else none
  | .renameTable t target =>
    match K.tables t, K.tables target with
    | some known, none =>
      if known.certain = true ∧ ¬K.Referred t then
        some { (K.setTable t none).setTable target (some known) with
          indexes := fun name => (K.indexes name).map fun index =>
            (if index.1 = t then target else index.1, index.2) }
      else none
    | _, _ => none
  | .addColumn t name column =>
    match K.tables t, column.added with
    | some known, some v =>
      if known.certain = true ∧ name ∉ known.schema.names ∧
          ∀ check ∈ column.check, check.passes v = true then
        some (K.setTable t (some { known with schema := known.schema.addColumn name column }))
      else none
    | _, _ => none
  | .insertOrIgnore t values =>
    match K.tables t with
    | none => none
    | some known =>
      if known.certain = true ∧ (∀ v ∈ values, v.1 ∈ known.schema.names) ∧
          known.schema.Typed (known.schema.newRow 0 values) ∧
          ∀ c ∈ known.schema.columns, c.2.references = none then
        some (K.setTable t (some { known with origin := .unknown }))
      else none
  | .insertSelect target columns source =>
    match K.tables target, K.tables source with
    | some known, some sourceKnown =>
      if known.certain = true ∧ known.origin = .nothing ∧ sourceKnown.certain = true ∧
          sourceKnown.schema.CopiesTo columns known.schema then
        some (K.setTable target (some { known with origin := sourceKnown.origin }))
      else none
    | _, _ => none
  | .deleteAll t =>
    match K.tables t with
    | none => none
    | some known =>
      if known.certain = true ∧ ¬K.Referred t then
        some (K.setTable t (some { known with origin := .nothing }))
      else none
  | .setUserVersion version => some { K with userVersion := version }

/-- What is known after a list of statements. -/
def predictAll : Knowledge τ κ ι → List (Statement τ κ ι) → Option (Knowledge τ κ ι)
  | K, [] => some K
  | K, statement :: rest => (K.predict statement).bind fun K => predictAll K rest

end

end Knowledge

/-! ## What is known is so -/

variable {now : ℤ} {start db db' : Database τ κ ι} {K K' : Knowledge τ κ ι} {known : Known τ κ}
  {contents : Contents τ κ} {schema : Schema τ κ} {t target : τ}

namespace Knowledge

theorem Describes.certain (h : K.Describes start db) (ht : K.tables t = some known)
    (hcertain : known.certain = true) : ∃ contents, db.tables t = some contents ∧
      contents.schema = known.schema ∧
      known.origin.Holds start known.schema.names contents.rows := by
  have htable := h.tables t
  rw [ht] at htable
  rcases htable with ⟨huncertain, _⟩ | hcontents
  · rw [hcertain] at huncertain
    cases huncertain
  · exact hcontents

theorem Describes.absent (h : K.Describes start db) (ht : K.tables t = none) :
    db.tables t = none := by
  have htable := h.tables t
  rwa [ht] at htable

/-- A table that is there is known. -/
theorem Describes.present (h : K.Describes start db) (ht : db.tables t = some contents) :
    ∃ known, K.tables t = some known ∧ contents.schema = known.schema := by
  have htable := h.tables t
  cases hknown : K.tables t with
  | none =>
    rw [hknown, ht] at htable
    cases htable
  | some known =>
    rw [hknown, ht] at htable
    rcases htable with ⟨_, hnone, _⟩ | ⟨found, hfound, hschema, _⟩
    · cases hnone
    · obtain rfl := Option.some.inj hfound
      exact ⟨known, rfl, hschema⟩

theorem Describes.not_referred (h : K.Describes start db) (hreferred : ¬K.Referred t) :
    ¬db.Referred t := by
  rintro ⟨t', contents, hcontents, c, hc, target, htarget, rfl⟩
  obtain ⟨known, hknown, hschema⟩ := h.present hcontents
  rw [hschema] at hc
  exact hreferred ⟨t', known, hknown, c, hc, target, htarget, rfl⟩

section

variable [DecidableEq κ]

/-- The rows keep saying what they said where a column is added. -/
theorem holds_addColumn {name : κ} {origin : Origin τ} (column : Column τ κ) (v : Value)
    (hname : name ∉ contents.schema.names)
    (h : origin.Holds start contents.schema.names contents.rows) :
    origin.Holds start (contents.addColumn name column v).schema.names
      (contents.addColumn name column v).rows := by
  cases origin with
  | nothing =>
    have hrows : contents.rows = [] := h
    change contents.rows.map _ = []
    rw [hrows, List.map_nil]
  | of t' =>
    obtain ⟨hnames, hrows⟩ := h
    refine ⟨fun c hc => ?_, List.forall₂_map_right_iff.mpr (hrows.imp fun row row' hrow => ?_)⟩
    · change c ∈ (contents.schema.columns ++ [(name, column)]).map Prod.fst
      rw [List.map_append]
      exact List.mem_append_left _ (hnames hc)
    · intro c hc
      rw [update_of_mem_names hname (hnames hc)]
      exact hrow c hc
  | unknown => trivial

/-- The types of the defaults do not depend on the time. -/
theorem typed_newRow {values : List (κ × Value)} {now' : ℤ}
    (h : schema.Typed (schema.newRow now values)) : schema.Typed (schema.newRow now' values) := by
  intro c hc
  have htyped := h c hc
  unfold Schema.newRow at htyped ⊢
  revert htyped
  cases values.lookup c.1 with
  | some v => exact id
  | none =>
    cases schema.columns.lookup c.1 with
    | none => exact id
    | some column =>
      simp only [Option.map_some, Option.getD_some]
      cases column.default with
      | value v => exact id
      | now =>
        intro htyped
        cases hcolumn : c.2.type with
        | integer => rfl
        | text =>
          rw [hcolumn] at htyped
          cases htyped
        | blob =>
          rw [hcolumn] at htyped
          cases htyped

/-- A row of the right types, whose references are there, is inserted or breaks a constraint. -/
theorem insertRow_cases {values : List (κ × Value)}
    (htyped : contents.schema.Typed (contents.schema.newRow 0 values))
    (hresolves : db.Resolves contents.schema (contents.schema.newRow now values)) :
    db.insertRow contents (contents.schema.newRow now values) = .error .constraint ∨
      ∃ written, db.insertRow contents (contents.schema.newRow now values) = .ok written ∧
        written.schema = contents.schema := by
  unfold Database.insertRow
  rw [if_neg (not_not.mpr (typed_newRow htyped)), if_neg (not_not.mpr hresolves)]
  split
  · exact .inl rfl
  · exact .inr ⟨_, rfl, rfl⟩

/-- A row that is made of the columns of another one. -/
theorem copyRow_of_mem {columns : List κ} {row : Row κ} {c : κ} (hc : c ∈ columns) :
    schema.copyRow now columns row c = row c := by
  have hlookup : (columns.map fun c => (c, row c)).lookup c = some (row c) := by
    induction columns with
    | nil => cases hc
    | cons other rest ih =>
      rw [List.map_cons, List.lookup_cons]
      by_cases hother : c = other
      · rw [hother, beq_self_eq_true]
      · rw [beq_eq_false_iff_ne.mpr hother]
        exact ih ((List.mem_cons.mp hc).resolve_left hother)
  unfold Schema.copyRow Schema.newRow
  rw [hlookup]

/-- Rows that break no constraint are inserted. -/
theorem insertRows_eq_ok {new : List (Row κ)} (htyped : ∀ row ∈ new, contents.schema.Typed row)
    (hadmits : ∀ row ∈ new, contents.schema.Admits row)
    (hdistinct : (contents.rows ++ new).Pairwise fun row row' => ¬contents.schema.Clash row row')
    (hresolves : ∀ row ∈ new, db.Resolves contents.schema row) :
    db.insertRows contents new = .ok { contents with rows := contents.rows ++ new } := by
  induction new generalizing contents with
  | nil =>
    rw [List.append_nil]
    rfl
  | cons row rest ih =>
    have hclash : ¬∃ old ∈ contents.rows, contents.schema.Clash old row := by
      rintro ⟨old, hold, hclash⟩
      exact (List.pairwise_append.mp hdistinct).2.2 old hold row List.mem_cons_self hclash
    have hinsert : db.insertRow contents row =
        .ok { contents with rows := contents.rows ++ [row] } := by
      unfold Database.insertRow
      rw [if_neg (not_not.mpr (htyped row List.mem_cons_self)),
        if_neg (not_or.mpr ⟨not_not.mpr (hadmits row List.mem_cons_self), hclash⟩),
        if_neg (not_not.mpr (hresolves row List.mem_cons_self))]
    have hrest : (contents.rows ++ [row] ++ rest).Pairwise fun row row' =>
        ¬contents.schema.Clash row row' := by
      rwa [List.append_assoc, List.singleton_append]
    have hnext : db.insertRows { contents with rows := contents.rows ++ [row] } rest =
        .ok { contents with rows := contents.rows ++ [row] ++ rest } :=
      ih (fun row hrow => htyped row (List.mem_cons_of_mem _ hrow))
        (fun row hrow => hadmits row (List.mem_cons_of_mem _ hrow)) hrest
        fun row hrow => hresolves row (List.mem_cons_of_mem _ hrow)
    rw [List.append_assoc, List.singleton_append] at hnext
    rw [Database.insertRows, hinsert]
    exact hnext

variable {source : Contents τ κ} {columns : List κ}

/-- The rows that are copied break no constraint, as they did where they come from. -/
theorem insertRows_copied (hcopies : source.schema.CopiesTo columns contents.schema)
    (hfits : db.Fits source) (hempty : contents.rows = []) :
    db.insertRows contents (source.rows.map (contents.schema.copyRow now columns)) =
      .ok { contents with rows := source.rows.map (contents.schema.copyRow now columns) } := by
  have hall : ∀ {P : Row κ → Prop},
      (∀ row ∈ source.rows, P (contents.schema.copyRow now columns row)) →
      ∀ row ∈ source.rows.map (contents.schema.copyRow now columns), P row := by
    intro P hP row hrow
    obtain ⟨old, hold, rfl⟩ := List.mem_map.mp hrow
    exact hP old hold
  have hinsert : db.insertRows contents
      (source.rows.map (contents.schema.copyRow now columns)) =
      .ok { contents with rows :=
        contents.rows ++ source.rows.map (contents.schema.copyRow now columns) } := by
    refine insertRows_eq_ok (hall fun row hrow c hc => ?_) (hall fun row hrow c hc => ?_) ?_
      (hall fun row hrow c hc target htarget => ?_)
    · obtain ⟨hmem, c', hc', hname, hrelaxes⟩ := hcopies.relaxed c hc
      rw [copyRow_of_mem hmem, hrelaxes.1, ← hname]
      exact hfits.typed row hrow c' hc'
    · obtain ⟨hmem, c', hc', hname, _, hcheck, _, hnull⟩ := hcopies.relaxed c hc
      obtain ⟨hnotNull, hchecks⟩ := hfits.admits row hrow c' hc'
      rw [copyRow_of_mem hmem, hcheck, ← hname]
      exact ⟨fun hrequired => hnotNull (hnull hrequired), hchecks⟩
    · rw [hempty, List.nil_append]
      refine List.pairwise_map.mpr (hfits.distinct.imp fun hclash => ?_)
      rintro ⟨key, hkey, hvalues⟩
      refine hclash ⟨key, hcopies.keys key hkey, fun c hc => ?_⟩
      have hmem : c ∈ columns :=
        hcopies.whole c (source.schema.keys_named key (hcopies.keys key hkey) c hc)
      have hvalue := hvalues c hc
      rwa [copyRow_of_mem hmem, copyRow_of_mem hmem] at hvalue
    · obtain ⟨hmem, c', hc', hname, _, _, hreferences, _⟩ := hcopies.relaxed c hc
      rw [copyRow_of_mem hmem, ← hname]
      rw [hreferences] at htarget
      exact hfits.resolves row hrow c' hc' target htarget
  rwa [hempty, List.nil_append] at hinsert

/-- The rows that are copied say what they said. -/
theorem holds_copied {start : Database τ κ ι} {origin : Origin τ}
    (hcopies : source.schema.CopiesTo columns contents.schema)
    (h : origin.Holds start source.schema.names source.rows) :
    origin.Holds start contents.schema.names
      (source.rows.map (contents.schema.copyRow now columns)) := by
  cases origin with
  | nothing =>
    have hrows : source.rows = [] := h
    rw [hrows]
    rfl
  | of t' =>
    obtain ⟨hnames, hrows⟩ := h
    refine ⟨fun c hc => (hcopies.named c (hcopies.whole c (hnames hc))).1,
      List.forall₂_map_right_iff.mpr (hrows.imp fun row row' hrow c hc => ?_)⟩
    rw [copyRow_of_mem (hcopies.whole c (hnames hc))]
    exact hrow c hc
  | unknown => trivial

end

section

variable [DecidableEq τ]

/-- What is known of one table changes with the table. -/
theorem Describes.setTable (h : K.Describes start db) {found : Option (Contents τ κ)}
    {known : Option (Known τ κ)} (hfound : TableDescribed start found known) :
    (K.setTable t known).Describes start (db.setTable t found) := by
  refine ⟨fun t' => ?_, h.indexes, h.userVersion⟩
  by_cases ht : t' = t
  · subst ht
    change TableDescribed start ((db.setTable t' found).tables t')
      (Function.update K.tables t' known t')
    rw [Database.setTable_tables_self, Function.update_self]
    exact hfound
  · change TableDescribed start ((db.setTable t found).tables t')
      (Function.update K.tables t known t')
    rw [Database.setTable_tables_of_ne ht, Function.update_of_ne ht]
    exact h.tables t'

variable [Fintype τ] [DecidableEq κ] [DecidableEq ι]

/-- A statement does what is predicted. -/
def Predicts (K : Knowledge τ κ ι) (statement : Statement τ κ ι) (K' : Knowledge τ κ ι) : Prop :=
  ∀ {now : ℤ} {start db : Database τ κ ι}, db.Sound → K.Describes start db →
    ∃ db', exec now db statement = .ok db' ∧ K'.Describes start db'

theorem predict_createTable {ifNotExists : Bool}
    (h : K.predict (.createTable ifNotExists t schema) = some K') :
    K.Predicts (.createTable ifNotExists t schema) K' := by
  intro now start db hsound hK
  simp only [predict] at h
  split at h
  next ht =>
    obtain rfl := Option.some.inj h
    refine ⟨db.setTable t (some ⟨schema, []⟩), ?_, hK.setTable (.inr ⟨_, rfl, rfl, rfl⟩)⟩
    simp only [exec, hK.absent ht]
  next known ht =>
    split at h
    next hwhen =>
      obtain ⟨rfl, hcertain⟩ := hwhen
      obtain rfl := Option.some.inj h
      have htable := hK.tables t
      rw [ht] at htable
      rcases htable with ⟨huncertain, hnone, horigin⟩ | ⟨contents, hcontents, hschema, horigin⟩
      · rcases hcertain with hcertain | hschema
        · rw [hcertain] at huncertain
          cases huncertain
        · refine ⟨db.setTable t (some ⟨schema, []⟩), ?_,
            hK.setTable (.inr ⟨_, rfl, hschema.symm, horigin⟩)⟩
          simp only [exec, hnone]
      · refine ⟨db, ?_, ?_⟩
        · simp only [exec, hcontents, if_true]
        · have hsame : db.setTable t (some contents) = db := by
            unfold Database.setTable
            rw [← hcontents, Function.update_eq_self]
          rw [← hsame]
          exact hK.setTable (.inr ⟨contents, rfl, hschema, horigin⟩)
    next => cases h

theorem predict_createIndex {name : ι} {columns : List κ}
    (h : K.predict (.createIndex name t columns) = some K') :
    K.Predicts (.createIndex name t columns) K' := by
  intro now start db hsound hK
  simp only [predict] at h
  split at h
  · cases h
  rename_i known ht
  split at h
  next hwhen =>
    obtain ⟨hcertain, hcolumns, hindex⟩ := hwhen
    obtain rfl := Option.some.inj h
    obtain ⟨contents, hcontents, hschema, _⟩ := hK.certain ht hcertain
    have hdescribed : ∀ {found : ι → Option (τ × List κ)}, (∃ cs, found name = some (t, cs)) →
        (∀ other, other ≠ name → found other = db.indexes other) →
        (({ K with indexes := Function.update K.indexes name (some (t, true)) } :
          Knowledge τ κ ι)).Describes start { db with indexes := found } := by
      intro found hfound hother
      refine ⟨hK.tables, fun other => ?_, hK.userVersion⟩
      by_cases hname : other = name
      · subst hname
        change IndexDescribed (found other) (Function.update K.indexes other (some (t, true)) other)
        rw [Function.update_self]
        exact .inr hfound
      · change IndexDescribed (found other) (Function.update K.indexes name (some (t, true)) other)
        rw [hother other hname, Function.update_of_ne hname]
        exact hK.indexes other
    cases hexists : db.indexes name with
    | some index =>
      refine ⟨db, by simp only [exec, hcontents, hexists], hdescribed ?_ fun _ _ => rfl⟩
      have hknown := hK.indexes name
      cases hindexes : K.indexes name with
      | none =>
        rw [hindexes, hexists] at hknown
        cases hknown
      | some known =>
        rw [hindexes, hexists] at hknown
        rcases hknown with ⟨_, hnone⟩ | ⟨columns, hsome⟩
        · cases hnone
        · rw [hindex known hindexes] at hsome
          exact ⟨columns, hexists.trans hsome⟩
    | none =>
      refine ⟨{ db with indexes := Function.update db.indexes name (some (t, columns)) }, ?_,
        hdescribed ⟨columns, Function.update_self ..⟩ fun other hother =>
          Function.update_of_ne hother ..⟩
      rw [← hschema] at hcolumns
      simp only [exec, hcontents, hexists]
      rw [if_pos hcolumns]
  next => cases h

theorem predict_dropIndex {name : ι} (h : K.predict (.dropIndex name) = some K') :
    K.Predicts (.dropIndex name) K' := by
  intro now start db hsound hK
  obtain rfl := Option.some.inj h
  refine ⟨_, rfl, hK.tables, fun other => ?_, hK.userVersion⟩
  by_cases hname : other = name
  · subst hname
    change IndexDescribed (Function.update db.indexes other none other)
      (Function.update K.indexes other none other)
    rw [Function.update_self, Function.update_self]
    rfl
  · change IndexDescribed (Function.update db.indexes name none other)
      (Function.update K.indexes name none other)
    rw [Function.update_of_ne hname, Function.update_of_ne hname]
    exact hK.indexes other

theorem predict_dropTable (h : K.predict (.dropTable t) = some K') :
    K.Predicts (.dropTable t) K' := by
  intro now start db hsound hK
  simp only [predict] at h
  split at h
  · cases h
  rename_i known ht
  split at h
  next hwhen =>
    obtain ⟨hcertain, hreferred⟩ := hwhen
    obtain rfl := Option.some.inj h
    obtain ⟨contents, hcontents, _, _⟩ := hK.certain ht hcertain
    have hset : (K.setTable t none).Describes start (db.setTable t none) :=
      hK.setTable (rfl : TableDescribed start none none)
    refine ⟨{ db.setTable t none with
      indexes := fun name => (db.indexes name).filter fun index => index.1 ≠ t }, ?_,
      hset.tables, fun name => ?_, hK.userVersion⟩
    · simp only [exec, hcontents]
      rw [if_neg (hK.not_referred hreferred)]
    · have hname := hK.indexes name
      change IndexDescribed ((db.indexes name).filter fun index => index.1 ≠ t)
        ((K.indexes name).filter fun index => index.1 ≠ t)
      cases hknown : K.indexes name with
      | none =>
        rw [hknown] at hname
        have hnone : db.indexes name = none := hname
        rw [hnone]
        rfl
      | some index =>
        obtain ⟨t', known⟩ := index
        rw [hknown] at hname
        by_cases ht' : t' = t
        · rcases hname with ⟨_, hnone⟩ | ⟨columns, hsome⟩
          · rw [hnone, Option.filter_some, if_neg (by simpa using ht')]
            rfl
          · rw [hsome, Option.filter_some, Option.filter_some, if_neg (by simpa using ht'),
              if_neg (by simpa using ht')]
            rfl
        · rcases hname with ⟨huncertain, hnone⟩ | ⟨columns, hsome⟩
          · rw [hnone, Option.filter_some, if_pos (by simpa using ht')]
            exact .inl ⟨huncertain, rfl⟩
          · rw [hsome, Option.filter_some, Option.filter_some, if_pos (by simpa using ht'),
              if_pos (by simpa using ht')]
            exact .inr ⟨columns, rfl⟩
  next => cases h

theorem predict_renameTable (h : K.predict (.renameTable t target) = some K') :
    K.Predicts (.renameTable t target) K' := by
  intro now start db hsound hK
  simp only [predict] at h
  split at h
  next known ht htarget =>
    split at h
    next hwhen =>
      obtain ⟨hcertain, hreferred⟩ := hwhen
      obtain rfl := Option.some.inj h
      obtain ⟨contents, hcontents, hschema, horigin⟩ := hK.certain ht hcertain
      have hwithout : (K.setTable t none).Describes start (db.setTable t none) :=
        hK.setTable (rfl : TableDescribed start none none)
      have hset : ((K.setTable t none).setTable target (some known)).Describes start
          ((db.setTable t none).setTable target (some contents)) :=
        hwithout.setTable (.inr ⟨contents, rfl, hschema, horigin⟩)
      refine ⟨{ (db.setTable t none).setTable target (some contents) with
        indexes := fun name => (db.indexes name).map fun index =>
          (if index.1 = t then target else index.1, index.2) }, ?_,
        hset.tables, fun name => ?_, hK.userVersion⟩
      · simp only [exec, hcontents, hK.absent htarget]
        rw [if_neg (hK.not_referred hreferred)]
      · have hname := hK.indexes name
        change IndexDescribed ((db.indexes name).map fun index =>
          (if index.1 = t then target else index.1, index.2))
          ((K.indexes name).map fun index =>
            (if index.1 = t then target else index.1, index.2))
        cases hknown : K.indexes name with
        | none =>
          rw [hknown] at hname
          have hnone : db.indexes name = none := hname
          rw [hnone]
          rfl
        | some index =>
          rw [hknown] at hname
          rcases hname with ⟨huncertain, hnone⟩ | ⟨columns, hsome⟩
          · rw [hnone]
            exact .inl ⟨huncertain, rfl⟩
          · rw [hsome]
            exact .inr ⟨columns, rfl⟩
    next => cases h
  next => cases h

theorem predict_addColumn {name : κ} {column : Column τ κ}
    (h : K.predict (.addColumn t name column) = some K') :
    K.Predicts (.addColumn t name column) K' := by
  intro now start db hsound hK
  simp only [predict] at h
  split at h
  next known v ht hadded =>
    split at h
    next hwhen =>
      obtain ⟨hcertain, hname, hchecks⟩ := hwhen
      obtain rfl := Option.some.inj h
      obtain ⟨contents, hcontents, hschema, horigin⟩ := hK.certain ht hcertain
      rw [← hschema] at hname horigin
      refine ⟨db.setTable t (some (contents.addColumn name column v)), ?_, hK.setTable (.inr
        ⟨_, rfl, ?_, ?_⟩)⟩
      · have hpasses : ¬(contents.rows ≠ [] ∧ ∃ check ∈ column.check, check.passes v = false) := by
          rintro ⟨_, check, hcheck, hfails⟩
          rw [hchecks check hcheck] at hfails
          cases hfails
        simp only [exec, hcontents, hadded]
        rw [if_neg hname, if_neg hpasses]
      · change contents.schema.addColumn name column = known.schema.addColumn name column
        rw [hschema]
      · rw [← hschema]
        exact holds_addColumn column v hname horigin
    next => cases h
  next => cases h

theorem predict_deleteAll (h : K.predict (.deleteAll t) = some K') :
    K.Predicts (.deleteAll t) K' := by
  intro now start db hsound hK
  simp only [predict] at h
  split at h
  · cases h
  rename_i known ht
  split at h
  next hwhen =>
    obtain ⟨hcertain, hreferred⟩ := hwhen
    obtain rfl := Option.some.inj h
    obtain ⟨contents, hcontents, hschema, _⟩ := hK.certain ht hcertain
    refine ⟨db.setTable t (some { contents with rows := [] }), ?_,
      hK.setTable (.inr ⟨_, rfl, hschema, rfl⟩)⟩
    simp only [exec, hcontents]
    rw [if_neg (hK.not_referred hreferred)]
  next => cases h

theorem predict_insertOrIgnore {values : List (κ × Value)}
    (h : K.predict (.insertOrIgnore t values) = some K') :
    K.Predicts (.insertOrIgnore t values) K' := by
  intro now start db hsound hK
  simp only [predict] at h
  split at h
  · cases h
  rename_i known ht
  split at h
  next hwhen =>
    obtain ⟨hcertain, hvalues, htyped, hreferences⟩ := hwhen
    obtain rfl := Option.some.inj h
    obtain ⟨contents, hcontents, hschema, _⟩ := hK.certain ht hcertain
    rw [← hschema] at hvalues htyped hreferences
    have hnamed : ¬∃ v ∈ values, v.1 ∉ contents.schema.names := by
      rintro ⟨v, hv, hunnamed⟩
      exact hunnamed (hvalues v hv)
    have hresolves : db.Resolves contents.schema (contents.schema.newRow now values) := by
      intro c hc target htarget
      rw [hreferences c hc] at htarget
      cases htarget
    rcases insertRow_cases htyped hresolves with hinsert | ⟨written, hinsert, hwritten⟩
    · have hsame : db.setTable t (some contents) = db := by
        unfold Database.setTable
        rw [← hcontents, Function.update_eq_self]
      have hset : (K.setTable t (some { known with origin := .unknown })).Describes start
          (db.setTable t (some contents)) :=
        hK.setTable (.inr ⟨contents, rfl, hschema, trivial⟩)
      rw [hsame] at hset
      refine ⟨db, ?_, hset⟩
      simp only [exec, hcontents]
      rw [if_neg hnamed]
      simp only [hinsert, if_true]
    · refine ⟨db.setTable t (some written), ?_,
        hK.setTable (.inr ⟨written, rfl, hwritten.trans hschema, trivial⟩)⟩
      simp only [exec, hcontents]
      rw [if_neg hnamed]
      simp only [hinsert]
  next => cases h

theorem predict_insertSelect {columns : List κ} {source : τ}
    (h : K.predict (.insertSelect target columns source) = some K') :
    K.Predicts (.insertSelect target columns source) K' := by
  intro now start db hsound hK
  simp only [predict] at h
  split at h
  next known sourceKnown htarget hsource =>
    split at h
    next hwhen =>
      obtain ⟨hcertain, horigin, hsourceCertain, hcopies⟩ := hwhen
      obtain rfl := Option.some.inj h
      obtain ⟨contents, hcontents, hschema, hempty⟩ := hK.certain htarget hcertain
      obtain ⟨rows, hrows, hsourceSchema, hholds⟩ := hK.certain hsource hsourceCertain
      rw [horigin] at hempty
      rw [← hschema, ← hsourceSchema] at hcopies
      rw [← hsourceSchema] at hholds
      have hnamed : ¬∃ c ∈ columns, c ∉ contents.schema.names ∨ c ∉ rows.schema.names := by
        rintro ⟨c, hc, hunnamed | hunnamed⟩
        · exact hunnamed (hcopies.named c hc).1
        · exact hunnamed (hcopies.named c hc).2
      refine ⟨db.setTable target (some { contents with
        rows := rows.rows.map (contents.schema.copyRow now columns) }), ?_,
        hK.setTable (.inr ⟨_, rfl, hschema, ?_⟩)⟩
      · simp only [exec, hcontents, hrows]
        rw [if_neg hnamed, insertRows_copied hcopies (hsound.fits hrows) hempty]
        rfl
      · rw [← hschema]
        exact holds_copied hcopies hholds
    next => cases h
  next => cases h

/-- What is predicted of a statement is so. -/
theorem predicts_of_predict {statement : Statement τ κ ι} (h : K.predict statement = some K') :
    K.Predicts statement K' := by
  cases statement with
  | createTable => exact predict_createTable h
  | createIndex => exact predict_createIndex h
  | dropIndex => exact predict_dropIndex h
  | dropTable => exact predict_dropTable h
  | renameTable => exact predict_renameTable h
  | addColumn => exact predict_addColumn h
  | insertOrIgnore => exact predict_insertOrIgnore h
  | insertSelect => exact predict_insertSelect h
  | deleteAll => exact predict_deleteAll h
  | setUserVersion version =>
    intro now start db hsound hK
    obtain rfl := Option.some.inj h
    exact ⟨_, rfl, hK.tables, hK.indexes, rfl⟩

theorem predictAll_append {first second : List (Statement τ κ ι)}
    (h : K.predictAll (first ++ second) = some K') :
    ∃ K₁, K.predictAll first = some K₁ ∧ K₁.predictAll second = some K' := by
  induction first generalizing K with
  | nil => exact ⟨K, rfl, h⟩
  | cons statement rest ih =>
    obtain ⟨K₀, hstatement, hrest⟩ := Option.bind_eq_some_iff.mp h
    obtain ⟨K₁, hfirst, hsecond⟩ := ih hrest
    exact ⟨K₁, Option.bind_eq_some_iff.mpr ⟨K₀, hstatement, hfirst⟩, hsecond⟩

end

end Knowledge

/-! ## Lists of statements -/

section

variable [Fintype τ] [DecidableEq τ] [DecidableEq κ] [DecidableEq ι]

/-- Statements, one after another. -/
def executeAll (statements : List (Statement τ κ ι)) :
    Transaction ℤ Error (Database τ κ ι) PUnit :=
  statements.forM fun statement => Transaction.execute fun now db => exec now db statement

theorem executeAll_append (first second : List (Statement τ κ ι)) :
    executeAll (first ++ second) = (executeAll first >>= fun _ => executeAll second) :=
  List.forM_append

/-- A statement takes no row of a table away. -/
def Statement.Spares (t : τ) : Statement τ κ ι → Prop
  | .dropTable t' => t' ≠ t
  | .renameTable t' _ => t' ≠ t
  | .addColumn t' _ _ => t' ≠ t
  | .deleteAll t' => t' ≠ t
  | _ => True

instance (t : τ) : ∀ statement : Statement τ κ ι, Decidable (statement.Spares t)
  | .createTable _ _ _ => isTrue trivial
  | .createIndex _ _ _ => isTrue trivial
  | .dropIndex _ => isTrue trivial
  | .dropTable t' => inferInstanceAs (Decidable (t' ≠ t))
  | .renameTable t' _ => inferInstanceAs (Decidable (t' ≠ t))
  | .addColumn t' _ _ => inferInstanceAs (Decidable (t' ≠ t))
  | .insertOrIgnore _ _ => isTrue trivial
  | .insertSelect _ _ _ => isTrue trivial
  | .deleteAll t' => inferInstanceAs (Decidable (t' ≠ t))
  | .setUserVersion _ => isTrue trivial

/-- The rows of a table that is spared are still there. -/
theorem rows_subset_of_spares {statement : Statement τ κ ι} (h : statement.Spares t)
    (hsound : db.Sound) (hexec : exec now db statement = .ok db') : db.rows t ⊆ db'.rows t := by
  -- a table is written with all the rows that it had
  have hwrite : ∀ {t' : τ} {contents contents' : Contents τ κ} {added : List (Row κ)},
      db.tables t' = some contents → contents'.rows = contents.rows ++ added →
      db.rows t ⊆ (db.setTable t' (some contents')).rows t := by
    intro t' contents contents' added ht' hrows
    by_cases ht : t = t'
    · subst ht
      rw [Database.rows_setTable_self, hrows]
      unfold Database.rows
      rw [ht']
      exact List.subset_append_left _ _
    · rw [Database.rows_setTable_of_ne ht]
      exact List.Subset.refl _
  have hnew : ∀ {t' : τ} (contents : Contents τ κ), db.tables t' = none →
      db.rows t ⊆ (db.setTable t' (some contents)).rows t := by
    intro t' contents hnone
    by_cases ht : t = t'
    · subst ht
      unfold Database.rows
      rw [hnone]
      exact List.nil_subset _
    · rw [Database.rows_setTable_of_ne ht]
      exact List.Subset.refl _
  cases statement with
  | createTable ifNotExists t' schema =>
    simp only [exec] at hexec
    split at hexec
    · split at hexec
      · obtain rfl := Except.ok.inj hexec
        exact List.Subset.refl _
      · cases hexec
    · rename_i hnone
      obtain rfl := Except.ok.inj hexec
      exact hnew _ hnone
  | createIndex name t' columns =>
    simp only [exec] at hexec
    split at hexec
    · cases hexec
    · obtain rfl := Except.ok.inj hexec
      exact List.Subset.refl _
    · split at hexec
      · obtain rfl := Except.ok.inj hexec
        exact List.Subset.refl _
      · cases hexec
  | dropIndex name =>
    obtain rfl := Except.ok.inj hexec
    exact List.Subset.refl _
  | dropTable t' =>
    simp only [exec] at hexec
    split at hexec
    · cases hexec
    split at hexec
    · cases hexec
    obtain rfl := Except.ok.inj hexec
    have hrows : (db.setTable t' none).rows t = db.rows t :=
      Database.rows_setTable_of_ne (Ne.symm h) none
    exact fun row hrow => (hrows ▸ hrow : row ∈ (db.setTable t' none).rows t)
  | renameTable t' target =>
    simp only [exec] at hexec
    split at hexec
    · cases hexec
    · cases hexec
    rename_i contents hcontents hnone
    split at hexec
    · cases hexec
    obtain rfl := Except.ok.inj hexec
    intro row hrow
    change row ∈ ((db.setTable t' none).setTable target (some contents)).rows t
    by_cases ht : t = target
    · subst ht
      unfold Database.rows at hrow
      rw [hnone] at hrow
      cases hrow
    · rw [Database.rows_setTable_of_ne ht, Database.rows_setTable_of_ne (Ne.symm h)]
      exact hrow
  | addColumn t' name column =>
    simp only [exec] at hexec
    split at hexec
    · cases hexec
    · cases hexec
    split at hexec
    · cases hexec
    split at hexec
    · cases hexec
    obtain rfl := Except.ok.inj hexec
    rw [Database.rows_setTable_of_ne (Ne.symm h)]
    exact List.Subset.refl _
  | insertOrIgnore t' values =>
    simp only [exec] at hexec
    split at hexec
    · cases hexec
    rename_i contents ht'
    split at hexec
    · cases hexec
    split at hexec
    · rename_i hinsert
      obtain rfl := Except.ok.inj hexec
      obtain ⟨_, _, hrows⟩ := (hsound.fits ht').insertRow hinsert
      exact hwrite ht' hrows
    · split at hexec
      · obtain rfl := Except.ok.inj hexec
        exact List.Subset.refl _
      · cases hexec
  | insertSelect target columns source =>
    simp only [exec] at hexec
    split at hexec
    · rename_i contents sourceContents ht' _
      split at hexec
      · cases hexec
      cases hinsert : db.insertRows contents
          (sourceContents.rows.map (contents.schema.copyRow now columns)) with
      | error error =>
        rw [hinsert] at hexec
        cases hexec
      | ok written =>
        rw [hinsert] at hexec
        obtain rfl := Except.ok.inj hexec
        obtain ⟨_, _, hrows⟩ := (hsound.fits ht').insertRows hinsert
        exact hwrite ht' hrows
    · cases hexec
  | deleteAll t' =>
    simp only [exec] at hexec
    split at hexec
    · cases hexec
    split at hexec
    · cases hexec
    obtain rfl := Except.ok.inj hexec
    rw [Database.rows_setTable_of_ne (Ne.symm h)]
    exact List.Subset.refl _
  | setUserVersion version =>
    obtain rfl := Except.ok.inj hexec
    exact List.Subset.refl _

/-! ## What was done before -/

/-- A table that is there is not created again. -/
theorem exec_createTable_again (h : db.tables t = some contents) :
    exec now db (.createTable true t schema) = .ok db := by
  simp only [exec, h, if_true]

/-- An index that is there is not created again. -/
theorem exec_createIndex_again {name : ι} {columns : List κ} {index : τ × List κ}
    (ht : db.tables t = some contents) (h : db.indexes name = some index) :
    exec now db (.createIndex name t columns) = .ok db := by
  simp only [exec, ht, h]

/-- Statements that change nothing change nothing together. -/
theorem ensures_executeAll_again {statements : List (Statement τ κ ι)}
    (h : ∀ statement ∈ statements, ∀ now, exec now db statement = .ok db) :
    Transaction.Ensures (fun s => s = db) (executeAll statements) fun _ s => s = db := by
  induction statements with
  | nil => exact Transaction.Ensures.pure (Q := fun _ s => s = db)
  | cons statement rest ih =>
    refine Transaction.Ensures.bind (.execute fun now s hs => ?_)
      fun _ => ih fun other hother => h other (List.mem_cons_of_mem _ hother)
    subst hs
    exact ⟨s, h statement List.mem_cons_self now, rfl⟩

/-- What is predicted of statements is so, unless a fault stops them, and they keep what each of
them keeps. -/
theorem ensures_executeAll {statements : List (Statement τ κ ι)} {P : Database τ κ ι → Prop}
    (hpredict : K.predictAll statements = some K')
    (h : ∀ statement ∈ statements, ∀ {now db db'}, db.Sound →
      exec now db statement = .ok db' → P db → P db') :
    Transaction.Ensures (fun db => db.Sound ∧ K.Describes start db ∧ P db)
      (executeAll statements) fun _ db => db.Sound ∧ K'.Describes start db ∧ P db := by
  induction statements generalizing K with
  | nil =>
    obtain rfl := Option.some.inj hpredict
    exact Transaction.Ensures.pure (Q := fun _ db => db.Sound ∧ K.Describes start db ∧ P db)
  | cons statement rest ih =>
    obtain ⟨K₁, hfirst, hrest⟩ := Option.bind_eq_some_iff.mp hpredict
    refine Transaction.Ensures.bind (.execute fun now db hdb => ?_)
      fun _ => ih hrest fun other hother => h other (List.mem_cons_of_mem _ hother)
    obtain ⟨db', hexec, hdescribes⟩ := Knowledge.predicts_of_predict hfirst hdb.1 hdb.2.1
    exact ⟨db', hexec, exec_sound hdb.1 hexec, hdescribes,
      h statement List.mem_cons_self hdb.1 hexec hdb.2.2⟩

end

end Sql
