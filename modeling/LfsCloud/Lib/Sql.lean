import Mathlib.Tactic

/-!
# Statements of a relational database

Tables with typed columns, whose rows meet the constraints of their columns, are told apart by
their keys and refer to rows of other tables; and the statements by which a schema is changed.
The names of tables, columns and indexes are types of their own. No statement breaks a constraint.
-/

namespace Sql

/-- A value of a column. -/
inductive Value
  | null
  | integer (n : ℤ)
  | text (s : String)
  | blob (bytes : List UInt8)
  deriving DecidableEq

/-- The type of a column of a strict table. -/
inductive ColumnType
  | integer
  | text
  | blob
  deriving DecidableEq

/-- A value of the type, or no value. -/
def ColumnType.holds : ColumnType → Value → Bool
  | _, .null => true
  | .integer, .integer _ => true
  | .text, .text _ => true
  | .blob, .blob _ => true
  | _, _ => false

/-- A check of a column: of the length of a text, that a number is not negative, or that a value
is one of a list. -/
inductive Check
  | length (n : ℕ)
  | nonnegative
  | oneOf (values : List Value)
  deriving DecidableEq

/-- A check lets no value through as it is. The length of a text ends at its first NUL. -/
def Check.passes : Check → Value → Bool
  | _, .null => true
  | .length n, .text s => (s.toList.takeWhile (· ≠ Char.ofNat 0)).length = n
  | .length n, .blob bytes => bytes.length = n
  | .length n, .integer k => (toString k).length = n
  | .nonnegative, .integer k => 0 ≤ k
  | .nonnegative, _ => true
  | .oneOf values, v => v ∈ values

/-- What a column gets where a row says nothing: a value, or `unixepoch()`. -/
inductive Default
  | value (v : Value)
  | now
  deriving DecidableEq

def Default.at (now : ℤ) : Default → Value
  | .value v => v
  | .now => .integer now

/-- A column; it may refer to a column of another table. -/
structure Column (τ κ : Type) where
  type : ColumnType
  notNull : Bool
  default : Default
  check : Option Check
  references : Option (τ × κ)
  deriving DecidableEq

/-- The columns of a table, and its primary and other keys. -/
structure Schema (τ κ : Type) where
  columns : List (κ × Column τ κ)
  keys : List (List κ)
  keys_named : ∀ key ∈ keys, ∀ c ∈ key, c ∈ columns.map Prod.fst
  deriving DecidableEq

/-- A row. -/
abbrev Row (κ : Type) := κ → Value

/-- A table with its rows. -/
structure Contents (τ κ : Type) where
  schema : Schema τ κ
  rows : List (Row κ)

/-- A database: tables, indexes on columns of tables, and the version that the application keeps
in it. -/
structure Database (τ κ ι : Type) where
  tables : τ → Option (Contents τ κ)
  indexes : ι → Option (τ × List κ)
  userVersion : ℤ

/-- What a statement fails with; a value that is read may also not fit what it is read into. -/
inductive Error
  | tableExists
  | noSuchTable
  | duplicateColumn
  | noSuchColumn
  | addColumn
  | datatype
  | constraint
  | foreignKey
  | outOfRange
  | io (message : String)
  deriving DecidableEq

variable {τ κ ι : Type}

namespace Schema

variable (schema : Schema τ κ)

/-- The names of the columns. -/
def names : List κ := schema.columns.map Prod.fst

/-- The schema with one more column. -/
def addColumn (name : κ) (column : Column τ κ) : Schema τ κ where
  columns := schema.columns ++ [(name, column)]
  keys := schema.keys
  keys_named key hkey c hc := by
    rw [List.map_append]
    exact List.mem_append_left _ (schema.keys_named key hkey c hc)

/-- Every value has the type of its column. -/
def Typed (row : Row κ) : Prop := ∀ c ∈ schema.columns, c.2.type.holds (row c.1) = true

/-- Every value meets the constraints of its column. -/
def Admits (row : Row κ) : Prop :=
  ∀ c ∈ schema.columns, (c.2.notNull = true → row c.1 ≠ .null) ∧
    ∀ check ∈ c.2.check, check.passes (row c.1) = true

/-- Two rows have the same values in a key. -/
def Clash (row row' : Row κ) : Prop :=
  ∃ key ∈ schema.keys, ∀ c ∈ key, row c ≠ .null ∧ row c = row' c

instance (row : Row κ) : Decidable (schema.Typed row) :=
  inferInstanceAs (Decidable (∀ _ ∈ _, _))

instance (row : Row κ) : Decidable (schema.Admits row) :=
  inferInstanceAs (Decidable (∀ _ ∈ _, _ ∧ ∀ _ ∈ _, _))

instance (row row' : Row κ) : Decidable (schema.Clash row row') :=
  inferInstanceAs (Decidable (∃ _ ∈ _, ∀ _ ∈ _, _ ∧ _))

variable [DecidableEq κ]

/-- The row with the values that are given, and the defaults. -/
def newRow (now : ℤ) (values : List (κ × Value)) : Row κ := fun c =>
  match values.lookup c with
  | some v => v
  | none => ((schema.columns.lookup c).map fun column => column.default.at now).getD .null

/-- The row with some columns of another row. -/
def copyRow (now : ℤ) (columns : List κ) (row : Row κ) : Row κ :=
  schema.newRow now (columns.map fun c => (c, row c))

end Schema

/-- The table with one more column, which has a value in the rows that are there. -/
def Contents.addColumn [DecidableEq κ] (contents : Contents τ κ) (name : κ) (column : Column τ κ)
    (v : Value) : Contents τ κ :=
  ⟨contents.schema.addColumn name column, contents.rows.map fun row => Function.update row name v⟩

namespace Database

variable (db : Database τ κ ι)

/-- The rows of a table; a table that is not there has none. -/
def rows (t : τ) : List (Row κ) := (db.tables t).elim [] Contents.rows

/-- The names of the columns of a table. -/
def names (t : τ) : List κ := (db.tables t).elim [] fun contents => contents.schema.names

/-- What a row refers to is there. -/
def Resolves (schema : Schema τ κ) (row : Row κ) : Prop :=
  ∀ c ∈ schema.columns, ∀ target ∈ c.2.references,
    row c.1 = .null ∨
      target.2 ∈ db.names target.1 ∧ ∃ parent ∈ db.rows target.1, parent target.2 = row c.1

instance [DecidableEq κ] (schema : Schema τ κ) (row : Row κ) :
    Decidable (db.Resolves schema row) :=
  inferInstanceAs (Decidable (∀ _ ∈ _, ∀ _ ∈ _, _ ∨ _ ∧ ∃ _ ∈ _, _))

/-- Some table refers to the table. -/
def Referred (t : τ) : Prop :=
  ∃ t', ∃ contents ∈ db.tables t', ∃ c ∈ contents.schema.columns,
    ∃ target ∈ c.2.references, target.1 = t

instance [Fintype τ] [DecidableEq τ] (t : τ) : Decidable (db.Referred t) :=
  inferInstanceAs (Decidable (∃ _, ∃ _ ∈ _, ∃ _ ∈ _, ∃ _ ∈ _, _))

/-- Every row meets the constraints of its table, no two rows have the same key, and what a row
refers to is there. -/
structure Sound : Prop where
  typed : ∀ t, ∀ contents ∈ db.tables t, ∀ row ∈ contents.rows, contents.schema.Typed row
  admits : ∀ t, ∀ contents ∈ db.tables t, ∀ row ∈ contents.rows, contents.schema.Admits row
  distinct : ∀ t, ∀ contents ∈ db.tables t,
    contents.rows.Pairwise fun row row' => ¬contents.schema.Clash row row'
  resolves : ∀ t, ∀ contents ∈ db.tables t, ∀ row ∈ contents.rows,
    db.Resolves contents.schema row

section

variable [DecidableEq κ]

/-- Insert a row, if it breaks no constraint. -/
def insertRow (contents : Contents τ κ) (row : Row κ) : Except Error (Contents τ κ) :=
  if ¬contents.schema.Typed row then .error .datatype
  else if ¬contents.schema.Admits row ∨ ∃ old ∈ contents.rows, contents.schema.Clash old row then
    .error .constraint
  else if ¬db.Resolves contents.schema row then .error .foreignKey
  else .ok { contents with rows := contents.rows ++ [row] }

/-- Insert rows, one after another. -/
def insertRows : Contents τ κ → List (Row κ) → Except Error (Contents τ κ)
  | contents, [] => .ok contents
  | contents, row :: rest => do
    let contents ← db.insertRow contents row
    insertRows contents rest

end

variable [DecidableEq τ]

/-- The database with another table under a name. -/
def setTable (t : τ) (contents : Option (Contents τ κ)) : Database τ κ ι :=
  { db with tables := Function.update db.tables t contents }

end Database

/-- The statements. -/
inductive Statement (τ κ ι : Type)
  | createTable (ifNotExists : Bool) (table : τ) (schema : Schema τ κ)
  /-- `CREATE INDEX IF NOT EXISTS`. -/
  | createIndex (name : ι) (table : τ) (columns : List κ)
  /-- `DROP INDEX IF EXISTS`. -/
  | dropIndex (name : ι)
  | dropTable (table : τ)
  | renameTable (table target : τ)
  | addColumn (table : τ) (name : κ) (column : Column τ κ)
  | insertOrIgnore (table : τ) (values : List (κ × Value))
  /-- The rows of another table, column by column. -/
  | insertSelect (target : τ) (columns : List κ) (source : τ)
  /-- `DELETE` without a condition. -/
  | deleteAll (table : τ)
  | setUserVersion (version : ℤ)

/-- The value that a column that is added has in the rows that are there, if it can be added: its
default has to be constant, and a reference starts without a value. -/
def Column.added (column : Column τ κ) : Option Value :=
  match column.default with
  | .now => none
  | .value v =>
    if column.type.holds v = false ∨ column.notNull = true ∧ v = .null ∨
      column.references.isSome = true ∧ v ≠ .null then none
    else some v

section

variable [Fintype τ] [DecidableEq τ] [DecidableEq κ] [DecidableEq ι]

/-- What a statement does at a time. A table that another one refers to is neither dropped,
emptied nor renamed here. -/
def exec (now : ℤ) (db : Database τ κ ι) : Statement τ κ ι → Except Error (Database τ κ ι)
  | .createTable ifNotExists t schema =>
    match db.tables t with
    | some _ => if ifNotExists then .ok db else .error .tableExists
    | none => .ok (db.setTable t (some ⟨schema, []⟩))
  | .createIndex name t columns =>
    match db.tables t, db.indexes name with
    | none, _ => .error .noSuchTable
    | some _, some _ => .ok db
    | some contents, none =>
      if ∀ c ∈ columns, c ∈ contents.schema.names then
        .ok { db with indexes := Function.update db.indexes name (some (t, columns)) }
      else .error .noSuchColumn
  | .dropIndex name => .ok { db with indexes := Function.update db.indexes name none }
  | .dropTable t =>
    match db.tables t with
    | none => .error .noSuchTable
    | some _ =>
      if db.Referred t then .error .foreignKey
      else .ok { db.setTable t none with
        indexes := fun name => (db.indexes name).filter fun index => index.1 ≠ t }
  | .renameTable t target =>
    match db.tables t, db.tables target with
    | none, _ => .error .noSuchTable
    | some _, some _ => .error .tableExists
    | some contents, none =>
      if db.Referred t then .error .foreignKey
      else .ok { (db.setTable t none).setTable target (some contents) with
        indexes := fun name => (db.indexes name).map fun index =>
          (if index.1 = t then target else index.1, index.2) }
  | .addColumn t name column =>
    match db.tables t, column.added with
    | none, _ => .error .noSuchTable
    | some _, none => .error .addColumn
    | some contents, some v =>
      if name ∈ contents.schema.names then .error .duplicateColumn
      else if contents.rows ≠ [] ∧ ∃ check ∈ column.check, check.passes v = false then
        .error .constraint
      else .ok (db.setTable t (some (contents.addColumn name column v)))
  | .insertOrIgnore t values =>
    match db.tables t with
    | none => .error .noSuchTable
    | some contents =>
      if ∃ v ∈ values, v.1 ∉ contents.schema.names then .error .noSuchColumn
      else match db.insertRow contents (contents.schema.newRow now values) with
      | .ok contents => .ok (db.setTable t (some contents))
      | .error error => if error = .constraint then .ok db else .error error
  | .insertSelect target columns source =>
    match db.tables target, db.tables source with
    | some contents, some sourceContents =>
      if ∃ c ∈ columns, c ∉ contents.schema.names ∨ c ∉ sourceContents.schema.names then
        .error .noSuchColumn
      else (db.insertRows contents
          (sourceContents.rows.map (contents.schema.copyRow now columns))).map fun contents =>
        db.setTable target (some contents)
    | _, _ => .error .noSuchTable
  | .deleteAll t =>
    match db.tables t with
    | none => .error .noSuchTable
    | some contents =>
      if db.Referred t then .error .foreignKey
      else .ok (db.setTable t (some { contents with rows := [] }))
  | .setUserVersion version => .ok { db with userVersion := version }

end

end Sql
