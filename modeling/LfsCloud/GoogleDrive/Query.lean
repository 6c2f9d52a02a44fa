import LfsCloud.Lib.Text

/-!
# Drive searches

A search is a conjunction of conditions, written as a text with quoted literals. In a
literal, a quote or a backslash stands behind a backslash. Reading a written search gives
back the conditions with exactly the literals that went in.
-/

namespace LfsCloud

/-- A condition of a search. -/
inductive DriveTerm
  | inParents (folder : String)
  | trashed (value : Bool)
  | name (value : String)
  | mimeType (value : String)
  | appProperty (key value : String)
  deriving DecidableEq, Repr

namespace DriveQuery

/-- The quote that opens and closes a literal. -/
def apostrophe : Char := Char.ofNat 39

/-- What stands before a quote or a backslash inside a literal. -/
def backslash : Char := Char.ofNat 92

/-- A literal up to its closing quote, and the text behind it. -/
def readLiteral : List Char → Option (List Char × List Char)
  | [] => none
  | c :: text =>
    if c = apostrophe then some ([], text)
    else if c = backslash then
      match text with
      | [] => none
      | d :: text => (readLiteral text).map fun (value, rest) => (d :: value, rest)
    else (readLiteral text).map fun (value, rest) => (c :: value, rest)

/-- The text behind a given one. -/
def skip (word : String) (text : List Char) : Option (List Char) :=
  word.toList.isPrefixOf? text

/-- A literal in quotes, and the text behind it. -/
def readQuoted (text : List Char) : Option (String × List Char) := do
  let (value, rest) ← readLiteral (← skip "'" text)
  return (String.ofList value, rest)

/-- The words of a search. -/
def inParentsWord : String := " in parents"

def trashedWord : String := "trashed = "

def falseWord : String := "false"

def trueWord : String := "true"

def nameWord : String := "name = "

def mimeTypeWord : String := "mimeType = "

def appPropertiesWord : String := "appProperties has \x7b key="

def valueWord : String := " and value="

def closeWord : String := " \x7d"

def andWord : String := " and "

def readInParents (text : List Char) : Option (DriveTerm × List Char) := do
  let (folder, text) ← readQuoted text
  return (.inParents folder, ← skip inParentsWord text)

def readTrashed (text : List Char) : Option (DriveTerm × List Char) := do
  let text ← skip trashedWord text
  match skip falseWord text with
  | some rest => return (.trashed false, rest)
  | none => return (.trashed true, ← skip trueWord text)

def readName (text : List Char) : Option (DriveTerm × List Char) := do
  let (value, rest) ← readQuoted (← skip nameWord text)
  return (.name value, rest)

def readMimeType (text : List Char) : Option (DriveTerm × List Char) := do
  let (value, rest) ← readQuoted (← skip mimeTypeWord text)
  return (.mimeType value, rest)

def readAppProperty (text : List Char) : Option (DriveTerm × List Char) := do
  let (key, text) ← readQuoted (← skip appPropertiesWord text)
  let (value, text) ← readQuoted (← skip valueWord text)
  return (.appProperty key value, ← skip closeWord text)

/-- One condition, and the text behind it. -/
def readTerm (text : List Char) : Option (DriveTerm × List Char) :=
  [readInParents, readTrashed, readName, readMimeType, readAppProperty].findSome? fun f => f text

/-- Conditions up to the end of the text, at most so many. -/
def readTerms : ℕ → List Char → Option (List DriveTerm)
  | 0, _ => none
  | limit + 1, text => do
    let (term, rest) ← readTerm text
    match rest with
    | [] => return [term]
    | rest => return term :: (← readTerms limit (← skip andWord rest))

/-- The conditions of a search. -/
def read (query : String) : Option (List DriveTerm) :=
  readTerms query.toList.length query.toList

end DriveQuery

open DriveQuery

/-- `escape_drive_query_string`. -/
def escapeDriveQueryString (value : String) : String :=
  String.ofList (value.toList.flatMap fun c =>
    if c = apostrophe ∨ c = backslash then [backslash, c] else [c])

namespace DriveQuery

/-- A literal in quotes. -/
def quote (value : String) : String := "'" ++ escapeDriveQueryString value ++ "'"

/-- A condition as a text. -/
def write : DriveTerm → String
  | .inParents folder => quote folder ++ inParentsWord
  | .trashed false => trashedWord ++ falseWord
  | .trashed true => trashedWord ++ trueWord
  | .name value => nameWord ++ quote value
  | .mimeType value => mimeTypeWord ++ quote value
  | .appProperty key value =>
    appPropertiesWord ++ quote key ++ valueWord ++ quote value ++ closeWord

/-- A search as a text. -/
def writeAll (first : DriveTerm) (rest : List DriveTerm) : String :=
  rest.foldl (fun query term => query ++ andWord ++ write term) (write first)

theorem readLiteral_apostrophe (text : List Char) :
    readLiteral (apostrophe :: text) = some ([], text) := by
  rw [readLiteral.eq_def]
  exact if_pos rfl

theorem readLiteral_backslash (d : Char) (text : List Char) :
    readLiteral (backslash :: d :: text) =
      (readLiteral text).map fun (value, rest) => (d :: value, rest) := by
  rw [readLiteral.eq_def]
  have hne : backslash ≠ apostrophe := by decide
  simp only [hne, if_false, if_true]

theorem readLiteral_char {c : Char} (hquote : c ≠ apostrophe) (hslash : c ≠ backslash)
    (text : List Char) : readLiteral (c :: text) =
      (readLiteral text).map fun (value, rest) => (c :: value, rest) := by
  rw [readLiteral.eq_def]
  simp only [hquote, hslash, if_false]

/-- An escaped literal reads back, up to its closing quote. -/
theorem readLiteral_escape (value : String) (rest : List Char) :
    readLiteral ((escapeDriveQueryString value).toList ++ apostrophe :: rest) =
      some (value.toList, rest) := by
  unfold escapeDriveQueryString
  rw [String.toList_ofList]
  induction value.toList with
  | nil => exact readLiteral_apostrophe rest
  | cons c value ih =>
    rw [List.flatMap_cons]
    by_cases hc : c = apostrophe ∨ c = backslash
    · rw [if_pos hc]
      simp only [List.cons_append, List.nil_append]
      rw [readLiteral_backslash, ih]
      rfl
    · rw [if_neg hc]
      obtain ⟨hquote, hslash⟩ := not_or.mp hc
      simp only [List.cons_append, List.nil_append]
      rw [readLiteral_char hquote hslash, ih]
      rfl

/-- A text in front is skipped. -/
theorem skip_append (word : String) (rest : List Char) :
    skip word (word.toList ++ rest) = some rest := by
  unfold skip
  induction word.toList with
  | nil => rfl
  | cons c word ih => simp only [List.cons_append, List.isPrefixOf?, beq_self_eq_true, if_true, ih]

/-- A text that starts with another character is not skipped. -/
theorem skip_append_of_ne {word other : String} {c d : Char}
    (hword : word.toList.head? = some c) (hother : other.toList.head? = some d) (hne : c ≠ d)
    (rest : List Char) : skip word (other.toList ++ rest) = none := by
  unfold skip
  obtain ⟨tail, hword⟩ := List.head?_eq_some_iff.mp hword
  obtain ⟨tail', hother⟩ := List.head?_eq_some_iff.mp hother
  rw [hword, hother]
  simp [List.isPrefixOf?, hne]

/-- A quoted literal reads back. -/
theorem readQuoted_quote (value : String) (rest : List Char) :
    readQuoted ((quote value).toList ++ rest) = some (value, rest) := by
  have hquote : "'".toList = [apostrophe] := by decide
  unfold readQuoted quote
  rw [String.toList_append, String.toList_append, List.append_assoc, List.append_assoc,
    skip_append, hquote]
  simp only [Option.bind_eq_bind, Option.bind_some, List.cons_append, List.nil_append]
  rw [readLiteral_escape]
  simp

/-- What does not start with a quote is no quoted literal. -/
theorem readQuoted_append_of_ne {other : String} {d : Char}
    (hother : other.toList.head? = some d) (hne : apostrophe ≠ d) (rest : List Char) :
    readQuoted (other.toList ++ rest) = none := by
  have hquote : "'".toList.head? = some apostrophe := by decide
  unfold readQuoted
  rw [skip_append_of_ne hquote hother hne]
  rfl

theorem head?_trashedWord : trashedWord.toList.head? = some 't' := by simp [trashedWord]

theorem head?_nameWord : nameWord.toList.head? = some 'n' := by simp [nameWord]

theorem head?_mimeTypeWord : mimeTypeWord.toList.head? = some 'm' := by simp [mimeTypeWord]

theorem head?_appPropertiesWord : appPropertiesWord.toList.head? = some 'a' := by
  simp [appPropertiesWord]

section Others

variable {word : String} {d : Char} (hword : word.toList.head? = some d) (text : List Char)
include hword

/-- A condition of another kind starts with another character. -/
theorem readInParents_append_of_ne (hne : apostrophe ≠ d) :
    readInParents (word.toList ++ text) = none := by
  simp only [readInParents, readQuoted_append_of_ne hword hne, Option.bind_eq_bind,
    Option.bind_none]

theorem readTrashed_append_of_ne (hne : 't' ≠ d) : readTrashed (word.toList ++ text) = none := by
  simp only [readTrashed, skip_append_of_ne head?_trashedWord hword hne, Option.bind_eq_bind,
    Option.bind_none]

theorem readName_append_of_ne (hne : 'n' ≠ d) : readName (word.toList ++ text) = none := by
  simp only [readName, skip_append_of_ne head?_nameWord hword hne, Option.bind_eq_bind,
    Option.bind_none]

theorem readMimeType_append_of_ne (hne : 'm' ≠ d) :
    readMimeType (word.toList ++ text) = none := by
  simp only [readMimeType, skip_append_of_ne head?_mimeTypeWord hword hne, Option.bind_eq_bind,
    Option.bind_none]

end Others

/-- A written condition reads back. -/
theorem readTerm_write (term : DriveTerm) (rest : List Char) :
    readTerm ((write term).toList ++ rest) = some (term, rest) := by
  unfold readTerm
  cases term with
  | inParents folder =>
    simp only [List.findSome?_cons, readInParents, write, String.toList_append, List.append_assoc,
      readQuoted_quote, skip_append, Option.bind_eq_bind, Option.bind_some, Option.pure_def]
  | trashed value =>
    cases value with
    | false =>
      have hquoted := readInParents_append_of_ne head?_trashedWord (falseWord.toList ++ rest)
        (by decide)
      simp only [List.findSome?_cons, write, String.toList_append, List.append_assoc, hquoted,
        readTrashed, skip_append, Option.bind_eq_bind, Option.bind_some, Option.pure_def]
    | true =>
      have hquoted := readInParents_append_of_ne head?_trashedWord (trueWord.toList ++ rest)
        (by decide)
      have hfalse : falseWord.toList.head? = some 'f' := by simp [falseWord]
      have htrue : trueWord.toList.head? = some 't' := by simp [trueWord]
      have hskip := skip_append_of_ne hfalse htrue (by decide) rest
      simp only [List.findSome?_cons, write, String.toList_append, List.append_assoc, hquoted,
        readTrashed, skip_append, hskip, Option.bind_eq_bind, Option.bind_some, Option.pure_def]
  | name value =>
    have hquoted := readInParents_append_of_ne head?_nameWord ((quote value).toList ++ rest)
      (by decide)
    have htrashed := readTrashed_append_of_ne head?_nameWord ((quote value).toList ++ rest)
      (by decide)
    simp only [List.findSome?_cons, write, String.toList_append, List.append_assoc, hquoted,
      htrashed, readName, skip_append, readQuoted_quote, Option.bind_eq_bind, Option.bind_some,
      Option.pure_def]
  | mimeType value =>
    have hquoted := readInParents_append_of_ne head?_mimeTypeWord ((quote value).toList ++ rest)
      (by decide)
    have htrashed := readTrashed_append_of_ne head?_mimeTypeWord ((quote value).toList ++ rest)
      (by decide)
    have hname := readName_append_of_ne head?_mimeTypeWord ((quote value).toList ++ rest)
      (by decide)
    simp only [List.findSome?_cons, write, String.toList_append, List.append_assoc, hquoted,
      htrashed, hname, readMimeType, skip_append, readQuoted_quote, Option.bind_eq_bind,
      Option.bind_some, Option.pure_def]
  | appProperty key value =>
    have hquoted := fun text => readInParents_append_of_ne head?_appPropertiesWord text (by decide)
    have htrashed := fun text => readTrashed_append_of_ne head?_appPropertiesWord text (by decide)
    have hname := fun text => readName_append_of_ne head?_appPropertiesWord text (by decide)
    have hmime := fun text => readMimeType_append_of_ne head?_appPropertiesWord text (by decide)
    simp only [List.findSome?_cons, write, String.toList_append, List.append_assoc, hquoted,
      htrashed, hname, hmime, readAppProperty, skip_append, readQuoted_quote, Option.bind_eq_bind,
      Option.bind_some, Option.pure_def]

/-- A written search, as characters. -/
theorem toList_writeAll (first : DriveTerm) (rest : List DriveTerm) :
    (writeAll first rest).toList =
      (write first).toList ++ rest.flatMap fun term => andWord.toList ++ (write term).toList := by
  unfold writeAll
  generalize write first = query
  induction rest generalizing query with
  | nil => simp
  | cons term rest ih =>
    rw [List.foldl_cons, ih, String.toList_append, String.toList_append, List.flatMap_cons]
    simp only [List.append_assoc]

/-- After a condition that does not end the text, others follow. -/
theorem readTerms_succ {limit : ℕ} {text rest text' : List Char} {term : DriveTerm}
    {terms : List DriveTerm} (hterm : readTerm text = some (term, rest))
    (hskip : skip andWord rest = some text') (hne : rest ≠ [])
    (hterms : readTerms limit text' = some terms) :
    readTerms (limit + 1) text = some (term :: terms) := by
  rw [readTerms, hterm]
  cases rest with
  | nil => exact absurd rfl hne
  | cons c rest => simp only [Option.bind_eq_bind, Option.bind_some, hskip, hterms, Option.pure_def]

/-- Written conditions read back, if so many are allowed. -/
theorem readTerms_write (first : DriveTerm) (rest : List DriveTerm) {limit : ℕ}
    (hlimit : rest.length < limit) :
    readTerms limit ((write first).toList ++
      rest.flatMap fun term => andWord.toList ++ (write term).toList) = some (first :: rest) := by
  induction rest generalizing first limit with
  | nil =>
    obtain ⟨limit, rfl⟩ := Nat.exists_eq_succ_of_ne_zero (by omega : limit ≠ 0)
    rw [List.flatMap_nil, readTerms, readTerm_write]
    rfl
  | cons term rest ih =>
    obtain ⟨limit, rfl⟩ := Nat.exists_eq_succ_of_ne_zero (by omega : limit ≠ 0)
    rw [List.length_cons] at hlimit
    have hterms := @ih term limit (by omega)
    rw [List.flatMap_cons, List.append_assoc]
    exact readTerms_succ (readTerm_write first _) (skip_append _ _) (by simp [andWord]) hterms

/-- Every condition is written with some character. -/
theorem length_write_pos (term : DriveTerm) : 0 < (write term).toList.length := by
  cases term with
  | inParents folder => simp [write, inParentsWord]
  | trashed value => cases value <;> simp [write, trashedWord]
  | name value => simp [write, nameWord]
  | mimeType value => simp [write, mimeTypeWord]
  | appProperty key value => simp [write, appPropertiesWord]

/-- A written search reads back. -/
theorem read_writeAll (first : DriveTerm) (rest : List DriveTerm) :
    read (writeAll first rest) = some (first :: rest) := by
  have hlength : rest.length ≤
      (rest.flatMap fun term => andWord.toList ++ (write term).toList).length := by
    induction rest with
    | nil => exact Nat.zero_le _
    | cons term rest ih =>
      have hpos := length_write_pos term
      rw [List.flatMap_cons, List.length_cons, List.length_append, List.length_append]
      omega
  have hpos := length_write_pos first
  unfold read
  rw [toList_writeAll]
  apply readTerms_write
  rw [List.length_append]
  omega

end DriveQuery

end LfsCloud
