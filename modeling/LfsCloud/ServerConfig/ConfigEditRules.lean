import LfsCloud.ServerConfig.ConfigEdit
import Mathlib.Tactic

/-!
# What an edit of the server configuration changes

An edit changes the requested fields of its entry, and creates the containers of the entry that are
missing. It fails as a whole before anything is written, except where the credentials of a storage
provider are no mapping. Looking for a repository writes to the document.
-/

namespace LfsCloud

open Yaml

section Fields

variable {entry : Entries} {fields : List (String × Option String)}

/-- The fields that have a value. -/
def givenFields (fields : List (String × Option String)) : List (String × Option String) :=
  fields.filter fun field => field.2.isSome

/-- The path of a field below the root. -/
def fieldPath (field : String × Option String) : List Yaml.Step := [.key (yamlKey field.1)]

theorem yamlKey_inj {name name' : String} (h : yamlKey name = yamlKey name') : name = name' := by
  unfold yamlKey at h
  injection h

/-- One field is set, or removed. -/
def writeField (entry : Entries) (field : String × Option String) : Entries :=
  match field.2 with
  | some value => setString entry field.1 value
  | none => entry.remove (yamlKey field.1)

/-- Fields are set or removed, one after the other. -/
def writeFields (entry : Entries) (fields : List (String × Option String)) : Entries :=
  fields.foldl writeField entry

theorem writeFields_cons {field : String × Option String} :
    writeFields entry (field :: fields) = writeFields (writeField entry field) fields := rfl

theorem setOptionalStrings_eq :
    setOptionalStrings entry fields = writeFields entry (givenFields fields) := by
  induction fields generalizing entry with
  | nil => rfl
  | cons field fields ih =>
    obtain ⟨name, value⟩ := field
    have hstep : setOptionalStrings entry ((name, value) :: fields) =
        setOptionalStrings (setOptionalString entry name value) fields := rfl
    rw [hstep, ih]
    cases value with
    | none => simp [givenFields, setOptionalString]
    | some value => simp [givenFields, setOptionalString, writeFields, writeField]

theorem nodup_givenFields (h : (fields.map Prod.fst).Nodup) :
    ((givenFields fields).map Prod.fst).Nodup :=
  h.sublist (List.filter_sublist.map _)

theorem sameBut_writeField {field : String × Option String} :
    SameBut (Touched (.hash entry) [] [fieldPath field]) (.hash entry)
      (.hash (writeField entry field)) := by
  obtain ⟨name, value⟩ := field
  cases value with
  | some value => exact sameBut_insert
  | none => exact sameBut_remove

/-- Fields below the same containers do not depend on the document. -/
theorem touched_of_nil {document document' : Yaml} {paths : List (List Yaml.Step)}
    {path : List Yaml.Step} (h : Touched document [] paths path) : Touched document' [] paths path :=
  h.imp_left fun hmem => absurd hmem.1 List.not_mem_nil

/-- Writing fields changes these fields. -/
theorem sameBut_writeFields :
    SameBut (Touched (.hash entry) [] (fields.map fieldPath)) (.hash entry)
      (.hash (writeFields entry fields)) := by
  induction fields generalizing entry with
  | nil => exact SameBut.refl _
  | cons field fields ih =>
    have hfirst : SameBut (Touched (.hash entry) [] ((field :: fields).map fieldPath))
        (.hash entry) (.hash (writeField entry field)) := by
      apply sameBut_writeField.mono
      intro path hpath
      exact hpath.mono (List.Subset.refl _) (List.cons_subset_cons _ (List.nil_subset _))
    have hrest : SameBut (Touched (.hash entry) [] ((field :: fields).map fieldPath))
        (.hash (writeField entry field)) (.hash (writeFields (writeField entry field) fields)) := by
      apply ih.mono
      intro path hpath
      exact (touched_of_nil hpath).mono (List.Subset.refl _) (List.subset_cons_self _ _)
    rw [writeFields_cons]
    exact hfirst.trans hrest

/-- A key that is not among the fields written stays as it was. -/
theorem get_writeFields_of_notMem {name : String} (h : ∀ field ∈ fields, field.1 ≠ name) :
    (writeFields entry fields).get (yamlKey name) = entry.get (yamlKey name) := by
  induction fields generalizing entry with
  | nil => rfl
  | cons field fields ih =>
    rw [writeFields_cons, ih fun field hfield => h field (List.mem_cons_of_mem _ hfield)]
    have hne : yamlKey name ≠ yamlKey field.1 := fun heq =>
      h _ List.mem_cons_self (yamlKey_inj heq).symm
    obtain ⟨other, value⟩ := field
    cases value with
    | none => exact Entries.get_remove_ne hne
    | some value => exact Entries.get_insert_ne hne

/-- A field that is written has its value afterwards. -/
theorem get_writeFields {field : String × Option String}
    (hnodup : (fields.map Prod.fst).Nodup) (h : field ∈ fields) :
    (writeFields entry fields).get (yamlKey field.1) = field.2.map .string := by
  induction fields generalizing entry with
  | nil => exact absurd h List.not_mem_nil
  | cons first fields ih =>
    rw [List.map_cons, List.nodup_cons] at hnodup
    rw [writeFields_cons]
    rcases List.mem_cons.mp h with rfl | hmem
    · rw [get_writeFields_of_notMem]
      · obtain ⟨name, value⟩ := field
        cases value with
        | none => exact Entries.get_remove_self
        | some value => exact Entries.get_insert_self
      · intro other hother heq
        have hmem : other.1 ∈ fields.map Prod.fst := List.mem_map_of_mem hother
        exact hnodup.1 (heq ▸ hmem)
    · exact ih hnodup.2 hmem

end Fields

section Descent

variable {α : Type} {name sectionName id : String} {parent : Entries}

/-- The mapping below a key, or the one that is created there. -/
theorem nestedHashMut_of_hash {edit : MutEdit Entries α} {inner : Entries}
    (h : (parent.get (yamlKey name)).getD (.hash []) = .hash inner) :
    nestedHashMut name edit parent =
      ((edit inner).1, parent.insert (yamlKey name) (.hash (edit inner).2)) := by
  simp only [nestedHashMut, h, yamlHashMut]

/-- An edit below a key touches what is below the key. -/
theorem sameBut_nestedHashMut {edit : MutEdit Entries α} {inner : Entries}
    {containers fields : List (List Yaml.Step)}
    (h : (parent.get (yamlKey name)).getD (.hash []) = .hash inner)
    (hedit : SameBut (Touched (.hash inner) containers fields) (.hash inner)
      (.hash (edit inner).2)) :
    SameBut (Touched (.hash parent)
      ([.key (yamlKey name)] :: containers.map (.key (yamlKey name) :: ·))
      (fields.map (.key (yamlKey name) :: ·))) (.hash parent)
        (.hash (nestedHashMut name edit parent).2) := by
  rw [nestedHashMut_of_hash h]
  have hchild : ((Yaml.hash parent).child (.key (yamlKey name))).getD (.hash []) =
      .hash inner := h
  refine sameBut_below rfl Entries.get_insert_self
    (child_hash_ne fun _ hne => Entries.get_insert_ne hne) valueAt_emptyHash ?_
  rw [hchild]
  exact hedit

/-- What `map_entry` finds is where `map_entry_mut` comes to. -/
theorem mapEntry_ok {document : Yaml} {existing : Option Entries}
    (h : mapEntry document sectionName id = .ok existing) :
    ∃ root values : Entries, document = .hash root ∧
      (root.get (yamlKey sectionName)).getD (.hash []) = .hash values ∧
      (values.get (yamlKey id)).getD (.hash []) = .hash (existing.getD []) ∧
      (existing = none → values.get (yamlKey id) = none) := by
  cases document with
  | hash root =>
    refine ⟨root, ?_⟩
    simp only [mapEntry, configRoot, asHash, bind, Except.bind] at h
    cases hsection : Entries.get root (yamlKey sectionName) with
    | none =>
      simp only [hsection] at h
      cases h
      exact ⟨[], rfl, rfl, rfl, fun _ => rfl⟩
    | some sectionValue =>
      simp only [hsection] at h
      cases sectionValue with
      | hash values =>
        refine ⟨values, rfl, rfl, ?_⟩
        dsimp only at h
        cases hid : Entries.get values (yamlKey id) with
        | none =>
          simp only [hid] at h
          cases h
          exact ⟨rfl, fun _ => rfl⟩
        | some entry =>
          simp only [hid] at h
          cases entry with
          | hash entry =>
            cases h
            exact ⟨rfl, fun hnone => by cases hnone⟩
          | _ => cases h
      | _ => cases h
  | _ => cases h

/-- The path of an entry of a section. -/
def entryPath (sectionName id : String) : List Yaml.Step :=
  [.key (yamlKey sectionName), .key (yamlKey id)]

/-- What `map_entry_mut` does after `map_entry` found nothing amiss. -/
theorem mapEntryMut_of_mapEntry {document : Yaml} {existing : Option Entries}
    (edit : MutEdit Entries α) (h : mapEntry document sectionName id = .ok existing) :
    (mapEntryMut sectionName id edit document).1 = (edit (existing.getD [])).1 ∧
      (∀ path, (mapEntryMut sectionName id edit document).2.valueAt
        (entryPath sectionName id ++ path) =
          (Yaml.hash (edit (existing.getD [])).2).valueAt path) ∧
      (existing = none → document.valueAt (entryPath sectionName id) = none) ∧
      ∀ containers fields, SameBut (Touched (.hash (existing.getD [])) containers fields)
        (.hash (existing.getD [])) (.hash (edit (existing.getD [])).2) →
        SameBut (Touched document
          ([.key (yamlKey sectionName)] :: entryPath sectionName id ::
            containers.map (entryPath sectionName id ++ ·))
          (fields.map (entryPath sectionName id ++ ·))) document
            (mapEntryMut sectionName id edit document).2 := by
  obtain ⟨root, values, rfl, hsection, hid, hnone⟩ := mapEntry_ok h
  have hinner : nestedHashMut id edit values = _ := nestedHashMut_of_hash hid
  have houter : nestedHashMut sectionName (nestedHashMut id edit) root = _ :=
    nestedHashMut_of_hash hsection
  have hresult : mapEntryMut sectionName id edit (.hash root) =
      ((nestedHashMut sectionName (nestedHashMut id edit) root).1,
        .hash (nestedHashMut sectionName (nestedHashMut id edit) root).2) := rfl
  refine ⟨?_, ?_, ?_, ?_⟩
  · rw [hresult, houter, hinner]
  · intro path
    rw [hresult, houter, hinner]
    have hvalue : ∀ (entries : Entries) (k v : Yaml) (path : List Yaml.Step),
        (Yaml.hash (entries.insert k v)).valueAt (.key k :: path) = v.valueAt path := by
      intro entries k v path
      have hchild : (Yaml.hash (entries.insert k v)).child (.key k) = some v :=
        Entries.get_insert_self
      rw [valueAt_cons, hchild]
      rfl
    exact (hvalue _ _ _ _).trans (hvalue _ _ _ _)
  · intro hexisting
    have hvalues := hnone hexisting
    have hsectionChild : (Yaml.hash root).child (.key (yamlKey sectionName)) =
        root.get (yamlKey sectionName) := rfl
    unfold entryPath
    rw [valueAt_cons, hsectionChild]
    cases hget : root.get (yamlKey sectionName) with
    | none => rfl
    | some sectionValue =>
      rw [hget] at hsection
      have hvalue : sectionValue = .hash values := hsection
      subst hvalue
      have hidChild : (Yaml.hash values).child (.key (yamlKey id)) = none := hvalues
      rw [Option.bind_some, valueAt_cons, hidChild]
      rfl
  · intro containers fields hedit
    have hbelow := sameBut_nestedHashMut hsection (sameBut_nestedHashMut hid hedit)
    rw [hresult]
    simpa [entryPath, List.map_map, Function.comp_def] using hbelow

end Descent

end LfsCloud
