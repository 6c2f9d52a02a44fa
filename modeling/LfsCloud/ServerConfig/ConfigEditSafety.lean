import LfsCloud.ServerConfig.ConfigEditRules

/-!
# Sequences of edits

Every edit of a sequence is framed and atomic if no storage provider whose credentials are edited
has credentials that are no mapping, and no repository is looked for in vain in a document whose
last key is another one.
-/

namespace LfsCloud

open Yaml

section Upserts

/-- An upsert changes what was requested and creates missing containers, it is unchanged exactly
when the document is, and it changes nothing when it fails. -/
structure UpsertSound (document : Yaml) (containers : List (List Yaml.Step))
    (requested : List (List Yaml.Step × Option String))
    (result : Except ConfigEditError ConfigEditReport × Yaml) : Prop where
  frame : SameBut (Touched document containers (requested.map Prod.fst)) document result.2
  written : ∀ report, result.1 = .ok report → ∀ field ∈ requested,
    result.2.valueAt field.1 = field.2.map fun value => .scalar (.string value)
  unchanged : result.1 = .ok (.edited .unchanged) ↔
    (∃ report, result.1 = .ok report) ∧ result.2 = document
  failed : ∀ error, result.1 = .error error → result.2 = document

/-- What an edit of an entry changes, and that it does not fail. -/
structure EntryEditSound (entry : Entries) (containers : List (List Yaml.Step))
    (requested : List (List Yaml.Step × Option String))
    (result : Except ConfigEditError Unit × Entries) : Prop where
  ok : result.1 = .ok ()
  frame : SameBut (Touched (.hash entry) containers (requested.map Prod.fst)) (.hash entry)
    (.hash result.2)
  written : ∀ field ∈ requested,
    (Yaml.hash result.2).valueAt field.1 = field.2.map fun value => .scalar (.string value)

variable {document : Yaml} {sectionName id : String}

theorem checkUpsert_ok {required : List (Option String × String)} {existed : Bool}
    (h : checkUpsert document sectionName id required = .ok existed) :
    Text.isBlank id = false ∧
      ∃ existing, mapEntry document sectionName id = .ok existing ∧ existed = existing.isSome := by
  unfold checkUpsert requireNonempty at h
  by_cases hblank : Text.isBlank id = true
  · rw [if_pos hblank] at h
    cases h
  · rw [if_neg hblank] at h
    refine ⟨Bool.eq_false_of_not_eq_true hblank, ?_⟩
    cases hentry : mapEntry document sectionName id with
    | error error =>
      simp only [hentry, bind, Except.bind] at h
      cases h
    | ok existing =>
      refine ⟨existing, rfl, ?_⟩
      simp only [hentry, bind, Except.bind] at h
      split_ifs at h
      · split at h
        · cases h
        · cases h
          rfl
      · cases h
        rfl

/-- The fields of an entry, with the path of the entry in front. -/
def belowEntry (entryAt : List Yaml.Step) (requested : List (List Yaml.Step × Option String)) :
    List (List Yaml.Step × Option String) :=
  requested.map fun field => (entryAt ++ field.1, field.2)

/-- The report of an upsert, after its checks. -/
theorem upsertWith_ok {edit : MutEdit Yaml Unit} {existed : Bool}
    (hok : (edit document).1 = .ok ()) :
    reporting .edited (upsertWith (.ok existed) edit) document =
      (.ok (.edited (editOutcome existed (document ≠ (edit document).2))), (edit document).2) := by
  simp only [reporting, upsertWith, hok, Except.map]

theorem editOutcome_eq_unchanged {existed changed : Bool} :
    editOutcome existed changed = .unchanged ↔ existed = true ∧ changed = false := by
  cases existed <;> cases changed <;> simp [editOutcome]

/-- An upsert that writes where something was missing changes the document. -/
theorem upsertSound_of_ok {edit : MutEdit Yaml Unit} {existed : Bool}
    {containers : List (List Yaml.Step)} {requested : List (List Yaml.Step × Option String)}
    (hok : (edit document).1 = .ok ())
    (hframe : SameBut (Touched document containers (requested.map Prod.fst)) document
      (edit document).2)
    (hwritten : ∀ field ∈ requested,
      (edit document).2.valueAt field.1 = field.2.map fun value => .scalar (.string value))
    (hexisted : (edit document).2 = document → existed = true) :
    UpsertSound document containers requested
      (reporting .edited (upsertWith (.ok existed) edit) document) := by
  rw [upsertWith_ok hok]
  refine ⟨hframe, fun _ _ => hwritten, ?_, fun error h => by cases h⟩
  constructor
  · intro h
    have houtcome := editOutcome_eq_unchanged.mp (ConfigEditReport.edited.inj (Except.ok.inj h))
    exact ⟨⟨_, rfl⟩, (of_not_not (of_decide_eq_false houtcome.2)).symm⟩
  · rintro ⟨_, hsame⟩
    have hchanged : decide (document ≠ (edit document).2) = false :=
      decide_eq_false (not_not_intro hsame.symm)
    exact congrArg _ (congrArg _ (editOutcome_eq_unchanged.mpr ⟨hexisted hsame, hchanged⟩))

/-- An upsert whose checks fail. -/
theorem upsertSound_of_error {edit : MutEdit Yaml Unit} {error : ConfigEditError}
    {containers : List (List Yaml.Step)} {requested : List (List Yaml.Step × Option String)} :
    UpsertSound document containers requested
      (reporting .edited (upsertWith (.error error) edit) document) where
  frame := SameBut.refl _
  written _ h := by cases h
  unchanged := by
    constructor
    · intro h
      cases h
    · rintro ⟨⟨report, h⟩, _⟩
      cases h
  failed _ _ := rfl

/-- An upsert of an entry of a section, by what is done with the entry. -/
theorem upsertSound_of_entry {required : List (Option String × String)}
    {edit : MutEdit Entries Unit} {containers : List (List Yaml.Step)}
    {requested : List (List Yaml.Step × Option String)}
    (hentry : ∀ existing, Text.isBlank id = false →
      mapEntry document sectionName id = .ok existing →
        EntryEditSound (existing.getD []) containers requested (edit (existing.getD []))) :
    UpsertSound document
      ([.key (yamlKey sectionName)] :: entryPath sectionName id ::
        containers.map (entryPath sectionName id ++ ·))
      (belowEntry (entryPath sectionName id) requested)
      (reporting .edited (upsertWith (checkUpsert document sectionName id required)
        (mapEntryMut sectionName id edit)) document) := by
  cases hcheck : checkUpsert document sectionName id required with
  | error error =>
    exact upsertSound_of_error
  | ok existed =>
    obtain ⟨hblank, existing, hmap, rfl⟩ := checkUpsert_ok hcheck
    obtain ⟨hresult, hvalue, habsent, hframe⟩ := mapEntryMut_of_mapEntry edit hmap
    have hsound := hentry existing hblank hmap
    apply upsertSound_of_ok
    · rw [hresult, hsound.ok]
    · have hpaths : (belowEntry (entryPath sectionName id) requested).map Prod.fst =
          (requested.map Prod.fst).map (entryPath sectionName id ++ ·) := by
        simp [belowEntry]
      rw [hpaths]
      exact hframe _ _ hsound.frame
    · intro field hfield
      obtain ⟨inner, hmem, rfl⟩ := List.mem_map.mp hfield
      rw [hvalue]
      exact hsound.written inner hmem
    · intro hsame
      cases existing with
      | some entry => rfl
      | none =>
        have hbefore := habsent rfl
        have hafter := hvalue []
        rw [List.append_nil, hsame, hbefore] at hafter
        cases hafter

end Upserts

section Requested

/-- What an upsert of a repository provider requests. -/
def RepositoryProviderValues.requested (values : RepositoryProviderValues) :
    List (String × Option String) :=
  givenFields [("type", values.providerType)] ++
    (if values.clearApiUrl then [("api_url", none)]
      else givenFields [("api_url", values.apiUrl)]) ++
    givenFields [("personal_access_token", values.personalAccessToken)]

/-- Requested fields with their paths. -/
def requestedPaths (fields : List (String × Option String)) :
    List (List Yaml.Step × Option String) :=
  fields.map fun field => (fieldPath field, field.2)

theorem fst_requestedPaths (fields : List (String × Option String)) :
    (requestedPaths fields).map Prod.fst = fields.map fieldPath := by
  simp [requestedPaths]

theorem valueAt_key {entries : Entries} {name : String} :
    (Yaml.hash entries).valueAt [.key (yamlKey name)] =
      (entries.get (yamlKey name)).map Yaml.leaf := by
  have hchild : (Yaml.hash entries).child (.key (yamlKey name)) = entries.get (yamlKey name) := rfl
  rw [valueAt_cons, hchild]
  cases Entries.get entries (yamlKey name) with
  | none => rfl
  | some value => rfl

/-- Writing fields, as an edit of an entry. -/
theorem valueAt_writeFields {entry : Entries} {fields : List (String × Option String)}
    {field : String × Option String} (hnodup : (fields.map Prod.fst).Nodup) (h : field ∈ fields) :
    (Yaml.hash (writeFields entry fields)).valueAt (fieldPath field) =
      field.2.map fun value => .scalar (.string value) := by
  unfold fieldPath
  rw [valueAt_key, get_writeFields hnodup h, Option.map_map]
  rfl

theorem setRepositoryProvider_eq (values : RepositoryProviderValues) (entry : Entries) :
    setRepositoryProvider values entry = (.ok (), writeFields entry values.requested) := by
  obtain ⟨id, providerType, apiUrl, clearApiUrl, personalAccessToken⟩ := values
  cases providerType <;> cases apiUrl <;> cases clearApiUrl <;> cases personalAccessToken <;> rfl

theorem nodup_requested (values : RepositoryProviderValues) :
    (values.requested.map Prod.fst).Nodup := by
  obtain ⟨id, providerType, apiUrl, clearApiUrl, personalAccessToken⟩ := values
  cases providerType <;> cases apiUrl <;> cases clearApiUrl <;> cases personalAccessToken <;>
    simp [RepositoryProviderValues.requested, givenFields]

/-- The fields of a repository provider. -/
theorem setRepositoryProvider_sound (values : RepositoryProviderValues) (entry : Entries) :
    EntryEditSound entry [] (requestedPaths values.requested)
      (setRepositoryProvider values entry) := by
  rw [setRepositoryProvider_eq]
  refine ⟨rfl, ?_, ?_⟩
  · rw [fst_requestedPaths]
    exact sameBut_writeFields
  · intro field hfield
    obtain ⟨plain, hmem, rfl⟩ := List.mem_map.mp hfield
    exact valueAt_writeFields (nodup_requested values) hmem

/-- The key of the credentials. -/
def credentialsKey : Yaml.Step := .key (yamlKey "credentials")

/-- The containers that an upsert of a storage provider may create in its entry. -/
def StorageProviderValues.containers (values : StorageProviderValues) : List (List Yaml.Step) :=
  if values.editsCredentials then [[credentialsKey]] else []

/-- What an upsert of a storage provider requests of its entry. -/
def StorageProviderValues.requested (values : StorageProviderValues) :
    List (List Yaml.Step × Option String) :=
  requestedPaths (givenFields [("type", values.providerType)]) ++
    belowEntry [credentialsKey] (requestedPaths (givenFields values.credentialsFields)) ++
    requestedPaths (givenFields [("root_folder_id", values.rootFolderId),
      ("display_name", values.displayName)])

/-- Credentials that are not edited are not requested. -/
theorem givenFields_credentialsFields {values : StorageProviderValues}
    (h : values.editsCredentials = false) : givenFields values.credentialsFields = [] := by
  simp only [StorageProviderValues.editsCredentials, Bool.or_eq_false_iff,
    Option.isSome_eq_false_iff, Option.isNone_iff_eq_none] at h
  obtain ⟨⟨htype, hdir⟩, hexecutable⟩ := h
  simp [givenFields, StorageProviderValues.credentialsFields, htype, hdir, hexecutable]

/-- The credentials are a mapping or missing, or the edit leaves them alone. -/
def StorageProviderValues.CredentialsEditable (values : StorageProviderValues) (entry : Entries) :
    Prop :=
  values.editsCredentials = true → ∀ value, entry.get (yamlKey "credentials") = some value →
    (asHash value).isSome

/-- The credentials of a storage provider. -/
theorem setStorageCredentials_sound {values : StorageProviderValues} {entry : Entries}
    (h : values.CredentialsEditable entry) :
    EntryEditSound entry values.containers
      (belowEntry [credentialsKey] (requestedPaths (givenFields values.credentialsFields)))
      (setStorageCredentials values entry) ∧
    ∀ name, name ≠ "credentials" →
      (setStorageCredentials values entry).2.get (yamlKey name) = entry.get (yamlKey name) := by
  by_cases hedits : values.editsCredentials = true
  · obtain ⟨inner, hinner⟩ : ∃ inner : Entries,
        (entry.get (yamlKey "credentials")).getD (.hash []) = .hash inner := by
      cases hget : entry.get (yamlKey "credentials") with
      | none => exact ⟨[], rfl⟩
      | some value =>
        have hsome := h hedits value hget
        cases value with
        | hash inner => exact ⟨inner, rfl⟩
        | _ => cases hsome
    have hnested : nestedHashMut "credentials" (fun credentials =>
        ((.ok () : Except ConfigEditError Unit),
          setOptionalStrings credentials values.credentialsFields)) entry =
        (.ok (), entry.insert (yamlKey "credentials")
          (.hash (setOptionalStrings inner values.credentialsFields))) :=
      nestedHashMut_of_hash hinner
    have hresult : setStorageCredentials values entry = (.ok (), entry.insert
        (yamlKey "credentials") (.hash (writeFields inner
          (givenFields values.credentialsFields)))) := by
      simp only [setStorageCredentials, if_pos hedits, hnested]
      rw [setOptionalStrings_eq]
    have hnodup : ((givenFields values.credentialsFields).map Prod.fst).Nodup := by
      apply nodup_givenFields
      simp [StorageProviderValues.credentialsFields]
    refine ⟨⟨by rw [hresult], ?_, ?_⟩, ?_⟩
    · have hinnerFrame : SameBut (Touched (.hash inner) []
          ((givenFields values.credentialsFields).map fieldPath)) (.hash inner)
            (.hash (setOptionalStrings inner values.credentialsFields)) := by
        rw [setOptionalStrings_eq]
        exact sameBut_writeFields
      have hbelow : SameBut _ (.hash entry) (.hash (nestedHashMut "credentials"
          (fun credentials => ((.ok () : Except ConfigEditError Unit),
            setOptionalStrings credentials values.credentialsFields)) entry).2) :=
        sameBut_nestedHashMut hinner hinnerFrame
      have hsnd : (setStorageCredentials values entry).2 = (nestedHashMut "credentials"
          (fun credentials => ((.ok () : Except ConfigEditError Unit),
            setOptionalStrings credentials values.credentialsFields)) entry).2 := by
        simp only [setStorageCredentials, if_pos hedits]
      rw [hsnd]
      simpa [StorageProviderValues.containers, hedits, belowEntry, requestedPaths,
        credentialsKey, Function.comp_def] using hbelow
    · intro field hfield
      obtain ⟨below, hbelow, rfl⟩ := List.mem_map.mp hfield
      obtain ⟨plain, hmem, rfl⟩ := List.mem_map.mp hbelow
      have hchild : (Yaml.hash (setStorageCredentials values entry).2).child credentialsKey =
          some (.hash (writeFields inner (givenFields values.credentialsFields))) := by
        rw [hresult]
        exact Entries.get_insert_self
      rw [List.singleton_append, valueAt_cons, hchild]
      exact valueAt_writeFields hnodup hmem
    · intro name hname
      rw [hresult]
      exact Entries.get_insert_ne fun heq => hname (yamlKey_inj heq)
  · have hfalse := Bool.eq_false_of_not_eq_true hedits
    have hresult : setStorageCredentials values entry = (.ok (), entry) := by
      simp only [setStorageCredentials, if_neg hedits]
    rw [hresult, givenFields_credentialsFields hfalse]
    exact ⟨⟨rfl, SameBut.refl _, fun field h => absurd h List.not_mem_nil⟩, fun _ _ => rfl⟩

/-- A container that is missing where other fields were written was missing before. -/
theorem touched_of_get_eq {entry entry' : Entries} {containers paths : List (List Yaml.Step)}
    {path : List Yaml.Step}
    (hcontainers : ∀ container ∈ containers, ∃ name, container = [.key (yamlKey name)] ∧
      Entries.get entry' (yamlKey name) = Entries.get entry (yamlKey name))
    (h : Touched (.hash entry') containers paths path) :
    Touched (.hash entry) containers paths path := by
  refine h.imp_left fun ⟨hmem, hnone⟩ => ⟨hmem, ?_⟩
  obtain ⟨name, rfl, hget⟩ := hcontainers path hmem
  rw [valueAt_key] at hnone ⊢
  rw [← hget]
  exact hnone

/-- The fields of a storage provider. -/
theorem setStorageProvider_sound {values : StorageProviderValues} {entry : Entries}
    (h : values.CredentialsEditable entry) :
    EntryEditSound entry values.containers values.requested (setStorageProvider values entry) := by
  have htypeNodup : ((givenFields [("type", values.providerType)]).map Prod.fst).Nodup :=
    nodup_givenFields (by simp)
  have hrestNodup : ((givenFields [("root_folder_id", values.rootFolderId),
      ("display_name", values.displayName)]).map Prod.fst).Nodup :=
    nodup_givenFields (by simp)
  obtain ⟨typed, htyped⟩ : ∃ typed,
      typed = writeFields entry (givenFields [("type", values.providerType)]) := ⟨_, rfl⟩
  have hcredentialsKept : typed.get (yamlKey "credentials") =
      entry.get (yamlKey "credentials") := by
    rw [htyped]
    apply get_writeFields_of_notMem
    intro field hfield
    have hname : field = ("type", values.providerType) :=
      List.mem_singleton.mp (List.mem_filter.mp hfield).1
    have hne : "type" ≠ "credentials" := by decide
    rw [hname]
    exact hne
  have hediting : values.CredentialsEditable typed := by
    intro hedits value hvalue
    exact h hedits value (hcredentialsKept ▸ hvalue)
  have hsound := setStorageCredentials_sound hediting
  obtain ⟨⟨hok, hframe, hwritten⟩, hothers⟩ := hsound
  have hresult : setStorageProvider values entry = (.ok (),
      writeFields (setStorageCredentials values typed).2 (givenFields
        [("root_folder_id", values.rootFolderId), ("display_name", values.displayName)])) := by
    have hset : setOptionalString entry "type" values.providerType = typed := by
      rw [htyped, ← setOptionalStrings_eq]
      rfl
    simp only [setStorageProvider, hset, hok]
    rw [setOptionalStrings_eq]
  have hnames : ∀ field ∈ givenFields [("root_folder_id", values.rootFolderId),
      ("display_name", values.displayName)],
      field.1 = "root_folder_id" ∨ field.1 = "display_name" := by
    intro field hfield
    have hmem := (List.mem_filter.mp hfield).1
    simp only [List.mem_cons, List.not_mem_nil, or_false] at hmem
    exact hmem.imp (fun hfield => by rw [hfield]) fun hfield => by rw [hfield]
  refine ⟨by rw [hresult], ?_, ?_⟩
  · rw [hresult]
    have hpaths : values.requested.map Prod.fst =
        ((givenFields [("type", values.providerType)]).map fieldPath ++
          (belowEntry [credentialsKey]
            (requestedPaths (givenFields values.credentialsFields))).map Prod.fst) ++
          (givenFields [("root_folder_id", values.rootFolderId),
            ("display_name", values.displayName)]).map fieldPath := by
      simp only [StorageProviderValues.requested, List.map_append, fst_requestedPaths]
    rw [hpaths]
    have hfirst : SameBut (Touched (.hash entry) []
        ((givenFields [("type", values.providerType)]).map fieldPath)) (.hash entry)
          (.hash typed) := by
      rw [htyped]
      exact sameBut_writeFields
    refine (hfirst.mono ?_).trans ((hframe.mono ?_).trans (sameBut_writeFields.mono ?_))
    · intro path hpath
      apply (touched_of_nil hpath).mono (List.nil_subset _)
      exact List.Subset.trans (List.subset_append_left _ _) (List.subset_append_left _ _)
    · intro path hpath
      refine Touched.mono (List.Subset.refl _) ?_ (touched_of_get_eq ?_ hpath)
      · exact List.Subset.trans (List.subset_append_right _ _) (List.subset_append_left _ _)
      · intro container hcontainer
        unfold StorageProviderValues.containers at hcontainer
        split_ifs at hcontainer
        · exact ⟨"credentials", List.mem_singleton.mp hcontainer, hcredentialsKept⟩
        · exact absurd hcontainer List.not_mem_nil
    · intro path hpath
      exact (touched_of_nil hpath).mono (List.nil_subset _) (List.subset_append_right _ _)
  · intro field hfield
    rw [hresult]
    have hkept : ∀ name path, name ≠ "root_folder_id" → name ≠ "display_name" →
        (Yaml.hash (writeFields (setStorageCredentials values typed).2 (givenFields
          [("root_folder_id", values.rootFolderId), ("display_name", values.displayName)]))).valueAt
            (.key (yamlKey name) :: path) =
          (Yaml.hash (setStorageCredentials values typed).2).valueAt
            (.key (yamlKey name) :: path) := by
      intro name path hroot hdisplay
      have hget : (writeFields (setStorageCredentials values typed).2 (givenFields
          [("root_folder_id", values.rootFolderId), ("display_name", values.displayName)])).get
            (yamlKey name) = (setStorageCredentials values typed).2.get (yamlKey name) := by
        apply get_writeFields_of_notMem
        intro field hfield heq
        rcases hnames field hfield with hname | hname
        · exact hroot (heq.symm.trans hname)
        · exact hdisplay (heq.symm.trans hname)
      rw [valueAt_cons, valueAt_cons]
      exact congrArg (fun value => Option.bind value fun below => below.valueAt path) hget
    rcases List.mem_append.mp hfield with hleft | hrest
    · rcases List.mem_append.mp hleft with htype | hcredentials
      · obtain ⟨plain, hmem, rfl⟩ := List.mem_map.mp htype
        have hplain : plain = ("type", values.providerType) :=
          List.mem_singleton.mp (List.mem_filter.mp hmem).1
        have hvalue : (Yaml.hash typed).valueAt (fieldPath plain) =
            plain.2.map fun value => .scalar (.string value) := by
          rw [htyped]
          exact valueAt_writeFields htypeNodup hmem
        have hmiddle : (setStorageCredentials values typed).2.get (yamlKey "type") =
            typed.get (yamlKey "type") := hothers "type" (by decide)
        subst hplain
        unfold fieldPath at hvalue ⊢
        rw [hkept "type" [] (by decide) (by decide), valueAt_key, hmiddle, ← valueAt_key, hvalue]
      · have hvalue := hwritten field hcredentials
        obtain ⟨below, _, rfl⟩ := List.mem_map.mp hcredentials
        rw [← hvalue]
        exact hkept "credentials" below.1 (by decide) (by decide)
    · obtain ⟨plain, hmem, rfl⟩ := List.mem_map.mp hrest
      exact valueAt_writeFields hrestNodup hmem

end Requested

section Repositories

variable {document : Yaml}

theorem mapM_asHash {items : List Yaml} {repositories : List RepositoryValues}
    (h : items.mapM repositoryItem = Except.ok repositories) :
    ∃ entries : List Entries, items = entries.map .hash ∧
      repositories = entries.map repositoryValues := by
  induction items generalizing repositories with
  | nil =>
    cases h
    exact ⟨[], rfl, rfl⟩
  | cons item items ih =>
    rw [List.mapM_cons] at h
    cases item with
    | hash entry =>
      cases hrest : items.mapM repositoryItem with
      | error error =>
        simp only [repositoryItem, asHash, bind, Except.bind, hrest] at h
        cases h
      | ok rest =>
        simp only [repositoryItem, asHash, bind, Except.bind, hrest] at h
        cases h
        obtain ⟨entries, rfl, rfl⟩ := ih hrest
        exact ⟨entry :: entries, rfl, rfl⟩
    | _ => cases h

/-- What `repository_entries` finds is where `repositories_mut` comes to. -/
theorem repositoryEntries_ok {repositories : List RepositoryValues}
    (h : repositoryEntries document = .ok repositories) :
    ∃ (root : Entries) (entries : List Entries), document = .hash root ∧
      (root.get (yamlKey repositoriesKey)).getD (.array []) = .array (entries.map .hash) ∧
      repositories = entries.map repositoryValues := by
  cases document with
  | hash root =>
    simp only [repositoryEntries, configRoot, asHash, bind, Except.bind] at h
    cases hget : Entries.get root (yamlKey repositoriesKey) with
    | none =>
      simp only [hget] at h
      cases h
      exact ⟨root, [], rfl, by rw [hget]; rfl, rfl⟩
    | some value =>
      simp only [hget] at h
      cases value with
      | array items =>
        obtain ⟨entries, rfl, rfl⟩ := mapM_asHash h
        exact ⟨root, entries, rfl, by rw [hget]; rfl, rfl⟩
      | _ => cases h
  | _ => cases h

/-- What is done with the sequence of repositories. -/
theorem repositoriesMut_of_array {α : Type} {root : Entries} {items : List Yaml}
    {edit : MutEdit (List Yaml) α}
    (h : (root.get (yamlKey repositoriesKey)).getD (.array []) = .array items) :
    repositoriesMut edit root =
      ((edit items).1, root.insert (yamlKey repositoriesKey) (.array (edit items).2)) := by
  simp only [repositoriesMut, h]

/-- The path of a repository. -/
def repositoryPath (index : ℕ) : List Yaml.Step :=
  [.key (yamlKey repositoriesKey), .index index]

/-- The index that an upsert of a repository writes to. -/
def RepositoryValues.indexIn (values : RepositoryValues) (document : Yaml) : ℕ :=
  match repositoryEntries document with
  | .ok repositories =>
    (repositories.findIdx? fun repository => repository.id == values.id).getD repositories.length
  | .error _ => 0

/-- What an upsert of a repository requests. -/
def RepositoryValues.requested (values : RepositoryValues) :
    List (List Yaml.Step × Option String) :=
  requestedPaths (givenFields values.fields)

theorem nodup_fields (values : RepositoryValues) :
    ((givenFields values.fields).map Prod.fst).Nodup := by
  apply nodup_givenFields
  simp [RepositoryValues.fields]

theorem checkUpsertRepository_ok {values : RepositoryValues} {index : Option ℕ}
    (h : checkUpsertRepository document values = .ok index) :
    repositoryIndex document values.id = .ok index := by
  unfold checkUpsertRepository requireNonempty at h
  split_ifs at h
  · cases h
  · cases hindex : repositoryIndex document values.id with
    | error error =>
      simp only [hindex, bind, Except.bind] at h
      cases h
    | ok found =>
      simp only [hindex, bind, Except.bind] at h
      split_ifs at h
      · split at h
        · cases h
        · cases h
          rfl
      · cases h
        rfl

/-- Writing an item of the sequence of repositories. -/
theorem upsertSound_of_item {values : RepositoryValues} {root : Entries} {items : List Yaml}
    {i : ℕ} {index : Option ℕ} (entry : Entries) (items' : List Yaml)
    (hitems : (root.get (yamlKey repositoriesKey)).getD (.array []) = .array items)
    (hset : setRepository values index items = (.ok (), items'))
    (hself : items'[i]? = some (.hash (writeFields entry (givenFields values.fields))))
    (hne : ∀ j, j ≠ i → items'[j]? = items[j]?) (hold : (items[i]?).getD (.hash []) = .hash entry)
    (hnew : items' = items → index.isSome = true) :
    UpsertSound (.hash root) [[.key (yamlKey repositoriesKey)], repositoryPath i]
      (belowEntry (repositoryPath i) values.requested)
      (reporting .edited (upsertWith (.ok index.isSome)
        (rootMut (repositoriesMut (setRepository values index)))) (.hash root)) := by
  have hmut : repositoriesMut (setRepository values index) root = _ :=
    repositoriesMut_of_array hitems
  have hresult : rootMut (repositoriesMut (setRepository values index)) (.hash root) =
      (.ok (), .hash (root.insert (yamlKey repositoriesKey) (.array items'))) := by
    have hroot : rootMut (repositoriesMut (setRepository values index)) (.hash root) =
        ((repositoriesMut (setRepository values index) root).1,
          .hash (repositoriesMut (setRepository values index) root).2) := rfl
    rw [hroot, hmut, hset]
  have hchild : (Yaml.hash (root.insert (yamlKey repositoriesKey) (.array items'))).child
      (.key (yamlKey repositoriesKey)) = some (.array items') := Entries.get_insert_self
  apply upsertSound_of_ok
  · rw [hresult]
  · rw [hresult]
    have hentry : SameBut (Touched (.hash entry) [] ((givenFields values.fields).map fieldPath))
        (.hash entry) (.hash (writeFields entry (givenFields values.fields))) :=
      sameBut_writeFields
    have hitem : SameBut (Touched (.array items) ([.index i] :: ([] : List _).map (.index i :: ·))
        (((givenFields values.fields).map fieldPath).map (.index i :: ·))) (.array items)
          (.array items') := by
      have hold' : ((Yaml.array items).child (.index i)).getD (.hash []) = .hash entry := hold
      refine sameBut_below rfl hself (child_array_ne hne) valueAt_emptyHash ?_
      rw [hold']
      exact hentry
    have hroot : SameBut (Touched (.hash root)
        ([.key (yamlKey repositoriesKey)] :: ([[.index i]] : List _).map
          (.key (yamlKey repositoriesKey) :: ·))
        ((((givenFields values.fields).map fieldPath).map (.index i :: ·)).map
          (.key (yamlKey repositoriesKey) :: ·))) (.hash root)
            (.hash (root.insert (yamlKey repositoriesKey) (.array items'))) := by
      have hitems' : ((Yaml.hash root).child (.key (yamlKey repositoriesKey))).getD
          (.array []) = .array items := hitems
      refine sameBut_below rfl hchild (child_hash_ne fun _ hne => Entries.get_insert_ne hne)
        valueAt_emptyArray ?_
      rw [hitems']
      exact hitem
    simpa [belowEntry, RepositoryValues.requested, requestedPaths, repositoryPath,
      Function.comp_def] using hroot
  · intro field hfield
    obtain ⟨inner, hinner, rfl⟩ := List.mem_map.mp hfield
    obtain ⟨plain, hmem, rfl⟩ := List.mem_map.mp hinner
    have hitem : (Yaml.array items').child (.index i) =
        some (.hash (writeFields entry (givenFields values.fields))) := hself
    rw [hresult]
    have hpath : repositoryPath i ++ fieldPath plain =
        .key (yamlKey repositoriesKey) :: .index i :: fieldPath plain := rfl
    rw [hpath, valueAt_cons, hchild, Option.bind_some, valueAt_cons, hitem]
    exact valueAt_writeFields (nodup_fields values) hmem
  · intro hsame
    apply hnew
    rw [hresult] at hsame
    have hroot : root.insert (yamlKey repositoriesKey) (.array items') = root :=
      Yaml.hash.inj hsame
    have hget : (root.insert (yamlKey repositoriesKey) (.array items')).get
        (yamlKey repositoriesKey) = some (.array items') := Entries.get_insert_self
    rw [hroot] at hget
    rw [hget] at hitems
    exact Yaml.array.inj hitems

/-- `upsert_repository`. -/
theorem upsertRepository_sound (values : RepositoryValues) (document : Yaml) :
    UpsertSound document
      [[.key (yamlKey repositoriesKey)], repositoryPath (values.indexIn document)]
      (belowEntry (repositoryPath (values.indexIn document)) values.requested)
      (reporting .edited (LfsCloud.upsertRepository values) document) := by
  cases hcheck : checkUpsertRepository document values with
  | error error =>
    have hresult : reporting .edited (LfsCloud.upsertRepository values) document =
        reporting .edited (upsertWith (.error error) fun document => (.ok (), document))
          document := by
      simp only [reporting, LfsCloud.upsertRepository, hcheck, upsertWith]
    rw [hresult]
    exact upsertSound_of_error
  | ok index =>
    have hindex := checkUpsertRepository_ok hcheck
    have hresult : reporting .edited (LfsCloud.upsertRepository values) document =
        reporting .edited (upsertWith (.ok index.isSome)
          (rootMut (repositoriesMut (setRepository values index)))) document := by
      simp only [reporting, LfsCloud.upsertRepository, hcheck]
    rw [hresult]
    unfold repositoryIndex at hindex
    cases hentries : repositoryEntries document with
    | error error =>
      rw [hentries] at hindex
      cases hindex
    | ok repositories =>
      rw [hentries] at hindex
      have hfind : (repositories.findIdx? fun repository => repository.id == values.id) = index :=
        Except.ok.inj hindex
      have hat : values.indexIn document = index.getD repositories.length := by
        unfold RepositoryValues.indexIn
        rw [hentries, ← hfind]
      obtain ⟨root, entries, rfl, hitems, rfl⟩ := repositoryEntries_ok hentries
      rw [hat, List.length_map]
      cases index with
      | none =>
        refine upsertSound_of_item [] _ hitems rfl ?_ ?_ ?_ ?_
        · rw [setOptionalStrings_eq]
          simp
        · intro j hj
          rw [List.getElem?_append]
          split_ifs with hlt
          · rfl
          · rw [List.length_map] at hlt
            rw [List.getElem?_eq_none (by simp; simp at hj; omega),
              List.getElem?_eq_none (by simp; omega)]
        · rw [List.getElem?_eq_none (by simp)]
          rfl
        · intro hsame
          have hlength := congrArg List.length hsame
          simp at hlength
      | some i =>
        have hlt : i < entries.length := by
          have hlt := (List.findIdx?_eq_some_iff_getElem.mp hfind).1
          rwa [List.length_map] at hlt
        have hget : (entries.map Yaml.hash)[i]? = some (.hash entries[i]) := by
          rw [List.getElem?_map, List.getElem?_eq_getElem hlt]
          rfl
        refine upsertSound_of_item entries[i] ((entries.map Yaml.hash).set i
          (.hash (setOptionalStrings entries[i] values.fields))) hitems ?_ ?_ ?_ ?_ fun _ => rfl
        · simp only [setRepository, hget]
        · rw [setOptionalStrings_eq, Option.getD_some, List.getElem?_set_self (by simpa using hlt)]
        · intro j hj
          have hne : i ≠ j := fun h => hj h.symm
          rw [List.getElem?_set_ne hne]
        · rw [Option.getD_some, hget]
          rfl

end Repositories

section Removals

/-- The removal of an entry of a section changes nothing but that entry, and nothing when there is
no such entry or when it fails. -/
structure RemoveSound (document : Yaml) (removed : List Yaml.Step)
    (result : Except ConfigEditError ConfigEditReport × Yaml) : Prop where
  frame : SameBut (Touched document [] [removed]) document result.2
  gone : result.1 = .ok (.removed .removed) → result.2.valueAt removed = none
  notFound : result.1 = .ok (.removed .notFound) → result.2 = document
  failed : ∀ error, result.1 = .error error → result.2 = document

/-- The removal of a repository takes its first item out of the sequence, and changes nothing when
there is no such item or when it fails. -/
structure RemoveRepositorySound (id : String) (document : Yaml)
    (result : Except ConfigEditError ConfigEditReport × Yaml) : Prop where
  frame : SameBut (Touched document [] [[.key (yamlKey repositoriesKey)]]) document result.2
  gone : ∀ items, document.child (.key (yamlKey repositoriesKey)) = some (.array items) →
    result.2.child (.key (yamlKey repositoriesKey)) =
      some (.array (items.eraseP (hasRepositoryId id)))
  notFound : result.1 = .ok (.removed .notFound) → result.2 = document
  failed : ∀ error, result.1 = .error error → result.2 = document

variable {document : Yaml} {sectionName id : String}

theorem RemoveSound.of_same {removed : List Yaml.Step}
    {result : Except ConfigEditError ConfigEditReport × Yaml} (hsame : result.2 = document)
    (hresult : result.1 ≠ .ok (.removed .removed)) : RemoveSound document removed result where
  frame := by
    rw [hsame]
    exact SameBut.refl _
  gone h := absurd h hresult
  notFound _ := hsame
  failed _ _ := hsame

/-- `remove_map_entry`. -/
theorem removeMapEntry_sound :
    RemoveSound document (entryPath sectionName id)
      (reporting .removed (rootMut (removeMapEntry sectionName id)) document) := by
  cases document with
  | hash root =>
    have hresult : reporting .removed (rootMut (removeMapEntry sectionName id)) (.hash root) =
        ((removeMapEntry sectionName id root).1.map .removed,
          .hash (removeMapEntry sectionName id root).2) := rfl
    rw [hresult]
    cases hsection : Entries.get root (yamlKey sectionName) with
    | none =>
      have hremove : removeMapEntry sectionName id root = (.ok .notFound, root) := by
        simp only [removeMapEntry, hsection]
      rw [hremove]
      exact .of_same rfl fun h => by cases h
    | some sectionValue =>
      cases hhash : asHash sectionValue with
      | none =>
        have hremove : removeMapEntry sectionName id root =
            (.error (invalidSection sectionName "a mapping"), root) := by
          simp only [removeMapEntry, hsection, hhash]
        rw [hremove]
        exact .of_same rfl fun h => by cases h
      | some values =>
        cases hid : values.get (yamlKey id) with
        | none =>
          have hremove : removeMapEntry sectionName id root = (.ok .notFound, root) := by
            simp only [removeMapEntry, hsection, hhash, hid]
          rw [hremove]
          exact .of_same rfl fun h => by cases h
        | some entry =>
          have hremove : removeMapEntry sectionName id root = (.ok .removed,
              Entries.replace root (yamlKey sectionName) (.hash (values.remove (yamlKey id)))) := by
            simp only [removeMapEntry, hsection, hhash, hid]
          rw [hremove]
          have hvalue : sectionValue = .hash values := by
            cases sectionValue with
            | hash other =>
              cases hhash
              rfl
            | _ => cases hhash
          have hself : (Yaml.hash (Entries.replace root (yamlKey sectionName)
              (.hash (values.remove (yamlKey id))))).child (.key (yamlKey sectionName)) =
                some (.hash (values.remove (yamlKey id))) :=
            Entries.get_replace_self (by rw [hsection]; rfl)
          have hbelow : SameBut (Touched (.hash root) ([.key (yamlKey sectionName)] ::
              ([] : List _).map (.key (yamlKey sectionName) :: ·))
              ([[.key (yamlKey id)]].map (.key (yamlKey sectionName) :: ·))) (.hash root)
                (.hash (Entries.replace root (yamlKey sectionName)
                  (.hash (values.remove (yamlKey id))))) := by
            have hold : ((Yaml.hash root).child (.key (yamlKey sectionName))).getD (.hash []) =
                .hash values := by
              have hchild : (Yaml.hash root).child (.key (yamlKey sectionName)) =
                  some sectionValue := hsection
              rw [hchild, hvalue]
              rfl
            refine sameBut_below rfl hself
              (child_hash_ne fun _ hne => Entries.get_replace_ne hne) valueAt_emptyHash ?_
            rw [hold]
            exact sameBut_remove
          refine ⟨hbelow.mono ?_, fun _ => ?_, fun h => (by cases h), fun _ h => (by cases h)⟩
          · rintro path (⟨hmem, hnone⟩ | hfield)
            · rw [List.mem_singleton.mp hmem, valueAt_key, hsection] at hnone
              cases hnone
            · exact .inr hfield
          · have hgone : (Yaml.hash (values.remove (yamlKey id))).child (.key (yamlKey id)) =
                none := Entries.get_remove_self
            have hpath : entryPath sectionName id =
                [.key (yamlKey sectionName), .key (yamlKey id)] := rfl
            rw [hpath, valueAt_cons, hself, Option.bind_some, valueAt_cons, hgone]
            rfl
  | _ => exact .of_same rfl fun h => by cases h

/-- The first item that has an identifier is taken out. -/
theorem removeRepositoryItem_eq (id : String) (items : List Yaml) :
    (removeRepositoryItem id items).2 = items.eraseP (hasRepositoryId id) ∧
      ((removeRepositoryItem id items).1 = .ok .notFound →
        ¬∃ item ∈ items, hasRepositoryId id item = true) ∧
      ∀ error, (removeRepositoryItem id items).1 ≠ .error error := by
  cases hfind : items.findIdx? (hasRepositoryId id) with
  | none =>
    have hresult : removeRepositoryItem id items = (.ok .notFound, items) := by
      simp only [removeRepositoryItem, hfind]
    rw [hresult]
    have hall := List.findIdx?_eq_none_iff.mp hfind
    refine ⟨(List.eraseP_of_forall_not fun item hitem h => ?_).symm, fun _ => ?_, fun _ h => ?_⟩
    · rw [hall item hitem] at h
      cases h
    · rintro ⟨item, hitem, h⟩
      rw [hall item hitem] at h
      cases h
    · cases h
  | some index =>
    have hresult : removeRepositoryItem id items = (.ok .removed, items.eraseIdx index) := by
      simp only [removeRepositoryItem, hfind]
    rw [hresult]
    refine ⟨?_, fun h => (by cases h), fun _ h => (by cases h)⟩
    rw [List.eraseP_eq_eraseIdx, hfind]

/-- A repository is looked for where it is, or in a document whose last key is that of the
repositories. -/
def RepositoryRemovable (document : Yaml) (id : String) : Prop :=
  ∀ root, document = .hash root →
    (∃ items, Entries.get root (yamlKey repositoriesKey) = some (.array items) ∧
      ∃ item ∈ items, hasRepositoryId id item = true) ∨
    Entries.EndsWith root (yamlKey repositoriesKey)

/-- `remove_repository`. -/
theorem removeRepository_sound (h : RepositoryRemovable document id) :
    RemoveRepositorySound id document
      (reporting .removed (LfsCloud.removeRepository id) document) := by
  cases document with
  | hash root =>
    have hresult : reporting .removed (LfsCloud.removeRepository id) (.hash root) =
        ((repositoriesMut (removeRepositoryItem id) root).1.map .removed,
          .hash (repositoriesMut (removeRepositoryItem id) root).2) := rfl
    have hinserted : ∀ value : Yaml,
        SameBut (Touched (.hash root) [] [[.key (yamlKey repositoriesKey)]])
        (.hash root) (.hash (Entries.insert root (yamlKey repositoriesKey) value)) :=
      fun value => sameBut_insert
    rw [hresult]
    cases hget : Entries.get root (yamlKey repositoriesKey) with
    | none =>
      rcases h root rfl with ⟨items, hitems, _⟩ | ⟨rest, last, rfl, _⟩
      · rw [hget] at hitems
        cases hitems
      · rw [Entries.get_append_singleton, if_pos rfl] at hget
        cases hrest : Entries.get rest (yamlKey repositoriesKey) with
        | none =>
          rw [hrest] at hget
          cases hget
        | some value =>
          rw [hrest] at hget
          cases hget
    | some value =>
      have hdefault : (Entries.get root (yamlKey repositoriesKey)).getD (.array []) = value := by
        rw [hget]
        rfl
      have hkept : ¬(∃ items, Entries.get root (yamlKey repositoriesKey) = some (.array items) ∧
          ∃ item ∈ items, hasRepositoryId id item = true) →
          Entries.insert root (yamlKey repositoriesKey) value = root := fun hnot =>
        Entries.insert_of_endsWith ((h root rfl).resolve_left hnot) hget
      by_cases harray : ∃ items, value = .array items
      · obtain ⟨items, rfl⟩ := harray
        obtain ⟨herase, hnotFound, hok⟩ := removeRepositoryItem_eq id items
        rw [repositoriesMut_of_array hdefault]
        refine ⟨hinserted _, ?_, ?_, ?_⟩
        · intro items' hchild
          have hsame : items' = items := by
            have hvalue : some (Yaml.array items) = some (.array items') := hget.symm.trans hchild
            cases hvalue
            rfl
          have hafter : (Entries.insert root (yamlKey repositoriesKey)
              (.array (removeRepositoryItem id items).2)).get (yamlKey repositoriesKey) =
                some (.array (removeRepositoryItem id items).2) := Entries.get_insert_self
          rw [hsame, ← herase]
          exact hafter
        · intro hreport
          have hnone : (removeRepositoryItem id items).1 = .ok .notFound := by
            cases hitem : (removeRepositoryItem id items).1 with
            | error error => exact absurd hitem (hok error)
            | ok outcome =>
              rw [hitem] at hreport
              exact congrArg _ (ConfigEditReport.removed.inj (Except.ok.inj hreport))
          have hnot := hnotFound hnone
          have hsame : (removeRepositoryItem id items).2 = items := by
            rw [herase]
            exact List.eraseP_of_forall_not fun item hitem hid => hnot ⟨item, hitem, hid⟩
          dsimp only
          rw [hsame, hkept]
          rintro ⟨items', hitems', hfound⟩
          rw [hget] at hitems'
          cases hitems'
          exact hnot hfound
        · intro error hreport
          cases hitem : (removeRepositoryItem id items).1 with
          | error error => exact absurd hitem (hok error)
          | ok outcome =>
            rw [hitem] at hreport
            cases hreport
      · have hmut : repositoriesMut (removeRepositoryItem id) root =
            (.error (invalidSection repositoriesKey "a sequence of mappings"),
              Entries.insert root (yamlKey repositoriesKey) value) := by
          cases value with
          | array items => exact absurd ⟨items, rfl⟩ harray
          | _ => simp only [repositoriesMut, hdefault]
        have hsame : Entries.insert root (yamlKey repositoriesKey) value = root := by
          apply hkept
          rintro ⟨items, hitems, _⟩
          rw [hget] at hitems
          exact harray ⟨items, Option.some.inj hitems⟩
        rw [hmut]
        refine ⟨hinserted _, ?_, fun h => (by cases h), fun _ _ => ?_⟩
        · intro items hchild
          have hvalue : some value = some (.array items) := hget.symm.trans hchild
          exact absurd ⟨items, Option.some.inj hvalue⟩ harray
        · exact congrArg Yaml.hash hsame
  | _ =>
    refine ⟨SameBut.refl _, fun _ h => ?_, fun _ => rfl, fun _ _ => rfl⟩
    cases h

end Removals

section Sequences

/-- What every edit of a document is to keep. -/
def ConfigEdit.Sound (document : Yaml) (edit : ConfigEdit) : Prop :=
  match edit with
  | .upsertRepositoryProvider values => UpsertSound document
    [[.key (yamlKey repositoryProvidersKey)], entryPath repositoryProvidersKey values.id]
    (belowEntry (entryPath repositoryProvidersKey values.id) (requestedPaths values.requested))
    (edit.apply document)
  | .removeRepositoryProvider id =>
    RemoveSound document (entryPath repositoryProvidersKey id) (edit.apply document)
  | .upsertStorageProvider values => UpsertSound document
    ([.key (yamlKey storageProvidersKey)] :: entryPath storageProvidersKey values.id ::
      values.containers.map (entryPath storageProvidersKey values.id ++ ·))
    (belowEntry (entryPath storageProvidersKey values.id) values.requested) (edit.apply document)
  | .removeStorageProvider id =>
    RemoveSound document (entryPath storageProvidersKey id) (edit.apply document)
  | .upsertRepository values => UpsertSound document
    [[.key (yamlKey repositoriesKey)], repositoryPath (values.indexIn document)]
    (belowEntry (repositoryPath (values.indexIn document)) values.requested) (edit.apply document)
  | .removeRepository id => RemoveRepositorySound id document (edit.apply document)

/-- No credentials that are to be edited are something else than a mapping, and a repository that
is removed is there, or the key of the repositories is the last one. -/
def ConfigEdit.Atomic (document : Yaml) : ConfigEdit → Prop
  | .upsertStorageProvider values => ∀ entry, Text.isBlank values.id = false →
    mapEntry document storageProvidersKey values.id = .ok (some entry) →
      values.CredentialsEditable entry
  | .removeRepository id => RepositoryRemovable document id
  | _ => True

/-- An edit that meets the condition is framed and atomic. -/
theorem ConfigEdit.Atomic.sound {document : Yaml} {edit : ConfigEdit} (h : edit.Atomic document) :
    edit.Sound document := by
  cases edit with
  | upsertRepositoryProvider values =>
    exact upsertSound_of_entry fun existing _ _ => setRepositoryProvider_sound values _
  | removeRepositoryProvider id => exact removeMapEntry_sound
  | upsertStorageProvider values =>
    refine upsertSound_of_entry fun existing hblank hmap => setStorageProvider_sound ?_
    cases existing with
    | some entry => exact h entry hblank hmap
    | none =>
      intro _ value hvalue
      cases hvalue
  | removeStorageProvider id => exact removeMapEntry_sound
  | upsertRepository values => exact upsertRepository_sound values document
  | removeRepository id => exact removeRepository_sound h

/-- Something holds of every edit of a sequence, in the document that it is made in. -/
def AlongEdits (P : Yaml → ConfigEdit → Prop) : Yaml → List ConfigEdit → Prop
  | _, [] => True
  | document, edit :: edits =>
    P document edit ∧ AlongEdits P (edit.apply document).2 edits

theorem AlongEdits.mono {P Q : Yaml → ConfigEdit → Prop} (hPQ : ∀ document edit, P document edit →
    Q document edit) {document : Yaml} {edits : List ConfigEdit}
    (h : AlongEdits P document edits) : AlongEdits Q document edits := by
  induction edits generalizing document with
  | nil => trivial
  | cons edit edits ih => exact ⟨hPQ _ _ h.1, ih h.2⟩

mutual

/-- A tree has a scalar that the loader could not read under its tag. -/
def hasBadValue : Yaml → Bool
  | .badValue => true
  | .array items => hasBadItem items
  | .hash entries => hasBadEntry entries
  | _ => false

/-- A sequence has such a scalar. -/
def hasBadItem : List Yaml → Bool
  | [] => false
  | item :: items => hasBadValue item || hasBadItem items

/-- A mapping has such a scalar. -/
def hasBadEntry : List (Yaml × Yaml) → Bool
  | [] => false
  | (key, value) :: entries => hasBadValue key || hasBadValue value || hasBadEntry entries

end

/-- What a saved document reads back as. -/
theorem loadServerConfig_save {library : YamlLibrary} {validate : String → Except String Unit}
    {failure : Option ConfigEditError} {path contents : String} {root : Entries}
    (hdump : ∀ document text, hasBadValue document = false → library.dump document = .ok text →
      library.load text = .ok [document])
    (hline : ∀ document text, library.dump document = .ok text →
      library.load (text ++ "\n") = library.load text) :
    ((saveServerConfig library validate failure (.hash root) contents).1 = .ok () →
      hasBadValue (.hash root) = false → loadServerConfig library path
        (saveServerConfig library validate failure (.hash root) contents).2 = .ok (.hash root)) ∧
    ∀ error, (saveServerConfig library validate failure (.hash root) contents).1 = .error error →
      (saveServerConfig library validate failure (.hash root) contents).2 = contents := by
  cases hrender : library.dump (.hash root) with
  | error error =>
    simp only [saveServerConfig, renderServerConfig, hrender]
    exact ⟨fun h => (by cases h), fun _ _ => trivial⟩
  | ok rendered =>
    simp only [saveServerConfig, renderServerConfig, hrender]
    cases hvalid : validate (rendered ++ "\n") with
    | error error => exact ⟨fun h => (by cases h), fun _ _ => rfl⟩
    | ok u =>
      cases failure with
      | some error => exact ⟨fun h => (by cases h), fun _ _ => rfl⟩
      | none =>
        refine ⟨fun _ hgood => ?_, fun _ h => by cases h⟩
        have hload := (hline _ _ hrender).trans (hdump _ _ hgood hrender)
        simp only [loadServerConfig, hload]

/-- A library that knows one document. -/
def sampleYamlDocument : Yaml := .hash [(.string "repositories", .array [])]
def sampleYamlLibrary : YamlLibrary where
  dump document := if document = sampleYamlDocument then .ok "---\nrepositories: []"
    else .error "unsupported"
  load text := if text = "---\nrepositories: []" ∨ text = "---\nrepositories: []\n" then
    .ok [sampleYamlDocument] else .error "unsupported"

/-- A storage provider whose credentials are a text, and an edit of its type and credentials. -/
def sampleStorageDocument : Yaml :=
  .hash [(.string "storage_providers", .hash [(.string "drive", .hash
    [(.string "type", .string "google_drive"), (.string "credentials", .string "gcloud")])])]
def sampleStorageValues : StorageProviderValues :=
  ⟨"drive", some "other", none, some "dir", none, none, none⟩

end Sequences

end LfsCloud
