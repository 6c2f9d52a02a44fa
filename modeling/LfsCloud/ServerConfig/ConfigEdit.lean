import LfsCloud.Lib.Text
import LfsCloud.Lib.Yaml

/-!
# Edits of the server configuration

An edit walks from the root of the document to one entry, creates the mappings that are missing on
the way, and sets fields of the entry. What was written stays written when a later part of the edit
fails.
-/

namespace LfsCloud

open Yaml

/-- `CliError::InvalidArguments`. -/
structure ConfigEditError where
  message : String
  deriving DecidableEq

/-- `REPOSITORY_PROVIDERS_KEY`. -/
def repositoryProvidersKey : String := "repository_providers"
/-- `STORAGE_PROVIDERS_KEY`. -/
def storageProvidersKey : String := "storage_providers"
/-- `REPOSITORIES_KEY`. -/
def repositoriesKey : String := "repositories"

/-- `EditOutcome`. -/
inductive EditOutcome
  | added
  | updated
  | unchanged
  deriving DecidableEq

/-- `RemoveOutcome`. -/
inductive RemoveOutcome
  | removed
  | notFound
  deriving DecidableEq

/-- `RepositoryProviderValues`. -/
structure RepositoryProviderValues where
  id : String
  providerType : Option String
  apiUrl : Option String
  clearApiUrl : Bool
  personalAccessToken : Option String

/-- `StorageProviderValues`. -/
structure StorageProviderValues where
  id : String
  providerType : Option String
  credentialsType : Option String
  configDir : Option String
  executable : Option String
  rootFolderId : Option String
  displayName : Option String

/-- `RepositoryValues`. -/
structure RepositoryValues where
  id : String
  repoProvider : Option String
  host : Option String
  owner : Option String
  name : Option String
  providerRepositoryId : Option String
  storageProvider : Option String

/-- `key`. -/
def yamlKey (name : String) : Yaml := .string name

/-- `as_hash`. -/
def asHash : Yaml → Option Entries
  | .hash entries => some entries
  | _ => none

/-- `as_str`. -/
def asStr : Yaml → Option String
  | .string s => some s
  | _ => none

/-- `string_value`. -/
def stringValue (mapping : Entries) (name : String) : Option String :=
  (mapping.get (yamlKey name)).bind asStr

/-- `set_string`. -/
def setString (mapping : Entries) (name value : String) : Entries :=
  mapping.insert (yamlKey name) (.string value)

/-- `set_optional_string`. -/
def setOptionalString (mapping : Entries) (name : String) : Option String → Entries
  | some value => setString mapping name value
  | none => mapping

/-- One `set_optional_string` after the other. -/
def setOptionalStrings (mapping : Entries) (fields : List (String × Option String)) : Entries :=
  fields.foldl (fun mapping field => setOptionalString mapping field.1 field.2) mapping

/-- `invalid_section`. -/
def invalidSection (name expected : String) : ConfigEditError :=
  ⟨"server config " ++ name ++ " must be " ++ expected⟩

/-- `require_some`. -/
def requireSome (value : Option String) (flag : String) : Except ConfigEditError Unit :=
  match value with
  | some _ => .ok ()
  | none => .error ⟨flag ++ " is required when adding a new entry with flags"⟩

/-- `require_nonempty`. -/
def requireNonempty (value flag : String) : Except ConfigEditError Unit :=
  if Text.isBlank value then .error ⟨flag ++ " must not be empty"⟩ else .ok ()

/-- `edit_outcome`. -/
def editOutcome (existed changed : Bool) : EditOutcome :=
  if existed then if changed then .updated else .unchanged else .added

/-- `root`. -/
def configRoot (document : Yaml) : Except ConfigEditError Entries :=
  match asHash document with
  | some entries => .ok entries
  | none => .error (invalidSection "<root>" "a mapping")

/-- `map_entry`. -/
def mapEntry (document : Yaml) (sectionName id : String) :
    Except ConfigEditError (Option Entries) := do
  let root ← configRoot document
  match root.get (yamlKey sectionName) with
  | none => .ok none
  | some sectionValue => match asHash sectionValue with
    | none => .error (invalidSection sectionName "a mapping")
    | some values => match values.get (yamlKey id) with
      | none => .ok none
      | some entry => match asHash entry with
        | none => .error (invalidSection id "a mapping")
        | some entry => .ok (some entry)

/-- A computation with a mutable reference: its result, and what it leaves behind it. -/
abbrev MutEdit (σ α : Type) := σ → Except ConfigEditError α × σ

/-- `yaml_hash_mut`, and what is done with the mapping. -/
def yamlHashMut {α : Type} (name : String) (edit : MutEdit Entries α) : MutEdit Yaml α
  | .hash value => ((edit value).1, .hash (edit value).2)
  | other => (.error (invalidSection name "a mapping"), other)

/-- `nested_hash_mut`, and what is done with the mapping. The key is created if it is missing, and
moved to the back. -/
def nestedHashMut {α : Type} (name : String) (edit : MutEdit Entries α) : MutEdit Entries α
  | parent =>
    let result := yamlHashMut name edit ((parent.get (yamlKey name)).getD (.hash []))
    (result.1, parent.insert (yamlKey name) result.2)

/-- `root_mut`, and what is done with the mapping. -/
def rootMut {α : Type} (edit : MutEdit Entries α) : MutEdit Yaml α := yamlHashMut "<root>" edit

/-- `map_entry_mut`, and what is done with the mapping. -/
def mapEntryMut {α : Type} (sectionName id : String) (edit : MutEdit Entries α) : MutEdit Yaml α :=
  rootMut (nestedHashMut sectionName (nestedHashMut id edit))

/-- What is checked before an entry of a section is written: whether it existed. -/
def checkUpsert (document : Yaml) (sectionName id : String)
    (required : List (Option String × String)) : Except ConfigEditError Bool := do
  requireNonempty id "--id"
  let existing ← mapEntry document sectionName id
  if existing.isNone then required.forM fun value => requireSome value.1 value.2
  return existing.isSome

/-- An upsert, after its checks. -/
def upsertWith (existed : Except ConfigEditError Bool) (edit : MutEdit Yaml Unit) :
    MutEdit Yaml EditOutcome
  | document => match existed with
    | .error error => (.error error, document)
    | .ok existed =>
      let result := edit document
      (result.1.map fun _ => editOutcome existed (document ≠ result.2), result.2)

/-- The fields of a repository provider. -/
def setRepositoryProvider (values : RepositoryProviderValues) : MutEdit Entries Unit
  | entry =>
    let entry := setOptionalString entry "type" values.providerType
    let entry := if values.clearApiUrl then entry.remove (yamlKey "api_url")
      else setOptionalString entry "api_url" values.apiUrl
    (.ok (), setOptionalString entry "personal_access_token" values.personalAccessToken)

/-- `upsert_repository_provider`. -/
def upsertRepositoryProvider (values : RepositoryProviderValues) : MutEdit Yaml EditOutcome
  | document => upsertWith
    (checkUpsert document repositoryProvidersKey values.id [(values.providerType, "--type")])
    (mapEntryMut repositoryProvidersKey values.id (setRepositoryProvider values)) document

/-- The fields of the credentials. -/
def StorageProviderValues.credentialsFields (values : StorageProviderValues) :
    List (String × Option String) :=
  [("type", values.credentialsType), ("config_dir", values.configDir),
    ("executable", values.executable)]

/-- The edit has fields of the credentials. -/
def StorageProviderValues.editsCredentials (values : StorageProviderValues) : Bool :=
  values.credentialsType.isSome || values.configDir.isSome || values.executable.isSome

/-- The credentials of a storage provider. -/
def setStorageCredentials (values : StorageProviderValues) : MutEdit Entries Unit
  | entry =>
    if values.editsCredentials then
      nestedHashMut "credentials"
        (fun credentials => (.ok (), setOptionalStrings credentials values.credentialsFields)) entry
    else (.ok (), entry)

/-- The fields of a storage provider. -/
def setStorageProvider (values : StorageProviderValues) : MutEdit Entries Unit
  | entry =>
    let result := setStorageCredentials values
      (setOptionalString entry "type" values.providerType)
    match result.1 with
    | .error error => (.error error, result.2)
    | .ok () => (.ok (), setOptionalStrings result.2
      [("root_folder_id", values.rootFolderId), ("display_name", values.displayName)])

/-- `upsert_storage_provider`. -/
def upsertStorageProvider (values : StorageProviderValues) : MutEdit Yaml EditOutcome
  | document => upsertWith
    (checkUpsert document storageProvidersKey values.id
      [(values.providerType, "--type"), (values.credentialsType, "--credentials-type"),
        (values.configDir, "--config-dir"), (values.rootFolderId, "--root-folder-id")])
    (mapEntryMut storageProvidersKey values.id (setStorageProvider values)) document

/-- A repository, as `repository_entries` lists it. -/
def repositoryValues (entry : Entries) : RepositoryValues where
  id := (stringValue entry "id").getD ""
  repoProvider := stringValue entry "repo_provider"
  host := stringValue entry "host"
  owner := stringValue entry "owner"
  name := stringValue entry "name"
  providerRepositoryId := stringValue entry "provider_repository_id"
  storageProvider := stringValue entry "storage_provider"

/-- An item of the sequence of repositories. -/
def repositoryItem (item : Yaml) : Except ConfigEditError RepositoryValues :=
  match asHash item with
  | some entry => .ok (repositoryValues entry)
  | none => .error (invalidSection repositoriesKey "a sequence of mappings")

/-- `repository_entries`. -/
def repositoryEntries (document : Yaml) : Except ConfigEditError (List RepositoryValues) := do
  let root ← configRoot document
  match root.get (yamlKey repositoriesKey) with
  | none => .ok []
  | some (.array items) => items.mapM repositoryItem
  | some _ => .error (invalidSection repositoriesKey "a sequence of mappings")

/-- `repositories_mut`, and what is done with the sequence. -/
def repositoriesMut {α : Type} (edit : MutEdit (List Yaml) α) : MutEdit Entries α
  | root => match (root.get (yamlKey repositoriesKey)).getD (.array []) with
    | .array items =>
      ((edit items).1, root.insert (yamlKey repositoriesKey) (.array (edit items).2))
    | other => (.error (invalidSection repositoriesKey "a sequence of mappings"),
      root.insert (yamlKey repositoriesKey) other)

/-- The fields of a repository. -/
def RepositoryValues.fields (values : RepositoryValues) : List (String × Option String) :=
  [("id", some values.id), ("repo_provider", values.repoProvider), ("host", values.host),
    ("owner", values.owner), ("name", values.name),
    ("provider_repository_id", values.providerRepositoryId),
    ("storage_provider", values.storageProvider)]

/-- The fields of the repository at an index, or of a new one at the end. -/
def setRepository (values : RepositoryValues) (index : Option ℕ) : MutEdit (List Yaml) Unit
  | items => match index with
    | none => (.ok (), items ++ [.hash (setOptionalStrings [] values.fields)])
    | some index => match items[index]? with
      | some (.hash entry) =>
        (.ok (), items.set index (.hash (setOptionalStrings entry values.fields)))
      | _ => (.error (invalidSection repositoriesKey "a sequence of mappings"), items)

/-- The index of a repository. -/
def repositoryIndex (document : Yaml) (id : String) : Except ConfigEditError (Option ℕ) :=
  (repositoryEntries document).map fun repositories =>
    repositories.findIdx? fun repository => repository.id == id

/-- What is checked before a repository is written: its index. -/
def checkUpsertRepository (document : Yaml) (values : RepositoryValues) :
    Except ConfigEditError (Option ℕ) := do
  requireNonempty values.id "--id"
  let index ← repositoryIndex document values.id
  if index.isNone then
    [(values.repoProvider, "--repo-provider"), (values.host, "--host"), (values.owner, "--owner"),
      (values.name, "--name"), (values.providerRepositoryId, "--provider-repository-id"),
      (values.storageProvider, "--storage-provider")].forM
        fun value => requireSome value.1 value.2
  return index

/-- `upsert_repository`. -/
def upsertRepository (values : RepositoryValues) : MutEdit Yaml EditOutcome
  | document => match checkUpsertRepository document values with
    | .error error => (.error error, document)
    | .ok index => upsertWith (.ok index.isSome)
      (rootMut (repositoriesMut (setRepository values index))) document

/-- `remove_map_entry`. The section stays where it is. -/
def removeMapEntry (sectionName id : String) : MutEdit Entries RemoveOutcome
  | root => match root.get (yamlKey sectionName) with
    | none => (.ok .notFound, root)
    | some sectionValue => match asHash sectionValue with
      | none => (.error (invalidSection sectionName "a mapping"), root)
      | some values => match values.get (yamlKey id) with
        | some _ => (.ok .removed,
          root.replace (yamlKey sectionName) (.hash (values.remove (yamlKey id))))
        | none => (.ok .notFound, root)

/-- `remove_repository_provider`. -/
def removeRepositoryProvider (id : String) : MutEdit Yaml RemoveOutcome :=
  rootMut (removeMapEntry repositoryProvidersKey id)

/-- `remove_storage_provider`. -/
def removeStorageProvider (id : String) : MutEdit Yaml RemoveOutcome :=
  rootMut (removeMapEntry storageProvidersKey id)

/-- An item of the sequence of repositories has an identifier. -/
def hasRepositoryId (id : String) (item : Yaml) : Bool :=
  ((asHash item).bind fun entry => stringValue entry "id") == some id

/-- What `remove_repository` does with the sequence. -/
def removeRepositoryItem (id : String) : MutEdit (List Yaml) RemoveOutcome
  | items => match items.findIdx? (hasRepositoryId id) with
    | none => (.ok .notFound, items)
    | some index => (.ok .removed, items.eraseIdx index)

/-- `remove_repository`. -/
def removeRepository (id : String) : MutEdit Yaml RemoveOutcome :=
  rootMut (repositoriesMut (removeRepositoryItem id))

/-- An edit of the configuration. -/
inductive ConfigEdit
  | upsertRepositoryProvider (values : RepositoryProviderValues)
  | removeRepositoryProvider (id : String)
  | upsertStorageProvider (values : StorageProviderValues)
  | removeStorageProvider (id : String)
  | upsertRepository (values : RepositoryValues)
  | removeRepository (id : String)

/-- What an edit reports. -/
inductive ConfigEditReport
  | edited (outcome : EditOutcome)
  | removed (outcome : RemoveOutcome)
  deriving DecidableEq

/-- The report of an edit. -/
def reporting {α : Type} (report : α → ConfigEditReport) (edit : MutEdit Yaml α) :
    MutEdit Yaml ConfigEditReport
  | document => ((edit document).1.map report, (edit document).2)

/-- An edit of a document. -/
def ConfigEdit.apply : ConfigEdit → MutEdit Yaml ConfigEditReport
  | .upsertRepositoryProvider values => reporting .edited (LfsCloud.upsertRepositoryProvider values)
  | .removeRepositoryProvider id => reporting .removed (LfsCloud.removeRepositoryProvider id)
  | .upsertStorageProvider values => reporting .edited (LfsCloud.upsertStorageProvider values)
  | .removeStorageProvider id => reporting .removed (LfsCloud.removeStorageProvider id)
  | .upsertRepository values => reporting .edited (LfsCloud.upsertRepository values)
  | .removeRepository id => reporting .removed (LfsCloud.removeRepository id)

/-- The parts of a library for document texts. -/
structure YamlLibrary where
  /-- `YamlEmitter::dump`. -/
  dump : Yaml → Except String String
  /-- `YamlLoader::load_from_str`. -/
  load : String → Except String (List Yaml)

/-- `EditableServerConfig::load`, of the contents of a file. -/
def loadServerConfig (library : YamlLibrary) (path contents : String) :
    Except ConfigEditError Yaml :=
  match library.load contents with
  | .error error => .error ⟨"failed to parse server config " ++ path ++ ": " ++ error⟩
  | .ok [] => .ok (.hash [])
  | .ok [.hash entries] => .ok (.hash entries)
  | .ok [_] => .error ⟨"server config " ++ path ++ " must contain a YAML mapping at its root"⟩
  | .ok _ => .error ⟨"server config " ++ path ++ " must contain exactly one YAML document"⟩

/-- `render`. -/
def renderServerConfig (library : YamlLibrary) (document : Yaml) :
    Except ConfigEditError String :=
  match library.dump document with
  | .error error => .error ⟨"failed to render server config: " ++ error⟩
  | .ok rendered => .ok (rendered ++ "\n")

/-- `save`: the result, and the contents of the file. A failure of the file system, up to the
rename, leaves the file as it was. -/
def saveServerConfig (library : YamlLibrary) (validate : String → Except String Unit)
    (failure : Option ConfigEditError) (document : Yaml) : MutEdit String Unit
  | contents => match renderServerConfig library document with
    | .error error => (.error error, contents)
    | .ok rendered => match validate rendered with
      | .error error => (.error ⟨"updated server configuration is invalid: " ++ error⟩, contents)
      | .ok () => match failure with
        | some error => (.error error, contents)
        | none => (.ok (), rendered)

end LfsCloud
