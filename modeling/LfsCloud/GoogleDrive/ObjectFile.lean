import LfsCloud.Lib.Table
import LfsCloud.Lib.U64
import LfsCloud.Providers

/-!
# Objects as Drive files

The name and the private properties under which an object is kept on Google Drive, and
the check that a file resource describes exactly that object.
-/

namespace LfsCloud

/-- The part of the storage configuration that the upload reads. -/
structure GoogleDriveStorageConfig where
  id : String
  deriving DecidableEq

/-- The address of an object: its repository namespace and identity. -/
structure GoogleDriveObjectKey where
  repoNamespace : String
  object : LfsObject
  deriving DecidableEq

/-- A file resource in a response. -/
structure GoogleDriveObjectFile where
  id : Option String
  name : Option String
  size : Option String
  trashed : Bool
  appProperties : Table String String

/-- `validate_repo_namespace`. -/
def validateRepoNamespace (value : String) : Except StorageError String :=
  let trimmed := Text.trim value.toList
  if trimmed = [] then
    .error (.upstream "google_drive" none "repository namespace must not be blank")
  else if trimmed.any Text.isControl = true then
    .error (.upstream "google_drive" none
      "repository namespace must not contain control characters")
  else .ok (String.ofList trimmed)

namespace GoogleDriveObjectKey

/-- `GoogleDriveObjectKey::new`. -/
def new (repoNamespace : String) (object : LfsObject) :
    Except StorageError GoogleDriveObjectKey :=
  (validateRepoNamespace repoNamespace).map fun repoNamespace => ⟨repoNamespace, object⟩

/-- The file name of an object. -/
def fileName (key : GoogleDriveObjectKey) : String :=
  "sha256-" ++ key.object.oid.hex ++ "-" ++ toString key.object.size ++ ".lfs"

end GoogleDriveObjectKey

/-- `MAX_GOOGLE_DRIVE_CUSTOM_PROPERTY_BYTES`. -/
def maxGoogleDriveCustomPropertyBytes : ℕ := 124

/-- `GOOGLE_DRIVE_REPO_NAMESPACE_PROPERTY`. -/
def googleDriveRepoNamespaceProperty : String := "lfsCloudRepoNamespace"

/-- A namespace as a property: itself where it fits, else a tagged digest. -/
inductive GoogleDriveRepositoryNamespaceProperty
  | raw (value : String)
  | sha256 (value : String)

namespace GoogleDriveRepositoryNamespaceProperty

/-- `GoogleDriveRepositoryNamespaceProperty::new`, over the digest in hexadecimal. -/
def new (sha256Hex : String → String) (repoNamespace : String) :
    GoogleDriveRepositoryNamespaceProperty :=
  if googleDriveRepoNamespaceProperty.utf8ByteSize + repoNamespace.utf8ByteSize ≤
      maxGoogleDriveCustomPropertyBytes then .raw repoNamespace
  else .sha256 (sha256Hex repoNamespace)

def value : GoogleDriveRepositoryNamespaceProperty → String
  | .raw value => value
  | .sha256 value => value

def format : GoogleDriveRepositoryNamespaceProperty → Option String
  | .raw _ => none
  | .sha256 _ => some "sha256"

end GoogleDriveRepositoryNamespaceProperty

/-- The private properties of an object file. -/
structure GoogleDriveObjectProperties where
  repoNamespace : GoogleDriveRepositoryNamespaceProperty
  oid : String
  size : String

/-- `expected_app_properties`. -/
def GoogleDriveObjectKey.expectedAppProperties (sha256Hex : String → String)
    (key : GoogleDriveObjectKey) : GoogleDriveObjectProperties where
  repoNamespace := .new sha256Hex key.repoNamespace
  oid := key.object.oid.hex
  size := toString key.object.size

/-- The properties by name. -/
def GoogleDriveObjectProperties.pairs (properties : GoogleDriveObjectProperties) :
    List (String × String) :=
  [("lfsCloudVersion", "1"),
    (googleDriveRepoNamespaceProperty, properties.repoNamespace.value),
    ("lfsCloudOid", properties.oid),
    ("lfsCloudSize", properties.size)] ++
  (properties.repoNamespace.format.map fun format =>
    ("lfsCloudRepoNamespaceFormat", format)).toList

/-- `verify_drive_object_file`. -/
def verifyDriveObjectFile (storage : GoogleDriveStorageConfig) (key : GoogleDriveObjectKey)
    (expectedProperties : GoogleDriveObjectProperties) (status : ℕ)
    (file : GoogleDriveObjectFile) : Except StorageError StoredObject :=
  match file.id.filter fun id => !Text.isBlank id with
  | none => .error (.upstream storage.id (some status)
      "Google Drive object lookup response did not include id")
  | some id =>
    if file.name ≠ some key.fileName then .error (.conflict storage.id key.object.oid.hex)
    else if file.trashed then .error (.conflict storage.id key.object.oid.hex)
    else if expectedProperties.pairs.any (fun (property, expected) =>
        file.appProperties.lookup property ≠ some expected) = true then
      .error (.conflict storage.id key.object.oid.hex)
    else match file.size with
      | none => .error (.upstream storage.id (some status)
          "Google Drive object lookup response did not include size")
      | some size => match parseU64 size.toList with
        | none => .error (.upstream storage.id (some status)
            "Google Drive object lookup response size was invalid")
        | some actualSize =>
          if actualSize ≠ key.object.size.toNat then
            .error (.integrityMismatch key.object.oid.hex key.object.size key.object.oid.hex
              actualSize)
          else .ok ⟨storage.id, key.repoNamespace, key.object, id⟩

/-- What a file resource says about an object that it describes. -/
structure DescribesObject (sha256Hex : String → String) (storage : GoogleDriveStorageConfig)
    (key : GoogleDriveObjectKey) (file : GoogleDriveObjectFile) (stored : StoredObject) :
    Prop where
  id : file.id = some stored.backendId
  name : file.name = some key.fileName
  live : file.trashed = false
  properties : ∀ property expected,
    (property, expected) ∈ (key.expectedAppProperties sha256Hex).pairs →
      file.appProperties.lookup property = some expected
  size : ∃ text, file.size = some text ∧ parseU64 text.toList = some key.object.size.toNat
  provider : stored.providerId = storage.id
  repository : stored.repositoryNamespace = key.repoNamespace
  object : stored.object = key.object

/-- A file resource that passes the check describes the object. -/
theorem describesObject_of_verified {sha256Hex : String → String}
    {storage : GoogleDriveStorageConfig} {key : GoogleDriveObjectKey} {status : ℕ}
    {file : GoogleDriveObjectFile} {stored : StoredObject}
    (h : verifyDriveObjectFile storage key (key.expectedAppProperties sha256Hex) status file =
      .ok stored) : DescribesObject sha256Hex storage key file stored := by
  unfold verifyDriveObjectFile at h
  cases hid : file.id.filter fun id => !Text.isBlank id with
  | none =>
    rw [hid] at h
    cases h
  | some id =>
    have hfile : file.id = some id := (Option.filter_eq_some_iff.mp hid).1
    rw [hid] at h
    dsimp only at h
    split at h
    · cases h
    next hname =>
    split at h
    · cases h
    next htrashed =>
    split at h
    · cases h
    next hproperties =>
    split at h
    · cases h
    next text htext =>
    split at h
    · cases h
    next actualSize hparse =>
    split at h
    · cases h
    next hsize =>
    cases h
    have hsize : actualSize = key.object.size.toNat := not_not.mp hsize
    refine ⟨hfile, not_not.mp hname, by simpa using htrashed, ?_, ⟨text, htext, ?_⟩, rfl, rfl, rfl⟩
    · intro property expected hmem
      by_contra hne
      apply hproperties
      exact List.any_eq_true.mpr ⟨(property, expected), hmem, decide_eq_true hne⟩
    · rw [hparse, hsize]

/-- A file resource that describes the object passes the check. -/
theorem DescribesObject.verified {sha256Hex : String → String}
    {storage : GoogleDriveStorageConfig} {key : GoogleDriveObjectKey}
    {file : GoogleDriveObjectFile} {stored : StoredObject}
    (h : DescribesObject sha256Hex storage key file stored)
    (hid : Text.isBlank stored.backendId = false) (status : ℕ) :
    verifyDriveObjectFile storage key (key.expectedAppProperties sha256Hex) status file =
      .ok stored := by
  obtain ⟨hfile, hname, hlive, hproperties, ⟨text, hsize, hparse⟩, hprovider, hrepository,
    hobject⟩ := h
  have hfilter : file.id.filter (fun id => !Text.isBlank id) = some stored.backendId := by
    rw [hfile, Option.filter_some, hid]
    rfl
  have hany : ((key.expectedAppProperties sha256Hex).pairs.any fun (property, expected) =>
      file.appProperties.lookup property ≠ some expected) ≠ true := by
    intro hany
    obtain ⟨⟨property, expected⟩, hmem, hne⟩ := List.any_eq_true.mp hany
    exact of_decide_eq_true hne (hproperties property expected hmem)
  obtain ⟨provider, repository, object, backendId⟩ := stored
  simp only at hprovider hrepository hobject hfilter
  subst hprovider hrepository hobject
  unfold verifyDriveObjectFile
  simp only [hfilter, hname, hlive, hsize, hparse, ne_eq, not_true_eq_false, if_false,
    Bool.false_eq_true]
  rw [if_neg hany]

end LfsCloud
