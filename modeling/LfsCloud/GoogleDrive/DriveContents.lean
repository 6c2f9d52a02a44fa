import LfsCloud.GoogleDrive.Lookup

/-!
# The files of a Drive

Any files in any folders, and what an interface answers that serves them: a file by its
identifier, and the pages of a search.
-/

namespace LfsCloud

/-- An identifier that Drive gives out: it is visible, and a segment of a path. -/
structure DriveFileId where
  text : String
  visible : Text.isBlank text = false
  segment : pathSegments [text] = [text]
  deriving DecidableEq

/-- A file, or a folder. -/
structure DriveFile where
  name : String
  mimeType : String
  /-- The size as Drive shows it; a folder has none. -/
  size : Option String
  trashed : Bool
  parents : List DriveFileId
  appProperties : Table String String

/-- All files of a Drive. -/
structure DriveContents where
  files : Table DriveFileId DriveFile

/-- The given fields of a file as a resource; a field that is left out has its default. -/
def DriveFile.resource (file : DriveFile) (id : DriveFileId) (fields : List String) :
    DriveFileResource where
  id := if "id" ∈ fields then some id.text else none
  name := if "name" ∈ fields then some file.name else none
  size := if "size" ∈ fields then file.size else none
  trashed := "trashed" ∈ fields && file.trashed
  appProperties := if "appProperties" ∈ fields then file.appProperties else ∅
  mimeType := if "mimeType" ∈ fields then some file.mimeType else none
  parents := if "parents" ∈ fields then file.parents.map (·.text) else []

/-- A file meets a condition of a search. -/
def DriveFile.Meets (file : DriveFile) : DriveTerm → Prop
  | .inParents folder => folder ∈ file.parents.map (·.text)
  | .trashed value => file.trashed = value
  | .name value => file.name = value
  | .mimeType value => file.mimeType = value
  | .appProperty key value => file.appProperties.lookup key = some value

/-- The files that a search selects. -/
def DriveContents.Selects (d : DriveContents) (query : String) (id : DriveFileId) (file : DriveFile) :
    Prop :=
  d.files.lookup id = some file ∧ ∃ terms, DriveQuery.read query = some terms ∧
    ∀ term ∈ terms, file.Meets term

/-- The pages of a search from a token on. A page is lost when it is too long to be read. -/
inductive DrivePages (api : DriveApi) (fields : List String) (query : String) :
    Option String → List DriveFileResource → Prop
  | last {token files body diagnostic}
      (h : api.list fields query token = .ok ⟨200, body, diagnostic⟩)
      (hbody : body = some ⟨files, none, false⟩ ∨ body = none) :
      DrivePages api fields query token files
  | more {token files next rest body diagnostic}
      (h : api.list fields query token = .ok ⟨200, body, diagnostic⟩)
      (hbody : body = some ⟨files, some next, false⟩ ∨ body = none)
      (hrest : DrivePages api fields query (some next) rest) :
      DrivePages api fields query token (files ++ rest)

/-- What is documented of an interface to a Drive. Only the front of a body is read, and
`whole` tells of which resources that is all. -/
structure DriveServes (api : DriveApi) (whole : DriveFileResource → Bool) (d : DriveContents) :
    Prop where
  /-- A file is found by its identifier. -/
  found : ∀ id file fields, d.files.lookup id = some file → ∃ diagnostic,
    api.get [id.text] fields = .ok ⟨200, if whole (file.resource id fields) then
      some (file.resource id fields) else none, diagnostic⟩
  /-- What is no identifier of a file is not found. -/
  missing : ∀ text fields, (∀ id file, d.files.lookup id = some file → id.text ≠ text) →
    ∃ body diagnostic, api.get [text] fields = .ok ⟨404, body, diagnostic⟩
  /-- Without an identifier it is a search, which has no such fields. -/
  search : ∀ fields, ∃ diagnostic, api.get [] fields = .ok ⟨400, none, diagnostic⟩
  /-- A search returns the files that it selects. -/
  listed : ∀ fields query, (DriveQuery.read query).isSome → ∃ files,
    DrivePages api fields query none files ∧
      ∀ resource, resource ∈ files ↔
        ∃ id file, d.Selects query id file ∧ resource = file.resource id fields

variable {api : DriveApi} {whole : DriveFileResource → Bool} {d : DriveContents}
  {store : GoogleDriveObjectStore} {key : GoogleDriveObjectKey}

/-- What a search for an object in a folder selects. -/
def DriveFile.IsObject (file : DriveFile) (sha256Hex : String → String)
    (key : GoogleDriveObjectKey) : Prop :=
  file.name = key.fileName ∧ file.trashed = false ∧
    ∀ pair ∈ (key.expectedAppProperties sha256Hex).pairs,
      file.appProperties.lookup pair.1 = some pair.2

/-- What a search for the folders of a shard selects. -/
def DriveFile.IsShardFolder (file : DriveFile) (rootFolderId : String)
    (key : GoogleDriveObjectKey) : Prop :=
  file.name = key.shardFolderName ∧ file.mimeType = googleDriveFolderMimeType ∧
    file.trashed = false ∧ rootFolderId ∈ file.parents.map (·.text) ∧
      ∀ pair ∈ key.shardFolderPairs, file.appProperties.lookup pair.1 = some pair.2

/-- A search for an object. -/
theorem selects_object {sha256Hex : String → String} {folder : String} {id : DriveFileId}
    {file : DriveFile} :
    d.Selects (driveObjectLookupQuery folder key (key.expectedAppProperties sha256Hex)) id file ↔
      d.files.lookup id = some file ∧ folder ∈ file.parents.map (·.text) ∧
        file.IsObject sha256Hex key := by
  unfold DriveContents.Selects DriveFile.IsObject
  rw [read_driveObjectLookupQuery]
  simp only [Option.some.injEq, exists_eq_left', List.forall_mem_cons, List.forall_mem_map,
    DriveFile.Meets]
  constructor
  · rintro ⟨hfile, hfolder, hlive, hname, hproperties⟩
    exact ⟨hfile, hfolder, hname, hlive, hproperties⟩
  · rintro ⟨hfile, hfolder, hname, hlive, hproperties⟩
    exact ⟨hfile, hfolder, hlive, hname, hproperties⟩

/-- A search for folders. -/
theorem selects_shardFolder {id : DriveFileId} {file : DriveFile} {rootFolderId : String} :
    d.Selects (driveShardFolderLookupQuery rootFolderId key) id file ↔
      d.files.lookup id = some file ∧ file.IsShardFolder rootFolderId key := by
  unfold DriveContents.Selects DriveFile.IsShardFolder
  rw [read_driveShardFolderLookupQuery]
  simp only [Option.some.injEq, exists_eq_left', List.forall_mem_cons, List.forall_mem_map,
    DriveFile.Meets]
  constructor
  · rintro ⟨hfile, hroot, hlive, hname, hmime, hproperties⟩
    exact ⟨hfile, hname, hmime, hlive, hroot, hproperties⟩
  · rintro ⟨hfile, hname, hmime, hlive, hroot, hproperties⟩
    exact ⟨hfile, hroot, hlive, hname, hmime, hproperties⟩

/-- The identifier in a resource is visible. -/
theorem filter_resource_id {file : DriveFile} {id : DriveFileId} {fields : List String}
    (hfields : "id" ∈ fields) :
    (file.resource id fields).id.filter (fun id => !Text.isBlank id) = some id.text := by
  unfold DriveFile.resource
  simp only [hfields, if_true, Option.filter_some, id.visible, Bool.not_false]

/-- A folder that a search selects passes the check. -/
theorem DriveFile.IsShardFolder.verified {file : DriveFile}
    (h : file.IsShardFolder store.rootFolderId key) (id : DriveFileId) (status : ℕ) :
    verifyDriveShardFolder store key status (file.resource id shardFolderFields) =
      .ok id.text := by
  obtain ⟨hname, hmime, hlive, hroot, hproperties⟩ := h
  unfold verifyDriveShardFolder
  rw [filter_resource_id (by decide)]
  apply if_pos
  refine ⟨?_, ?_, ?_, ?_, ?_, ?_⟩
  · exact congrArg some hname
  · exact congrArg some hmime
  · exact hlive
  · exact hroot
  · exact hproperties (googleDriveShardKindProperty, googleDriveShardKind) (by
      simp [GoogleDriveObjectKey.shardFolderPairs])
  · exact hproperties (googleDriveShardPrefixProperty, key.shardPrefix) (by
      simp [GoogleDriveObjectKey.shardFolderPairs])

/-- Another folder does not. -/
theorem DriveFile.not_shardFolder_verified {file : DriveFile}
    (h : ¬file.IsShardFolder store.rootFolderId key) (id : DriveFileId) (status : ℕ) :
    verifyDriveShardFolder store key status (file.resource id shardFolderFields) =
      .error (.upstream store.storage.id (some status)
        "Google Drive shard-folder response did not match its deterministic identity") := by
  unfold verifyDriveShardFolder
  rw [filter_resource_id (by decide)]
  apply if_neg
  rintro ⟨hname, hmime, hlive, hroot, hkind, hfront⟩
  refine h ⟨Option.some.inj hname, Option.some.inj hmime, hlive, hroot, ?_⟩
  intro pair hpair
  simp only [GoogleDriveObjectKey.shardFolderPairs, List.mem_cons, List.not_mem_nil,
    or_false] at hpair
  rcases hpair with rfl | rfl
  · exact hkind
  · exact hfront

/-- The size that Drive shows is the size of the object. -/
def DriveFile.HasSize (file : DriveFile) (object : LfsObject) : Prop :=
  ∃ text, file.size = some text ∧ parseU64 text.toList = some object.size.toNat

section Objects

variable {sha256Hex : String → String} {file : DriveFile} {fields : List String}

/-- The object that a file is taken for. -/
def storedObject (store : GoogleDriveObjectStore) (key : GoogleDriveObjectKey)
    (id : DriveFileId) : StoredObject :=
  ⟨store.storage.id, key.repoNamespace, key.object, id.text⟩

variable (store) in
/-- A file that a search for an object selects passes the check, if it has the size. -/
theorem DriveFile.IsObject.verified (h : file.IsObject sha256Hex key)
    (hsize : file.HasSize key.object) (hfields : ["id", "name", "size", "appProperties"] ⊆ fields)
    (id : DriveFileId) (status : ℕ) :
    verifyDriveObjectFile store.storage key (key.expectedAppProperties sha256Hex) status
      (file.resource id fields).toGoogleDriveObjectFile = .ok (storedObject store key id) := by
  obtain ⟨hname, hlive, hproperties⟩ := h
  simp only [List.cons_subset, List.nil_subset, and_true] at hfields
  obtain ⟨hid, hnameField, hsizeField, happField⟩ := hfields
  have hdescribes : DescribesObject sha256Hex store.storage key
      (file.resource id fields).toGoogleDriveObjectFile (storedObject store key id) := by
    refine ⟨?_, ?_, ?_, ?_, ?_, rfl, rfl, rfl⟩
    · simp [DriveFile.resource, hid, storedObject]
    · simp [DriveFile.resource, hnameField, hname]
    · simp [DriveFile.resource, hlive]
    · intro property expected hmem
      simpa [DriveFile.resource, happField] using hproperties (property, expected) hmem
    · obtain ⟨text, htext, hparse⟩ := hsize
      exact ⟨text, by simp [DriveFile.resource, hsizeField, htext], hparse⟩
  exact hdescribes.verified id.visible status

variable (store) in
/-- Another file is a conflict. -/
theorem not_isObject_verified (h : ¬file.IsObject sha256Hex key) (id : DriveFileId)
    (status : ℕ) :
    verifyDriveObjectFile store.storage key (key.expectedAppProperties sha256Hex) status
      (file.resource id objectMetadataFields).toGoogleDriveObjectFile =
        .error (.conflict store.storage.id key.object.oid.hex) := by
  have hid : (file.resource id objectMetadataFields).id.filter (fun id => !Text.isBlank id) =
      some id.text := filter_resource_id (by decide)
  unfold verifyDriveObjectFile
  rw [hid]
  dsimp only
  by_cases hname : file.name = key.fileName
  · have hnameField : (file.resource id objectMetadataFields).name = some key.fileName :=
      congrArg some hname
    rw [if_neg (not_not.mpr hnameField)]
    by_cases hlive : file.trashed = false
    · have hliveField : (file.resource id objectMetadataFields).trashed = false := hlive
      rw [hliveField, if_neg Bool.false_ne_true]
      apply if_pos
      by_contra hall
      refine h ⟨hname, hlive, fun pair hpair => ?_⟩
      by_contra hne
      exact hall (List.any_eq_true.mpr ⟨pair, hpair, decide_eq_true hne⟩)
    · have hliveField : (file.resource id objectMetadataFields).trashed = true := by
        simpa [DriveFile.resource, objectMetadataFields] using hlive
      rw [if_pos hliveField]
  · have hnameField : (file.resource id objectMetadataFields).name ≠ some key.fileName := by
      intro hsame
      exact hname (Option.some.inj hsame)
    rw [if_pos hnameField]

variable (store) in
/-- The object with another size is neither accepted nor a conflict. -/
theorem isObject_without_size (h : file.IsObject sha256Hex key) (hsize : ¬file.HasSize key.object)
    (id : DriveFileId) (status : ℕ) : ∃ error,
      verifyDriveObjectFile store.storage key (key.expectedAppProperties sha256Hex) status
        (file.resource id objectMetadataFields).toGoogleDriveObjectFile = .error error ∧
          ∀ provider oid, error ≠ .conflict provider oid := by
  obtain ⟨hname, hlive, hproperties⟩ := h
  have hid : (file.resource id objectMetadataFields).id.filter (fun id => !Text.isBlank id) =
      some id.text := filter_resource_id (by decide)
  have hnameField : (file.resource id objectMetadataFields).name = some key.fileName :=
    congrArg some hname
  have hliveField : (file.resource id objectMetadataFields).trashed = false := hlive
  have hsizeField : (file.resource id objectMetadataFields).size = file.size := rfl
  unfold verifyDriveObjectFile
  rw [hid]
  dsimp only
  rw [if_neg (not_not.mpr hnameField), hliveField, if_neg Bool.false_ne_true]
  split
  next hany =>
    obtain ⟨pair, hpair, hne⟩ := List.any_eq_true.mp hany
    exact absurd (hproperties pair hpair) (of_decide_eq_true hne)
  next =>
    rw [hsizeField]
    cases htext : file.size with
    | none => exact ⟨_, rfl, fun provider oid hsame => by cases hsame⟩
    | some text =>
      cases hparse : parseU64 text.toList with
      | none =>
        dsimp only
        rw [hparse]
        exact ⟨_, rfl, fun provider oid hsame => by cases hsame⟩
      | some actualSize =>
        have hne : actualSize ≠ key.object.size.toNat := by
          rintro rfl
          exact hsize ⟨text, htext, hparse⟩
        dsimp only
        rw [hparse]
        dsimp only
        rw [if_pos hne]
        exact ⟨_, rfl, fun provider oid hsame => by cases hsame⟩

end Objects

end LfsCloud
