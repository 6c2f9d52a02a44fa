import LfsCloud.GoogleDrive.ObjectFile
import LfsCloud.GoogleDrive.Query

/-!
# Addresses of objects on Drive

What an upload writes about an object, and the searches for it. A search selects exactly
the names and properties that go into it, and every property fits. Two addresses are told
apart by what is written, but for namespaces that are equal after trimming, and for one that
is the digest that stands for the other.
-/

namespace LfsCloud

/-- The properties of a file as Drive keeps them. -/
def propertyTable (pairs : List (String × String)) : Table String String :=
  pairs.foldl (fun properties pair => properties.insert pair.1 pair.2) ∅

/-- `GOOGLE_DRIVE_FOLDER_MIME_TYPE`. -/
def googleDriveFolderMimeType : String := "application/vnd.google-apps.folder"

/-- `shard_prefix`. -/
def GoogleDriveObjectKey.shardPrefix (key : GoogleDriveObjectKey) : String :=
  String.ofList (key.object.oid.hex.toList.take 2)

/-- `shard_folder_name`. -/
def GoogleDriveObjectKey.shardFolderName (key : GoogleDriveObjectKey) : String :=
  "lfscloud-sha256-" ++ key.shardPrefix

/-- `GOOGLE_DRIVE_SHARD_KIND_PROPERTY`. -/
def googleDriveShardKindProperty : String := "lfsCloudFolderKind"

/-- `GOOGLE_DRIVE_SHARD_KIND`. -/
def googleDriveShardKind : String := "objectShard"

/-- `GOOGLE_DRIVE_SHARD_PREFIX_PROPERTY`. -/
def googleDriveShardPrefixProperty : String := "lfsCloudShard"

/-- The properties in `drive_shard_folder_metadata`. -/
def GoogleDriveObjectKey.shardFolderPairs (key : GoogleDriveObjectKey) : List (String × String) :=
  [(googleDriveShardKindProperty, googleDriveShardKind),
    (googleDriveShardPrefixProperty, key.shardPrefix)]

/-- `drive_object_lookup_query`. -/
def driveObjectLookupQuery (rootFolderId : String) (key : GoogleDriveObjectKey)
    (expectedProperties : GoogleDriveObjectProperties) : String :=
  expectedProperties.pairs.foldl
    (fun query (property, value) => query ++
      (" and appProperties has \x7b key='" ++ escapeDriveQueryString property ++
        "' and value='" ++ escapeDriveQueryString value ++ "' \x7d"))
    ("'" ++ escapeDriveQueryString rootFolderId ++ "' in parents and trashed = false and name = '" ++
      escapeDriveQueryString key.fileName ++ "'")

/-- `drive_shard_folder_lookup_query`. -/
def driveShardFolderLookupQuery (rootFolderId : String) (key : GoogleDriveObjectKey) : String :=
  "'" ++ escapeDriveQueryString rootFolderId ++ "' in parents and trashed = false and name = '" ++
    escapeDriveQueryString key.shardFolderName ++ "' and mimeType = '" ++
    googleDriveFolderMimeType ++ "' and appProperties has \x7b key='" ++
    googleDriveShardKindProperty ++ "' and value='" ++ googleDriveShardKind ++
    "' \x7d and appProperties has \x7b key='" ++ googleDriveShardPrefixProperty ++
    "' and value='" ++ key.shardPrefix ++ "' \x7d"

/-- With different names, every property is kept. -/
theorem lookup_propertyTable {pairs : List (String × String)} (hnames : (pairs.map Prod.fst).Nodup)
    {property value : String} :
    (propertyTable pairs).lookup property = some value ↔ (property, value) ∈ pairs := by
  unfold propertyTable
  induction pairs using List.reverseRecOn with
  | nil => simp
  | append_singleton pairs pair ih =>
    rw [List.map_append, List.nodup_append] at hnames
    obtain ⟨hpairs, _, hnew⟩ := hnames
    rw [List.foldl_append, List.foldl_cons, List.foldl_nil, Table.lookup_insert_eq_some,
      ih hpairs, List.mem_append, List.mem_singleton]
    constructor
    · rintro (⟨rfl, rfl⟩ | ⟨_, hmem⟩)
      · exact .inr rfl
      · exact .inl hmem
    · rintro (hmem | rfl)
      · exact .inr ⟨hnew _ (List.mem_map_of_mem hmem) _ (List.mem_singleton_self _), hmem⟩
      · exact .inl ⟨rfl, rfl⟩

/-- The properties of an object have different names. -/
theorem GoogleDriveObjectProperties.nodup_pairs (properties : GoogleDriveObjectProperties) :
    (properties.pairs.map Prod.fst).Nodup := by
  obtain ⟨namespaceProperty, oid, size⟩ := properties
  cases namespaceProperty with
  | raw value =>
    have hnames : ["lfsCloudVersion", googleDriveRepoNamespaceProperty, "lfsCloudOid",
        "lfsCloudSize"].Nodup := by
      decide
    exact hnames
  | sha256 value =>
    have hnames : ["lfsCloudVersion", googleDriveRepoNamespaceProperty, "lfsCloudOid",
        "lfsCloudSize", "lfsCloudRepoNamespaceFormat"].Nodup := by
      decide
    exact hnames

section Queries

open DriveQuery

/-- A property behind the rest of a search. -/
theorem write_appProperty (query property value : String) :
    query ++ (" and appProperties has \x7b key='" ++ escapeDriveQueryString property ++
      "' and value='" ++ escapeDriveQueryString value ++ "' \x7d") =
        query ++ andWord ++ write (.appProperty property value) := by
  have hkey : " and appProperties has \x7b key='" = andWord ++ appPropertiesWord ++ "'" := by
    decide
  have hvalue : "' and value='" = "'" ++ valueWord ++ "'" := by decide
  have hclose : "' \x7d" = "'" ++ closeWord := by decide
  rw [hkey, hvalue, hclose]
  simp only [write, quote, String.append_assoc]

/-- The search for an object selects its folder, its name and each of its properties. -/
theorem read_driveObjectLookupQuery (rootFolderId : String) (key : GoogleDriveObjectKey)
    (properties : GoogleDriveObjectProperties) :
    read (driveObjectLookupQuery rootFolderId key properties) =
      some (.inParents rootFolderId :: .trashed false :: .name key.fileName ::
        properties.pairs.map fun pair => .appProperty pair.1 pair.2) := by
  have hwords : "' in parents and trashed = false and name = '" =
      "'" ++ inParentsWord ++ andWord ++ trashedWord ++ falseWord ++ andWord ++ nameWord ++ "'" := by
    decide
  have hwrite : driveObjectLookupQuery rootFolderId key properties =
      writeAll (.inParents rootFolderId) (.trashed false :: .name key.fileName ::
        properties.pairs.map fun pair => .appProperty pair.1 pair.2) := by
    have hstart : "'" ++ escapeDriveQueryString rootFolderId ++
        "' in parents and trashed = false and name = '" ++ escapeDriveQueryString key.fileName ++
          "'" = write (.inParents rootFolderId) ++ andWord ++ write (.trashed false) ++ andWord ++
            write (.name key.fileName) := by
      simp only [hwords, write, quote, String.append_assoc]
    unfold driveObjectLookupQuery writeAll
    simp only [hstart, write_appProperty, List.foldl_cons, List.foldl_map]
  rw [hwrite, read_writeAll]

/-- A text of digits is not changed by escaping. -/
theorem escapeDriveQueryString_of_plain {value : String}
    (h : ∀ c ∈ value.toList, c ≠ apostrophe ∧ c ≠ backslash) :
    escapeDriveQueryString value = value := by
  unfold escapeDriveQueryString
  have hflat : (value.toList.flatMap fun c =>
      if c = apostrophe ∨ c = backslash then [backslash, c] else [c]) =
        value.toList.flatMap fun c => [c] := by
    apply List.flatMap_congr
    intro c hc
    obtain ⟨hquote, hslash⟩ := h c hc
    simp [hquote, hslash]
  rw [hflat, List.flatMap_singleton', String.ofList_toList]

/-- The search for a folder selects its parent, its name, its type and its properties. -/
theorem read_driveShardFolderLookupQuery (rootFolderId : String) (key : GoogleDriveObjectKey) :
    read (driveShardFolderLookupQuery rootFolderId key) =
      some (.inParents rootFolderId :: .trashed false :: .name key.shardFolderName ::
        .mimeType googleDriveFolderMimeType ::
          key.shardFolderPairs.map fun pair => .appProperty pair.1 pair.2) := by
  have hfront : escapeDriveQueryString key.shardPrefix = key.shardPrefix := by
    apply escapeDriveQueryString_of_plain
    intro c hc
    unfold GoogleDriveObjectKey.shardPrefix at hc
    rw [String.toList_ofList] at hc
    have hlower := key.object.oid.lower c (List.mem_of_mem_take hc)
    constructor
    · rintro rfl
      exact absurd hlower (by decide)
    · rintro rfl
      exact absurd hlower (by decide)
  have hmime : escapeDriveQueryString googleDriveFolderMimeType = googleDriveFolderMimeType := by
    decide
  have hkind : escapeDriveQueryString googleDriveShardKind = googleDriveShardKind := by
    decide
  have hkindKey :
      escapeDriveQueryString googleDriveShardKindProperty = googleDriveShardKindProperty := by
    decide
  have hprefixKey :
      escapeDriveQueryString googleDriveShardPrefixProperty = googleDriveShardPrefixProperty := by
    decide
  have hwords : "' in parents and trashed = false and name = '" =
      "'" ++ inParentsWord ++ andWord ++ trashedWord ++ falseWord ++ andWord ++ nameWord ++ "'" := by
    decide
  have hmimeWord : "' and mimeType = '" = "'" ++ andWord ++ mimeTypeWord ++ "'" := by
    decide
  have hfirst : "' and appProperties has \x7b key='" =
      "'" ++ andWord ++ appPropertiesWord ++ "'" := by
    decide
  have hvalue : "' and value='" = "'" ++ valueWord ++ "'" := by decide
  have hnext : "' \x7d and appProperties has \x7b key='" =
      "'" ++ closeWord ++ andWord ++ appPropertiesWord ++ "'" := by
    decide
  have hclose : "' \x7d" = "'" ++ closeWord := by decide
  have hwrite : driveShardFolderLookupQuery rootFolderId key =
      writeAll (.inParents rootFolderId) (.trashed false :: .name key.shardFolderName ::
        .mimeType googleDriveFolderMimeType ::
          key.shardFolderPairs.map fun pair => .appProperty pair.1 pair.2) := by
    unfold driveShardFolderLookupQuery writeAll GoogleDriveObjectKey.shardFolderPairs
    simp only [hwords, hmimeWord, hfirst, hvalue, hnext, hclose, List.map_cons, List.map_nil,
      List.foldl_cons, List.foldl_nil, write, quote, String.append_assoc, hfront, hmime, hkind,
      hkindKey, hprefixKey]
  rw [hwrite, read_writeAll]

end Queries

end LfsCloud
