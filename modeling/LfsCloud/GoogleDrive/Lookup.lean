import LfsCloud.GoogleDrive.ObjectKey
import LfsCloud.GoogleDrive.Upload

/-!
# Looking for an object on Drive

The two ways to find an object: by the file identifier that was stored for it, with one
request for the file and at most one for the folder that it is in, and by a search in the
root folder and in every folder of its shard.
-/

namespace LfsCloud

/-- A file resource with its type and the folders that it is in. -/
structure DriveFileResource extends GoogleDriveObjectFile where
  mimeType : Option String
  parents : List String

/-- A page of a search. -/
structure GoogleDriveFileList where
  files : List DriveFileResource
  nextPageToken : Option String
  incompleteSearch : Bool

/-- A response: its status, what the part of the body that is read is as a resource, and as a
diagnostic. -/
structure DriveReply (α : Type) where
  status : ℕ
  body : Option α
  diagnostic : DriveDiagnostic

/-- The requests that a lookup makes, and what becomes of them. -/
structure DriveApi where
  /-- A `GET` of the path below `files`, for the given fields. -/
  get : List String → List String → Except String (DriveReply DriveFileResource)
  /-- A page of a search, for the given fields. -/
  list : List String → String → Option String → Except String (DriveReply GoogleDriveFileList)

/-- `GoogleDriveObjectStore`. -/
structure GoogleDriveObjectStore where
  storage : GoogleDriveStorageConfig
  rootFolderId : String
  repoNamespace : String
  /-- The namespace was valid when the store was built. -/
  valid : validateRepoNamespace repoNamespace = .ok repoNamespace

/-- `require_drive_identifier`. -/
def requireDriveIdentifier (value label : String) : Except StorageError Unit :=
  if Text.isBlank value then
    .error (.upstream "google_drive" none ("Google Drive " ++ label ++ " must not be blank"))
  else .ok ()

/-- The segments that are added to a URL: a dot segment is dropped. -/
def pathSegments (segments : List String) : List String :=
  segments.filter fun segment => segment ≠ "." && segment ≠ ".."

/-- `verify_drive_shard_folder`. -/
def verifyDriveShardFolder (store : GoogleDriveObjectStore) (key : GoogleDriveObjectKey)
    (status : ℕ) (file : DriveFileResource) : Except StorageError String :=
  match file.id.filter fun id => !Text.isBlank id with
  | none => .error (.upstream store.storage.id (some status)
      "Google Drive shard-folder response did not include id")
  | some id =>
    if file.name = some key.shardFolderName ∧ file.mimeType = some googleDriveFolderMimeType ∧
        file.trashed = false ∧ store.rootFolderId ∈ file.parents ∧
        file.appProperties.lookup googleDriveShardKindProperty = some googleDriveShardKind ∧
        file.appProperties.lookup googleDriveShardPrefixProperty = some key.shardPrefix then
      .ok id
    else .error (.upstream store.storage.id (some status)
      "Google Drive shard-folder response did not match its deterministic identity")

/-- `parse_drive_object_lookup_error`. -/
def parseDriveObjectLookupError (storage : GoogleDriveStorageConfig) (status : ℕ)
    (diagnostic : DriveDiagnostic) : StorageError :=
  match classifyCommonDriveError storage status diagnostic with
  | some error => error
  | none => .upstream storage.id (some status) diagnostic.message

/-- What was sent and answered; a request that fails in transport may be tried again. -/
def sendDriveRequest {α : Type} (storage : GoogleDriveStorageConfig) :
    Except String (DriveReply α) → Except StorageError (DriveReply α)
  | .error message => .error (.retryable storage.id message)
  | .ok reply => .ok reply

/-- The resource in a successful response. -/
def readDriveResource {α : Type} (storage : GoogleDriveStorageConfig) (invalid : String)
    (reply : DriveReply α) : Except StorageError α :=
  if isSuccess reply.status then
    match reply.body with
    | none => .error (.upstream storage.id (some reply.status) invalid)
    | some body => .ok body
  else .error (parseDriveObjectLookupError storage reply.status reply.diagnostic)

/-- The fields in `drive_object_metadata_url`. -/
def objectMetadataFields : List String :=
  ["id", "name", "size", "parents", "trashed", "appProperties"]

/-- The fields in `drive_shard_folder_metadata_url` and `drive_shard_folder_lookup_url`. -/
def shardFolderFields : List String :=
  ["id", "name", "mimeType", "parents", "trashed", "appProperties"]

/-- The fields in `drive_object_lookup_url`. -/
def objectLookupFields : List String := ["id", "name", "size", "appProperties"]

namespace GoogleDriveObjectStore

variable (api : DriveApi) (sha256Hex : String → String) (store : GoogleDriveObjectStore)

/-- `object_key`. -/
def objectKey (object : LfsObject) : Except StorageError GoogleDriveObjectKey :=
  GoogleDriveObjectKey.new store.repoNamespace object

/-- `shard_folder_id_matches_key`. -/
def shardFolderIdMatchesKey (folderId : String) (key : GoogleDriveObjectKey) :
    Except StorageError Bool := do
  requireDriveIdentifier folderId "folder ID"
  let reply ← sendDriveRequest store.storage (api.get (pathSegments [folderId]) shardFolderFields)
  if reply.status = 404 then return false
  let file ← readDriveResource store.storage
    "Google Drive shard-folder metadata response was invalid JSON" reply
  match verifyDriveShardFolder store key reply.status file with
  | .ok returnedId => return returnedId == folderId
  | .error (.upstream _ (some 200) _) => return false
  | .error error => .error error

/-- `lookup_object_by_backend_id`. -/
def lookupObjectByBackendId (object : LfsObject) (backendId : String) :
    Except StorageError (Option StoredObject) := do
  let key ← store.objectKey object
  requireDriveIdentifier backendId "file ID"
  let reply ← sendDriveRequest store.storage
    (api.get (pathSegments [backendId]) objectMetadataFields)
  if reply.status = 404 then return none
  let file ← readDriveResource store.storage
    "Google Drive object metadata response was invalid JSON" reply
  match verifyDriveObjectFile store.storage key (key.expectedAppProperties sha256Hex)
      reply.status file.toGoogleDriveObjectFile with
  | .ok stored =>
    if stored.backendId = backendId then
      if file.parents = [store.rootFolderId] then return some stored
      match file.parents with
      | [parent] =>
        if ← store.shardFolderIdMatchesKey api parent key then return some stored
        else return none
      | _ => return none
    else return none
  | .error (.conflict _ _) => return none
  | .error error => .error error

/-- A loop over the pages of a search. No result means that the fuel did not suffice. -/
def lookupPages {α : Type} (fetch : Option String → Except StorageError (List α × Option String))
    (repeated : StorageError) :
    ℕ → List String → Option String → ExceptT StorageError Option (List α)
  | 0, _, _ => ExceptT.mk none
  | fuel + 1, seen, token => do
    let (items, next) ← ExceptT.mk (some (fetch token))
    match next with
    | none => return items
    | some next =>
      if next ∈ seen then throw repeated
      else return items ++ (← lookupPages fetch repeated fuel (next :: seen) (some next))

/-- A page of a search below a folder: the request, and every file of the answer verified. -/
def lookupPage {α : Type} (what folder : String) (fields : List String) (query : String)
    (verify : ℕ → DriveFileResource → Except StorageError α) (token : Option String) :
    Except StorageError (List α × Option String) := do
  requireDriveIdentifier folder "root_folder_id"
  let reply ← sendDriveRequest store.storage (api.list fields query token)
  let page ← readDriveResource store.storage
    ("Google Drive " ++ what ++ " response was invalid JSON") reply
  if page.incompleteSearch then
    .error (.retryable store.storage.id
      ("Google Drive " ++ what ++ " returned incomplete search results"))
  else if page.nextPageToken.any Text.isBlank then
    .error (.upstream store.storage.id (some reply.status)
      ("Google Drive " ++ what ++ " returned a blank page token"))
  else
    let items ← page.files.mapM (verify reply.status)
    return (items, page.nextPageToken)

/-- All pages of a search. -/
def lookupAll {α : Type} (what folder : String) (fields : List String) (query : String)
    (verify : ℕ → DriveFileResource → Except StorageError α) (fuel : ℕ) :
    ExceptT StorageError Option (List α) :=
  lookupPages (store.lookupPage api what folder fields query verify)
    (.retryable store.storage.id ("Google Drive " ++ what ++ " repeated a page token")) fuel [] none

/-- `lookup_objects_in_parent`. -/
def lookupObjectsInParent (fuel : ℕ) (parentFolderId : String) (key : GoogleDriveObjectKey) :
    ExceptT StorageError Option (List StoredObject) :=
  let expectedProperties := key.expectedAppProperties sha256Hex
  store.lookupAll api "object lookup" parentFolderId objectLookupFields
    (driveObjectLookupQuery parentFolderId key expectedProperties)
    (fun status file => verifyDriveObjectFile store.storage key expectedProperties status
      file.toGoogleDriveObjectFile) fuel

/-- `lookup_shard_folder_ids`. -/
def lookupShardFolderIds (fuel : ℕ) (key : GoogleDriveObjectKey) :
    ExceptT StorageError Option (List String) := do
  let folders ← store.lookupAll api "shard-folder lookup" store.rootFolderId shardFolderFields
    (driveShardFolderLookupQuery store.rootFolderId key) (verifyDriveShardFolder store key) fuel
  return (folders.mergeSort fun left right => decide (left ≤ right)).dedup

/-- The objects that `lookup_object` chooses from. -/
def lookupCandidates (fuel : ℕ) (object : LfsObject) :
    ExceptT StorageError Option (List StoredObject) := do
  let key ← ExceptT.mk (some (store.objectKey object))
  let inRoot ← store.lookupObjectsInParent api sha256Hex fuel store.rootFolderId key
  let folders ← store.lookupShardFolderIds api fuel key
  let inShards ← folders.mapM fun folder => store.lookupObjectsInParent api sha256Hex fuel folder key
  return inRoot ++ inShards.flatten

/-- `lookup_object`. -/
def lookupObject (fuel : ℕ) (object : LfsObject) :
    ExceptT StorageError Option (Option StoredObject) := do
  let stored ← store.lookupCandidates api sha256Hex fuel object
  return (stored.mergeSort fun left right => decide (left.backendId ≤ right.backendId)).head?

end GoogleDriveObjectStore

end LfsCloud
