import LfsCloud.Lib.Buffered
import LfsCloud.Lib.Lines
import LfsCloud.Lib.SortedMap
import LfsCloud.Server.Authorization
import LfsCloud.Server.Staging
import Mathlib.Data.String.Basic
import Mathlib.Data.Prod.Lex

/-!
# Batch requests

A batch request names objects; its response has an entry for each of them. Distinct objects
are looked up once, several at a time, and their outcomes are put at every position that
asked for them.
-/

namespace LfsCloud

/-- Objects are ordered by their identifiers, and then by their sizes. -/
instance : LinearOrder LfsObject :=
  LinearOrder.lift' (fun object => toLex (object.oid.hex, object.size.toNat)) <| by
    intro a b h
    have hpair : (a.oid.hex, a.size.toNat) = (b.oid.hex, b.size.toNat) := toLex.injective h
    rw [Prod.mk.injEq] at hpair
    obtain ⟨⟨hex, _, _⟩, size⟩ := a
    obtain ⟨⟨hex', _, _⟩, size'⟩ := b
    obtain rfl : hex = hex' := hpair.1
    obtain rfl : size = size' := UInt64.toNat_inj.mp hpair.2
    rfl

/-- `LFS_BASIC_TRANSFER`. -/
def lfsBasicTransfer : String := "basic"

/-- `BATCH_STORAGE_LOOKUP_CONCURRENCY`. -/
def batchStorageLookupConcurrency : ℕ := 16

/-- `DEFAULT_GIT_CREDENTIAL_USERNAME`. -/
def defaultGitCredentialUsername : String := "lfscloud"

/-- `LfsBatchRequest`, as far as the server reads it. -/
structure LfsBatchRequest where
  operation : LfsBatchOperation
  transfers : List String
  objects : List LfsObject

/-- `LfsBatchAction`. -/
structure LfsBatchAction where
  href : String
  header : SortedMap String String
  expiresAt : Option String
  expiresIn : Option ℤ

/-- `LfsBatchAction::new`. -/
def LfsBatchAction.new (href : String) : LfsBatchAction := ⟨href, .empty, none, none⟩

/-- `LfsBatchObjectError`. -/
structure LfsBatchObjectError where
  code : ℕ
  message : String
  deriving DecidableEq

/-- `LfsBatchObjectResponse`. -/
structure LfsBatchObjectResponse where
  oid : LfsOid
  size : UInt64
  authenticated : Option Bool
  actions : SortedMap String LfsBatchAction
  error : Option LfsBatchObjectError

namespace LfsBatchObjectResponse

/-- `with_actions`. -/
def withActions (object : LfsObject) (authenticated : Bool)
    (actions : SortedMap String LfsBatchAction) : LfsBatchObjectResponse :=
  ⟨object.oid, object.size, some authenticated, actions, none⟩

/-- `with_error`. -/
def withError (object : LfsObject) (error : LfsBatchObjectError) : LfsBatchObjectResponse :=
  ⟨object.oid, object.size, none, .empty, some error⟩

end LfsBatchObjectResponse

/-- `LfsBatchResponse`. -/
structure LfsBatchResponse where
  transfer : String
  objects : List LfsBatchObjectResponse

/-- `LfsBatchDownloadObject`. -/
inductive LfsBatchDownloadObject
  | available (object : LfsObject)
  | missing (object : LfsObject)
  | error (object : LfsObject) (error : LfsBatchObjectError)

/-- `LfsBatchUploadObject`. -/
inductive LfsBatchUploadObject
  | needed (object : LfsObject)
  | present (object : LfsObject)
  | error (object : LfsObject) (error : LfsBatchObjectError)

/-- What the `url` crate makes of a base URL, path segments and a size: nothing where the base
cannot be parsed or has no path. -/
abbrev UrlBuilder := String → List String → String → Option String

section Actions

variable (buildUrl : UrlBuilder) (publicUrl repositoryLfsPath : String)

/-- `trim_matches('/')`. -/
def trimSlashes (text : List Char) : List Char := Lines.trimEnd '/' (text.dropWhile (· = '/'))

/-- `lfs_object_transfer_action_url`. -/
def lfsObjectTransferActionUrl (object : LfsObject) : String :=
  let base := String.ofList (Lines.trimEnd '/' publicUrl.toList)
  let path := trimSlashes repositoryLfsPath.toList
  let segments := ((path.splitOn '/').filter (· ≠ [])).map String.ofList
  match buildUrl base (segments ++ ["objects", object.oid.hex]) (toString object.size) with
  | some url => url
  | none => base ++ "/" ++ String.ofList path ++ "/objects/" ++ object.oid.hex ++ "?size=" ++
      toString object.size

/-- The response with one action on the object. -/
def withTransferAction (name : String) (object : LfsObject) : LfsBatchObjectResponse :=
  .withActions object true (SortedMap.empty.insert name
    (.new (lfsObjectTransferActionUrl buildUrl publicUrl repositoryLfsPath object)))

/-- `LfsBatchDownloadObject::into_response`. -/
def LfsBatchDownloadObject.intoResponse : LfsBatchDownloadObject → LfsBatchObjectResponse
  | available object =>
    withTransferAction buildUrl publicUrl repositoryLfsPath "download" object
  | missing object => .withError object ⟨404, "object not found"⟩
  | error object failure => .withError object failure

/-- `LfsBatchUploadObject::into_response`. -/
def LfsBatchUploadObject.intoResponse : LfsBatchUploadObject → LfsBatchObjectResponse
  | needed object => withTransferAction buildUrl publicUrl repositoryLfsPath "upload" object
  | present object => ⟨object.oid, object.size, none, .empty, none⟩
  | error object failure => .withError object failure

/-- `LfsBatchResponse::download`. -/
def LfsBatchResponse.download (objects : List LfsBatchDownloadObject) : LfsBatchResponse :=
  ⟨lfsBasicTransfer, objects.map fun object =>
    object.intoResponse buildUrl publicUrl repositoryLfsPath⟩

/-- `LfsBatchResponse::upload`. -/
def LfsBatchResponse.upload (objects : List LfsBatchUploadObject) : LfsBatchResponse :=
  ⟨lfsBasicTransfer, objects.map fun object =>
    object.intoResponse buildUrl publicUrl repositoryLfsPath⟩

end Actions

/-- `lfs_batch_object_error_from_server_error`: the batch part of
`classify_lfs_storage_error`. -/
def lfsBatchObjectErrorFromServerError : ServerError → LfsBatchObjectError
  | .storage (.integrityMismatch ..) => ⟨502, "object storage lookup failed"⟩
  | .storage (.objectNotFound ..) => ⟨404, "object not found"⟩
  | .storage (.conflict ..) => ⟨409, "object storage conflict"⟩
  | .storage (.quotaExceeded ..) => ⟨507, "object storage quota exceeded"⟩
  | .storage (.retryable ..) => ⟨503, "object storage lookup can be retried later"⟩
  | .storage (.permissionDenied ..) => ⟨502, "object storage access was denied"⟩
  | .storage (.authenticationRequired ..) => ⟨502, "object storage authentication failed"⟩
  | .storage (.credentialLoad ..) => ⟨502, "object storage authentication failed"⟩
  | .storage (.unsupported ..) => ⟨501, "object storage lookup is not configured"⟩
  | .storage _ => ⟨502, "object storage lookup failed"⟩
  | _ => ⟨500, "object availability lookup failed"⟩

/-- The result of `lookup_object` for an object. -/
abbrev ObjectLookup := Except ServerError (Option StoredObject)

/-- `download_batch_lookup_outcome`. -/
def downloadBatchLookupOutcome (object : LfsObject) : ObjectLookup → LfsBatchDownloadObject
  | .ok (some _) => .available object
  | .ok none => .missing object
  | .error error => .error object (lfsBatchObjectErrorFromServerError error)

/-- `upload_batch_lookup_outcome`. -/
def uploadBatchLookupOutcome (object : LfsObject) : ObjectLookup → LfsBatchUploadObject
  | .ok (some _) => .present object
  | .ok none => .needed object
  | .error error => .error object (lfsBatchObjectErrorFromServerError error)

section Lookups

variable {T : Type}

/-- Collecting into a `BTreeSet`. -/
def uniqueObjects (requested : List LfsObject) : SortedMap LfsObject Unit :=
  requested.foldl (fun objects object => objects.insert object ()) .empty

/-- Collecting outcomes into a `BTreeMap`. -/
def collectOutcomes (outcomes : List (LfsObject × T)) : SortedMap LfsObject T :=
  outcomes.foldl (fun collected outcome => collected.insert outcome.1 outcome.2) .empty

/-- What a lookup of an object yields: the object, and the outcome. -/
def lookupTask (outcomeFromLookup : LfsObject → ObjectLookup → T)
    (lookup : LfsObject → ObjectLookup) (object : LfsObject) (result : LfsObject × T) : Prop :=
  result = (object, outcomeFromLookup object (lookup object))

/-- The runs of the lookups in `batch_objects_with_storage_lookup`. -/
def lookupSystem (outcomeFromLookup : LfsObject → ObjectLookup → T)
    (lookup : LfsObject → ObjectLookup) (requested : List LfsObject) :
    Transition.System (Buffered.State LfsObject (LfsObject × T)) Buffered.Event :=
  Buffered.system batchStorageLookupConcurrency (lookupTask outcomeFromLookup lookup)
    (uniqueObjects requested).keys

/-- The end of `batch_objects_with_storage_lookup`: the outcome of each entry. Nothing is
returned where an entry has none, which would be a panic. -/
def fanOut (requested : List LfsObject) (outcomes : List (LfsObject × T)) : Option (List T) :=
  requested.mapM fun object => (collectOutcomes outcomes).lookup object

end Lookups

/-- `with_session_action_authorization`, for the standard `base64` of a text. -/
def withSessionActionAuthorization (base64 : String → String) (token : String)
    (response : LfsBatchResponse) : LfsBatchResponse :=
  let authorization := "Basic " ++ base64 (defaultGitCredentialUsername ++ ":" ++ token)
  { response with
    objects := response.objects.map fun object => { object with
      actions := object.actions.mapValues fun action => { action with
        header := action.header.insert "Authorization" authorization } } }

/-- The status and the message of a refused batch request. -/
abbrev BatchRefusal := ℕ × String

/-- `git_lfs_authorization_error_response`. -/
def gitLfsAuthorizationErrorResponse : ServerError → BatchRefusal
  | .repositoryProvider (.authenticationRequired ..) =>
    (401, "repository provider authentication is required for this Git LFS operation")
  | .repositoryProvider (.permissionDenied ..) =>
    (403, "repository provider denied this Git LFS operation")
  | .repositoryProvider (.ssoRequired ..) =>
    (403, "repository provider denied this Git LFS operation")
  | .repositoryProvider (.repositoryNotFound ..) =>
    (404, "repository provider could not find this repository")
  | .invalidRequest .. => (400, "repository authorization request was invalid")
  | .repositoryProvider .. => (502, "repository provider authorization failed")
  | _ => (500, "Git LFS authorization failed")

/-- `handle_parsed_lfs_batch_request`, up to the lookups. -/
def admitBatchRequest (maxBatchObjects : ℕ) (authorize : Except ServerError Unit)
    (request : LfsBatchRequest) : Except BatchRefusal Unit :=
  if request.objects.length > maxBatchObjects then
    .error (413, "Git LFS batch contains more than " ++ toString maxBatchObjects ++
      " object entries")
  else if request.transfers ≠ [] ∧ lfsBasicTransfer ∉ request.transfers then
    .error (409, "unsupported Git LFS transfer requested; only basic is available")
  else if request.operation = .upload ∧
      (request.objects.any fun object => object.size.toNat > maxUploadObjectBytes) then
    .error (413, "Git LFS upload object exceeds the configured request size limit")
  else match authorize with
    | .error error => .error (gitLfsAuthorizationErrorResponse error)
    | .ok () => .ok ()

end LfsCloud
