import LfsCloud.GoogleDrive.ObjectFile
import LfsCloud.Lib.Interaction

/-!
# Resumable Drive upload

The upload of a verified file in chunks, as a program over the calls it makes: reads of
the file, and requests to the upload session. What the session answers is interpreted
here; how it comes to answer is not.
-/

namespace LfsCloud

open Interaction

/-- `GOOGLE_DRIVE_RESUMABLE_UPLOAD_CHUNK_SIZE`. -/
def googleDriveResumableUploadChunkSize : ℕ := 256 * 1024

/-- `GOOGLE_DRIVE_RESUMABLE_UPLOAD_MAX_RECOVERY_ATTEMPTS`. -/
def googleDriveResumableUploadMaxRecoveryAttempts : ℕ := 4

/-- The value of a `Content-Range` header. -/
inductive ContentRange
  /-- `bytes first-last/total`. -/
  | bytes (first last total : ℕ)
  /-- `bytes */total`. -/
  | unsatisfied (total : ℕ)
  deriving DecidableEq

/-- A `PUT` to the upload session. -/
structure DriveUploadRequest where
  contentLength : ℕ
  contentRange : Option ContentRange
  body : List UInt8
  deriving DecidableEq

/-- What the body of an error response says. -/
structure DriveDiagnostic where
  message : String
  reasons : List String

/-- The body of a response: it breaks off, or it is read, as a file resource where it is
one, and as a diagnostic. -/
inductive DriveResponseBody
  | stalled
  | transport (message : String)
  | text (file : Option GoogleDriveObjectFile) (diagnostic : DriveDiagnostic)

/-- A response. A header is absent, or it is there and may not be text. -/
structure DriveResponse where
  status : ℕ
  range : Option (Option String)
  location : Option (Option String)
  body : DriveResponseBody

/-- What becomes of a request. -/
inductive DriveSend
  | response (response : DriveResponse)
  | transport (message : String)
  | idle

/-- The calls of an upload. -/
inductive DriveCall
  | uploadParentFolderId (key : GoogleDriveObjectKey)
  | initiate (parentFolderId : String) (key : GoogleDriveObjectKey)
  /-- Seek to an offset and fill a buffer of the given length. -/
  | readChunk (offset length : ℕ)
  | put (sessionUrl : String) (request : DriveUploadRequest)

/-- The answers to a call. -/
def DriveAnswer : DriveCall → Type
  | .uploadParentFolderId _ => Except StorageError String
  | .initiate _ _ => Except String DriveResponse
  | .readChunk _ _ => Option (List UInt8)
  | .put _ _ => DriveSend

/-- The interface of an upload. -/
def driveInterface : Interface := ⟨DriveCall, DriveAnswer⟩

/-- A part of an upload that may fail. -/
abbrev DriveUpload (α : Type) := ExceptT StorageError (Prog driveInterface) α

/-- The phase an error belongs to. -/
inductive DriveUploadPhase
  | initiate
  | transfer
  deriving DecidableEq

/-- `StatusCode::is_success`. -/
def isSuccess (status : ℕ) : Bool := 200 ≤ status && status < 300

/-- `StatusCode::is_server_error`. -/
def isServerError (status : ℕ) : Bool := 500 ≤ status && status < 600

section Responses

variable (storage : GoogleDriveStorageConfig)

/-- `classify_common_drive_error`. -/
def classifyCommonDriveError (status : ℕ) (diagnostic : DriveDiagnostic) :
    Option StorageError :=
  let mentions (reasons : List String) : Bool := diagnostic.reasons.any fun r => reasons.contains r
  if status = 401 ∨ mentions ["authError", "insufficientPermissions"] then
    some (.authenticationRequired storage.id)
  else if mentions ["appNotAuthorizedToFile", "domainPolicy", "insufficientFilePermissions",
      "teamDriveMembershipRequired"] then
    some (.permissionDenied storage.id diagnostic.message)
  else if mentions ["activeItemCreationLimitExceeded", "dailyLimitExceeded",
      "myDriveHierarchyDepthLimitExceeded", "numChildrenInNonRootLimitExceeded",
      "quotaExceeded", "storageQuotaExceeded", "teamDriveFileLimitExceeded",
      "teamDriveHierarchyTooDeep"] then
    some (.quotaExceeded storage.id diagnostic.message)
  else if status = 429 ∨ isServerError status ∨
      mentions ["rateLimitExceeded", "sharingRateLimitExceeded", "userRateLimitExceeded"] then
    some (.retryable storage.id diagnostic.message)
  else none

/-- `parse_drive_upload_error`. -/
def parseDriveUploadError (object : LfsObject) (phase : DriveUploadPhase) (status : ℕ)
    (diagnostic : DriveDiagnostic) : StorageError :=
  match classifyCommonDriveError storage status diagnostic with
  | some error => error
  | none =>
    if status = 409 then .conflict storage.id object.oid.hex
    else if status = 308 ∨ (phase = .transfer ∧ status = 404) then
      .retryable storage.id diagnostic.message
    else .upstream storage.id (some status) diagnostic.message

/-- `drive_resumable_upload_protocol_error`. -/
def driveResumableUploadProtocolError (message : String) : StorageError :=
  .upstream storage.id (some 308) message

/-- `parse_drive_resumable_upload_offset`: how many bytes a `Range` header commits. -/
def parseDriveResumableUploadOffset (range : Option (Option String))
    (totalSize maximumCommittedOffset : ℕ) : Except StorageError ℕ :=
  match range with
  | none => .ok 0
  | some none => .error (driveResumableUploadProtocolError storage
      "Google Drive resumable upload returned a non-text Range header")
  | some (some range) =>
    match "bytes=0-".toList.isPrefixOf? (Text.trim range.toList) with
    | none => .error (driveResumableUploadProtocolError storage
        "Google Drive resumable upload returned an invalid Range header")
    | some lastByte => match parseU64 lastByte with
      | none => .error (driveResumableUploadProtocolError storage
          "Google Drive resumable upload returned an invalid Range header")
      | some lastByte => match checkedAdd lastByte 1 with
        | none => .error (driveResumableUploadProtocolError storage
            "Google Drive resumable upload returned an overflowing Range header")
        | some committedOffset =>
          if maximumCommittedOffset < committedOffset ∨ totalSize ≤ committedOffset ∨
              totalSize = 0 then
            .error (driveResumableUploadProtocolError storage
              "Google Drive resumable upload returned an impossible Range header")
          else .ok committedOffset

/-- `DriveResumableUploadProgress`. -/
inductive DriveResumableUploadProgress
  | complete (stored : StoredObject)
  | incomplete (offset : ℕ)

/-- `parse_drive_upload_success`. -/
def parseDriveUploadSuccess (key : GoogleDriveObjectKey)
    (expectedProperties : GoogleDriveObjectProperties) (status : ℕ)
    (file : Option GoogleDriveObjectFile) : Except StorageError StoredObject :=
  match file with
  | none => .error (.upstream storage.id (some status)
      "Google Drive upload completion response was invalid JSON")
  | some file => verifyDriveObjectFile storage key expectedProperties status file

/-- `read_drive_response_body_with_idle_timeout`, and what the body is read as. -/
def readDriveResponseBodyWithIdleTimeout (body : DriveResponseBody) :
    Except StorageError (Option GoogleDriveObjectFile × DriveDiagnostic) :=
  match body with
  | .stalled => .error (.retryable storage.id
      "Google Drive upload response stalled before completion")
  | .transport message => .error (.retryable storage.id message)
  | .text file diagnostic => .ok (file, diagnostic)

/-- `parse_drive_resumable_upload_response`. -/
def parseDriveResumableUploadResponse (key : GoogleDriveObjectKey)
    (expectedProperties : GoogleDriveObjectProperties) (response : DriveResponse)
    (maximumCommittedOffset : ℕ) : Except StorageError DriveResumableUploadProgress :=
  if response.status = 308 then
    (parseDriveResumableUploadOffset storage response.range key.object.size.toNat
      maximumCommittedOffset).map .incomplete
  else do
    let (file, diagnostic) ← readDriveResponseBodyWithIdleTimeout storage response.body
    if response.status = 200 ∨ response.status = 201 then
      (parseDriveUploadSuccess storage key expectedProperties response.status file).map .complete
    else .error (parseDriveUploadError storage key.object .transfer response.status diagnostic)

/-- `is_retryable_storage_error`. -/
def isRetryableStorageError : StorageError → Bool
  | .retryable _ _ => true
  | _ => false

/-- `send_drive_upload_with_idle_timeout`, after the request. -/
def sendDriveUploadWithIdleTimeout : DriveSend → Except StorageError DriveResponse
  | .response response => .ok response
  | .transport message => .error (.retryable storage.id message)
  | .idle => .error (.retryable storage.id
      "Google Drive upload made no progress before the idle timeout")

/-- What an answer to a request means for the upload. -/
def uploadProgress (key : GoogleDriveObjectKey)
    (expectedProperties : GoogleDriveObjectProperties) (maximumCommittedOffset : ℕ)
    (send : DriveSend) : Except StorageError DriveResumableUploadProgress := do
  let response ← sendDriveUploadWithIdleTimeout storage send
  parseDriveResumableUploadResponse storage key expectedProperties response
    maximumCommittedOffset

end Responses

section Upload

variable (storage : GoogleDriveStorageConfig) (key : GoogleDriveObjectKey)
  (expectedProperties : GoogleDriveObjectProperties) (sessionUrl : String)

/-- `read_drive_upload_chunk`. -/
def readDriveUploadChunk (offset totalSize : ℕ) : DriveUpload (List UInt8) :=
  ExceptT.mk ((request (F := driveInterface) (.readChunk offset
    (min (totalSize - offset) googleDriveResumableUploadChunkSize))).bind fun
      | some chunk => .done (.ok chunk)
      | none => .done (.error (.stagedFileRead storage.id)))

/-- Send a request and interpret the answer. -/
def putUpload (put : DriveUploadRequest) (maximumCommittedOffset : ℕ) :
    Prog driveInterface (Except StorageError DriveResumableUploadProgress) :=
  (request (F := driveInterface) (.put sessionUrl put)).bind fun send =>
    .done (uploadProgress storage key expectedProperties maximumCommittedOffset send)

/-- `recover_drive_resumable_upload`: status probes, while attempts are left. With the
progress comes the number of attempts. -/
def recoverDriveResumableUpload (recoveryAttempts : ℕ) (lastError : StorageError) :
    DriveUpload (DriveResumableUploadProgress × ℕ) :=
  if googleDriveResumableUploadMaxRecoveryAttempts ≤ recoveryAttempts then throw lastError
  else
    let totalSize := key.object.size.toNat
    ExceptT.mk ((putUpload storage key expectedProperties sessionUrl
      ⟨0, some (.unsatisfied totalSize), []⟩ totalSize).bind fun
        | .ok progress => .done (.ok (progress, recoveryAttempts + 1))
        | .error error =>
          if isRetryableStorageError error then
            recoverDriveResumableUpload (recoveryAttempts + 1) error
          else .done (.error error))
termination_by googleDriveResumableUploadMaxRecoveryAttempts - recoveryAttempts

/-- Where an upload stands: the bytes that are committed, and the attempts that were made
since they are. -/
structure UploadCursor where
  committedOffset : ℕ
  recoveryAttempts : ℕ

/-- The request for a chunk at an offset. An empty chunk has no range. -/
def chunkRequest (committedOffset totalSize : ℕ) (chunk : List UInt8) : DriveUploadRequest :=
  match (checkedAdd committedOffset chunk.length).bind fun bound => checkedSub bound 1 with
  | some chunkEnd => ⟨chunkEnd - committedOffset + 1,
      some (.bytes committedOffset chunkEnd totalSize), chunk⟩
  | none => ⟨0, none, chunk⟩

/-- The largest offset that the answer to a chunk may commit. -/
def chunkMaximum (committedOffset : ℕ) (chunk : List UInt8) : ℕ :=
  match (checkedAdd committedOffset chunk.length).bind fun bound => checkedSub bound 1 with
  | some chunkEnd => chunkEnd + 1
  | none => 0

/-- Recover from a transient error; any other one is passed on. -/
def orRecover (recoveryAttempts : ℕ) :
    Except StorageError DriveResumableUploadProgress →
      DriveUpload (DriveResumableUploadProgress × ℕ)
  | .ok progress => return (progress, recoveryAttempts)
  | .error error =>
    if isRetryableStorageError error then
      recoverDriveResumableUpload storage key expectedProperties sessionUrl recoveryAttempts error
    else throw error

/-- What follows from the progress: done, on from a later offset, or once more from the
same. -/
def continueUpload (committedOffset recoveryAttempts : ℕ) :
    DriveResumableUploadProgress → DriveUpload (UploadCursor ⊕ StoredObject)
  | .complete stored => return .inr stored
  | .incomplete nextOffset =>
    if nextOffset < committedOffset then
      throw (driveResumableUploadProtocolError storage
        "Google Drive resumable upload moved its committed offset backwards")
    else if committedOffset < nextOffset then return .inl ⟨nextOffset, 0⟩
    else if googleDriveResumableUploadMaxRecoveryAttempts ≤ recoveryAttempts then
      throw (.retryable storage.id "Google Drive resumable upload made no committed progress")
    else return .inl ⟨committedOffset, recoveryAttempts + 1⟩

/-- The body of the upload loop. -/
def uploadNextChunk (cursor : UploadCursor) : DriveUpload (UploadCursor ⊕ StoredObject) := do
  let totalSize := key.object.size.toNat
  let chunk ← readDriveUploadChunk storage cursor.committedOffset totalSize
  let result ← ExceptT.lift (putUpload storage key expectedProperties sessionUrl
    (chunkRequest cursor.committedOffset totalSize chunk)
      (chunkMaximum cursor.committedOffset chunk))
  let (progress, recoveryAttempts) ← orRecover storage key expectedProperties sessionUrl
    cursor.recoveryAttempts result
  continueUpload storage cursor.committedOffset recoveryAttempts progress

end Upload

/-- `read_google_response_body`: the whole request is under one deadline. -/
def readGoogleResponseBody (storage : GoogleDriveStorageConfig) (body : DriveResponseBody) :
    Except StorageError DriveDiagnostic :=
  match body with
  | .stalled => .error (.retryable storage.id "Google Drive request failed")
  | .transport message => .error (.retryable storage.id message)
  | .text _ diagnostic => .ok diagnostic

/-- The session of an initiation; its URL is checked by `validate`. -/
def uploadSessionUrl (storage : GoogleDriveStorageConfig) (object : LfsObject)
    (validate : String → Except StorageError String) :
    Except String DriveResponse → Except StorageError String
  | .error message => .error (.retryable storage.id message)
  | .ok response =>
    if isSuccess response.status then
      match response.location with
      | some (some location) =>
        if Text.isBlank location then
          .error (.upstream storage.id (some response.status)
            "Google Drive resumable upload response did not include Location")
        else validate location
      | _ => .error (.upstream storage.id (some response.status)
          "Google Drive resumable upload response did not include Location")
    else do
      let diagnostic ← readGoogleResponseBody storage response.body
      .error (parseDriveUploadError storage object .initiate response.status diagnostic)

/-- `upload_verified_object`, up to the upload loop: the session and the key. -/
def initiateUpload (storage : GoogleDriveStorageConfig)
    (validate : String → Except StorageError String) (repoNamespace : String)
    (object : LfsObject) : DriveUpload (String × GoogleDriveObjectKey) := do
  let key ← ExceptT.mk (.done (GoogleDriveObjectKey.new repoNamespace object))
  let parentFolderId ← ExceptT.mk
    (request (F := driveInterface) (.uploadParentFolderId key))
  let answer ← ExceptT.lift (request (F := driveInterface) (.initiate parentFolderId key))
  let sessionUrl ← ExceptT.mk (.done (uploadSessionUrl storage object validate answer))
  return (sessionUrl, key)

/-- `upload_verified_object`; no result means that the fuel did not suffice. -/
def uploadVerifiedObject (sha256Hex : String → String) (storage : GoogleDriveStorageConfig)
    (validate : String → Except StorageError String) (repoNamespace : String)
    (object : LfsObject) (fuel : ℕ) :
    Prog driveInterface (Option (Except StorageError StoredObject)) :=
  (initiateUpload storage validate repoNamespace object).run.bind fun
    | .error error => .done (some (.error error))
    | .ok (sessionUrl, key) => iterateE (uploadNextChunk storage key
        (key.expectedAppProperties sha256Hex) sessionUrl) fuel ⟨0, 0⟩

end LfsCloud
