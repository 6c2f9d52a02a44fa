import LfsCloud.GoogleDrive.StoredIdLookup

/-!
# Downloading an object from Drive

The bytes of a download are verified in two ways: a stream that forwards every chunk while it
hashes it, and a staging file that is hashed while it is written. The response is made from
the first one, a download into a path from the second one.
-/

namespace LfsCloud

/-- A SHA-256 hasher, as the bytes that it was fed. -/
structure Sha256 where
  input : List UInt8
  deriving DecidableEq

namespace Sha256

/-- `Sha256::new`. -/
def new : Sha256 := ⟨[]⟩

/-- `Sha256::update`. -/
def update (hasher : Sha256) (chunk : List UInt8) : Sha256 := ⟨hasher.input ++ chunk⟩

/-- `Sha256::finalize`, as lowercase hexadecimal digits of the digest. -/
def finalize (digest : List UInt8 → String) (hasher : Sha256) : String := digest hasher.input

end Sha256

/-- `u64::saturating_add`. -/
def saturatingAdd (a b : ℕ) : ℕ := min (a + b) (u64Size - 1)

/-- What a read of the body yields: a chunk, or a failure. -/
abbrev DriveChunk := Except String (List UInt8)

/-- The bytes that arrive before the body fails or ends. -/
def receivedBytes : List DriveChunk → List UInt8
  | [] => []
  | .ok chunk :: rest => chunk ++ receivedBytes rest
  | .error _ :: _ => []

/-- No read of the body fails. -/
def arrivesWhole (chunks : List DriveChunk) : Bool := chunks.all fun chunk => chunk.isOk

/-- The body of a media response, as its reads. -/
structure DriveBody where
  chunks : List DriveChunk
  /-- The transport counts the bytes of a body in 64 bits. -/
  counted : (receivedBytes chunks).length < u64Size

/-- The failures of the verified stream. -/
inductive DriveStreamError
  | exceeded
  | failed
  | integrity
  deriving DecidableEq, Repr

/-- The message of a stream failure. -/
def DriveStreamError.message : DriveStreamError → String
  | exceeded => "Google Drive download exceeded the requested object size"
  | failed => "Google Drive download stream failed"
  | integrity => "Google Drive download failed LFS integrity verification"

/-- The state of the verified stream, next to its source. -/
structure DriveStreamState where
  hasher : Sha256
  actualSize : ℕ
  finished : Bool
  deriving DecidableEq

/-- `try_unfold` in `download_object_response_for_stored_object`: one poll, given what the
source yields. -/
def pollVerified (digest : List UInt8 → String) (object : LfsObject) (state : DriveStreamState) :
    Option DriveChunk → Except DriveStreamError (Option (List UInt8 × DriveStreamState))
  | some (.ok chunk) =>
    let hasher := state.hasher.update chunk
    let actualSize := saturatingAdd state.actualSize chunk.length
    if actualSize > object.size.toNat then .error .exceeded
    else .ok (some (chunk, ⟨hasher, actualSize, false⟩))
  | some (.error _) => .error .failed
  | none =>
    let actualOid := state.hasher.finalize digest
    if state.actualSize ≠ object.size.toNat ∨ actualOid ≠ object.oid.hex then .error .integrity
    else .ok none

/-- The chunks that the stream forwards, and how it ends. A finished stream polls no more. -/
def driveStream (digest : List UInt8 → String) (object : LfsObject) :
    DriveStreamState → List DriveChunk → List (List UInt8) × Except DriveStreamError Unit
  | state, [] =>
    if state.finished then ([], .ok ())
    else match pollVerified digest object state none with
      | .error error => ([], .error error)
      | .ok _ => ([], .ok ())
  | state, chunk :: rest =>
    if state.finished then ([], .ok ())
    else match pollVerified digest object state (some chunk) with
      | .error error => ([], .error error)
      | .ok none => ([], .ok ())
      | .ok (some (forwarded, state)) =>
        let (later, result) := driveStream digest object state rest
        (forwarded :: later, result)

/-- The body of a download response. -/
def verifiedStream (digest : List UInt8 → String) (object : LfsObject) (body : DriveBody) :
    List (List UInt8) × Except DriveStreamError Unit :=
  driveStream digest object ⟨.new, 0, false⟩ body.chunks

/-- How the operations on a staging file fare. -/
structure StagingFileFaults where
  create : Option String
  /-- What the write of a chunk does, by the bytes that the file holds. -/
  write : ℕ → Option String
  flush : Option String
  seek : Option String

/-- Every operation succeeds. -/
def StagingFileFaults.none : StagingFileFaults := ⟨.none, fun _ => .none, .none, .none⟩

section Staging

variable (digest : List UInt8 → String) (storage : GoogleDriveStorageConfig) (object : LfsObject)
  (faults : StagingFileFaults)

/-- An operation of the staging file, with its message. -/
def stagingFileStep (label : String) : Option String → Except StorageError Unit
  | some source => .error (.retryable storage.id (label ++ source))
  | none => .ok ()

/-- `drive_download_staging_file_error`. -/
def stagingFileWrite : Option String → Except StorageError Unit :=
  stagingFileStep storage "Drive download staging file could not be written: "

/-- The loop of `verify_drive_download_response_to_tempfile`: the hasher, the number of bytes
and the contents of the file. -/
def stageChunks : List DriveChunk → Sha256 → ℕ → List UInt8 →
    Except StorageError (Sha256 × ℕ × List UInt8)
  | [], hasher, actualSize, file => .ok (hasher, actualSize, file)
  | .error message :: _, _, _, _ => .error (.retryable storage.id message)
  | .ok chunk :: rest, hasher, actualSize, file => do
    stagingFileWrite storage (faults.write file.length)
    stageChunks rest (hasher.update chunk) (actualSize + chunk.length) (file ++ chunk)

/-- The end of `verify_drive_download_response_to_tempfile`, once the loop is over. -/
def verifyStagedFile (hasher : Sha256) (actualSize : ℕ) (file : List UInt8) :
    Except StorageError (List UInt8) :=
  let actualOid := hasher.finalize digest
  if actualOid ≠ object.oid.hex ∨ actualSize ≠ object.size.toNat then
    .error (.integrityMismatch object.oid.hex object.size actualOid actualSize)
  else do
    stagingFileWrite storage faults.flush
    stagingFileWrite storage faults.seek
    return file

/-- `verify_drive_download_response_to_tempfile`: the contents of the verified file. -/
def verifyDriveDownloadResponseToTempfile (body : DriveBody) :
    Except StorageError (List UInt8) := do
  stagingFileStep storage "Drive download staging file could not be created: " faults.create
  let (hasher, actualSize, file) ← stageChunks storage faults body.chunks .new 0 []
  verifyStagedFile digest storage object faults hasher actualSize file

end Staging

/-- A response to a media request, before its body is read. -/
structure DriveMediaResponse where
  status : ℕ
  contentLength : Option UInt64
  /-- What the body of an error response says, where it can be read. -/
  diagnostic : Except String DriveDiagnostic
  body : DriveBody

/-- A request for the bytes of a file. -/
abbrev DriveMedia := String → Except String DriveMediaResponse

/-- A download response: the object, the length in its header and the stream of its body. -/
structure StorageDownloadResponse where
  storedObject : StoredObject
  contentLength : String
  body : List (List UInt8) × Except DriveStreamError Unit

/-- `parse_drive_download_error`. -/
def parseDriveDownloadError (storage : GoogleDriveStorageConfig) (object : LfsObject)
    (status : ℕ) (diagnostic : DriveDiagnostic) : StorageError :=
  match classifyCommonDriveError storage status diagnostic with
  | some error => error
  | none =>
    if status = 404 ∨ "notFound" ∈ diagnostic.reasons then
      .objectNotFound storage.id object.oid.hex object.size
    else if status = 409 then .conflict storage.id object.oid.hex
    else .upstream storage.id (some status) diagnostic.message

/-- The media request of a download, up to its body. -/
def requestMedia (storage : GoogleDriveStorageConfig) (media : DriveMedia) (object : LfsObject)
    (backendId : String) : Except StorageError DriveBody := do
  requireDriveIdentifier backendId "file ID"
  match media backendId with
  | .error message => .error (.retryable storage.id message)
  | .ok response =>
    if isSuccess response.status then
      match response.contentLength with
      | none => .error (.upstream storage.id none
          "Google Drive download response omitted Content-Length")
      | some actualSize =>
        if actualSize ≠ object.size then
          .error (.upstream storage.id none
            ("Google Drive download response Content-Length " ++ toString actualSize ++
              " did not match requested size " ++ toString object.size))
        else .ok response.body
    else match response.diagnostic with
      | .error message => .error (.retryable storage.id message)
      | .ok diagnostic =>
        .error (parseDriveDownloadError storage object response.status diagnostic)

namespace GoogleDriveObjectStore

variable (digest : List UInt8 → String) (store : GoogleDriveObjectStore) (media : DriveMedia)
  (object : LfsObject)

/-- `ensure_repository_namespace`. -/
def ensureRepositoryNamespace (repositoryNamespace : String) : Except StorageError Unit :=
  if store.repoNamespace = repositoryNamespace then .ok ()
  else .error (.repositoryNamespaceMismatch store.storage.id)

/-- `download_object_response_for_stored_object`. -/
def downloadObjectResponseForStoredObject (storedObject : StoredObject) :
    Except StorageError StorageDownloadResponse := do
  store.ensureRepositoryNamespace storedObject.repositoryNamespace
  if storedObject.providerId ≠ store.storage.id ∨ storedObject.object ≠ object then
    .error (.conflict store.storage.id object.oid.hex)
  else
    let body ← requestMedia store.storage media object storedObject.backendId
    return ⟨storedObject, toString object.size, verifiedStream digest object body⟩

/-- The object of a lookup, where there is one. -/
def requireObject (lookup : Except StorageError (Option StoredObject)) :
    Except StorageError StoredObject :=
  match lookup with
  | .error error => .error error
  | .ok none => .error (.objectNotFound store.storage.id object.oid.hex object.size)
  | .ok (some storedObject) => .ok storedObject

/-- `download_object_response`, given what `lookup_object` returns. -/
def downloadObjectResponse (lookup : Except StorageError (Option StoredObject)) :
    Except StorageError StorageDownloadResponse := do
  let storedObject ← store.requireObject object lookup
  store.downloadObjectResponseForStoredObject digest media object storedObject

/-- `download_object_to_verified_file`, given what `lookup_object` returns. -/
def downloadObjectToVerifiedFile (faults : StagingFileFaults)
    (lookup : Except StorageError (Option StoredObject)) :
    Except StorageError (StoredObject × List UInt8) := do
  let storedObject ← store.requireObject object lookup
  let body ← requestMedia store.storage media object storedObject.backendId
  let file ← verifyDriveDownloadResponseToTempfile digest store.storage object faults body
  return (storedObject, file)

end GoogleDriveObjectStore

section Verification

variable {digest : List UInt8 → String} {storage : GoogleDriveStorageConfig} {object : LfsObject}

/-- The state of a stream that has forwarded the given bytes. -/
def DriveStreamState.after (forwarded : List UInt8) : DriveStreamState :=
  ⟨⟨forwarded⟩, forwarded.length, false⟩

/-- What a stream does that has forwarded some bytes already and still gets the chunks. -/
structure StreamsRest (digest : List UInt8 → String) (object : LfsObject)
    (forwarded : List UInt8) (chunks : List DriveChunk) : Prop where
  prefix_received : (driveStream digest object (.after forwarded) chunks).1.flatten <+:
    receivedBytes chunks
  le_size : (forwarded ++
    (driveStream digest object (.after forwarded) chunks).1.flatten).length ≤ object.size.toNat
  ends_iff : (driveStream digest object (.after forwarded) chunks).2 = .ok () ↔
    arrivesWhole chunks = true ∧
      (forwarded ++ receivedBytes chunks).length = object.size.toNat ∧
      digest (forwarded ++ receivedBytes chunks) = object.oid.hex
  all_of_ends : (driveStream digest object (.after forwarded) chunks).2 = .ok () →
    (driveStream digest object (.after forwarded) chunks).1.flatten = receivedBytes chunks

/-- At the end of the body the stream checks the size and the digest. -/
theorem streamsRest_nil {forwarded : List UInt8} (hsize : forwarded.length ≤ object.size.toNat) :
    StreamsRest digest object forwarded [] := by
  have hrun : driveStream digest object (.after forwarded) [] =
      ([], if forwarded.length ≠ object.size.toNat ∨ digest forwarded ≠ object.oid.hex then
        .error .integrity else .ok ()) := by
    have hpoll : pollVerified digest object (.after forwarded) none =
        if forwarded.length ≠ object.size.toNat ∨ digest forwarded ≠ object.oid.hex then
          .error .integrity else .ok none := rfl
    have hfinished : (DriveStreamState.after forwarded).finished = false := rfl
    rw [driveStream, hfinished, if_neg Bool.false_ne_true, hpoll]
    by_cases hbad : forwarded.length ≠ object.size.toNat ∨ digest forwarded ≠ object.oid.hex
    · rw [if_pos hbad, if_pos hbad]
    · rw [if_neg hbad, if_neg hbad]
  constructor
  · simp [hrun]
  · simpa [hrun] using hsize
  · rw [hrun]
    simp only [arrivesWhole, receivedBytes, List.all_nil, List.append_nil, true_and]
    split
    next hbad => simp only [reduceCtorEq, false_iff]; tauto
    next hgood => simp only [true_iff]; tauto
  · simp [hrun, receivedBytes]

/-- A failed read ends the stream with a failure. -/
theorem streamsRest_error {forwarded : List UInt8} {message : String} {rest : List DriveChunk}
    (hsize : forwarded.length ≤ object.size.toNat) :
    StreamsRest digest object forwarded (.error message :: rest) := by
  have hrun : driveStream digest object (.after forwarded) (.error message :: rest) =
      ([], .error .failed) := by
    simp [driveStream, DriveStreamState.after, pollVerified]
  constructor
  · simp [hrun]
  · simpa [hrun] using hsize
  · simp [hrun, arrivesWhole, Except.isOk, Except.toBool]
  · simp [hrun]

variable (digest) in
/-- A chunk that fits is forwarded, and the rest of the stream follows it. -/
theorem driveStream_fits {forwarded chunk : List UInt8} (rest : List DriveChunk)
    (hcounted : (forwarded ++ chunk).length < u64Size)
    (hfits : (forwarded ++ chunk).length ≤ object.size.toNat) :
    driveStream digest object (.after forwarded) (.ok chunk :: rest) =
      (chunk :: (driveStream digest object (.after (forwarded ++ chunk)) rest).1,
        (driveStream digest object (.after (forwarded ++ chunk)) rest).2) := by
  have hadd : saturatingAdd forwarded.length chunk.length = (forwarded ++ chunk).length := by
    rw [List.length_append] at hcounted ⊢
    unfold saturatingAdd
    omega
  simp only [driveStream, DriveStreamState.after, pollVerified, Sha256.update, hadd]
  rw [if_neg (by simp), if_neg (by omega)]

variable (digest) in
/-- A chunk that does not fit is not forwarded. -/
theorem driveStream_exceeds {forwarded chunk : List UInt8} (rest : List DriveChunk)
    (hcounted : (forwarded ++ chunk).length < u64Size)
    (hexceeds : object.size.toNat < (forwarded ++ chunk).length) :
    driveStream digest object (.after forwarded) (.ok chunk :: rest) =
      ([], .error .exceeded) := by
  have hadd : saturatingAdd forwarded.length chunk.length = (forwarded ++ chunk).length := by
    rw [List.length_append] at hcounted ⊢
    unfold saturatingAdd
    omega
  simp only [driveStream, DriveStreamState.after, pollVerified, Sha256.update, hadd]
  rw [if_neg (by simp), if_pos hexceeds]

theorem streamsRest {forwarded : List UInt8} {chunks : List DriveChunk}
    (hcounted : (forwarded ++ receivedBytes chunks).length < u64Size)
    (hsize : forwarded.length ≤ object.size.toNat) :
    StreamsRest digest object forwarded chunks := by
  induction chunks generalizing forwarded with
  | nil => exact streamsRest_nil hsize
  | cons chunk rest ih =>
    cases chunk with
    | error message => exact streamsRest_error hsize
    | ok chunk =>
      have happend : forwarded ++ receivedBytes (.ok chunk :: rest) =
          (forwarded ++ chunk) ++ receivedBytes rest := by
        simp [receivedBytes]
      have hwhole : arrivesWhole (.ok chunk :: rest) = arrivesWhole rest := by
        simp [arrivesWhole, Except.isOk, Except.toBool]
      rw [happend] at hcounted
      have hhead : (forwarded ++ chunk).length < u64Size := by
        rw [List.length_append] at hcounted
        omega
      by_cases hfits : (forwarded ++ chunk).length ≤ object.size.toNat
      · have hrest := ih hcounted hfits
        have hrun := driveStream_fits digest rest hhead hfits
        constructor
        · rw [hrun]
          simpa [receivedBytes] using hrest.prefix_received
        · rw [hrun]
          simpa using hrest.le_size
        · rw [hrun, happend, hwhole]
          exact hrest.ends_iff
        · rw [hrun]
          intro hends
          simpa [receivedBytes] using hrest.all_of_ends hends
      · have hexceeds : object.size.toNat < (forwarded ++ chunk).length := by omega
        have hrun := driveStream_exceeds digest rest hhead hexceeds
        constructor
        · simp [hrun]
        · simpa [hrun] using hsize
        · rw [hrun, happend]
          simp only [reduceCtorEq, false_iff]
          rintro ⟨_, hlength, _⟩
          rw [List.length_append] at hlength
          omega
        · simp [hrun]

/-- The loop over a staging file that takes every write keeps all the bytes. -/
theorem stageChunks_eq_ok {faults : StagingFileFaults} {chunks : List DriveChunk}
    {staged : List UInt8} {result : Sha256 × ℕ × List UInt8}
    (hok : stageChunks storage faults chunks ⟨staged⟩ staged.length staged = .ok result) :
    arrivesWhole chunks = true ∧ result = (⟨staged ++ receivedBytes chunks⟩,
      (staged ++ receivedBytes chunks).length, staged ++ receivedBytes chunks) := by
  induction chunks generalizing staged with
  | nil =>
    simp only [stageChunks, Except.ok.injEq] at hok
    simp [arrivesWhole, receivedBytes, ← hok]
  | cons chunk rest ih =>
    cases chunk with
    | error message => cases hok
    | ok chunk =>
      simp only [stageChunks] at hok
      obtain ⟨_, _, hok⟩ := except_bind_eq_ok hok
      have hnext : stageChunks storage faults rest ⟨staged ++ chunk⟩ (staged ++ chunk).length
          (staged ++ chunk) = .ok result := by
        simpa [Sha256.update] using hok
      obtain ⟨hwhole, hresult⟩ := ih hnext
      constructor
      · simpa [arrivesWhole, Except.isOk, Except.toBool] using hwhole
      · simpa [receivedBytes] using hresult

variable (storage) in
/-- Where the staging file takes every write, the loop ends if the body arrives whole. -/
theorem stageChunks_none {chunks : List DriveChunk} (staged : List UInt8)
    (hwhole : arrivesWhole chunks = true) :
    ∃ result, stageChunks storage .none chunks ⟨staged⟩ staged.length staged = .ok result := by
  induction chunks generalizing staged with
  | nil => exact ⟨_, rfl⟩
  | cons chunk rest ih =>
    cases chunk with
    | error message => simp [arrivesWhole, Except.isOk, Except.toBool] at hwhole
    | ok chunk =>
      have hrest : arrivesWhole rest = true := by
        simpa [arrivesWhole, Except.isOk, Except.toBool] using hwhole
      obtain ⟨result, hresult⟩ := ih (staged ++ chunk) hrest
      refine ⟨result, ?_⟩
      rw [List.length_append] at hresult
      exact hresult

/-- A staged file that passes has the size and the digest of the object. -/
theorem verifyStagedFile_eq_ok {faults : StagingFileFaults} {staged file : List UInt8}
    (hok : verifyStagedFile digest storage object faults ⟨staged⟩ staged.length staged =
      .ok file) :
    file = staged ∧ staged.length = object.size.toNat ∧ digest staged = object.oid.hex := by
  by_cases hbad : digest staged ≠ object.oid.hex ∨ staged.length ≠ object.size.toNat
  · have herror : verifyStagedFile digest storage object faults ⟨staged⟩ staged.length staged =
        .error (.integrityMismatch object.oid.hex object.size (digest staged) staged.length) :=
      if_pos hbad
    rw [herror] at hok
    cases hok
  · have hwrites : verifyStagedFile digest storage object faults ⟨staged⟩ staged.length staged =
        (do
          stagingFileWrite storage faults.flush
          stagingFileWrite storage faults.seek
          return staged) := if_neg hbad
    rw [hwrites] at hok
    rw [not_or, not_not, not_not] at hbad
    obtain ⟨_, _, hok⟩ := except_bind_eq_ok hok
    obtain ⟨_, _, hok⟩ := except_bind_eq_ok hok
    cases hok
    exact ⟨rfl, hbad.2, hbad.1⟩

/-- A verified file has every byte of the body, with the size and the digest of the object. -/
theorem verifiedFile_eq {faults : StagingFileFaults} {body : DriveBody} {file : List UInt8}
    (hok : verifyDriveDownloadResponseToTempfile digest storage object faults body = .ok file) :
    arrivesWhole body.chunks = true ∧ file = receivedBytes body.chunks ∧
      (receivedBytes body.chunks).length = object.size.toNat ∧
      digest (receivedBytes body.chunks) = object.oid.hex := by
  unfold verifyDriveDownloadResponseToTempfile at hok
  obtain ⟨_, _, hok⟩ := except_bind_eq_ok hok
  obtain ⟨result, hstage, hok⟩ := except_bind_eq_ok hok
  obtain ⟨hwhole, rfl⟩ := stageChunks_eq_ok hstage
  exact ⟨hwhole, verifyStagedFile_eq_ok hok⟩

/-- Where the staging file does not fail, a body with the size and the digest is verified. -/
theorem verifiedFile_of_whole {body : DriveBody} (hwhole : arrivesWhole body.chunks = true)
    (hsize : (receivedBytes body.chunks).length = object.size.toNat)
    (hdigest : digest (receivedBytes body.chunks) = object.oid.hex) :
    verifyDriveDownloadResponseToTempfile digest storage object .none body =
      .ok (receivedBytes body.chunks) := by
  obtain ⟨result, hstage⟩ := stageChunks_none storage [] hwhole
  obtain ⟨_, rfl⟩ := stageChunks_eq_ok hstage
  have hgood : ¬(digest (receivedBytes body.chunks) ≠ object.oid.hex ∨
      (receivedBytes body.chunks).length ≠ object.size.toNat) := by
    simp [hsize, hdigest]
  have hverify : verifyStagedFile digest storage object .none ⟨receivedBytes body.chunks⟩
      (receivedBytes body.chunks).length (receivedBytes body.chunks) =
        .ok (receivedBytes body.chunks) := by
    unfold verifyStagedFile
    simp only [Sha256.finalize]
    exact if_neg hgood
  calc verifyDriveDownloadResponseToTempfile digest storage object .none body
      = (stageChunks storage .none body.chunks ⟨[]⟩ ([] : List UInt8).length [] >>=
          fun staged => verifyStagedFile digest storage object .none staged.1 staged.2.1
            staged.2.2) := rfl
    _ = .ok (receivedBytes body.chunks) := by rw [hstage]; exact hverify

/-- What a verified stream promises, next to the download into a file. -/
structure StreamedDownload (digest : List UInt8 → String) (storage : GoogleDriveStorageConfig)
    (object : LfsObject) (body : DriveBody) : Prop where
  prefix_received :
    (verifiedStream digest object body).1.flatten <+: receivedBytes body.chunks
  le_size : (verifiedStream digest object body).1.flatten.length ≤ object.size.toNat
  ends_iff : (verifiedStream digest object body).2 = .ok () ↔
    arrivesWhole body.chunks = true ∧
      (receivedBytes body.chunks).length = object.size.toNat ∧
      digest (receivedBytes body.chunks) = object.oid.hex
  /-- The stream ends well where a staging file that does not fail is verified. -/
  same_outcome : (verifiedStream digest object body).2 = .ok () ↔
    ∃ file, verifyDriveDownloadResponseToTempfile digest storage object .none body = .ok file
  same_bytes : ∀ faults file,
    verifyDriveDownloadResponseToTempfile digest storage object faults body = .ok file →
    (verifiedStream digest object body).2 = .ok () ∧
      (verifiedStream digest object body).1.flatten = file

theorem streamedDownload (digest : List UInt8 → String)
    (storage : GoogleDriveStorageConfig) (object : LfsObject) (body : DriveBody) :
    StreamedDownload digest storage object body := by
  have hstream : StreamsRest digest object [] body.chunks :=
    streamsRest (by simpa using body.counted) (Nat.zero_le _)
  have hends : (verifiedStream digest object body).2 = .ok () ↔
      arrivesWhole body.chunks = true ∧
        (receivedBytes body.chunks).length = object.size.toNat ∧
        digest (receivedBytes body.chunks) = object.oid.hex := hstream.ends_iff
  constructor
  · exact hstream.prefix_received
  · exact hstream.le_size
  · exact hends
  · rw [hends]
    constructor
    · rintro ⟨hwhole, hsize, hdigest⟩
      exact ⟨_, verifiedFile_of_whole hwhole hsize hdigest⟩
    · rintro ⟨file, hfile⟩
      obtain ⟨hwhole, rfl, hsize, hdigest⟩ := verifiedFile_eq hfile
      exact ⟨hwhole, hsize, hdigest⟩
  · intro faults file hfile
    obtain ⟨hwhole, rfl, hsize, hdigest⟩ := verifiedFile_eq hfile
    have hok := hends.mpr ⟨hwhole, hsize, hdigest⟩
    exact ⟨hok, hstream.all_of_ends hok⟩

section Responses

variable {store : GoogleDriveObjectStore} {media : DriveMedia}
  {lookup : Except StorageError (Option StoredObject)} {response : StorageDownloadResponse}

/-- A download response is of the object that was found, with the verified stream of the body
that the media request yields. -/
theorem downloadObjectResponse_eq_ok
    (hok : store.downloadObjectResponse digest media object lookup = .ok response) :
    ∃ body, store.requireObject object lookup = .ok response.storedObject ∧
      requestMedia store.storage media object response.storedObject.backendId = .ok body ∧
      response.storedObject.object = object ∧
      response.body = verifiedStream digest object body := by
  obtain ⟨storedObject, hstored, hok⟩ := except_bind_eq_ok hok
  obtain ⟨_, _, hok⟩ := except_bind_eq_ok hok
  by_cases hconflict : storedObject.providerId ≠ store.storage.id ∨ storedObject.object ≠ object
  · rw [if_pos hconflict] at hok
    cases hok
  · rw [if_neg hconflict] at hok
    obtain ⟨body, hmedia, hok⟩ := except_bind_eq_ok hok
    rw [not_or, not_not, not_not] at hconflict
    cases hok
    exact ⟨body, hstored, hmedia, hconflict.2, rfl⟩

/-- A response that is sent ends well where the download of the same object into a file does. -/
theorem downloadObjectResponse_ends_iff
    (hok : store.downloadObjectResponse digest media object lookup = .ok response) :
    response.body.2 = .ok () ↔
      ∃ file, store.downloadObjectToVerifiedFile digest media object .none lookup =
        .ok (response.storedObject, file) := by
  obtain ⟨body, hstored, hmedia, _, hbody⟩ := downloadObjectResponse_eq_ok hok
  have hfile : store.downloadObjectToVerifiedFile digest media object .none lookup =
      (verifyDriveDownloadResponseToTempfile digest store.storage object .none body >>=
        fun file => pure (response.storedObject, file)) := by
    unfold GoogleDriveObjectStore.downloadObjectToVerifiedFile
    rw [hstored]
    change (requestMedia store.storage media object response.storedObject.backendId >>= _) = _
    rw [hmedia]
    rfl
  rw [hbody, hfile, (streamedDownload digest store.storage object body).same_outcome]
  constructor
  · rintro ⟨file, hfile⟩
    exact ⟨file, by rw [hfile]; rfl⟩
  · rintro ⟨file, hfile⟩
    obtain ⟨staged, hstaged, _⟩ := except_bind_eq_ok hfile
    exact ⟨staged, hstaged⟩

end Responses

/-- For every body, the stream forwards part of it, and ends well where the whole body is the
object, as the download into a file does. -/
theorem streamed_download_verified (digest : List UInt8 → String)
    (storage : GoogleDriveStorageConfig) (object : LfsObject) (body : DriveBody) :
    StreamedDownload digest storage object body :=
  streamedDownload digest storage object body

end Verification

end LfsCloud
