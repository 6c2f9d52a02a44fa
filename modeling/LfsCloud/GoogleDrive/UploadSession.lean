import LfsCloud.GoogleDrive.Upload

/-!
# Upload sessions

What an upload sends, whatever the session answers: slices of the file at an offset that
only grows, a bounded number of requests at each, and a success that rests on the
metadata of the uploaded file. Where the session stores what it accepts, a success means
that it has stored the file.
-/

namespace LfsCloud

open Transition Interaction

/-- What an upload has read and sent so far, the latest first, and what the session has
stored. -/
structure DriveState where
  /-- Offset and length of each chunk read. -/
  reads : List (ℕ × ℕ)
  exchanges : List (DriveUploadRequest × DriveSend)
  stored : List UInt8

/-- The requests so far, the latest first. -/
def DriveState.requests (s : DriveState) : List DriveUploadRequest := s.exchanges.map Prod.fst

/-- How a session may answer a request, and what it then has stored. -/
abbrev DriveSession := List UInt8 → DriveUploadRequest → DriveSend → List UInt8 → Prop

/-- The calls of an upload of a file to a session. -/
def driveOp (file : List UInt8) (session : DriveSession) :
    Semantics driveInterface DriveState Unit := fun _ s call answer t =>
  match call, answer with
  | .readChunk offset length, some chunk =>
    chunk = (file.drop offset).take length ∧ chunk.length = length ∧
      t = { s with reads := (offset, length) :: s.reads }
  | .readChunk offset length, none => t = { s with reads := (offset, length) :: s.reads }
  | .put _ request, send =>
    ∃ stored, session s.stored request send stored ∧
      t = { s with exchanges := (request, send) :: s.exchanges, stored := stored }
  | .uploadParentFolderId _, _ => t = s
  | .initiate _ _, _ => t = s

/-- The answer reports that the upload is complete. -/
def DriveSend.IsComplete : DriveSend → Prop
  | .response answer => answer.status = 200 ∨ answer.status = 201
  | _ => False

/-- A session that stores exactly the bytes of the ranges it accepts: of a range that leaves
no gap it may accept any part from the front, of other requests nothing. It reports
completion only once it has the announced number of bytes. -/
def StoresAccepted (totalSize : ℕ) : DriveSession := fun stored request send stored' =>
  (stored' = stored ∨ ∃ first last total accepted,
    request.contentRange = some (.bytes first last total) ∧ first ≤ stored.length ∧
      accepted ≤ request.body.length ∧
        stored' = stored.take first ++ request.body.take accepted ++
          stored.drop (first + accepted)) ∧
    (send.IsComplete → stored'.length = totalSize)

/-- The offset of the data in a request; a status probe has none. -/
def DriveUploadRequest.dataOffset (request : DriveUploadRequest) : Option ℕ :=
  match request.contentRange with
  | some (.bytes first _ _) => some first
  | some (.unsatisfied _) => none
  | none => some 0

/-- The offset an upload stands at: that of the latest data it has sent. -/
def currentOffset : List DriveUploadRequest → ℕ
  | [] => 0
  | request :: earlier => request.dataOffset.getD (currentOffset earlier)

/-- The offset at which each request was sent. -/
def requestOffsets : List DriveUploadRequest → List ℕ
  | [] => []
  | request :: earlier => currentOffset (request :: earlier) :: requestOffsets earlier

/-- The requests of an upload of a file: a nonempty slice with the range that names it, the
empty file without a range, or a status probe without a body. -/
inductive SendsSlice (file : List UInt8) : DriveUploadRequest → Prop
  | slice (first last : ℕ) (hfirst : first ≤ last) (hlast : last < file.length) :
      SendsSlice file ⟨last - first + 1, some (.bytes first last file.length),
        (file.drop first).take (last - first + 1)⟩
  | empty (hfile : file = []) : SendsSlice file ⟨0, none, []⟩
  | probe : SendsSlice file ⟨0, some (.unsatisfied file.length), []⟩

/-- What holds of an upload at every moment. -/
structure UploadSound (file : List UInt8) (s : DriveState) : Prop where
  /-- Reads stay within the file, and only the read of an empty rest is empty. -/
  reads : ∀ read ∈ s.reads, read.1 ≤ file.length ∧
    read.2 = min (file.length - read.1) googleDriveResumableUploadChunkSize
  /-- Requests carry what they name. -/
  sends : ∀ exchange ∈ s.exchanges, SendsSlice file exchange.1
  /-- The offset never decreases, -/
  monotone : (requestOffsets s.requests).Pairwise fun later earlier =>
    earlier ≤ later
  /-- stays within the file, -/
  bounded : ∀ offset ∈ requestOffsets s.requests, offset ≤ file.length
  /-- and is left after five requests at the latest. -/
  atMost : ∀ offset, (requestOffsets s.requests).count offset ≤
    googleDriveResumableUploadMaxRecoveryAttempts + 1

/-- A success rests on the answer to the last request: it reports completion, with a file
resource that describes the object. -/
def UploadCompleted (sha256Hex : String → String) (storage : GoogleDriveStorageConfig)
    (key : GoogleDriveObjectKey) (stored : StoredObject) (s : DriveState) : Prop :=
  ∃ request response earlier file diagnostic,
    s.exchanges = (request, .response response) :: earlier ∧
      (response.status = 200 ∨ response.status = 201) ∧
        response.body = .text (some file) diagnostic ∧
          DescribesObject sha256Hex storage key file stored

section

variable {file : List UInt8} {s : DriveState}

/-- The upload has sent nothing from beyond an offset, and at most `n` requests from it. -/
def AtOffset (offset n : ℕ) (s : DriveState) : Prop :=
  (∀ o ∈ requestOffsets s.requests, o ≤ offset) ∧ (requestOffsets s.requests).count offset ≤ n

/-- The upload has sent at most `n` requests from the offset it stands at. -/
def StandsAt (offset n : ℕ) (s : DriveState) : Prop :=
  currentOffset s.requests = offset ∧ AtOffset offset n s

/-- Nothing was sent from an offset beyond those so far. -/
theorem AtOffset.advance {offset offset' n : ℕ} (h : AtOffset offset n s)
    (hless : offset < offset') : AtOffset offset' 0 s := by
  refine ⟨fun o ho => (h.1 o ho).trans hless.le, ?_⟩
  rw [List.count_eq_zero_of_not_mem]
  intro hmem
  have := h.1 _ hmem
  omega

/-- A request from the offset, while requests are left for it. -/
theorem UploadSound.exchange {offset n : ℕ} {request : DriveUploadRequest} (send : DriveSend)
    (stored : List UInt8) (hs : UploadSound file s) (hat : AtOffset offset n s)
    (hn : n ≤ googleDriveResumableUploadMaxRecoveryAttempts) (hbound : offset ≤ file.length)
    (hsends : SendsSlice file request)
    (hoffset : request.dataOffset.getD (currentOffset s.requests) = offset) :
    UploadSound file { s with exchanges := (request, send) :: s.exchanges, stored := stored } ∧
      StandsAt offset (n + 1)
        { s with exchanges := (request, send) :: s.exchanges, stored := stored } := by
  have hoffsets : requestOffsets (request :: s.requests) =
      offset :: requestOffsets s.requests := by
    rw [requestOffsets, currentOffset, hoffset]
  have hcount : (requestOffsets (request :: s.requests)).count offset ≤ n + 1 := by
    rw [hoffsets, List.count_cons_self]
    have := hat.2
    omega
  refine ⟨⟨hs.reads, ?_, ?_, ?_, ?_⟩, hoffset, ?_, hcount⟩
  · exact List.forall_mem_cons.mpr ⟨hsends, hs.sends⟩
  · change (requestOffsets (request :: s.requests)).Pairwise _
    rw [hoffsets]
    exact List.pairwise_cons.mpr ⟨hat.1, hs.monotone⟩
  · change ∀ o ∈ requestOffsets (request :: s.requests), o ≤ file.length
    rw [hoffsets]
    exact List.forall_mem_cons.mpr ⟨hbound, hs.bounded⟩
  · intro o
    change (requestOffsets (request :: s.requests)).count o ≤ _
    by_cases ho : o = offset
    · subst ho
      omega
    · rw [hoffsets, List.count_cons_of_ne (Ne.symm ho)]
      exact hs.atMost o
  · change ∀ o ∈ requestOffsets (request :: s.requests), o ≤ offset
    rw [hoffsets]
    exact List.forall_mem_cons.mpr ⟨le_refl offset, hat.1⟩

/-- A session that stores what it accepts keeps a part of the file from the front. -/
theorem StoresAccepted.front {totalSize : ℕ} {stored stored' : List UInt8}
    {request : DriveUploadRequest} {send : DriveSend}
    (h : StoresAccepted totalSize stored request send stored')
    (hsends : SendsSlice file request) (hpre : stored <+: file) : stored' <+: file := by
  obtain ⟨rfl | ⟨first, last, total, accepted, hrange, hfirst, haccepted, rfl⟩, _⟩ := h
  · exact hpre
  have hstored : stored = file.take stored.length := List.prefix_iff_eq_take.mp hpre
  have hbody : request.body.take accepted = (file.drop first).take accepted := by
    cases hsends with
    | slice first' last' hle hlast =>
      obtain ⟨rfl, rfl, rfl⟩ : first' = first ∧ last' = last ∧ file.length = total := by
        simpa using hrange
      simp only [List.length_take, List.length_drop] at haccepted
      rw [List.take_take, min_eq_left (by omega)]
    | empty hfile => cases hrange
    | probe => cases hrange
  have hhead : stored.take first = file.take first := by
    rw [hstored, List.take_take, min_eq_left hfirst]
  have hjoin : stored.take first ++ request.body.take accepted = file.take (first + accepted) := by
    rw [hhead, hbody, List.take_add]
  rw [hjoin]
  by_cases hlonger : stored.length ≤ first + accepted
  · rw [List.drop_eq_nil_of_le hlonger, List.append_nil]
    exact List.take_prefix _ _
  · have hsplit : file.take (first + accepted) = stored.take (first + accepted) := by
      rw [hstored, List.take_take, min_eq_left (by omega)]
    rw [hsplit, List.take_append_drop]
    exact hpre

end

section Responses

variable {sha256Hex : String → String} {storage : GoogleDriveStorageConfig}
  {key : GoogleDriveObjectKey}

/-- A committed offset lies before the end, or nothing is committed. -/
theorem parseDriveResumableUploadOffset_ok {range : Option (Option String)}
    {totalSize maximum offset : ℕ}
    (h : parseDriveResumableUploadOffset storage range totalSize maximum = .ok offset) :
    offset < totalSize ∨ offset = 0 := by
  unfold parseDriveResumableUploadOffset at h
  repeat' split at h
  all_goals cases h
  · exact .inr rfl
  · left
    omega

/-- What an answer that makes progress says. -/
theorem uploadProgress_ok {maximum : ℕ} {send : DriveSend}
    {progress : DriveResumableUploadProgress}
    (h : uploadProgress storage key (key.expectedAppProperties sha256Hex) maximum send =
      .ok progress) :
    (∃ offset, progress = .incomplete offset ∧
      (offset < key.object.size.toNat ∨ offset = 0)) ∨
    ∃ stored response file diagnostic, progress = .complete stored ∧
      send = .response response ∧ (response.status = 200 ∨ response.status = 201) ∧
        response.body = .text (some file) diagnostic ∧
          DescribesObject sha256Hex storage key file stored := by
  cases send with
  | transport message => cases h
  | idle => cases h
  | response response =>
    change parseDriveResumableUploadResponse storage key _ response maximum = _ at h
    unfold parseDriveResumableUploadResponse at h
    split at h
    · cases hparse : parseDriveResumableUploadOffset storage response.range
        key.object.size.toNat maximum with
      | error e =>
        rw [hparse] at h
        cases h
      | ok offset =>
        rw [hparse] at h
        cases h
        exact .inl ⟨offset, rfl, parseDriveResumableUploadOffset_ok hparse⟩
    · cases hbody : response.body with
      | stalled =>
        rw [hbody] at h
        cases h
      | transport message =>
        rw [hbody] at h
        cases h
      | text file diagnostic =>
        rw [hbody] at h
        change (if _ then _ else _) = _ at h
        split at h
        swap
        · cases h
        next hstatus =>
        cases file with
        | none => cases h
        | some file =>
          change (verifyDriveObjectFile _ _ _ _ _).map _ = _ at h
          cases hverify : verifyDriveObjectFile storage key (key.expectedAppProperties sha256Hex)
              response.status file with
          | error e =>
            rw [hverify] at h
            cases h
          | ok stored =>
            rw [hverify] at h
            cases h
            exact .inr ⟨stored, response, file, diagnostic, rfl, rfl, hstatus, hbody,
              describesObject_of_verified hverify⟩

end Responses

section Requests

variable {file : List UInt8}

/-- The request for a chunk of the file carries the slice that it names. -/
theorem chunkRequest_sends {offset length : ℕ} {chunk : List UInt8}
    (hoffset : offset < file.length ∨ offset = 0) (hfile : file.length < u64Size)
    (hlength : length = min (file.length - offset) googleDriveResumableUploadChunkSize)
    (hchunk : chunk = (file.drop offset).take length) :
    SendsSlice file (chunkRequest offset file.length chunk) ∧
      (chunkRequest offset file.length chunk).dataOffset = some offset := by
  have hsize : chunk.length = length := by
    rw [hchunk, List.length_take, List.length_drop]
    omega
  have hadd : checkedAdd offset chunk.length = some (offset + length) := by
    rw [hsize, checkedAdd_eq_some]
    omega
  by_cases hempty : file.length = 0
  · obtain rfl : offset = 0 := by omega
    obtain rfl : length = 0 := by omega
    have hnil : file = [] := List.length_eq_zero_iff.mp hempty
    have hrequest : chunkRequest 0 file.length chunk = ⟨0, none, []⟩ := by
      unfold chunkRequest
      rw [hadd, hchunk]
      rfl
    rw [hrequest]
    exact ⟨.empty hnil, rfl⟩
  · have hpos : 0 < length := by
      unfold googleDriveResumableUploadChunkSize at hlength
      omega
    have hsub : checkedSub (offset + length) 1 = some (offset + length - 1) := by
      rw [checkedSub_eq_some]
      omega
    have hrequest : chunkRequest offset file.length chunk =
        ⟨offset + length - 1 - offset + 1,
          some (.bytes offset (offset + length - 1) file.length), chunk⟩ := by
      unfold chunkRequest
      rw [hadd, Option.bind_some, hsub]
    have hwidth : offset + length - 1 - offset + 1 = length := by omega
    have hslice : SendsSlice file _ := .slice offset (offset + length - 1) (by omega) (by omega)
    rw [hwidth, ← hchunk] at hslice
    rw [hrequest, hwidth]
    exact ⟨hslice, rfl⟩

end Requests

/-- The invariant: the upload is sound, and a session that stores what it accepts has stored
the front of the file. -/
structure UploadInvariant (file : List UInt8) (session : DriveSession) (s : DriveState) :
    Prop where
  sound : UploadSound file s
  front : (∀ stored request send stored', session stored request send stored' →
    StoresAccepted file.length stored request send stored') → s.stored <+: file

section Rules

variable {sha256Hex : String → String} {storage : GoogleDriveStorageConfig}
  {key : GoogleDriveObjectKey} {sessionUrl : String} {file : List UInt8} {session : DriveSession}

/-- What the upload knows after progress: the next offset lies before the end of the file,
or the object is complete. -/
def Progressed (sha256Hex : String → String) (storage : GoogleDriveStorageConfig)
    (key : GoogleDriveObjectKey) (file : List UInt8) (session : DriveSession) :
    DriveResumableUploadProgress → DriveState → Prop
  | .incomplete offset => fun _ => offset < file.length ∨ offset = 0
  | .complete stored => fun s => UploadCompleted sha256Hex storage key stored s ∧
      ((∀ stored request send stored', session stored request send stored' →
        StoresAccepted file.length stored request send stored') → s.stored = file)

/-- A single upload on its own. -/
abbrev DriveVerified {α : Type} (file : List UInt8) (session : DriveSession)
    (Q : α → DriveState → Prop) (p : Prog driveInterface α) (P : DriveState → Prop) : Prop :=
  Verified (driveOp file session) (UploadInvariant file session) (fun _ _ _ => True) () Q p P

/-- A single call; nobody else takes part. -/
theorem DriveVerified.request (c : DriveCall) {P : DriveState → Prop}
    {Q : driveInterface.Answer c → DriveState → Prop}
    (h : ∀ s answer t, UploadInvariant file session s → P s →
      driveOp file session () s c answer t → UploadInvariant file session t ∧ Q answer t) :
    DriveVerified file session Q (Interaction.request (F := driveInterface) c) P := by
  refine Verified.request (fun answer => Stable.of_subsingleton (Q answer)) ?_
  intro s answer t hs hP hop
  obtain ⟨ht, hQ⟩ := h s answer t hs hP hop
  exact ⟨ht, trivial, hQ⟩

/-- A chunk is a slice of the file at the offset. -/
theorem readDriveUploadChunk_verified {offset n : ℕ} (hoffset : offset ≤ file.length) :
    DriveVerified file session
      (Outcome (fun chunk s => chunk = (file.drop offset).take
        (min (file.length - offset) googleDriveResumableUploadChunkSize) ∧ AtOffset offset n s)
          fun _ => True)
        (readDriveUploadChunk storage offset file.length).run (AtOffset offset n) := by
  have hread : DriveVerified file session
      (fun answer s => AtOffset offset n s ∧ ∀ chunk, answer = some chunk →
        chunk = (file.drop offset).take
          (min (file.length - offset) googleDriveResumableUploadChunkSize))
        (request (F := driveInterface) (.readChunk offset
          (min (file.length - offset) googleDriveResumableUploadChunkSize)))
            (AtOffset offset n) := by
    apply DriveVerified.request
    intro s answer t hs hat hop
    have hsound : UploadSound file { s with reads := (offset, min (file.length - offset)
        googleDriveResumableUploadChunkSize) :: s.reads } := by
      refine ⟨?_, hs.sound.sends, hs.sound.monotone, hs.sound.bounded, hs.sound.atMost⟩
      exact List.forall_mem_cons.mpr ⟨⟨hoffset, rfl⟩, hs.sound.reads⟩
    rcases answer with _ | chunk
    · obtain rfl := id hop
      exact ⟨⟨hsound, hs.front⟩, hat, nofun⟩
    · obtain ⟨hchunk, _, rfl⟩ := hop
      refine ⟨⟨hsound, hs.front⟩, hat, fun chunk' hsame => ?_⟩
      cases hsame
      exact hchunk
  apply hread.bind
  rintro (_ | chunk)
  · exact .done fun s _ _ => trivial
  · exact .done fun s _ hP => ⟨hP.2 chunk rfl, hP.1⟩

/-- A request from the offset the upload stands at. -/
theorem putUpload_verified (hfile : file.length = key.object.size.toNat) {offset n maximum : ℕ}
    {put : DriveUploadRequest} (hsends : SendsSlice file put) (hoffset : offset ≤ file.length)
    (hn : n ≤ googleDriveResumableUploadMaxRecoveryAttempts) :
    DriveVerified file session
      (fun result s => StandsAt offset (n + 1) s ∧ ∀ progress, result = .ok progress →
        Progressed sha256Hex storage key file session progress s)
        (putUpload storage key (key.expectedAppProperties sha256Hex) sessionUrl put maximum)
          fun s => AtOffset offset n s ∧
            put.dataOffset.getD (currentOffset s.requests) = offset := by
  have hput : DriveVerified file session
      (fun send s => StandsAt offset (n + 1) s ∧ ∀ progress,
        uploadProgress storage key (key.expectedAppProperties sha256Hex) maximum send =
          .ok progress → Progressed sha256Hex storage key file session progress s)
        (request (F := driveInterface) (.put sessionUrl put))
          fun s => AtOffset offset n s ∧
            put.dataOffset.getD (currentOffset s.requests) = offset := by
    apply DriveVerified.request
    intro s send t hs hP hop
    obtain ⟨stored, hsession, rfl⟩ := hop
    obtain ⟨hsound, hstands⟩ := hs.sound.exchange send stored hP.1 hn hoffset hsends hP.2
    refine ⟨⟨hsound, fun hhonest => ?_⟩, hstands, fun progress hprogress => ?_⟩
    · exact (hhonest _ _ _ _ hsession).front hsends (hs.front hhonest)
    rcases uploadProgress_ok hprogress with ⟨next, rfl, hnext⟩ |
      ⟨object, response, resource, diagnostic, rfl, rfl, hstatus, hbody, hdescribes⟩
    · change next < file.length ∨ next = 0
      rw [hfile]
      exact hnext
    · refine ⟨⟨put, response, _, resource, diagnostic, rfl, hstatus, hbody, hdescribes⟩, ?_⟩
      intro hhonest
      have hstores := hhonest _ _ _ _ hsession
      have hfront : stored <+: file := hstores.front hsends (hs.front hhonest)
      exact hfront.eq_of_length (hstores.2 hstatus)
  apply hput.bind
  intro send
  exact .done fun s _ hP => hP

/-- A status probe at the offset the upload stands at. -/
theorem probe_verified (hfile : file.length = key.object.size.toNat) {offset n : ℕ}
    (hoffset : offset ≤ file.length) (hn : n ≤ googleDriveResumableUploadMaxRecoveryAttempts) :
    DriveVerified file session
      (fun result s => StandsAt offset (n + 1) s ∧ ∀ progress, result = .ok progress →
        Progressed sha256Hex storage key file session progress s)
        (putUpload storage key (key.expectedAppProperties sha256Hex) sessionUrl
          ⟨0, some (.unsatisfied key.object.size.toNat), []⟩ key.object.size.toNat)
            (StandsAt offset n) := by
  have hsends : SendsSlice file ⟨0, some (.unsatisfied key.object.size.toNat), []⟩ := by
    rw [← hfile]
    exact .probe
  refine Verified.of_imp ?_ (putUpload_verified hfile hsends hoffset hn)
  exact fun s _ hP => ⟨hP.2, hP.1⟩

/-- Recovery uses up an attempt for each probe. -/
theorem recoverDriveResumableUpload_verified (hfile : file.length = key.object.size.toNat)
    {offset attempts : ℕ} (hoffset : offset ≤ file.length)
    (hattempts : attempts ≤ googleDriveResumableUploadMaxRecoveryAttempts) (error : StorageError) :
    DriveVerified file session
      (Outcome (fun result s => attempts ≤ result.2 ∧
        result.2 ≤ googleDriveResumableUploadMaxRecoveryAttempts ∧
          StandsAt offset (result.2 + 1) s ∧
            Progressed sha256Hex storage key file session result.1 s) fun _ => True)
        (recoverDriveResumableUpload storage key (key.expectedAppProperties sha256Hex) sessionUrl
          attempts error).run (StandsAt offset (attempts + 1)) := by
  induction hleft : googleDriveResumableUploadMaxRecoveryAttempts - attempts
    generalizing attempts error with
  | zero =>
    unfold recoverDriveResumableUpload
    rw [if_pos (by omega)]
    exact .throwE fun s _ _ => trivial
  | succ left ih =>
    unfold recoverDriveResumableUpload
    rw [if_neg (by omega)]
    have hmore : attempts + 1 ≤ googleDriveResumableUploadMaxRecoveryAttempts := by omega
    refine Verified.bind (probe_verified hfile hoffset hmore) ?_
    rintro (e | progress)
    · dsimp only
      split
      · have hrest := ih hmore e (by omega)
        refine (hrest.postE ?_ fun _ _ h => h).of_imp fun s _ hP => hP.1
        intro result s _ hresult
        exact ⟨by omega, hresult.2⟩
      · exact .done fun s _ _ => trivial
    · apply Verified.done
      intro s _ hP
      exact ⟨Nat.le_succ attempts, hmore, hP.1, hP.2 progress rfl⟩

/-- Before the next chunk: where the upload stands, with what it has used up there. -/
def BeforeChunk (file : List UInt8) (cursor : UploadCursor) (s : DriveState) : Prop :=
  ((cursor.committedOffset < file.length ∨ cursor.committedOffset = 0) ∧
    cursor.recoveryAttempts ≤ googleDriveResumableUploadMaxRecoveryAttempts) ∧
      AtOffset cursor.committedOffset cursor.recoveryAttempts s

/-- What is left to do: bytes before attempts. -/
def uploadMeasure (file : List UInt8) (cursor : UploadCursor) : ℕ :=
  (file.length - cursor.committedOffset) * (googleDriveResumableUploadMaxRecoveryAttempts + 1) +
    (googleDriveResumableUploadMaxRecoveryAttempts - cursor.recoveryAttempts)

/-- The object is stored, as far as the upload can tell. -/
def Uploaded (sha256Hex : String → String) (storage : GoogleDriveStorageConfig)
    (key : GoogleDriveObjectKey) (file : List UInt8) (session : DriveSession)
    (stored : StoredObject) : DriveState → Prop :=
  Progressed sha256Hex storage key file session (.complete stored)

/-- Progress leads to success, to a later offset, or to one more attempt. -/
theorem continueUpload_verified {cursor : UploadCursor} {attempts : ℕ}
    {progress : DriveResumableUploadProgress}
    (hcursor : cursor.committedOffset < file.length ∨ cursor.committedOffset = 0)
    (hspent : cursor.recoveryAttempts ≤ attempts) :
    DriveVerified file session
      (Outcome (LoopTurn (uploadMeasure file) (BeforeChunk file)
        (Uploaded sha256Hex storage key file session) cursor) fun _ => True)
        (continueUpload storage cursor.committedOffset attempts progress).run
          fun s => StandsAt cursor.committedOffset (attempts + 1) s ∧
            Progressed sha256Hex storage key file session progress s := by
  cases progress with
  | complete stored => exact .pureE fun s _ hP => hP.2
  | incomplete next =>
    dsimp only [continueUpload]
    split
    · exact .throwE fun s _ _ => trivial
    next hback =>
    split
    next hless =>
      apply Verified.pureE
      intro s _ hP
      have hnext : next < file.length := hP.2.resolve_right (by omega)
      refine ⟨?_, ⟨.inl hnext, Nat.zero_le _⟩, hP.1.2.advance hless⟩
      unfold uploadMeasure googleDriveResumableUploadMaxRecoveryAttempts
      dsimp only
      omega
    next hsame =>
    split
    · exact .throwE fun s _ _ => trivial
    next hleft =>
      apply Verified.pureE
      intro s _ hP
      refine ⟨?_, ⟨hcursor, by dsimp only; omega⟩, hP.1.2⟩
      unfold uploadMeasure
      dsimp only
      omega

/-- One turn of the upload loop. -/
theorem uploadNextChunk_verified (hfile : file.length = key.object.size.toNat)
    (cursor : UploadCursor) :
    DriveVerified file session
      (Outcome (LoopTurn (uploadMeasure file) (BeforeChunk file)
        (Uploaded sha256Hex storage key file session) cursor) fun _ => True)
        (uploadNextChunk storage key (key.expectedAppProperties sha256Hex) sessionUrl cursor).run
          (BeforeChunk file cursor) := by
  apply Verified.of_fact
  rintro ⟨hcursor, hattempts⟩
  have hsize : file.length < u64Size := by
    rw [hfile]
    exact key.object.size.toNat_lt
  have hoffset : cursor.committedOffset ≤ file.length := by omega
  unfold uploadNextChunk
  rw [← hfile]
  refine (readDriveUploadChunk_verified hoffset).bindE fun chunk => ?_
  apply Verified.of_fact
  intro hchunk
  obtain ⟨hsends, hdata⟩ := chunkRequest_sends hcursor hsize rfl hchunk
  have hat : ∀ s, UploadInvariant file session s →
      AtOffset cursor.committedOffset cursor.recoveryAttempts s →
        AtOffset cursor.committedOffset cursor.recoveryAttempts s ∧
          (chunkRequest cursor.committedOffset file.length chunk).dataOffset.getD
            (currentOffset s.requests) = cursor.committedOffset := by
    intro s _ hP
    rw [hdata]
    exact ⟨hP, rfl⟩
  refine Verified.bindE (E := fun _ => True) (Verified.bind (Verified.of_imp hat
    (putUpload_verified hfile hsends hoffset hattempts)) fun result => .done fun _ _ hP => hP) ?_
  intro result
  refine Verified.bindE (E := fun _ => True) (Q := fun result s =>
    cursor.recoveryAttempts ≤ result.2 ∧ StandsAt cursor.committedOffset (result.2 + 1) s ∧
      Progressed sha256Hex storage key file session result.1 s) ?_ ?_
  · rcases result with error | progress
    · dsimp only [orRecover]
      split
      · refine Verified.of_imp ?_ (Verified.postE
          (recoverDriveResumableUpload_verified hfile hoffset hattempts error) ?_ fun _ _ h => h)
        · exact fun s _ hP => hP.1
        · exact fun result s _ hresult => ⟨hresult.1, hresult.2.2⟩
      · exact .throwE fun s _ _ => trivial
    · apply Verified.pureE
      intro s _ hP
      exact ⟨le_refl _, hP.1, hP.2 progress rfl⟩
  · rintro ⟨progress, attempts⟩
    exact .of_fact fun hspent => continueUpload_verified hcursor hspent

/-- The steps before the upload loop send nothing. -/
theorem initiateUpload_verified {validate : String → Except StorageError String}
    {repoNamespace : String} {object : LfsObject} {P : DriveState → Prop} :
    DriveVerified file session
      (Outcome (fun result s => GoogleDriveObjectKey.new repoNamespace object = .ok result.2 ∧ P s)
        fun _ => True)
        (initiateUpload storage validate repoNamespace object).run P := by
  unfold initiateUpload
  cases hkey : GoogleDriveObjectKey.new repoNamespace object with
  | error e => exact fun s _ _ => trivial
  | ok key =>
    have hfolder : DriveVerified file session (Outcome (fun _ => P) fun _ => True)
        (request (F := driveInterface) (.uploadParentFolderId key)) P := by
      apply DriveVerified.request
      intro s answer t hs hP hop
      obtain rfl : t = s := hop
      refine ⟨hs, ?_⟩
      cases answer with
      | ok _ => exact hP
      | error _ => exact trivial
    have hinitiate : ∀ parentFolderId, DriveVerified file session (fun _ => P)
        (request (F := driveInterface) (.initiate parentFolderId key)) P := by
      intro parentFolderId
      apply DriveVerified.request
      intro s answer t hs hP hop
      obtain rfl : t = s := hop
      exact ⟨hs, hP⟩
    refine Verified.bindE (p := ExceptT.mk (.done (.ok key))) (Q := fun k s => k = key ∧ P s)
      (.done fun s _ hP => ⟨rfl, hP⟩) fun k => .of_fact ?_
    rintro rfl
    refine Verified.bindE (E := fun _ => True) hfolder fun parentFolderId => ?_
    refine Verified.bindE (E := fun _ => True) (Verified.bind (hinitiate parentFolderId)
      fun answer => .done fun _ _ hP => hP) fun answer => ?_
    cases hurl : uploadSessionUrl storage object validate answer with
    | error e => exact fun s _ _ => trivial
    | ok sessionUrl => exact fun s _ hP => ⟨rfl, hP⟩

/-- The whole upload: with enough fuel it ends, and its success is founded. -/
theorem uploadVerifiedObject_verified {validate : String → Except StorageError String}
    {repoNamespace : String} {object : LfsObject} (hfile : file.length = object.size.toNat)
    {fuel : ℕ} (hfuel : uploadMeasure file ⟨0, 0⟩ < fuel) :
    DriveVerified file session
      (fun result s => ∃ r, result = some r ∧ Outcome (fun stored s =>
        ∃ key, GoogleDriveObjectKey.new repoNamespace object = .ok key ∧
          Uploaded sha256Hex storage key file session stored s) (fun _ => True) r s)
        (uploadVerifiedObject sha256Hex storage validate repoNamespace object fuel)
          (BeforeChunk file ⟨0, 0⟩) := by
  refine Verified.bind initiateUpload_verified ?_
  rintro (e | ⟨sessionUrl, key⟩)
  · exact .done fun s _ _ => ⟨_, rfl, trivial⟩
  · apply Verified.of_fact
    intro hkey
    have hobject : key.object = object := by
      unfold GoogleDriveObjectKey.new at hkey
      cases hnamespace : validateRepoNamespace repoNamespace with
      | error e =>
        rw [hnamespace] at hkey
        cases hkey
      | ok _ =>
        rw [hnamespace] at hkey
        cases hkey
        rfl
    rw [← hobject] at hfile
    refine Verified.post ?_ (Verified.iterateE (uploadMeasure file)
      (uploadNextChunk_verified hfile) hfuel)
    rintro result s _ ⟨r, rfl, hr⟩
    refine ⟨r, rfl, ?_⟩
    cases r with
    | error e => exact trivial
    | ok stored => exact ⟨key, hkey, hr⟩

end Rules

/-- The upload of a file to a fresh session, as a system. -/
def resumableUploadSystem (sha256Hex : String → String) (storage : GoogleDriveStorageConfig)
    (validate : String → Except StorageError String) (repoNamespace : String)
    (object : LfsObject) (file : List UInt8) (session : DriveSession) (fuel : ℕ) :
    System (Pool driveInterface DriveState Unit (Option (Except StorageError StoredObject)))
      Unit :=
  poolSystem (driveOp file session) fun s => s = ⟨⟨[], [], []⟩, fun _ =>
    uploadVerifiedObject sha256Hex storage validate repoNamespace object fuel⟩

/-- Before anything is read or sent. -/
theorem uploadInvariant_start (file : List UInt8) (session : DriveSession) :
    UploadInvariant file session ⟨[], [], []⟩ where
  sound := by
    constructor
    · exact List.forall_mem_nil _
    · exact List.forall_mem_nil _
    · exact .nil
    · exact List.forall_mem_nil _
    · exact fun _ => Nat.zero_le _
  front _ := List.nil_prefix

theorem beforeChunk_start (file : List UInt8) : BeforeChunk file ⟨0, 0⟩ ⟨[], [], []⟩ := by
  refine ⟨⟨.inr rfl, Nat.zero_le _⟩, ?_, Nat.zero_le _⟩
  exact List.forall_mem_nil _

/-- What holds of the upload of a file in every state. -/
structure ResumableUpload (sha256Hex : String → String) (storage : GoogleDriveStorageConfig)
    (repoNamespace : String) (object : LfsObject) (file : List UInt8) (session : DriveSession)
    (s : Pool driveInterface DriveState Unit (Option (Except StorageError StoredObject))) :
    Prop where
  sound : UploadSound file s.shared
  /-- The loop never runs out of fuel. -/
  ends : s.thread () ≠ .done none
  /-- Success comes after the metadata of the uploaded file was checked against the
  object. -/
  success : ∀ stored, s.thread () = .done (some (.ok stored)) →
    ∃ key, GoogleDriveObjectKey.new repoNamespace object = .ok key ∧
      UploadCompleted sha256Hex storage key stored s.shared
  /-- A session that stores what it accepts has then stored the file. -/
  stores : ∀ stored, s.thread () = .done (some (.ok stored)) →
    (∀ stored request send stored', session stored request send stored' →
      StoresAccepted file.length stored request send stored') → s.shared.stored = file

/-- The empty object, and its upload to a session whose first answer is lost. -/
def emptyObject : LfsObject := ⟨.zero, .ofNat 0⟩

def emptyUploadSystem : System
    (Pool driveInterface DriveState Unit (Option (Except StorageError StoredObject))) Unit :=
  resumableUploadSystem (fun _ => "") ⟨"drive-user-a"⟩ .ok "owner/repo" emptyObject []
    (StoresAccepted 0) 5

/-- The request for the empty object has no range. -/
theorem emptyUpload_run : ∃ s, emptyUploadSystem.Reachable s ∧
    s.shared.exchanges = [(⟨0, none, []⟩, .idle)] := by
  have hrun : ∃ s, emptyUploadSystem.Run ⟨⟨[], [], []⟩, fun _ => uploadVerifiedObject (fun _ => "")
      ⟨"drive-user-a"⟩ .ok "owner/repo" emptyObject 5⟩ [(), (), (), ()] s ∧
        s.shared.exchanges = [(⟨0, none, []⟩, .idle)] := by
    refine poolSystem_run_cons (c := .uploadParentFolderId ⟨"owner/repo", emptyObject⟩)
      (.ok "folder") rfl rfl ?_
    refine poolSystem_run_cons (c := .initiate "folder" ⟨"owner/repo", emptyObject⟩)
      (.ok ⟨200, none, some (some "session"), .stalled⟩) rfl rfl ?_
    refine poolSystem_run_cons (c := .readChunk 0 0) (some []) rfl ⟨rfl, rfl, rfl⟩ ?_
    refine poolSystem_run_cons (c := .put "session" ⟨0, none, []⟩) DriveSend.idle rfl
      ⟨[], ⟨.inl rfl, nofun⟩, rfl⟩ ?_
    exact ⟨_, .nil _, rfl⟩
  obtain ⟨s, hrun, hexchanges⟩ := hrun
  exact ⟨s, ⟨_, _, rfl, hrun⟩, hexchanges⟩

end LfsCloud
