import LfsCloud.Lib.CrashLogic
import LfsCloud.Lib.Table
import LfsCloud.Lib.Transition
import LfsCloud.Lib.U64
import LfsCloud.Sessions.Record

/-!
# The session store

A bounded store of sessions in memory, which writes a row for each session before it is
in memory and deletes the row before the session leaves it. The operations are programs over
the clock, the random source and the database; each of these can be killed after every call.
-/

namespace LfsCloud

open Interaction Transition

/-- `MAX_LOCAL_LFS_SESSIONS`. -/
def maxLocalLfsSessions : ℕ := 1024

/-- `MAX_LFS_SESSION_TOKEN_GENERATION_ATTEMPTS`. -/
def maxLfsSessionTokenGenerationAttempts : ℕ := 8

/-- `LfsSessionPrincipalIdentity`. -/
inductive LfsSessionPrincipalIdentity
  | stableId (id : String)
  | login (login : String)
  deriving DecidableEq

/-- `LfsSessionPrincipal`. -/
structure LfsSessionPrincipal where
  providerId : String
  identity : LfsSessionPrincipalIdentity
  deriving DecidableEq

/-- `LfsSessionPrincipal::from_metadata`. -/
def LfsSessionPrincipal.fromMetadata (metadata : LfsSessionMetadata) : LfsSessionPrincipal where
  providerId := metadata.providerId
  identity := match metadata.stableId with
    | some id => .stableId id
    | none => .login metadata.login

/-- `SessionStoreLimits`, with what its constructors assert. -/
structure SessionStoreLimits where
  maxSessions : ℕ
  maxSessionsPerPrincipal : ℕ
  maxIssuancesPerWindow : ℕ
  issuanceWindow : Duration
  maxSessions_pos : 0 < maxSessions
  maxSessionsPerPrincipal_pos : 0 < maxSessionsPerPrincipal
  maxIssuancesPerWindow_pos : 0 < maxIssuancesPerWindow
  issuanceWindow_pos : issuanceWindow.isZero = false

/-- `SessionStoreLimits::production`. -/
def SessionStoreLimits.production : SessionStoreLimits where
  maxSessions := maxLocalLfsSessions
  maxSessionsPerPrincipal := 16
  maxIssuancesPerWindow := 8
  issuanceWindow := .fromSecs 60
  maxSessions_pos := by decide
  maxSessionsPerPrincipal_pos := by decide
  maxIssuancesPerWindow_pos := by decide
  issuanceWindow_pos := by decide

/-- `SessionStoreState`. -/
structure SessionStoreState where
  sessions : Table LfsSessionTokenKey LfsSessionRecord
  recentIssuances : Table LfsSessionPrincipal (List SystemTime)

/-- `IssuedLfsSession`. -/
structure IssuedLfsSession where
  token : LfsSessionToken
  metadata : LfsSessionMetadata

/-- The arguments of an issue. -/
structure IssueRequest where
  user : RepositoryUser
  grantedScopes : List String
  ttl : Duration
  githubPersonalAccessToken : Option GitHubPersonalAccessToken

/-- The session of a request. -/
def IssueRequest.record (request : IssueRequest) (issuedAt expiresAt : SystemTime) :
    LfsSessionRecord :=
  ⟨.new request.user request.grantedScopes issuedAt expiresAt, request.githubPersonalAccessToken⟩

/-- The calls of the store. -/
inductive SessionCall
  | clock
  | generateToken
  | randomNonce
  | deleteExpiredSessions (nowUnixSeconds : ℤ)
  | recordSession (record : MetadataSessionRecord)
  | deleteSession (tokenSha256 : List UInt8)
  | loadActiveSessions (nowUnixSeconds : ℤ)

/-- The answers to a call. -/
def SessionAnswer : SessionCall → Type
  | .clock => SystemTime
  | .generateToken => LfsSessionToken
  | .randomNonce => Option (Vector UInt8 12)
  | .deleteExpiredSessions _ => Except ServerError Unit
  | .recordSession _ => Except ServerError Unit
  | .deleteSession _ => Except ServerError Unit
  | .loadActiveSessions _ => Except ServerError (List MetadataSessionRecord)

/-- The interface of the store. -/
def sessionInterface : Interface := ⟨SessionCall, SessionAnswer⟩

/-- A program of the store, over its state in memory. -/
abbrev SessionProg (α : Type) := MemoryProg sessionInterface SessionStoreState ServerError α

namespace SessionStoreState

/-- `prune_expired_sessions`. -/
def pruneExpiredSessions (state : SessionStoreState) (now : SystemTime) : SessionStoreState :=
  { state with sessions := state.sessions.filter fun _ record => now < record.metadata.expiresAt }

/-- An issue still counts against the window. -/
def isRecent (now : SystemTime) (issuanceWindow : Duration) (issuedAt : SystemTime) : Bool :=
  match issuedAt.checkedAdd issuanceWindow with
  | some expiresAt => now < expiresAt
  | none => true

/-- `prune_recent_issuances`. -/
def pruneRecentIssuances (state : SessionStoreState) (now : SystemTime)
    (issuanceWindow : Duration) : SessionStoreState :=
  { state with
    recentIssuances := (state.recentIssuances.mapValues
      (List.filter (isRecent now issuanceWindow))).filter fun _ issuedAt => issuedAt ≠ [] }

/-- The sessions of a principal. -/
def principalSessions (state : SessionStoreState) (principal : LfsSessionPrincipal) :
    List LfsSessionRecord :=
  (state.sessions.entries.map Sigma.snd).filter fun record =>
    LfsSessionPrincipal.fromMetadata record.metadata = principal

/-- The issues of a principal in the window. -/
def recentFor (state : SessionStoreState) (principal : LfsSessionPrincipal) : List SystemTime :=
  (state.recentIssuances.lookup principal).getD []

end SessionStoreState

/-- `retry_after_duration`. -/
def retryAfterDuration (retryAt now : SystemTime) : ℕ :=
  let nanos := retryAt.nanosSince now
  max 1 (min (u64Size - 1)
    (nanos / nanosPerSecond + if 0 < nanos % nanosPerSecond then 1 else 0))

/-- `retry_after_session_expiry`. -/
def retryAfterSessionExpiry (expirations : List SystemTime) (now : SystemTime) : ℕ :=
  match expirations.min? with
  | some expiresAt => retryAfterDuration expiresAt now
  | none => 1

/-- `enforce_session_admission`. -/
def enforceSessionAdmission (state : SessionStoreState) (principal : LfsSessionPrincipal)
    (now : SystemTime) (limits : SessionStoreLimits) : Except ServerError Unit :=
  let principalSessions := state.principalSessions principal
  if limits.maxSessionsPerPrincipal ≤ principalSessions.length then
    .error (.rateLimited (retryAfterSessionExpiry
      (principalSessions.map fun record => record.metadata.expiresAt) now))
  else if (state.recentIssuances.lookup principal).isSome ∧
      limits.maxIssuancesPerWindow ≤ (state.recentFor principal).length then
    let retryAt := ((state.recentFor principal).filterMap fun issuedAt =>
      issuedAt.checkedAdd limits.issuanceWindow).min?
    .error (.rateLimited (match retryAt with
      | some retryAt => retryAfterDuration retryAt now
      | none => max 1 (limits.issuanceWindow.nanos / nanosPerSecond)))
  else if limits.maxSessions ≤ state.sessions.entries.length then
    .error (.rateLimited (retryAfterSessionExpiry
      (state.sessions.entries.map fun entry => entry.2.metadata.expiresAt) now))
  else .ok ()

/-- `delete_expired_sessions`, whatever the memory of the program. -/
def deleteExpiredSessions {μ : Type} (nowUnixSeconds : ℤ) :
    MemoryProg sessionInterface μ ServerError Unit :=
  ask (F := sessionInterface) (.deleteExpiredSessions nowUnixSeconds) >>=
    fun (answer : Except ServerError Unit) => liftResult answer

/-- `record_session` of the database. -/
def recordSessionRow (stored : MetadataSessionRecord) : SessionProg Unit :=
  ask (F := sessionInterface) (.recordSession stored) >>=
    fun (answer : Except ServerError Unit) => liftResult answer

/-- `delete_session`. -/
def deleteSession (tokenSha256 : List UInt8) : SessionProg Unit :=
  ask (F := sessionInterface) (.deleteSession tokenSha256) >>=
    fun (answer : Except ServerError Unit) => liftResult answer

section

variable (codec : SessionCodec)

/-- `SessionTokenProtector::encrypt`. -/
def SessionTokenProtector.encrypt (protector : SessionTokenProtector)
    (tokenKey : LfsSessionTokenKey) (metadata : LfsSessionMetadata)
    (accessToken : GitHubPersonalAccessToken) : SessionProg (ByteArray × Vector UInt8 12) :=
  ask (F := sessionInterface) .randomNonce >>= fun (nonce : Option (Vector UInt8 12)) =>
    match nonce with
    | none => throw (.internal "failed to generate durable lfs session encryption nonce")
    | some nonce => liftResult (protector.encryptWith codec nonce tokenKey metadata accessToken)

/-- The provider token of a session, protected. -/
def protectToken (protector : SessionTokenProtector) (tokenKey : LfsSessionTokenKey)
    (record : LfsSessionRecord) : SessionProg (Option (ByteArray × Vector UInt8 12)) :=
  match record.githubPersonalAccessToken with
  | none => pure none
  | some token => do
    let result ← protector.encrypt codec tokenKey record.metadata token
    pure (some result)

/-- `record_session` of the durable store: the provider token is protected, then the row is
written. -/
def recordSession (protector : SessionTokenProtector) (tokenKey : LfsSessionTokenKey)
    (record : LfsSessionRecord) : SessionProg Unit := do
  let protectedToken ← protectToken codec protector tokenKey record
  let stored ← liftResult (storedSession codec tokenKey record protectedToken)
  recordSessionRow stored

/-- What is done first with the rows, if there are any. -/
def whenDurable (durable : Option SessionTokenProtector)
    (p : SessionTokenProtector → SessionProg Unit) : SessionProg Unit :=
  match durable with
  | none => pure ()
  | some protector => p protector

/-- A new session in memory. -/
def SessionStoreState.insertSession (state : SessionStoreState) (tokenKey : LfsSessionTokenKey)
    (record : LfsSessionRecord) (issuedAt : SystemTime) : SessionStoreState :=
  let principal := LfsSessionPrincipal.fromMetadata record.metadata
  { sessions := state.sessions.insert tokenKey record
    recentIssuances := state.recentIssuances.insert principal
      (state.recentFor principal ++ [issuedAt]) }

/-- The loop over the attempts to generate a token. -/
def issueWithToken (durable : Option SessionTokenProtector) (record : LfsSessionRecord)
    (issuedAt : SystemTime) : ℕ → SessionProg IssuedLfsSession
  | 0 => throw (.internal "failed to generate a unique lfs session token")
  | attempts + 1 =>
    ask (F := sessionInterface) .generateToken >>= fun (token : LfsSessionToken) => do
    let tokenKey := LfsSessionTokenKey.fromToken codec token
    let state ← get
    if (state.sessions.lookup tokenKey).isSome then
      issueWithToken durable record issuedAt attempts
    else
      whenDurable durable fun protector => recordSession codec protector tokenKey record
      modify fun state => state.insertSession tokenKey record issuedAt
      pure ⟨token, record.metadata⟩

/-- `issue_session_record` once there is an expiry. -/
def issueRecord (durable : Option SessionTokenProtector) (limits : SessionStoreLimits)
    (record : LfsSessionRecord) (issuedAt : SystemTime) : SessionProg IssuedLfsSession := do
  modify fun state => state.pruneExpiredSessions issuedAt
  modify fun state => state.pruneRecentIssuances issuedAt limits.issuanceWindow
  whenDurable durable fun _ => do
    let now ← liftResult (unixTimestampSecondsI64 issuedAt)
    deleteExpiredSessions now
  let state ← get
  liftResult (enforceSessionAdmission state (.fromMetadata record.metadata) issuedAt limits)
  issueWithToken codec durable record issuedAt maxLfsSessionTokenGenerationAttempts

/-- `issue_session_record`. -/
def issueSessionRecord (durable : Option SessionTokenProtector) (limits : SessionStoreLimits)
    (request : IssueRequest) : SessionProg IssuedLfsSession :=
  if request.ttl.isZero then
    throw (.invalidRequest "lfs session ttl must be greater than zero")
  else
    ask (F := sessionInterface) .clock >>= fun (issuedAt : SystemTime) =>
      match issuedAt.checkedAdd request.ttl with
      | none => throw (.invalidRequest "lfs session expiration timestamp overflowed")
      | some expiresAt =>
        issueRecord codec durable limits (request.record issuedAt expiresAt) issuedAt

/-- `take_active_session`: an expired session is removed. -/
def SessionStoreState.takeActiveSession (state : SessionStoreState)
    (tokenKey : LfsSessionTokenKey) (now : SystemTime) :
    Option LfsSessionRecord × SessionStoreState :=
  match state.sessions.lookup tokenKey with
  | some record =>
    if now < record.metadata.expiresAt then (some record, state)
    else (none, { state with sessions := state.sessions.erase tokenKey })
  | none => (none, state)

/-- `verify_record`. -/
def verifyRecord (token : LfsSessionToken) : SessionProg (Option LfsSessionRecord) :=
  ask (F := sessionInterface) .clock >>= fun (now : SystemTime) => do
    let state ← get
    let taken := state.takeActiveSession (.fromToken codec token) now
    set taken.2
    pure taken.1

/-- `revoke`: the row first. -/
def revoke (durable : Option SessionTokenProtector) (token : LfsSessionToken) :
    SessionProg Bool :=
  ask (F := sessionInterface) .clock >>= fun (now : SystemTime) => do
    let tokenKey := LfsSessionTokenKey.fromToken codec token
    whenDurable durable fun _ => deleteSession tokenKey.toHex
    let state ← get
    set { state with sessions := state.sessions.erase tokenKey }
    pure (match state.sessions.lookup tokenKey with
      | some record => now < record.metadata.expiresAt
      | none => false)

/-- `len`. -/
def sessionCount : SessionProg ℕ :=
  ask (F := sessionInterface) .clock >>= fun (now : SystemTime) => do
    modify fun state => state.pruneExpiredSessions now
    let state ← get
    pure state.sessions.entries.length

/-- `load_sessions`, once the rows are read. -/
def restoreSessions (protector : SessionTokenProtector) :
    List MetadataSessionRecord → Except ServerError (Table LfsSessionTokenKey LfsSessionRecord)
  | [] => .ok ∅
  | stored :: rest => do
    let (tokenKey, record) ← restoreSession codec protector stored
    let sessions ← restoreSessions protector rest
    .ok (if (sessions.lookup tokenKey).isSome then sessions else sessions.insert tokenKey record)

/-- `LocalLfsSessionStore`. -/
structure LocalLfsSessionStore where
  state : SessionStoreState
  durable : Option SessionTokenProtector
  limits : SessionStoreLimits

/-- `open_durable`. -/
def openDurable (encryptionSecret : ByteArray) :
    MemoryProg sessionInterface Unit ServerError LocalLfsSessionStore :=
  if encryptionSecret.size = 0 then
    throw (.invalidConfiguration "durable lfs session encryption secret must not be empty")
  else
    let protector := SessionTokenProtector.new codec encryptionSecret
    ask (F := sessionInterface) .clock >>= fun (clock : SystemTime) => do
    let now ← liftResult (unixTimestampSecondsI64 clock)
    deleteExpiredSessions now
    ask (F := sessionInterface) (.loadActiveSessions now) >>=
      fun (answer : Except ServerError (List MetadataSessionRecord)) => do
    let rows ← liftResult answer
    let sessions ← liftResult (restoreSessions codec protector rows)
    if maxLocalLfsSessions < sessions.entries.length then
      throw (.internal
        "durable lfs session count exceeds the configured in-process limit")
    else
      pure ⟨⟨sessions, ∅⟩, some protector, .production⟩

end

/-- What outlives a process: the rows, the last reading of the clock, and the tokens that
were generated, the latest last. -/
structure SessionDatabase where
  clock : SystemTime
  rows : Table (List UInt8) MetadataSessionRecord
  generated : List LfsSessionToken

namespace SessionDatabase

/-- A reading of the clock. -/
def tick (d : SessionDatabase) (now : SystemTime) : SessionDatabase := { d with clock := now }

/-- A token is generated. -/
def generate (d : SessionDatabase) (token : LfsSessionToken) : SessionDatabase :=
  { d with generated := d.generated ++ [token] }

/-- The rows that have not expired. -/
def activeRows (d : SessionDatabase) (nowUnixSeconds : ℤ) :
    Table (List UInt8) MetadataSessionRecord :=
  d.rows.filter fun _ row => nowUnixSeconds < row.expiresAtUnixSeconds

/-- `delete_expired_sessions`. -/
def deleteExpired (d : SessionDatabase) (nowUnixSeconds : ℤ) : SessionDatabase :=
  { d with rows := d.activeRows nowUnixSeconds }

/-- `record_session`: insert, or update the row of the digest. -/
def record (d : SessionDatabase) (row : MetadataSessionRecord) : SessionDatabase :=
  { d with rows := d.rows.insert row.tokenSha256 row }

/-- `delete_session`. -/
def delete (d : SessionDatabase) (tokenSha256 : List UInt8) : SessionDatabase :=
  { d with rows := d.rows.erase tokenSha256 }

end SessionDatabase

/-- A statement that succeeds, or fails and changes nothing. -/
def statement (fails : Prop) (d d' changed : SessionDatabase)
    (answer : Except ServerError Unit) : Prop :=
  (answer = .ok () ∧ d' = changed) ∨ (fails ∧ answer = .error .metadataOperation ∧ d' = d)

/-- What the calls do; the database may fail or not. -/
def sessionOp (fails : Prop) : Effect sessionInterface SessionDatabase
  | d, .clock, now, d' => d.clock ≤ now ∧ d' = d.tick now
  | d, .generateToken, token, d' => d' = d.generate token
  | d, .randomNonce, _, d' => d' = d
  | d, .deleteExpiredSessions now, answer, d' => statement fails d d' (d.deleteExpired now) answer
  | d, .recordSession row, answer, d' => statement fails d d' (d.record row) answer
  | d, .deleteSession tokenSha256, answer, d' =>
    statement fails d d' (d.delete tokenSha256) answer
  | d, .loadActiveSessions now, answer, d' =>
    d' = d ∧ ((∃ rows, answer = .ok rows ∧
      rows.Perm ((d.activeRows now).entries.map Sigma.snd)) ∨
        (fails ∧ answer = .error .metadataOperation))

end LfsCloud
