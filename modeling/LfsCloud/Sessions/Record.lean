import LfsCloud.Time

/-!
# Session records

A session in memory, its row in the database, and the way from one to the other. A row
names its session by the digest of the token, keeps times as whole seconds, and holds the
provider token only under authenticated encryption.
-/

namespace LfsCloud

/-- `LfsSessionToken`. -/
structure LfsSessionToken where
  secret : String
  deriving DecidableEq

/-- `LfsSessionTokenKey`: the digest of a token. -/
structure LfsSessionTokenKey where
  digest : Vector UInt8 32
  deriving DecidableEq

/-- The functions of other packages: SHA-256, AES-256-GCM with a key, a nonce and associated
data, and JSON text. -/
structure SessionCodec where
  sha256 : ByteArray → Vector UInt8 32
  sealInPlaceAppendTag : Vector UInt8 32 → Vector UInt8 12 → ByteArray → ByteArray →
    Option ByteArray
  openInPlace : Vector UInt8 32 → Vector UInt8 12 → ByteArray → ByteArray → Option ByteArray
  scopesToJson : List String → Option String
  scopesFromJson : String → Option (List String)
  associatedDataToJson :
    List UInt8 × String × String × Option String × List String × ℤ × ℤ → Option ByteArray

/-- What a sealed text opens to, and what encoded scopes decode to. -/
structure SessionCodec.Lawful (codec : SessionCodec) : Prop where
  open_seal : ∀ {key nonce data text sealed},
    codec.sealInPlaceAppendTag key nonce data text = some sealed →
      codec.openInPlace key nonce data sealed = some text
  decode_encode : ∀ {scopes text}, codec.scopesToJson scopes = some text →
    codec.scopesFromJson text = some scopes

/-- `LfsSessionTokenKey::from_token`. -/
def LfsSessionTokenKey.fromToken (codec : SessionCodec) (token : LfsSessionToken) :
    LfsSessionTokenKey :=
  ⟨codec.sha256 token.secret.toByteArray⟩

/-- A lowercase hexadecimal digit, as a byte. -/
def hexDigitByte (n : ℕ) : UInt8 := .ofNat (if n < 10 then 48 + n else 87 + n)

/-- `to_digit(16)` of a byte. -/
def hexByteValue (byte : UInt8) : Option ℕ :=
  let n := byte.toNat
  if 48 ≤ n ∧ n ≤ 57 then some (n - 48)
  else if 97 ≤ n ∧ n ≤ 102 then some (n - 87)
  else if 65 ≤ n ∧ n ≤ 70 then some (n - 55)
  else none

/-- `str::from_utf8` accepts two bytes: two characters of one byte, or one of two. -/
def isUtf8Pair (first second : UInt8) : Bool :=
  (first < 128 && second < 128) ||
    (194 ≤ first && first ≤ 223 && 128 ≤ second && second ≤ 191)

/-- `u8::from_str_radix` with radix 16 for two bytes, the first of which may be a plus sign. -/
def u8FromHexPair (first second : UInt8) : Option UInt8 :=
  if first = 43 then (hexByteValue second).map .ofNat
  else
    match hexByteValue first, hexByteValue second with
    | some high, some low => some (.ofNat (16 * high + low))
    | _, _ => none

/-- `LfsSessionTokenKey::to_hex`, as the bytes of the text. -/
def LfsSessionTokenKey.toHex (key : LfsSessionTokenKey) : List UInt8 :=
  key.digest.toList.flatMap fun byte =>
    [hexDigitByte (byte.toNat / 16), hexDigitByte (byte.toNat % 16)]

/-- The bytes of the digest, from pairs of digits. -/
def digestFromHexPairs : List UInt8 → Except ServerError (List UInt8)
  | first :: second :: rest =>
    if isUtf8Pair first second then
      match u8FromHexPair first second with
      | some byte => (digestFromHexPairs rest).map (byte :: ·)
      | none => .error (invalidDurableSession "stored token digest is not hexadecimal")
    else .error (invalidDurableSession "stored token digest is not valid UTF-8")
  | _ => .ok []

/-- `LfsSessionTokenKey::from_hex`. -/
def LfsSessionTokenKey.fromHex (value : List UInt8) : Except ServerError LfsSessionTokenKey :=
  if value.length ≠ 64 then
    .error (invalidDurableSession "stored token digest has an invalid length")
  else
    (digestFromHexPairs value).map fun digest => ⟨.ofFn fun index => digest.getD index 0⟩

/-- The two digits of a byte read back as that byte. -/
theorem u8FromHexPair_hexDigitByte (byte : UInt8) :
    isUtf8Pair (hexDigitByte (byte.toNat / 16)) (hexDigitByte (byte.toNat % 16)) = true ∧
      u8FromHexPair (hexDigitByte (byte.toNat / 16)) (hexDigitByte (byte.toNat % 16)) =
        some byte := by
  have hall : ∀ n < 256, isUtf8Pair (hexDigitByte (n / 16)) (hexDigitByte (n % 16)) = true ∧
      u8FromHexPair (hexDigitByte (n / 16)) (hexDigitByte (n % 16)) = some (.ofNat n) := by
    decide +kernel
  have h := hall byte.toNat byte.toNat_lt
  rwa [UInt8.ofNat_toNat] at h

theorem digestFromHexPairs_flatMap (digest : List UInt8) :
    digestFromHexPairs (digest.flatMap fun byte =>
      [hexDigitByte (byte.toNat / 16), hexDigitByte (byte.toNat % 16)]) = .ok digest := by
  induction digest with
  | nil => rfl
  | cons byte digest ih =>
    obtain ⟨hutf8, hpair⟩ := u8FromHexPair_hexDigitByte byte
    simp only [List.flatMap_cons, List.cons_append, List.nil_append, digestFromHexPairs, hutf8,
      hpair, ih, if_true]
    rfl

/-- The text of a key reads back as that key. -/
@[simp] theorem LfsSessionTokenKey.fromHex_toHex (key : LfsSessionTokenKey) :
    fromHex key.toHex = .ok key := by
  have hlength : key.toHex.length = 64 := by
    simp [toHex]
  unfold fromHex
  rw [if_neg (by simp [hlength]), toHex, digestFromHexPairs_flatMap]
  obtain ⟨digest⟩ := key
  simp only [Except.map, Except.ok.injEq, LfsSessionTokenKey.mk.injEq]
  ext i hi
  simp [List.getD]

theorem LfsSessionTokenKey.toHex_injective : Function.Injective toHex := by
  intro key key' h
  have hread := fromHex_toHex key
  rw [h, fromHex_toHex] at hread
  exact (Except.ok.inj hread).symm

/-- `MAX_GITHUB_SENSITIVE_VALUE_LEN`. -/
def maxGithubSensitiveValueLen : ℕ := 1024

/-- `validate_sensitive_github_value`. -/
def validateSensitiveGithubValue (value label : String) : Except ServerError String :=
  if maxGithubSensitiveValueLen < value.utf8ByteSize then
    .error (.invalidRequest (label ++ " must not exceed " ++
      toString maxGithubSensitiveValueLen ++ " bytes"))
  else
  let trimmed := Text.trim value.toList
  if trimmed = [] ∨ Text.byteLength trimmed ≠ value.utf8ByteSize then
    .error (.invalidRequest (label ++ " must not be blank or padded"))
  else if value.toList.any fun c => Text.isWhitespace c || Text.isControl c then
    .error (.invalidRequest (label ++ " must not contain whitespace or control characters"))
  else .ok value

theorem validateSensitiveGithubValue_eq {value label result : String}
    (h : validateSensitiveGithubValue value label = .ok result) : result = value := by
  dsimp only [validateSensitiveGithubValue] at h
  split_ifs at h
  exact (Except.ok.inj h).symm

/-- `GitHubPersonalAccessToken`: a secret that has passed its validation. -/
structure GitHubPersonalAccessToken where
  secret : String
  valid : validateSensitiveGithubValue secret "github personal access token" = .ok secret
  deriving DecidableEq

/-- `GitHubPersonalAccessToken::from_secret`. -/
def GitHubPersonalAccessToken.fromSecret (secret : String) :
    Except ServerError GitHubPersonalAccessToken :=
  match h : validateSensitiveGithubValue secret "github personal access token" with
  | .ok value => .ok ⟨value, by rwa [← validateSensitiveGithubValue_eq h] at h⟩
  | .error e => .error e

/-- The secret of a token passes again. -/
@[simp] theorem GitHubPersonalAccessToken.fromSecret_secret (token : GitHubPersonalAccessToken) :
    fromSecret token.secret = .ok token := by
  unfold fromSecret
  split
  · next value h =>
    obtain rfl := validateSensitiveGithubValue_eq h
    rfl
  · next e h =>
    rw [token.valid] at h
    cases h

/-- `LfsSessionMetadata`. -/
structure LfsSessionMetadata where
  providerId : String
  login : String
  stableId : Option String
  grantedScopes : List String
  issuedAt : SystemTime
  expiresAt : SystemTime
  deriving DecidableEq

/-- `LfsSessionMetadata::new`: scopes are trimmed, and blank ones left out. -/
def LfsSessionMetadata.new (user : RepositoryUser) (grantedScopes : List String)
    (issuedAt expiresAt : SystemTime) : LfsSessionMetadata where
  providerId := user.providerId
  login := user.login
  stableId := user.stableId
  grantedScopes := (grantedScopes.map fun scope => String.ofList (Text.trim scope.toList)).filter
    fun scope => scope ≠ ""
  issuedAt := issuedAt
  expiresAt := expiresAt

/-- `LfsSessionRecord`. -/
structure LfsSessionRecord where
  metadata : LfsSessionMetadata
  githubPersonalAccessToken : Option GitHubPersonalAccessToken
  deriving DecidableEq

/-- The times of a session as a row keeps them. -/
def LfsSessionMetadata.truncate (metadata : LfsSessionMetadata) : LfsSessionMetadata :=
  { metadata with
    issuedAt := metadata.issuedAt.truncate
    expiresAt := metadata.expiresAt.truncate }

/-- A session as it comes back from its row. -/
def LfsSessionRecord.truncate (record : LfsSessionRecord) : LfsSessionRecord :=
  { record with metadata := record.metadata.truncate }

/-- `MetadataSessionRecord`: a row. -/
structure MetadataSessionRecord where
  /-- The bytes of the hexadecimal text. -/
  tokenSha256 : List UInt8
  providerId : String
  login : String
  stableId : Option String
  grantedScopesJson : String
  issuedAtUnixSeconds : ℤ
  expiresAtUnixSeconds : ℤ
  providerAccessTokenCiphertext : Option ByteArray
  providerAccessTokenNonce : Option (List UInt8)

/-- `SessionTokenProtector`. -/
structure SessionTokenProtector where
  key : Vector UInt8 32

/-- `SESSION_ENCRYPTION_CONTEXT`. -/
def sessionEncryptionContext : ByteArray :=
  "lfscloud durable session encryption v1".toByteArray.push 0

section

variable (codec : SessionCodec)

/-- `SessionTokenProtector::new`: a digest has the length of a key. -/
def SessionTokenProtector.new (encryptionSecret : ByteArray) : SessionTokenProtector :=
  ⟨codec.sha256 (sessionEncryptionContext ++ encryptionSecret)⟩

/-- `session_associated_data`. -/
def sessionAssociatedData (tokenKey : LfsSessionTokenKey) (metadata : LfsSessionMetadata) :
    Except ServerError ByteArray := do
  let issuedAt ← unixTimestampSecondsI64 metadata.issuedAt
  let expiresAt ← unixTimestampSecondsI64 metadata.expiresAt
  match codec.associatedDataToJson (tokenKey.toHex, metadata.providerId, metadata.login,
      metadata.stableId, metadata.grantedScopes, issuedAt, expiresAt) with
  | some data => .ok data
  | none => .error (.internal "failed to encode durable lfs session authenticated metadata")

/-- `SessionTokenProtector::encrypt`, once there is a nonce. -/
def SessionTokenProtector.encryptWith (protector : SessionTokenProtector)
    (nonce : Vector UInt8 12) (tokenKey : LfsSessionTokenKey) (metadata : LfsSessionMetadata)
    (accessToken : GitHubPersonalAccessToken) :
    Except ServerError (ByteArray × Vector UInt8 12) := do
  let associatedData ← sessionAssociatedData codec tokenKey metadata
  match codec.sealInPlaceAppendTag protector.key nonce associatedData
      accessToken.secret.toByteArray with
  | some ciphertext => .ok (ciphertext, nonce)
  | none => .error (.internal "failed to encrypt durable lfs session provider token")

/-- `SessionTokenProtector::decrypt`. -/
def SessionTokenProtector.decrypt (protector : SessionTokenProtector)
    (tokenKey : LfsSessionTokenKey) (metadata : LfsSessionMetadata) (ciphertext : ByteArray)
    (nonce : List UInt8) : Except ServerError GitHubPersonalAccessToken :=
  if h : nonce.toArray.size = 12 then do
    let associatedData ← sessionAssociatedData codec tokenKey metadata
    match codec.openInPlace protector.key ⟨nonce.toArray, h⟩ associatedData ciphertext with
    | none => .error (invalidDurableSession
        "stored provider token could not be authenticated or decrypted")
    | some plaintext =>
      match String.fromUTF8? plaintext with
      | none => .error (invalidDurableSession "decrypted provider token is not valid UTF-8")
      | some token =>
        (GitHubPersonalAccessToken.fromSecret token).mapError fun _ =>
          invalidDurableSession "decrypted provider token is invalid"
  else .error (invalidDurableSession "stored provider token nonce has invalid length")

/-- `restore_session`. -/
def restoreSession (protector : SessionTokenProtector) (stored : MetadataSessionRecord) :
    Except ServerError (LfsSessionTokenKey × LfsSessionRecord) := do
  let tokenKey ← LfsSessionTokenKey.fromHex stored.tokenSha256
  let grantedScopes ← match codec.scopesFromJson stored.grantedScopesJson with
    | some scopes => Except.ok scopes
    | none => Except.error (invalidDurableSession "stored granted scopes are not valid JSON")
  let issuedAt ← systemTimeFromUnixSeconds stored.issuedAtUnixSeconds
  let expiresAt ← systemTimeFromUnixSeconds stored.expiresAtUnixSeconds
  if expiresAt ≤ issuedAt then
    .error (invalidDurableSession "stored session expiration does not follow its issue time")
  else
    let metadata : LfsSessionMetadata :=
      ⟨stored.providerId, stored.login, stored.stableId, grantedScopes, issuedAt, expiresAt⟩
    match stored.providerAccessTokenCiphertext, stored.providerAccessTokenNonce with
    | some ciphertext, some nonce =>
      let token ← protector.decrypt codec tokenKey metadata ciphertext nonce
      .ok (tokenKey, ⟨metadata, some token⟩)
    | none, none => .ok (tokenKey, ⟨metadata, none⟩)
    | _, _ => .error (invalidDurableSession
        "stored provider token protection fields are incomplete")

/-- The row that `record_session` writes, once the provider token is protected. -/
def storedSession (tokenKey : LfsSessionTokenKey) (record : LfsSessionRecord)
    (protectedToken : Option (ByteArray × Vector UInt8 12)) :
    Except ServerError MetadataSessionRecord := do
  let grantedScopesJson ← match codec.scopesToJson record.metadata.grantedScopes with
    | some text => Except.ok text
    | none => Except.error (.internal "failed to encode lfs session scopes for durable storage")
  let issuedAt ← unixTimestampSecondsI64 record.metadata.issuedAt
  let expiresAt ← unixTimestampSecondsI64 record.metadata.expiresAt
  .ok {
    tokenSha256 := tokenKey.toHex
    providerId := record.metadata.providerId
    login := record.metadata.login
    stableId := record.metadata.stableId
    grantedScopesJson := grantedScopesJson
    issuedAtUnixSeconds := issuedAt
    expiresAtUnixSeconds := expiresAt
    providerAccessTokenCiphertext := protectedToken.map Prod.fst
    providerAccessTokenNonce := protectedToken.map fun protect => protect.2.toList }

variable {codec : SessionCodec} {protector : SessionTokenProtector} {key : LfsSessionTokenKey}

/-- The associated data of a session is that of its row. -/
@[simp] theorem sessionAssociatedData_truncate (metadata : LfsSessionMetadata) :
    sessionAssociatedData codec key metadata.truncate =
      sessionAssociatedData codec key metadata := by
  simp [sessionAssociatedData, LfsSessionMetadata.truncate]

/-- A provider token is decrypted under the times that its row keeps. -/
theorem SessionTokenProtector.decrypt_encryptWith (hlaw : codec.Lawful)
    {nonce nonce' : Vector UInt8 12} {metadata : LfsSessionMetadata}
    {token : GitHubPersonalAccessToken} {ciphertext : ByteArray}
    (h : protector.encryptWith codec nonce key metadata token = .ok (ciphertext, nonce')) :
    protector.decrypt codec key metadata.truncate ciphertext nonce'.toList = .ok token := by
  unfold encryptWith at h
  unfold decrypt
  have hsize : nonce'.toList.toArray.size = 12 := by simp
  have hnonce : (⟨nonce'.toList.toArray, hsize⟩ : Vector UInt8 12) = nonce' :=
    Vector.toArray_inj.mp Array.toArray_toList
  have hutf8 : String.fromUTF8? token.secret.toByteArray = some token.secret :=
    dif_pos token.secret.isValidUTF8
  rw [dif_pos hsize, hnonce, sessionAssociatedData_truncate]
  cases hdata : sessionAssociatedData codec key metadata with
  | error e =>
    rw [hdata] at h
    cases h
  | ok data =>
    rw [hdata] at h
    simp only [bind, Except.bind] at h ⊢
    split at h
    · next sealed hseal =>
      obtain ⟨rfl, rfl⟩ := Prod.mk.inj (Except.ok.inj h)
      simp only [hlaw.open_seal hseal, hutf8]
      rw [GitHubPersonalAccessToken.fromSecret_secret]
      rfl
    · cases h

/-- The protected form of the provider token of a session. -/
def Protects (codec : SessionCodec) (protector : SessionTokenProtector)
    (key : LfsSessionTokenKey) (record : LfsSessionRecord)
    (protectedToken : Option (ByteArray × Vector UInt8 12)) : Prop :=
  match record.githubPersonalAccessToken with
  | none => protectedToken = none
  | some token => ∃ nonce result, protectedToken = some result ∧
      protector.encryptWith codec nonce key record.metadata token = .ok result

/-- What a row says of its session. -/
theorem storedSession_spec {record : LfsSessionRecord}
    {protectedToken : Option (ByteArray × Vector UInt8 12)} {row : MetadataSessionRecord}
    (h : storedSession codec key record protectedToken = .ok row) :
    ∃ text, codec.scopesToJson record.metadata.grantedScopes = some text ∧
      row = ⟨key.toHex, record.metadata.providerId, record.metadata.login,
        record.metadata.stableId, text, unixTimestampSeconds record.metadata.issuedAt,
        unixTimestampSeconds record.metadata.expiresAt, protectedToken.map Prod.fst,
        protectedToken.map fun protect => protect.2.toList⟩ := by
  unfold storedSession at h
  cases hscopes : codec.scopesToJson record.metadata.grantedScopes with
  | none =>
    rw [hscopes] at h
    cases h
  | some text =>
    rw [hscopes, unixTimestampSecondsI64_eq, unixTimestampSecondsI64_eq] at h
    exact ⟨text, rfl, (Except.ok.inj h).symm⟩

/-- A row whose columns can be read. -/
theorem restoreSession_eq (stored : MetadataSessionRecord) {scopes : List String}
    {issuedAt expiresAt : SystemTime}
    (hkey : LfsSessionTokenKey.fromHex stored.tokenSha256 = .ok key)
    (hscopes : codec.scopesFromJson stored.grantedScopesJson = some scopes)
    (hissued : systemTimeFromUnixSeconds stored.issuedAtUnixSeconds = .ok issuedAt)
    (hexpires : systemTimeFromUnixSeconds stored.expiresAtUnixSeconds = .ok expiresAt)
    (hafter : ¬expiresAt ≤ issuedAt) :
    restoreSession codec protector stored =
      let metadata : LfsSessionMetadata :=
        ⟨stored.providerId, stored.login, stored.stableId, scopes, issuedAt, expiresAt⟩
      match stored.providerAccessTokenCiphertext, stored.providerAccessTokenNonce with
      | some ciphertext, some nonce =>
        (protector.decrypt codec key metadata ciphertext nonce).map
          fun token => (key, ⟨metadata, some token⟩)
      | none, none => .ok (key, ⟨metadata, none⟩)
      | _, _ => .error (invalidDurableSession
          "stored provider token protection fields are incomplete") := by
  unfold restoreSession
  rw [hkey, hscopes, hissued, hexpires]
  simp only [bind, Except.bind, if_neg hafter]
  rfl

/-- A session comes back from its row, if it lasts into another second. -/
theorem restoreSession_storedSession (hlaw : codec.Lawful) {record : LfsSessionRecord}
    {protectedToken : Option (ByteArray × Vector UInt8 12)} {row : MetadataSessionRecord}
    (hprotects : Protects codec protector key record protectedToken)
    (hrow : storedSession codec key record protectedToken = .ok row)
    (hlt : unixTimestampSeconds record.metadata.issuedAt <
      unixTimestampSeconds record.metadata.expiresAt) :
    restoreSession codec protector row = .ok (key, record.truncate) := by
  obtain ⟨text, hscopes, hstored⟩ := storedSession_spec hrow
  have hafter : ¬record.metadata.expiresAt.truncate ≤ record.metadata.issuedAt.truncate := by
    rw [not_le]
    exact lt_truncate_of_seconds_lt (by rwa [unixTimestampSeconds_truncate])
  have hkey : LfsSessionTokenKey.fromHex row.tokenSha256 = .ok key := by
    rw [hstored, LfsSessionTokenKey.fromHex_toHex]
  have hjson : codec.scopesFromJson row.grantedScopesJson =
      some record.metadata.grantedScopes := by
    rw [hstored, hlaw.decode_encode hscopes]
  have hissued : systemTimeFromUnixSeconds row.issuedAtUnixSeconds =
      .ok record.metadata.issuedAt.truncate := by
    rw [hstored, systemTimeFromUnixSeconds_eq]
  have hexpires : systemTimeFromUnixSeconds row.expiresAtUnixSeconds =
      .ok record.metadata.expiresAt.truncate := by
    rw [hstored, systemTimeFromUnixSeconds_eq]
  rw [restoreSession_eq row hkey hjson hissued hexpires hafter, hstored]
  obtain ⟨metadata, token⟩ := record
  cases token with
  | none =>
    obtain rfl : protectedToken = none := hprotects
    rfl
  | some token =>
    obtain ⟨nonce, ⟨ciphertext, nonce'⟩, rfl, hencrypt⟩ := hprotects
    have hdecrypt := protector.decrypt_encryptWith hlaw hencrypt
    simp only [LfsSessionMetadata.truncate] at hdecrypt
    simp only [Option.map_some, hdecrypt]
    rfl

end

end LfsCloud
