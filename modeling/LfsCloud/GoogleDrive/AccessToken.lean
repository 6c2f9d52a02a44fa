import LfsCloud.GoogleDrive.ObjectFile
import LfsCloud.Lib.Transition
import LfsCloud.Providers
import LfsCloud.Time

/-!
# The access-token cache

Calls share one slot for each storage provider. A call looks at the clock when it begins, waits for
the lock of its slot, and returns the cached token if that is not due for a refresh at the time it
saw. Otherwise it holds the lock through a refresh.
-/

namespace LfsCloud

open Transition

/-- `GoogleDriveGcloudCredentialsConfig`. -/
structure GoogleDriveGcloudCredentialsConfig where
  configDir : String
  executable : String
  deriving DecidableEq

/-- `GoogleDriveStorageConfig`, with all that a refresh and the storage read of it. -/
structure GoogleDriveTokenConfig extends GoogleDriveStorageConfig where
  credentials : GoogleDriveGcloudCredentialsConfig
  rootFolderId : String
  displayName : Option String
  deriving DecidableEq

/-- `storage_providers` of a server configuration: the entry of an identifier carries it. -/
structure StorageProviderConfigs where
  get : String → GoogleDriveTokenConfig
  id_get : ∀ id, (get id).id = id

/-- `GoogleDriveAccessToken`. -/
structure GoogleDriveAccessToken where
  accessToken : String
  tokenType : String
  expiresInSeconds : Option UInt64
  scope : List String
  deriving DecidableEq

/-- `CachedGoogleDriveAccessToken`. An instant is in nanoseconds. -/
structure CachedGoogleDriveAccessToken where
  token : GoogleDriveAccessToken
  refreshAt : ℕ
  deriving DecidableEq

/-- `GOOGLE_ACCESS_TOKEN_REFRESH_SKEW`, in nanoseconds. -/
def googleAccessTokenRefreshSkew : ℕ := 60 * nanosPerSecond

/-- `Duration::checked_sub`, in nanoseconds. -/
def durationCheckedSub (duration other : ℕ) : Option ℕ :=
  if other ≤ duration then some (duration - other) else none

/-- `Instant::checked_add`, in nanoseconds. -/
def instantCheckedAdd (instant duration : ℕ) : Option ℕ :=
  if instant + duration < 2 ^ 63 * nanosPerSecond then some (instant + duration) else none

/-- When a token that a call at `now` got is due for a refresh. -/
def GoogleDriveAccessToken.refreshAt (token : GoogleDriveAccessToken) (now : ℕ) : Option ℕ :=
  (token.expiresInSeconds.bind fun seconds =>
    durationCheckedSub (seconds.toNat * nanosPerSecond) googleAccessTokenRefreshSkew).bind
      fun lifetime => instantCheckedAdd now lifetime

/-- What is cached of a token that a call at `now` got. -/
def GoogleDriveAccessToken.cachedAt (token : GoogleDriveAccessToken) (now : ℕ) :
    Option CachedGoogleDriveAccessToken :=
  match token.refreshAt now with
  | some refreshAt => if now < refreshAt then some ⟨token, refreshAt⟩ else none
  | none => none

/-- A token that the source gave for a configuration, and when it was minted. -/
structure TokenMint where
  storage : GoogleDriveTokenConfig
  token : GoogleDriveAccessToken
  mintedAt : ℕ

/-- A time is before the refresh skew of the expiry of a token. -/
def TokenMint.Fresh (mint : TokenMint) (time : ℕ) : Prop :=
  ∃ seconds, mint.token.expiresInSeconds = some seconds ∧
    time + googleAccessTokenRefreshSkew < mint.mintedAt + seconds.toNat * nanosPerSecond

/-- Where a call of `get_or_refresh` stands, with the time that it saw when it began. A refresh
also has the time since which it is under way. -/
inductive TokenCall
  | idle
  | waitingForMap (now : ℕ)
  | waitingForSlot (now : ℕ)
  | locked (now : ℕ)
  | refreshing (now since : ℕ)
  | returned (result : Except StorageError GoogleDriveAccessToken)
  | cancelled

/-- `GoogleDriveAccessTokenSlot`: who holds its lock, and what is cached. -/
structure GoogleDriveAccessTokenSlot (ι : Type) where
  holder : Option ι
  cached : Option CachedGoogleDriveAccessToken

/-- A token that was returned: for which configuration, when that was decided, and which mint it
comes from. -/
structure TokenReturn where
  storage : GoogleDriveTokenConfig
  token : GoogleDriveAccessToken
  decidedAt : ℕ
  mint : Option TokenMint
  justMinted : Bool

/-- The cache and its calls, with the mint behind each slot and what was minted and returned so
far. -/
structure TokenCacheState (ι : Type) where
  clock : ℕ
  slots : String → Option (GoogleDriveAccessTokenSlot ι)
  calls : ι → TokenCall
  source : String → Option TokenMint
  minted : List TokenMint
  returns : List TokenReturn

/-- What happens in a step. A call can be cancelled wherever it waits. -/
inductive TokenEvent (ι : Type)
  | tick (duration : ℕ)
  | start (i : ι)
  | slot (i : ι)
  | lock (i : ι)
  | decide (i : ι)
  | refreshed (i : ι) (mintedAt : ℕ) (result : Except StorageError GoogleDriveAccessToken)
  | cancel (i : ι)

section

variable {ι : Type}

/-- No calls, and no slots. -/
def TokenCacheState.new : TokenCacheState ι :=
  ⟨0, fun _ => none, fun _ => .idle, fun _ => none, [], []⟩

/-- A slot changes. -/
def TokenCacheState.setSlot (s : TokenCacheState ι) (id : String)
    (slot : GoogleDriveAccessTokenSlot ι) : TokenCacheState ι :=
  { s with slots := Function.update s.slots id (some slot) }

/-- The slot of a provider, or the one it gets. -/
def TokenCacheState.slotOf (s : TokenCacheState ι) (id : String) : GoogleDriveAccessTokenSlot ι :=
  (s.slots id).getD ⟨none, none⟩

/-- The lock of a slot is released. -/
def TokenCacheState.unlock (s : TokenCacheState ι) (id : String) : TokenCacheState ι :=
  s.setSlot id { s.slotOf id with holder := none }

variable [DecidableEq ι]

/-- A call comes to stand elsewhere. -/
def TokenCacheState.setCall (s : TokenCacheState ι) (i : ι) (call : TokenCall) :
    TokenCacheState ι :=
  { s with calls := Function.update s.calls i call }

variable (configs : StorageProviderConfigs) (request : ι → String)

/-- The cached token is returned, and the lock released. -/
def TokenCacheState.returnCached (s : TokenCacheState ι) (i : ι)
    (cached : CachedGoogleDriveAccessToken) : TokenCacheState ι :=
  let slot := s.slotOf (request i)
  let t := (s.setSlot (request i) { slot with holder := none }).setCall i
    (.returned (.ok cached.token))
  { t with returns := ⟨configs.get (request i), cached.token, s.clock, s.source (request i), false⟩
    :: s.returns }

/-- A refresh brought a token: it is cached if it is not due at once, and returned. -/
def TokenCacheState.returnMinted (s : TokenCacheState ι) (i : ι) (now mintedAt : ℕ)
    (token : GoogleDriveAccessToken) : TokenCacheState ι :=
  let mint : TokenMint := ⟨configs.get (request i), token, mintedAt⟩
  let t := (s.setSlot (request i) ⟨none, token.cachedAt now⟩).setCall i (.returned (.ok token))
  { t with
    source := Function.update s.source (request i) (some mint)
    minted := mint :: s.minted
    returns := ⟨configs.get (request i), token, s.clock, some mint, true⟩ :: s.returns }

/-- The step of a call that holds the lock of its slot. -/
def TokenCacheState.decide (s : TokenCacheState ι) (i : ι) (now : ℕ) : TokenCacheState ι :=
  match (s.slotOf (request i)).cached with
  | some cached =>
    if now < cached.refreshAt then s.returnCached configs request i cached
    else s.setCall i (.refreshing now s.clock)
  | none => s.setCall i (.refreshing now s.clock)

/-- One step of the calls of `get_or_refresh`. -/
def tokenStep (s : TokenCacheState ι) : TokenEvent ι → Option (TokenCacheState ι)
  | .tick duration => some { s with clock := s.clock + duration }
  | .start i => match s.calls i with
    | .idle => some (s.setCall i (.waitingForMap s.clock))
    | _ => none
  | .slot i => match s.calls i with
    | .waitingForMap now =>
      some ((s.setSlot (request i) (s.slotOf (request i))).setCall i (.waitingForSlot now))
    | _ => none
  | .lock i => match s.calls i with
    | .waitingForSlot now =>
      if (s.slotOf (request i)).holder = none then
        some ((s.setSlot (request i) { s.slotOf (request i) with holder := some i }).setCall i
          (.locked now))
      else none
    | _ => none
  | .decide i => match s.calls i with
    | .locked now => some (s.decide configs request i now)
    | _ => none
  | .refreshed i mintedAt result => match s.calls i with
    | .refreshing now since =>
      if since ≤ mintedAt ∧ mintedAt ≤ s.clock then match result with
        | .ok token => some (s.returnMinted configs request i now mintedAt token)
        | .error error => some ((s.unlock (request i)).setCall i (.returned (.error error)))
      else none
    | _ => none
  | .cancel i => match s.calls i with
    | .waitingForMap _ => some (s.setCall i .cancelled)
    | .waitingForSlot _ => some (s.setCall i .cancelled)
    | .refreshing _ _ => some ((s.unlock (request i)).setCall i .cancelled)
    | _ => none

end

end LfsCloud
