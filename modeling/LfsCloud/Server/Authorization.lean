import LfsCloud.Lib.Transition
import LfsCloud.Server.Transfer
import LfsCloud.Sessions.Record

/-!
# Authorization of requests

Calls of `authorize` that share a cache of grants and a map of locks by key. Between any
two steps of a call other calls run and time passes. A call can be dropped where it awaits:
then its guard goes first, and its reference to the lock after that.
-/

namespace LfsCloud

open Transition

/-- `LfsBatchOperation`. -/
inductive LfsBatchOperation
  | download
  | upload
  deriving DecidableEq, Repr

/-- `AuthenticatedLfsSession`. -/
structure AuthenticatedLfsSession where
  token : LfsSessionToken
  record : LfsSessionRecord

/-- `AuthorizationCacheKey`. -/
structure AuthorizationCacheKey where
  sessionToken : LfsSessionToken
  repositoryId : String
  write : Bool
  deriving DecidableEq

/-- `AUTHORIZATION_CACHE_TTL` in nanoseconds, as all instants here. -/
def authorizationCacheTtl : ℕ := 15 * 1000000000

/-- The arguments of a call of `authorize`. -/
structure AuthorizeRequest where
  repository : RepositoryMapping
  session : AuthenticatedLfsSession
  operation : LfsBatchOperation

/-- The key of a call. -/
def AuthorizeRequest.key (request : AuthorizeRequest) : AuthorizationCacheKey where
  sessionToken := request.session.token
  repositoryId := request.repository.id
  write := request.operation = .upload

/-- Where a call is, with its reference to a lock. -/
inductive AuthorizeControl
  /-- Before the first look at the cache. -/
  | start
  /-- Not in the cache: the lock map is next. -/
  | uncached
  /-- Awaits the lock. -/
  | waiting (lock : ℕ)
  /-- Has the guard: the second look at the cache is next. -/
  | locked (lock : ℕ)
  /-- Awaits a permit for a provider call. -/
  | awaitingPermit (lock : ℕ)
  /-- Awaits the provider's answer. -/
  | calling (lock : ℕ)
  /-- The provider has granted it: the cache is next. -/
  | granted (lock expiresAt : ℕ)
  /-- The result is there: the guard is dropped next. -/
  | concluding (lock : ℕ) (result : Except ServerError Unit)
  /-- The guard is gone: the test for an unused lock is next. -/
  | unlocked (lock : ℕ) (result : Except ServerError Unit)
  /-- The test is made: the call returns next. -/
  | tested (lock : ℕ) (result : Except ServerError Unit)
  /-- Dropped, with its reference still there. -/
  | dropping (lock : ℕ)
  | returned (result : Except ServerError Unit)
  | dropped

/-- The lock that a call has a reference to. -/
def AuthorizeControl.reference : AuthorizeControl → Option ℕ
  | .waiting lock => some lock
  | .locked lock => some lock
  | .awaitingPermit lock => some lock
  | .calling lock => some lock
  | .granted lock _ => some lock
  | .concluding lock _ => some lock
  | .unlocked lock _ => some lock
  | .tested lock _ => some lock
  | .dropping lock => some lock
  | _ => none

/-- The lock that a call has a reference to, unless it has made its test. -/
def AuthorizeControl.untested : AuthorizeControl → Option ℕ
  | .tested _ _ => none
  | control => control.reference

/-- The lock that a call has the guard of. -/
def AuthorizeControl.guarded : AuthorizeControl → Option ℕ
  | .locked lock => some lock
  | .awaitingPermit lock => some lock
  | .calling lock => some lock
  | .granted lock _ => some lock
  | .concluding lock _ => some lock
  | _ => none

/-- The lock that a call will test for being unused. -/
def AuthorizeControl.pending : AuthorizeControl → Option ℕ
  | .waiting lock => some lock
  | .unlocked lock _ => some lock
  | control => control.guarded

/-- The call has returned or was dropped. -/
def AuthorizeControl.ended : AuthorizeControl → Bool
  | .returned _ => true
  | .dropped => true
  | _ => false

/-- A call of `authorize`. -/
structure AuthorizeCall where
  request : AuthorizeRequest
  control : AuthorizeControl

/-- What the calls share, and the calls themselves. -/
structure AuthorizationState (ι : Type) where
  now : ℕ
  /-- `authorization_cache`. -/
  cache : Table AuthorizationCacheKey ℕ
  /-- `authorization_locks`. -/
  locks : Table AuthorizationCacheKey ℕ
  nextLock : ℕ
  /-- The call that has the guard of a lock. -/
  holder : ℕ → Option ι
  calls : Table ι AuthorizeCall

/-- No call has been made yet. -/
def AuthorizationState.new {ι : Type} (now : ℕ) : AuthorizationState ι :=
  ⟨now, ∅, ∅, 0, fun _ => none, ∅⟩

/-- `authorization_is_cached`: an expired grant is removed. -/
def authorizationIsCached (cache : Table AuthorizationCacheKey ℕ) (key : AuthorizationCacheKey)
    (now : ℕ) : Bool × Table AuthorizationCacheKey ℕ :=
  match cache.lookup key with
  | some expiry => if now < expiry then (true, cache) else (false, cache.erase key)
  | none => (false, cache)

/-- A grant is stored, and expired ones are removed. -/
def storeAuthorization (cache : Table AuthorizationCacheKey ℕ) (key : AuthorizationCacheKey)
    (now expiresAt : ℕ) : Table AuthorizationCacheKey ℕ :=
  (cache.filter fun _ expiry => now < expiry).insert key expiresAt

/-- The result of a call, after a session that the provider no longer knows is revoked. -/
def revokeUnknownSession (result : Except ServerError Unit) (revoked : Except ServerError Bool) :
    Except ServerError Unit :=
  match result, revoked with
  | .error (.repositoryProvider (.authenticationRequired _)), .error e => .error e
  | _, _ => result

section

variable {ι : Type} [DecidableEq ι]

/-- A call moves on. -/
def AuthorizationState.move (s : AuthorizationState ι) (i : ι) (request : AuthorizeRequest)
    (control : AuthorizeControl) : AuthorizationState ι :=
  { s with calls := s.calls.insert i ⟨request, control⟩ }

/-- A call is at a point of its code. -/
def AuthorizationState.At (s : AuthorizationState ι) (i : ι) (request : AuthorizeRequest)
    (control : AuthorizeControl) : Prop :=
  s.calls.lookup i = some ⟨request, control⟩

/-- The lock of a key, which is made if there is none. -/
def AuthorizationState.lockFor (s : AuthorizationState ι) (key : AuthorizationCacheKey) :
    ℕ × AuthorizationState ι :=
  match s.locks.lookup key with
  | some lock => (lock, s)
  | none => (s.nextLock, { s with
      locks := s.locks.insert key s.nextLock
      nextLock := s.nextLock + 1 })

/-- `Arc::strong_count` of a lock: the references of the map and of the calls. -/
def AuthorizationState.strongCount (s : AuthorizationState ι) (lock : ℕ) : ℕ :=
  s.locks.count (fun stored => stored = lock) +
    s.calls.count fun call => call.control.reference = some lock

/-- `remove_unused_authorization_lock`. -/
def AuthorizationState.removeUnusedAuthorizationLock (s : AuthorizationState ι)
    (key : AuthorizationCacheKey) (lock : ℕ) : AuthorizationState ι :=
  if s.strongCount lock = 2 ∧ s.locks.lookup key = some lock then
    { s with locks := s.locks.erase key }
  else s

/-- The guard of a lock changes hands. -/
def AuthorizationState.setHolder (s : AuthorizationState ι) (lock : ℕ) (holder : Option ι) :
    AuthorizationState ι :=
  { s with holder := Function.update s.holder lock holder }

end

/-- What happens next, with the readings of the clock. -/
inductive AuthorizationEvent (ι : Type)
  | elapse (duration : ℕ)
  | authorize (i : ι) (request : AuthorizeRequest)
  | checkCache (i : ι) (now : ℕ)
  | lockFor (i : ι)
  | lock (i : ι)
  | providerCallPermit (i : ι)
  | answer (i : ι) (result : Except ServerError Unit) (now : ℕ)
  | store (i : ι)
  | unlock (i : ι)
  | removeUnused (i : ι)
  | finish (i : ι) (revoked : Except ServerError Bool)
  | cancel (i : ι)
  | dropReference (i : ι)

/-- What a call does after the provider's answer. -/
def AuthorizeControl.answered (lock now : ℕ) : Except ServerError Unit → AuthorizeControl
  | .ok () => .granted lock (now + authorizationCacheTtl)
  | .error e => .concluding lock (.error e)

/-- One step of one call. The lock goes to any call that awaits it, the limiter of provider
calls may let any call pass, and the provider may answer anything. -/
inductive AuthorizationState.Step {ι : Type} [DecidableEq ι] :
    AuthorizationState ι → AuthorizationEvent ι → AuthorizationState ι → Prop
  | elapse {s : AuthorizationState ι} {duration : ℕ} :
    Step s (.elapse duration) { s with now := s.now + duration }
  | authorize {s : AuthorizationState ι} {i : ι} {request : AuthorizeRequest}
    (hnew : s.calls.lookup i = none) :
    Step s (.authorize i request) (s.move i request .start)
  | checkCache {s : AuthorizationState ι} {i : ι} {request : AuthorizeRequest}
    (hcall : s.At i request .start) :
    Step s (.checkCache i s.now)
      ({ s with cache := (authorizationIsCached s.cache request.key s.now).2 }.move i request
        (if (authorizationIsCached s.cache request.key s.now).1 then .returned (.ok ())
        else .uncached))
  | lockFor {s : AuthorizationState ι} {i : ι} {request : AuthorizeRequest}
    (hcall : s.At i request .uncached) :
    Step s (.lockFor i)
      ((s.lockFor request.key).2.move i request (.waiting (s.lockFor request.key).1))
  | lock {s : AuthorizationState ι} {i : ι} {request : AuthorizeRequest} {lock : ℕ}
    (hcall : s.At i request (.waiting lock)) (hfree : s.holder lock = none) :
    Step s (.lock i) ((s.setHolder lock (some i)).move i request (.locked lock))
  | recheckCache {s : AuthorizationState ι} {i : ι} {request : AuthorizeRequest} {lock : ℕ}
    (hcall : s.At i request (.locked lock)) :
    Step s (.checkCache i s.now)
      ({ s with cache := (authorizationIsCached s.cache request.key s.now).2 }.move i request
        (if (authorizationIsCached s.cache request.key s.now).1 then .concluding lock (.ok ())
        else .awaitingPermit lock))
  | providerCallPermit {s : AuthorizationState ι} {i : ι} {request : AuthorizeRequest} {lock : ℕ}
    (hcall : s.At i request (.awaitingPermit lock)) :
    Step s (.providerCallPermit i) (s.move i request (.calling lock))
  | answer {s : AuthorizationState ι} {i : ι} {request : AuthorizeRequest} {lock : ℕ}
    {result : Except ServerError Unit} (hcall : s.At i request (.calling lock)) :
    Step s (.answer i result s.now) (s.move i request (.answered lock s.now result))
  | store {s : AuthorizationState ι} {i : ι} {request : AuthorizeRequest} {lock expiresAt : ℕ}
    (hcall : s.At i request (.granted lock expiresAt)) :
    Step s (.store i)
      ({ s with cache := storeAuthorization s.cache request.key s.now expiresAt }.move i request
        (.concluding lock (.ok ())))
  | unlock {s : AuthorizationState ι} {i : ι} {request : AuthorizeRequest} {lock : ℕ}
    {result : Except ServerError Unit} (hcall : s.At i request (.concluding lock result)) :
    Step s (.unlock i) ((s.setHolder lock none).move i request (.unlocked lock result))
  | removeUnused {s : AuthorizationState ι} {i : ι} {request : AuthorizeRequest} {lock : ℕ}
    {result : Except ServerError Unit} (hcall : s.At i request (.unlocked lock result)) :
    Step s (.removeUnused i)
      ((s.removeUnusedAuthorizationLock request.key lock).move i request (.tested lock result))
  | finish {s : AuthorizationState ι} {i : ι} {request : AuthorizeRequest} {lock : ℕ}
    {result : Except ServerError Unit} {revoked : Except ServerError Bool}
    (hcall : s.At i request (.tested lock result)) :
    Step s (.finish i revoked)
      (s.move i request (.returned (revokeUnknownSession result revoked)))
  | cancelStart {s : AuthorizationState ι} {i : ι} {request : AuthorizeRequest}
    (hcall : s.At i request .start) :
    Step s (.cancel i) (s.move i request .dropped)
  | cancelWaiting {s : AuthorizationState ι} {i : ι} {request : AuthorizeRequest} {lock : ℕ}
    (hcall : s.At i request (.waiting lock)) :
    Step s (.cancel i) (s.move i request (.dropping lock))
  | cancelGuarded {s : AuthorizationState ι} {i : ι} {request : AuthorizeRequest} {lock : ℕ}
    (hcall : s.At i request (.awaitingPermit lock) ∨ s.At i request (.calling lock)) :
    Step s (.cancel i) ((s.setHolder lock none).move i request (.dropping lock))
  | dropReference {s : AuthorizationState ι} {i : ι} {request : AuthorizeRequest} {lock : ℕ}
    (hcall : s.At i request (.dropping lock)) :
    Step s (.dropReference i) (s.move i request .dropped)

/-- Calls of `authorize` on one server state. -/
def authorizationSystem (ι : Type) [DecidableEq ι] :
    System (AuthorizationState ι) (AuthorizationEvent ι) where
  init s := ∃ now, s = .new now
  step := AuthorizationState.Step

/-- A session. -/
def authorizeSession : AuthenticatedLfsSession where
  token := ⟨"lfs-token"⟩
  record := ⟨⟨"github-main", "alice", none, [], unixEpoch, unixEpoch⟩, none⟩

/-- An upload of the session. -/
def authorizeUpload : AuthorizeRequest :=
  ⟨⟨"github-main:owner/repo", "drive-user-a"⟩, authorizeSession, .upload⟩

end LfsCloud
