import LfsCloud.Sessions.Restart

/-!
# The managed session key

Where no encryption secret is configured, the server keeps one in the native key store, under
the identity of the database. It is created when there is none and no session is left, and
replaced after all sessions were deleted. A server process and a rotation hold the same lock,
so they exclude each other.
-/

namespace LfsCloud

open Interaction Transition

/-- `MANAGED_SESSION_KEY_BYTES`. -/
def managedSessionKeyBytes : ℕ := 32

/-- The calls of the functions for the managed key. -/
inductive KeyCall
  | instanceId
  | loadKey (account : String)
  | storeKey (account : String) (secret : ByteArray)
  | clock
  | deleteExpiredSessions (nowUnixSeconds : ℤ)
  | sessionCount
  | deleteAllSessions
  | randomKey

/-- The answers to a call. -/
def KeyAnswer : KeyCall → Type
  | .instanceId => Except ServerError String
  | .loadKey _ => Except ServerError (Option ByteArray)
  | .storeKey _ _ => Except ServerError Unit
  | .clock => SystemTime
  | .deleteExpiredSessions _ => Except ServerError Unit
  | .sessionCount => Except ServerError ℕ
  | .deleteAllSessions => Except ServerError ℕ
  | .randomKey => Option (Vector UInt8 managedSessionKeyBytes)

/-- The interface of the functions for the managed key. -/
def keyInterface : Interface := ⟨KeyCall, KeyAnswer⟩

/-- A function for the managed key. -/
abbrev KeyProg (α : Type) := MemoryProg keyInterface Unit ServerError α

/-- A call that may fail. -/
def askKey {α : Type} (c : KeyCall) (hc : KeyAnswer c = Except ServerError α) : KeyProg α :=
  ask (F := keyInterface) c >>= fun answer => liftResult (cast hc answer)

/-- The bytes of a generated key. -/
def keyBytes (key : Vector UInt8 managedSessionKeyBytes) : ByteArray := ⟨key.toArray⟩

/-- `generate_managed_session_key`. -/
def generateManagedSessionKey : KeyProg ByteArray :=
  ask (F := keyInterface) .randomKey >>=
    fun (answer : Option (Vector UInt8 managedSessionKeyBytes)) =>
      match answer with
      | some key => pure (keyBytes key)
      | none => throw (.internal
          "operating-system randomness could not generate a session encryption key")

/-- The seconds of the clock, in `load_or_create_managed_session_key`. -/
def managedKeyTimestamp (clock : SystemTime) : Except ServerError ℤ :=
  if clock.nanos < 0 then .error (.internal "system clock precedes the Unix epoch")
  else if unixTimestampSeconds clock < 2 ^ 63 then .ok (unixTimestampSeconds clock)
  else .error (.internal "system clock exceeds the durable session timestamp range")

/-- The end of `load_or_create_managed_session_key`, where there is no key. -/
def createManagedSessionKey (account : String) : KeyProg ByteArray :=
  ask (F := keyInterface) .clock >>= fun (clock : SystemTime) => do
  let now ← liftResult (managedKeyTimestamp clock)
  askKey (.deleteExpiredSessions now) rfl
  let count : ℕ ← askKey .sessionCount rfl
  if 0 < count then
    throw (.invalidConfiguration "native session encryption key is missing while durable sessions exist; restore the native credential or run `lfscloud sessions generate-key` to invalidate current sessions")
  else do
    let secret ← generateManagedSessionKey
    askKey (.storeKey account secret) rfl
    pure secret

/-- `load_or_create_managed_session_key`. -/
def loadOrCreateManagedSessionKey : KeyProg ByteArray := do
  let account : String ← askKey .instanceId rfl
  let loaded : Option ByteArray ← askKey (.loadKey account) rfl
  match loaded with
  | some secret =>
    if secret.size ≠ managedSessionKeyBytes then
      throw (.invalidConfiguration "native session encryption key has an invalid length; run `lfscloud sessions generate-key` to invalidate sessions and replace it")
    else pure secret
  | none => createManagedSessionKey account

/-- `rotate_managed_session_key`. -/
def rotateManagedSessionKey : KeyProg ℕ := do
  let account : String ← askKey .instanceId rfl
  let invalidated : ℕ ← askKey .deleteAllSessions rfl
  let secret ← generateManagedSessionKey
  askKey (.storeKey account secret) rfl
  pure invalidated

/-- The database and the native key store. -/
structure KeyState where
  database : SessionDatabase
  instanceId : String
  keys : Table String ByteArray

namespace KeyState

/-- The key of the database. -/
def storedKey (s : KeyState) : Option ByteArray := s.keys.lookup s.instanceId

/-- The key store with a key. -/
def store (s : KeyState) (account : String) (secret : ByteArray) : KeyState :=
  { s with keys := s.keys.insert account secret }

/-- A change of the database. -/
def withDatabase (s : KeyState) (d : SessionDatabase) : KeyState := { s with database := d }

end KeyState

/-- `delete_all_sessions`. -/
def SessionDatabase.deleteAll (d : SessionDatabase) : SessionDatabase := { d with rows := ∅ }

/-- What the calls do; the database, the key store and the random source may fail or not. A
failed write of the key store may have been carried out. -/
def keyOp (fails : Prop) : Effect keyInterface KeyState
  | s, .instanceId, (answer : Except ServerError String), s' =>
    s' = s ∧ (answer = .ok s.instanceId ∨ (fails ∧ answer = .error .metadataOperation))
  | s, .loadKey account, (answer : Except ServerError (Option ByteArray)), s' =>
    s' = s ∧ (answer = .ok (s.keys.lookup account) ∨
      (fails ∧ ∃ message, answer = .error (.internal message)))
  | s, .storeKey account secret, (answer : Except ServerError Unit), s' =>
    (answer = .ok () ∧ s' = s.store account secret) ∨
      (fails ∧ (∃ message, answer = .error (.internal message)) ∧
        (s' = s ∨ s' = s.store account secret))
  | s, .clock, (now : SystemTime), s' =>
    s.database.clock ≤ now ∧ s' = s.withDatabase (s.database.tick now)
  | s, .deleteExpiredSessions now, (answer : Except ServerError Unit), s' =>
    (answer = .ok () ∧ s' = s.withDatabase (s.database.deleteExpired now)) ∨
      (fails ∧ answer = .error .metadataOperation ∧ s' = s)
  | s, .sessionCount, (answer : Except ServerError ℕ), s' =>
    s' = s ∧ (answer = .ok s.database.rows.entries.length ∨
      (fails ∧ answer = .error .metadataOperation))
  | s, .deleteAllSessions, (answer : Except ServerError ℕ), s' =>
    (answer = .ok s.database.rows.entries.length ∧
      s' = s.withDatabase s.database.deleteAll) ∨
      (fails ∧ answer = .error .metadataOperation ∧ s' = s)
  | s, .randomKey, (answer : Option (Vector UInt8 managedSessionKeyBytes)), s' =>
    s' = s ∧ (answer.isSome = true ∨ fails)

/-- What happens to the key and to the sessions. -/
inductive KeyEvent
  /-- A server process takes the lock and loads or creates the key. -/
  | start (result : Except ServerError Unit)
  | killStart
  /-- An operation of the process on its sessions, or of its start on the rows. -/
  | session (event : SessionEvent)
  /-- The process ends, which frees the lock. -/
  | exit
  | rotate (result : Except ServerError ℕ)
  | killRotate
  /-- The key is removed from the native key store by someone else. -/
  | lose

/-- The database, the key store, and the process that holds the lock, with its key and its
session store. -/
structure KeyWorld where
  state : KeyState
  process : Option (ByteArray × Option LocalLfsSessionStore)
  /-- The key was removed by someone else, and none was stored since. -/
  lost : Bool

/-- One step. -/
inductive KeyWorld.Step (codec : SessionCodec) : KeyWorld → KeyEvent → KeyWorld → Prop
  | start {s s' lost result}
      (hret : (loadOrCreateManagedSessionKey.from ()).Returns (keyOp True) s (result, ()) s') :
      Step codec ⟨s, none, lost⟩ (.start (result.map fun _ => ()))
        ⟨s', result.toOption.map fun secret => (secret, none), lost && result.toOption.isNone⟩
  | killStart {s s' lost}
      (hkill : (loadOrCreateManagedSessionKey.from ()).Killed (keyOp True) s s') :
      Step codec ⟨s, none, lost⟩ .killStart ⟨s', none, lost⟩
  | session {s secret store lost event d' store'}
      (hstep : SessionWorld.Step codec secret ⟨s.database, store⟩ event ⟨d', store'⟩) :
      Step codec ⟨s, some (secret, store), lost⟩ (.session event)
        ⟨s.withDatabase d', some (secret, store'), lost⟩
  | exit {s process lost} : Step codec ⟨s, process, lost⟩ .exit ⟨s, none, lost⟩
  | rotate {s s' lost result}
      (hret : (rotateManagedSessionKey.from ()).Returns (keyOp True) s (result, ()) s') :
      Step codec ⟨s, none, lost⟩ (.rotate result) ⟨s', none, lost && result.toOption.isNone⟩
  | killRotate {s s' lost}
      (hkill : (rotateManagedSessionKey.from ()).Killed (keyOp True) s s') :
      Step codec ⟨s, none, lost⟩ .killRotate ⟨s', none, lost⟩
  | lose {s process lost} :
      Step codec ⟨s, process, lost⟩ .lose
        ⟨{ s with keys := s.keys.erase s.instanceId }, process, true⟩

/-- The runs from a new database without a key. -/
def keySystem (codec : SessionCodec) : System KeyWorld KeyEvent where
  init w := w.process = none ∧ w.lost = false ∧ w.state.database.rows = ∅ ∧
    w.state.storedKey = none
  step := KeyWorld.Step codec

end LfsCloud
