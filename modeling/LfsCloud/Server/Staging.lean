import LfsCloud.Lib.Table
import LfsCloud.Lib.U64

/-!
# Upload staging

A client body is written to a staging file before it is handed to the storage
provider. Admission hands out a lease that carries a global and a per-principal
permit; a reservation then charges the declared size to one capacity snapshot
shared by all live leases. This file models the coordinator, the leases and the
streaming loop as the code computes them, one event at a time.
-/

namespace LfsCloud

/-- Failures of upload staging. The payload of a storage failure is not read by
any staging code, so it is left out. -/
inductive UploadStagingError
  | payloadTooLarge
  | concurrencyLimit
  | insufficientTempSpace (requiredSpace availableSpace : Option ℕ)
  | timedOut
  | storage
  deriving DecidableEq, Repr

/-- The limits one staging call runs under. -/
structure UploadStagingGuardrails where
  /-- Largest body that is streamed to a staging file. -/
  maxUploadBytes : ℕ
  /-- Bytes that must stay free in the staging directory. -/
  minFreeBytes : ℕ
  deriving DecidableEq, Repr

/-- `MAX_UPLOAD_OBJECT_BYTES`. -/
def maxUploadObjectBytes : ℕ := 5 * 1024 * 1024 * 1024

/-- `MIN_UPLOAD_STAGING_FREE_BYTES`. -/
def minUploadStagingFreeBytes : ℕ := 64 * 1024 * 1024

/-- The guardrails of the request handler. -/
def UploadStagingGuardrails.default : UploadStagingGuardrails :=
  ⟨maxUploadObjectBytes, minUploadStagingFreeBytes⟩

/-- The accounting shared by all reservations of one coordinator. -/
structure UploadStagingReservationState where
  /-- Free space seen by the first reservation of the current group. -/
  availableSpaceSnapshot : Option ℕ
  /-- Bytes charged by live reservations. -/
  reservedBytes : ℕ
  deriving DecidableEq, Repr

namespace UploadStagingReservationState

/-- Charge `expectedSize` bytes against the shared snapshot. The outer `none` is
the panic of the `expect` after validation. The state is returned on failure too:
the snapshot is filled in before the aggregate check. -/
def reserveWithAvailableSpace (state : UploadStagingReservationState)
    (expectedSize minFreeBytes availableSpace : ℕ) :
    Option (Except UploadStagingError ℕ × UploadStagingReservationState) :=
  match checkedAdd expectedSize minFreeBytes with
  | none => some (.error (.insufficientTempSpace none (some availableSpace)), state)
  | some requestRequired =>
    if availableSpace < requestRequired then
      some (.error (.insufficientTempSpace (some requestRequired) (some availableSpace)), state)
    else
      let snapshot := state.availableSpaceSnapshot.getD availableSpace
      let state := { state with availableSpaceSnapshot := some snapshot }
      match (checkedAdd state.reservedBytes expectedSize).bind (checkedAdd · minFreeBytes) with
      | none => some (.error (.insufficientTempSpace none (some snapshot)), state)
      | some aggregateRequired =>
        if snapshot < aggregateRequired then
          some (.error (.insufficientTempSpace (some aggregateRequired) (some snapshot)), state)
        else
          (checkedAdd state.reservedBytes expectedSize).map fun reserved =>
            (.ok expectedSize, { state with reservedBytes := reserved })

/-- Dropping a reservation of `bytes`. `none` is the panic of the `expect` that a
reservation releases exactly once. -/
def release (state : UploadStagingReservationState) (bytes : ℕ) :
    Option UploadStagingReservationState :=
  (checkedSub state.reservedBytes bytes).map fun reserved =>
    if reserved = 0 then ⟨none, reserved⟩ else { state with reservedBytes := reserved }

/-- Dropping the optional reservation of a lease. -/
def releaseReservation (state : UploadStagingReservationState) :
    Option ℕ → Option UploadStagingReservationState
  | none => some state
  | some bytes => state.release bytes

end UploadStagingReservationState

/-- What a lease is being used for. -/
inductive StagingPhase
  /-- Admitted, no reservation yet. -/
  | admitted
  /-- Reserved, with the body being streamed. -/
  | streaming
  /-- The body is complete and verified. -/
  | staged
  /-- The staging call has failed and only the drop of the lease is left. -/
  | failed
  deriving DecidableEq, Repr

/-- A live lease together with the staging file written under it. -/
structure UploadStagingLease where
  principal : String
  /-- The semaphore of the principal, by identity. -/
  userSemaphore : ℕ
  /-- Bytes charged to the coordinator, once reserved. -/
  reservation : Option ℕ
  /-- Size declared by the request, when it declares one. -/
  expectedSize : Option ℕ
  phase : StagingPhase
  /-- The `actual_size` counter of the streaming loop. -/
  actualSize : ℕ
  /-- Bytes in the staging file. -/
  fileBytes : ℕ
  deriving DecidableEq, Repr

/-- The bytes a lease has reserved, zero before its reservation. -/
def UploadStagingLease.reservedBytes (lease : UploadStagingLease) : ℕ := lease.reservation.getD 0

/-- The lease once it holds a reservation, ready to stream the body. -/
def UploadStagingLease.reserved (lease : UploadStagingLease) (bytes : ℕ)
    (expectedSize : Option ℕ) : UploadStagingLease :=
  { lease with reservation := some bytes, expectedSize := expectedSize, phase := .streaming }

/-- A coordinator: one global semaphore, one semaphore per active principal held
through weak references, and the shared accounting. -/
structure UploadStagingCoordinator where
  /-- Free permits of the global semaphore. -/
  globalSlots : ℕ
  perUserLimit : ℕ
  /-- Weak references to user semaphores. -/
  perUserSlots : Table String ℕ
  /-- Free permits of every user semaphore. -/
  userPermits : ℕ → ℕ
  /-- Identity of the next user semaphore. -/
  nextSemaphore : ℕ
  reservations : UploadStagingReservationState

/-- A fresh coordinator. -/
def UploadStagingCoordinator.new (globalLimit perUserLimit : ℕ) : UploadStagingCoordinator :=
  ⟨globalLimit, perUserLimit, ∅, fun _ => 0, 0, ⟨none, 0⟩⟩

/-- The coordinator and all live leases. -/
structure StagingState where
  coordinator : UploadStagingCoordinator
  leases : Table ℕ UploadStagingLease
  /-- Identity of the next lease. -/
  nextLease : ℕ

/-- No lease is live yet. -/
def StagingState.new (globalLimit perUserLimit : ℕ) : StagingState :=
  ⟨.new globalLimit perUserLimit, ∅, 0⟩

/-- The strong count of a user semaphore: the permits that keep it alive. -/
def StagingState.strongCount (s : StagingState) (semaphore : ℕ) : ℕ :=
  s.leases.count (fun lease => lease.userSemaphore == semaphore)

/-- The user semaphore for a principal, after dead entries are purged and a new
one is made where none is alive. -/
def StagingState.userSlots (s : StagingState) (principal : String) :
    ℕ × UploadStagingCoordinator :=
  let slots := s.coordinator.perUserSlots.filter fun _ semaphore => 0 < s.strongCount semaphore
  match slots.lookup principal with
  | some semaphore => (semaphore, { s.coordinator with perUserSlots := slots })
  | none =>
    let semaphore := s.coordinator.nextSemaphore
    (semaphore, { s.coordinator with
      perUserSlots := slots.insert principal semaphore
      userPermits := Function.update s.coordinator.userPermits semaphore s.coordinator.perUserLimit
      nextSemaphore := semaphore + 1 })

/-- Admission: a global permit, then a permit of the principal's semaphore. When
the second is refused, the first is dropped again. -/
def StagingState.tryAcquire (s : StagingState) (principal : String) :
    Except UploadStagingError ℕ × StagingState :=
  if s.coordinator.globalSlots = 0 then (.error .concurrencyLimit, s)
  else
    let (semaphore, coordinator) := s.userSlots principal
    if coordinator.userPermits semaphore = 0 then
      (.error .concurrencyLimit, { s with coordinator := coordinator })
    else
      (.ok s.nextLease,
        { coordinator := { coordinator with
            globalSlots := coordinator.globalSlots - 1
            userPermits := Function.update coordinator.userPermits semaphore
              (coordinator.userPermits semaphore - 1) }
          leases := s.leases.insert s.nextLease
            ⟨principal, semaphore, none, none, .admitted, 0, 0⟩
          nextLease := s.nextLease + 1 })

/-- Dropping a lease releases its reservation and both permits, and its staging
file goes with it. `none` is a panic of the release. -/
def StagingState.dropLease (s : StagingState) (id : ℕ) (lease : UploadStagingLease) :
    Option StagingState :=
  (s.coordinator.reservations.releaseReservation lease.reservation).map fun reservations =>
    { s with
      coordinator := { s.coordinator with
        globalSlots := s.coordinator.globalSlots + 1
        userPermits := Function.update s.coordinator.userPermits lease.userSemaphore
          (s.coordinator.userPermits lease.userSemaphore + 1)
        reservations := reservations }
      leases := s.leases.erase id }

/-- The preflight size: the declared one, or the whole limit when none is declared. -/
def uploadStagingPreflightSize (expectedSize : Option ℕ) (maxUploadBytes : ℕ) :
    Except UploadStagingError ℕ :=
  let size := expectedSize.getD maxUploadBytes
  if maxUploadBytes < size then .error .payloadTooLarge else .ok size

/-- The start of `stage_upload_request_body_with_lease`: the preflight check and
the reservation. `availableSpace` is `none` when the staging file or the free-space
inspection fails. -/
def StagingState.reserve (g : UploadStagingGuardrails) (s : StagingState) (id : ℕ)
    (lease : UploadStagingLease) (expectedSize availableSpace : Option ℕ) :
    Option (Except UploadStagingError Unit × StagingState) :=
  let fail (s : StagingState) (error : UploadStagingError) :=
    some (.error error, { s with leases := s.leases.insert id { lease with phase := .failed } })
  match uploadStagingPreflightSize expectedSize g.maxUploadBytes with
  | .error error => fail s error
  | .ok preflightSize =>
    match availableSpace with
    | none => fail s .storage
    | some available =>
      match s.coordinator.reservations.reserveWithAvailableSpace preflightSize g.minFreeBytes
          available with
      | none => none
      | some (.error error, reservations) =>
        fail { s with coordinator := { s.coordinator with reservations := reservations } } error
      | some (.ok bytes, reservations) =>
        some (.ok (),
          { s with
            coordinator := { s.coordinator with reservations := reservations }
            leases := s.leases.insert id (lease.reserved bytes expectedSize) })

/-- One turn of the streaming loop on a chunk of `length` bytes, of which the file
takes `written`. A short write fails the call. -/
def UploadStagingLease.writeChunk (g : UploadStagingGuardrails) (lease : UploadStagingLease)
    (length written : ℕ) : UploadStagingLease :=
  match checkedAdd lease.actualSize length with
  | none => { lease with phase := .failed }
  | some nextSize =>
    if g.maxUploadBytes < nextSize then { lease with phase := .failed }
    else { lease with
      actualSize := nextSize
      fileBytes := lease.fileBytes + min written length
      phase := if written < length then .failed else lease.phase }

/-- The checks after the body has ended: the declared size, then the digest. -/
def UploadStagingLease.finish (lease : UploadStagingLease) (digestMatches : Bool) :
    UploadStagingLease :=
  if lease.expectedSize.any (· != lease.actualSize) then { lease with phase := .failed }
  else if digestMatches then { lease with phase := .staged }
  else { lease with phase := .failed }

/-- What can happen to a coordinator and its leases. -/
inductive StagingEvent
  /-- A request of a principal asks for a lease. -/
  | tryAcquire (principal : String)
  /-- A staging call starts with a declared size and the free space it finds. -/
  | reserve (lease : ℕ) (expectedSize availableSpace : Option ℕ)
  /-- The body yields a chunk, of which the file takes some bytes. -/
  | chunk (lease length written : ℕ)
  /-- The body fails or times out. -/
  | bodyError (lease : ℕ)
  /-- The body ends. -/
  | finish (lease : ℕ) (digestMatches : Bool)
  /-- The owner of the lease goes away. -/
  | drop (lease : ℕ)
  deriving DecidableEq, Repr

/-- Run `f` on a live lease in the given phase. -/
def StagingState.onLease (s : StagingState) (id : ℕ) (phase : StagingPhase)
    (f : UploadStagingLease → Option StagingState) : Option StagingState :=
  (s.leases.lookup id).bind fun lease => if lease.phase = phase then f lease else none

/-- Replace a live lease. -/
def StagingState.setLease (s : StagingState) (id : ℕ) (lease : UploadStagingLease) :
    StagingState :=
  { s with leases := s.leases.insert id lease }

/-- One event. `none` when the event is not enabled, or on a panic. -/
def stagingStep (g : UploadStagingGuardrails) (s : StagingState) : StagingEvent → Option StagingState
  | .tryAcquire principal => some (s.tryAcquire principal).2
  | .reserve id expectedSize availableSpace =>
    s.onLease id .admitted fun lease =>
      (s.reserve g id lease expectedSize availableSpace).map Prod.snd
  | .chunk id length written =>
    s.onLease id .streaming fun lease => some (s.setLease id (lease.writeChunk g length written))
  | .bodyError id =>
    s.onLease id .streaming fun lease => some (s.setLease id { lease with phase := .failed })
  | .finish id digestMatches =>
    s.onLease id .streaming fun lease => some (s.setLease id (lease.finish digestMatches))
  | .drop id => (s.leases.lookup id).bind (s.dropLease id)

end LfsCloud
