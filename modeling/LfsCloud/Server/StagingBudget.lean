import LfsCloud.Lib.Transition
import LfsCloud.Server.Staging

/-!
# The staging disk budget

The coordinator's accounting is exact in every reachable state. What is written
is bounded by the streaming loop alone, which compares with the global upload
limit and not with the reservation, so the bytes in a file stay within its
reservation exactly as long as no body runs past the size its request declared.
-/

namespace LfsCloud

open Transition

namespace UploadStagingReservationState

/-- The accounting invariant: a held snapshot covers all reserved bytes and the
bytes to keep free, and bytes are only reserved while a snapshot is held. -/
structure Sound (minFreeBytes : ℕ) (state : UploadStagingReservationState) : Prop where
  snapshot_covers : ∀ snapshot, state.availableSpaceSnapshot = some snapshot →
    state.reservedBytes + minFreeBytes ≤ snapshot
  snapshot_held : 0 < state.reservedBytes → state.availableSpaceSnapshot.isSome

theorem Sound.empty (minFreeBytes : ℕ) : Sound minFreeBytes ⟨none, 0⟩ :=
  ⟨by simp, by simp⟩

/-- What a reservation call does: it fails and changes nothing, or it charges
exactly the requested bytes against a snapshot that covers the new sum. -/
theorem Sound.reserve_cases {minFreeBytes : ℕ} {state : UploadStagingReservationState}
    (hsound : state.Sound minFreeBytes) (expectedSize availableSpace : ℕ) :
    (∃ error, state.reserveWithAvailableSpace expectedSize minFreeBytes availableSpace =
      some (.error error, state)) ∨
    (∃ snapshot, state.reservedBytes + expectedSize + minFreeBytes ≤ snapshot ∧
      state.reserveWithAvailableSpace expectedSize minFreeBytes availableSpace =
        some (.ok expectedSize, ⟨some snapshot, state.reservedBytes + expectedSize⟩)) := by
  obtain ⟨snapshot, reserved⟩ := state
  unfold reserveWithAvailableSpace
  by_cases hrequest : expectedSize + minFreeBytes < u64Size
  swap
  · left
    simp [checkedAdd, hrequest]
  by_cases havailable : availableSpace < expectedSize + minFreeBytes
  · left
    simp [checkedAdd, hrequest, havailable]
  cases snapshot with
  | none =>
    -- Nothing is reserved, so the aggregate check repeats the check of the request.
    have hzero : reserved = 0 := by
      have := hsound.snapshot_held
      simp only [Option.isSome_none, Bool.false_eq_true, imp_false] at this
      omega
    subst hzero
    right
    refine ⟨availableSpace, by dsimp only; omega, ?_⟩
    have hsize : expectedSize < u64Size := by omega
    simp [checkedAdd, hrequest, havailable, hsize]
  | some snapshot =>
    by_cases hadd : reserved + expectedSize < u64Size
    swap
    · left
      simp [checkedAdd, hrequest, havailable, hadd]
    by_cases haggregate : reserved + expectedSize + minFreeBytes < u64Size
    swap
    · left
      simp [checkedAdd, hrequest, havailable, hadd, haggregate]
    by_cases hsnapshot : snapshot < reserved + expectedSize + minFreeBytes
    · left
      simp [checkedAdd, hrequest, havailable, hadd, haggregate, hsnapshot]
    · right
      refine ⟨snapshot, by dsimp only; omega, ?_⟩
      simp [checkedAdd, hrequest, havailable, hadd, haggregate, hsnapshot]

/-- Charging within the snapshot keeps the accounting sound. -/
theorem Sound.charged {minFreeBytes snapshot reserved : ℕ}
    (h : reserved + minFreeBytes ≤ snapshot) :
    Sound minFreeBytes ⟨some snapshot, reserved⟩ :=
  ⟨by rintro _ ⟨rfl⟩; exact h, by simp⟩

/-- Releasing what has been reserved never underflows, subtracts exactly the
released bytes, and keeps the accounting sound. -/
theorem Sound.release {minFreeBytes : ℕ} {state : UploadStagingReservationState}
    (hsound : state.Sound minFreeBytes) {bytes : ℕ} (hle : bytes ≤ state.reservedBytes) :
    ∃ state', state.release bytes = some state' ∧ state'.Sound minFreeBytes ∧
      state'.reservedBytes + bytes = state.reservedBytes := by
  unfold UploadStagingReservationState.release
  simp only [checkedSub, if_pos hle, Option.map_some]
  by_cases hzero : state.reservedBytes - bytes = 0
  · refine ⟨⟨none, state.reservedBytes - bytes⟩, by simp [hzero], ?_, by simp; omega⟩
    rw [hzero]
    exact .empty minFreeBytes
  · refine ⟨{ state with reservedBytes := state.reservedBytes - bytes }, by simp [hzero], ?_,
      by simp; omega⟩
    refine ⟨fun snapshot hsnapshot => ?_, fun _ => hsound.snapshot_held (by omega)⟩
    have := hsound.snapshot_covers snapshot hsnapshot
    dsimp only
    omega

theorem Sound.releaseReservation {minFreeBytes : ℕ} {state : UploadStagingReservationState}
    (hsound : state.Sound minFreeBytes) {reservation : Option ℕ}
    (hle : reservation.getD 0 ≤ state.reservedBytes) :
    ∃ state', state.releaseReservation reservation = some state' ∧ state'.Sound minFreeBytes ∧
      state'.reservedBytes + reservation.getD 0 = state.reservedBytes := by
  cases reservation with
  | none => exact ⟨state, rfl, hsound, rfl⟩
  | some bytes => exact hsound.release hle

end UploadStagingReservationState

/-- The size a request declares, the whole limit when it declares none. -/
def UploadStagingLease.declaredSize (g : UploadStagingGuardrails) (lease : UploadStagingLease) :
    ℕ :=
  lease.expectedSize.getD g.maxUploadBytes

/-- The invariant of every lease on its own. -/
structure UploadStagingLease.Sound (g : UploadStagingGuardrails) (lease : UploadStagingLease) :
    Prop where
  admitted : lease.phase = .admitted → lease.reservation = none
  streaming : lease.phase = .streaming → lease.reservation = some (lease.declaredSize g)
  empty : lease.reservation = none → lease.fileBytes = 0

/-- The invariant of the coordinator and all leases. -/
structure StagingState.Sound (g : UploadStagingGuardrails) (globalLimit perUserLimit : ℕ)
    (s : StagingState) : Prop where
  fresh : ∀ id, s.nextLease ≤ id → s.leases.lookup id = none
  lease : ∀ id lease, s.leases.lookup id = some lease → lease.Sound g
  global : s.coordinator.globalSlots + s.leases.total (fun _ => 1) = globalLimit
  reserved : s.coordinator.reservations.reservedBytes =
    s.leases.total UploadStagingLease.reservedBytes
  accounting : s.coordinator.reservations.Sound g.minFreeBytes
  limit : s.coordinator.perUserLimit = perUserLimit
  slot : ∀ id lease, s.leases.lookup id = some lease →
    s.coordinator.perUserSlots.lookup lease.principal = some lease.userSemaphore
  permits : ∀ principal semaphore,
    s.coordinator.perUserSlots.lookup principal = some semaphore →
      s.coordinator.userPermits semaphore + s.strongCount semaphore = perUserLimit
  owner : ∀ p q semaphore, s.coordinator.perUserSlots.lookup p = some semaphore →
    s.coordinator.perUserSlots.lookup q = some semaphore → p = q
  known : ∀ principal semaphore,
    s.coordinator.perUserSlots.lookup principal = some semaphore →
      semaphore < s.coordinator.nextSemaphore

section

variable {g : UploadStagingGuardrails} {globalLimit perUserLimit : ℕ} {s : StagingState}

theorem StagingState.Sound.new (g : UploadStagingGuardrails) (globalLimit perUserLimit : ℕ) :
    (StagingState.new globalLimit perUserLimit).Sound g globalLimit perUserLimit where
  fresh _ _ := rfl
  lease _ _ h := by simp [StagingState.new] at h
  global := rfl
  reserved := rfl
  accounting := .empty _
  limit := rfl
  slot _ _ h := by simp [StagingState.new] at h
  permits _ _ h := by simp [StagingState.new, UploadStagingCoordinator.new] at h
  owner _ _ _ h := by simp [StagingState.new, UploadStagingCoordinator.new] at h
  known _ _ h := by simp [StagingState.new, UploadStagingCoordinator.new] at h

/-- A semaphore that is not handed out yet is held by no lease. -/
theorem StagingState.Sound.strongCount_fresh (hs : s.Sound g globalLimit perUserLimit)
    {semaphore : ℕ} (h : s.coordinator.nextSemaphore ≤ semaphore) :
    s.strongCount semaphore = 0 := by
  by_contra hpos
  obtain ⟨id, lease, hlookup, hlease⟩ := Table.count_pos_iff.mp (Nat.pos_of_ne_zero hpos)
  have hsame : lease.userSemaphore = semaphore := by simpa using hlease
  have := hs.known _ _ (hs.slot id lease hlookup)
  omega

/-- Every live lease keeps its semaphore alive. -/
theorem StagingState.strongCount_pos {id : ℕ} {lease : UploadStagingLease}
    (h : s.leases.lookup id = some lease) : 0 < s.strongCount lease.userSemaphore :=
  Table.count_pos_iff.mpr ⟨id, lease, h, by simp⟩

/-- A principal's semaphore is held by exactly the principal's own leases. -/
theorem StagingState.Sound.strongCount_eq (hs : s.Sound g globalLimit perUserLimit)
    {principal : String} {semaphore : ℕ}
    (h : s.coordinator.perUserSlots.lookup principal = some semaphore) :
    s.strongCount semaphore = s.leases.count (fun lease => lease.principal == principal) := by
  have hsame : ∀ id lease, s.leases.lookup id = some lease →
      (lease.userSemaphore = semaphore ↔ lease.principal = principal) := by
    intro id lease hlookup
    have hslot := hs.slot id lease hlookup
    constructor
    · rintro rfl
      exact hs.owner _ _ _ hslot h
    · rintro rfl
      exact Option.some.inj (hslot.symm.trans h)
  apply le_antisymm <;> refine Table.count_le_count fun id lease hlookup hlease => ?_
  · simpa [hsame id lease hlookup] using hlease
  · simpa [hsame id lease hlookup] using hlease

/-- Replacing a lease by one that holds the same permits keeps the invariant, when
the accounting follows the change of its reservation. -/
theorem StagingState.Sound.updateLease (hs : s.Sound g globalLimit perUserLimit) {id : ℕ}
    {lease : UploadStagingLease} (lease' : UploadStagingLease)
    {reservations : UploadStagingReservationState}
    (hlookup : s.leases.lookup id = some lease)
    (hprincipal : lease'.principal = lease.principal)
    (hsemaphore : lease'.userSemaphore = lease.userSemaphore) (hlease : lease'.Sound g)
    (hsound : reservations.Sound g.minFreeBytes)
    (hbytes : reservations.reservedBytes + lease.reservedBytes =
      s.coordinator.reservations.reservedBytes + lease'.reservedBytes) :
    StagingState.Sound g globalLimit perUserLimit { s with
      coordinator := { s.coordinator with reservations := reservations }
      leases := s.leases.insert id lease' } where
  fresh j hj := by
    have hne : j ≠ id := by
      rintro rfl
      rw [hs.fresh j hj] at hlookup
      cases hlookup
    exact (AList.lookup_insert_ne hne).trans (hs.fresh j hj)
  lease j l hl := by
    rcases Table.lookup_insert_eq_some.mp hl with ⟨_, rfl⟩ | ⟨_, hl⟩
    · exact hlease
    · exact hs.lease j l hl
  global := by
    rw [← hs.global]
    exact congrArg _ (Table.total_insert_eq hlookup rfl)
  reserved := by
    have hsum := Table.total_insert_of_lookup UploadStagingLease.reservedBytes lease' hlookup
    have := hs.reserved
    dsimp only
    omega
  accounting := hsound
  limit := hs.limit
  slot j l hl := by
    rcases Table.lookup_insert_eq_some.mp hl with ⟨_, rfl⟩ | ⟨_, hl⟩
    · rw [hprincipal, hsemaphore]
      exact hs.slot id lease hlookup
    · exact hs.slot j l hl
  permits p k hk := by
    refine (congrArg _ ?_).trans (hs.permits p k hk)
    exact Table.count_insert_eq hlookup (by rw [hsemaphore])
  owner := hs.owner
  known := hs.known

/-- Replacing a lease by one that also holds the same reservation. -/
theorem StagingState.Sound.setLease (hs : s.Sound g globalLimit perUserLimit) {id : ℕ}
    {lease lease' : UploadStagingLease} (hlookup : s.leases.lookup id = some lease)
    (hprincipal : lease'.principal = lease.principal)
    (hsemaphore : lease'.userSemaphore = lease.userSemaphore)
    (hreservation : lease'.reservation = lease.reservation) (hlease : lease'.Sound g) :
    (s.setLease id lease').Sound g globalLimit perUserLimit :=
  hs.updateLease lease' hlookup hprincipal hsemaphore hlease hs.accounting
    (by simp [UploadStagingLease.reservedBytes, hreservation])

/-- Dropping a lease never underflows and returns its permits and its bytes. -/
theorem StagingState.Sound.dropLease (hs : s.Sound g globalLimit perUserLimit) {id : ℕ}
    {lease : UploadStagingLease} (hlookup : s.leases.lookup id = some lease) :
    ∃ t, s.dropLease id lease = some t ∧ t.Sound g globalLimit perUserLimit := by
  have hle : lease.reservedBytes ≤ s.coordinator.reservations.reservedBytes := by
    rw [hs.reserved]
    exact Table.le_total _ hlookup
  obtain ⟨reservations, hreleased, hsound, hbytes⟩ := hs.accounting.releaseReservation hle
  refine ⟨_, by unfold StagingState.dropLease; rw [hreleased]; rfl, ?_⟩
  refine ⟨?_, ?_, ?_, ?_, hsound, hs.limit, ?_, ?_, hs.owner, hs.known⟩
  · intro j hj
    by_cases hne : j = id
    · subst hne
      exact AList.lookup_erase _ _
    · exact (AList.lookup_erase_ne hne).trans (hs.fresh j hj)
  · intro j l hl
    exact hs.lease j l (Table.lookup_erase_eq_some.mp hl).2
  · have hone := Table.total_erase (fun _ => 1) hlookup
    have := hs.global
    dsimp only
    omega
  · have hsum : _ + lease.reservation.getD 0 = _ :=
      Table.total_erase UploadStagingLease.reservedBytes hlookup
    have := hs.reserved
    dsimp only
    omega
  · intro j l hl
    exact hs.slot j l (Table.lookup_erase_eq_some.mp hl).2
  · intro p k hk
    have hcount := Table.count_erase (fun l => l.userSemaphore == k) hlookup
    have hpermits := hs.permits p k hk
    unfold StagingState.strongCount at hpermits ⊢
    by_cases hsem : k = lease.userSemaphore
    · subst hsem
      simp only [BEq.rfl, if_true] at hcount
      simp only [Function.update_self]
      omega
    · have hne : (lease.userSemaphore == k) = false := by simpa using Ne.symm hsem
      simp only [hne, Bool.false_eq_true, if_false] at hcount
      simp only [Function.update_of_ne hsem]
      omega

/-- Looking up the principal's semaphore keeps the invariant, returns the registered
semaphore, and takes no permit. -/
theorem StagingState.Sound.userSlots (hs : s.Sound g globalLimit perUserLimit)
    (principal : String) :
    StagingState.Sound g globalLimit perUserLimit
        { s with coordinator := (s.userSlots principal).2 } ∧
      (s.userSlots principal).2.perUserSlots.lookup principal =
        some (s.userSlots principal).1 ∧
      (s.userSlots principal).2.globalSlots = s.coordinator.globalSlots ∧
      (s.userSlots principal).2.reservations = s.coordinator.reservations := by
  have hkept : ∀ {p semaphore}, (s.coordinator.perUserSlots.filter
      fun _ semaphore => decide (0 < s.strongCount semaphore)).lookup p = some semaphore →
        s.coordinator.perUserSlots.lookup p = some semaphore :=
    fun h => (Table.lookup_filter_eq_some.mp h).1
  have hlive : ∀ id lease, s.leases.lookup id = some lease →
      (s.coordinator.perUserSlots.filter fun _ semaphore =>
        decide (0 < s.strongCount semaphore)).lookup lease.principal =
          some lease.userSemaphore :=
    fun id lease h => Table.lookup_filter_eq_some.mpr
      ⟨hs.slot id lease h, by simpa using strongCount_pos h⟩
  unfold StagingState.userSlots
  dsimp only
  split
  next semaphore hfound =>
    refine ⟨⟨hs.fresh, hs.lease, hs.global, hs.reserved, hs.accounting, hs.limit, hlive,
      fun p k hk => hs.permits p k (hkept hk),
      fun p q k hp hq => hs.owner p q k (hkept hp) (hkept hq),
      fun p k hk => hs.known p k (hkept hk)⟩, hfound, rfl, rfl⟩
  next hmissing =>
    refine ⟨⟨hs.fresh, hs.lease, hs.global, hs.reserved, hs.accounting, hs.limit, ?_, ?_, ?_, ?_⟩,
      AList.lookup_insert _, rfl, rfl⟩
    · intro id lease hlookup
      have hne : lease.principal ≠ principal := by
        rintro rfl
        rw [hlive id lease hlookup] at hmissing
        cases hmissing
      exact Table.lookup_insert_eq_some.mpr (.inr ⟨hne, hlive id lease hlookup⟩)
    · intro p k hk
      rcases Table.lookup_insert_eq_some.mp hk with ⟨_, rfl⟩ | ⟨_, hk⟩
      · have hzero := hs.strongCount_fresh (le_refl s.coordinator.nextSemaphore)
        have hlimit := hs.limit
        unfold StagingState.strongCount at hzero ⊢
        simp only [Function.update_self]
        omega
      · have hold := hs.known p k (hkept hk)
        simp only [Function.update_of_ne hold.ne]
        exact hs.permits p k (hkept hk)
    · intro p q k hp hq
      rcases Table.lookup_insert_eq_some.mp hp with ⟨rfl, rfl⟩ | ⟨_, hp⟩ <;>
        rcases Table.lookup_insert_eq_some.mp hq with ⟨hqp, hk⟩ | ⟨_, hq⟩
      · exact hqp.symm
      · exact absurd (hs.known q _ (hkept hq)) (lt_irrefl _)
      · subst hk
        exact absurd (hs.known p _ (hkept hp)) (lt_irrefl _)
      · exact hs.owner p q k (hkept hp) (hkept hq)
    · intro p k hk
      rcases Table.lookup_insert_eq_some.mp hk with ⟨_, rfl⟩ | ⟨_, hk⟩
      · exact Nat.lt_succ_self _
      · exact (hs.known p k (hkept hk)).trans (Nat.lt_succ_self _)

/-- Admission keeps the invariant, whether it grants a lease or not. -/
theorem StagingState.Sound.tryAcquire (hs : s.Sound g globalLimit perUserLimit)
    (principal : String) : (s.tryAcquire principal).2.Sound g globalLimit perUserLimit := by
  obtain ⟨hslots, hlookup, hglobal, _⟩ := hs.userSlots principal
  unfold StagingState.tryAcquire
  split
  · exact hs
  next hfree =>
  dsimp only
  generalize (s.userSlots principal).2 = coordinator at *
  generalize (s.userSlots principal).1 = semaphore at *
  split
  · exact hslots
  next hpermit =>
  have hnew : s.leases.lookup s.nextLease = none := hs.fresh _ le_rfl
  refine ⟨?_, ?_, ?_, ?_, hslots.accounting, hslots.limit, ?_, ?_, hslots.owner, hslots.known⟩
  · intro id hid
    have hid' : s.nextLease < id := hid
    exact (AList.lookup_insert_ne hid'.ne').trans (hs.fresh id hid'.le)
  · intro id lease hlease
    rcases Table.lookup_insert_eq_some.mp hlease with ⟨_, rfl⟩ | ⟨_, hlease⟩
    · exact ⟨fun _ => rfl, by simp, fun _ => rfl⟩
    · exact hs.lease id lease hlease
  · have hone := Table.total_insert_of_notMem (fun _ => 1)
      (⟨principal, semaphore, none, none, .admitted, 0, 0⟩ : UploadStagingLease) hnew
    have := hs.global
    dsimp only
    omega
  · have hsum := Table.total_insert_of_notMem UploadStagingLease.reservedBytes
      (⟨principal, semaphore, none, none, .admitted, 0, 0⟩ : UploadStagingLease) hnew
    exact hslots.reserved.trans hsum.symm
  · intro id lease hlease
    rcases Table.lookup_insert_eq_some.mp hlease with ⟨_, rfl⟩ | ⟨_, hlease⟩
    · exact hlookup
    · exact hslots.slot id lease hlease
  · intro p k hk
    have hcount := Table.count_insert_of_notMem (fun l => l.userSemaphore == k)
      (⟨principal, semaphore, none, none, .admitted, 0, 0⟩ : UploadStagingLease) hnew
    have hpermits := hslots.permits p k hk
    unfold StagingState.strongCount at hpermits ⊢
    dsimp only at hpermits ⊢
    by_cases hsem : k = semaphore
    · subst hsem
      simp only [BEq.rfl, if_true] at hcount
      simp only [Function.update_self]
      omega
    · have hne : (semaphore == k) = false := by simpa using Ne.symm hsem
      simp only [hne, Bool.false_eq_true, if_false] at hcount
      simp only [Function.update_of_ne hsem]
      omega

/-- The permits a principal could still take: those of the semaphore the next
admission would find. -/
def StagingState.userAvailable (s : StagingState) (principal : String) : ℕ :=
  (s.userSlots principal).2.userPermits (s.userSlots principal).1

/-- A principal's free permits and live leases add up to the per-user limit. -/
theorem StagingState.Sound.userAvailable_add (hs : s.Sound g globalLimit perUserLimit)
    (principal : String) :
    s.userAvailable principal + s.leases.count (fun lease => lease.principal == principal) =
      perUserLimit := by
  obtain ⟨hslots, hlookup, _⟩ := hs.userSlots principal
  have hcount := hslots.strongCount_eq hlookup
  have hpermits := hslots.permits _ _ hlookup
  rw [hcount] at hpermits
  exact hpermits

/-- A staging call reserves the declared size of the request, or it fails and
leaves the coordinator as it was. It never panics. -/
theorem StagingState.Sound.reserve (hs : s.Sound g globalLimit perUserLimit) {id : ℕ}
    {lease : UploadStagingLease} (hlookup : s.leases.lookup id = some lease)
    (hphase : lease.phase = .admitted) (expectedSize availableSpace : Option ℕ) :
    ∃ result t, s.reserve g id lease expectedSize availableSpace = some (result, t) ∧
      t.Sound g globalLimit perUserLimit ∧
      ((∃ error, result = .error error ∧
          t = s.setLease id { lease with phase := .failed }) ∨
        (result = .ok () ∧ t.leases = s.leases.insert id
          (lease.reserved (expectedSize.getD g.maxUploadBytes) expectedSize))) := by
  have hlease := hs.lease id lease hlookup
  have hnone := hlease.admitted hphase
  have hfailed : (s.setLease id { lease with phase := .failed }).Sound g globalLimit
      perUserLimit :=
    hs.setLease hlookup rfl rfl rfl ⟨by simp, by simp, hlease.empty⟩
  by_cases hsize : g.maxUploadBytes < expectedSize.getD g.maxUploadBytes
  · refine ⟨.error .payloadTooLarge, _, ?_, hfailed, .inl ⟨_, rfl, rfl⟩⟩
    simp [StagingState.reserve, uploadStagingPreflightSize, hsize, StagingState.setLease]
  cases availableSpace with
  | none =>
    refine ⟨.error .storage, _, ?_, hfailed, .inl ⟨_, rfl, rfl⟩⟩
    simp [StagingState.reserve, uploadStagingPreflightSize, hsize, StagingState.setLease]
  | some available =>
    rcases hs.accounting.reserve_cases (expectedSize.getD g.maxUploadBytes) available with
      ⟨error, hcall⟩ | ⟨snapshot, hcovers, hcall⟩
    · refine ⟨.error error, _, ?_, hfailed, .inl ⟨_, rfl, rfl⟩⟩
      simp [StagingState.reserve, uploadStagingPreflightSize, hsize, hcall, StagingState.setLease]
    · have hzero : lease.reservedBytes = 0 := by simp [UploadStagingLease.reservedBytes, hnone]
      have hsound := hs.updateLease
        (lease.reserved (expectedSize.getD g.maxUploadBytes) expectedSize) hlookup rfl rfl
        ⟨nofun, fun _ => rfl, nofun⟩ (.charged hcovers) (by rw [hzero]; rfl)
      refine ⟨.ok (), _, ?_, hsound, .inr ⟨rfl, rfl⟩⟩
      simp [StagingState.reserve, uploadStagingPreflightSize, hsize, hcall]

/-- A refused admission grants nothing and takes nothing: leases, global permits,
the free permits of every principal and the accounting are as before. -/
theorem StagingState.Sound.tryAcquire_error (hs : s.Sound g globalLimit perUserLimit)
    {principal : String} {error : UploadStagingError} {t : StagingState}
    (h : s.tryAcquire principal = (.error error, t)) :
    t.leases = s.leases ∧ t.coordinator.globalSlots = s.coordinator.globalSlots ∧
      t.coordinator.reservations = s.coordinator.reservations ∧
      ∀ p, t.userAvailable p = s.userAvailable p := by
  have hsound : t.Sound g globalLimit perUserLimit := by
    have := hs.tryAcquire principal
    rwa [h] at this
  obtain ⟨_, _, hglobal, hreservations⟩ := hs.userSlots principal
  have hsame : t.leases = s.leases ∧ t.coordinator.globalSlots = s.coordinator.globalSlots ∧
      t.coordinator.reservations = s.coordinator.reservations := by
    unfold StagingState.tryAcquire at h
    split at h
    · cases h
      exact ⟨rfl, rfl, rfl⟩
    dsimp only at h
    split at h
    · cases h
      exact ⟨rfl, hglobal, hreservations⟩
    · cases h
  refine ⟨hsame.1, hsame.2.1, hsame.2.2, fun p => ?_⟩
  have hbefore := hs.userAvailable_add p
  have hafter := hsound.userAvailable_add p
  rw [hsame.1] at hafter
  omega

/-- Only admission adds a lease, and it adds it without a file. -/
theorem StagingState.tryAcquire_lookup {principal : String} {id : ℕ}
    {lease : UploadStagingLease} (h : (s.tryAcquire principal).2.leases.lookup id = some lease) :
    s.leases.lookup id = some lease ∨ lease.fileBytes = 0 := by
  unfold StagingState.tryAcquire at h
  split at h
  · exact .inl h
  dsimp only at h
  split at h
  · exact .inl h
  rcases Table.lookup_insert_eq_some.mp h with ⟨_, rfl⟩ | ⟨_, h⟩
  · exact .inr rfl
  · exact .inl h

/-- An event on a lease in a given phase acts on that lease. -/
theorem StagingState.onLease_eq_some {id : ℕ} {phase : StagingPhase}
    {f : UploadStagingLease → Option StagingState} {t : StagingState} :
    s.onLease id phase f = some t ↔
      ∃ lease, s.leases.lookup id = some lease ∧ lease.phase = phase ∧ f lease = some t := by
  unfold StagingState.onLease
  rw [Option.bind_eq_some_iff]
  refine exists_congr fun lease => and_congr_right fun _ => ?_
  split <;> simp_all

/-- What one turn of the streaming loop does to a lease: the chunk is refused, or
the file grows by what was written of it. -/
theorem UploadStagingLease.writeChunk_cases (g : UploadStagingGuardrails)
    (lease : UploadStagingLease) (length written : ℕ) :
    (lease.writeChunk g length written = { lease with phase := .failed } ∧
      ¬(lease.actualSize + length < u64Size ∧ lease.actualSize + length ≤ g.maxUploadBytes)) ∨
    (∃ phase, (phase = .failed ∨ phase = lease.phase) ∧
      lease.writeChunk g length written = { lease with
        actualSize := lease.actualSize + length
        fileBytes := lease.fileBytes + min written length
        phase := phase } ∧
      lease.actualSize + length < u64Size ∧ lease.actualSize + length ≤ g.maxUploadBytes) := by
  unfold UploadStagingLease.writeChunk
  by_cases hsize : lease.actualSize + length < u64Size
  swap
  · left
    simp [checkedAdd, hsize]
  by_cases hlimit : g.maxUploadBytes < lease.actualSize + length
  · left
    simp [checkedAdd, hsize, hlimit]
  · right
    refine ⟨if written < length then .failed else lease.phase, ?_, ?_, hsize, by omega⟩
    · split <;> simp
    · simp [checkedAdd, hsize, hlimit]

/-- A chunk keeps every invariant of a streaming lease but the bound on its file. -/
theorem UploadStagingLease.Sound.writeChunk {lease : UploadStagingLease}
    (hlease : lease.Sound g) (hphase : lease.phase = .streaming) (length written : ℕ) :
    (lease.writeChunk g length written).Sound g := by
  have hreserved := hlease.streaming hphase
  rcases lease.writeChunk_cases g length written with ⟨hcall, _⟩ | ⟨phase, hphase', hcall, _⟩ <;>
    rw [hcall]
  · exact ⟨by simp, by simp, hlease.empty⟩
  · refine ⟨?_, fun _ => hreserved, by simp [hreserved]⟩
    rintro hadmitted
    rcases hphase' with hfail | hsame
    · exact absurd (hadmitted.symm.trans hfail) (by simp)
    · exact absurd (hadmitted.symm.trans (hsame.trans hphase)) (by simp)

theorem UploadStagingLease.writeChunk_permits (lease : UploadStagingLease) (length written : ℕ) :
    (lease.writeChunk g length written).principal = lease.principal ∧
      (lease.writeChunk g length written).userSemaphore = lease.userSemaphore ∧
      (lease.writeChunk g length written).reservation = lease.reservation := by
  rcases lease.writeChunk_cases g length written with ⟨hcall, _⟩ | ⟨_, _, hcall, _⟩ <;>
    simp [hcall]

/-- The checks at the end of a body only move the phase. -/
theorem UploadStagingLease.finish_eq (lease : UploadStagingLease) (digestMatches : Bool) :
    ∃ phase, (phase = .staged ∨ phase = .failed) ∧
      lease.finish digestMatches = { lease with phase := phase } := by
  unfold UploadStagingLease.finish
  split
  · exact ⟨.failed, .inr rfl, rfl⟩
  split
  · exact ⟨.staged, .inl rfl, rfl⟩
  · exact ⟨.failed, .inr rfl, rfl⟩

/-- Every file is within its reservation. -/
def StagingState.Within (s : StagingState) : Prop :=
  ∀ id lease, s.leases.lookup id = some lease → lease.fileBytes ≤ lease.reservedBytes

/-- A lease that replaces another of at least as large a reservation and with no larger
a file stays within it. -/
theorem StagingState.Within.insert (hwithin : s.Within) {t : StagingState} {id : ℕ}
    {lease : UploadStagingLease} (ht : t.leases = s.leases.insert id lease)
    (hlease : lease.fileBytes ≤ lease.reservedBytes) : t.Within := by
  intro j l hl
  rw [ht] at hl
  rcases Table.lookup_insert_eq_some.mp hl with ⟨_, rfl⟩ | ⟨_, hl⟩
  · exact hlease
  · exact hwithin j l hl

/-- The body of a request stays within its declared size: a chunk that streaming
accepts does not take the file past it. -/
def BodyWithinDeclared (g : UploadStagingGuardrails) (s : StagingState) : StagingEvent → Prop
  | .chunk id length written => ∀ lease, s.leases.lookup id = some lease →
      lease.actualSize + length < u64Size → lease.actualSize + length ≤ g.maxUploadBytes →
        lease.fileBytes + min written length ≤ lease.declaredSize g
  | _ => True

/-- Every event keeps the accounting sound, whatever the bodies do. -/
theorem stagingStep_sound (hs : s.Sound g globalLimit perUserLimit) {event : StagingEvent}
    {t : StagingState} (hstep : stagingStep g s event = some t) :
    t.Sound g globalLimit perUserLimit := by
  cases event with
  | tryAcquire principal =>
    cases hstep
    exact hs.tryAcquire principal
  | reserve id expectedSize availableSpace =>
    obtain ⟨lease, hlookup, hphase, hreserve⟩ := StagingState.onLease_eq_some.mp hstep
    obtain ⟨result, u, hcall, hsound, _⟩ :=
      hs.reserve hlookup hphase expectedSize availableSpace
    rw [hcall] at hreserve
    cases hreserve
    exact hsound
  | chunk id length written =>
    obtain ⟨lease, hlookup, hphase, hset⟩ := StagingState.onLease_eq_some.mp hstep
    cases hset
    obtain ⟨hprincipal, hsemaphore, hreservation⟩ := lease.writeChunk_permits length written
    exact hs.setLease hlookup hprincipal hsemaphore hreservation
      ((hs.lease id lease hlookup).writeChunk hphase length written)
  | bodyError id =>
    obtain ⟨lease, hlookup, _, hset⟩ := StagingState.onLease_eq_some.mp hstep
    cases hset
    exact hs.setLease hlookup rfl rfl rfl
      ⟨by simp, by simp, (hs.lease id lease hlookup).empty⟩
  | finish id digestMatches =>
    obtain ⟨lease, hlookup, _, hset⟩ := StagingState.onLease_eq_some.mp hstep
    cases hset
    obtain ⟨phase, hphase, hfinish⟩ := lease.finish_eq digestMatches
    rw [hfinish]
    refine hs.setLease hlookup rfl rfl rfl
      ⟨?_, ?_, (hs.lease id lease hlookup).empty⟩ <;> rcases hphase with rfl | rfl <;> simp
  | drop id =>
    obtain ⟨lease, hlookup, hdrop⟩ := Option.bind_eq_some_iff.mp hstep
    obtain ⟨u, hcall, hsound⟩ := hs.dropLease hlookup
    rw [hcall] at hdrop
    cases hdrop
    exact hsound

/-- An event whose body stays within its declared size keeps every file within its
reservation. -/
theorem stagingStep_within (hs : s.Sound g globalLimit perUserLimit) (hwithin : s.Within)
    {event : StagingEvent} {t : StagingState} (hbody : BodyWithinDeclared g s event)
    (hstep : stagingStep g s event = some t) : t.Within := by
  cases event with
  | tryAcquire principal =>
    cases hstep
    intro id lease hlookup
    rcases StagingState.tryAcquire_lookup hlookup with hold | hempty
    · exact hwithin id lease hold
    · exact hempty ▸ Nat.zero_le _
  | reserve id expectedSize availableSpace =>
    obtain ⟨lease, hlookup, hphase, hreserve⟩ := StagingState.onLease_eq_some.mp hstep
    obtain ⟨result, u, hcall, _, hcases⟩ :=
      hs.reserve hlookup hphase expectedSize availableSpace
    rw [hcall] at hreserve
    cases hreserve
    rcases hcases with ⟨_, _, rfl⟩ | ⟨_, hleases⟩
    · exact hwithin.insert rfl (hwithin id lease hlookup)
    · have hempty := (hs.lease id lease hlookup).empty
        ((hs.lease id lease hlookup).admitted hphase)
      exact hwithin.insert hleases (hempty ▸ Nat.zero_le _)
  | chunk id length written =>
    obtain ⟨lease, hlookup, hphase, hset⟩ := StagingState.onLease_eq_some.mp hstep
    cases hset
    refine hwithin.insert rfl ?_
    have hreserved := (hs.lease id lease hlookup).streaming hphase
    rcases lease.writeChunk_cases g length written with ⟨hcall, _⟩ | ⟨_, _, hcall, hsize, hlimit⟩
      <;> rw [hcall]
    · exact hwithin id lease hlookup
    · have := hbody lease hlookup hsize hlimit
      simpa [UploadStagingLease.reservedBytes, hreserved] using this
  | bodyError id =>
    obtain ⟨lease, hlookup, _, hset⟩ := StagingState.onLease_eq_some.mp hstep
    cases hset
    exact hwithin.insert rfl (hwithin id lease hlookup)
  | finish id digestMatches =>
    obtain ⟨lease, hlookup, _, hset⟩ := StagingState.onLease_eq_some.mp hstep
    cases hset
    obtain ⟨phase, _, hfinish⟩ := lease.finish_eq digestMatches
    refine hwithin.insert rfl ?_
    rw [hfinish]
    exact hwithin id lease hlookup
  | drop id =>
    obtain ⟨lease, hlookup, hdrop⟩ := Option.bind_eq_some_iff.mp hstep
    obtain ⟨reservations, _, rfl⟩ := Option.map_eq_some_iff.mp hdrop
    intro j l hl
    exact hwithin j l (Table.lookup_erase_eq_some.mp hl).2

/-- A body that runs past its declared size leaves a file larger than its reservation. -/
theorem stagingStep_not_within (hs : s.Sound g globalLimit perUserLimit) {event : StagingEvent}
    {t : StagingState} (hbody : ¬BodyWithinDeclared g s event)
    (hstep : stagingStep g s event = some t) : ¬t.Within := by
  cases event with
  | chunk id length written =>
    obtain ⟨lease, hlookup, hphase, hset⟩ := StagingState.onLease_eq_some.mp hstep
    cases hset
    intro hwithin
    apply hbody
    intro l hl hsize hlimit
    cases Option.some.inj (hlookup.symm.trans hl)
    have hreserved := (hs.lease id lease hlookup).streaming hphase
    have hfile := hwithin id _ (AList.lookup_insert _)
    rcases lease.writeChunk_cases g length written with ⟨_, hrefused⟩ | ⟨_, _, hcall, _⟩
    · exact absurd ⟨hsize, hlimit⟩ hrefused
    · rw [hcall] at hfile
      simpa [UploadStagingLease.reservedBytes, hreserved] using hfile
  | _ => exact absurd trivial hbody

/-- The promise of the staging disk budget. -/
structure StagingBudget (g : UploadStagingGuardrails) (globalLimit perUserLimit : ℕ)
    (s : StagingState) : Prop where
  /-- The bytes of a live staging file are covered by its reservation. -/
  written_le_reserved : s.Within
  /-- The counter is the sum of the live reservations. -/
  reserved_eq_sum : s.coordinator.reservations.reservedBytes =
    s.leases.total UploadStagingLease.reservedBytes
  /-- The sum and the bytes to keep free fit the snapshot. -/
  sum_le_snapshot : ∀ snapshot,
    s.coordinator.reservations.availableSpaceSnapshot = some snapshot →
      s.leases.total UploadStagingLease.reservedBytes + g.minFreeBytes ≤ snapshot
  /-- A snapshot is held while any bytes are reserved. -/
  snapshot_held : ∀ id lease, s.leases.lookup id = some lease → 0 < lease.reservedBytes →
    s.coordinator.reservations.availableSpaceSnapshot.isSome
  /-- A refused admission changes no permit, no lease and no accounting. -/
  failed_admission : ∀ principal error t, s.tryAcquire principal = (.error error, t) →
    t.leases = s.leases ∧ t.coordinator.globalSlots = s.coordinator.globalSlots ∧
      t.coordinator.reservations = s.coordinator.reservations ∧
      ∀ p, t.userAvailable p = s.userAvailable p
  /-- A staging call never panics, and one that fails leaves the coordinator alone. -/
  failed_reservation : ∀ id lease expectedSize availableSpace,
    s.leases.lookup id = some lease → lease.phase = .admitted →
      ∃ result t, s.reserve g id lease expectedSize availableSpace = some (result, t) ∧
        ∀ error, result = .error error → t.coordinator = s.coordinator
  /-- Dropping a lease never underflows. -/
  drop_isSome : ∀ id lease, s.leases.lookup id = some lease → (s.dropLease id lease).isSome
  /-- At most the global number of leases is live. -/
  live_le : s.leases.total (fun _ => 1) ≤ globalLimit
  /-- At most the per-principal number of leases is live. -/
  live_of_principal_le : ∀ principal,
    s.leases.count (fun lease => lease.principal == principal) ≤ perUserLimit

/-- The budget follows from sound accounting and files within their reservations. -/
theorem StagingState.Sound.budget (hs : s.Sound g globalLimit perUserLimit)
    (hwithin : s.Within) : StagingBudget g globalLimit perUserLimit s where
  written_le_reserved := hwithin
  reserved_eq_sum := hs.reserved
  sum_le_snapshot snapshot hsnapshot := by
    rw [← hs.reserved]
    exact hs.accounting.snapshot_covers snapshot hsnapshot
  snapshot_held id lease hlookup hpos := by
    refine hs.accounting.snapshot_held ?_
    rw [hs.reserved]
    exact hpos.trans_le (Table.le_total _ hlookup)
  failed_admission _ _ _ h := hs.tryAcquire_error h
  failed_reservation id lease expectedSize availableSpace hlookup hphase := by
    obtain ⟨result, t, hcall, _, hcases⟩ :=
      hs.reserve hlookup hphase expectedSize availableSpace
    refine ⟨result, t, hcall, ?_⟩
    rintro error rfl
    rcases hcases with ⟨_, _, rfl⟩ | ⟨hok, _⟩
    · rfl
    · cases hok
  drop_isSome id lease hlookup := by
    obtain ⟨t, hcall, _⟩ := hs.dropLease hlookup
    rw [hcall]
    rfl
  live_le := by
    have := hs.global
    omega
  live_of_principal_le principal := by
    have := hs.userAvailable_add principal
    omega

end

/-- The staging disk budget holds throughout a sequence of events exactly when no
body puts more bytes into its file than its request declared. -/
theorem staging_budget_iff (g : UploadStagingGuardrails) (globalLimit perUserLimit : ℕ)
    (events : List StagingEvent) :
    Throughout (stagingStep g) (StagingBudget g globalLimit perUserLimit)
        (.new globalLimit perUserLimit) events ↔
      Meets (stagingStep g) (BodyWithinDeclared g) (.new globalLimit perUserLimit) events := by
  have hnew : (StagingState.new globalLimit perUserLimit).Within := by
    intro id lease h
    simp [StagingState.new] at h
  have hsound := StagingState.Sound.new g globalLimit perUserLimit
  exact throughout_iff_meets
    (I := fun s => s.Sound g globalLimit perUserLimit ∧ s.Within)
    (fun h => h.1.budget h.2)
    (fun h hbody hstep => ⟨stagingStep_sound h.1 hstep, stagingStep_within h.1 h.2 hbody hstep⟩)
    (fun h hbody hstep hbudget =>
      stagingStep_not_within h.1 hbody hstep hbudget.written_le_reserved)
    ⟨hsound, hnew⟩

/-- One request that declares a byte and sends a chunk of 4096 bytes. -/
def overrunEvents : List StagingEvent :=
  [.tryAcquire "alice", .reserve 0 (some 1) (some maxUploadObjectBytes), .chunk 0 4096 4096]

/-- A declared byte reserves a byte, and the file takes 4096. -/
theorem staging_budget_overrun :
    ¬∀ (g : UploadStagingGuardrails) (globalLimit perUserLimit : ℕ)
      (events : List StagingEvent),
        Throughout (stagingStep g) (StagingBudget g globalLimit perUserLimit)
          (.new globalLimit perUserLimit) events := by
  intro hbudget
  have hrun : ((exec (stagingStep .default) (.new 4 2) overrunEvents).bind fun s =>
      (s.leases.lookup 0).map fun lease => (lease.fileBytes, lease.reservedBytes)) =
        some (4096, 1) := by decide
  obtain ⟨s, hexec, hlease⟩ := Option.bind_eq_some_iff.mp hrun
  obtain ⟨lease, hlookup, hbytes⟩ := Option.map_eq_some_iff.mp hlease
  have hwithin := ((hbudget .default 4 2 overrunEvents).of_exec hexec).written_le_reserved
    0 lease hlookup
  obtain ⟨hfile, hreserved⟩ := Prod.mk.inj hbytes
  omega

end LfsCloud
