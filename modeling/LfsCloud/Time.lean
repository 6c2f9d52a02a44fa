import LfsCloud.Metadata.Objects

/-!
# Clock readings

A clock reading has signed 64-bit seconds and nanoseconds, a duration unsigned 64-bit
seconds and nanoseconds. Durable rows keep whole seconds since the epoch.
-/

namespace LfsCloud

/-- Nanoseconds in a second. -/
def nanosPerSecond : ℕ := 10 ^ 9

/-- `SystemTime`: nanoseconds since the epoch. -/
structure SystemTime where
  nanos : ℤ
  lower : -(2 ^ 63 * nanosPerSecond) ≤ nanos
  upper : nanos < 2 ^ 63 * nanosPerSecond
  deriving DecidableEq

theorem SystemTime.ext {t u : SystemTime} (h : t.nanos = u.nanos) : t = u := by
  cases t
  cases u
  simpa using h

instance : LinearOrder SystemTime :=
  LinearOrder.lift' SystemTime.nanos fun _ _ h => SystemTime.ext h

theorem SystemTime.le_iff {t u : SystemTime} : t ≤ u ↔ t.nanos ≤ u.nanos := Iff.rfl

theorem SystemTime.lt_iff {t u : SystemTime} : t < u ↔ t.nanos < u.nanos := Iff.rfl

/-- `Duration`. -/
structure Duration where
  nanos : ℕ
  bound : nanos < 2 ^ 64 * nanosPerSecond
  deriving DecidableEq

/-- `Duration::from_secs`. -/
def Duration.fromSecs (seconds : UInt64) : Duration where
  nanos := seconds.toNat * nanosPerSecond
  bound := Nat.mul_lt_mul_of_pos_right seconds.toNat_lt (by decide)

/-- `Duration::is_zero`. -/
def Duration.isZero (d : Duration) : Bool := d.nanos = 0

/-- `UNIX_EPOCH`. -/
def unixEpoch : SystemTime := ⟨0, by decide, by decide⟩

/-- `SystemTime::checked_add`. -/
def SystemTime.checkedAdd (t : SystemTime) (d : Duration) : Option SystemTime :=
  if h : t.nanos + d.nanos < 2 ^ 63 * nanosPerSecond then
    some ⟨t.nanos + d.nanos, by have := t.lower; omega, h⟩
  else none

/-- `duration_since(..).unwrap_or_default()`, in nanoseconds. -/
def SystemTime.nanosSince (t earlier : SystemTime) : ℕ := (t.nanos - earlier.nanos).toNat

@[simp] theorem nanosSince_unixEpoch (time : SystemTime) :
    time.nanosSince unixEpoch = time.nanos.toNat := by
  simp [SystemTime.nanosSince, unixEpoch]

/-- `unix_timestamp_seconds`. -/
def unixTimestampSeconds (time : SystemTime) : ℕ := time.nanosSince unixEpoch / nanosPerSecond

/-- `unix_timestamp_seconds_i64`. -/
def unixTimestampSecondsI64 (time : SystemTime) : Except ServerError ℤ :=
  if unixTimestampSeconds time < 2 ^ 63 then .ok (unixTimestampSeconds time)
  else .error (.internal "lfs session timestamp exceeds SQLite integer range")

/-- `invalid_durable_session`. -/
def invalidDurableSession (message : String) : ServerError :=
  .internal ("durable lfs session state is invalid: " ++ message)

/-- `system_time_from_unix_seconds`. -/
def systemTimeFromUnixSeconds (value : ℤ) : Except ServerError SystemTime :=
  if value < 0 then .error (invalidDurableSession "stored session timestamp is negative")
  else
    match unixEpoch.checkedAdd (.fromSecs (.ofNat value.toNat)) with
    | some time => .ok time
    | none => .error (invalidDurableSession "stored session timestamp overflowed")

/-- A later reading has at least as many seconds. -/
theorem unixTimestampSeconds_mono {t u : SystemTime} (h : t ≤ u) :
    unixTimestampSeconds t ≤ unixTimestampSeconds u := by
  rw [SystemTime.le_iff] at h
  apply Nat.div_le_div_right
  unfold SystemTime.nanosSince
  omega

theorem unixTimestampSeconds_lt (time : SystemTime) : unixTimestampSeconds time < 2 ^ 63 := by
  have hupper := time.upper
  have hpos : 0 < nanosPerSecond := by decide
  apply Nat.div_lt_of_lt_mul
  rw [nanosSince_unixEpoch]
  omega

/-- The seconds of a reading are in range. -/
@[simp] theorem unixTimestampSecondsI64_eq (time : SystemTime) :
    unixTimestampSecondsI64 time = .ok (unixTimestampSeconds time) :=
  if_pos (unixTimestampSeconds_lt time)

/-- A reading without the part below a second, as a row keeps it. -/
def SystemTime.truncate (time : SystemTime) : SystemTime where
  nanos := unixTimestampSeconds time * nanosPerSecond
  lower := by
    have hpos : (0 : ℤ) ≤ unixTimestampSeconds time * nanosPerSecond := by positivity
    have hneg : -(2 ^ 63 * nanosPerSecond : ℤ) ≤ 0 := by decide
    omega
  upper := by
    have h := Nat.mul_lt_mul_of_pos_right (unixTimestampSeconds_lt time)
      (show 0 < nanosPerSecond by decide)
    exact_mod_cast h

@[simp] theorem unixTimestampSeconds_truncate (time : SystemTime) :
    unixTimestampSeconds time.truncate = unixTimestampSeconds time := by
  have hnanos : time.truncate.nanos.toNat = unixTimestampSeconds time * nanosPerSecond :=
    Int.toNat_natCast (unixTimestampSeconds time * nanosPerSecond)
  rw [unixTimestampSeconds, nanosSince_unixEpoch, hnanos, Nat.mul_div_cancel _ (by decide)]

/-- What a row keeps reads back without the part below a second. -/
@[simp] theorem systemTimeFromUnixSeconds_eq (time : SystemTime) :
    systemTimeFromUnixSeconds (unixTimestampSeconds time) = .ok time.truncate := by
  have hlt := unixTimestampSeconds_lt time
  have hseconds : (UInt64.ofNat (unixTimestampSeconds time)).toNat = unixTimestampSeconds time := by
    rw [UInt64.toNat_ofNat']
    exact Nat.mod_eq_of_lt (by omega)
  have hupper := time.truncate.upper
  have hsum : unixEpoch.nanos + (Duration.fromSecs (.ofNat (unixTimestampSeconds time))).nanos =
      time.truncate.nanos := by
    simp [unixEpoch, Duration.fromSecs, SystemTime.truncate, hseconds]
  have hadd : unixEpoch.checkedAdd (.fromSecs (.ofNat (unixTimestampSeconds time))) =
      some time.truncate := by
    unfold SystemTime.checkedAdd
    rw [dif_pos (by rw [hsum]; exact hupper)]
    exact congrArg some (SystemTime.ext hsum)
  unfold systemTimeFromUnixSeconds
  rw [if_neg (by omega), Int.toNat_natCast, hadd]

/-- Readings compare as their seconds do, once one has more seconds than the other. -/
theorem lt_truncate_of_seconds_lt {t u : SystemTime}
    (h : unixTimestampSeconds t < unixTimestampSeconds u) : t < u.truncate := by
  rw [SystemTime.lt_iff]
  have hlt : t.nanosSince unixEpoch < (unixTimestampSeconds t + 1) * nanosPerSecond :=
    Nat.lt_mul_of_div_lt (Nat.lt_succ_self _) (by decide)
  rw [nanosSince_unixEpoch] at hlt
  have hle : (unixTimestampSeconds t + 1) * nanosPerSecond ≤
      unixTimestampSeconds u * nanosPerSecond := Nat.mul_le_mul_right _ h
  have hu : u.truncate.nanos = ((unixTimestampSeconds u * nanosPerSecond : ℕ) : ℤ) := by
    simp [SystemTime.truncate]
  omega

/-- After the epoch, a reading is not before the seconds that a row keeps of it. -/
theorem truncate_le {time : SystemTime} (h : 0 < unixTimestampSeconds time) :
    time.truncate ≤ time := by
  rw [SystemTime.le_iff]
  have hle : unixTimestampSeconds time * nanosPerSecond ≤ time.nanosSince unixEpoch :=
    Nat.div_mul_le_self _ _
  have hpos : 0 < unixTimestampSeconds time * nanosPerSecond :=
    Nat.mul_pos h (by decide)
  have hu : time.truncate.nanos = ((unixTimestampSeconds time * nanosPerSecond : ℕ) : ℤ) := by
    simp [SystemTime.truncate]
  rw [nanosSince_unixEpoch] at hle
  omega

end LfsCloud
