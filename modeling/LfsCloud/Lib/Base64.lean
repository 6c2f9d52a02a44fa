import Mathlib.Tactic

/-!
# Base 64 without padding

Three bytes are written as four digits. One or two bytes at the end are written as two or three
digits, whose last bits are zero.
-/

namespace Base64

/-- The digits. -/
def alphabet : List Char :=
  "ABCDEFGHIJKLMNOPQRSTUVWXYZabcdefghijklmnopqrstuvwxyz0123456789+/".toList

/-- The digit of a number below 64. -/
def digit (n : ℕ) : Char := alphabet.getD n 'A'

/-- The number of a digit. -/
def value (c : Char) : Option ℕ := alphabet.idxOf? c

/-- The digits of bytes. -/
def encode : List UInt8 → List Char
  | a :: b :: c :: rest =>
    let n := a.toNat * 65536 + b.toNat * 256 + c.toNat
    digit (n / 262144) :: digit (n / 4096 % 64) :: digit (n / 64 % 64) :: digit (n % 64) ::
      encode rest
  | [a, b] =>
    let n := (a.toNat * 256 + b.toNat) * 4
    [digit (n / 4096), digit (n / 64 % 64), digit (n % 64)]
  | [a] =>
    let n := a.toNat * 16
    [digit (n / 64), digit (n % 64)]
  | [] => []

/-- The bytes of digits; the bits that are left over must be zero. -/
def decode : List Char → Option (List UInt8)
  | w :: x :: y :: z :: rest => do
    let w ← value w
    let x ← value x
    let y ← value y
    let z ← value z
    let n := w * 262144 + x * 4096 + y * 64 + z
    let bytes ← decode rest
    some (.ofNat (n / 65536) :: .ofNat (n / 256 % 256) :: .ofNat (n % 256) :: bytes)
  | [w, x, y] => do
    let w ← value w
    let x ← value x
    let y ← value y
    let n := w * 4096 + x * 64 + y
    if n % 4 = 0 then some [.ofNat (n / 1024), .ofNat (n / 4 % 256)] else none
  | [w, x] => do
    let w ← value w
    let x ← value x
    let n := w * 64 + x
    if n % 16 = 0 then some [.ofNat (n / 16)] else none
  | [_] => none
  | [] => some []

/-- A digit is read as its number. -/
theorem value_digit {n : ℕ} (h : n < 64) : value (digit n) = some n := by
  have hall : ∀ n < 64, value (digit n) = some n := by
    decide
  exact hall n h

/-- A byte is read from its number. -/
theorem ofNat_of_eq (byte : UInt8) {n : ℕ} (h : n = byte.toNat) : UInt8.ofNat n = byte := by
  rw [h, UInt8.ofNat_toNat]

/-- What was encoded is decoded. -/
theorem decode_encode (bytes : List UInt8) : decode (encode bytes) = some bytes := by
  induction bytes using encode.induct with
  | case1 a b c rest ih =>
    have ha := a.toNat_lt
    have hb := b.toNat_lt
    have hc := c.toNat_lt
    unfold encode decode
    dsimp only
    rw [value_digit (by omega), value_digit (by omega), value_digit (by omega),
      value_digit (by omega), ih]
    simp only [Option.bind_eq_bind, Option.bind_some]
    rw [ofNat_of_eq a, ofNat_of_eq b, ofNat_of_eq c]
    all_goals omega
  | case2 a b =>
    have ha := a.toNat_lt
    have hb := b.toNat_lt
    unfold encode decode
    dsimp only
    rw [value_digit (by omega), value_digit (by omega), value_digit (by omega)]
    simp only [Option.bind_eq_bind, Option.bind_some]
    rw [if_pos (by omega), ofNat_of_eq a, ofNat_of_eq b]
    all_goals omega
  | case3 a =>
    have ha := a.toNat_lt
    unfold encode decode
    dsimp only
    rw [value_digit (by omega), value_digit (by omega)]
    simp only [Option.bind_eq_bind, Option.bind_some]
    rw [if_pos (by omega), ofNat_of_eq a]
    omega
  | case4 => rfl

end Base64
