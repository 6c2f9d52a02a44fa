import Mathlib.Tactic

/-!
# Checked unsigned arithmetic

Unsigned 64-bit counters are natural numbers; the checked operations return
`none` exactly where the machine operation would leave the 64-bit range.
-/

/-- The number of values of a 64-bit word. -/
def u64Size : ℕ := 2 ^ 64

/-- `str::parse` for 64-bit numbers: decimal digits after an optional plus sign. -/
def parseU64 (text : List Char) : Option ℕ :=
  let digits := match text with
    | '+' :: rest => rest
    | _ => text
  if digits = [] ∨ digits.any (fun c => !c.isDigit) = true then none
  else
    let n := digits.foldl (fun n c => 10 * n + (c.toNat - '0'.toNat)) 0
    if n < u64Size then some n else none

/-- The decimal digits of a 64-bit number read back. -/
theorem parseU64_toString (n : UInt64) : parseU64 (toString n).toList = some n.toNat := by
  have hlist : (toString n).toList = Nat.toDigits 10 n.toNat := Nat.toList_repr
  have hdigit : ∀ c ∈ Nat.toDigits 10 n.toNat, c.isDigit = true :=
    fun c hc => Nat.isDigit_of_mem_toDigits (by decide) (by decide) hc
  have hplus : ∀ rest, Nat.toDigits 10 n.toNat ≠ '+' :: rest := by
    intro rest h
    have hdigit := hdigit '+' (by rw [h]; exact List.mem_cons_self)
    cases hdigit
  have hany : (Nat.toDigits 10 n.toNat).any (fun c => !c.isDigit) ≠ true := by
    intro h
    obtain ⟨c, hc, hnot⟩ := List.any_eq_true.mp h
    rw [hdigit c hc] at hnot
    cases hnot
  have hvalue : (Nat.toDigits 10 n.toNat).foldl
      (fun n c => 10 * n + (c.toNat - '0'.toNat)) 0 = n.toNat := Nat.ofDigitChars_ten_toDigits
  rw [hlist]
  unfold parseU64
  split
  next hcons => exact absurd hcons (hplus _)
  next =>
    have hlt : n.toNat < u64Size := n.toNat_lt
    dsimp only
    rw [if_neg (not_or.mpr ⟨Nat.toDigits_ne_nil, hany⟩), hvalue, if_pos hlt]

/-- Different numbers have different digits. -/
theorem toString_u64_injective {m n : UInt64} (h : toString m = toString n) : m = n := by
  have hm := parseU64_toString m
  rw [h, parseU64_toString, Option.some.injEq] at hm
  exact UInt64.toNat_inj.mp hm.symm

/-- Addition that fails on overflow. -/
def checkedAdd (a b : ℕ) : Option ℕ := if a + b < u64Size then some (a + b) else none

/-- Subtraction that fails on underflow. -/
def checkedSub (a b : ℕ) : Option ℕ := if b ≤ a then some (a - b) else none

@[simp] theorem checkedAdd_eq_some {a b c : ℕ} :
    checkedAdd a b = some c ↔ a + b < u64Size ∧ c = a + b := by
  unfold checkedAdd
  split <;> simp_all [eq_comm]

@[simp] theorem checkedAdd_eq_none {a b : ℕ} : checkedAdd a b = none ↔ u64Size ≤ a + b := by
  simp [checkedAdd]

@[simp] theorem checkedSub_eq_some {a b c : ℕ} :
    checkedSub a b = some c ↔ b ≤ a ∧ c = a - b := by
  unfold checkedSub
  split <;> simp_all [eq_comm]

@[simp] theorem checkedSub_eq_none {a b : ℕ} : checkedSub a b = none ↔ a < b := by
  simp [checkedSub]
