import Mathlib.Tactic

/-!
# UTF-16

A character is one unit, or two surrogates. Units that hold a surrogate alone are no text.
-/

namespace Utf16

/-- The units of a character. -/
def unitsOf (c : Char) : List UInt16 :=
  if c.toNat < 0x10000 then [.ofNat c.toNat]
  else [.ofNat (0xd800 + (c.toNat - 0x10000) / 0x400),
    .ofNat (0xdc00 + (c.toNat - 0x10000) % 0x400)]

/-- The units of a text. -/
def encode (text : List Char) : List UInt16 := text.flatMap unitsOf

/-- The text of units, if they are one. -/
def decode : List UInt16 → Option (List Char)
  | [] => some []
  | [unit] =>
    if unit.toNat < 0xd800 ∨ 0xe000 ≤ unit.toNat then some [Char.ofNat unit.toNat] else none
  | unit :: low :: rest =>
    if unit.toNat < 0xd800 ∨ 0xe000 ≤ unit.toNat then
      (decode (low :: rest)).map (Char.ofNat unit.toNat :: ·)
    else if unit.toNat < 0xdc00 ∧ 0xdc00 ≤ low.toNat ∧ low.toNat < 0xe000 then
      (decode rest).map
        (Char.ofNat (0x10000 + (unit.toNat - 0xd800) * 0x400 + (low.toNat - 0xdc00)) :: ·)
    else none

/-- The code of the character of a valid code. -/
theorem toNat_char {n : ℕ} (h : n.isValidChar) : (Char.ofNat n).toNat = n := by
  rw [Char.ofNat, dif_pos h]
  rfl

theorem ofNat_eq {n : ℕ} (unit : UInt16) (h : n = unit.toNat) : UInt16.ofNat n = unit := by
  rw [h, UInt16.ofNat_toNat]

/-- A unit that is no surrogate is the unit of its character. -/
theorem unitsOf_single {unit : UInt16} (h : unit.toNat < 0xd800 ∨ 0xe000 ≤ unit.toNat) :
    unitsOf (Char.ofNat unit.toNat) = [unit] := by
  have hlt := unit.toNat_lt
  have hvalid : unit.toNat.isValidChar := by
    unfold Nat.isValidChar
    omega
  have hcode : (Char.ofNat unit.toNat).toNat = unit.toNat := toNat_char hvalid
  unfold unitsOf
  rw [hcode, if_pos (by omega), UInt16.ofNat_toNat]

/-- Two surrogates are the units of their character. -/
theorem unitsOf_pair {unit low : UInt16} (hunit : 0xd800 ≤ unit.toNat) (hhigh : unit.toNat < 0xdc00)
    (hlow : 0xdc00 ≤ low.toNat) (hend : low.toNat < 0xe000) :
    unitsOf (Char.ofNat (0x10000 + (unit.toNat - 0xd800) * 0x400 + (low.toNat - 0xdc00))) =
      [unit, low] := by
  have hvalid : (0x10000 + (unit.toNat - 0xd800) * 0x400 + (low.toNat - 0xdc00)).isValidChar := by
    unfold Nat.isValidChar
    omega
  unfold unitsOf
  rw [toNat_char hvalid, if_neg (by omega), ofNat_eq unit (by omega),
    ofNat_eq low (by omega)]

/-- The units of what was decoded are those that were read. -/
theorem encode_of_decode {units : List UInt16} {text : List Char} (h : decode units = some text) :
    encode text = units := by
  induction units using decode.induct generalizing text with
  | case1 =>
    obtain rfl := Option.some.inj h
    rfl
  | case2 unit hsingle =>
    unfold decode at h
    rw [if_pos hsingle] at h
    obtain rfl := Option.some.inj h
    unfold encode
    rw [List.flatMap_singleton, unitsOf_single hsingle]
  | case3 unit hsurrogate =>
    unfold decode at h
    rw [if_neg hsurrogate] at h
    cases h
  | case4 unit low rest hsingle ih =>
    unfold decode at h
    rw [if_pos hsingle] at h
    obtain ⟨tail, htail, rfl⟩ := Option.map_eq_some_iff.mp h
    have hrest := ih htail
    unfold encode at hrest ⊢
    rw [List.flatMap_cons, unitsOf_single hsingle, hrest]
    rfl
  | case5 unit low rest hsurrogate hpair ih =>
    unfold decode at h
    rw [if_neg hsurrogate, if_pos hpair] at h
    obtain ⟨tail, htail, rfl⟩ := Option.map_eq_some_iff.mp h
    have hrest := ih htail
    unfold encode at hrest ⊢
    rw [List.flatMap_cons, unitsOf_pair (by omega) hpair.1 hpair.2.1 hpair.2.2, hrest]
    rfl
  | case6 unit low rest hsurrogate hpair =>
    unfold decode at h
    rw [if_neg hsurrogate, if_neg hpair] at h
    cases h

end Utf16
