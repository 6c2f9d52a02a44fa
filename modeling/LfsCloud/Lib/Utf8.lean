import Mathlib.Tactic

/-!
# Bytes of texts

The bytes of a text are those of its characters, one after the other, and the text is read from
them. Every byte of a character that is not an ASCII character is at least 128.
-/

namespace Utf8

variable {s : String} {c : Char}

/-- The text of bytes, if they are UTF-8. -/
def text (bytes : List UInt8) : Option String := String.fromUTF8? ⟨bytes.toArray⟩

/-- The bytes of a text. -/
def bytes (s : String) : List UInt8 := s.toByteArray.data.toList

theorem bytes_eq (s : String) : bytes s = s.toList.flatMap String.utf8EncodeChar := by
  obtain ⟨chars, rfl⟩ : ∃ chars, s = String.ofList chars := ⟨_, String.ofList_toList.symm⟩
  rw [String.toList_ofList]
  unfold bytes
  simp [List.utf8Encode]

theorem bytes_append (front back : String) : bytes (front ++ back) = bytes front ++ bytes back := by
  rw [bytes_eq, bytes_eq, bytes_eq, String.toList_append, List.flatMap_append]

/-- The bytes of a text are read as the text. -/
theorem text_bytes (s : String) : text (bytes s) = some s := by
  have harray : (⟨(bytes s).toArray⟩ : ByteArray) = s.toByteArray := rfl
  unfold text
  rw [harray]
  unfold String.fromUTF8?
  rw [dif_pos s.isValidUTF8]
  rfl

/-- Bytes that are read as a text are those of the text. -/
theorem bytes_of_text {list : List UInt8} (h : text list = some s) : bytes s = list := by
  unfold text String.fromUTF8? at h
  split_ifs at h with hvalid
  obtain rfl := Option.some.inj h
  rfl

/-- An ASCII character is one byte. -/
theorem utf8EncodeChar_of_lt (h : c.toNat < 128) :
    String.utf8EncodeChar c = [UInt8.ofNat c.toNat] := by
  have hval : c.val.toNat ≤ 127 := Nat.le_of_lt_succ h
  unfold String.utf8EncodeChar
  dsimp only
  rw [if_pos hval]
  rfl

/-- The bytes of another character are no ASCII characters. -/
theorem le_of_mem_utf8EncodeChar (h : ¬c.toNat < 128) {byte : UInt8}
    (hmem : byte ∈ String.utf8EncodeChar c) : 128 ≤ byte.toNat := by
  have hval : ¬c.val.toNat ≤ 127 := fun hle => h (Nat.lt_succ_of_le hle)
  have hbound : c.val.toNat < 0x110000 := by
    rcases c.valid with hlow | ⟨_, hhigh⟩
    · exact lt_trans hlow (by decide)
    · exact hhigh
  unfold String.utf8EncodeChar at hmem
  dsimp only at hmem
  rw [if_neg hval] at hmem
  split_ifs at hmem
  all_goals
    simp only [List.mem_cons, List.not_mem_nil, or_false] at hmem
  · rcases hmem with rfl | rfl
    · rw [UInt8.toNat_ofNat']
      omega
    · rw [UInt8.toNat_ofNat']
      omega
  · rcases hmem with rfl | rfl | rfl
    · rw [UInt8.toNat_ofNat']
      omega
    · rw [UInt8.toNat_ofNat']
      omega
    · rw [UInt8.toNat_ofNat']
      omega
  · rcases hmem with rfl | rfl | rfl | rfl
    · rw [UInt8.toNat_ofNat']
      omega
    · rw [UInt8.toNat_ofNat']
      omega
    · rw [UInt8.toNat_ofNat']
      omega
    · rw [UInt8.toNat_ofNat']
      omega

/-- An ASCII byte of a text is one of its characters. -/
theorem exists_of_mem_bytes {byte : UInt8} (hascii : byte.toNat < 128) (hmem : byte ∈ bytes s) :
    ∃ c ∈ s.toList, c.toNat = byte.toNat := by
  rw [bytes_eq] at hmem
  obtain ⟨c, hc, hbyte⟩ := List.mem_flatMap.mp hmem
  by_cases hlow : c.toNat < 128
  · rw [utf8EncodeChar_of_lt hlow, List.mem_singleton] at hbyte
    refine ⟨c, hc, ?_⟩
    rw [hbyte, UInt8.toNat_ofNat', Nat.mod_eq_of_lt (by omega)]
  · have hhigh := le_of_mem_utf8EncodeChar hlow hbyte
    omega

end Utf8
