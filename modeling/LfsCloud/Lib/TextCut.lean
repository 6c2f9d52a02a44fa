import LfsCloud.Lib.TextLines

/-!
# Cutting and trimming texts

A text is cut at a number of bytes. A decoder that keeps only whole characters drops the one that is
cut, a lossy one shows a replacement character for it.
-/

namespace Text

variable {text s : List Char}

@[simp] theorem byteLength_cons {c : Char} : byteLength (c :: text) = c.utf8Size + byteLength text :=
  rfl

/-- The whole characters among the first bytes of a text. -/
def takeBytes : ℕ → List Char → List Char
  | _, [] => []
  | limit, c :: text =>
    if c.utf8Size ≤ limit then c :: takeBytes (limit - c.utf8Size) text else []

/-- The first bytes of a text, decoded with a replacement character for a cut one. -/
def takeBytesLossy (limit : ℕ) (text : List Char) : List Char :=
  if byteLength text ≤ limit then text
  else if byteLength (takeBytes limit text) < limit then takeBytes limit text ++ [Char.ofNat 0xfffd]
  else takeBytes limit text

theorem takeBytes_prefix {limit : ℕ} : takeBytes limit text <+: text := by
  induction text generalizing limit with
  | nil => exact List.prefix_rfl
  | cons c text ih =>
    unfold takeBytes
    split_ifs
    · exact List.cons_prefix_cons.mpr ⟨rfl, ih⟩
    · exact List.nil_prefix

/-- Cutting behind a beginning that fits cuts what follows it. -/
theorem takeBytes_append {front : List Char} {limit : ℕ} (hfits : byteLength front ≤ limit) :
    takeBytes limit (front ++ text) = front ++ takeBytes (limit - byteLength front) text := by
  induction front generalizing limit with
  | nil => rfl
  | cons c front ih =>
    rw [byteLength_cons] at hfits ⊢
    rw [List.cons_append, takeBytes, if_pos (by omega), ih (by omega), Nat.sub_sub]
    rfl

/-- Cutting inside a beginning leaves nothing of what follows it. -/
theorem takeBytes_append_of_lt {front : List Char} {limit : ℕ} (hlt : limit < byteLength front) :
    takeBytes limit (front ++ text) = takeBytes limit front := by
  induction front generalizing limit with
  | nil => exact absurd hlt (Nat.not_lt_zero _)
  | cons c front ih =>
    rw [byteLength_cons] at hlt
    rw [List.cons_append, takeBytes, takeBytes]
    split_ifs with hfits
    · rw [ih (by omega)]
    · rfl

/-- Cutting does not look at the characters but for their sizes. -/
theorem takeBytes_map {f : Char → Char} (hf : ∀ c, (f c).utf8Size = c.utf8Size) {limit : ℕ} :
    takeBytes limit (text.map f) = (takeBytes limit text).map f := by
  induction text generalizing limit with
  | nil => rfl
  | cons c text ih =>
    rw [List.map_cons, takeBytes, takeBytes, hf]
    split_ifs
    · rw [ih, List.map_cons]
    · rfl

theorem byteLength_map {f : Char → Char} (hf : ∀ c, (f c).utf8Size = c.utf8Size) :
    byteLength (text.map f) = byteLength text := by
  unfold byteLength
  rw [List.map_map]
  exact congrArg List.sum (List.map_congr_left fun c _ => hf c)

/-- The cut at a limit goes through an occurrence of a text. -/
def CutInside (limit : ℕ) (s original : List Char) : Prop :=
  ∃ before after, original = before ++ s ++ after ∧ byteLength before < limit ∧
    limit < byteLength (before ++ s)

/-- What is left of a cut occurrence ends in one of its characters or in the replacement for one. -/
theorem CutInside.getLast? {limit : ℕ} {original : List Char} (h : CutInside limit s original) :
    ∃ e, (takeBytesLossy limit original).getLast? = some e ∧ (e ∈ s ∨ e = Char.ofNat 0xfffd) := by
  obtain ⟨before, after, rfl, hbefore, hcut⟩ := h
  have hlong : ¬byteLength (before ++ s ++ after) ≤ limit := by
    rw [byteLength_append]
    omega
  have htake : takeBytes limit (before ++ s ++ after) =
      before ++ takeBytes (limit - byteLength before) s := by
    rw [takeBytes_append_of_lt hcut, takeBytes_append hbefore.le]
  unfold takeBytesLossy
  rw [if_neg hlong, htake]
  split_ifs with hshort
  · exact ⟨_, List.getLast?_concat, .inr rfl⟩
  · have hne : takeBytes (limit - byteLength before) s ≠ [] := by
      intro hnil
      rw [hnil, List.append_nil] at hshort
      exact hshort hbefore
    refine ⟨_, by rw [List.getLast?_append_of_ne_nil _ hne, List.getLast?_eq_some_getLast hne],
      .inl ?_⟩
    exact takeBytes_prefix.subset (List.getLast_mem hne)

/-- Something without whitespace is not among whitespace. -/
theorem infix_of_append_whitespace {front : List Char}
    (hfront : ∀ c ∈ front, isWhitespace c = true) (hne : s ≠ [])
    (hs : ∀ c ∈ s, isWhitespace c = false) (h : s <:+: front ++ text) : s <:+: text := by
  induction front with
  | nil => exact h
  | cons c front ih =>
    rcases List.infix_cons_iff.mp h with hstart | hrest
    · obtain ⟨b, rest, rfl⟩ := List.exists_cons_of_ne_nil hne
      obtain ⟨rfl, _⟩ := List.cons_prefix_cons.mp hstart
      have htrue := hfront b List.mem_cons_self
      rw [hs b List.mem_cons_self] at htrue
      cases htrue
    · exact ih (fun c hc => hfront c (List.mem_cons_of_mem _ hc)) hrest

/-- A text around what is left of it after trimming. -/
theorem exists_trim (text : List Char) : ∃ front back : List Char,
    text = front ++ trim text ++ back ∧ (∀ c ∈ front, isWhitespace c = true) ∧
      ∀ c ∈ back, isWhitespace c = true := by
  refine ⟨text.takeWhile isWhitespace, (text.dropWhile isWhitespace).rtakeWhile isWhitespace,
    ?_, fun c hc => List.mem_takeWhile_imp hc, fun c hc => List.mem_rtakeWhile_imp hc⟩
  have hback : trim text ++ (text.dropWhile isWhitespace).rtakeWhile isWhitespace =
      text.dropWhile isWhitespace := List.rdropWhile_append_rtakeWhile
  rw [List.append_assoc, hback, List.takeWhile_append_dropWhile]

/-- Trimming neither removes nor makes something without whitespace. -/
theorem infix_trim_iff (hne : s ≠ []) (hs : ∀ c ∈ s, isWhitespace c = false) :
    s <:+: trim text ↔ s <:+: text := by
  obtain ⟨front, back, htext, hfront, hback⟩ := exists_trim text
  constructor
  · intro h
    rw [htext]
    exact h.trans ⟨front, back, rfl⟩
  · intro h
    rw [htext, List.append_assoc] at h
    have hmiddle := infix_of_append_whitespace hfront hne hs h
    rw [← List.reverse_infix, List.reverse_append] at hmiddle
    have hreverse := infix_of_append_whitespace
      (fun c hc => hback c (List.mem_reverse.mp hc)) (by simpa using hne)
      (fun c hc => hs c (List.mem_reverse.mp hc)) hmiddle
    exact List.reverse_infix.mp hreverse

/-- Nothing is left of a text exactly if it is whitespace. -/
theorem trim_eq_nil_iff : trim text = [] ↔ ∀ c ∈ text, isWhitespace c = true := by
  obtain ⟨front, back, htext, hfront, hback⟩ := exists_trim text
  constructor
  · intro h c hc
    rw [htext, h, List.append_nil] at hc
    exact (List.mem_append.mp hc).elim (hfront c) (hback c)
  · intro h
    unfold trim
    rw [List.dropWhile_eq_nil_iff.mpr h]
    rfl

/-- The end of a text that does not end in whitespace is kept. -/
theorem suffix_trim_iff {e : Char} (hs : ∀ c ∈ s, isWhitespace c = false)
    (hlast : text.getLast? = some e) (he : isWhitespace e = false) :
    s <:+ trim text ↔ s <:+ text := by
  obtain ⟨front, back, htext, hfront, hback⟩ := exists_trim text
  have hnil : back = [] := by
    by_contra hne
    rw [htext, List.getLast?_append_of_ne_nil _ hne] at hlast
    have htrue := hback e (List.mem_of_getLast? hlast)
    rw [he] at htrue
    cases htrue
  rw [hnil, List.append_nil] at htext
  constructor
  · intro h
    rw [htext]
    exact h.trans (List.suffix_append _ _)
  · rintro ⟨before, hbefore⟩
    rw [htext] at hbefore
    rcases List.append_eq_append_iff.mp hbefore with ⟨rest, hfrontEq, hsEq⟩ | ⟨rest, _, hEq⟩
    · cases rest with
      | nil => exact ⟨[], hsEq⟩
      | cons c rest =>
        have htrue := hfront c (hfrontEq ▸ List.mem_append_right _ List.mem_cons_self)
        rw [hs c (hsEq ▸ List.mem_cons_self)] at htrue
        cases htrue
    · exact ⟨rest, hEq.symm⟩

/-! ## Byte offsets -/

/-- The text in front of a byte offset and behind it, unless the offset lies in a character. -/
def splitAtByte : ℕ → List Char → Option (List Char × List Char)
  | 0, text => some ([], text)
  | _ + 1, [] => none
  | n + 1, c :: text =>
    if c.utf8Size ≤ n + 1 then
      (splitAtByte (n + 1 - c.utf8Size) text).map fun (front, back) => (c :: front, back)
    else none

/-- The two parts of a text, and the length of the first one. -/
theorem splitAtByte_eq_some {n : ℕ} {front back : List Char} :
    splitAtByte n text = some (front, back) ↔ text = front ++ back ∧ byteLength front = n := by
  induction text generalizing n front with
  | nil =>
    cases n with
    | zero =>
      rw [splitAtByte, Option.some.injEq, Prod.mk.injEq]
      constructor
      · rintro ⟨rfl, rfl⟩
        exact ⟨rfl, rfl⟩
      · rintro ⟨h, _⟩
        obtain ⟨rfl, rfl⟩ := List.append_eq_nil_iff.mp h.symm
        exact ⟨rfl, rfl⟩
    | succ n =>
      refine ⟨nofun, ?_⟩
      rintro ⟨h, hlength⟩
      obtain ⟨rfl, rfl⟩ := List.append_eq_nil_iff.mp h.symm
      cases hlength
  | cons c text ih =>
    cases n with
    | zero =>
      rw [splitAtByte, Option.some.injEq, Prod.mk.injEq]
      constructor
      · rintro ⟨rfl, rfl⟩
        exact ⟨rfl, rfl⟩
      · rintro ⟨h, hlength⟩
        cases front with
        | nil => exact ⟨rfl, h⟩
        | cons d front =>
          have hpos := Char.utf8Size_pos d
          rw [byteLength_cons] at hlength
          omega
    | succ n =>
      rw [splitAtByte]
      constructor
      · intro h
        split at h
        next hfits =>
          obtain ⟨⟨front', back'⟩, hsplit, heq⟩ := Option.map_eq_some_iff.mp h
          obtain ⟨rfl, rfl⟩ := Prod.mk.inj heq
          obtain ⟨rfl, hlength⟩ := ih.mp hsplit
          refine ⟨rfl, ?_⟩
          rw [byteLength_cons, hlength]
          omega
        next => cases h
      · rintro ⟨h, hlength⟩
        cases front with
        | nil => cases hlength
        | cons d front =>
          obtain ⟨rfl, rfl⟩ := List.cons.inj h
          rw [byteLength_cons] at hlength
          rw [if_pos (by omega), ih.mpr ⟨rfl, by omega⟩]
          rfl

/-! ## Letter case -/

/-- Texts that differ in the case of ASCII letters only. -/
def eqIgnoreAsciiCase (left right : List Char) : Bool :=
  left.map Char.toLower = right.map Char.toLower

/-- Only ASCII letters have another case. -/
theorem toLower_of_ge {c : Char} (h : 128 ≤ c.toNat) : c.toLower = c := by
  unfold Char.toLower
  rw [dif_neg]
  rintro ⟨_, hle⟩
  have hbound : c.toNat ≤ 'Z'.toNat := UInt32.le_iff_toNat_le.mp hle
  have hz : 'Z'.toNat = 90 := rfl
  omega

theorem utf8Size_toLower (c : Char) : c.toLower.utf8Size = c.utf8Size := by
  by_cases hascii : c.toNat < 128
  · have hall : ∀ n < 128, (Char.ofNat n).toLower.utf8Size = (Char.ofNat n).utf8Size := by decide
    exact forall_of_toNat_lt (P := fun c => c.toLower.utf8Size = c.utf8Size) hall hascii
  · rw [toLower_of_ge (by omega)]

/-- Letter case does not change the length. -/
theorem byteLength_of_eqIgnoreAsciiCase {t : List Char} (h : eqIgnoreAsciiCase s t = true) :
    byteLength s = byteLength t := by
  have hmap := of_decide_eq_true h
  calc byteLength s = byteLength (s.map Char.toLower) := (byteLength_map utf8Size_toLower).symm
    _ = byteLength (t.map Char.toLower) := by rw [hmap]
    _ = byteLength t := byteLength_map utf8Size_toLower

/-- Nothing but a slash becomes a slash. -/
theorem toLower_eq_slash {c : Char} : c.toLower = '/' ↔ c = '/' := by
  by_cases hascii : c.toNat < 128
  · have hall : ∀ n < 128, (Char.ofNat n).toLower = '/' ↔ Char.ofNat n = '/' := by decide
    exact forall_of_toNat_lt (P := fun c => c.toLower = '/' ↔ c = '/') hall hascii
  · rw [toLower_of_ge (by omega)]

/-- Letter case does not change the slashes. -/
theorem slash_mem_of_eqIgnoreAsciiCase {t : List Char} (h : eqIgnoreAsciiCase s t = true) :
    '/' ∈ s ↔ '/' ∈ t := by
  have hmap := of_decide_eq_true h
  have hmem : ∀ u : List Char, '/' ∈ u ↔ '/' ∈ u.map Char.toLower := by
    intro u
    rw [List.mem_map]
    constructor
    · exact fun hu => ⟨'/', hu, rfl⟩
    · rintro ⟨c, hc, hlower⟩
      exact toLower_eq_slash.mp hlower ▸ hc
  rw [hmem s, hmap, ← hmem t]

end Text
