import LfsCloud.Redaction

/-!
# What redaction leaves of a secret

A Drive diagnostic loses every occurrence of the token and a cut one at its end. The standard error
of a Git command is only searched for whole occurrences, and truncated once more behind that.
-/

namespace LfsCloud

open Text

/-! ## Google Drive -/

section Drive

variable {secret : TokenSecret driveMarker} {message : List Char}

theorem mem_secretFragments {fragment text : List Char} : fragment ∈ secretFragments text ↔
    fragment <+: text ∧ minRedactedSecretFragmentLen ≤ byteLength fragment ∧
      byteLength fragment < byteLength text := by
  simp [secretFragments, List.mem_inits]

variable (secret message) in
/-- What the redaction does: it replaces the token, and a fragment at the end. -/
theorem redactSecretFromMessage_cases :
    (redactSecretFromMessage message secret.value =
        Redact.replace secret.value driveMarker.text message ∧
      ¬EndsInFragment secret.value (redactSecretFromMessage message secret.value)) ∨
    ∃ before fragment, fragment ∈ secretFragments secret.value ∧
      Redact.replace secret.value driveMarker.text message = before ++ fragment ∧
      redactSecretFromMessage message secret.value = before ++ driveMarker.text := by
  unfold redactSecretFromMessage
  rw [if_neg secret.nonempty]
  dsimp only
  split_ifs with hshort
  · refine .inl ⟨rfl, ?_⟩
    rintro ⟨fragment, ⟨rest, hrest⟩, hlong, _⟩
    have := congrArg byteLength hrest
    rw [byteLength_append] at this
    omega
  · split
    · next fragment hfound =>
      have hend := List.find?_some hfound
      obtain ⟨before, hbefore⟩ := of_decide_eq_true hend
      refine .inr ⟨before, fragment, List.mem_of_find?_eq_some hfound, hbefore.symm, ?_⟩
      rw [← hbefore]
      simp
    · next hnone =>
      refine .inl ⟨rfl, ?_⟩
      rintro ⟨fragment, ⟨rest, hrest⟩, hlong, hend⟩
      by_cases hproper : byteLength fragment < byteLength secret.value
      · have hmem := mem_secretFragments.mpr ⟨⟨rest, hrest⟩, hlong, hproper⟩
        have := List.find?_eq_none.mp hnone fragment hmem
        exact this (decide_eq_true hend)
      · have hlength := congrArg byteLength hrest
        rw [byteLength_append] at hlength
        have hnil : rest = [] := by
          cases rest with
          | nil => rfl
          | cons c rest =>
            rw [byteLength_cons] at hlength
            have := c.utf8Size_pos
            omega
        rw [hnil, List.append_nil] at hrest
        exact secret.not_infix_replace (hrest ▸ hend.isInfix)

/-- A redacted message does not have the secret. -/
theorem not_infix_redactSecretFromMessage :
    ¬secret.value <:+: redactSecretFromMessage message secret.value := by
  rcases redactSecretFromMessage_cases secret message with
    ⟨hsame, _⟩ | ⟨before, fragment, _, hreplace, hredacted⟩
  · rw [hsame]
    exact secret.not_infix_replace
  · rw [hredacted]
    intro h
    rcases Redact.infix_of_append_cons secret.noOpening h with hleft | hright
    · have hinside : secret.value <:+: Redact.replace secret.value driveMarker.text message := by
        rw [hreplace]
        exact hleft.trans (List.prefix_append _ _).isInfix
      exact secret.not_infix_replace hinside
    · exact secret.notInMarker (hright.trans (List.suffix_cons _ _).isInfix)

/-- A redacted message does not end in a fragment of the secret. -/
theorem not_endsInFragment_redactSecretFromMessage :
    ¬EndsInFragment secret.value (redactSecretFromMessage message secret.value) := by
  rcases redactSecretFromMessage_cases secret message with
    ⟨_, hno⟩ | ⟨before, _, _, _, hredacted⟩
  · exact hno
  · rw [hredacted]
    rintro ⟨fragment, hstart, hlong, hend⟩
    have hne : fragment ≠ [] := by
      rintro rfl
      exact absurd hlong (by decide)
    obtain ⟨front, hfront⟩ := hend
    have hlast := congrArg List.getLast? hfront
    rw [List.getLast?_append_of_ne_nil _ hne, List.getLast?_append_of_ne_nil _ (by decide)] at hlast
    have hclosing : fragment.getLast? = some driveMarker.closing := hlast
    exact secret.noClosing (hstart.subset (List.mem_of_getLast? hclosing))

/-- A message without the secret and without a fragment is left alone. -/
theorem redactSecretFromMessage_eq_self (hsecret : ¬secret.value <:+: message)
    (hfragment : ∀ fragment, fragment <+: secret.value →
      minRedactedSecretFragmentLen ≤ byteLength fragment → ¬fragment <:+: message) :
    redactSecretFromMessage message secret.value = message := by
  have hreplace : Redact.replace secret.value driveMarker.text message = message :=
    Redact.replace_of_not_infix hsecret
  rcases redactSecretFromMessage_cases secret message with
    ⟨hsame, _⟩ | ⟨before, fragment, hmem, hends, _⟩
  · rw [hsame, hreplace]
  · obtain ⟨hstart, hlong, _⟩ := mem_secretFragments.mp hmem
    rw [hreplace] at hends
    exact absurd ⟨before, [], by rw [hends, List.append_nil]⟩ (hfragment _ hstart hlong)

/-- Redaction does not make a message blank. -/
theorem trim_redactSecretFromMessage_eq_nil_iff :
    trim (redactSecretFromMessage message secret.value) = [] ↔ trim message = [] := by
  have hreplace : trim (Redact.replace secret.value driveMarker.text message) = [] ↔
      trim message = [] := secret.trim_replace_eq_nil_iff (c := ']') (by decide) (by decide)
  rcases redactSecretFromMessage_cases secret message with
    ⟨hsame, _⟩ | ⟨before, fragment, hmem, hends, hredacted⟩
  · rw [hsame, hreplace]
  · obtain ⟨hstart, hlong, _⟩ := mem_secretFragments.mp hmem
    have hne : fragment ≠ [] := by
      rintro rfl
      exact absurd hlong (by decide)
    rw [← hreplace, hends, hredacted]
    constructor
    · intro h
      exact absurd (trim_eq_nil_iff.mp h ']' (by simp [driveMarker, RedactionMarker.text]))
        (by decide)
    · intro h
      obtain ⟨c, hc⟩ := List.exists_mem_of_ne_nil _ hne
      have := trim_eq_nil_iff.mp h c (List.mem_append_right _ hc)
      rw [secret.noWhitespace c (hstart.subset hc)] at this
      cases this

/-- What the standing text must not be for a blank text: the secret, or a fragment of a cut one. -/
structure DriveRequestFailedSafe (secret body bounded : List Char) : Prop where
  hidden : trim bounded = [] → ¬secret <:+: driveRequestFailed
  noFragment : trim bounded = [] → CutInside maxGoogleErrorBodyLen secret body →
    ¬EndsInFragment secret driveRequestFailed

/-- What is promised of the diagnostic for a Drive error body; the standing text is presented for
a blank one. -/
def DriveRedactionSafe (parse : List Char → Option GoogleDriveErrorResponse)
    (secret body : List Char) : Prop :=
  let bounded := (driveErrorText parse (readGoogleErrorBody body)).message
  RedactionSafe secret body maxGoogleErrorBodyLen bounded
    (if trim bounded = [] then driveRequestFailed else bounded)
    (driveErrorMessage parse secret (readGoogleErrorBody body)).message

/-- A Drive diagnostic is redacted safely, but for the standing text of a blank one. -/
theorem driveRedactionSafe_iff {parse : List Char → Option GoogleDriveErrorResponse}
    {body : List Char} :
    DriveRedactionSafe parse secret.value body ↔
      DriveRequestFailedSafe secret.value body
        (driveErrorText parse (readGoogleErrorBody body)).message := by
  unfold DriveRedactionSafe
  generalize hbounded : (driveErrorText parse (readGoogleErrorBody body)).message = bounded
  have hshown : (driveErrorMessage parse secret.value (readGoogleErrorBody body)).message =
      if trim bounded = [] then driveRequestFailed
      else redactSecretFromMessage bounded secret.value := by
    have hblank : trim (redactSecretFromMessage bounded secret.value) = [] ↔ trim bounded = [] :=
      trim_redactSecretFromMessage_eq_nil_iff
    simp only [driveErrorMessage, sanitizeDriveDiagnostic, hbounded, hblank]
  dsimp only
  rw [hshown]
  constructor
  · intro h
    refine ⟨fun hblank => ?_, fun hblank hcut => ?_⟩
    · have := h.hidden
      rwa [if_pos hblank] at this
    · have := h.noFragment hcut
      rwa [if_pos hblank] at this
  · intro h
    by_cases hblank : trim bounded = []
    · simp only [if_pos hblank]
      exact ⟨h.hidden hblank, h.noFragment hblank, fun _ _ => rfl⟩
    · simp only [if_neg hblank]
      exact ⟨not_infix_redactSecretFromMessage,
        fun _ => not_endsInFragment_redactSecretFromMessage, redactSecretFromMessage_eq_self⟩

end Drive

/-! ## Git commands -/

section Git

variable {secret : TokenSecret gitMarker} {stderr text : List Char}

@[simp] theorem utf8Size_foldLineBreak (c : Char) : (foldLineBreak c).utf8Size = c.utf8Size := by
  unfold foldLineBreak
  split_ifs with hbreak
  · rcases hbreak with rfl | rfl <;> rfl
  · rfl

/-- A text without whitespace comes from the same text when line breaks are folded. -/
theorem map_foldLineBreak_eq {s u : List Char} (hs : ∀ c ∈ s, isWhitespace c = false)
    (h : s = u.map foldLineBreak) : u = s := by
  rw [h]
  conv_lhs => rw [← List.map_id u]
  refine List.map_congr_left fun c hc => ?_
  have hfolded := hs (foldLineBreak c) (h ▸ List.mem_map_of_mem hc)
  unfold foldLineBreak at hfolded ⊢
  split_ifs with hbreak
  · rw [if_pos hbreak] at hfolded
    cases hfolded
  · rfl

theorem map_foldLineBreak_of_noWhitespace {s : List Char}
    (hs : ∀ c ∈ s, isWhitespace c = false) : s.map foldLineBreak = s := by
  conv_rhs => rw [← List.map_id s]
  refine List.map_congr_left fun c hc => ?_
  unfold foldLineBreak
  rw [if_neg]
  · rfl
  · rintro (rfl | rfl)
    · cases hs _ hc
    · cases hs _ hc

theorem infix_map_foldLineBreak_iff {s : List Char} (hs : ∀ c ∈ s, isWhitespace c = false) :
    s <:+: text.map foldLineBreak ↔ s <:+: text := by
  constructor
  · intro h
    obtain ⟨u, hu, hmap⟩ := List.infix_map_iff.mp h
    rwa [map_foldLineBreak_eq hs hmap] at hu
  · intro h
    have := h.map foldLineBreak
    rwa [map_foldLineBreak_of_noWhitespace hs] at this

theorem suffix_map_foldLineBreak_iff {s : List Char} (hs : ∀ c ∈ s, isWhitespace c = false) :
    s <:+ text.map foldLineBreak ↔ s <:+ text := by
  constructor
  · intro h
    obtain ⟨u, hu, hmap⟩ := List.suffix_map_iff.mp h
    rwa [map_foldLineBreak_eq hs hmap] at hu
  · intro h
    have := h.map foldLineBreak
    rwa [map_foldLineBreak_of_noWhitespace hs] at this

theorem trim_map_foldLineBreak_eq_nil_iff :
    trim (text.map foldLineBreak) = [] ↔ trim text = [] := by
  have hfold : ∀ c, isWhitespace (foldLineBreak c) = isWhitespace c := by
    intro c
    unfold foldLineBreak
    split_ifs with hbreak
    · rcases hbreak with rfl | rfl <;> rfl
    · rfl
  rw [trim_eq_nil_iff, trim_eq_nil_iff]
  simp only [List.mem_map, forall_exists_index, and_imp, forall_apply_eq_imp_iff₂, hfold]

/-- A text that fits is shown trimmed, or the standing text for it. -/
theorem presentCommandStderr_of_le (hfits : byteLength text ≤ maxCommandStderrLen) :
    presentCommandStderr text =
      if trim text = [] then noStderr else trim (text.map foldLineBreak) := by
  unfold presentCommandStderr truncateWithEllipsis
  rw [byteLength_map utf8Size_foldLineBreak, if_pos hfits]
  simp only [trim_map_foldLineBreak_eq_nil_iff]

/-- A text that does not fit is shown with dots behind what fits. -/
theorem presentCommandStderr_of_lt (hlong : ¬byteLength text ≤ maxCommandStderrLen) :
    presentCommandStderr text =
      trim ((takeBytes maxCommandStderrLen text).map foldLineBreak ++ ellipsis) := by
  unfold presentCommandStderr truncateWithEllipsis
  rw [byteLength_map utf8Size_foldLineBreak, if_neg hlong, takeBytes_map utf8Size_foldLineBreak]
  dsimp only
  rw [if_neg]
  intro h
  exact absurd (trim_eq_nil_iff.mp h '.' (List.mem_append_right _ (by decide))) (by decide)

/-- The dots behind what fits complete a secret that was truncated. -/
def DotsComplete (secret kept : List Char) : Prop :=
  ∃ front dots, secret = front ++ dots ∧ dots ≠ [] ∧ dots <+: ellipsis ∧ front <:+ kept

/-- The dots behind what fits complete a fragment that was truncated. -/
def DotsCompleteFragment (secret kept : List Char) : Prop :=
  ∃ front, front ++ ellipsis <+: secret ∧
    minRedactedSecretFragmentLen ≤ byteLength (front ++ ellipsis) ∧ front <:+ kept

/-- The redacted text fits, in terms of the retained one and the occurrences in it. -/
def RedactedFits (secret text : List Char) : Prop :=
  byteLength text + Redact.count secret text * byteLength gitMarker.text ≤
    maxCommandStderrLen + Redact.count secret text * byteLength secret

theorem redactedFits_iff : RedactedFits secret.value text ↔
    byteLength (Redact.replace secret.value gitMarker.text text) ≤ maxCommandStderrLen := by
  have hweight := Redact.weight_replace gitMarker.text text Char.utf8Size secret.nonempty
  unfold RedactedFits byteLength
  omega

/-- When the standard error of a Git command is redacted safely. If the redacted text fits, the
retained one must not end in a fragment of a secret that was cut, behind the last occurrence. If it
does not fit, the dots must not complete the secret or a fragment. -/
structure CommandStderrSafe (secret stderr text : List Char) : Prop where
  blank : RedactedFits secret text → trim text = [] → ¬secret <:+: noStderr
  fits : RedactedFits secret text → CutInside maxRetainedCommandStderrLen secret stderr →
    ¬EndsInFragment secret (Redact.rest secret text)
  truncated : ¬RedactedFits secret text →
    ¬DotsComplete secret
      (takeBytes maxCommandStderrLen (Redact.replace secret gitMarker.text text))
  truncatedFragment : ¬RedactedFits secret text →
    CutInside maxRetainedCommandStderrLen secret stderr →
    ¬DotsCompleteFragment secret
      (takeBytes maxCommandStderrLen (Redact.replace secret gitMarker.text text))

/-- What is promised of the standard error that is shown for a Git command. -/
def CommandRedactionSafe (secret stderr : List Char) : Prop :=
  RedactionSafe secret stderr maxRetainedCommandStderrLen (retainedCommandStderr stderr)
    (presentCommandStderr (retainedCommandStderr stderr))
    (sanitizeCommandStderr (retainedCommandStderr stderr) secret)

variable (secret text) in
/-- The shown text of a command is presented after the replacement. -/
theorem sanitizeCommandStderr_eq : sanitizeCommandStderr text secret.value =
    presentCommandStderr (Redact.replace secret.value gitMarker.text text) := by
  unfold sanitizeCommandStderr
  rw [if_neg secret.nonempty]

/-- A secret in what is truncated crosses into the dots. -/
theorem infix_truncated_iff {kept : List Char} (hkept : ¬secret.value <:+: kept) :
    secret.value <:+: trim (kept.map foldLineBreak ++ ellipsis) ↔
      DotsComplete secret.value kept := by
  rw [infix_trim_iff secret.nonempty secret.noWhitespace, Redact.infix_append_iff,
    infix_map_foldLineBreak_iff secret.noWhitespace]
  constructor
  · rintro (h | h | ⟨front, dots, heq, _, hdots, hfront, hstart⟩)
    · exact absurd h hkept
    · have hreplicate : ellipsis = List.replicate 3 '.' := by decide
      rw [hreplicate] at h
      have hstart := List.prefix_replicate_iff.mpr (List.infix_replicate_iff.mp h)
      exact ⟨[], secret.value, rfl, secret.nonempty, hreplicate ▸ hstart, List.nil_suffix⟩
    · have hnowhitespace : ∀ c ∈ front, isWhitespace c = false :=
        fun c hc => secret.noWhitespace c (heq ▸ List.mem_append_left _ hc)
      exact ⟨front, dots, heq, hdots, hstart,
        (suffix_map_foldLineBreak_iff hnowhitespace).mp hfront⟩
  · rintro ⟨front, dots, heq, hdots, hstart, hfront⟩
    by_cases hnil : front = []
    · rw [hnil, List.nil_append] at heq
      exact .inr (.inl (heq ▸ hstart.isInfix))
    · have hnowhitespace : ∀ c ∈ front, isWhitespace c = false :=
        fun c hc => secret.noWhitespace c (heq ▸ List.mem_append_left _ hc)
      exact .inr (.inr ⟨front, dots, heq, hnil, hdots,
        (suffix_map_foldLineBreak_iff hnowhitespace).mpr hfront, hstart⟩)

/-- A fragment at the end of what is truncated ends in the dots. -/
theorem endsInFragment_truncated_iff {kept : List Char} :
    EndsInFragment secret.value (trim (kept.map foldLineBreak ++ ellipsis)) ↔
      DotsCompleteFragment secret.value kept := by
  have hlast : (kept.map foldLineBreak ++ ellipsis).getLast? = some '.' := by
    rw [List.getLast?_append_of_ne_nil _ (by decide)]
    rfl
  constructor
  · rintro ⟨fragment, hstart, hlong, hend⟩
    have hnowhitespace : ∀ c ∈ fragment, isWhitespace c = false :=
      fun c hc => secret.noWhitespace c (hstart.subset hc)
    rw [suffix_trim_iff hnowhitespace hlast (by decide)] at hend
    rcases List.suffix_or_suffix_of_suffix hend (List.suffix_append _ _) with hshort | hdots
    · obtain ⟨front, hfront⟩ := hshort
      have hbytes := congrArg byteLength hfront
      have hthree : byteLength ellipsis = 3 := by decide
      have hsix : minRedactedSecretFragmentLen = 6 := rfl
      rw [byteLength_append] at hbytes
      omega
    · obtain ⟨front, rfl⟩ := hdots
      obtain ⟨before, hbefore⟩ := hend
      rw [← List.append_assoc] at hbefore
      refine ⟨front, hstart, hlong, ?_⟩
      rw [← suffix_map_foldLineBreak_iff fun c hc => hnowhitespace c (List.mem_append_left _ hc)]
      exact ⟨before, List.append_cancel_right hbefore⟩
  · rintro ⟨front, hstart, hlong, hfront⟩
    have hnowhitespace : ∀ c ∈ front ++ ellipsis, isWhitespace c = false :=
      fun c hc => secret.noWhitespace c (hstart.subset hc)
    refine ⟨front ++ ellipsis, hstart, hlong, ?_⟩
    rw [suffix_trim_iff hnowhitespace hlast (by decide)]
    obtain ⟨before, hbefore⟩ := (suffix_map_foldLineBreak_iff
      fun c hc => hnowhitespace c (List.mem_append_left _ hc)).mpr hfront
    exact ⟨before, by rw [← List.append_assoc, hbefore]⟩

/-- A fragment at the end of a redacted text that ends in no whitespace is at the end of what was
retained behind the last occurrence. -/
theorem endsInFragment_redacted_iff {e : Char}
    (hlast : text.getLast? = some e) (he : isWhitespace e = false) :
    EndsInFragment secret.value
        (trim ((Redact.replace secret.value gitMarker.text text).map foldLineBreak)) ↔
      EndsInFragment secret.value (Redact.rest secret.value text) := by
  have hredacted : ∃ e', ((Redact.replace secret.value gitMarker.text text).map
      foldLineBreak).getLast? = some e' ∧ isWhitespace e' = false := by
    obtain ⟨a, rest, rfl⟩ := List.exists_cons_of_ne_nil
      (fun hnil : text = [] => by rw [hnil] at hlast; cases hlast)
    have hne : Redact.replaceFrom secret.value gitMarker.text 0 (a :: rest) ≠ [] :=
      Redact.replaceFrom_ne_nil (by decide)
    obtain ⟨e', he'⟩ := Option.ne_none_iff_exists'.mp fun hnone =>
      hne (List.getLast?_eq_none_iff.mp hnone)
    refine ⟨foldLineBreak e', by rw [List.getLast?_map]; exact congrArg _ he', ?_⟩
    have hplain : isWhitespace e' = false := by
      rcases Redact.getLast?_replaceFrom (by decide) he' with htext | hmarker
      · rw [hlast] at htext
        cases htext
        exact he
      · cases hmarker
        decide
    unfold foldLineBreak
    rw [if_neg]
    · exact hplain
    · rintro (rfl | rfl)
      · cases hplain
      · cases hplain
  obtain ⟨e', hlast', he'⟩ := hredacted
  have hiff : ∀ fragment, fragment <+: secret.value →
      (fragment <:+ trim ((Redact.replace secret.value gitMarker.text text).map foldLineBreak) ↔
        fragment <:+ Redact.rest secret.value text) := by
    intro fragment hstart
    have hnowhitespace : ∀ c ∈ fragment, isWhitespace c = false :=
      fun c hc => secret.noWhitespace c (hstart.subset hc)
    rw [suffix_trim_iff hnowhitespace hlast' he', suffix_map_foldLineBreak_iff hnowhitespace]
    have hmarker : gitMarker.text =
        (gitMarker.opening :: gitMarker.word) ++ [gitMarker.closing] := rfl
    exact Redact.suffix_replaceFrom_iff hmarker fun hmem => secret.noClosing (hstart.subset hmem)
  constructor
  · rintro ⟨fragment, hstart, hlong, hend⟩
    exact ⟨fragment, hstart, hlong, (hiff fragment hstart).mp hend⟩
  · rintro ⟨fragment, hstart, hlong, hend⟩
    exact ⟨fragment, hstart, hlong, (hiff fragment hstart).mpr hend⟩

/-- What is retained of a cut secret does not end in whitespace. -/
theorem retained_last_of_cutInside
    (hcut : CutInside maxRetainedCommandStderrLen secret.value stderr) :
    ∃ e, (retainedCommandStderr stderr).getLast? = some e ∧ isWhitespace e = false := by
  obtain ⟨e, hlast, hmem | rfl⟩ := hcut.getLast?
  · exact ⟨e, hlast, secret.noWhitespace e hmem⟩
  · exact ⟨_, hlast, by decide⟩

/-- The standard error of a Git command is redacted safely exactly if the two cuts leave no part
of the secret and the standing text does not have it. -/
theorem commandRedactionSafe_iff : CommandRedactionSafe secret.value stderr ↔
    CommandStderrSafe secret.value stderr (retainedCommandStderr stderr) := by
  unfold CommandRedactionSafe
  have hunchanged : ∀ text, ¬secret.value <:+: text →
      sanitizeCommandStderr text secret.value = presentCommandStderr text := fun text hno => by
    rw [sanitizeCommandStderr_eq, Redact.replace_of_not_infix hno]
  have hblankIff : trim (Redact.replace secret.value gitMarker.text
      (retainedCommandStderr stderr)) = [] ↔ trim (retainedCommandStderr stderr) = [] :=
    secret.trim_replace_eq_nil_iff (c := '>') (by decide) (by decide)
  by_cases hfits : RedactedFits secret.value (retainedCommandStderr stderr)
  · have hshown := sanitizeCommandStderr_eq secret (retainedCommandStderr stderr)
    rw [presentCommandStderr_of_le (redactedFits_iff.mp hfits)] at hshown
    simp only [hblankIff] at hshown
    have hcutShown : CutInside maxRetainedCommandStderrLen secret.value stderr →
        (EndsInFragment secret.value
          (sanitizeCommandStderr (retainedCommandStderr stderr) secret.value) ↔
        EndsInFragment secret.value
          (Redact.rest secret.value (retainedCommandStderr stderr))) := by
      intro hcut
      obtain ⟨e, hlast, he⟩ := retained_last_of_cutInside hcut
      have hblank : trim (retainedCommandStderr stderr) ≠ [] := by
        intro hnil
        have := trim_eq_nil_iff.mp hnil e (List.mem_of_getLast? hlast)
        rw [he] at this
        cases this
      rw [hshown, if_neg hblank]
      exact endsInFragment_redacted_iff hlast he
    constructor
    · intro h
      refine ⟨fun _ hblank => ?_, fun _ hcut => ?_, fun hno => absurd hfits hno,
        fun hno => absurd hfits hno⟩
      · have := h.hidden
        rwa [hshown, if_pos hblank] at this
      · rw [← hcutShown hcut]
        exact h.noFragment hcut
    · intro h
      refine ⟨?_, fun hcut => ?_, fun hno _ => hunchanged _ hno⟩
      · rw [hshown]
        split_ifs with hblank
        · exact h.blank hfits hblank
        · rw [infix_trim_iff secret.nonempty secret.noWhitespace,
            infix_map_foldLineBreak_iff secret.noWhitespace]
          exact secret.not_infix_replace
      · rw [hcutShown hcut]
        exact h.fits hfits hcut
  · have hshown := sanitizeCommandStderr_eq secret (retainedCommandStderr stderr)
    rw [presentCommandStderr_of_lt fun hle => hfits (redactedFits_iff.mpr hle)] at hshown
    have hkept : ¬secret.value <:+: takeBytes maxCommandStderrLen
        (Redact.replace secret.value gitMarker.text (retainedCommandStderr stderr)) :=
      fun hin => secret.not_infix_replace (hin.trans takeBytes_prefix.isInfix)
    constructor
    · intro h
      refine ⟨fun hyes => absurd hyes hfits, fun hyes => absurd hyes hfits, fun _ => ?_,
        fun _ hcut => ?_⟩
      · rw [← infix_truncated_iff hkept, ← hshown]
        exact h.hidden
      · rw [← endsInFragment_truncated_iff, ← hshown]
        exact h.noFragment hcut
    · intro h
      refine ⟨?_, fun hcut => ?_, fun hno _ => hunchanged _ hno⟩
      · rw [hshown, infix_truncated_iff hkept]
        exact h.truncated hfits
      · rw [hshown, endsInFragment_truncated_iff]
        exact h.truncatedFragment hfits hcut

end Git

/-- **Redaction and truncation**: a Drive diagnostic is redacted safely but for the standing text
of a blank one, and the standard error of a Git command exactly if the two cuts leave no part of the
secret. -/
theorem redaction_survives_truncation (driveSecret : TokenSecret driveMarker)
    (parse : List Char → Option GoogleDriveErrorResponse) (body : List Char)
    (gitSecret : TokenSecret gitMarker) (stderr : List Char) :
    (DriveRedactionSafe parse driveSecret.value body ↔
      DriveRequestFailedSafe driveSecret.value body
        (driveErrorText parse (readGoogleErrorBody body)).message) ∧
    (CommandRedactionSafe gitSecret.value stderr ↔
      CommandStderrSafe gitSecret.value stderr (retainedCommandStderr stderr)) :=
  ⟨driveRedactionSafe_iff, commandRedactionSafe_iff⟩

/-- A session token of sixty characters. -/
def longSecret : TokenSecret gitMarker where
  value := List.replicate 60 'a'
  nonempty := by simp
  noWhitespace c hc := by
    rw [List.eq_of_mem_replicate hc]
    decide
  noOpening hmem := absurd (List.eq_of_mem_replicate hmem) (by decide)
  noClosing hmem := absurd (List.eq_of_mem_replicate hmem) (by decide)
  notInMarker h := absurd h.length_le (by simp [RedactionMarker.text, gitMarker])

/-- A helper that repeats a long token: the markers are shorter, so that what the first cut left of
the token is not truncated. -/
theorem redaction_cut_secret_shown :
    ¬CommandRedactionSafe longSecret.value (List.replicate 6200 'a') := by
  intro h
  have hsafe := commandRedactionSafe_iff.mp h
  have hbytes : ∀ n, byteLength (List.replicate n 'a') = n := by
    intro n
    rw [byteLength_eq_length fun c hc => List.eq_of_mem_replicate hc ▸ rfl, List.length_replicate]
  have hretained : retainedCommandStderr (List.replicate 6200 'a') =
      List.replicate (102 * 60 + 24) 'a' := by
    have hsplit : List.replicate 6200 'a' =
        List.replicate 6144 'a' ++ 'a' :: List.replicate 55 'a' := by
      rw [← List.replicate_succ, List.replicate_append_replicate]
    have htake : takeBytes maxRetainedCommandStderrLen (List.replicate 6200 'a') =
        List.replicate 6144 'a' := by
      rw [hsplit, takeBytes_append (by rw [hbytes]; decide), hbytes]
      simp only [maxRetainedCommandStderrLen, maxCommandStderrLen, maxCredentialFieldLen]
      exact List.append_nil _
    unfold retainedCommandStderr takeBytesLossy
    rw [htake, hbytes, hbytes, if_neg (by decide), if_neg (by decide)]
  obtain ⟨hcount, hrest⟩ :=
    Redact.count_rest_replicate (a := 'a') (k := 102) (show 24 < 60 by decide)
  rw [hretained] at hsafe
  refine hsafe.fits ?_ ⟨List.replicate 6120 'a', List.replicate 20 'a', ?_, ?_, ?_⟩
    ⟨List.replicate 24 'a', ?_, ?_, ?_⟩
  · unfold RedactedFits
    rw [show longSecret.value = List.replicate 60 'a' from rfl, hcount, hbytes, hbytes]
    decide
  · rw [show longSecret.value = List.replicate 60 'a' from rfl,
      List.replicate_append_replicate, List.replicate_append_replicate]
  · rw [hbytes]
    decide
  · rw [show longSecret.value = List.replicate 60 'a' from rfl, byteLength_append, hbytes, hbytes]
    decide
  · exact ⟨List.replicate 36 'a', List.replicate_append_replicate⟩
  · rw [hbytes]
    decide
  · rw [show longSecret.value = List.replicate 60 'a' from rfl, hrest]

end LfsCloud
