import LfsCloud.Lib.Redact
import LfsCloud.Lib.TextCut

/-!
# Redacting secrets in diagnostics

The texts of a Drive error body and of a Git helper's standard error are bounded while they are
read, a token in them is replaced by a marker, and what is left is shown.
-/

namespace LfsCloud

open Text

/-! ## Markers and secrets -/

/-- A marker that stands for a secret: a word in brackets. -/
structure RedactionMarker where
  opening : Char
  word : List Char
  closing : Char

/-- The marker as it is shown. -/
def RedactionMarker.text (marker : RedactionMarker) : List Char :=
  marker.opening :: (marker.word ++ [marker.closing])

/-- A token in the diagnostics of Google Drive is shown as `[redacted]`. -/
def driveMarker : RedactionMarker := ⟨'[', "redacted".toList, ']'⟩

/-- A token in the diagnostics of Git commands is shown as `<redacted>`. -/
def gitMarker : RedactionMarker := ⟨'<', "redacted".toList, '>'⟩

/-- A token: validated to be without whitespace, and different from what the marker is made of. -/
structure TokenSecret (marker : RedactionMarker) where
  value : List Char
  nonempty : value ≠ []
  noWhitespace : ∀ c ∈ value, isWhitespace c = false
  noOpening : marker.opening ∉ value
  noClosing : marker.closing ∉ value
  notInMarker : ¬value <:+: marker.text

/-! ## Google Drive -/

/-- `MAX_GOOGLE_ERROR_BODY_LEN`. -/
def maxGoogleErrorBodyLen : ℕ := 16 * 1024

/-- `MIN_REDACTED_SECRET_FRAGMENT_LEN`. -/
def minRedactedSecretFragmentLen : ℕ := 6

/-- `GoogleDriveErrorDetail`. -/
structure GoogleDriveErrorDetail where
  reason : Option (List Char)

/-- `GoogleDriveError`. -/
structure GoogleDriveError where
  message : Option (List Char)
  errors : List GoogleDriveErrorDetail

/-- `GoogleDriveErrorResponse`. -/
structure GoogleDriveErrorResponse where
  error : Option GoogleDriveError

/-- `DriveDiagnostic`, with its texts as they are computed. -/
structure DriveDiagnosticText where
  message : List Char
  reasons : List (List Char)

/-- The text for a failure that says nothing. -/
def driveRequestFailed : List Char := "Google Drive request failed".toList

/-- `read_google_response_body`. -/
def readGoogleErrorBody (body : List Char) : List Char :=
  takeBytesLossy maxGoogleErrorBodyLen body

/-- `cap_google_diagnostic`. -/
def capGoogleDiagnostic (message : List Char) : List Char := message.take maxGoogleErrorBodyLen

/-- The proper prefixes of a secret that count as fragments, from the longest one. -/
def secretFragments (secret : List Char) : List (List Char) :=
  (secret.inits.filter fun fragment =>
    minRedactedSecretFragmentLen ≤ byteLength fragment ∧
      byteLength fragment < byteLength secret).reverse

/-- `redact_secret_from_message`. -/
def redactSecretFromMessage (message secret : List Char) : List Char :=
  if secret = [] then message
  else
    let sanitized := Redact.replace secret driveMarker.text message
    if byteLength secret < minRedactedSecretFragmentLen then sanitized
    else
      match (secretFragments secret).find? fun fragment => fragment <:+ sanitized with
      | some fragment => sanitized.take (sanitized.length - fragment.length) ++ driveMarker.text
      | none => sanitized

/-- `sanitize_drive_diagnostic`. -/
def sanitizeDriveDiagnostic (token message : List Char) : List Char :=
  let sanitized := redactSecretFromMessage message token
  if trim sanitized = [] then driveRequestFailed else sanitized

/-- The message that `drive_error_message` takes from a body, with the reasons beside it. -/
def driveErrorText (parse : List Char → Option GoogleDriveErrorResponse) (body : List Char) :
    DriveDiagnosticText :=
  match parse body with
  | some ⟨some error⟩ =>
    { message := capGoogleDiagnostic
        ((error.message.filter fun value => trim value ≠ []).getD driveRequestFailed)
      reasons := (error.errors.filterMap GoogleDriveErrorDetail.reason).filter fun reason =>
        trim reason ≠ [] }
  | _ => { message := capGoogleDiagnostic body, reasons := [] }

/-- `drive_error_message`. -/
def driveErrorMessage (parse : List Char → Option GoogleDriveErrorResponse)
    (token body : List Char) : DriveDiagnosticText :=
  let text := driveErrorText parse body
  { text with message := sanitizeDriveDiagnostic token text.message }

/-! ## Git commands -/

/-- `MAX_COMMAND_STDERR_LEN`. -/
def maxCommandStderrLen : ℕ := 4096

/-- `MAX_CREDENTIAL_FIELD_LEN`. -/
def maxCredentialFieldLen : ℕ := 2048

/-- `MAX_RETAINED_COMMAND_STDERR_LEN`. -/
def maxRetainedCommandStderrLen : ℕ := maxCommandStderrLen + maxCredentialFieldLen

/-- The dots behind a text that was truncated. -/
def ellipsis : List Char := "...".toList

/-- The text for a command that said nothing. -/
def noStderr : List Char := "<no stderr>".toList

/-- `truncate_with_ellipsis`. -/
def truncateWithEllipsis (message : List Char) (limit : ℕ) : List Char :=
  if byteLength message ≤ limit then message else takeBytes limit message ++ ellipsis

/-- A line break is shown as a blank. -/
def foldLineBreak (c : Char) : Char := if c = '\r' ∨ c = '\n' then ' ' else c

/-- What is retained of the standard error of a command, decoded. -/
def retainedCommandStderr (stderr : List Char) : List Char :=
  takeBytesLossy maxRetainedCommandStderrLen stderr

/-- The end of `sanitize_command_stderr`, after the replacement. -/
def presentCommandStderr (message : List Char) : List Char :=
  let message := trim (truncateWithEllipsis (message.map foldLineBreak) maxCommandStderrLen)
  if message = [] then noStderr else message

/-- `sanitize_command_stderr`. -/
def sanitizeCommandStderr (stderr token : List Char) : List Char :=
  presentCommandStderr (if token = [] then stderr else Redact.replace token gitMarker.text stderr)

/-! ## What redaction promises -/

/-- A text ends in a prefix of the secret that is long enough to be a fragment. -/
def EndsInFragment (secret text : List Char) : Prop :=
  ∃ fragment, fragment <+: secret ∧ minRedactedSecretFragmentLen ≤ byteLength fragment ∧
    fragment <:+ text

/-- What is shown of an original that was bounded at a limit: the secret is not in it, a cut
secret is not at its end, and a bounded text without the secret is what is presented. -/
structure RedactionSafe (secret original : List Char) (limit : ℕ)
    (bounded presented shown : List Char) : Prop where
  hidden : ¬secret <:+: shown
  noFragment : CutInside limit secret original → ¬EndsInFragment secret shown
  unchanged : ¬secret <:+: bounded →
    (∀ fragment, fragment <+: secret → minRedactedSecretFragmentLen ≤ byteLength fragment →
      ¬fragment <:+: bounded) → shown = presented

namespace TokenSecret

variable {marker : RedactionMarker} {secret : TokenSecret marker} {text : List Char}

/-- After the replacement the secret does not occur. -/
theorem not_infix_replace : ¬secret.value <:+: Redact.replace secret.value marker.text text :=
  Redact.not_infix_replaceFrom secret.nonempty rfl secret.noOpening secret.noClosing
    secret.notInMarker 0

/-- The replacement does not make a text blank. -/
theorem trim_replace_eq_nil_iff {c : Char} (hc : c ∈ marker.text)
    (hwhitespace : isWhitespace c = false) :
    trim (Redact.replace secret.value marker.text text) = [] ↔ trim text = [] := by
  rcases Redact.replace_eq_or_mem secret.value marker.text text with hsame | hmem
  · rw [hsame]
  · constructor
    · intro h
      have := trim_eq_nil_iff.mp h c (hmem c hc)
      rw [hwhitespace] at this
      cases this
    · intro h
      have hno : ¬secret.value <:+: text := by
        intro hin
        obtain ⟨d, hd⟩ := List.exists_mem_of_ne_nil _ secret.nonempty
        have := trim_eq_nil_iff.mp h d (hin.subset hd)
        rw [secret.noWhitespace d hd] at this
        cases this
      rw [Redact.replace_of_not_infix hno, h]

end TokenSecret

end LfsCloud
