import LfsCloud.Lib.Base64
import LfsCloud.Lib.Results
import LfsCloud.Lib.Utf16

/-!
# Paths in the registry

A path of the registry is written as its bytes or units in base 64, with the name of the encoding,
on the platforms where it may be no text. Before that it was written as a text.
-/

namespace LfsCloud.RegistryPath

/-! ## Platforms -/

/-- The platforms that the code tells apart. -/
inductive Platform
  | unix
  | windows
  | other
  deriving DecidableEq

/-- What a path is made of. -/
def Platform.Path : Platform → Type
  | .unix => List UInt8
  | .windows => List UInt16
  | .other => List UInt8

/-- The text of bytes, if they are UTF-8. -/
def textOfBytes (bytes : List UInt8) : Option String := String.fromUTF8? bytes.toByteArray

/-- The bytes of a text. -/
def bytesOfText (text : String) : List UInt8 := text.toByteArray.data.toList

/-- `Path::to_str`. -/
def Platform.toStr : (platform : Platform) → platform.Path → Option String
  | .unix, (bytes : List UInt8) => textOfBytes bytes
  | .windows, (units : List UInt16) => (Utf16.decode units).map String.ofList
  | .other, (bytes : List UInt8) => textOfBytes bytes

/-- `PathBuf::from`. -/
def Platform.ofText : (platform : Platform) → String → platform.Path
  | .unix, text => bytesOfText text
  | .windows, text => Utf16.encode text.toList
  | .other, text => bytesOfText text

/-! ## Serialization -/

/-- What a path may be written as. -/
inductive RegistryJson
  | text (text : String)
  | object (fields : List (String × RegistryJson))
  | array (items : List RegistryJson)
  | other

/-- `EncodedWorktreeRegistryPath`. -/
def encodedWorktreeRegistryPath (encoding : String) (value : List Char) : RegistryJson :=
  .object [("encoding", .text encoding), ("value", .text (String.ofList value))]

/-- `to_le_bytes`. -/
def toLeBytes (unit : UInt16) : List UInt8 := [.ofNat (unit.toNat % 256), .ofNat (unit.toNat / 256)]

/-- `from_le_bytes`, for pairs of bytes; no byte may be left over. -/
def fromLeBytes : List UInt8 → Option (List UInt16)
  | [] => some []
  | [_] => none
  | low :: high :: rest =>
    (fromLeBytes rest).map (UInt16.ofNat (low.toNat + 256 * high.toNat) :: ·)

/-- `serialize_worktree_registry_path`. -/
def serializeWorktreeRegistryPath :
    (platform : Platform) → platform.Path → Except String RegistryJson
  | .unix, (bytes : List UInt8) =>
    .ok (encodedWorktreeRegistryPath "unix_bytes_base64" (Base64.encode bytes))
  | .windows, (units : List UInt16) =>
    .ok (encodedWorktreeRegistryPath "windows_wide_base64"
      (Base64.encode (units.flatMap toLeBytes)))
  | .other, (bytes : List UInt8) =>
    match textOfBytes bytes with
    | none =>
      .error "worktree registry path cannot be represented as UTF-8 on this platform"
    | some text => .ok (encodedWorktreeRegistryPath "utf8" text.toList)

/-- The end of `decode_worktree_registry_path`, on all platforms. -/
def decodeUtf8Path (platform : Platform) (encoding value : String) :
    Except String platform.Path :=
  if encoding = "utf8" then .ok (platform.ofText value)
  else .error
    ("unsupported worktree registry path encoding " ++ encoding.quote ++ " on this platform")

/-- `decode_worktree_registry_path`. -/
def decodeWorktreeRegistryPath :
    (platform : Platform) → String → String → Except String platform.Path
  | .unix, encoding, value =>
    if encoding = "unix_bytes_base64" then
      match Base64.decode value.toList with
      | none => .error "invalid base64 in Unix worktree registry path"
      | some bytes => .ok bytes
    else decodeUtf8Path .unix encoding value
  | .windows, encoding, value =>
    if encoding = "windows_wide_base64" then
      match Base64.decode value.toList with
      | none => .error "invalid base64 in Windows worktree registry path"
      | some bytes =>
        match fromLeBytes bytes with
        | none => .error "Windows worktree registry path has an incomplete wide unit"
        | some units => .ok units
    else decodeUtf8Path .windows encoding value
  | .other, encoding, value => decodeUtf8Path .other encoding value

/-- The text of a field that is there once. -/
def stringField (fields : List (String × RegistryJson)) (name : String) : Option String :=
  match fields.filter (·.1 = name) with
  | [(_, .text text)] => some text
  | _ => none

/-- `SerializedWorktreeRegistryPath::Encoded`, from an object or from its values in order. -/
def encodedFields : RegistryJson → Option (String × String)
  | .object fields => do
    let encoding ← stringField fields "encoding"
    let value ← stringField fields "value"
    some (encoding, value)
  | .array [.text encoding, .text value] => some (encoding, value)
  | _ => none

/-- `deserialize_worktree_registry_path`. -/
def deserializeWorktreeRegistryPath (platform : Platform) :
    RegistryJson → Except String platform.Path
  | .text path => .ok (platform.ofText path)
  | json =>
    match encodedFields json with
    | some (encoding, value) => decodeWorktreeRegistryPath platform encoding value
    | none =>
      .error "data did not match any variant of untagged enum SerializedWorktreeRegistryPath"

/-! ## Round trips -/

variable {platform : Platform} {path path' : platform.Path} {json : RegistryJson}

/-- The forms of a path: the current one, and the plain one of a path that is a text. -/
def IsFormOf (path : platform.Path) (json : RegistryJson) : Prop :=
  serializeWorktreeRegistryPath platform path = .ok json ∨
    ∃ text, platform.toStr path = some text ∧ json = .text text

/-- Bytes that are a text are the bytes of this text. -/
theorem bytesOfText_of_textOfBytes {bytes : List UInt8} {text : String}
    (h : textOfBytes bytes = some text) : bytesOfText text = bytes := by
  unfold textOfBytes String.fromUTF8? at h
  split_ifs at h with hvalid
  obtain rfl := Option.some.inj h
  simp [bytesOfText, String.fromUTF8]

/-- A path that is a text is the path of this text. -/
theorem ofText_of_toStr {text : String} (h : platform.toStr path = some text) :
    platform.ofText text = path := by
  cases platform with
  | unix => exact bytesOfText_of_textOfBytes h
  | windows =>
    obtain ⟨chars, hchars, rfl⟩ := Option.map_eq_some_iff.mp h
    change Utf16.encode (String.ofList chars).toList = path
    rw [String.toList_ofList]
    exact Utf16.encode_of_decode hchars
  | other => exact bytesOfText_of_textOfBytes h

/-- The bytes of units are read as these units. -/
theorem fromLeBytes_flatMap (units : List UInt16) :
    fromLeBytes (units.flatMap toLeBytes) = some units := by
  induction units with
  | nil => rfl
  | cons unit units ih =>
    have hlt := unit.toNat_lt
    have hlow : (UInt8.ofNat (unit.toNat % 256)).toNat = unit.toNat % 256 :=
      UInt8.toNat_ofNat_of_lt' (Nat.mod_lt _ (by decide))
    have hhigh : (UInt8.ofNat (unit.toNat / 256)).toNat = unit.toNat / 256 :=
      UInt8.toNat_ofNat_of_lt' (by
        change unit.toNat / 256 < 256
        omega)
    have hunit : UInt16.ofNat (unit.toNat % 256 + 256 * (unit.toNat / 256)) = unit :=
      Utf16.ofNat_eq unit (Nat.mod_add_div _ _)
    change fromLeBytes (UInt8.ofNat (unit.toNat % 256) :: UInt8.ofNat (unit.toNat / 256) ::
      units.flatMap toLeBytes) = _
    unfold fromLeBytes
    rw [ih, hlow, hhigh, hunit]
    rfl

/-- What is written is read by its encoding. -/
theorem deserialize_encoded {encoding : String} {value : List Char} :
    deserializeWorktreeRegistryPath platform (encodedWorktreeRegistryPath encoding value) =
      decodeWorktreeRegistryPath platform encoding (String.ofList value) := by
  rfl

/-- On other platforms the text of a path is written. -/
theorem serialize_other (bytes : List UInt8) :
    serializeWorktreeRegistryPath .other bytes =
      ((textOfBytes bytes).map fun text => encodedWorktreeRegistryPath "utf8" text.toList).elim
        (.error "worktree registry path cannot be represented as UTF-8 on this platform") .ok := by
  cases htext : textOfBytes bytes with
  | none => simp only [serializeWorktreeRegistryPath, htext, Option.map_none, Option.elim_none]
  | some text => simp only [serializeWorktreeRegistryPath, htext, Option.map_some, Option.elim_some]

/-- Bytes in base 64 are read as a Unix path. -/
theorem decode_unix (bytes : List UInt8) :
    decodeWorktreeRegistryPath .unix "unix_bytes_base64" (String.ofList (Base64.encode bytes)) =
      .ok bytes := by
  simp only [decodeWorktreeRegistryPath, if_true, String.toList_ofList, Base64.decode_encode]

/-- Units in base 64 are read as a Windows path. -/
theorem decode_windows (units : List UInt16) :
    decodeWorktreeRegistryPath .windows "windows_wide_base64"
      (String.ofList (Base64.encode (units.flatMap toLeBytes))) = .ok units := by
  simp only [decodeWorktreeRegistryPath, if_true, String.toList_ofList, Base64.decode_encode,
    fromLeBytes_flatMap]

/-- The current form of a path is read as this path. -/
theorem deserialize_serialize (h : serializeWorktreeRegistryPath platform path = .ok json) :
    deserializeWorktreeRegistryPath platform json = .ok path := by
  cases platform with
  | unix =>
    obtain rfl := Except.ok.inj h
    exact decode_unix path
  | windows =>
    obtain rfl := Except.ok.inj h
    exact decode_windows path
  | other =>
    have hform := (serialize_other path).symm.trans h
    cases htext : textOfBytes path with
    | none =>
      rw [htext] at hform
      cases hform
    | some text =>
      rw [htext] at hform
      obtain rfl := Except.ok.inj hform
      rw [deserialize_encoded, String.ofList_toList]
      exact congrArg Except.ok (bytesOfText_of_textOfBytes htext)

/-- Each form of a path is read as this path. -/
theorem IsFormOf.deserialize (h : IsFormOf path json) :
    deserializeWorktreeRegistryPath platform json = .ok path := by
  rcases h with hcurrent | ⟨text, htext, rfl⟩
  · exact deserialize_serialize hcurrent
  · exact congrArg Except.ok (ofText_of_toStr htext)

end LfsCloud.RegistryPath
