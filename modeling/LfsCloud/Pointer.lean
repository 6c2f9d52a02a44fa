import LfsCloud.Lfs
import LfsCloud.Lib.SortedMap
import LfsCloud.Lib.TextLines
import LfsCloud.Lib.U64
import Mathlib.Data.String.Basic

/-!
# Pointer files

A pointer file stands for an object in a repository: a version line, extension records and
the identifier and size of the object. Parsing takes more texts than rendering makes, and a
pointer of size zero is rendered as an empty file.
-/

namespace LfsCloud

/-- `LFS_POINTER_VERSION`. -/
def lfsPointerVersion : String := "https://git-lfs.github.com/spec/v1"

/-- `LFS_POINTER_SIZE_CUTOFF`: a pointer file has fewer bytes. -/
def lfsPointerSizeCutoff : ℕ := 1024

/-- `LFS_POINTER_VERSION_ALIASES`. -/
def lfsPointerVersionAliases : List String :=
  ["http://git-media.io/v/2", "https://hawser.github.com/spec/v1", lfsPointerVersion]

/-- `SHA256_PREFIX`. -/
def sha256Prefix : String := "sha256:"

/-- `LfsObjectError`, with the failures of pointer files. -/
inductive LfsPointerError
  | object (error : LfsObjectError)
  | nonCanonicalSha256Hex (index : ℕ)
  | pointerMissingVersion
  | pointerInvalidVersion (version : String)
  | pointerMissingOid
  | pointerOidMissingSha256Prefix (oid : String)
  | pointerMissingSize
  | pointerInvalidSize (value : String)
  | pointerUnexpectedLine (line : String)
  | pointerInvalidExtensionKey (key : String)
  | pointerInvalidExtensionValue (key : String)
  | pointerDuplicateExtensionPriority (priority : ℕ)
  | pointerTooLarge (size sizeCutoff : ℕ)
  deriving DecidableEq, Repr

/-- `as_pointer_oid`. -/
def LfsOid.asPointerOid (oid : LfsOid) : String := sha256Prefix ++ oid.hex

/-- `from_canonical_sha256_hex`: as many bytes as digits, and each one a lowercase digit. -/
def LfsOid.fromCanonicalSha256Hex (hex : List Char) : Except LfsPointerError LfsOid :=
  if hlength : Text.byteLength hex = sha256HexLength then
    if hlower : hex.all isLowerHex = true then
      have hlower := List.all_eq_true.mp hlower
      have hone : ∀ c ∈ hex, c.utf8Size = 1 :=
        fun c hc => (isHexDigit_spec (isLowerHex_spec (hlower c hc)).1).1
      .ok ⟨String.ofList hex, by
        rw [String.toList_ofList, ← Text.byteLength_eq_length hone, hlength],
        by simpa using hlower⟩
    else .error (.nonCanonicalSha256Hex (hex.findIdx fun c => !isLowerHex c))
  else .error (.object (.invalidSha256Length (Text.byteLength hex)))

/-- `EMPTY_SHA256_HEX`, as an identifier. -/
def LfsOid.ofEmpty : LfsOid :=
  ⟨"e3b0c44298fc1c149afbf4c8996fb92427ae41e4649b934ca495991b7852b855", by decide,
    Text.forall_of_all (by decide)⟩

/-- `LfsPointer`. -/
structure LfsPointer where
  version : String
  extensions : SortedMap String String
  object : LfsObject
  deriving DecidableEq

namespace LfsPointer

/-- `LfsPointer::new`. -/
def new (object : LfsObject) : LfsPointer := ⟨lfsPointerVersion, .empty, object⟩

/-- `is_empty`. -/
def isEmpty (pointer : LfsPointer) : Bool := pointer.object.size = 0

/-- `is_ascii_whitespace`. -/
def isAsciiWhitespace (c : Char) : Bool :=
  let n := c.toNat
  n = 0x20 || n = 9 || n = 10 || n = 12 || n = 13

/-- The first character of an extension's name. -/
def startsWithNameChar (name : List Char) : Bool :=
  name.head?.any fun c => c.isAlphanum || c = '_'

/-- `extension_priority`. -/
def extensionPriority (key : List Char) : Option ℕ := do
  let extensionName ← "ext-".toList.isPrefixOf? key
  let (priority, name) ← Text.splitOnce '-' extensionName
  if Text.byteLength priority ≠ 1 ∨ startsWithNameChar name = false ∨
      name.any isAsciiWhitespace = true then none
  else
    let digit ← priority.head?
    let value ← checkedSub digit.toNat '0'.toNat
    if value ≤ 9 then some value else none

/-- `is_valid_extension_key`. -/
def isValidExtensionKey (key : String) : Bool := (extensionPriority key.toList).isSome

/-- `validate_extension_key`. -/
def validateExtensionKey (key : String) : Except LfsPointerError Unit :=
  if isValidExtensionKey key then .ok () else .error (.pointerInvalidExtensionKey key)

/-- `normalize_extension_value`. -/
def normalizeExtensionValue (key value : String) : Except LfsPointerError String :=
  if '\r' ∈ value.toList ∨ '\n' ∈ value.toList then .error (.pointerInvalidExtensionValue key)
  else match sha256Prefix.toList.isPrefixOf? value.toList with
    | none => .error (.pointerInvalidExtensionValue key)
    | some hex => match LfsOid.fromCanonicalSha256Hex hex with
      | .error _ => .error (.pointerInvalidExtensionValue key)
      | .ok oid => .ok oid.asPointerOid

/-- `insert_extension_record`: the result, and the records afterwards. -/
def insertExtensionRecord (extensions : SortedMap String String) (key value : String) :
    Except LfsPointerError Unit × SortedMap String String :=
  match extensionPriority key.toList with
  | none => (.error (.pointerInvalidExtensionKey key), extensions)
  | some priority =>
    if extensions.keys.any fun existingKey =>
        existingKey ≠ key && extensionPriority existingKey.toList = some priority then
      (.error (.pointerDuplicateExtensionPriority priority), extensions)
    else (.ok (), extensions.insert key value)

/-- `insert_extension`: the result, and the pointer afterwards. -/
def insertExtension (pointer : LfsPointer) (key value : String) :
    Except LfsPointerError Unit × LfsPointer :=
  match validateExtensionKey key with
  | .error error => (.error error, pointer)
  | .ok () => match normalizeExtensionValue key value with
    | .error error => (.error error, pointer)
    | .ok value =>
      let (result, extensions) := insertExtensionRecord pointer.extensions key value
      (result, { pointer with extensions })

/-- `parse_pointer_oid`. -/
def parsePointerOid (value : List Char) : Except LfsPointerError LfsOid :=
  match sha256Prefix.toList.isPrefixOf? value with
  | none => .error (.pointerOidMissingSha256Prefix (String.ofList value))
  | some hex => LfsOid.fromCanonicalSha256Hex hex

/-- What the lines after the version line have given. -/
structure ParsedLines where
  previousKey : Option String
  extensions : SortedMap String String
  oid : Option LfsOid
  size : Option UInt64

/-- One line after the version line. -/
def parseLine (parsed : ParsedLines) (line : List Char) : Except LfsPointerError ParsedLines :=
  match Text.splitOnce ' ' line with
  | none => .error (.pointerUnexpectedLine (String.ofList line))
  | some (keyText, value) =>
    let key := String.ofList keyText
    if parsed.previousKey.any fun previous => key ≤ previous then
      .error (.pointerUnexpectedLine (String.ofList line))
    else
      let parsed := { parsed with previousKey := some key }
      if key = "oid" then
        match parsePointerOid value with
        | .error error => .error error
        | .ok oid => .ok { parsed with oid := some oid }
      else if key = "size" then
        match parseU64 value with
        | none => .error (.pointerInvalidSize (String.ofList value))
        | some size => .ok { parsed with size := some (UInt64.ofNat size) }
      else if isValidExtensionKey key then
        match normalizeExtensionValue key (String.ofList value) with
        | .error error => .error error
        | .ok extensionValue =>
          match insertExtensionRecord parsed.extensions key extensionValue with
          | (.error error, _) => .error error
          | (.ok (), extensions) => .ok { parsed with extensions }
      else .error (.pointerUnexpectedLine (String.ofList line))

/-- The pointer of the lines that were read. -/
def ofParsedLines (parsed : ParsedLines) : Except LfsPointerError LfsPointer :=
  match parsed.oid, parsed.size with
  | none, _ => .error .pointerMissingOid
  | some _, none => .error .pointerMissingSize
  | some oid, some size => .ok ⟨lfsPointerVersion, parsed.extensions, ⟨oid, size⟩⟩

/-- `LfsPointer::parse`. -/
def parse (contents : String) : Except LfsPointerError LfsPointer :=
  let size := Text.byteLength contents.toList
  if size ≥ lfsPointerSizeCutoff then .error (.pointerTooLarge size lfsPointerSizeCutoff)
  else if contents.toList = [] then .ok (new ⟨.ofEmpty, 0⟩)
  else match (Text.lines contents.toList).filter fun line => Text.trim line ≠ [] with
    | [] => .error .pointerMissingVersion
    | versionLine :: lines => match "version ".toList.isPrefixOf? versionLine with
      | none => .error (.pointerUnexpectedLine (String.ofList versionLine))
      | some version =>
        if String.ofList version ∉ lfsPointerVersionAliases then
          .error (.pointerInvalidVersion (String.ofList version))
        else do
          let parsed ← lines.foldlM parseLine ⟨none, .empty, none, none⟩
          ofParsedLines parsed

/-- The line of a record. -/
def recordLine (key value : String) : String := key ++ " " ++ value ++ "\n"

/-- `to_pointer_file`. -/
def toPointerFile (pointer : LfsPointer) : String :=
  if pointer.isEmpty then ""
  else
    let fields := (pointer.extensions.insert "oid" pointer.object.oid.asPointerOid).insert "size"
      (toString pointer.object.size)
    fields.entries.foldl (fun file field => file ++ recordLine field.1 field.2)
      ("version " ++ pointer.version ++ "\n")

end LfsPointer

end LfsCloud
