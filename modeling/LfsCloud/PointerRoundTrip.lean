import LfsCloud.PointerRecords

/-!
# Pointers and their files

The file of a well-formed pointer is its version line and a line for each record. It parses
back to the pointer, unless it is too large for a pointer file or the pointer has size zero
without being the pointer of the empty file.
-/

namespace LfsCloud

namespace LfsPointer

variable {pointer : LfsPointer}

/-- The text of a record, without the end of its line. -/
def recordText (field : String × String) : List Char := field.1.toList ++ ' ' :: field.2.toList

/-- The records of a file in their order. -/
def fileRecords (pointer : LfsPointer) : List (String × String) :=
  pointer.extensions.entries ++
    [("oid", pointer.object.oid.asPointerOid), ("size", toString pointer.object.size)]

/-- The lines of a file. -/
def fileLines (pointer : LfsPointer) : List (List Char) :=
  ("version ".toList ++ pointer.version.toList) :: pointer.fileRecords.map recordText

/-- The text of the records that are added to a file. -/
theorem toList_foldl_recordLine (fields : List (String × String)) (start : String) :
    (fields.foldl (fun file field => file ++ recordLine field.1 field.2) start).toList =
      start.toList ++ (fields.map recordText).flatMap fun line => line ++ ['\n'] := by
  induction fields generalizing start with
  | nil => simp
  | cons field fields ih =>
    rw [List.foldl_cons, ih]
    simp [recordLine, recordText, String.toList_append]

/-- The records of a file come in the order of their keys. -/
theorem entries_insert_oid_size (hwf : WellFormed pointer) :
    ((pointer.extensions.insert "oid" pointer.object.oid.asPointerOid).insert "size"
      (toString pointer.object.size)).entries = pointer.fileRecords := by
  have hbefore : ∀ entry ∈ pointer.extensions.entries, entry.1 < "oid" := fun entry hentry =>
    (validKey_spec (hwf.extensions_valid.records entry hentry).validKey).2.2
  have horder : "oid" < "size" := by decide
  have hoid := SortedMap.insertEntry_of_lt (v := pointer.object.oid.asPointerOid) hbefore
  have hlater : ∀ entry ∈ pointer.extensions.entries ++
      [("oid", pointer.object.oid.asPointerOid)], entry.1 < "size" := by
    intro entry hentry
    rcases List.mem_append.mp hentry with hentry | hentry
    · exact (hbefore entry hentry).trans horder
    · rw [List.mem_singleton.mp hentry]
      exact horder
  have hsize := SortedMap.insertEntry_of_lt (v := toString pointer.object.size) hlater
  change SortedMap.insertEntry "size" _ (SortedMap.insertEntry "oid" _ _) = _
  rw [hoid, hsize, List.append_assoc]
  rfl

/-- A file is its lines. -/
theorem toList_toPointerFile (hwf : WellFormed pointer) (hne : pointer.isEmpty = false) :
    pointer.toPointerFile.toList = pointer.fileLines.flatMap fun line => line ++ ['\n'] := by
  unfold toPointerFile
  rw [if_neg (by simp [hne])]
  dsimp only
  rw [entries_insert_oid_size hwf, toList_foldl_recordLine, fileLines, List.flatMap_cons]
  simp [String.toList_append]

/-- The records of a file are plain text, with a letter in their keys. -/
theorem fileRecords_plain (hwf : WellFormed pointer) :
    ∀ field ∈ pointer.fileRecords,
      (∀ c ∈ field.1.toList, isSeparator c = false) ∧
      (∀ c ∈ field.2.toList, isSeparator c = false) ∧
      ('e' ∈ field.1.toList ∨ 'o' ∈ field.1.toList) := by
  intro field hfield
  rcases List.mem_append.mp hfield with hfield | hfield
  · obtain ⟨hkey, oid, hvalue⟩ := hwf.extensions_valid.records field hfield
    obtain ⟨hplain, hmem, _⟩ := validKey_spec hkey
    rw [hvalue]
    exact ⟨hplain, oid.asPointerOid_plain, Or.inl hmem⟩
  · have hoid : ∀ c ∈ "oid".toList, isSeparator c = false := Text.forall_of_all (by decide)
    have hsize : ∀ c ∈ "size".toList, isSeparator c = false := Text.forall_of_all (by decide)
    have hoidLetter : 'o' ∈ "oid".toList := by decide
    have hsizeLetter : 'e' ∈ "size".toList := by decide
    rcases List.mem_pair.mp hfield with rfl | rfl
    · exact ⟨hoid, pointer.object.oid.asPointerOid_plain, Or.inr hoidLetter⟩
    · exact ⟨hsize, toString_u64_plain _, Or.inl hsizeLetter⟩

/-- No line of a file has a line end in it, and none is blank. -/
theorem fileLines_plain (hwf : WellFormed pointer) :
    ∀ line ∈ pointer.fileLines, ('\n' ∉ line ∧ '\r' ∉ line) ∧ Text.trim line ≠ [] := by
  intro line hline
  rcases List.mem_cons.mp hline with rfl | hline
  · have hplain : ∀ c ∈ "version ".toList ++ lfsPointerVersion.toList,
        c ≠ '\n' ∧ c ≠ '\r' := Text.forall_of_all (by decide)
    rw [hwf.version_eq]
    refine ⟨⟨fun h => (hplain _ h).1 rfl, fun h => (hplain _ h).2 rfl⟩, ?_⟩
    exact Text.trim_ne_nil (c := 'v') (by decide) (by decide)
  · obtain ⟨field, hfield, rfl⟩ := List.mem_map.mp hline
    obtain ⟨hkey, hvalue, hletter⟩ := fileRecords_plain hwf field hfield
    have hnotMem : ∀ c, isSeparator c = true → c ≠ ' ' → c ∉ recordText field := by
      intro c hc hspace hmem
      rcases List.mem_append.mp hmem with hmem | hmem
      · rw [hkey c hmem] at hc
        cases hc
      · rcases List.mem_cons.mp hmem with rfl | hmem
        · exact hspace rfl
        · rw [hvalue c hmem] at hc
          cases hc
    refine ⟨⟨hnotMem _ (by decide) (by decide), hnotMem _ (by decide) (by decide)⟩, ?_⟩
    rcases hletter with hletter | hletter
    · exact Text.trim_ne_nil (List.mem_append_left _ hletter) (by decide)
    · exact Text.trim_ne_nil (List.mem_append_left _ hletter) (by decide)

/-- The lines of a file are read back. -/
theorem lines_toPointerFile (hwf : WellFormed pointer) (hne : pointer.isEmpty = false) :
    ((Text.lines pointer.toPointerFile.toList).filter fun line => Text.trim line ≠ []) =
      pointer.fileLines := by
  have hplain := fileLines_plain hwf
  rw [toList_toPointerFile hwf hne, Text.lines_flatMap fun line hline => (hplain line hline).1]
  apply List.filter_eq_self.mpr
  intro line hline
  simpa using (hplain line hline).2

/-- The key and the value of a record are read back. -/
theorem splitOnce_recordText {field : String × String}
    (hkey : ∀ c ∈ field.1.toList, isSeparator c = false) :
    Text.splitOnce ' ' (recordText field) = some (field.1.toList, field.2.toList) := by
  apply Text.splitOnce_append
  intro hspace
  have hplain := hkey ' ' hspace
  cases hplain

/-- The line of an extension record inserts the record, where its key comes last. -/
theorem parseLine_extension {parsed : ParsedLines} {key value : String}
    (hrecord : ValidRecord key value)
    (hprevious : ∀ previous ∈ parsed.previousKey, previous < key)
    (hfree : ∀ entry ∈ parsed.extensions.entries,
      extensionPriority entry.1.toList = extensionPriority key.toList → entry.1 = key) :
    parseLine parsed (recordText (key, value)) =
      .ok { parsed with
        previousKey := some key, extensions := parsed.extensions.insert key value } := by
  obtain ⟨hkey, oid, rfl⟩ := hrecord
  obtain ⟨hplain, _, hbefore⟩ := validKey_spec hkey
  have hany : (parsed.previousKey.any fun previous => decide (key ≤ previous)) = false := by
    cases hsome : parsed.previousKey with
    | none => rfl
    | some previous => simpa using hprevious previous hsome
  have hoid : key ≠ "oid" := hbefore.ne
  have hsize : key ≠ "size" := (hbefore.trans (by decide)).ne
  have hinsert : insertExtensionRecord parsed.extensions key oid.asPointerOid =
      (.ok (), parsed.extensions.insert key oid.asPointerOid) :=
    insertExtensionRecord_eq_ok.mpr ⟨hkey, hfree, rfl⟩
  unfold parseLine
  rw [splitOnce_recordText hplain]
  simp only [String.ofList_toList, hany, Bool.false_eq_true, if_false, hoid, hsize, hkey,
    if_true, normalizeExtensionValue_asPointerOid, hinsert]

/-- The lines of extension records insert the records after those that are there. -/
theorem foldlM_extensions {records : List (String × String)} (parsed : ParsedLines)
    (hvalid : ∀ record ∈ records, ValidRecord record.1 record.2)
    (hsorted : (records.map Prod.fst).Pairwise (· < ·))
    (hprevious : ∀ previous ∈ parsed.previousKey, previous < "oid" ∧
      ∀ record ∈ records, previous < record.1)
    (hbefore : ∀ entry ∈ parsed.extensions.entries, ∀ record ∈ records, entry.1 < record.1)
    (hpriorities : ∀ a ∈ parsed.extensions.entries ++ records,
      ∀ b ∈ parsed.extensions.entries ++ records,
        extensionPriority a.1.toList = extensionPriority b.1.toList → a.1 = b.1) :
    ∃ previousKey extensions, (records.map recordText).foldlM parseLine parsed =
        .ok { parsed with previousKey, extensions } ∧
      extensions.entries = parsed.extensions.entries ++ records ∧
      ∀ previous ∈ previousKey, previous < "oid" := by
  induction records generalizing parsed with
  | nil =>
    exact ⟨parsed.previousKey, parsed.extensions, rfl, (List.append_nil _).symm,
      fun previous h => (hprevious previous h).1⟩
  | cons record records ih =>
    obtain ⟨key, value⟩ := record
    rw [List.map_cons, List.pairwise_cons] at hsorted
    obtain ⟨hfirst, hrest⟩ := hsorted
    have hrecord := hvalid _ List.mem_cons_self
    have hfree : ∀ entry ∈ parsed.extensions.entries,
        extensionPriority entry.1.toList = extensionPriority key.toList → entry.1 = key :=
      fun entry hentry hsame => hpriorities entry (List.mem_append_left _ hentry) (key, value)
        (List.mem_append_right _ List.mem_cons_self) hsame
    have hline := parseLine_extension hrecord
      (fun previous h => (hprevious previous h).2 _ List.mem_cons_self) hfree
    have hentries : (parsed.extensions.insert key value).entries =
        parsed.extensions.entries ++ [(key, value)] :=
      SortedMap.insertEntry_of_lt fun entry hentry => hbefore entry hentry _ List.mem_cons_self
    have happend : (parsed.extensions.insert key value).entries ++ records =
        parsed.extensions.entries ++ (key, value) :: records := by
      rw [hentries, List.append_assoc]
      rfl
    have hlater : ∀ record ∈ records, key < record.1 := fun record h =>
      hfirst record.1 (List.mem_map_of_mem h)
    obtain ⟨previousKey, extensions, hfold, hresult, hlast⟩ := ih
      { parsed with previousKey := some key, extensions := parsed.extensions.insert key value }
      (fun record h => hvalid record (List.mem_cons_of_mem _ h)) hrest
      (fun previous h => by
        cases h
        exact ⟨(validKey_spec hrecord.validKey).2.2, hlater⟩)
      (fun entry hentry record h => by
        rw [hentries] at hentry
        rcases List.mem_append.mp hentry with hentry | hentry
        · exact hbefore entry hentry record (List.mem_cons_of_mem _ h)
        · rw [List.mem_singleton.mp hentry]
          exact hlater record h)
      (by rwa [happend])
    refine ⟨previousKey, extensions, ?_, hresult.trans happend, hlast⟩
    rw [List.map_cons, List.foldlM_cons, hline]
    exact hfold

/-- The lines of the object are read back. -/
theorem foldlM_object (parsed : ParsedLines) (object : LfsObject)
    (hprevious : ∀ previous ∈ parsed.previousKey, previous < "oid") :
    ([("oid", object.oid.asPointerOid), ("size", toString object.size)].map
        recordText).foldlM parseLine parsed =
      .ok { parsed with
        previousKey := some "size", oid := some object.oid, size := some object.size } := by
  have hany : (parsed.previousKey.any fun previous => decide ("oid" ≤ previous)) = false := by
    cases hsome : parsed.previousKey with
    | none => rfl
    | some previous => simpa using hprevious previous hsome
  have hoidPlain : ∀ c ∈ "oid".toList, isSeparator c = false := Text.forall_of_all (by decide)
  have hsizePlain : ∀ c ∈ "size".toList, isSeparator c = false := Text.forall_of_all (by decide)
  have hfront : sha256Prefix.toList.isPrefixOf? object.oid.asPointerOid.toList =
      some object.oid.hex.toList :=
    List.isPrefixOf?_eq_some_iff_append_eq.mpr object.oid.toList_asPointerOid.symm
  have hparse : parsePointerOid object.oid.asPointerOid.toList = .ok object.oid := by
    unfold parsePointerOid
    rw [hfront]
    exact object.oid.fromCanonicalSha256Hex_hex
  have hoid : parseLine parsed (recordText ("oid", object.oid.asPointerOid)) =
      .ok { parsed with previousKey := some "oid", oid := some object.oid } := by
    unfold parseLine
    rw [splitOnce_recordText hoidPlain]
    simp only [String.ofList_toList, hany, Bool.false_eq_true, if_false, if_true, hparse]
  have hsize : parseLine { parsed with previousKey := some "oid", oid := some object.oid }
      (recordText ("size", toString object.size)) =
      .ok { parsed with
        previousKey := some "size", oid := some object.oid, size := some object.size } := by
    have horder : decide (("size" : String) ≤ "oid") = false := by decide
    have hne : ("size" : String) ≠ "oid" := by decide
    unfold parseLine
    rw [splitOnce_recordText hsizePlain]
    simp only [String.ofList_toList, Option.any_some, horder, Bool.false_eq_true, if_false,
      hne, if_true, parseU64_toString, UInt64.ofNat_toNat]
  rw [List.map_cons, List.map_cons, List.map_nil, List.foldlM_cons, hoid]
  change (parseLine _ _ >>= _) = _
  rw [hsize]
  rfl

/-- A file below the cutoff parses back to its pointer. -/
theorem parse_toPointerFile (hwf : WellFormed pointer) (hne : pointer.isEmpty = false)
    (hsize : Text.byteLength pointer.toPointerFile.toList < lfsPointerSizeCutoff) :
    parse pointer.toPointerFile = .ok pointer := by
  have hlines := lines_toPointerFile hwf hne
  have hnil : pointer.toPointerFile.toList ≠ [] := by
    intro hnil
    rw [hnil] at hlines
    cases hlines
  have hversion : "version ".toList.isPrefixOf?
      ("version ".toList ++ pointer.version.toList) = some lfsPointerVersion.toList :=
    List.isPrefixOf?_eq_some_iff_append_eq.mpr (by rw [hwf.version_eq])
  have halias : ¬lfsPointerVersion ∉ lfsPointerVersionAliases := by
    simp [lfsPointerVersionAliases]
  obtain ⟨previousKey, extensions, hfold, hentries, hlast⟩ :=
    foldlM_extensions ⟨none, .empty, none, none⟩ hwf.extensions_valid.records
      pointer.extensions.sorted (fun _ h => by cases h)
      (fun _ h => absurd h List.not_mem_nil) hwf.extensions_valid.priorities
  have hextensions : extensions = pointer.extensions := SortedMap.ext hentries
  have hobject := foldlM_object ⟨previousKey, extensions, none, none⟩ pointer.object
    hlast
  have hall : (pointer.fileRecords.map recordText).foldlM parseLine ⟨none, .empty, none, none⟩ =
      .ok ⟨some "size", extensions, some pointer.object.oid, some pointer.object.size⟩ := by
    rw [fileRecords, List.map_append, List.foldlM_append, hfold]
    exact hobject
  unfold parse
  dsimp only
  rw [if_neg (by omega), if_neg hnil, hlines]
  simp only [fileLines, hversion, String.ofList_toList, halias, if_false, hall]
  subst hextensions
  obtain ⟨version, extensions, object⟩ := pointer
  obtain rfl : version = lfsPointerVersion := hwf.version_eq
  rfl

/-- The number of bytes of the canonical file: the version, the object, and each record with
its identifier. -/
def canonicalLength (pointer : LfsPointer) : ℕ :=
  125 + (Nat.toDigits 10 pointer.object.size.toNat).length +
    (pointer.extensions.entries.map fun entry => Text.byteLength entry.1.toList + 73).sum

/-- An identifier in a pointer has 71 bytes. -/
theorem byteLength_asPointerOid (oid : LfsOid) :
    Text.byteLength oid.asPointerOid.toList = 71 := by
  have hone : ∀ c ∈ oid.hex.toList, c.utf8Size = 1 :=
    fun c hc => (isHexDigit_spec (isLowerHex_spec (oid.lower c hc)).1).1
  have hfront : Text.byteLength sha256Prefix.toList = 7 := by decide
  rw [oid.toList_asPointerOid, Text.byteLength_append, Text.byteLength_eq_length hone,
    oid.length_eq, hfront]
  rfl

/-- The length of a file is known from the pointer. -/
theorem byteLength_toPointerFile (hwf : WellFormed pointer) (hne : pointer.isEmpty = false) :
    Text.byteLength pointer.toPointerFile.toList = pointer.canonicalLength := by
  have hline : ∀ field : String × String, Text.byteLength (recordText field ++ ['\n']) =
      Text.byteLength field.1.toList + Text.byteLength field.2.toList + 2 := by
    intro field
    have hspace : Text.byteLength (' ' :: field.2.toList) = 1 + Text.byteLength field.2.toList :=
      List.sum_cons
    have hend : Text.byteLength ['\n'] = 1 := by decide
    rw [Text.byteLength_append, recordText, Text.byteLength_append, hspace, hend]
    omega
  have hrecords : (pointer.extensions.entries.map fun entry =>
      Text.byteLength (recordText entry ++ ['\n'])) =
      pointer.extensions.entries.map fun entry => Text.byteLength entry.1.toList + 73 := by
    apply List.map_congr_left
    intro entry hentry
    obtain ⟨_, oid, hvalue⟩ := hwf.extensions_valid.records entry hentry
    rw [hline, hvalue, byteLength_asPointerOid]
  have hdigits : (toString pointer.object.size).toList =
      Nat.toDigits 10 pointer.object.size.toNat := Nat.toList_repr
  have hdigitsLength : Text.byteLength (toString pointer.object.size).toList =
      (Nat.toDigits 10 pointer.object.size.toNat).length := by
    rw [hdigits]
    apply Text.byteLength_eq_length
    intro c hc
    have hdigit : c.isDigit = true := Nat.isDigit_of_mem_toDigits (by decide) (by decide) hc
    exact (isHexDigit_spec (by simp [isHexDigit, isLowerHex, hdigit])).1
  have hversion : Text.byteLength ("version ".toList ++ lfsPointerVersion.toList ++ ['\n']) = 43 :=
    by decide
  have hoid : Text.byteLength "oid".toList = 3 := by decide
  have hsize : Text.byteLength "size".toList = 4 := by decide
  rw [toList_toPointerFile hwf hne, fileLines, List.flatMap_cons, Text.byteLength_append,
    hwf.version_eq, hversion, List.flatMap_map, Text.byteLength_flatMap, fileRecords,
    List.map_append, List.sum_append, hrecords]
  simp only [List.map_cons, List.map_nil, List.sum_cons, List.sum_nil, hline, hoid, hsize,
    byteLength_asPointerOid, hdigitsLength, canonicalLength]
  omega

/-- The pointers whose file parses back to them: the pointer of the empty file, and the others
of positive size whose file is below the cutoff. -/
def RoundTrips (pointer : LfsPointer) : Prop :=
  if pointer.isEmpty = true then
    pointer.object.oid = .ofEmpty ∧ pointer.extensions.entries = []
  else pointer.canonicalLength < lfsPointerSizeCutoff

/-- The empty file is a pointer. -/
theorem parse_empty : parse "" = .ok (new ⟨.ofEmpty, 0⟩) := by
  unfold parse
  rw [if_neg (by decide), if_pos (by decide)]

/-- What the file of a well-formed pointer parses to. -/
theorem parse_toPointerFile_iff (hwf : WellFormed pointer) :
    parse pointer.toPointerFile = .ok pointer ↔ pointer.RoundTrips := by
  unfold RoundTrips
  cases hempty : pointer.isEmpty with
  | true =>
    have hfile : pointer.toPointerFile = "" := by
      unfold toPointerFile
      rw [if_pos hempty]
    have hsize : pointer.object.size = 0 := by simpa [isEmpty] using hempty
    rw [hfile, parse_empty, if_pos rfl, Except.ok.injEq]
    constructor
    · rintro rfl
      exact ⟨rfl, rfl⟩
    · rintro ⟨hoid, hentries⟩
      obtain ⟨version, extensions, oid, size⟩ := pointer
      obtain rfl : version = lfsPointerVersion := hwf.version_eq
      obtain rfl : oid = .ofEmpty := hoid
      obtain rfl : size = 0 := hsize
      obtain rfl : extensions = .empty := SortedMap.ext hentries
      rfl
  | false =>
    rw [if_neg Bool.false_ne_true, ← byteLength_toPointerFile hwf hempty]
    constructor
    · intro hparse
      by_contra hlarge
      unfold parse at hparse
      dsimp only at hparse
      rw [if_pos (by omega)] at hparse
      cases hparse
    · exact parse_toPointerFile hwf hempty

/-- Every pointer that is parsed or built has valid extensions and is left alone by a failed
insertion. Its file parses back to it exactly where it is below the cutoff and, at size zero,
is the pointer of the empty file. -/
theorem pointer_round_trip {pointer : LfsPointer} (hpointer : Obtained pointer) :
    WellFormed pointer ∧
      (∀ key value error, (pointer.insertExtension key value).1 = .error error →
        (pointer.insertExtension key value).2 = pointer) ∧
      (parse pointer.toPointerFile = .ok pointer ↔ pointer.RoundTrips) :=
  ⟨hpointer.wellFormed, fun _ _ _ => insertExtension_error,
    parse_toPointerFile_iff hpointer.wellFormed⟩

/-- An object of one byte. -/
def byteObject : LfsObject := ⟨.zero, 1⟩

theorem pointer_round_trip_new :
    Obtained (new byteObject) ∧ WellFormed (new byteObject) :=
  ⟨.new byteObject, (pointer_round_trip (.new byteObject)).1⟩

/-- The key of an extension with a name of the given length. -/
def longKey (length : ℕ) : String := "ext-0-" ++ String.ofList (List.replicate length 'a')

theorem toList_longKey (length : ℕ) :
    (longKey length).toList = "ext-".toList ++ (['0'] ++ '-' :: List.replicate length 'a') := by
  simp [longKey]

theorem extensionPriority_longKey (length : ℕ) :
    extensionPriority (longKey (length + 1)).toList = some 0 := by
  have hfront : "ext-".toList.isPrefixOf? (longKey (length + 1)).toList =
      some (['0'] ++ '-' :: List.replicate (length + 1) 'a') :=
    List.isPrefixOf?_eq_some_iff_append_eq.mpr (toList_longKey _).symm
  have hsplit : Text.splitOnce '-' (['0'] ++ '-' :: List.replicate (length + 1) 'a') =
      some (['0'], List.replicate (length + 1) 'a') :=
    Text.splitOnce_append (by decide) _
  have hstarts : startsWithNameChar (List.replicate (length + 1) 'a') = true := by
    rw [List.replicate_succ]
    rfl
  have hblank : (List.replicate (length + 1) 'a').any isAsciiWhitespace = false := by
    rw [List.any_replicate]
    simp [isAsciiWhitespace]
  unfold extensionPriority
  simp only [hfront, Option.bind_eq_bind, Option.bind_some, hsplit, hstarts, hblank]
  decide

theorem byteLength_longKey (length : ℕ) :
    Text.byteLength (longKey length).toList = 6 + length := by
  have hname : Text.byteLength (List.replicate length 'a') = length := by
    rw [Text.byteLength_eq_length fun c hc => by rw [List.eq_of_mem_replicate hc]; rfl,
      List.length_replicate]
  have hfront : Text.byteLength "ext-".toList = 4 := by decide
  have hdigit : Text.byteLength (['0'] ++ ['-']) = 2 := by decide
  rw [toList_longKey, List.append_cons, Text.byteLength_append, Text.byteLength_append, hname,
    hfront, hdigit]
  omega

/-- A pointer with an extension whose name has the given length. -/
def longPointer (length : ℕ) : LfsPointer :=
  ((new byteObject).insertExtension (longKey length) LfsOid.zero.asPointerOid).2

theorem longPointer_obtained (length : ℕ) : Obtained (longPointer length) :=
  .insert _ _ (.new byteObject)

theorem longPointer_eq (length : ℕ) :
    longPointer (length + 1) = ⟨lfsPointerVersion,
      SortedMap.empty.insert (longKey (length + 1)) LfsOid.zero.asPointerOid, byteObject⟩ := by
  have hvalid : isValidExtensionKey (longKey (length + 1)) = true := by
    rw [isValidExtensionKey, extensionPriority_longKey]
    rfl
  have hrecord : insertExtensionRecord .empty (longKey (length + 1)) LfsOid.zero.asPointerOid =
      (.ok (), SortedMap.empty.insert (longKey (length + 1)) LfsOid.zero.asPointerOid) :=
    insertExtensionRecord_eq_ok.mpr ⟨hvalid, fun _ h => absurd h List.not_mem_nil, rfl⟩
  unfold longPointer insertExtension validateExtensionKey
  rw [if_pos hvalid, normalizeExtensionValue_asPointerOid]
  dsimp only [new]
  rw [hrecord]

/-- The length of the file of a pointer with a long name. -/
theorem byteLength_longPointer (length : ℕ) :
    Text.byteLength (longPointer (length + 1)).toPointerFile.toList = 206 + length := by
  have hempty : (longPointer (length + 1)).isEmpty = false := by
    rw [longPointer_eq]
    rfl
  rw [byteLength_toPointerFile (longPointer_obtained _).wellFormed hempty, longPointer_eq]
  have hdigits : (Nat.toDigits 10 byteObject.size.toNat).length = 1 := by decide
  have hentries : (SortedMap.empty.insert (longKey (length + 1))
      LfsOid.zero.asPointerOid).entries = [(longKey (length + 1), LfsOid.zero.asPointerOid)] := rfl
  simp only [canonicalLength, hdigits, hentries, List.map_cons, List.map_nil, List.sum_cons,
    List.sum_nil, byteLength_longKey]
  omega

/-- A pointer that is built, but whose file is too large to be a pointer file. -/
theorem pointer_round_trip_long :
    Obtained (longPointer 1000) ∧
      parse (longPointer 1000).toPointerFile = .error (.pointerTooLarge 1205 1024) := by
  refine ⟨longPointer_obtained 1000, ?_⟩
  unfold parse
  rw [byteLength_longPointer 999]
  exact if_pos (by decide)

end LfsPointer

end LfsCloud
