import LfsCloud.Lib.Transition
import LfsCloud.Migration.CheckpointText

/-!
# Crash consistency of the checkpoint

As long as nothing is appended behind a torn line, and a cut falls between two
characters, the file is a sequence of whole lines followed by at most one torn
line, and the loader recovers exactly the completions of the whole lines (and of
a last line that only lacks its end). Appending behind a torn line merges the two
lines into one that does not parse, and the loader refuses the file from then on.
-/

namespace LfsCloud

open Transition

section Bytes

/-- The bytes of a text decode to the text. -/
theorem fromUTF8?_ofList (text : List Char) :
    String.fromUTF8? (String.ofList text).toByteArray = some (String.ofList text) := by
  have hvalid : (String.ofList text).toByteArray.IsValidUTF8 := (String.ofList text).isValidUTF8
  unfold String.fromUTF8?
  rw [dif_pos hvalid]
  rfl

theorem toByteArray_ofList_append (text rest : List Char) :
    (String.ofList (text ++ rest)).toByteArray =
      (String.ofList text).toByteArray ++ (String.ofList rest).toByteArray := by
  simp

/-- The file is empty or its last byte ends a line. -/
def EndsLine (file : ByteArray) : Prop :=
  file.data.toList = [] ∨ file.data.toList.getLast? = some 10

/-- Only the newline has an encoding that ends in the newline byte. -/
theorem getLast?_utf8EncodeChar {c : Char}
    (h : (String.utf8EncodeChar c).getLast? = some 10) : c = '\n' := by
  have hten : (10 : UInt8).toNat = 10 := rfl
  unfold String.utf8EncodeChar at h
  dsimp only at h
  split at h
  next hascii =>
    simp only [List.getLast?_singleton, Option.some.injEq] at h
    have hbyte := congrArg UInt8.toNat h
    have hval : c.val.toNat = 10 := by
      rw [UInt8.toNat_ofNat', hten] at hbyte
      omega
    have : c = Char.ofNat c.val.toNat := (Char.ofNat_toNat c).symm
    rw [this, hval]
  -- The last byte of a longer encoding is at least 128.
  have hlast : UInt8.ofNat (c.val.toNat % 64 + 128) = 10 := by
    split at h
    · simpa using h
    split at h
    · simpa using h
    · simpa using h
  have hbyte := congrArg UInt8.toNat hlast
  rw [UInt8.toNat_ofNat', hten] at hbyte
  omega

/-- A text whose bytes end a line ends in a newline. -/
theorem endsLine_ofList {text : List Char} (h : EndsLine (String.ofList text).toByteArray) :
    text = [] ∨ text.getLast? = some '\n' := by
  have hbytes : (String.ofList text).toByteArray.data.toList =
      text.flatMap String.utf8EncodeChar := by
    simp [List.utf8Encode]
  rw [EndsLine, hbytes] at h
  cases text using List.reverseRecOn with
  | nil => exact .inl rfl
  | append_singleton text c =>
    right
    simp only [List.flatMap_append, List.flatMap_singleton, List.append_eq_nil_iff,
      String.utf8EncodeChar_ne_nil, and_false, false_or] at h
    rw [List.getLast?_append_of_ne_nil _ String.utf8EncodeChar_ne_nil] at h
    rw [getLast?_utf8EncodeChar h]
    simp

end Bytes

variable {codec : CheckpointCodec} {identity : CheckpointIdentity}

/-- The loader refuses blank backend identifiers, and validation keeps them out. -/
def MigrationUploadCheckpointCompletion.Loadable : MigrationUploadCheckpointCompletion → Prop
  | alreadyPresent => True
  | uploaded backendId => Text.isBlank backendId = false

theorem validateMigrationUploadedObject_ok {object : LfsObject} {stored : StoredObject}
    (h : validateMigrationUploadedObject object identity stored = .ok ()) :
    Text.isBlank stored.backendId = false := by
  refine Bool.eq_false_of_not_eq_true fun hblank => ?_
  simp only [validateMigrationUploadedObject, hblank, if_true] at h
  split_ifs at h

theorem migrationUploadCompletion_loadable {object : LfsObject} {uploaded : Option StoredObject}
    {completion : MigrationUploadCheckpointCompletion}
    (h : migrationUploadCompletion identity object uploaded = .ok completion) :
    completion.Loadable := by
  cases uploaded with
  | none =>
    cases h
    trivial
  | some stored =>
    cases hvalid : validateMigrationUploadedObject object identity stored with
    | error error => simp [migrationUploadCompletion, hvalid, Except.map] at h
    | ok _ =>
      simp only [migrationUploadCompletion, hvalid, Except.map, Except.ok.injEq] at h
      subst h
      exact validateMigrationUploadedObject_ok hvalid

/-- The record behind a line. -/
def checkpointRecord (identity : CheckpointIdentity) (object : LfsObject)
    (completion : MigrationUploadCheckpointCompletion) : MigrationUploadCheckpointRecord :=
  { version := migrationUploadCheckpointVersion
    storageProviderId := identity.storageProviderId
    repositoryNamespace := identity.repositoryNamespace
    oid := object.oid.hex
    size := object.size
    completion := completion }

/-- The loader accepts every record that is appended, and takes back its object. -/
theorem completedObject_checkpointRecord (object : LfsObject)
    {completion : MigrationUploadCheckpointCompletion} (hloadable : completion.Loadable) :
    (checkpointRecord identity object completion).completedObject identity =
      .ok (object, completion) := by
  cases completion with
  | alreadyPresent => simp [MigrationUploadCheckpointRecord.completedObject, checkpointRecord]
  | uploaded backendId =>
    have hblank : Text.isBlank backendId = false := hloadable
    simp [MigrationUploadCheckpointRecord.completedObject, checkpointRecord, hblank]

/-- The completions of a sequence of appends, the last one of an object wins. -/
def completionsOf (stored : List (LfsObject × MigrationUploadCheckpointCompletion)) :
    CheckpointCompletions :=
  stored.foldl (fun completed entry => completed.insert entry.1 entry.2) ∅

theorem completionsOf_append (stored : List (LfsObject × MigrationUploadCheckpointCompletion))
    (object : LfsObject) (completion : MigrationUploadCheckpointCompletion) :
    completionsOf (stored ++ [(object, completion)]) =
      (completionsOf stored).insert object completion := by
  simp [completionsOf]

section Loader

variable (codec : CheckpointCodec) (identity : CheckpointIdentity)

/-- The text of one record, without its line end. -/
def recordText (object : LfsObject) (completion : MigrationUploadCheckpointCompletion) :
    List Char :=
  codec.encode (checkpointRecord identity object completion)

theorem checkpointLine_eq (object : LfsObject)
    (completion : MigrationUploadCheckpointCompletion) :
    checkpointLine codec identity object completion =
      recordText codec identity object completion ++ ['\n'] :=
  rfl

/-- No part of a record is a control character, a line end in particular. -/
theorem notMem_recordText (object : LfsObject)
    (completion : MigrationUploadCheckpointCompletion) {c : Char} (hc : c.toNat < 32) :
    c ∉ recordText codec identity object completion := by
  intro hmem
  have := codec.control_free _ c hmem
  omega

/-- The text of a sequence of whole lines. -/
def linesText (stored : List (LfsObject × MigrationUploadCheckpointCompletion)) : List Char :=
  stored.flatMap fun entry => checkpointLine codec identity entry.1 entry.2

/-- Splitting whole lines and a torn one gives back the lines and the torn one. -/
theorem splitInclusive_linesText
    (stored : List (LfsObject × MigrationUploadCheckpointCompletion)) (torn : List Char) :
    Lines.splitInclusive '\n' (linesText codec identity stored ++ torn) =
      stored.map (fun entry => checkpointLine codec identity entry.1 entry.2) ++
        Lines.splitInclusive '\n' torn := by
  induction stored with
  | nil => rfl
  | cons entry stored ih =>
    have hline : '\n' ∉ recordText codec identity entry.1 entry.2 :=
      notMem_recordText codec identity _ _ (by decide)
    have htext : linesText codec identity (entry :: stored) ++ torn =
        recordText codec identity entry.1 entry.2 ++
          '\n' :: (linesText codec identity stored ++ torn) := by
      simp [linesText, checkpointLine_eq]
    rw [htext, Lines.splitInclusive_line hline, ih]
    rfl

/-- The loop takes in a whole line. -/
theorem parseCheckpointChunks_line (object : LfsObject)
    {completion : MigrationUploadCheckpointCompletion} (hloadable : completion.Loadable)
    (chunks : List (List Char)) (index : ℕ) (completed : CheckpointCompletions) :
    parseCheckpointChunks codec identity
        (checkpointLine codec identity object completion :: chunks) index completed =
      parseCheckpointChunks codec identity chunks (index + 1)
        (completed.insert object completion) := by
  have hreturn : '\r' ∉ recordText codec identity object completion :=
    notMem_recordText codec identity _ _ (by decide)
  have hdecode : codec.decode (recordText codec identity object completion) =
      .ok (checkpointRecord identity object completion) :=
    codec.decode_encode _
  have hne : recordText codec identity object completion ≠ [] := codec.encode_ne_nil _
  rw [parseCheckpointChunks, checkpointLine_eq, Lines.stripSuffix_append,
    Lines.trimEnd_of_notMem hreturn]
  simp only [hne, if_false, hdecode, completedObject_checkpointRecord object hloadable]

/-- The loop takes in all whole lines. -/
theorem parseCheckpointChunks_lines
    {stored : List (LfsObject × MigrationUploadCheckpointCompletion)}
    (hloadable : ∀ entry ∈ stored, entry.2.Loadable) (chunks : List (List Char)) (index : ℕ)
    (completed : CheckpointCompletions) :
    parseCheckpointChunks codec identity
        (stored.map (fun entry => checkpointLine codec identity entry.1 entry.2) ++ chunks) index
          completed =
      parseCheckpointChunks codec identity chunks (index + stored.length)
        (stored.foldl (fun completed entry => completed.insert entry.1 entry.2) completed) := by
  induction stored generalizing index completed with
  | nil => rfl
  | cons entry stored ih =>
    have hentry : entry.2.Loadable := hloadable entry (by simp)
    have hrest : ∀ entry ∈ stored, entry.2.Loadable := fun e he => hloadable e (by simp [he])
    rw [List.map_cons, List.cons_append, parseCheckpointChunks_line codec identity _ hentry,
      ih hrest, List.length_cons, List.foldl_cons, Nat.add_assoc, Nat.add_comm 1]

/-- A last chunk that is a part of a record is dropped when it is torn, and taken in
when only its line end is missing. -/
theorem parseCheckpointChunks_torn (object : LfsObject)
    {completion : MigrationUploadCheckpointCompletion} (hloadable : completion.Loadable)
    {torn : List Char} (hpre : torn <+: recordText codec identity object completion)
    (hne : torn ≠ []) (index : ℕ) (completed : CheckpointCompletions) :
    parseCheckpointChunks codec identity [torn] index completed =
      .ok (if torn = recordText codec identity object completion
        then completed.insert object completion else completed) := by
  have hsubset := hpre.subset
  have hnewline : '\n' ∉ torn :=
    fun h => notMem_recordText codec identity object completion (by decide) (hsubset h)
  have hreturn : '\r' ∉ torn :=
    fun h => notMem_recordText codec identity object completion (by decide) (hsubset h)
  have hlast : torn.getLast? ≠ some '\n' := fun h => hnewline (List.mem_of_getLast? h)
  rw [parseCheckpointChunks, Lines.stripSuffix_of_notMem hnewline,
    Lines.trimEnd_of_notMem hreturn]
  by_cases hwhole : torn = recordText codec identity object completion
  · subst hwhole
    have hdecode : codec.decode (recordText codec identity object completion) =
        .ok (checkpointRecord identity object completion) :=
      codec.decode_encode _
    simp only [hne, if_false, if_true, hdecode,
      completedObject_checkpointRecord object hloadable]
    rfl
  · obtain ⟨source, hdecode⟩ := codec.decode_prefix _ torn hpre hwhole
    simp [hne, hdecode, hwhole, hlast]

/-- Loading a file of whole lines. -/
theorem load_linesText {stored : List (LfsObject × MigrationUploadCheckpointCompletion)}
    (hloadable : ∀ entry ∈ stored, entry.2.Loadable) :
    loadMigrationUploadCheckpoint codec identity
        (String.ofList (linesText codec identity stored)).toByteArray =
      .ok (completionsOf stored) := by
  have hlines := parseCheckpointChunks_lines codec identity hloadable [] 0 ∅
  have hsplit := splitInclusive_linesText codec identity stored []
  rw [List.append_nil] at hsplit
  unfold loadMigrationUploadCheckpoint
  rw [fromUTF8?_ofList]
  dsimp only
  rw [String.toList_ofList, parseMigrationUploadCheckpoint, hsplit, Lines.splitInclusive, hlines]
  rfl

/-- Loading a file of whole lines and a torn one. -/
theorem load_torn {stored : List (LfsObject × MigrationUploadCheckpointCompletion)}
    (hstored : ∀ entry ∈ stored, entry.2.Loadable) (object : LfsObject)
    {completion : MigrationUploadCheckpointCompletion} (hloadable : completion.Loadable)
    {torn : List Char} (hpre : torn <+: recordText codec identity object completion)
    (hne : torn ≠ []) :
    loadMigrationUploadCheckpoint codec identity
        (String.ofList (linesText codec identity stored ++ torn)).toByteArray =
      .ok (if torn = recordText codec identity object completion
        then (completionsOf stored).insert object completion else completionsOf stored) := by
  have hnewline : '\n' ∉ torn := fun h =>
    notMem_recordText codec identity object completion (by decide) (hpre.subset h)
  unfold loadMigrationUploadCheckpoint
  rw [fromUTF8?_ofList]
  dsimp only
  rw [String.toList_ofList, parseMigrationUploadCheckpoint, splitInclusive_linesText,
    Lines.splitInclusive_torn hnewline hne, parseCheckpointChunks_lines codec identity hstored,
    parseCheckpointChunks_torn codec identity object hloadable hpre hne]
  rfl

end Loader

/-- What a loaded checkpoint owes to the appends so far: nothing it holds is made up,
and a reported completion is only ever replaced by a later append of its object. -/
structure Recorded (completed : CheckpointCompletions) (appends : List CheckpointAppend) :
    Prop where
  appended : ∀ object completion, completed.lookup object = some completion →
    ∃ append ∈ appends, append.object = object ∧ append.completion = completion
  reported : ∀ before append after, appends = before ++ append :: after →
    append.reported = true →
      (∀ later ∈ after, later.object = append.object → later.reported = false) →
        completed.lookup append.object = some append.completion ∨
          ∃ later ∈ after, later.object = append.object ∧
            completed.lookup append.object = some later.completion

theorem Recorded.nil : Recorded ∅ [] where
  appended object completion h := by simp at h
  reported before append after h := by simp at h

/-- An append that leaves nothing behind and is not reported changes no debt. -/
theorem Recorded.skip {completed : CheckpointCompletions} {appends : List CheckpointAppend}
    (h : Recorded completed appends) {append : CheckpointAppend}
    (hreported : append.reported = false) : Recorded completed (appends ++ [append]) where
  appended object completion hlookup := by
    obtain ⟨found, hmem, hfound⟩ := h.appended object completion hlookup
    exact ⟨found, List.mem_append_left _ hmem, hfound⟩
  reported before found after hsplit hfound hlater := by
    rcases List.eq_nil_or_concat after with rfl | ⟨rest, last, rfl⟩
    · obtain ⟨_, hlast⟩ := List.append_inj' hsplit rfl
      cases hlast
      exact absurd (hfound.symm.trans hreported) (by simp)
    · have hsplit' : appends ++ [append] = (before ++ found :: rest) ++ [last] := by
        simpa using hsplit
      obtain ⟨hsame, _⟩ := List.append_inj' hsplit' rfl
      rcases h.reported before found rest hsame hfound
        (fun later hmem => hlater later (by simp [hmem])) with hfirst | ⟨later, hmem, hlast⟩
      · exact .inl hfirst
      · exact .inr ⟨later, by simp [hmem], hlast⟩

/-- An append whose record is taken in pays its own debt and replaces none but those
of its object. -/
theorem Recorded.record {completed : CheckpointCompletions} {appends : List CheckpointAppend}
    (h : Recorded completed appends) (append : CheckpointAppend) :
    Recorded (completed.insert append.object append.completion) (appends ++ [append]) where
  appended object completion hlookup := by
    rcases Table.lookup_insert_eq_some.mp hlookup with ⟨rfl, rfl⟩ | ⟨_, hold⟩
    · exact ⟨append, by simp, rfl, rfl⟩
    · obtain ⟨found, hmem, hfound⟩ := h.appended object completion hold
      exact ⟨found, List.mem_append_left _ hmem, hfound⟩
  reported before found after hsplit hfound hlater := by
    rcases List.eq_nil_or_concat after with rfl | ⟨rest, last, rfl⟩
    · obtain ⟨_, hlast⟩ := List.append_inj' hsplit rfl
      cases hlast
      exact .inl (AList.lookup_insert _)
    · have hsplit' : appends ++ [append] = (before ++ found :: rest) ++ [last] := by
        simpa using hsplit
      obtain ⟨hsame, hlast⟩ := List.append_inj' hsplit' rfl
      cases hlast
      by_cases hobject : found.object = append.object
      · refine .inr ⟨append, by simp, hobject.symm, ?_⟩
        rw [hobject]
        exact AList.lookup_insert _
      · rw [AList.lookup_insert_ne hobject]
        rcases h.reported before found rest hsame hfound
          (fun later hmem => hlater later (by simp [hmem])) with hfirst | ⟨later, hmem, hlast⟩
        · exact .inl hfirst
        · exact .inr ⟨later, by simp [hmem], hlast⟩

/-- The promise of the checkpoint: it loads, and what it holds is what was appended. -/
def CheckpointFaithful (codec : CheckpointCodec) (identity : CheckpointIdentity)
    (s : CheckpointState) : Prop :=
  ∃ completed, loadMigrationUploadCheckpoint codec identity s.file = .ok completed ∧
    Recorded completed s.appends

/-- The condition on an append: it starts behind a line end, unless it leaves nothing
behind at all, and a cut falls between two characters. -/
def AppendsBehindLine (codec : CheckpointCodec) (identity : CheckpointIdentity)
    (s : CheckpointState) : CheckpointEvent → Prop
  | .complete object uploaded cut => ∀ completion,
      migrationUploadCompletion identity object uploaded = .ok completion →
        let line := checkpointLine codec identity object completion
        (EndsLine s.file ∨ cut = some 0) ∧
          ∃ length, writtenBytes line cut = (String.ofList (line.take length)).toByteArray
  | _ => True

/-- The shape of the file: whole lines, then at most one torn line. -/
inductive CheckpointShape (codec : CheckpointCodec) (identity : CheckpointIdentity)
    (s : CheckpointState) : Prop
  | lines (stored : List (LfsObject × MigrationUploadCheckpointCompletion))
      (hstored : ∀ entry ∈ stored, entry.2.Loadable)
      (hfile : s.file = (String.ofList (linesText codec identity stored)).toByteArray)
      (hrecorded : Recorded (completionsOf stored) s.appends)
  | torn (stored : List (LfsObject × MigrationUploadCheckpointCompletion))
      (hstored : ∀ entry ∈ stored, entry.2.Loadable)
      (object : LfsObject) (completion : MigrationUploadCheckpointCompletion)
      (hloadable : completion.Loadable) (text : List Char)
      (hpre : text <+: recordText codec identity object completion) (hne : text ≠ [])
      (hfile : s.file =
        (String.ofList (linesText codec identity stored ++ text)).toByteArray)
      (hrecorded : Recorded (if text = recordText codec identity object completion
        then (completionsOf stored).insert object completion else completionsOf stored) s.appends)

theorem CheckpointShape.new : CheckpointShape codec identity .new :=
  .lines [] (by simp) (by simp [CheckpointState.new, linesText]) .nil

/-- A file of that shape loads. -/
theorem CheckpointShape.faithful {s : CheckpointState} (h : CheckpointShape codec identity s) :
    CheckpointFaithful codec identity s := by
  cases h with
  | lines stored hstored hfile hrecorded =>
    refine ⟨_, ?_, hrecorded⟩
    rw [hfile]
    exact load_linesText codec identity hstored
  | torn stored hstored object completion hloadable text hpre hne hfile hrecorded =>
    refine ⟨_, ?_, hrecorded⟩
    rw [hfile]
    exact load_torn codec identity hstored object hloadable hpre hne

/-- Behind a line end the file has no torn line. -/
theorem CheckpointShape.of_endsLine {s : CheckpointState} (h : CheckpointShape codec identity s)
    (hends : EndsLine s.file) :
    ∃ stored : List (LfsObject × MigrationUploadCheckpointCompletion),
      (∀ entry ∈ stored, entry.2.Loadable) ∧
        s.file = (String.ofList (linesText codec identity stored)).toByteArray ∧
          Recorded (completionsOf stored) s.appends := by
  cases h with
  | lines stored hstored hfile hrecorded => exact ⟨stored, hstored, hfile, hrecorded⟩
  | torn stored hstored object completion hloadable text hpre hne hfile hrecorded =>
    exfalso
    rw [hfile] at hends
    rcases endsLine_ofList hends with hnil | hlast
    · exact hne (List.append_eq_nil_iff.mp hnil).2
    · rw [List.getLast?_append_of_ne_nil _ hne] at hlast
      exact notMem_recordText codec identity object completion (by decide)
        (hpre.subset (List.mem_of_getLast? hlast))

/-- What a part of a line is: nothing, a part of its record, or the whole line. -/
theorem take_line_cases (record : List Char) (length : ℕ) :
    (record ++ ['\n']).take length = [] ∨
      ((record ++ ['\n']).take length <+: record ∧ (record ++ ['\n']).take length ≠ []) ∨
        (record ++ ['\n']).take length = record ++ ['\n'] := by
  rcases Nat.lt_or_ge record.length length with hlong | hshort
  · right; right
    exact List.take_of_length_le (by simpa using hlong)
  · rw [List.take_append_of_le_length hshort]
    by_cases hnil : record.take length = []
    · exact .inl hnil
    · exact .inr (.inl ⟨List.take_prefix _ _, hnil⟩)

/-- An append that leaves nothing behind keeps the shape. -/
theorem CheckpointShape.skip {s : CheckpointState} (h : CheckpointShape codec identity s)
    {append : CheckpointAppend} (hreported : append.reported = false) :
    CheckpointShape codec identity { s with appends := s.appends ++ [append] } := by
  cases h with
  | lines stored hstored hfile hrecorded =>
    exact .lines stored hstored hfile (hrecorded.skip hreported)
  | torn stored hstored object completion hloadable text hpre hne hfile hrecorded =>
    exact .torn stored hstored object completion hloadable text hpre hne hfile
      (hrecorded.skip hreported)

/-- A write that leaves less than its line was cut. -/
theorem isNone_of_take_ne {line : List Char} {cut : Option ℕ} {length : ℕ}
    (hcut : writtenBytes line cut = (String.ofList (line.take length)).toByteArray)
    (hne : line.take length ≠ line) : cut.isNone = false := by
  cases cut with
  | some _ => rfl
  | none =>
    refine absurd ?_ hne
    have hsame := String.toByteArray_inj.mp hcut
    exact (String.ofList_injective hsame).symm

/-- An append behind a line end, cut between two characters, keeps the shape. -/
theorem CheckpointShape.complete {s : CheckpointState} (h : CheckpointShape codec identity s)
    {object : LfsObject} {completion : MigrationUploadCheckpointCompletion}
    (hloadable : completion.Loadable) {cut : Option ℕ}
    (hbehind : EndsLine s.file ∨ cut = some 0)
    (hcut : ∃ length, writtenBytes (checkpointLine codec identity object completion) cut =
      (String.ofList
        ((checkpointLine codec identity object completion).take length)).toByteArray) :
    CheckpointShape codec identity { s with
      file := s.file ++ writtenBytes (checkpointLine codec identity object completion) cut
      appends := s.appends ++ [⟨object, completion, cut.isNone⟩] } := by
  by_cases hzero : cut = some 0
  · subst hzero
    have hempty : s.file ++ writtenBytes (checkpointLine codec identity object completion)
        (some 0) = s.file := by
      simp [writtenBytes]
    rw [hempty]
    exact h.skip rfl
  obtain ⟨stored, hstored, hfile, hrecorded⟩ := h.of_endsLine (hbehind.resolve_right hzero)
  obtain ⟨length, hcut⟩ := hcut
  have hwritten : s.file ++ writtenBytes (checkpointLine codec identity object completion) cut =
      (String.ofList (linesText codec identity stored ++
        (checkpointLine codec identity object completion).take length)).toByteArray := by
    rw [hcut, hfile, toByteArray_ofList_append]
  rw [hwritten]
  have hpart := isNone_of_take_ne hcut
  rw [checkpointLine_eq] at hpart ⊢
  rcases take_line_cases (recordText codec identity object completion) length with
    hnil | ⟨hpre, hne⟩ | hwhole
  · have hreported := hpart (by rw [hnil]; simp)
    rw [hnil, List.append_nil, ← hfile]
    exact h.skip hreported
  · have hshort : (recordText codec identity object completion ++ ['\n']).take length ≠
        recordText codec identity object completion ++ ['\n'] := by
      intro hsame
      have := hpre.length_le
      rw [hsame] at this
      simp at this
    refine .torn stored hstored object completion hloadable _ hpre hne rfl ?_
    split
    · exact hrecorded.record ⟨object, completion, cut.isNone⟩
    · exact hrecorded.skip (hpart hshort)
  · rw [hwhole]
    refine .lines (stored ++ [(object, completion)]) ?_ ?_ ?_
    · intro entry hentry
      rcases List.mem_append.mp hentry with hold | hnew
      · exact hstored entry hold
      · rw [List.mem_singleton.mp hnew]
        exact hloadable
    · simp [linesText, checkpointLine_eq]
    · rw [completionsOf_append]
      exact hrecorded.record ⟨object, completion, cut.isNone⟩

/-- Every event that meets the condition keeps the shape of the file. -/
theorem checkpointStep_shape {s t : CheckpointState} {event : CheckpointEvent}
    (h : CheckpointShape codec identity s) (hbehind : AppendsBehindLine codec identity s event)
    (hstep : checkpointStep codec identity s event = some t) :
    CheckpointShape codec identity t := by
  have hruns : ∀ runs, CheckpointShape codec identity { s with runs := runs } := by
    intro runs
    cases h with
    | lines stored hstored hfile hrecorded => exact .lines stored hstored hfile hrecorded
    | torn stored hstored object completion hloadable text hpre hne hfile hrecorded =>
      exact .torn stored hstored object completion hloadable text hpre hne hfile hrecorded
  cases event with
  | load =>
    simp only [checkpointStep] at hstep
    split at hstep <;> cases hstep
    · exact h
    · exact hruns _
  | complete object uploaded cut =>
    simp only [checkpointStep] at hstep
    split at hstep
    · cases hstep
    split at hstep
    · cases hstep
      exact h
    next completion hcompletion =>
      cases hstep
      obtain ⟨hends, hcut⟩ := hbehind completion hcompletion
      exact h.complete (migrationUploadCompletion_loadable hcompletion) hends hcut
  | stop =>
    simp only [checkpointStep] at hstep
    split at hstep <;> cases hstep
    exact hruns _

/-- While every append starts behind a line end and every cut falls between two
characters, the checkpoint loads after every event, holds all reported completions
and nothing else. -/
theorem checkpoint_faithful (codec : CheckpointCodec) (identity : CheckpointIdentity)
    (events : List CheckpointEvent)
    (hbehind : Meets (checkpointStep codec identity) (AppendsBehindLine codec identity) .new
      events) :
    Throughout (checkpointStep codec identity) (CheckpointFaithful codec identity) .new events :=
  (hbehind.throughout checkpointStep_shape .new).mono CheckpointShape.faithful

/-- Loading changes no byte of the file. -/
theorem checkpointStep_load_file {s t : CheckpointState}
    (h : checkpointStep codec identity s .load = some t) : t.file = s.file := by
  simp only [checkpointStep] at h
  split at h <;> cases h <;> rfl

/-- An object for the runs below. -/
def tornObject (size : UInt64) : LfsObject :=
  ⟨.zero, size⟩

/-- The identity of the runs below. -/
def tornIdentity : CheckpointIdentity := ⟨"checkpoint.jsonl", "drive", "owner/repo"⟩

/-- The line of an object that was already present. -/
def tornLine (size : UInt64) : List Char :=
  checkpointLine checkpointText tornIdentity (tornObject size) .alreadyPresent

theorem writtenBytes_tornLine :
    writtenBytes (tornLine 1) (some 10) = (String.ofList ((tornLine 1).take 10)).toByteArray := by
  decide +kernel

theorem checkpoint_faithful_torn :
    Throughout (checkpointStep checkpointText tornIdentity)
      (CheckpointFaithful checkpointText tornIdentity) .new
        [.load, .complete (tornObject 1) none (some 10), .stop, .load] := by
  refine checkpoint_faithful checkpointText tornIdentity _ fun s hload => ⟨trivial, ?_⟩
  have hempty : s.file = ByteArray.empty := checkpointStep_load_file hload
  refine fun t _ => ⟨fun completion hcompletion => ?_, fun u _ => ⟨trivial, fun v _ => ?_⟩⟩
  · cases hcompletion
    exact ⟨.inl (.inl (by rw [hempty]; rfl)), 10, writtenBytes_tornLine⟩
  · exact ⟨trivial, trivial⟩

/-- A crash after ten bytes, and a second run that completes another object: the two
lines are one, and the next load fails. -/
theorem checkpoint_torn_append :
    ¬∀ (codec : CheckpointCodec) (identity : CheckpointIdentity) (events : List CheckpointEvent),
      Throughout (checkpointStep codec identity) (CheckpointFaithful codec identity) .new
        events := by
  intro hall
  -- Each load on the way succeeds by assumption, and the step it enables is computed.
  obtain ⟨⟨_, hload, _⟩, hnext⟩ := hall checkpointText tornIdentity
    [.load, .complete (tornObject 1) none (some 10), .stop, .load,
      .complete (tornObject 2) none none]
  obtain ⟨_, hnext⟩ := hnext _ (by rw [checkpointStep, hload])
  obtain ⟨_, hnext⟩ := hnext _ rfl
  obtain ⟨⟨_, hload, _⟩, hnext⟩ := hnext _ rfl
  obtain ⟨_, hnext⟩ := hnext _ (by rw [checkpointStep, hload])
  obtain ⟨completed, hload, _⟩ := hnext _ rfl
  have hfile : ByteArray.empty ++ writtenBytes (tornLine 1) (some 10) ++
      writtenBytes (tornLine 2) none =
        (String.ofList ((tornLine 1).take 10 ++ tornLine 2)).toByteArray := by
    rw [writtenBytes_tornLine, toByteArray_ofList_append, ByteArray.empty_append]
    rfl
  have hparse : (parseMigrationUploadCheckpoint checkpointText tornIdentity
      ((tornLine 1).take 10 ++ tornLine 2)).isOk = false := by decide +kernel
  have hcontents : loadMigrationUploadCheckpoint checkpointText tornIdentity
      (ByteArray.empty ++ writtenBytes (tornLine 1) (some 10) ++
        writtenBytes (tornLine 2) none) =
          parseMigrationUploadCheckpoint checkpointText tornIdentity
            ((tornLine 1).take 10 ++ tornLine 2) := by
    rw [hfile, loadMigrationUploadCheckpoint, fromUTF8?_ofList]
    dsimp only
    rw [String.toList_ofList]
  have hok : parseMigrationUploadCheckpoint checkpointText tornIdentity
      ((tornLine 1).take 10 ++ tornLine 2) = .ok completed := hcontents.symm.trans hload
  rw [hok] at hparse
  cases hparse

end LfsCloud
