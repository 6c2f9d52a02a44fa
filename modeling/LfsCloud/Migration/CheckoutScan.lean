import LfsCloud.Migration.BatchObjectReader
import LfsCloud.Migration.HistoryOccurrences

/-!
# The pointers of the current checkout

The pointers are read from the index of Git, not from the worktree: the files that are listed with
their modes, the filter of each, and the blobs of those whose filter is LFS.
-/

namespace LfsCloud

/-! ## The scan -/

/-- `GitIndexBlob`. -/
structure GitIndexBlob where
  objectId : String
  relativePath : UnixPath
  relativePathBytes : List UInt8
  deriving DecidableEq

/-- `CurrentCheckoutLfsPointer`. -/
structure CurrentCheckoutLfsPointer where
  relativePath : UnixPath
  path : UnixPath
  object : LfsObject
  deriving DecidableEq

/-- `CurrentCheckoutLfsPointers`. -/
structure CurrentCheckoutLfsPointers where
  worktreeRoot : UnixPath
  trackedPathCount : ℕ
  pointers : List CurrentCheckoutLfsPointer
  deriving DecidableEq

/-- What the processes of Git return to the scan. -/
structure GitIndexCommands where
  /-- The output of `git ls-files`. -/
  lsFiles : Except HistoryGitError (List UInt8)
  /-- The output of `git check-attr`, for a list of paths. -/
  checkAttr : List UInt8 → Except HistoryGitError (List UInt8)
  /-- The output of `git cat-file -s`, where it succeeds. -/
  blobSize : String → Except HistoryGitError (Option (List UInt8))
  /-- The output of `git cat-file blob`. -/
  blob : String → Except HistoryGitError (List UInt8)

/-- The command of `current_checkout_lfs_tracked_blobs`. -/
def lsFilesCommand : String := "git ls-files -z --cached --stage"

/-- `git_check_attr_filter_command_name`, without a commit. -/
def worktreeCheckAttrCommandName : String := "git check-attr -z --stdin filter"

/-- The modes of files: 100644 and 100755. -/
def IsFileMode (mode : List UInt8) : Prop :=
  mode = [49, 48, 48, 54, 52, 52] ∨ mode = [49, 48, 48, 55, 53, 53]

instance (mode : List UInt8) : Decidable (IsFileMode mode) := inferInstanceAs (Decidable (_ ∨ _))

/-- `index_entry_parse_error`. -/
def indexEntryParseError (commandName : String) : HistoryError :=
  commandOutputError commandName "git returned malformed index metadata"

/-- A record in `parse_ls_files_stage_blob_output`. -/
def parseLsFilesStageRecord (commandName : String) (record : List UInt8) :
    Except HistoryError (Option GitIndexBlob) :=
  match Records.cut 9 record with
  | none => .error (indexEntryParseError commandName)
  | some (metadata, relativePathBytes) =>
    match (metadata.splitOn 32).filter fun field => field ≠ [] with
    | [mode, objectId, stage] =>
      if stage ≠ [48] then
        .error (commandOutputError commandName "Git index contains an unmerged entry")
      else if ¬IsFileMode mode then .ok none
      else match Utf8.text objectId with
        | none => .error (indexEntryParseError commandName)
        | some objectId => do
          let relativePath ← (safeGitRelativePath relativePathBytes).mapError
            (migrationGitPathOutputError commandName)
          return some ⟨objectId, relativePath, relativePathBytes⟩
    | _ => .error (indexEntryParseError commandName)

/-- `parse_ls_files_stage_blob_output`. -/
def parseLsFilesStageBlobOutput (stdout : List UInt8) (commandName : String) :
    Except HistoryError (List GitIndexBlob) := do
  let blobs ← ((stdout.splitOn 0).filter fun record => record ≠ []).mapM
    (parseLsFilesStageRecord commandName)
  return blobs.filterMap id

/-- `current_checkout_lfs_tracked_blobs`. -/
def currentCheckoutLfsTrackedBlobs (git : GitIndexCommands) :
    Except HistoryError (List GitIndexBlob) := do
  let stdout ← git.lsFiles.mapError .error
  if stdout = [] then return []
  else
    let indexBlobs ← parseLsFilesStageBlobOutput stdout lsFilesCommand
    if indexBlobs = [] then return []
    else
      let attributes ← (git.checkAttr (indexBlobs.flatMap fun blob =>
        blob.relativePathBytes ++ [0])).mapError .error
      let lfsTrackedPaths ← (parseLfsFilterAttributePaths attributes).mapError
        (migrationGitPathOutputError worktreeCheckAttrCommandName)
      return indexBlobs.filter fun blob => lfsTrackedPaths.any fun path =>
        UnixPath.components path = UnixPath.components blob.relativePath

/-- What a blob is as a pointer that is not empty. -/
def pointerOfContents (contents : List UInt8) : Option LfsPointer :=
  if lfsPointerSizeCutoff ≤ contents.length then none
  else match Utf8.text contents with
    | none => none
    | some text => (LfsPointer.parse text).toOption.filter fun pointer => !pointer.isEmpty

/-- A line ending, as `trim_end_matches` takes it away. -/
def trimLineEnds (text : List Char) : List Char :=
  text.rdropWhile fun c => c = '\n' || c = '\r'

/-- `read_history_pointer_blob_candidate`. -/
def readHistoryPointerBlobCandidate (git : GitIndexCommands) (objectId : String) :
    Except HistoryError (Option LfsPointer) := do
  let sizeCommand := "git cat-file -s " ++ objectId
  match ← (git.blobSize objectId).mapError .error with
  | none => .error (.error (.failed ("Git object " ++ objectId ++
      " is unavailable locally; fetch partial-clone objects before migration planning")))
  | some sizeStdout =>
    match Utf8.text sizeStdout with
    | none => .error (commandOutputError sizeCommand "git returned non-UTF-8 output")
    | some sizeText =>
      match parseU64 (trimLineEnds sizeText.toList) with
      | none => .error (commandOutputError sizeCommand "git returned an invalid blob size")
      | some size =>
        if lfsPointerSizeCutoff ≤ size then return none
        else
          let contents ← (git.blob objectId).mapError .error
          return pointerOfContents contents

/-- A turn of the loop in `enumerate_current_checkout_lfs_pointers`. -/
def readIndexPointer (git : GitIndexCommands) (worktreeRoot : UnixPath) (blob : GitIndexBlob) :
    Except HistoryError (Option CurrentCheckoutLfsPointer) := do
  let pointer ← readHistoryPointerBlobCandidate git blob.objectId
  return pointer.map fun pointer =>
    ⟨blob.relativePath, worktreeRoot.join blob.relativePath, pointer.object⟩

/-- `enumerate_current_checkout_lfs_pointers`, of a worktree. -/
def enumerateCurrentCheckoutLfsPointers (git : GitIndexCommands) (worktreeRoot : UnixPath) :
    Except HistoryError CurrentCheckoutLfsPointers := do
  let lfsTrackedBlobs ← currentCheckoutLfsTrackedBlobs git
  let pointers ← lfsTrackedBlobs.mapM (readIndexPointer git worktreeRoot)
  return ⟨worktreeRoot, lfsTrackedBlobs.length, pointers.filterMap id⟩

/-! ## What Git answers -/

/-- An entry of the index. -/
structure IndexEntry where
  mode : List UInt8
  objectId : String
  stage : Fin 4
  path : UnixPath
  mode_ne_nil : mode ≠ []
  mode_plain : 32 ∉ mode ∧ 9 ∉ mode ∧ 0 ∉ mode
  objectId_hex : isGitObjectId objectId = true
  path_ne_nil : path ≠ []
  path_nul : 0 ∉ path

namespace IndexEntry

/-- The stage as it is written. -/
def stageText (entry : IndexEntry) : List UInt8 := [48 + UInt8.ofNat entry.stage]

/-- The entry in a list, without the zero byte behind it. -/
def text (entry : IndexEntry) : List UInt8 :=
  entry.mode ++ 32 :: (Utf8.bytes entry.objectId ++ 32 :: entry.stageText) ++ 9 :: entry.path

/-- The blob of a file. -/
def blob (entry : IndexEntry) : Option GitIndexBlob :=
  if IsFileMode entry.mode then some ⟨entry.objectId, entry.path, entry.path⟩ else none

/-- The entry is merged, and a file is in the worktree. -/
def Accepted (entry : IndexEntry) : Prop :=
  entry.stage = 0 ∧ (IsFileMode entry.mode → Contained entry.path)

end IndexEntry

/-- What Git lists. -/
def encodeIndex (entries : List IndexEntry) : List UInt8 :=
  entries.flatMap fun entry => entry.text ++ [0]

/-- Git lists an index, the filters that paths have, and the blobs of a store. -/
structure ServesIndex (git : GitIndexCommands) (entries : List IndexEntry)
    (value : List PathComponent → List UInt8) (store : String → Option (List UInt8)) : Prop where
  lsFiles : git.lsFiles = .ok (encodeIndex entries)
  value_nul : ∀ path, 0 ∉ value path
  checkAttr : ∀ {paths : List UnixPath}, (∀ path ∈ paths, path ≠ [] ∧ 0 ∉ path) →
    git.checkAttr (pathList paths) = .ok (filterAnswers value paths)
  blobSize : ∀ objectId, git.blobSize objectId =
    .ok ((store objectId).map fun contents => Utf8.bytes (toString contents.length ++ "\n"))
  blob : ∀ {objectId contents}, store objectId = some contents → git.blob objectId = .ok contents
  small : ∀ {objectId contents}, store objectId = some contents → contents.length < u64Size

/-- The blobs of the files whose filter is LFS. -/
def trackedBlobs (value : List PathComponent → List UInt8) (entries : List IndexEntry) :
    List GitIndexBlob :=
  (entries.filterMap IndexEntry.blob).filter fun blob =>
    value (UnixPath.components blob.relativePath) = lfsBytes

/-- The pointer that a blob is, in a worktree. -/
def pointerOfBlob (store : String → Option (List UInt8)) (worktreeRoot : UnixPath)
    (blob : GitIndexBlob) : Option CurrentCheckoutLfsPointer :=
  ((store blob.objectId).bind pointerOfContents).map fun pointer =>
    ⟨blob.relativePath, worktreeRoot.join blob.relativePath, pointer.object⟩

/-! ## The list of the index -/

variable {entries : List IndexEntry} {commandName : String}

namespace IndexEntry

variable {entry : IndexEntry}

/-- The digits of an identifier are neither blanks nor zero bytes. -/
theorem objectId_plain {byte : UInt8} (hmem : byte ∈ Utf8.bytes entry.objectId) :
    byte ≠ 32 ∧ byte ≠ 9 ∧ byte ≠ 0 := by
  refine ⟨?_, ?_, ?_⟩
  all_goals
    rintro rfl
    obtain ⟨c, hc, hcode⟩ := Utf8.exists_of_mem_bytes (by decide) hmem
    have hhex := isHexDigit_of_isGitObjectId entry.objectId_hex c hc
    have hchar : c = Char.ofNat c.toNat := (Char.ofNat_toNat c).symm
    rw [hchar, hcode] at hhex
    exact absurd hhex (by decide)

theorem objectId_bytes_ne_nil : Utf8.bytes entry.objectId ≠ [] := by
  intro hnil
  have hempty : entry.objectId = "" := by
    have htext := Utf8.text_bytes entry.objectId
    rw [hnil] at htext
    exact (Option.some.inj (htext.symm.trans (by decide +kernel)))
  have hid := entry.objectId_hex
  rw [hempty] at hid
  exact absurd hid (by decide)

theorem stageText_plain {byte : UInt8} (hmem : byte ∈ entry.stageText) :
    byte ≠ 32 ∧ byte ≠ 9 ∧ byte ≠ 0 := by
  unfold stageText at hmem
  rw [List.mem_singleton] at hmem
  subst hmem
  have hall : ∀ stage : Fin 4, (48 + UInt8.ofNat stage : UInt8) ≠ 32 ∧
      (48 + UInt8.ofNat stage : UInt8) ≠ 9 ∧ (48 + UInt8.ofNat stage : UInt8) ≠ 0 := by
    decide
  exact hall entry.stage

theorem stageText_eq : entry.stageText = [48] ↔ entry.stage = 0 := by
  have hall : ∀ stage : Fin 4, [48 + UInt8.ofNat stage] = ([48] : List UInt8) ↔ stage = 0 := by
    decide
  exact hall entry.stage

/-- What is written in front of the path. -/
def metadata (entry : IndexEntry) : List UInt8 :=
  entry.mode ++ 32 :: (Utf8.bytes entry.objectId ++ 32 :: entry.stageText)

theorem cut_text : Records.cut 9 entry.text = some (entry.metadata, entry.path) := by
  refine Records.cut_eq_some.mpr ⟨rfl, ?_⟩
  intro hmem
  rcases List.mem_append.mp hmem with hmode | hrest
  · exact entry.mode_plain.2.1 hmode
  · rcases List.mem_cons.mp hrest with hblank | hrest
    · exact absurd hblank (by decide)
    · rcases List.mem_append.mp hrest with hid | hrest
      · exact (objectId_plain hid).2.1 rfl
      · rcases List.mem_cons.mp hrest with hblank | hstage
        · exact absurd hblank (by decide)
        · exact (stageText_plain hstage).2.1 rfl

theorem fields_metadata : (entry.metadata.splitOn 32).filter (fun field => field ≠ []) =
    [entry.mode, Utf8.bytes entry.objectId, entry.stageText] := by
  have hid : 32 ∉ Utf8.bytes entry.objectId := fun h => (objectId_plain h).1 rfl
  have hstage : 32 ∉ entry.stageText := fun h => (stageText_plain h).1 rfl
  have hne : entry.stageText ≠ [] := List.cons_ne_nil _ _
  unfold metadata
  rw [List.splitOn_append_cons_self_of_not_mem entry.mode_plain.1,
    List.splitOn_append_cons_self_of_not_mem hid, List.splitOn_eq_singleton hstage]
  simp [entry.mode_ne_nil, objectId_bytes_ne_nil, hne]

/-- An entry that is accepted is read as its blob. -/
theorem parse_text (h : entry.Accepted) :
    parseLsFilesStageRecord commandName entry.text = .ok entry.blob := by
  unfold parseLsFilesStageRecord
  rw [cut_text]
  dsimp only
  rw [fields_metadata]
  dsimp only
  rw [if_neg (not_not.mpr (stageText_eq.mpr h.1))]
  unfold blob
  by_cases hmode : IsFileMode entry.mode
  · have hsafe : safeGitRelativePath entry.path = .ok entry.path :=
      if_pos (isContained_iff.mpr (h.2 hmode))
    rw [if_neg (not_not.mpr hmode), if_pos hmode, Utf8.text_bytes]
    dsimp only
    rw [hsafe]
    rfl
  · rw [if_pos hmode, if_neg hmode]

/-- Every other entry is refused. -/
theorem parse_text_of_not (h : ¬entry.Accepted) :
    ∃ e, parseLsFilesStageRecord commandName entry.text = .error e := by
  unfold parseLsFilesStageRecord
  rw [cut_text]
  dsimp only
  rw [fields_metadata]
  dsimp only
  by_cases hstage : entry.stage = 0
  · rw [if_neg (not_not.mpr (stageText_eq.mpr hstage))]
    have hpath : ¬(IsFileMode entry.mode → Contained entry.path) := fun hp => h ⟨hstage, hp⟩
    push Not at hpath
    obtain ⟨hmode, hnot⟩ := hpath
    have hsafe : safeGitRelativePath entry.path = .error .pathOutsideWorktree :=
      if_neg fun hcontained => hnot (isContained_iff.mp hcontained)
    rw [if_neg (not_not.mpr hmode), Utf8.text_bytes]
    dsimp only
    rw [hsafe]
    exact ⟨_, rfl⟩
  · exact ⟨_, if_pos fun hzero => hstage (stageText_eq.mp hzero)⟩

theorem text_ne_nil : entry.text ≠ [] := by simp [text]

theorem text_nul : 0 ∉ entry.text := by
  intro hmem
  unfold text at hmem
  simp only [List.mem_append, List.mem_cons] at hmem
  rcases hmem with (hmode | hblank | hid | hblank | hstage) | htab | hpath
  · exact entry.mode_plain.2.2 hmode
  · exact absurd hblank (by decide)
  · exact (objectId_plain hid).2.2 rfl
  · exact absurd hblank (by decide)
  · exact (stageText_plain hstage).2.2 rfl
  · exact absurd htab (by decide)
  · exact entry.path_nul hpath

end IndexEntry

/-- The records of a list are its entries. -/
theorem records_encodeIndex :
    ((encodeIndex entries).splitOn 0).filter (fun record => record ≠ []) =
      entries.map IndexEntry.text := by
  induction entries with
  | nil => rfl
  | cons entry entries ih =>
    have hcons : encodeIndex (entry :: entries) = entry.text ++ 0 :: encodeIndex entries := by
      unfold encodeIndex
      rw [List.flatMap_cons, List.append_assoc, List.singleton_append]
    rw [hcons, List.splitOn_append_cons_self_of_not_mem IndexEntry.text_nul,
      List.filter_cons_of_pos (by simpa using IndexEntry.text_ne_nil), ih, List.map_cons]

theorem parse_encodeIndex {blobs : List GitIndexBlob} :
    parseLsFilesStageBlobOutput (encodeIndex entries) commandName = .ok blobs ↔
      (∀ entry ∈ entries, entry.Accepted) ∧ blobs = entries.filterMap IndexEntry.blob := by
  have hrun : ∀ found, (entries.map IndexEntry.text).mapM (parseLsFilesStageRecord commandName) =
      .ok found ↔ (∀ entry ∈ entries, entry.Accepted) ∧ found = entries.map IndexEntry.blob := by
    intro found
    rw [List.mapM_map]
    exact mapM_eq_ok_iff (fun entry _ h => IndexEntry.parse_text h)
      fun entry _ h => IndexEntry.parse_text_of_not h
  unfold parseLsFilesStageBlobOutput
  rw [records_encodeIndex]
  constructor
  · intro h
    obtain ⟨found, hfound, h⟩ := except_bind_eq_ok h
    cases h
    obtain ⟨haccepted, rfl⟩ := (hrun found).mp hfound
    exact ⟨haccepted, by rw [List.filterMap_map, Function.id_comp]⟩
  · rintro ⟨haccepted, rfl⟩
    rw [(hrun _).mpr ⟨haccepted, rfl⟩]
    exact congrArg Except.ok (by rw [List.filterMap_map, Function.id_comp])

/-! ## The tracked blobs and their pointers -/

variable {git : GitIndexCommands} {value : List PathComponent → List UInt8}
  {store : String → Option (List UInt8)} {worktreeRoot : UnixPath} {blobs : List GitIndexBlob}

theorem blob_of_mem_filterMap {blob : GitIndexBlob}
    (haccepted : ∀ entry ∈ entries, entry.Accepted)
    (hmem : blob ∈ entries.filterMap IndexEntry.blob) :
    blob.relativePathBytes = blob.relativePath ∧ Contained blob.relativePath ∧
      blob.relativePath ≠ [] ∧ 0 ∉ blob.relativePath := by
  obtain ⟨entry, hentry, hblob⟩ := List.mem_filterMap.mp hmem
  unfold IndexEntry.blob at hblob
  split_ifs at hblob with hmode
  cases hblob
  exact ⟨rfl, (haccepted entry hentry).2 hmode, entry.path_ne_nil, entry.path_nul⟩

/-- The blobs whose paths Git lists with the filter of LFS are the tracked ones. -/
theorem filter_lfsTracked (hserves : ServesIndex git entries value store)
    (haccepted : ∀ entry ∈ entries, entry.Accepted) :
    ∃ attributes paths,
      git.checkAttr ((entries.filterMap IndexEntry.blob).flatMap fun blob =>
        blob.relativePathBytes ++ [0]) = .ok attributes ∧
      parseLfsFilterAttributePaths attributes = .ok paths ∧
      ((entries.filterMap IndexEntry.blob).filter fun blob => paths.any fun path =>
        UnixPath.components path = UnixPath.components blob.relativePath) =
          trackedBlobs value entries := by
  have hblobs : ∀ blob ∈ entries.filterMap IndexEntry.blob,
      blob.relativePathBytes = blob.relativePath ∧ Contained blob.relativePath ∧
        blob.relativePath ≠ [] ∧ 0 ∉ blob.relativePath :=
    fun _ hblob => blob_of_mem_filterMap haccepted hblob
  have hlist : (entries.filterMap IndexEntry.blob).flatMap (fun blob =>
      blob.relativePathBytes ++ [0]) =
        pathList ((entries.filterMap IndexEntry.blob).map GitIndexBlob.relativePath) := by
    unfold pathList
    rw [List.flatMap_map]
    exact List.flatMap_congr fun blob hblob => by rw [(hblobs blob hblob).1]
  have hpaths : ∀ path ∈ (entries.filterMap IndexEntry.blob).map GitIndexBlob.relativePath,
      Contained path ∧ path ≠ [] ∧ 0 ∉ path := by
    intro path hpath
    obtain ⟨blob, hblob, rfl⟩ := List.mem_map.mp hpath
    exact (hblobs blob hblob).2
  obtain ⟨triples, hencode, hlfs, hmap⟩ := exists_triples_filterAnswers hserves.value_nul
    fun path hpath => ⟨(hpaths path hpath).1, (hpaths path hpath).2.2⟩
  refine ⟨_, lfsPaths triples, hlist ▸ hserves.checkAttr fun path hpath => (hpaths path hpath).2,
    hencode ▸ parse_encodeTriples hlfs, ?_⟩
  unfold trackedBlobs
  refine List.filter_congr fun blob hblob => ?_
  have hlisted : UnixPath.components blob.relativePath ∈
      ((entries.filterMap IndexEntry.blob).map GitIndexBlob.relativePath).map
        UnixPath.components :=
    List.mem_map_of_mem (List.mem_map_of_mem hblob)
  have hmem : (∃ path ∈ lfsPaths triples,
      UnixPath.components path = UnixPath.components blob.relativePath) ↔
        value (UnixPath.components blob.relativePath) = lfsBytes := by
    rw [← List.mem_map, hmap]
    unfold lfsFiltered
    simp only [List.mem_filter, hlisted, true_and, decide_eq_true_eq]
  rw [Bool.eq_iff_iff, List.any_eq_true]
  simpa only [decide_eq_true_eq] using hmem

theorem trackedBlobs_eq_nil (h : entries.filterMap IndexEntry.blob = []) :
    trackedBlobs value entries = [] := by
  unfold trackedBlobs
  rw [h]
  rfl

theorem encodeIndex_eq_nil : encodeIndex entries = [] ↔ entries = [] := by
  cases entries with
  | nil => exact ⟨fun _ => rfl, fun _ => rfl⟩
  | cons entry entries => simp [encodeIndex]

theorem currentCheckoutLfsTrackedBlobs_eq_ok (hserves : ServesIndex git entries value store) :
    currentCheckoutLfsTrackedBlobs git = .ok blobs ↔
      (∀ entry ∈ entries, entry.Accepted) ∧ blobs = trackedBlobs value entries := by
  unfold currentCheckoutLfsTrackedBlobs
  rw [hserves.lsFiles]
  change (if encodeIndex entries = [] then _ else _) = _ ↔ _
  by_cases hnil : entries = []
  · rw [if_pos (encodeIndex_eq_nil.mpr hnil)]
    subst hnil
    exact ⟨fun h => ⟨fun entry hentry => absurd hentry List.not_mem_nil, (Except.ok.inj h).symm⟩,
      fun h => congrArg Except.ok h.2.symm⟩
  rw [if_neg fun h => hnil (encodeIndex_eq_nil.mp h)]
  constructor
  · intro h
    obtain ⟨found, hfound, h⟩ := except_bind_eq_ok h
    obtain ⟨haccepted, rfl⟩ := parse_encodeIndex.mp hfound
    refine ⟨haccepted, ?_⟩
    split_ifs at h with hempty
    · cases h
      exact (trackedBlobs_eq_nil hempty).symm
    · obtain ⟨attributes, paths, hanswer, hparse, hfilter⟩ := filter_lfsTracked hserves haccepted
      rw [hanswer] at h
      change (parseLfsFilterAttributePaths attributes).mapError _ >>= _ = _ at h
      rw [hparse] at h
      exact (Except.ok.inj h).symm.trans hfilter
  · rintro ⟨haccepted, rfl⟩
    rw [parse_encodeIndex.mpr ⟨haccepted, rfl⟩]
    change (if entries.filterMap IndexEntry.blob = [] then _ else _) = _
    split_ifs with hempty
    · exact congrArg Except.ok (trackedBlobs_eq_nil hempty).symm
    · obtain ⟨attributes, paths, hanswer, hparse, hfilter⟩ := filter_lfsTracked hserves haccepted
      rw [hanswer]
      change (parseLfsFilterAttributePaths attributes).mapError _ >>= _ = _
      rw [hparse]
      exact congrArg Except.ok hfilter

/-- The size that Git writes is read. -/
theorem parseU64_sizeText {n : ℕ} (h : n < u64Size) :
    parseU64 (trimLineEnds (toString n ++ "\n").toList) = some n := by
  have htrim : trimLineEnds (toString n ++ "\n").toList = (toString n).toList := by
    have hdigits : (toString n).toList.rdropWhile (fun c => c = '\n' || c = '\r') =
        (toString n).toList := by
      refine List.rdropWhile_eq_self_iff.mpr fun hne hlast => ?_
      have hdigit := isDigit_toString n _ (List.getLast_mem hne)
      rw [Bool.or_eq_true, decide_eq_true_eq, decide_eq_true_eq] at hlast
      rcases hlast with hend | hend
      · rw [hend] at hdigit
        exact absurd hdigit (by decide)
      · rw [hend] at hdigit
        exact absurd hdigit (by decide)
    unfold trimLineEnds
    rw [String.toList_append]
    exact (List.rdropWhile_concat_pos _ _ _ (by decide)).trans hdigits
  rw [htrim, parseU64_toString_of_lt h]

/-- A blob of the store is read as what it is as a pointer. -/
theorem readHistoryPointerBlobCandidate_served (hserves : ServesIndex git entries value store)
    {objectId : String} {contents : List UInt8} (hstored : store objectId = some contents) :
    readHistoryPointerBlobCandidate git objectId = .ok (pointerOfContents contents) := by
  unfold readHistoryPointerBlobCandidate
  rw [hserves.blobSize, hstored]
  dsimp only [Except.mapError, Option.map_some, bind, Except.bind]
  rw [Utf8.text_bytes]
  dsimp only
  rw [parseU64_sizeText (hserves.small hstored)]
  dsimp only
  split_ifs with hlarge
  · unfold pointerOfContents
    rw [if_pos hlarge]
    rfl
  · rw [hserves.blob hstored]
    rfl

theorem readHistoryPointerBlobCandidate_missing (hserves : ServesIndex git entries value store)
    {objectId : String} (hmissing : store objectId = none) :
    ∃ e, readHistoryPointerBlobCandidate git objectId = .error e := by
  unfold readHistoryPointerBlobCandidate
  rw [hserves.blobSize, hmissing]
  exact ⟨_, rfl⟩

/-- Commands that answer for an index. -/
def indexCommands (entries : List IndexEntry) (value : List PathComponent → List UInt8)
    (store : String → Option (List UInt8)) : GitIndexCommands where
  lsFiles := .ok (encodeIndex entries)
  checkAttr input := .ok (filterAnswers value (input.splitOn 0).dropLast)
  blobSize objectId :=
    .ok ((store objectId).map fun contents => Utf8.bytes (toString contents.length ++ "\n"))
  blob objectId := .ok ((store objectId).getD [])

theorem servesIndex_indexCommands (hnul : ∀ path, 0 ∉ value path)
    (hsmall : ∀ {objectId contents}, store objectId = some contents →
      contents.length < u64Size) :
    ServesIndex (indexCommands entries value store) entries value store where
  lsFiles := rfl
  value_nul := hnul
  checkAttr := by
    intro paths hpaths
    unfold indexCommands
    dsimp only
    rw [splitOn_pathList fun path hpath => (hpaths path hpath).2, List.dropLast_concat]
  blobSize := fun _ => rfl
  blob := by
    intro objectId contents hstored
    unfold indexCommands
    dsimp only
    rw [hstored]
    rfl
  small := hsmall

/-- A file in the index. -/
def pointerEntry : IndexEntry where
  mode := [49, 48, 48, 55, 53, 53]
  objectId := "0123456789abcdef0123456789abcdef01234567"
  stage := 0
  path := [112, 46, 98]
  mode_ne_nil := by decide
  mode_plain := by decide
  objectId_hex := by decide
  path_ne_nil := by decide
  path_nul := by decide

end LfsCloud
