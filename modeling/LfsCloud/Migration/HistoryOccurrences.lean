import LfsCloud.Migration.HistoryRuns

/-!
# The occurrences that a scan returns

A pointer occurs in a commit at a path when the tree of the commit has a blob there that holds the
pointer, and the filter of the path is LFS. A scan returns each occurrence once, with the first ref
that reaches its commit.
-/

namespace LfsCloud

variable {repository : HistoryRepository} {value : String → List PathComponent → List UInt8}
  {commit : GitHistoryCommit} {objectId : String}

/-! ## Occurrences -/

/-- A blob holds a pointer: it is small, a text, and a pointer file whose object is not empty. -/
structure HoldsPointer (objects : GitObjects) (objectId : String) (pointer : LfsPointer) :
    Prop where
  blob : ∃ info, objects.info objectId ("git cat-file --batch-command info " ++ objectId) =
    .ok info ∧ info.objectType = "blob" ∧ info.size < lfsPointerSizeCutoff
  text : ∃ contents text, objects.contents objectId "blob" lfsPointerSizeCutoff
      ("git cat-file --batch-command contents " ++ objectId) = .ok contents ∧
    String.fromUTF8? ⟨contents.toArray⟩ = some text ∧ LfsPointer.parse text = .ok pointer
  nonempty : pointer.object.size ≠ 0

/-- A candidate is a pointer exactly when the blob holds it. -/
theorem readPointerBlobCandidate_eq_some {objects : GitObjects} {pointer : LfsPointer} :
    readPointerBlobCandidate objects objectId = .ok (some pointer) ↔
      HoldsPointer objects objectId pointer := by
  constructor
  · intro h
    obtain ⟨info, hinfo, h⟩ := except_bind_eq_ok h
    have hinfo := mapError_eq_ok hinfo
    split_ifs at h with htype hsize
    · cases h
    · obtain ⟨contents, hcontents, h⟩ := except_bind_eq_ok h
      have hcontents := mapError_eq_ok hcontents
      cases htext : String.fromUTF8? ⟨contents.toArray⟩ with
      | none =>
        rw [htext] at h
        cases h
      | some text =>
        rw [htext] at h
        obtain ⟨hparse, hempty⟩ := Option.filter_eq_some_iff.mp (Except.ok.inj h)
        refine ⟨⟨info, hinfo, not_not.mp htype, by omega⟩, ⟨contents, text, hcontents, htext, ?_⟩,
          ?_⟩
        · cases hresult : LfsPointer.parse text with
          | error error =>
            rw [hresult] at hparse
            cases hparse
          | ok parsed =>
            rw [hresult] at hparse
            exact congrArg _ (Option.some.inj hparse)
        · simpa [LfsPointer.isEmpty] using hempty
  · rintro ⟨⟨info, hinfo, htype, hsize⟩, ⟨contents, text, hcontents, htext, hparse⟩, hnonempty⟩
    unfold readPointerBlobCandidate
    simp only [hinfo, Except.mapError, bind, Except.bind]
    rw [if_neg (not_not.mpr htype), if_neg (by omega)]
    simp only [hcontents, htext, hparse]
    exact congrArg Except.ok (Option.filter_eq_some_iff.mpr ⟨rfl, by
      simpa [LfsPointer.isEmpty] using hnonempty⟩)

/-- An object occurs in a commit at a path: a blob there points to it, and its filter is LFS. -/
def Occurs (repository : HistoryRepository) (value : String → List PathComponent → List UInt8)
    (commit : GitHistoryCommit) (path : List PathComponent) (object : LfsObject) : Prop :=
  ∃ name objectId pointer, TreeHas repository commit.treeId path name objectId ∧
    HoldsPointer repository.toGitObjects objectId pointer ∧ pointer.object = object ∧
    value commit.treeId path = lfsBytes

/-- The occurrences of a commit are those that its tree holds. -/
theorem trackedOccurrences_ok {occurrences : List GitLfsHistoryPointerOccurrence}
    (h : trackedOccurrences repository value commit = .ok occurrences) :
    (∀ occurrence ∈ occurrences, occurrence.commit = commit.objectId ∧
      Occurs repository value commit (UnixPath.components occurrence.relativePath)
        occurrence.object) ∧
    ∀ path object, Occurs repository value commit path object →
      ∃ occurrence ∈ occurrences, occurrence.key = (commit.objectId, path, object) := by
  obtain ⟨summary, hsummary, h⟩ := except_bind_eq_ok h
  have hplaced := placed_of_walkTreeSummary hsummary
  by_cases hempty : summary.pointerBlobs = []
  · rw [if_pos hempty] at h
    obtain rfl := Except.ok.inj h
    refine ⟨fun _ hoccurrence => absurd hoccurrence List.not_mem_nil, ?_⟩
    rintro path object ⟨name, objectId, pointer, hhas, hpointer, _⟩
    obtain ⟨result, hresult, hfound⟩ := mem_walkTreeSummary hhas hsummary
    rw [readPointerBlobCandidate_eq_some.mpr hpointer] at hresult
    obtain rfl := Except.ok.inj hresult
    obtain ⟨blob, hblob, _⟩ := hfound rfl
    rw [hempty] at hblob
    exact absurd hblob List.not_mem_nil
  · rw [if_neg hempty] at h
    obtain ⟨paths, hpaths, h⟩ := except_bind_eq_ok h
    obtain rfl := Except.ok.inj hpaths
    constructor
    · intro occurrence hoccurrence
      obtain ⟨blob, hblob, hresult⟩ := exists_of_mem_mapM_eq_ok h occurrence hoccurrence
      obtain ⟨hblob, hlfs⟩ := List.mem_filter.mp hblob
      obtain ⟨pointer, hpointer, hresult⟩ := except_bind_eq_ok hresult
      obtain ⟨name, hhas⟩ := (hplaced blob hblob).has
      cases pointer with
      | none => cases hresult
      | some pointer =>
        obtain rfl := Except.ok.inj hresult
        have hvalue := (List.mem_filter.mp (of_decide_eq_true hlfs)).2
        exact ⟨rfl, name, blob.objectId, pointer, hhas,
          readPointerBlobCandidate_eq_some.mp hpointer, rfl, of_decide_eq_true hvalue⟩
    · rintro path object ⟨name, objectId, pointer, hhas, hpointer, rfl, hvalue⟩
      have hread := readPointerBlobCandidate_eq_some.mpr hpointer
      obtain ⟨result, hresult, hfound⟩ := mem_walkTreeSummary hhas hsummary
      obtain rfl := Except.ok.inj (hread.symm.trans hresult)
      obtain ⟨blob, hblob, rfl, rfl⟩ := hfound rfl
      have hlfs : UnixPath.components blob.relativePath ∈
          lfsFiltered (value commit.treeId) summary.queryKey.pointerPaths :=
        List.mem_filter.mpr ⟨List.mem_map.mpr ⟨blob, hblob, rfl⟩, decide_eq_true hvalue⟩
      obtain ⟨occurrence, hoccurrence, hresult⟩ := mem_of_mapM_eq_ok h blob
        (List.mem_filter.mpr ⟨hblob, decide_eq_true hlfs⟩)
      rw [hread] at hresult
      obtain rfl := Except.ok.inj hresult
      exact ⟨_, hoccurrence, rfl⟩

/-! ## Findings -/

/-- What a pointer is known by. -/
def GitLfsHistoryPointer.key (pointer : GitLfsHistoryPointer) :
    String × List PathComponent × LfsObject :=
  (pointer.commit, UnixPath.components pointer.relativePath, pointer.object)

/-- A ref reaches a commit. -/
def Reaches (repository : HistoryRepository) (scannedRef : GitLfsScannedRef)
    (commit : GitHistoryCommit) : Prop :=
  ∃ commits, revListCommits repository.toGitObjects scannedRef.commit = .ok commits ∧
    commit ∈ commits

/-- A pointer is an occurrence in a commit that a ref reaches, and that no ref before reaches. -/
def FirstFound (repository : HistoryRepository)
    (value : String → List PathComponent → List UInt8) (scannedRefs : List GitLfsScannedRef)
    (pointer : GitLfsHistoryPointer) : Prop :=
  ∃ before scannedRef after commit, scannedRefs = before ++ scannedRef :: after ∧
    pointer.refName = scannedRef.name ∧ Reaches repository scannedRef commit ∧
    commit.objectId = pointer.commit ∧
    Occurs repository value commit (UnixPath.components pointer.relativePath) pointer.object ∧
    ∀ earlier ∈ before, ∀ other, Reaches repository earlier other →
      other.objectId ≠ pointer.commit

/-- The pointers of refs: each occurrence once, with the first ref that reaches its commit. -/
structure HistoryExact (repository : HistoryRepository)
    (value : String → List PathComponent → List UInt8) (scannedRefs : List GitLfsScannedRef)
    (pointers : List GitLfsHistoryPointer) : Prop where
  found : ∀ pointer ∈ pointers, FirstFound repository value scannedRefs pointer
  complete : ∀ scannedRef ∈ scannedRefs, ∀ commit, Reaches repository scannedRef commit →
    ∀ path object, Occurs repository value commit path object →
      (commit.objectId, path, object) ∈ pointers.map GitLfsHistoryPointer.key
  once : (pointers.map GitLfsHistoryPointer.key).Nodup

/-- What was found among some refs: the occurrences of the refs that are done are all seen. -/
structure Findings (repository : HistoryRepository)
    (value : String → List PathComponent → List UInt8) (done scannedRefs : List GitLfsScannedRef)
    (found : HistoryFindings) : Prop where
  seen : ∀ key, key ∈ found.seen ↔ key ∈ found.pointers.map GitLfsHistoryPointer.key
  once : (found.pointers.map GitLfsHistoryPointer.key).Nodup
  first : ∀ pointer ∈ found.pointers, FirstFound repository value scannedRefs pointer
  complete : ∀ scannedRef ∈ done, ∀ commit, Reaches repository scannedRef commit →
    ∀ path object, Occurs repository value commit path object →
      (commit.objectId, path, object) ∈ found.seen

variable {done scannedRefs : List GitLfsScannedRef} {scannedRef : GitLfsScannedRef}
  {found found' : HistoryFindings}

theorem listed_of_reaches (h : Reaches repository scannedRef commit) : Listed repository commit :=
  ⟨scannedRef.commit, h⟩

/-- Nothing that was seen is forgotten. -/
theorem seen_subset_add (refName : String) (occurrence : GitLfsHistoryPointerOccurrence) :
    found.seen ⊆ (found.add refName occurrence).seen := by
  unfold HistoryFindings.add
  split_ifs
  · exact List.Subset.refl _
  · exact List.subset_cons_self _ _

theorem key_mem_add (refName : String) (occurrence : GitLfsHistoryPointerOccurrence) :
    occurrence.key ∈ (found.add refName occurrence).seen := by
  unfold HistoryFindings.add
  split_ifs with hseen
  · exact hseen
  · exact List.mem_cons_self

/-- An occurrence of a commit that the next ref reaches is added. -/
theorem Findings.add (hgit : AttributesByTree repository value)
    (h : Findings repository value done (done ++ [scannedRef]) found)
    (hreaches : Reaches repository scannedRef commit)
    {occurrence : GitLfsHistoryPointerOccurrence} (hcommit : occurrence.commit = commit.objectId)
    (hoccurs : Occurs repository value commit (UnixPath.components occurrence.relativePath)
      occurrence.object) :
    Findings repository value done (done ++ [scannedRef])
      (found.add scannedRef.name occurrence) := by
  unfold HistoryFindings.add
  split_ifs with hseen
  · exact h
  have hnew : ∀ earlier ∈ done, ∀ other, Reaches repository earlier other →
      other.objectId ≠ occurrence.commit := by
    intro earlier hearlier other hother hid
    have hids : other.objectId = commit.objectId := hid.trans hcommit
    obtain rfl : other = commit := GitHistoryCommit.ext hids
      (hgit.tree_eq (listed_of_reaches hother) (listed_of_reaches hreaches) hids)
    refine hseen ?_
    have hcomplete := h.complete earlier hearlier other hother _ _ hoccurs
    rwa [hid] at hcomplete
  constructor
  · intro key
    rw [List.mem_cons, List.map_append, List.mem_append, List.map_singleton, List.mem_singleton,
      h.seen key]
    exact or_comm
  · rw [List.map_append, List.map_singleton, ← List.concat_eq_append]
    exact List.Nodup.concat (fun hmem => hseen ((h.seen _).mpr hmem)) h.once
  · intro pointer hpointer
    rcases List.mem_append.mp hpointer with hold | hlast
    · exact h.first pointer hold
    · obtain rfl := List.mem_singleton.mp hlast
      exact ⟨done, scannedRef, [], commit, rfl, rfl, hreaches, hcommit.symm, hoccurs, hnew⟩
  · intro earlier hearlier other hother path object hpath
    exact List.mem_cons_of_mem _ (h.complete earlier hearlier other hother path object hpath)

/-- The occurrences of a commit are added. -/
theorem Findings.foldl (hgit : AttributesByTree repository value)
    (h : Findings repository value done (done ++ [scannedRef]) found)
    (hreaches : Reaches repository scannedRef commit)
    {occurrences : List GitLfsHistoryPointerOccurrence}
    (hoccurrences : ∀ occurrence ∈ occurrences, occurrence.commit = commit.objectId ∧
      Occurs repository value commit (UnixPath.components occurrence.relativePath)
        occurrence.object) :
    Findings repository value done (done ++ [scannedRef])
        (occurrences.foldl (HistoryFindings.add scannedRef.name) found) ∧
      found.seen ⊆ (occurrences.foldl (HistoryFindings.add scannedRef.name) found).seen ∧
      ∀ occurrence ∈ occurrences,
        occurrence.key ∈ (occurrences.foldl (HistoryFindings.add scannedRef.name) found).seen := by
  induction occurrences generalizing found with
  | nil => exact ⟨h, List.Subset.refl _, fun _ hmem => absurd hmem List.not_mem_nil⟩
  | cons occurrence occurrences ih =>
    obtain ⟨⟨hcommit, hoccurs⟩, hrest⟩ := List.forall_mem_cons.mp hoccurrences
    obtain ⟨hfound, hsubset, hkeys⟩ := ih (h.add hgit hreaches hcommit hoccurs) hrest
    exact ⟨hfound, List.Subset.trans (seen_subset_add _ _) hsubset,
      List.forall_mem_cons.mpr ⟨hsubset (key_mem_add _ _), hkeys⟩⟩

/-- The commits of a ref are added. -/
theorem Findings.commits (hgit : AttributesByTree repository value)
    (h : Findings repository value done (done ++ [scannedRef]) found)
    {commits : List GitHistoryCommit}
    (hreaches : ∀ commit ∈ commits, Reaches repository scannedRef commit)
    (hrun : commits.foldlM (fun found commit => do
      let occurrences ← trackedOccurrences repository value commit
      return occurrences.foldl (HistoryFindings.add scannedRef.name) found) found = .ok found') :
    Findings repository value done (done ++ [scannedRef]) found' ∧ found.seen ⊆ found'.seen ∧
      ∀ commit ∈ commits, ∀ path object, Occurs repository value commit path object →
        (commit.objectId, path, object) ∈ found'.seen := by
  induction commits generalizing found with
  | nil =>
    obtain rfl := Except.ok.inj hrun
    exact ⟨h, List.Subset.refl _, fun _ hmem => absurd hmem List.not_mem_nil⟩
  | cons commit commits ih =>
    obtain ⟨hcommit, hrest⟩ := List.forall_mem_cons.mp hreaches
    rw [List.foldlM_cons] at hrun
    obtain ⟨middle, hturn, hrun⟩ := except_bind_eq_ok hrun
    obtain ⟨occurrences, hoccurrences, hturn⟩ := except_bind_eq_ok hturn
    obtain rfl := Except.ok.inj hturn
    obtain ⟨hsound, hall⟩ := trackedOccurrences_ok hoccurrences
    obtain ⟨hmiddle, hseen, hkeys⟩ := h.foldl hgit hcommit hsound
    obtain ⟨hfound, hsubset, hothers⟩ := ih hmiddle hrest hrun
    refine ⟨hfound, List.Subset.trans hseen hsubset, List.forall_mem_cons.mpr ⟨?_, hothers⟩⟩
    intro path object hoccurs
    obtain ⟨occurrence, hoccurrence, hkey⟩ := hall path object hoccurs
    rw [← hkey]
    exact hsubset (hkeys occurrence hoccurrence)

/-- What was first found among some refs was first found among more. -/
theorem FirstFound.append {pointer : GitLfsHistoryPointer}
    (h : FirstFound repository value scannedRefs pointer) (others : List GitLfsScannedRef) :
    FirstFound repository value (scannedRefs ++ others) pointer := by
  obtain ⟨before, scannedRef, after, commit, rfl, hrest⟩ := h
  exact ⟨before, scannedRef, after ++ others, commit, by
    rw [List.append_assoc, List.cons_append], hrest⟩

/-- A ref is done. -/
theorem Findings.ref (hgit : AttributesByTree repository value)
    (h : Findings repository value done done found)
    (hrun : refFindings repository.toGitObjects (trackedOccurrences repository value) found
      scannedRef = .ok found') :
    Findings repository value (done ++ [scannedRef]) (done ++ [scannedRef]) found' := by
  obtain ⟨commits, hcommits, hrun⟩ := except_bind_eq_ok hrun
  have hstart : Findings repository value done (done ++ [scannedRef]) found :=
    ⟨h.seen, h.once, fun pointer hpointer => (h.first pointer hpointer).append _, h.complete⟩
  obtain ⟨hfound, _, hoccurrences⟩ :=
    hstart.commits hgit (fun commit hcommit => ⟨commits, hcommits, hcommit⟩) hrun
  refine ⟨hfound.seen, hfound.once, hfound.first, ?_⟩
  intro earlier hearlier commit hcommit path object hoccurs
  rcases List.mem_append.mp hearlier with hdone | hlast
  · exact hfound.complete earlier hdone commit hcommit path object hoccurs
  · obtain rfl := List.mem_singleton.mp hlast
    obtain ⟨others, hothers, hmem⟩ := hcommit
    obtain rfl := Except.ok.inj (hcommits.symm.trans hothers)
    exact hoccurrences commit hmem path object hoccurs

/-- Refs are done one after the other. -/
theorem Findings.refs (hgit : AttributesByTree repository value)
    (h : Findings repository value done done found)
    (hrun : scannedRefs.foldlM (refFindings repository.toGitObjects
      (trackedOccurrences repository value)) found = .ok found') :
    Findings repository value (done ++ scannedRefs) (done ++ scannedRefs) found' := by
  induction scannedRefs generalizing done found with
  | nil =>
    obtain rfl := Except.ok.inj hrun
    rwa [List.append_nil]
  | cons scannedRef scannedRefs ih =>
    rw [List.foldlM_cons] at hrun
    obtain ⟨middle, hturn, hrun⟩ := except_bind_eq_ok hrun
    have hrest := ih (h.ref hgit hturn) hrun
    rwa [List.append_assoc, List.singleton_append] at hrest

/-- The pointers of refs are exact. -/
theorem historyExact_of_trackedPointers (hgit : AttributesByTree repository value)
    {pointers : List GitLfsHistoryPointer}
    (h : trackedPointers repository value scannedRefs = .ok pointers) :
    HistoryExact repository value scannedRefs pointers := by
  unfold trackedPointers refPointers at h
  split_ifs at h with hempty
  · obtain rfl := Except.ok.inj h
    rw [hempty]
    exact ⟨fun _ hmem => absurd hmem List.not_mem_nil, fun _ hmem => absurd hmem List.not_mem_nil,
      List.nodup_nil⟩
  · obtain ⟨_, _, h⟩ := except_bind_eq_ok h
    obtain ⟨found, hfound, h⟩ := except_bind_eq_ok h
    obtain ⟨_, _, h⟩ := except_bind_eq_ok h
    obtain rfl := Except.ok.inj h
    have hnone : Findings repository value [] [] ⟨[], []⟩ :=
      ⟨fun _ => Iff.rfl, List.nodup_nil, fun _ hmem => absurd hmem List.not_mem_nil,
        fun _ hmem => absurd hmem List.not_mem_nil⟩
    obtain ⟨hseen, honce, hfirst, hcomplete⟩ := hnone.refs hgit hfound
    refine ⟨hfirst, fun scannedRef hmem commit hreaches path object hoccurs => ?_, honce⟩
    exact (hseen _).mp (hcomplete scannedRef hmem commit hreaches path object hoccurs)

/-! ## The scan -/

/-- A scan with tables returns the pointers that a walk of every commit returns, what it returns is
exact (each occurrence once, with the first ref that reaches its commit), and it does not panic. -/
theorem history_scan_exact (hgit : AttributesByTree repository value)
    (scannedRefs : List GitLfsScannedRef) :
    (∀ pointers, walkHistoryRefs repository scannedRefs = .ok pointers →
      ∃ metrics, scanResolvedHistoryRefs repository scannedRefs = .ok (pointers, metrics)) ∧
    (∀ pointers metrics, scanResolvedHistoryRefs repository scannedRefs = .ok (pointers, metrics) →
      HistoryExact repository value scannedRefs pointers) ∧
    ∀ message, scanResolvedHistoryRefs repository scannedRefs ≠ .error (.panicked message) := by
  obtain ⟨hreturns, hreturned, hfails⟩ := scan_between hgit scannedRefs
  refine ⟨hreturns, fun pointers metrics h =>
    historyExact_of_trackedPointers hgit (hreturned pointers metrics h), fun message h => ?_⟩
  obtain ⟨source, hsource⟩ := hfails _ h
  cases hsource

/-! ## Two commits with one tree -/

/-- The tree that both commits have, and its only entry. -/
def sharedTreeId : String := hexText (List.replicate 20 7)

def sharedEntry : GitTreeEntry 20 where
  mode := [49, 48, 48, 54, 52, 52]
  name := [109]
  hash := List.replicate 20 9
  mode_ne_nil := by decide
  mode_space := by decide
  name_ne_nil := by decide
  name_nul := by decide
  hash_length := List.length_replicate

/-- The pointer file of the blob. -/
def sharedPointerText : String :=
  "version https://git-lfs.github.com/spec/v1\noid sha256:" ++
    String.ofList (List.replicate 64 'a') ++ "\nsize 5\n"

/-- A commit and its parent. -/
def sharedCommits : List GitHistoryCommit :=
  [⟨String.ofList (List.replicate 40 'c'), sharedTreeId⟩,
    ⟨String.ofList (List.replicate 40 'd'), sharedTreeId⟩]

/-- What Git answers, where every path has the filter of LFS. -/
def sharedObjects : GitObjects where
  start := .ok ()
  info _ _ := .ok ⟨"blob", sharedPointerText.utf8ByteSize⟩
  contents objectId expectedType _ _ :=
    if expectedType = "blob" then .ok sharedPointerText.toByteArray.toList
    else if objectId = sharedTreeId then .ok (encodeGitTree [sharedEntry])
    else .error (.failed "git returned an unexpected object type")
  finish := .ok ()
  checkAttr _ paths := .ok (filterAnswers (fun _ => lfsBytes) (paths.splitOn 0).dropLast)
  revList rootCommit :=
    if rootCommit = String.ofList (List.replicate 40 'c') then
      .ok (String.join (sharedCommits.map fun commit =>
        commit.objectId ++ " " ++ commit.treeId ++ "\n"))
    else .error (.failed "bad revision")

/-- The entry of the tree is one for a file. -/
theorem readTree_shared {treeId : String} {entries : List RawGitTreeEntry}
    (h : readTree sharedObjects treeId = .ok entries) : entries = [sharedEntry.raw] := by
  obtain ⟨contents, hcontents, hparse⟩ := except_bind_eq_ok h
  have hfound := mapError_eq_ok hcontents
  have hparsed := mapError_eq_ok hparse
  change (if treeId = sharedTreeId then _ else _) = _ at hfound
  split_ifs at hfound with hid
  obtain rfl := Except.ok.inj hfound
  rw [hid] at hparsed
  have hread : parseRawGitTree (encodeGitTree [sharedEntry]) sharedTreeId
      (treeCommandName sharedTreeId) = .ok [sharedEntry.raw] := by
    decide +kernel
  exact (Except.ok.inj (hread.symm.trans hparsed)).symm

/-- The repository with the two commits. -/
def sharedRepository : HistoryRepository where
  toGitObjects := sharedObjects
  depth _ := 0
  depth_lt h entry hentry hmode := by
    rw [readTree_shared h, List.mem_singleton] at hentry
    rw [hentry] at hmode
    exact absurd hmode (by decide)

/-- Two refs at the same commit. -/
def sharedRefs : List GitLfsScannedRef :=
  [⟨"refs/heads/main", String.ofList (List.replicate 40 'c')⟩,
    ⟨"refs/tags/v1", String.ofList (List.replicate 40 'c')⟩]

theorem splitOn_pathList {paths : List UnixPath} (h : ∀ path ∈ paths, 0 ∉ path) :
    (pathList paths).splitOn 0 = paths ++ [[]] := by
  induction paths with
  | nil => rfl
  | cons path paths ih =>
    obtain ⟨hpath, hrest⟩ := List.forall_mem_cons.mp h
    have hcons : pathList (path :: paths) = path ++ 0 :: pathList paths := by
      unfold pathList
      rw [List.flatMap_cons, List.append_assoc, List.singleton_append]
    rw [hcons, List.splitOn_append_cons_self_of_not_mem hpath, ih hrest, List.cons_append]

theorem sharedRepository_attributes :
    AttributesByTree sharedRepository fun _ _ => lfsBytes := by
  have htree : ∀ commit, Listed sharedRepository commit → commit.treeId = sharedTreeId := by
    rintro commit ⟨root, commits, hcommits, hmem⟩
    by_cases hroot : root = String.ofList (List.replicate 40 'c')
    · have hlog : revListCommits sharedObjects (String.ofList (List.replicate 40 'c')) =
          .ok sharedCommits := by
        decide +kernel
      rw [hroot] at hcommits
      obtain rfl := Except.ok.inj (hlog.symm.trans hcommits)
      simp only [sharedCommits, List.mem_cons, List.not_mem_nil, or_false] at hmem
      rcases hmem with rfl | rfl
      · rfl
      · rfl
    · have hnone : sharedObjects.revList root = .error (.failed "bad revision") := if_neg hroot
      unfold revListCommits at hcommits
      change ((sharedObjects.revList root).mapError _ >>= _) = _ at hcommits
      rw [hnone] at hcommits
      cases hcommits
  constructor
  · intro commit other hcommit hother _
    rw [htree commit hcommit, htree other hother]
  · exact fun _ _ => by decide
  · intro commit paths stdout _ hpaths hstdout
    rw [← Except.ok.inj hstdout, splitOn_pathList fun path hpath => (hpaths path hpath).2,
      List.dropLast_concat]
  · exact fun _ => rfl

/-- Each of the two commits has the pointer once, whichever ref it was found with. -/
theorem history_scan_exact_shared : ∃ pointers metrics,
    scanResolvedHistoryRefs sharedRepository sharedRefs = .ok (pointers, metrics) ∧
      pointers.length = 2 ∧
      HistoryExact sharedRepository (fun _ _ => lfsBytes) sharedRefs pointers := by
  have hlength : ((scanResolvedHistoryRefs sharedRepository sharedRefs).toOption.map
      fun found => found.1.length) = some 2 := by
    decide +kernel
  obtain ⟨_, hexact, _⟩ := history_scan_exact sharedRepository_attributes sharedRefs
  cases hscan : scanResolvedHistoryRefs sharedRepository sharedRefs with
  | error failure =>
    rw [hscan] at hlength
    cases hlength
  | ok found =>
    rw [hscan] at hlength
    exact ⟨found.1, found.2, rfl, Option.some.inj hlength, hexact _ _ hscan⟩

end LfsCloud
