import LfsCloud.Migration.HistoryWalk

/-!
# The scan finds what the walk finds

The tables of the scan hold results of the walk only, so the scan lies between two walks: one that
asks Git for the attributes of every commit, and one that takes them from the tree of the commit.
-/

namespace LfsCloud

open Memo

variable {repository : HistoryRepository} {value : String → List PathComponent → List UInt8}
  {treeId objectId : String} {commit : GitHistoryCommit} {ids : List String}

/-- The occurrences of a commit, with the filters that its tree has. -/
def trackedOccurrences (repository : HistoryRepository)
    (value : String → List PathComponent → List UInt8) (commit : GitHistoryCommit) :
    Except HistoryError (List GitLfsHistoryPointerOccurrence) :=
  walkCommit repository (fun summary _ =>
    .ok (lfsFiltered (value commit.treeId) summary.queryKey.pointerPaths)) commit

/-! ## Failures -/

/-- The failure is not a panic. -/
def HistoryError.IsError (failure : HistoryError) : Prop := ∃ source, failure = .error source

/-- What Git is asked for does not panic. -/
def FailsSafely {α : Type} (result : Except HistoryError α) : Prop :=
  ∀ failure, result = .error failure → failure.IsError

namespace FailsSafely

variable {ε α β : Type}

theorem ok (a : α) : FailsSafely (.ok a : Except HistoryError α) := fun _ h => by cases h

theorem error (source : HistoryGitError) :
    FailsSafely (.error (.error source) : Except HistoryError α) :=
  fun _ h => ⟨source, (Except.error.inj h).symm⟩

theorem mapError {f : ε → HistoryError} (hf : ∀ e, (f e).IsError) (result : Except ε α) :
    FailsSafely (result.mapError f) := by
  cases result with
  | ok a => exact .ok a
  | error e =>
    intro failure h
    obtain rfl := Except.error.inj h
    exact hf e

theorem bind {result : Except HistoryError α} {f : α → Except HistoryError β}
    (h : FailsSafely result) (hf : ∀ a, FailsSafely (f a)) : FailsSafely (result >>= f) := by
  cases result with
  | ok a => exact hf a
  | error failure => exact fun e he => h e (congrArg _ (Except.error.inj he))

theorem mapM {f : α → Except HistoryError β} (hf : ∀ a, FailsSafely (f a)) (xs : List α) :
    FailsSafely (xs.mapM f) := by
  induction xs with
  | nil => exact .ok []
  | cons x xs ih =>
    rw [List.mapM_cons]
    exact (hf x).bind fun y => ih.bind fun ys => .ok (y :: ys)

end FailsSafely

theorem readTree_failsSafely (objects : GitObjects) (treeId : String) :
    FailsSafely (readTree objects treeId) :=
  (FailsSafely.mapError (fun _ => ⟨_, rfl⟩) _).bind fun _ =>
    FailsSafely.mapError (fun _ => ⟨_, rfl⟩) _

theorem readPointerBlobCandidate_failsSafely (objects : GitObjects) (objectId : String) :
    FailsSafely (readPointerBlobCandidate objects objectId) := by
  unfold readPointerBlobCandidate
  refine (FailsSafely.mapError (fun _ => ⟨_, rfl⟩) _).bind fun info => ?_
  split_ifs
  · exact .error _
  · exact .ok none
  · refine (FailsSafely.mapError (fun _ => ⟨_, rfl⟩) _).bind fun contents => ?_
    cases String.fromUTF8? ⟨contents.toArray⟩ with
    | none => exact .ok none
    | some text => exact .ok _

theorem revListCommits_failsSafely (objects : GitObjects) (rootCommit : String) :
    FailsSafely (revListCommits objects rootCommit) := by
  refine (FailsSafely.mapError (fun _ => ⟨_, rfl⟩) _).bind fun stdout =>
    FailsSafely.mapM (fun line => ?_) _
  unfold parseRevListLine
  cases Text.splitOnce ' ' line with
  | none => exact .error _
  | some parts =>
    dsimp only
    split_ifs
    · exact .error _
    · exact .ok _

theorem appendGitCheckAttrLfsPaths_failsSafely (objects : GitObjects) (commit : String)
    (pathInput : List UInt8) (lfsPaths : List (List PathComponent)) :
    FailsSafely (appendGitCheckAttrLfsPaths objects commit pathInput lfsPaths) :=
  (FailsSafely.mapError (fun _ => ⟨_, rfl⟩) _).bind fun _ =>
    (FailsSafely.mapError (fun _ => ⟨_, rfl⟩) _).bind fun _ => .ok _

theorem checkAttrLoop_failsSafely (objects : GitObjects) (commit : String)
    (blobs : List GitTreeBlob) (pathInput : List UInt8) (lfsPaths : List (List PathComponent))
    (processCount : ℕ) :
    FailsSafely (checkAttrLoop objects commit blobs pathInput lfsPaths processCount) := by
  induction blobs generalizing pathInput lfsPaths processCount with
  | nil =>
    unfold checkAttrLoop
    split_ifs
    · exact .ok _
    · exact (appendGitCheckAttrLfsPaths_failsSafely _ _ _ _).bind fun _ => .ok _
  | cons blob blobs ih =>
    unfold checkAttrLoop
    dsimp only
    split_ifs
    · exact .error _
    · exact (appendGitCheckAttrLfsPaths_failsSafely _ _ _ _).bind fun _ => ih _ _ _
    · exact ih _ _ _

/-! ## The tables -/

/-- The tables hold results of the walk, and the blobs of every summary were inspected. -/
structure ScannerSound (repository : HistoryRepository)
    (value : String → List PathComponent → List UInt8) (scanner : HistoryScanner) : Prop where
  trees : ∀ {treeId summary}, scanner.treeCache.lookup treeId = some summary →
    walkTreeSummary repository treeId = .ok summary ∧ ∀ blob ∈ summary.pointerBlobs,
      (scanner.blobPointerCache.lookup blob.objectId).isSome = true
  blobs : ∀ {objectId pointer}, scanner.blobPointerCache.lookup objectId = some pointer →
    readPointerBlobCandidate repository.toGitObjects objectId = .ok pointer
  attributes : ∀ {treeId summary paths}, walkTreeSummary repository treeId = .ok summary →
    scanner.attributeCache.lookup summary.queryKey = some paths →
    paths = lfsFiltered (value treeId) summary.queryKey.pointerPaths
  commits : ∀ {commit occurrences}, Listed repository commit →
    scanner.commitCache.lookup commit.objectId = some occurrences →
    trackedOccurrences repository value commit = .ok occurrences

/-- The tables are sound, and some blobs were inspected. -/
def Knows (repository : HistoryRepository) (value : String → List PathComponent → List UInt8)
    (ids : List String) (scanner : HistoryScanner) : Prop :=
  ScannerSound repository value scanner ∧
    ∀ objectId ∈ ids, (scanner.blobPointerCache.lookup objectId).isSome = true

/-- The blobs of a summary were inspected, besides others. -/
abbrev KnowsSummary (repository : HistoryRepository)
    (value : String → List PathComponent → List UInt8) (ids : List String)
    (summary : HistoryTreeSummary) : HistoryScanner → Prop :=
  Knows repository value (summary.pointerBlobs.map GitTreeBlob.objectId ++ ids)

theorem Knows.mono {ids' : List String} {scanner : HistoryScanner}
    (h : Knows repository value ids scanner) (hids : ids' ⊆ ids) :
    Knows repository value ids' scanner :=
  ⟨h.1, fun objectId hid => h.2 objectId (hids hid)⟩

theorem scannerSound_new : ScannerSound repository value HistoryScanner.new where
  trees h := by cases h
  blobs h := by cases h
  attributes _ h := by cases h
  commits _ h := by cases h

/-! ## Blobs and trees -/

/-- A blob that was inspected is known. -/
theorem isSome_insert_cache {κ ν : Type} [DecidableEq κ] {table : Table κ ν} {k j : κ} {v : ν}
    (h : j = k ∨ (table.lookup j).isSome = true) : ((table.insert k v).lookup j).isSome = true := by
  by_cases hjk : j = k
  · rw [hjk, AList.lookup_insert]
    rfl
  · rw [AList.lookup_insert_ne hjk]
    exact h.resolve_left hjk

/-- A blob is read as the walk reads it. -/
theorem pointerBlob_between :
    Between HistoryError.IsError (Knows repository value ids)
      (HistoryScanner.pointerBlob repository objectId)
      (readPointerBlobCandidate repository.toGitObjects objectId)
      (readPointerBlobCandidate repository.toGitObjects objectId)
      fun _ => Knows repository value (objectId :: ids) := by
  have hread : Between HistoryError.IsError (Knows repository value ids)
      (do
        modify fun scanner : HistoryScanner => { scanner with metrics := { scanner.metrics with
          blobsInspected := scanner.metrics.blobsInspected + 1 } }
        liftM (readPointerBlobCandidate repository.toGitObjects objectId))
      (readPointerBlobCandidate repository.toGitObjects objectId)
      (readPointerBlobCandidate repository.toGitObjects objectId)
      fun _ => Knows repository value ids := by
    refine Between.modify (Between.lift (fun _ _ _ h => h)
      (readPointerBlobCandidate_failsSafely _ _)) fun scanner h => ?_
    exact ⟨⟨h.1.trees, h.1.blobs, h.1.attributes, h.1.commits⟩, h.2⟩
  refine Between.memo ?_ hread ?_
  · intro scanner pointer h hlook
    refine ⟨h.1.blobs hlook, h.1, List.forall_mem_cons.mpr ⟨?_, h.2⟩⟩
    rw [hlook]
    rfl
  · rintro pointer scanner hpointer ⟨hsound, hids⟩
    refine ⟨⟨fun hlook => ?_, fun hlook => ?_, hsound.attributes, hsound.commits⟩,
      List.forall_mem_cons.mpr ⟨isSome_insert_cache (.inl rfl),
        fun other hother => isSome_insert_cache (.inr (hids other hother))⟩⟩
    · obtain ⟨hwalk, hknown⟩ := hsound.trees hlook
      exact ⟨hwalk, fun blob hblob => isSome_insert_cache (.inr (hknown blob hblob))⟩
    · rcases Table.lookup_insert_eq_some.mp hlook with ⟨rfl, rfl⟩ | ⟨_, hold⟩
      · exact hpointer
      · exact hsound.blobs hold

/-- A turn of the loop over the entries is one of the walk, where subtrees are summarized as in the
walk. -/
theorem summarizeEntry_between {f : String → HistoryScanner.ScanM HistoryTreeSummary}
    {commandName : String} {entry : RawGitTreeEntry} {summary : HistoryTreeSummary}
    (hf : entry.mode = treeMode → ∀ ids, Between HistoryError.IsError (Knows repository value ids)
      (f entry.objectId) (walkTreeSummary repository entry.objectId)
      (walkTreeSummary repository entry.objectId) (KnowsSummary repository value ids)) :
    Between HistoryError.IsError (KnowsSummary repository value ids summary)
      (summarizeEntry f (HistoryScanner.pointerBlob repository) commandName summary entry)
      (summarizeEntry (walkTreeSummary repository)
        (readPointerBlobCandidate repository.toGitObjects) commandName summary entry)
      (summarizeEntry (walkTreeSummary repository)
        (readPointerBlobCandidate repository.toGitObjects) commandName summary entry)
      (KnowsSummary repository value ids) := by
  unfold summarizeEntry
  refine Between.bind (Q := fun _ => KnowsSummary repository value ids summary)
    (Between.lift (fun _ _ _ h => h) (FailsSafely.mapError (fun _ => ⟨_, rfl⟩) _))
    fun relativePath _ => ?_
  by_cases htree : entry.mode = treeMode
  · rw [if_pos htree, if_pos htree]
    refine Between.bind (hf htree _) fun child _ => Between.pure fun scanner h => h.mono ?_
    unfold appendPrefixedTreeSummary
    dsimp only
    rw [List.map_append, List.map_map]
    intro id hid
    simp only [List.mem_append, Function.comp_def] at hid ⊢
    rcases hid with (hid | hid) | hid
    · exact .inr (.inl hid)
    · exact .inl hid
    · exact .inr (.inr hid)
  rw [if_neg htree, if_neg htree]
  by_cases hcommit : entry.mode = commitMode
  · rw [if_pos hcommit, if_pos hcommit]
    exact Between.pure fun _ h => h
  rw [if_neg hcommit, if_neg hcommit]
  by_cases hblob : entry.mode ∉ blobModes
  · rw [if_pos hblob, if_pos hblob]
    exact Between.lift (fun _ _ h => by cases h) (FailsSafely.error _)
  · rw [if_neg hblob, if_neg hblob]
    refine Between.bind pointerBlob_between fun pointer _ => ?_
    cases pointer with
    | some pointer =>
      refine Between.pure fun scanner h => h.mono ?_
      dsimp only
      rw [List.map_append, List.map_singleton]
      intro id hid
      simp only [List.mem_append, List.mem_cons, List.not_mem_nil, or_false] at hid ⊢
      rcases hid with (hid | hid) | hid
      · exact .inr (.inl hid)
      · exact .inl hid
      · exact .inr (.inr hid)
    | none => exact Between.pure fun scanner h => h.mono (List.subset_cons_self _ _)

/-- The summary of a tree is the one of the walk. -/
theorem treeSummary_between {fuel : ℕ} (hfuel : repository.depth treeId < fuel) :
    Between HistoryError.IsError (Knows repository value ids)
      (HistoryScanner.treeSummary repository fuel treeId)
      (walkTreeSummary repository treeId) (walkTreeSummary repository treeId)
      (KnowsSummary repository value ids) := by
  induction fuel generalizing treeId ids with
  | zero => omega
  | succ fuel ih =>
    unfold HistoryScanner.treeSummary
    refine Between.memo (M := KnowsSummary repository value ids) ?_ ?_ ?_
    · intro scanner summary h hlook
      obtain ⟨hwalk, hknown⟩ := h.1.trees hlook
      refine ⟨hwalk, h.1, fun id hid => ?_⟩
      rcases List.mem_append.mp hid with hblob | hid
      · obtain ⟨blob, hmem, rfl⟩ := List.mem_map.mp hblob
        exact hknown blob hmem
      · exact h.2 id hid
    · rw [walkTreeSummary_eq]
      refine Between.bind (Q := fun _ => Knows repository value ids)
        (Between.lift (fun _ _ _ h => h) (readTree_failsSafely _ _)) fun entries hread => ?_
      refine Between.modify (N := KnowsSummary repository value ids ⟨[], []⟩)
        (Between.bind (Between.foldlM (fun entry hentry summary =>
          summarizeEntry_between fun htree _ => ih ?_) _) fun summary _ =>
            Between.pure fun scanner h => h.mono ?_) fun scanner h => ?_
      · have hless := repository.depth_lt hread entry hentry htree
        omega
      · refine List.append_subset.mpr ⟨?_, List.subset_append_right _ _⟩
        refine List.Subset.trans (List.Perm.subset ?_) (List.subset_append_left _ _)
        exact (List.mergeSort_perm _ _).map _
      · exact ⟨⟨h.1.trees, h.1.blobs, h.1.attributes, h.1.commits⟩, h.2⟩
    · rintro summary scanner hwalk ⟨hsound, hids⟩
      refine ⟨⟨fun hlook => ?_, hsound.blobs, hsound.attributes, hsound.commits⟩, hids⟩
      rcases Table.lookup_insert_eq_some.mp hlook with ⟨rfl, rfl⟩ | ⟨_, hold⟩
      · exact ⟨hwalk, fun blob hblob =>
          hids _ (List.mem_append_left _ (List.mem_map_of_mem hblob))⟩
      · exact hsound.trees hold

/-! ## Commits -/

/-- The paths with the filter of LFS lie between those that Git returns and those of the tree. -/
theorem lfsPathsOf_between (hgit : AttributesByTree repository value)
    (hlisted : Listed repository commit) {summary : HistoryTreeSummary}
    (hsummary : walkTreeSummary repository commit.treeId = .ok summary) :
    Between HistoryError.IsError (Knows repository value ids)
      (HistoryScanner.lfsPathsOf repository summary commit.objectId)
      ((gitCheckAttrLfsPathsForTreeBlobs repository.toGitObjects summary.pointerBlobs
        commit.objectId).map Prod.fst)
      (.ok (lfsFiltered (value commit.treeId) summary.queryKey.pointerPaths))
      fun _ => Knows repository value ids := by
  unfold HistoryScanner.lfsPathsOf
  refine Between.memo (M := fun _ => Knows repository value ids) ?_ ?_ ?_
  · intro scanner paths h hlook
    exact ⟨congrArg _ (h.1.attributes hsummary hlook).symm, h⟩
  · have hprocess : Between HistoryError.IsError (Knows repository value ids)
        (do
          let found ← liftM (gitCheckAttrLfsPathsForTreeBlobs
            repository.toGitObjects summary.pointerBlobs commit.objectId)
          modify fun scanner : HistoryScanner => { scanner with metrics := { scanner.metrics with
            attributeProcesses := scanner.metrics.attributeProcesses + found.2 } }
          return found.1)
        (gitCheckAttrLfsPathsForTreeBlobs repository.toGitObjects summary.pointerBlobs
          commit.objectId >>= fun found => pure found.1)
        (gitCheckAttrLfsPathsForTreeBlobs repository.toGitObjects summary.pointerBlobs
          commit.objectId >>= fun found => pure found.1)
        fun _ => Knows repository value ids := by
      refine Between.bind (Q := fun _ => Knows repository value ids)
        (Between.lift (fun _ _ _ h => h) (checkAttrLoop_failsSafely _ _ _ _ _ _))
        fun found _ => ?_
      refine Between.modify (Between.pure fun _ h => h) fun scanner h => ?_
      exact ⟨⟨h.1.trees, h.1.blobs, h.1.attributes, h.1.commits⟩, h.2⟩
    refine hprocess.widen (fun paths hpaths => ?_) fun paths hpaths => ?_
    · cases hfound : gitCheckAttrLfsPathsForTreeBlobs repository.toGitObjects
        summary.pointerBlobs commit.objectId with
      | error error =>
        rw [hfound] at hpaths
        cases hpaths
      | ok found =>
        rw [hfound] at hpaths
        exact hpaths
    · obtain ⟨found, hfound, hpaths⟩ := except_bind_eq_ok hpaths
      rw [← Except.ok.inj hpaths]
      exact congrArg _ (gitCheckAttrLfsPaths_ok hgit hlisted hsummary hfound).symm
  · rintro paths scanner hpaths ⟨hsound, hids⟩
    refine ⟨⟨hsound.trees, hsound.blobs, fun hother hlook => ?_, hsound.commits⟩, hids⟩
    rcases Table.lookup_insert_eq_some.mp hlook with ⟨hkey, rfl⟩ | ⟨_, hold⟩
    · rw [← Except.ok.inj hpaths, hkey, value_eq_of_queryKey hgit hother hsummary hkey]
    · exact hsound.attributes hother hold

/-- The pointer of a blob that was inspected is the one of the walk. -/
theorem cachedPointer_between (hid : objectId ∈ ids) :
    Between HistoryError.IsError (Knows repository value ids)
      (HistoryScanner.cachedPointer objectId)
      (readPointerBlobCandidate repository.toGitObjects objectId)
      (readPointerBlobCandidate repository.toGitObjects objectId)
      fun _ => Knows repository value ids := by
  have hrun : ∀ scanner, Knows repository value ids scanner → ∃ pointer,
      readPointerBlobCandidate repository.toGitObjects objectId = .ok pointer ∧
        (HistoryScanner.cachedPointer objectId).run scanner = .ok (pointer, scanner) := by
    intro scanner h
    obtain ⟨pointer, hlook⟩ := Option.isSome_iff_exists.mp (h.2 objectId hid)
    refine ⟨pointer, h.1.blobs hlook, ?_⟩
    change Except.ok ((scanner.blobPointerCache.lookup objectId).join, scanner) = _
    rw [hlook]
    rfl
  constructor
  · intro scanner h pointer hpointer
    obtain ⟨found, hread, hresult⟩ := hrun scanner h
    exact ⟨scanner, by rw [hresult, Except.ok.inj (hread.symm.trans hpointer)]⟩
  · intro scanner h pointer after hafter
    obtain ⟨found, hread, hresult⟩ := hrun scanner h
    obtain ⟨rfl, rfl⟩ := Prod.mk.inj (Except.ok.inj (hresult.symm.trans hafter))
    exact ⟨hread, h⟩
  · intro scanner h failure hfailure
    obtain ⟨found, _, hresult⟩ := hrun scanner h
    cases hresult.symm.trans hfailure

/-- A commit is scanned as it is walked. -/
theorem scanCommit_between (hgit : AttributesByTree repository value)
    (hlisted : Listed repository commit) :
    Between HistoryError.IsError (ScannerSound repository value)
      (HistoryScanner.scanCommit repository commit)
      (walkCommit repository (fun summary commit =>
        (gitCheckAttrLfsPathsForTreeBlobs repository.toGitObjects summary.pointerBlobs
          commit).map Prod.fst) commit)
      (trackedOccurrences repository value commit) fun _ => ScannerSound repository value := by
  unfold HistoryScanner.scanCommit trackedOccurrences walkCommit commitOccurrences
  refine Between.bind (Q := KnowsSummary repository value [])
    ((treeSummary_between (Nat.lt_succ_self _)).weaken (fun scanner h =>
      ⟨h, fun id hid => absurd hid List.not_mem_nil⟩) fun _ _ _ h => h) fun summary hsummary => ?_
  by_cases hempty : summary.pointerBlobs = []
  · rw [if_pos hempty, if_pos hempty, if_pos hempty]
    exact Between.pure fun _ h => h.1
  rw [if_neg hempty, if_neg hempty, if_neg hempty]
  refine Between.bind (lfsPathsOf_between hgit hlisted hsummary) fun paths _ => ?_
  refine (Between.mapM fun blob hblob => ?_).weaken (fun _ h => h) fun _ _ _ h => h.1
  have hid : blob.objectId ∈ summary.pointerBlobs.map GitTreeBlob.objectId ++ [] :=
    List.mem_append_left _ (List.mem_map_of_mem (List.mem_of_mem_filter hblob))
  refine Between.bind (cachedPointer_between hid) fun pointer hpointer => ?_
  cases pointer with
  | some pointer => exact Between.pure fun _ h => h
  | none =>
    -- A blob is in the summary only where it is a pointer.
    obtain ⟨_, hsome⟩ :=
      (placed_of_walkTreeSummary hsummary blob (List.mem_of_mem_filter hblob)).pointer
    cases hpointer.symm.trans hsome

/-- A commit that was scanned is not scanned again. -/
theorem commitPointers_between (hgit : AttributesByTree repository value)
    (hlisted : Listed repository commit) :
    Between HistoryError.IsError (ScannerSound repository value)
      (HistoryScanner.commitPointers repository commit)
      (walkCommit repository (fun summary commit =>
        (gitCheckAttrLfsPathsForTreeBlobs repository.toGitObjects summary.pointerBlobs
          commit).map Prod.fst) commit)
      (trackedOccurrences repository value commit) fun _ => ScannerSound repository value := by
  refine Between.memo (M := fun _ => ScannerSound repository value) ?_
    (scanCommit_between hgit hlisted) ?_
  · intro scanner occurrences h hlook
    exact ⟨h.commits hlisted hlook, h⟩
  · intro occurrences scanner hwalk h
    refine ⟨h.trees, h.blobs, h.attributes, @fun other found hother hlook => ?_⟩
    rcases Table.lookup_insert_eq_some.mp hlook with ⟨hid, rfl⟩ | ⟨_, hold⟩
    · have hsame : other = commit := GitHistoryCommit.ext hid (hgit.tree_eq hother hlisted hid)
      rwa [hsame]
    · exact h.commits hother hold

/-! ## Refs -/

/-- The pointers of refs, with the filters that the trees have. -/
def trackedPointers (repository : HistoryRepository)
    (value : String → List PathComponent → List UInt8) (scannedRefs : List GitLfsScannedRef) :
    Except HistoryError (List GitLfsHistoryPointer) :=
  refPointers repository.toGitObjects (trackedOccurrences repository value) scannedRefs

/-- A ref is scanned as it is walked. -/
theorem scanRef_between (hgit : AttributesByTree repository value) (found : HistoryFindings)
    (scannedRef : GitLfsScannedRef) :
    Between HistoryError.IsError (ScannerSound repository value)
      (refFindings repository.toGitObjects (HistoryScanner.commitPointers repository) found
        scannedRef)
      (refFindings repository.toGitObjects (walkCommit repository fun summary commit =>
        (gitCheckAttrLfsPathsForTreeBlobs repository.toGitObjects summary.pointerBlobs
          commit).map Prod.fst) found scannedRef)
      (refFindings repository.toGitObjects (trackedOccurrences repository value) found scannedRef)
      fun _ => ScannerSound repository value := by
  unfold refFindings
  refine Between.bind (Q := fun _ => ScannerSound repository value)
    (Between.lift (fun _ _ _ h => h) (revListCommits_failsSafely _ _)) fun commits hcommits => ?_
  refine Between.foldlM (J := fun _ => ScannerSound repository value)
    (fun commit hcommit found => ?_) found
  exact Between.bind (commitPointers_between hgit ⟨scannedRef.commit, commits, hcommits, hcommit⟩)
    fun occurrences _ => Between.pure fun _ h => h

/-- Refs are scanned as they are walked. -/
theorem refPointers_between (hgit : AttributesByTree repository value)
    (scannedRefs : List GitLfsScannedRef) :
    Between HistoryError.IsError (ScannerSound repository value)
      (refPointers repository.toGitObjects (HistoryScanner.commitPointers repository) scannedRefs)
      (walkHistoryRefs repository scannedRefs) (trackedPointers repository value scannedRefs)
      fun _ => ScannerSound repository value := by
  unfold walkHistoryRefs trackedPointers refPointers
  by_cases hempty : scannedRefs = []
  · rw [if_pos hempty, if_pos hempty, if_pos hempty]
    exact Between.pure fun _ h => h
  rw [if_neg hempty, if_neg hempty, if_neg hempty]
  refine Between.bind (Q := fun _ => ScannerSound repository value)
    (Between.lift (fun _ _ _ h => h) (FailsSafely.mapError (fun _ => ⟨_, rfl⟩) _))
    fun _ _ => ?_
  refine Between.bind (Between.foldlM (J := fun _ => ScannerSound repository value)
    (fun scannedRef _ found => scanRef_between hgit found scannedRef) _) fun found _ => ?_
  exact Between.bind (Q := fun _ => ScannerSound repository value)
    (Between.lift (fun _ _ _ h => h) (FailsSafely.mapError (fun _ => ⟨_, rfl⟩) _))
    fun _ _ => Between.pure fun _ h => h

/-- The scan returns what the walk returns, what it returns is what the trees hold, and it does not
panic. -/
theorem scan_between (hgit : AttributesByTree repository value)
    (scannedRefs : List GitLfsScannedRef) :
    (∀ pointers, walkHistoryRefs repository scannedRefs = .ok pointers →
      ∃ metrics, scanResolvedHistoryRefs repository scannedRefs = .ok (pointers, metrics)) ∧
    (∀ pointers metrics, scanResolvedHistoryRefs repository scannedRefs = .ok (pointers, metrics) →
      trackedPointers repository value scannedRefs = .ok pointers) ∧
    ∀ failure, scanResolvedHistoryRefs repository scannedRefs = .error failure →
      failure.IsError := by
  have hrefs := refPointers_between hgit scannedRefs
  have hnew : ScannerSound repository value HistoryScanner.new := scannerSound_new
  refine ⟨fun pointers hpointers => ?_, fun pointers metrics h => ?_, fun failure h => ?_⟩
  · obtain ⟨scanner, hrun⟩ := hrefs.returns hnew hpointers
    unfold scanResolvedHistoryRefs
    rw [hrun]
    by_cases hempty : scannedRefs = []
    · exact ⟨_, if_pos hempty⟩
    · exact ⟨_, if_neg hempty⟩
  · obtain ⟨⟨found, scanner⟩, hrun, h⟩ := except_bind_eq_ok h
    obtain ⟨htracked, _⟩ := hrefs.returned hnew hrun
    dsimp only at h
    split_ifs at h
    all_goals
      obtain ⟨rfl, _⟩ := Prod.mk.inj (Except.ok.inj h)
      exact htracked
  · unfold scanResolvedHistoryRefs at h
    cases hrun : (refPointers repository.toGitObjects (HistoryScanner.commitPointers repository)
        scannedRefs).run HistoryScanner.new with
    | error source =>
      rw [hrun] at h
      obtain rfl := Except.error.inj h
      exact hrefs.fails hnew hrun
    | ok result =>
      rw [hrun] at h
      by_cases hempty : scannedRefs = []
      · cases h.symm.trans (if_pos hempty)
      · cases h.symm.trans (if_neg hempty)

end LfsCloud
