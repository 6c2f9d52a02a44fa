import LfsCloud.Migration.History

/-!
# What a walk finds

A tree has a blob at a path when a chain of entries leads to it. The summary of a tree holds the
blobs with pointers that the tree has, each with its path, whichever way the path is written.
-/

namespace LfsCloud

/-! ## Paths -/

namespace UnixPath

variable {parent path : UnixPath}

/-- The pieces of a path that are not left out. -/
def names (path : UnixPath) : List PathComponent := (path.splitOn 47).filterMap pathComponent

theorem names_append_cons (parent path : UnixPath) :
    names (parent ++ 47 :: path) = names parent ++ names path := by
  unfold names
  rw [List.splitOn_append_cons_self, List.filterMap_append]

/-- A path that does not begin at the root, nor with a dot. -/
def Plain (path : UnixPath) : Prop :=
  UnixPath.isAbsolute path = false ∧ path ≠ [] ∧ (path.splitOn 47).head? ≠ some [46]

theorem Plain.components_eq (h : Plain path) : UnixPath.components path = names path := by
  unfold UnixPath.components names
  dsimp only
  rw [if_neg (by rw [h.1]; exact Bool.false_ne_true), if_neg h.2.2]
  rfl

theorem plain_of_contained (h : Contained path) : Plain path := by
  obtain ⟨habsolute, named, hne, hcomponents⟩ := h
  refine ⟨habsolute, ?_, fun hdot => ?_⟩
  · rintro rfl
    exact hne (List.map_eq_nil_iff.mp hcomponents.symm)
  · unfold UnixPath.components at hcomponents
    dsimp only at hcomponents
    rw [if_neg (by rw [habsolute]; exact Bool.false_ne_true), if_pos hdot] at hcomponents
    cases named with
    | nil => exact hne rfl
    | cons name named => exact PathComponent.noConfusion (List.cons.inj hcomponents).1

/-- A plain path in front of another one. -/
theorem Plain.append_cons (h : Plain parent) (path : UnixPath) :
    Plain (parent ++ 47 :: path) := by
  obtain ⟨habsolute, hne, hdot⟩ := h
  cases parent with
  | nil => exact absurd rfl hne
  | cons byte parent =>
    refine ⟨habsolute, List.cons_ne_nil _ _, ?_⟩
    rw [List.splitOn_append_cons_self]
    cases hpieces : (byte :: parent).splitOn 47 with
    | nil => exact absurd hpieces (List.splitOn_ne_nil _ _)
    | cons piece pieces =>
      rw [hpieces] at hdot
      exact hdot

/-- The components of a path in a directory, with a separator between them. -/
theorem components_append_cons (hparent : Contained parent) (hpath : Contained path) :
    UnixPath.components (parent ++ 47 :: path) =
      UnixPath.components parent ++ UnixPath.components path := by
  rw [(plain_of_contained hparent).components_eq, (plain_of_contained hpath).components_eq,
    ((plain_of_contained hparent).append_cons path).components_eq, names_append_cons]

theorem contained_of_components (hparent : Contained parent) (hpath : Contained path)
    {joined : UnixPath} (habsolute : UnixPath.isAbsolute joined = false)
    (h : UnixPath.components joined = UnixPath.components parent ++ UnixPath.components path) :
    Contained joined := by
  obtain ⟨_, names, hne, hnames⟩ := hparent
  obtain ⟨_, names', _, hnames'⟩ := hpath
  refine ⟨habsolute, names ++ names', fun hempty => hne (List.append_eq_nil_iff.mp hempty).1, ?_⟩
  rw [h, hnames, hnames', List.map_append]

theorem contained_append_cons (hparent : Contained parent) (hpath : Contained path) :
    Contained (parent ++ 47 :: path) :=
  contained_of_components hparent hpath
    ((plain_of_contained hparent).append_cons path).1 (components_append_cons hparent hpath)

/-- The components of a path that is joined to a directory. -/
theorem components_join (hparent : Contained parent) (hpath : Contained path) :
    UnixPath.components (UnixPath.join parent path) =
      UnixPath.components parent ++ UnixPath.components path := by
  obtain ⟨habsolute, hne, hdot⟩ := plain_of_contained hparent
  unfold UnixPath.join
  rw [if_neg (by rw [hpath.1]; exact Bool.false_ne_true)]
  split_ifs with hend
  · have hlast : parent.getLast? = some 47 := hend.resolve_left hne
    obtain ⟨front, rfl⟩ : ∃ front, parent = front ++ [47] := by
      obtain ⟨hnonempty, hlast⟩ := List.getLast?_eq_some_iff.mp hlast
      exact ⟨_, hlast⟩
    have hfront : Plain front := by
      cases front with
      | nil => cases habsolute
      | cons byte front =>
        refine ⟨habsolute, List.cons_ne_nil _ _, fun hhead => hdot ?_⟩
        rw [List.splitOn_append_cons_self, List.head?_append, hhead]
        rfl
    have hparts : names (front ++ [47]) = names front := by
      rw [names_append_cons]
      exact List.append_nil _
    rw [(plain_of_contained hparent).components_eq, hparts,
      (plain_of_contained hpath).components_eq, List.append_assoc, List.singleton_append,
      (hfront.append_cons path).components_eq, names_append_cons]
  · exact components_append_cons hparent hpath

theorem contained_join (hparent : Contained parent) (hpath : Contained path) :
    Contained (UnixPath.join parent path) := by
  refine contained_of_components hparent hpath ?_ (components_join hparent hpath)
  have hplain := plain_of_contained hparent
  unfold UnixPath.join
  rw [if_neg (by rw [hpath.1]; exact Bool.false_ne_true)]
  split_ifs
  · cases parent with
    | nil => exact absurd rfl hplain.2.1
    | cons byte parent => exact hplain.1
  · exact (hplain.append_cons path).1

end UnixPath

variable {repository : HistoryRepository} {treeId objectId : String}
  {entries : List RawGitTreeEntry} {entry : RawGitTreeEntry}
  {summary part : HistoryTreeSummary}

/-! ## Trees -/

/-- A name in a tree that was read is not empty and holds no zero byte. -/
theorem name_of_readTree (h : readTree repository.toGitObjects treeId = .ok entries) :
    ∀ entry ∈ entries, entry.name ≠ [] ∧ 0 ∉ entry.name := by
  obtain ⟨contents, _, hparse⟩ := except_bind_eq_ok h
  have hparsed := mapError_eq_ok hparse
  unfold parseRawGitTree at hparsed
  dsimp only at hparsed
  split_ifs at hparsed
  cases hall : (rawGitTreeReader (treeId.utf8ByteSize / 2)).readAll contents with
  | none =>
    rw [hall] at hparsed
    cases hparsed
  | some found =>
    rw [hall] at hparsed
    obtain rfl := Except.ok.inj hparsed
    obtain ⟨encoded, _, rfl⟩ := rawGitTreeReader_inverts.readAll_eq_some.mp hall
    intro entry hentry
    obtain ⟨source, _, rfl⟩ := List.mem_map.mp hentry
    exact ⟨source.name_ne_nil, source.name_nul⟩

/-- What a tree has in front of what another one has. -/
def HistoryTreeSummary.append (summary part : HistoryTreeSummary) : HistoryTreeSummary :=
  ⟨summary.pointerBlobs ++ part.pointerBlobs, summary.attributeBlobs ++ part.attributeBlobs⟩

/-- What an entry adds to the summary of its tree. -/
inductive EntrySummary (repository : HistoryRepository) (entry : RawGitTreeEntry) :
    HistoryTreeSummary → Prop
  | tree {child : HistoryTreeSummary} (hmode : entry.mode = treeMode)
      (hchild : walkTreeSummary repository entry.objectId = .ok child) :
      EntrySummary repository entry
        (appendPrefixedTreeSummary ⟨[], []⟩ entry.name entry.name child)
  | commit (hmode : entry.mode = commitMode) : EntrySummary repository entry ⟨[], []⟩
  | blob {pointer : Option LfsPointer} (hmode : entry.mode ∈ blobModes)
      (hpointer : readPointerBlobCandidate repository.toGitObjects entry.objectId = .ok pointer) :
      EntrySummary repository entry
        ⟨if pointer.isSome then [⟨entry.objectId, entry.name, entry.name⟩] else [],
          if entry.name = gitattributesName then [(entry.name, entry.objectId)] else []⟩

/-- A turn of the loop over the entries. -/
theorem summarizeEntry_ok {commandName : String} {summary' : HistoryTreeSummary}
    (h : summarizeEntry (m := Except HistoryError) (walkTreeSummary repository)
      (readPointerBlobCandidate repository.toGitObjects) commandName summary entry =
        .ok summary') :
    Contained entry.name ∧ ∃ part, EntrySummary repository entry part ∧
      summary' = summary.append part := by
  obtain ⟨relativePath, hsafe, h⟩ := except_bind_eq_ok h
  have hname := mapError_eq_ok hsafe
  unfold safeGitRelativePath at hname
  split_ifs at hname with hcontained
  obtain rfl := Except.ok.inj hname
  refine ⟨isContained_iff.mp hcontained, ?_⟩
  dsimp only at h
  by_cases htree : entry.mode = treeMode
  · rw [if_pos htree] at h
    obtain ⟨child, hchild, h⟩ := except_bind_eq_ok h
    obtain rfl := Except.ok.inj h
    exact ⟨_, .tree htree hchild, rfl⟩
  rw [if_neg htree] at h
  by_cases hcommit : entry.mode = commitMode
  · rw [if_pos hcommit] at h
    obtain rfl := Except.ok.inj h
    refine ⟨_, .commit hcommit, ?_⟩
    unfold HistoryTreeSummary.append
    rw [List.append_nil, List.append_nil]
  rw [if_neg hcommit] at h
  by_cases hblob : entry.mode ∈ blobModes
  · rw [if_neg (not_not.mpr hblob)] at h
    obtain ⟨pointer, hpointer, h⟩ := except_bind_eq_ok h
    refine ⟨_, .blob hblob hpointer, ?_⟩
    unfold HistoryTreeSummary.append
    have hattributes : (if entry.name = gitattributesName
        then summary.attributeBlobs ++ [(entry.name, entry.objectId)]
        else summary.attributeBlobs) = summary.attributeBlobs ++
          if entry.name = gitattributesName then [(entry.name, entry.objectId)] else [] := by
      split_ifs
      · rfl
      · rw [List.append_nil]
    cases pointer with
    | some pointer =>
      obtain rfl := Except.ok.inj h
      rw [hattributes]
      rfl
    | none =>
      obtain rfl := Except.ok.inj h
      rw [hattributes, Option.isSome_none, if_neg Bool.false_ne_true, List.append_nil]
  · rw [if_pos hblob] at h
    cases h

/-- Only an entry for a tree is looked up as one. -/
theorem summarizeEntry_congr {f g : String → Except HistoryError HistoryTreeSummary}
    {pointerOf : String → Except HistoryError (Option LfsPointer)} {commandName : String}
    (h : entry.mode = treeMode → f entry.objectId = g entry.objectId) :
    summarizeEntry f pointerOf commandName summary entry =
      summarizeEntry g pointerOf commandName summary entry := by
  unfold summarizeEntry
  by_cases htree : entry.mode = treeMode
  · rw [h htree]
  · simp only [if_neg htree]

/-- A walk that goes deep enough does not depend on how deep it may go. -/
theorem walkTree_eq {n k : ℕ} (hn : repository.depth treeId < n)
    (hk : repository.depth treeId < k) :
    walkTree repository n treeId = walkTree repository k treeId := by
  induction n generalizing k treeId with
  | zero => omega
  | succ n ih =>
    cases k with
    | zero => omega
    | succ k =>
      unfold walkTree
      cases hread : readTree repository.toGitObjects treeId with
      | error error => rfl
      | ok entries =>
        have hloop : ∀ entry ∈ entries, ∀ summary,
            summarizeEntry (walkTree repository n)
              (readPointerBlobCandidate repository.toGitObjects) (treeCommandName treeId)
              summary entry =
            summarizeEntry (walkTree repository k)
              (readPointerBlobCandidate repository.toGitObjects) (treeCommandName treeId)
              summary entry := by
          intro entry hentry summary
          refine summarizeEntry_congr fun htree => ?_
          have hless := repository.depth_lt hread entry hentry htree
          exact ih (by omega) (by omega)
        exact congrArg (· >>= fun summary => pure summary.sorted)
          (foldlM_congr_mem hloop ⟨[], []⟩)

/-- The summary of a tree is made of the summaries of its trees. -/
theorem walkTreeSummary_eq : walkTreeSummary repository treeId = do
    let entries ← readTree repository.toGitObjects treeId
    let summary ← entries.foldlM (summarizeEntry (walkTreeSummary repository)
      (readPointerBlobCandidate repository.toGitObjects) (treeCommandName treeId)) ⟨[], []⟩
    return summary.sorted := by
  change walkTree repository (repository.depth treeId + 1) treeId = _
  unfold walkTree
  cases hread : readTree repository.toGitObjects treeId with
  | error error => rfl
  | ok entries =>
    have hloop : ∀ entry ∈ entries, ∀ summary,
        summarizeEntry (walkTree repository (repository.depth treeId))
          (readPointerBlobCandidate repository.toGitObjects) (treeCommandName treeId)
          summary entry =
        summarizeEntry (walkTreeSummary repository)
          (readPointerBlobCandidate repository.toGitObjects) (treeCommandName treeId)
          summary entry := by
      intro entry hentry summary
      refine summarizeEntry_congr fun htree => ?_
      have hless := repository.depth_lt hread entry hentry htree
      exact walkTree_eq hless (Nat.lt_succ_self _)
    exact congrArg (· >>= fun summary => pure summary.sorted) (foldlM_congr_mem hloop ⟨[], []⟩)

/-- A summary holds what entries add to another one, and nothing else. -/
structure Gathered (repository : HistoryRepository) (entries : List RawGitTreeEntry)
    (start summary : HistoryTreeSummary) : Prop where
  pointers_start : start.pointerBlobs ⊆ summary.pointerBlobs
  attributes_start : start.attributeBlobs ⊆ summary.attributeBlobs
  added : ∀ entry ∈ entries, Contained entry.name ∧ ∃ part, EntrySummary repository entry part ∧
    part.pointerBlobs ⊆ summary.pointerBlobs ∧ part.attributeBlobs ⊆ summary.attributeBlobs
  pointers : ∀ blob ∈ summary.pointerBlobs, blob ∈ start.pointerBlobs ∨
    ∃ entry ∈ entries, ∃ part, EntrySummary repository entry part ∧ blob ∈ part.pointerBlobs
  attributes : ∀ blob ∈ summary.attributeBlobs, blob ∈ start.attributeBlobs ∨
    ∃ entry ∈ entries, ∃ part, EntrySummary repository entry part ∧ blob ∈ part.attributeBlobs

/-- The loop over the entries gathers what they add. -/
theorem gathered_of_foldlM {commandName : String} {start : HistoryTreeSummary}
    (h : entries.foldlM (summarizeEntry (walkTreeSummary repository)
      (readPointerBlobCandidate repository.toGitObjects) commandName) start = .ok summary) :
    Gathered repository entries start summary := by
  induction entries generalizing start with
  | nil =>
    obtain rfl := Except.ok.inj h
    exact ⟨List.Subset.refl _, List.Subset.refl _, fun _ hentry => absurd hentry List.not_mem_nil,
      fun _ hblob => .inl hblob, fun _ hblob => .inl hblob⟩
  | cons entry entries ih =>
    rw [List.foldlM_cons] at h
    obtain ⟨middle, hentry, h⟩ := except_bind_eq_ok h
    obtain ⟨hcontained, part, hpart, rfl⟩ := summarizeEntry_ok hentry
    obtain ⟨hpointers, hattributes, hadded, hpointer, hattribute⟩ := ih h
    obtain ⟨hstart, hadds⟩ := List.append_subset.mp hpointers
    obtain ⟨hstart', hadds'⟩ := List.append_subset.mp hattributes
    refine ⟨hstart, hstart', ?_, ?_, ?_⟩
    · exact List.forall_mem_cons.mpr ⟨⟨hcontained, part, hpart, hadds, hadds'⟩, hadded⟩
    · intro blob hblob
      rcases hpointer blob hblob with hmiddle | ⟨other, hother, hfound⟩
      · rcases List.mem_append.mp hmiddle with hold | hnew
        · exact .inl hold
        · exact .inr ⟨entry, List.mem_cons_self, part, hpart, hnew⟩
      · exact .inr ⟨other, List.mem_cons_of_mem _ hother, hfound⟩
    · intro blob hblob
      rcases hattribute blob hblob with hmiddle | ⟨other, hother, hfound⟩
      · rcases List.mem_append.mp hmiddle with hold | hnew
        · exact .inl hold
        · exact .inr ⟨entry, List.mem_cons_self, part, hpart, hnew⟩
      · exact .inr ⟨other, List.mem_cons_of_mem _ hother, hfound⟩

/-- A summary holds what the entries of its tree add to it. -/
theorem walkTreeSummary_ok (h : walkTreeSummary repository treeId = .ok summary) :
    ∃ entries, readTree repository.toGitObjects treeId = .ok entries ∧
      Gathered repository entries ⟨[], []⟩ summary := by
  rw [walkTreeSummary_eq] at h
  obtain ⟨entries, hread, h⟩ := except_bind_eq_ok h
  obtain ⟨unsorted, hloop, h⟩ := except_bind_eq_ok h
  obtain rfl := Except.ok.inj h
  obtain ⟨hpointers, hattributes, hadded, hpointer, hattribute⟩ := gathered_of_foldlM hloop
  have hperm : unsorted.sorted.pointerBlobs.Perm unsorted.pointerBlobs := List.mergeSort_perm _ _
  have hperm' : unsorted.sorted.attributeBlobs.Perm unsorted.attributeBlobs :=
    List.mergeSort_perm _ _
  refine ⟨entries, hread, List.nil_subset _, List.nil_subset _, fun entry hentry => ?_,
    fun blob hblob => hpointer blob (hperm.subset hblob),
    fun blob hblob => hattribute blob (hperm'.subset hblob)⟩
  obtain ⟨hcontained, part, hpart, hadds, hadds'⟩ := hadded entry hentry
  exact ⟨hcontained, part, hpart, List.Subset.trans hadds hperm.symm.subset,
    List.Subset.trans hadds' hperm'.symm.subset⟩

/-! ## Blobs of a tree -/

/-- A tree has a blob with a name at a path: a chain of entries leads to it. -/
inductive TreeHas (repository : HistoryRepository) :
    String → List PathComponent → List UInt8 → String → Prop
  | blob {treeId : String} {entries : List RawGitTreeEntry} {entry : RawGitTreeEntry}
      (hread : readTree repository.toGitObjects treeId = .ok entries) (hentry : entry ∈ entries)
      (hmode : entry.mode ∈ blobModes) :
      TreeHas repository treeId (UnixPath.components entry.name) entry.name entry.objectId
  | tree {treeId objectId : String} {entries : List RawGitTreeEntry} {entry : RawGitTreeEntry}
      {path : List PathComponent} {name : List UInt8}
      (hread : readTree repository.toGitObjects treeId = .ok entries) (hentry : entry ∈ entries)
      (hmode : entry.mode = treeMode)
      (hrest : TreeHas repository entry.objectId path name objectId) :
      TreeHas repository treeId (UnixPath.components entry.name ++ path) name objectId

/-- A blob of a summary: its path, both ways that it is written, and where the tree has it. -/
structure Placed (repository : HistoryRepository) (treeId : String) (blob : GitTreeBlob) :
    Prop where
  contained : Contained blob.relativePath
  contained_bytes : Contained blob.relativePathBytes
  bytes : UnixPath.components blob.relativePathBytes = UnixPath.components blob.relativePath
  bytes_nul : 0 ∉ blob.relativePathBytes
  has : ∃ name, TreeHas repository treeId (UnixPath.components blob.relativePath) name
    blob.objectId
  pointer : ∃ pointer, readPointerBlobCandidate repository.toGitObjects blob.objectId =
    .ok (some pointer)

/-- The blobs of a summary are in its tree. -/
theorem placed_of_walkTreeSummary (h : walkTreeSummary repository treeId = .ok summary) :
    ∀ blob ∈ summary.pointerBlobs, Placed repository treeId blob := by
  induction hdepth : repository.depth treeId using Nat.strong_induction_on
    generalizing treeId summary with
  | _ depth ih =>
    obtain ⟨entries, hread, hgathered⟩ := walkTreeSummary_ok h
    intro blob hblob
    obtain ⟨entry, hentry, part, hpart, hblob⟩ :=
      (hgathered.pointers blob hblob).resolve_left List.not_mem_nil
    obtain ⟨hcontained, _⟩ := hgathered.added entry hentry
    obtain ⟨hname, hnul⟩ := name_of_readTree hread entry hentry
    cases hpart with
    | tree hmode hchild =>
      obtain ⟨inner, hinner, rfl⟩ := List.mem_map.mp hblob
      have hless := repository.depth_lt hread entry hentry hmode
      obtain ⟨hpath, hbytes, hsame, hfree, ⟨name, hhas⟩, hpointer⟩ :=
        ih _ (hdepth ▸ hless) hchild rfl inner hinner
      have hjoin := UnixPath.components_join hcontained hpath
      refine ⟨UnixPath.contained_join hcontained hpath,
        UnixPath.contained_append_cons hcontained hbytes, ?_, ?_, ⟨name, ?_⟩, hpointer⟩
      · dsimp only
        rw [UnixPath.components_append_cons hcontained hbytes, hjoin, hsame]
      · simp only [List.mem_append, List.mem_cons, not_or]
        exact ⟨hnul, by decide, hfree⟩
      · dsimp only
        rw [hjoin]
        exact .tree hread hentry hmode hhas
    | commit hmode => exact absurd hblob List.not_mem_nil
    | @blob pointer hmode hpointer =>
      cases pointer with
      | none => exact absurd hblob List.not_mem_nil
      | some pointer =>
        obtain rfl := List.mem_singleton.mp hblob
        exact ⟨hcontained, hcontained, rfl, hnul, ⟨entry.name, .blob hread hentry hmode⟩,
          ⟨pointer, hpointer⟩⟩

/-- An entry for a blob is neither for a tree nor for a commit. -/
theorem blob_of_mode {mode : List UInt8} (h : mode ∈ blobModes) :
    mode ≠ treeMode ∧ mode ≠ commitMode := by
  constructor
  · rintro rfl
    exact absurd h (by decide)
  · rintro rfl
    exact absurd h (by decide)

/-- A blob of a tree was inspected, and is in the summary where it is a pointer. -/
theorem mem_walkTreeSummary {path : List PathComponent} {name : List UInt8}
    (hhas : TreeHas repository treeId path name objectId)
    (h : walkTreeSummary repository treeId = .ok summary) :
    ∃ pointer, readPointerBlobCandidate repository.toGitObjects objectId = .ok pointer ∧
      (pointer.isSome = true → ∃ blob ∈ summary.pointerBlobs,
        UnixPath.components blob.relativePath = path ∧ blob.objectId = objectId) := by
  induction hhas generalizing summary with
  | @blob treeId entries entry hread hentry hmode =>
    obtain ⟨entries', hread', hgathered⟩ := walkTreeSummary_ok h
    obtain rfl := Except.ok.inj (hread.symm.trans hread')
    obtain ⟨_, part, hpart, hadds, _⟩ := hgathered.added entry hentry
    cases hpart with
    | tree htree => exact absurd htree (blob_of_mode hmode).1
    | commit hcommit => exact absurd hcommit (blob_of_mode hmode).2
    | @blob pointer _ hpointer =>
      refine ⟨pointer, hpointer, fun hsome =>
        ⟨⟨entry.objectId, entry.name, entry.name⟩, hadds ?_, rfl, rfl⟩⟩
      rw [if_pos hsome]
      exact List.mem_singleton_self _
  | @tree treeId objectId entries entry path name hread hentry hmode hrest ih =>
    obtain ⟨entries', hread', hgathered⟩ := walkTreeSummary_ok h
    obtain rfl := Except.ok.inj (hread.symm.trans hread')
    obtain ⟨hcontained, part, hpart, hadds, _⟩ := hgathered.added entry hentry
    cases hpart with
    | commit hcommit => exact absurd (hmode.symm.trans hcommit) (by decide)
    | blob hblob => exact absurd hmode (blob_of_mode hblob).1
    | tree _ hchild =>
      obtain ⟨pointer, hpointer, hfound⟩ := ih hchild
      refine ⟨pointer, hpointer, fun hsome => ?_⟩
      obtain ⟨blob, hblob, hpath, hid⟩ := hfound hsome
      have hplaced := placed_of_walkTreeSummary hchild blob hblob
      refine ⟨_, hadds (List.mem_map.mpr ⟨blob, hblob, rfl⟩), ?_, hid⟩
      rw [UnixPath.components_join hcontained hplaced.contained, hpath]

/-- A file of attributes in a summary is in its tree. -/
theorem attributes_placed (h : walkTreeSummary repository treeId = .ok summary) :
    ∀ blob ∈ summary.attributeBlobs, Contained blob.1 ∧
      TreeHas repository treeId (UnixPath.components blob.1) gitattributesName blob.2 := by
  induction hdepth : repository.depth treeId using Nat.strong_induction_on
    generalizing treeId summary with
  | _ depth ih =>
    obtain ⟨entries, hread, hgathered⟩ := walkTreeSummary_ok h
    intro blob hblob
    obtain ⟨entry, hentry, part, hpart, hblob⟩ :=
      (hgathered.attributes blob hblob).resolve_left List.not_mem_nil
    obtain ⟨hcontained, _⟩ := hgathered.added entry hentry
    cases hpart with
    | tree hmode hchild =>
      obtain ⟨inner, hinner, rfl⟩ := List.mem_map.mp hblob
      have hless := repository.depth_lt hread entry hentry hmode
      obtain ⟨hpath, hhas⟩ := ih _ (hdepth ▸ hless) hchild rfl inner hinner
      refine ⟨UnixPath.contained_join hcontained hpath, ?_⟩
      dsimp only
      rw [UnixPath.components_join hcontained hpath]
      exact .tree hread hentry hmode hhas
    | commit hmode => exact absurd hblob List.not_mem_nil
    | blob hmode hpointer =>
      dsimp only at hblob
      split_ifs at hblob with hname
      · obtain rfl := List.mem_singleton.mp hblob
        rw [← hname]
        exact ⟨hcontained, .blob hread hentry hmode⟩
      · exact absurd hblob List.not_mem_nil

/-- A file of attributes in a tree is in its summary. -/
theorem mem_attributes {path : List PathComponent} {name : List UInt8}
    (hhas : TreeHas repository treeId path name objectId) (hname : name = gitattributesName)
    (h : walkTreeSummary repository treeId = .ok summary) :
    ∃ blob ∈ summary.attributeBlobs, UnixPath.components blob.1 = path ∧ blob.2 = objectId := by
  induction hhas generalizing summary with
  | @blob treeId entries entry hread hentry hmode =>
    obtain ⟨entries', hread', hgathered⟩ := walkTreeSummary_ok h
    obtain rfl := Except.ok.inj (hread.symm.trans hread')
    obtain ⟨_, part, hpart, _, hadds⟩ := hgathered.added entry hentry
    cases hpart with
    | tree htree => exact absurd htree (blob_of_mode hmode).1
    | commit hcommit => exact absurd hcommit (blob_of_mode hmode).2
    | blob _ hpointer =>
      refine ⟨(entry.name, entry.objectId), hadds ?_, rfl, rfl⟩
      rw [if_pos hname]
      exact List.mem_singleton_self _
  | @tree treeId objectId entries entry path name hread hentry hmode hrest ih =>
    obtain ⟨entries', hread', hgathered⟩ := walkTreeSummary_ok h
    obtain rfl := Except.ok.inj (hread.symm.trans hread')
    obtain ⟨hcontained, part, hpart, _, hadds⟩ := hgathered.added entry hentry
    cases hpart with
    | commit hcommit => exact absurd (hmode.symm.trans hcommit) (by decide)
    | blob hblob => exact absurd hmode (blob_of_mode hblob).1
    | tree _ hchild =>
      obtain ⟨blob, hblob, hpath, hid⟩ := ih hname hchild
      refine ⟨_, hadds (List.mem_map.mpr ⟨blob, hblob, rfl⟩), ?_, hid⟩
      rw [UnixPath.components_join hcontained (attributes_placed hchild blob hblob).1, hpath]

/-- The attributes of a summary are those of its tree. -/
theorem attributes_of_walkTreeSummary (h : walkTreeSummary repository treeId = .ok summary)
    (path : List PathComponent) (objectId : String) :
    (path, objectId) ∈ summary.queryKey.attributeBlobs ↔
      TreeHas repository treeId path gitattributesName objectId := by
  constructor
  · intro hmem
    obtain ⟨blob, hblob, heq⟩ := List.mem_map.mp hmem
    obtain ⟨rfl, rfl⟩ := Prod.mk.inj heq
    exact (attributes_placed h blob hblob).2
  · intro hhas
    obtain ⟨blob, hblob, rfl, rfl⟩ := mem_attributes hhas rfl h
    exact List.mem_map.mpr ⟨blob, hblob, rfl⟩

/-! ## Attributes -/

/-- A commit that Git lists. -/
def Listed (repository : HistoryRepository) (commit : GitHistoryCommit) : Prop :=
  ∃ root commits, revListCommits repository.toGitObjects root = .ok commits ∧ commit ∈ commits

/-- Paths as Git takes them. -/
def pathList (paths : List UnixPath) : List UInt8 := paths.flatMap fun path => path ++ [0]

/-- What Git writes for paths whose filters have values. -/
def filterAnswers (value : List PathComponent → List UInt8) (paths : List UnixPath) : List UInt8 :=
  paths.flatMap fun path =>
    path ++ 0 :: (filterBytes ++ 0 :: value (UnixPath.components path)) ++ [0]

/-- What is documented of Git: a commit has one tree, and the filter of a path in a commit is a
value that depends on the files of attributes in this tree, and on no other. -/
structure AttributesByTree (repository : HistoryRepository)
    (value : String → List PathComponent → List UInt8) : Prop where
  tree_eq : ∀ {commit other : GitHistoryCommit}, Listed repository commit →
    Listed repository other → commit.objectId = other.objectId → commit.treeId = other.treeId
  value_nul : ∀ treeId path, 0 ∉ value treeId path
  answers : ∀ {commit : GitHistoryCommit} {paths : List UnixPath} {stdout : List UInt8},
    Listed repository commit → (∀ path ∈ paths, path ≠ [] ∧ 0 ∉ path) →
    repository.checkAttr commit.objectId (pathList paths) = .ok stdout →
    stdout = filterAnswers (value commit.treeId) paths
  same_attributes : ∀ {treeId other : String}, (∀ path objectId,
      TreeHas repository treeId path gitattributesName objectId ↔
        TreeHas repository other path gitattributesName objectId) →
    value treeId = value other

variable {value : String → List PathComponent → List UInt8} {commit : GitHistoryCommit}

/-- The paths whose filter is LFS. -/
def lfsFiltered (value : List PathComponent → List UInt8) (paths : List (List PathComponent)) :
    List (List PathComponent) := paths.filter fun path => value path = lfsBytes

/-- The answers of Git are triples. -/
theorem exists_triples_filterAnswers {value : List PathComponent → List UInt8}
    (hvalue : ∀ path, 0 ∉ value path) {paths : List UnixPath}
    (hpaths : ∀ path ∈ paths, Contained path ∧ 0 ∉ path) :
    ∃ triples, filterAnswers value paths = encodeTriples triples ∧ LfsContained triples ∧
      (lfsPaths triples).map UnixPath.components =
        lfsFiltered value (paths.map UnixPath.components) := by
  induction paths with
  | nil => exact ⟨[], rfl, fun _ htriple => absurd htriple List.not_mem_nil, rfl⟩
  | cons path paths ih =>
    obtain ⟨⟨hcontained, hnul⟩, hrest⟩ := List.forall_mem_cons.mp hpaths
    obtain ⟨triples, hencode, hlfs, hmap⟩ := ih hrest
    let triple : AttributeTriple := ⟨path, filterBytes, value (UnixPath.components path),
      (UnixPath.plain_of_contained hcontained).2.1, hnul, by decide, hvalue _⟩
    refine ⟨triple :: triples, ?_, List.forall_mem_cons.mpr ⟨fun _ => hcontained, hlfs⟩, ?_⟩
    · unfold filterAnswers encodeTriples at *
      rw [List.flatMap_cons, List.flatMap_cons, hencode]
      rfl
    · unfold lfsFiltered at *
      rw [lfsPaths_cons, List.map_cons, List.filter_cons, ← hmap]
      by_cases h : value (UnixPath.components path) = lfsBytes
      · rw [if_pos (show triple.IsLfs from ⟨rfl, h⟩), if_pos (decide_eq_true h)]
        rfl
      · rw [if_neg (fun hlfs : triple.IsLfs => h hlfs.2), if_neg (by simpa using h)]

/-- A process adds the paths whose filter is LFS. -/
theorem appendGitCheckAttrLfsPaths_ok (hgit : AttributesByTree repository value)
    (hlisted : Listed repository commit) {pending : List UnixPath}
    (hpending : ∀ path ∈ pending, Contained path ∧ 0 ∉ path)
    {lfsPaths paths : List (List PathComponent)}
    (h : appendGitCheckAttrLfsPaths repository.toGitObjects commit.objectId (pathList pending)
      lfsPaths = .ok paths) :
    paths = lfsPaths ++ lfsFiltered (value commit.treeId) (pending.map UnixPath.components) := by
  obtain ⟨stdout, hanswer, h⟩ := except_bind_eq_ok h
  obtain ⟨found, hparse, h⟩ := except_bind_eq_ok h
  obtain rfl := Except.ok.inj h
  have hanswer := mapError_eq_ok hanswer
  have hstdout := hgit.answers hlisted (fun path hpath =>
    ⟨(UnixPath.plain_of_contained (hpending path hpath).1).2.1, (hpending path hpath).2⟩) hanswer
  obtain ⟨triples, hencode, hlfs, hmap⟩ :=
    exists_triples_filterAnswers (hgit.value_nul commit.treeId) hpending
  have hparsed : parseLfsFilterAttributePaths (encodeTriples triples) = .ok found := by
    rw [← hencode, ← hstdout]
    exact mapError_eq_ok hparse
  rw [← hmap, Except.ok.inj ((parse_encodeTriples hlfs).symm.trans hparsed)]

/-- The loop over the blobs finds the paths whose filter is LFS, in as many processes as it
takes. -/
theorem checkAttrLoop_ok (hgit : AttributesByTree repository value)
    (hlisted : Listed repository commit) {blobs : List GitTreeBlob}
    (hplaced : ∀ blob ∈ blobs, Placed repository treeId blob) {pending : List UnixPath}
    (hpending : ∀ path ∈ pending, Contained path ∧ 0 ∉ path)
    {lfsPaths paths : List (List PathComponent)} {processCount count : ℕ}
    (h : checkAttrLoop repository.toGitObjects commit.objectId blobs (pathList pending) lfsPaths
      processCount = .ok (paths, count)) :
    paths = lfsPaths ++ lfsFiltered (value commit.treeId) (pending.map UnixPath.components ++
      blobs.map fun blob => UnixPath.components blob.relativePath) := by
  induction blobs generalizing pending lfsPaths processCount with
  | nil =>
    unfold checkAttrLoop at h
    split_ifs at h with hempty
    · obtain ⟨rfl, _⟩ := Prod.mk.inj (Except.ok.inj h)
      cases pending with
      | nil =>
        unfold lfsFiltered
        rw [List.map_nil, List.map_nil, List.append_nil, List.filter_nil, List.append_nil]
      | cons path pending => exact absurd hempty (by simp [pathList])
    · obtain ⟨found, hfound, h⟩ := except_bind_eq_ok h
      obtain ⟨rfl, _⟩ := Prod.mk.inj (Except.ok.inj h)
      rw [appendGitCheckAttrLfsPaths_ok hgit hlisted hpending hfound, List.map_nil,
        List.append_nil]
  | cons blob blobs ih =>
    obtain ⟨hblob, hrest⟩ := List.forall_mem_cons.mp hplaced
    have hbytes : Contained blob.relativePathBytes ∧ 0 ∉ blob.relativePathBytes :=
      ⟨hblob.contained_bytes, hblob.bytes_nul⟩
    unfold checkAttrLoop at h
    dsimp only at h
    split_ifs at h with hlarge hfull
    · obtain ⟨found, hfound, h⟩ := except_bind_eq_ok h
      have hone : pathList [blob.relativePathBytes] = blob.relativePathBytes ++ [0] :=
        List.flatMap_singleton _ _
      rw [← hone] at h
      rw [ih hrest (by simpa using hbytes) h,
        appendGitCheckAttrLfsPaths_ok hgit hlisted hpending hfound]
      unfold lfsFiltered
      rw [List.append_assoc, ← List.filter_append, List.map_singleton, hblob.bytes,
        List.singleton_append, List.map_cons]
    · have hmore : pathList (pending ++ [blob.relativePathBytes]) =
          pathList pending ++ (blob.relativePathBytes ++ [0]) := by
        unfold pathList
        rw [List.flatMap_append, List.flatMap_singleton]
      rw [← hmore] at h
      have hpending' : ∀ path ∈ pending ++ [blob.relativePathBytes],
          Contained path ∧ 0 ∉ path := by
        intro path hpath
        rcases List.mem_append.mp hpath with hold | hnew
        · exact hpending path hold
        · rwa [List.mem_singleton.mp hnew]
      rw [ih hrest hpending' h, List.map_append, List.map_singleton, hblob.bytes,
        List.append_assoc, List.singleton_append, List.map_cons]

/-- The paths with the filter of LFS in a commit are those of the summary of its tree. -/
theorem gitCheckAttrLfsPaths_ok (hgit : AttributesByTree repository value)
    (hlisted : Listed repository commit)
    (hsummary : walkTreeSummary repository commit.treeId = .ok summary)
    {paths : List (List PathComponent)} {count : ℕ}
    (h : gitCheckAttrLfsPathsForTreeBlobs repository.toGitObjects summary.pointerBlobs
      commit.objectId = .ok (paths, count)) :
    paths = lfsFiltered (value commit.treeId) summary.queryKey.pointerPaths := by
  have hpending : ∀ path ∈ ([] : List UnixPath), Contained path ∧ 0 ∉ path :=
    fun _ hpath => absurd hpath List.not_mem_nil
  exact checkAttrLoop_ok hgit hlisted (placed_of_walkTreeSummary hsummary) hpending h

/-- Trees with the same key have the same filters. -/
theorem value_eq_of_queryKey (hgit : AttributesByTree repository value) {other : String}
    {otherSummary : HistoryTreeSummary} (h : walkTreeSummary repository treeId = .ok summary)
    (hother : walkTreeSummary repository other = .ok otherSummary)
    (hkey : summary.queryKey = otherSummary.queryKey) : value treeId = value other := by
  refine hgit.same_attributes fun path objectId => ?_
  rw [← attributes_of_walkTreeSummary h, ← attributes_of_walkTreeSummary hother, hkey]

end LfsCloud
