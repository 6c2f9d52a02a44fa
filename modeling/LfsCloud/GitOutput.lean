import LfsCloud.Lib.Records
import LfsCloud.Lib.Results

/-!
# Paths in the output of Git

`git check-attr -z` lists paths with an attribute and its value, each behind a zero byte. The paths
that the filter of LFS applies to are taken from it. A list whose last zero byte is missing is
taken for a whole one.
-/

namespace LfsCloud

/-! ## The parser -/

/-- A path as Unix has it. -/
abbrev UnixPath := List UInt8

/-- `Component`. -/
inductive PathComponent
  | rootDir
  | curDir
  | parentDir
  | normal (name : List UInt8)
  deriving DecidableEq

/-- A component behind the first one; an empty one and a dot are left out. -/
def pathComponent (piece : List UInt8) : Option PathComponent :=
  if piece = [] ∨ piece = [46] then none
  else if piece = [46, 46] then some .parentDir
  else some (.normal piece)

/-- `is_absolute`. -/
def UnixPath.isAbsolute (path : UnixPath) : Bool := path.head? = some 47

/-- `components`: a dot in the first place is kept. -/
def UnixPath.components (path : UnixPath) : List PathComponent :=
  let pieces := path.splitOn 47
  (if UnixPath.isAbsolute path then [.rootDir] else if pieces.head? = some [46] then [.curDir]
    else []) ++ pieces.filterMap pathComponent

/-- `GitPathOutputError`. -/
inductive GitPathOutputError
  | malformedAttributeOutput
  | pathOutsideWorktree
  deriving DecidableEq

/-- `Component::Normal`. -/
def PathComponent.isNormal : PathComponent → Bool
  | .normal _ => true
  | _ => false

/-- What `safe_git_relative_path` asks for. -/
def isContained (path : UnixPath) : Bool :=
  !UnixPath.isAbsolute path && !(UnixPath.components path).isEmpty &&
    (UnixPath.components path).all PathComponent.isNormal

/-- `safe_git_relative_path`. -/
def safeGitRelativePath (relativePath : List UInt8) : Except GitPathOutputError UnixPath :=
  if isContained relativePath then .ok relativePath else .error .pathOutsideWorktree

/-- The bytes of `filter` and of `lfs`. -/
def filterBytes : List UInt8 := [102, 105, 108, 116, 101, 114]
def lfsBytes : List UInt8 := [108, 102, 115]

/-- The loop over the fields. -/
def lfsFilterPaths : List (List UInt8) → Except GitPathOutputError (List UnixPath)
  | [] => .ok []
  | relativePath :: fields =>
    if relativePath = [] then
      if fields = [] then .ok [] else .error .malformedAttributeOutput
    else
      match fields with
      | attr :: value :: fields =>
        if attr = filterBytes ∧ value = lfsBytes then do
          let path ← safeGitRelativePath relativePath
          (lfsFilterPaths fields).map (path :: ·)
        else lfsFilterPaths fields
      | _ => .error .malformedAttributeOutput

/-- `parse_lfs_filter_attribute_paths`. -/
def parseLfsFilterAttributePaths (stdout : List UInt8) :
    Except GitPathOutputError (List UnixPath) :=
  lfsFilterPaths (stdout.splitOn 0)

/-! ## Triples -/

/-- A path with an attribute and its value. -/
structure AttributeTriple where
  path : List UInt8
  attr : List UInt8
  value : List UInt8
  path_ne_nil : path ≠ []
  path_nul : 0 ∉ path
  attr_nul : 0 ∉ attr
  value_nul : 0 ∉ value

namespace AttributeTriple

/-- The filter of the path is LFS. -/
def IsLfs (triple : AttributeTriple) : Prop :=
  triple.attr = filterBytes ∧ triple.value = lfsBytes

instance : DecidablePred IsLfs := fun _ => inferInstanceAs (Decidable (_ ∧ _))

/-- The triple without its last zero byte. -/
def cutText (triple : AttributeTriple) : List UInt8 :=
  triple.path ++ 0 :: (triple.attr ++ 0 :: triple.value)

/-- The fields of the triple. -/
def fields (triple : AttributeTriple) : List (List UInt8) :=
  [triple.path, triple.attr, triple.value]

end AttributeTriple

/-- What Git writes for a list of triples. -/
def encodeTriples (triples : List AttributeTriple) : List UInt8 :=
  triples.flatMap fun triple => triple.cutText ++ [0]

/-- The paths whose filter is LFS. -/
def lfsPaths (triples : List AttributeTriple) : List UnixPath :=
  (triples.filter AttributeTriple.IsLfs).map AttributeTriple.path

/-- A path that is relative and stays where it begins. -/
def Contained (path : UnixPath) : Prop :=
  UnixPath.isAbsolute path = false ∧
    ∃ names : List (List UInt8), names ≠ [] ∧
      UnixPath.components path = names.map PathComponent.normal

/-- The paths that are returned are contained. -/
def LfsContained (triples : List AttributeTriple) : Prop :=
  ∀ triple ∈ triples, triple.IsLfs → Contained triple.path

variable {path : UnixPath} {paths : List UnixPath} {triples : List AttributeTriple}

/-- Normal components are names. -/
theorem exists_names {components : List PathComponent}
    (h : ∀ component ∈ components, component.isNormal = true) :
    ∃ names : List (List UInt8), components = names.map PathComponent.normal := by
  induction components with
  | nil => exact ⟨[], rfl⟩
  | cons component components ih =>
    obtain ⟨hcomponent, hrest⟩ := List.forall_mem_cons.mp h
    obtain ⟨names, rfl⟩ := ih hrest
    cases component with
    | normal name => exact ⟨name :: names, rfl⟩
    | rootDir => cases hcomponent
    | curDir => cases hcomponent
    | parentDir => cases hcomponent

theorem isContained_iff : isContained path = true ↔ Contained path := by
  unfold isContained Contained
  rw [Bool.and_eq_true, Bool.and_eq_true, Bool.not_eq_true', Bool.not_eq_true', and_assoc,
    List.isEmpty_eq_false_iff, List.all_eq_true]
  refine and_congr_right fun _ => ⟨fun h => ?_, ?_⟩
  · obtain ⟨names, hnames⟩ := exists_names h.2
    refine ⟨names, fun hempty => h.1 ?_, hnames⟩
    rw [hnames, hempty, List.map_nil]
  · rintro ⟨names, hne, heq⟩
    rw [heq]
    refine ⟨by simpa using hne, fun component hcomponent => ?_⟩
    obtain ⟨name, _, rfl⟩ := List.mem_map.mp hcomponent
    rfl

/-! ## Fields -/

/-- The fields of a list of triples before a last text. -/
theorem splitOn_encodeTriples (triples : List AttributeTriple) (rest : List UInt8) :
    (encodeTriples triples ++ rest).splitOn 0 =
      triples.flatMap AttributeTriple.fields ++ rest.splitOn 0 := by
  induction triples with
  | nil => rfl
  | cons triple triples ih =>
    have htext : encodeTriples (triple :: triples) ++ rest = triple.path ++ 0 :: (triple.attr ++
        0 :: (triple.value ++ 0 :: (encodeTriples triples ++ rest))) := by
      unfold encodeTriples AttributeTriple.cutText
      simp only [List.flatMap_cons, List.append_assoc, List.cons_append, List.nil_append]
    rw [htext, List.splitOn_append_cons_self_of_not_mem triple.path_nul,
      List.splitOn_append_cons_self_of_not_mem triple.attr_nul,
      List.splitOn_append_cons_self_of_not_mem triple.value_nul, ih]
    rfl

/-- The fields of a triple without its last zero byte. -/
theorem splitOn_cutText {triple : AttributeTriple} : triple.cutText.splitOn 0 = triple.fields := by
  unfold AttributeTriple.cutText
  rw [List.splitOn_append_cons_self_of_not_mem triple.path_nul,
    List.splitOn_append_cons_self_of_not_mem triple.attr_nul,
    List.splitOn_eq_singleton triple.value_nul]
  rfl

/-- Texts with the same fields are the same. -/
theorem splitOn_injective {a b : List UInt8} (h : a.splitOn 0 = b.splitOn 0) : a = b := by
  have ha : [0].intercalate (a.splitOn 0) = a := List.intercalate_splitOn 0
  have hb : [0].intercalate (b.splitOn 0) = b := List.intercalate_splitOn 0
  rw [← ha, h, hb]

/-- Fields hold no zero byte. -/
theorem notMem_of_mem_splitOn {text : List UInt8} : ∀ field ∈ text.splitOn 0, 0 ∉ field :=
  fun field hfield hmem => (Records.mem_of_mem_splitOn field hfield 0 hmem).2 rfl

/-! ## The loop -/

theorem lfsPaths_cons {triple : AttributeTriple} :
    lfsPaths (triple :: triples) =
      if triple.IsLfs then triple.path :: lfsPaths triples else lfsPaths triples := by
  unfold lfsPaths
  rw [List.filter_cons]
  split_ifs <;> simp_all

/-- A triple is taken from the front. -/
theorem lfsFilterPaths_fields (triple : AttributeTriple) (fields : List (List UInt8)) :
    lfsFilterPaths (triple.fields ++ fields) =
      if triple.IsLfs then do
        let path ← safeGitRelativePath triple.path
        (lfsFilterPaths fields).map (path :: ·)
      else lfsFilterPaths fields := by
  change lfsFilterPaths (triple.path :: triple.attr :: triple.value :: fields) = _
  rw [lfsFilterPaths, if_neg triple.path_ne_nil]
  rfl

/-- Triples are taken from the front when their paths are contained. -/
theorem lfsFilterPaths_append {fields : List (List UInt8)} (hcontained : LfsContained triples) :
    lfsFilterPaths (triples.flatMap AttributeTriple.fields ++ fields) =
      (lfsFilterPaths fields).map (lfsPaths triples ++ ·) := by
  induction triples with
  | nil =>
    cases h : lfsFilterPaths fields with
    | error error => simp [h, Except.map]
    | ok paths => simp [h, Except.map, lfsPaths]
  | cons triple triples ih =>
    obtain ⟨htriple, hrest⟩ := List.forall_mem_cons.mp hcontained
    rw [List.flatMap_cons, List.append_assoc, lfsFilterPaths_fields, lfsPaths_cons, ih hrest]
    split_ifs with hlfs
    · have hsafe : safeGitRelativePath triple.path = .ok triple.path :=
        if_pos (isContained_iff.mpr (htriple hlfs))
      rw [hsafe]
      cases lfsFilterPaths fields with
      | error error => rfl
      | ok paths => rfl
    · rfl

/-- What is accepted is a list of triples, with an empty field behind it or not. -/
theorem exists_triples {fields : List (List UInt8)} (hnul : ∀ field ∈ fields, 0 ∉ field)
    (h : lfsFilterPaths fields = .ok paths) :
    ∃ triples, LfsContained triples ∧ paths = lfsPaths triples ∧
      (fields = triples.flatMap AttributeTriple.fields ∨
        fields = triples.flatMap AttributeTriple.fields ++ [[]]) := by
  induction hlength : fields.length using Nat.strong_induction_on generalizing fields paths with
  | _ length ih =>
    match fields with
    | [] => exact ⟨[], by simp [LfsContained], (Except.ok.inj h).symm, .inl rfl⟩
    | [] :: [] => exact ⟨[], by simp [LfsContained], (Except.ok.inj h).symm, .inr rfl⟩
    | [] :: _ :: _ =>
      unfold lfsFilterPaths at h
      rw [if_pos rfl, if_neg (List.cons_ne_nil _ _)] at h
      cases h
    | [byte :: path] => cases h
    | [byte :: path, _] => cases h
    | (byte :: path) :: attr :: value :: rest =>
      have htriple : ∀ field ∈ [byte :: path, attr, value], 0 ∉ field := by
        intro field hfield
        refine hnul field ?_
        simp only [List.mem_cons, List.not_mem_nil, or_false] at hfield ⊢
        rcases hfield with h | h | h
        · exact .inl h
        · exact .inr (.inl h)
        · exact .inr (.inr (.inl h))
      let triple : AttributeTriple := ⟨byte :: path, attr, value, List.cons_ne_nil _ _,
        htriple _ (by simp), htriple _ (by simp), htriple _ (by simp)⟩
      have hrest : ∀ field ∈ rest, 0 ∉ field := fun field hfield => hnul field (by simp [hfield])
      have hless : rest.length < length := by
        rw [← hlength]
        simp only [List.length_cons]
        omega
      have hfields := lfsFilterPaths_fields triple rest
      have hread := hfields.symm.trans h
      split_ifs at hread with hlfs
      · obtain ⟨safe, hsafe, hread⟩ := except_bind_eq_ok hread
        have hpath : isContained triple.path = true ∧ triple.path = safe := by
          unfold safeGitRelativePath at hsafe
          split_ifs at hsafe with hcontained
          exact ⟨hcontained, Except.ok.inj hsafe⟩
        cases hothers : lfsFilterPaths rest with
        | error error =>
          rw [hothers] at hread
          cases hread
        | ok others =>
          rw [hothers] at hread
          obtain rfl := Except.ok.inj hread
          obtain ⟨triples, hcontained, rfl, hshape⟩ := ih _ hless hrest hothers rfl
          refine ⟨triple :: triples, ?_, ?_, ?_⟩
          · exact List.forall_mem_cons.mpr ⟨fun _ => isContained_iff.mp hpath.1, hcontained⟩
          · rw [lfsPaths_cons, if_pos hlfs, hpath.2]
          · rcases hshape with rfl | rfl
            · exact .inl rfl
            · exact .inr rfl
      · obtain ⟨triples, hcontained, rfl, hshape⟩ := ih _ hless hrest hread rfl
        refine ⟨triple :: triples, ?_, ?_, ?_⟩
        · exact List.forall_mem_cons.mpr ⟨fun h => absurd h hlfs, hcontained⟩
        · rw [lfsPaths_cons, if_neg hlfs]
        · rcases hshape with rfl | rfl
          · exact .inl rfl
          · exact .inr rfl

/-! ## Exactness -/

/-- The output is parsed as a sequence of complete triples, or rejected. -/
structure AttributePathsExact (stdout : List UInt8) : Prop where
  accepted : ∀ paths, parseLfsFilterAttributePaths stdout = .ok paths →
    ∃ triples, stdout = encodeTriples triples ∧ paths = lfsPaths triples
  contained : ∀ paths, parseLfsFilterAttributePaths stdout = .ok paths →
    ∀ path ∈ paths, Contained path
  returned : ∀ triples : List AttributeTriple, (∀ triple ∈ triples, Contained triple.path) →
    stdout = encodeTriples triples → parseLfsFilterAttributePaths stdout = .ok (lfsPaths triples)

/-- The output ends within the value of a triple: only its last zero byte is missing. -/
def CutInLastValue (stdout : List UInt8) : Prop :=
  ∃ (triples : List AttributeTriple) (last : AttributeTriple),
    LfsContained (triples ++ [last]) ∧ stdout = encodeTriples triples ++ last.cutText

/-- Complete triples are parsed, and so are those whose last zero byte is missing. -/
theorem parse_encodeTriples (hcontained : LfsContained triples) :
    parseLfsFilterAttributePaths (encodeTriples triples) = .ok (lfsPaths triples) := by
  have hsplit := splitOn_encodeTriples triples []
  rw [List.append_nil, List.splitOn_nil] at hsplit
  unfold parseLfsFilterAttributePaths
  rw [hsplit, lfsFilterPaths_append hcontained]
  change Except.ok (lfsPaths triples ++ []) = _
  rw [List.append_nil]

theorem parse_cutText {last : AttributeTriple} (hcontained : LfsContained (triples ++ [last])) :
    parseLfsFilterAttributePaths (encodeTriples triples ++ last.cutText) =
      .ok (lfsPaths (triples ++ [last])) := by
  unfold parseLfsFilterAttributePaths
  rw [splitOn_encodeTriples, splitOn_cutText]
  have hfields : triples.flatMap AttributeTriple.fields ++ last.fields =
      (triples ++ [last]).flatMap AttributeTriple.fields ++ [] := by
    rw [List.flatMap_append, List.flatMap_singleton, List.append_nil]
  rw [hfields, lfsFilterPaths_append hcontained]
  change Except.ok (lfsPaths (triples ++ [last]) ++ []) = _
  rw [List.append_nil]

theorem length_flatMap_fields :
    (triples.flatMap AttributeTriple.fields).length = 3 * triples.length := by
  induction triples with
  | nil => rfl
  | cons triple triples ih =>
    rw [List.flatMap_cons, List.length_append, ih, List.length_cons]
    change 3 + _ = _
    omega

/-- A sequence of complete triples does not end within a value. -/
theorem encodeTriples_ne_cut {others : List AttributeTriple} {last : AttributeTriple} :
    encodeTriples triples ≠ encodeTriples others ++ last.cutText := by
  intro h
  have hsplit := splitOn_encodeTriples triples []
  rw [List.append_nil, h, splitOn_encodeTriples, splitOn_cutText] at hsplit
  have hlength := congrArg List.length hsplit
  rw [List.length_append, List.length_append, length_flatMap_fields, length_flatMap_fields,
    List.splitOn_nil] at hlength
  change 3 * others.length + 3 = 3 * triples.length + 1 at hlength
  omega

/-- What is accepted is a sequence of complete triples, or ends within a value. -/
theorem accepted_cases {stdout : List UInt8} (h : parseLfsFilterAttributePaths stdout = .ok paths) :
    ∃ triples, LfsContained triples ∧ paths = lfsPaths triples ∧
      (stdout = encodeTriples triples ∨ CutInLastValue stdout) := by
  obtain ⟨triples, hcontained, hpaths, hshape⟩ := exists_triples notMem_of_mem_splitOn h
  refine ⟨triples, hcontained, hpaths, ?_⟩
  rcases hshape with hshape | hshape
  · right
    rcases List.eq_nil_or_concat' triples with rfl | ⟨front, last, rfl⟩
    · exact absurd hshape (List.splitOn_ne_nil _ _)
    · refine ⟨front, last, hcontained, splitOn_injective ?_⟩
      rw [hshape, splitOn_encodeTriples, splitOn_cutText, List.flatMap_append,
        List.flatMap_singleton]
  · left
    refine splitOn_injective ?_
    have hsplit := splitOn_encodeTriples triples []
    rw [List.append_nil] at hsplit
    rw [hshape, hsplit, List.splitOn_nil]

theorem contained_of_mem_lfsPaths (hcontained : LfsContained triples) :
    ∀ path ∈ lfsPaths triples, Contained path := by
  intro path hpath
  obtain ⟨triple, hmem, rfl⟩ := List.mem_map.mp hpath
  obtain ⟨htriple, hlfs⟩ := List.mem_filter.mp hmem
  exact hcontained triple htriple (of_decide_eq_true hlfs)

/-- The output is parsed exactly unless it ends within the value of a triple. -/
theorem lfs_filter_attribute_paths_exact (stdout : List UInt8) :
    AttributePathsExact stdout ↔ ¬CutInLastValue stdout := by
  constructor
  · rintro hexact ⟨triples, last, hcontained, rfl⟩
    obtain ⟨others, hothers, _⟩ := hexact.accepted _ (parse_cutText hcontained)
    exact encodeTriples_ne_cut hothers.symm
  · intro hwhole
    constructor
    · intro paths h
      obtain ⟨triples, _, hpaths, hshape⟩ := accepted_cases h
      exact ⟨triples, hshape.resolve_right hwhole, hpaths⟩
    · intro paths h
      obtain ⟨triples, hcontained, rfl, _⟩ := accepted_cases h
      exact contained_of_mem_lfsPaths hcontained
    · rintro triples hcontained rfl
      exact parse_encodeTriples fun triple htriple _ => hcontained triple htriple

/-- `model.bin`, `filter` and `lf`: what is left of `lfs` is taken for a value. -/
theorem lfs_filter_attribute_paths_cut :
    parseLfsFilterAttributePaths
        ([109, 111, 100, 101, 108, 46, 98, 105, 110, 0] ++ filterBytes ++ [0, 108, 102]) = .ok [] ∧
      ¬AttributePathsExact
        ([109, 111, 100, 101, 108, 46, 98, 105, 110, 0] ++ filterBytes ++ [0, 108, 102]) := by
  let last : AttributeTriple := ⟨[109, 111, 100, 101, 108, 46, 98, 105, 110], filterBytes,
    [108, 102], by decide, by decide, by decide, by decide⟩
  have hcontained : LfsContained ([] ++ [last]) := by
    intro triple htriple hlfs
    obtain rfl := List.mem_singleton.mp htriple
    exact absurd hlfs (by decide)
  have hparse := parse_cutText hcontained
  refine ⟨hparse, fun hexact => ?_⟩
  obtain ⟨others, hothers, _⟩ := hexact.accepted _ hparse
  have hcut : encodeTriples others = encodeTriples [] ++ last.cutText := hothers.symm
  exact encodeTriples_ne_cut hcut

end LfsCloud
