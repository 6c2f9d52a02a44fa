import LfsCloud.GitOutput
import LfsCloud.Lib.Avoiding
import LfsCloud.Lib.SortedMap
import LfsCloud.Lib.TextLines
import Mathlib.Data.String.Basic

/-!
# Patterns of attribute files

A line of an attribute file gives attributes to a pattern, or it defines an attribute as a macro for
others. The patterns that are tracked by Git LFS are those whose attributes stand for its filter.
-/

namespace LfsCloud

/-- `GitLfsTrackedPattern`. -/
structure GitLfsTrackedPattern where
  pattern : String
  attributes : List String
  source : UnixPath
  deriving DecidableEq

/-- The attributes that stand for others, with those that they stand for. -/
abbrev AttributeMacros := SortedMap String (List String)

/-! ## Tokens -/

/-- The characters with a meaning in a line. -/
def escapeMark : Char := Char.ofNat 92
def quoteMark : Char := Char.ofNat 34

/-- The loop of `split_gitattributes_line`, with the token so far, inside quotes or not, behind an
escape or not. -/
def splitTokens : List Char → Bool → Bool → List Char → List (List Char)
  | token, _, escaped, [] =>
    let token := if escaped then token ++ [escapeMark] else token
    if token = [] then [] else [token]
  | token, inQuotes, true, c :: rest => splitTokens (token ++ [c]) inQuotes false rest
  | token, inQuotes, false, c :: rest =>
    if c = escapeMark then splitTokens token inQuotes true rest
    else if c = quoteMark then splitTokens token (!inQuotes) false rest
    else if Text.isWhitespace c && !inQuotes then
      if token = [] then splitTokens [] inQuotes false rest
      else token :: splitTokens [] inQuotes false rest
    else splitTokens (token ++ [c]) inQuotes false rest

/-- `split_gitattributes_line`. -/
def splitGitattributesLine (line : List Char) : List (List Char) := splitTokens [] false false line

/-! ## Macros -/

/-- `expand_attribute_macro`: what it pushes. The set of the macros that are being expanded is
passed down: behind the attributes of a macro it is as before. -/
def expandAttributeMacro (macros : AttributeMacros) (expanding : Finset String)
    (name : String) : List String :=
  name :: match _hlookup : macros.lookup name with
    | none => []
    | some attributes =>
      if _hnew : name ∈ expanding then []
      else attributes.flatMap fun next =>
        expandAttributeMacro macros (insert name expanding) next
termination_by (macros.keys.toFinset \ expanding).card
decreasing_by
  have hkey : name ∈ macros.keys.toFinset :=
    List.mem_toFinset.mpr (List.mem_map_of_mem (SortedMap.lookup_eq_some.mp _hlookup))
  refine Finset.card_lt_card (Finset.ssubset_iff_subset_ne.mpr ⟨?_, fun heq => ?_⟩)
  · exact Finset.sdiff_subset_sdiff subset_rfl (Finset.subset_insert _ _)
  · have hmem := Finset.mem_sdiff.mpr ⟨hkey, _hnew⟩
    rw [← heq] at hmem
    exact (Finset.mem_sdiff.mp hmem).2 (Finset.mem_insert_self _ _)

/-- `expand_attribute_macros`. -/
def expandAttributeMacros (attributes : List String) (macros : AttributeMacros) : List String :=
  attributes.flatMap (expandAttributeMacro macros ∅)

/-! ## Lines -/

/-- `parse_lfs_pattern_line`: the pattern, if any, and the macros behind the line. -/
def parseLfsPatternLine (line : List Char) (source : UnixPath) (macros : AttributeMacros) :
    Option GitLfsTrackedPattern × AttributeMacros :=
  let trimmed := line.dropWhile Text.isWhitespace
  if trimmed = [] ∨ trimmed.head? = some '#' then (none, macros)
  else match splitGitattributesLine trimmed with
  | [] => (none, macros)
  | pattern :: attributes =>
    let attributes := attributes.map String.ofList
    match "[attr]".toList.isPrefixOf? pattern with
    | some name =>
      (none, if name = [] then macros else macros.insert (String.ofList name) attributes)
    | none =>
      let attributes := expandAttributeMacros attributes macros
      if "filter=lfs" ∈ attributes then
        (some ⟨String.ofList pattern, attributes, source⟩, macros)
      else (none, macros)

/-- The loop over the lines. -/
def lfsPatternsOfLines (source : UnixPath) :
    AttributeMacros → List (List Char) → List GitLfsTrackedPattern
  | _, [] => []
  | macros, line :: rest =>
    let (tracked, macros) := parseLfsPatternLine line source macros
    tracked.toList ++ lfsPatternsOfLines source macros rest

/-- `parse_lfs_patterns_from_attributes`. -/
def parseLfsPatternsFromAttributes (contents : String) (source : UnixPath) :
    List GitLfsTrackedPattern :=
  lfsPatternsOfLines source .empty (Text.lines contents.toList)

/-! ## What is reached -/

open Relation

/-- An attribute stands for another, which is one of those of its macro. -/
def StandsFor (macros : AttributeMacros) (a b : String) : Prop :=
  ∃ attributes, macros.lookup a = some attributes ∧ b ∈ attributes

variable {macros : AttributeMacros} {source : UnixPath} {line : List Char} {a x name : String}
  {attributes : List String} {tracked : GitLfsTrackedPattern} {lines before : List (List Char)}

/-- What an expansion pushes is what is reached without going on from a macro that is expanded. -/
theorem mem_expandAttributeMacro {expanding : Finset String} :
    x ∈ expandAttributeMacro macros expanding a ↔
      ReflTransGen (Paths.Avoiding (StandsFor macros) ↑expanding) a x := by
  induction expanding, a using expandAttributeMacro.induct macros with
  | case1 expanding a ih =>
    rw [expandAttributeMacro]
    split
    next hnone =>
      have hend : ∀ b, ¬StandsFor macros a b := by
        rintro b ⟨attributes, hlookup, _⟩
        rw [hnone] at hlookup
        cases hlookup
      rw [List.mem_singleton]
      constructor
      · rintro rfl
        exact .refl
      · intro hpath
        rcases hpath.cases_head with heq | ⟨b, hstep, _⟩
        · exact heq.symm
        · exact absurd hstep.2 (hend b)
    next attributes hlookup =>
      by_cases hmem : a ∈ expanding
      · rw [dif_pos hmem, Paths.reaches_of_mem (Finset.mem_coe.mpr hmem), List.mem_singleton]
      · rw [dif_neg hmem, Paths.reaches_iff fun hcoe => hmem (Finset.mem_coe.mp hcoe),
          List.mem_cons, List.mem_flatMap]
        refine or_congr_right ⟨?_, ?_⟩
        · rintro ⟨b, hb, hpushed⟩
          have hreach := (ih attributes hlookup hmem b).mp hpushed
          rw [Finset.coe_insert] at hreach
          exact ⟨b, ⟨attributes, hlookup, hb⟩, hreach⟩
        · rintro ⟨b, ⟨found, hfound, hb⟩, hreach⟩
          obtain rfl := Option.some.inj (hfound.symm.trans hlookup)
          rw [← Finset.coe_insert] at hreach
          exact ⟨b, hb, (ih found hlookup hmem b).mpr hreach⟩

/-- The expansion of attributes is what they stand for. -/
theorem mem_expandAttributeMacros : x ∈ expandAttributeMacros attributes macros ↔
    ∃ a ∈ attributes, ReflTransGen (StandsFor macros) a x := by
  unfold expandAttributeMacros
  rw [List.mem_flatMap]
  refine exists_congr fun a => and_congr_right fun _ => ?_
  rw [mem_expandAttributeMacro, Finset.coe_empty, Paths.reaches_empty]

/-! ## What a line says -/

/-- The tokens of a line, none for a comment. -/
def lineTokens (line : List Char) : List (List Char) :=
  let trimmed := line.dropWhile Text.isWhitespace
  if trimmed = [] ∨ trimmed.head? = some '#' then [] else splitGitattributesLine trimmed

/-- The line defines a macro. -/
def DefinesMacro (line : List Char) (name : String) (attributes : List String) : Prop :=
  ∃ tokens, lineTokens line = ("[attr]".toList ++ name.toList) :: tokens ∧ name ≠ "" ∧
    attributes = tokens.map String.ofList

/-- The line gives attributes to a pattern. -/
def Declares (line : List Char) (pattern : String) (attributes : List String) : Prop :=
  ∃ tokens, lineTokens line = pattern.toList :: tokens ∧ ¬"[attr]".toList <+: pattern.toList ∧
    attributes = tokens.map String.ofList

/-- The last line that defines the macro. -/
def LastMacro (lines : List (List Char)) (name : String) (attributes : List String) : Prop :=
  ∃ front line back, lines = front ++ line :: back ∧ DefinesMacro line name attributes ∧
    ∀ later ∈ back, ∀ others, ¬DefinesMacro later name others

/-- The macros behind lines. -/
def macrosAfter (source : UnixPath) (macros : AttributeMacros) (lines : List (List Char)) :
    AttributeMacros :=
  lines.foldl (fun macros line => (parseLfsPatternLine line source macros).2) macros

/-- What is done with the tokens of a line. -/
theorem parseLfsPatternLine_eq : parseLfsPatternLine line source macros =
    match lineTokens line with
    | [] => (none, macros)
    | pattern :: tokens =>
      match "[attr]".toList.isPrefixOf? pattern with
      | some name => (none, if name = [] then macros
          else macros.insert (String.ofList name) (tokens.map String.ofList))
      | none =>
        if "filter=lfs" ∈ expandAttributeMacros (tokens.map String.ofList) macros then
          (some ⟨String.ofList pattern, expandAttributeMacros (tokens.map String.ofList) macros,
            source⟩, macros)
        else (none, macros) := by
  unfold parseLfsPatternLine lineTokens
  dsimp only
  split_ifs
  · rfl
  · rfl

/-- What is in front of the rest of a text. -/
theorem append_of_isPrefixOf? {front text rest : List Char}
    (h : front.isPrefixOf? text = some rest) : text = front ++ rest := by
  induction front generalizing text with
  | nil => exact (Option.some.inj h)
  | cons c front ih =>
    cases text with
    | nil => cases h
    | cons d text =>
      rw [List.isPrefixOf?] at h
      split_ifs at h with hc
      rw [ih h, beq_iff_eq.mp hc, List.cons_append]

/-- The first token of a macro is its name behind the mark. -/
theorem definesMacro_iff {pattern : List Char} {tokens : List (List Char)}
    (htokens : lineTokens line = pattern :: tokens) : DefinesMacro line name attributes ↔
      "[attr]".toList.isPrefixOf? pattern = some name.toList ∧ name ≠ "" ∧
        attributes = tokens.map String.ofList := by
  unfold DefinesMacro
  rw [htokens]
  constructor
  · rintro ⟨others, heq, hname, hattributes⟩
    obtain ⟨rfl, rfl⟩ := List.cons.inj heq
    exact ⟨rfl, hname, hattributes⟩
  · rintro ⟨hmark, hname, hattributes⟩
    refine ⟨tokens, ?_, hname, hattributes⟩
    rw [append_of_isPrefixOf? hmark]

/-- A line of a pattern is found. -/
theorem tracked_parseLfsPatternLine : (parseLfsPatternLine line source macros).1 = some tracked ↔
    ∃ attributes, Declares line tracked.pattern attributes ∧ tracked.source = source ∧
      tracked.attributes = expandAttributeMacros attributes macros ∧
        "filter=lfs" ∈ expandAttributeMacros attributes macros := by
  rw [parseLfsPatternLine_eq]
  unfold Declares
  cases htokens : lineTokens line with
  | nil =>
    refine ⟨nofun, ?_⟩
    rintro ⟨_, ⟨tokens, heq, _⟩, _⟩
    cases heq
  | cons pattern tokens =>
    dsimp only
    cases hmark : "[attr]".toList.isPrefixOf? pattern with
    | some name =>
      refine ⟨nofun, ?_⟩
      rintro ⟨_, ⟨others, heq, hnot, _⟩, _⟩
      obtain ⟨rfl, rfl⟩ := List.cons.inj heq
      exact absurd ⟨name, (append_of_isPrefixOf? hmark).symm⟩ hnot
    | none =>
      dsimp only
      split_ifs with hfilter
      · constructor
        · intro h
          obtain rfl := Option.some.inj h
          refine ⟨_, ⟨tokens, ?_, ?_, rfl⟩, rfl, rfl, hfilter⟩
          · rw [String.toList_ofList]
          · rintro ⟨rest, heq⟩
            rw [← heq.trans String.toList_ofList] at hmark
            cases hmark
        · rintro ⟨_, ⟨others, heq, _, rfl⟩, hsource, hattributes, _⟩
          obtain ⟨rfl, rfl⟩ := List.cons.inj heq
          rw [String.ofList_toList, ← hattributes, ← hsource]
      · refine ⟨nofun, ?_⟩
        rintro ⟨_, ⟨others, heq, _, rfl⟩, _, _, hfound⟩
        obtain ⟨_, rfl⟩ := List.cons.inj heq
        exact absurd hfound hfilter

/-- The macros behind a line: it defines one, or they are as before. -/
theorem lookup_parseLfsPatternLine :
    (parseLfsPatternLine line source macros).2.lookup name = some attributes ↔
      DefinesMacro line name attributes ∨
        (∀ others, ¬DefinesMacro line name others) ∧ macros.lookup name = some attributes := by
  have hkeep : (∀ name attributes, ¬DefinesMacro line name attributes) →
      (macros.lookup name = some attributes ↔ DefinesMacro line name attributes ∨
        (∀ others, ¬DefinesMacro line name others) ∧ macros.lookup name = some attributes) :=
    fun hnot => ⟨fun h => .inr ⟨hnot name, h⟩,
      fun h => h.elim (fun hdefines => absurd hdefines (hnot _ _)) And.right⟩
  rw [parseLfsPatternLine_eq]
  cases htokens : lineTokens line with
  | nil =>
    refine hkeep fun name attributes => ?_
    rintro ⟨tokens, heq, _⟩
    rw [htokens] at heq
    cases heq
  | cons pattern tokens =>
    dsimp only
    cases hmark : "[attr]".toList.isPrefixOf? pattern with
    | none =>
      have hnot : ∀ name attributes, ¬DefinesMacro line name attributes := by
        intro name attributes hdefines
        rw [definesMacro_iff htokens, hmark] at hdefines
        cases hdefines.1
      dsimp only
      split_ifs
      · exact hkeep hnot
      · exact hkeep hnot
    | some found =>
      have hdefines : ∀ {name attributes}, DefinesMacro line name attributes ↔
          found = name.toList ∧ name ≠ "" ∧ attributes = tokens.map String.ofList := by
        intro name attributes
        rw [definesMacro_iff htokens, hmark, Option.some.injEq]
      dsimp only
      split_ifs with hempty
      · refine hkeep fun name attributes hdefined => ?_
        obtain ⟨rfl, hname, _⟩ := hdefines.mp hdefined
        exact hname (String.toList_eq_nil_iff.mp hempty)
      · rw [SortedMap.lookup_insert]
        split_ifs with hsame
        · subst hsame
          rw [Option.some.injEq, hdefines, String.toList_ofList]
          have hname : String.ofList found ≠ "" := fun h =>
            hempty (by rw [← String.toList_ofList (l := found), h]; rfl)
          constructor
          · intro h
            exact .inl ⟨rfl, hname, h.symm⟩
          · rintro (⟨_, _, h⟩ | ⟨hnot, _⟩)
            · exact h.symm
            · exact absurd (hdefines.mpr ⟨String.toList_ofList.symm, hname, rfl⟩) (hnot _)
        · have hnot : ∀ others, ¬DefinesMacro line name others := by
            intro others hdefined
            obtain ⟨rfl, _⟩ := hdefines.mp hdefined
            exact hsame String.ofList_toList.symm
          constructor
          · exact fun h => .inr ⟨hnot, h⟩
          · rintro (hdefined | ⟨_, h⟩)
            · exact absurd hdefined (hnot _)
            · exact h

/-! ## Files -/

/-- The macros behind lines are those that their last lines define. -/
theorem lookup_macrosAfter : (macrosAfter source .empty lines).lookup name = some attributes ↔
    LastMacro lines name attributes := by
  induction lines using List.reverseRecOn generalizing attributes with
  | nil =>
    refine ⟨nofun, ?_⟩
    rintro ⟨front, line, back, heq, _⟩
    have hlength := congrArg List.length heq
    simp only [List.length_nil, List.length_append, List.length_cons] at hlength
    omega
  | append_singleton lines line ih =>
    have hafter : macrosAfter source .empty (lines ++ [line]) =
        (parseLfsPatternLine line source (macrosAfter source .empty lines)).2 :=
      List.foldl_concat _ _ _ _
    rw [hafter, lookup_parseLfsPatternLine, ih]
    constructor
    · rintro (hdefines | ⟨hnot, front, earlier, back, rfl, hdefines, hback⟩)
      · exact ⟨lines, line, [], rfl, hdefines, fun _ hmem => absurd hmem List.not_mem_nil⟩
      · refine ⟨front, earlier, back ++ [line], ?_, hdefines, fun later hmem => ?_⟩
        · simp only [List.append_assoc, List.cons_append]
        · rcases List.mem_append.mp hmem with hmem | hmem
          · exact hback later hmem
          · rw [List.mem_singleton.mp hmem]
            exact hnot
    · rintro ⟨front, earlier, back, heq, hdefines, hback⟩
      rcases List.eq_nil_or_concat' back with rfl | ⟨back, last, rfl⟩
      · obtain ⟨_, hline⟩ := List.append_inj' heq rfl
        rw [(List.cons.inj hline).1]
        exact .inl hdefines
      · rw [← List.cons_append, ← List.append_assoc] at heq
        obtain ⟨rfl, hline⟩ := List.append_inj' heq rfl
        obtain rfl := (List.cons.inj hline).1
        refine .inr ⟨hback line (List.mem_append_right _ List.mem_cons_self), front, earlier, back,
          rfl, hdefines, fun later hmem => ?_⟩
        exact hback later (List.mem_append_left _ hmem)

/-- The patterns of lines are those of the lines, each with the macros before it. -/
theorem mem_lfsPatternsOfLines : tracked ∈ lfsPatternsOfLines source macros lines ↔
    ∃ before line after, lines = before ++ line :: after ∧
      (parseLfsPatternLine line source (macrosAfter source macros before)).1 = some tracked := by
  induction lines generalizing macros with
  | nil =>
    refine ⟨fun h => absurd h List.not_mem_nil, ?_⟩
    rintro ⟨before, line, after, heq, _⟩
    have hlength := congrArg List.length heq
    simp only [List.length_nil, List.length_append, List.length_cons] at hlength
    omega
  | cons first rest ih =>
    rw [lfsPatternsOfLines, List.mem_append, Option.mem_toList, ih]
    constructor
    · rintro (hfirst | ⟨before, line, after, rfl, hline⟩)
      · exact ⟨[], first, rest, rfl, hfirst⟩
      · exact ⟨first :: before, line, after, rfl, hline⟩
    · rintro ⟨before, line, after, heq, hline⟩
      cases before with
      | nil =>
        obtain ⟨rfl, rfl⟩ := List.cons.inj heq
        exact .inl hline
      | cons earlier before =>
        obtain ⟨rfl, rfl⟩ := List.cons.inj heq
        exact .inr ⟨before, line, after, rfl, hline⟩

/-- An attribute stands for another by the macros of lines. -/
def StandsForIn (lines : List (List Char)) (a b : String) : Prop :=
  ∃ attributes, LastMacro lines a attributes ∧ b ∈ attributes

theorem standsFor_macrosAfter :
    StandsFor (macrosAfter source .empty lines) = StandsForIn lines := by
  funext a b
  unfold StandsFor StandsForIn
  simp only [lookup_macrosAfter]

/-! ## Lines that are written -/

/-- A token in quotes. -/
def quoted (token : List Char) : List Char :=
  quoteMark :: token.flatMap (fun c => if c = quoteMark ∨ c = escapeMark then [escapeMark, c]
    else [c]) ++ [quoteMark]

/-- A line of tokens in quotes. -/
def quotedLine : List (List Char) → List Char
  | [] => []
  | [token] => quoted token
  | token :: next :: rest => quoted token ++ ' ' :: quotedLine (next :: rest)

/-- A token in quotes is read. -/
theorem splitTokens_quoted {front token rest : List Char} :
    splitTokens front true false (token.flatMap (fun c =>
        if c = quoteMark ∨ c = escapeMark then [escapeMark, c] else [c]) ++ quoteMark :: rest) =
      splitTokens (front ++ token) false false rest := by
  induction token generalizing front with
  | nil =>
    rw [List.flatMap_nil, List.nil_append, splitTokens, if_neg (by decide), if_pos rfl,
      List.append_nil]
    rfl
  | cons c token ih =>
    have hassoc : front ++ c :: token = (front ++ [c]) ++ token := by
      rw [List.append_assoc, List.singleton_append]
    rw [List.flatMap_cons, hassoc]
    by_cases hspecial : c = quoteMark ∨ c = escapeMark
    · have hescaped : ∀ back, splitTokens front true false ([escapeMark, c] ++ back) =
          splitTokens (front ++ [c]) true false back := by
        intro back
        rw [List.cons_append, splitTokens, if_pos rfl]
        rfl
      rw [if_pos hspecial, List.append_assoc, hescaped]
      exact ih
    · obtain ⟨hquote, hescape⟩ := not_or.mp hspecial
      have hplain : ∀ back, splitTokens front true false ([c] ++ back) =
          splitTokens (front ++ [c]) true false back := by
        intro back
        rw [List.singleton_append, splitTokens, if_neg hescape, if_neg hquote, Bool.not_true,
          Bool.and_false]
        rfl
      rw [if_neg hspecial, List.append_assoc, hplain]
      exact ih

/-- Tokens in quotes are read back. -/
theorem splitGitattributesLine_quotedLine {tokens : List (List Char)}
    (hne : ∀ token ∈ tokens, token ≠ []) : splitGitattributesLine (quotedLine tokens) = tokens := by
  unfold splitGitattributesLine
  induction tokens with
  | nil => rfl
  | cons token rest ih =>
    obtain ⟨htoken, hrest⟩ := List.forall_mem_cons.mp hne
    have hfirst : ∀ back, splitTokens [] false false (quoted token ++ back) =
        splitTokens token false false back := by
      intro back
      have hquoted : quoted token ++ back = quoteMark :: (token.flatMap (fun c =>
          if c = quoteMark ∨ c = escapeMark then [escapeMark, c] else [c]) ++
            quoteMark :: back) := by
        unfold quoted
        simp only [List.cons_append, List.append_assoc, List.nil_append]
      rw [hquoted, splitTokens, if_neg (by decide), if_pos rfl]
      exact splitTokens_quoted
    cases rest with
    | nil =>
      have hlast := hfirst []
      rw [List.append_nil] at hlast
      rw [quotedLine, hlast, splitTokens]
      exact if_neg htoken
    | cons next rest =>
      have hspace : Text.isWhitespace ' ' = true := by decide
      rw [quotedLine, hfirst, splitTokens, if_neg (by decide), if_neg (by decide), hspace,
        Bool.not_false, Bool.and_true, if_pos rfl, if_neg htoken, ih hrest]

/-- What is written in quotes is what the line says. -/
theorem lineTokens_quotedLine {tokens : List (List Char)} (hne : ∀ token ∈ tokens, token ≠ []) :
    lineTokens (quotedLine tokens) = tokens := by
  cases tokens with
  | nil => rfl
  | cons token rest =>
    have hquote : ∃ back, quotedLine (token :: rest) = quoteMark :: back := by
      cases rest with
      | nil => exact ⟨_, rfl⟩
      | cons next rest => exact ⟨_, rfl⟩
    obtain ⟨back, hback⟩ := hquote
    have hwhite : Text.isWhitespace quoteMark = false := by decide
    have hdrop : (quotedLine (token :: rest)).dropWhile Text.isWhitespace =
        quotedLine (token :: rest) := by
      rw [hback, List.dropWhile_cons, hwhite]
      rfl
    unfold lineTokens
    dsimp only
    rw [hdrop, if_neg, splitGitattributesLine_quotedLine hne]
    rw [hback]
    rintro (h | h)
    · cases h
    · exact absurd (Option.some.inj h) (by decide)

/-- For every attribute file: a pattern is tracked exactly where a line gives it attributes of which
one stands for the filter, by the macros that the lines above define last, however they refer to
each other; its attributes are those that the attributes of the line stand for; and every pattern
with every attributes can be written in a line. -/
theorem lfs_patterns_exact (contents : String) (source : UnixPath) :
    (∀ tracked, tracked ∈ parseLfsPatternsFromAttributes contents source ↔
      ∃ before line after attributes, Text.lines contents.toList = before ++ line :: after ∧
        Declares line tracked.pattern attributes ∧ tracked.source = source ∧
        tracked.attributes = expandAttributeMacros attributes (macrosAfter source .empty before) ∧
        ∃ a ∈ attributes, ReflTransGen (StandsForIn before) a "filter=lfs") ∧
    (∀ before attributes x,
      x ∈ expandAttributeMacros attributes (macrosAfter source .empty before) ↔
        ∃ a ∈ attributes, ReflTransGen (StandsForIn before) a x) ∧
    ∀ pattern attributes, pattern ≠ "" → (∀ a ∈ attributes, a ≠ "") →
      ¬"[attr]".toList <+: pattern.toList →
        Declares (quotedLine (pattern.toList :: attributes.map String.toList)) pattern
          attributes := by
  have hreached : ∀ before attributes x,
      x ∈ expandAttributeMacros attributes (macrosAfter source .empty before) ↔
        ∃ a ∈ attributes, ReflTransGen (StandsForIn before) a x := by
    intro before attributes x
    rw [mem_expandAttributeMacros, standsFor_macrosAfter]
  refine ⟨fun tracked => ?_, hreached, ?_⟩
  · unfold parseLfsPatternsFromAttributes
    rw [mem_lfsPatternsOfLines]
    constructor
    · rintro ⟨before, line, after, hlines, hline⟩
      obtain ⟨attributes, hdeclares, hsource, hattributes, hfilter⟩ :=
        tracked_parseLfsPatternLine.mp hline
      exact ⟨before, line, after, attributes, hlines, hdeclares, hsource, hattributes,
        (hreached before attributes _).mp hfilter⟩
    · rintro ⟨before, line, after, attributes, hlines, hdeclares, hsource, hattributes, hfilter⟩
      exact ⟨before, line, after, hlines, tracked_parseLfsPatternLine.mpr
        ⟨attributes, hdeclares, hsource, hattributes, (hreached before attributes _).mpr hfilter⟩⟩
  · intro pattern attributes hpattern hattributes hmark
    have hne : ∀ token ∈ pattern.toList :: attributes.map String.toList, token ≠ [] := by
      refine List.forall_mem_cons.mpr ⟨fun h => hpattern (String.toList_eq_nil_iff.mp h), ?_⟩
      intro token htoken
      obtain ⟨a, ha, rfl⟩ := List.mem_map.mp htoken
      exact fun h => hattributes a ha (String.toList_eq_nil_iff.mp h)
    refine ⟨_, lineTokens_quotedLine hne, hmark, ?_⟩
    simp only [List.map_map, Function.comp_def, String.ofList_toList, List.map_id']

end LfsCloud
