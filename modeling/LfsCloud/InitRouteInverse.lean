import LfsCloud.InitRoute
import LfsCloud.Lib.PlainUrls
import LfsCloud.Lib.Results

/-!
# Routes and their bases

What a route is derived from is recovered from it where the path of the base does not end with a
slash. What a base is recovered from is a route of the remote.
-/

namespace LfsCloud

variable {parseUrl : List Char → Except String Url} {encode : List Char → List Char}
  {value : List Char} {allowInsecureHttp : Bool} {url : Url} {segments : List (List Char)}
  {remote : GitRemote}

/-! ## Accepted base URLs -/

/-- The transport of a URL is accepted. -/
def TransportAllowed (url : Url) (allowInsecureHttp : Bool) : Prop :=
  allowInsecureHttp = true ∨ usesProtectedHttpTransport url = true

/-- What is looked at in the text of a URL. -/
structure AcceptedText (value : List Char) : Prop where
  nonempty : value ≠ []
  safe : ∀ c ∈ value, Text.isWhitespace c = false ∧ Text.isControl c = false ∧ c ≠ Char.ofNat 92
  slash : value.getLast? ≠ some '/'
  dots : rawPathHasDotSegments value = false

theorem validateHttpUrl_eq_ok :
    validateHttpUrl parseUrl value allowInsecureHttp = .ok url ↔
      AcceptedText value ∧ parseUrl value = .ok url ∧ url.IsBase ∧
        TransportAllowed url allowInsecureHttp := by
  unfold validateHttpUrl
  constructor
  · intro h
    split_ifs at h with hempty hsafe hslash hdots
    split at h
    · cases h
    · next parsed hparsed =>
      split_ifs at h with hinvalid hcredentials hquery htransport
      obtain rfl := Except.ok.inj h
      refine ⟨⟨hempty, ?_, hslash, by simpa using hdots⟩, hparsed, ?_, ?_⟩
      · simpa [List.any_eq_true, not_or, and_assoc] using hsafe
      · rw [not_or, not_not] at hinvalid
        simp only [not_or, not_not, ne_eq] at hcredentials hquery
        exact ⟨hinvalid.1, Option.isSome_iff_ne_none.mpr hinvalid.2, hcredentials.1,
          hcredentials.2, hquery.1, hquery.2⟩
      · unfold TransportAllowed
        cases allowInsecureHttp <;> simp_all
  · rintro ⟨htext, hparse, hbase, htransport⟩
    have hsafe : ¬(value.any fun c => Text.isWhitespace c || Text.isControl c ||
        c = Char.ofNat 92) = true := by
      simpa [List.any_eq_true, not_or, and_assoc] using htext.safe
    have hinsecure : ¬(allowInsecureHttp = false ∧ usesProtectedHttpTransport url = false) := by
      unfold TransportAllowed at htransport
      rcases htransport with h | h <;> simp [h]
    rw [if_neg htext.nonempty, if_neg hsafe, if_neg htext.slash, htext.dots,
      if_neg Bool.false_ne_true, hparse]
    dsimp only
    rw [if_neg, if_neg, if_neg, if_neg hinsecure]
    · simp [hbase.query, hbase.fragment]
    · simp [hbase.username, hbase.password]
    · rw [not_or, not_not]
      exact ⟨hbase.scheme, Option.isSome_iff_ne_none.mp hbase.host⟩

theorem validateServerUrl_eq_ok :
    validateServerUrl parseUrl value allowInsecureHttp = .ok url ↔
      AcceptedText value ∧ parseUrl value = .ok url ∧ url.IsBase ∧
        TransportAllowed url allowInsecureHttp := by
  rw [← validateHttpUrl_eq_ok]
  unfold validateServerUrl
  cases validateHttpUrl parseUrl value allowInsecureHttp with
  | error error => simp [Except.mapError]
  | ok parsed => simp [Except.mapError]

/-! ## Texts of bases -/

/-- The text of a URL is looked at as its parts are. -/
theorem afterScheme_origin {scheme after : List Char} (hscheme : ':' ∉ scheme) :
    afterScheme (scheme ++ "://".toList ++ after) = some after := by
  induction scheme with
  | nil => rfl
  | cons c scheme ih =>
    rw [List.mem_cons, not_or] at hscheme
    have hhead : ("://".toList.isPrefixOf (c :: (scheme ++ "://".toList ++ after))) = false := by
      have hne : (':' == c) = false := by simpa using hscheme.1
      simp [List.isPrefixOf, hne]
    rw [List.cons_append, List.cons_append, afterScheme, hhead, if_neg Bool.false_ne_true,
      ih hscheme.2]

/-- The host and the port of a base. -/
theorem origin_parts (hbase : url.IsBase) (hshaped : url.Shaped segments) :
    ∃ place, url.origin = url.scheme ++ "://".toList ++ place ∧ place ≠ [] ∧ '/' ∉ place ∧
      ':' ∉ url.scheme := by
  obtain ⟨host, hhost⟩ := Option.isSome_iff_exists.mp hbase.host
  obtain ⟨hne, hslash⟩ := hshaped.host host hhost
  refine ⟨_, hbase.origin_eq hhost, ?_, ?_, ?_⟩
  · exact fun h => hne (List.append_eq_nil_iff.mp h).1
  · intro hmem
    rcases List.mem_append.mp hmem with h | h
    · exact hslash h
    · exact Url.slash_notMem_port h
  · rcases hbase.scheme with h | h
    · rw [h]
      decide
    · rw [h]
      decide

theorem isDotSegment_eq {segment : List Char} : isDotSegment segment = Url.isDot segment := by
  unfold isDotSegment Url.isDot
  simp only [List.mem_cons, List.not_mem_nil, or_false, Bool.decide_or, Bool.or_assoc]

/-- The text of a base has no dot segments. -/
theorem rawPathHasDotSegments_text (hbase : url.IsBase) (hshaped : url.Shaped segments) :
    rawPathHasDotSegments (url.origin ++ Url.segmentsText segments) = false ∧
      rawPathHasDotSegments url.origin = false := by
  obtain ⟨place, horigin, _, hslash, hscheme⟩ := origin_parts hbase hshaped
  unfold rawPathHasDotSegments
  constructor
  · obtain ⟨segment, rest, rfl⟩ := List.exists_cons_of_ne_nil hshaped.nonempty
    have hsplit : Text.splitOnce '/' (place ++ Url.segmentsText (segment :: rest)) =
        some (place, segment ++ Url.segmentsText rest) := Text.splitOnce_append hslash _
    have hwhole : (segment ++ Url.segmentsText rest).takeWhile (fun c => c ≠ '?' ∧ c ≠ '#') =
        segment ++ Url.segmentsText rest := by
      rw [List.takeWhile_eq_self_iff]
      intro c hc
      simp only [Bool.decide_and, Bool.and_eq_true, decide_eq_true_eq]
      rcases List.mem_append.mp hc with h | h
      · have hsep := hshaped.separators segment List.mem_cons_self
        exact ⟨fun hq => hsep.2.1 (hq ▸ h), fun hf => hsep.2.2 (hf ▸ h)⟩
      · obtain ⟨next, hnext, hmem⟩ := List.mem_flatMap.mp h
        have hsep := hshaped.separators next (List.mem_cons_of_mem _ hnext)
        rcases List.mem_cons.mp hmem with rfl | h
        · exact ⟨by decide, by decide⟩
        · exact ⟨fun hq => hsep.2.1 (hq ▸ h), fun hf => hsep.2.2 (hf ▸ h)⟩
    rw [horigin, List.append_assoc, afterScheme_origin hscheme]
    dsimp only
    rw [hsplit]
    dsimp only
    rw [hwhole, Url.splitOn_segmentsText (hshaped.separators segment List.mem_cons_self).1
      fun next hnext => (hshaped.separators next (List.mem_cons_of_mem _ hnext)).1]
    rw [List.any_eq_false]
    intro next hnext
    rw [isDotSegment_eq, hshaped.notDot next hnext]
    exact Bool.false_ne_true
  · rw [horigin, afterScheme_origin hscheme]
    dsimp only
    rw [Text.splitOnce_of_notMem hslash]

/-- A text of safe characters is accepted when it does not end with a slash. -/
theorem acceptedText_of_safe (hnonempty : value ≠ [])
    (hsafe : ∀ c ∈ value, '!' ≤ c ∧ c ≤ '~' ∧ c ≠ Char.ofNat 92)
    (hslash : value.getLast? ≠ some '/')
    (hdots : rawPathHasDotSegments value = false) : AcceptedText value := by
  refine ⟨hnonempty, fun c hc => ?_, hslash, hdots⟩
  obtain ⟨hlow, hhigh, hne⟩ := hsafe c hc
  have hvisible : ∀ c : Char, c.toNat < 127 → 33 ≤ c.toNat →
      Text.isWhitespace c = false ∧ Text.isControl c = false := by
    intro c hcode
    exact Text.forall_of_toNat_lt (P := fun c => 33 ≤ c.toNat →
      Text.isWhitespace c = false ∧ Text.isControl c = false) (by decide) hcode
  obtain ⟨hspace, hcontrol⟩ := hvisible c (Nat.lt_succ_of_le hhigh) hlow
  exact ⟨hspace, hcontrol, hne⟩

/-! ## Trailing slashes -/

theorem trimEnd_of_getLast? {text : List Char} (h : text.getLast? ≠ some '/') :
    Lines.trimEnd '/' text = text := by
  unfold Lines.trimEnd
  refine List.rdropWhile_eq_self_iff.mpr fun hne hlast => h ?_
  rw [List.getLast?_eq_some_getLast hne, of_decide_eq_true hlast]

theorem trimEnd_concat {text : List Char} :
    Lines.trimEnd '/' (text ++ ['/']) = Lines.trimEnd '/' text :=
  List.rdropWhile_concat_pos _ _ _ (decide_eq_true rfl)

/-- An origin does not end with a slash. -/
theorem getLast?_origin (hbase : url.IsBase) (hshaped : url.Shaped segments) :
    url.origin ≠ [] ∧ url.origin.getLast? ≠ some '/' := by
  obtain ⟨place, horigin, hne, hslash, _⟩ := origin_parts hbase hshaped
  have hwhole : url.origin ≠ [] := by
    rw [horigin]
    exact List.append_ne_nil_of_right_ne_nil _ hne
  refine ⟨hwhole, fun hlast => hslash ?_⟩
  rw [horigin, List.getLast?_append_of_ne_nil _ hne] at hlast
  exact List.mem_of_getLast? hlast

/-- A path ends with a slash when its last segment is empty. -/
theorem getLast?_segmentsText (hshaped : url.Shaped segments) :
    (Url.segmentsText segments).getLast? = some '/' ↔ segments.getLast? = some [] := by
  obtain ⟨front, name, rfl⟩ := (List.eq_nil_or_concat' segments).resolve_left hshaped.nonempty
  have hslash := (hshaped.separators name (by simp)).1
  rw [Url.segmentsText_concat, List.getLast?_concat,
    List.getLast?_append_of_ne_nil _ (List.cons_ne_nil _ _)]
  cases hname : name with
  | nil => exact ⟨fun _ => rfl, fun _ => rfl⟩
  | cons c name' =>
    rw [List.getLast?_cons_cons]
    constructor
    · intro hlast
      exact absurd (hname ▸ List.mem_of_getLast? hlast) hslash
    · intro hlast
      cases hlast

/-- So does its text. -/
theorem getLast?_text (hshaped : url.Shaped segments) :
    (url.origin ++ Url.segmentsText segments).getLast? = some '/' ↔
      segments.getLast? = some [] := by
  have hne : Url.segmentsText segments ≠ [] := by
    obtain ⟨segment, rest, rfl⟩ := List.exists_cons_of_ne_nil hshaped.nonempty
    exact List.cons_ne_nil _ _
  rw [List.getLast?_append_of_ne_nil _ hne]
  exact getLast?_segmentsText hshaped

/-- A base is accepted by its own text when its path ends in a name. -/
theorem validateServerUrl_text (hparse : parseUrl url.text = .ok url) (hbase : url.IsBase)
    (hshaped : url.Shaped segments) (hlast : segments.getLast? ≠ some [])
    (htransport : TransportAllowed url allowInsecureHttp) :
    validateServerUrl parseUrl url.text allowInsecureHttp = .ok url := by
  have htext := hbase.text_eq hshaped.path
  refine validateServerUrl_eq_ok.mpr ⟨acceptedText_of_safe ?_ hshaped.safe ?_ ?_, hparse, hbase,
    htransport⟩
  · rw [htext]
    exact List.append_ne_nil_of_left_ne_nil (getLast?_origin hbase hshaped).1 _
  · rw [htext]
    exact fun h => hlast ((getLast?_text hshaped).mp h)
  · rw [htext]
    exact (rawPathHasDotSegments_text hbase hshaped).1

/-- What is left of the text of a base without the slashes at its end is the text of a base with
fewer segments, unless the path is the root or ends in a name. -/
theorem validateServerUrl_normalized (hlawful : UrlParser.Lawful parseUrl encode)
    (hparse : parseUrl url.text = .ok url) (hbase : url.IsBase)
    (hpath : url.path = .segments segments)
    (htransport : TransportAllowed url allowInsecureHttp) :
    ∃ rest, validateServerUrl parseUrl (normalizedServerUrl url) allowInsecureHttp =
        .ok (url.withSegments rest) ∧ rest.length ≤ segments.length ∧
      (rest = segments ↔ segments = [[]] ∨ segments.getLast? ≠ some []) := by
  induction hlength : segments.length generalizing url segments with
  | zero =>
    obtain ⟨segments', hshaped⟩ := hlawful.shaped hparse hbase
    obtain rfl := UrlPath.segments.inj (hpath.symm.trans hshaped.path)
    exact absurd (List.length_eq_zero_iff.mp hlength) hshaped.nonempty
  | succ length ih =>
    obtain ⟨segments', hshaped⟩ := hlawful.shaped hparse hbase
    obtain rfl := UrlPath.segments.inj (hpath.symm.trans hshaped.path)
    have htext := hbase.text_eq hpath
    by_cases hlast : segments.getLast? = some []
    · obtain ⟨front, name, rfl⟩ := (List.eq_nil_or_concat' segments).resolve_left hshaped.nonempty
      obtain rfl : name = [] := by
        rw [List.getLast?_concat] at hlast
        exact Option.some.inj hlast
      have hslash : normalizedServerUrl url =
          Lines.trimEnd '/' (url.origin ++ Url.segmentsText front) := by
        unfold normalizedServerUrl
        rw [htext, Url.segmentsText_concat, ← List.append_assoc, trimEnd_concat]
      by_cases hfront : front = []
      · -- the root
        subst hfront
        refine ⟨[[]], ?_, hlength.le, fun _ => .inl rfl, fun _ => rfl⟩
        obtain ⟨hne, horigin⟩ := getLast?_origin hbase hshaped
        have hsame : normalizedServerUrl url = url.origin := by
          rw [hslash, Url.segmentsText, List.flatMap_nil, List.append_nil,
            trimEnd_of_getLast? horigin]
        have hsafe : ∀ c ∈ url.origin, '!' ≤ c ∧ c ≤ '~' ∧ c ≠ Char.ofNat 92 := by
          intro c hc
          exact hshaped.safe c (htext ▸ List.mem_append_left _ hc)
        have hroot : url.path = .segments [[]] := hpath
        rw [hsame, Url.withSegments_self hroot]
        exact validateServerUrl_eq_ok.mpr ⟨acceptedText_of_safe hne hsafe horigin
          (rawPathHasDotSegments_text hbase hshaped).2, hlawful.parse_root hparse hbase hpath,
          hbase, htransport⟩
      · have hlong : 1 < (front ++ [[]]).length := by
          have hpos := List.length_pos_iff.mpr hfront
          rw [List.length_append, List.length_singleton]
          omega
        have hpop : Url.popSegment (front ++ [[]]) = front := by
          unfold Url.popSegment
          rw [if_pos hlong, List.dropLast_concat]
        have hparse' := hlawful.parse_pop hparse hbase hpath
        rw [hpop] at hparse'
        rw [List.length_append, List.length_singleton] at hlength
        have hbase' : (url.withSegments front).IsBase := hbase.withSegments
        obtain ⟨rest, hrest, hle, _⟩ := ih hparse' hbase' rfl htransport (by omega)
        have hsame : normalizedServerUrl (url.withSegments front) = normalizedServerUrl url := by
          rw [hslash]
          unfold normalizedServerUrl
          rw [hbase'.text_eq rfl, Url.withSegments_origin]
        rw [hsame] at hrest
        refine ⟨rest, hrest, by omega, fun h => ?_, fun h => ?_⟩
        · have hmore := congrArg List.length h
          rw [List.length_append, List.length_singleton] at hmore
          omega
        · rcases h with h | h
          · exact absurd h fun h => hfront (by simpa using congrArg List.dropLast h)
          · exact absurd hlast h
    · refine ⟨segments, ?_, hlength.le, fun _ => .inr hlast, fun _ => rfl⟩
      have hsame : normalizedServerUrl url = url.text := by
        unfold normalizedServerUrl
        rw [htext]
        exact trimEnd_of_getLast? fun h => hlast ((getLast?_text hshaped).mp h)
      rw [hsame, Url.withSegments_self hpath]
      exact validateServerUrl_text hparse hbase hshaped hlast htransport

/-! ## Remotes -/

/-- The parts of a remote stand for themselves in a route. -/
structure GitRemote.RouteSafe (remote : GitRemote) : Prop where
  host : Url.PlainSegment remote.host
  owner : Url.PlainSegment remote.owner
  name : Url.PlainSegment (remote.name ++ ".git".toList)

theorem validateRemoteComponent_eq_ok {label : String} {component : List Char}
    (h : validateRemoteComponent label value = .ok component) : component = value ∧ value ≠ [] := by
  unfold validateRemoteComponent at h
  split_ifs at h with hblank
  obtain rfl := Except.ok.inj h
  refine ⟨rfl, fun hempty => hblank (.inl ?_)⟩
  rw [hempty]
  rfl

/-- A validated component is plain. -/
theorem validateRouteComponent_eq_ok {label : String} {allowLeadingDot : Bool}
    {component : List Char}
    (h : validateRouteComponent label value allowLeadingDot = .ok component) :
    component = value ∧ Url.PlainSegment value := by
  obtain ⟨checked, hchecked, hrest⟩ := except_bind_eq_ok h
  obtain ⟨rfl, hne⟩ := validateRemoteComponent_eq_ok hchecked
  split_ifs at hrest with hunsafe
  obtain rfl := Except.ok.inj hrest
  simp only [not_or, not_not] at hunsafe
  exact ⟨rfl, hne, List.all_eq_true.mp hunsafe.2.2.2.2.2, hunsafe.1, hunsafe.2.1⟩

/-- What is in joined pieces is a separator or in a piece. -/
theorem mem_intercalate {sep c : Char} {pieces : List (List Char)}
    (h : c ∈ [sep].intercalate pieces) : c = sep ∨ ∃ piece ∈ pieces, c ∈ piece := by
  induction pieces with
  | nil => cases h
  | cons piece pieces ih =>
    cases pieces with
    | nil =>
      rw [List.intercalate_singleton] at h
      exact .inr ⟨piece, List.mem_cons_self, h⟩
    | cons next pieces =>
      rw [List.intercalate_cons_cons, List.mem_append, List.mem_append] at h
      rcases h with (h | h) | h
      · exact .inr ⟨piece, List.mem_cons_self, h⟩
      · exact .inl (List.mem_singleton.mp h)
      · rcases ih h with hsep | ⟨found, hfound, hmem⟩
        · exact .inl hsep
        · exact .inr ⟨found, List.mem_cons_of_mem _ hfound, hmem⟩

/-- A validated host is plain. -/
theorem validateRemoteHost_eq_ok {host : List Char} (h : validateRemoteHost value = .ok host) :
    Url.PlainSegment host := by
  obtain ⟨checked, hchecked, hrest⟩ := except_bind_eq_ok h
  obtain ⟨rfl, hne⟩ := validateRemoteComponent_eq_ok hchecked
  split_ifs at hrest with hunsafe
  obtain rfl := Except.ok.inj hrest
  have hlabels : ∀ label ∈ checked.splitOn '.', label ≠ [] ∧ ∀ c ∈ label, isLabelChar c = true := by
    intro label hlabel
    have hlabel' := hunsafe
    simp only [List.any_eq_true, not_exists, not_and, decide_eq_true_eq, not_or, not_not] at hlabel'
    obtain ⟨hnonempty, _, _, hall⟩ := hlabel' label hlabel
    exact ⟨hnonempty, List.all_eq_true.mp hall⟩
  refine ⟨hne, fun c hc => ?_, fun hdot => ?_, fun hdots => ?_⟩
  · have hwhole : ['.'].intercalate (checked.splitOn '.') = checked := List.intercalate_splitOn '.'
    rw [← hwhole] at hc
    unfold Url.isPlainChar
    rcases mem_intercalate hc with rfl | ⟨label, hlabel, hmem⟩
    · rfl
    · have hchar := (hlabels label hlabel).2 c hmem
      unfold isLabelChar at hchar
      rw [hchar]
      rfl
  · subst hdot
    exact (hlabels [] (by decide)).1 rfl
  · subst hdots
    exact (hlabels [] (by decide)).1 rfl

/-- A name is plain with its suffix. -/
theorem plainSegment_append_git {name : List Char} (h : Url.PlainSegment name) :
    Url.PlainSegment (name ++ ".git".toList) := by
  have hlong : 4 ≤ (name ++ ".git".toList).length := by
    rw [List.length_append]
    exact Nat.le_add_left _ _
  refine ⟨List.append_ne_nil_of_left_ne_nil h.nonempty _, fun c hc => ?_, fun hdot => ?_,
    fun hdots => ?_⟩
  · rcases List.mem_append.mp hc with hname | hgit
    · exact h.plain c hname
    · exact Text.forall_of_all (P := fun c => Url.isPlainChar c = true) rfl c hgit
  · rw [hdot] at hlong
    exact absurd hlong (by decide)
  · rw [hdots] at hlong
    exact absurd hlong (by decide)

/-- A parsed remote is safe. -/
theorem GitRemote.parse_routeSafe {remoteName remoteUrl : List Char}
    (h : GitRemote.parse parseUrl remoteName remoteUrl = .ok remote) : remote.RouteSafe := by
  obtain ⟨checkedName, _, hurl⟩ := except_bind_eq_ok h
  have hplace : ∃ place : List Char × List Char, (do
      let host ← validateRemoteHost place.1
      let names ← parseRepositoryPath place.2
      .ok ⟨checkedName, remoteUrl, host, names.1, names.2⟩) = Except.ok remote := by
    dsimp only at hurl
    split_ifs at hurl
    · obtain ⟨place, _, hparts⟩ := except_bind_eq_ok hurl
      exact ⟨place, hparts⟩
    · obtain ⟨place, _, hparts⟩ := except_bind_eq_ok hurl
      exact ⟨place, hparts⟩
  obtain ⟨place, hparts⟩ := hplace
  obtain ⟨host, hhost, hnames⟩ := except_bind_eq_ok hparts
  obtain ⟨⟨owner, name⟩, hpath, hremote⟩ := except_bind_eq_ok hnames
  obtain rfl := Except.ok.inj hremote
  unfold parseRepositoryPath at hpath
  split at hpath
  · split_ifs at hpath
    obtain ⟨owner', howner, hrepo⟩ := except_bind_eq_ok hpath
    obtain ⟨name', hname, hsuffix⟩ := except_bind_eq_ok hrepo
    split_ifs at hsuffix
    obtain ⟨rfl, rfl⟩ := Prod.mk.inj (Except.ok.inj hsuffix)
    obtain ⟨rfl, hownerPlain⟩ := validateRouteComponent_eq_ok howner
    obtain ⟨rfl, hnamePlain⟩ := validateRouteComponent_eq_ok hname
    exact ⟨validateRemoteHost_eq_ok hhost, hownerPlain, plainSegment_append_git hnamePlain⟩
  · cases hpath

/-! ## Routes -/

/-- The segments of a route stand for themselves. -/
theorem lfsRouteSegments_plain (hremote : remote.RouteSafe) :
    ∀ segment ∈ lfsRouteSegments remote, Url.PlainSegment segment := by
  have hinfo : Url.PlainSegment "info".toList := ⟨by decide, Text.forall_of_all rfl, by decide⟩
  have hlfs : Url.PlainSegment "lfs".toList := ⟨by decide, Text.forall_of_all rfl, by decide⟩
  intro segment hsegment
  simp only [lfsRouteSegments, List.mem_cons, List.not_mem_nil, or_false] at hsegment
  rcases hsegment with rfl | rfl | rfl | rfl | rfl
  · exact hremote.host
  · exact hremote.owner
  · exact hremote.name
  · exact hinfo
  · exact hlfs

/-- Plain segments are added as they are. -/
theorem foldl_pushSegment (hlawful : UrlParser.Lawful parseUrl encode) {added : List (List Char)}
    (hadded : ∀ segment ∈ added, Url.PlainSegment segment) :
    added.foldl (Url.pushSegment encode) segments = added.foldl Url.addSegment segments := by
  induction added generalizing segments with
  | nil => rfl
  | cons segment added ih =>
    obtain ⟨hsegment, hrest⟩ := List.forall_mem_cons.mp hadded
    have hpush : Url.pushSegment encode segments segment = Url.addSegment segments segment := by
      unfold Url.pushSegment
      rw [if_neg (not_or.mpr hsegment.notDot), hlawful.encode_plain hsegment]
    rw [List.foldl_cons, List.foldl_cons, hpush]
    exact ih hrest

/-- A URL to which plain segments were added is parsed again. -/
theorem parse_foldl_addSegment (hlawful : UrlParser.Lawful parseUrl encode)
    {added : List (List Char)} (hadded : ∀ segment ∈ added, Url.PlainSegment segment)
    (hparse : parseUrl url.text = .ok url) (hbase : url.IsBase)
    (hpath : url.path = .segments segments) :
    parseUrl (url.withSegments (added.foldl Url.addSegment segments)).text =
      .ok (url.withSegments (added.foldl Url.addSegment segments)) := by
  induction added generalizing url segments with
  | nil =>
    rw [List.foldl_nil, Url.withSegments_self hpath]
    exact hparse
  | cons segment added ih =>
    obtain ⟨hsegment, hrest⟩ := List.forall_mem_cons.mp hadded
    have hadd := hlawful.parse_add hparse hbase hpath hsegment
    have hall := ih hrest hadd hbase.withSegments rfl
    exact hall

/-- The URL of a route: the segments of the remote behind those of the base. -/
def routeUrl (url : Url) (segments : List (List Char)) (remote : GitRemote) : Url :=
  url.withSegments (Url.proper segments ++ lfsRouteSegments remote)

/-- A route is accepted as it is. -/
theorem validateServerUrl_route (hlawful : UrlParser.Lawful parseUrl encode)
    (hremote : remote.RouteSafe) (hparse : parseUrl url.text = .ok url) (hbase : url.IsBase)
    (hshaped : url.Shaped segments) (htransport : TransportAllowed url allowInsecureHttp) :
    appendLfsRouteSegments encode url remote = .ok (routeUrl url segments remote) ∧
      validateServerUrl parseUrl (routeUrl url segments remote).text allowInsecureHttp =
        .ok (routeUrl url segments remote) := by
  have hplain := lfsRouteSegments_plain hremote
  have hadded : (lfsRouteSegments remote).foldl Url.addSegment segments =
      Url.proper segments ++ lfsRouteSegments remote :=
    Url.foldl_addSegment_proper hshaped.nonempty hremote.host.nonempty
  have hparse' := parse_foldl_addSegment hlawful hplain hparse hbase hshaped.path
  rw [hadded] at hparse'
  obtain ⟨segments', hshaped'⟩ := hlawful.shaped hparse' hbase.withSegments
  obtain rfl := UrlPath.segments.inj hshaped'.path
  constructor
  · unfold appendLfsRouteSegments Url.pathSegments
    rw [hshaped.path]
    dsimp only
    rw [foldl_pushSegment hlawful hplain, hadded]
    rfl
  · refine validateServerUrl_text hparse' hbase.withSegments hshaped' ?_ htransport
    unfold lfsRouteSegments
    simp

/-- A base with its segments. -/
theorem resolve_eq_ok (hlawful : UrlParser.Lawful parseUrl encode) (hremote : remote.RouteSafe)
    (hvalue : validateServerUrl parseUrl value allowInsecureHttp = .ok url) :
    ∃ segments, parseUrl url.text = .ok url ∧ url.IsBase ∧ url.Shaped segments ∧
      TransportAllowed url allowInsecureHttp ∧
        LfsInitRoute.resolve parseUrl encode value remote allowInsecureHttp =
          .ok ⟨normalizedServerUrl url, remote, (routeUrl url segments remote).text⟩ := by
  obtain ⟨_, hparse, hbase, htransport⟩ := validateServerUrl_eq_ok.mp hvalue
  obtain ⟨segments, hshaped⟩ := hlawful.shaped hparse hbase
  have htext := hlawful.parse_text hparse
  obtain ⟨happend, _⟩ := validateServerUrl_route hlawful hremote htext hbase hshaped htransport
  refine ⟨segments, htext, hbase, hshaped, htransport, ?_⟩
  unfold LfsInitRoute.resolve
  rw [hvalue]
  change (do
    let lfsUrl ← appendLfsRouteSegments encode url remote
    pure (⟨normalizedServerUrl url, remote, lfsUrl.text⟩ : LfsInitRoute)) = _
  rw [happend]
  rfl

/-- What `resolve_from_lfs_url` accepts, and what it returns. -/
theorem resolveFromLfsUrl_eq_ok {route : LfsInitRoute} :
    LfsInitRoute.resolveFromLfsUrl parseUrl encode value remote allowInsecureHttp = .ok route ↔
      ∃ configured base, validateServerUrl parseUrl value allowInsecureHttp = .ok configured ∧
        withoutRouteSegments configured = .ok base ∧
        LfsInitRoute.resolve parseUrl encode (normalizedServerUrl base) remote allowInsecureHttp =
          .ok route ∧
        validateServerUrl parseUrl route.lfsUrl allowInsecureHttp = .ok configured := by
  constructor
  · intro h
    obtain ⟨configured, hconfigured, hbase⟩ := except_bind_eq_ok h
    obtain ⟨base, hwithout, hroute⟩ := except_bind_eq_ok hbase
    obtain ⟨route', hresolve, hresolved⟩ := except_bind_eq_ok hroute
    obtain ⟨resolved, hvalid, hsame⟩ := except_bind_eq_ok hresolved
    split_ifs at hsame with hne
    obtain rfl := Except.ok.inj hsame
    rw [not_not.mp hne] at hvalid
    exact ⟨configured, base, hconfigured, hwithout, hresolve, hvalid⟩
  · rintro ⟨configured, base, hconfigured, hwithout, hresolve, hvalid⟩
    unfold LfsInitRoute.resolveFromLfsUrl
    simp only [hconfigured, hwithout, hresolve, hvalid, bind, Except.bind]
    rw [if_neg (not_not.mpr rfl)]
    rfl

/-- The last segment of a path is removed. -/
theorem popSegment_concat {segment : List Char} (hne : segments ≠ []) :
    Url.popSegment (segments ++ [segment]) = segments := by
  have hpos := List.length_pos_iff.mpr hne
  unfold Url.popSegment
  rw [if_pos (by rw [List.length_append, List.length_singleton]; omega), List.dropLast_concat]

/-- A base is what is left of its route. -/
theorem withoutRouteSegments_routeUrl (remote : GitRemote) (hpath : url.path = .segments segments)
    (hne : segments ≠ []) : withoutRouteSegments (routeUrl url segments remote) = .ok url := by
  have hkeep : Url.popIfEmpty (Url.proper segments ++ lfsRouteSegments remote) =
      Url.proper segments ++ lfsRouteSegments remote := by
    unfold Url.popIfEmpty
    rw [if_neg]
    unfold lfsRouteSegments
    simp
  have hpops : Url.popSegment^[5] (Url.proper segments ++ lfsRouteSegments remote) = segments := by
    by_cases hroot : segments = [[]]
    · rw [hroot, Url.proper_root]
      rfl
    · have hroute : segments ++ lfsRouteSegments remote = segments ++ [remote.host] ++
          [remote.owner] ++ [remote.name ++ ".git".toList] ++ ["info".toList] ++
            ["lfs".toList] := by
        unfold lfsRouteSegments
        simp only [List.append_assoc, List.cons_append, List.nil_append]
      rw [Url.proper_of_ne hroot, hroute]
      simp only [Function.iterate_succ, Function.iterate_zero, Function.comp_apply, id_eq]
      rw [popSegment_concat (by simp), popSegment_concat (by simp), popSegment_concat (by simp),
        popSegment_concat (by simp), popSegment_concat hne]
  unfold withoutRouteSegments Url.pathSegments routeUrl
  dsimp only [Url.withSegments_path]
  rw [hkeep, hpops]
  exact congrArg Except.ok (Url.withSegments_self hpath)

/-- The path of a base is the root or ends in a name. -/
def EndsInName (url : Url) : Prop := url.pathText = ['/'] ∨ url.pathText.getLast? ≠ some '/'

theorem endsInName_iff (hshaped : url.Shaped segments) :
    EndsInName url ↔ segments = [[]] ∨ segments.getLast? ≠ some [] := by
  have hpath : url.pathText = Url.segmentsText segments := by
    unfold Url.pathText
    rw [hshaped.path]
  have hroot : Url.segmentsText segments = ['/'] ↔ segments = [[]] := by
    constructor
    · intro h
      obtain ⟨segment, rest, rfl⟩ := List.exists_cons_of_ne_nil hshaped.nonempty
      have hempty : segment ++ Url.segmentsText rest = [] := (List.cons.inj h).2
      obtain ⟨rfl, hrest⟩ := List.append_eq_nil_iff.mp hempty
      cases rest with
      | nil => rfl
      | cons next rest => cases hrest
    · rintro rfl
      rfl
  unfold EndsInName
  rw [hpath, hroot, ne_eq, getLast?_segmentsText hshaped]

/-- The base of a route is recovered where its path ends in a name. -/
theorem resolveFromLfsUrl_resolve (hlawful : UrlParser.Lawful parseUrl encode)
    (hremote : remote.RouteSafe)
    (hvalue : validateServerUrl parseUrl value allowInsecureHttp = .ok url) :
    ∃ route, LfsInitRoute.resolve parseUrl encode value remote allowInsecureHttp = .ok route ∧
      (LfsInitRoute.resolveFromLfsUrl parseUrl encode route.lfsUrl remote allowInsecureHttp =
        .ok route ↔ EndsInName url) := by
  obtain ⟨segments, hparse, hbase, hshaped, htransport, hresolve⟩ :=
    resolve_eq_ok hlawful hremote hvalue
  obtain ⟨_, hroute⟩ :=
    validateServerUrl_route hlawful hremote hparse hbase hshaped htransport
  have hwithout := withoutRouteSegments_routeUrl remote hshaped.path hshaped.nonempty
  obtain ⟨rest, hnormalized, _, hrest⟩ :=
    validateServerUrl_normalized hlawful hparse hbase hshaped.path htransport
  obtain ⟨rest', hparse', hbase'', hshaped', htransport', hagain⟩ :=
    resolve_eq_ok hlawful hremote hnormalized
  obtain rfl := UrlPath.segments.inj hshaped'.path
  refine ⟨_, hresolve, ?_⟩
  rw [endsInName_iff hshaped, ← hrest]
  constructor
  · intro h
    obtain ⟨configured, base, hconfigured, hbase', hresolve', hvalid⟩ :=
      resolveFromLfsUrl_eq_ok.mp h
    obtain rfl := Except.ok.inj (hroute.symm.trans hconfigured)
    obtain rfl := Except.ok.inj (hwithout.symm.trans hbase')
    have htexts : (routeUrl (url.withSegments rest) rest remote).text =
        (routeUrl url segments remote).text :=
      congrArg LfsInitRoute.lfsUrl (Except.ok.inj (hagain.symm.trans hresolve'))
    obtain ⟨_, hroute'⟩ :=
      validateServerUrl_route hlawful hremote hparse' hbase'' hshaped' htransport'
    rw [htexts, hroute] at hroute'
    have hpaths := congrArg Url.path (Except.ok.inj hroute')
    have hproper : Url.proper segments = Url.proper rest :=
      List.append_cancel_right (UrlPath.segments.inj hpaths)
    by_cases hroot : segments = [[]]
    · rw [hroot, Url.proper_root] at hproper
      by_cases hrest' : rest = [[]]
      · rw [hrest', hroot]
      · rw [Url.proper_of_ne hrest'] at hproper
        exact absurd hproper.symm hshaped'.nonempty
    · rw [Url.proper_of_ne hroot] at hproper
      by_cases hrest' : rest = [[]]
      · rw [hrest', Url.proper_root] at hproper
        exact absurd hproper hshaped.nonempty
      · rw [hproper, Url.proper_of_ne hrest']
  · intro hsame
    rw [hsame, Url.withSegments_self hshaped.path] at hagain
    refine resolveFromLfsUrl_eq_ok.mpr ⟨_, _, hroute, hwithout, ?_, hroute⟩
    exact hagain

/-- What is accepted is the route of the remote behind some segments. -/
theorem resolveFromLfsUrl_path (hlawful : UrlParser.Lawful parseUrl encode)
    (hremote : remote.RouteSafe) {route : LfsInitRoute}
    (h : LfsInitRoute.resolveFromLfsUrl parseUrl encode value remote allowInsecureHttp =
      .ok route) :
    ∃ configured front, validateServerUrl parseUrl value allowInsecureHttp = .ok configured ∧
      configured.path = .segments (front ++ lfsRouteSegments remote) := by
  obtain ⟨configured, base, hconfigured, _, hresolve, hvalid⟩ := resolveFromLfsUrl_eq_ok.mp h
  obtain ⟨server, hserver, _⟩ := except_bind_eq_ok hresolve
  obtain ⟨segments, hparse, hbase, hshaped, htransport, hagain⟩ :=
    resolve_eq_ok hlawful hremote hserver
  obtain ⟨_, hroute⟩ :=
    validateServerUrl_route hlawful hremote hparse hbase hshaped htransport
  obtain rfl := Except.ok.inj (hresolve.symm.trans hagain)
  obtain rfl := Except.ok.inj (hroute.symm.trans hvalid)
  exact ⟨_, Url.proper segments, hconfigured, rfl⟩

/-- For every base that is accepted the route of a remote is resolved, and the same route is
resolved from its URL exactly where the path of the base is the root or ends in a name. A URL is
accepted for a remote only if it is the URL of the route of a base that is accepted, and for no
remote of another repository. -/
theorem lfs_init_route_inverse (hlawful : UrlParser.Lawful parseUrl encode)
    {remoteName remoteUrl : List Char}
    (hremote : GitRemote.parse parseUrl remoteName remoteUrl = .ok remote)
    (allowInsecureHttp : Bool) :
    (∀ base url, validateServerUrl parseUrl base allowInsecureHttp = .ok url →
      ∃ route, LfsInitRoute.resolve parseUrl encode base remote allowInsecureHttp = .ok route ∧
        (LfsInitRoute.resolveFromLfsUrl parseUrl encode route.lfsUrl remote allowInsecureHttp =
          .ok route ↔ EndsInName url)) ∧
    ∀ lfsUrl route, LfsInitRoute.resolveFromLfsUrl parseUrl encode lfsUrl remote
        allowInsecureHttp = .ok route →
      (∃ base, LfsInitRoute.resolve parseUrl encode base remote allowInsecureHttp = .ok route) ∧
      (∃ url, validateServerUrl parseUrl lfsUrl allowInsecureHttp = .ok url ∧
        validateServerUrl parseUrl route.lfsUrl allowInsecureHttp = .ok url) ∧
      ∀ otherName otherUrl other otherRoute,
        GitRemote.parse parseUrl otherName otherUrl = .ok other →
        LfsInitRoute.resolveFromLfsUrl parseUrl encode lfsUrl other allowInsecureHttp =
          .ok otherRoute →
        other.host = remote.host ∧ other.owner = remote.owner ∧ other.name = remote.name := by
  have hsafe := GitRemote.parse_routeSafe hremote
  refine ⟨fun base url hvalue => resolveFromLfsUrl_resolve hlawful hsafe hvalue, ?_⟩
  intro lfsUrl route h
  obtain ⟨configured, base, hconfigured, _, hresolve, hvalid⟩ := resolveFromLfsUrl_eq_ok.mp h
  refine ⟨⟨_, hresolve⟩, ⟨configured, hconfigured, hvalid⟩, ?_⟩
  intro otherName otherUrl other otherRoute hother hotherRoute
  obtain ⟨url, front, hurl, hpath⟩ := resolveFromLfsUrl_path hlawful hsafe h
  obtain ⟨url', front', hurl', hpath'⟩ :=
    resolveFromLfsUrl_path hlawful (GitRemote.parse_routeSafe hother) hotherRoute
  obtain rfl := Except.ok.inj (hurl.symm.trans hurl')
  have hsegments := UrlPath.segments.inj (hpath'.symm.trans hpath)
  obtain ⟨_, hroute⟩ := List.append_inj' hsegments rfl
  unfold lfsRouteSegments at hroute
  simp only [List.cons.injEq, List.append_cancel_right_eq] at hroute
  exact ⟨hroute.1, hroute.2.1, hroute.2.2.1⟩

/-- The remote `git@github.com:owner/repo.git`. -/
def ownerRepoRemote : GitRemote where
  remoteName := "origin".toList
  url := "git@github.com:owner/repo.git".toList
  host := "github.com".toList
  owner := "owner".toList
  name := "repo".toList

theorem parse_ownerRepoRemote :
    GitRemote.parse PlainUrls.parse "origin".toList "git@github.com:owner/repo.git".toList =
      .ok ownerRepoRemote := by
  rfl

/-- The base `https://h/a` of a route is recovered. -/
theorem lfs_init_route_inverse_base :
    ∃ route, LfsInitRoute.resolve PlainUrls.parse id "https://h/a".toList ownerRepoRemote false =
        .ok route ∧
      LfsInitRoute.resolveFromLfsUrl PlainUrls.parse id route.lfsUrl ownerRepoRemote false =
        .ok route := by
  have hinverse := lfs_init_route_inverse PlainUrls.lawful parse_ownerRepoRemote false
  obtain ⟨route, hresolve, hexact⟩ :=
    hinverse.1 "https://h/a".toList (PlainUrls.url ['h'] [['a']]) rfl
  exact ⟨route, hresolve, hexact.mpr (.inr (by decide))⟩

/-- `https:h/a/.` is accepted: its path is `/a/`. The route is of `https://h/a/`, but the server is
`https://h/a`, and the route is not resolved from its URL. -/
theorem lfs_init_route_trailing_slash :
    ∃ route, LfsInitRoute.resolve PlainUrls.parse id "https:h/a/.".toList ownerRepoRemote false =
        .ok route ∧
      route.serverUrl = "https://h/a".toList ∧
      route.lfsUrl = "https://h/a//github.com/owner/repo.git/info/lfs".toList ∧
      LfsInitRoute.resolveFromLfsUrl PlainUrls.parse id route.lfsUrl ownerRepoRemote false ≠
        .ok route := by
  have hsafe := GitRemote.parse_routeSafe parse_ownerRepoRemote
  have hvalue : validateServerUrl PlainUrls.parse "https:h/a/.".toList false =
      .ok (PlainUrls.url ['h'] [['a'], []]) := rfl
  obtain ⟨route, hresolve, hexact⟩ := resolveFromLfsUrl_resolve PlainUrls.lawful hsafe hvalue
  have hroute : LfsInitRoute.resolve PlainUrls.parse id "https:h/a/.".toList ownerRepoRemote
      false = .ok ⟨"https://h/a".toList, ownerRepoRemote,
        "https://h/a//github.com/owner/repo.git/info/lfs".toList⟩ := rfl
  obtain rfl := Except.ok.inj (hroute.symm.trans hresolve)
  refine ⟨_, hresolve, rfl, rfl, fun h => ?_⟩
  exact absurd (hexact.mp h) (by unfold EndsInName; decide)

end LfsCloud
