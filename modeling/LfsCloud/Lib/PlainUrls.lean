import LfsCloud.Lib.HttpUrl
import LfsCloud.Lib.Records
import LfsCloud.Lib.Text

/-!
# A parser of plain URLs

HTTPS URLs of a host in lower-case letters, with a path of letters, digits and the characters that
stand for themselves, are parsed. Other texts are rejected. The parser is lawful.
-/

namespace PlainUrls

/-- Remove the dot segments, behind segments without them. -/
def removeDots : List (List Char) → List (List Char) → List (List Char)
  | done, [] => done
  | done, [last] =>
    if last = ['.'] then done ++ [[]]
    else if last = ['.', '.'] then done.dropLast ++ [[]]
    else done ++ [last]
  | done, segment :: next :: rest =>
    if segment = ['.'] then removeDots done (next :: rest)
    else if segment = ['.', '.'] then removeDots done.dropLast (next :: rest)
    else removeDots (done ++ [segment]) (next :: rest)

/-- The segments of the text of a path. -/
def segmentsOf (path : List Char) : List (List Char) := removeDots [] (path.tail.splitOn '/')

/-- The URL of a host and segments. -/
def url (host : List Char) (segments : List (List Char)) : Url :=
  ⟨"https".toList, [], none, some ⟨host, false⟩, none, .segments segments, none, none⟩

/-- The parser. The slashes before the host may be more or less than two. -/
def parse (text : List Char) : Except String Url :=
  if "https:".toList <+: text then
    let rest := (text.drop 6).dropWhile (· = '/')
    let host := rest.takeWhile (· ≠ '/')
    let path := rest.dropWhile (· ≠ '/')
    if host ≠ [] ∧ host.all Char.isLower ∧ path.all (fun c => c = '/' || Url.isPlainChar c) then
      .ok (url host (segmentsOf path))
    else .error "unsupported URL"
  else .error "relative URL without a base"

/-- A segment of plain characters that is no dot segment. -/
structure Segment (segment : List Char) : Prop where
  plain : ∀ c ∈ segment, Url.isPlainChar c = true
  notDot : segment ≠ ['.'] ∧ segment ≠ ['.', '.']

/-- What the parser returns. -/
structure Normal (host : List Char) (segments : List (List Char)) : Prop where
  nonempty : host ≠ []
  lower : ∀ c ∈ host, c.isLower = true
  segments_ne_nil : segments ≠ []
  segments : ∀ segment ∈ segments, Segment segment

variable {host : List Char} {segments : List (List Char)}

/-! ## Characters -/

/-- A plain character is visible, and neither a separator nor changed to a dot. -/
theorem plain_char {c : Char} (h : Url.isPlainChar c = true) :
    '!' ≤ c ∧ c ≤ '~' ∧ c ≠ Char.ofNat 92 ∧ c ≠ '/' ∧ c ≠ '?' ∧ c ≠ '#' ∧ c.toLower ≠ '%' ∧
      (c.toLower = '.' → c = '.') := by
  have hcode : c.toNat < 128 := by
    change (((((decide (c.val ≥ 'A'.val ∧ c.val ≤ 'Z'.val) ||
      (c.val ≥ 'a'.val && c.val ≤ 'z'.val)) ||
      (c.val ≥ '0'.val && c.val ≤ '9'.val)) || c = '-') || c = '_') || c = '.') = true at h
    simp only [Bool.or_eq_true, Bool.and_eq_true, decide_eq_true_eq, ge_iff_le,
      UInt32.le_iff_toNat_le] at h
    change c.val.toNat < 128
    have hupper : 'Z'.val.toNat = 90 := rfl
    have hlower : 'z'.val.toNat = 122 := rfl
    have hdigit : '9'.val.toNat = 57 := rfl
    rcases h with ((((h | h) | h) | rfl) | rfl) | rfl
    · omega
    · omega
    · omega
    · decide
    · decide
    · decide
  exact Text.forall_of_toNat_lt (P := fun c => Url.isPlainChar c = true → '!' ≤ c ∧ c ≤ '~' ∧
    c ≠ Char.ofNat 92 ∧ c ≠ '/' ∧ c ≠ '?' ∧ c ≠ '#' ∧ c.toLower ≠ '%' ∧
      (c.toLower = '.' → c = '.')) (by decide) hcode h

/-- A lower-case letter is plain. -/
theorem plain_of_lower {c : Char} (h : c.isLower = true) : Url.isPlainChar c = true := by
  change (((((c.isUpper || c.isLower) || c.isDigit) || c = '-') || c = '_') || c = '.') = true
  rw [h]
  simp

/-- A segment is no dot segment in any spelling. -/
theorem Segment.isDot {segment : List Char} (h : Segment segment) : Url.isDot segment = false := by
  have hpercent : '%' ∉ segment.map Char.toLower := by
    intro hmem
    obtain ⟨c, hc, hlower⟩ := List.mem_map.mp hmem
    exact (plain_char (h.plain c hc)).2.2.2.2.2.2.1 hlower
  have hdot : ∀ c ∈ segment, c.toLower = '.' → c = '.' :=
    fun c hc => (plain_char (h.plain c hc)).2.2.2.2.2.2.2
  unfold Url.isDot
  rw [decide_eq_false_iff_not]
  intro hmem
  simp only [List.mem_cons, List.not_mem_nil, or_false] at hmem
  rcases hmem with hlower | hlower | hlower | hlower | hlower | hlower
  · obtain ⟨c, rest, rfl, hc, hrest⟩ := List.map_eq_cons_iff.mp hlower
    obtain rfl := List.map_eq_nil_iff.mp hrest
    exact h.notDot.1 (by rw [hdot c List.mem_cons_self hc])
  · obtain ⟨c, rest, rfl, hc, hrest⟩ := List.map_eq_cons_iff.mp hlower
    obtain ⟨d, rest, rfl, hd, hrest⟩ := List.map_eq_cons_iff.mp hrest
    obtain rfl := List.map_eq_nil_iff.mp hrest
    exact h.notDot.2 (by rw [hdot c (by simp) hc, hdot d (by simp) hd])
  all_goals exact hpercent (hlower ▸ by decide)

/-! ## Segments -/

theorem removeDots_segment {done : List (List Char)} (hdone : ∀ s ∈ done, Segment s)
    (hsegments : ∀ s ∈ segments, ∀ c ∈ s, Url.isPlainChar c = true) :
    (∀ s ∈ removeDots done segments, Segment s) ∧
      (segments ≠ [] → removeDots done segments ≠ []) := by
  have hempty : Segment [] := ⟨fun _ h => absurd h List.not_mem_nil, by decide⟩
  have happend : ∀ (list : List (List Char)) (s : List Char), (∀ s ∈ list, Segment s) → Segment s →
      ∀ t ∈ list ++ [s], Segment t := by
    intro list s hlist hs t ht
    rcases List.mem_append.mp ht with ht | ht
    · exact hlist t ht
    · exact List.mem_singleton.mp ht ▸ hs
  have hdropLast : ∀ list : List (List Char), (∀ s ∈ list, Segment s) →
      ∀ s ∈ list.dropLast, Segment s :=
    fun list hlist s hs => hlist s (List.mem_of_mem_dropLast hs)
  induction done, segments using removeDots.induct with
  | case1 done => exact ⟨hdone, fun h => absurd rfl h⟩
  | case2 done =>
    unfold removeDots
    rw [if_pos rfl]
    exact ⟨happend _ _ hdone hempty, fun _ => by simp⟩
  | case3 done hne =>
    unfold removeDots
    rw [if_neg hne, if_pos rfl]
    exact ⟨happend _ _ (hdropLast _ hdone) hempty, fun _ => by simp⟩
  | case4 done last hdot hdots =>
    unfold removeDots
    rw [if_neg hdot, if_neg hdots]
    exact ⟨happend _ _ hdone ⟨hsegments last (by simp), hdot, hdots⟩, fun _ => by simp⟩
  | case5 done next rest ih =>
    obtain ⟨hall, hne⟩ := ih hdone fun s hs => hsegments s (List.mem_cons_of_mem _ hs)
    unfold removeDots
    rw [if_pos rfl]
    exact ⟨hall, fun _ => hne (List.cons_ne_nil _ _)⟩
  | case6 done next rest hdot ih =>
    obtain ⟨hall, hne⟩ := ih (hdropLast _ hdone) fun s hs => hsegments s (List.mem_cons_of_mem _ hs)
    unfold removeDots
    rw [if_neg hdot, if_pos rfl]
    exact ⟨hall, fun _ => hne (List.cons_ne_nil _ _)⟩
  | case7 done segment next rest hdot hdots ih =>
    obtain ⟨hall, hne⟩ := ih
      (happend _ _ hdone ⟨hsegments segment List.mem_cons_self, hdot, hdots⟩)
      fun s hs => hsegments s (List.mem_cons_of_mem _ hs)
    unfold removeDots
    rw [if_neg hdot, if_neg hdots]
    exact ⟨hall, fun _ => hne (List.cons_ne_nil _ _)⟩

/-- Without dot segments nothing is removed. -/
theorem removeDots_of_segment {done : List (List Char)}
    (hsegments : ∀ s ∈ segments, Segment s) : removeDots done segments = done ++ segments := by
  induction segments generalizing done with
  | nil =>
    unfold removeDots
    rw [List.append_nil]
  | cons segment segments ih =>
    obtain ⟨hsegment, hrest⟩ := List.forall_mem_cons.mp hsegments
    cases segments with
    | nil =>
      unfold removeDots
      rw [if_neg hsegment.notDot.1, if_neg hsegment.notDot.2]
    | cons next rest =>
      unfold removeDots
      rw [if_neg hsegment.notDot.1, if_neg hsegment.notDot.2, ih hrest, List.append_assoc,
        List.singleton_append]

/-! ## Laws -/

theorem url_origin : (url host segments).origin = "https://".toList ++ host := by
  simp [url, Url.origin, Url.authority]

theorem url_text : (url host segments).text = "https://".toList ++ (host ++
    Url.segmentsText segments) := by
  unfold Url.text
  rw [url_origin]
  simp [url, Url.pathText]

/-- The host and the path of a text are found. -/
theorem parse_https {path : List Char} (hne : host ≠ []) (hlower : ∀ c ∈ host, c.isLower = true)
    (hpath : ∀ c ∈ path, c = '/' ∨ Url.isPlainChar c = true)
    (hstart : path = [] ∨ path.head? = some '/') :
    parse ("https://".toList ++ (host ++ path)) = .ok (url host (segmentsOf path)) := by
  have hslash : ∀ c ∈ host, c ≠ '/' :=
    fun c hc => (plain_char (plain_of_lower (hlower c hc))).2.2.2.1
  have hdrop : ("https://".toList ++ (host ++ path)).drop 6 = '/' :: '/' :: (host ++ path) := rfl
  have hhead : (host ++ path).dropWhile (· = '/') = host ++ path := by
    obtain ⟨c, rest, rfl⟩ := List.exists_cons_of_ne_nil hne
    have hc : c ≠ '/' := hslash c List.mem_cons_self
    rw [List.cons_append, List.dropWhile_cons, if_neg (by simpa using hc)]
  have hrest : ('/' :: '/' :: (host ++ path)).dropWhile (· = '/') = host ++ path := by
    rw [List.dropWhile_cons, if_pos (by decide), List.dropWhile_cons, if_pos (by decide), hhead]
  have hall : ∀ c ∈ host, decide (c ≠ '/') = true := fun c hc => decide_eq_true (hslash c hc)
  have hnone : path.takeWhile (· ≠ '/') = [] ∧ path.dropWhile (· ≠ '/') = path := by
    cases path with
    | nil => exact ⟨rfl, rfl⟩
    | cons c path =>
      obtain rfl : c = '/' := by simpa using hstart
      exact ⟨rfl, rfl⟩
  have htake : (host ++ path).takeWhile (· ≠ '/') = host := by
    rw [List.takeWhile_append_of_pos hall, hnone.1, List.append_nil]
  have hbehind : (host ++ path).dropWhile (· ≠ '/') = path := by
    rw [List.dropWhile_append_of_pos hall, hnone.2]
  unfold parse
  rw [if_pos ⟨'/' :: '/' :: (host ++ path), rfl⟩]
  dsimp only
  rw [hdrop, hrest, htake, hbehind, if_pos]
  refine ⟨hne, List.all_eq_true.mpr hlower, List.all_eq_true.mpr fun c hc => ?_⟩
  simpa using hpath c hc

theorem Normal.path_plain (h : Normal host segments) :
    ∀ c ∈ Url.segmentsText segments, c = '/' ∨ Url.isPlainChar c = true := by
  intro c hc
  obtain ⟨segment, hsegment, hmem⟩ := List.mem_flatMap.mp hc
  rcases List.mem_cons.mp hmem with h' | h'
  · exact .inl h'
  · exact .inr ((h.segments segment hsegment).plain c h')

/-- What the parser returns is parsed from its text. -/
theorem Normal.parse (h : Normal host segments) :
    parse (url host segments).text = .ok (url host segments) := by
  obtain ⟨segment, rest, rfl⟩ := List.exists_cons_of_ne_nil h.segments_ne_nil
  have hslash : ∀ s ∈ segment :: rest, '/' ∉ s :=
    fun s hs hmem => (plain_char ((h.segments s hs).plain _ hmem)).2.2.2.1 rfl
  have hsegments : segmentsOf (Url.segmentsText (segment :: rest)) = segment :: rest := by
    change removeDots [] ((segment ++ Url.segmentsText rest).splitOn '/') = _
    rw [Url.splitOn_segmentsText (hslash _ List.mem_cons_self)
      fun s hs => hslash s (List.mem_cons_of_mem _ hs), removeDots_of_segment h.segments,
      List.nil_append]
  rw [url_text, parse_https h.nonempty h.lower h.path_plain (.inr rfl), hsegments]

/-- A URL that is parsed is normal. -/
theorem parse_eq_ok {text : List Char} {found : Url} (h : parse text = .ok found) :
    ∃ host segments, Normal host segments ∧ found = url host segments := by
  unfold PlainUrls.parse at h
  split_ifs at h with hscheme
  dsimp only at h
  split_ifs at h with hvalid
  obtain rfl := Except.ok.inj h
  obtain ⟨hne, hlower, hpath⟩ := hvalid
  have hpieces : ∀ s ∈ ((((text.drop 6).dropWhile (· = '/')).dropWhile (· ≠ '/')).tail.splitOn '/'),
      ∀ c ∈ s, Url.isPlainChar c = true := by
    intro s hs c hc
    obtain ⟨hmem, hsep⟩ := Records.mem_of_mem_splitOn s hs c hc
    have hplain := List.all_eq_true.mp hpath c (List.mem_of_mem_tail hmem)
    simpa [hsep] using hplain
  obtain ⟨hsegments, hnonempty⟩ :=
    removeDots_segment (fun s hs => absurd hs List.not_mem_nil) hpieces
  exact ⟨_, _, ⟨hne, List.all_eq_true.mp hlower, hnonempty (List.splitOn_ne_nil _ _), hsegments⟩,
    rfl⟩

theorem Normal.withSegments {other : List (List Char)} (h : Normal host segments)
    (hne : other ≠ []) (hother : ∀ s ∈ other, Segment s) : Normal host other :=
  ⟨h.nonempty, h.lower, hne, hother⟩

/-- What is known of a URL that is parsed. -/
theorem Normal.shaped (h : Normal host segments) : (url host segments).Shaped segments := by
  have hseparators : ∀ s ∈ segments, '/' ∉ s ∧ '?' ∉ s ∧ '#' ∉ s := by
    intro s hs
    have hplain := fun c hc => plain_char ((h.segments s hs).plain c hc)
    exact ⟨fun hc => (hplain _ hc).2.2.2.1 rfl, fun hc => (hplain _ hc).2.2.2.2.1 rfl,
      fun hc => (hplain _ hc).2.2.2.2.2.1 rfl⟩
  have hhost : ∀ c ∈ host, Url.isPlainChar c = true := fun c hc => plain_of_lower (h.lower c hc)
  refine ⟨rfl, h.segments_ne_nil, ?_, hseparators, fun s hs => (h.segments s hs).isDot, ?_⟩
  · rintro found hfound
    obtain rfl := Option.some.inj hfound
    exact ⟨h.nonempty, fun hc => (plain_char (hhost _ hc)).2.2.2.1 rfl⟩
  · have hslash : '!' ≤ '/' ∧ '/' ≤ '~' ∧ '/' ≠ Char.ofNat 92 := by decide
    have hsafe : ∀ c, Url.isPlainChar c = true → '!' ≤ c ∧ c ≤ '~' ∧ c ≠ Char.ofNat 92 := by
      intro c hc
      obtain ⟨hlow, hhigh, hne, _⟩ := plain_char hc
      exact ⟨hlow, hhigh, hne⟩
    have hscheme : ∀ c ∈ "https://".toList, '!' ≤ c ∧ c ≤ '~' ∧ c ≠ Char.ofNat 92 :=
      Text.forall_of_all rfl
    intro c hc
    rw [url_text] at hc
    rcases List.mem_append.mp hc with hc | hc
    · exact hscheme c hc
    · rcases List.mem_append.mp hc with hc | hc
      · exact hsafe c (hhost c hc)
      · rcases h.path_plain c hc with rfl | hc
        · exact hslash
        · exact hsafe c hc

/-- The parser is lawful. -/
theorem lawful : UrlParser.Lawful parse id := by
  have hnormal : ∀ {found : Url}, parse found.text = .ok found →
      ∃ host segments, Normal host segments ∧ found = url host segments := fun h => parse_eq_ok h
  constructor
  · exact fun _ => rfl
  · intro text found h _
    obtain ⟨host, segments, hnormal, rfl⟩ := parse_eq_ok h
    exact ⟨segments, hnormal.shaped⟩
  · intro text found h
    obtain ⟨host, segments, hnormal, rfl⟩ := parse_eq_ok h
    exact hnormal.parse
  · intro found segments h _ hpath
    obtain ⟨host, others, hnormal, rfl⟩ := hnormal h
    obtain rfl := UrlPath.segments.inj hpath
    have hempty : Segment [] := ⟨fun _ h => absurd h List.not_mem_nil, by decide⟩
    have hpop : Normal host (Url.popSegment others) := by
      unfold Url.popSegment
      split_ifs with hlong
      · refine hnormal.withSegments (fun hnil => ?_)
          fun s hs => hnormal.segments s (List.mem_of_mem_dropLast hs)
        have hlength := congrArg List.length hnil
        rw [List.length_dropLast, List.length_nil] at hlength
        omega
      · refine hnormal.withSegments (List.cons_ne_nil _ _) fun s hs => ?_
        rw [List.mem_singleton.mp hs]
        exact hempty
    exact hpop.parse
  · intro found segments segment h _ hpath hsegment
    obtain ⟨host, others, hnormal, rfl⟩ := hnormal h
    obtain rfl := UrlPath.segments.inj hpath
    have hplain : Segment segment := ⟨hsegment.plain, hsegment.notDot⟩
    have hadd : Normal host (Url.addSegment others segment) := by
      unfold Url.addSegment
      split_ifs with hroot
      · refine hnormal.withSegments (List.cons_ne_nil _ _) fun s hs => ?_
        rw [List.mem_singleton.mp hs]
        exact hplain
      · refine hnormal.withSegments (by simp) fun s hs => ?_
        rcases List.mem_append.mp hs with hs | hs
        · exact hnormal.segments s hs
        · rw [List.mem_singleton.mp hs]
          exact hplain
    exact hadd.parse
  · intro found h _ hpath
    obtain ⟨host, others, hnormal, rfl⟩ := hnormal h
    obtain rfl := UrlPath.segments.inj hpath
    have horigin := parse_https hnormal.nonempty hnormal.lower
      (fun c hc => absurd hc List.not_mem_nil) (.inl rfl)
    rw [List.append_nil] at horigin
    rw [url_origin]
    exact horigin

end PlainUrls
