import LfsCloud.Lib.PlainUrls
import LfsCloud.Lib.TextLines

/-!
# Queries of URLs

A base with a query of one pair is parsed from its text, and the pairs of the query are those that
were written, where the pair is of letters and digits.
-/

namespace Url

/-- The URL with a query of one pair. -/
def withPair (url : Url) (key value : List Char) : Url :=
  { url with query := some (key ++ '=' :: value) }

end Url

/-- What is documented of a parser of URLs and of the pairs of a query: letters and digits stand for
themselves in a query. -/
structure UrlParser.LawfulQueries (parse : List Char → Except String Url)
    (queryPairs : Url → List (String × String)) : Prop where
  parse_pair : ∀ {url : Url} {key value}, parse url.text = .ok url → url.IsBase →
    (∀ c ∈ key ++ value, c.isAlphanum = true) →
      parse (url.withPair key value).text = .ok (url.withPair key value)
  pairs : ∀ {url : Url} {key value}, (∀ c ∈ key ++ value, c.isAlphanum = true) →
    queryPairs (url.withPair key value) = [(String.ofList key, String.ofList value)]

namespace PlainUrls

variable {host : List Char} {segments : List (List Char)} {found : Url}

/-- The parser, with a query behind the first question mark. -/
def parseQuery (text : List Char) : Except String Url :=
  match Text.splitOnce '?' text with
  | none => parse text
  | some (front, query) => (parse front).map fun url => { url with query := some query }

/-- The pairs of a query. -/
def queryPairs (url : Url) : List (String × String) :=
  match url.query with
  | none => []
  | some query => ((query.splitOn '&').filter (· ≠ [])).map fun piece =>
    match Text.splitOnce '=' piece with
    | none => (String.ofList piece, "")
    | some (key, value) => (String.ofList key, String.ofList value)

theorem parseQuery_of_notMem {text : List Char} (h : '?' ∉ text) :
    parseQuery text = parse text := by
  unfold parseQuery
  rw [Text.splitOnce_of_notMem h]

/-- The text of a URL that is parsed has no question mark. -/
theorem Normal.notMem_text (h : Normal host segments) : '?' ∉ (url host segments).text := by
  have hnot : ∀ {c}, Url.isPlainChar c = true → c ≠ '?' := fun hc => (plain_char hc).2.2.2.2.1
  intro hmem
  rw [url_text] at hmem
  rcases List.mem_append.mp hmem with hmem | hmem
  · exact absurd hmem (by decide)
  · rcases List.mem_append.mp hmem with hmem | hmem
    · exact hnot (plain_of_lower (h.lower _ hmem)) rfl
    · rcases h.path_plain _ hmem with hslash | hplain
      · exact absurd hslash (by decide)
      · exact hnot hplain rfl

/-- What the parser without queries returns is parsed. -/
theorem parseQuery_of_parse (h : parse found.text = .ok found) :
    parseQuery found.text = .ok found := by
  obtain ⟨host, segments, hnormal, rfl⟩ := parse_eq_ok h
  rw [parseQuery_of_notMem hnormal.notMem_text, h]

/-- What is parsed, with and without a query. -/
theorem parseQuery_eq_ok {text : List Char} (h : parseQuery text = .ok found) :
    ∃ host segments, Normal host segments ∧ (found = url host segments ∨
      ∃ query, found = { url host segments with query := some query }) := by
  unfold parseQuery at h
  split at h
  · obtain ⟨host, segments, hnormal, rfl⟩ := parse_eq_ok h
    exact ⟨host, segments, hnormal, .inl rfl⟩
  · next front query _ =>
    cases hfront : parse front with
    | error error =>
      rw [hfront] at h
      cases h
    | ok before =>
      rw [hfront] at h
      obtain ⟨host, segments, hnormal, rfl⟩ := parse_eq_ok hfront
      exact ⟨host, segments, hnormal, .inr ⟨query, (Except.ok.inj h).symm⟩⟩

/-- A base that is parsed has no query. -/
theorem parse_of_parseQuery {text : List Char} (h : parseQuery text = .ok found)
    (hbase : found.IsBase) : ∃ host segments, Normal host segments ∧ found = url host segments ∧
      parse found.text = .ok found := by
  obtain ⟨host, segments, hnormal, rfl | ⟨query, rfl⟩⟩ := parseQuery_eq_ok h
  · exact ⟨host, segments, hnormal, rfl, hnormal.parse⟩
  · cases hbase.query

/-- The text of a URL with a query. -/
theorem text_query (query : List Char) :
    ({ url host segments with query := some query } : Url).text =
      (url host segments).text ++ '?' :: query := by
  rw [url_text]
  simp [url, Url.text, Url.origin, Url.authority, Url.pathText]

/-- A query is found behind the text of a URL. -/
theorem Normal.parseQuery_query (h : Normal host segments) (query : List Char) :
    parseQuery ((url host segments).text ++ '?' :: query) =
      .ok { url host segments with query := some query } := by
  unfold parseQuery
  rw [Text.splitOnce_append h.notMem_text]
  dsimp only
  rw [h.parse]
  rfl

/-- The parser with queries is lawful. -/
theorem lawful_parseQuery : UrlParser.Lawful parseQuery id := by
  constructor
  · exact fun _ => rfl
  · intro text found h hbase
    obtain ⟨host, segments, hnormal, rfl, _⟩ := parse_of_parseQuery h hbase
    exact ⟨segments, hnormal.shaped⟩
  · intro text found h
    obtain ⟨host, segments, hnormal, rfl | ⟨query, rfl⟩⟩ := parseQuery_eq_ok h
    · exact parseQuery_of_parse hnormal.parse
    · rw [text_query]
      exact hnormal.parseQuery_query query
  · intro found segments h hbase hpath
    obtain ⟨_, _, _, _, hparse⟩ := parse_of_parseQuery h hbase
    exact parseQuery_of_parse (lawful.parse_pop hparse hbase hpath)
  · intro found segments segment h hbase hpath hsegment
    obtain ⟨_, _, _, _, hparse⟩ := parse_of_parseQuery h hbase
    exact parseQuery_of_parse (lawful.parse_add hparse hbase hpath hsegment)
  · intro found h hbase hpath
    obtain ⟨host, segments, hnormal, rfl, hparse⟩ := parse_of_parseQuery h hbase
    have hnot : '?' ∉ (url host segments).origin := by
      intro hmem
      apply hnormal.notMem_text
      rw [hbase.text_eq rfl]
      exact List.mem_append_left _ hmem
    rw [parseQuery_of_notMem hnot]
    exact lawful.parse_root hparse hbase hpath

/-- Its queries are lawful. -/
theorem lawful_queryPairs : UrlParser.LawfulQueries parseQuery queryPairs := by
  constructor
  · intro found key value h hbase _
    obtain ⟨host, segments, hnormal, rfl, _⟩ := parse_of_parseQuery h hbase
    unfold Url.withPair
    rw [text_query]
    exact hnormal.parseQuery_query _
  · intro found key value hplain
    have hkey : '=' ∉ key :=
      fun hmem => absurd (hplain _ (List.mem_append_left _ hmem)) (by decide)
    have hsep : '&' ∉ key ++ '=' :: value := by
      intro hmem
      rcases List.mem_append.mp hmem with hmem | hmem
      · exact absurd (hplain _ (List.mem_append_left _ hmem)) (by decide)
      · rcases List.mem_cons.mp hmem with heq | hmem
        · exact absurd heq (by decide)
        · exact absurd (hplain _ (List.mem_append_right _ hmem)) (by decide)
    have hpieces : ((key ++ '=' :: value).splitOn '&').filter (· ≠ []) = [key ++ '=' :: value] := by
      rw [List.splitOn_eq_singleton hsep, List.filter_singleton]
      simp
    unfold queryPairs Url.withPair
    dsimp only
    rw [hpieces, List.map_singleton, Text.splitOnce_append hkey]

end PlainUrls
