import Mathlib.Tactic

/-!
# URLs

A URL is what a parser finds: its path is a list of segments, or a text that is no hierarchy. The
text of a URL is parsed to it again, and so is the text of a URL whose path was shortened by a
segment or extended by one that is written as itself.
-/

/-- A host: its text, and whether it is a loopback address. -/
structure UrlHost where
  text : List Char
  loopback : Bool
  deriving DecidableEq

/-- A path: segments, or a text that is no hierarchy. -/
inductive UrlPath
  | segments (list : List (List Char))
  | text (text : List Char)
  deriving DecidableEq

/-- The parts of a URL. A port that is the default of its scheme is left out. -/
structure Url where
  scheme : List Char
  username : List Char
  password : Option (List Char)
  host : Option UrlHost
  port : Option ℕ
  path : UrlPath
  query : Option (List Char)
  fragment : Option (List Char)
  deriving DecidableEq

namespace Url

/-! ## Segments -/

/-- The text of a list of segments. -/
def segmentsText (segments : List (List Char)) : List Char := segments.flatMap ('/' :: ·)

/-- Remove the last segment; one that is alone becomes empty. -/
def popSegment (segments : List (List Char)) : List (List Char) :=
  if 1 < segments.length then segments.dropLast else [[]]

/-- Remove the last segment if it is empty and not alone. -/
def popIfEmpty (segments : List (List Char)) : List (List Char) :=
  if 1 < segments.length ∧ segments.getLast? = some [] then segments.dropLast else segments

/-- Add a segment as it is written; an empty one that is alone is replaced. -/
def addSegment (segments : List (List Char)) (written : List Char) : List (List Char) :=
  if segments = [[]] then [written] else segments ++ [written]

/-- Add a segment; a dot segment is left out. -/
def pushSegment (encode : List Char → List Char) (segments : List (List Char))
    (segment : List Char) : List (List Char) :=
  if segment = ['.'] ∨ segment = ['.', '.'] then segments else addSegment segments (encode segment)

/-- What is taken for a dot segment. -/
def isDot (segment : List Char) : Bool :=
  segment.map Char.toLower ∈ [".".toList, "..".toList, "%2e".toList, ".%2e".toList, "%2e.".toList,
    "%2e%2e".toList]

/-- A character that stands for itself in a segment. -/
def isPlainChar (c : Char) : Bool := c.isAlphanum || c = '-' || c = '_' || c = '.'

/-- A segment that is written as itself and is no dot segment. -/
structure PlainSegment (segment : List Char) : Prop where
  nonempty : segment ≠ []
  plain : ∀ c ∈ segment, isPlainChar c = true
  notDot : segment ≠ ['.'] ∧ segment ≠ ['.', '.']

/-! ## Text -/

variable (url : Url)

/-- The text of the host and the port, behind the user. -/
def authority : List Char :=
  match url.host with
  | none => []
  | some host =>
    let user :=
      if url.username = [] ∧ url.password = none then []
      else url.username ++ url.password.elim [] (':' :: ·) ++ ['@']
    "//".toList ++ user ++ host.text ++ url.port.elim [] fun port => ':' :: Nat.toDigits 10 port

/-- The text before the path. -/
def origin : List Char := url.scheme ++ ':' :: url.authority

/-- The text of the path. -/
def pathText : List Char :=
  match url.path with
  | .segments list => segmentsText list
  | .text text => text

/-- The text of a URL. -/
def text : List Char :=
  url.origin ++ url.pathText ++ url.query.elim [] ('?' :: ·) ++ url.fragment.elim [] ('#' :: ·)

/-- The URL with another list of segments. -/
def withSegments (segments : List (List Char)) : Url := { url with path := .segments segments }

/-- The segments of the path, to be changed. -/
def pathSegments : Option (List (List Char)) :=
  match url.path with
  | .segments list => some list
  | .text _ => none

/-- An HTTP URL of a host, and nothing behind its path. -/
structure IsBase : Prop where
  scheme : url.scheme = "http".toList ∨ url.scheme = "https".toList
  host : url.host.isSome = true
  username : url.username = []
  password : url.password = none
  query : url.query = none
  fragment : url.fragment = none

/-- What the parser makes sure of. -/
structure Shaped (segments : List (List Char)) : Prop where
  path : url.path = .segments segments
  nonempty : segments ≠ []
  host : ∀ host ∈ url.host, host.text ≠ [] ∧ '/' ∉ host.text
  separators : ∀ segment ∈ segments, '/' ∉ segment ∧ '?' ∉ segment ∧ '#' ∉ segment
  notDot : ∀ segment ∈ segments, isDot segment = false
  safe : ∀ c ∈ url.text, '!' ≤ c ∧ c ≤ '~' ∧ c ≠ Char.ofNat 92

end Url

/-- What is documented of a parser of URLs and of how a segment is written: the text of a URL is
parsed to it, before and after a change of its segments; an HTTP URL has a path, without dot
segments, and a root path need not be written. -/
structure UrlParser.Lawful (parse : List Char → Except String Url)
    (encode : List Char → List Char) : Prop where
  encode_plain : ∀ {segment}, Url.PlainSegment segment → encode segment = segment
  shaped : ∀ {text url}, parse text = .ok url → url.IsBase → ∃ segments, url.Shaped segments
  parse_text : ∀ {text url}, parse text = .ok url → parse url.text = .ok url
  parse_pop : ∀ {url segments}, parse url.text = .ok url → url.IsBase →
    url.path = .segments segments →
      parse (url.withSegments (Url.popSegment segments)).text =
        .ok (url.withSegments (Url.popSegment segments))
  parse_add : ∀ {url segments segment}, parse url.text = .ok url → url.IsBase →
    url.path = .segments segments → Url.PlainSegment segment →
      parse (url.withSegments (Url.addSegment segments segment)).text =
        .ok (url.withSegments (Url.addSegment segments segment))
  parse_root : ∀ {url}, parse url.text = .ok url → url.IsBase → url.path = .segments [[]] →
    parse url.origin = .ok url

namespace Url

variable {url : Url} {segments : List (List Char)}

@[simp] theorem withSegments_origin : (url.withSegments segments).origin = url.origin := rfl

@[simp] theorem withSegments_path : (url.withSegments segments).path = .segments segments := rfl

theorem IsBase.withSegments (h : url.IsBase) : (url.withSegments segments).IsBase :=
  ⟨h.scheme, h.host, h.username, h.password, h.query, h.fragment⟩

theorem withSegments_self (h : url.path = .segments segments) :
    url.withSegments segments = url := by
  unfold Url.withSegments
  rw [← h]

/-- The text of a base is its origin and its path. -/
theorem IsBase.text_eq (h : url.IsBase) (hpath : url.path = .segments segments) :
    url.text = url.origin ++ segmentsText segments := by
  unfold Url.text pathText
  rw [h.query, h.fragment, hpath]
  simp

/-- The origin of a base is its scheme and its host. -/
theorem IsBase.origin_eq (h : url.IsBase) {host : UrlHost} (hhost : url.host = some host) :
    url.origin = url.scheme ++ "://".toList ++
      (host.text ++ url.port.elim [] fun port => ':' :: Nat.toDigits 10 port) := by
  unfold Url.origin authority
  rw [hhost, h.username, h.password]
  simp

theorem segmentsText_concat (written : List Char) :
    segmentsText (segments ++ [written]) = segmentsText segments ++ '/' :: written := by
  unfold segmentsText
  rw [List.flatMap_append, List.flatMap_singleton]

/-- A text that is split at its slashes gives the segments again. -/
theorem splitOn_segmentsText {segment : List Char} (hsegment : '/' ∉ segment)
    (hsegments : ∀ segment ∈ segments, '/' ∉ segment) :
    (segment ++ segmentsText segments).splitOn '/' = segment :: segments := by
  induction segments generalizing segment with
  | nil =>
    rw [segmentsText, List.flatMap_nil, List.append_nil]
    exact List.splitOn_eq_singleton hsegment
  | cons next segments ih =>
    obtain ⟨hnext, hrest⟩ := List.forall_mem_cons.mp hsegments
    have htext : segmentsText (next :: segments) = '/' :: (next ++ segmentsText segments) := rfl
    rw [htext, List.splitOn_append_cons_self_of_not_mem hsegment, ih hnext hrest]

/-- A port is written without a slash. -/
theorem slash_notMem_port {port : Option ℕ} :
    '/' ∉ port.elim [] fun port => ':' :: Nat.toDigits 10 port := by
  cases port with
  | none => exact List.not_mem_nil
  | some port =>
    intro hmem
    rcases List.mem_cons.mp hmem with h | h
    · exact absurd h (by decide)
    · have hdigit := Nat.isDigit_of_mem_toDigits (by omega) (by omega) h
      exact absurd hdigit (by decide)

/-- Added segments follow those that are there. -/
theorem foldl_addSegment {added : List (List Char)} (hne : segments ≠ [])
    (hroot : segments ≠ [[]]) :
    added.foldl addSegment segments = segments ++ added := by
  induction added generalizing segments with
  | nil => rw [List.foldl_nil, List.append_nil]
  | cons written added ih =>
    have hadd : addSegment segments written = segments ++ [written] := if_neg hroot
    have hlong : segments ++ [written] ≠ [[]] := by
      intro h
      rcases List.append_eq_singleton_iff.mp h with ⟨h, _⟩ | ⟨_, h⟩
      · exact hne h
      · exact absurd h (List.cons_ne_nil _ _)
    rw [List.foldl_cons, hadd, ih (by simp) hlong, List.append_assoc, List.singleton_append]

/-- The segments of a path, none for the root. -/
def proper (segments : List (List Char)) : List (List Char) :=
  if segments = [[]] then [] else segments

/-- Segments are added behind those of the path. -/
theorem foldl_addSegment_proper {written : List Char} {added : List (List Char)}
    (hne : segments ≠ []) (hwritten : written ≠ []) :
    (written :: added).foldl addSegment segments = proper segments ++ written :: added := by
  unfold proper
  split_ifs with hroot
  · have hadd : addSegment segments written = [written] := if_pos hroot
    rw [List.foldl_cons, hadd, foldl_addSegment (by simp) (by simpa using hwritten)]
    rfl
  · exact foldl_addSegment hne hroot

/-- The path text of segments that are not the root. -/
theorem proper_of_ne (h : segments ≠ [[]]) : proper segments = segments := if_neg h

@[simp] theorem proper_root : proper [[]] = [] := if_pos rfl

end Url
