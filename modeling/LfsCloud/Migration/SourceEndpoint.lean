import LfsCloud.Lib.Lines
import LfsCloud.Lib.TextLines

/-!
# The source endpoint of a remote

A remote is an HTTP or SSH URL or an SSH address as `scp` takes it. The endpoint of its Git LFS
objects is derived from it where none is configured.
-/

namespace LfsCloud

/-! ## URLs -/

/-- The parts of a URL that are looked at; the query and the fragment are there or not. -/
structure RemoteUrl where
  scheme : List Char
  userinfo : List Char
  host : Option (List Char)
  path : List Char
  query : Option (List Char)
  fragment : Option (List Char)

/-- The text of a URL with a host, without a query and a fragment. -/
def RemoteUrl.text (url : RemoteUrl) : List Char :=
  url.scheme ++ "://".toList ++ url.userinfo ++ url.host.getD [] ++ url.path

/-- A letter, a digit, or what else stands in the name of a host or of a user. -/
def isHostChar (c : Char) : Bool :=
  ('a' ≤ c && c ≤ 'z') || ('A' ≤ c && c ≤ 'Z') || ('0' ≤ c && c ≤ '9') || c = '-' || c = '.' ||
    c = '_'

/-- A character that stands for itself in the path of a URL: visible, and neither a separator nor
one that is written as its code. -/
def isNameChar (c : Char) : Bool :=
  '!' ≤ c && c ≤ '~' && c ∉ ['/', ':', '?', '#', '%', '<', '>', '^', '{', '|', '}', Char.ofNat 34,
    Char.ofNat 92, Char.ofNat 96]

/-- A host, or a user at it. -/
structure HostName where
  text : List Char
  nonempty : text ≠ []
  plain : ∀ c ∈ text, isHostChar c = true

/-- An owner, or a repository. -/
structure PathName where
  text : List Char
  nonempty : text ≠ []
  plain : ∀ c ∈ text, isNameChar c = true
  notDot : text ≠ ['.'] ∧ text ≠ ['.', '.']

/-- A path of names: nothing in it is written as its code or taken for a dot segment. -/
def PlainPath (path : List Char) : Prop :=
  ∀ segment ∈ path.splitOn '/', (∀ c ∈ segment, isNameChar c = true) ∧ segment ≠ ['.'] ∧
    segment ≠ ['.', '.']

/-- What is used of a library for URLs, with what is documented of it. -/
structure UrlLibrary where
  parse : List Char → Option RemoteUrl
  /-- The host of an HTTP URL in its normal form, if it is accepted. -/
  domain : List Char → Option (List Char)
  /-- A segment that is added to a path. -/
  encodeSegment : List Char → List Char
  parse_https : ∀ (host : HostName) (path : List Char), PlainPath path →
    parse ("https://".toList ++ host.text ++ '/' :: path) =
      (domain host.text).map fun normal => ⟨"https".toList, [], some normal, '/' :: path, none, none⟩
  parse_ssh : ∀ (user : Option HostName) (host : HostName) (path : List Char), PlainPath path →
    parse ("ssh://".toList ++ (user.elim [] fun user => user.text ++ ['@']) ++ host.text ++
        '/' :: path) =
      some ⟨"ssh".toList, user.elim [] fun user => user.text ++ ['@'], some host.text, '/' :: path,
        none, none⟩
  encodeSegment_plain : ∀ name : PathName, encodeSegment name.text = name.text

/-- Segments are added to a path; a dot segment is left out. -/
def RemoteUrl.extend (lib : UrlLibrary) (url : RemoteUrl) (segments : List (List Char)) :
    RemoteUrl :=
  segments.foldl (fun url segment =>
    if segment = ['.'] ∨ segment = ['.', '.'] then url
    else
      let path := if url.path.length = 1 then url.path else url.path ++ ['/']
      { url with path := path ++ lib.encodeSegment segment }) url

/-! ## The derivation -/

/-- `trim_matches('/')`. -/
def trimMatchesSlash (text : List Char) : List Char :=
  Lines.trimEnd '/' (text.dropWhile (· = '/'))

/-- What is before and behind the last `@`. -/
def rsplitAt (text : List Char) : Option (List Char × List Char) :=
  (Text.splitOnce '@' text.reverse).map fun (behind, before) => (before.reverse, behind.reverse)

/-- The segments that end an endpoint. -/
def infoLfs : List (List Char) := ["info".toList, "lfs".toList]

section Derivation

variable (lib : UrlLibrary)

/-- `append_info_lfs_to_url`. -/
def appendInfoLfsToUrl (url : RemoteUrl) : Option (List Char) :=
  if trimMatchesSlash url.path = [] ∨ url.query.isSome ∨ url.fragment.isSome then none
  else some (url.extend lib infoLfs).text

/-- `default_https_lfs_endpoint`. -/
def defaultHttpsLfsEndpoint (host path : List Char) : Option (List Char) :=
  if host = [] ∨ path = [] ∨ '?' ∈ path ∨ '#' ∈ path then none
  else (lib.parse ("https://".toList ++ host ++ ['/'])).map fun url =>
    ((url.extend lib ((path.splitOn '/').filter (· ≠ []))).extend lib infoLfs).text

/-- `default_lfs_endpoint_for_scp_like_remote`. -/
def defaultLfsEndpointForScpLikeRemote (remoteUrl : List Char) : Option (List Char) :=
  match Text.splitOnce ':' remoteUrl with
  | none => none
  | some (hostPart, path) =>
    if '/' ∈ hostPart ∨ path.head? = some '/' then none
    else
      let host := Text.trim ((rsplitAt hostPart).elim hostPart Prod.snd)
      defaultHttpsLfsEndpoint lib host (trimMatchesSlash path)

/-- `default_lfs_endpoint_for_url_remote`. -/
def defaultLfsEndpointForUrlRemote (remoteUrl : List Char) : Option (List Char) :=
  match lib.parse remoteUrl with
  | none => none
  | some url =>
    if url.query.isSome ∨ url.fragment.isSome then none
    else if url.scheme = "http".toList ∨ url.scheme = "https".toList then appendInfoLfsToUrl lib url
    else if url.scheme = "ssh".toList then
      url.host.bind fun host => defaultHttpsLfsEndpoint lib host (trimMatchesSlash url.path)
    else none

/-- `default_lfs_endpoint_for_remote_url`. -/
def defaultLfsEndpointForRemoteUrl (remoteUrl : List Char) : Option (List Char) :=
  let trimmed := Text.trim remoteUrl
  if trimmed = [] ∨ Text.byteLength trimmed ≠ Text.byteLength remoteUrl then none
  else if "://".toList <:+: trimmed then defaultLfsEndpointForUrlRemote lib trimmed
  else defaultLfsEndpointForScpLikeRemote lib trimmed

end Derivation

/-! ## Repositories and their remotes -/

/-- A repository at a host; its name is the one without `.git`. -/
structure SourceRepository where
  host : HostName
  owner : PathName
  name : PathName
  bare : ¬".git".toList <:+ name.text

/-- How the remote of a repository is spelled. -/
inductive RemoteForm
  | https
  | ssh (user : Option HostName)
  | scp (user : Option HostName)

/-- The path of a repository, with or without the suffix and a slash behind it. -/
def SourceRepository.path (repository : SourceRepository) (suffix slash : Bool) : List Char :=
  repository.owner.text ++ '/' :: (repository.name.text ++
    ((if suffix then ".git".toList else []) ++ if slash then ['/'] else []))

/-- A user before the host. -/
def userPart (user : Option HostName) : List Char := user.elim [] fun user => user.text ++ ['@']

/-- The remote of a repository. -/
def SourceRepository.remote (repository : SourceRepository) (suffix slash : Bool) :
    RemoteForm → List Char
  | .https => "https://".toList ++ repository.host.text ++ '/' :: repository.path suffix slash
  | .ssh user => "ssh://".toList ++ userPart user ++ repository.host.text ++
      '/' :: repository.path suffix slash
  | .scp user => userPart user ++ repository.host.text ++ ':' :: repository.path suffix slash

/-- The endpoint that Git LFS derives: the repository with its suffix, below the host in its normal
form; none where the host is no host of an HTTP URL. -/
def gitLfsEndpoint (lib : UrlLibrary) (repository : SourceRepository) : Option (List Char) :=
  (lib.domain repository.host.text).map fun host =>
    "https://".toList ++ host ++ '/' :: repository.path true false ++ "/info/lfs".toList

/-! ## What is derived -/

namespace SourceRepository

variable {repository : SourceRepository} {lib : UrlLibrary} {suffix slash : Bool}

/-- The name of a repository as it is spelled, with or without the suffix. -/
def spelled (repository : SourceRepository) (suffix : Bool) : PathName where
  text := repository.name.text ++ if suffix then ".git".toList else []
  nonempty h := repository.name.nonempty (List.append_eq_nil_iff.mp h).1
  plain c hc := by
    rcases List.mem_append.mp hc with hc | hc
    · exact repository.name.plain c hc
    · cases suffix
      · cases hc
      · have hsuffix : ∀ c ∈ ".git".toList, isNameChar c = true := Text.forall_of_all (by decide)
        exact hsuffix c hc
  notDot := by
    cases suffix
    · rw [if_neg Bool.false_ne_true, List.append_nil]
      exact repository.name.notDot
    · have hlong : 4 ≤ (repository.name.text ++ if true then ".git".toList else []).length := by
        rw [if_pos rfl, List.length_append]
        exact Nat.le_add_left _ _
      constructor
      · intro h
        rw [h] at hlong
        exact absurd hlong (by decide)
      · intro h
        rw [h] at hlong
        exact absurd hlong (by decide)

theorem path_eq : repository.path suffix slash =
    repository.owner.text ++ '/' :: ((repository.spelled suffix).text ++
      if slash then ['/'] else []) := by
  unfold path spelled
  rw [List.append_assoc]

end SourceRepository

theorem isNameChar_ne {c d : Char} (h : isNameChar c = true) (hd : isNameChar d = false) :
    c ≠ d := by
  rintro rfl
  rw [h] at hd
  cases hd

theorem PathName.slash_notMem (name : PathName) : '/' ∉ name.text :=
  fun h => isNameChar_ne (name.plain _ h) (by decide) rfl

theorem isHostChar_ne {c d : Char} (h : isHostChar c = true) (hd : isHostChar d = false) :
    c ≠ d := by
  rintro rfl
  rw [h] at hd
  cases hd

/-- A visible character is no whitespace. -/
theorem isWhitespace_of_visible {c : Char} (hlow : 0x21 ≤ c.toNat) (hhigh : c.toNat ≤ 0x7e) :
    Text.isWhitespace c = false := by
  unfold Text.isWhitespace
  simp only [Bool.or_eq_false_iff, Bool.and_eq_false_iff, decide_eq_false_iff_not]
  omega

theorem isWhitespace_of_nameChar {c : Char} (h : isNameChar c = true) :
    Text.isWhitespace c = false := by
  unfold isNameChar at h
  simp only [Bool.and_eq_true, decide_eq_true_eq] at h
  exact isWhitespace_of_visible h.1.1 h.1.2

theorem isWhitespace_of_hostChar {c : Char} (h : isHostChar c = true) :
    Text.isWhitespace c = false := by
  unfold isHostChar at h
  simp only [Bool.or_eq_true, Bool.and_eq_true, decide_eq_true_eq] at h
  rcases h with ((((⟨hlow, hhigh⟩ | ⟨hlow, hhigh⟩) | ⟨hlow, hhigh⟩) | rfl) | rfl) | rfl
  · exact isWhitespace_of_visible (le_trans (by decide) (Char.le_def.mp hlow))
      (le_trans (Char.le_def.mp hhigh) (by decide))
  · exact isWhitespace_of_visible (le_trans (by decide) (Char.le_def.mp hlow))
      (le_trans (Char.le_def.mp hhigh) (by decide))
  · exact isWhitespace_of_visible (le_trans (by decide) (Char.le_def.mp hlow))
      (le_trans (Char.le_def.mp hhigh) (by decide))
  · decide
  · decide
  · decide

section Derived

variable {repository : SourceRepository} {lib : UrlLibrary} {suffix slash : Bool}

/-- The segments of the path of a repository. -/
theorem splitOn_path : (repository.path suffix slash).splitOn '/' =
    [repository.owner.text, (repository.spelled suffix).text] ++ if slash then [[]] else [] := by
  rw [SourceRepository.path_eq, List.splitOn_append_cons_self,
    List.splitOn_eq_singleton repository.owner.slash_notMem]
  cases slash with
  | false =>
    rw [if_neg Bool.false_ne_true, if_neg Bool.false_ne_true, List.append_nil,
      List.splitOn_eq_singleton (repository.spelled suffix).slash_notMem]
    rfl
  | true =>
    rw [if_pos rfl, if_pos rfl, List.splitOn_append_cons_self,
      List.splitOn_eq_singleton (repository.spelled suffix).slash_notMem]
    rfl

theorem plainPath_path : PlainPath (repository.path suffix slash) := by
  intro segment hsegment
  rw [splitOn_path] at hsegment
  rcases List.mem_append.mp hsegment with hname | hempty
  · rcases List.mem_cons.mp hname with rfl | hname
    · exact ⟨repository.owner.plain, repository.owner.notDot⟩
    · obtain rfl := List.mem_singleton.mp hname
      exact ⟨(repository.spelled suffix).plain, (repository.spelled suffix).notDot⟩
  · cases slash with
    | false => cases hempty
    | true =>
      obtain rfl := List.mem_singleton.mp hempty
      exact ⟨fun c hc => absurd hc List.not_mem_nil, by decide, by decide⟩

theorem plainPath_nil : PlainPath [] := by
  intro segment hsegment
  rw [List.splitOn_nil] at hsegment
  obtain rfl := List.mem_singleton.mp hsegment
  exact ⟨fun c hc => absurd hc List.not_mem_nil, by decide, by decide⟩

/-- Slashes around the path of a repository are removed. -/
theorem trimMatchesSlash_path : trimMatchesSlash (repository.path suffix slash) =
    repository.path suffix false := by
  obtain ⟨c, owner, howner⟩ := List.exists_cons_of_ne_nil repository.owner.nonempty
  have hc : c ≠ '/' := by
    rintro rfl
    exact repository.owner.slash_notMem (howner ▸ List.mem_cons_self)
  have hfront : (repository.path suffix slash).dropWhile (· = '/') =
      repository.path suffix slash := by
    rw [SourceRepository.path_eq, howner, List.cons_append, List.dropWhile_cons_of_neg (by simpa)]
  have hend : Lines.trimEnd '/' (repository.path suffix false) = repository.path suffix false := by
    unfold Lines.trimEnd
    refine List.rdropWhile_eq_self_iff.mpr fun hne => ?_
    have hlast : (repository.path suffix false).getLast hne ∈
        (repository.spelled suffix).text := by
      have hpath : repository.path suffix false =
          (repository.owner.text ++ ['/']) ++ (repository.spelled suffix).text := by
        rw [SourceRepository.path_eq, if_neg Bool.false_ne_true]
        simp
      rw [List.getLast_congr hne (by rw [← hpath]; exact hne) hpath,
        List.getLast_append_of_ne_nil _ (repository.spelled suffix).nonempty]
      exact List.getLast_mem _
    intro hslash
    rw [of_decide_eq_true hslash] at hlast
    exact (repository.spelled suffix).slash_notMem hlast
  unfold trimMatchesSlash
  rw [hfront]
  cases slash with
  | false => exact hend
  | true =>
    have hsplit : repository.path suffix true = repository.path suffix false ++ ['/'] := by
      rw [SourceRepository.path_eq, SourceRepository.path_eq]
      simp
    rw [hsplit]
    unfold Lines.trimEnd at hend ⊢
    rw [List.rdropWhile_concat_pos _ _ _ (by simp), hend]

theorem trimMatchesSlash_cons {path : List Char} :
    trimMatchesSlash ('/' :: path) = trimMatchesSlash path := by
  unfold trimMatchesSlash
  rw [List.dropWhile_cons_of_pos (by simp)]

/-- A name is added to a path behind a slash. -/
theorem extend_name {url : RemoteUrl} (hpath : url.path.length ≠ 1) (name : PathName)
    (rest : List (List Char)) : url.extend lib (name.text :: rest) =
      RemoteUrl.extend lib { url with path := url.path ++ '/' :: name.text } rest := by
  unfold RemoteUrl.extend
  rw [List.foldl_cons, if_neg (not_or.mpr name.notDot), lib.encodeSegment_plain]
  dsimp only
  rw [if_neg hpath, List.append_assoc, List.singleton_append]

/-- A name is added to the path of a host. -/
theorem extend_root {url : RemoteUrl} (hpath : url.path = ['/']) (name : PathName)
    (rest : List (List Char)) : url.extend lib (name.text :: rest) =
      RemoteUrl.extend lib { url with path := '/' :: name.text } rest := by
  unfold RemoteUrl.extend
  rw [List.foldl_cons, if_neg (not_or.mpr name.notDot), lib.encodeSegment_plain]
  dsimp only
  rw [hpath, if_pos List.length_singleton, List.singleton_append]

/-- A path with a name behind a slash is not only a slash. -/
theorem length_name_ne_one (path : List Char) (name : PathName) :
    (path ++ '/' :: name.text).length ≠ 1 := by
  have hname := List.length_pos_iff.mpr name.nonempty
  rw [List.length_append, List.length_cons]
  omega

/-- The names that end an endpoint. -/
def infoName : PathName := ⟨"info".toList, by decide, Text.forall_of_all (by decide), by decide⟩

def lfsName : PathName := ⟨"lfs".toList, by decide, Text.forall_of_all (by decide), by decide⟩

/-- The end of an endpoint is added to a path that is not only a slash. -/
theorem text_extend_infoLfs {url : RemoteUrl} (hpath : url.path.length ≠ 1) :
    (url.extend lib infoLfs).text = url.text ++ "/info/lfs".toList := by
  have hsteps : url.extend lib infoLfs =
      { url with path := url.path ++ '/' :: infoName.text ++ '/' :: lfsName.text } := by
    have hinfo : url.extend lib infoLfs = RemoteUrl.extend lib
        { url with path := url.path ++ '/' :: infoName.text } [lfsName.text] :=
      extend_name hpath infoName [lfsName.text]
    exact hinfo.trans (extend_name (length_name_ne_one _ infoName) lfsName [])
  rw [hsteps]
  unfold RemoteUrl.text
  simp only [List.append_assoc]
  rfl

/-- The endpoint below a host for the path of a repository. -/
theorem defaultHttpsLfsEndpoint_path :
    defaultHttpsLfsEndpoint lib repository.host.text (repository.path suffix false) =
      (lib.domain repository.host.text).map fun host =>
        "https://".toList ++ host ++ '/' :: repository.path suffix false ++ "/info/lfs".toList := by
  have hplain : ∀ c ∈ repository.path suffix false, isNameChar c = true ∨ c = '/' := by
    intro c hc
    rw [SourceRepository.path_eq, if_neg Bool.false_ne_true, List.append_nil] at hc
    rcases List.mem_append.mp hc with hc | hc
    · exact .inl (repository.owner.plain c hc)
    · rcases List.mem_cons.mp hc with rfl | hc
      · exact .inr rfl
      · exact .inl ((repository.spelled suffix).plain c hc)
  have hparts : ¬(repository.host.text = [] ∨ repository.path suffix false = [] ∨
      '?' ∈ repository.path suffix false ∨ '#' ∈ repository.path suffix false) := by
    rintro (hhost | hpath | hquery | hfragment)
    · exact repository.host.nonempty hhost
    · rw [SourceRepository.path_eq] at hpath
      exact repository.owner.nonempty (List.append_eq_nil_iff.mp hpath).1
    · rcases hplain _ hquery with hname | hslash
      · cases hname
      · cases hslash
    · rcases hplain _ hfragment with hname | hslash
      · cases hname
      · cases hslash
  have hsegments : ((repository.path suffix false).splitOn '/').filter (· ≠ []) =
      [repository.owner.text, (repository.spelled suffix).text] := by
    rw [splitOn_path, if_neg Bool.false_ne_true, List.append_nil, List.filter_eq_self]
    intro segment hsegment
    rcases List.mem_cons.mp hsegment with rfl | hsegment
    · exact decide_eq_true repository.owner.nonempty
    · obtain rfl := List.mem_singleton.mp hsegment
      exact decide_eq_true (repository.spelled suffix).nonempty
  have hparse := lib.parse_https repository.host [] plainPath_nil
  unfold defaultHttpsLfsEndpoint
  rw [if_neg hparts, hparse, Option.map_map, hsegments]
  refine Option.map_congr fun host _ => ?_
  dsimp only [Function.comp_apply]
  rw [extend_root rfl, extend_name (length_name_ne_one [] _)]
  have hnil : ∀ url, RemoteUrl.extend lib url [] = url := fun _ => rfl
  have hscheme : "https://".toList = "https".toList ++ "://".toList := by decide
  rw [hnil, text_extend_infoLfs (length_name_ne_one ('/' :: repository.owner.text) _),
    SourceRepository.path_eq, if_neg Bool.false_ne_true, List.append_nil, hscheme]
  unfold RemoteUrl.text
  simp only [List.append_assoc, List.cons_append, List.nil_append, Option.getD_some]

/-- A text without whitespace and without a blank end is as long as it was. -/
theorem derive_of_plain {remote : List Char} (hne : remote ≠ [])
    (hplain : ∀ c ∈ remote, Text.isWhitespace c = false) :
    defaultLfsEndpointForRemoteUrl lib remote =
      if "://".toList <:+: remote then defaultLfsEndpointForUrlRemote lib remote
      else defaultLfsEndpointForScpLikeRemote lib remote := by
  unfold defaultLfsEndpointForRemoteUrl
  rw [Text.trim_eq_self hplain]
  exact if_neg fun h => h.elim hne fun hlength => hlength rfl

theorem visible_path : ∀ c ∈ repository.path suffix slash, Text.isWhitespace c = false := by
  intro c hc
  rw [SourceRepository.path_eq] at hc
  rcases List.mem_append.mp hc with hc | hc
  · exact isWhitespace_of_nameChar (repository.owner.plain c hc)
  · rcases List.mem_cons.mp hc with rfl | hc
    · decide
    · rcases List.mem_append.mp hc with hc | hc
      · exact isWhitespace_of_nameChar ((repository.spelled suffix).plain c hc)
      · cases slash with
        | false => cases hc
        | true =>
          obtain rfl := List.mem_singleton.mp hc
          decide

/-- The characters before the path of a remote. -/
theorem hostChar_userPart {user : Option HostName} {c : Char} (hc : c ∈ userPart user) :
    isHostChar c = true ∨ c = '@' := by
  cases user with
  | none => cases hc
  | some user =>
    rcases List.mem_append.mp hc with hc | hc
    · exact .inl (user.plain c hc)
    · exact .inr (List.mem_singleton.mp hc)

theorem visible_remote {form : RemoteForm} :
    ∀ c ∈ repository.remote suffix slash form, Text.isWhitespace c = false := by
  have huser : ∀ user, ∀ c ∈ userPart user, Text.isWhitespace c = false := by
    intro user c hc
    rcases hostChar_userPart hc with hhost | rfl
    · exact isWhitespace_of_hostChar hhost
    · decide
  have hhost : ∀ c ∈ repository.host.text, Text.isWhitespace c = false :=
    fun c hc => isWhitespace_of_hostChar (repository.host.plain c hc)
  intro c hc
  cases form with
  | https =>
    rcases List.mem_append.mp hc with hc | hc
    · rcases List.mem_append.mp hc with hc | hc
      · have hscheme : ∀ c ∈ "https://".toList, Text.isWhitespace c = false :=
          Text.forall_of_all (by decide)
        exact hscheme c hc
      · exact hhost c hc
    · rcases List.mem_cons.mp hc with rfl | hc
      · decide
      · exact visible_path c hc
  | ssh user =>
    rcases List.mem_append.mp hc with hc | hc
    · rcases List.mem_append.mp hc with hc | hc
      · rcases List.mem_append.mp hc with hc | hc
        · have hscheme : ∀ c ∈ "ssh://".toList, Text.isWhitespace c = false :=
            Text.forall_of_all (by decide)
          exact hscheme c hc
        · exact huser user c hc
      · exact hhost c hc
    · rcases List.mem_cons.mp hc with rfl | hc
      · decide
      · exact visible_path c hc
  | scp user =>
    rcases List.mem_append.mp hc with hc | hc
    · rcases List.mem_append.mp hc with hc | hc
      · exact huser user c hc
      · exact hhost c hc
    · rcases List.mem_cons.mp hc with rfl | hc
      · decide
      · exact visible_path c hc

variable (repository lib suffix slash) in
/-- The HTTP form: the path stays as it is spelled. -/
theorem derive_https : defaultLfsEndpointForRemoteUrl lib (repository.remote suffix slash .https) =
    (lib.domain repository.host.text).map fun host =>
      "https://".toList ++ host ++ '/' :: repository.path suffix slash ++ "/info/lfs".toList := by
  have hurl : "://".toList <:+: repository.remote suffix slash .https :=
    ⟨"https".toList, repository.host.text ++ '/' :: repository.path suffix slash, by
      unfold SourceRepository.remote
      rw [show "https://".toList = "https".toList ++ "://".toList by decide]
      simp only [List.append_assoc]⟩
  have hne : repository.remote suffix slash .https ≠ [] :=
    fun h => absurd (List.append_eq_nil_iff.mp h).2 (List.cons_ne_nil _ _)
  rw [derive_of_plain hne visible_remote, if_pos hurl]
  unfold defaultLfsEndpointForUrlRemote SourceRepository.remote
  dsimp only
  rw [lib.parse_https repository.host _ plainPath_path]
  cases lib.domain repository.host.text with
  | none => rfl
  | some host =>
    have htrim : trimMatchesSlash ('/' :: repository.path suffix slash) ≠ [] := by
      rw [trimMatchesSlash_cons, trimMatchesSlash_path, SourceRepository.path_eq]
      exact fun h => repository.owner.nonempty (List.append_eq_nil_iff.mp h).1
    have hlong : ('/' :: repository.path suffix slash).length ≠ 1 := by
      have hpos := List.length_pos_iff.mpr repository.owner.nonempty
      rw [SourceRepository.path_eq, List.length_cons, List.length_append]
      omega
    rw [Option.map_some]
    dsimp only
    rw [if_neg (by simp), if_pos (.inr rfl)]
    unfold appendInfoLfsToUrl
    rw [if_neg (by simpa using htrim), text_extend_infoLfs hlong, Option.map_some]
    unfold RemoteUrl.text
    simp only [List.append_assoc, List.nil_append, Option.getD_some]
    rfl

/-- The form of an SSH URL: slashes around the path are removed. -/
theorem derive_ssh (user : Option HostName) :
    defaultLfsEndpointForRemoteUrl lib (repository.remote suffix slash (.ssh user)) =
    (lib.domain repository.host.text).map fun host =>
      "https://".toList ++ host ++ '/' :: repository.path suffix false ++ "/info/lfs".toList := by
  have hurl : "://".toList <:+: repository.remote suffix slash (.ssh user) :=
    ⟨"ssh".toList, userPart user ++ repository.host.text ++ '/' :: repository.path suffix slash, by
      unfold SourceRepository.remote
      rw [show "ssh://".toList = "ssh".toList ++ "://".toList by decide]
      simp only [List.append_assoc]⟩
  have hne : repository.remote suffix slash (.ssh user) ≠ [] :=
    fun h => absurd (List.append_eq_nil_iff.mp h).2 (List.cons_ne_nil _ _)
  rw [derive_of_plain hne visible_remote, if_pos hurl]
  unfold defaultLfsEndpointForUrlRemote SourceRepository.remote userPart
  dsimp only
  rw [lib.parse_ssh user repository.host _ plainPath_path]
  dsimp only
  rw [if_neg (by simp), if_neg (by decide), if_pos rfl, Option.bind_some, trimMatchesSlash_cons,
    trimMatchesSlash_path, defaultHttpsLfsEndpoint_path]

/-- What is behind the user. -/
theorem rsplitAt_userPart {user : Option HostName} {host : List Char} (hhost : '@' ∉ host) :
    (rsplitAt (userPart user ++ host)).elim (userPart user ++ host) Prod.snd = host := by
  cases user with
  | none =>
    have hsplit : Text.splitOnce '@' host.reverse = none :=
      Text.splitOnce_of_notMem fun h => hhost (List.mem_reverse.mp h)
    unfold rsplitAt userPart
    rw [Option.elim_none, List.nil_append, hsplit]
    rfl
  | some user =>
    have hreverse : (userPart (some user) ++ host).reverse =
        host.reverse ++ '@' :: user.text.reverse := by
      unfold userPart
      simp
    unfold rsplitAt
    rw [hreverse, Text.splitOnce_append (fun h => hhost (List.mem_reverse.mp h))]
    simp

/-- The form that `scp` takes: slashes around the path are removed. -/
theorem derive_scp (user : Option HostName) :
    defaultLfsEndpointForRemoteUrl lib (repository.remote suffix slash (.scp user)) =
    (lib.domain repository.host.text).map fun host =>
      "https://".toList ++ host ++ '/' :: repository.path suffix false ++ "/info/lfs".toList := by
  have hfront : ∀ c ∈ userPart user ++ repository.host.text, isHostChar c = true ∨ c = '@' := by
    intro c hc
    rcases List.mem_append.mp hc with hc | hc
    · exact hostChar_userPart hc
    · exact .inl (repository.host.plain c hc)
  have hcolon : ':' ∉ userPart user ++ repository.host.text := by
    intro h
    rcases hfront _ h with hhost | hat
    · cases hhost
    · cases hat
  have hslash : '/' ∉ userPart user ++ repository.host.text := by
    intro h
    rcases hfront _ h with hhost | hat
    · cases hhost
    · cases hat
  have hsplit : Text.splitOnce ':' (repository.remote suffix slash (.scp user)) =
      some (userPart user ++ repository.host.text, repository.path suffix slash) :=
    Text.splitOnce_append hcolon _
  have hhead : (repository.path suffix slash).head? ≠ some '/' := by
    obtain ⟨c, owner, howner⟩ := List.exists_cons_of_ne_nil repository.owner.nonempty
    rw [SourceRepository.path_eq, howner]
    intro h
    exact repository.owner.slash_notMem (howner ▸ Option.some.inj h ▸ List.mem_cons_self)
  have hpathColon : ':' ∉ repository.path suffix slash := by
    intro h
    rw [SourceRepository.path_eq] at h
    rcases List.mem_append.mp h with h | h
    · exact isNameChar_ne (repository.owner.plain _ h) (by decide) rfl
    · rcases List.mem_cons.mp h with h | h
      · cases h
      · rcases List.mem_append.mp h with h | h
        · exact isNameChar_ne ((repository.spelled suffix).plain _ h) (by decide) rfl
        · cases slash with
          | false => cases h
          | true => cases List.mem_singleton.mp h
  have hurl : ¬"://".toList <:+: repository.remote suffix slash (.scp user) := by
    rintro ⟨before, after, h⟩
    have hnot : ':' ∉ before := by
      intro hmem
      have hcount := congrArg (List.count ':') h
      have hremote : repository.remote suffix slash (.scp user) =
        (userPart user ++ repository.host.text) ++ ':' :: repository.path suffix slash := rfl
      rw [hremote, List.count_append, List.count_append, List.count_append, List.count_cons_self,
        List.count_eq_zero_of_not_mem hcolon, List.count_eq_zero_of_not_mem hpathColon] at hcount
      have hone : List.count ':' "://".toList = 1 := by decide
      have hpos := List.count_pos_iff.mpr hmem
      omega
    have hsplit' := Text.splitOnce_append hnot ("//".toList ++ after)
    have hsame : before ++ ':' :: ("//".toList ++ after) =
        repository.remote suffix slash (.scp user) := by
      rw [← h, show "://".toList = ':' :: "//".toList by decide]
      simp
    rw [hsame, hsplit] at hsplit'
    obtain ⟨_, hpath⟩ := Prod.mk.inj (Option.some.inj hsplit')
    exact hhead (by rw [hpath]; rfl)
  have hne : repository.remote suffix slash (.scp user) ≠ [] :=
    fun h => absurd (List.append_eq_nil_iff.mp h).2 (List.cons_ne_nil _ _)
  have hat : '@' ∉ repository.host.text :=
    fun h => isHostChar_ne (repository.host.plain _ h) (by decide) rfl
  have hvisible : ∀ c ∈ repository.host.text, Text.isWhitespace c = false :=
    fun c hc => isWhitespace_of_hostChar (repository.host.plain c hc)
  rw [derive_of_plain hne visible_remote, if_neg hurl]
  unfold defaultLfsEndpointForScpLikeRemote
  rw [hsplit]
  dsimp only
  rw [if_neg (not_or.mpr ⟨hslash, hhead⟩), rsplitAt_userPart hat, Text.trim_eq_self hvisible,
    trimMatchesSlash_path, defaultHttpsLfsEndpoint_path]

/-- Two endpoints agree if the paths do. -/
theorem endpoint_map_eq_iff {host : Option (List Char)} {path path' : List Char} :
    (host.map fun host => "https://".toList ++ host ++ '/' :: path ++ "/info/lfs".toList) =
        (host.map fun host => "https://".toList ++ host ++ '/' :: path' ++ "/info/lfs".toList) ↔
      host = none ∨ path = path' := by
  cases host with
  | none => simp
  | some host =>
    simp only [Option.map_some, Option.some.injEq, reduceCtorEq, false_or]
    constructor
    · intro h
      have hbody := List.append_cancel_right h
      exact (List.cons.inj (List.append_cancel_left hbody)).2
    · rintro rfl
      rfl

/-- The suffix and the slash are seen in the path. -/
theorem path_eq_iff : repository.path suffix slash = repository.path true false ↔
    suffix = true ∧ slash = false := by
  constructor
  · intro h
    have hlength := congrArg List.length h
    unfold SourceRepository.path at hlength
    have hgit : ".git".toList.length = 4 := by decide
    simp only [List.length_append, List.length_cons] at hlength
    cases suffix <;> cases slash <;> simp_all
  · rintro ⟨rfl, rfl⟩
    rfl

end Derived

/-- A slash that is not removed. -/
def RemoteForm.KeepsSlash (slash : Bool) : RemoteForm → Prop
  | .https => slash = true
  | _ => False

/-- **Source endpoints**: a remote that is spelled with the suffix, and not as an HTTP URL with a
slash behind it, gives the endpoint that Git LFS derives, and no other does where the host is
accepted. -/
theorem source_endpoint_of_remote (lib : UrlLibrary) (repository : SourceRepository)
    (suffix slash : Bool) (form : RemoteForm) :
    defaultLfsEndpointForRemoteUrl lib (repository.remote suffix slash form) =
        gitLfsEndpoint lib repository ↔
      lib.domain repository.host.text = none ∨ suffix = true ∧ ¬form.KeepsSlash slash := by
  unfold gitLfsEndpoint
  cases form with
  | https =>
    rw [derive_https, endpoint_map_eq_iff, path_eq_iff]
    simp [RemoteForm.KeepsSlash]
  | ssh user =>
    rw [derive_ssh, endpoint_map_eq_iff, path_eq_iff]
    simp [RemoteForm.KeepsSlash]
  | scp user =>
    rw [derive_scp, endpoint_map_eq_iff, path_eq_iff]
    simp [RemoteForm.KeepsSlash]

/-! ## A library for the plain URLs -/

/-- The parts of a URL of a host, a user and a path. -/
def parsePlainUrl (text : List Char) : Option RemoteUrl :=
  (Text.splitOnce ':' text).bind fun (scheme, rest) =>
    (Text.splitOnce '/' (rest.drop 2)).map fun (authority, path) =>
      let host := (rsplitAt authority).elim authority Prod.snd
      ⟨scheme, authority.take (authority.length - host.length), some host, '/' :: path, none, none⟩

theorem parsePlainUrl_eq {scheme : List Char} (hscheme : ':' ∉ scheme) (user : Option HostName)
    (host : HostName) (path : List Char) :
    parsePlainUrl (scheme ++ "://".toList ++ userPart user ++ host.text ++ '/' :: path) =
      some ⟨scheme, userPart user, some host.text, '/' :: path, none, none⟩ := by
  have hat : '@' ∉ host.text := fun h => isHostChar_ne (host.plain _ h) (by decide) rfl
  have hslash : '/' ∉ userPart user ++ host.text := by
    intro h
    rcases List.mem_append.mp h with h | h
    · rcases hostChar_userPart h with hhost | hat
      · cases hhost
      · cases hat
    · exact isHostChar_ne (host.plain _ h) (by decide) rfl
  have htext : scheme ++ "://".toList ++ userPart user ++ host.text ++ '/' :: path =
      scheme ++ ':' :: ('/' :: '/' :: (userPart user ++ host.text ++ '/' :: path)) := by
    rw [show "://".toList = [':', '/', '/'] by decide]
    simp
  unfold parsePlainUrl
  rw [htext, Text.splitOnce_append hscheme, Option.bind_some]
  dsimp only
  rw [List.drop_succ_cons, List.drop_succ_cons, List.drop_zero, Text.splitOnce_append hslash,
    Option.map_some]
  dsimp only
  rw [rsplitAt_userPart hat]
  simp

/-- A library that reads plain URLs and changes nothing. -/
def plainUrlLibrary : UrlLibrary where
  parse := parsePlainUrl
  domain := some
  encodeSegment := id
  parse_https host path _ := by
    have h := parsePlainUrl_eq (by decide : ':' ∉ "https".toList) none host path
    rw [show "https".toList ++ "://".toList = "https://".toList by decide] at h
    exact (congrArg parsePlainUrl (by simp [userPart])).trans h
  parse_ssh user host path _ := by
    have h := parsePlainUrl_eq (by decide : ':' ∉ "ssh".toList) user host path
    rw [show "ssh".toList ++ "://".toList = "ssh://".toList by decide] at h
    exact h
  encodeSegment_plain _ := rfl

/-- A repository. -/
def sampleSourceRepository : SourceRepository where
  host := ⟨"github.com".toList, by decide, Text.forall_of_all (by decide)⟩
  owner := ⟨"owner".toList, by decide, Text.forall_of_all (by decide), by decide⟩
  name := ⟨"repo".toList, by decide, Text.forall_of_all (by decide), by decide⟩
  bare := by decide

/-- Without the suffix another endpoint is derived, and with a slash behind an HTTP URL. -/
theorem source_endpoint_without_suffix :
    defaultLfsEndpointForRemoteUrl plainUrlLibrary "https://github.com/owner/repo".toList =
        some "https://github.com/owner/repo/info/lfs".toList ∧
      defaultLfsEndpointForRemoteUrl plainUrlLibrary "https://github.com/owner/repo.git/".toList =
        some "https://github.com/owner/repo.git//info/lfs".toList ∧
      gitLfsEndpoint plainUrlLibrary sampleSourceRepository =
        some "https://github.com/owner/repo.git/info/lfs".toList ∧
      ¬∀ suffix slash form,
        defaultLfsEndpointForRemoteUrl plainUrlLibrary
            (sampleSourceRepository.remote suffix slash form) =
          gitLfsEndpoint plainUrlLibrary sampleSourceRepository := by
  have hplain : defaultLfsEndpointForRemoteUrl plainUrlLibrary
      "https://github.com/owner/repo".toList =
        some "https://github.com/owner/repo/info/lfs".toList :=
    derive_https sampleSourceRepository plainUrlLibrary false false
  refine ⟨hplain, derive_https sampleSourceRepository plainUrlLibrary true true,
    rfl, fun h => ?_⟩
  exact absurd (hplain.symm.trans (h false false .https)) (by decide)

end LfsCloud
