import LfsCloud.Lib.UrlQueries
import LfsCloud.Migration.ServerTargetRuns
import LfsCloud.Server.RoutingRules

/-!
# Action URLs

The server writes the URL at which an object is transferred, a proxy passes its path on, the server
finds the repository and the object in the path, and a migration checks the URL before it sends the
object there.
-/

namespace LfsCloud

open ServerConfig Text

/-- What `lfs_object_transfer_action_url` makes of a base with the `url` crate. A size is written as
it is. -/
def buildActionUrl (parseUrl : List Char → Except String Url) (encode : List Char → List Char) :
    UrlBuilder := fun base segments size =>
  match parseUrl base.toList with
  | .error _ => none
  | .ok url => url.pathSegments.map fun list =>
    let path := (segments.map String.toList).foldl (Url.pushSegment encode) (Url.popIfEmpty list)
    String.ofList ((url.withSegments path).withPair "size".toList size.toList).text

/-- The path of a base as the server puts it in front of routes: an empty name at its end is left
out. -/
def serverBasePath (base : Url) : List Char :=
  match base.pathSegments with
  | none => base.pathText
  | some segments => Url.segmentsText (Url.proper (Url.popIfEmpty segments))

/-- The path of a base as a client puts it in front of routes. -/
def clientBasePath (base : Url) : List Char := if base.pathText = ['/'] then [] else base.pathText

/-- The path of an object below the route of a repository. -/
def objectPathBelow (repository : ServerConfig.RepositoryMapping) (oid : LfsOid) : List Char :=
  repository.routePath.toList ++ "/objects/".toList ++ oid.hex.toList

/-- The path at which a remote asks for a batch. -/
def batchPathBelow (remote : GitRemote) : List Char :=
  identityPath remote.host remote.owner remote.name ++ routeEnd ++ "/objects/batch".toList

/-- The remote of a repository. -/
def ServerConfig.RepositoryMapping.remote (repository : ServerConfig.RepositoryMapping) :
    GitRemote where
  remoteName := []
  url := []
  host := repository.host.toList
  owner := repository.owner.toList
  name := repository.name.toList

/-- The segments that the server puts behind a base. -/
def addedSegments (repository : ServerConfig.RepositoryMapping) (oid : LfsOid) : List (List Char) :=
  lfsRouteSegments repository.remote ++ ["objects".toList, oid.hex.toList]

/-- The URL of an object below a base. -/
def actionUrlOf (base : Url) (segments : List (List Char))
    (repository : ServerConfig.RepositoryMapping) (object : LfsObject) : Url :=
  (base.withSegments (Url.proper (Url.popIfEmpty segments) ++
    addedSegments repository object.oid)).withPair "size".toList (toString object.size).toList

variable {debug : String → String} {config : References}
  {repository : ServerConfig.RepositoryMapping} {base : Url} {segments : List (List Char)}

/-! ## Segments of routes -/

theorem segmentsText_eq_slash (hne : segments ≠ []) :
    Url.segmentsText segments = ['/'] ↔ segments = [[]] := by
  constructor
  · intro h
    obtain ⟨segment, rest, rfl⟩ := List.exists_cons_of_ne_nil hne
    have hempty : segment ++ Url.segmentsText rest = [] := (List.cons.inj h).2
    obtain ⟨rfl, hrest⟩ := List.append_eq_nil_iff.mp hempty
    cases rest with
    | nil => rfl
    | cons next rest => cases hrest
  · rintro rfl
    rfl

/-- The remote of a repository is safe. -/
theorem ServerConfig.RepositoryMapping.RouteSafe.remote (hsafe : repository.RouteSafe) :
    repository.remote.RouteSafe :=
  ⟨hsafe.host, hsafe.owner, plainSegment_append_git hsafe.name⟩

/-- The text of the segments of a route. -/
theorem segmentsText_lfsRouteSegments (remote : GitRemote) :
    Url.segmentsText (lfsRouteSegments remote) =
      identityPath remote.host remote.owner remote.name ++ routeEnd := by
  have hend : routeEnd = ".git".toList ++ '/' :: ("info".toList ++ '/' :: "lfs".toList) := rfl
  unfold lfsRouteSegments identityPath
  rw [hend]
  simp only [Url.segmentsText, List.flatMap_cons, List.flatMap_nil, List.append_nil,
    List.cons_append, List.append_assoc]

theorem segmentsText_append (front back : List (List Char)) :
    Url.segmentsText (front ++ back) = Url.segmentsText front ++ Url.segmentsText back :=
  List.flatMap_append

/-- An identifier is a segment of a URL. -/
theorem LfsOid.plainSegment (oid : LfsOid) : Url.PlainSegment oid.hex.toList := by
  have hlong : 2 < oid.hex.toList.length := by
    rw [oid.length_eq]
    decide
  refine ⟨fun h => ?_, fun c hc => ?_, fun h => ?_, fun h => ?_⟩
  · rw [h] at hlong
    exact absurd hlong (by decide)
  · have hplain := oid.lower c hc
    have hascii := toNat_lt_of_isHexDigit (isLowerHex_spec hplain).1
    exact forall_of_toNat_lt (P := fun c => isLowerHex c = true → Url.isPlainChar c = true)
      (by decide) hascii hplain
  · rw [h] at hlong
    exact absurd hlong (by decide)
  · rw [h] at hlong
    exact absurd hlong (by decide)

theorem addedSegments_plain (hsafe : repository.RouteSafe) (oid : LfsOid) :
    ∀ segment ∈ addedSegments repository oid, Url.PlainSegment segment := by
  intro segment hmem
  rcases List.mem_append.mp hmem with hmem | hmem
  · exact lfsRouteSegments_plain hsafe.remote segment hmem
  · simp only [List.mem_cons, List.not_mem_nil, or_false] at hmem
    rcases hmem with rfl | rfl
    · exact ⟨by decide, forall_of_all rfl, by decide⟩
    · exact oid.plainSegment

/-- The path of a route is read as its segments. -/
theorem segments_of_routePath (hsafe : repository.RouteSafe) :
    ((trimSlashes repository.routePath.toList).splitOn '/').filter (· ≠ []) =
      lfsRouteSegments repository.remote := by
  have hplain := lfsRouteSegments_plain hsafe.remote
  set others : List (List Char) := [repository.owner.toList,
    repository.name.toList ++ ".git".toList, "info".toList, "lfs".toList] with hothers
  have hlist : lfsRouteSegments repository.remote = repository.host.toList :: others := rfl
  have hroute : repository.routePath.toList =
      '/' :: (repository.host.toList ++ Url.segmentsText others) := by
    have htext := segmentsText_lfsRouteSegments repository.remote
    rw [hlist] at htext
    exact routePath_toList.trans htext.symm
  have hslash : ∀ segment ∈ repository.host.toList :: others, '/' ∉ segment :=
    fun segment hmem => slash_notMem_of_plain (hplain segment (hlist ▸ hmem))
  obtain ⟨hhost, hrest⟩ := List.forall_mem_cons.mp hslash
  have hdrop : repository.routePath.toList.dropWhile (· = '/') =
      repository.host.toList ++ Url.segmentsText others := by
    obtain ⟨c, rest, hc⟩ := List.exists_cons_of_ne_nil hsafe.host.nonempty
    have hne : c ≠ '/' := by
      rintro rfl
      exact hhost (hc ▸ List.mem_cons_self)
    rw [hroute, List.dropWhile_cons, if_pos (by decide), hc, List.cons_append,
      List.dropWhile_cons, if_neg (by simpa using hne)]
  have htrim : trimSlashes repository.routePath.toList =
      repository.host.toList ++ Url.segmentsText others := by
    unfold trimSlashes
    rw [hdrop]
    apply trimEnd_of_getLast?
    have hlast : repository.host.toList ++ Url.segmentsText others =
        (repository.host.toList ++ '/' :: repository.owner.toList ++
          '/' :: (repository.name.toList ++ ".git".toList) ++ "/info/lf".toList) ++ ['s'] := by
      rw [hothers]
      have hinfo : "/info/lf".toList ++ ['s'] =
          '/' :: ("info".toList ++ '/' :: "lfs".toList) := rfl
      simp only [Url.segmentsText, List.flatMap_cons, List.flatMap_nil, List.append_nil,
        List.append_assoc, List.cons_append, hinfo]
    rw [hlast, List.getLast?_concat]
    decide
  rw [htrim, Url.splitOn_segmentsText hhost hrest, hlist]
  refine List.filter_eq_self.mpr fun segment hmem => ?_
  exact decide_eq_true (hplain segment (hlist ▸ hmem)).nonempty

/-! ## The URL of the server -/

theorem popIfEmpty_ne_nil (h : segments ≠ []) : Url.popIfEmpty segments ≠ [] := by
  unfold Url.popIfEmpty
  split_ifs with hpop
  · intro hnil
    have hlength := congrArg List.length hnil
    rw [List.length_dropLast, List.length_nil] at hlength
    omega
  · exact h

/-- A base without an empty name at its end is parsed. -/
theorem parse_popIfEmpty {parseUrl : List Char → Except String Url}
    {encode : List Char → List Char} (hlawful : UrlParser.Lawful parseUrl encode)
    (hparse : parseUrl base.text = .ok base) (hbase : base.IsBase)
    (hpath : base.path = .segments segments) :
    parseUrl (base.withSegments (Url.popIfEmpty segments)).text =
      .ok (base.withSegments (Url.popIfEmpty segments)) := by
  unfold Url.popIfEmpty
  split_ifs with hpop
  · have hparse' := hlawful.parse_pop hparse hbase hpath
    unfold Url.popSegment at hparse'
    rw [if_pos hpop.1] at hparse'
    exact hparse'
  · rw [Url.withSegments_self hpath]
    exact hparse

/-- The digits of a number are letters or digits. -/
theorem isAlphanum_toString (n : UInt64) :
    ∀ c ∈ "size".toList ++ (toString n).toList, c.isAlphanum = true := by
  intro c hc
  rcases List.mem_append.mp hc with hc | hc
  · exact forall_of_all (P := fun c => c.isAlphanum = true) (by decide) c hc
  · have hlist : (toString n).toList = Nat.toDigits 10 n.toNat := Nat.toList_repr
    rw [hlist] at hc
    have hdigit : c.isDigit = true := Nat.isDigit_of_mem_toDigits (by decide) (by decide) hc
    unfold Char.isAlphanum
    rw [hdigit, Bool.or_true]

section Server

variable {lib : TargetLibraries} {publicUrl : String} {allowInsecureHttp : Bool}
  (hlawful : UrlParser.Lawful lib.parseUrl lib.encode)
  (hqueries : UrlParser.LawfulQueries lib.parseUrl lib.queryPairs)

include hlawful

/-- The URL that the server writes. -/
theorem lfsObjectTransferActionUrl_toList
    (hpublic : validateHttpUrl lib.parseUrl publicUrl.toList allowInsecureHttp = .ok base)
    (hshaped : base.Shaped segments) (hsafe : repository.RouteSafe) (object : LfsObject) :
    (lfsObjectTransferActionUrl (buildActionUrl lib.parseUrl lib.encode) publicUrl
      repository.routePath object).toList = (actionUrlOf base segments repository object).text := by
  obtain ⟨htext, hparse, hbase, _⟩ := validateHttpUrl_eq_ok.mp hpublic
  have hplain := addedSegments_plain hsafe object.oid
  have hpath : (addedSegments repository object.oid).foldl (Url.pushSegment lib.encode)
      (Url.popIfEmpty segments) =
        Url.proper (Url.popIfEmpty segments) ++ addedSegments repository object.oid := by
    rw [foldl_pushSegment hlawful hplain]
    exact Url.foldl_addSegment_proper (popIfEmpty_ne_nil hshaped.nonempty) hsafe.host.nonempty
  have hlist : ((((trimSlashes repository.routePath.toList).splitOn '/').filter (· ≠ [])).map
      String.ofList ++ ["objects", object.oid.hex]).map String.toList =
        addedSegments repository object.oid := by
    rw [segments_of_routePath hsafe, List.map_append, List.map_map, addedSegments]
    simp only [Function.comp_def, String.toList_ofList, List.map_id', List.map_cons, List.map_nil]
  have hbuild : buildActionUrl lib.parseUrl lib.encode
      (String.ofList (Lines.trimEnd '/' publicUrl.toList))
      ((((trimSlashes repository.routePath.toList).splitOn '/').filter (· ≠ [])).map
        String.ofList ++ ["objects", object.oid.hex]) (toString object.size) =
      some (String.ofList (actionUrlOf base segments repository object).text) := by
    unfold buildActionUrl
    rw [trimEnd_of_getLast? htext.slash, String.ofList_toList, hparse]
    dsimp only
    unfold Url.pathSegments
    rw [hshaped.path]
    dsimp only [Option.map_some]
    rw [hlist, hpath]
    rfl
  unfold lfsObjectTransferActionUrl
  dsimp only
  rw [hbuild]
  exact String.toList_ofList

include hqueries

/-- It is parsed. -/
theorem parse_actionUrlOf (hparse : lib.parseUrl base.text = .ok base) (hbase : base.IsBase)
    (hshaped : base.Shaped segments) (hsafe : repository.RouteSafe) (object : LfsObject) :
    lib.parseUrl (actionUrlOf base segments repository object).text =
      .ok (actionUrlOf base segments repository object) := by
  have hplain := addedSegments_plain hsafe object.oid
  have hpopped := parse_popIfEmpty hlawful hparse hbase hshaped.path
  have hadded := parse_foldl_addSegment hlawful hplain hpopped hbase.withSegments rfl
  have hpath : (addedSegments repository object.oid).foldl Url.addSegment
      (Url.popIfEmpty segments) =
        Url.proper (Url.popIfEmpty segments) ++ addedSegments repository object.oid :=
    Url.foldl_addSegment_proper (popIfEmpty_ne_nil hshaped.nonempty) hsafe.host.nonempty
  rw [hpath] at hadded
  exact hqueries.parse_pair hadded hbase.withSegments (isAlphanum_toString object.size)

end Server

/-- The path of the URL. -/
theorem pathText_actionUrlOf (hshaped : base.Shaped segments) (object : LfsObject) :
    (actionUrlOf base segments repository object).pathText =
      serverBasePath base ++ objectPathBelow repository object.oid := by
  have hbelow : Url.segmentsText (addedSegments repository object.oid) =
      objectPathBelow repository object.oid := by
    have hobjects : Url.segmentsText ["objects".toList, object.oid.hex.toList] =
        "/objects/".toList ++ object.oid.hex.toList := by
      have hslash : "/objects/".toList = '/' :: ("objects".toList ++ ['/']) := rfl
      rw [hslash]
      simp only [Url.segmentsText, List.flatMap_cons, List.flatMap_nil, List.append_nil,
        List.cons_append, List.append_assoc, List.nil_append]
    unfold addedSegments objectPathBelow
    rw [segmentsText_append, segmentsText_lfsRouteSegments, hobjects, routePath_toList]
    simp only [List.append_assoc]
    rfl
  have hfront : serverBasePath base =
      Url.segmentsText (Url.proper (Url.popIfEmpty segments)) := by
    unfold serverBasePath Url.pathSegments
    rw [hshaped.path]
  rw [hfront, ← hbelow, ← segmentsText_append]
  rfl

/-- The path of the URL of a route. -/
theorem pathText_routeUrl (hshaped : base.Shaped segments) (remote : GitRemote) :
    (routeUrl base segments remote).pathText = clientBasePath base ++
      (identityPath remote.host remote.owner remote.name ++ routeEnd) := by
  have hpath : base.pathText = Url.segmentsText segments := by
    unfold Url.pathText
    rw [hshaped.path]
  have hfront : clientBasePath base = Url.segmentsText (Url.proper segments) := by
    unfold clientBasePath Url.proper
    rw [hpath]
    by_cases hroot : segments = [[]]
    · rw [if_pos hroot, if_pos ((segmentsText_eq_slash hshaped.nonempty).mpr hroot)]
      rfl
    · rw [if_neg hroot, if_neg fun h => hroot ((segmentsText_eq_slash hshaped.nonempty).mp h)]
  rw [hfront, ← segmentsText_lfsRouteSegments, ← segmentsText_append]
  rfl

/-! ## Paths that match -/

theorem stripTextSuffix_append (rest suffix : List Char) :
    stripTextSuffix suffix (rest ++ suffix) = some rest := by
  unfold stripTextSuffix
  rw [if_pos (List.suffix_append rest suffix), List.length_append, Nat.add_sub_cancel,
    List.take_left]

/-- A path matches where the object is the same and the repository is up to letter case. -/
theorem pathMatches_routes {target action : List Char} {oid oid' : LfsOid} :
    migrationUploadActionPathMatches (target ++ routeEnd)
        (action ++ routeEnd ++ "/objects/".toList ++ oid.hex.toList) oid'.hex = true ↔
      oid' = oid ∧ action.map Char.toLower = target.map Char.toLower := by
  have hend : ".git/info/lfs/objects/".toList = routeEnd ++ "/objects/".toList := rfl
  have hsplit : ∀ {target}, action ++ routeEnd ++ "/objects/".toList ++ oid.hex.toList =
      target ++ (routeEnd ++ "/objects/".toList ++ oid'.hex.toList) →
        oid' = oid ∧ action = target := by
    intro target heq
    have hlength : (routeEnd ++ "/objects/".toList ++ oid.hex.toList).length =
        (routeEnd ++ "/objects/".toList ++ oid'.hex.toList).length := by
      simp only [List.length_append, oid.length_eq, oid'.length_eq]
    rw [List.append_assoc, List.append_assoc, ← List.append_assoc routeEnd] at heq
    obtain ⟨hfront, hback⟩ := List.append_inj' heq hlength
    have hhex := String.toList_inj.mp (List.append_cancel_left hback)
    refine ⟨?_, hfront⟩
    cases oid
    cases oid'
    cases hhex
    rfl
  unfold migrationUploadActionPathMatches
  split_ifs with hsame
  · have hassoc : target ++ routeEnd ++ "/objects/".toList ++ oid'.hex.toList =
        target ++ (routeEnd ++ "/objects/".toList ++ oid'.hex.toList) := by
      simp only [List.append_assoc]
    obtain ⟨hoid, htarget⟩ := hsplit (hsame.trans hassoc)
    exact ⟨fun _ => ⟨hoid, by rw [htarget]⟩, fun _ => rfl⟩
  · have htarget : stripTextSuffix ".git/info/lfs".toList (target ++ routeEnd) = some target :=
      stripTextSuffix_append target routeEnd
    rw [htarget, hend]
    dsimp only
    constructor
    · intro h
      split at h
      · cases h
      next identity hidentity =>
        obtain ⟨hoid, rfl⟩ := hsplit (stripTextSuffix_eq_some hidentity)
        exact ⟨hoid, of_decide_eq_true h⟩
    · rintro ⟨rfl, hlower⟩
      have hstrip : stripTextSuffix (routeEnd ++ "/objects/".toList ++ oid'.hex.toList)
          (action ++ routeEnd ++ "/objects/".toList ++ oid'.hex.toList) = some action := by
        have hassoc : action ++ routeEnd ++ "/objects/".toList ++ oid'.hex.toList =
            action ++ (routeEnd ++ "/objects/".toList ++ oid'.hex.toList) := by
          simp only [List.append_assoc]
        rw [hassoc, stripTextSuffix_append]
      rw [hstrip]
      exact decide_eq_true hlower

/-- The slashes of a text. -/
def slashes (text : List Char) : ℕ := text.countP (· = '/')

@[simp] theorem slashes_append (front back : List Char) :
    slashes (front ++ back) = slashes front + slashes back := List.countP_append

theorem slashes_map_toLower (text : List Char) :
    slashes (text.map Char.toLower) = slashes text := by
  unfold slashes
  rw [List.countP_map]
  refine List.countP_congr fun c _ => ?_
  simp only [Function.comp_apply, decide_eq_true_eq, toLower_eq_slash]

theorem slashes_of_notMem {text : List Char} (h : '/' ∉ text) : slashes text = 0 := by
  refine List.countP_eq_zero.mpr fun c hc => ?_
  rw [decide_eq_true_eq]
  rintro rfl
  exact h hc

/-- Every segment has one slash. -/
theorem slashes_segmentsText (h : ∀ segment ∈ segments, '/' ∉ segment) :
    slashes (Url.segmentsText segments) = segments.length := by
  induction segments with
  | nil => rfl
  | cons segment segments ih =>
    obtain ⟨hsegment, hrest⟩ := List.forall_mem_cons.mp h
    have htext : Url.segmentsText (segment :: segments) =
        ['/'] ++ segment ++ Url.segmentsText segments := rfl
    have hone : slashes ['/'] = 1 := by decide
    rw [htext, slashes_append, slashes_append, hone, slashes_of_notMem hsegment, ih hrest,
      List.length_cons]
    omega

theorem slashes_identityPath {host owner name : List Char}
    (h : '/' ∉ host ∧ '/' ∉ owner ∧ '/' ∉ name) : slashes (identityPath host owner name) = 3 := by
  have hpath : identityPath host owner name = Url.segmentsText [host, owner, name] := by
    unfold identityPath
    simp only [Url.segmentsText, List.flatMap_cons, List.flatMap_nil, List.append_nil,
      List.cons_append, List.append_assoc]
  rw [hpath, slashes_segmentsText]
  · rfl
  · simp only [List.mem_cons, List.not_mem_nil, or_false, forall_eq_or_imp, forall_eq]
    exact h

/-- Paths of a repository behind segments agree up to letter case where the segments are as many and
the repository is named. -/
theorem identities_agree {front front' : List (List Char)} {remote : GitRemote}
    (hsafe : repository.RouteSafe) (hremote : remote.RouteSafe)
    (hfront : ∀ segment ∈ front, '/' ∉ segment) (hfront' : ∀ segment ∈ front', '/' ∉ segment)
    (hsame : front'.length = front.length → front' = front) :
    (Url.segmentsText front' ++ identityPath repository.host.toList repository.owner.toList
        repository.name.toList).map Char.toLower =
      (Url.segmentsText front ++ identityPath remote.host remote.owner remote.name).map
        Char.toLower ↔
    front' = front ∧ repository.Named remote.host remote.owner remote.name := by
  have hslash : '/' ∉ remote.host ∧ '/' ∉ remote.owner ∧ '/' ∉ remote.name := by
    refine ⟨slash_notMem_of_plain hremote.host, slash_notMem_of_plain hremote.owner, ?_⟩
    exact fun hmem => slash_notMem_of_plain hremote.name (List.mem_append_left _ hmem)
  constructor
  · intro hlower
    have hcount := congrArg slashes hlower
    rw [slashes_map_toLower, slashes_map_toLower, slashes_append, slashes_append,
      slashes_segmentsText hfront, slashes_segmentsText hfront', slashes_identityPath hslash,
      slashes_identityPath ⟨slash_notMem_of_plain hsafe.host, slash_notMem_of_plain hsafe.owner,
        slash_notMem_of_plain hsafe.name⟩] at hcount
    obtain rfl := hsame (by omega)
    rw [List.map_append, List.map_append] at hlower
    have hidentity := List.append_cancel_left hlower
    obtain ⟨host, owner, name, hnamed, heq⟩ :=
      eqIgnoreAsciiCase_identityPath.mp (decide_eq_true hidentity.symm)
    have hroute : identityPath remote.host remote.owner remote.name ++ routeEnd ++ [] =
        identityPath host owner name ++ routeEnd ++ [] := by rw [heq]
    obtain ⟨rfl, rfl, rfl, _⟩ := identityPath_inj hslash (hnamed.slash hsafe) hroute
    exact ⟨rfl, hnamed⟩
  · rintro ⟨rfl, hnamed⟩
    have heq := of_decide_eq_true
      (eqIgnoreAsciiCase_identityPath.mpr ⟨_, _, _, hnamed, rfl⟩)
    rw [List.map_append, List.map_append, heq]

/-- The server leaves out no name where the path of the base ends in one. -/
theorem proper_popIfEmpty (hshaped : base.Shaped segments) :
    ((Url.proper (Url.popIfEmpty segments)).length = (Url.proper segments).length →
      Url.proper (Url.popIfEmpty segments) = Url.proper segments) ∧
    (Url.proper (Url.popIfEmpty segments) = Url.proper segments ↔ EndsInName base) := by
  rw [endsInName_iff hshaped]
  by_cases hend : segments = [[]] ∨ segments.getLast? ≠ some []
  · have hsame : Url.popIfEmpty segments = segments := by
      unfold Url.popIfEmpty
      rw [if_neg]
      rintro ⟨hlong, hlast⟩
      rcases hend with rfl | hne
      · exact absurd hlong (by decide)
      · exact hne hlast
    rw [hsame]
    exact ⟨fun _ => rfl, fun _ => hend, fun _ => rfl⟩
  · obtain ⟨hroot, hlast⟩ := not_or.mp hend
    have hlong : 1 < segments.length := by
      by_contra hshort
      obtain ⟨segment, rest, rfl⟩ := List.exists_cons_of_ne_nil hshaped.nonempty
      rw [List.length_cons] at hshort
      obtain rfl := List.length_eq_zero_iff.mp (by omega : rest.length = 0)
      rw [List.getLast?_singleton] at hlast
      exact hroot (by rw [Option.some.inj (not_not.mp hlast)])
    have hshorter :
        (Url.proper (Url.popIfEmpty segments)).length < (Url.proper segments).length := by
      have hle : (Url.proper segments.dropLast).length ≤ segments.dropLast.length := by
        unfold Url.proper
        split_ifs
        · exact Nat.zero_le _
        · exact Nat.le_refl _
      unfold Url.popIfEmpty
      rw [if_pos ⟨hlong, not_not.mp hlast⟩, Url.proper_of_ne hroot]
      rw [List.length_dropLast] at hle
      omega
    refine ⟨fun h => absurd h hshorter.ne, fun h => ?_, fun h => absurd h hend⟩
    exact absurd (congrArg List.length h) hshorter.ne

theorem slash_notMem_proper (hshaped : base.Shaped segments) :
    (∀ segment ∈ Url.proper segments, '/' ∉ segment) ∧
      ∀ segment ∈ Url.proper (Url.popIfEmpty segments), '/' ∉ segment := by
  have hproper : ∀ {list : List (List Char)}, (∀ segment ∈ list, segment ∈ segments) →
      ∀ segment ∈ Url.proper list, '/' ∉ segment := by
    intro list hlist segment hmem
    unfold Url.proper at hmem
    split_ifs at hmem
    · exact absurd hmem List.not_mem_nil
    · exact (hshaped.separators segment (hlist segment hmem)).1
  refine ⟨hproper fun _ h => h, hproper fun segment hmem => ?_⟩
  unfold Url.popIfEmpty at hmem
  split_ifs at hmem
  · exact List.mem_of_mem_dropLast hmem
  · exact hmem

/-! ## The check of a client -/

section Client

variable {lib : TargetLibraries} {allowInsecureHttp : Bool} {remote : GitRemote} {href : String}

/-- The path of the URL matches where the object is the same, the repository is named, and server
and client put the same in front. -/
theorem pathMatches_actionUrlOf (hshaped : base.Shaped segments) (hsafe : repository.RouteSafe)
    (hremote : remote.RouteSafe) (object : LfsObject) (oid : LfsOid) :
    migrationUploadActionPathMatches
        (Lines.trimEnd '/' (routeUrl base segments remote).pathText)
        (actionUrlOf base segments repository object).pathText oid.hex = true ↔
      oid = object.oid ∧ EndsInName base ∧
        repository.Named remote.host remote.owner remote.name := by
  have hclient : (routeUrl base segments remote).pathText =
      Url.segmentsText (Url.proper segments) ++
        identityPath remote.host remote.owner remote.name ++ routeEnd := by
    change Url.segmentsText (Url.proper segments ++ lfsRouteSegments remote) = _
    rw [segmentsText_append, segmentsText_lfsRouteSegments, List.append_assoc]
  have hserver : (actionUrlOf base segments repository object).pathText =
      Url.segmentsText (Url.proper (Url.popIfEmpty segments)) ++
        identityPath repository.host.toList repository.owner.toList repository.name.toList ++
          routeEnd ++ "/objects/".toList ++ object.oid.hex.toList := by
    rw [pathText_actionUrlOf hshaped, objectPathBelow, routePath_toList]
    unfold serverBasePath Url.pathSegments
    rw [hshaped.path]
    simp only [List.append_assoc]
  have htrim : Lines.trimEnd '/' (routeUrl base segments remote).pathText =
      Url.segmentsText (Url.proper segments) ++
        identityPath remote.host remote.owner remote.name ++ routeEnd := by
    rw [hclient]
    apply trimEnd_of_getLast?
    have hend : routeEnd = ".git/info/lf".toList ++ ['s'] := rfl
    rw [hend, ← List.append_assoc, List.getLast?_concat]
    decide
  obtain ⟨hslash, hslash'⟩ := slash_notMem_proper hshaped
  obtain ⟨hsame, hends⟩ := proper_popIfEmpty hshaped
  rw [htrim, hserver, pathMatches_routes, identities_agree hsafe hremote hslash hslash' hsame,
    hends]

/-- The client lets the URL of the server through where the repository is its own, the object is the
same, and the path of the base ends in a name. -/
theorem validated_actionUrlOf {object object' : LfsObject}
    (hqueries : UrlParser.LawfulQueries lib.parseUrl lib.queryPairs)
    (hparse : lib.parseUrl href.toList = .ok (actionUrlOf base segments repository object))
    (hbase : base.IsBase) (hshaped : base.Shaped segments)
    (htransport : TransportAllowed base allowInsecureHttp) (hsafe : repository.RouteSafe)
    (hremote : remote.RouteSafe) :
    validatedMigrationUploadActionUrl lib (routeUrl base segments remote) href allowInsecureHttp
        object' = .ok (actionUrlOf base segments repository object) ↔
      EndsInName base ∧ repository.Named remote.host remote.owner remote.name ∧
        object' = object := by
  set action := actionUrlOf base segments repository object with haction
  have horigin : action.scheme = (routeUrl base segments remote).scheme ∧
      action.host = (routeUrl base segments remote).host ∧
        action.port = (routeUrl base segments remote).port := ⟨rfl, rfl, rfl⟩
  have hpairs : lib.queryPairs action = [("size", toString object'.size)] ↔
      object'.size = object.size := by
    have hfound : lib.queryPairs action =
        [(String.ofList "size".toList, String.ofList (toString object.size).toList)] :=
      hqueries.pairs (isAlphanum_toString object.size)
    rw [hfound, String.ofList_toList, String.ofList_toList]
    constructor
    · intro h
      exact (toString_u64_injective (Prod.mk.inj (List.cons.inj h).1).2).symm
    · intro h
      rw [h]
  have hsecure : ¬(allowInsecureHttp = false ∧ usesProtectedHttpTransport action = false) := by
    rintro ⟨hinsecure, hplain⟩
    have hsame : usesProtectedHttpTransport action = usesProtectedHttpTransport base := rfl
    rcases htransport with h | h
    · rw [h] at hinsecure
      cases hinsecure
    · rw [hsame, h] at hplain
      cases hplain
  have huser : ¬(action.username ≠ [] ∨ action.password ≠ none) := by
    rw [not_or, not_not, not_not]
    exact ⟨hbase.username, hbase.password⟩
  have hfragment : ¬action.fragment ≠ none := not_not.mpr hbase.fragment
  have hpath := pathMatches_actionUrlOf hshaped hsafe hremote object object'.oid
  rw [← haction] at hpath
  unfold validatedMigrationUploadActionUrl
  rw [hparse]
  dsimp only
  constructor
  · intro h
    split_ifs at h with hbad
    simp only [not_or, Bool.not_eq_false, not_not] at hbad
    obtain ⟨hoid, hends, hnamed⟩ := hpath.mp hbad.2.1
    have hsize := hpairs.mp hbad.2.2.1
    refine ⟨hends, hnamed, ?_⟩
    cases object
    cases object'
    cases hoid
    cases hsize
    rfl
  · rintro ⟨hends, hnamed, rfl⟩
    rw [if_neg]
    rintro (h | h | h | h | h | h)
    · exact h horigin
    · rw [hpath.mpr ⟨rfl, hends, hnamed⟩] at h
      cases h
    · exact h (hpairs.mpr rfl)
    · exact huser h
    · exact hfragment h
    · exact hsecure h

end Client

/-! ## Agreement -/

section Agreement

variable (hloaded : RoutesLoaded debug config) (hmem : repository ∈ config.repositories)

include hloaded hmem

/-- The path of an object is found. -/
theorem resolvePath_objectPathBelow (oid : LfsOid) :
    (LfsRouteResolver.new config).resolvePath debug (objectPathBelow repository oid) =
      .ok ⟨repository, .object oid⟩ := by
  have hself : ∀ text : List Char, eqIgnoreAsciiCase text text = true :=
    fun text => decide_eq_true rfl
  have hnames : Names repository (objectPathBelow repository oid)
      ("/objects/".toList ++ oid.hex.toList) := by
    refine ⟨_, _, _, ⟨hself _, hself _, hself _⟩, ?_⟩
    unfold objectPathBelow
    rw [routePath_toList, List.append_assoc]
  have hend : endpointAt debug ("/objects/".toList ++ oid.hex.toList) =
      some (.ok (.object oid)) := by
    have htext : "/objects/".toList ++ oid.hex.toList =
        '/' :: ("objects/".toList ++ oid.hex.toList) := rfl
    have hbatch : "objects/".toList ++ oid.hex.toList ≠ "objects/batch".toList := by
      intro h
      have hlength := congrArg List.length h
      rw [List.length_append, oid.length_eq] at hlength
      exact absurd hlength (by decide)
    have hfront : "objects/".toList.isPrefixOf? ("objects/".toList ++ oid.hex.toList) =
        some oid.hex.toList := rfl
    have hoid : ¬('/' ∈ oid.hex.toList ∨ oid.hex.toList = []) := by
      rw [not_or]
      exact ⟨slash_notMem_of_plain oid.plainSegment, oid.plainSegment.nonempty⟩
    rw [htext, endpointAt, if_neg (not_not.mpr rfl), if_neg (by simp)]
    unfold parseLfsRouteEndpoint
    rw [if_neg hbatch, hfront]
    dsimp only
    rw [if_neg hoid, String.ofList_toList, LfsOid.new_hex]
  exact hloaded.resolvePath_of_names hmem hnames hend

/-- The path of a batch is found where the repository is named. -/
theorem resolvePath_batchPathBelow {remote : GitRemote} (hremote : remote.RouteSafe) :
    (LfsRouteResolver.new config).resolvePath debug (batchPathBelow remote) =
        .ok ⟨repository, .batch⟩ ↔
      repository.Named remote.host remote.owner remote.name := by
  have hend : endpointAt debug "/objects/batch".toList = some (.ok .batch) := rfl
  constructor
  · intro h
    by_cases hnamed : ∃ other ∈ config.repositories,
        other.Named remote.host remote.owner remote.name
    · obtain ⟨other, hother, hnamed⟩ := hnamed
      have hfound := hloaded.resolvePath_of_names hother ⟨_, _, _, hnamed, rfl⟩ hend
      rw [batchPathBelow, hfound] at h
      have hsame : other = repository := congrArg ResolvedLfsRoute.repository (Except.ok.inj h)
      exact hsame ▸ hnamed
    · have hslash : '/' ∉ remote.host ∧ '/' ∉ remote.owner ∧ '/' ∉ remote.name := by
        refine ⟨slash_notMem_of_plain hremote.host, slash_notMem_of_plain hremote.owner, ?_⟩
        exact fun hmem => slash_notMem_of_plain hremote.name (List.mem_append_left _ hmem)
      have hnot : ∀ other ∈ config.repositories, ∀ suffix,
          Names other (batchPathBelow remote) suffix → endpointAt debug suffix = none := by
        rintro other hother suffix ⟨host, owner, name, hnamed', heq⟩
        obtain ⟨rfl, rfl, rfl, _⟩ :=
          identityPath_inj hslash (hnamed'.slash (hloaded.safe other hother)) heq
        exact absurd ⟨other, hother, hnamed'⟩ hnamed
      rw [hloaded.resolvePath_of_not_names hnot] at h
      cases h
  · intro hnamed
    exact hloaded.resolvePath_of_names hmem ⟨_, _, _, hnamed, rfl⟩ hend

end Agreement

/-- The URL of a batch below a route. -/
theorem migrationBatchUrl_routeUrl {lib : TargetLibraries} {allowInsecureHttp : Bool}
    {remote : GitRemote} (hlawful : UrlParser.Lawful lib.parseUrl lib.encode)
    (hparse : lib.parseUrl base.text = .ok base) (hbase : base.IsBase)
    (hshaped : base.Shaped segments) (htransport : TransportAllowed base allowInsecureHttp)
    (hremote : remote.RouteSafe) :
    ∃ batch, migrationBatchUrl lib (String.ofList (routeUrl base segments remote).text)
        allowInsecureHttp = .ok batch ∧
      batch.pathText = clientBasePath base ++ batchPathBelow remote := by
  have hplain : ∀ segment ∈ ["objects".toList, "batch".toList], Url.PlainSegment segment := by
    intro segment hsegment
    simp only [List.mem_cons, List.not_mem_nil, or_false] at hsegment
    rcases hsegment with rfl | rfl
    · exact ⟨by decide, forall_of_all rfl, by decide⟩
    · exact ⟨by decide, forall_of_all rfl, by decide⟩
  set route := Url.proper segments ++ lfsRouteSegments remote with hroute
  have hlong : route ≠ [] ∧ route ≠ [[]] := by
    rw [hroute]
    unfold lfsRouteSegments
    refine ⟨by simp, fun h => ?_⟩
    have hlength := congrArg List.length h
    simp only [List.length_append, List.length_cons, List.length_nil] at hlength
    omega
  have hadded : ["objects".toList, "batch".toList].foldl (Url.pushSegment lib.encode) route =
      route ++ ["objects".toList, "batch".toList] := by
    rw [foldl_pushSegment hlawful hplain, Url.foldl_addSegment hlong.1 hlong.2]
  obtain ⟨_, hvalid⟩ := validateServerUrl_route hlawful hremote hparse hbase hshaped htransport
  refine ⟨base.withSegments (route ++ ["objects".toList, "batch".toList]), ?_, ?_⟩
  · unfold migrationBatchUrl
    rw [String.toList_ofList, hvalid]
    change appendUrlPathSegments lib (routeUrl base segments remote) _ = _
    have hpieces : ("objects/batch".toList.splitOn '/').filter (· ≠ []) =
        ["objects".toList, "batch".toList] := by decide
    have hpath : (routeUrl base segments remote).pathSegments = some route := rfl
    unfold appendUrlPathSegments
    rw [hpath]
    dsimp only
    rw [hpieces, hadded]
    rfl
  · have hbatch : Url.segmentsText ["objects".toList, "batch".toList] =
        "/objects/batch".toList := by decide
    change Url.segmentsText (route ++ ["objects".toList, "batch".toList]) = _
    rw [segmentsText_append, hbatch, batchPathBelow, ← List.append_assoc,
      ← pathText_routeUrl hshaped]
    rfl

/-- For every configuration that is loaded, every public URL that is accepted, every repository and
every object: the URL that the server writes is below the public URL, its path below that of the
public URL resolves to the repository and the object, and it has the size of the object. For every
remote and every client that knows the server by the same URL, what it asks for batches resolves to
the repository exactly where the remote is the repository up to letter case; and it lets the URL of
the server through for an object exactly where, besides, the object is the same and the path of the
public URL is the root or ends in a name. -/
theorem action_urls_agree (lib : TargetLibraries)
    (hlawful : UrlParser.Lawful lib.parseUrl lib.encode)
    (hqueries : UrlParser.LawfulQueries lib.parseUrl lib.queryPairs)
    {env : String → Option String} {raws : List RawRepositoryMapping}
    (hload : loadRepositories debug env raws = .ok config.repositories)
    (hvalid : config.validateReferences debug = .ok ())
    {publicUrl : String} {allowPublic : Bool}
    (hpublic : validateHttpUrl lib.parseUrl publicUrl.toList allowPublic = .ok base) :
    ∀ repository ∈ config.repositories, ∀ object href,
      lfsObjectTransferActionUrl (buildActionUrl lib.parseUrl lib.encode) publicUrl
        repository.routePath object = href →
    ∃ action, lib.parseUrl href.toList = .ok action ∧
      (action.scheme = base.scheme ∧ action.host = base.host ∧ action.port = base.port) ∧
      action.pathText = serverBasePath base ++ objectPathBelow repository object.oid ∧
      (LfsRouteResolver.new config).resolvePath debug (objectPathBelow repository object.oid) =
        .ok ⟨repository, .object object.oid⟩ ∧
      lib.queryPairs action = [("size", toString object.size)] ∧
      ∀ remoteName remoteUrl remote serverUrl allowInsecureHttp,
        GitRemote.parse lib.parseUrl remoteName remoteUrl = .ok remote →
        validateServerUrl lib.parseUrl serverUrl allowInsecureHttp = .ok base →
      ∃ route target batch,
        LfsInitRoute.resolve lib.parseUrl lib.encode serverUrl remote allowInsecureHttp =
          .ok route ∧
        lib.parseUrl route.lfsUrl = .ok target ∧
        migrationBatchUrl lib (String.ofList route.lfsUrl) allowInsecureHttp = .ok batch ∧
        batch.pathText = clientBasePath base ++ batchPathBelow remote ∧
        ((LfsRouteResolver.new config).resolvePath debug (batchPathBelow remote) =
            .ok ⟨repository, .batch⟩ ↔
          repository.Named remote.host remote.owner remote.name) ∧
        ∀ object', validatedMigrationUploadActionUrl lib target href allowInsecureHttp object' =
            .ok action ↔
          EndsInName base ∧ repository.Named remote.host remote.owner remote.name ∧
            object' = object := by
  rintro repository hmem object href rfl
  have hloaded : RoutesLoaded debug config := ⟨routeSafe_of_loadRepositories hload, hvalid⟩
  have hsafe := hloaded.safe repository hmem
  obtain ⟨_, hfound, hbase, _⟩ := validateHttpUrl_eq_ok.mp hpublic
  have hparse := hlawful.parse_text hfound
  obtain ⟨segments, hshaped⟩ := hlawful.shaped hfound hbase
  have hhref := lfsObjectTransferActionUrl_toList hlawful hpublic hshaped hsafe object
  have haction := parse_actionUrlOf hlawful hqueries hparse hbase hshaped hsafe object
  rw [← hhref] at haction
  have hpairs : lib.queryPairs (actionUrlOf base segments repository object) =
      [(String.ofList "size".toList, String.ofList (toString object.size).toList)] :=
    hqueries.pairs (isAlphanum_toString object.size)
  rw [String.ofList_toList, String.ofList_toList] at hpairs
  refine ⟨_, haction, ⟨rfl, rfl, rfl⟩, pathText_actionUrlOf hshaped object,
    resolvePath_objectPathBelow hloaded hmem object.oid, hpairs, ?_⟩
  intro remoteName remoteUrl remote serverUrl allowInsecureHttp hremote hserver
  have hremote := GitRemote.parse_routeSafe hremote
  obtain ⟨segments', _, _, hshaped', htransport, hresolve⟩ :=
    resolve_eq_ok hlawful hremote hserver
  obtain rfl := UrlPath.segments.inj (hshaped'.path.symm.trans hshaped.path)
  obtain ⟨batch, hbatch, hpath⟩ :=
    migrationBatchUrl_routeUrl hlawful hparse hbase hshaped htransport hremote
  obtain ⟨_, hroute⟩ :=
    validateServerUrl_route hlawful hremote hparse hbase hshaped htransport
  obtain ⟨_, htarget, _, _⟩ := validateServerUrl_eq_ok.mp hroute
  refine ⟨_, _, batch, hresolve, htarget, hbatch, hpath,
    resolvePath_batchPathBelow hloaded hmem hremote, fun object' => ?_⟩
  exact validated_actionUrlOf hqueries haction hbase hshaped htransport hsafe hremote

/-- Libraries with a parser of plain URLs. -/
def plainTargetLibraries : TargetLibraries where
  fromJson := fun _ => .error "no JSON"
  parseUrl := PlainUrls.parseQuery
  encode := id
  queryPairs := PlainUrls.queryPairs
  headerName := some
  headerValue := some
  base64 := id
  sanitize := id
  redacted := id

/-- The remote `git@github.com:Owner/b.git`. -/
def otherCaseRemote : GitRemote where
  remoteName := "origin".toList
  url := "git@github.com:Owner/b.git".toList
  host := "github.com".toList
  owner := "Owner".toList
  name := "b".toList

/-- In another letter case, the client of `https://h/a` lets the URL of the server through for no
other object. -/
theorem action_urls_agree_plain : ∃ action target, ∀ object',
    validatedMigrationUploadActionUrl plainTargetLibraries target
        (lfsObjectTransferActionUrl (buildActionUrl PlainUrls.parseQuery id) "https://h/a"
          (MetadataDatabase.ownerMapping "second" "B").routePath ⟨.zero, 5⟩) false object' =
        .ok action ↔ object' = ⟨.zero, 5⟩ := by
  have hagree := action_urls_agree plainTargetLibraries PlainUrls.lawful_parseQuery
    PlainUrls.lawful_queryPairs loadRepositories_twoMappings validateReferences_routes
    (rfl : validateHttpUrl PlainUrls.parseQuery "https://h/a".toList false =
      .ok (PlainUrls.url ['h'] [['a']])) (MetadataDatabase.ownerMapping "second" "B")
    (List.mem_cons_of_mem _ List.mem_cons_self) ⟨.zero, 5⟩ _ rfl
  obtain ⟨action, _, _, _, _, _, hclient⟩ := hagree
  obtain ⟨_, target, _, _, _, _, _, _, hvalidated⟩ :=
    hclient "origin".toList "git@github.com:Owner/b.git".toList otherCaseRemote
      "https://h/a".toList false rfl rfl
  refine ⟨action, target, fun object' => (hvalidated object').trans ?_⟩
  have hends : EndsInName (PlainUrls.url ['h'] [['a']]) := .inr (by decide)
  have hnamed : (MetadataDatabase.ownerMapping "second" "B").Named otherCaseRemote.host
      otherCaseRemote.owner otherCaseRemote.name := ⟨by decide, by decide, by decide⟩
  exact ⟨fun h => h.2.2, fun h => ⟨hends, hnamed, h⟩⟩

end LfsCloud
