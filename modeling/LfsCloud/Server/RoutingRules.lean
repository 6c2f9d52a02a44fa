import LfsCloud.Metadata.ConfigSyncRuns
import LfsCloud.Server.Routing

/-!
# What a path resolves to

A path names at most one repository, so the order of the routes does not matter: what a path
resolves to is said by the repository that it names.
-/

namespace LfsCloud

open ServerConfig Text

variable {debug : String → String} {config : References}
  {repository : ServerConfig.RepositoryMapping} {path suffix host owner name : List Char}

/-- The end of a route. -/
def routeEnd : List Char := ".git/info/lfs".toList

/-- The host, owner and name are those of the repository, up to letter case. -/
structure ServerConfig.RepositoryMapping.Named (repository : ServerConfig.RepositoryMapping)
    (host owner name : List Char) : Prop where
  host : eqIgnoreAsciiCase host repository.host.toList = true
  owner : eqIgnoreAsciiCase owner repository.owner.toList = true
  name : eqIgnoreAsciiCase name repository.name.toList = true

/-- The path is the route of the repository, up to letter case, and a suffix. -/
def Names (repository : ServerConfig.RepositoryMapping) (path suffix : List Char) : Prop :=
  ∃ host owner name, repository.Named host owner name ∧
    path = identityPath host owner name ++ routeEnd ++ suffix

/-- What is below the route of a repository, if anything is. -/
def endpointAt (debug : String → String) :
    List Char → Option (Except RouteError LfsRouteEndpoint)
  | [] => some (.ok .info)
  | c :: suffix =>
    if c ≠ '/' then none
    else if suffix = [] then some (.ok .info)
    else some (parseLfsRouteEndpoint debug suffix)

/-! ## Paths of repositories -/

theorem slash_notMem_of_plain {segment : List Char} (h : Url.PlainSegment segment) :
    '/' ∉ segment := fun hmem => absurd (h.plain _ hmem) (by decide)

/-- The parts of a repository that is named have no slash. -/
theorem ServerConfig.RepositoryMapping.Named.slash (hsafe : repository.RouteSafe)
    (h : repository.Named host owner name) : '/' ∉ host ∧ '/' ∉ owner ∧ '/' ∉ name :=
  ⟨fun hmem => slash_notMem_of_plain hsafe.host ((slash_mem_of_eqIgnoreAsciiCase h.host).mp hmem),
    fun hmem => slash_notMem_of_plain hsafe.owner
      ((slash_mem_of_eqIgnoreAsciiCase h.owner).mp hmem),
    fun hmem => slash_notMem_of_plain hsafe.name
      ((slash_mem_of_eqIgnoreAsciiCase h.name).mp hmem)⟩

/-- A text without the separator in front of it is determined. -/
theorem append_sep_inj {sep : Char} {front front' back back' : List Char} (h : sep ∉ front)
    (h' : sep ∉ front') (heq : front ++ sep :: back = front' ++ sep :: back') :
    front = front' ∧ back = back' := by
  have hsplit := splitOnce_append h back
  rw [heq, splitOnce_append h'] at hsplit
  obtain ⟨hfront, hback⟩ := Prod.mk.inj (Option.some.inj hsplit)
  exact ⟨hfront.symm, hback.symm⟩

/-- The parts of a path of a repository. -/
theorem identityPath_inj {host' owner' name' suffix' : List Char}
    (h : '/' ∉ host ∧ '/' ∉ owner ∧ '/' ∉ name) (h' : '/' ∉ host' ∧ '/' ∉ owner' ∧ '/' ∉ name')
    (heq : identityPath host owner name ++ routeEnd ++ suffix =
      identityPath host' owner' name' ++ routeEnd ++ suffix') :
    host = host' ∧ owner = owner' ∧ name = name' ∧ suffix = suffix' := by
  have hparts : ∀ host owner name suffix : List Char,
      identityPath host owner name ++ routeEnd ++ suffix = '/' :: (host ++ '/' :: (owner ++
        '/' :: ((name ++ ".git".toList) ++ '/' :: ("info/lfs".toList ++ suffix)))) := by
    intro host owner name suffix
    have hend : routeEnd = ".git".toList ++ '/' :: "info/lfs".toList := rfl
    rw [identityPath, hend]
    simp only [List.cons_append, List.append_assoc]
  have hgit : ∀ {name : List Char}, '/' ∉ name → '/' ∉ name ++ ".git".toList := by
    intro name hname hmem
    rcases List.mem_append.mp hmem with hmem | hmem
    · exact hname hmem
    · exact absurd hmem (by decide)
  rw [hparts, hparts] at heq
  obtain ⟨hhost, heq⟩ := append_sep_inj h.1 h'.1 (List.cons.inj heq).2
  obtain ⟨howner, heq⟩ := append_sep_inj h.2.1 h'.2.1 heq
  obtain ⟨hname, heq⟩ := append_sep_inj (hgit h.2.2) (hgit h'.2.2) heq
  exact ⟨hhost, howner, List.append_cancel_right hname, List.append_cancel_left heq⟩

/-- A text that is a path of a repository up to letter case has the parts of one. -/
theorem eqIgnoreAsciiCase_identityPath {identity : List Char} :
    eqIgnoreAsciiCase identity
        (identityPath repository.host.toList repository.owner.toList repository.name.toList) =
      true ↔ ∃ host owner name, repository.Named host owner name ∧
        identity = identityPath host owner name := by
  constructor
  · intro h
    have hmap := of_decide_eq_true h
    unfold identityPath at hmap
    simp only [List.cons_append, List.append_assoc, List.map_cons, List.map_append] at hmap
    obtain ⟨c, rest, rfl, hc, hmap⟩ := List.map_eq_cons_iff.mp hmap
    obtain ⟨host, rest, rfl, hhost, hmap⟩ := List.map_eq_append_iff.mp hmap
    obtain ⟨d, rest, rfl, hd, hmap⟩ := List.map_eq_cons_iff.mp hmap
    obtain ⟨owner, rest, rfl, howner, hmap⟩ := List.map_eq_append_iff.mp hmap
    obtain ⟨e, name, rfl, he, hname⟩ := List.map_eq_cons_iff.mp hmap
    obtain rfl := toLower_eq_slash.mp hc
    obtain rfl := toLower_eq_slash.mp hd
    obtain rfl := toLower_eq_slash.mp he
    refine ⟨host, owner, name, ⟨decide_eq_true hhost, decide_eq_true howner,
      decide_eq_true hname⟩, ?_⟩
    rw [identityPath]
    simp only [List.cons_append, List.append_assoc]
  · rintro ⟨host, owner, name, hnamed, rfl⟩
    apply decide_eq_true
    unfold identityPath
    simp only [List.map_cons, List.map_append]
    rw [of_decide_eq_true hnamed.host, of_decide_eq_true hnamed.owner,
      of_decide_eq_true hnamed.name]

/-- The route of a repository is its path and the end of a route. -/
theorem routePath_toList : repository.routePath.toList =
    identityPath repository.host.toList repository.owner.toList repository.name.toList ++
      routeEnd := by
  unfold ServerConfig.RepositoryMapping.routePath identityPath routeEnd
  simp only [String.toList_append, List.cons_append, List.append_assoc]
  rfl

/-! ## One route -/

section Route

variable (hcase : config.repositoryMappingIsCaseInsensitive repository = true)

include hcase

/-- A candidate matches where it is the path of the repository and the rest of the route. -/
theorem pathMatches_iff {candidate rest : List Char} :
    (configuredRoute config repository).pathMatches candidate
      (identityPath repository.host.toList repository.owner.toList repository.name.toList ++ rest) =
        true ↔ ∃ host owner name, repository.Named host owner name ∧
          candidate = identityPath host owner name ++ rest := by
  set identity :=
    identityPath repository.host.toList repository.owner.toList repository.name.toList
      with hidentity
  have hsplit : splitAtByte (byteLength identity) (identity ++ rest) = some (identity, rest) :=
    splitAtByte_eq_some.mpr ⟨rfl, rfl⟩
  unfold ConfiguredLfsRoute.pathMatches configuredRoute
  dsimp only
  rw [hcase, ← hidentity, hsplit]
  simp only [Bool.not_true, Bool.false_eq_true, ↓reduceIte]
  cases hcandidate : splitAtByte (byteLength identity) candidate with
  | none =>
    refine ⟨nofun, ?_⟩
    rintro ⟨host, owner, name, hnamed, rfl⟩
    have heq := eqIgnoreAsciiCase_identityPath.mpr ⟨host, owner, name, hnamed, rfl⟩
    have hfound : splitAtByte (byteLength identity) (identityPath host owner name ++ rest) =
        some (identityPath host owner name, rest) :=
      splitAtByte_eq_some.mpr ⟨rfl, byteLength_of_eqIgnoreAsciiCase heq⟩
    rw [hcandidate] at hfound
    cases hfound
  | some parts =>
    obtain ⟨front, back⟩ := parts
    obtain ⟨rfl, hlength⟩ := splitAtByte_eq_some.mp hcandidate
    dsimp only
    rw [Bool.and_eq_true, decide_eq_true_eq, hidentity, eqIgnoreAsciiCase_identityPath]
    constructor
    · rintro ⟨⟨host, owner, name, hnamed, rfl⟩, rfl⟩
      exact ⟨host, owner, name, hnamed, rfl⟩
    · rintro ⟨host, owner, name, hnamed, heq⟩
      have hsame := byteLength_of_eqIgnoreAsciiCase
        (eqIgnoreAsciiCase_identityPath.mpr ⟨host, owner, name, hnamed, rfl⟩)
      have hfound := splitAtByte_eq_some.mpr ⟨heq, hsame⟩
      rw [← hidentity, hcandidate] at hfound
      obtain ⟨rfl, rfl⟩ := Prod.mk.inj (Option.some.inj hfound)
      exact ⟨⟨host, owner, name, hnamed, rfl⟩, rfl⟩

/-- The prefix that is stripped is the route and a slash. -/
theorem stripPathPrefix_eq_some :
    (configuredRoute config repository).stripPathPrefix path = some suffix ↔
      Names repository path ('/' :: suffix) := by
  have hwithSlash : (configuredRoute config repository).routePathWithSlash =
      identityPath repository.host.toList repository.owner.toList repository.name.toList ++
        (routeEnd ++ ['/']) := by
    rw [← List.append_assoc, ← routePath_toList]
    rfl
  unfold ConfiguredLfsRoute.stripPathPrefix
  rw [hwithSlash]
  constructor
  · intro h
    obtain ⟨⟨candidate, rest⟩, hsplit, h⟩ := Option.bind_eq_some_iff.mp h
    dsimp only at h
    split at h
    next hmatches =>
      obtain rfl := Option.some.inj h
      obtain ⟨host, owner, name, hnamed, rfl⟩ := (pathMatches_iff hcase).mp hmatches
      obtain ⟨rfl, _⟩ := splitAtByte_eq_some.mp hsplit
      refine ⟨host, owner, name, hnamed, ?_⟩
      simp only [List.append_assoc, List.cons_append, List.nil_append]
    next => cases h
  · rintro ⟨host, owner, name, hnamed, rfl⟩
    have hsame := byteLength_of_eqIgnoreAsciiCase
      (eqIgnoreAsciiCase_identityPath.mpr ⟨host, owner, name, hnamed, rfl⟩)
    have hsplit : splitAtByte (byteLength (identityPath repository.host.toList
        repository.owner.toList repository.name.toList ++ (routeEnd ++ ['/'])))
          (identityPath host owner name ++ routeEnd ++ '/' :: suffix) =
        some (identityPath host owner name ++ (routeEnd ++ ['/']), suffix) := by
      apply splitAtByte_eq_some.mpr
      refine ⟨?_, ?_⟩
      · simp only [List.append_assoc, List.cons_append, List.nil_append]
      · simp only [byteLength_append, hsame]
    rw [hsplit]
    exact if_pos ((pathMatches_iff hcase).mpr ⟨host, owner, name, hnamed, rfl⟩)

/-- What a route makes of a path is what is below it. -/
theorem resolve_eq_some (hsafe : repository.RouteSafe)
    {result : Except RouteError ResolvedLfsRoute} :
    (configuredRoute config repository).resolve debug path = some result ↔
      ∃ suffix endpoint, Names repository path suffix ∧ endpointAt debug suffix = some endpoint ∧
        result = endpoint.map fun endpoint => ⟨repository, endpoint⟩ := by
  have hroute : (configuredRoute config repository).pathMatches path
      (configuredRoute config repository).routePath = true ↔ Names repository path [] := by
    have hpath : (configuredRoute config repository).routePath = identityPath
        repository.host.toList repository.owner.toList repository.name.toList ++ routeEnd :=
      routePath_toList
    rw [hpath, pathMatches_iff hcase]
    simp only [Names, List.append_nil]
  have hslash : (configuredRoute config repository).pathMatches path
      (configuredRoute config repository).routePathWithSlash = true ↔
        Names repository path ['/'] := by
    have hpath : (configuredRoute config repository).routePathWithSlash = identityPath
        repository.host.toList repository.owner.toList repository.name.toList ++
          (routeEnd ++ ['/']) := by
      rw [← List.append_assoc, ← routePath_toList]
      rfl
    rw [hpath, pathMatches_iff hcase]
    simp only [Names, List.append_assoc]
  have hunique : ∀ {s s'}, Names repository path s → Names repository path s' → s = s' := by
    rintro s s' ⟨h, o, n, hnamed, rfl⟩ ⟨h', o', n', hnamed', heq⟩
    exact (identityPath_inj (hnamed.slash hsafe) (hnamed'.slash hsafe) heq).2.2.2
  unfold ConfiguredLfsRoute.resolve
  split
  next hmatches =>
    have hinfo : ∃ s, Names repository path s ∧ endpointAt debug s = some (.ok .info) := by
      rcases Bool.or_eq_true _ _ |>.mp hmatches with h | h
      · exact ⟨[], hroute.mp h, rfl⟩
      · exact ⟨['/'], hslash.mp h, rfl⟩
    obtain ⟨s, hs, hend⟩ := hinfo
    constructor
    · intro h
      exact ⟨s, _, hs, hend, (Option.some.inj h).symm⟩
    · rintro ⟨s', endpoint, hs', hend', rfl⟩
      rw [hunique hs' hs, hend] at hend'
      obtain rfl := Option.some.inj hend'
      rfl
  next hnot =>
    have hneither : ¬Names repository path [] ∧ ¬Names repository path ['/'] := by
      constructor
      · intro h
        exact hnot (by rw [hroute.mpr h, Bool.true_or])
      · intro h
        exact hnot (by rw [hslash.mpr h, Bool.or_true])
    constructor
    · intro h
      obtain ⟨s, hstrip, rfl⟩ := Option.map_eq_some_iff.mp h
      have hnames := (stripPathPrefix_eq_some hcase).mp hstrip
      have hne : s ≠ [] := by
        rintro rfl
        exact hneither.2 hnames
      refine ⟨_, _, hnames, ?_, rfl⟩
      rw [endpointAt, if_neg (not_not.mpr rfl), if_neg hne]
    · rintro ⟨s, endpoint, hs, hend, rfl⟩
      cases s with
      | nil => exact absurd hs hneither.1
      | cons c s =>
        rw [endpointAt] at hend
        split_ifs at hend with hc hnil
        · subst hnil
          obtain rfl := not_not.mp hc
          exact absurd hs hneither.2
        · obtain rfl := not_not.mp hc
          obtain rfl := Option.some.inj hend
          rw [(stripPathPrefix_eq_some hcase).mpr hs]
          rfl

end Route

/-! ## The routes of a configuration -/

/-- Every mapping of a configuration that is accepted has a provider. -/
theorem isCaseInsensitive_of_validateFrom {index : ℕ} {repoIds routePaths : List String}
    {repositories : List ServerConfig.RepositoryMapping}
    (h : config.validateFrom debug index repoIds routePaths repositories = .ok ()) :
    ∀ repository ∈ repositories, config.repositoryMappingIsCaseInsensitive repository = true := by
  induction repositories generalizing index repoIds routePaths with
  | nil => exact fun _ hmem => absurd hmem List.not_mem_nil
  | cons repository rest ih =>
    rw [References.validateFrom] at h
    obtain ⟨provider, hprovider, h⟩ := except_bind_eq_ok h
    obtain ⟨_, _, h⟩ := except_bind_eq_ok h
    obtain ⟨_, _, h⟩ := except_bind_eq_ok h
    obtain ⟨_, _, h⟩ := except_bind_eq_ok h
    obtain ⟨_, _, h⟩ := except_bind_eq_ok h
    intro other hother
    rcases List.mem_cons.mp hother with rfl | hother
    · unfold References.repositoryMappingIsCaseInsensitive
      rw [okOr_eq_ok hprovider]
      cases provider with
      | gitHub id => rfl
    · exact ih h other hother

/-- Repositories that a name fits have one route. -/
theorem routePath_toLower_of_named {other : ServerConfig.RepositoryMapping}
    (h : repository.Named host owner name) (h' : other.Named host owner name) :
    repository.routePath.toLower = other.routePath.toLower := by
  have hlower : ∀ repository : ServerConfig.RepositoryMapping, repository.Named host owner name →
      repository.routePath.toLower.toList =
        (identityPath host owner name ++ routeEnd).map Char.toLower := by
    intro repository h
    have heq := of_decide_eq_true
      (eqIgnoreAsciiCase_identityPath.mpr ⟨host, owner, name, h, rfl⟩)
    have hmap : repository.routePath.toLower.toList =
        repository.routePath.toList.map Char.toLower := String.toList_map
    rw [hmap, routePath_toList, List.map_append, List.map_append, heq]
  exact String.toList_inj.mp ((hlower _ h).trans (hlower _ h').symm)

/-- What is loaded, and passes the check of the references. -/
structure RoutesLoaded (debug : String → String) (config : References) : Prop where
  safe : ∀ repository ∈ config.repositories, repository.RouteSafe
  references : config.validateReferences debug = .ok ()

namespace RoutesLoaded

variable (hloaded : RoutesLoaded debug config)

include hloaded

/-- A name fits one repository at most. -/
theorem named_unique {other : ServerConfig.RepositoryMapping}
    (hmem : repository ∈ config.repositories) (hmem' : other ∈ config.repositories)
    (h : repository.Named host owner name)
    (h' : other.Named host owner name) : repository = other :=
  List.inj_on_of_nodup_map (References.validateFrom_eq_ok hloaded.references).2.2 hmem hmem'
    (routePath_toLower_of_named h h')

/-- A path names one repository at most, with one suffix. -/
theorem names_unique {other : ServerConfig.RepositoryMapping} {suffix' : List Char}
    (hmem : repository ∈ config.repositories) (hmem' : other ∈ config.repositories)
    (h : Names repository path suffix) (h' : Names other path suffix') :
    repository = other ∧ suffix = suffix' := by
  obtain ⟨host, owner, name, hnamed, rfl⟩ := h
  obtain ⟨host', owner', name', hnamed', heq⟩ := h'
  obtain ⟨rfl, rfl, rfl, rfl⟩ := identityPath_inj (hnamed.slash (hloaded.safe _ hmem))
    (hnamed'.slash (hloaded.safe _ hmem')) heq
  exact ⟨hloaded.named_unique hmem hmem' hnamed hnamed', rfl⟩

/-- What the loop makes of a path is what some route makes of it. -/
theorem exists_of_findSome {result : Except RouteError ResolvedLfsRoute}
    (h : (LfsRouteResolver.new config).routes.findSome?
      (ConfiguredLfsRoute.resolve debug · path) = some result) :
    ∃ repository ∈ config.repositories, ∃ suffix endpoint, Names repository path suffix ∧
      endpointAt debug suffix = some endpoint ∧
        result = endpoint.map fun endpoint => ⟨repository, endpoint⟩ := by
  obtain ⟨route, hroute, hresolve⟩ := List.exists_of_findSome?_eq_some h
  obtain ⟨repository, hmem, rfl⟩ := List.mem_map.mp (List.mem_mergeSort.mp hroute)
  exact ⟨repository, hmem, (resolve_eq_some (isCaseInsensitive_of_validateFrom
    hloaded.references repository hmem) (hloaded.safe repository hmem)).mp hresolve⟩

/-- A path of a repository resolves to what is below it. -/
theorem resolvePath_of_names {endpoint : Except RouteError LfsRouteEndpoint}
    (hmem : repository ∈ config.repositories) (hnames : Names repository path suffix)
    (hend : endpointAt debug suffix = some endpoint) :
    (LfsRouteResolver.new config).resolvePath debug path =
      endpoint.map fun endpoint => ⟨repository, endpoint⟩ := by
  have hslash : path.head? = some '/' := by
    obtain ⟨host, owner, name, _, rfl⟩ := hnames
    rfl
  unfold LfsRouteResolver.resolvePath
  rw [if_neg (not_not.mpr hslash)]
  cases hfound : (LfsRouteResolver.new config).routes.findSome?
      (ConfiguredLfsRoute.resolve debug · path) with
  | none =>
    have hnone := List.findSome?_eq_none_iff.mp hfound (configuredRoute config repository)
      (List.mem_mergeSort.mpr (List.mem_map_of_mem hmem))
    rw [(resolve_eq_some (isCaseInsensitive_of_validateFrom hloaded.references repository hmem)
      (hloaded.safe repository hmem)).mpr ⟨suffix, endpoint, hnames, hend, rfl⟩] at hnone
    cases hnone
  | some result =>
    obtain ⟨other, hother, suffix', endpoint', hnames', hend', rfl⟩ :=
      hloaded.exists_of_findSome hfound
    obtain ⟨rfl, rfl⟩ := hloaded.names_unique hmem hother hnames hnames'
    rw [hend] at hend'
    rw [Option.some.inj hend']

/-- A path of no repository is not configured. -/
theorem resolvePath_of_not_names (h : ∀ repository ∈ config.repositories, ∀ suffix,
      Names repository path suffix → endpointAt debug suffix = none) :
    (LfsRouteResolver.new config).resolvePath debug path =
      .error (if path.head? = some '/' then .routeNotConfigured path
        else .invalidRequest "route path must start with '/'") := by
  unfold LfsRouteResolver.resolvePath
  by_cases hslash : path.head? = some '/'
  · rw [if_neg (not_not.mpr hslash), if_pos hslash]
    cases hfound : (LfsRouteResolver.new config).routes.findSome?
        (ConfiguredLfsRoute.resolve debug · path) with
    | none => rfl
    | some result =>
      obtain ⟨repository, hmem, suffix, endpoint, hnames, hend, _⟩ :=
        hloaded.exists_of_findSome hfound
      rw [h repository hmem suffix hnames] at hend
      cases hend
  · rw [if_pos hslash, if_neg hslash]

/-- The mapping that is found for an identity is the one that it names. -/
theorem repositoryMappingForIdentity_eq_some :
    config.repositoryMappingForIdentity host owner name = some repository ↔
      repository ∈ config.repositories ∧ repository.Named host owner name := by
  have hcase := isCaseInsensitive_of_validateFrom hloaded.references
  have hsymm : ∀ {s t}, eqIgnoreAsciiCase s t = true ↔ eqIgnoreAsciiCase t s = true := by
    intro s t
    unfold eqIgnoreAsciiCase
    rw [decide_eq_true_eq, decide_eq_true_eq]
    exact eq_comm
  have htest : ∀ repository ∈ config.repositories,
      (eqIgnoreAsciiCase repository.host.toList host &&
        if config.repositoryMappingIsCaseInsensitive repository then
          eqIgnoreAsciiCase repository.owner.toList owner &&
            eqIgnoreAsciiCase repository.name.toList name
        else repository.owner.toList = owner && repository.name.toList = name) = true ↔
      repository.Named host owner name := by
    intro repository hmem
    rw [if_pos (hcase repository hmem), Bool.and_eq_true, Bool.and_eq_true]
    constructor
    · rintro ⟨hhost, howner, hname⟩
      exact ⟨hsymm.mp hhost, hsymm.mp howner, hsymm.mp hname⟩
    · rintro ⟨hhost, howner, hname⟩
      exact ⟨hsymm.mp hhost, hsymm.mp howner, hsymm.mp hname⟩
  unfold References.repositoryMappingForIdentity
  constructor
  · intro h
    have hmem := List.mem_of_find?_eq_some h
    have hpasses := List.find?_some h
    exact ⟨hmem, (htest repository hmem).mp hpasses⟩
  · rintro ⟨hmem, hnamed⟩
    cases hfound : config.repositories.find? _ with
    | none =>
      have hnone := List.find?_eq_none.mp hfound repository hmem
      exact absurd ((htest repository hmem).mpr hnamed) hnone
    | some other =>
      have hother := List.mem_of_find?_eq_some hfound
      have hpasses := List.find?_some hfound
      rw [hloaded.named_unique hother hmem ((htest other hother).mp hpasses) hnamed]

end RoutesLoaded

/-- For every configuration that is loaded and every path: the path resolves to the endpoint below
the one repository whose route it is up to letter case, in whatever order the mappings stand; a
path of no repository is not configured; and the mapping found for an identity is the one that the
route of the identity resolves to. -/
theorem resolve_path_exact {env : String → Option String} {raws : List RawRepositoryMapping}
    (hload : loadRepositories debug env raws = .ok config.repositories)
    (hvalid : config.validateReferences debug = .ok ()) (path : List Char) :
    (∀ repository ∈ config.repositories, ∀ suffix endpoint, Names repository path suffix →
      endpointAt debug suffix = some endpoint →
        (LfsRouteResolver.new config).resolvePath debug path =
          endpoint.map fun endpoint => ⟨repository, endpoint⟩) ∧
    ((∀ repository ∈ config.repositories, ∀ suffix, Names repository path suffix →
      endpointAt debug suffix = none) →
        (LfsRouteResolver.new config).resolvePath debug path =
          .error (if path.head? = some '/' then .routeNotConfigured path
            else .invalidRequest "route path must start with '/'")) ∧
    (∀ repository ∈ config.repositories, ∀ other ∈ config.repositories, ∀ suffix suffix',
      Names repository path suffix → Names other path suffix' →
        repository = other ∧ suffix = suffix') ∧
    ∀ host owner name repository,
      config.repositoryMappingForIdentity host owner name = some repository ↔
        repository ∈ config.repositories ∧ repository.Named host owner name := by
  have hloaded : RoutesLoaded debug config := ⟨routeSafe_of_loadRepositories hload, hvalid⟩
  refine ⟨?_, hloaded.resolvePath_of_not_names, ?_, ?_⟩
  · exact fun repository hmem suffix endpoint => hloaded.resolvePath_of_names hmem
  · exact fun repository hmem other hother suffix suffix' => hloaded.names_unique hmem hother
  · exact fun host owner name repository => hloaded.repositoryMappingForIdentity_eq_some

/-- Two mappings are loaded, without an environment. -/
theorem loadRepositories_twoMappings :
    loadRepositories id (fun _ => none)
        ((MetadataDatabase.twoMappings "a" "B").repositories.map
          ServerConfig.RepositoryMapping.raw) =
      .ok (MetadataDatabase.twoMappings "a" "B").repositories := by
  have hload : ∀ id' name, id' = "first" ∨ id' = "second" → name = "a" ∨ name = "B" → ∀ index,
      ServerConfig.RepositoryMapping.fromRaw id (fun _ => none) index
        (MetadataDatabase.ownerMapping id' name).raw =
          .ok (MetadataDatabase.ownerMapping id' name) := by
    rintro id' name (rfl | rfl) (rfl | rfl) index
    all_goals
      exact fromRaw_raw (by decide) (fun _ => validateRouteHost_eq_ok (by decide) (by decide))
        (fun _ => ServerConfig.validateRouteComponent_eq_ok (by decide) (by decide) (by decide))
        (fun _ => ServerConfig.validateRouteComponent_eq_ok (by decide) (by decide) (by decide))
        (by decide)
  have hraws : (((MetadataDatabase.twoMappings "a" "B").repositories.map
      ServerConfig.RepositoryMapping.raw).zipIdx) =
      [((MetadataDatabase.ownerMapping "first" "a").raw, 0),
        ((MetadataDatabase.ownerMapping "second" "B").raw, 1)] := rfl
  unfold loadRepositories
  rw [hraws, List.mapM_cons, List.mapM_cons, List.mapM_nil]
  dsimp only
  rw [hload "first" "a" (.inl rfl) (.inl rfl), hload "second" "B" (.inr rfl) (.inr rfl)]
  rfl

theorem validateReferences_routes :
    (MetadataDatabase.twoMappings "a" "B").validateReferences id = .ok () := by
  apply MetadataDatabase.validateReferences_twoMappings
  intro h
  have htext := congrArg String.toList h
  change (String.map _ _).toList = (String.map _ _).toList at htext
  rw [String.toList_map, String.toList_map] at htext
  revert htext
  decide

/-- The path `/GitHub.com/Owner/b.git/info/lfs/objects/batch`. -/
def batchPath : List Char :=
  identityPath "GitHub.com".toList "Owner".toList "b".toList ++ routeEnd ++
    "/objects/batch".toList

/-- In another letter case the second of two mappings is found. -/
theorem resolve_path_exact_batch :
    (LfsRouteResolver.new (MetadataDatabase.twoMappings "a" "B")).resolvePath id batchPath =
      .ok ⟨MetadataDatabase.ownerMapping "second" "B", .batch⟩ := by
  have hexact := (resolve_path_exact loadRepositories_twoMappings validateReferences_routes
    batchPath).1 (MetadataDatabase.ownerMapping "second" "B")
      (List.mem_cons_of_mem _ List.mem_cons_self) "/objects/batch".toList (.ok .batch)
  exact hexact ⟨_, _, _, ⟨by decide, by decide, by decide⟩, rfl⟩ rfl

end LfsCloud
