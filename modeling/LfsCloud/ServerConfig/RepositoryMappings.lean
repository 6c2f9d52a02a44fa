import LfsCloud.InitRouteInverse
import LfsCloud.Lib.TextCut
import LfsCloud.ServerConfig.References

/-!
# Repository mappings of a configuration

The values of a mapping may refer to environment variables, which are put in their place once, and
the parts of its route are checked to be safe in a URL.
-/

namespace LfsCloud.ServerConfig

/-- The braces of a reference to a variable. -/
def openBrace : Char := Char.ofNat 0x7b
def closeBrace : Char := Char.ofNat 0x7d

/-- The text around the first opening of a reference. -/
def splitReference : List Char → Option (List Char × List Char)
  | c :: d :: rest =>
    if c = '$' ∧ d = openBrace then some ([], rest)
    else (splitReference (d :: rest)).map fun (before, after) => (c :: before, after)
  | _ => none

theorem splitReference_length {text before after : List Char}
    (h : splitReference text = some (before, after)) : after.length < text.length := by
  induction text generalizing before after with
  | nil => cases h
  | cons c text ih =>
    cases text with
    | nil => cases h
    | cons d rest =>
      rw [splitReference] at h
      split at h
      · obtain ⟨rfl, rfl⟩ := Prod.mk.inj (Option.some.inj h)
        simp only [List.length_cons]
        omega
      · obtain ⟨⟨before', after'⟩, hfound, heq⟩ := Option.map_eq_some_iff.mp h
        obtain ⟨rfl, rfl⟩ := Prod.mk.inj heq
        have hlt := ih hfound
        simp only [List.length_cons] at hlt ⊢
        omega

theorem splitOnce_length {sep : Char} {text before after : List Char}
    (h : Text.splitOnce sep text = some (before, after)) : after.length < text.length := by
  obtain ⟨rfl, _⟩ := Text.splitOnce_eq_some h
  simp only [List.length_append, List.length_cons]
  omega

/-- A character of the name of a variable. -/
def isVariableChar (c : Char) : Bool := c.isAlphanum || c = '_'

section

variable (debug : String → String) (env : String → Option String)

/-- `interpolate_env`. -/
def interpolateEnv (path : String) (value : List Char) : Except ServerError (List Char) :=
  match _hsplit : splitReference value with
  | none => .ok value
  | some (before, afterStart) =>
    match _hname : Text.splitOnce closeBrace afterStart with
    | none => .error (invalidConfigError path "contains an unterminated environment reference")
    | some (name, rest) =>
      if name = [] ∨ name.all isVariableChar = false then
        .error (invalidConfigError path
          ("contains invalid environment variable reference " ++ debug (String.ofList name)))
      else match env (String.ofList name) with
        | none => .error (invalidConfigError path
            ("references unset environment variable " ++ String.ofList name))
        | some resolved => do
          let output ← interpolateEnv path rest
          pure (before ++ resolved.toList ++ output)
termination_by value.length
decreasing_by
  exact (splitOnce_length _hname).trans (splitReference_length _hsplit)

/-- `resolve_required`. -/
def resolveRequired (value : Option String) (path : String) : Except ServerError String := do
  let value ← okOr (value.filter fun value => !Text.isBlank value) path "is required"
  let value ← interpolateEnv debug env path value.toList
  if Text.trim value = [] then .error (invalidConfigError path "is required")
  else pure (String.ofList value)

end

/-- `validate_no_outer_whitespace`. -/
def validateNoOuterWhitespace (value : String) (path : String) : Except ServerError Unit :=
  require (value.toList = Text.trim value.toList) path
    "must not have leading or trailing whitespace"

/-- A label of a host that is safe in a route. -/
def RouteLabel (label : List Char) : Prop :=
  label ≠ [] ∧ label.head? ≠ some '-' ∧ label.getLast? ≠ some '-' ∧
    label.all (fun c => c.isAlphanum || c = '-') = true

instance (label : List Char) : Decidable (RouteLabel label) :=
  inferInstanceAs (Decidable (_ ∧ _ ∧ _ ∧ _))

/-- `validate_route_host`. -/
def validateRouteHost (host path : String) : Except ServerError Unit := do
  validateNoOuterWhitespace host path
  require (∀ label ∈ host.toList.splitOn '.', RouteLabel label) path
    "must be a route-safe host made of ASCII domain labels"

/-- `validate_route_component`. -/
def validateRouteComponent (component path : String) : Except ServerError Unit := do
  validateNoOuterWhitespace component path
  require (component ≠ "." ∧ component ≠ ".." ∧
      component.toList.all Url.isPlainChar = true) path
    ("must be a route-safe repository component without separators, percent escapes, or " ++
      "traversal segments")

/-- `RawRepositoryMapping`. -/
structure RawRepositoryMapping where
  id : Option String
  repoProvider : Option String
  host : Option String
  owner : Option String
  name : Option String
  providerRepositoryId : Option String
  storageProvider : Option String

section

variable (debug : String → String) (env : String → Option String)

/-- `RepositoryMapping::from_raw`. -/
def RepositoryMapping.fromRaw (index : ℕ) (raw : RawRepositoryMapping) :
    Except ServerError RepositoryMapping := do
  let basePath := "repositories[" ++ toString index ++ "]"
  let id ← resolveRequired debug env raw.id (basePath ++ ".id")
  let repoProvider ← resolveRequired debug env raw.repoProvider (basePath ++ ".repo_provider")
  let host ← resolveRequired debug env raw.host (basePath ++ ".host")
  validateRouteHost host (basePath ++ ".host")
  let owner ← resolveRequired debug env raw.owner (basePath ++ ".owner")
  validateRouteComponent owner (basePath ++ ".owner")
  let name ← resolveRequired debug env raw.name (basePath ++ ".name")
  validateRouteComponent name (basePath ++ ".name")
  require (¬".git".toList <:+ name.toList) (basePath ++ ".name")
    "must omit the .git suffix because the route adds it"
  let providerRepositoryId ← resolveRequired debug env raw.providerRepositoryId
    (basePath ++ ".provider_repository_id")
  let storageProvider ← resolveRequired debug env raw.storageProvider
    (basePath ++ ".storage_provider")
  pure ⟨id, repoProvider, host, owner, name, providerRepositoryId, storageProvider⟩

/-- The mappings of a configuration, in order. -/
def loadRepositories (raws : List RawRepositoryMapping) :
    Except ServerError (List RepositoryMapping) :=
  raws.zipIdx.mapM fun (raw, index) => RepositoryMapping.fromRaw debug env index raw

end

/-- What the checks of a mapping make sure of. -/
structure RepositoryMapping.RouteSafe (repository : RepositoryMapping) : Prop where
  host : Url.PlainSegment repository.host.toList
  owner : Url.PlainSegment repository.owner.toList
  name : Url.PlainSegment repository.name.toList
  suffix : ¬".git".toList <:+ repository.name.toList

variable {debug : String → String} {env : String → Option String}

/-- A text without references is left as it is. -/
theorem interpolateEnv_of_split {path : String} {value : List Char}
    (hnone : splitReference value = none) : interpolateEnv debug env path value = .ok value := by
  rw [interpolateEnv]
  split
  · rfl
  next hsome =>
    rw [hnone] at hsome
    cases hsome

/-- A value that is not blank is interpolated, and may be blank then. -/
theorem resolveRequired_some {written path : String} (hblank : Text.trim written.toList ≠ []) :
    resolveRequired debug env (some written) path =
      interpolateEnv debug env path written.toList >>= fun value =>
        if Text.trim value = [] then .error (invalidConfigError path "is required")
        else .ok (String.ofList value) := by
  have hfilter : (some written).filter (fun value => !Text.isBlank value) = some written := by
    rw [Option.filter_some, Text.isBlank, decide_eq_false hblank]
    rfl
  unfold resolveRequired
  rw [hfilter]
  rfl

/-- A value without references stands for itself. -/
theorem resolveRequired_plain {value path : String} (hblank : Text.trim value.toList ≠ [])
    (hplain : splitReference value.toList = none) :
    resolveRequired debug env (some value) path = .ok value := by
  rw [resolveRequired_some hblank, interpolateEnv_of_split hplain]
  refine (if_neg hblank).trans ?_
  rw [String.ofList_toList]

/-- A mapping as it is written, without references. -/
def RepositoryMapping.raw (repository : RepositoryMapping) : RawRepositoryMapping where
  id := some repository.id
  repoProvider := some repository.repoProvider
  host := some repository.host
  owner := some repository.owner
  name := some repository.name
  providerRepositoryId := some repository.providerRepositoryId
  storageProvider := some repository.storageProvider

theorem validateRouteHost_eq_ok {host path : String}
    (htrim : host.toList = Text.trim host.toList)
    (hlabels : ∀ label ∈ host.toList.splitOn '.', RouteLabel label) :
    validateRouteHost host path = .ok () := by
  unfold validateRouteHost validateNoOuterWhitespace require
  rw [if_pos htrim]
  exact if_pos hlabels

theorem validateRouteComponent_eq_ok {component path : String}
    (htrim : component.toList = Text.trim component.toList)
    (hdot : component.toList ≠ ['.'] ∧ component.toList ≠ ['.', '.'])
    (hplain : component.toList.all Url.isPlainChar = true) :
    validateRouteComponent component path = .ok () := by
  unfold validateRouteComponent validateNoOuterWhitespace require
  rw [if_pos htrim]
  exact if_pos ⟨fun h => hdot.1 (h ▸ rfl), fun h => hdot.2 (h ▸ rfl), hplain⟩

/-- A mapping that is written without references is read as it is. -/
theorem fromRaw_raw {repository : RepositoryMapping} {index : ℕ}
    (hplain : ∀ value ∈ [repository.id, repository.repoProvider, repository.host,
      repository.owner, repository.name, repository.providerRepositoryId,
      repository.storageProvider],
        Text.trim value.toList ≠ [] ∧ splitReference value.toList = none)
    (hhost : ∀ path, validateRouteHost repository.host path = .ok ())
    (howner : ∀ path, validateRouteComponent repository.owner path = .ok ())
    (hname : ∀ path, validateRouteComponent repository.name path = .ok ())
    (hsuffix : ¬".git".toList <:+ repository.name.toList) :
    RepositoryMapping.fromRaw debug env index repository.raw = .ok repository := by
  have hresolve : ∀ value ∈ [repository.id, repository.repoProvider, repository.host,
      repository.owner, repository.name, repository.providerRepositoryId,
      repository.storageProvider], ∀ path,
        resolveRequired debug env (some value) path = .ok value :=
    fun value hvalue path => resolveRequired_plain (hplain value hvalue).1 (hplain value hvalue).2
  simp only [List.forall_mem_cons] at hresolve
  obtain ⟨hid, hprovider, hhosted, howned, hnamed, hstable, hstorage, _⟩ := hresolve
  have hgit : ∀ path message, require (¬".git".toList <:+ repository.name.toList) path message =
      .ok () := fun _ _ => if_pos hsuffix
  have hbind : ∀ {α β : Type} (a : α) (f : α → Except ServerError β),
      (Except.ok a >>= f) = f a := fun _ _ => rfl
  unfold RepositoryMapping.fromRaw RepositoryMapping.raw
  simp only [hid, hprovider, hhosted, howned, hnamed, hstable, hstorage, hhost, howner, hname,
    hgit, hbind]
  rfl

/-- A value that is required is not blank. -/
theorem resolveRequired_ne_nil {value : Option String} {path resolved : String}
    (h : resolveRequired debug env value path = .ok resolved) : resolved.toList ≠ [] := by
  unfold resolveRequired at h
  obtain ⟨_, _, h⟩ := except_bind_eq_ok h
  obtain ⟨output, _, h⟩ := except_bind_eq_ok h
  split at h
  · cases h
  next hblank =>
    rw [← Except.ok.inj h, String.toList_ofList]
    rintro rfl
    exact hblank rfl

/-- A component that is accepted is a segment of a URL. -/
theorem plainSegment_of_validateRouteComponent {component path : String}
    (hne : component.toList ≠ []) (h : validateRouteComponent component path = .ok ()) :
    Url.PlainSegment component.toList := by
  unfold validateRouteComponent at h
  obtain ⟨_, _, h⟩ := except_bind_eq_ok h
  obtain ⟨hdot, hdots, hplain⟩ := require_eq_ok h
  refine ⟨hne, List.all_eq_true.mp hplain, fun heq => hdot ?_, fun heq => hdots ?_⟩
  · exact String.toList_inj.mp heq
  · exact String.toList_inj.mp heq

/-- A host that is accepted is a segment of a URL. -/
theorem plainSegment_of_validateRouteHost {host path : String}
    (h : validateRouteHost host path = .ok ()) : Url.PlainSegment host.toList := by
  unfold validateRouteHost at h
  obtain ⟨_, _, h⟩ := except_bind_eq_ok h
  have hlabels := require_eq_ok h
  have hjoin : ['.'].intercalate (host.toList.splitOn '.') = host.toList :=
    List.intercalate_splitOn '.'
  have hempty : ([] : List Char) ∉ host.toList.splitOn '.' := fun hmem => (hlabels _ hmem).1 rfl
  have hne : host.toList ≠ [] := by
    intro hnil
    rw [hnil] at hempty
    exact hempty (by decide)
  refine ⟨hne, fun c hc => ?_, fun hdot => ?_, fun hdots => ?_⟩
  · by_cases hdot : c = '.'
    · rw [hdot]
      rfl
    · rw [← hjoin] at hc
      rcases mem_intercalate hc with hsep | ⟨label, hlabel, hmem⟩
      · exact absurd hsep hdot
      · have hchar := List.all_eq_true.mp (hlabels label hlabel).2.2.2 c hmem
        unfold Url.isPlainChar
        rw [hchar]
        rfl
  · rw [hdot] at hempty
    exact hempty (by decide)
  · rw [hdots] at hempty
    exact hempty (by decide)

/-- A mapping that is read is safe in a route. -/
theorem routeSafe_of_fromRaw {index : ℕ} {raw : RawRepositoryMapping}
    {repository : RepositoryMapping}
    (h : RepositoryMapping.fromRaw debug env index raw = .ok repository) :
    repository.RouteSafe := by
  unfold RepositoryMapping.fromRaw at h
  obtain ⟨id, _, h⟩ := except_bind_eq_ok h
  obtain ⟨repoProvider, _, h⟩ := except_bind_eq_ok h
  obtain ⟨host, _, h⟩ := except_bind_eq_ok h
  obtain ⟨_, hhost, h⟩ := except_bind_eq_ok h
  obtain ⟨owner, howner, h⟩ := except_bind_eq_ok h
  obtain ⟨_, hownerSafe, h⟩ := except_bind_eq_ok h
  obtain ⟨name, hname, h⟩ := except_bind_eq_ok h
  obtain ⟨_, hnameSafe, h⟩ := except_bind_eq_ok h
  obtain ⟨_, hsuffix, h⟩ := except_bind_eq_ok h
  obtain ⟨_, _, h⟩ := except_bind_eq_ok h
  obtain ⟨_, _, h⟩ := except_bind_eq_ok h
  rw [← Except.ok.inj h]
  exact ⟨plainSegment_of_validateRouteHost hhost,
    plainSegment_of_validateRouteComponent (resolveRequired_ne_nil howner) hownerSafe,
    plainSegment_of_validateRouteComponent (resolveRequired_ne_nil hname) hnameSafe,
    require_eq_ok hsuffix⟩

/-- All mappings of a configuration are safe in routes. -/
theorem routeSafe_of_loadRepositories {raws : List RawRepositoryMapping}
    {repositories : List RepositoryMapping}
    (h : loadRepositories debug env raws = .ok repositories) :
    ∀ repository ∈ repositories, repository.RouteSafe := by
  intro repository hmem
  obtain ⟨⟨raw, index⟩, _, hraw⟩ := exists_of_mem_mapM_eq_ok h repository hmem
  exact routeSafe_of_fromRaw hraw

end LfsCloud.ServerConfig
