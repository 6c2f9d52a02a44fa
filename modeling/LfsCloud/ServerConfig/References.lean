import Mathlib.Data.String.Basic
import LfsCloud.Lib.Results
import LfsCloud.Lib.SortedMap
import LfsCloud.Lib.U64
import LfsCloud.Metadata.Objects

/-!
# The references of a configuration

A configuration names its providers by their keys, and maps repositories to them. Loading it
ends with a check of these references: every mapping names providers that are there, and no
two mappings share an identifier or, up to letter case, a route.
-/

namespace LfsCloud.ServerConfig

/-- `RepositoryMapping`. -/
structure RepositoryMapping where
  id : String
  repoProvider : String
  host : String
  owner : String
  name : String
  providerRepositoryId : String
  storageProvider : String
  deriving DecidableEq, Repr

/-- `route_path`. -/
def RepositoryMapping.routePath (repository : RepositoryMapping) : String :=
  "/" ++ repository.host ++ "/" ++ repository.owner ++ "/" ++ repository.name ++ ".git/info/lfs"

/-- `RepositoryProviderConfig`: of a provider the check reads only its kind. -/
inductive RepositoryProviderConfig
  | gitHub (id : String)
  deriving DecidableEq, Repr

/-- `invalid_config_error`. -/
def invalidConfigError (path message : String) : ServerError :=
  .invalidConfiguration (path ++ " " ++ message)

/-- A value that has to be there. -/
def okOr {α : Type} (value : Option α) (path message : String) : Except ServerError α :=
  match value with
  | some a => .ok a
  | none => .error (invalidConfigError path message)

/-- A condition that has to hold. -/
def require (condition : Prop) [Decidable condition] (path message : String) :
    Except ServerError Unit :=
  if condition then .ok () else .error (invalidConfigError path message)

theorem okOr_eq_ok {α : Type} {value : Option α} {path message : String} {a : α}
    (h : okOr value path message = .ok a) : value = some a := by
  cases value with
  | none => cases h
  | some b => exact congrArg some (Except.ok.inj h)

theorem require_eq_ok {condition : Prop} [Decidable condition] {path message : String}
    (h : require condition path message = .ok ()) : condition := by
  unfold require at h
  split at h
  next hcondition => exact hcondition
  next => cases h

namespace RepositoryProviderConfig

/-- `validate_mapping`. -/
def validateMapping : RepositoryProviderConfig → RepositoryMapping → String →
    Except ServerError Unit
  | .gitHub _, repository, path =>
    if ((parseU64 repository.providerRepositoryId.toList).filter (0 < ·)).isSome then .ok ()
    else .error (invalidConfigError (path ++ ".provider_repository_id")
      "must be a positive GitHub numeric repository ID")

/-- `route_identity_is_case_insensitive`. -/
def routeIdentityIsCaseInsensitive : RepositoryProviderConfig → Bool
  | .gitHub _ => true

end RepositoryProviderConfig

/-- `StorageProviderConfig`, with what the metadata database keeps of it. -/
inductive StorageProviderConfig
  | googleDrive (id rootFolderId : String) (displayName : Option String)
  deriving DecidableEq, Repr

namespace StorageProviderConfig

/-- `id`. -/
def id : StorageProviderConfig → String
  | .googleDrive id _ _ => id

/-- `provider_type`. -/
def providerType : StorageProviderConfig → String
  | .googleDrive _ _ _ => "google_drive"

/-- `backend_root_id`. -/
def backendRootId : StorageProviderConfig → String
  | .googleDrive _ rootFolderId _ => rootFolderId

/-- `display_name`. -/
def displayName : StorageProviderConfig → Option String
  | .googleDrive _ _ displayName => displayName

end StorageProviderConfig

/-- The providers and mappings of a configuration. -/
structure References where
  repositoryProviders : SortedMap String RepositoryProviderConfig
  storageProviders : SortedMap String StorageProviderConfig
  repositories : List RepositoryMapping
  /-- A storage provider is kept under its own identifier. -/
  keyed : ∀ entry ∈ storageProviders.entries, entry.2.id = entry.1

namespace References

/-- The text that two routes are compared by: letter case may not tell them apart. -/
def routeComparisonKey (provider : RepositoryProviderConfig) (repository : RepositoryMapping) :
    String :=
  if provider.routeIdentityIsCaseInsensitive then repository.routePath.toLower
  else repository.routePath

/-- The loop of `validate_references`, with the identifiers and routes of the mappings before.
The quoted form of a text in a message is given by `debug`. -/
def validateFrom (debug : String → String) (config : References) :
    ℕ → List String → List String → List RepositoryMapping → Except ServerError Unit
  | _, _, _, [] => .ok ()
  | index, repoIds, routePaths, repository :: rest => do
    let repoPath := "repositories[" ++ toString index ++ "]"
    let provider ← okOr (config.repositoryProviders.lookup repository.repoProvider)
      (repoPath ++ ".repo_provider")
      ("references unknown repository provider " ++ debug repository.repoProvider)
    provider.validateMapping repository repoPath
    let _ ← okOr (config.storageProviders.lookup repository.storageProvider)
      (repoPath ++ ".storage_provider")
      ("references unknown storage provider " ++ debug repository.storageProvider)
    require (repository.id ∉ repoIds) (repoPath ++ ".id")
      ("duplicates repository id " ++ debug repository.id)
    require (routeComparisonKey provider repository ∉ routePaths) (repoPath ++ ".route_path")
      ("duplicates configured route path " ++ debug repository.routePath)
    validateFrom debug config (index + 1) (repository.id :: repoIds)
      (routeComparisonKey provider repository :: routePaths) rest

/-- `validate_references`. -/
def validateReferences (debug : String → String) (config : References) :
    Except ServerError Unit :=
  config.validateFrom debug 0 [] [] config.repositories

variable {debug : String → String} {config : References} {index : ℕ}
  {repoIds routePaths : List String} {repositories : List RepositoryMapping}

/-- Routes of the known providers are compared without regard to letter case. -/
theorem routeComparisonKey_eq (provider : RepositoryProviderConfig)
    (repository : RepositoryMapping) :
    routeComparisonKey provider repository = repository.routePath.toLower := by
  cases provider with
  | gitHub id => rfl

/-- The loop accepts mappings that name storage providers which are there, and that have
identifiers and routes of their own. -/
theorem validateFrom_eq_ok
    (h : config.validateFrom debug index repoIds routePaths repositories = .ok ()) :
    (∀ repository ∈ repositories, repository.id ∉ repoIds ∧
      repository.routePath.toLower ∉ routePaths ∧
      ∃ storage, config.storageProviders.lookup repository.storageProvider = some storage) ∧
      (repositories.map RepositoryMapping.id).Nodup ∧
      (repositories.map fun repository => repository.routePath.toLower).Nodup := by
  induction repositories generalizing index repoIds routePaths with
  | nil => exact ⟨nofun, List.nodup_nil, List.nodup_nil⟩
  | cons repository rest ih =>
    rw [validateFrom] at h
    obtain ⟨provider, _, h⟩ := except_bind_eq_ok h
    obtain ⟨_, _, h⟩ := except_bind_eq_ok h
    obtain ⟨storage, hstorage, h⟩ := except_bind_eq_ok h
    obtain ⟨_, hid, h⟩ := except_bind_eq_ok h
    obtain ⟨_, hroute, h⟩ := except_bind_eq_ok h
    rw [routeComparisonKey_eq] at hroute h
    obtain ⟨hrest, hids, hroutes⟩ := ih h
    refine ⟨fun other hother => ?_, ?_, ?_⟩
    · rcases List.mem_cons.mp hother with rfl | hother
      · exact ⟨require_eq_ok hid, require_eq_ok hroute, storage, okOr_eq_ok hstorage⟩
      · obtain ⟨hnotId, hnotRoute, hfound⟩ := hrest other hother
        exact ⟨fun hmem => hnotId (List.mem_cons_of_mem _ hmem),
          fun hmem => hnotRoute (List.mem_cons_of_mem _ hmem), hfound⟩
    · rw [List.map_cons, List.nodup_cons]
      refine ⟨fun hmem => ?_, hids⟩
      obtain ⟨other, hother, heq⟩ := List.mem_map.mp hmem
      exact (hrest other hother).1 (heq ▸ List.mem_cons_self)
    · rw [List.map_cons, List.nodup_cons]
      refine ⟨fun hmem => ?_, hroutes⟩
      obtain ⟨other, hother, heq⟩ := List.mem_map.mp hmem
      exact (hrest other hother).2.1 (heq ▸ List.mem_cons_self)

/-- A mapping that passes its checks is passed over. -/
theorem validateFrom_cons {repository : RepositoryMapping} {provider : RepositoryProviderConfig}
    {storage : StorageProviderConfig}
    (hprovider : config.repositoryProviders.lookup repository.repoProvider = some provider)
    (hmapping : provider.validateMapping repository ("repositories[" ++ toString index ++ "]") =
      .ok ())
    (hstorage : config.storageProviders.lookup repository.storageProvider = some storage)
    (hid : repository.id ∉ repoIds)
    (hroute : routeComparisonKey provider repository ∉ routePaths) :
    config.validateFrom debug index repoIds routePaths (repository :: repositories) =
      config.validateFrom debug (index + 1) (repository.id :: repoIds)
        (routeComparisonKey provider repository :: routePaths) repositories := by
  rw [validateFrom, hprovider, hstorage]
  change (provider.validateMapping _ _ >>= fun _ => require _ _ _ >>= fun _ =>
    require _ _ _ >>= fun _ => _) = _
  rw [hmapping, require, if_pos hid, require, if_pos hroute]
  rfl

/-- What the rest of the server relies on. -/
structure Valid (config : References) : Prop where
  id_inj : ∀ r ∈ config.repositories, ∀ r' ∈ config.repositories, r.id = r'.id → r = r'
  route_inj : ∀ r ∈ config.repositories, ∀ r' ∈ config.repositories,
    r.routePath = r'.routePath → r = r'
  nodup : (config.repositories.map RepositoryMapping.id).Nodup
  storage : ∀ r ∈ config.repositories,
    ∃ storage, config.storageProviders.lookup r.storageProvider = some storage

/-- A configuration that passes the check is valid. -/
theorem valid_of_validateReferences (h : config.validateReferences debug = .ok ()) :
    config.Valid := by
  obtain ⟨hall, hids, hroutes⟩ := validateFrom_eq_ok h
  refine ⟨fun r hr r' hr' heq => List.inj_on_of_nodup_map hids hr hr' heq, ?_, hids,
    fun r hr => (hall r hr).2.2⟩
  intro r hr r' hr' heq
  exact List.inj_on_of_nodup_map hroutes hr hr' (congrArg String.toLower heq)

end References

end LfsCloud.ServerConfig
