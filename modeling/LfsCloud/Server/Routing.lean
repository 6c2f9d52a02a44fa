import LfsCloud.ServerConfig.RepositoryMappings

/-!
# Routes of repositories

A request path is looked up among the routes of the configured repositories, without regard to the
letter case of the repository, and the rest of the path names an endpoint below it.
-/

namespace LfsCloud

open ServerConfig

/-- `LfsRouteEndpoint`. -/
inductive LfsRouteEndpoint
  | info
  | batch
  | object (oid : LfsOid)
  deriving DecidableEq

/-- `ResolvedLfsRoute`. -/
structure ResolvedLfsRoute where
  repository : ServerConfig.RepositoryMapping
  endpoint : LfsRouteEndpoint
  deriving DecidableEq

/-- `ServerError`, as far as a route is not resolved. -/
inductive RouteError
  | invalidRequest (message : String)
  | routeNotConfigured (path : List Char)
  deriving DecidableEq

/-- `ConfiguredLfsRoute`. -/
structure ConfiguredLfsRoute where
  repositoryIdentityPath : List Char
  routePath : List Char
  routePathWithSlash : List Char
  caseInsensitiveIdentity : Bool
  repository : ServerConfig.RepositoryMapping

namespace ConfiguredLfsRoute

/-- `path_matches`. -/
def pathMatches (route : ConfiguredLfsRoute) (candidate configured : List Char) : Bool :=
  if !route.caseInsensitiveIdentity then candidate = configured
  else
    let identityLength := Text.byteLength route.repositoryIdentityPath
    match Text.splitAtByte identityLength candidate, Text.splitAtByte identityLength configured with
    | some (candidateIdentity, candidateSuffix), some (_, configuredSuffix) =>
      Text.eqIgnoreAsciiCase candidateIdentity route.repositoryIdentityPath &&
        candidateSuffix = configuredSuffix
    | _, _ => false

/-- `strip_path_prefix`. -/
def stripPathPrefix (route : ConfiguredLfsRoute) (path : List Char) : Option (List Char) := do
  let (candidate, suffix) ← Text.splitAtByte (Text.byteLength route.routePathWithSlash) path
  if route.pathMatches candidate route.routePathWithSlash then some suffix else none

end ConfiguredLfsRoute

/-- `parse_lfs_route_endpoint`. -/
def parseLfsRouteEndpoint (debug : String → String) (suffix : List Char) :
    Except RouteError LfsRouteEndpoint :=
  if suffix = "objects/batch".toList then .ok .batch
  else match "objects/".toList.isPrefixOf? suffix with
    | some oid =>
      if '/' ∈ oid ∨ oid = [] then
        .error (.invalidRequest ("unsupported LFS object endpoint " ++
          debug (String.ofList suffix)))
      else match LfsOid.new (String.ofList oid) with
        | .ok oid => .ok (.object oid)
        | .error source =>
          .error (.invalidRequest ("invalid LFS object id in route: " ++ source.message))
    | none =>
      .error (.invalidRequest ("unsupported LFS endpoint " ++ debug (String.ofList suffix)))

/-- One turn of the loop of `resolve_path`: what a route makes of a path, if it matches. -/
def ConfiguredLfsRoute.resolve (debug : String → String) (route : ConfiguredLfsRoute)
    (path : List Char) : Option (Except RouteError ResolvedLfsRoute) :=
  if route.pathMatches path route.routePath || route.pathMatches path route.routePathWithSlash then
    some (.ok ⟨route.repository, .info⟩)
  else (route.stripPathPrefix path).map fun suffix =>
    (parseLfsRouteEndpoint debug suffix).map fun endpoint => ⟨route.repository, endpoint⟩

namespace ServerConfig.References

/-- `repository_mapping_is_case_insensitive`. -/
def repositoryMappingIsCaseInsensitive (config : References)
    (repository : ServerConfig.RepositoryMapping) : Bool :=
  (config.repositoryProviders.lookup repository.repoProvider).any
    RepositoryProviderConfig.routeIdentityIsCaseInsensitive

/-- `repository_mapping_for_identity`. -/
def repositoryMappingForIdentity (config : References) (host owner name : List Char) :
    Option ServerConfig.RepositoryMapping :=
  config.repositories.find? fun repository =>
    Text.eqIgnoreAsciiCase repository.host.toList host &&
      if config.repositoryMappingIsCaseInsensitive repository then
        Text.eqIgnoreAsciiCase repository.owner.toList owner &&
          Text.eqIgnoreAsciiCase repository.name.toList name
      else repository.owner.toList = owner && repository.name.toList = name

end ServerConfig.References

/-- The path of a repository. -/
def identityPath (host owner name : List Char) : List Char :=
  '/' :: host ++ '/' :: owner ++ '/' :: name

/-- The route of a repository, as `LfsRouteResolver::new` configures it. -/
def configuredRoute (config : References) (repository : ServerConfig.RepositoryMapping) :
    ConfiguredLfsRoute where
  repositoryIdentityPath :=
    identityPath repository.host.toList repository.owner.toList repository.name.toList
  routePath := repository.routePath.toList
  routePathWithSlash := repository.routePath.toList ++ ['/']
  caseInsensitiveIdentity := config.repositoryMappingIsCaseInsensitive repository
  repository := repository

/-- `LfsRouteResolver`. -/
structure LfsRouteResolver where
  routes : List ConfiguredLfsRoute

namespace LfsRouteResolver

/-- `LfsRouteResolver::new`: longer routes come first. -/
def new (config : References) : LfsRouteResolver :=
  ⟨(config.repositories.map (configuredRoute config)).mergeSort fun left right =>
    Text.byteLength right.routePath ≤ Text.byteLength left.routePath⟩

/-- `resolve_path`. -/
def resolvePath (debug : String → String) (resolver : LfsRouteResolver) (path : List Char) :
    Except RouteError ResolvedLfsRoute :=
  if path.head? ≠ some '/' then .error (.invalidRequest "route path must start with '/'")
  else match resolver.routes.findSome? (ConfiguredLfsRoute.resolve debug · path) with
    | some result => result
    | none => .error (.routeNotConfigured path)

end LfsRouteResolver

end LfsCloud
