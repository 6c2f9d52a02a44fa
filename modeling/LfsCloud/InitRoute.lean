import LfsCloud.Lib.HttpUrl
import LfsCloud.Migration.SourceEndpoint

/-!
# The route of a repository at a server

The endpoint of a repository is the base URL of a server with the host, the owner and the name of
the repository behind it. It is derived from a base and a remote, and the base is recovered from it.
-/

namespace LfsCloud

/-! ## Base URLs -/

/-- `HttpUrlValidationError`. -/
inductive HttpUrlValidationError
  | blank
  | unsafeCharacters
  | trailingSlash
  | dotSegments
  | invalid
  | credentials
  | queryOrFragment
  | insecureTransport
  deriving DecidableEq

/-- The text of an error. -/
def HttpUrlValidationError.message : HttpUrlValidationError → String
  | .blank => "must not be blank"
  | .unsafeCharacters => "must not include whitespace, control characters, or backslashes"
  | .trailingSlash => "must not end with a trailing slash"
  | .dotSegments => "path must not include dot segments"
  | .invalid => "must be a valid http or https URL"
  | .credentials => "must not include credentials"
  | .queryOrFragment => "must not include a query string or fragment"
  | .insecureTransport => "must use HTTPS unless it targets an exact loopback IP"

/-- `is_dot_segment`. -/
def isDotSegment (segment : List Char) : Bool :=
  let lower := segment.map Char.toLower
  lower = ".".toList || lower = "..".toList || lower = "%2e".toList || lower = ".%2e".toList ||
    lower = "%2e.".toList || lower = "%2e%2e".toList

/-- What is behind the first `://`. -/
def afterScheme : List Char → Option (List Char)
  | [] => none
  | c :: rest =>
    if "://".toList.isPrefixOf (c :: rest) then some (rest.drop 2) else afterScheme rest

/-- `raw_path_has_dot_segments`. -/
def rawPathHasDotSegments (value : List Char) : Bool :=
  match afterScheme value with
  | none => false
  | some after =>
    match Text.splitOnce '/' after with
    | none => false
    | some (_, path) =>
      ((path.takeWhile fun c => c ≠ '?' ∧ c ≠ '#').splitOn '/').any isDotSegment

/-- `uses_protected_http_transport`. -/
def usesProtectedHttpTransport (url : Url) : Bool :=
  url.scheme = "https".toList ∨ url.scheme = "http".toList ∧ url.host.any UrlHost.loopback

section Routes

variable (parseUrl : List Char → Except String Url) (encode : List Char → List Char)

/-- `validate_http_url`. -/
def validateHttpUrl (value : List Char) (allowInsecureHttp : Bool) :
    Except HttpUrlValidationError Url :=
  if value = [] then .error .blank
  else if value.any fun c => Text.isWhitespace c || Text.isControl c || c = Char.ofNat 92 then
    .error .unsafeCharacters
  else if value.getLast? = some '/' then .error .trailingSlash
  else if rawPathHasDotSegments value then .error .dotSegments
  else
    match parseUrl value with
    | .error _ => .error .invalid
    | .ok parsed =>
      if ¬(parsed.scheme = "http".toList ∨ parsed.scheme = "https".toList) ∨ parsed.host = none then
        .error .invalid
      else if parsed.username ≠ [] ∨ parsed.password ≠ none then .error .credentials
      else if parsed.query ≠ none ∨ parsed.fragment ≠ none then .error .queryOrFragment
      else if allowInsecureHttp = false ∧ usesProtectedHttpTransport parsed = false then
        .error .insecureTransport
      else .ok parsed

/-- `validate_server_url`. -/
def validateServerUrl (value : List Char) (allowInsecureHttp : Bool) : Except String Url :=
  (validateHttpUrl parseUrl value allowInsecureHttp).mapError fun error =>
    "server URL " ++ error.message ++
      if error = .insecureTransport then
        "; pass --allow-insecure-http only on a trusted development network"
      else ""

/-! ## Remotes -/

/-- `GitRemote`. -/
structure GitRemote where
  remoteName : List Char
  url : List Char
  host : List Char
  owner : List Char
  name : List Char
  deriving DecidableEq

/-- `repository_label`. -/
def GitRemote.repositoryLabel (remote : GitRemote) : List Char :=
  remote.host ++ '/' :: remote.owner ++ '/' :: remote.name

/-- `validate_remote_component`. -/
def validateRemoteComponent (label : String) (value : List Char) : Except String (List Char) :=
  if Text.trim value = [] ∨ Text.byteLength (Text.trim value) ≠ Text.byteLength value then
    .error (label ++ " must not be blank or padded")
  else if value.any Text.isControl ∨ value.any Text.isWhitespace then
    .error (label ++ " must not contain whitespace or control characters")
  else .ok value

/-- `validate_remote_name`. -/
def validateRemoteName (value : List Char) : Except String (List Char) :=
  validateRemoteComponent "Git remote name" value

/-- A character of a label of a host. -/
def isLabelChar (c : Char) : Bool := c.isAlphanum || c = '-'

/-- `validate_remote_host`. -/
def validateRemoteHost (value : List Char) : Except String (List Char) := do
  let host ← validateRemoteComponent "Git remote host" value
  if (host.splitOn '.').any fun label =>
      label = [] ∨ label.head? = some '-' ∨ label.getLast? = some '-' ∨ ¬label.all isLabelChar then
    .error "Git remote host must be a route-safe host made of ASCII labels"
  else .ok host

/-- `validate_route_component`. -/
def validateRouteComponent (label : String) (value : List Char) (allowLeadingDot : Bool) :
    Except String (List Char) := do
  let component ← validateRemoteComponent label value
  if component = ".".toList ∨ component = "..".toList ∨
      (allowLeadingDot = false ∧ component.head? = some '.') ∨ component.getLast? = some '.' ∨
      "..".toList <:+: component ∨ ¬component.all Url.isPlainChar then
    .error (label ++ " must be a route-safe repository component without separators, percent " ++
      "escapes, or traversal segments")
  else .ok component

/-- `validate_scp_like_user`. -/
def validateScpLikeUser (value : List Char) : Except String Unit :=
  if value ≠ "git".toList then .error "Git scp-like remote user must be git when present"
  else .ok ()

/-- `parse_url_remote`. -/
def parseUrlRemote (value : List Char) : Except String (List Char × List Char) :=
  match parseUrl value with
  | .error source => .error ("Git remote URL is not valid: " ++ source)
  | .ok url =>
    if ¬(url.scheme = "https".toList ∨ url.scheme = "ssh".toList) then
      .error "Git remote URL must use HTTPS or SSH"
    else if url.username ≠ [] ∧ url.scheme ≠ "ssh".toList then
      .error "Git remote URL must not include credentials"
    else if url.password ≠ none then .error "Git remote URL must not include credentials"
    else if url.query ≠ none ∨ url.fragment ≠ none then
      .error "Git remote URL must not include a query string or fragment"
    else
      match url.host.filter fun host => Text.trim host.text ≠ [] with
      | none => .error "Git remote URL must include a host"
      | some host => .ok (host.text.map Char.toLower, url.pathText.dropWhile (· = '/'))

/-- `parse_scp_like_remote`. -/
def parseScpLikeRemote (value : List Char) : Except String (List Char × List Char) :=
  match Text.splitOnce ':' value with
  | none => .error "Git remote URL must be HTTPS, SSH, or scp-like"
  | some (hostPart, path) =>
    if '/' ∈ hostPart ∨ path.head? = some '/' then
      .error "Git remote URL must be a repository remote, not a local path"
    else if '?' ∈ path ∨ '#' ∈ path then
      .error "Git remote URL must not include a query string or fragment"
    else do
      let host ← match rsplitAt hostPart with
        | some (user, host) => (validateScpLikeUser user).map fun _ => host
        | none => pure hostPart
      if Text.trim host = [] then .error "Git remote URL must include a host"
      else .ok ((Text.trim host).map Char.toLower, path)

/-- `strip_suffix(".git")`, or the whole name. -/
def stripGitSuffix (name : List Char) : List Char :=
  if ".git".toList <:+ name then name.take (name.length - 4) else name

/-- `parse_repository_path`. -/
def parseRepositoryPath (path : List Char) : Except String (List Char × List Char) :=
  match (trimMatchesSlash path).splitOn '/' with
  | [owner, repo] =>
    if owner = [] ∨ repo = [] then .error "Git remote URL path must have owner/repo form"
    else do
      let owner ← validateRouteComponent "Git remote owner" owner false
      let name ← validateRouteComponent "Git remote repository name" (stripGitSuffix repo) true
      if ".git".toList <:+ name then
        .error "Git remote repository name must not contain a nested .git suffix"
      else .ok (owner, name)
  | _ => .error "Git remote URL path must have owner/repo form"

/-- `GitRemote::parse`. -/
def GitRemote.parse (remoteName url : List Char) : Except String GitRemote := do
  let remoteName ← validateRemoteName remoteName
  let trimmed := Text.trim url
  if trimmed = [] ∨ Text.byteLength trimmed ≠ Text.byteLength url then
    .error "Git remote URL must not be blank or padded"
  else
    let (host, path) ←
      if "://".toList <:+: trimmed then parseUrlRemote parseUrl trimmed
      else parseScpLikeRemote trimmed
    let host ← validateRemoteHost host
    let (owner, name) ← parseRepositoryPath path
    .ok ⟨remoteName, url, host, owner, name⟩

/-! ## Routes -/

/-- `LfsInitRoute`. -/
structure LfsInitRoute where
  serverUrl : List Char
  remote : GitRemote
  lfsUrl : List Char
  deriving DecidableEq

/-- `normalized_server_url`. -/
def normalizedServerUrl (url : Url) : List Char := Lines.trimEnd '/' url.text

/-- The segments of the route of a remote. -/
def lfsRouteSegments (remote : GitRemote) : List (List Char) :=
  [remote.host, remote.owner, remote.name ++ ".git".toList, "info".toList, "lfs".toList]

/-- `append_lfs_route_segments`. -/
def appendLfsRouteSegments (url : Url) (remote : GitRemote) : Except String Url :=
  match url.pathSegments with
  | none => .error "server URL cannot be used as a route base"
  | some segments =>
    .ok (url.withSegments ((lfsRouteSegments remote).foldl (Url.pushSegment encode) segments))

/-- `LfsInitRoute::resolve_with_insecure_http`. -/
def LfsInitRoute.resolve (serverUrl : List Char) (remote : GitRemote) (allowInsecureHttp : Bool) :
    Except String LfsInitRoute := do
  let base ← validateServerUrl parseUrl serverUrl allowInsecureHttp
  let lfsUrl ← appendLfsRouteSegments encode base remote
  pure ⟨normalizedServerUrl base, remote, lfsUrl.text⟩

/-- The URL without the segments of a route. -/
def withoutRouteSegments (url : Url) : Except String Url :=
  match url.pathSegments with
  | none => .error "configured lfs.url cannot be used as an LFS Cloud route"
  | some segments => .ok (url.withSegments (Url.popSegment^[5] (Url.popIfEmpty segments)))

/-- `LfsInitRoute::resolve_from_lfs_url_with_insecure_http`. -/
def LfsInitRoute.resolveFromLfsUrl (lfsUrl : List Char) (remote : GitRemote)
    (allowInsecureHttp : Bool) : Except String LfsInitRoute := do
  let configured ← validateServerUrl parseUrl lfsUrl allowInsecureHttp
  let serverBase ← withoutRouteSegments configured
  let route ← LfsInitRoute.resolve parseUrl encode (normalizedServerUrl serverBase) remote
    allowInsecureHttp
  let resolved ← validateServerUrl parseUrl route.lfsUrl allowInsecureHttp
  if resolved ≠ configured then
    .error ("configured lfs.url does not match the current repository " ++
      String.ofList remote.repositoryLabel ++
        "; pass --server URL to select its LFS Cloud server explicitly")
  else pure route

end Routes

end LfsCloud
