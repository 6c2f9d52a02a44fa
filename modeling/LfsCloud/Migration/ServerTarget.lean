import LfsCloud.InitRoute
import LfsCloud.Lib.Recorded
import LfsCloud.Migration.Upload
import LfsCloud.Server.Batch

/-!
# Migration through the server

A migration asks the server for its objects, batch by batch, which of them it has and where the
others are uploaded to. It fetches what is missing, uploads it, and only then points the
repository to the server.
-/

namespace LfsCloud

open Interaction

/-- `CliError`, as a migration through the server returns it. -/
inductive MigrationCliError
  | invalidArguments (message : String)
  | io (context : String)
  | externalCommandOutput (command message : String)
  | migrationUploadFailed (failures : ℕ) (oid message : String)
  | sourceEndpointMissing
  | migration (error : MigrationUploadError)

/-- `MIGRATION_TARGET_BATCH_SIZE`. -/
def migrationTargetBatchSize : ℕ := 100

/-- `GitLfsConfigTarget`. -/
inductive GitLfsConfigTarget
  | worktreeFile
  | localRepository
  deriving DecidableEq

/-- `MigrationTargetPlan`. -/
structure MigrationTargetPlan where
  uploads : List (LfsObject × LfsBatchAction)
  alreadyPresentObjects : List LfsObject

/-- `MigrationSourceFetch`, as far as the upload reads it. -/
structure MigrationSourceFetch where
  unavailableObjects : List LfsObject
  after : List LocalMigrationObject

/-- `MigrationServerUpload`. -/
structure MigrationServerUpload where
  uploadedObjects : List LfsObject
  alreadyPresentObjects : List LfsObject

/-- `MigrationExecutionContext`, as far as the execution reads it. -/
structure MigrationExecutionContext where
  lfsUrl : String
  allowInsecureHttp : Bool
  sourceRemoteName : String
  /-- `discovery.source_endpoint`. -/
  sourceEndpoint : Option String
  /-- `scan.objects`. -/
  objects : List LfsObject

/-- `MigrationExecutionResult`, without what the report takes from the fetch. -/
structure MigrationExecutionResult where
  serverUpload : MigrationServerUpload
  legacySourceConfigured : Bool

/-- The calls of a migration: requests to the server, work in the repository, and output. -/
inductive TargetCall
  | httpClient (context : String)
  | postBatch (url : Url) (request : LfsBatchRequest)
  | checkLocalMigrationObjects (objects : List LfsObject)
  | fetchMissingMigrationObjects (objects : List LfsObject) (endpoint : Option String)
  | writeProgress (index total : ℕ) (object : LfsObject)
  | hashMigrationObjectFile (path : String)
  | openFile (path : String)
  | putObject (url : Url) (authorization : String) (object : LfsObject) (source : String)
  | readUploadResponse
  | writeWorktreeRemoteLfsUrl (remoteName url : String)
  | writeLfsUrl (target : GitLfsConfigTarget) (url : String)

/-- The answers to a call. A response is its status with its body, or its status alone. -/
def TargetAnswer : TargetCall → Type
  | .httpClient _ => Except MigrationCliError Unit
  | .postBatch _ _ => Except MigrationCliError (ℕ × String)
  | .checkLocalMigrationObjects _ => Except MigrationCliError (List LfsObject)
  | .fetchMissingMigrationObjects _ _ => Except MigrationCliError MigrationSourceFetch
  | .writeProgress _ _ _ => Except MigrationCliError Unit
  | .hashMigrationObjectFile _ => Except MigrationCliError (LfsOid × UInt64)
  | .openFile _ => Except MigrationCliError Unit
  | .putObject _ _ _ _ => Except MigrationCliError ℕ
  | .readUploadResponse => Except MigrationCliError String
  | .writeWorktreeRemoteLfsUrl _ _ => Except MigrationCliError Unit
  | .writeLfsUrl _ _ => Except MigrationCliError Unit

/-- The interface of a migration. -/
def targetInterface : Interface := ⟨TargetCall, TargetAnswer⟩

/-- A program of a migration. -/
abbrev TargetProg (α : Type) := ExceptT MigrationCliError (Prog targetInterface) α

/-- A computed result. -/
def targetResult {α : Type} (result : Except MigrationCliError α) : TargetProg α :=
  ExceptT.mk (.done result)

/-- What the libraries do: the JSON parser, the `url` crate, header names and values, base 64, and
how texts of others are shown in messages. -/
structure TargetLibraries where
  fromJson : String → Except String LfsBatchResponse
  parseUrl : List Char → Except String Url
  encode : List Char → List Char
  queryPairs : Url → List (String × String)
  /-- A header name in its normal form. -/
  headerName : String → Option String
  headerValue : String → Option String
  base64 : String → String
  sanitize : String → String
  redacted : String → String

section

variable (lib : TargetLibraries)

/-- An error of the upload batch. -/
def batchError (message : String) : MigrationCliError :=
  .externalCommandOutput "migration target upload batch" (lib.sanitize message)

/-- `sanitized_migration_http_body`. -/
def sanitizedMigrationHttpBody (body : String) : String :=
  let normalized := Text.trim (body.toList.map fun c => if c = '\r' ∨ c = '\n' then ' ' else c)
  if normalized = [] then "<no response body>" else String.ofList (normalized.take 1024)

/-- `is_success` of a status. -/
def isSuccessStatus (status : ℕ) : Bool := 200 ≤ status && status < 300

/-! ## The plan -/

/-- `append_url_path_segments`. -/
def appendUrlPathSegments (url : Url) (routePath : List Char) : Except MigrationCliError Url :=
  match url.pathSegments with
  | none => .error (.invalidArguments "URL cannot be used as a route base")
  | some segments => .ok (url.withSegments
      (((routePath.splitOn '/').filter (· ≠ [])).foldl (Url.pushSegment lib.encode) segments))

/-- The batch URL of a target. -/
def migrationBatchUrl (lfsUrl : String) (allowInsecureHttp : Bool) :
    Except MigrationCliError Url := do
  let batchUrl ← (validateServerUrl lib.parseUrl lfsUrl.toList allowInsecureHttp).mapError
    .invalidArguments
  appendUrlPathSegments lib batchUrl "objects/batch".toList

/-- `chunks`. -/
def chunks {α : Type} (size : ℕ) : ℕ → List α → List (List α)
  | 0, _ => []
  | _, [] => []
  | fuel + 1, x :: rest => (x :: rest).take size :: chunks size fuel ((x :: rest).drop size)

/-- The batches that are still to be asked for, and the plan so far. -/
structure TargetPlanState where
  pendingBatches : List (List LfsObject)
  plan : MigrationTargetPlan

/-- The loop over the results of a batch, and the check that none is left out. -/
def readBatchResults : Finset LfsObject → MigrationTargetPlan → List LfsBatchObjectResponse →
    Except MigrationCliError MigrationTargetPlan
  | expected, plan, [] =>
    if expected = ∅ then .ok plan
    else .error (batchError lib "server omitted one or more requested migration objects")
  | expected, plan, result :: rest =>
    let object : LfsObject := ⟨result.oid, result.size⟩
    if object ∉ expected then
      .error (batchError lib "server returned an unexpected or duplicate migration object")
    else match result.error with
    | some error => .error (.migrationUploadFailed 1 object.oid.hex (lib.sanitize
        ("server rejected the object with code " ++ toString error.code ++ ": " ++
          error.message)))
    | none => match result.actions.lookup "upload" with
      | some action => readBatchResults (expected.erase object)
          { plan with uploads := plan.uploads ++ [(object, action)] } rest
      | none =>
        if result.actions.entries.isEmpty then readBatchResults (expected.erase object)
          { plan with alreadyPresentObjects := plan.alreadyPresentObjects ++ [object] } rest
        else .error (batchError lib
          "server returned migration actions without an upload action")

/-- What is done with the answer to a batch: one that is too large is split, and its parts are
asked for next. -/
def acceptBatch (chunk : List LfsObject) (pending : List (List LfsObject))
    (plan : MigrationTargetPlan) (status : ℕ) (body : String) :
    Except MigrationCliError TargetPlanState :=
  if status = 413 ∧ 1 < chunk.length then
    let split := chunk.length / 2
    .ok ⟨chunk.take split :: chunk.drop split :: pending, plan⟩
  else if isSuccessStatus status = false then
    .error (batchError lib ("server returned HTTP status " ++ toString status ++ ": " ++
      sanitizedMigrationHttpBody body))
  else match lib.fromJson body with
  | .error source =>
    .error (batchError lib ("server returned invalid Git LFS batch JSON: " ++ source))
  | .ok response =>
    if response.transfer ≠ lfsBasicTransfer then
      .error (batchError lib "server selected an unsupported Git LFS transfer adapter")
    else (readBatchResults lib chunk.toFinset plan response.objects).map fun plan =>
      ⟨pending, plan⟩

/-- One turn of the loop over the batches. -/
def planTurn (batchUrl : Url) :
    TargetPlanState → TargetProg (TargetPlanState ⊕ MigrationTargetPlan)
  | ⟨[], plan⟩ => pure (.inr plan)
  | ⟨chunk :: pending, plan⟩ => do
    let (status, body) ← (ExceptT.mk (request (F := targetInterface)
      (.postBatch batchUrl ⟨.upload, [lfsBasicTransfer], chunk⟩)) : TargetProg (ℕ × String))
    let state ← targetResult (acceptBatch lib chunk pending plan status body)
    return .inl state

/-- The loop of `request_migration_target_plan`, for as many turns as there is fuel. -/
def requestMigrationTargetPlan (fuel : ℕ) (batchUrl : Url) (objects : List LfsObject) :
    Prog targetInterface (Option (Except MigrationCliError MigrationTargetPlan)) :=
  iterateE (planTurn lib batchUrl) fuel
    ⟨chunks migrationTargetBatchSize objects.length objects, ⟨[], []⟩⟩

/-! ## The uploads -/

/-- The text before a suffix. -/
def stripTextSuffix (suffix text : List Char) : Option (List Char) :=
  if suffix <:+ text then some (text.take (text.length - suffix.length)) else none

/-- `migration_upload_action_path_matches`. -/
def migrationUploadActionPathMatches (targetPath actionPath : List Char) (oid : String) : Bool :=
  if actionPath = targetPath ++ "/objects/".toList ++ oid.toList then true
  else match stripTextSuffix ".git/info/lfs".toList targetPath with
  | none => false
  | some targetIdentity =>
    match stripTextSuffix (".git/info/lfs/objects/".toList ++ oid.toList) actionPath with
    | none => false
    | some actionIdentity =>
      actionIdentity.map Char.toLower = targetIdentity.map Char.toLower

/-- The reasons that hold. -/
def reasonsOf (reasons : List (Bool × String)) : String :=
  ", ".intercalate ((reasons.filter (·.1)).map (·.2))

/-- `validated_migration_upload_action_url`. -/
def validatedMigrationUploadActionUrl (targetUrl : Url) (actionUrl : String)
    (allowInsecureHttp : Bool) (object : LfsObject) : Except MigrationCliError Url :=
  match lib.parseUrl actionUrl.toList with
  | .error source => .error (batchError lib ("server returned invalid upload action URL " ++
      lib.redacted actionUrl ++ ": " ++ source))
  | .ok parsed =>
    let sameOrigin := parsed.scheme = targetUrl.scheme ∧ parsed.host = targetUrl.host ∧
      parsed.port = targetUrl.port
    let targetPath := Lines.trimEnd '/' targetUrl.pathText
    let pathMatches :=
      migrationUploadActionPathMatches targetPath parsed.pathText object.oid.hex
    let queryMatches := lib.queryPairs parsed = [("size", toString object.size)]
    let hasUserinfo := parsed.username ≠ [] ∨ parsed.password ≠ none
    let hasFragment := parsed.fragment ≠ none
    let unsafeTransport :=
      allowInsecureHttp = false ∧ usesProtectedHttpTransport parsed = false
    if ¬sameOrigin ∨ pathMatches = false ∨ ¬queryMatches ∨ hasUserinfo ∨ hasFragment ∨
        unsafeTransport then
      let expected : Url := { targetUrl with
        path := .text (targetPath ++ "/objects/".toList ++ object.oid.hex.toList)
        query := some ("size=" ++ toString object.size).toList }
      .error (batchError lib ("server returned an unsafe or out-of-scope upload action URL: " ++
        reasonsOf [(¬sameOrigin, "origin does not match"),
          (pathMatches = false, "path does not match"),
          (¬queryMatches, "size query does not match"),
          (hasUserinfo, "userinfo is not allowed"), (hasFragment, "fragment is not allowed"),
          (unsafeTransport, "transport is not protected")] ++
        "; expected " ++ lib.redacted (String.ofList expected.text) ++ ", received " ++
        lib.redacted (String.ofList parsed.text)))
    else .ok parsed

/-- The loop of `migration_action_headers`, with the authorization found before. -/
def authorizationFrom (token : String) :
    Option String → List (String × String) → Except MigrationCliError (Option String)
  | found, [] => .ok found
  | _, (name, value) :: rest =>
    match lib.headerName name with
    | none => .error (batchError lib "server returned an invalid upload action header")
    | some name =>
      if name ≠ "authorization" then
        .error (batchError lib "server returned an unsupported upload action header")
      else match lib.headerValue value with
      | none => .error (batchError lib "server returned an invalid upload action header")
      | some value =>
        if value ≠ "Basic " ++ lib.base64 (defaultGitCredentialUsername ++ ":" ++ token) then
          .error (batchError lib
            "server returned upload authorization that does not match the active session")
        else authorizationFrom token (some value) rest

/-- `migration_action_headers`: the value of the one header that is allowed. -/
def migrationActionHeaders (action : LfsBatchAction) (token : String) :
    Except MigrationCliError String :=
  match authorizationFrom lib token none action.header.entries with
  | .error error => .error error
  | .ok none => .error (batchError lib "server omitted upload action authorization")
  | .ok (some authorization) => .ok authorization

/-- The object of the list that is to be uploaded. -/
def findMigrationObject (objects : List LocalMigrationObject) (object : LfsObject) :
    Except MigrationCliError LocalMigrationObject :=
  match objects.find? fun localObject => localObject.object = object with
  | some localObject => .ok localObject
  | none => .error (.migration (.sourceObjectMissing object.oid.hex object.size))

/-- What a response to an upload is taken for. -/
def acceptUpload (object : LfsObject) (status : ℕ) : TargetProg Unit :=
  if isSuccessStatus status then pure ()
  else do
    let body ← (ExceptT.mk (request (F := targetInterface) .readUploadResponse) :
      TargetProg String)
    targetResult (.error (.migrationUploadFailed 1 object.oid.hex (lib.sanitize
      ("server returned HTTP status " ++ toString status ++ ": " ++
        sanitizedMigrationHttpBody body))))

section

variable (targetUrl : Url) (allowInsecureHttp : Bool) (token : String)
  (available : List LocalMigrationObject)

/-- The body of the loop over the uploads. -/
def uploadThroughServer (index total : ℕ) (object : LfsObject) (action : LfsBatchAction) :
    TargetProg Unit := do
  (ExceptT.mk (request (F := targetInterface) (.writeProgress index total object)) :
    TargetProg Unit)
  let localObject ← targetResult (findMigrationObject available object)
  let source ← targetResult ((verifiedMigrationUploadSourcePath localObject).mapError .migration)
  let actual ← (ExceptT.mk (request (F := targetInterface) (.hashMigrationObjectFile source)) :
    TargetProg (LfsOid × UInt64))
  targetResult ((checkMigrationUploadSource source object actual).mapError .migration)
  let uploadUrl ← targetResult
    (validatedMigrationUploadActionUrl lib targetUrl action.href allowInsecureHttp object)
  let authorization ← targetResult (migrationActionHeaders lib action token)
  (ExceptT.mk (request (F := targetInterface) (.openFile source)) : TargetProg Unit)
  let status ← (ExceptT.mk (request (F := targetInterface)
    (.putObject uploadUrl authorization object source)) : TargetProg ℕ)
  acceptUpload lib object status

/-- The loop over the uploads. -/
def uploadAllThroughServer (total : ℕ) :
    ℕ → List (LfsObject × LfsBatchAction) → TargetProg (List LfsObject)
  | _, [] => pure []
  | index, (object, action) :: rest => do
    uploadThroughServer lib targetUrl allowInsecureHttp token available index total object action
    let uploaded ← uploadAllThroughServer total (index + 1) rest
    return object :: uploaded

end

/-- `upload_migration_objects_through_server`. -/
def uploadMigrationObjectsThroughServer (lfsUrl : String) (allowInsecureHttp : Bool)
    (token : String) (available : List LocalMigrationObject) (plan : MigrationTargetPlan) :
    TargetProg MigrationServerUpload := do
  let targetUrl ← targetResult ((lib.parseUrl lfsUrl.toList).mapError fun _ =>
    .invalidArguments "migration target LFS URL is invalid")
  (ExceptT.mk (request (F := targetInterface)
    (.httpClient "failed to create migration upload client")) : TargetProg Unit)
  let uploaded ← uploadAllThroughServer lib targetUrl allowInsecureHttp token available
    plan.uploads.length 1 plan.uploads
  return ⟨uploaded, plan.alreadyPresentObjects⟩

/-! ## The execution -/

/-- An error about the endpoint of the source. -/
def legacyEndpointError (message : String) : MigrationCliError :=
  .migration (.migration (.invalidInput (lib.sanitize message)))

/-- `validated_migration_source_endpoint`. -/
def validatedMigrationSourceEndpoint (endpoint : String) (allowInsecureHttp : Bool) :
    Except MigrationCliError String :=
  if endpoint.toList = [] ∨ endpoint.toList.any fun c =>
      Text.isWhitespace c || Text.isControl c || c = Char.ofNat 92 then
    .error (legacyEndpointError lib "legacy LFS endpoint contains unsafe characters")
  else match lib.parseUrl endpoint.toList with
  | .error _ =>
    .error (legacyEndpointError lib "legacy LFS endpoint must be an absolute HTTP(S) URL")
  | .ok parsed =>
    if ¬(parsed.scheme = "http".toList ∨ parsed.scheme = "https".toList) ∨ parsed.host = none then
      .error (legacyEndpointError lib "legacy LFS endpoint must be an absolute HTTP(S) URL")
    else if parsed.username ≠ [] ∨ parsed.password ≠ none then
      .error (legacyEndpointError lib "legacy LFS endpoint must not contain credentials")
    else if parsed.query ≠ none ∨ parsed.fragment ≠ none then
      .error (legacyEndpointError lib
        "legacy LFS endpoint must not contain a query string or fragment")
    else if allowInsecureHttp = false ∧ usesProtectedHttpTransport parsed = false then
      .error (legacyEndpointError lib ("legacy LFS endpoint " ++ lib.redacted endpoint ++
        " must use HTTPS unless it targets an exact loopback IP"))
    else .ok (String.ofList (Lines.trimEnd '/' parsed.text))

/-- The part of `execute_migration_through_server` that keeps the endpoint of the source, where it
is not the target itself. -/
def configureLegacySource (context : MigrationExecutionContext) : TargetProg Bool :=
  match context.sourceEndpoint.filter (· ≠ context.lfsUrl) with
  | none => pure false
  | some source => do
    let sourceUrl ← targetResult
      (validatedMigrationSourceEndpoint lib source context.allowInsecureHttp)
    (ExceptT.mk (request (F := targetInterface)
      (.writeWorktreeRemoteLfsUrl context.sourceRemoteName sourceUrl)) : TargetProg Unit)
    return true

/-- The end of `execute_migration_through_server`: the repository is pointed to the server. -/
def configureTarget (context : MigrationExecutionContext) (serverUpload : MigrationServerUpload) :
    TargetProg MigrationExecutionResult := do
  let legacy ← configureLegacySource lib context
  (ExceptT.mk (request (F := targetInterface)
    (.writeLfsUrl .worktreeFile context.lfsUrl)) : TargetProg Unit)
  (ExceptT.mk (request (F := targetInterface)
    (.writeLfsUrl .localRepository context.lfsUrl)) : TargetProg Unit)
  return ⟨serverUpload, legacy⟩

/-- The part of `execute_migration_through_server` behind the plan. -/
def executePlan (context : MigrationExecutionContext) (token : String)
    (plan : MigrationTargetPlan) : TargetProg MigrationExecutionResult := do
  let neededObjects := plan.uploads.map Prod.fst
  let unavailable ← (ExceptT.mk (request (F := targetInterface)
    (.checkLocalMigrationObjects neededObjects)) : TargetProg (List LfsObject))
  if unavailable ≠ [] ∧ context.sourceEndpoint = none then
    targetResult (.error .sourceEndpointMissing)
  else do
    let sourceFetch ← (ExceptT.mk (request (F := targetInterface)
      (.fetchMissingMigrationObjects neededObjects context.sourceEndpoint)) :
        TargetProg MigrationSourceFetch)
    match sourceFetch.unavailableObjects with
    | object :: _ =>
      targetResult (.error (.migration (.sourceObjectMissing object.oid.hex object.size)))
    | [] => do
      let serverUpload ← uploadMigrationObjectsThroughServer lib context.lfsUrl
        context.allowInsecureHttp token sourceFetch.after plan
      configureTarget lib context serverUpload

/-- What comes before the loop of `request_migration_target_plan`. -/
def prepareTargetPlan (context : MigrationExecutionContext) : TargetProg Url := do
  if context.objects = [] then
    targetResult (.error (.invalidArguments
      "migration found no non-empty Git LFS objects across the selected history"))
  else do
    let batchUrl ← targetResult
      (migrationBatchUrl lib context.lfsUrl context.allowInsecureHttp)
    (ExceptT.mk (request (F := targetInterface)
      (.httpClient "failed to create migration batch client")) : TargetProg Unit)
    return batchUrl

/-- `execute_migration_through_server`, for as many turns of the loop over the batches as there is
fuel; it has no result where this does not suffice. -/
def executeMigrationThroughServer (fuel : ℕ) (context : MigrationExecutionContext)
    (token : String) :
    Prog targetInterface (Option (Except MigrationCliError MigrationExecutionResult)) :=
  (prepareTargetPlan lib context).run.bind fun
    | .error error => .done (some (.error error))
    | .ok batchUrl => (requestMigrationTargetPlan lib fuel batchUrl context.objects).bind fun
      | none => .done none
      | some (.error error) => .done (some (.error error))
      | some (.ok plan) => (executePlan lib context token plan).run.bind fun result =>
        .done (some result)

end

end LfsCloud
