import LfsCloud.Lib.Transaction
import LfsCloud.Lib.Transition
import LfsCloud.Metadata.Transfers
import LfsCloud.ServerConfig.References

/-!
# Synchronization of the configuration

The metadata database holds a row for every storage provider and repository mapping that was
ever configured; the rows of objects and transfer attempts refer to them. At startup the
server brings these rows up to its configuration, in one transaction.
-/

namespace LfsCloud

open ServerConfig (References StorageProviderConfig)

/-- A row of `storage_providers`, without its key. -/
structure StorageProviderRow where
  providerType : String
  backendRootId : String
  displayName : Option String
  createdAtUnixSeconds : ℤ
  updatedAtUnixSeconds : ℤ
  deriving DecidableEq

/-- A row of `repository_mappings`, without its key. -/
structure RepositoryMappingRow where
  repoProviderId : String
  host : String
  owner : String
  name : String
  storageProviderId : String
  routePath : String
  providerStableId : Option String
  isActive : Bool
  createdAtUnixSeconds : ℤ
  updatedAtUnixSeconds : ℤ
  deriving DecidableEq

/-- The tables that a synchronization reads or writes, and those that refer to them. -/
structure MetadataDatabase where
  storageProviders : Table String StorageProviderRow
  repositoryMappings : Table String RepositoryMappingRow
  objects : MetadataObjects
  transferAttempts : TransferAttempts

/-- The order in which a scan of the mappings lists their identifiers and routes. -/
structure MappingScan where
  rows : Table String RepositoryMappingRow → List (String × String)
  /-- A scan lists every row once. -/
  perm : ∀ table, (rows table).Perm (table.entries.map fun e => (e.1, e.2.routePath))

/-- What a statement of the database depends on: `unixepoch()`, and the order of a scan. -/
structure Moment where
  now : ℤ
  scan : MappingScan

namespace MetadataDatabase

/-- A new database, after the schema migrations. -/
def new : MetadataDatabase := ⟨∅, ∅, ⟨∅, 1⟩, ⟨∅, 1⟩⟩

/-- The parents of an object or transfer row are there. -/
def HasParents (db : MetadataDatabase) (key : MetadataObjectKey) : Prop :=
  (db.repositoryMappings.lookup key.repoId).isSome ∧
    (db.storageProviders.lookup key.storageProviderId).isSome

instance (db : MetadataDatabase) (key : MetadataObjectKey) : Decidable (db.HasParents key) :=
  inferInstanceAs (Decidable (_ ∧ _))

/-- `upsert_storage_provider`. -/
def upsertStorageProvider (db : MetadataDatabase) (storage : StorageProviderConfig) (now : ℤ) :
    MetadataDatabase :=
  let createdAt := match db.storageProviders.lookup storage.id with
    | some row => row.createdAtUnixSeconds
    | none => now
  let row := ⟨storage.providerType, storage.backendRootId, storage.displayName, createdAt, now⟩
  { db with storageProviders := db.storageProviders.insert storage.id row }

/-- Another mapping has the route: `route_path` is unique. -/
def routeTaken (db : MetadataDatabase) (id route : String) : Bool :=
  db.repositoryMappings.entries.any fun e => e.1 != id && e.2.routePath == route

/-- Write a row of `repository_mappings`. -/
def writeMapping (db : MetadataDatabase) (id : String) (row : RepositoryMappingRow) :
    Except ServerError MetadataDatabase :=
  if db.routeTaken id row.routePath then .error .metadataOperation
  else .ok { db with repositoryMappings := db.repositoryMappings.insert id row }

/-- `upsert_repository_mapping`: the storage provider of a row has to exist. -/
def upsertRepositoryMapping (db : MetadataDatabase) (repository : ServerConfig.RepositoryMapping)
    (now : ℤ) : Except ServerError MetadataDatabase :=
  if (db.storageProviders.lookup repository.storageProvider).isNone then
    .error .metadataOperation
  else
    let old := db.repositoryMappings.lookup repository.id
    db.writeMapping repository.id
      { repoProviderId := repository.repoProvider
        host := repository.host
        owner := repository.owner
        name := repository.name
        storageProviderId := repository.storageProvider
        routePath := repository.routePath
        providerStableId := old.bind RepositoryMappingRow.providerStableId
        isActive := true
        createdAtUnixSeconds := (old.map RepositoryMappingRow.createdAtUnixSeconds).getD now
        updatedAtUnixSeconds := now }

/-- The route that an inactive mapping has. -/
def inactiveRoute (id : String) : String := "inactive:" ++ id

/-- The update of `release_inactive_repository_routes`. -/
def releaseRoute (db : MetadataDatabase) (id : String) (now : ℤ) :
    Except ServerError MetadataDatabase :=
  match db.repositoryMappings.lookup id with
  | none => .ok db
  | some row =>
    if row.routePath ≠ inactiveRoute id ∨ row.isActive = true then
      db.writeMapping id { row with
        routePath := inactiveRoute id
        isActive := false
        updatedAtUnixSeconds := now }
    else .ok db

/-- The routes of the configuration by identifier. -/
def configuredRoutes (config : References) : Table String String :=
  config.repositories.foldl (fun routes repository =>
    routes.insert repository.id repository.routePath) ∅

/-- Statements of a transaction over the metadata database. -/
abbrev Statements := Transaction Moment ServerError MetadataDatabase

/-- `release_inactive_repository_routes`. -/
def releaseInactiveRepositoryRoutes (config : References) : Statements Unit := do
  let configuredRoutes := configuredRoutes config
  let persistedMappings ← Transaction.query fun moment db =>
    moment.scan.rows db.repositoryMappings
  persistedMappings.forM fun (id, persistedRoute) =>
    let retainsRoute := configuredRoutes.lookup id == some persistedRoute
    if retainsRoute then pure ()
    else Transaction.execute fun moment db => db.releaseRoute id moment.now

/-- The statements of `sync_config`. -/
def syncStatements (config : References) : Statements Unit := do
  releaseInactiveRepositoryRoutes config
  config.storageProviders.entries.forM fun entry =>
    Transaction.execute fun moment db => .ok (db.upsertStorageProvider entry.2 moment.now)
  config.repositories.forM fun repository =>
    Transaction.execute fun moment db => db.upsertRepositoryMapping repository moment.now

/-- `sync_config`. -/
def syncConfig (db : MetadataDatabase) (config : References)
    (turns : ℕ → Except ServerError Moment) : Except ServerError Unit × MetadataDatabase :=
  (syncStatements config).transact turns db

end MetadataDatabase

/-- What changes the rows of the metadata database: a synchronization with a configuration,
and the writes of object and transfer rows. -/
inductive MetadataWrite
  | syncConfig (config : References) (turns : ℕ → Except ServerError Moment)
  | recordVerifiedObject (key : MetadataObjectKey) (backendId : String)
    (creatorIfMissing : RepositoryUser) (now : ℤ)
  | markObjectStale (key : MetadataObjectKey) (expectedBackendId : String)
  | startTransferAttempt (key : MetadataObjectKey)
  | finishTransferAttempt (attemptId : ℕ) (result : MetadataTransferResult)

namespace MetadataDatabase

/-- The database after a write of object rows, which leaves it alone when it fails. -/
def withObjects (db : MetadataDatabase) (result : Except ServerError MetadataObjects) :
    MetadataDatabase :=
  match result with
  | .ok objects => { db with objects := objects }
  | .error _ => db

/-- The same for transfer rows. -/
def withTransferAttempts (db : MetadataDatabase)
    (result : Except ServerError TransferAttempts) : MetadataDatabase :=
  match result with
  | .ok transferAttempts => { db with transferAttempts := transferAttempts }
  | .error _ => db

/-- A write. New rows of objects and transfer attempts need their parents. -/
def write (db : MetadataDatabase) : MetadataWrite → MetadataDatabase
  | .syncConfig config turns => (db.syncConfig config turns).2
  | .recordVerifiedObject key backendId creatorIfMissing now =>
    if db.HasParents key then
      db.withObjects (db.objects.recordVerifiedObject key backendId creatorIfMissing now)
    else db
  | .markObjectStale key expectedBackendId =>
    db.withObjects ((db.objects.markObjectStale key expectedBackendId).map Prod.snd)
  | .startTransferAttempt key =>
    if db.HasParents key then
      db.withTransferAttempts ((db.transferAttempts.startTransferAttempt key).map Prod.snd)
    else db
  | .finishTransferAttempt attemptId result =>
    db.withTransferAttempts (db.transferAttempts.finishTransferAttempt attemptId result)

end MetadataDatabase

/-- The metadata database over its lifetime. Every configuration has passed its check. -/
def metadataSystem (debug : String → String) :
    Transition.System MetadataDatabase MetadataWrite where
  init db := db = .new
  step db write db' := db' = db.write write ∧
    ∀ config turns, write = .syncConfig config turns → config.validateReferences debug = .ok ()

end LfsCloud
