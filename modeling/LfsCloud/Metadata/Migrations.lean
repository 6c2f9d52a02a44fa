import LfsCloud.Lib.SqlKnowledge
import LfsCloud.Lib.Transaction

/-!
# Schema migrations

Opening the metadata database brings its schema to the current version: the statements of the
initial schema, which do nothing where they were run before, and then the steps behind the version
of the database, all in one transaction.
-/

namespace LfsCloud

open Sql

/-- The tables of every version. -/
inductive MetadataTable
  | schemaMigrations
  | storageProviders
  | repositoryMappings
  | objects
  | sessions
  | transferAttempts
  | objectsV2
  | serverProperties
  deriving DecidableEq

instance : Fintype MetadataTable where
  elems := {.schemaMigrations, .storageProviders, .repositoryMappings, .objects, .sessions,
    .transferAttempts, .objectsV2, .serverProperties}
  complete t := by cases t <;> decide

/-- The columns of the tables. -/
inductive MetadataColumn
  | version
  | name
  | appliedAtUnixSeconds
  | id
  | providerType
  | backendRootId
  | displayName
  | createdAtUnixSeconds
  | updatedAtUnixSeconds
  | repoProviderId
  | host
  | owner
  | storageProviderId
  | routePath
  | providerStableId
  | repoId
  | oid
  | sizeBytes
  | backendId
  | createdByProviderId
  | createdByLogin
  | createdByStableId
  | verificationStatus
  | lastVerifiedAtUnixSeconds
  | tokenSha256
  | providerId
  | login
  | stableId
  | grantedScopesJson
  | issuedAtUnixSeconds
  | expiresAtUnixSeconds
  | operation
  | status
  | userProviderId
  | userLogin
  | errorCategory
  | errorMessage
  | startedAtUnixSeconds
  | finishedAtUnixSeconds
  | providerAccessTokenCiphertext
  | providerAccessTokenNonce
  | isActive
  | key
  | value
  deriving DecidableEq

/-- The indexes. -/
inductive MetadataIndex
  | objectsLookupIdx
  | objectsBackendIdx
  | sessionsExpiryIdx
  | transferAttemptsObjectIdx
  | transferAttemptsStartedIdx
  deriving DecidableEq

/-- A table of the metadata. -/
abbrev MetadataSchema := Schema MetadataTable MetadataColumn

/-- A column of the metadata. -/
abbrev MetadataColumnType := Column MetadataTable MetadataColumn

/-- A statement on the metadata. -/
abbrev MetadataStatement := Statement MetadataTable MetadataColumn MetadataIndex

/-- A metadata database, of any version. -/
abbrev VersionedDatabase := Database MetadataTable MetadataColumn MetadataIndex

/-! ## The statements -/

/-- `INTEGER`. -/
def integerColumn : MetadataColumnType := ⟨.integer, false, .value .null, none, none⟩

/-- `TEXT`. -/
def textColumn : MetadataColumnType := ⟨.text, false, .value .null, none, none⟩

/-- `BLOB`. -/
def blobColumn : MetadataColumnType := ⟨.blob, false, .value .null, none, none⟩

/-- `NOT NULL`; a primary key of a strict table is never null either. -/
def required (column : MetadataColumnType) : MetadataColumnType := { column with notNull := true }

/-- `CHECK`. -/
def checked (check : Check) (column : MetadataColumnType) : MetadataColumnType :=
  { column with check := some check }

/-- `REFERENCES` of the `id` of a table. -/
def referring (table : MetadataTable) (column : MetadataColumnType) : MetadataColumnType :=
  { column with references := some (table, .id) }

/-- `INTEGER NOT NULL DEFAULT (unixepoch())`. -/
def timestampColumn : MetadataColumnType := ⟨.integer, true, .now, none, none⟩

/-- `schema_migrations`. -/
def schemaMigrationsSchema : MetadataSchema where
  columns := [(.version, required integerColumn), (.name, required textColumn),
    (.appliedAtUnixSeconds, timestampColumn)]
  keys := [[.version]]
  keys_named := by decide

/-- `storage_providers`. -/
def storageProvidersSchema : MetadataSchema where
  columns := [(.id, required textColumn), (.providerType, required textColumn),
    (.backendRootId, required textColumn), (.displayName, textColumn),
    (.createdAtUnixSeconds, timestampColumn), (.updatedAtUnixSeconds, timestampColumn)]
  keys := [[.id]]
  keys_named := by decide

/-- `repository_mappings`. -/
def repositoryMappingsSchema : MetadataSchema where
  columns := [(.id, required textColumn), (.repoProviderId, required textColumn),
    (.host, required textColumn), (.owner, required textColumn), (.name, required textColumn),
    (.storageProviderId, referring .storageProviders (required textColumn)),
    (.routePath, required textColumn), (.providerStableId, textColumn),
    (.createdAtUnixSeconds, timestampColumn), (.updatedAtUnixSeconds, timestampColumn)]
  keys := [[.id], [.routePath]]
  keys_named := by decide

/-- `objects`, where `last_verified_at_unix_seconds` is as it is in a version. -/
def objectsSchema (lastVerified : MetadataColumnType) : MetadataSchema where
  columns := [(.id, required integerColumn),
    (.repoId, referring .repositoryMappings (required textColumn)),
    (.storageProviderId, referring .storageProviders (required textColumn)),
    (.oid, checked (.length 64) (required textColumn)),
    (.sizeBytes, checked .nonnegative (required integerColumn)),
    (.backendId, required textColumn), (.createdByProviderId, required textColumn),
    (.createdByLogin, required textColumn), (.createdByStableId, textColumn),
    (.verificationStatus, checked (.oneOf [.text "verified", .text "stale", .text "failed"])
      (required textColumn)),
    (.createdAtUnixSeconds, timestampColumn), (.lastVerifiedAtUnixSeconds, lastVerified)]
  keys := [[.id], [.repoId, .storageProviderId, .oid, .sizeBytes]]
  keys_named := by
    simp only [List.map_cons, List.map_nil]
    decide

/-- `sessions`. -/
def sessionsSchema : MetadataSchema where
  columns := [(.tokenSha256, checked (.length 64) (required textColumn)),
    (.providerId, required textColumn), (.login, required textColumn), (.stableId, textColumn),
    (.grantedScopesJson, required textColumn), (.issuedAtUnixSeconds, required integerColumn),
    (.expiresAtUnixSeconds, required integerColumn)]
  keys := [[.tokenSha256]]
  keys_named := by decide

/-- `transfer_attempts`. -/
def transferAttemptsSchema : MetadataSchema where
  columns := [(.id, required integerColumn),
    (.repoId, referring .repositoryMappings (required textColumn)),
    (.storageProviderId, referring .storageProviders (required textColumn)),
    (.oid, checked (.length 64) (required textColumn)),
    (.sizeBytes, checked .nonnegative (required integerColumn)),
    (.operation, checked (.oneOf [.text "upload", .text "download", .text "delete"])
      (required textColumn)),
    (.status, checked (.oneOf [.text "started", .text "succeeded", .text "failed"])
      (required textColumn)),
    (.userProviderId, required textColumn), (.userLogin, required textColumn),
    (.backendId, textColumn), (.errorCategory, textColumn), (.errorMessage, textColumn),
    (.startedAtUnixSeconds, timestampColumn), (.finishedAtUnixSeconds, integerColumn)]
  keys := [[.id]]
  keys_named := by decide

/-- `server_properties`. -/
def serverPropertiesSchema : MetadataSchema where
  columns := [(.key, required textColumn), (.value, required textColumn)]
  keys := [[.key]]
  keys_named := by decide

/-- The key of the index on the objects of repositories. -/
def objectKeyColumns : List MetadataColumn := [.repoId, .storageProviderId, .oid, .sizeBytes]

/-- `INSERT OR IGNORE INTO schema_migrations`. -/
def recordMigration (version : ℤ) (name : String) : MetadataStatement :=
  .insertOrIgnore .schemaMigrations [(.version, .integer version), (.name, .text name)]

/-- The indexes on `objects`. -/
def createObjectIndexes : List MetadataStatement :=
  [.createIndex .objectsLookupIdx .objects objectKeyColumns,
    .createIndex .objectsBackendIdx .objects [.storageProviderId, .backendId]]

/-- The tables and indexes of `INITIAL_SCHEMA`. -/
def initialTables : List MetadataStatement :=
  [.createTable true .schemaMigrations schemaMigrationsSchema,
    .createTable true .storageProviders storageProvidersSchema,
    .createTable true .repositoryMappings repositoryMappingsSchema,
    .createTable true .objects (objectsSchema integerColumn)] ++
  createObjectIndexes ++
  [.createTable true .sessions sessionsSchema,
    .createIndex .sessionsExpiryIdx .sessions [.expiresAtUnixSeconds],
    .createTable true .transferAttempts transferAttemptsSchema,
    .createIndex .transferAttemptsObjectIdx .transferAttempts objectKeyColumns,
    .createIndex .transferAttemptsStartedIdx .transferAttempts [.startedAtUnixSeconds]]

/-- `INITIAL_SCHEMA`. -/
def initialSchema : List MetadataStatement :=
  initialTables ++ [recordMigration 1 "initial_metadata_schema"]

/-- `NULLABLE_OBJECT_VERIFICATION_TIMESTAMP_MIGRATION`. -/
def nullableObjectVerificationTimestampMigration : List MetadataStatement :=
  [.dropIndex .objectsLookupIdx,
    .dropIndex .objectsBackendIdx,
    .createTable false .objectsV2 (objectsSchema integerColumn),
    .insertSelect .objectsV2 [.id, .repoId, .storageProviderId, .oid, .sizeBytes, .backendId,
      .createdByProviderId, .createdByLogin, .createdByStableId, .verificationStatus,
      .createdAtUnixSeconds, .lastVerifiedAtUnixSeconds] .objects,
    .dropTable .objects,
    .renameTable .objectsV2 .objects] ++
  createObjectIndexes ++
  [recordMigration 2 "nullable_object_verification_timestamp",
    .setUserVersion 2]

/-- `PROTECTED_SESSION_TOKEN_MIGRATION`. -/
def protectedSessionTokenMigration : List MetadataStatement :=
  [.addColumn .sessions .providerAccessTokenCiphertext blobColumn,
    .addColumn .sessions .providerAccessTokenNonce blobColumn,
    recordMigration 3 "protected_session_tokens",
    .setUserVersion 3]

/-- The column that tells whether a mapping is active. -/
def isActiveColumn : MetadataColumnType :=
  checked (.oneOf [.integer 0, .integer 1])
    (required { integerColumn with default := .value (.integer 1) })

/-- `ACTIVE_REPOSITORY_MAPPING_MIGRATION`. -/
def activeRepositoryMappingMigration : List MetadataStatement :=
  [.addColumn .repositoryMappings .isActive isActiveColumn,
    recordMigration 4 "active_repository_mappings",
    .setUserVersion 4]

/-- `PAT_AUTHENTICATION_SESSION_MIGRATION`. -/
def patAuthenticationSessionMigration : List MetadataStatement :=
  [.deleteAll .sessions,
    recordMigration 5 "invalidate_oauth_sessions_for_pat_authentication",
    .setUserVersion 5]

/-- `SESSION_ENCRYPTION_SECRET_MIGRATION`. -/
def sessionEncryptionSecretMigration : List MetadataStatement :=
  [.deleteAll .sessions,
    recordMigration 6 "invalidate_provider_pat_sessions_for_server_secret",
    .setUserVersion 6]

/-- `SERVER_INSTANCE_IDENTITY_MIGRATION`. -/
def serverInstanceIdentityMigration : List MetadataStatement :=
  [.createTable false .serverProperties serverPropertiesSchema,
    recordMigration 7 "server_instance_identity",
    .setUserVersion 7]

/-- `METADATA_SCHEMA_VERSION`. -/
def metadataSchemaVersion : ℕ := 7

/-- `METADATA_MIGRATIONS`. -/
def metadataMigrations : List (ℕ × List MetadataStatement) :=
  [(2, nullableObjectVerificationTimestampMigration),
    (3, protectedSessionTokenMigration),
    (4, activeRepositoryMappingMigration),
    (5, patAuthenticationSessionMigration),
    (6, sessionEncryptionSecretMigration),
    (7, serverInstanceIdentityMigration)]

/-! ## The runner -/

/-- `ServerError`, as the migration runner returns it. -/
inductive MetadataMigrationError
  | metadataMigration (source : Sql.Error)
  | metadataSchemaTooNew (found supported : ℕ)

/-- The body of the transaction of `run_migrations`: every batch is executed by `execute_batch`. -/
def migrationBody (schemaVersion : ℕ) : Transaction ℤ Sql.Error VersionedDatabase PUnit := do
  executeAll initialSchema
  metadataMigrations.forM fun migration =>
    if schemaVersion ≥ migration.1 then pure PUnit.unit else executeAll migration.2

/-- `run_migrations`. Every statement gets the time, or a fault; the first one reads the version,
which has to fit an unsigned number. -/
def runMigrations (turns : ℕ → Except Sql.Error ℤ) (db : VersionedDatabase) :
    Except MetadataMigrationError Unit × VersionedDatabase :=
  match turns 0 with
  | .error source => (.error (.metadataMigration source), db)
  | .ok _ =>
    if db.userVersion < 0 then (.error (.metadataMigration .outOfRange), db)
    else
      let schemaVersion := db.userVersion.toNat
      if metadataSchemaVersion < schemaVersion then
        (.error (.metadataSchemaTooNew schemaVersion metadataSchemaVersion), db)
      else
        match (migrationBody schemaVersion).transact (fun n => turns (n + 1)) db with
        | (.ok _, db') => (.ok (), db')
        | (.error source, db') => (.error (.metadataMigration source), db')

end LfsCloud
