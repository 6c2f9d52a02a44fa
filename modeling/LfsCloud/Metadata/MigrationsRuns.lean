import LfsCloud.Metadata.Migrations

/-!
# A migration keeps the rows

What the statements behind a version do to the schema is computed from the schema of the version,
and holds of every database of it. The rows of all tables but those of sessions stay as they are.
-/

namespace LfsCloud

open Sql

/-- What is known of a metadata database. -/
abbrev MetadataKnowledge := Knowledge MetadataTable MetadataColumn MetadataIndex

/-! ## Versions -/

/-- `sessions` with the tokens of version 3. -/
def protectedSessionsSchema : MetadataSchema :=
  (sessionsSchema.addColumn .providerAccessTokenCiphertext blobColumn).addColumn
    .providerAccessTokenNonce blobColumn

/-- `repository_mappings` of version 4. -/
def activeMappingsSchema : MetadataSchema :=
  repositoryMappingsSchema.addColumn .isActive isActiveColumn

/-- The table of each version, where it is there. In version 1 an object had to be verified. -/
def versionSchema (version : ℕ) (legacy : Bool) : MetadataTable → Option MetadataSchema
  | .schemaMigrations => some schemaMigrationsSchema
  | .storageProviders => some storageProvidersSchema
  | .repositoryMappings =>
    some (if 4 ≤ version then activeMappingsSchema else repositoryMappingsSchema)
  | .objects => some (objectsSchema (if legacy then timestampColumn else integerColumn))
  | .sessions => some (if 3 ≤ version then protectedSessionsSchema else sessionsSchema)
  | .transferAttempts => some transferAttemptsSchema
  | .objectsV2 => none
  | .serverProperties => if 7 ≤ version then some serverPropertiesSchema else none

/-- The table of an index. -/
def MetadataIndex.table : MetadataIndex → MetadataTable
  | .objectsLookupIdx => .objects
  | .objectsBackendIdx => .objects
  | .sessionsExpiryIdx => .sessions
  | .transferAttemptsObjectIdx => .transferAttempts
  | .transferAttemptsStartedIdx => .transferAttempts

/-- A database of a version. Before version 2 a table may not be there yet, or be the objects of
the time when each of them had to be verified; an index may not be there in any version. -/
structure OfVersion (version : ℕ) (db : VersionedDatabase) : Prop where
  sound : db.Sound
  userVersion : db.userVersion = version
  tables : ∀ t, (db.tables t).map Contents.schema = versionSchema version false t ∨
    version ≤ 1 ∧ (db.tables t = none ∨
      t = .objects ∧ (db.tables t).map Contents.schema = versionSchema version true t)
  indexes : ∀ name, ∀ index ∈ db.indexes name, index.1 = name.table

/-- Where the rows of a table come from before anything is done. -/
def ownOrigin (t : MetadataTable) : Origin MetadataTable :=
  if t = .schemaMigrations then .unknown else .of t

/-- What is known of a database of a version. -/
def versionKnowledge (version : ℕ) (legacy : Bool) : MetadataKnowledge where
  tables t := (versionSchema version legacy t).map fun schema =>
    ⟨schema, ownOrigin t, 2 ≤ version || legacy && t = .objects⟩
  indexes name := some (name.table, false)
  userVersion := version

/-- The batches that are executed for a version. -/
def pendingStatements (version : ℕ) : List MetadataStatement :=
  (metadataMigrations.filter fun migration => version < migration.1).flatMap Prod.snd

/-- Where the rows of a table come from after a migration. -/
def migratedOrigin (version : ℕ) (t : MetadataTable) : Origin MetadataTable :=
  if t = .schemaMigrations then .unknown
  else if t = .sessions ∧ version < 6 then .nothing
  else if t = .serverProperties ∧ version < 7 then .nothing
  else .of t

/-- What is known after a migration. -/
def migratedKnowledge (version : ℕ) : MetadataKnowledge where
  tables t := (versionSchema 7 false t).map fun schema => ⟨schema, migratedOrigin version t, true⟩
  indexes name := some (name.table, true)
  userVersion := 7

instance (K K' : MetadataKnowledge) : Decidable (K = K') :=
  decidable_of_iff ((∀ t, K.tables t = K'.tables t) ∧
      (∀ name ∈ [MetadataIndex.objectsLookupIdx, .objectsBackendIdx, .sessionsExpiryIdx,
        .transferAttemptsObjectIdx, .transferAttemptsStartedIdx],
        K.indexes name = K'.indexes name) ∧ K.userVersion = K'.userVersion) (by
    constructor
    · rintro ⟨htables, hindexes, hversion⟩
      have hall : K.indexes = K'.indexes := by
        funext name
        exact hindexes name (by cases name <;> decide)
      cases K
      cases K'
      simp only at htables hall hversion
      rw [funext htables, hall, hversion]
    · rintro rfl
      exact ⟨fun _ => rfl, fun _ _ => rfl, rfl⟩)

/-- What the statements do to the schema of each version. -/
theorem predictAll_version : ∀ version < 8, ∀ legacy, (legacy = true → version < 2) →
    (versionKnowledge version legacy).predictAll (initialSchema ++ pendingStatements version) =
      some (migratedKnowledge version) := by
  decide +kernel

/-- What is known of the table of applied migrations once the tables are there. -/
theorem predictAll_initialTables : ∀ version < 8, ∀ legacy,
    ((versionKnowledge version legacy).predictAll initialTables).map
      (fun K => K.tables .schemaMigrations) =
      some (some ⟨schemaMigrationsSchema, .unknown, true⟩) := by
  decide +kernel

theorem sameRows_self {db : VersionedDatabase} {t : MetadataTable}
    {contents : Contents MetadataTable MetadataColumn} (h : db.tables t = some contents) :
    SameRows db t contents.schema.names contents.rows := by
  unfold SameRows Database.names Database.rows
  rw [h]
  exact ⟨List.Subset.refl _, List.forall₂_same.mpr fun _ _ _ _ => rfl⟩

theorem sameRows_absent {db : VersionedDatabase} {t : MetadataTable} {names : List MetadataColumn}
    (h : db.tables t = none) : SameRows db t names [] := by
  unfold SameRows Database.names Database.rows
  rw [h]
  exact ⟨List.nil_subset _, List.Forall₂.nil⟩

theorem ownOrigin_holds {db : VersionedDatabase} {t : MetadataTable} {names : List MetadataColumn}
    {rows : List (Row MetadataColumn)} (h : SameRows db t names rows) :
    (ownOrigin t).Holds db names rows := by
  unfold ownOrigin
  split
  · trivial
  · exact h

/-- A database of a version is as it is known to be. -/
theorem OfVersion.describes {version : ℕ} {db : VersionedDatabase} (h : OfVersion version db) :
    ∃ legacy, (legacy = true → version < 2) ∧
      (versionKnowledge version legacy).Describes db db := by
  -- the objects are of the legacy kind, or those of the version
  have hobjects : ∃ legacy, (legacy = true → version < 2 ∧ (db.tables .objects).map
      Contents.schema = versionSchema version true .objects) ∧
      (legacy = false → (db.tables .objects).map Contents.schema =
        versionSchema version false .objects ∨ version ≤ 1 ∧ db.tables .objects = none) := by
    rcases h.tables .objects with hsame | ⟨hversion, hnone | ⟨_, hlegacy⟩⟩
    · exact ⟨false, fun hfalse => absurd hfalse Bool.false_ne_true, fun _ => .inl hsame⟩
    · exact ⟨false, fun hfalse => absurd hfalse Bool.false_ne_true, fun _ => .inr ⟨hversion, hnone⟩⟩
    · exact ⟨true, fun _ => ⟨by omega, hlegacy⟩, fun hfalse => absurd hfalse.symm Bool.false_ne_true⟩
  obtain ⟨legacy, htrue, hfalse⟩ := hobjects
  -- any table is there with the schema of the version, or it may not be there and is not
  have hcases : ∀ t, (db.tables t).map Contents.schema = versionSchema version legacy t ∨
      (2 ≤ version || legacy && t = .objects) = false ∧ db.tables t = none := by
    intro t
    by_cases ht : t = .objects
    · subst ht
      cases hlegacy : legacy with
      | true => exact .inl (htrue hlegacy).2
      | false =>
        rcases hfalse hlegacy with hsame | ⟨hversion, hnone⟩
        · exact .inl hsame
        · exact .inr ⟨by simp [show ¬2 ≤ version by omega], hnone⟩
    · have hschema : versionSchema version legacy t = versionSchema version false t := by
        cases t <;> first | rfl | exact absurd rfl ht
      rw [hschema]
      rcases h.tables t with hsame | ⟨hversion, hnone | ⟨hobjects, _⟩⟩
      · exact .inl hsame
      · exact .inr ⟨by simp [show ¬2 ≤ version by omega, ht], hnone⟩
      · exact absurd hobjects ht
  refine ⟨legacy, fun hlegacy => (htrue hlegacy).1, fun t => ?_, fun name => ?_, h.userVersion⟩
  · change TableDescribed db (db.tables t) ((versionSchema version legacy t).map _)
    cases hschema : versionSchema version legacy t with
    | none =>
      rcases hcases t with hsame | ⟨_, hnone⟩
      · rw [hschema] at hsame
        exact Option.map_eq_none_iff.mp hsame
      · exact hnone
    | some schema =>
      rcases hcases t with hsame | ⟨huncertain, hnone⟩
      · rw [hschema] at hsame
        obtain ⟨contents, hcontents, rfl⟩ := Option.map_eq_some_iff.mp hsame
        exact .inr ⟨contents, hcontents, rfl, ownOrigin_holds (sameRows_self hcontents)⟩
      · exact .inl ⟨huncertain, hnone, ownOrigin_holds (sameRows_absent hnone)⟩
  · change IndexDescribed (db.indexes name) (some (name.table, false))
    cases hindex : db.indexes name with
    | none => exact .inl ⟨rfl, rfl⟩
    | some index =>
      obtain ⟨t, columns⟩ := index
      have htable : t = name.table := h.indexes name _ hindex
      exact .inr ⟨columns, by rw [htable]⟩

/-! ## What is done, and what is not done again -/

/-- Conditional batches are those whose condition holds. -/
theorem forM_pending (version : ℕ) (migrations : List (ℕ × List MetadataStatement)) :
    (migrations.forM fun migration =>
      if version ≥ migration.1 then pure PUnit.unit else executeAll migration.2) =
      executeAll ((migrations.filter fun migration => version < migration.1).flatMap Prod.snd) := by
  induction migrations with
  | nil => rfl
  | cons migration rest ih =>
    change ((if version ≥ migration.1 then pure PUnit.unit else executeAll migration.2) >>=
      fun _ => rest.forM _) = _
    rw [ih, List.filter_cons]
    by_cases hdone : version ≥ migration.1
    · rw [if_pos hdone, if_neg (by simpa using hdone), pure_bind]
    · rw [if_neg hdone, if_pos (by simpa using hdone), List.flatMap_cons, executeAll_append]

/-- The initial schema and the batches behind the version are executed, each of them once. -/
theorem migrationBody_eq (version : ℕ) :
    migrationBody version = executeAll (initialSchema ++ pendingStatements version) := by
  unfold migrationBody pendingStatements
  rw [forM_pending, executeAll_append]

/-- The initial schema is recorded. -/
def InitialRecorded (db : VersionedDatabase) : Prop :=
  ∃ row ∈ db.rows .schemaMigrations, row .version = .integer 1

/-- The row of the initial schema has no other fault than that it may be there. -/
theorem admits_initial (now : ℤ) (name : String) : schemaMigrationsSchema.Admits
    (schemaMigrationsSchema.newRow now [(.version, .integer 1), (.name, .text name)]) := by
  intro c hc
  simp only [schemaMigrationsSchema, List.mem_cons, List.not_mem_nil, or_false] at hc
  rcases hc with rfl | rfl | rfl
  all_goals refine ⟨fun _ => ?_, fun check hcheck => by cases hcheck⟩
  all_goals exact Value.noConfusion

theorem recordMigration_recorded {now : ℤ} {name : String} {db db' : VersionedDatabase}
    {contents : Contents MetadataTable MetadataColumn}
    (ht : db.tables .schemaMigrations = some contents)
    (hschema : contents.schema = schemaMigrationsSchema)
    (hexec : exec now db (recordMigration 1 name) = .ok db') : InitialRecorded db' := by
  unfold recordMigration at hexec
  simp only [exec, ht] at hexec
  split at hexec
  · cases hexec
  rw [hschema] at hexec
  have hrows : db.rows .schemaMigrations = contents.rows := by
    unfold Database.rows
    rw [ht]
    rfl
  split at hexec
  · rename_i written hinsert
    obtain rfl := Except.ok.inj hexec
    obtain ⟨rfl, _⟩ := Database.insertRow_eq_ok hinsert
    refine ⟨schemaMigrationsSchema.newRow now [(.version, .integer 1), (.name, .text name)], ?_,
      rfl⟩
    rw [Database.rows_setTable_self]
    exact List.mem_append_right _ List.mem_cons_self
  · rename_i error hinsert
    split at hexec
    next hconstraint =>
      obtain rfl := Except.ok.inj hexec
      subst hconstraint
      unfold Database.insertRow at hinsert
      split at hinsert
      · cases hinsert
      split at hinsert
      next hbroken =>
        rcases hbroken with hadmits | ⟨old, hold, key, hkey, hsame⟩
        · rw [hschema] at hadmits
          exact absurd (admits_initial now name) hadmits
        · rw [hschema] at hkey
          obtain rfl := List.mem_singleton.mp hkey
          refine ⟨old, hrows ▸ hold, ?_⟩
          rw [(hsame .version List.mem_cons_self).2]
          rfl
      next =>
        split at hinsert <;> cases hinsert
    next => cases hexec

/-- No batch takes a row of the applied migrations away. -/
theorem pendingStatements_spare (version : ℕ) :
    ∀ statement ∈ pendingStatements version, statement.Spares .schemaMigrations := by
  have hall : ∀ statement ∈ metadataMigrations.flatMap Prod.snd,
      statement.Spares MetadataTable.schemaMigrations := by decide
  intro statement hstatement
  obtain ⟨migration, hmigration, hmem⟩ := List.mem_flatMap.mp hstatement
  exact hall statement (List.mem_flatMap.mpr ⟨migration, List.mem_of_mem_filter hmigration, hmem⟩)

/-- The migration of a database of a version. -/
theorem ensures_migrationBody {version : ℕ} (hversion : version < 8) {start : VersionedDatabase}
    (h : OfVersion version start) :
    Transaction.Ensures (fun db => db = start) (migrationBody version) fun _ db =>
      db.Sound ∧ (migratedKnowledge version).Describes start db ∧ InitialRecorded db := by
  obtain ⟨legacy, hlegacy, hdescribes⟩ := h.describes
  have hall := predictAll_version version hversion legacy hlegacy
  unfold initialSchema at hall
  rw [List.append_assoc] at hall
  obtain ⟨K₁, htables, hrest⟩ := Knowledge.predictAll_append hall
  obtain ⟨K₂, hrecord, hpending⟩ := Knowledge.predictAll_append hrest
  have hknown : K₁.tables .schemaMigrations =
      some ⟨schemaMigrationsSchema, .unknown, true⟩ := by
    have hinitial := predictAll_initialTables version hversion legacy
    rw [htables] at hinitial
    exact Option.some.inj hinitial
  rw [migrationBody_eq]
  unfold initialSchema
  rw [List.append_assoc, executeAll_append, executeAll_append]
  refine Transaction.Ensures.bind (Q := fun _ db => db.Sound ∧ K₁.Describes start db ∧ True)
    ((ensures_executeAll htables fun _ _ => fun _ _ _ => trivial).mono ?_ fun hdb => hdb)
    fun _ => ?_
  · rintro db rfl
    exact ⟨h.sound, hdescribes, trivial⟩
  refine Transaction.Ensures.bind
    (Q := fun _ db => db.Sound ∧ K₂.Describes start db ∧ InitialRecorded db) ?_ fun _ => ?_
  · have hsingle : executeAll [recordMigration 1 "initial_metadata_schema"] =
        (Transaction.execute (fun now db =>
          exec now db (recordMigration 1 "initial_metadata_schema")) >>= fun _ => pure PUnit.unit) :=
      rfl
    rw [hsingle]
    refine Transaction.Ensures.bind
      (Q := fun _ db => db.Sound ∧ K₂.Describes start db ∧ InitialRecorded db)
      (.execute fun now db hdb => ?_) fun _ => Transaction.Ensures.pure
        (Q := fun _ db => db.Sound ∧ K₂.Describes start db ∧ InitialRecorded db)
    obtain ⟨K₀, hpredict, hnil⟩ := Option.bind_eq_some_iff.mp hrecord
    obtain rfl := Option.some.inj hnil
    obtain ⟨contents, hcontents, hschema, _⟩ := hdb.2.1.certain hknown rfl
    obtain ⟨db', hexec, hdb'⟩ := Knowledge.predicts_of_predict hpredict hdb.1 hdb.2.1
    exact ⟨db', hexec, exec_sound hdb.1 hexec, hdb',
      recordMigration_recorded hcontents hschema hexec⟩
  · refine ensures_executeAll hpending fun statement hstatement _ _ _ hsound hexec hrecorded => ?_
    obtain ⟨row, hrow, hversion⟩ := hrecorded
    exact ⟨row, rows_subset_of_spares (pendingStatements_spare version statement hstatement) hsound
      hexec hrow, hversion⟩

/-! ## Runs -/

/-- What a migration does to a database of a version. -/
structure MigratedFrom (version : ℕ) (db db' : VersionedDatabase) : Prop where
  current : OfVersion 7 db'
  kept : ∀ t ∈ [MetadataTable.storageProviders, .repositoryMappings, .objects, .transferAttempts],
    SameRows db t (db'.names t) (db'.rows t)
  sessions : if version < 6 then db'.rows .sessions = []
    else SameRows db .sessions (db'.names .sessions) (db'.rows .sessions)
  again : ∀ turns, (runMigrations turns db').2 = db' ∧
    ((∀ n e, turns n ≠ .error e) → (runMigrations turns db').1 = .ok ())

/-- What is known of a table after a migration. -/
theorem migrated_table {version : ℕ} {start db : VersionedDatabase} {t : MetadataTable}
    {schema : MetadataSchema} (h : (migratedKnowledge version).Describes start db)
    (hschema : versionSchema 7 false t = some schema) :
    ∃ contents, db.tables t = some contents ∧ contents.schema = schema ∧
      (migratedOrigin version t).Holds start (db.names t) (db.rows t) := by
  have hknown : (migratedKnowledge version).tables t =
      some ⟨schema, migratedOrigin version t, true⟩ := by
    change (versionSchema 7 false t).map _ = _
    rw [hschema]
    rfl
  obtain ⟨contents, hcontents, hsame, hholds⟩ := h.certain hknown rfl
  refine ⟨contents, hcontents, hsame, ?_⟩
  unfold Database.names Database.rows
  rw [hcontents]
  change (migratedOrigin version t).Holds start contents.schema.names contents.rows
  rw [hsame]
  exact hholds

/-- A database that was migrated is of the current version. -/
theorem ofVersion_of_migrated {version : ℕ} {start db : VersionedDatabase} (hsound : db.Sound)
    (h : (migratedKnowledge version).Describes start db) : OfVersion 7 db := by
  refine ⟨hsound, h.userVersion, fun t => .inl ?_, fun name index hindex => ?_⟩
  · cases hschema : versionSchema 7 false t with
    | none =>
      have hnone : (migratedKnowledge version).tables t = none := by
        change (versionSchema 7 false t).map _ = _
        rw [hschema]
        rfl
      rw [h.absent hnone]
      rfl
    | some schema =>
      obtain ⟨contents, hcontents, hsame, _⟩ := migrated_table h hschema
      rw [hcontents, Option.map_some, hsame]
  · have hname := h.indexes name
    change IndexDescribed (db.indexes name) (some (name.table, true)) at hname
    rw [hindex] at hname
    rcases hname with ⟨hfalse, _⟩ | ⟨columns, hsome⟩
    · cases hfalse
    · rw [Option.some.inj hsome]

/-- The statements of the initial schema change nothing in a database that was migrated. -/
theorem exec_initialSchema_again {version : ℕ} {start db : VersionedDatabase}
    (h : (migratedKnowledge version).Describes start db) (hrecorded : InitialRecorded db) :
    ∀ statement ∈ initialSchema, ∀ now, exec now db statement = .ok db := by
  have htable : ∀ {t schema schema'}, versionSchema 7 false t = some schema → ∀ now,
      exec now db (.createTable true t schema') = .ok db := by
    intro t schema schema' hschema now
    obtain ⟨contents, hcontents, _⟩ := migrated_table h hschema
    exact exec_createTable_again hcontents
  have hindex : ∀ {name : MetadataIndex} {columns schema},
      versionSchema 7 false name.table = some schema → ∀ now,
      exec now db (.createIndex name name.table columns) = .ok db := by
    intro name columns schema hschema now
    obtain ⟨contents, hcontents, _⟩ := migrated_table h hschema
    have hname := h.indexes name
    change IndexDescribed (db.indexes name) (some (name.table, true)) at hname
    rcases hname with ⟨hfalse, _⟩ | ⟨columns, hsome⟩
    · cases hfalse
    · exact exec_createIndex_again hcontents hsome
  have hrecord : ∀ name now, exec now db (recordMigration 1 name) = .ok db := by
    intro name now
    obtain ⟨contents, hcontents, hschema, _⟩ :=
      migrated_table (t := .schemaMigrations) h rfl
    obtain ⟨row, hrow, hversion⟩ := hrecorded
    have hclash : ∃ old ∈ contents.rows, contents.schema.Clash old
        (contents.schema.newRow now [(.version, .integer 1), (.name, .text name)]) := by
      unfold Database.rows at hrow
      rw [hcontents] at hrow
      rw [hschema]
      refine ⟨row, hrow, [.version], List.mem_cons_self, fun c hc => ?_⟩
      rw [List.mem_singleton.mp hc, hversion]
      exact ⟨Value.noConfusion, rfl⟩
    have hnamed : ¬∃ v ∈ [(MetadataColumn.version, Value.integer 1), (.name, .text name)],
        v.1 ∉ contents.schema.names := by
      rw [hschema]
      rintro ⟨v, hv, hunnamed⟩
      refine hunnamed ?_
      rcases List.mem_cons.mp hv with rfl | hv
      · exact (by decide : MetadataColumn.version ∈ schemaMigrationsSchema.names)
      · rw [List.mem_singleton.mp hv]
        exact (by decide : MetadataColumn.name ∈ schemaMigrationsSchema.names)
    have htyped : contents.schema.Typed
        (contents.schema.newRow now [(.version, .integer 1), (.name, .text name)]) := by
      rw [hschema]
      intro c hc
      simp only [schemaMigrationsSchema, List.mem_cons, List.not_mem_nil, or_false] at hc
      rcases hc with rfl | rfl | rfl <;> rfl
    have hinsert : db.insertRow contents
        (contents.schema.newRow now [(.version, .integer 1), (.name, .text name)]) =
        .error .constraint := by
      unfold Database.insertRow
      rw [if_neg (not_not.mpr htyped), if_pos (Or.inr hclash)]
    unfold recordMigration
    simp only [exec, hcontents]
    rw [if_neg hnamed]
    simp only [hinsert, if_true]
  unfold initialSchema initialTables createObjectIndexes
  simp only [List.forall_mem_append, List.forall_mem_cons]
  have hnone : ∀ statement ∈ ([] : List MetadataStatement),
      ∀ now, exec now db statement = .ok db :=
    fun _ hmem => absurd hmem List.not_mem_nil
  refine ⟨⟨⟨⟨htable rfl, htable rfl, htable rfl, htable rfl, hnone⟩, hindex rfl, hindex rfl, hnone⟩,
    htable rfl, hindex rfl, htable rfl, hindex rfl, hindex rfl, hnone⟩, hrecord _, hnone⟩

/-- A migrated database is left as it is. -/
theorem runMigrations_again {version : ℕ} {start db : VersionedDatabase}
    (h : (migratedKnowledge version).Describes start db) (hrecorded : InitialRecorded db)
    (turns : ℕ → Except Sql.Error ℤ) : (runMigrations turns db).2 = db ∧
      ((∀ n e, turns n ≠ .error e) → (runMigrations turns db).1 = .ok ()) := by
  have huser : db.userVersion = 7 := h.userVersion
  unfold runMigrations
  cases hturn : turns 0 with
  | error source => exact ⟨rfl, fun hturns => absurd hturn (hturns 0 source)⟩
  | ok now =>
    have hensures : Transaction.Ensures (fun s => s = db) (migrationBody db.userVersion.toNat)
        fun _ s => s = db := by
      have hpending : pendingStatements db.userVersion.toNat = [] := by
        rw [huser]
        rfl
      rw [migrationBody_eq, hpending, List.append_nil]
      exact ensures_executeAll_again (exec_initialSchema_again h hrecorded)
    have hnegative : ¬db.userVersion < 0 := by omega
    have hnewer : ¬metadataSchemaVersion < db.userVersion.toNat := by
      rw [huser]
      decide
    simp only
    rw [if_neg hnegative, if_neg hnewer]
    rcases hensures.transact (fun n => turns (n + 1)) rfl with
      ⟨_, db', houtcome, hdb'⟩ | ⟨source, n, houtcome, hfault⟩
    · rw [houtcome]
      exact ⟨hdb', fun _ => rfl⟩
    · rw [houtcome]
      exact ⟨rfl, fun hturns => absurd hfault (hturns (n + 1) source)⟩

theorem migratedFrom_of_describes {version : ℕ} {start db : VersionedDatabase} (hsound : db.Sound)
    (h : (migratedKnowledge version).Describes start db) (hrecorded : InitialRecorded db) :
    MigratedFrom version start db := by
  refine ⟨ofVersion_of_migrated hsound h, fun t ht => ?_, ?_, runMigrations_again h hrecorded⟩
  · have hkept : ∃ schema, versionSchema 7 false t = some schema ∧
        migratedOrigin version t = .of t := by
      simp only [List.mem_cons, List.not_mem_nil, or_false] at ht
      rcases ht with rfl | rfl | rfl | rfl
      all_goals exact ⟨_, rfl, rfl⟩
    obtain ⟨schema, hschema, horigin⟩ := hkept
    obtain ⟨_, _, _, hholds⟩ := migrated_table h hschema
    rwa [horigin] at hholds
  · obtain ⟨_, _, _, hholds⟩ := migrated_table (t := .sessions) h rfl
    unfold migratedOrigin at hholds
    split
    next hearlier =>
      rw [if_neg (by decide), if_pos ⟨rfl, hearlier⟩] at hholds
      exact hholds
    next hlater =>
      rw [if_neg (by decide), if_neg fun hboth => hlater hboth.2,
        if_neg fun hboth => absurd hboth.1 (by decide)] at hholds
      exact hholds

/-- From every database of a supported version the migration executes the initial schema and the
batches behind the version, each once, and reaches the current version with every row of every
table but the sessions, unless a statement fails, and then nothing has changed; what it has
reached stays as it is when the migration is run again. A newer database is refused. -/
theorem run_migrations_correct {version : ℕ} {db : VersionedDatabase} (hversion : version ≤ 7)
    (h : OfVersion version db) (turns : ℕ → Except Sql.Error ℤ) :
    migrationBody version = executeAll (initialSchema ++ pendingStatements version) ∧
    ((runMigrations turns db).1 = .ok () ∧ MigratedFrom version db (runMigrations turns db).2 ∨
      ∃ source n, runMigrations turns db = (.error (.metadataMigration source), db) ∧
        turns n = .error source) ∧
    ∀ newer : VersionedDatabase, 7 < newer.userVersion → (∀ e, turns 0 ≠ .error e) →
      runMigrations turns newer =
        (.error (.metadataSchemaTooNew newer.userVersion.toNat 7), newer) := by
  refine ⟨migrationBody_eq version, ?_, fun newer hnewer hturn => ?_⟩
  · have huser := h.userVersion
    have hnegative : ¬db.userVersion < 0 := by omega
    have hnewer : ¬metadataSchemaVersion < db.userVersion.toNat := by
      unfold metadataSchemaVersion
      omega
    have hbody : db.userVersion.toNat = version := by omega
    unfold runMigrations
    cases hturn : turns 0 with
    | error source => exact .inr ⟨source, 0, rfl, hturn⟩
    | ok now =>
      simp only
      rw [if_neg hnegative, if_neg hnewer, hbody]
      rcases (ensures_migrationBody (by omega) h).transact (fun n => turns (n + 1)) rfl with
        ⟨_, db', houtcome, hsound, hdescribes, hrecorded⟩ | ⟨source, n, houtcome, hfault⟩
      · rw [houtcome]
        exact .inl ⟨rfl, migratedFrom_of_describes hsound hdescribes hrecorded⟩
      · rw [houtcome]
        exact .inr ⟨source, n + 1, rfl, hfault⟩
  · have hnegative : ¬newer.userVersion < 0 := by omega
    have hsupported : metadataSchemaVersion < newer.userVersion.toNat := by
      unfold metadataSchemaVersion
      omega
    unfold runMigrations
    cases hread : turns 0 with
    | error source => exact absurd hread (hturn source)
    | ok now =>
      simp only
      rw [if_neg hnegative, if_pos hsupported]
      rfl

/-! ## A database of version 1 -/

/-- The row of a storage provider. -/
def legacyProviderRow : Row MetadataColumn
  | .id => .text "drive"
  | .providerType => .text "google_drive"
  | .backendRootId => .text "root"
  | .createdAtUnixSeconds => .integer 1
  | .updatedAtUnixSeconds => .integer 1
  | _ => .null

/-- A database of version 1 with a storage provider. -/
def legacyDatabase : VersionedDatabase where
  tables
    | .storageProviders => some ⟨storageProvidersSchema, [legacyProviderRow]⟩
    | .objects => some ⟨objectsSchema timestampColumn, []⟩
    | _ => none
  indexes _ := none
  userVersion := 1

theorem legacyDatabase_rows {t : MetadataTable}
    {contents : Contents MetadataTable MetadataColumn}
    (h : contents ∈ legacyDatabase.tables t) : contents.rows = [] ∨
      contents = ⟨storageProvidersSchema, [legacyProviderRow]⟩ := by
  cases t <;> cases h
  · exact .inr rfl
  · exact .inl rfl

theorem legacyDatabase_ofVersion : OfVersion 1 legacyDatabase := by
  have hrows : ∀ {P : Schema MetadataTable MetadataColumn → Row MetadataColumn → Prop},
      P storageProvidersSchema legacyProviderRow → ∀ t, ∀ contents ∈ legacyDatabase.tables t,
        ∀ row ∈ contents.rows, P contents.schema row := by
    intro P hP t contents hcontents row hrow
    rcases legacyDatabase_rows hcontents with hnil | rfl
    · rw [hnil] at hrow
      cases hrow
    · rw [List.mem_singleton.mp hrow]
      exact hP
  refine ⟨⟨hrows (by decide), hrows (by decide), fun t contents hcontents => ?_,
    hrows fun c hc target htarget => ?_⟩, rfl, fun t => ?_, fun name index hindex => by cases hindex⟩
  · rcases legacyDatabase_rows hcontents with hnil | rfl
    · rw [hnil]
      exact List.Pairwise.nil
    · exact List.pairwise_singleton _ _
  · have hnone : ∀ c ∈ storageProvidersSchema.columns, c.2.references = none := by decide
    rw [hnone c hc] at htarget
    cases htarget
  · cases t
    case storageProviders => exact .inl rfl
    case objects => exact .inr ⟨Nat.le_refl _, .inr ⟨rfl, rfl⟩⟩
    all_goals exact .inr ⟨Nat.le_refl _, .inl rfl⟩

/-- The storage provider is kept. -/
theorem run_migrations_correct_legacy :
    SameRows legacyDatabase .storageProviders
      ((runMigrations (fun _ => .ok 0) legacyDatabase).2.names .storageProviders)
      ((runMigrations (fun _ => .ok 0) legacyDatabase).2.rows .storageProviders) := by
  rcases (run_migrations_correct (by decide) legacyDatabase_ofVersion fun _ => .ok 0).2.1 with
    ⟨_, hmigrated⟩ | ⟨_, _, _, hfault⟩
  · exact hmigrated.kept _ List.mem_cons_self
  · cases hfault

end LfsCloud
