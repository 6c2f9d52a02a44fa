import LfsCloud.Metadata.ConfigSyncRules

/-!
# Synchronization over all runs

A synchronization goes through three loops. The first ends with the routes released that the
configuration does not keep, the others with the rows of the storage providers and of the
mappings written. In every run of the database this succeeds, unless a statement fails from
outside; and a second synchronization finds everything as it would leave it.
-/

namespace LfsCloud

open ServerConfig (References StorageProviderConfig)
open Transaction (Ensures Settles)

namespace MetadataDatabase

variable {db db' db'' : MetadataDatabase} {config : References}

/-- What holds from the first statement to the last. -/
structure Synchronizing (config : References) (start db : MetadataDatabase) : Prop where
  wellFormed : db.WellFormed
  kept : Kept config start db

/-- A configured route is one of the configuration. -/
theorem lookup_configuredRoutes {id route : String}
    (h : (configuredRoutes config).lookup id = some route) :
    ∃ repository ∈ config.repositories, repository.id = id ∧ repository.routePath = route := by
  have hfold : ∀ (repositories : List ServerConfig.RepositoryMapping)
      (routes : Table String String),
      (repositories.foldl (fun routes repository =>
        routes.insert repository.id repository.routePath) routes).lookup id = some route →
      (∃ repository ∈ repositories, repository.id = id ∧ repository.routePath = route) ∨
        routes.lookup id = some route := by
    intro repositories
    induction repositories with
    | nil => exact fun _ h => .inr h
    | cons repository rest ih =>
      intro routes h
      rcases ih _ h with ⟨other, hother, hsame⟩ | hrow
      · exact .inl ⟨other, List.mem_cons_of_mem _ hother, hsame⟩
      · rcases Table.lookup_insert_eq_some.mp hrow with ⟨hid, hroute⟩ | ⟨_, hrow⟩
        · exact .inl ⟨repository, List.mem_cons_self, hid.symm, hroute⟩
        · exact .inr hrow
  rcases hfold config.repositories ∅ h with hfound | hempty
  · exact hfound
  · cases hempty

/-- The routes of all active mappings are on the list, and those that are done are routes of
the configuration. -/
def ReleasedUpTo (config : References) (persisted done : List (String × String))
    (db : MetadataDatabase) : Prop :=
  ∀ {id row}, db.repositoryMappings.lookup id = some row → row.isActive = true →
    (id, row.routePath) ∈ persisted ∧ ((id, row.routePath) ∈ done →
      ∃ repository ∈ config.repositories, repository.id = id ∧
        repository.routePath = row.routePath)

/-- The first loop. -/
theorem ensures_release (config : References) (start : MetadataDatabase) :
    Ensures (Synchronizing config start) (releaseInactiveRepositoryRoutes config)
      fun _ db => Synchronizing config start db ∧ Released config db := by
  unfold releaseInactiveRepositoryRoutes
  refine Ensures.bind (Q := fun persisted db => Synchronizing config start db ∧
    ReleasedUpTo config persisted [] db) ?_ fun persisted => ?_
  · refine .query fun moment db hdb => ⟨hdb, fun {id row} hrow _ => ⟨?_, nofun⟩⟩
    refine (moment.scan.perm db.repositoryMappings).mem_iff.mpr ?_
    exact List.mem_map.mpr ⟨⟨id, row⟩, AList.mem_lookup_iff.mp hrow, rfl⟩
  · refine (Ensures.forM (I := fun done db => Synchronizing config start db ∧
      ReleasedUpTo config persisted done db) fun before entry after _ => ?_).mono (fun h => h) ?_
    · obtain ⟨id, route⟩ := entry
      dsimp only
      split
      next hretains =>
        rw [beq_iff_eq] at hretains
        obtain ⟨repository, hrepository, hid, hroute⟩ := lookup_configuredRoutes hretains
        refine Ensures.pure.mono (fun {db} hdb => ?_) fun h => h
        refine ⟨hdb.1, fun {id' row} hrow hactive => ⟨(hdb.2 hrow hactive).1, fun hdone => ?_⟩⟩
        rcases List.mem_append.mp hdone with hdone | hlast
        · exact (hdb.2 hrow hactive).2 hdone
        · cases List.mem_singleton.mp hlast
          exact ⟨repository, hrepository, hid, hroute⟩
      next =>
        refine .execute fun moment db hdb => ?_
        obtain ⟨db', hrun, hwell, hkept, hactives⟩ :=
          releaseRoute_spec config hdb.1.wellFormed id moment.now
        refine ⟨db', hrun, ⟨hwell, hdb.1.kept.trans hkept⟩, fun {id' row} hrow hactive => ?_⟩
        obtain ⟨hne, hbefore⟩ := hactives hrow hactive
        refine ⟨(hdb.2 hbefore hactive).1, fun hdone => ?_⟩
        rcases List.mem_append.mp hdone with hdone | hlast
        · exact (hdb.2 hbefore hactive).2 hdone
        · cases List.mem_singleton.mp hlast
          exact absurd rfl hne
    · intro _ db hdb
      exact ⟨hdb.1, fun hrow hactive => (hdb.2 hrow hactive).2 (hdb.2 hrow hactive).1⟩

/-- The rows of these storage providers are written. -/
def Provided (storages : List (String × StorageProviderConfig)) (db : MetadataDatabase) : Prop :=
  ∀ entry ∈ storages, ∃ row, db.storageProviders.lookup entry.1 = some row ∧
    DescribesStorage row entry.2

/-- The rows of these mappings are written. -/
def Mapped (repositories : List ServerConfig.RepositoryMapping) (db : MetadataDatabase) : Prop :=
  ∀ repository ∈ repositories, ∃ row,
    db.repositoryMappings.lookup repository.id = some row ∧ DescribesMapping row repository

/-- The second loop. -/
theorem ensures_storage (config : References) (start : MetadataDatabase) :
    Ensures (fun db => Synchronizing config start db ∧ Released config db)
      (config.storageProviders.entries.forM fun entry => (Transaction.execute
        fun moment db => .ok (db.upsertStorageProvider entry.2 moment.now) : Statements Unit))
      fun _ db => (Synchronizing config start db ∧ Released config db) ∧
        Provided config.storageProviders.entries db := by
  refine (Ensures.forM (I := fun done db => (Synchronizing config start db ∧
    Released config db) ∧ Provided done db) fun before entry after hsplit => ?_).mono
      (fun h => ⟨h, nofun⟩) fun h => h
  obtain ⟨id, storage⟩ := entry
  have hmem : (id, storage) ∈ config.storageProviders.entries := by
    rw [hsplit]
    exact List.mem_append_right _ List.mem_cons_self
  have hid : storage.id = id := config.keyed _ hmem
  have hprovided : IsProvided config storage.id :=
    ⟨storage, SortedMap.lookup_eq_some.mpr (hid ▸ hmem)⟩
  refine .execute fun moment db hdb => ⟨_, rfl, ⟨⟨?_, ?_⟩, ?_⟩, ?_⟩
  · exact hdb.1.1.wellFormed.insertProvider _ _
  · exact hdb.1.1.kept.trans (.upsertStorageProvider moment.now hprovided)
  · exact hdb.1.2
  · intro entry hentry
    by_cases hsame : entry.1 = storage.id
    · refine ⟨_, by rw [hsame]; exact AList.lookup_insert _, ?_⟩
      have hentries : entry ∈ config.storageProviders.entries := by
        rw [hsplit]
        rcases List.mem_append.mp hentry with hbefore | hlast
        · exact List.mem_append_left _ hbefore
        · rw [List.mem_singleton.mp hlast]
          exact List.mem_append_right _ List.mem_cons_self
      have heq := SortedMap.eq_of_key_eq hentries hmem (hsame.trans hid)
      rw [heq]
      exact ⟨rfl, rfl, rfl⟩
    · rcases List.mem_append.mp hentry with hbefore | hlast
      · obtain ⟨row, hrow, hdescribes⟩ := hdb.2 entry hbefore
        exact ⟨row, (AList.lookup_insert_ne hsame).trans hrow, hdescribes⟩
      · exact absurd (congrArg Prod.fst (List.mem_singleton.mp hlast)) (hid ▸ hsame)

/-- The third loop. -/
theorem ensures_mappings (hconfig : config.Valid) (start : MetadataDatabase) :
    Ensures (fun db => (Synchronizing config start db ∧ Released config db) ∧
        Provided config.storageProviders.entries db)
      (config.repositories.forM fun repository => (Transaction.execute
        fun moment db => db.upsertRepositoryMapping repository moment.now : Statements Unit))
      fun _ db => ((Synchronizing config start db ∧ Released config db) ∧
        Provided config.storageProviders.entries db) ∧ Mapped config.repositories db := by
  refine (Ensures.forM (I := fun done db => ((Synchronizing config start db ∧
    Released config db) ∧ Provided config.storageProviders.entries db) ∧ Mapped done db)
      fun before repository after hsplit => ?_).mono (fun h => ⟨h, nofun⟩) fun h => h
  have hmem : repository ∈ config.repositories := by
    rw [hsplit]
    exact List.mem_append_right _ List.mem_cons_self
  refine .execute fun moment db hdb => ?_
  obtain ⟨⟨⟨hsync, hreleased⟩, hprovided⟩, hmapped⟩ := hdb
  have hstorage : (db.storageProviders.lookup repository.storageProvider).isSome := by
    obtain ⟨storage, hstorage⟩ := hconfig.storage repository hmem
    obtain ⟨row, hrow, _⟩ := hprovided _ (SortedMap.lookup_eq_some.mp hstorage)
    exact Option.isSome_iff_exists.mpr ⟨row, hrow⟩
  obtain ⟨db', hrun, hwell, hkept, hreleased', hproviders, hwritten, hothers⟩ :=
    upsertRepositoryMapping_spec hsync.wellFormed hconfig hreleased hmem moment.now hstorage
  refine ⟨db', hrun, ⟨⟨⟨hwell, hsync.kept.trans hkept⟩, hreleased'⟩, ?_⟩, ?_⟩
  · intro entry hentry
    rw [hproviders]
    exact hprovided entry hentry
  · intro other hother
    rcases List.mem_append.mp hother with hbefore | hlast
    · have hne : other.id ≠ repository.id := by
        have hnodup := hconfig.nodup
        rw [hsplit, List.map_append, List.map_cons] at hnodup
        exact (List.nodup_append.mp hnodup).2.2 _ (List.mem_map_of_mem hbefore) _
          List.mem_cons_self
      rw [hothers hne]
      exact hmapped other hbefore
    · rw [List.mem_singleton.mp hlast]
      exact hwritten

/-- What a synchronization has done. -/
structure ConfigSynced (config : References) (start db : MetadataDatabase) : Prop where
  /-- Every configured mapping is active, with its route. -/
  mapped : Mapped config.repositories db
  /-- No other mapping is active. -/
  released : Released config db
  /-- An inactive mapping has given up its route. -/
  inactive : ∀ {id row}, db.repositoryMappings.lookup id = some row → row.isActive = false →
    row.routePath = inactiveRoute id
  /-- Every configured storage provider has its row. -/
  provided : Provided config.storageProviders.entries db
  /-- No row is lost. -/
  kept : Kept config start db
  /-- All rows have their parents. -/
  wellFormed : db.WellFormed

/-- An inactive mapping has a released route. -/
theorem WellFormed.inactive (hdb : db.WellFormed) {id : String} {row : RepositoryMappingRow}
    (hrow : db.repositoryMappings.lookup id = some row) (hinactive : row.isActive = false) :
    row.routePath = inactiveRoute id := by
  rcases hdb.form hrow with ⟨hactive, _⟩ | ⟨_, hroute⟩
  · rw [hinactive] at hactive
    cases hactive
  · exact hroute

/-- A synchronization from a well-formed database. -/
theorem syncConfig_settles (hdb : db.WellFormed) (hconfig : config.Valid)
    (turns : ℕ → Except ServerError Moment) :
    Settles turns db (db.syncConfig config turns) fun _ db' => ConfigSynced config db db' := by
  have hsync : Ensures (Synchronizing config db) (syncStatements config)
      fun _ db' => ConfigSynced config db db' := by
    refine (ensures_release config db).bind fun _ => ?_
    refine (ensures_storage config db).bind fun _ => ?_
    refine (ensures_mappings hconfig db).mono (fun h => h) fun {_ db'} h => ?_
    obtain ⟨⟨⟨hsync, hreleased⟩, hprovided⟩, hmapped⟩ := h
    exact ⟨hmapped, hreleased, hsync.wellFormed.inactive, hprovided, hsync.kept,
      hsync.wellFormed⟩
  exact hsync.transact turns ⟨hdb, .refl config db⟩

/-- Two databases with the same rows, apart from the times of their last changes. -/
structure SameButTimes (db db' : MetadataDatabase) : Prop where
  objects : db'.objects = db.objects
  transferAttempts : db'.transferAttempts = db.transferAttempts
  repositoryMappings : ∀ id,
    (db'.repositoryMappings.lookup id).map (fun row => { row with updatedAtUnixSeconds := 0 }) =
      (db.repositoryMappings.lookup id).map fun row => { row with updatedAtUnixSeconds := 0 }
  storageProviders : ∀ id,
    (db'.storageProviders.lookup id).map (fun row => { row with updatedAtUnixSeconds := 0 }) =
      (db.storageProviders.lookup id).map fun row => { row with updatedAtUnixSeconds := 0 }

/-- The rows of a mapping after two synchronizations. -/
theorem ConfigSynced.mapping_again {start : MetadataDatabase} {id : String}
    {row row' : RepositoryMappingRow} (h : ConfigSynced config start db)
    (h' : ConfigSynced config db db') (hrow : db.repositoryMappings.lookup id = some row)
    (hrow' : db'.repositoryMappings.lookup id = some row') :
    { row' with updatedAtUnixSeconds := 0 } = { row with updatedAtUnixSeconds := 0 } := by
  obtain ⟨same, hsame, hcreated, hstable, hhistory⟩ := h'.kept.mapping hrow
  rw [hrow'] at hsame
  cases hsame
  by_cases hid : IsMapped config id
  · obtain ⟨repository, hrepository, rfl⟩ := hid
    obtain ⟨first, hfirst, hdescribes⟩ := h.mapped repository hrepository
    obtain ⟨second, hsecond, hdescribes'⟩ := h'.mapped repository hrepository
    rw [hrow] at hfirst
    rw [hrow'] at hsecond
    cases hfirst
    cases hsecond
    simp only [RepositoryMappingRow.mk.injEq]
    exact ⟨hdescribes'.repoProviderId.trans hdescribes.repoProviderId.symm,
      hdescribes'.host.trans hdescribes.host.symm,
      hdescribes'.owner.trans hdescribes.owner.symm,
      hdescribes'.name.trans hdescribes.name.symm,
      hdescribes'.storageProviderId.trans hdescribes.storageProviderId.symm,
      hdescribes'.routePath.trans hdescribes.routePath.symm, hstable,
      hdescribes'.isActive.trans hdescribes.isActive.symm, hcreated, trivial⟩
  · have hactive : row.isActive = false := by
      rw [Bool.eq_false_iff]
      intro hactive
      obtain ⟨repository, hrepository, hsame, _⟩ := h.released hrow hactive
      exact hid ⟨repository, hrepository, hsame⟩
    have hactive' : row'.isActive = false := by
      rw [Bool.eq_false_iff]
      intro hactive'
      obtain ⟨repository, hrepository, hsame, _⟩ := h'.released hrow' hactive'
      exact hid ⟨repository, hrepository, hsame⟩
    have hroute := (h'.inactive hrow' hactive').trans (h.inactive hrow hactive).symm
    have hrest := hhistory hid
    simp only [history, RepositoryMappingRow.mk.injEq] at hrest ⊢
    obtain ⟨h₁, h₂, h₃, h₄, h₅, _, h₇, _, h₉, _⟩ := hrest
    exact ⟨h₁, h₂, h₃, h₄, h₅, hroute, h₇, hactive'.trans hactive.symm, h₉, trivial⟩

/-- The rows of a storage provider after two synchronizations. -/
theorem ConfigSynced.provider_again {start : MetadataDatabase} {id : String}
    {row row' : StorageProviderRow} (h : ConfigSynced config start db)
    (h' : ConfigSynced config db db') (hrow : db.storageProviders.lookup id = some row)
    (hrow' : db'.storageProviders.lookup id = some row') :
    { row' with updatedAtUnixSeconds := 0 } = { row with updatedAtUnixSeconds := 0 } := by
  obtain ⟨same, hsame, hcreated, hrest⟩ := h'.kept.provider hrow
  rw [hrow'] at hsame
  cases hsame
  by_cases hid : IsProvided config id
  · obtain ⟨storage, hstorage⟩ := hid
    have hentry := SortedMap.lookup_eq_some.mp hstorage
    obtain ⟨first, hfirst, hdescribes⟩ := h.provided _ hentry
    obtain ⟨second, hsecond, hdescribes'⟩ := h'.provided _ hentry
    rw [hrow] at hfirst
    rw [hrow'] at hsecond
    cases hfirst
    cases hsecond
    simp only [StorageProviderRow.mk.injEq]
    exact ⟨hdescribes'.providerType.trans hdescribes.providerType.symm,
      hdescribes'.backendRootId.trans hdescribes.backendRootId.symm,
      hdescribes'.displayName.trans hdescribes.displayName.symm, hcreated, trivial⟩
  · rw [hrest hid]

/-- A second synchronization changes nothing but times. -/
theorem ConfigSynced.again {start : MetadataDatabase} (h : ConfigSynced config start db)
    (h' : ConfigSynced config db db') : SameButTimes db db' where
  objects := h'.kept.objects
  transferAttempts := h'.kept.transferAttempts
  repositoryMappings := by
    intro id
    cases hrow : db.repositoryMappings.lookup id with
    | some row =>
      obtain ⟨row', hrow', _⟩ := h'.kept.mapping hrow
      rw [hrow']
      exact congrArg some (h.mapping_again h' hrow hrow')
    | none =>
      cases hrow' : db'.repositoryMappings.lookup id with
      | none => rfl
      | some row' =>
        obtain ⟨_, repository, hrepository, rfl⟩ := h'.kept.newMapping hrow hrow'
        obtain ⟨row, hfound, _⟩ := h.mapped repository hrepository
        rw [hrow] at hfound
        cases hfound
  storageProviders := by
    intro id
    cases hrow : db.storageProviders.lookup id with
    | some row =>
      obtain ⟨row', hrow', _⟩ := h'.kept.provider hrow
      rw [hrow']
      exact congrArg some (h.provider_again h' hrow hrow')
    | none =>
      cases hrow' : db'.storageProviders.lookup id with
      | none => rfl
      | some row' =>
        obtain ⟨storage, hstorage⟩ := h'.kept.newProvider hrow hrow'
        obtain ⟨row, hfound, _⟩ := h.provided _ (SortedMap.lookup_eq_some.mp hstorage)
        rw [hrow] at hfound
        cases hfound

theorem wellFormed_new : WellFormed .new where
  unique := by
    intro _ _ _ _ h
    cases h
  form := by
    intro _ _ h
    cases h
  storage := by
    intro _ _ h
    cases h
  objects := by
    intro _ _ h
    cases h
  transferAttempts := by
    intro _ _ h
    cases h

/-- A write of object rows whose parents are there. -/
theorem WellFormed.withObjects (hdb : db.WellFormed) {result : Except ServerError MetadataObjects}
    (h : ∀ {objects}, result = .ok objects → ∀ {key record},
      objects.rows.lookup key = some record → db.HasParents key) :
    (db.withObjects result).WellFormed := by
  cases result with
  | error _ => exact hdb
  | ok objects => exact ⟨hdb.unique, hdb.form, hdb.storage, h rfl, hdb.transferAttempts⟩

/-- A write of transfer rows whose parents are there. -/
theorem WellFormed.withTransferAttempts (hdb : db.WellFormed)
    {result : Except ServerError TransferAttempts}
    (h : ∀ {attempts}, result = .ok attempts → ∀ {id row},
      attempts.rows.lookup id = some row → db.HasParents row.key) :
    (db.withTransferAttempts result).WellFormed := by
  cases result with
  | error _ => exact hdb
  | ok attempts => exact ⟨hdb.unique, hdb.form, hdb.storage, hdb.objects, h rfl⟩

theorem exists_of_map_snd_eq_ok {ε α β : Type} {result : Except ε (α × β)} {b : β}
    (h : result.map Prod.snd = .ok b) : ∃ a, result = .ok (a, b) := by
  cases result with
  | error _ => cases h
  | ok p =>
    cases Except.ok.inj h
    exact ⟨p.1, rfl⟩

/-- Every write keeps the database well formed. -/
theorem WellFormed.write (hdb : db.WellFormed) (write : MetadataWrite)
    (hvalid : ∀ config turns, write = .syncConfig config turns → config.Valid) :
    (db.write write).WellFormed := by
  cases write with
  | syncConfig config turns =>
    exact ((syncConfig_settles hdb (hvalid config turns rfl) turns).mono
      fun h => h.wellFormed).state hdb
  | recordVerifiedObject key backendId creatorIfMissing now =>
    rw [MetadataDatabase.write]
    split
    next hparents =>
      refine hdb.withObjects fun {objects} hresult {key' record} hrecord => ?_
      rw [MetadataObjects.recordVerified_of_ok hresult] at hrecord
      by_cases hkey : key' = key
      · rwa [hkey]
      · rw [(MetadataObjects.keeps_recordVerified _ _ _ _ _).other key' hkey] at hrecord
        exact hdb.objects hrecord
    next => exact hdb
  | markObjectStale key expectedBackendId =>
    refine hdb.withObjects fun {objects} hresult {key' record} hrecord => ?_
    obtain ⟨marked, hresult⟩ := exists_of_map_snd_eq_ok hresult
    rw [MetadataObjects.markStale_of_ok hresult] at hrecord
    by_cases hkey : key' = key
    · rw [hkey] at hrecord ⊢
      obtain ⟨old, hold, _⟩ := MetadataObjects.lookup_markStale hrecord
      exact hdb.objects hold
    · rw [(MetadataObjects.keeps_markStale _ _ _).other key' hkey] at hrecord
      exact hdb.objects hrecord
  | startTransferAttempt key =>
    rw [MetadataDatabase.write]
    split
    next hparents =>
      refine hdb.withTransferAttempts fun {attempts} hresult {id row} hrow => ?_
      obtain ⟨attemptId, hresult⟩ := exists_of_map_snd_eq_ok hresult
      rw [(TransferAttempts.startTransferAttempt_eq_ok hresult).2.1] at hrow
      rcases Table.lookup_insert_eq_some.mp hrow with ⟨_, rfl⟩ | ⟨_, hrow⟩
      · exact hparents
      · exact hdb.transferAttempts hrow
    next => exact hdb
  | finishTransferAttempt attemptId result =>
    refine hdb.withTransferAttempts fun {attempts} hresult {id row} hrow => ?_
    obtain ⟨old, hold, _, hrows, _⟩ := TransferAttempts.finishTransferAttempt_eq_ok hresult
    rw [hrows] at hrow
    rcases Table.lookup_insert_eq_some.mp hrow with ⟨_, rfl⟩ | ⟨_, hrow⟩
    · have hparents := hdb.transferAttempts hold
      exact hparents
    · exact hdb.transferAttempts hrow

/-- Every reachable database is well formed. -/
theorem wellFormed_of_reachable {debug : String → String}
    (h : (metadataSystem debug).Reachable db) : db.WellFormed := by
  refine Transition.System.Reachable.invariant (P := WellFormed) ?_ ?_ h
  · rintro _ rfl
    exact wellFormed_new
  · rintro db write _ _ hdb ⟨rfl, hvalid⟩
    exact hdb.write write fun config turns hwrite =>
      References.valid_of_validateReferences (hvalid config turns hwrite)

/-- In every reachable database a synchronization with a checked configuration succeeds, unless
a fault from outside stops one of its statements, which leaves the database as it was.
Afterwards the rows are those of the configuration, no row is lost, and synchronizing once more
changes nothing but times. -/
theorem sync_config_correct (debug : String → String)
    (hdb : (metadataSystem debug).Reachable db)
    (hconfig : config.validateReferences debug = .ok ()) (turns : ℕ → Except ServerError Moment) :
    Settles turns db (db.syncConfig config turns) (fun _ db' => ConfigSynced config db db' ∧
      ∀ turns', Settles turns' db' (db'.syncConfig config turns') fun _ db'' =>
        SameButTimes db' db'') ∧
    ((∀ n e, turns n ≠ .error e) → (db.syncConfig config turns).1 = .ok ()) := by
  have hvalid := References.valid_of_validateReferences hconfig
  have hsettles := syncConfig_settles (wellFormed_of_reachable hdb) hvalid turns
  refine ⟨hsettles.mono fun {_ db'} hsynced => ⟨hsynced, fun turns' => ?_⟩, fun hturns => ?_⟩
  · exact (syncConfig_settles hsynced.wellFormed hvalid turns').mono hsynced.again
  · obtain ⟨_, hsuccess⟩ := hsettles.succeeds hturns
    exact hsuccess

/-- A mapping of an owner's repository. -/
def ownerMapping (id name : String) : ServerConfig.RepositoryMapping :=
  ⟨id, "github-main", "github.com", "owner", name, "8675309", "drive-user-a"⟩

/-- Two mappings to repositories with the given names. -/
def twoMappings (name name' : String) : References where
  repositoryProviders := SortedMap.empty.insert "github-main" (.gitHub "github-main")
  storageProviders :=
    SortedMap.empty.insert "drive-user-a" (.googleDrive "drive-user-a" "drive-root" none)
  repositories := [ownerMapping "first" name, ownerMapping "second" name']
  keyed := by
    intro entry hentry
    rcases SortedMap.mem_insert.mp hentry with rfl | ⟨hold, _⟩
    · rfl
    · cases hold

theorem validateReferences_twoMappings {name name' : String}
    (h : (ownerMapping "second" name').routePath.toLower ≠
      (ownerMapping "first" name).routePath.toLower) :
    (twoMappings name name').validateReferences id = .ok () := by
  have hprovider : (twoMappings name name').repositoryProviders.lookup "github-main" =
      some (.gitHub "github-main") := rfl
  have hstorage : (twoMappings name name').storageProviders.lookup "drive-user-a" =
      some (.googleDrive "drive-user-a" "drive-root" none) := rfl
  have hnumber : ((parseU64 "8675309".toList).filter (0 < ·)).isSome = true := by
    decide
  have hmapping : ∀ id name path, (ServerConfig.RepositoryProviderConfig.gitHub
      "github-main").validateMapping (ownerMapping id name) path = .ok () :=
    fun _ _ _ => if_pos hnumber
  have hid : "second" ∉ ["first"] := by
    decide
  refine (References.validateFrom_cons hprovider (hmapping _ _ _) hstorage List.not_mem_nil
    List.not_mem_nil).trans ?_
  refine (References.validateFrom_cons hprovider (hmapping _ _ _) hstorage hid ?_).trans rfl
  rw [References.routeComparisonKey_eq, References.routeComparisonKey_eq]
  exact fun hmem => h (List.mem_singleton.mp hmem)

/-- Statements that succeed at time zero. -/
def quietTurns : ℕ → Except ServerError Moment := fun _ =>
  .ok ⟨0, fun table => table.entries.map fun e => (e.1, e.2.routePath), fun _ => .refl _⟩

/-- Two mappings exchange their routes. -/
theorem sync_config_swap :
    ∃ db', (new.write (.syncConfig (twoMappings "a" "b") quietTurns)).syncConfig
        (twoMappings "b" "a") quietTurns = (.ok (), db') ∧
      ConfigSynced (twoMappings "b" "a")
        (new.write (.syncConfig (twoMappings "a" "b") quietTurns)) db' := by
  have hne : (ownerMapping "second" "a").routePath.toLower ≠
      (ownerMapping "first" "b").routePath.toLower := by
    intro h
    have htext := congrArg String.toList h
    change (String.map _ _).toList = (String.map _ _).toList at htext
    rw [String.toList_map, String.toList_map] at htext
    revert htext
    decide
  have hfirst : (twoMappings "a" "b").validateReferences id = .ok () :=
    validateReferences_twoMappings fun h => by
      have htext := congrArg String.toList h
      change (String.map _ _).toList = (String.map _ _).toList at htext
      rw [String.toList_map, String.toList_map] at htext
      revert htext
      decide
  have hreach : (metadataSystem id).Reachable
      (new.write (.syncConfig (twoMappings "a" "b") quietTurns)) := by
    refine (Transition.System.Reachable.init rfl).step ⟨rfl, ?_⟩
    rintro config turns ⟨⟩
    exact hfirst
  rcases (sync_config_correct id hreach (validateReferences_twoMappings hne) quietTurns).1 with
    ⟨_, db', hsuccess, hsynced, _⟩ | ⟨e, m, _, hfault⟩
  · exact ⟨db', hsuccess, hsynced⟩
  · cases hfault

end MetadataDatabase

end LfsCloud
