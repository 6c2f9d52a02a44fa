import LfsCloud.Metadata.ConfigSync

/-!
# What a synchronization does

In every reachable database an active mapping has a route of the form that configurations
give, and an inactive one has a route that only itself can have. So the release of a route
breaks no constraint; and once all routes that the configuration does not keep are released,
no row is in the way of a configured mapping.
-/

namespace LfsCloud

open ServerConfig (References StorageProviderConfig)
open Transaction (Ensures Settles)

namespace MetadataDatabase

/-- A route as configurations give it. -/
def IsConfigured (route : String) : Prop := route.toList.head? = some '/'

/-- What a row says of its route. -/
def RouteForm (id : String) (row : RepositoryMappingRow) : Prop :=
  (row.isActive = true ∧ IsConfigured row.routePath) ∨
    (row.isActive = false ∧ row.routePath = inactiveRoute id)

/-- What holds of the metadata database at all times. -/
structure WellFormed (db : MetadataDatabase) : Prop where
  unique : ∀ {id id' row row'}, db.repositoryMappings.lookup id = some row →
    db.repositoryMappings.lookup id' = some row' → row.routePath = row'.routePath → id = id'
  form : ∀ {id row}, db.repositoryMappings.lookup id = some row → RouteForm id row
  storage : ∀ {id row}, db.repositoryMappings.lookup id = some row →
    (db.storageProviders.lookup row.storageProviderId).isSome
  objects : ∀ {key record}, db.objects.rows.lookup key = some record → db.HasParents key
  transferAttempts : ∀ {id row}, db.transferAttempts.rows.lookup id = some row →
    db.HasParents row.key

theorem inactiveRoute_toList (id : String) :
    (inactiveRoute id).toList = "inactive:".toList ++ id.toList := String.toList_append

/-- A released route names its mapping. -/
theorem inactiveRoute_inj {id id' : String} (h : inactiveRoute id = inactiveRoute id') :
    id = id' := by
  have htext := congrArg String.toList h
  rw [inactiveRoute_toList, inactiveRoute_toList] at htext
  exact String.toList_inj.mp (List.append_cancel_left htext)

/-- A released route is in nobody's way. -/
theorem not_isConfigured_inactiveRoute (id : String) : ¬IsConfigured (inactiveRoute id) := by
  have hhead : ("inactive:".toList ++ id.toList).head? = some 'i' := rfl
  unfold IsConfigured
  rw [inactiveRoute_toList, hhead]
  decide

theorem isConfigured_routePath (repository : ServerConfig.RepositoryMapping) :
    IsConfigured repository.routePath := by
  unfold IsConfigured ServerConfig.RepositoryMapping.routePath
  simp only [String.toList_append, List.append_assoc]
  rfl

variable {db db' db'' : MetadataDatabase} {config : References}

/-- A write of a mapping whose route nobody else has. -/
theorem writeMapping_eq_ok {id : String} {row : RepositoryMappingRow}
    (hfree : ∀ {id' row'}, db.repositoryMappings.lookup id' = some row' →
      row'.routePath = row.routePath → id' = id) :
    db.writeMapping id row =
      .ok { db with repositoryMappings := db.repositoryMappings.insert id row } := by
  unfold writeMapping
  rw [if_neg]
  intro htaken
  obtain ⟨e, he, htest⟩ := List.any_eq_true.mp htaken
  rw [Bool.and_eq_true, bne_iff_ne, beq_iff_eq] at htest
  exact htest.1 (hfree (AList.mem_lookup_iff.mpr he) htest.2)

/-- Keys are not lost: the parents of a row stay. -/
theorem HasParents.mono {key : MetadataObjectKey} (h : db.HasParents key)
    (hmapping : ∀ {id}, (db.repositoryMappings.lookup id).isSome →
      (db'.repositoryMappings.lookup id).isSome)
    (hstorage : ∀ {id}, (db.storageProviders.lookup id).isSome →
      (db'.storageProviders.lookup id).isSome) : db'.HasParents key :=
  ⟨hmapping h.1, hstorage h.2⟩

theorem isSome_lookup_insert {ν : Type} {table : Table String ν} {id id' : String} {row : ν}
    (h : (table.lookup id').isSome) : ((table.insert id row).lookup id').isSome := by
  by_cases hid : id' = id
  · rw [hid, AList.lookup_insert]
    rfl
  · rwa [AList.lookup_insert_ne hid]

/-- The write of a mapping under the constraints. -/
theorem WellFormed.insertMapping (hdb : db.WellFormed) {id : String} {row : RepositoryMappingRow}
    (hfree : ∀ {id' row'}, db.repositoryMappings.lookup id' = some row' →
      row'.routePath = row.routePath → id' = id)
    (hform : RouteForm id row)
    (hstorage : (db.storageProviders.lookup row.storageProviderId).isSome) :
    WellFormed { db with repositoryMappings := db.repositoryMappings.insert id row } where
  unique := by
    intro id₁ id₂ row₁ row₂ h₁ h₂ hroute
    rcases Table.lookup_insert_eq_some.mp h₁ with ⟨hid₁, hrow₁⟩ | ⟨_, hold₁⟩ <;>
      rcases Table.lookup_insert_eq_some.mp h₂ with ⟨hid₂, hrow₂⟩ | ⟨_, hold₂⟩
    · rw [hid₁, hid₂]
    · rw [hid₁, hfree hold₂ (hrow₁ ▸ hroute.symm)]
    · rw [hid₂, hfree hold₁ (hrow₂ ▸ hroute)]
    · exact hdb.unique hold₁ hold₂ hroute
  form := by
    intro id' row' h
    rcases Table.lookup_insert_eq_some.mp h with ⟨rfl, rfl⟩ | ⟨_, h⟩
    · exact hform
    · exact hdb.form h
  storage := by
    intro id' row' h
    rcases Table.lookup_insert_eq_some.mp h with ⟨rfl, rfl⟩ | ⟨_, h⟩
    · exact hstorage
    · exact hdb.storage h
  objects := fun h => (hdb.objects h).mono isSome_lookup_insert fun h => h
  transferAttempts := fun h => (hdb.transferAttempts h).mono isSome_lookup_insert fun h => h

/-- The write of a storage provider. -/
theorem WellFormed.insertProvider (hdb : db.WellFormed) (id : String)
    (row : StorageProviderRow) :
    WellFormed { db with storageProviders := db.storageProviders.insert id row } where
  unique := hdb.unique
  form := hdb.form
  storage := fun h => isSome_lookup_insert (hdb.storage h)
  objects := fun h => (hdb.objects h).mono (fun h => h) isSome_lookup_insert
  transferAttempts := fun h => (hdb.transferAttempts h).mono (fun h => h) isSome_lookup_insert

/-- The configuration has a mapping with the identifier. -/
def IsMapped (config : References) (id : String) : Prop :=
  ∃ repository ∈ config.repositories, repository.id = id

/-- The configuration has a storage provider with the identifier. -/
def IsProvided (config : References) (id : String) : Prop :=
  ∃ storage, config.storageProviders.lookup id = some storage

/-- A row apart from its route, whether it is active, and the time of its last change. -/
def history (row : RepositoryMappingRow) : RepositoryMappingRow :=
  { row with routePath := "", isActive := false, updatedAtUnixSeconds := 0 }

/-- What the statements of a synchronization leave alone: the rows of objects and transfers,
all rows that are there already, and what the configuration does not speak of. -/
structure Kept (config : References) (db db' : MetadataDatabase) : Prop where
  objects : db'.objects = db.objects
  transferAttempts : db'.transferAttempts = db.transferAttempts
  mapping : ∀ {id row}, db.repositoryMappings.lookup id = some row →
    ∃ row', db'.repositoryMappings.lookup id = some row' ∧
      row'.createdAtUnixSeconds = row.createdAtUnixSeconds ∧
      row'.providerStableId = row.providerStableId ∧
      (¬IsMapped config id → history row' = history row)
  newMapping : ∀ {id row'}, db.repositoryMappings.lookup id = none →
    db'.repositoryMappings.lookup id = some row' →
    row'.providerStableId = none ∧ IsMapped config id
  provider : ∀ {id row}, db.storageProviders.lookup id = some row →
    ∃ row', db'.storageProviders.lookup id = some row' ∧
      row'.createdAtUnixSeconds = row.createdAtUnixSeconds ∧
      (¬IsProvided config id → row' = row)
  newProvider : ∀ {id row'}, db.storageProviders.lookup id = none →
    db'.storageProviders.lookup id = some row' → IsProvided config id

theorem Kept.refl (config : References) (db : MetadataDatabase) : Kept config db db where
  objects := rfl
  transferAttempts := rfl
  mapping := fun h => ⟨_, h, rfl, rfl, fun _ => rfl⟩
  newMapping := fun hnone h => by rw [hnone] at h; cases h
  provider := fun h => ⟨_, h, rfl, fun _ => rfl⟩
  newProvider := fun hnone h => by rw [hnone] at h; cases h

theorem Kept.trans (h : Kept config db db') (h' : Kept config db' db'') :
    Kept config db db'' where
  objects := h'.objects.trans h.objects
  transferAttempts := h'.transferAttempts.trans h.transferAttempts
  mapping := by
    intro id row hrow
    obtain ⟨row', hrow', hcreated, hstable, hhistory⟩ := h.mapping hrow
    obtain ⟨row'', hrow'', hcreated', hstable', hhistory'⟩ := h'.mapping hrow'
    exact ⟨row'', hrow'', hcreated'.trans hcreated, hstable'.trans hstable,
      fun hid => (hhistory' hid).trans (hhistory hid)⟩
  newMapping := by
    intro id row'' hnone hrow''
    cases hmiddle : db'.repositoryMappings.lookup id with
    | none => exact h'.newMapping hmiddle hrow''
    | some row' =>
      obtain ⟨hstable, hid⟩ := h.newMapping hnone hmiddle
      obtain ⟨other, hother, _, hstable', _⟩ := h'.mapping hmiddle
      rw [hrow''] at hother
      cases hother
      exact ⟨hstable'.trans hstable, hid⟩
  provider := by
    intro id row hrow
    obtain ⟨row', hrow', hcreated, hsame⟩ := h.provider hrow
    obtain ⟨row'', hrow'', hcreated', hsame'⟩ := h'.provider hrow'
    exact ⟨row'', hrow'', hcreated'.trans hcreated,
      fun hid => (hsame' hid).trans (hsame hid)⟩
  newProvider := by
    intro id row'' hnone hrow''
    cases hmiddle : db'.storageProviders.lookup id with
    | none => exact h'.newProvider hmiddle hrow''
    | some row' => exact h.newProvider hnone hmiddle

/-- The write of a mapping keeps the rest. -/
theorem Kept.insertMapping {id : String} {row : RepositoryMappingRow}
    (hold : ∀ {old}, db.repositoryMappings.lookup id = some old →
      row.createdAtUnixSeconds = old.createdAtUnixSeconds ∧
        row.providerStableId = old.providerStableId ∧
        (¬IsMapped config id → history row = history old))
    (hnew : db.repositoryMappings.lookup id = none →
      row.providerStableId = none ∧ IsMapped config id) :
    Kept config db { db with repositoryMappings := db.repositoryMappings.insert id row } where
  objects := rfl
  transferAttempts := rfl
  mapping := by
    intro id' row' h
    by_cases hid : id' = id
    · subst hid
      exact ⟨row, AList.lookup_insert _, hold h⟩
    · exact ⟨row', (AList.lookup_insert_ne hid).trans h, rfl, rfl, fun _ => rfl⟩
  newMapping := by
    intro id' row' hnone h
    rcases Table.lookup_insert_eq_some.mp h with ⟨rfl, rfl⟩ | ⟨_, h⟩
    · exact hnew hnone
    · rw [hnone] at h
      cases h
  provider := fun h => ⟨_, h, rfl, fun _ => rfl⟩
  newProvider := fun hnone h => by rw [hnone] at h; cases h

/-- The write of a storage provider of the configuration keeps the rest. -/
theorem Kept.upsertStorageProvider {storage : StorageProviderConfig} (now : ℤ)
    (hstorage : IsProvided config storage.id) :
    Kept config db (db.upsertStorageProvider storage now) where
  objects := rfl
  transferAttempts := rfl
  mapping := fun h => ⟨_, h, rfl, rfl, fun _ => rfl⟩
  newMapping := fun hnone h => by
    rw [show (db.upsertStorageProvider storage now).repositoryMappings =
      db.repositoryMappings from rfl, hnone] at h
    cases h
  provider := by
    intro id row h
    by_cases hid : id = storage.id
    · subst hid
      refine ⟨_, AList.lookup_insert _, ?_, fun hnot => absurd hstorage hnot⟩
      rw [h]
    · exact ⟨row, (AList.lookup_insert_ne hid).trans h, rfl, fun _ => rfl⟩
  newProvider := by
    intro id row hnone h
    rcases Table.lookup_insert_eq_some.mp h with ⟨rfl, _⟩ | ⟨_, h⟩
    · exact hstorage
    · rw [hnone] at h
      cases h

/-- Every active mapping is one of the configuration, with the route that it has there. -/
def Released (config : References) (db : MetadataDatabase) : Prop :=
  ∀ {id row}, db.repositoryMappings.lookup id = some row → row.isActive = true →
    ∃ repository ∈ config.repositories, repository.id = id ∧ repository.routePath = row.routePath

/-- The row says of the storage provider what the configuration says. -/
structure DescribesStorage (row : StorageProviderRow)
    (storage : StorageProviderConfig) : Prop where
  providerType : row.providerType = storage.providerType
  backendRootId : row.backendRootId = storage.backendRootId
  displayName : row.displayName = storage.displayName

/-- The row is active, and says of the mapping what the configuration says. -/
structure DescribesMapping (row : RepositoryMappingRow)
    (repository : ServerConfig.RepositoryMapping) : Prop where
  repoProviderId : row.repoProviderId = repository.repoProvider
  host : row.host = repository.host
  owner : row.owner = repository.owner
  name : row.name = repository.name
  storageProviderId : row.storageProviderId = repository.storageProvider
  routePath : row.routePath = repository.routePath
  isActive : row.isActive = true

/-- The release of a route. -/
theorem releaseRoute_spec (config : References) (hdb : db.WellFormed) (id : String) (now : ℤ) :
    ∃ db', db.releaseRoute id now = .ok db' ∧ db'.WellFormed ∧ Kept config db db' ∧
      ∀ {id' row}, db'.repositoryMappings.lookup id' = some row → row.isActive = true →
        id' ≠ id ∧ db.repositoryMappings.lookup id' = some row := by
  unfold releaseRoute
  cases hold : db.repositoryMappings.lookup id with
  | none =>
    refine ⟨db, rfl, hdb, .refl config db, fun {id' row} hrow _ => ⟨?_, hrow⟩⟩
    rintro rfl
    rw [hold] at hrow
    cases hrow
  | some old =>
    dsimp only
    split
    next =>
      have hfree : ∀ {id' row'}, db.repositoryMappings.lookup id' = some row' →
          row'.routePath = inactiveRoute id → id' = id := by
        intro id' row' hrow' hroute
        rcases hdb.form hrow' with ⟨_, hconfigured⟩ | ⟨_, hreleased⟩
        · rw [hroute] at hconfigured
          exact absurd hconfigured (not_isConfigured_inactiveRoute id)
        · exact inactiveRoute_inj (hreleased.symm.trans hroute)
      have hstorage := hdb.storage hold
      refine ⟨_, writeMapping_eq_ok hfree, hdb.insertMapping hfree (.inr ⟨rfl, rfl⟩) hstorage,
        .insertMapping ?_ ?_, ?_⟩
      · intro old' hold'
        rw [hold] at hold'
        cases hold'
        exact ⟨rfl, rfl, fun _ => rfl⟩
      · intro hnone
        rw [hold] at hnone
        cases hnone
      · intro id' row hrow hactive
        rcases Table.lookup_insert_eq_some.mp hrow with ⟨_, rfl⟩ | hrow
        · cases hactive
        · exact hrow
    next hreleased =>
      refine ⟨db, rfl, hdb, .refl config db, fun {id' row} hrow hactive => ⟨?_, hrow⟩⟩
      rintro rfl
      rw [hold] at hrow
      cases hrow
      exact hreleased (.inr hactive)

/-- The write of a configured mapping, once the routes are released. -/
theorem upsertRepositoryMapping_spec (hdb : db.WellFormed) (hconfig : config.Valid)
    (hreleased : Released config db) {repository : ServerConfig.RepositoryMapping}
    (hrepository : repository ∈ config.repositories) (now : ℤ)
    (hstorage : (db.storageProviders.lookup repository.storageProvider).isSome) :
    ∃ db', db.upsertRepositoryMapping repository now = .ok db' ∧ db'.WellFormed ∧
      Kept config db db' ∧ Released config db' ∧ db'.storageProviders = db.storageProviders ∧
      (∃ row, db'.repositoryMappings.lookup repository.id = some row ∧
        DescribesMapping row repository) ∧
      ∀ {id}, id ≠ repository.id →
        db'.repositoryMappings.lookup id = db.repositoryMappings.lookup id := by
  have hfree : ∀ {id' row'}, db.repositoryMappings.lookup id' = some row' →
      row'.routePath = repository.routePath → id' = repository.id := by
    intro id' row' hrow' hroute
    rcases hdb.form hrow' with ⟨hactive, _⟩ | ⟨_, hinactive⟩
    · obtain ⟨other, hother, hid, hsame⟩ := hreleased hrow' hactive
      rw [← hid, hconfig.route_inj other hother repository hrepository (hsame.trans hroute)]
    · refine absurd (isConfigured_routePath repository) ?_
      rw [← hroute, hinactive]
      exact not_isConfigured_inactiveRoute id'
  unfold upsertRepositoryMapping
  rw [if_neg (by rwa [Option.isNone_iff_eq_none, ← ne_eq, ← Option.isSome_iff_ne_none])]
  refine ⟨_, writeMapping_eq_ok hfree,
    hdb.insertMapping hfree (.inl ⟨rfl, isConfigured_routePath repository⟩) hstorage,
    .insertMapping ?_ ?_, ?_, rfl,
    ⟨_, AList.lookup_insert _, ⟨rfl, rfl, rfl, rfl, rfl, rfl, rfl⟩⟩,
    fun hid => AList.lookup_insert_ne hid⟩
  · intro old hold
    refine ⟨?_, ?_, fun hnot => absurd ⟨repository, hrepository, rfl⟩ hnot⟩
    · rw [hold]
      rfl
    · rw [hold]
      rfl
  · intro hnone
    refine ⟨?_, repository, hrepository, rfl⟩
    rw [hnone]
    rfl
  · intro id row hrow hactive
    rcases Table.lookup_insert_eq_some.mp hrow with ⟨rfl, rfl⟩ | ⟨_, hrow⟩
    · exact ⟨repository, hrepository, rfl, rfl⟩
    · exact hreleased hrow hactive

end MetadataDatabase

end LfsCloud
