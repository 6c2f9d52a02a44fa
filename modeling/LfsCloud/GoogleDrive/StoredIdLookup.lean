import LfsCloud.GoogleDrive.DriveContents
import LfsCloud.Lib.Results

/-!
# Stored identifiers and searches

An object that is found by the identifier stored for it is among the files that the search
accepts. An identifier of anything else is answered with nothing, unless the answer cannot
be read, or the file is the object but for its size.
-/

namespace LfsCloud

/-- The address of an object in a store. -/
def GoogleDriveObjectStore.key (store : GoogleDriveObjectStore) (object : LfsObject) :
    GoogleDriveObjectKey :=
  ⟨store.repoNamespace, object⟩

variable {api : DriveApi} {whole : DriveFileResource → Bool} {d : DriveContents}
  {store : GoogleDriveObjectStore} {sha256Hex : String → String} {object : LfsObject}
  {key : GoogleDriveObjectKey} {id : DriveFileId} {file : DriveFile} {backendId : String}

@[simp] theorem GoogleDriveObjectStore.objectKey_eq :
    store.objectKey object = .ok (store.key object) := by
  unfold objectKey GoogleDriveObjectKey.new
  rw [store.valid]
  rfl

/-- A folder of the shard of an object. -/
def DriveContents.ShardFolder (d : DriveContents) (store : GoogleDriveObjectStore)
    (key : GoogleDriveObjectKey) (folder : DriveFileId) : Prop :=
  ∃ file, d.files.lookup folder = some file ∧ file.IsShardFolder store.rootFolderId key

/-- A file that is in the root folder, or in a folder of the shard. -/
def DriveFile.InPlace (file : DriveFile) (d : DriveContents) (store : GoogleDriveObjectStore)
    (key : GoogleDriveObjectKey) : Prop :=
  ∃ parent ∈ file.parents, parent.text = store.rootFolderId ∨ d.ShardFolder store key parent

/-- No file has the identifier, or one that is trashed, or that is of another namespace or
object, or in another folder. -/
def DriveContents.Foreign (d : DriveContents) (sha256Hex : String → String)
    (store : GoogleDriveObjectStore) (object : LfsObject) (backendId : String) : Prop :=
  ∀ id file, id.text = backendId → d.files.lookup id = some file →
    ¬(file.IsObject sha256Hex (store.key object) ∧ file.InPlace d store (store.key object))

/-- The identifier is visible and no dot segment. The file with the identifier can be read
whole. If it has the name and the properties of the object it has the size, and another
folder that it is in can be read whole. -/
def DriveContents.Readable (d : DriveContents) (whole : DriveFileResource → Bool)
    (sha256Hex : String → String) (store : GoogleDriveObjectStore) (object : LfsObject)
    (backendId : String) : Prop :=
  Text.isBlank backendId = false ∧ pathSegments [backendId] = [backendId] ∧
    ∀ id file, id.text = backendId → d.files.lookup id = some file →
      whole (file.resource id objectMetadataFields) = true ∧
        (file.IsObject sha256Hex (store.key object) → file.HasSize object ∧
          ∀ parent parentFile, file.parents = [parent] → parent.text ≠ store.rootFolderId →
            d.files.lookup parent = some parentFile →
              whole (parentFile.resource parent shardFolderFields) = true)

/-- A visible identifier is asked for. -/
theorem requireDriveIdentifier_eq_ok {value label : String} (h : Text.isBlank value = false) :
    requireDriveIdentifier value label = .ok () := by
  unfold requireDriveIdentifier
  rw [h]
  rfl

/-- A resource that can be read. -/
theorem readDriveResource_ok {α : Type} (storage : GoogleDriveStorageConfig) (invalid : String)
    (body : α) (diagnostic : DriveDiagnostic) :
    readDriveResource storage invalid ⟨200, some body, diagnostic⟩ = .ok body := by
  unfold readDriveResource
  exact if_pos rfl

section Serves

variable (hserves : DriveServes api whole d)
include hserves

/-- What is not there is no folder of the shard. -/
theorem shardFolderIdMatchesKey_missing {parent : DriveFileId}
    (h : d.files.lookup parent = none) :
    store.shardFolderIdMatchesKey api parent.text key = .ok false := by
  have hmissing : ∀ id file, d.files.lookup id = some file → id.text ≠ parent.text := by
    rintro id file hfile htext
    have hsame : id = parent := by
      obtain ⟨_, _, _⟩ := id
      obtain ⟨_, _, _⟩ := parent
      simp only at htext
      subst htext
      rfl
    rw [hsame, h] at hfile
    cases hfile
  obtain ⟨body, diagnostic, hget⟩ := hserves.missing parent.text shardFolderFields hmissing
  unfold GoogleDriveObjectStore.shardFolderIdMatchesKey
  rw [requireDriveIdentifier_eq_ok parent.visible, parent.segment, hget]
  rfl

variable (store key) in
/-- A folder that can be read is told by its properties. -/
theorem shardFolderIdMatchesKey_found {parent : DriveFileId}
    (h : d.files.lookup parent = some file)
    (hwhole : whole (file.resource parent shardFolderFields) = true) :
    (file.IsShardFolder store.rootFolderId key →
      store.shardFolderIdMatchesKey api parent.text key = .ok true) ∧
    (¬file.IsShardFolder store.rootFolderId key →
      store.shardFolderIdMatchesKey api parent.text key = .ok false) := by
  obtain ⟨diagnostic, hget⟩ := hserves.found parent file shardFolderFields h
  rw [if_pos hwhole] at hget
  unfold GoogleDriveObjectStore.shardFolderIdMatchesKey
  rw [requireDriveIdentifier_eq_ok parent.visible, parent.segment, hget]
  constructor
  · intro hfolder
    have hverified := hfolder.verified parent 200
    simp [sendDriveRequest, bind, Except.bind, readDriveResource_ok, hverified, pure, Except.pure]
  · intro hfolder
    have hverified := DriveFile.not_shardFolder_verified hfolder parent 200
    simp [sendDriveRequest, bind, Except.bind, readDriveResource_ok, hverified, pure, Except.pure]

variable (store key) in
/-- A folder that cannot be read is an error. -/
theorem shardFolderIdMatchesKey_unreadable {parent : DriveFileId}
    (h : d.files.lookup parent = some file)
    (hwhole : whole (file.resource parent shardFolderFields) = false) :
    ∃ error, store.shardFolderIdMatchesKey api parent.text key = .error error := by
  obtain ⟨diagnostic, hget⟩ := hserves.found parent file shardFolderFields h
  rw [hwhole, if_neg Bool.false_ne_true] at hget
  unfold GoogleDriveObjectStore.shardFolderIdMatchesKey
  rw [requireDriveIdentifier_eq_ok parent.visible, parent.segment, hget]
  exact ⟨_, rfl⟩

/-- Nothing is found for an identifier that no file has. -/
theorem lookup_missing (hvisible : Text.isBlank backendId = false)
    (hsegment : pathSegments [backendId] = [backendId])
    (h : ∀ id file, d.files.lookup id = some file → id.text ≠ backendId) :
    store.lookupObjectByBackendId api sha256Hex object backendId = .ok none := by
  obtain ⟨body, diagnostic, hget⟩ := hserves.missing backendId objectMetadataFields h
  unfold GoogleDriveObjectStore.lookupObjectByBackendId
  rw [GoogleDriveObjectStore.objectKey_eq, requireDriveIdentifier_eq_ok hvisible, hsegment, hget]
  rfl

omit hserves in
/-- A blank identifier is an error. -/
theorem lookup_blank (h : Text.isBlank backendId = true) :
    ∃ error, store.lookupObjectByBackendId api sha256Hex object backendId = .error error := by
  unfold GoogleDriveObjectStore.lookupObjectByBackendId requireDriveIdentifier
  rw [GoogleDriveObjectStore.objectKey_eq, if_pos h]
  exact ⟨_, rfl⟩

/-- So is a dot segment. -/
theorem lookup_dot (hvisible : Text.isBlank backendId = false)
    (h : pathSegments [backendId] ≠ [backendId]) :
    ∃ error, store.lookupObjectByBackendId api sha256Hex object backendId = .error error := by
  have hnil : pathSegments [backendId] = [] := by
    unfold pathSegments at h ⊢
    rw [List.filter_singleton] at h ⊢
    cases hkeep : backendId ≠ "." && backendId ≠ ".." with
    | true =>
      rw [hkeep] at h
      exact absurd rfl h
    | false => rfl
  obtain ⟨diagnostic, hget⟩ := hserves.search objectMetadataFields
  unfold GoogleDriveObjectStore.lookupObjectByBackendId
  rw [GoogleDriveObjectStore.objectKey_eq, requireDriveIdentifier_eq_ok hvisible, hnil, hget]
  exact ⟨_, rfl⟩

/-- A file that cannot be read is an error. -/
theorem lookup_unreadable (h : d.files.lookup id = some file)
    (hwhole : whole (file.resource id objectMetadataFields) = false) :
    ∃ error, store.lookupObjectByBackendId api sha256Hex object id.text = .error error := by
  obtain ⟨diagnostic, hget⟩ := hserves.found id file objectMetadataFields h
  rw [hwhole, if_neg Bool.false_ne_true] at hget
  unfold GoogleDriveObjectStore.lookupObjectByBackendId
  rw [GoogleDriveObjectStore.objectKey_eq, requireDriveIdentifier_eq_ok id.visible, id.segment,
    hget]
  exact ⟨_, rfl⟩

/-- Nothing is found for a file that is not the object. -/
theorem lookup_other (h : d.files.lookup id = some file)
    (hwhole : whole (file.resource id objectMetadataFields) = true)
    (hobject : ¬file.IsObject sha256Hex (store.key object)) :
    store.lookupObjectByBackendId api sha256Hex object id.text = .ok none := by
  obtain ⟨diagnostic, hget⟩ := hserves.found id file objectMetadataFields h
  rw [if_pos hwhole] at hget
  have hverified := not_isObject_verified store hobject id 200
  unfold GoogleDriveObjectStore.lookupObjectByBackendId
  rw [GoogleDriveObjectStore.objectKey_eq, requireDriveIdentifier_eq_ok id.visible, id.segment,
    hget]
  simp [sendDriveRequest, bind, Except.bind, readDriveResource_ok, hverified, pure, Except.pure]

/-- The object with another size is an error. -/
theorem lookup_without_size (h : d.files.lookup id = some file)
    (hwhole : whole (file.resource id objectMetadataFields) = true)
    (hobject : file.IsObject sha256Hex (store.key object)) (hsize : ¬file.HasSize object) :
    ∃ error, store.lookupObjectByBackendId api sha256Hex object id.text = .error error := by
  obtain ⟨diagnostic, hget⟩ := hserves.found id file objectMetadataFields h
  rw [if_pos hwhole] at hget
  obtain ⟨error, hverified, hconflict⟩ :=
    isObject_without_size store hobject hsize id 200
  unfold GoogleDriveObjectStore.lookupObjectByBackendId
  rw [GoogleDriveObjectStore.objectKey_eq, requireDriveIdentifier_eq_ok id.visible, id.segment,
    hget]
  refine ⟨error, ?_⟩
  simp only [sendDriveRequest, bind, Except.bind, readDriveResource_ok, hverified, pure,
    Except.pure]
  cases error with
  | conflict provider oid => exact absurd rfl (hconflict provider oid)
  | _ => rfl

/-- The object is found if it is in the root folder alone, or in one folder, that is of the
shard. -/
theorem lookup_object (h : d.files.lookup id = some file)
    (hwhole : whole (file.resource id objectMetadataFields) = true)
    (hobject : file.IsObject sha256Hex (store.key object)) (hsize : file.HasSize object) :
    store.lookupObjectByBackendId api sha256Hex object id.text =
      match file.parents with
      | [parent] =>
        if parent.text = store.rootFolderId then
          .ok (some (storedObject store (store.key object) id))
        else
          (store.shardFolderIdMatchesKey api parent.text (store.key object)).map fun found =>
            if found then some (storedObject store (store.key object) id) else none
      | _ => .ok none := by
  obtain ⟨diagnostic, hget⟩ := hserves.found id file objectMetadataFields h
  rw [if_pos hwhole] at hget
  have hverified := hobject.verified store hsize
    (by decide : objectLookupFields ⊆ objectMetadataFields) id 200
  have hstatus : ¬(200 : ℕ) = 404 := by decide
  have hparents : (file.resource id objectMetadataFields).parents =
    file.parents.map (·.text) := rfl
  unfold GoogleDriveObjectStore.lookupObjectByBackendId
  rw [GoogleDriveObjectStore.objectKey_eq, requireDriveIdentifier_eq_ok id.visible, id.segment,
    hget]
  simp only [sendDriveRequest, bind, Except.bind, readDriveResource_ok, hverified, pure,
    Except.pure, hparents, hstatus, if_false]
  have hid : (storedObject store (store.key object) id).backendId = id.text := rfl
  rw [if_pos hid]
  match hfile : file.parents with
  | [] => rfl
  | [parent] =>
    simp only [List.map_cons, List.map_nil, List.cons.injEq, and_true]
    split
    · rfl
    · cases store.shardFolderIdMatchesKey api parent.text (store.key object) with
      | error error => rfl
      | ok found => cases found <;> rfl
  | first :: second :: rest =>
    rw [if_neg (by simp)]
    rfl

/-- What can be read is found in its place, or not found. -/
theorem lookup_of_readable (h : d.Readable whole sha256Hex store object backendId) :
    store.lookupObjectByBackendId api sha256Hex object backendId = .ok none ∨
      ∃ id file, id.text = backendId ∧ d.files.lookup id = some file ∧
        file.IsObject sha256Hex (store.key object) ∧ file.HasSize object ∧
        file.InPlace d store (store.key object) ∧
        store.lookupObjectByBackendId api sha256Hex object backendId =
          .ok (some (storedObject store (store.key object) id)) := by
  obtain ⟨hvisible, hsegment, hread⟩ := h
  by_cases hexists : ∃ id file, d.files.lookup id = some file ∧ id.text = backendId
  · obtain ⟨id, file, hfile, rfl⟩ := hexists
    obtain ⟨hwhole, hsize⟩ := hread id file rfl hfile
    by_cases hobject : file.IsObject sha256Hex (store.key object)
    · obtain ⟨hsize, hparent⟩ := hsize hobject
      rw [lookup_object hserves hfile hwhole hobject hsize]
      match hparents : file.parents with
      | [] => exact .inl rfl
      | first :: second :: rest => exact .inl rfl
      | [parent] =>
        have hmem : parent ∈ file.parents := by
          rw [hparents]
          exact List.mem_singleton_self _
        dsimp only
        by_cases hroot : parent.text = store.rootFolderId
        · rw [if_pos hroot]
          exact .inr ⟨id, file, rfl, hfile, hobject, hsize, ⟨parent, hmem, .inl hroot⟩, rfl⟩
        · rw [if_neg hroot]
          cases hlookup : d.files.lookup parent with
          | none =>
            rw [shardFolderIdMatchesKey_missing hserves hlookup]
            exact .inl rfl
          | some parentFile =>
            have hwhole := hparent parent parentFile hparents hroot hlookup
            obtain ⟨hmatch, hother⟩ := shardFolderIdMatchesKey_found store (store.key object)
              hserves hlookup hwhole
            by_cases hfolder : parentFile.IsShardFolder store.rootFolderId (store.key object)
            · rw [hmatch hfolder]
              exact .inr ⟨id, file, rfl, hfile, hobject, hsize,
                ⟨parent, hmem, .inr ⟨parentFile, hlookup, hfolder⟩⟩, rfl⟩
            · rw [hother hfolder]
              exact .inl rfl
    · exact .inl (lookup_other hserves hfile hwhole hobject)
  · refine .inl (lookup_missing hserves hvisible hsegment fun id file hfile htext => ?_)
    exact hexists ⟨id, file, hfile, htext⟩

/-- What cannot be read is an error. -/
theorem lookup_of_not_readable (h : ¬d.Readable whole sha256Hex store object backendId) :
    ∃ error, store.lookupObjectByBackendId api sha256Hex object backendId = .error error := by
  by_cases hvisible : Text.isBlank backendId = false
  · by_cases hsegment : pathSegments [backendId] = [backendId]
    · by_contra hnone
      refine h ⟨hvisible, hsegment, ?_⟩
      rintro id file rfl hfile
      have hwhole : whole (file.resource id objectMetadataFields) = true := by
        by_contra hcut
        exact hnone (lookup_unreadable hserves hfile (Bool.not_eq_true _ ▸ hcut))
      refine ⟨hwhole, fun hobject => ?_⟩
      have hsize : file.HasSize object := by
        by_contra hsize
        exact hnone (lookup_without_size hserves hfile hwhole hobject hsize)
      refine ⟨hsize, fun parent parentFile hparents hroot hparent => ?_⟩
      by_contra hcut
      obtain ⟨error, herror⟩ := shardFolderIdMatchesKey_unreadable store (store.key object)
        hserves hparent (Bool.not_eq_true _ ▸ hcut)
      have hlookup := lookup_object hserves hfile hwhole hobject hsize
      rw [hparents] at hlookup
      dsimp only at hlookup
      rw [if_neg hroot, herror] at hlookup
      exact hnone ⟨error, hlookup⟩
    · exact lookup_dot hserves hvisible hsegment
  · exact lookup_blank (Bool.not_eq_false _ ▸ hvisible)

end Serves

/-- A file that the search for the object accepts: it is in the root folder or in a folder
that the search for folders accepts. -/
def ListingAccepts (d : DriveContents) (sha256Hex : String → String)
    (store : GoogleDriveObjectStore) (object : LfsObject) (stored : StoredObject) : Prop :=
  ∃ folder id file,
    (folder = store.rootFolderId ∨ ∃ parent parentFile,
      d.Selects (driveShardFolderLookupQuery store.rootFolderId (store.key object)) parent
        parentFile ∧
      verifyDriveShardFolder store (store.key object) 200
        (parentFile.resource parent shardFolderFields) = .ok folder) ∧
    d.Selects (driveObjectLookupQuery folder (store.key object)
      ((store.key object).expectedAppProperties sha256Hex)) id file ∧
    verifyDriveObjectFile store.storage (store.key object)
      ((store.key object).expectedAppProperties sha256Hex) 200
      (file.resource id objectLookupFields).toGoogleDriveObjectFile = .ok stored

/-- An object in its place is accepted by the search. -/
theorem listingAccepts_of_inPlace (h : d.files.lookup id = some file)
    (hobject : file.IsObject sha256Hex (store.key object)) (hsize : file.HasSize object)
    (hplace : file.InPlace d store (store.key object)) :
    ListingAccepts d sha256Hex store object (storedObject store (store.key object) id) := by
  obtain ⟨parent, hmem, hparent⟩ := hplace
  refine ⟨parent.text, id, file, ?_, ?_, ?_⟩
  · rcases hparent with hroot | ⟨parentFile, hlookup, hfolder⟩
    · exact .inl hroot
    · exact .inr ⟨parent, parentFile, selects_shardFolder.mpr ⟨hlookup, hfolder⟩,
        hfolder.verified parent 200⟩
  · exact selects_object.mpr ⟨h, List.mem_map_of_mem hmem, hobject⟩
  · exact hobject.verified store hsize (List.Subset.refl _) id 200

/-- The same for a loop that may run out of fuel. -/
theorem mem_of_mapM_run {ε α β : Type} {f : α → ExceptT ε Option β} {xs : List α} {ys : List β}
    (h : (xs.mapM f).run = some (.ok ys)) : ∀ x ∈ xs, ∃ y ∈ ys, (f x).run = some (.ok y) := by
  induction xs generalizing ys with
  | nil => exact fun x hx => absurd hx List.not_mem_nil
  | cons x xs ih =>
    rw [List.mapM_cons] at h
    obtain ⟨y, hx, h⟩ := exceptT_bind_eq_ok h
    obtain ⟨rest, hxs, h⟩ := exceptT_bind_eq_ok h
    obtain rfl := Except.ok.inj (Option.some.inj h)
    rintro z hz
    rcases List.mem_cons.mp hz with rfl | hz
    · exact ⟨y, List.mem_cons_self, hx⟩
    · obtain ⟨w, hw, hfw⟩ := ih hxs z hz
      exact ⟨w, List.mem_cons_of_mem _ hw, hfw⟩

/-- What a loop over the pages of a search returns has every file of the search. -/
theorem mem_of_lookupPages {α : Type} {fields : List String} {query : String}
    {fetch : Option String → Except StorageError (List α × Option String)}
    {verify : DriveFileResource → Except StorageError α} {repeated : StorageError}
    (hfetch : ∀ token items next, fetch token = .ok (items, next) → ∀ body diagnostic,
      api.list fields query token = .ok ⟨200, body, diagnostic⟩ → ∃ page, body = some page ∧
        page.nextPageToken = next ∧ page.files.mapM verify = .ok items)
    {token : Option String} {files : List DriveFileResource}
    (hpages : DrivePages api fields query token files) {fuel : ℕ} {seen : List String}
    {items : List α}
    (h : (GoogleDriveObjectStore.lookupPages fetch repeated fuel seen token).run = some (.ok items)) :
    ∀ file ∈ files, ∃ item ∈ items, verify file = .ok item := by
  induction hpages generalizing fuel seen items with
  | last hlist hbody =>
    cases fuel with
    | zero => cases h
    | succ fuel =>
      obtain ⟨⟨found, next⟩, hfound, h⟩ := exceptT_bind_eq_ok h
      obtain ⟨page, hpage, hnext, hverify⟩ := hfetch _ _ _ (Option.some.inj hfound) _ _ hlist
      obtain rfl := Option.some.inj (hpage.symm.trans (hbody.resolve_right (by simp [hpage])))
      obtain rfl := hnext
      obtain rfl := Except.ok.inj (Option.some.inj h)
      exact mem_of_mapM_eq_ok hverify
  | more hlist hbody _ ih =>
    cases fuel with
    | zero => cases h
    | succ fuel =>
      obtain ⟨⟨found, next⟩, hfound, h⟩ := exceptT_bind_eq_ok h
      obtain ⟨page, hpage, hnext, hverify⟩ := hfetch _ _ _ (Option.some.inj hfound) _ _ hlist
      obtain rfl := Option.some.inj (hpage.symm.trans (hbody.resolve_right (by simp [hpage])))
      obtain rfl := hnext
      dsimp only at h
      split at h
      · cases h
      · obtain ⟨rest, hrest, h⟩ := exceptT_bind_eq_ok h
        obtain rfl := Except.ok.inj (Option.some.inj h)
        intro file hfile
        rcases List.mem_append.mp hfile with hfile | hfile
        · obtain ⟨item, hitem, hverified⟩ := mem_of_mapM_eq_ok hverify file hfile
          exact ⟨item, List.mem_append_left _ hitem, hverified⟩
        · obtain ⟨item, hitem, hverified⟩ := ih hrest file hfile
          exact ⟨item, List.mem_append_right _ hitem, hverified⟩

/-- A page is what was answered, with every file verified. -/
theorem lookupPage_eq_ok {α : Type} {what folder query : String} {fields : List String}
    {verify : ℕ → DriveFileResource → Except StorageError α} {token next : Option String}
    {items : List α} (h : store.lookupPage api what folder fields query verify token =
      .ok (items, next)) {body : Option GoogleDriveFileList} {diagnostic : DriveDiagnostic}
    (hlist : api.list fields query token = .ok ⟨200, body, diagnostic⟩) :
    ∃ page, body = some page ∧ page.nextPageToken = next ∧
      page.files.mapM (verify 200) = .ok items := by
  unfold GoogleDriveObjectStore.lookupPage at h
  rw [hlist] at h
  obtain ⟨_, _, h⟩ := except_bind_eq_ok h
  obtain ⟨reply, hreply, h⟩ := except_bind_eq_ok h
  obtain rfl := Except.ok.inj hreply
  obtain ⟨page, hpage, h⟩ := except_bind_eq_ok h
  split at h
  · cases h
  · split at h
    · cases h
    · obtain ⟨found, hfound, h⟩ := except_bind_eq_ok h
      obtain ⟨rfl, rfl⟩ := Prod.mk.inj (Except.ok.inj h)
      cases body with
      | none => cases hpage
      | some answered =>
        obtain rfl := Except.ok.inj hpage
        exact ⟨answered, rfl, rfl, hfound⟩

/-- All pages together have every file that the search selects. -/
theorem mem_of_lookupAll {α : Type} {what folder query : String} {fields : List String}
    {verify : ℕ → DriveFileResource → Except StorageError α} {fuel : ℕ} {items : List α}
    (hserves : DriveServes api whole d) (hquery : (DriveQuery.read query).isSome)
    (h : (store.lookupAll api what folder fields query verify fuel).run = some (.ok items))
    (hselects : d.Selects query id file) :
    ∃ item ∈ items, verify 200 (file.resource id fields) = .ok item := by
  obtain ⟨files, hpages, hfiles⟩ := hserves.listed fields query hquery
  have hmem := (hfiles (file.resource id fields)).mpr ⟨id, file, hselects, rfl⟩
  exact mem_of_lookupPages (fun token items next hpage body diagnostic hlist =>
    lookupPage_eq_ok hpage hlist) hpages h _ hmem

/-- What the search accepts is among the objects that it chooses from. -/
theorem ListingAccepts.mem_candidates {stored : StoredObject} (hserves : DriveServes api whole d)
    (h : ListingAccepts d sha256Hex store object stored) {fuel : ℕ}
    {candidates : List StoredObject}
    (hcandidates : (store.lookupCandidates api sha256Hex fuel object).run =
      some (.ok candidates)) : stored ∈ candidates := by
  obtain ⟨folder, id, file, hfolder, hselects, hverified⟩ := h
  obtain ⟨key, hkey, hcandidates⟩ := exceptT_bind_eq_ok hcandidates
  rw [GoogleDriveObjectStore.objectKey_eq] at hkey
  obtain rfl := Except.ok.inj (Option.some.inj hkey)
  obtain ⟨inRoot, hroot, hcandidates⟩ := exceptT_bind_eq_ok hcandidates
  obtain ⟨folders, hfolders, hcandidates⟩ := exceptT_bind_eq_ok hcandidates
  obtain ⟨inShards, hshards, hcandidates⟩ := exceptT_bind_eq_ok hcandidates
  obtain rfl := Except.ok.inj (Option.some.inj hcandidates)
  have hquery : ∀ folder, (DriveQuery.read (driveObjectLookupQuery folder (store.key object)
      ((store.key object).expectedAppProperties sha256Hex))).isSome := by
    intro folder
    rw [read_driveObjectLookupQuery]
    rfl
  rcases hfolder with rfl | ⟨parent, parentFile, hparent, hfolder⟩
  · obtain ⟨item, hitem, hsame⟩ := mem_of_lookupAll hserves (hquery _) hroot hselects
    obtain rfl := Except.ok.inj (hsame.symm.trans hverified)
    exact List.mem_append_left _ hitem
  · have hshardQuery : (DriveQuery.read
        (driveShardFolderLookupQuery store.rootFolderId (store.key object))).isSome := by
      rw [read_driveShardFolderLookupQuery]
      rfl
    obtain ⟨all, hall, hfolders⟩ := exceptT_bind_eq_ok hfolders
    obtain rfl := Except.ok.inj (Option.some.inj hfolders)
    obtain ⟨listed, hlisted, hsame⟩ := mem_of_lookupAll hserves hshardQuery hall hparent
    obtain rfl := Except.ok.inj (hsame.symm.trans hfolder)
    obtain ⟨items, hitems, hobjects⟩ := mem_of_mapM_run hshards listed
      (List.mem_dedup.mpr (List.mem_mergeSort.mpr hlisted))
    obtain ⟨item, hitem, hsame⟩ := mem_of_lookupAll hserves (hquery _) hobjects hselects
    obtain rfl := Except.ok.inj (hsame.symm.trans hverified)
    exact List.mem_append_right _ (List.mem_flatten.mpr ⟨items, hitems, hitem⟩)

/-- An object that is found by its stored identifier is one that the search accepts, and one
of those that a successful search chooses from. For an identifier that is not of the object
in its place, nothing is found and it is no error, exactly when what it stands for can be
read. -/
theorem stored_id_lookup_agrees (api : DriveApi) (whole : DriveFileResource → Bool)
    (d : DriveContents) (sha256Hex : String → String) (store : GoogleDriveObjectStore)
    (object : LfsObject) (backendId : String) (hserves : DriveServes api whole d) :
    (∀ stored, store.lookupObjectByBackendId api sha256Hex object backendId = .ok (some stored) →
      stored.backendId = backendId ∧ ListingAccepts d sha256Hex store object stored ∧
      ∀ fuel candidates, (store.lookupCandidates api sha256Hex fuel object).run =
        some (.ok candidates) → stored ∈ candidates) ∧
    ((d.Foreign sha256Hex store object backendId →
        store.lookupObjectByBackendId api sha256Hex object backendId = .ok none) ↔
      (d.Foreign sha256Hex store object backendId →
        d.Readable whole sha256Hex store object backendId)) := by
  constructor
  · intro stored hstored
    have hreadable : d.Readable whole sha256Hex store object backendId := by
      by_contra hunreadable
      obtain ⟨error, herror⟩ := lookup_of_not_readable hserves hunreadable
      rw [herror] at hstored
      cases hstored
    rcases lookup_of_readable hserves hreadable with hnone | hfound
    · rw [hnone] at hstored
      cases hstored
    · obtain ⟨id, file, rfl, hfile, hobject, hsize, hplace, hfound⟩ := hfound
      obtain rfl := Option.some.inj (Except.ok.inj (hfound.symm.trans hstored))
      have haccepts := listingAccepts_of_inPlace hfile hobject hsize hplace
      exact ⟨rfl, haccepts, fun fuel candidates h => haccepts.mem_candidates hserves h⟩
  · constructor
    · intro h hforeign
      by_contra hunreadable
      obtain ⟨error, herror⟩ := lookup_of_not_readable hserves hunreadable
      rw [h hforeign] at herror
      cases herror
    · intro h hforeign
      rcases lookup_of_readable hserves (h hforeign) with hnone | hfound
      · exact hnone
      · obtain ⟨id, file, htext, hfile, hobject, _, hplace, _⟩ := hfound
        exact absurd ⟨hobject, hplace⟩ (hforeign id file htext hfile)

theorem DriveFileId.ext_text {id id' : DriveFileId} (h : id.text = id'.text) : id = id' := by
  obtain ⟨_, _, _⟩ := id
  obtain ⟨_, _, _⟩ := id'
  simp only at h
  subst h
  rfl

instance (file : DriveFile) : (term : DriveTerm) → Decidable (file.Meets term)
  | .inParents folder => inferInstanceAs (Decidable (folder ∈ file.parents.map (·.text)))
  | .trashed value => inferInstanceAs (Decidable (file.trashed = value))
  | .name value => inferInstanceAs (Decidable (file.name = value))
  | .mimeType value => inferInstanceAs (Decidable (file.mimeType = value))
  | .appProperty key value =>
    inferInstanceAs (Decidable (file.appProperties.lookup key = some value))

/-- An interface that serves any files, with every search on one page. -/
def DriveContents.onePageApi (d : DriveContents) (whole : DriveFileResource → Bool) : DriveApi where
  get
    | [text], fields =>
      match d.files.entries.find? fun e => e.1.text = text with
      | some ⟨id, file⟩ => .ok ⟨200, if whole (file.resource id fields) then
          some (file.resource id fields) else none, ⟨"", []⟩⟩
      | none => .ok ⟨404, none, ⟨"File not found", ["notFound"]⟩⟩
    | _, _ => .ok ⟨400, none, ⟨"Invalid field selection", ["invalidParameter"]⟩⟩
  list fields query _ :=
    let terms := (DriveQuery.read query).getD []
    let selected := d.files.entries.filter fun e => terms.all fun term => e.2.Meets term
    .ok ⟨200, some ⟨selected.map fun e => e.2.resource e.1 fields, none, false⟩, ⟨"", []⟩⟩

/-- It does what is documented. -/
theorem DriveContents.serves (d : DriveContents) (whole : DriveFileResource → Bool) :
    DriveServes (d.onePageApi whole) whole d where
  found id file fields h := by
    have hfind : d.files.entries.find? (fun e => e.1.text = id.text) = some ⟨id, file⟩ := by
      have hmem := AList.mem_lookup_iff.mp h
      have hsome : (d.files.entries.find? fun e => e.1.text = id.text).isSome :=
        List.find?_isSome.mpr ⟨_, hmem, by simp⟩
      obtain ⟨⟨id', file'⟩, hfound⟩ := Option.isSome_iff_exists.mp hsome
      have htext : id'.text = id.text := by simpa using List.find?_some hfound
      obtain rfl := DriveFileId.ext_text htext
      have hfile := AList.mem_lookup_iff.mpr (List.mem_of_find?_eq_some hfound)
      rw [hfound, Option.some.inj (hfile.symm.trans h)]
    refine ⟨⟨"", []⟩, ?_⟩
    simp only [DriveContents.onePageApi, hfind]
  missing text fields h := by
    have hfind : d.files.entries.find? (fun e => e.1.text = text) = none := by
      apply List.find?_eq_none.mpr
      rintro ⟨id, file⟩ hmem htext
      exact h id file (AList.mem_lookup_iff.mpr hmem) (of_decide_eq_true htext)
    refine ⟨none, ⟨"File not found", ["notFound"]⟩, ?_⟩
    simp only [DriveContents.onePageApi, hfind]
  search fields := ⟨_, rfl⟩
  listed fields query hquery := by
    obtain ⟨terms, hterms⟩ := Option.isSome_iff_exists.mp hquery
    refine ⟨_, .last rfl (.inl rfl), fun resource => ?_⟩
    simp only [hterms, Option.getD_some, List.mem_map, List.mem_filter, List.all_eq_true,
      decide_eq_true_eq]
    constructor
    · rintro ⟨⟨id, file⟩, ⟨hmem, hmeets⟩, rfl⟩
      exact ⟨id, file, ⟨AList.mem_lookup_iff.mpr hmem, terms, hterms, hmeets⟩, rfl⟩
    · rintro ⟨id, file, ⟨hfile, terms', hterms', hmeets⟩, rfl⟩
      obtain rfl := Option.some.inj (hterms.symm.trans hterms')
      exact ⟨⟨id, file⟩, ⟨AList.mem_lookup_iff.mp hfile, hmeets⟩, rfl⟩

section Samples

/-- The identifier of a file, and of two folders. -/
def sampleFileId : DriveFileId := ⟨"file", by decide, by decide +kernel⟩

def sampleRootId : DriveFileId := ⟨"root", by decide, by decide +kernel⟩

def sampleElsewhereId : DriveFileId := ⟨"elsewhere", by decide, by decide +kernel⟩

/-- A store for a repository. -/
def sampleStore : GoogleDriveObjectStore := ⟨⟨"drive"⟩, "root", "repo", by decide⟩

/-- A Drive with one file, that has the name and the properties of an object. -/
def sampleDrive (size : String) (folder : DriveFileId) : DriveContents :=
  ⟨(∅ : Table DriveFileId DriveFile).insert sampleFileId
    ⟨(sampleStore.key ⟨LfsOid.zero, 1⟩).fileName, "application/octet-stream", some size, false,
      [folder], propertyTable
        ((sampleStore.key ⟨LfsOid.zero, 1⟩).expectedAppProperties fun _ => "").pairs⟩⟩

theorem sampleDrive_lookup (size : String) (folder : DriveFileId) :
    (sampleDrive size folder).files.lookup sampleFileId =
      some ⟨(sampleStore.key ⟨LfsOid.zero, 1⟩).fileName, "application/octet-stream", some size,
        false, [folder], propertyTable
          ((sampleStore.key ⟨LfsOid.zero, 1⟩).expectedAppProperties fun _ => "").pairs⟩ :=
  AList.lookup_insert _

theorem sampleDrive_isObject (size : String) (folder : DriveFileId) {file : DriveFile}
    (h : (sampleDrive size folder).files.lookup sampleFileId = some file) :
    file.IsObject (fun _ => "") (sampleStore.key ⟨LfsOid.zero, 1⟩) := by
  obtain rfl := Option.some.inj ((sampleDrive_lookup size folder).symm.trans h)
  refine ⟨rfl, rfl, fun pair hpair => ?_⟩
  exact (lookup_propertyTable (GoogleDriveObjectProperties.nodup_pairs _)).mpr hpair

/-- A file in another folder, with another size, is an error and not nothing. -/
theorem stored_id_lookup_stray :
    (sampleDrive "2" sampleElsewhereId).Foreign (fun _ => "") sampleStore ⟨LfsOid.zero, 1⟩ "file" ∧
      DriveServes ((sampleDrive "2" sampleElsewhereId).onePageApi fun _ => true) (fun _ => true)
        (sampleDrive "2" sampleElsewhereId) ∧
      sampleStore.lookupObjectByBackendId
        ((sampleDrive "2" sampleElsewhereId).onePageApi fun _ => true) (fun _ => "")
          ⟨LfsOid.zero, 1⟩ "file" ≠ .ok none := by
  have hserves := (sampleDrive "2" sampleElsewhereId).serves fun _ => true
  have hlookup := sampleDrive_lookup "2" sampleElsewhereId
  refine ⟨?_, hserves, ?_⟩
  · rintro id file hid hfile ⟨_, parent, hparent, hplace⟩
    obtain rfl : id = sampleFileId := DriveFileId.ext_text hid
    obtain rfl := Option.some.inj (hlookup.symm.trans hfile)
    obtain rfl := List.mem_singleton.mp hparent
    rcases hplace with hroot | ⟨folder, hfolder, _⟩
    · exact absurd hroot (by decide)
    · have hne : sampleElsewhereId ≠ sampleFileId := by decide
      unfold sampleDrive at hfolder
      rw [AList.lookup_insert_ne hne, AList.lookup_empty] at hfolder
      cases hfolder
  · intro hnone
    have hsize : ¬DriveFile.HasSize ⟨(sampleStore.key ⟨LfsOid.zero, 1⟩).fileName,
        "application/octet-stream", some "2", false, [sampleElsewhereId], propertyTable
          ((sampleStore.key ⟨LfsOid.zero, 1⟩).expectedAppProperties fun _ => "").pairs⟩
        ⟨LfsOid.zero, 1⟩ := by
      rintro ⟨text, htext, hparse⟩
      obtain rfl := Option.some.inj htext
      exact absurd hparse (by decide)
    obtain ⟨error, herror⟩ := lookup_without_size hserves hlookup rfl
      (sampleDrive_isObject _ _ hlookup) hsize
    cases hnone.symm.trans herror

/-- The object in the root folder is found, and accepted by the search. -/
theorem stored_id_lookup_agrees_sample :
    ListingAccepts (sampleDrive "1" sampleRootId) (fun _ => "") sampleStore ⟨LfsOid.zero, 1⟩
      (storedObject sampleStore (sampleStore.key ⟨LfsOid.zero, 1⟩) sampleFileId) := by
  have hserves := (sampleDrive "1" sampleRootId).serves fun _ => true
  have hlookup := sampleDrive_lookup "1" sampleRootId
  have hfound : sampleStore.lookupObjectByBackendId
      ((sampleDrive "1" sampleRootId).onePageApi fun _ => true) (fun _ => "") ⟨LfsOid.zero, 1⟩
        sampleFileId.text =
          .ok (some (storedObject sampleStore (sampleStore.key ⟨LfsOid.zero, 1⟩) sampleFileId)) := by
    rw [lookup_object hserves hlookup rfl (sampleDrive_isObject _ _ hlookup)
      ⟨"1", rfl, by decide⟩]
    rfl
  exact ((stored_id_lookup_agrees _ _ _ _ _ _ _ hserves).1 _ hfound).2.1

end Samples

end LfsCloud
