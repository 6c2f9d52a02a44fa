import LfsCloud.GoogleDrive.LookupListings
import LfsCloud.Lib.JsonText

/-!
# What a lookup finds

A lookup searches the root folder and every folder of the shard. Its result depends on the files
that match, and not on how the answers are ordered and split into pages, as long as every page can
be read.
-/

namespace LfsCloud

/-- The page size in `drive_object_lookup_url`. -/
def objectPageSize : ℕ := 2

/-- The page size in `drive_shard_folder_lookup_url`. -/
def shardFolderPageSize : ℕ := 100

/-- What matches the searches of a lookup: the files of each folder, and the folders. -/
structure DriveMatches where
  objects : String → List DriveFileResource
  shardFolders : List DriveFileResource

namespace DriveMatches

variable (m : DriveMatches) (store : GoogleDriveObjectStore) (sha256Hex : String → String)
  (object : LfsObject)

/-- A folder that is listed and passes the check. -/
def IsShardFolder (folder : String) : Prop :=
  ∃ file ∈ m.shardFolders, verifyDriveShardFolder store (store.key object) 200 file = .ok folder

/-- The folders whose files are listed. -/
def Searched (folder : String) : Prop :=
  folder = store.rootFolderId ∨ m.IsShardFolder store object folder

/-- A listed file that passes the check. -/
def IsStored (stored : StoredObject) : Prop :=
  ∃ folder, m.Searched store object folder ∧ ∃ file ∈ m.objects folder,
    verifyDriveObjectFile store.storage (store.key object)
      ((store.key object).expectedAppProperties sha256Hex) 200 file.toGoogleDriveObjectFile =
        .ok stored

/-- Everything that is listed passes its check. -/
structure Verified : Prop where
  shardFolders : ∀ file ∈ m.shardFolders, ∃ folder,
    verifyDriveShardFolder store (store.key object) 200 file = .ok folder
  objects : ∀ folder, m.Searched store object folder → ∀ file ∈ m.objects folder, ∃ stored,
    verifyDriveObjectFile store.storage (store.key object)
      ((store.key object).expectedAppProperties sha256Hex) 200 file.toGoogleDriveObjectFile =
        .ok stored

end DriveMatches

/-- A Drive that serves the searches of a lookup; the root folder is configured. -/
structure ServedLookup (store : GoogleDriveObjectStore) (sha256Hex : String → String)
    (object : LfsObject) (m : DriveMatches) where
  api : DriveApi
  render : GoogleDriveFileList → List Char
  rootVisible : Text.isBlank store.rootFolderId = false
  objects : ∀ folder, ServedSearch api render objectLookupFields
    (driveObjectLookupQuery folder (store.key object)
      ((store.key object).expectedAppProperties sha256Hex)) objectPageSize (m.objects folder)
  shardFolders : ServedSearch api render shardFolderFields
    (driveShardFolderLookupQuery store.rootFolderId (store.key object)) shardFolderPageSize
    m.shardFolders

section Served

variable {store : GoogleDriveObjectStore} {sha256Hex : String → String} {object : LfsObject}
  {m : DriveMatches} {run : ServedLookup store sha256Hex object m} {fuel : ℕ}

/-- Every page of the searches can be read. -/
structure ServedLookup.PagesFit (run : ServedLookup store sha256Hex object m) : Prop where
  shardFolders : ∀ page ∈ run.shardFolders.pages, PageFits run.render page
  objects : ∀ folder, m.Searched store object folder →
    ∀ page ∈ (run.objects folder).pages, PageFits run.render page

/-- The fuel for the longest of the searches. -/
structure ServedLookup.Enough (run : ServedLookup store sha256Hex object m) (fuel : ℕ) : Prop where
  shardFolders : run.shardFolders.pages.length ≤ fuel
  objects : ∀ folder, m.Searched store object folder → (run.objects folder).pages.length ≤ fuel

variable (store) in
/-- A search yields what passes the check, if every page can be read. -/
theorem yields_lookupAll (what : String) {api : DriveApi}
    {render : GoogleDriveFileList → List Char}
    {fields : List String} {query folder : String} {pageSize : ℕ} {α : Type}
    {files : List DriveFileResource} (search : ServedSearch api render fields query pageSize files)
    (verify : ℕ → DriveFileResource → Except StorageError α)
    (hfolder : Text.isBlank folder = false) (hfuel : search.pages.length ≤ fuel) :
    Yields (store.lookupAll api what folder fields query verify fuel)
      ((∀ page ∈ search.pages, PageFits render page) ∧
        ∀ file ∈ files, ∃ a, verify 200 file = .ok a)
      fun a => ∃ file ∈ files, verify 200 file = .ok a := by
  have hunseen : ∀ next ∈ search.pages.filterMap (·.nextPageToken), next ∉ ([] : List String) :=
    fun _ _ => List.not_mem_nil
  have hpages := yields_servedPages verify
    (.retryable store.storage.id ("Google Drive " ++ what ++ " repeated a page token"))
    (lookupPage_served store what verify hfolder) search.served search.distinct hunseen hfuel
  have hmem : ∀ file, file ∈ search.pages.flatMap (·.files) ↔ file ∈ files :=
    fun file => search.listed.mem_iff
  refine hpages.congr ?_ fun _ a => ?_
  · simp only [hmem]
  · simp only [hmem]

/-- A step for the elements of another one. -/
theorem Yields.bind {ε α β : Type} {first : ExceptT ε Option (List α)}
    {second : List α → ExceptT ε Option (List β)} {p q : Prop} {a : α → Prop} {b : β → Prop}
    (hfirst : Yields first p a)
    (hsecond : ∀ items, (∀ x, x ∈ items ↔ a x) → Yields (second items) q b) :
    Yields (first >>= second) (p ∧ q) b := by
  rcases hfirst with ⟨xs, hxs, hp, hmem⟩ | ⟨e, he, hnot⟩
  · rcases hsecond xs hmem with ⟨ys, hys, hq, hmem'⟩ | ⟨e, he, hnot⟩
    · exact .inl ⟨ys, by rw [ExceptT.run_bind, hxs]; exact hys, ⟨hp, hq⟩, hmem'⟩
    · exact .inr ⟨e, by rw [ExceptT.run_bind, hxs]; exact he, fun h => hnot h.2⟩
  · exact .inr ⟨e, by rw [ExceptT.run_bind, he]; rfl, fun h => hnot h.1⟩

/-- The identifier of a folder is visible. -/
theorem visible_of_verified {key : GoogleDriveObjectKey} {status : ℕ} {file : DriveFileResource}
    {folder : String} (h : verifyDriveShardFolder store key status file = .ok folder) :
    Text.isBlank folder = false := by
  unfold verifyDriveShardFolder at h
  split at h
  · cases h
  · next id hid =>
    split at h
    · obtain rfl := Except.ok.inj h
      simpa using (Option.filter_eq_some_iff.mp hid).2
    · cases h

/-- The folders of the shard are found. -/
theorem yields_lookupShardFolderIds (hfuel : run.Enough fuel) :
    Yields (store.lookupShardFolderIds run.api fuel (store.key object))
      ((∀ page ∈ run.shardFolders.pages, PageFits run.render page) ∧
        ∀ file ∈ m.shardFolders, ∃ folder,
          verifyDriveShardFolder store (store.key object) 200 file = .ok folder)
      (m.IsShardFolder store object) := by
  have hall := yields_lookupAll store "shard-folder lookup" run.shardFolders
    (verifyDriveShardFolder store (store.key object)) run.rootVisible hfuel.shardFolders
  have hsort : ∀ items : List String,
      (∀ folder, folder ∈ items ↔ m.IsShardFolder store object folder) →
      Yields (pure (items.mergeSort fun left right => decide (left ≤ right)).dedup :
        ExceptT StorageError Option (List String)) True (m.IsShardFolder store object) :=
    fun items hitems => .inl ⟨_, rfl, trivial, fun x => by
      rw [List.mem_dedup, List.mem_mergeSort, hitems]⟩
  have hsorted := hall.bind hsort
  exact hsorted.congr (and_iff_left trivial) fun _ _ => Iff.rfl

/-- The files of a folder are found. -/
theorem yields_lookupObjectsInParent {folder : String} (hfuel : run.Enough fuel)
    (hsearched : m.Searched store object folder) :
    Yields (store.lookupObjectsInParent run.api sha256Hex fuel folder (store.key object))
      ((∀ page ∈ (run.objects folder).pages, PageFits run.render page) ∧
        ∀ file ∈ m.objects folder, ∃ stored, verifyDriveObjectFile store.storage (store.key object)
          ((store.key object).expectedAppProperties sha256Hex) 200 file.toGoogleDriveObjectFile =
            .ok stored)
      fun stored => ∃ file ∈ m.objects folder,
        verifyDriveObjectFile store.storage (store.key object)
          ((store.key object).expectedAppProperties sha256Hex) 200 file.toGoogleDriveObjectFile =
            .ok stored := by
  have hvisible : Text.isBlank folder = false := by
    rcases hsearched with rfl | ⟨_, _, hverified⟩
    · exact run.rootVisible
    · exact visible_of_verified hverified
  exact yields_lookupAll store "object lookup" (run.objects folder) _ hvisible
    (hfuel.objects folder hsearched)

/-- The objects to choose from are the listed files that pass the check, if everything that is
listed passes and can be read. -/
theorem yields_lookupCandidates (hfuel : run.Enough fuel) :
    Yields (store.lookupCandidates run.api sha256Hex fuel object)
      (run.PagesFit ∧ m.Verified store sha256Hex object)
      (m.IsStored store sha256Hex object) := by
  have hrootSearched : m.Searched store object store.rootFolderId := .inl rfl
  have hroot := yields_lookupObjectsInParent hfuel hrootSearched
  have hshards := (yields_lookupShardFolderIds hfuel).bind fun folders hfolders =>
    (Yields.flatten folders fun folder hfolder =>
      yields_lookupObjectsInParent hfuel (.inr ((hfolders folder).mp hfolder))).congr
      (q := ∀ folder, m.IsShardFolder store object folder →
        (∀ page ∈ (run.objects folder).pages, PageFits run.render page) ∧
          ∀ file ∈ m.objects folder, ∃ stored,
            verifyDriveObjectFile store.storage (store.key object)
              ((store.key object).expectedAppProperties sha256Hex) 200
              file.toGoogleDriveObjectFile = .ok stored)
      (b := fun stored => ∃ folder, m.IsShardFolder store object folder ∧
        ∃ file ∈ m.objects folder, verifyDriveObjectFile store.storage (store.key object)
          ((store.key object).expectedAppProperties sha256Hex) 200
          file.toGoogleDriveObjectFile = .ok stored)
      (by simp only [hfolders]) fun _ _ => by simp only [hfolders]
  have hboth := hroot.append hshards
  have hsame : store.lookupCandidates run.api sha256Hex fuel object = (do
      let xs ← store.lookupObjectsInParent run.api sha256Hex fuel store.rootFolderId
        (store.key object)
      pure (xs ++ (← store.lookupShardFolderIds run.api fuel (store.key object) >>=
        fun folders => do
          let ys ← folders.mapM fun folder =>
            store.lookupObjectsInParent run.api sha256Hex fuel folder (store.key object)
          pure ys.flatten))) := by
    unfold GoogleDriveObjectStore.lookupCandidates
    rw [GoogleDriveObjectStore.objectKey_eq]
    simp only [bind_assoc, pure_bind]
    rfl
  rw [hsame]
  refine hboth.congr ?_ fun _ stored => ?_
  · constructor
    · rintro ⟨⟨hrootFit, hrootFiles⟩, ⟨hfoldersFit, hfoldersFiles⟩, hshard⟩
      refine ⟨⟨hfoldersFit, ?_⟩, ⟨hfoldersFiles, ?_⟩⟩
      · rintro folder (rfl | hfolder)
        · exact hrootFit
        · exact (hshard folder hfolder).1
      · rintro folder (rfl | hfolder)
        · exact hrootFiles
        · exact (hshard folder hfolder).2
    · rintro ⟨hfit, hverified⟩
      exact ⟨⟨hfit.objects _ (.inl rfl), hverified.objects _ (.inl rfl)⟩,
        ⟨hfit.shardFolders, hverified.shardFolders⟩,
        fun folder hfolder => ⟨hfit.objects _ (.inr hfolder), hverified.objects _ (.inr hfolder)⟩⟩
  · unfold DriveMatches.IsStored DriveMatches.Searched
    simp only [or_and_right, exists_or, exists_eq_left]

/-- What a lookup ends with: it succeeds exactly if everything that is listed passes its check, and
then finds the stored file with the smallest identifier, or nothing when there is none. -/
structure LookupExact (m : DriveMatches) (store : GoogleDriveObjectStore)
    (sha256Hex : String → String) (object : LfsObject)
    (result : Option (Except StorageError (Option StoredObject))) : Prop where
  ends : result.isSome = true
  succeeds : (∃ found, result = some (.ok found)) ↔ m.Verified store sha256Hex object
  smallest : ∀ stored, result = some (.ok (some stored)) →
    m.IsStored store sha256Hex object stored ∧
      ∀ other, m.IsStored store sha256Hex object other → stored.backendId ≤ other.backendId
  absent : result = some (.ok none) → ∀ other, ¬m.IsStored store sha256Hex object other

/-- The first of the sorted objects has the smallest identifier. -/
theorem head?_mergeSort_backendId {candidates : List StoredObject} {stored : StoredObject}
    (h : (candidates.mergeSort fun left right =>
      decide (left.backendId ≤ right.backendId)).head? = some stored) :
    stored ∈ candidates ∧ ∀ other ∈ candidates, stored.backendId ≤ other.backendId := by
  have hsorted : (candidates.mergeSort fun left right =>
      decide (left.backendId ≤ right.backendId)).Pairwise
      fun left right => decide (left.backendId ≤ right.backendId) = true := by
    apply List.pairwise_mergeSort
    · intro a b c hab hbc
      simp only [decide_eq_true_eq] at hab hbc ⊢
      exact String.le_trans hab hbc
    · intro a b
      simpa only [Bool.or_eq_true, decide_eq_true_eq] using String.le_total a.backendId b.backendId
  have hmem : ∀ other, other ∈ candidates ↔ other ∈ candidates.mergeSort fun left right =>
      decide (left.backendId ≤ right.backendId) := fun other => List.mem_mergeSort.symm
  obtain ⟨rest, hrest⟩ := List.head?_eq_some_iff.mp h
  simp only [hmem]
  rw [hrest] at hsorted ⊢
  refine ⟨List.mem_cons_self, fun other hother => ?_⟩
  rcases List.mem_cons.mp hother with rfl | hother
  · exact String.le_refl _
  · exact of_decide_eq_true ((List.pairwise_cons.mp hsorted).1 other hother)

/-- A lookup is exact, unless everything passes and a page cannot be read. -/
theorem lookupExact_iff (hfuel : run.Enough fuel) :
    LookupExact m store sha256Hex object
        (store.lookupObject run.api sha256Hex fuel object).run ↔
      (m.Verified store sha256Hex object → run.PagesFit) := by
  rcases yields_lookupCandidates hfuel with ⟨candidates, hrun, ⟨hfit, hverified⟩, hmem⟩ |
      ⟨e, hrun, hnot⟩
  · have hresult : (store.lookupObject run.api sha256Hex fuel object).run =
        some (.ok (candidates.mergeSort fun left right =>
          decide (left.backendId ≤ right.backendId)).head?) := by
      unfold GoogleDriveObjectStore.lookupObject
      rw [ExceptT.run_bind, hrun]
      rfl
    rw [hresult]
    refine iff_of_true ⟨rfl, iff_of_true ⟨_, rfl⟩ hverified, fun stored hstored => ?_,
      fun hnone other hother => ?_⟩ fun _ => hfit
    · obtain ⟨hin, hsmallest⟩ :=
        head?_mergeSort_backendId (Except.ok.inj (Option.some.inj hstored))
      exact ⟨(hmem stored).mp hin, fun other hother => hsmallest other ((hmem other).mpr hother)⟩
    · have hnil := List.head?_eq_none_iff.mp (Except.ok.inj (Option.some.inj hnone))
      have hin : other ∈ candidates.mergeSort fun left right =>
          decide (left.backendId ≤ right.backendId) :=
        List.mem_mergeSort.mpr ((hmem other).mpr hother)
      rw [hnil] at hin
      cases hin
  · have hresult : (store.lookupObject run.api sha256Hex fuel object).run = some (.error e) := by
      unfold GoogleDriveObjectStore.lookupObject
      rw [ExceptT.run_bind, hrun]
      rfl
    rw [hresult]
    constructor
    · intro h hverified
      obtain ⟨found, hfound⟩ := h.succeeds.mpr hverified
      cases hfound
    · intro h
      refine ⟨rfl, ⟨?_, fun hverified => absurd ⟨h hverified, hverified⟩ hnot⟩, ?_, ?_⟩
      · rintro ⟨found, hfound⟩
        cases hfound
      · intro stored hstored
        cases hstored
      · intro hnone
        cases hnone

/-- A stored object is given by its identifier. -/
theorem DriveMatches.IsStored.eq_of_backendId {stored other : StoredObject}
    (h : m.IsStored store sha256Hex object stored) (h' : m.IsStored store sha256Hex object other)
    (hid : stored.backendId = other.backendId) : stored = other := by
  obtain ⟨_, _, _, _, hverified⟩ := h
  obtain ⟨_, _, _, _, hverified'⟩ := h'
  obtain ⟨_, _, _, _, _, hprovider, hrepository, hobject⟩ := describesObject_of_verified hverified
  obtain ⟨_, _, _, _, _, hprovider', hrepository', hobject'⟩ :=
    describesObject_of_verified hverified'
  obtain ⟨provider, repository, object, backendId⟩ := stored
  obtain ⟨provider', repository', object', backendId'⟩ := other
  simp only at hprovider hrepository hobject hprovider' hrepository' hobject' hid
  subst hprovider hrepository hobject hprovider' hrepository' hobject' hid
  rfl

/-- Two exact lookups find the same. -/
theorem LookupExact.found_eq {result result' : Option (Except StorageError (Option StoredObject))}
    (h : LookupExact m store sha256Hex object result)
    (h' : LookupExact m store sha256Hex object result') {found : Option StoredObject}
    (hfound : result = some (.ok found)) : result' = some (.ok found) := by
  obtain ⟨found', hfound'⟩ := h'.succeeds.mpr (h.succeeds.mp ⟨found, hfound⟩)
  rw [hfound']
  cases found with
  | none =>
    cases found' with
    | none => rfl
    | some stored' =>
      obtain ⟨hstored', _⟩ := h'.smallest stored' hfound'
      exact absurd hstored' (h.absent hfound stored')
  | some stored =>
    obtain ⟨hstored, hsmallest⟩ := h.smallest stored hfound
    cases found' with
    | none => exact absurd hstored (h'.absent hfound' stored)
    | some stored' =>
      obtain ⟨hstored', hsmallest'⟩ := h'.smallest stored' hfound'
      have hid := String.le_antisymm (hsmallest stored' hstored') (hsmallest' stored hstored)
      rw [hstored.eq_of_backendId hstored' hid]

end Served

/-! ## The number of requests -/

/-- A token that an interface hands out for a search. -/
def HandedOut (api : DriveApi) (fields : List String) (query token : String) : Prop :=
  ∃ asked reply page, api.list fields query asked = .ok reply ∧ reply.body = some page ∧
    page.nextPageToken = some token

section Requests

variable {api : DriveApi} {store : GoogleDriveObjectStore} {fields : List String} {query : String}
  {tokens : Finset String}

/-- The token of a page that is accepted was handed out. -/
theorem handedOut_of_lookupPage {α : Type} {what folder : String}
    {verify : ℕ → DriveFileResource → Except StorageError α} {token : Option String}
    {items : List α} {next : String}
    (h : store.lookupPage api what folder fields query verify token = .ok (items, some next)) :
    HandedOut api fields query next := by
  unfold GoogleDriveObjectStore.lookupPage at h
  obtain ⟨_, _, h⟩ := except_bind_eq_ok h
  obtain ⟨reply, hreply, h⟩ := except_bind_eq_ok h
  obtain ⟨page, hpage, h⟩ := except_bind_eq_ok h
  have hlist : api.list fields query token = .ok reply := by
    cases hcall : api.list fields query token with
    | error e =>
      rw [hcall] at hreply
      cases hreply
    | ok answered =>
      rw [hcall] at hreply
      exact congrArg Except.ok (Except.ok.inj hreply)
  have hbody : reply.body = some page := by
    unfold readDriveResource at hpage
    split at hpage
    · cases hread : reply.body with
      | none =>
        rw [hread] at hpage
        cases hpage
      | some body =>
        rw [hread] at hpage
        rw [Except.ok.inj hpage]
    · cases hpage
  split at h
  · cases h
  · split at h
    · cases h
    · obtain ⟨found, _, h⟩ := except_bind_eq_ok h
      obtain ⟨_, hnext⟩ := Prod.mk.inj (Except.ok.inj h)
      exact ⟨token, reply, page, hlist, hbody, hnext⟩

/-- A loop over pages ends after one request more than there are tokens that were not seen. -/
theorem lookupPages_ends {α : Type}
    {fetch : Option String → Except StorageError (List α × Option String)}
    {repeated : StorageError}
    (hfetch : ∀ token items next, fetch token = .ok (items, some next) → next ∈ tokens)
    {seen : List String} (hseen : ∀ token ∈ seen, token ∈ tokens) (hnodup : seen.Nodup) {fuel : ℕ}
    (hfuel : tokens.card < seen.length + fuel) {token : Option String} :
    (GoogleDriveObjectStore.lookupPages fetch repeated fuel seen token).run.isSome = true := by
  induction fuel generalizing seen token with
  | zero =>
    have hsubset : seen.toFinset ⊆ tokens := fun t ht => hseen t (List.mem_toFinset.mp ht)
    have hcard := Finset.card_le_card hsubset
    rw [List.toFinset_card_of_nodup hnodup] at hcard
    omega
  | succ fuel ih =>
    cases hpage : fetch token with
    | error e =>
      rw [GoogleDriveObjectStore.lookupPages, hpage]
      rfl
    | ok page =>
      obtain ⟨items, next⟩ := page
      cases next with
      | none =>
        rw [GoogleDriveObjectStore.lookupPages, hpage]
        rfl
      | some next =>
        by_cases hrepeated : next ∈ seen
        · have hthrow : (GoogleDriveObjectStore.lookupPages fetch repeated (fuel + 1) seen token) =
              throw repeated := by
            rw [GoogleDriveObjectStore.lookupPages, hpage]
            exact if_pos hrepeated
          rw [hthrow]
          rfl
        · have hfound : fetch token =
              (Except.ok items).map fun items => (items, some next) := hpage
          rw [lookupPages_of_next hfound hrepeated]
          have hcard : tokens.card < (next :: seen).length + fuel := by
            rw [List.length_cons]
            omega
          have hrest : (GoogleDriveObjectStore.lookupPages fetch repeated fuel (next :: seen)
              (some next)).run.isSome = true :=
            ih (List.forall_mem_cons.mpr ⟨hfetch _ _ _ hpage, hseen⟩)
              (List.nodup_cons.mpr ⟨hrepeated, hnodup⟩) hcard
          obtain ⟨r, hr⟩ := Option.isSome_iff_exists.mp hrest
          have hsteps : ((do
              let items ← ExceptT.mk (some (.ok items))
              pure (items ++ (← GoogleDriveObjectStore.lookupPages fetch repeated fuel
                (next :: seen) (some next)))) : ExceptT StorageError Option (List α)).run =
              some (r.map fun rest => items ++ rest) := by
            simp only [ExceptT.run_bind]
            change (Option.bind (GoogleDriveObjectStore.lookupPages fetch repeated fuel
              (next :: seen) (some next)).run _) = _
            rw [hr]
            cases r with
            | error e => rfl
            | ok rest => rfl
          rw [hsteps]
          rfl

/-- A search ends after one request more than there are tokens handed out for it. -/
theorem lookupAll_ends {α : Type} {what folder : String}
    {verify : ℕ → DriveFileResource → Except StorageError α} {fuel : ℕ}
    (htokens : ∀ token, HandedOut api fields query token → token ∈ tokens)
    (hfuel : tokens.card < fuel) :
    (store.lookupAll api what folder fields query verify fuel).run.isSome = true :=
  lookupPages_ends (fun _ _ _ hpage => htokens _ (handedOut_of_lookupPage hpage))
    (fun _ h => absurd h List.not_mem_nil) List.nodup_nil (by simpa using hfuel)

/-- Two steps that end. -/
theorem bind_isSome {ε α β : Type} {first : ExceptT ε Option α} {second : α → ExceptT ε Option β}
    (hfirst : first.run.isSome = true) (hsecond : ∀ a, (second a).run.isSome = true) :
    (first >>= second).run.isSome = true := by
  obtain ⟨r, hr⟩ := Option.isSome_iff_exists.mp hfirst
  rw [ExceptT.run_bind, hr]
  cases r with
  | error e => rfl
  | ok a => exact hsecond a

/-- A step that ends for each element of a list. -/
theorem mapM_isSome {ε α β : Type} {f : α → ExceptT ε Option β} {xs : List α}
    (h : ∀ x, (f x).run.isSome = true) : (xs.mapM f).run.isSome = true := by
  induction xs with
  | nil => rfl
  | cons x xs ih =>
    rw [List.mapM_cons]
    exact bind_isSome (h x) fun _ => bind_isSome ih fun _ => rfl

/-- A lookup ends, if each of its searches may make one request more than there are tokens handed
out for it. -/
theorem lookupObject_ends {sha256Hex : String → String} {object : LfsObject} {fuel : ℕ}
    (htokens : ∀ fields query, ∃ tokens : Finset String, tokens.card < fuel ∧
      ∀ token, HandedOut api fields query token → token ∈ tokens) :
    (store.lookupObject api sha256Hex fuel object).run.isSome = true := by
  have hsearch : ∀ {α : Type} (what folder : String) (fields : List String) (query : String)
      (verify : ℕ → DriveFileResource → Except StorageError α),
      (store.lookupAll api what folder fields query verify fuel).run.isSome = true := by
    intro α what folder fields query verify
    obtain ⟨tokens, hcard, hmem⟩ := htokens fields query
    exact lookupAll_ends hmem hcard
  refine bind_isSome ?_ fun _ => rfl
  unfold GoogleDriveObjectStore.lookupCandidates
  rw [GoogleDriveObjectStore.objectKey_eq]
  refine bind_isSome rfl fun key => bind_isSome (hsearch _ _ _ _ _) fun _ => ?_
  refine bind_isSome (bind_isSome (hsearch _ _ _ _ _) fun _ => rfl) fun folders => ?_
  exact bind_isSome (mapM_isSome fun folder => hsearch _ _ _ _ _) fun _ => rfl

end Requests

/-- There is fuel for every search of a lookup. -/
theorem ServedLookup.exists_enough {store : GoogleDriveObjectStore} {sha256Hex : String → String}
    {object : LfsObject} {m : DriveMatches} (run : ServedLookup store sha256Hex object m) :
    ∃ fuel, run.Enough fuel := by
  have hfinite : ∃ folders : List String, ∀ folder, m.Searched store object folder →
      folder ∈ folders := by
    refine ⟨store.rootFolderId :: m.shardFolders.filterMap fun file =>
      (verifyDriveShardFolder store (store.key object) 200 file).toOption, ?_⟩
    rintro folder (rfl | ⟨file, hfile, hverified⟩)
    · exact List.mem_cons_self
    · refine List.mem_cons_of_mem _ (List.mem_filterMap.mpr ⟨file, hfile, ?_⟩)
      rw [hverified]
      rfl
  obtain ⟨folders, hfolders⟩ := hfinite
  refine ⟨run.shardFolders.pages.length +
    (folders.map fun folder => (run.objects folder).pages.length).sum, Nat.le_add_right _ _,
    fun folder hfolder => ?_⟩
  have hle := List.le_sum_of_mem (List.mem_map_of_mem
    (f := fun folder => (run.objects folder).pages.length) (hfolders folder hfolder))
  exact hle.trans (Nat.le_add_left _ _)

/-- **Deterministic lookup**: a lookup is exact, and two lookups of the same files find the same,
unless everything passes its check and a page is too long to be read. A search ends after one
request more than there are tokens handed out for it. -/
theorem lookup_object_deterministic (store : GoogleDriveObjectStore) (sha256Hex : String → String)
    (object : LfsObject) (m : DriveMatches) (run run' : ServedLookup store sha256Hex object m)
    (api : DriveApi) :
    (∃ fuel, run.Enough fuel) ∧
    (∀ fuel, run.Enough fuel →
      (LookupExact m store sha256Hex object
        (store.lookupObject run.api sha256Hex fuel object).run ↔
          (m.Verified store sha256Hex object → run.PagesFit))) ∧
    (∀ fuel fuel', run.Enough fuel → run'.Enough fuel' →
      (m.Verified store sha256Hex object → run.PagesFit ∧ run'.PagesFit) →
      ∀ found, (store.lookupObject run.api sha256Hex fuel object).run = some (.ok found) ↔
        (store.lookupObject run'.api sha256Hex fuel' object).run = some (.ok found)) ∧
    (∀ (fields : List String) (query what folder : String) (α : Type)
      (verify : ℕ → DriveFileResource → Except StorageError α) (tokens : Finset String),
      (∀ token, HandedOut api fields query token → token ∈ tokens) →
      (store.lookupAll api what folder fields query verify (tokens.card + 1)).run.isSome = true) ∧
    ∀ fuel, (∀ fields query, ∃ tokens : Finset String, tokens.card < fuel ∧
        ∀ token, HandedOut api fields query token → token ∈ tokens) →
      (store.lookupObject api sha256Hex fuel object).run.isSome = true := by
  refine ⟨run.exists_enough, fun fuel hfuel => lookupExact_iff hfuel, ?_,
    fun fields query what folder α verify tokens htokens =>
      lookupAll_ends htokens (Nat.lt_succ_self _),
    fun fuel htokens => lookupObject_ends htokens⟩
  intro fuel fuel' hfuel hfuel' hfits found
  have hexact := (lookupExact_iff hfuel).mpr fun hverified => (hfits hverified).1
  have hexact' := (lookupExact_iff hfuel').mpr fun hverified => (hfits hverified).2
  exact ⟨hexact.found_eq hexact', hexact'.found_eq hexact⟩

section Sample

/-- Identifiers of folders, as long as those that Drive gives out. -/
def longFolderId (n : ℕ) : DriveFileId where
  text := String.ofList (List.replicate (n + 60) 'f')
  visible := by
    have hplain : ∀ c ∈ List.replicate (n + 60) 'f', Text.isWhitespace c = false := by
      intro c hc
      rw [List.eq_of_mem_replicate hc]
      decide
    have htrim := Text.trim_eq_self hplain
    unfold Text.isBlank
    rw [String.toList_ofList, htrim]
    simp
  segment := by
    have hdots : ∀ s : String, s.toList.length < 60 →
        String.ofList (List.replicate (n + 60) 'f') ≠ s := by
      rintro _ hshort rfl
      simp at hshort
    unfold pathSegments
    rw [List.filter_cons_of_pos, List.filter_nil]
    simp only [ne_eq, decide_not, Bool.and_eq_true, Bool.not_eq_eq_eq_not, Bool.not_true,
      decide_eq_false_iff_not]
    exact ⟨hdots "." (by decide), hdots ".." (by decide)⟩

/-- A folder of the shard of an object in the root folder. -/
def duplicateShardFolder (n : ℕ) : DriveFileResource :=
  DriveFile.resource ⟨(sampleStore.key ⟨LfsOid.zero, 1⟩).shardFolderName,
    googleDriveFolderMimeType, none, false, [sampleRootId],
    propertyTable (sampleStore.key ⟨LfsOid.zero, 1⟩).shardFolderPairs⟩ (longFolderId n)
    shardFolderFields

theorem duplicateShardFolder_verified (n : ℕ) :
    verifyDriveShardFolder sampleStore (sampleStore.key ⟨LfsOid.zero, 1⟩) 200
      (duplicateShardFolder n) = .ok (longFolderId n).text := by
  refine DriveFile.IsShardFolder.verified ⟨rfl, rfl, rfl, List.mem_cons_self, ?_⟩ _ _
  intro pair hpair
  exact (lookup_propertyTable (by decide)).mpr hpair

/-- A member of a JSON object. -/
def renderMember (name : String) (value : List Char) : List Char :=
  JsonText.renderString name ++ ':' :: value

/-- The JSON text of a folder with given members. -/
def renderShardFolderMembers (id name mimeType parents trashed properties : List Char) : List Char :=
  Char.ofNat 0x7b :: (renderMember "id" id ++ (',' :: renderMember "name" name ++
    (',' :: renderMember "mimeType" mimeType ++ (',' :: renderMember "parents" parents ++
    (',' :: renderMember "trashed" trashed ++ (',' :: renderMember "appProperties" properties ++
    [Char.ofNat 0x7d, ',']))))))

/-- The JSON text of a folder in a page. -/
def renderShardFolder (file : DriveFileResource) : List Char :=
  renderShardFolderMembers (JsonText.quote :: ((file.id.getD "").toList ++ [JsonText.quote]))
    (JsonText.renderString (file.name.getD "")) (JsonText.renderString (file.mimeType.getD ""))
    ('[' :: (file.parents.flatMap JsonText.renderString ++ [']']))
    (toString file.trashed).toList
    (Char.ofNat 0x7b :: (file.appProperties.entries.flatMap (fun entry =>
      renderMember entry.1 (JsonText.renderString entry.2)) ++ [Char.ofNat 0x7d]))

/-- The JSON text of a page without a token behind it. -/
def renderShardFolders (page : GoogleDriveFileList) : List Char :=
  Char.ofNat 0x7b :: (renderMember "files" ('[' ::
    (page.files.flatMap renderShardFolder ++ [']'])) ++ [Char.ofNat 0x7d])

/-- A hundred folders of one shard. -/
def duplicateShardFolders : List DriveFileResource := (List.range 100).map duplicateShardFolder

theorem le_byteLength_renderShardFolders (page : GoogleDriveFileList) :
    Text.byteLength (page.files.flatMap renderShardFolder) ≤
      Text.byteLength (renderShardFolders page) := by
  unfold renderShardFolders renderMember
  generalize page.files.flatMap renderShardFolder = text
  simp only [Text.byteLength_cons, Text.byteLength_append]
  omega

theorem le_byteLength_renderShardFolderMembers
    {id name mimeType parents trashed properties : List Char} :
    Text.byteLength id + Text.byteLength name + Text.byteLength mimeType + 53 ≤
      Text.byteLength (renderShardFolderMembers id name mimeType parents trashed properties) := by
  have hnames : Text.byteLength (JsonText.renderString "id") = 4 ∧
      Text.byteLength (JsonText.renderString "name") = 6 ∧
      Text.byteLength (JsonText.renderString "mimeType") = 10 ∧
      Text.byteLength (JsonText.renderString "parents") = 9 ∧
      Text.byteLength (JsonText.renderString "trashed") = 9 ∧
      Text.byteLength (JsonText.renderString "appProperties") = 15 := by decide
  unfold renderShardFolderMembers renderMember
  simp only [List.cons_append, Text.byteLength_cons, Text.byteLength_append, hnames]
  omega

theorem byteLength_duplicateShardFolder (n : ℕ) :
    164 ≤ Text.byteLength (renderShardFolder (duplicateShardFolder n)) := by
  have hid : Text.byteLength (JsonText.quote ::
      (((duplicateShardFolder n).id.getD "").toList ++ [JsonText.quote])) = n + 62 := by
    have htext : Text.byteLength ((duplicateShardFolder n).id.getD "").toList = n + 60 := by
      change Text.byteLength (String.ofList (List.replicate (n + 60) 'f')).toList = n + 60
      rw [String.toList_ofList, Text.byteLength_eq_length fun c hc =>
        List.eq_of_mem_replicate hc ▸ rfl, List.length_replicate]
    rw [Text.byteLength_cons, Text.byteLength_append, htext]
    have hquote : JsonText.quote.utf8Size = 1 ∧ Text.byteLength [JsonText.quote] = 1 := by decide
    rw [hquote.1, hquote.2]
    omega
  have hmime : Text.byteLength (JsonText.renderString
      ((duplicateShardFolder n).mimeType.getD "")) = 36 := by
    change Text.byteLength (JsonText.renderString googleDriveFolderMimeType) = 36
    decide
  have hname : Text.byteLength (JsonText.renderString
      ((duplicateShardFolder n).name.getD "")) = 20 := by
    change Text.byteLength (JsonText.renderString
      (sampleStore.key ⟨LfsOid.zero, 1⟩).shardFolderName) = 20
    decide
  unfold renderShardFolder
  refine le_trans ?_ le_byteLength_renderShardFolderMembers
  rw [hid, hmime, hname]
  exact Nat.le_trans (by decide : 164 ≤ 62 + 20 + 36 + 53) (by omega)

/-- A page of a hundred folders is too long to be read. -/
theorem not_pageFits_duplicateShardFolders :
    ¬PageFits renderShardFolders ⟨duplicateShardFolders, none, false⟩ := by
  have hsum := List.card_nsmul_le_sum ((List.range 100).map fun n =>
    Text.byteLength (renderShardFolder (duplicateShardFolder n))) 164 (by
      intro x hx
      obtain ⟨n, _, rfl⟩ := List.mem_map.mp hx
      exact byteLength_duplicateShardFolder n)
  rw [List.length_map, List.length_range, smul_eq_mul] at hsum
  have hfiles : 100 * 164 ≤ Text.byteLength (duplicateShardFolders.flatMap renderShardFolder) := by
    rw [Text.byteLength_flatMap]
    unfold duplicateShardFolders
    rw [List.map_map]
    exact hsum
  intro hfits
  unfold PageFits at hfits
  have hpage := le_byteLength_renderShardFolders ⟨duplicateShardFolders, none, false⟩
  have hlong := hfiles.trans (hpage.trans hfits)
  exact absurd hlong (by norm_num [maxGoogleErrorBodyLen])

/-- A Drive that serves a hundred folders in one page. -/
def duplicateShardApi : DriveApi where
  get _ _ := .error ""
  list fields _ _ := .ok ⟨200, readPage renderShardFolders
    ⟨if fields = shardFolderFields then duplicateShardFolders else [], none, false⟩, ⟨"", []⟩⟩

theorem duplicateShardApi_list {fields : List String} {query : String} {token : Option String}
    {files : List DriveFileResource}
    (hfiles : (if fields = shardFolderFields then duplicateShardFolders else []) = files) :
    duplicateShardApi.list fields query token =
      .ok ⟨200, readPage renderShardFolders ⟨files, none, false⟩, ⟨"", []⟩⟩ := by
  rw [← hfiles]
  rfl

/-- The folders of a shard, and no objects. -/
def duplicateShards : DriveMatches := ⟨fun _ => [], duplicateShardFolders⟩

/-- A lookup of an object, where the folders of the shard are in one page. -/
def duplicateShardRun : ServedLookup sampleStore (fun _ => "") ⟨LfsOid.zero, 1⟩ duplicateShards where
  api := duplicateShardApi
  render := renderShardFolders
  rootVisible := by decide
  objects _ :=
    { pages := [⟨[], none, false⟩]
      served := .last (duplicateShardApi_list (if_neg (by decide))) rfl rfl
      small := by simp
      distinct := by simp
      listed := List.Perm.refl _ }
  shardFolders :=
    { pages := [⟨duplicateShardFolders, none, false⟩]
      served := .last (duplicateShardApi_list (if_pos rfl)) rfl rfl
      small := by simp [duplicateShardFolders, shardFolderPageSize]
      distinct := by simp
      listed := by simp [duplicateShards] }

/-- With a hundred folders of a shard in one page, a lookup fails although everything passes. -/
theorem lookup_object_full_page :
    ¬LookupExact duplicateShards sampleStore (fun _ => "") ⟨LfsOid.zero, 1⟩
      (sampleStore.lookupObject duplicateShardRun.api (fun _ => "") 1 ⟨LfsOid.zero, 1⟩).run := by
  have hfuel : duplicateShardRun.Enough 1 := ⟨le_refl _, fun _ _ => le_refl _⟩
  rw [lookupExact_iff hfuel]
  intro h
  have hverified : duplicateShards.Verified sampleStore (fun _ => "") ⟨LfsOid.zero, 1⟩ := by
    refine ⟨fun file hfile => ?_, fun folder _ file hfile => absurd hfile List.not_mem_nil⟩
    obtain ⟨n, _, rfl⟩ := List.mem_map.mp hfile
    exact ⟨_, duplicateShardFolder_verified n⟩
  exact not_pageFits_duplicateShardFolders
    ((h hverified).shardFolders _ List.mem_cons_self)

end Sample

end LfsCloud
