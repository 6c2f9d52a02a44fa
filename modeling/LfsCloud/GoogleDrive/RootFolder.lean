import LfsCloud.GoogleDrive.LookupDeterminism
import LfsCloud.Lib.Transition

/-!
# The default root folder

A client without a configured folder looks for the default one, takes the folder with the least
identifier, and creates it where there is none. Clients that do so at the same time may create
several. From then on all of them settle on one.
-/

namespace LfsCloud

open GoogleDriveObjectStore DriveQuery Transition

/-- `GOOGLE_DRIVE_DEFAULT_ROOT_FOLDER_NAME`. -/
def googleDriveDefaultRootFolderName : String := ".lfscloud"

/-- `GOOGLE_DRIVE_FOLDER_KIND_PROPERTY`. -/
def googleDriveFolderKindProperty : String := "lfsCloudFolderKind"

/-- `GOOGLE_DRIVE_STORAGE_ROOT_KIND`. -/
def googleDriveStorageRootKind : String := "storageRoot"

/-- `GOOGLE_DRIVE_ROOT_PARENT_ALIAS`. -/
def googleDriveRootParentAlias : String := "root"

/-- `drive_default_root_folder_lookup_query`. -/
def driveDefaultRootFolderLookupQuery : String :=
  "'" ++ googleDriveRootParentAlias ++ "' in parents and trashed = false and name = '" ++
    escapeDriveQueryString googleDriveDefaultRootFolderName ++ "' and mimeType = '" ++
    googleDriveFolderMimeType ++ "' and appProperties has \x7b key='" ++
    googleDriveFolderKindProperty ++ "' and value='" ++ googleDriveStorageRootKind ++ "' \x7d"

/-- `has_single_drive_parent`. -/
def hasSingleDriveParent : List String → Bool
  | [parent] => !Text.isBlank parent
  | _ => false

/-- `verify_drive_default_root_folder`. -/
def verifyDriveDefaultRootFolder (storage : GoogleDriveStorageConfig) (status : ℕ)
    (file : DriveFileResource) : Except StorageError String :=
  match file.id.filter fun id => !Text.isBlank id with
  | none => .error (.upstream storage.id (some status)
      "Google Drive default root-folder response did not include id")
  | some id =>
    if file.name = some googleDriveDefaultRootFolderName ∧
        file.mimeType = some googleDriveFolderMimeType ∧ file.trashed = false ∧
        hasSingleDriveParent file.parents = true ∧
        file.appProperties.lookup googleDriveFolderKindProperty =
          some googleDriveStorageRootKind then
      .ok id
    else .error (.upstream storage.id (some status)
      "Google Drive default root-folder response did not match its expected identity")

section

variable (api : DriveApi) (storage : GoogleDriveStorageConfig)

/-- The request for a page, and `parse_drive_default_root_folder_page`. A failed response is
classified as that of an object lookup. -/
def defaultRootFolderPage (token : Option String) :
    Except StorageError (List String × Option String) := do
  let reply ← sendDriveRequest storage
    (api.list shardFolderFields driveDefaultRootFolderLookupQuery token)
  let page ← readDriveResource storage
    "Google Drive default root-folder lookup response was invalid JSON" reply
  if page.incompleteSearch then
    .error (.retryable storage.id
      "Google Drive default root-folder lookup returned incomplete results")
  else
    let folderIds ← page.files.mapM (verifyDriveDefaultRootFolder storage reply.status)
    if page.nextPageToken.any Text.isBlank then
      .error (.upstream storage.id (some reply.status)
        "Google Drive default root-folder lookup returned a blank page token")
    else return (folderIds, page.nextPageToken)

/-- The search of `ensure_default_root_folder`. -/
def defaultRootFolderIds (fuel : ℕ) : ExceptT StorageError Option (List String) :=
  lookupPages (defaultRootFolderPage api storage)
    (.retryable storage.id "Google Drive default root-folder lookup repeated a page token")
    fuel [] none

/-- The folder that is taken, if any is found. -/
def firstFolderId (folderIds : List String) : Option String :=
  (folderIds.mergeSort fun left right => decide (left ≤ right)).dedup.head?

/-- The folder of the answer to a creation. -/
def createdRootFolderId (answer : Except String (DriveReply DriveFileResource)) :
    Except StorageError String := do
  let reply ← sendDriveRequest storage answer
  let file ← readDriveResource storage
    "Google Drive default root-folder creation response was invalid JSON" reply
  verifyDriveDefaultRootFolder storage reply.status file

/-- `ensure_default_root_folder`: what is answered to a creation is asked for only where no folder
is found. -/
def ensureDefaultRootFolder (create : Unit → Except String (DriveReply DriveFileResource))
    (fuel : ℕ) : ExceptT StorageError Option String := do
  let folderIds ← defaultRootFolderIds api storage fuel
  match firstFolderId folderIds with
  | some id => return id
  | none => ExceptT.mk (some (createdRootFolderId storage (create ())))

end

/-! ## One client -/

/-- Drive reads the search as the marks of a default root folder. -/
theorem read_driveDefaultRootFolderLookupQuery :
    DriveQuery.read driveDefaultRootFolderLookupQuery =
      some [.inParents googleDriveRootParentAlias, .trashed false,
        .name googleDriveDefaultRootFolderName, .mimeType googleDriveFolderMimeType,
        .appProperty googleDriveFolderKindProperty googleDriveStorageRootKind] := by
  have halias :
      escapeDriveQueryString googleDriveRootParentAlias = googleDriveRootParentAlias := by
    decide
  have hmime : escapeDriveQueryString googleDriveFolderMimeType = googleDriveFolderMimeType := by
    decide
  have hkindKey :
      escapeDriveQueryString googleDriveFolderKindProperty = googleDriveFolderKindProperty := by
    decide
  have hkind : escapeDriveQueryString googleDriveStorageRootKind = googleDriveStorageRootKind := by
    decide
  have hwords : "' in parents and trashed = false and name = '" =
      "'" ++ inParentsWord ++ andWord ++ trashedWord ++ falseWord ++ andWord ++ nameWord ++
        "'" := by
    decide
  have hmimeWord : "' and mimeType = '" = "'" ++ andWord ++ mimeTypeWord ++ "'" := by decide
  have hfirst : "' and appProperties has \x7b key='" =
      "'" ++ andWord ++ appPropertiesWord ++ "'" := by
    decide
  have hvalue : "' and value='" = "'" ++ valueWord ++ "'" := by decide
  have hclose : "' \x7d" = "'" ++ closeWord := by decide
  have hwritten : driveDefaultRootFolderLookupQuery =
      writeAll (.inParents googleDriveRootParentAlias) [.trashed false,
        .name googleDriveDefaultRootFolderName, .mimeType googleDriveFolderMimeType,
        .appProperty googleDriveFolderKindProperty googleDriveStorageRootKind] := by
    unfold driveDefaultRootFolderLookupQuery writeAll
    simp only [hwords, hmimeWord, hfirst, hvalue, hclose, List.foldl_cons, List.foldl_nil, write,
      quote, String.append_assoc, halias, hmime, hkind, hkindKey]
  rw [hwritten, read_writeAll]

variable {api : DriveApi} {storage : GoogleDriveStorageConfig} {fuel : ℕ}
  {render : GoogleDriveFileList → List Char} {files : List DriveFileResource}

theorem id_eq_of_verified {status : ℕ} {file : DriveFileResource} {id : String}
    (h : verifyDriveDefaultRootFolder storage status file = .ok id) : file.id = some id := by
  unfold verifyDriveDefaultRootFolder at h
  split at h
  · cases h
  next found hfound =>
    split_ifs at h
    cases h
    exact (Option.filter_eq_some_iff.mp hfound).1

/-- The taken folder is the least one that is found. -/
theorem firstFolderId_eq_some {folderIds : List String} {id : String}
    (h : firstFolderId folderIds = some id) :
    id ∈ folderIds ∧ ∀ other ∈ folderIds, id ≤ other := by
  have hsorted : (folderIds.mergeSort fun left right => decide (left ≤ right)).Pairwise
      fun left right => decide (left ≤ right) = true := by
    apply List.pairwise_mergeSort
    · intro a b c hab hbc
      simp only [decide_eq_true_eq] at hab hbc ⊢
      exact String.le_trans hab hbc
    · intro a b
      simpa only [Bool.or_eq_true, decide_eq_true_eq] using String.le_total a b
  have hleft := hsorted.sublist (List.dedup_sublist _)
  have hmem : ∀ other, other ∈ folderIds ↔
      other ∈ (folderIds.mergeSort fun left right => decide (left ≤ right)).dedup :=
    fun other => by rw [List.mem_dedup, List.mem_mergeSort]
  obtain ⟨rest, hrest⟩ := List.head?_eq_some_iff.mp h
  simp only [hmem]
  rw [hrest] at hleft ⊢
  refine ⟨List.mem_cons_self, fun other hother => ?_⟩
  rcases List.mem_cons.mp hother with rfl | hother
  · exact String.le_refl _
  · exact of_decide_eq_true ((List.pairwise_cons.mp hleft).1 other hother)

theorem firstFolderId_eq_none {folderIds : List String} (h : firstFolderId folderIds = none) :
    folderIds = [] := by
  have hempty := List.head?_eq_none_iff.mp h
  refine List.eq_nil_iff_forall_not_mem.mpr fun id hmem => ?_
  have hfound : id ∈ (folderIds.mergeSort fun left right => decide (left ≤ right)).dedup := by
    rw [List.mem_dedup, List.mem_mergeSort]
    exact hmem
  rw [hempty] at hfound
  cases hfound

/-- A page that is served is read when it fits, and every file of it is tried. -/
theorem defaultRootFolderPage_served {token : Option String} {page : GoogleDriveFileList}
    {diagnostic : DriveDiagnostic}
    (hlist : api.list shardFolderFields driveDefaultRootFolderLookupQuery token =
      .ok ⟨200, readPage render page, diagnostic⟩)
    (hcomplete : page.incompleteSearch = false)
    (hvisible : page.nextPageToken.any Text.isBlank = false) :
    defaultRootFolderPage api storage token =
      if PageFits render page then
        (page.files.mapM (verifyDriveDefaultRootFolder storage 200)).map fun items =>
          (items, page.nextPageToken)
      else .error (.upstream storage.id (some 200)
        "Google Drive default root-folder lookup response was invalid JSON") := by
  unfold defaultRootFolderPage
  rw [hlist]
  by_cases hfits : PageFits render page
  · have hread := readDriveResource_ok storage
      "Google Drive default root-folder lookup response was invalid JSON" page diagnostic
    unfold readPage
    rw [if_pos hfits, if_pos hfits]
    simp only [sendDriveRequest]
    dsimp only [bind, Except.bind]
    rw [hread]
    dsimp only
    rw [hcomplete, hvisible]
    cases page.files.mapM (verifyDriveDefaultRootFolder storage 200) <;> rfl
  · unfold readPage
    rw [if_neg hfits, if_neg hfits]
    rfl

/-- A served search finds the folders of Drive, or fails. -/
theorem yields_defaultRootFolderIds (search : ServedSearch api render shardFolderFields
      driveDefaultRootFolderLookupQuery shardFolderPageSize files)
    (hfuel : search.pages.length ≤ fuel) :
    Yields (defaultRootFolderIds api storage fuel)
      ((∀ page ∈ search.pages, PageFits render page) ∧
        ∀ file ∈ files, ∃ id, verifyDriveDefaultRootFolder storage 200 file = .ok id)
      fun id => ∃ file ∈ files, verifyDriveDefaultRootFolder storage 200 file = .ok id := by
  have hunseen : ∀ next ∈ search.pages.filterMap (·.nextPageToken), next ∉ ([] : List String) :=
    fun _ _ => List.not_mem_nil
  have hpages := yields_servedPages (verifyDriveDefaultRootFolder storage)
    (.retryable storage.id "Google Drive default root-folder lookup repeated a page token")
    defaultRootFolderPage_served search.served search.distinct hunseen hfuel
  have hmem : ∀ file, file ∈ search.pages.flatMap (·.files) ↔ file ∈ files :=
    fun file => search.listed.mem_iff
  refine hpages.congr ?_ fun _ id => ?_
  · simp only [hmem]
  · simp only [hmem]

/-- The least of the folders. -/
def IsFirstFolder (files : List DriveFileResource) (id : String) : Prop :=
  (∃ file ∈ files, file.id = some id) ∧
    ∀ file ∈ files, ∀ other, file.id = some other → id ≤ other

/-- What a client is at: it has not looked yet or is about to create a folder, or has ended. -/
inductive RootClient
  | idle
  | creating
  | done (id : String)
  | failed (error : StorageError)

namespace RootClient

/-- What follows a search. -/
def afterLookup : Except StorageError (List String) → RootClient
  | .error error => .failed error
  | .ok folderIds =>
    match firstFolderId folderIds with
    | some id => .done id
    | none => .creating

theorem afterLookup_none {folderIds : List String} (h : firstFolderId folderIds = none) :
    afterLookup (.ok folderIds) = .creating := by
  simp only [afterLookup, h]

theorem afterLookup_some {folderIds : List String} {id : String}
    (h : firstFolderId folderIds = some id) : afterLookup (.ok folderIds) = .done id := by
  simp only [afterLookup, h]

/-- What follows a creation. -/
def afterCreate : Except StorageError String → RootClient
  | .error error => .failed error
  | .ok id => .done id

/-- The two steps of a client end as the whole does. -/
theorem afterCreate_ensureDefaultRootFolder
    {create : Unit → Except String (DriveReply DriveFileResource)}
    {found : Except StorageError (List String)}
    (hfound : (defaultRootFolderIds api storage fuel).run = some found) :
    ∃ result, (ensureDefaultRootFolder api storage create fuel).run = some result ∧
      afterCreate result = match afterLookup found with
        | .creating => afterCreate (createdRootFolderId storage (create ()))
        | client => client := by
  unfold ensureDefaultRootFolder
  rw [ExceptT.run_bind, hfound]
  cases found with
  | error error => exact ⟨.error error, rfl, rfl⟩
  | ok folderIds =>
    simp only [Option.bind_eq_bind, Option.bind_some]
    cases hfirst : firstFolderId folderIds with
    | none =>
      rw [afterLookup_none hfirst]
      exact ⟨_, rfl, rfl⟩
    | some id =>
      rw [afterLookup_some hfirst]
      exact ⟨.ok id, rfl, rfl⟩

/-- A search finds the least folder of Drive, or none where there is none. -/
theorem afterLookup_served (search : ServedSearch api render shardFolderFields
      driveDefaultRootFolderLookupQuery shardFolderPageSize files)
    (hfuel : search.pages.length ≤ fuel) {found : Except StorageError (List String)}
    (hfound : (defaultRootFolderIds api storage fuel).run = some found) :
    (∀ id, afterLookup found = .done id → IsFirstFolder files id) ∧
      (afterLookup found = .creating → files = []) := by
  rcases yields_defaultRootFolderIds search hfuel with
    ⟨folderIds, hids, ⟨_, hverified⟩, hmem⟩ | ⟨error, herror, _⟩
  · cases hfound.symm.trans hids
    have hlisted : ∀ file ∈ files, ∀ id, file.id = some id → id ∈ folderIds := by
      intro file hfile id hid
      obtain ⟨other, hother⟩ := hverified file hfile
      cases hid.symm.trans (id_eq_of_verified hother)
      exact (hmem id).mpr ⟨file, hfile, hother⟩
    cases hfirst : firstFolderId folderIds with
    | none =>
      rw [afterLookup_none hfirst]
      refine ⟨fun id h => (by cases h), fun _ => ?_⟩
      refine List.eq_nil_iff_forall_not_mem.mpr fun file hfile => ?_
      obtain ⟨id, hid⟩ := hverified file hfile
      have hin := hlisted file hfile id (id_eq_of_verified hid)
      rw [firstFolderId_eq_none hfirst] at hin
      cases hin
    | some id =>
      rw [afterLookup_some hfirst]
      refine ⟨fun other h => ?_, fun h => (by cases h)⟩
      cases h
      obtain ⟨hin, hleast⟩ := firstFolderId_eq_some hfirst
      obtain ⟨file, hfile, hid⟩ := (hmem id).mp hin
      exact ⟨⟨file, hfile, id_eq_of_verified hid⟩,
        fun other hother id' hid' => hleast id' (hlisted other hother id' hid')⟩
  · cases hfound.symm.trans herror
    exact ⟨fun id h => (by cases h), fun h => (by cases h)⟩

/-- A search that can be read, of folders that pass, finds the first of them. -/
theorem afterLookup_of_fits (search : ServedSearch api render shardFolderFields
      driveDefaultRootFolderLookupQuery shardFolderPageSize files)
    (hfuel : search.pages.length ≤ fuel) (hfits : ∀ page ∈ search.pages, PageFits render page)
    (hverified : ∀ file ∈ files, ∃ id, verifyDriveDefaultRootFolder storage 200 file = .ok id) :
    ∃ found, (defaultRootFolderIds api storage fuel).run = some found ∧
      ((files = [] ∧ afterLookup found = .creating) ∨
        ∃ id, IsFirstFolder files id ∧ afterLookup found = .done id) := by
  rcases yields_defaultRootFolderIds search hfuel with
    ⟨folderIds, hids, _, hmem⟩ | ⟨error, _, hnot⟩
  · refine ⟨.ok folderIds, hids, ?_⟩
    obtain ⟨hfirst, hnone⟩ := afterLookup_served search hfuel hids
    cases htaken : firstFolderId folderIds with
    | none => exact .inl ⟨hnone (afterLookup_none htaken), afterLookup_none htaken⟩
    | some id => exact .inr ⟨id, hfirst id (afterLookup_some htaken), afterLookup_some htaken⟩
  · exact absurd ⟨hfits, hverified⟩ hnot

end RootClient

/-! ## Many clients -/

/-- The default root folders on Drive, and the clients. -/
structure RootWorld (Client : Type) where
  folders : List DriveFileResource
  clients : Client → RootClient

namespace RootWorld

variable {Client : Type} [DecidableEq Client]

def set (w : RootWorld Client) (c : Client) (client : RootClient) : RootWorld Client :=
  { w with clients := Function.update w.clients c client }

def add (w : RootWorld Client) (file : DriveFileResource) : RootWorld Client :=
  { w with folders := w.folders ++ [file] }

/-- A step of a client: a search of the folders that are there, or one that fails, and a creation
that is answered, whose answer is lost, or that is refused. -/
inductive Step (storage : GoogleDriveStorageConfig) (render : GoogleDriveFileList → List Char) :
    RootWorld Client → Client → RootWorld Client → Prop
  | look {w c api fuel found}
      (search : ServedSearch api render shardFolderFields driveDefaultRootFolderLookupQuery
        shardFolderPageSize w.folders)
      (hfuel : search.pages.length ≤ fuel)
      (hfound : (defaultRootFolderIds api storage fuel).run = some found)
      (hready : w.clients c ≠ .creating) : Step storage render w c (w.set c (.afterLookup found))
  | lookFails {w c error} (hready : w.clients c ≠ .creating) :
      Step storage render w c (w.set c (.failed error))
  | created {w c file id diagnostic} (hcreating : w.clients c = .creating)
      (hfile : verifyDriveDefaultRootFolder storage 200 file = .ok id) :
      Step storage render w c ((w.add file).set c
        (.afterCreate (createdRootFolderId storage (.ok ⟨200, some file, diagnostic⟩))))
  | lost {w c file id error} (hcreating : w.clients c = .creating)
      (hfile : verifyDriveDefaultRootFolder storage 200 file = .ok id) :
      Step storage render w c ((w.add file).set c (.failed error))
  | refused {w c error} (hcreating : w.clients c = .creating) :
      Step storage render w c (w.set c (.failed error))

/-- Clients begin with whatever folders are there that have the marks of one. -/
def system (storage : GoogleDriveStorageConfig) (render : GoogleDriveFileList → List Char) :
    System (RootWorld Client) Client where
  init w := (∀ c, w.clients c = .idle) ∧
    ∀ file ∈ w.folders, ∃ id, verifyDriveDefaultRootFolder storage 200 file = .ok id
  step := Step storage render

/-- Every folder has the marks of one, and every client that is done has a folder that is there. -/
structure Sound (storage : GoogleDriveStorageConfig) (w : RootWorld Client) : Prop where
  verified : ∀ file ∈ w.folders, ∃ id, verifyDriveDefaultRootFolder storage 200 file = .ok id
  found : ∀ c id, w.clients c = .done id → ∃ file ∈ w.folders, file.id = some id

/-- There is a folder, and no client is about to create one. -/
structure Settled (w : RootWorld Client) : Prop where
  exists_folder : w.folders ≠ []
  quiet : ∀ c, w.clients c ≠ .creating

/-- What becomes of a world: no folder is lost, where there is a folder no further client goes on to
create one, and when no client does any more, the folders stay and all clients get the first. -/
structure Leads (w w' : RootWorld Client) : Prop where
  folders : w.folders <+: w'.folders
  creators : w.folders ≠ [] → ∀ c, w'.clients c = .creating → w.clients c = .creating
  settled : w.Settled → w'.Settled ∧ w'.folders = w.folders ∧
    ∀ c id, w'.clients c = .done id → w.clients c = .done id ∨ IsFirstFolder w.folders id

variable {w w' : RootWorld Client} {c : Client}

omit [DecidableEq Client] in
theorem Leads.refl (w : RootWorld Client) : w.Leads w where
  folders := List.prefix_rfl
  creators := fun _ _ h => h
  settled := fun h => ⟨h, rfl, fun _ _ hdone => .inl hdone⟩

omit [DecidableEq Client] in
theorem Leads.trans {w'' : RootWorld Client} (h : w.Leads w') (h' : w'.Leads w'') :
    w.Leads w'' where
  folders := h.folders.trans h'.folders
  creators := by
    intro hne c hcreating
    have hne' : w'.folders ≠ [] := fun hnil => hne (List.prefix_nil.mp (hnil ▸ h.folders))
    exact h.creators hne c (h'.creators hne' c hcreating)
  settled := by
    intro hsettled
    obtain ⟨hmiddle, hfolders, hdone⟩ := h.settled hsettled
    obtain ⟨hlast, hfolders', hdone'⟩ := h'.settled hmiddle
    refine ⟨hlast, hfolders'.trans hfolders, fun c id hend => ?_⟩
    rcases hdone' c id hend with hmid | hfirst
    · exact hdone c id hmid
    · exact .inr (hfolders ▸ hfirst)

theorem set_clients_of_ne {client : RootClient} {other : Client} (h : other ≠ c) :
    (w.set c client).clients other = w.clients other := by
  simp [set, h]

@[simp] theorem set_clients_self {client : RootClient} :
    (w.set c client).clients c = client := by
  simp [set]

/-- A client that does not create leads on when it ends with the first folder, fails, or finds that
there is none. -/
theorem leads_set {client : RootClient} (hready : client = .creating → w.folders = [])
    (hdone : ∀ id, client = .done id → IsFirstFolder w.folders id) :
    w.Leads (w.set c client) where
  folders := List.prefix_rfl
  creators := by
    intro hne other hcreating
    by_cases heq : other = c
    · rw [heq, set_clients_self] at hcreating
      exact absurd (hready hcreating) hne
    · rwa [set_clients_of_ne heq] at hcreating
  settled := by
    intro hsettled
    refine ⟨⟨hsettled.exists_folder, fun other hcreating => ?_⟩, rfl, fun other id hend => ?_⟩
    · by_cases heq : other = c
      · rw [heq, set_clients_self] at hcreating
        exact hsettled.exists_folder (hready hcreating)
      · rw [set_clients_of_ne heq] at hcreating
        exact hsettled.quiet other hcreating
    · by_cases heq : other = c
      · rw [heq, set_clients_self] at hend
        exact .inr (hdone id hend)
      · rw [set_clients_of_ne heq] at hend
        exact .inl hend

/-- A creation happens only where the world is not settled. -/
theorem leads_created {client : RootClient} {file : DriveFileResource}
    (hcreating : w.clients c = .creating) (hclient : client ≠ .creating) :
    w.Leads ((w.add file).set c client) where
  folders := List.prefix_append _ _
  creators := by
    intro _ other hother
    by_cases heq : other = c
    · rw [heq, set_clients_self] at hother
      exact absurd hother hclient
    · rwa [set_clients_of_ne heq] at hother
  settled := fun hsettled => absurd hcreating (hsettled.quiet c)

theorem afterCreate_ne_creating (result : Except StorageError String) :
    RootClient.afterCreate result ≠ .creating := by
  cases result <;> exact fun h => by cases h

/-- A folder that is created is the one that its client is done with. -/
theorem createdRootFolderId_ok {file : DriveFileResource} {diagnostic : DriveDiagnostic} :
    createdRootFolderId storage (.ok ⟨200, some file, diagnostic⟩) =
      verifyDriveDefaultRootFolder storage 200 file := rfl

theorem Step.leads (h : Step storage render w c w') : w.Leads w' := by
  cases h with
  | look search hfuel hfound hready =>
    obtain ⟨hfirst, hnone⟩ := RootClient.afterLookup_served search hfuel hfound
    exact leads_set hnone hfirst
  | lookFails hready => exact leads_set (fun h => by cases h) fun id h => by cases h
  | created hcreating hfile => exact leads_created hcreating (afterCreate_ne_creating _)
  | lost hcreating hfile => exact leads_created hcreating fun h => by cases h
  | refused hcreating => exact leads_set (fun h => by cases h) fun id h => by cases h

theorem Sound.set (h : w.Sound storage) {client : RootClient}
    (hclient : ∀ id, client = .done id → ∃ file ∈ w.folders, file.id = some id) :
    (w.set c client).Sound storage where
  verified := h.verified
  found := by
    intro other id hdone
    by_cases heq : other = c
    · rw [heq, set_clients_self] at hdone
      exact hclient id hdone
    · rw [set_clients_of_ne heq] at hdone
      exact h.found other id hdone

omit [DecidableEq Client] in
theorem Sound.add (h : w.Sound storage) {file : DriveFileResource} {id : String}
    (hfile : verifyDriveDefaultRootFolder storage 200 file = .ok id) :
    (w.add file).Sound storage where
  verified := by
    intro other hother
    rcases List.mem_append.mp hother with hold | hnew
    · exact h.verified other hold
    · exact ⟨id, List.mem_singleton.mp hnew ▸ hfile⟩
  found := by
    intro c found hdone
    obtain ⟨other, hother, hid⟩ := h.found c found hdone
    exact ⟨other, List.mem_append_left _ hother, hid⟩

theorem Sound.step (h : w.Sound storage) (hstep : Step storage render w c w') :
    w'.Sound storage := by
  cases hstep with
  | look search hfuel hfound hready =>
    obtain ⟨hfirst, _⟩ := RootClient.afterLookup_served search hfuel hfound
    exact h.set fun id hdone => (hfirst id hdone).1
  | lookFails hready => exact h.set fun id hdone => by cases hdone
  | @created file id diagnostic hcreating hfile =>
    refine (h.add hfile).set fun other hdone => ?_
    rw [createdRootFolderId_ok, hfile] at hdone
    cases hdone
    exact ⟨file, List.mem_append_right _ List.mem_cons_self, id_eq_of_verified hfile⟩
  | lost hcreating hfile => exact (h.add hfile).set fun other hdone => by cases hdone
  | refused hcreating => exact h.set fun id hdone => by cases hdone

/-- A client whose search can be read is done with the first folder. -/
theorem Sound.exists_look (h : w.Sound storage) (hne : w.folders ≠ [])
    (hready : w.clients c ≠ .creating)
    (search : ServedSearch api render shardFolderFields driveDefaultRootFolderLookupQuery
      shardFolderPageSize w.folders)
    (hfuel : search.pages.length ≤ fuel) (hfits : ∀ page ∈ search.pages, PageFits render page) :
    ∃ id, IsFirstFolder w.folders id ∧ Step storage render w c (w.set c (.done id)) := by
  obtain ⟨found, hfound, ⟨hnil, _⟩ | ⟨id, hfirst, hdone⟩⟩ :=
    RootClient.afterLookup_of_fits search hfuel hfits h.verified
  · exact absurd hnil hne
  · exact ⟨id, hfirst, hdone ▸ .look search hfuel hfound hready⟩

end RootWorld

/-- In every run of any number of clients every client that is done has a folder that is there, no
folder is lost, where there is a folder no further client goes on to create one, and when no client
is about to, the folders stay as they are and every client that is done later has the first. A
client whose search can be read is done so, whatever the order and the pages of its answer. -/
theorem default_root_folder_settles {Client : Type} [DecidableEq Client]
    (storage : GoogleDriveStorageConfig) (render : GoogleDriveFileList → List Char)
    {w w' : RootWorld Client} {clients : List Client}
    (hreach : (RootWorld.system storage render).Reachable w)
    (hrun : (RootWorld.system storage render).Run w clients w') :
    w'.Sound storage ∧ w.Leads w' ∧
      ∀ (c : Client) (api : DriveApi) (fuel : ℕ)
        (search : ServedSearch api render shardFolderFields driveDefaultRootFolderLookupQuery
          shardFolderPageSize w'.folders),
        search.pages.length ≤ fuel → (∀ page ∈ search.pages, PageFits render page) →
        w'.folders ≠ [] → w'.clients c ≠ .creating →
          ∃ id, IsFirstFolder w'.folders id ∧
            (RootWorld.system storage render).step w' c (w'.set c (.done id)) := by
  have hsound : w'.Sound storage := by
    refine (hreach.run hrun).invariant (P := RootWorld.Sound storage) ?_ fun _ h hstep =>
      RootWorld.Sound.step h hstep
    rintro s ⟨hidle, hverified⟩
    refine ⟨hverified, fun c id hdone => ?_⟩
    rw [hidle c] at hdone
    cases hdone
  have hleads : ∀ {s : RootWorld Client} {c t}, (RootWorld.system storage render).Reachable s →
      (RootWorld.system storage render).step s c t → s.Leads t :=
    fun _ hstep => RootWorld.Step.leads hstep
  exact ⟨hsound, hrun.relates RootWorld.Leads.refl RootWorld.Leads.trans hleads hreach,
    fun c api fuel search hfuel hfits hne hready =>
      hsound.exists_look hne hready search hfuel hfits⟩

/-- A default root folder. -/
def sampleRootFolder (id : String) : DriveFileResource where
  id := some id
  name := some googleDriveDefaultRootFolderName
  size := none
  trashed := false
  appProperties :=
    (∅ : Table String String).insert googleDriveFolderKindProperty googleDriveStorageRootKind
  mimeType := some googleDriveFolderMimeType
  parents := ["drive"]

/-- An interface that answers a search with some folders in one page. -/
def samplePageApi (files : List DriveFileResource) : DriveApi where
  get _ _ := .error ""
  list _ _ _ := .ok ⟨200, some ⟨files, none, false⟩, ⟨"", []⟩⟩

theorem sampleRootFolder_verified {id : String} (h : Text.isBlank id = false) :
    verifyDriveDefaultRootFolder ⟨"drive"⟩ 200 (sampleRootFolder id) = .ok id := by
  have hid : (sampleRootFolder id).id.filter (fun id => !Text.isBlank id) = some id := by
    simp [sampleRootFolder, h]
  unfold verifyDriveDefaultRootFolder
  rw [hid]
  exact if_pos ⟨rfl, rfl, rfl, rfl, AList.lookup_insert _⟩

def samplePageSearch (files : List DriveFileResource) (h : files.length ≤ shardFolderPageSize) :
    ServedSearch (samplePageApi files) (fun _ => []) shardFolderFields
      driveDefaultRootFolderLookupQuery shardFolderPageSize files where
  pages := [⟨files, none, false⟩]
  served := .last rfl rfl rfl
  small := by simpa using h
  distinct := by simp
  listed := by simp

/-- Two clients that look at the same time create two folders. -/
def twoRootFolders : RootWorld Bool :=
  (((((⟨[], fun _ => .idle⟩ : RootWorld Bool).set false .creating).set true .creating).add
    (sampleRootFolder "b")).set false (.done "b") |>.add (sampleRootFolder "a")).set true
      (.done "a")

theorem step_creating {w : RootWorld Bool} {c : Bool} (hnil : w.folders = [])
    (hready : w.clients c ≠ .creating) :
    (RootWorld.system ⟨"drive"⟩ fun _ => []).step w c (w.set c .creating) := by
  obtain ⟨folders, clients⟩ := w
  cases hnil
  have hfits : ∀ page ∈ (samplePageSearch [] (by decide)).pages, PageFits (fun _ => []) page :=
    fun _ _ => Nat.zero_le _
  have hverified : ∀ file ∈ ([] : List DriveFileResource),
      ∃ id, verifyDriveDefaultRootFolder ⟨"drive"⟩ 200 file = .ok id :=
    fun file hfile => absurd hfile List.not_mem_nil
  obtain ⟨found, hfound, ⟨_, hcreating⟩ | ⟨id, ⟨⟨file, hfile, _⟩, _⟩, _⟩⟩ :=
    RootClient.afterLookup_of_fits (samplePageSearch [] (by decide)) (le_refl _) hfits hverified
  · exact hcreating ▸ .look (samplePageSearch [] (by decide)) (le_refl _) hfound hready
  · exact absurd hfile List.not_mem_nil

theorem step_created {w : RootWorld Bool} {c : Bool} {id : String}
    (hcreating : w.clients c = .creating) (hid : Text.isBlank id = false) :
    (RootWorld.system ⟨"drive"⟩ fun _ => []).step w c
      ((w.add (sampleRootFolder id)).set c (.done id)) := by
  have hverified := sampleRootFolder_verified hid
  have hdone : RootClient.afterCreate (createdRootFolderId ⟨"drive"⟩
      (.ok ⟨200, some (sampleRootFolder id), ⟨"", []⟩⟩)) = .done id := by
    rw [RootWorld.createdRootFolderId_ok, hverified]
    rfl
  exact hdone ▸ .created hcreating hverified

theorem twoRootFolders_run : (RootWorld.system ⟨"drive"⟩ fun _ => []).Run
    (⟨[], fun _ => .idle⟩ : RootWorld Bool) [false, true, false, true] twoRootFolders :=
  .cons (step_creating rfl (fun h => by cases h)) <|
    .cons (step_creating rfl (fun h => by cases h)) <|
      .cons (step_created rfl (by decide)) <| .cons (step_created rfl (by decide)) (.nil _)

theorem default_root_folder_settles_two :
    twoRootFolders.folders = [sampleRootFolder "b", sampleRootFolder "a"] ∧
      twoRootFolders.clients false = .done "b" ∧ twoRootFolders.Sound ⟨"drive"⟩ ∧
      ∀ c, ∃ id, IsFirstFolder twoRootFolders.folders id ∧
        (RootWorld.system ⟨"drive"⟩ fun _ => []).step twoRootFolders c
          (twoRootFolders.set c (.done id)) := by
  have hinit : (RootWorld.system ⟨"drive"⟩ fun _ => []).init
      (⟨[], fun _ => .idle⟩ : RootWorld Bool) :=
    ⟨fun _ => rfl, fun file hfile => absurd hfile List.not_mem_nil⟩
  obtain ⟨hsound, _, hlook⟩ := default_root_folder_settles ⟨"drive"⟩ (fun _ => [])
    (System.Reachable.init hinit) twoRootFolders_run
  refine ⟨rfl, rfl, hsound, fun c => ?_⟩
  refine hlook c _ 1 (samplePageSearch twoRootFolders.folders (by decide)) (le_refl _)
    (fun _ _ => Nat.zero_le _) (by decide) ?_
  cases c <;> exact fun h => by cases h

end LfsCloud
