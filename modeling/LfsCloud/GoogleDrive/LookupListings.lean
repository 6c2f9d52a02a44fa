import LfsCloud.GoogleDrive.StoredIdLookup
import LfsCloud.Redaction

/-!
# Searches in pages

A search is answered in pages, in any order and split anywhere. Of every page only the first bytes
are read, so that a lookup depends on how the entries are split into pages: one page of folders may
be too long to be read.
-/

namespace LfsCloud

/-! ## Steps that yield a list -/

section Yields

variable {ε α β : Type}

/-- A step succeeds exactly under a condition, and then with the elements that are given. -/
def Yields (step : ExceptT ε Option (List β)) (succeeds : Prop) (element : β → Prop) : Prop :=
  (∃ items, step.run = some (.ok items) ∧ succeeds ∧ ∀ b, b ∈ items ↔ element b) ∨
    ∃ error, step.run = some (.error error) ∧ ¬succeeds

/-- Every element is tried, and each gives one. -/
theorem yields_mapM (f : α → Except ε β) (xs : List α) :
    Yields (ExceptT.mk (some (xs.mapM f))) (∀ x ∈ xs, ∃ b, f x = .ok b)
      fun b => ∃ x ∈ xs, f x = .ok b := by
  induction xs with
  | nil => exact .inl ⟨[], rfl, by simp, by simp⟩
  | cons x xs ih =>
    cases hx : f x with
    | error e =>
      refine .inr ⟨e, ?_, fun h => ?_⟩
      · rw [List.mapM_cons, hx]
        rfl
      · obtain ⟨b, hb⟩ := h x List.mem_cons_self
        cases hx.symm.trans hb
    | ok y =>
      rcases ih with ⟨items, hitems, hall, hmem⟩ | ⟨e, he, hnot⟩
      · have hrest : xs.mapM f = .ok items := Option.some.inj hitems
        refine .inl ⟨y :: items, ?_, ?_, fun b => ?_⟩
        · rw [List.mapM_cons, hx, hrest]
          rfl
        · simpa [hx] using hall
        · simp [hx, hmem, eq_comm]
      · have hrest : xs.mapM f = .error e := Option.some.inj he
        refine .inr ⟨e, ?_, fun h => hnot fun z hz => h z (List.mem_cons_of_mem _ hz)⟩
        rw [List.mapM_cons, hx, hrest]
        rfl

/-- One step after the other, with the elements of both. -/
theorem Yields.append {first second : ExceptT ε Option (List β)} {p q : Prop} {a b : β → Prop}
    (hfirst : Yields first p a) (hsecond : Yields second q b) :
    Yields (do let xs ← first; pure (xs ++ (← second))) (p ∧ q) fun x => a x ∨ b x := by
  rcases hfirst with ⟨xs, hxs, hp, hmem⟩ | ⟨e, he, hnot⟩
  · rcases hsecond with ⟨ys, hys, hq, hmem'⟩ | ⟨e, he, hnot⟩
    · refine .inl ⟨xs ++ ys, ?_, ⟨hp, hq⟩, fun x => ?_⟩
      · rw [ExceptT.run_bind, hxs]
        simp only [Option.bind_eq_bind, Option.bind_some]
        rw [ExceptT.run_bind, hys]
        rfl
      · rw [List.mem_append, hmem, hmem']
    · refine .inr ⟨e, ?_, fun h => hnot h.2⟩
      rw [ExceptT.run_bind, hxs]
      simp only [Option.bind_eq_bind, Option.bind_some]
      rw [ExceptT.run_bind, he]
      rfl
  · refine .inr ⟨e, ?_, fun h => hnot h.1⟩
    rw [ExceptT.run_bind, he]
    rfl

/-- A step for each element of a list, with the elements of all. -/
theorem Yields.flatten {f : α → ExceptT ε Option (List β)} {p : α → Prop} {a : α → β → Prop}
    (xs : List α) (h : ∀ x ∈ xs, Yields (f x) (p x) (a x)) :
    Yields (do let ys ← xs.mapM f; pure ys.flatten) (∀ x ∈ xs, p x)
      fun b => ∃ x ∈ xs, a x b := by
  induction xs with
  | nil => exact .inl ⟨[], rfl, by simp, by simp⟩
  | cons x xs ih =>
    have hstep := (h x List.mem_cons_self).append
      (ih fun z hz => h z (List.mem_cons_of_mem _ hz))
    have hsame : (do let ys ← (x :: xs).mapM f; pure ys.flatten : ExceptT ε Option (List β)) =
        (do let ys ← f x; let zs ← xs.mapM f; pure (ys ++ zs.flatten)) := by
      simp only [List.mapM_cons, bind_assoc, pure_bind, List.flatten_cons]
    simp only [bind_assoc, pure_bind] at hstep
    rw [hsame]
    simpa only [List.forall_mem_cons, List.exists_mem_cons_iff] using hstep

/-- The same elements under the same condition. -/
theorem Yields.congr {step : ExceptT ε Option (List β)} {p q : Prop} {a b : β → Prop}
    (h : Yields step p a) (hiff : p ↔ q) (hmem : p → ∀ x, a x ↔ b x) : Yields step q b := by
  rcases h with ⟨xs, hxs, hp, hitems⟩ | ⟨e, he, hnot⟩
  · exact .inl ⟨xs, hxs, hiff.mp hp, fun x => (hitems x).trans (hmem hp x)⟩
  · exact .inr ⟨e, he, fun hq => hnot (hiff.mpr hq)⟩

end Yields

/-! ## What a Drive serves -/

/-- A page whose text is read to its end. -/
def PageFits (render : GoogleDriveFileList → List Char) (page : GoogleDriveFileList) : Prop :=
  Text.byteLength (render page) ≤ maxGoogleErrorBodyLen

instance (render : GoogleDriveFileList → List Char) (page : GoogleDriveFileList) :
    Decidable (PageFits render page) := inferInstanceAs (Decidable (_ ≤ _))

/-- What is read of the text of a page; a text that is cut is no JSON. -/
def readPage (render : GoogleDriveFileList → List Char) (page : GoogleDriveFileList) :
    Option GoogleDriveFileList :=
  if PageFits render page then some page else none

/-- The pages of a search from a token on. Each is asked for once, so that an interface that is
given by tokens stands for a service whose answers change over time. -/
inductive ServedPages (api : DriveApi) (render : GoogleDriveFileList → List Char)
    (fields : List String) (query : String) : Option String → List GoogleDriveFileList → Prop
  | last {token page diagnostic}
      (h : api.list fields query token = .ok ⟨200, readPage render page, diagnostic⟩)
      (hcomplete : page.incompleteSearch = false) (hnext : page.nextPageToken = none) :
      ServedPages api render fields query token [page]
  | more {token page diagnostic next rest}
      (h : api.list fields query token = .ok ⟨200, readPage render page, diagnostic⟩)
      (hcomplete : page.incompleteSearch = false) (hnext : page.nextPageToken = some next)
      (hvisible : Text.isBlank next = false)
      (hrest : ServedPages api render fields query (some next) rest) :
      ServedPages api render fields query token (page :: rest)

/-- A search whose answer has the given files, in any order and split into pages. -/
structure ServedSearch (api : DriveApi) (render : GoogleDriveFileList → List Char)
    (fields : List String) (query : String) (pageSize : ℕ) (files : List DriveFileResource) where
  pages : List GoogleDriveFileList
  served : ServedPages api render fields query none pages
  /-- A page has no more files than were requested. -/
  small : ∀ page ∈ pages, page.files.length ≤ pageSize
  /-- A token stands for one page. -/
  distinct : (pages.filterMap (·.nextPageToken)).Nodup
  listed : (pages.flatMap (·.files)).Perm files

section Search

variable {api : DriveApi} {render : GoogleDriveFileList → List Char} {fields : List String}
  {query : String} {store : GoogleDriveObjectStore} {token : Option String}
  {pages : List GoogleDriveFileList} {α : Type}

variable (store) in
/-- A page of a search is read when it fits, and every file of it is tried. -/
theorem lookupPage_served (what : String)
    (verify : ℕ → DriveFileResource → Except StorageError α) {folder : String}
    {page : GoogleDriveFileList} {diagnostic : DriveDiagnostic} (hfolder : Text.isBlank folder = false)
    (hlist : api.list fields query token = .ok ⟨200, readPage render page, diagnostic⟩)
    (hcomplete : page.incompleteSearch = false)
    (hvisible : page.nextPageToken.any Text.isBlank = false) :
    store.lookupPage api what folder fields query verify token =
      if PageFits render page then
        (page.files.mapM (verify 200)).map fun items => (items, page.nextPageToken)
      else .error (.upstream store.storage.id (some 200)
        ("Google Drive " ++ what ++ " response was invalid JSON")) := by
  have hasked : requireDriveIdentifier folder "root_folder_id" = .ok () :=
    requireDriveIdentifier_eq_ok hfolder
  unfold GoogleDriveObjectStore.lookupPage
  rw [hasked, hlist]
  by_cases hfits : PageFits render page
  · have hread := readDriveResource_ok store.storage
      ("Google Drive " ++ what ++ " response was invalid JSON") page diagnostic
    unfold readPage
    rw [if_pos hfits, if_pos hfits]
    simp only [sendDriveRequest]
    dsimp only [bind, Except.bind]
    rw [hread]
    dsimp only
    rw [hcomplete, hvisible]
    rfl
  · unfold readPage
    rw [if_neg hfits, if_neg hfits]
    rfl

/-- A page with a new token is followed by the pages behind it. -/
theorem lookupPages_of_next {fetch : Option String → Except StorageError (List α × Option String)}
    {repeated : StorageError} {items : Except StorageError (List α)} {next : String}
    {seen : List String} {fuel : ℕ}
    (hpage : fetch token = items.map fun items => (items, some next)) (hfresh : next ∉ seen) :
    GoogleDriveObjectStore.lookupPages fetch repeated (fuel + 1) seen token =
      (do
        let items ← ExceptT.mk (some items)
        pure (items ++ (← GoogleDriveObjectStore.lookupPages fetch repeated fuel (next :: seen)
          (some next)))) := by
  rw [GoogleDriveObjectStore.lookupPages, hpage]
  cases items with
  | error e => rfl
  | ok items => exact if_neg hfresh

/-- A loop over the pages of a search succeeds exactly if every page fits and every file passes,
and then with what the files give, when that is what is done with each page. -/
theorem yields_servedPages {fetch : Option String → Except StorageError (List α × Option String)}
    {invalid : StorageError} (verify : ℕ → DriveFileResource → Except StorageError α)
    (repeated : StorageError)
    (hfetch : ∀ {token page diagnostic},
      api.list fields query token = .ok ⟨200, readPage render page, diagnostic⟩ →
      page.incompleteSearch = false → page.nextPageToken.any Text.isBlank = false →
        fetch token = if PageFits render page then
          (page.files.mapM (verify 200)).map fun items => (items, page.nextPageToken)
        else .error invalid)
    (hserved : ServedPages api render fields query token pages)
    (hdistinct : (pages.filterMap (·.nextPageToken)).Nodup) {seen : List String}
    (hseen : ∀ next ∈ pages.filterMap (·.nextPageToken), next ∉ seen) {fuel : ℕ}
    (hfuel : pages.length ≤ fuel) :
    Yields (GoogleDriveObjectStore.lookupPages fetch repeated fuel seen token)
      ((∀ page ∈ pages, PageFits render page) ∧
        ∀ file ∈ pages.flatMap (·.files), ∃ a, verify 200 file = .ok a)
      fun a => ∃ file ∈ pages.flatMap (·.files), verify 200 file = .ok a := by
  induction hserved generalizing seen fuel with
  | @last token page diagnostic hlist hcomplete hnext =>
    obtain ⟨fuel, rfl⟩ := Nat.exists_eq_add_one.mpr hfuel
    have hpage := hfetch hlist hcomplete (by rw [hnext]; rfl)
    unfold GoogleDriveObjectStore.lookupPages
    rw [hpage]
    by_cases hfits : PageFits render page
    · rw [if_pos hfits, hnext]
      rcases yields_mapM (verify 200) page.files with ⟨items, hitems, hall, hmem⟩ | ⟨e, he, hnot⟩
      · have hok : page.files.mapM (verify 200) = .ok items := Option.some.inj hitems
        rw [hok]
        exact .inl ⟨items, rfl, by simpa using ⟨hfits, hall⟩, by simpa using hmem⟩
      · have herror : page.files.mapM (verify 200) = .error e := Option.some.inj he
        rw [herror]
        exact .inr ⟨e, rfl, fun h => hnot (by simpa using h.2)⟩
    · rw [if_neg hfits]
      exact .inr ⟨_, rfl, fun h => hfits (h.1 page List.mem_cons_self)⟩
  | @more token page diagnostic next rest hlist hcomplete hnext hvisible _ ih =>
    obtain ⟨fuel, rfl⟩ := Nat.exists_eq_add_one.mpr (Nat.zero_lt_of_lt hfuel)
    have hpage := hfetch hlist hcomplete (by rw [hnext]; simpa using hvisible)
    rw [List.filterMap_cons, hnext] at hdistinct hseen
    obtain ⟨hnew, hdistinct⟩ := List.nodup_cons.mp hdistinct
    have hfresh : next ∉ seen := hseen next List.mem_cons_self
    have hunseen : ∀ other ∈ rest.filterMap (·.nextPageToken), other ∉ next :: seen :=
      fun other hother hmem => by
        rcases List.mem_cons.mp hmem with rfl | hmem
        · exact hnew hother
        · exact hseen other (List.mem_cons_of_mem _ hother) hmem
    have hlength : rest.length ≤ fuel := by simpa using hfuel
    have hrest := ih hdistinct hunseen hlength
    by_cases hfits : PageFits render page
    · rw [if_pos hfits, hnext] at hpage
      rw [lookupPages_of_next hpage hfresh]
      have hfirst := yields_mapM (verify 200) page.files
      have hsteps := hfirst.append hrest
      refine hsteps.congr ?_ fun _ a => ?_
      · simp only [List.forall_mem_cons, List.flatMap_cons, List.forall_mem_append, hfits, true_and]
        tauto
      · simp only [List.flatMap_cons, List.mem_append, or_and_right, exists_or]
    · rw [if_neg hfits] at hpage
      unfold GoogleDriveObjectStore.lookupPages
      rw [hpage]
      exact .inr ⟨_, rfl, fun h => hfits (h.1 page List.mem_cons_self)⟩

end Search

end LfsCloud
