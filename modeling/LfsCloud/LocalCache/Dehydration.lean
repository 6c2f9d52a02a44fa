import LfsCloud.LocalCache.Hydration
import LfsCloud.PointerRoundTrip

/-!
# What a dehydration leaves

A dehydration that succeeds leaves the pointer of the object with the mode of the file, and the
object in the cache, unless the file was a pointer for the object already. Where no call fails it
is only refused if the file is not the object, or something else takes its place in the cache.
-/

namespace LfsCloud

open Interaction

section

variable {fails : FileState → FileCall → Prop} {digest : List UInt8 → LfsOid}
  {stripe : DiskPath → String} {s t u : FileState} {path : DiskPath} {object : LfsObject}

/-- The bytes of the pointer file of an object. -/
def pointerBytes (object : LfsObject) : List UInt8 := textBytes (LfsPointer.new object).toPointerFile

/-- The number of digits of an object size. -/
theorem length_toDigits_size (size : UInt64) : (Nat.toDigits 10 size.toNat).length ≤ 20 := by
  apply (Nat.length_toDigits_le_iff (by decide) (by decide)).mpr
  have hlt := size.toNat_lt
  omega

theorem canonicalLength_new (object : LfsObject) :
    (LfsPointer.new object).canonicalLength < lfsPointerSizeCutoff := by
  have hdigits := length_toDigits_size object.size
  have hcount : (LfsPointer.new object).canonicalLength =
      125 + (Nat.toDigits 10 object.size.toNat).length + 0 := rfl
  unfold lfsPointerSizeCutoff
  omega

theorem length_textBytes (text : String) : (textBytes text).length = text.utf8ByteSize := rfl

/-- The pointer file of an object that is not empty is the pointer of the object. -/
theorem pointerOf_pointerBytes (hsize : object.size ≠ 0) :
    pointerOf (pointerBytes object) = some (.new object) := by
  have hwf : (LfsPointer.new object).WellFormed := ⟨rfl, .empty⟩
  have hne : (LfsPointer.new object).isEmpty = false := decide_eq_false hsize
  have hlength := LfsPointer.byteLength_toPointerFile hwf hne
  have hshort : Text.byteLength (LfsPointer.new object).toPointerFile.toList <
      lfsPointerSizeCutoff := by
    rw [hlength]
    exact canonicalLength_new object
  have hparse := LfsPointer.parse_toPointerFile hwf hne hshort
  have hsmall : ¬lfsPointerSizeCutoff ≤ (pointerBytes object).length := by
    have hbytes : (pointerBytes object).length =
        Text.byteLength (LfsPointer.new object).toPointerFile.toList := by
      rw [pointerBytes, length_textBytes, ← Text.utf8ByteSize_ofList, String.ofList_toList]
    omega
  rw [pointerOf, if_neg hsmall, pointerBytes, pointerText_textBytes]
  dsimp only
  rw [hparse]

/-- Only temporary files changed, and an object in the cache. -/
def KeepsBut (object : LfsObject) (s t : FileState) : Prop :=
  ∀ path, path ≠ objectPath object → path.isTemp = false →
    t.nodes.lookup path = s.nodes.lookup path

theorem Keeps.keepsBut (h : Keeps s t) : KeepsBut object s t := fun path _ hpath => h path hpath

theorem KeepsBut.trans (h : KeepsBut object s t) (h' : KeepsBut object t u) :
    KeepsBut object s u :=
  fun path hne hpath => (h' path hne hpath).trans (h path hne hpath)

theorem KeepsBut.fileAt (h : KeepsBut object s t) (hne : path ≠ objectPath object)
    (hpath : path.isTemp = false) : t.fileAt path = s.fileAt path := by
  unfold FileState.fileAt
  rw [h path hne hpath]

/-- Something other than the object takes its place in the cache. -/
def Occupied (digest : List UInt8 → LfsOid) (s : FileState) (object : LfsObject) : Prop :=
  s.nodes.lookup (objectPath object) ≠ none ∧ ¬Cached digest s object

/-- The object in the cache is the file that was there, or has the bytes. -/
def CopiedFrom (bytes : List UInt8) (object : LfsObject) (s t : FileState) : Prop :=
  t.followed (objectPath object) = s.followed (objectPath object) ∨
    ∃ file, t.followed (objectPath object) = some file ∧ file.bytes = bytes

theorem Keeps.copiedFrom {bytes : List UInt8} (h : Keeps s t) : CopiedFrom bytes object s t :=
  .inl (h.followed rfl)

/-- A call that only waits for the disk. -/
theorem sync_spec {context : String} {reported : DiskPath} :
    FileSpec fails s (askFile (α := Unit) (.sync path) rfl context reported) (fun _ t => t = s)
      fun _ t => t = s ∧ CanFail fails := by
  apply FileSpec.askFile
  rintro answer t (⟨rfl, rfl⟩ | ⟨hfails, rfl, rfl⟩)
  · exact ⟨fun _ _ => rfl, fun _ h => by cases h⟩
  · exact ⟨fun _ h => (by cases h), fun _ _ => ⟨rfl, _, _, hfails⟩⟩

theorem syncVerifiedCacheObject_spec :
    FileSpec fails s (syncVerifiedCacheObject path) (fun _ t => t = s)
      fun _ t => t = s ∧ CanFail fails := by
  apply FileSpec.bind sync_spec
  rintro _ t rfl
  exact sync_spec

/-- The chunks of a file are written to a temporary one, and are those of the object. -/
theorem stageVerifiedCopy_spec {temp sourcePath cachePath : DiskPath} {empty : DiskFile}
    {chunks : List (List UInt8)} {durability : CachePublishDurability}
    (htemp : temp.isTemp = true) (hempty : s.fileAt temp = some empty) :
    FileSpec fails s
      (stageVerifiedCopy digest sourcePath temp cachePath object chunks durability)
      (fun _ t => Keeps s t ∧ ∃ file, t.fileAt temp = some file ∧
        file.bytes = chunks.flatten ∧ IsObject digest object file.bytes)
      fun _ t => Keeps s t ∧ (CanFail fails ∨ ¬IsObject digest object chunks.flatten) := by
  unfold stageVerifiedCopy
  apply FileSpec.bind (Q := fun _ t => Keeps s t ∧ ∃ file, t.fileAt temp = some file ∧
    file.bytes = chunks.flatten ∧ IsObject digest object file.bytes)
  · unfold copyAndVerifyObject
    apply FileSpec.bind ((write_spec htemp hempty).conseq (fun _ _ h => h)
      fun _ _ h => ⟨h.1, .inl h.2⟩)
    rintro _ t ⟨hkeeps, hfile⟩
    apply hashed_ensure_spec.conseq
    · rintro _ u ⟨rfl, hobject⟩
      exact ⟨hkeeps, _, hfile, rfl, hobject⟩
    · rintro e u ⟨rfl, hobject, _⟩
      exact ⟨hkeeps, .inr hobject⟩
  · rintro _ t ⟨hkeeps, hfile⟩
    split_ifs
    · apply sync_spec.conseq
      · rintro _ u rfl
        exact ⟨hkeeps, hfile⟩
      · rintro _ u ⟨rfl, hcan⟩
        exact ⟨hkeeps, .inl hcan⟩
    · exact .pure ⟨hkeeps, hfile⟩

/-- A verified copy is published, or the object in the cache is verified. -/
theorem publishCacheObject_spec {temp cacheParent : DiskPath} {file : DiskFile}
    {durability : CachePublishDurability} (htemp : temp.isTemp = true)
    (hfile : s.fileAt temp = some file) (hobject : IsObject digest object file.bytes) :
    FileSpec fails s
      (publishCacheObject digest temp (objectPath object) cacheParent object durability)
      (fun _ t => KeepsBut object s t ∧ Cached digest t object ∧
        CopiedFrom file.bytes object s t)
      fun _ t => KeepsBut object s t ∧ (CanFail fails ∨ Occupied digest s object) := by
  have hthere := fileAt_eq_some.mp hfile
  unfold publishCacheObject
  apply FileSpec.bind (Q := fun answer t =>
    (s.nodes.lookup (objectPath object) = none ∧ answer = .ok () ∧
      t = s.move temp (objectPath object) (.file file)) ∨
    (s.nodes.lookup (objectPath object) ≠ none ∧ answer = .error .alreadyExists ∧ t = s) ∨
    (CanFail fails ∧ answer = .error .other ∧ t = s))
  · apply FileSpec.tryFile
    rintro answer t (h | ⟨hfails, rfl, rfl⟩)
    · cases hdest : s.nodes.lookup (objectPath object) with
      | none =>
        simp only [fileEffect, hthere, hdest] at h
        obtain ⟨rfl, rfl⟩ := h
        exact .inl ⟨rfl, rfl, rfl⟩
      | some node =>
        simp only [fileEffect, hthere, hdest] at h
        obtain ⟨rfl, rfl⟩ := h
        exact .inr (.inl ⟨by simp, rfl, rfl⟩)
    · exact .inr (.inr ⟨⟨_, _, hfails⟩, rfl, rfl⟩)
  rintro answer t (⟨hfree, rfl, rfl⟩ | ⟨hsome, rfl, rfl⟩ | ⟨hcan, rfl, rfl⟩)
  · have hmoved : KeepsBut object s (s.move temp (objectPath object) (.file file)) ∧
        Cached digest (s.move temp (objectPath object) (.file file)) object ∧
          CopiedFrom file.bytes object s (s.move temp (objectPath object) (.file file)) := by
      have hfollowed : (s.move temp (objectPath object) (.file file)).followed
          (objectPath object) = some file := by
        unfold FileState.followed
        rw [show (s.move temp (objectPath object) (.file file)).nodes.lookup (objectPath object) =
          some (.file file) from AList.lookup_insert _]
      refine ⟨?_, ⟨file, hfollowed, hobject⟩, .inr ⟨file, hfollowed, rfl⟩⟩
      · intro other hne hother
        exact (AList.lookup_insert_ne hne).trans
          (AList.lookup_erase_ne (ne_of_isTemp hother htemp))
    dsimp only
    split_ifs
    · apply FileSpec.bind (sync_spec.conseq (fun _ _ h => h) ?_)
      · rintro _ u rfl
        apply FileSpec.bind (sync_spec.conseq (fun _ _ h => h) ?_)
        · rintro _ v rfl
          exact .pure hmoved
        · rintro _ v ⟨rfl, hcan⟩
          exact ⟨hmoved.1, .inl hcan⟩
      · rintro _ u ⟨rfl, hcan⟩
        exact ⟨hmoved.1, .inl hcan⟩
    · exact .pure hmoved
  · apply FileSpec.bind (FileSpec.dropTemp (Q := fun u => Keeps t u) fun u hu =>
      keeps_drop htemp hu)
    intro _ u hkeeps
    apply FileSpec.bind (verifyFileObject_spec.conseq (fun _ _ h => h) ?_)
    · rintro _ v ⟨rfl, hcached⟩
      have hdone : KeepsBut object t v ∧ Cached digest v object ∧ CopiedFrom file.bytes object t v :=
        ⟨hkeeps.keepsBut, hcached, hkeeps.copiedFrom⟩
      split_ifs
      · apply FileSpec.bind (syncVerifiedCacheObject_spec.conseq (fun _ _ h => h) ?_)
        · rintro _ w rfl
          exact .pure hdone
        · rintro _ w ⟨rfl, hcan⟩
          exact ⟨hdone.1, .inl hcan⟩
      · exact .pure hdone
    · rintro e v ⟨rfl, hfails | hnot⟩
      · exact ⟨hkeeps.keepsBut, .inl ⟨_, _, hfails⟩⟩
      · refine ⟨hkeeps.keepsBut, .inr ⟨hsome, ?_⟩⟩
        rintro ⟨cached, hcached, hgood⟩
        rw [← hkeeps.followed rfl] at hcached
        exact hnot cached hcached hgood
  · apply FileSpec.bind (FileSpec.dropTemp (Q := fun u => Keeps t u) fun u hu =>
      keeps_drop htemp hu)
    exact fun _ u hkeeps => .throw ⟨hkeeps.keepsBut, .inl hcan⟩

/-- A verified copy of a file gets into the cache. -/
theorem copyVerifiedFileToCache_spec {sourcePath : DiskPath} {chunks : List (List UInt8)}
    {durability : CachePublishDurability} :
    FileSpec fails s (copyVerifiedFileToCache digest sourcePath object chunks durability)
      (fun _ t => KeepsBut object s t ∧ Cached digest t object ∧
        CopiedFrom chunks.flatten object s t)
      fun _ t => KeepsBut object s t ∧ (CanFail fails ∨ ¬IsObject digest object chunks.flatten ∨
        Occupied digest s object) := by
  unfold copyVerifiedFileToCache
  apply FileSpec.bind (Q := fun _ t => t = s)
  · apply FileSpec.askFile
    rintro answer t (⟨rfl, rfl⟩ | ⟨hfails, rfl, rfl⟩)
    · exact ⟨fun _ _ => rfl, fun _ h => by cases h⟩
    · exact ⟨fun _ h => (by cases h), fun _ _ => ⟨(Keeps.refl t).keepsBut, .inl ⟨_, _, hfails⟩⟩⟩
  rintro _ t rfl
  apply FileSpec.bind (createTemp_spec.conseq (fun _ _ h => h)
    fun _ u h => ⟨by rw [h.1]; exact (Keeps.refl t).keepsBut, .inl h.2⟩)
  rintro temp u ⟨hcreated, htemp, _, inode, hempty⟩
  have hstage : FileSpec fails u (withTemp temp
      (stageVerifiedCopy digest sourcePath temp (objectPath object) object chunks durability)) _
      fun _ v => KeepsBut object t v ∧ (CanFail fails ∨ ¬IsObject digest object chunks.flatten ∨
        Occupied digest t object) :=
    (stageVerifiedCopy_spec htemp hempty).withTemp ?_
  apply FileSpec.bind hstage
  · rintro _ v ⟨hstaged, file, hfile, hbytes, hobject⟩
    have hkeeps : Keeps t v := hcreated.trans hstaged
    apply (publishCacheObject_spec htemp hfile hobject).conseq
    · rintro _ w ⟨hbut, hcached, hcopied⟩
      rw [hbytes, CopiedFrom, hkeeps.followed rfl] at hcopied
      exact ⟨hkeeps.keepsBut.trans hbut, hcached, hcopied⟩
    · rintro e w ⟨hbut, hbad⟩
      refine ⟨hkeeps.keepsBut.trans hbut, hbad.imp_right fun hoccupied => .inr ?_⟩
      rw [Occupied, hkeeps.cached, hkeeps _ rfl] at hoccupied
      exact hoccupied
  · rintro e v w ⟨hstaged, hbad⟩ hw
    exact ⟨((hcreated.trans hstaged).trans (keeps_drop htemp hw)).keepsBut,
      hbad.imp_right .inl⟩

/-- The object of a file is in the cache afterwards. -/
theorem cacheWorktreeObject_spec {file : DiskFile} (hfile : s.fileAt path = some file) :
    FileSpec fails s (cacheWorktreeObject digest path object)
      (fun _ t => KeepsBut object s t ∧ Cached digest t object ∧
        CopiedFrom file.bytes object s t)
      fun _ t => KeepsBut object s t ∧ (CanFail fails ∨ ¬IsObject digest object file.bytes ∨
        Occupied digest s object) := by
  have hsame : KeepsBut object s s := (Keeps.refl s).keepsBut
  unfold cacheWorktreeObject
  apply FileSpec.bind (regularFileExists_spec.conseq (fun _ _ h => h) ?_)
  · rintro found t ⟨rfl, hfound⟩
    split_ifs with hyes
    · apply FileSpec.bind (verifyObject_spec.conseq (fun _ _ h => h) ?_)
      · rintro _ u ⟨rfl, hcached⟩
        apply FileSpec.bind (syncVerifiedCacheObject_spec.conseq (fun _ _ h => h) ?_)
        · rintro _ v rfl
          exact .pure ⟨hsame, hcached, .inl rfl⟩
        · rintro _ v ⟨rfl, hcan⟩
          exact ⟨hsame, .inl hcan⟩
      · rintro e u ⟨rfl, hfails | hfails | hnot⟩
        · exact ⟨hsame, .inl ⟨_, _, hfails⟩⟩
        · exact ⟨hsame, .inl ⟨_, _, hfails⟩⟩
        · refine ⟨hsame, .inr (.inr ⟨?_, ?_⟩)⟩
          · intro hnone
            obtain ⟨cached, hcached⟩ := hfound.mp hyes
            rw [FileState.followed, hnone] at hcached
            cases hcached
          · rintro ⟨cached, hcached, hgood⟩
            exact hnot cached hcached hgood
    · apply FileSpec.bind (Q := fun _ u => KeepsBut object t u ∧ Cached digest u object ∧
        CopiedFrom file.bytes object t u)
      · unfold copyVerifiedWorktreeObjectToCache
        apply FileSpec.bind (readWorktreeFile_spec.conseq (fun _ _ h => h) ?_)
        · rintro chunks u ⟨rfl, file', hfile', hchunks⟩
          rw [hfile] at hfile'
          obtain rfl := Option.some.inj hfile'
          rw [← hchunks]
          apply FileSpec.bind copyVerifiedFileToCache_spec
          exact fun _ _ h => .pure h
        · rintro e u ⟨rfl, _, hfails | hnone⟩
          · exact ⟨hsame, .inl hfails.canFail⟩
          · rw [hfile] at hnone
            cases hnone
      · exact fun _ _ h => .pure h
  · rintro e t ⟨rfl, hfails | ⟨hthere, hnone⟩⟩
    · exact ⟨hsame, .inl ⟨_, _, hfails⟩⟩
    · refine ⟨hsame, .inr (.inr ⟨hthere, ?_⟩)⟩
      rintro ⟨cached, hcached, _⟩
      rw [hnone] at hcached
      cases hcached

/-- The displaced file is the object. -/
theorem verifyDisplacedObject_spec {displaced : DiskPath} {file : DiskFile}
    (hfile : s.fileAt displaced = some file) :
    FileSpec fails s (verifyDisplacedObject digest object path displaced)
      (fun _ t => t = s ∧ IsObject digest object file.bytes)
      fun _ t => t = s ∧ (CanFail fails ∨ ¬IsObject digest object file.bytes) := by
  have hverify : FileSpec fails s (verifyWorktreeFileObject digest displaced object) _ _ :=
    verifyWorktreeFileObject_spec
  unfold verifyDisplacedObject
  apply FileSpec.bind (hverify.attempt (R := fun r t => t = s ∧
    ResultSpec (fun _ => IsObject digest object file.bytes)
      (fun _ => CanFail fails ∨ ¬IsObject digest object file.bytes) r) ?_ ?_)
  · rintro r t ⟨rfl, hr⟩
    cases r with
    | ok a => exact .pure ⟨rfl, hr⟩
    | error e => exact .throw ⟨rfl, hr⟩
  · rintro _ t ⟨rfl, file', hfile', hobject⟩
    rw [hfile] at hfile'
    exact ⟨rfl, Option.some.inj hfile' ▸ hobject⟩
  · rintro e t ⟨rfl, hmismatch, hother⟩
    refine ⟨rfl, ?_⟩
    cases he : e.isMismatch with
    | true =>
      obtain ⟨file', hfile', hobject⟩ := hmismatch he
      rw [hfile] at hfile'
      exact .inr (Option.some.inj hfile' ▸ hobject)
    | false =>
      rcases hother he with hfails | hnone | ⟨file', hfile', hlarge⟩
      · exact .inl hfails.canFail
      · rw [hfile] at hnone
        cases hnone
      · rw [hfile] at hfile'
        obtain rfl := Option.some.inj hfile'
        refine .inr fun hobject => ?_
        have hlt := hobject.length_lt
        omega

/-- The file is replaced by the pointer of the object, if it is the object. -/
theorem publishPointerFile_spec {file : DiskFile} (hpath : path.isTemp = false)
    (hfile : s.fileAt path = some file) (hrenders : IsObject digest object file.bytes →
      pointerOf (pointerBytes object) = some (.new object)) :
    FileSpec fails s (publishPointerFile digest path object)
      (fun _ t => IsObject digest object file.bytes ∧ ∃ new, Replaced s t path new ∧
        new.bytes = pointerBytes object ∧ new.mode = file.mode)
      fun _ _ => CanFail fails ∨ ¬IsObject digest object file.bytes ∨ path.parent = none := by
  unfold publishPointerFile
  cases hparent : path.parent with
  | none => exact .throw (.inr (.inr rfl))
  | some parent =>
    dsimp only
    apply FileSpec.bind (worktreeFileMetadata_spec.conseq (fun _ _ h => h) ?_)
    · rintro metadata t ⟨rfl, file', hfile', rfl⟩
      rw [hfile] at hfile'
      obtain rfl := Option.some.inj hfile'
      apply FileSpec.bind (createTemp_spec.conseq (fun _ _ h => h) fun _ _ h => .inl h.2)
      rintro temp u ⟨hcreated, htemp, _, inode, hempty⟩
      have hwrite : FileSpec fails u (withTemp temp do
          askFile (.write temp (LfsPointer.new object).toPointerFile.toUTF8.data.toList) rfl
            "failed to write temporary Git LFS pointer" path
          setTemporaryFileMode temp path file.mode)
          (fun _ v => Keeps t v ∧ ∃ new, v.fileAt temp = some new ∧
            new.bytes = pointerBytes object ∧ new.mode = file.mode)
          fun _ _ => CanFail fails ∨ ¬IsObject digest object file.bytes ∨ some parent = none := by
        refine FileSpec.withTemp (E := fun _ _ => CanFail fails) ?_ fun _ _ _ h _ => .inl h
        apply FileSpec.bind ((write_spec htemp hempty).conseq (fun _ _ h => h) fun _ _ h => h.2)
        rintro _ v ⟨hwritten, hbytes⟩
        apply (setTemporaryFileMode_spec htemp hbytes).conseq
        · rintro _ w ⟨hmode, hnew⟩
          exact ⟨(hcreated.trans hwritten).trans hmode, _, hnew, rfl, rfl⟩
        · exact fun _ _ h => h.2
      apply FileSpec.bind hwrite
      rintro _ v ⟨hkeeps, new, hnew, hbytes, hmode⟩
      have hold : v.fileAt path = some file := (hkeeps.fileAt hpath).trans hfile
      have hne : temp ≠ path := (ne_of_isTemp hpath htemp).symm
      have hdisplaced := fileAt_eq_some.mpr
        (lookup_swap hne (s := v) (a := .file new) (b := .file file)).1
      apply FileSpec.bind ((replaceRetainingDisplaced_spec htemp hpath hnew hold
        (verifyDisplacedObject_spec hdisplaced)).conseq (fun _ _ h => h) ?_)
      · rintro _ w ⟨hreplaced, hobject⟩
        have hthere : w.fileAt path = some new := hreplaced.fileAt
        have hpointer : pointerOf new.bytes = some (.new object) := by
          rw [hbytes]
          exact hrenders hobject
        apply FileSpec.bind (readLfsPointerFile_spec.conseq (fun _ _ h => h) ?_)
        · rintro pointer x ⟨rfl, new', hnew', hpointer'⟩
          rw [hthere] at hnew'
          obtain rfl := Option.some.inj hnew'
          rw [hpointer] at hpointer'
          obtain rfl := Option.some.inj hpointer'
          have hsame : ¬(LfsPointer.new object).object ≠ object := fun h => h rfl
          rw [if_neg hsame]
          exact .pure ⟨hobject, new, hkeeps.replaced hreplaced, hbytes, hmode⟩
        · rintro e x ⟨rfl, hfails | hnone⟩
          · exact .inl hfails.canFail
          · rw [hnone new hthere] at hpointer
            cases hpointer
      · rintro _ w (⟨_, hcan | hcan | hnot⟩ | ⟨_, hfails⟩)
        · exact .inl hcan
        · exact .inl hcan
        · exact .inr (.inl hnot)
        · exact .inl ⟨_, _, hfails⟩
    · rintro e t ⟨rfl, _, hfails | hnone⟩
      · exact .inl hfails.canFail
      · rw [hfile] at hnone
        cases hnone

/-- What a dehydration leaves: the pointer that was there, or the pointer of the object in place of
its bytes. -/
def Dehydrated (digest : List UInt8 → LfsOid) (object : LfsObject) (path : DiskPath)
    (s t : FileState) : Prop :=
  ∃ file, s.fileAt path = some file ∧
    ((PointsTo object file.bytes ∧ Keeps s t) ∨
      (¬PointsTo object file.bytes ∧ IsObject digest object file.bytes ∧
        Cached digest t object ∧ CopiedFrom file.bytes object s t ∧
          ∃ new, t.fileAt path = some new ∧ new.bytes = pointerBytes object ∧
            new.mode = file.mode))

/-- Why a dehydration is refused where no call fails. -/
def DehydrationRefused (digest : List UInt8 → LfsOid) (object : LfsObject) (path : DiskPath)
    (s : FileState) : Prop :=
  path.parent = none ∨ Occupied digest s object ∨
    ∀ file, s.fileAt path = some file →
      ¬PointsTo object file.bytes ∧ ¬IsObject digest object file.bytes

/-- A file that is the object but no pointer for it is not empty, so its pointer has a text. -/
theorem renders_of_isObject {file : DiskFile} (hdigest : digest [] = .ofEmpty)
    (hnot : ¬PointsTo object file.bytes) (hobject : IsObject digest object file.bytes) :
    pointerOf (pointerBytes object) = some (.new object) := by
  apply pointerOf_pointerBytes
  intro hsize
  have hnil : file.bytes = [] := by
    apply List.eq_nil_of_length_eq_zero
    rw [hobject.2, hsize]
    rfl
  apply hnot
  rw [hnil]
  refine ⟨_, pointerOf_nil, ?_⟩
  have hoid : object.oid = .ofEmpty := by rw [← hobject.1, hnil, hdigest]
  obtain ⟨oid, size⟩ := object
  obtain rfl : oid = .ofEmpty := hoid
  obtain rfl : size = 0 := hsize
  rfl

/-- The object is cached and the file replaced by its pointer. -/
theorem replaceWithPointer_spec {file : DiskFile} (hdigest : digest [] = .ofEmpty)
    (hpath : path.isTemp = false) (hne : path ≠ objectPath object)
    (hfile : s.fileAt path = some file) (hnot : ¬PointsTo object file.bytes) :
    FileSpec fails s (replaceWithPointer digest path object)
      (fun _ t => Dehydrated digest object path s t)
      fun _ _ => CanFail fails ∨ DehydrationRefused digest object path s := by
  have hrefused : ¬IsObject digest object file.bytes → DehydrationRefused digest object path s := by
    intro hobject
    refine .inr (.inr fun file' hfile' => ?_)
    rw [hfile] at hfile'
    rw [← Option.some.inj hfile']
    exact ⟨hnot, hobject⟩
  unfold replaceWithPointer
  apply FileSpec.bind ((cacheWorktreeObject_spec hfile).conseq (fun _ _ h => h) ?_)
  · rintro status t ⟨hbut, hcached, hcopied⟩
    have hfile' : t.fileAt path = some file := (hbut.fileAt hne hpath).trans hfile
    apply FileSpec.bind ((publishPointerFile_spec hpath hfile'
      (renders_of_isObject hdigest hnot)).conseq (fun _ _ h => h) ?_)
    · rintro _ u ⟨hobject, new, hreplaced, hbytes, hmode⟩
      have hfollowed : u.followed (objectPath object) = t.followed (objectPath object) := by
        unfold FileState.followed
        rw [hreplaced.2 _ hne.symm rfl]
      refine .pure ⟨file, hfile, .inr ⟨hnot, hobject, ?_, ?_, new, hreplaced.fileAt, hbytes, hmode⟩⟩
      · unfold Cached
        rw [hfollowed]
        exact hcached
      · unfold CopiedFrom
        rw [hfollowed]
        exact hcopied
    · rintro e u (hcan | hobject | hparent)
      · exact .inl hcan
      · exact .inr (hrefused hobject)
      · exact .inr (.inl hparent)
  · rintro e t ⟨_, hcan | hobject | hoccupied⟩
    · exact .inl hcan
    · exact .inr (hrefused hobject)
    · exact .inr (.inr (.inl hoccupied))

theorem dehydrateLocked_spec (hdigest : digest [] = .ofEmpty) (hpath : path.isTemp = false)
    (hne : path ≠ objectPath object) :
    FileSpec fails s (dehydrateLocked digest object path)
      (fun _ t => Dehydrated digest object path s t)
      fun _ _ => CanFail fails ∨ s.fileAt path = none ∨
        DehydrationRefused digest object path s := by
  unfold dehydrateLocked
  apply FileSpec.bind (readExistingLfsPointerFile_spec.conseq (fun _ _ h => h) ?_)
  · rintro existing t ⟨rfl, file, hfile, hexisting⟩
    cases existing with
    | some pointer =>
      dsimp only
      split_ifs with hobject
      · exact .pure ⟨file, hfile, .inl ⟨⟨pointer, hexisting.symm, hobject⟩, .refl t⟩⟩
      · have hnot : ¬PointsTo object file.bytes := by
          rintro ⟨pointer', hpointer', hobject'⟩
          rw [← hexisting] at hpointer'
          exact hobject (Option.some.inj hpointer' ▸ hobject')
        have hverify : FileSpec fails t (verifyWorktreeFileObject digest path object) _ _ :=
          verifyWorktreeFileObject_spec
        apply FileSpec.bind (hverify.attempt (R := fun r u => u = t ∧
          ResultSpec (fun _ => True)
            (fun _ => CanFail fails ∨ ¬IsObject digest object file.bytes) r) ?_ ?_)
        · rintro r u ⟨rfl, hr⟩
          cases r with
          | ok a =>
            exact (replaceWithPointer_spec hdigest hpath hne hfile hnot).conseq (fun _ _ h => h)
              fun _ _ h => h.imp_right .inr
          | error e =>
            refine .throw (hr.imp_right fun hbad => .inr (.inr (.inr fun file' hfile' => ?_)))
            rw [hfile] at hfile'
            rw [← Option.some.inj hfile']
            exact ⟨hnot, hbad⟩
        · rintro _ u ⟨rfl, _⟩
          exact ⟨rfl, trivial⟩
        · rintro e u ⟨rfl, hmismatch, hother⟩
          refine ⟨rfl, ?_⟩
          cases he : e.isMismatch with
          | true =>
            obtain ⟨file', hfile', hbad⟩ := hmismatch he
            rw [hfile] at hfile'
            exact .inr (Option.some.inj hfile' ▸ hbad)
          | false =>
            rcases hother he with hfails | hnone | ⟨file', hfile', hlarge⟩
            · exact .inl hfails.canFail
            · rw [hfile] at hnone
              cases hnone
            · rw [hfile] at hfile'
              obtain rfl := Option.some.inj hfile'
              refine .inr fun hgood => ?_
              have hlt := hgood.length_lt
              omega
    | none =>
      have hnot : ¬PointsTo object file.bytes := by
        rintro ⟨pointer', hpointer', _⟩
        rw [← hexisting] at hpointer'
        cases hpointer'
      exact (replaceWithPointer_spec hdigest hpath hne hfile hnot).conseq (fun _ _ h => h)
        fun _ _ h => h.imp_right .inr
  · rintro e t ⟨rfl, hfails | hnone⟩
    · exact .inl hfails.canFail
    · exact .inr (.inl hnone)

end

end LfsCloud
