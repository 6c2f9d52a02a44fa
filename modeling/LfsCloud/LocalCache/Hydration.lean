import LfsCloud.LocalCache.FileRules

/-!
# What a hydration leaves

A hydration or a materialization that succeeds leaves the bytes of the object, unless the file
was a pointer of size zero with a text, which is left as it is. One that fails leaves the file as
it was, as long as the file that was put in its place can be accessed.
-/

namespace LfsCloud

open Interaction

section

variable {fails : FileState → FileCall → Prop} {digest : List UInt8 → LfsOid}
  {stripe : DiskPath → String} {start s t : FileState} {path : DiskPath} {object : LfsObject}

/-- The call is on the path of the file itself. -/
def FileCall.Touches (path : DiskPath) : FileCall → Prop
  | .symlinkMetadata other => other = path
  | .readNoFollow other => other = path
  | .exchange _ other => other = path
  | _ => False

/-- No call on the path fails while the path does not name what it named at the start. -/
def FailsEarly (fails : FileState → FileCall → Prop) (start : FileState) (path : DiskPath) : Prop :=
  ∀ s c, fails s c → s.nodes.lookup path = start.nodes.lookup path ∨ ¬c.Touches path

/-- A file can be read while it is not the one of the start. -/
theorem FailsEarly.not_mayFail (h : FailsEarly fails start path)
    (hne : s.nodes.lookup path ≠ start.nodes.lookup path) : ¬MayFail fails s path := by
  rintro (hfails | hfails)
  · rcases h _ _ hfails with heq | hnot
    · exact hne heq
    · exact hnot rfl
  · rcases h _ _ hfails with heq | hnot
    · exact hne heq
    · exact hnot rfl

/-- A program that only looks at a file of a cache or a repository. -/
theorem regularFileExists_spec {inspect wrong : String} :
    FileSpec fails s (regularFileExists path inspect wrong)
      (fun found t => t = s ∧ (found = true ↔ ∃ file, s.followed path = some file))
      fun _ t => t = s ∧ (fails s (.metadata path) ∨
        (s.nodes.lookup path ≠ none ∧ s.followed path = none)) := by
  unfold regularFileExists
  apply FileSpec.bind (Q := fun answer t => t = s ∧
    (answer = followedMetadata (s.nodes.lookup path) ∨
      (fails s (.metadata path) ∧ answer = .error .other)))
  · apply FileSpec.tryFile
    rintro answer t (⟨rfl, rfl⟩ | ⟨hfails, rfl, rfl⟩)
    · exact ⟨rfl, .inl rfl⟩
    · exact ⟨rfl, .inr ⟨hfails, rfl⟩⟩
  rintro answer t ⟨rfl, rfl | ⟨hfails, rfl⟩⟩
  · unfold FileState.followed
    cases t.nodes.lookup path with
    | none => exact .pure ⟨rfl, by simp⟩
    | some node =>
      cases node with
      | file file => exact .pure ⟨rfl, by simp⟩
      | symlink target =>
        cases target with
        | some file => exact .pure ⟨rfl, by simp⟩
        | none => exact .pure ⟨rfl, by simp⟩
      | other => exact .throw ⟨rfl, .inr ⟨by simp, rfl⟩⟩
  · exact .throw ⟨rfl, .inl hfails⟩

/-- The object that a path leads to is verified. -/
theorem verifyFileObject_spec :
    FileSpec fails s (verifyFileObject digest path object)
      (fun _ t => t = s ∧ ∃ file, s.followed path = some file ∧
        IsObject digest object file.bytes)
      fun _ t => t = s ∧ (fails s (.read path) ∨
        ∀ file, s.followed path = some file → ¬IsObject digest object file.bytes) := by
  unfold verifyFileObject
  apply FileSpec.bind (Q := fun (chunks : List (List UInt8)) t => t = s ∧
    ∃ file, s.followed path = some file ∧ chunks.flatten = file.bytes)
  · apply FileSpec.askFile
    rintro answer t (⟨rfl, hread⟩ | ⟨hfails, rfl, rfl⟩)
    · cases hfile : t.followed path with
      | none =>
        rw [hfile] at hread
        obtain ⟨kind, rfl⟩ := hread
        exact ⟨fun a h => (by cases h), fun _ _ => ⟨rfl, .inr fun file h => by cases h⟩⟩
      | some file =>
        rw [hfile] at hread
        obtain ⟨chunks, rfl, hchunks⟩ := hread
        refine ⟨?_, fun source h => by cases h⟩
        intro a ha
        cases ha
        exact ⟨rfl, file, rfl, hchunks⟩
    · exact ⟨fun a h => (by cases h), fun _ _ => ⟨rfl, .inl hfails⟩⟩
  rintro chunks t ⟨rfl, file, hfile, hchunks⟩
  apply hashed_ensure_spec.conseq
  · rintro _ u ⟨rfl, hobject⟩
    exact ⟨rfl, file, hfile, hchunks ▸ hobject⟩
  · rintro e u ⟨rfl, hobject, _⟩
    refine ⟨rfl, .inr fun file' hfile' => ?_⟩
    rw [hfile] at hfile'
    rw [← Option.some.inj hfile', ← hchunks]
    exact hobject

/-- The object in the cache is verified. -/
theorem verifyObject_spec :
    FileSpec fails s (verifyObject digest object)
      (fun _ t => t = s ∧ ∃ file, s.followed (objectPath object) = some file ∧
        IsObject digest object file.bytes)
      fun _ t => t = s ∧ (fails s (.metadata (objectPath object)) ∨
        fails s (.read (objectPath object)) ∨
          ∀ file, s.followed (objectPath object) = some file →
            ¬IsObject digest object file.bytes) := by
  unfold verifyObject
  apply FileSpec.bind (regularFileExists_spec.conseq (fun _ _ h => h) ?_)
  · rintro found t ⟨rfl, hfound⟩
    split
    next hyes =>
      apply verifyFileObject_spec.conseq (fun _ _ h => h)
      rintro e u ⟨rfl, h⟩
      exact ⟨rfl, .inr h⟩
    next hno =>
      refine .throw ⟨rfl, .inr (.inr fun file hfile => ?_)⟩
      exact absurd (hfound.mpr ⟨file, hfile⟩) hno
  · rintro e t ⟨rfl, hfails | ⟨_, hnone⟩⟩
    · exact ⟨rfl, .inl hfails⟩
    · refine ⟨rfl, .inr (.inr fun file hfile => ?_)⟩
      rw [hnone] at hfile
      cases hfile

/-- What a status says of a path. -/
def ExistingDestinationStatus.Says (digest : List UInt8 → LfsOid) (s : FileState)
    (path : DiskPath) (object : LfsObject) : ExistingDestinationStatus → Prop
  | .missing => s.nodes.lookup path = none
  | .alreadyMaterialized => ∃ file, s.fileAt path = some file ∧ IsObject digest object file.bytes
  | .different => ∃ file, s.fileAt path = some file ∧ ¬IsObject digest object file.bytes

/-- What is at the destination of a materialization. -/
theorem existingDestinationStatus_spec :
    FileSpec fails s (existingDestinationStatus digest path object)
      (fun status t => t = s ∧ status.Says digest s path object)
      fun _ t => t = s ∧ (MayFail fails s path ∨
        (s.nodes.lookup path ≠ none ∧ s.fileAt path = none) ∨
          ∃ file, s.fileAt path = some file ∧ 2 ^ 64 ≤ file.bytes.length) := by
  unfold existingDestinationStatus
  apply FileSpec.bind (Q := fun answer t => t = s ∧ (answer = metadataOf (s.nodes.lookup path) ∨
    (fails s (.symlinkMetadata path) ∧ answer = .error .other)))
  · apply FileSpec.tryFile
    rintro answer t (⟨rfl, rfl⟩ | ⟨hfails, rfl, rfl⟩)
    · exact ⟨rfl, .inl rfl⟩
    · exact ⟨rfl, .inr ⟨hfails, rfl⟩⟩
  rintro answer t ⟨rfl, rfl | ⟨hfails, rfl⟩⟩
  · cases hnode : t.nodes.lookup path with
    | none => exact .pure ⟨rfl, hnode⟩
    | some node =>
      cases node with
      | symlink target =>
        exact .throw ⟨rfl, .inr (.inl ⟨by simp, by rw [FileState.fileAt, hnode]⟩)⟩
      | other =>
        exact .throw ⟨rfl, .inr (.inl ⟨by simp, by rw [FileState.fileAt, hnode]⟩)⟩
      | file file =>
        have hfile : t.fileAt path = some file := fileAt_eq_some.mpr hnode
        dsimp only [metadataOf]
        split_ifs with hlength
        · exact .pure ⟨rfl, file, hfile, fun hobject => hlength hobject.2⟩
        · have hverify : FileSpec fails t (verifyWorktreeFileObject digest path object) _ _ :=
            verifyWorktreeFileObject_spec
          apply FileSpec.bind (hverify.attempt (R := fun r u => u = t ∧
            ResultSpec (fun _ => IsObject digest object file.bytes)
              (fun e => (e.isMismatch = true → ¬IsObject digest object file.bytes) ∧
                (e.isMismatch = false → MayFail fails t path ∨ 2 ^ 64 ≤ file.bytes.length))
              r) ?_ ?_)
          · rintro r u ⟨rfl, hr⟩
            cases r with
            | ok a => exact .pure ⟨rfl, file, hfile, hr⟩
            | error e =>
              cases e with
              | integrityMismatch => exact .pure ⟨rfl, file, hfile, hr.1 rfl⟩
              | _ =>
                refine .throw ⟨rfl, ?_⟩
                rcases hr.2 rfl with hfails | hlarge
                · exact .inl hfails
                · exact .inr (.inr ⟨file, hfile, hlarge⟩)
          · rintro _ u ⟨rfl, file', hfile', hobject⟩
            rw [hfile] at hfile'
            exact ⟨rfl, Option.some.inj hfile' ▸ hobject⟩
          · rintro e u ⟨rfl, hmismatch, hother⟩
            refine ⟨rfl, fun h => ?_, fun h => ?_⟩
            · obtain ⟨file', hfile', hobject⟩ := hmismatch h
              rw [hfile] at hfile'
              exact Option.some.inj hfile' ▸ hobject
            · rcases hother h with hfails | hnone | ⟨file', hfile', hlarge⟩
              · exact .inl hfails
              · rw [hfile] at hnone
                cases hnone
              · rw [hfile] at hfile'
                exact .inr (Option.some.inj hfile' ▸ hlarge)
  · exact .throw ⟨rfl, .inl (.inl hfails)⟩

/-- The cache has the object. -/
def Cached (digest : List UInt8 → LfsOid) (s : FileState) (object : LfsObject) : Prop :=
  ∃ file, s.followed (objectPath object) = some file ∧ IsObject digest object file.bytes

/-- The bytes are those of the object's file in the cache. -/
def CopyOf (s : FileState) (object : LfsObject) (bytes : List UInt8) : Prop :=
  ∃ file, s.followed (objectPath object) = some file ∧ bytes = file.bytes

theorem Keeps.followed (h : Keeps s t) (hpath : path.isTemp = false) :
    t.followed path = s.followed path := by
  unfold FileState.followed
  rw [h path hpath]

theorem Keeps.cached (h : Keeps s t) : Cached digest t object ↔ Cached digest s object := by
  unfold Cached
  rw [h.followed rfl]

theorem Keeps.copyOf {bytes : List UInt8} (h : Keeps s t) :
    CopyOf t object bytes ↔ CopyOf s object bytes := by
  unfold CopyOf
  rw [h.followed rfl]

/-- The object of the cache is copied into a temporary file. -/
theorem copyCacheObjectToTemporaryFile_spec {temp : DiskPath} {empty : DiskFile}
    (htemp : temp.isTemp = true) (hempty : s.fileAt temp = some empty) :
    FileSpec fails s (copyCacheObjectToTemporaryFile digest temp object)
      (fun _ t => Keeps s t ∧ ∃ file, t.fileAt temp = some file ∧
        IsObject digest object file.bytes ∧ CopyOf s object file.bytes)
      fun _ t => Keeps s t ∧ (CanFail fails ∨ ¬Cached digest s object) := by
  unfold copyCacheObjectToTemporaryFile
  apply FileSpec.bind (Q := fun (chunks : List (List UInt8)) t => t = s ∧
    ∃ file, s.followed (objectPath object) = some file ∧ chunks.flatten = file.bytes)
  · apply FileSpec.askFile
    rintro answer t (⟨rfl, hread⟩ | ⟨hfails, rfl, rfl⟩)
    · cases hfile : t.followed (objectPath object) with
      | none =>
        rw [hfile] at hread
        obtain ⟨kind, rfl⟩ := hread
        refine ⟨fun a h => (by cases h), fun _ _ => ⟨.refl t, .inr ?_⟩⟩
        rintro ⟨file, hfile', _⟩
        rw [hfile] at hfile'
        cases hfile'
      | some file =>
        rw [hfile] at hread
        obtain ⟨chunks, rfl, hchunks⟩ := hread
        refine ⟨?_, fun source h => by cases h⟩
        intro a ha
        cases ha
        exact ⟨rfl, file, rfl, hchunks⟩
    · exact ⟨fun a h => (by cases h), fun _ _ => ⟨.refl t, .inl ⟨_, _, hfails⟩⟩⟩
  rintro chunks t ⟨rfl, cached, hcached, hchunks⟩
  apply FileSpec.bind ((write_spec htemp hempty).conseq (fun _ _ h => h)
    fun _ _ h => ⟨h.1, .inl h.2⟩)
  rintro _ u ⟨hkeeps, hfile⟩
  apply hashed_ensure_spec.conseq
  · rintro _ v ⟨rfl, hobject⟩
    exact ⟨hkeeps, _, hfile, hobject, cached, hcached, hchunks⟩
  · rintro e v ⟨rfl, hobject, _⟩
    refine ⟨hkeeps, .inr ?_⟩
    rintro ⟨file', hfile', hobject'⟩
    rw [hcached] at hfile'
    rw [hchunks, Option.some.inj hfile'] at hobject
    exact hobject hobject'

/-- The bytes are a pointer for the object. -/
def PointsTo (object : LfsObject) (bytes : List UInt8) : Prop :=
  ∃ pointer, pointerOf bytes = some pointer ∧ pointer.object = object

/-- The pointer at a path is for the object. -/
theorem ensureMatchingPointer_spec {reported : DiskPath} :
    FileSpec fails s (ensureMatchingPointer path object reported)
      (fun _ t => t = s ∧ ∃ file, s.fileAt path = some file ∧ PointsTo object file.bytes)
      fun _ t => t = s ∧ (CanFail fails ∨
        ∀ file, s.fileAt path = some file → ¬PointsTo object file.bytes) := by
  unfold ensureMatchingPointer
  apply FileSpec.bind (readLfsPointerFile_spec.conseq (fun _ _ h => h) ?_)
  · rintro pointer t ⟨rfl, file, hfile, hpointer⟩
    split
    next hne =>
      refine .throw ⟨rfl, .inr ?_⟩
      rintro file' hfile' ⟨pointer', hpointer', hobject⟩
      rw [hfile] at hfile'
      rw [← Option.some.inj hfile', hpointer] at hpointer'
      rw [← Option.some.inj hpointer'] at hobject
      exact hne hobject
    next heq => exact .pure ⟨rfl, file, hfile, pointer, hpointer, not_not.mp heq⟩
  · rintro e t ⟨rfl, hfails | hnone⟩
    · exact ⟨rfl, .inl hfails.canFail⟩
    · refine ⟨rfl, .inr ?_⟩
      rintro file hfile ⟨pointer, hpointer, _⟩
      rw [hnone file hfile] at hpointer
      cases hpointer

/-- The displaced file is a pointer for the object. -/
theorem verifyDisplacedPointer_spec {displaced : DiskPath} :
    FileSpec fails s (verifyDisplacedPointer object path displaced)
      (fun _ t => t = s ∧ ∃ file, s.fileAt displaced = some file ∧ PointsTo object file.bytes)
      fun _ t => t = s ∧ (CanFail fails ∨
        ∀ file, s.fileAt displaced = some file → ¬PointsTo object file.bytes) := by
  have hread : FileSpec fails s (readLfsPointerFile displaced) _ _ := readLfsPointerFile_spec
  unfold verifyDisplacedPointer
  apply FileSpec.bind (hread.attempt (R := fun r t => t = s ∧
    ResultSpec
      (fun pointer => ∃ file, s.fileAt displaced = some file ∧ pointerOf file.bytes = some pointer)
      (fun _ => MayFail fails s displaced ∨
        ∀ file, s.fileAt displaced = some file → pointerOf file.bytes = none) r)
    (fun _ _ h => h) fun _ _ h => h)
  rintro r t ⟨rfl, hr⟩
  cases r with
  | error e =>
    refine .throw ⟨rfl, hr.imp MayFail.canFail ?_⟩
    rintro hnone file hfile ⟨pointer, hpointer, _⟩
    rw [hnone file hfile] at hpointer
    cases hpointer
  | ok pointer =>
    obtain ⟨file, hfile, hpointer⟩ := hr
    dsimp only
    split
    next hne =>
      refine .throw ⟨rfl, .inr ?_⟩
      rintro file' hfile' ⟨pointer', hpointer', hobject⟩
      rw [hfile] at hfile'
      rw [← Option.some.inj hfile', hpointer] at hpointer'
      rw [← Option.some.inj hpointer'] at hobject
      exact hne hobject
    next heq => exact .pure ⟨rfl, file, hfile, pointer, hpointer, not_not.mp heq⟩

/-- The new file is moved to where there is none. -/
theorem publish_noReplace_spec {temp : DiskPath} {file : DiskFile} (htemp : temp.isTemp = true)
    (hpath : path.isTemp = false) (hfile : s.fileAt temp = some file)
    (hnone : s.nodes.lookup path = none) :
    FileSpec fails s (publishMaterializedFile digest temp path .noReplace object)
      (fun _ t => Replaced s t path { file with mode := defaultMaterializedFileMode })
      fun _ t => Keeps s t ∧ CanFail fails := by
  unfold publishMaterializedFile
  apply FileSpec.bind ((setTemporaryFileMode_spec htemp hfile).withTemp ?_)
  · rintro _ t ⟨hkeeps, hmode⟩
    have hthere := fileAt_eq_some.mp hmode
    have hfree : t.nodes.lookup path = none := (hkeeps path hpath).trans hnone
    apply FileSpec.bind (Q := fun answer u => (answer = .ok () ∧ u = t.move temp path
      (.file { file with mode := defaultMaterializedFileMode })) ∨
        (u = t ∧ answer = .error .other ∧ CanFail fails))
    · apply FileSpec.tryFile
      rintro answer u (h | ⟨hfails, rfl, rfl⟩)
      · simp only [fileEffect, hthere, hfree] at h
        obtain ⟨rfl, rfl⟩ := h
        exact .inl ⟨rfl, rfl⟩
      · exact .inr ⟨rfl, rfl, _, _, hfails⟩
    rintro answer u (⟨rfl, rfl⟩ | ⟨rfl, rfl, hcan⟩)
    · refine .pure ⟨AList.lookup_insert _, ?_⟩
      intro other hne hother
      exact ((AList.lookup_insert_ne hne).trans
        (AList.lookup_erase_ne (ne_of_isTemp hother htemp))).trans (hkeeps other hother)
    · apply FileSpec.bind (FileSpec.dropTemp (Q := fun v => Keeps s v) fun v hv =>
        hkeeps.trans (keeps_drop htemp hv))
      exact fun _ _ hv => .throw ⟨hv, hcan⟩
  · rintro _ t u ⟨hkeeps, hcan⟩ hu
    exact ⟨hkeeps.trans (keeps_drop htemp hu), hcan⟩

/-- The new file is exchanged with the pointer file. -/
theorem publish_replace_spec {temp : DiskPath} {file old : DiskFile} (htemp : temp.isTemp = true)
    (hpath : path.isTemp = false) (hfile : s.fileAt temp = some file)
    (hold : s.fileAt path = some old) (hstart : s.nodes.lookup path = start.nodes.lookup path) :
    FileSpec fails s (publishMaterializedFile digest temp path .replaceMatchingPointer object)
      (fun _ t => Replaced s t path { file with mode := old.mode } ∧ PointsTo object old.bytes)
      fun _ t => (FailsEarly fails start path → Keeps s t) ∧
        (CanFail fails ∨ ¬PointsTo object old.bytes) := by
  unfold publishMaterializedFile
  apply FileSpec.bind (Q := fun _ t => Keeps s t ∧
    t.fileAt temp = some { file with mode := old.mode })
  · apply FileSpec.withTemp (Q := fun _ t => Keeps s t ∧
      t.fileAt temp = some { file with mode := old.mode })
      (E := fun _ t => Keeps s t ∧ (CanFail fails ∨ ¬PointsTo object old.bytes))
    · apply FileSpec.bind (ensureMatchingPointer_spec.conseq (fun _ _ h => h)
        fun _ t h => ⟨h.1 ▸ Keeps.refl t, h.2.imp_right fun hnot => hnot old hold⟩)
      rintro _ t ⟨rfl, _⟩
      apply FileSpec.bind (worktreeFileMetadata_spec.conseq (fun _ _ h => h) ?_)
      · rintro metadata u ⟨rfl, old', hold', rfl⟩
        rw [hold] at hold'
        obtain rfl := Option.some.inj hold'
        exact (setTemporaryFileMode_spec htemp hfile).conseq (fun _ _ h => h)
          fun _ _ h => ⟨h.1, .inl h.2⟩
      · rintro e u ⟨rfl, _, hfails | hnone⟩
        · exact ⟨.refl u, .inl hfails.canFail⟩
        · rw [hold] at hnone
          cases hnone
    · rintro _ t u ⟨hkeeps, hbad⟩ hu
      exact ⟨fun _ => hkeeps.trans (keeps_drop htemp hu), hbad⟩
  rintro _ t ⟨hkeeps, hmode⟩
  have hold' : t.fileAt path = some old := (hkeeps.fileAt hpath).trans hold
  have hne : temp ≠ path := (ne_of_isTemp hpath htemp).symm
  have hswap := lookup_swap hne (s := t) (a := .file { file with mode := old.mode })
    (b := .file old)
  have hdisplaced := fileAt_eq_some.mpr hswap.1
  have hverify : FileSpec fails (t.swap temp path (.file { file with mode := old.mode })
      (.file old)) (verifyDisplacedPointer object path temp) _ _ := verifyDisplacedPointer_spec
  apply (replaceRetainingDisplaced_spec (V := PointsTo object old.bytes)
    (W := CanFail fails ∨ ¬PointsTo object old.bytes) htemp hpath hmode hold'
    (hverify.conseq ?_ ?_)).conseq
  · rintro _ u ⟨hreplaced, hpointer⟩
    exact ⟨hkeeps.replaced hreplaced, hpointer⟩
  · rintro _ u (⟨hback, hbad⟩ | ⟨hreplaced, hfails⟩)
    · exact ⟨fun _ => hkeeps.trans hback, hbad.elim .inl id⟩
    · -- The exchange failed while the path named what it named at the start.
      refine ⟨fun hearly => ?_, .inl ⟨_, _, hfails⟩⟩
      rcases hearly _ _ hfails with hsame | hnot
      · rw [hswap.2.1, ← hstart, ← hkeeps path hpath] at hsame
        intro other hother
        by_cases heq : other = path
        · rw [heq, hreplaced.1, hsame, hkeeps path hpath]
        · rw [hreplaced.2 other heq hother, hkeeps other hother]
      · exact absurd rfl hnot
  · rintro _ u ⟨rfl, displaced, hfile', hpointer⟩
    rw [hdisplaced] at hfile'
    obtain rfl := Option.some.inj hfile'
    exact ⟨rfl, hpointer⟩
  · rintro _ u ⟨rfl, hbad⟩
    exact ⟨rfl, hbad.imp_right fun hnot => hnot old hdisplaced⟩

/-- The object has bytes that can be counted. -/
theorem IsObject.length_lt {bytes : List UInt8} (h : IsObject digest object bytes) :
    bytes.length < 2 ^ 64 := by
  rw [h.2]
  exact object.size.toNat_lt

/-- The file is there already, or there is none with the bytes of the object and it is a copy of
the one in the cache. -/
def Taken (digest : List UInt8 → LfsOid) (object : LfsObject) (path : DiskPath) (s : FileState)
    (file : DiskFile) : Prop :=
  s.fileAt path = some file ∨ (CopyOf s object file.bytes ∧
    ∀ old, s.fileAt path = some old → ¬IsObject digest object old.bytes)

/-- What a materialization leaves: the object, with the mode of the file that was there. -/
def Materialized (digest : List UInt8 → LfsOid) (object : LfsObject) (path : DiskPath)
    (s t : FileState) : Prop :=
  ∃ file, Replaced s t path file ∧ IsObject digest object file.bytes ∧
    file.mode = ((s.fileAt path).map DiskFile.mode).getD defaultMaterializedFileMode ∧
      Taken digest object path s file

/-- The published file is verified; where that fails, the file is the one of the start. -/
theorem verify_published_spec {u : FileState} {file : DiskFile}
    (hreplaced : Replaced start u path file)
    (hobject : IsObject digest object file.bytes) :
    FileSpec fails u (verifyWorktreeFileObject digest path object)
      (fun _ t => t = u) fun _ t => (FailsEarly fails start path → Keeps start t) ∧ CanFail fails := by
  apply verifyWorktreeFileObject_spec.conseq (fun _ _ h => h.1)
  rintro e t ⟨rfl, hmismatch, hother⟩
  have hfile := hreplaced.fileAt
  cases he : e.isMismatch with
  | true =>
    obtain ⟨file', hfile', hnot⟩ := hmismatch he
    rw [hfile] at hfile'
    exact absurd hobject (Option.some.inj hfile' ▸ hnot)
  | false =>
    rcases hother he with hfails | hnone | ⟨file', hfile', hlarge⟩
    · refine ⟨fun hearly => ?_, hfails.canFail⟩
      by_cases hsame : t.nodes.lookup path = start.nodes.lookup path
      · intro other hother
        by_cases heq : other = path
        · rw [heq, hsame]
        · exact hreplaced.2 other heq hother
      · exact absurd hfails (hearly.not_mayFail hsame)
    · rw [hfile] at hnone
      cases hnone
    · rw [hfile] at hfile'
      rw [← Option.some.inj hfile'] at hlarge
      exact absurd hobject.length_lt (by omega)

/-- There is no file to keep at the destination, or there is one to replace. -/
def MaterializationMode.Ready (s : FileState) (path : DiskPath) : MaterializationMode → Prop
  | .noReplace => s.nodes.lookup path = none
  | .replaceMatchingPointer => (s.fileAt path).isSome = true

/-- Why a materialization is refused where no call fails. -/
def MaterializationRefused (digest : List UInt8 → LfsOid) (object : LfsObject) (path : DiskPath)
    (s : FileState) : Prop :=
  path.parent = none ∨ ¬Cached digest s object ∨
    ∀ file, s.fileAt path = some file → ¬PointsTo object file.bytes

/-- The object is copied and published. -/
theorem materializeCopy_spec {parent : DiskPath} {mode : MaterializationMode}
    (hpath : path.isTemp = false) (hmode : mode.Ready s path)
    (hother : ∀ old, s.fileAt path = some old → ¬IsObject digest object old.bytes) :
    FileSpec fails s (materializeCopy digest object path parent mode)
      (fun _ t => Materialized digest object path s t)
      fun _ t => (FailsEarly fails s path → Keeps s t) ∧
        (CanFail fails ∨ MaterializationRefused digest object path s) := by
  unfold materializeCopy
  apply FileSpec.bind (Q := fun _ t => t = s)
  · apply FileSpec.askFile
    rintro answer t (⟨rfl, rfl⟩ | ⟨hfails, rfl, rfl⟩)
    · exact ⟨fun _ _ => rfl, fun _ h => by cases h⟩
    · exact ⟨fun _ h => (by cases h), fun _ _ => ⟨fun _ => .refl t, .inl ⟨_, _, hfails⟩⟩⟩
  rintro _ t rfl
  apply FileSpec.bind (createTemp_spec.conseq (fun _ _ h => h)
    fun _ u h => ⟨fun _ => h.1 ▸ Keeps.refl t, .inl h.2⟩)
  rintro temp u ⟨hcreated, htemp, _, inode, hempty⟩
  have hcopy : FileSpec fails u (withTemp temp (copyCacheObjectToTemporaryFile digest temp object))
      _ fun _ v => (FailsEarly fails t path → Keeps t v) ∧
        (CanFail fails ∨ MaterializationRefused digest object path t) :=
    (copyCacheObjectToTemporaryFile_spec htemp hempty).withTemp ?_
  apply FileSpec.bind hcopy
  · rintro _ v ⟨hcopied, file, hfile, hobject, hcopy⟩
    have hkeeps : Keeps t v := hcreated.trans hcopied
    have hpublish : FileSpec fails v (publishMaterializedFile digest temp path mode object)
        (fun _ w => ∃ file', Replaced t w path file' ∧ file'.bytes = file.bytes ∧
          file'.mode = ((t.fileAt path).map DiskFile.mode).getD defaultMaterializedFileMode)
        fun _ w => (FailsEarly fails t path → Keeps t w) ∧
          (CanFail fails ∨ MaterializationRefused digest object path t) := by
      cases mode with
      | noReplace =>
        have hnone : v.nodes.lookup path = none := (hkeeps path hpath).trans hmode
        apply (publish_noReplace_spec htemp hpath hfile hnone).conseq
        · intro _ w hreplaced
          have hno : t.fileAt path = none := by
            rw [FileState.fileAt, show t.nodes.lookup path = none from hmode]
          exact ⟨_, hkeeps.replaced hreplaced, rfl, by rw [hno]; rfl⟩
        · exact fun _ w hw => ⟨fun _ => hkeeps.trans hw.1, .inl hw.2⟩
      | replaceMatchingPointer =>
        obtain ⟨old, hold⟩ := Option.isSome_iff_exists.mp hmode
        have hold' : v.fileAt path = some old := (hkeeps.fileAt hpath).trans hold
        apply (publish_replace_spec htemp hpath hfile hold' (hkeeps path hpath)).conseq
        · rintro _ w ⟨hreplaced, _⟩
          exact ⟨_, hkeeps.replaced hreplaced, rfl, by rw [hold]; rfl⟩
        · rintro _ w ⟨hw, hbad⟩
          refine ⟨fun hearly => hkeeps.trans (hw hearly),
            hbad.imp_right fun hnot => .inr (.inr fun file' hfile' => ?_)⟩
          rw [hold] at hfile'
          rwa [← Option.some.inj hfile']
    apply FileSpec.bind hpublish
    rintro _ w ⟨file', hreplaced, hbytes, hmode'⟩
    have hobject' : IsObject digest object file'.bytes := hbytes ▸ hobject
    apply FileSpec.bind ((verify_published_spec hreplaced hobject').conseq (fun _ _ h => h)
      fun _ _ h => ⟨h.1, .inl h.2⟩)
    rintro _ x rfl
    exact .pure ⟨file', hreplaced, hobject', hmode',
      .inr ⟨hcreated.copyOf.mp (hbytes ▸ hcopy), hother⟩⟩
  · rintro _ v w ⟨hv, hbad⟩ hw
    refine ⟨fun _ => (hcreated.trans hv).trans (keeps_drop htemp hw), hbad.imp_right fun hnot => ?_⟩
    exact .inr (.inl fun hcached => hnot (hcreated.cached.mpr hcached))

variable (digest) in
/-- The check of a destination with other bytes. -/
theorem checkDestination_spec {mode : MaterializationMode} {status : ExistingDestinationStatus}
    (hnot : status ≠ .alreadyMaterialized)
    (hmissing : status = .missing → s.nodes.lookup path = none)
    (hdifferent : status = .different →
      ∃ file, s.fileAt path = some file ∧ ¬IsObject digest object file.bytes)
    (hmode : mode = .replaceMatchingPointer → (s.fileAt path).isSome = true) :
    FileSpec fails s (checkDestination object path mode status)
      (fun _ t => t = s ∧ mode.Ready s path ∧
        ∀ old, s.fileAt path = some old → ¬IsObject digest object old.bytes)
      fun _ t => Keeps s t ∧ (CanFail fails ∨ MaterializationRefused digest object path s ∨
        mode = .noReplace) := by
  cases status with
  | alreadyMaterialized => exact absurd rfl hnot
  | missing =>
    have hnone : s.fileAt path = none := by rw [FileState.fileAt, hmissing rfl]
    have hother : ∀ old, s.fileAt path = some old → ¬IsObject digest object old.bytes := by
      intro old hold
      rw [hnone] at hold
      cases hold
    cases mode with
    | noReplace => exact .pure ⟨rfl, hmissing rfl, hother⟩
    | replaceMatchingPointer => exact .pure ⟨rfl, hmode rfl, hother⟩
  | different =>
    obtain ⟨file, hfile, hobject⟩ := hdifferent rfl
    have hother : ∀ old, s.fileAt path = some old → ¬IsObject digest object old.bytes := by
      intro old hold
      rw [hfile] at hold
      rwa [← Option.some.inj hold]
    cases mode with
    | noReplace => exact .throw ⟨.refl s, .inr (.inr rfl)⟩
    | replaceMatchingPointer =>
      apply ensureMatchingPointer_spec.conseq (fun _ _ h => ⟨h.1, hmode rfl, hother⟩)
      rintro _ t ⟨rfl, hbad⟩
      exact ⟨.refl t, hbad.imp_right fun hnot => .inl (.inr (.inr hnot))⟩

/-- A materialization leaves the object, or everything as it was. -/
theorem materializeVerifiedObject_spec {mode : MaterializationMode} (hpath : path.isTemp = false)
    (hmode : mode = .replaceMatchingPointer → (s.fileAt path).isSome = true) :
    FileSpec fails s (materializeVerifiedObject digest object path mode)
      (fun _ t => Materialized digest object path s t)
      fun _ t => (FailsEarly fails s path → Keeps s t) ∧ (CanFail fails ∨
        MaterializationRefused digest object path s ∨
        mode = .noReplace ∨ ∃ file, s.fileAt path = some file ∧ 2 ^ 64 ≤ file.bytes.length) := by
  unfold materializeVerifiedObject
  apply FileSpec.bind (existingDestinationStatus_spec.conseq (fun _ _ h => h) ?_)
  · rintro status t ⟨rfl, hstatus⟩
    split
    next hdone =>
      subst hdone
      obtain ⟨file, hfile, hobject⟩ := hstatus
      refine .pure ⟨file, ⟨fileAt_eq_some.mp hfile, fun _ _ _ => rfl⟩, hobject, ?_, .inl hfile⟩
      rw [hfile]
      rfl
    next hnot =>
      have hmissing : status = .missing → t.nodes.lookup path = none := by
        rintro rfl
        exact hstatus
      have hdifferent : status = .different →
          ∃ file, t.fileAt path = some file ∧ ¬IsObject digest object file.bytes := by
        rintro rfl
        exact hstatus
      apply FileSpec.bind ((checkDestination_spec digest hnot hmissing hdifferent hmode).conseq
        (fun _ _ h => h) fun _ _ h => ⟨fun _ => h.1, h.2.imp_right fun h => h.imp_right .inl⟩)
      · rintro _ u ⟨rfl, hready, hother⟩
        unfold materializeInParent
        cases hparent : path.parent with
        | none => exact .throw ⟨fun _ => .refl u, .inr (.inl (.inl hparent))⟩
        | some parent =>
          exact (materializeCopy_spec hpath hready hother).conseq (fun _ _ h => h)
            fun _ _ h => ⟨h.1, h.2.imp_right .inl⟩
  · rintro e t ⟨rfl, hfails | ⟨hthere, hnone⟩ | hlarge⟩
    · exact ⟨fun _ => .refl t, .inl hfails.canFail⟩
    · cases mode with
      | noReplace => exact ⟨fun _ => .refl t, .inr (.inr (.inl rfl))⟩
      | replaceMatchingPointer =>
        have hsome := hmode rfl
        rw [hnone] at hsome
        cases hsome
    · exact ⟨fun _ => .refl t, .inr (.inr (.inr hlarge))⟩

/-- Nothing but the locks changed. -/
def SameNodes (s t : FileState) : Prop := t.nodes = s.nodes

/-- What is done under the lock of a path, by what it says of the files. -/
theorem withPathLock_spec {α : Type} {p : FileProg α} {Q : α → FileState → Prop}
    {E : LocalCacheFileError → FileState → Prop}
    (hp : ∀ t, SameNodes s t → FileSpec fails t p Q E)
    (hQ : ∀ a t u, SameNodes t u → Q a t → Q a u)
    (hE : ∀ e t u, SameNodes t u → E e t → E e u) (hs : CanFail fails → ∀ e, E e s) :
    FileSpec fails s (withPathLock stripe path p) Q E := by
  unfold withPathLock
  apply FileSpec.bind (Q := fun _ t => SameNodes s t)
  · apply FileSpec.askFile
    rintro answer t (⟨rfl, rfl⟩ | ⟨hfails, rfl, rfl⟩)
    · exact ⟨fun _ _ => rfl, fun source h => by cases h⟩
    · exact ⟨fun a h => (by cases h), fun _ _ => hs ⟨_, _, hfails⟩ _⟩
  intro _ t ht
  apply FileSpec.bind ((hp t ht).attempt (R := fun r u => ResultSpec (Q · u) (E · u) r)
    (fun _ _ h => h) fun _ _ h => h)
  intro r u hu
  apply FileSpec.bind (Q := fun _ v => SameNodes u v)
  · apply FileSpec.ask
    rintro answer v (rfl | ⟨_, h⟩)
    · exact rfl
    · exact h.elim
  intro _ v hv
  cases r with
  | ok a => exact .pure (hQ a u v hv hu)
  | error e => exact .throw (hE e u v hv hu)

/-- The lock of the whole cache, which is shared. -/
theorem lockShared_spec {context : String} {reported : DiskPath} :
    FileSpec fails s (askFile (α := Unit) .lockShared rfl context reported) (fun _ t => t = s)
      fun _ t => t = s ∧ CanFail fails := by
  apply FileSpec.askFile
  rintro answer t (⟨rfl, rfl⟩ | ⟨hfails, rfl, rfl⟩)
  · exact ⟨fun _ _ => rfl, fun _ h => by cases h⟩
  · exact ⟨fun _ h => (by cases h), fun _ _ => ⟨rfl, _, _, hfails⟩⟩

theorem SameNodes.keeps (h : SameNodes s t) : Keeps s t := fun _ _ => by rw [h]

/-- The file at a path is a pointer, which is one of size zero or whose object comes in its
place. -/
def Hydrated (digest : List UInt8 → LfsOid) (path : DiskPath) (s t : FileState)
    (object : LfsObject) : Prop :=
  ∃ file pointer, s.fileAt path = some file ∧ pointerOf file.bytes = some pointer ∧
    object = pointer.object ∧
      ((pointer.isEmpty = true ∧ Keeps s t) ∨
        (pointer.isEmpty = false ∧ Materialized digest object path s t))

theorem Materialized.sameNodes {s' t' : FileState} (hs : SameNodes s s') (ht : SameNodes t t')
    (h : Materialized digest object path s' t) : Materialized digest object path s t' := by
  obtain ⟨file, ⟨hfile, hothers⟩, hobject, hmode, htaken⟩ := h
  have hat : s'.fileAt path = s.fileAt path := by
    unfold FileState.fileAt
    rw [hs]
  rw [hat] at hmode
  unfold Taken at htaken
  rw [hat, hs.keeps.copyOf] at htaken
  refine ⟨file, ⟨by rw [ht]; exact hfile, ?_⟩, hobject, hmode, htaken⟩
  intro other hne hother
  rw [ht, hothers other hne hother, hs]

theorem Hydrated.sameNodes {s' t' : FileState} (hs : SameNodes s s') (ht : SameNodes t t')
    (h : Hydrated digest path s' t object) : Hydrated digest path s t' object := by
  obtain ⟨file, pointer, hfile, hpointer, hobject, hdone⟩ := h
  have hfile' : s.fileAt path = some file := by
    rw [← hfile]
    unfold FileState.fileAt
    rw [hs]
  refine ⟨file, pointer, hfile', hpointer, hobject, ?_⟩
  rcases hdone with ⟨hempty, hkeeps⟩ | ⟨hempty, hmaterialized⟩
  · exact .inl ⟨hempty, (hs.keeps.trans hkeeps).trans ht.keeps⟩
  · exact .inr ⟨hempty, hmaterialized.sameNodes hs ht⟩

theorem FailsEarly.sameNodes (h : FailsEarly fails s path) (hs : SameNodes s t) :
    FailsEarly fails t path := by
  intro u c hfails
  rw [hs]
  exact h u c hfails

/-- Why a hydration is refused where no call fails. -/
def HydrationRefused (digest : List UInt8 → LfsOid) (path : DiskPath) (s : FileState) : Prop :=
  ∀ file pointer, s.fileAt path = some file → pointerOf file.bytes = some pointer →
    pointer.isEmpty = false ∧ (path.parent = none ∨ ¬Cached digest s pointer.object)

theorem HydrationRefused.sameNodes (hs : SameNodes s t) (h : HydrationRefused digest path t) :
    HydrationRefused digest path s := by
  intro file pointer hfile hpointer
  have hfile' : t.fileAt path = some file := by
    rw [← hfile]
    unfold FileState.fileAt
    rw [hs]
  obtain ⟨hne, hbad⟩ := h file pointer hfile' hpointer
  exact ⟨hne, hbad.imp_right fun hnot hcached => hnot (hs.keeps.cached.mpr hcached)⟩

/-- A pointer file is small. -/
theorem length_of_pointerOf {bytes : List UInt8} {pointer : LfsPointer}
    (h : pointerOf bytes = some pointer) : bytes.length < lfsPointerSizeCutoff := by
  by_contra hlarge
  rw [pointerOf, if_pos (by omega)] at h
  cases h

/-- A hydration leaves the bytes of the object, a pointer of size zero, or everything as it was. -/
theorem hydrateLocked_spec (hpath : path.isTemp = false) :
    FileSpec fails s (hydrateLocked digest path)
      (fun result t => Hydrated digest path s t result.1)
      fun _ t => (FailsEarly fails s path → Keeps s t) ∧
        (CanFail fails ∨ HydrationRefused digest path s) := by
  unfold hydrateLocked
  apply FileSpec.bind (readLfsPointerFile_spec.conseq (fun _ _ h => h) ?_)
  · rintro pointer t ⟨rfl, file, hfile, hpointer⟩
    have hsame : ∀ file' pointer', t.fileAt path = some file' →
        pointerOf file'.bytes = some pointer' → file' = file ∧ pointer' = pointer := by
      intro file' pointer' hfile' hpointer'
      rw [hfile] at hfile'
      obtain rfl := Option.some.inj hfile'
      rw [hpointer] at hpointer'
      exact ⟨rfl, (Option.some.inj hpointer').symm⟩
    split
    next hempty => exact .pure ⟨file, pointer, hfile, hpointer, rfl, .inl ⟨hempty, .refl t⟩⟩
    next hne =>
      have hne' : pointer.isEmpty = false := Bool.eq_false_iff.mpr hne
      have hrefused : (path.parent = none ∨ ¬Cached digest t pointer.object) →
          HydrationRefused digest path t := by
        intro hbad file' pointer' hfile' hpointer'
        obtain ⟨rfl, rfl⟩ := hsame file' pointer' hfile' hpointer'
        exact ⟨hne', hbad⟩
      apply FileSpec.bind (verifyObject_spec.conseq (fun _ _ h => h.1) ?_)
      · rintro _ u rfl
        apply FileSpec.bind ((materializeVerifiedObject_spec hpath
          fun _ => by rw [hfile]; rfl).conseq (fun _ _ h => h) ?_)
        · intro status v hdone
          exact .pure ⟨file, pointer, hfile, hpointer, rfl, .inr ⟨hne', hdone⟩⟩
        · rintro e v ⟨hkeeps, hcan | (hparent | hcached | hpoints) | hmode | ⟨file', hfile', hlarge⟩⟩
          · exact ⟨hkeeps, .inl hcan⟩
          · exact ⟨hkeeps, .inr (hrefused (.inl hparent))⟩
          · exact ⟨hkeeps, .inr (hrefused (.inr hcached))⟩
          · exact absurd ⟨pointer, hpointer, rfl⟩ (hpoints file hfile)
          · cases hmode
          · rw [hfile] at hfile'
            obtain rfl := Option.some.inj hfile'
            have hsmall := length_of_pointerOf hpointer
            unfold lfsPointerSizeCutoff at hsmall
            omega
      · rintro e u ⟨rfl, hfails | hfails | hnot⟩
        · exact ⟨fun _ => .refl u, .inl ⟨_, _, hfails⟩⟩
        · exact ⟨fun _ => .refl u, .inl ⟨_, _, hfails⟩⟩
        · refine ⟨fun _ => .refl u, .inr (hrefused (.inr ?_))⟩
          rintro ⟨cached, hcached, hobject⟩
          exact hnot cached hcached hobject
  · rintro e t ⟨rfl, hfails | hnone⟩
    · exact ⟨fun _ => .refl t, .inl hfails.canFail⟩
    · refine ⟨fun _ => .refl t, .inr fun file pointer hfile hpointer => ?_⟩
      rw [hnone file hfile] at hpointer
      cases hpointer

theorem hydratePointerFile_spec (hpath : path.isTemp = false) :
    FileSpec fails s (hydratePointerFile digest stripe path)
      (fun result t => Hydrated digest path s t result.1)
      fun _ t => (FailsEarly fails s path → Keeps s t) ∧
        (CanFail fails ∨ HydrationRefused digest path s) := by
  unfold hydratePointerFile
  apply FileSpec.bind (lockShared_spec.conseq (fun _ _ h => h)
    fun _ t h => ⟨fun _ => h.1 ▸ Keeps.refl t, .inl h.2⟩)
  rintro _ t rfl
  apply withPathLock_spec
  · intro u hu
    apply (hydrateLocked_spec hpath).conseq
    · exact fun _ v h => h.sameNodes hu rfl
    · exact fun _ v h => ⟨fun hearly => hu.keeps.trans (h.1 (hearly.sameNodes hu)),
        h.2.imp_right fun hbad => hbad.sameNodes hu⟩
  · exact fun _ _ _ hsame h => h.sameNodes rfl hsame
  · exact fun _ _ _ hsame h => ⟨fun hearly => (h.1 hearly).trans hsame.keeps, h.2⟩
  · exact fun hcan _ => ⟨fun _ => .refl t, .inl hcan⟩

theorem materializeObject_spec (hpath : path.isTemp = false) :
    FileSpec fails s (materializeObject digest stripe object path)
      (fun _ t => Materialized digest object path s t)
      fun _ t => FailsEarly fails s path → Keeps s t := by
  unfold materializeObject
  apply FileSpec.bind (lockShared_spec.conseq (fun _ _ h => h) fun _ t h _ => h.1 ▸ Keeps.refl t)
  rintro _ t rfl
  apply withPathLock_spec
  · intro u hu
    apply FileSpec.bind (verifyObject_spec.conseq (fun _ _ h => h.1)
      fun _ v h _ => h.1 ▸ hu.keeps)
    rintro _ v rfl
    apply (materializeVerifiedObject_spec hpath
      fun h => by cases h).conseq
    · exact fun _ w h => h.sameNodes hu rfl
    · exact fun _ w h hearly => hu.keeps.trans (h.1 (hearly.sameNodes hu))
  · exact fun _ _ _ hsame h => h.sameNodes rfl hsame
  · exact fun _ _ _ hsame h hearly => (h hearly).trans hsame.keeps
  · exact fun _ _ _ => .refl t

/-- The file is a text that is a pointer of size zero. -/
def SizeZeroText (s : FileState) (path : DiskPath) : Prop :=
  ∃ file pointer, s.fileAt path = some file ∧ pointerOf file.bytes = some pointer ∧
    pointer.isEmpty = true ∧ file.bytes ≠ []

/-- The file at the path has the bytes of the object. -/
def HasObject (digest : List UInt8 → LfsOid) (s : FileState) (path : DiskPath)
    (object : LfsObject) : Prop :=
  ∃ file, s.fileAt path = some file ∧ IsObject digest object file.bytes

/-- The path names a file with the same bytes and mode, or nothing, as before. -/
def SameFile (s t : FileState) (path : DiskPath) : Prop :=
  t.nodes.lookup path = s.nodes.lookup path

/-- The empty file is the pointer of the empty object. -/
theorem pointerOf_nil : pointerOf [] = some (.new ⟨.ofEmpty, 0⟩) := by rfl

end

/-- No call fails. -/
def NoFailures : FileState → FileCall → Prop := fun _ _ => False

theorem noFailures_early (s : FileState) (path : DiskPath) : FailsEarly NoFailures s path :=
  fun _ _ h => h.elim

/-- A hash of all bytes as one identifier. -/
def sampleCacheDigest (_ : List UInt8) : LfsOid := .ofEmpty

/-- One lock for all paths. -/
def sampleStripe (_ : DiskPath) : String := "00"

/-- The bytes of a text. -/
def textBytes (text : String) : List UInt8 := text.toUTF8.data.toList

/-- A repository with one file. -/
def sampleFiles (bytes : List UInt8) : FileState :=
  ⟨AList.singleton (.worktree [.text "a"]) (.file ⟨bytes, 0o644, 0⟩), 1, []⟩

/-- The text of a pointer of size zero for the empty object. -/
def sizeZeroText : String :=
  "version https://git-lfs.github.com/spec/v1\noid sha256:e3b0c44298fc1c149afbf4c8996fb92427ae41e4649b934ca495991b7852b855\nsize 0\n"

set_option maxRecDepth 20000 in
theorem parse_sizeZeroText : LfsPointer.parse sizeZeroText = .ok (.new ⟨.ofEmpty, 0⟩) := by rfl

theorem pointerText_textBytes (text : String) : pointerText (textBytes text) = some text :=
  dif_pos text.isValidUTF8

set_option maxRecDepth 20000 in
theorem length_sizeZeroText : (textBytes sizeZeroText).length = 126 := by rfl

theorem isEmpty_sizeZero : (LfsPointer.new ⟨.ofEmpty, 0⟩).isEmpty = true := by rfl

theorem pointerOf_sizeZeroText :
    pointerOf (textBytes sizeZeroText) = some (.new ⟨.ofEmpty, 0⟩) := by
  have hsmall : ¬lfsPointerSizeCutoff ≤ (textBytes sizeZeroText).length := by
    rw [length_sizeZeroText]
    decide
  rw [pointerOf, if_neg hsmall, pointerText_textBytes]
  dsimp only
  rw [parse_sizeZeroText]

/-- A name that no file has. -/
theorem exists_free_suffix (s : FileState) (parent : DiskPath) :
    ∃ suffix, s.nodes.lookup (.temp parent suffix) = none := by
  have hinjective : Function.Injective fun n : ℕ =>
      DiskPath.temp parent (String.ofList (List.replicate n 'a')) := by
    intro m n h
    have hlength := congrArg (fun suffix => suffix.toList.length) (DiskPath.temp.inj h).2
    simpa using hlength
  obtain ⟨path, ⟨n, rfl⟩, hpath⟩ :=
    (Set.infinite_range_of_injective hinjective).exists_notMem_finset s.nodes.keys.toFinset
  refine ⟨String.ofList (List.replicate n 'a'), ?_⟩
  by_contra hsome
  obtain ⟨node, hnode⟩ := Option.ne_none_iff_exists'.mp hsome
  apply hpath
  rw [List.mem_toFinset]
  exact Table.mem_keys_iff.mpr (by rw [hnode]; rfl)

/-- Every call on files has an answer. -/
theorem exists_fileOp (fails : FileState → FileCall → Prop) (s : FileState) (c : FileCall) :
    ∃ answer t, fileOp fails s c answer t := by
  have hread : ∀ file, ∃ answer, ReadsFile file answer := by
    intro file
    cases file with
    | none => exact ⟨.error .notFound, _, rfl⟩
    | some file => exact ⟨.ok [file.bytes], _, rfl, by simp⟩
  cases c with
  | metadata path => exact ⟨_, _, .inl ⟨rfl, rfl⟩⟩
  | symlinkMetadata path => exact ⟨_, _, .inl ⟨rfl, rfl⟩⟩
  | read path =>
    obtain ⟨answer, hanswer⟩ := hread (s.followed path)
    exact ⟨answer, s, .inl ⟨rfl, hanswer⟩⟩
  | readNoFollow path =>
    obtain ⟨answer, hanswer⟩ := hread (s.fileAt path)
    exact ⟨answer, s, .inl ⟨rfl, hanswer⟩⟩
  | createDirAll path => exact ⟨.ok (), s, .inl ⟨rfl, rfl⟩⟩
  | createTemp parent =>
    obtain ⟨suffix, hfree⟩ := exists_free_suffix s parent
    exact ⟨.ok _, _, .inl ⟨suffix, hfree, rfl, rfl⟩⟩
  | write temp bytes =>
    cases hfile : s.fileAt temp with
    | none => exact ⟨.error .notFound, s, .inl (by simp only [fileEffect, hfile]; trivial)⟩
    | some file => exact ⟨.ok (), _, .inl (by simp only [fileEffect, hfile]; exact ⟨rfl, rfl⟩)⟩
  | setPermissions temp mode =>
    cases hfile : s.fileAt temp with
    | none => exact ⟨.error .notFound, s, .inl (by simp only [fileEffect, hfile]; trivial)⟩
    | some file => exact ⟨.ok (), _, .inl (by simp only [fileEffect, hfile]; exact ⟨rfl, rfl⟩)⟩
  | persistNoclobber temp path =>
    cases hnode : s.nodes.lookup temp with
    | none => exact ⟨.error .notFound, s, .inl (by simp only [fileEffect, hnode]; trivial)⟩
    | some node =>
      cases hdest : s.nodes.lookup path with
      | none =>
        exact ⟨.ok (), _, .inl (by simp only [fileEffect, hnode, hdest]; exact ⟨rfl, rfl⟩)⟩
      | some node' =>
        exact ⟨.error .alreadyExists, s, .inl (by simp only [fileEffect, hnode, hdest]; trivial)⟩
  | exchange left right =>
    cases hleft : s.nodes.lookup left with
    | none => exact ⟨.error .notFound, s, .inl (by simp only [fileEffect, hleft]; trivial)⟩
    | some a =>
      cases hright : s.nodes.lookup right with
      | none =>
        exact ⟨.error .notFound, s, .inl (by simp only [fileEffect, hleft, hright]; trivial)⟩
      | some b =>
        exact ⟨.ok (), _, .inl (by simp only [fileEffect, hleft, hright]; exact ⟨rfl, rfl⟩)⟩
  | remove temp => exact ⟨(), _, .inl rfl⟩
  | sync path => exact ⟨.ok (), s, .inl ⟨rfl, rfl⟩⟩
  | lockShared => exact ⟨.ok (), s, .inl ⟨rfl, rfl⟩⟩
  | lockPath stripe => exact ⟨.ok (), _, .inl ⟨rfl, rfl⟩⟩
  | unlockPath stripe => exact ⟨(), _, .inl rfl⟩

/-- Where nothing fails and nothing is refused, a program has a run, which succeeds. -/
theorem FileSpec.exists_ok {α : Type} {s : FileState} {p : FileProg α} {Q : α → FileState → Prop}
    {E : LocalCacheFileError → FileState → Prop} (h : FileSpec NoFailures s p Q E)
    (hE : ∀ e t, ¬E e t) :
    ∃ a t, (p.from ()).Returns (fileOp NoFailures) s (.ok a, ()) t ∧ Q a t := by
  obtain ⟨⟨result, ⟨⟩⟩, t, hret⟩ :=
    Prog.exists_returns (exists_fileOp NoFailures) (p.from ()) s
  obtain ⟨hok, herror⟩ := h.returns hret
  cases result with
  | ok a => exact ⟨a, t, hret, hok a rfl⟩
  | error e => exact absurd (herror e rfl) (hE e t)

theorem not_canFail : ¬CanFail NoFailures := fun ⟨_, _, h⟩ => h

/-- A hydration of a text with a pointer of size zero succeeds and leaves the text. -/
theorem exists_hydrate_size_zero {digest : List UInt8 → LfsOid} {bytes : List UInt8}
    {pointer : LfsPointer} (hpointer : pointerOf bytes = some pointer)
    (hempty : pointer.isEmpty = true) :
    ∃ status t, ((hydratePointerFile digest sampleStripe (.worktree [.text "a"])).from
      ()).Returns (fileOp NoFailures) (sampleFiles bytes) (.ok (pointer.object, status), ()) t ∧
        t.fileAt (.worktree [.text "a"]) = some ⟨bytes, 0o644, 0⟩ := by
  have hfile : (sampleFiles bytes).fileAt (.worktree [.text "a"]) =
      some ⟨bytes, 0o644, 0⟩ := rfl
  have hspec : FileSpec NoFailures (sampleFiles bytes) (hydratePointerFile digest sampleStripe
    (.worktree [.text "a"])) _ _ := hydratePointerFile_spec rfl
  obtain ⟨⟨object, status⟩, t, hret, old, pointer', hold, hpointer', rfl, hdone⟩ :=
    hspec.exists_ok (by
      rintro e t ⟨_, hcan | hrefused⟩
      · exact not_canFail hcan
      · have hnot := (hrefused _ _ hfile hpointer).1
        rw [hempty] at hnot
        cases hnot)
  rw [hfile] at hold
  obtain rfl := Option.some.inj hold
  rw [hpointer] at hpointer'
  obtain rfl := Option.some.inj hpointer'
  rcases hdone with ⟨_, hkeeps⟩ | ⟨hnot, _⟩
  · exact ⟨status, t, hret, (hkeeps.fileAt rfl).trans hfile⟩
  · rw [hempty] at hnot
    cases hnot

end LfsCloud
