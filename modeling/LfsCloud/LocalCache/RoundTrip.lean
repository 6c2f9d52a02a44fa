import LfsCloud.LocalCache.Dehydration

/-!
# Dehydration and hydration

A dehydration and a hydration give the file back. A hydration and a dehydration give the pointer
back where it has no extensions: the pointer is rendered from its object alone.
-/

namespace LfsCloud

open Interaction

section

variable {fails : FileState → FileCall → Prop} {digest : List UInt8 → LfsOid}
  {stripe : DiskPath → String} {s t u : FileState} {path : DiskPath} {object : LfsObject}

theorem KeepsBut.sameNodes {s' t' : FileState} (hs : SameNodes s s') (ht : SameNodes t t')
    (h : KeepsBut object s' t) : KeepsBut object s t' := by
  intro other hne hother
  rw [ht, h other hne hother, hs]

theorem Dehydrated.sameNodes {s' t' : FileState} (hs : SameNodes s s') (ht : SameNodes t t')
    (h : Dehydrated digest object path s' t) : Dehydrated digest object path s t' := by
  obtain ⟨file, hfile, hdone⟩ := h
  have hat : s'.fileAt path = s.fileAt path := by
    unfold FileState.fileAt
    rw [hs]
  have hat' : t'.fileAt path = t.fileAt path := by
    unfold FileState.fileAt
    rw [ht]
  refine ⟨file, hat ▸ hfile, ?_⟩
  rcases hdone with ⟨hpoints, hkeeps⟩ | ⟨hpoints, hobject, hcached, hcopied, hnew⟩
  · exact .inl ⟨hpoints, (hs.keeps.trans hkeeps).trans ht.keeps⟩
  · refine .inr ⟨hpoints, hobject, ht.keeps.cached.mpr hcached, ?_, by rwa [hat']⟩
    unfold CopiedFrom
    rw [ht.keeps.followed rfl, ← hs.keeps.followed rfl]
    exact hcopied

theorem DehydrationRefused.sameNodes (hs : SameNodes s t)
    (h : DehydrationRefused digest object path t) : DehydrationRefused digest object path s := by
  have hat : t.fileAt path = s.fileAt path := by
    unfold FileState.fileAt
    rw [hs]
  unfold DehydrationRefused Occupied at h ⊢
  rwa [hat, hs.keeps.cached, hs] at h

/-- A dehydration leaves the pointer; where no call fails it is refused for a reason. -/
theorem dehydrateFile_spec (hdigest : digest [] = .ofEmpty) (hpath : path.isTemp = false)
    (hne : path ≠ objectPath object) :
    FileSpec fails s (dehydrateFile digest stripe object path)
      (fun _ t => Dehydrated digest object path s t)
      fun _ _ => CanFail fails ∨ s.fileAt path = none ∨
        DehydrationRefused digest object path s := by
  unfold dehydrateFile
  apply FileSpec.bind (lockShared_spec.conseq (fun _ _ h => h) fun _ _ h => .inl h.2)
  rintro _ t rfl
  apply withPathLock_spec
  · intro u hu
    apply (dehydrateLocked_spec hdigest hpath hne).conseq
    · exact fun _ v h => h.sameNodes hu rfl
    · rintro _ v (hcan | hnone | hrefused)
      · exact .inl hcan
      · refine .inr (.inl ?_)
        rw [← hnone]
        unfold FileState.fileAt
        rw [hu]
      · exact .inr (.inr (hrefused.sameNodes hu))
  · exact fun _ _ _ hsame h => h.sameNodes rfl hsame
  · exact fun _ _ _ _ h => h
  · exact fun hcan _ => .inl hcan

/-- The file at the path has the bytes and the mode. -/
def Restores (path : DiskPath) (file : DiskFile) (t : FileState) : Prop :=
  ∃ file', t.fileAt path = some file' ∧ file'.bytes = file.bytes ∧ file'.mode = file.mode

/-- The pointer at the path is the pointer, with the mode of the file. -/
def RestoresPointer (path : DiskPath) (file : DiskFile) (pointer : LfsPointer) (t : FileState) :
    Prop :=
  ∃ file', t.fileAt path = some file' ∧ pointerOf file'.bytes = some pointer ∧
    file'.mode = file.mode

/-- Neither the file in the cache nor the pointer of the object has the identity of the file
without being the same bytes. -/
def NoCollision (digest : List UInt8 → LfsOid) (s : FileState) (object : LfsObject)
    (bytes : List UInt8) : Prop :=
  ∀ other, other = pointerBytes object ∨ CopyOf s object other →
    IsObject digest object other → other = bytes

/-- The bytes of an empty object are a pointer for it. -/
theorem pointsTo_of_size_zero {bytes : List UInt8} (hdigest : digest [] = .ofEmpty)
    (hobject : IsObject digest object bytes) (hsize : object.size = 0) : PointsTo object bytes := by
  by_contra hnot
  have hnil : bytes = [] := by
    apply List.eq_nil_of_length_eq_zero
    rw [hobject.2, hsize]
    rfl
  apply hnot
  rw [hnil]
  refine ⟨_, pointerOf_nil, ?_⟩
  have hoid : object.oid = .ofEmpty := by rw [← hobject.1, hnil, hdigest]
  obtain ⟨oid, size⟩ := object
  obtain rfl : oid = .ofEmpty := hoid
  obtain rfl : size = 0 := hsize
  rfl

/-- What is there after a dehydration and a hydration. -/
theorem restores_of_hydrated {file : DiskFile} {hydrated : LfsObject}
    (hdigest : digest [] = .ofEmpty) (hpath : path.isTemp = false)
    (hfile : s.fileAt path = some file) (hobject : IsObject digest object file.bytes)
    (hcollision : NoCollision digest s object file.bytes)
    (hdehydrated : Dehydrated digest object path s t)
    (hhydrated : Hydrated digest path t u hydrated) : Restores path file u := by
  obtain ⟨file', hfile', hdone⟩ := hdehydrated
  rw [hfile] at hfile'
  obtain rfl := Option.some.inj hfile'
  obtain ⟨there, pointer, hthere, hpointer, rfl, hafter⟩ := hhydrated
  rcases hdone with ⟨⟨pointer', hpointer', rfl⟩, hkeeps⟩ | ⟨hpoints, _, _, hcopied, new, hnew,
    hbytes, hmode⟩
  · -- The file is a pointer for itself, or the empty file.
    rw [hkeeps.fileAt hpath, hfile] at hthere
    obtain rfl := Option.some.inj hthere
    rw [hpointer] at hpointer'
    obtain rfl := Option.some.inj hpointer'
    rcases hafter with ⟨_, hkeeps'⟩ | ⟨_, taken, hreplaced, _, _, htaken | ⟨_, hother⟩⟩
    · exact ⟨file, ((hkeeps'.fileAt hpath).trans (hkeeps.fileAt hpath)).trans hfile, rfl, rfl⟩
    · rw [hkeeps.fileAt hpath, hfile] at htaken
      obtain rfl := Option.some.inj htaken
      exact ⟨file, hreplaced.fileAt, rfl, rfl⟩
    · exact absurd hobject (hother file ((hkeeps.fileAt hpath).trans hfile))
  · rw [hnew] at hthere
    obtain rfl := Option.some.inj hthere
    rw [hbytes, renders_of_isObject hdigest hpoints hobject] at hpointer
    obtain rfl := Option.some.inj hpointer
    rcases hafter with ⟨hempty, _⟩ | ⟨_, taken, hreplaced, htakenObject, htakenMode, htaken⟩
    · exact absurd (pointsTo_of_size_zero hdigest hobject (of_decide_eq_true hempty)) hpoints
    · have hmode' : taken.mode = file.mode := by
        rw [htakenMode, hnew]
        exact hmode
      refine ⟨taken, hreplaced.fileAt, ?_, hmode'⟩
      rcases htaken with htaken | ⟨⟨cached, hcached, htakenBytes⟩, _⟩
      · rw [hnew] at htaken
        obtain rfl := Option.some.inj htaken
        exact hcollision _ (.inl hbytes) htakenObject
      · rcases hcopied with hsame | ⟨copied, hthere, hcopiedBytes⟩
        · change t.followed (objectPath object) = some cached at hcached
          rw [hsame] at hcached
          exact hcollision _ (.inr ⟨cached, hcached, htakenBytes⟩) htakenObject
        · change t.followed (objectPath object) = some cached at hcached
          rw [hcached] at hthere
          rw [htakenBytes, Option.some.inj hthere, hcopiedBytes]

/-- The condition for a pointer to come back: it is of size zero, its text is its own object, or
what is in the cache is a file whose dehydration gives the pointer. -/
def Restorable (digest : List UInt8 → LfsOid) (s : FileState) (file : DiskFile)
    (pointer : LfsPointer) : Prop :=
  pointer.isEmpty = true ∨ IsObject digest pointer.object file.bytes ∨
    ∃ cached, s.followed (objectPath pointer.object) = some cached ∧
      ((PointsTo pointer.object cached.bytes ∧ pointerOf cached.bytes = some pointer) ∨
        (¬PointsTo pointer.object cached.bytes ∧ pointer = .new pointer.object))

/-- What is there after a hydration and a dehydration of the pointer's object. -/
theorem restoresPointer_iff {file : DiskFile} {pointer : LfsPointer} {hydrated : LfsObject}
    (hdigest : digest [] = .ofEmpty) (hpath : path.isTemp = false)
    (hfile : s.fileAt path = some file) (hpointer : pointerOf file.bytes = some pointer)
    (hhydrated : Hydrated digest path s t hydrated)
    (hdehydrated : Dehydrated digest pointer.object path t u) :
    RestoresPointer path file pointer u ↔ Restorable digest s file pointer := by
  obtain ⟨file', pointer', hfile', hpointer', rfl, hafter⟩ := hhydrated
  rw [hfile] at hfile'
  obtain rfl := Option.some.inj hfile'
  rw [hpointer] at hpointer'
  obtain rfl := Option.some.inj hpointer'
  obtain ⟨there, hthere, hdone⟩ := hdehydrated
  have hself : PointsTo pointer.object file.bytes := ⟨pointer, hpointer, rfl⟩
  -- A file that the hydration left is left by the dehydration, too.
  have hleft : t.fileAt path = some file → RestoresPointer path file pointer u := by
    intro hsame
    rw [hsame] at hthere
    obtain rfl := Option.some.inj hthere
    rcases hdone with ⟨_, hkeeps⟩ | ⟨hnot, _⟩
    · exact ⟨file, (hkeeps.fileAt hpath).trans hsame, hpointer, rfl⟩
    · exact absurd hself hnot
  rcases hafter with ⟨hempty, hkeeps⟩ | ⟨hne, taken, hreplaced, htakenObject, htakenMode, htaken⟩
  · exact ⟨fun _ => .inl hempty, fun _ => hleft ((hkeeps.fileAt hpath).trans hfile)⟩
  rw [hreplaced.fileAt] at hthere
  obtain rfl := Option.some.inj hthere
  have hmode : taken.mode = file.mode := by rw [htakenMode, hfile]; rfl
  rcases htaken with htaken | ⟨⟨cached, hcached, hcopy⟩, hother⟩
  · rw [hfile] at htaken
    obtain rfl := Option.some.inj htaken
    exact ⟨fun _ => .inr (.inl htakenObject), fun _ => hleft hreplaced.fileAt⟩
  have hrestorable : Restorable digest s file pointer ↔
      (PointsTo pointer.object taken.bytes ∧ pointerOf taken.bytes = some pointer) ∨
        (¬PointsTo pointer.object taken.bytes ∧ pointer = .new pointer.object) := by
    unfold Restorable
    rw [hcopy]
    constructor
    · rintro (hempty | hobject | ⟨cached', hcached', hcase⟩)
      · rw [hempty] at hne
        cases hne
      · exact absurd hobject (hother file hfile)
      · rw [hcached] at hcached'
        rwa [Option.some.inj hcached']
    · exact fun hcase => .inr (.inr ⟨cached, hcached, hcase⟩)
  rw [hrestorable]
  rcases hdone with ⟨hpoints, hkeeps⟩ | ⟨hnot, _, _, _, new, hnew, hbytes, hnewMode⟩
  · have hafter : u.fileAt path = some taken := (hkeeps.fileAt hpath).trans hreplaced.fileAt
    constructor
    · rintro ⟨file', hfile', hpointer', _⟩
      rw [hafter] at hfile'
      obtain rfl := Option.some.inj hfile'
      exact .inl ⟨hpoints, hpointer'⟩
    · rintro (⟨_, hsame⟩ | ⟨hnot, _⟩)
      · exact ⟨taken, hafter, hsame, hmode⟩
      · exact absurd hpoints hnot
  · have hrendered : pointerOf new.bytes = some (.new pointer.object) := by
      rw [hbytes]
      exact renders_of_isObject hdigest hnot htakenObject
    constructor
    · rintro ⟨file', hfile', hpointer', _⟩
      rw [hnew] at hfile'
      rw [← Option.some.inj hfile', hrendered] at hpointer'
      exact .inr ⟨hnot, (Option.some.inj hpointer').symm⟩
    · rintro (⟨hpoints, _⟩ | ⟨_, hsame⟩)
      · exact absurd hpoints hnot
      · exact ⟨new, hnew, hrendered.trans (congrArg some hsame.symm), hnewMode.trans hmode⟩

/-- Where no call fails, a file that is the object is dehydrated, if nothing else is in its place in
the cache. -/
theorem exists_dehydrate {file : DiskFile} (hdigest : digest [] = .ofEmpty)
    (hpath : path.isTemp = false) (hne : path ≠ objectPath object) (hparent : path.parent ≠ none)
    (hfile : s.fileAt path = some file) (hobject : IsObject digest object file.bytes)
    (hfree : ¬Occupied digest s object) :
    ∃ status t, ((dehydrateFile digest stripe object path).from ()).Returns (fileOp NoFailures) s
      (.ok status, ()) t ∧ Dehydrated digest object path s t := by
  have hspec : FileSpec NoFailures s (dehydrateFile digest stripe object path) _ _ :=
    dehydrateFile_spec hdigest hpath hne
  apply hspec.exists_ok
  rintro e t (hcan | hnone | hparent' | hoccupied | hnot)
  · exact not_canFail hcan
  · rw [hfile] at hnone
    cases hnone
  · exact hparent hparent'
  · exact hfree hoccupied
  · exact (hnot file hfile).2 hobject

/-- Where no call fails, the pointer of a cached object is hydrated. -/
theorem exists_hydrate {file : DiskFile} {pointer : LfsPointer} (hpath : path.isTemp = false)
    (hparent : path.parent ≠ none) (hfile : s.fileAt path = some file)
    (hpointer : pointerOf file.bytes = some pointer)
    (hcached : pointer.isEmpty = true ∨ Cached digest s pointer.object) :
    ∃ result t, ((hydratePointerFile digest stripe path).from ()).Returns (fileOp NoFailures) s
      (.ok result, ()) t ∧ Hydrated digest path s t result.1 := by
  have hspec : FileSpec NoFailures s (hydratePointerFile digest stripe path) _ _ :=
    hydratePointerFile_spec hpath
  apply hspec.exists_ok
  rintro e t ⟨_, hcan | hrefused⟩
  · exact not_canFail hcan
  · obtain ⟨hne, hbad⟩ := hrefused file pointer hfile hpointer
    rcases hcached with hempty | hcached
    · rw [hempty] at hne
      cases hne
    · rcases hbad with hnone | hnot
      · exact hparent hnone
      · exact hnot hcached

/-- The object is in the cache, or can get there and then be hydrated. -/
def Dehydratable (digest : List UInt8 → LfsOid) (s : FileState) (object : LfsObject)
    (bytes : List UInt8) : Prop :=
  Cached digest s object ∨ (s.nodes.lookup (objectPath object) = none ∧
    (object.size = 0 ∨ ¬PointsTo object bytes))

end

/-- An object of one byte. -/
def sampleByteObject : LfsObject := ⟨.ofEmpty, 1⟩

/-- A repository with a file, and the object of one byte in the cache. -/
def sampleRepository (bytes : List UInt8) : FileState :=
  ⟨(AList.singleton (.worktree [.text "a"]) (.file ⟨bytes, 0o755, 0⟩)).insert
    (objectPath sampleByteObject) (.file ⟨[0], 0o644, 1⟩), 2, []⟩

/-- The text of a pointer with an extension. -/
def extensionText : String :=
  "version https://git-lfs.github.com/spec/v1\next-0-a sha256:e3b0c44298fc1c149afbf4c8996fb92427ae41e4649b934ca495991b7852b855\noid sha256:e3b0c44298fc1c149afbf4c8996fb92427ae41e4649b934ca495991b7852b855\nsize 1\n"

/-- The pointer with an extension. -/
def extensionPointer : LfsPointer :=
  { LfsPointer.new sampleByteObject with
    extensions := SortedMap.empty.insert "ext-0-a" LfsOid.ofEmpty.asPointerOid }

set_option maxRecDepth 20000 in
theorem parse_extensionText : LfsPointer.parse extensionText = .ok extensionPointer := by rfl

set_option maxRecDepth 20000 in
theorem length_extensionText : (textBytes extensionText).length = 206 := by rfl

theorem pointerOf_extensionText : pointerOf (textBytes extensionText) = some extensionPointer := by
  have hsmall : ¬lfsPointerSizeCutoff ≤ (textBytes extensionText).length := by
    rw [length_extensionText]
    decide
  rw [pointerOf, if_neg hsmall, pointerText_textBytes]
  dsimp only
  rw [parse_extensionText]

/-- A pointer for the object of one byte is hydrated, and its object dehydrated. Any other pointer
than the new one is lost. -/
theorem exists_not_restoresPointer {bytes : List UInt8} {pointer : LfsPointer}
    (hpointer : pointerOf bytes = some pointer) (hobject : pointer.object = sampleByteObject)
    (hother : pointer ≠ .new sampleByteObject) (hlength : bytes.length ≠ 1) :
    ∃ result status t u,
      ((hydratePointerFile sampleCacheDigest sampleStripe (.worktree [.text "a"])).from ()).Returns
        (fileOp NoFailures) (sampleRepository bytes) (.ok result, ()) t ∧
      ((dehydrateFile sampleCacheDigest sampleStripe pointer.object (.worktree [.text "a"])).from
        ()).Returns (fileOp NoFailures) t (.ok status, ()) u ∧
      ¬RestoresPointer (.worktree [.text "a"]) ⟨bytes, 0o755, 0⟩ pointer u := by
  have hpath : (DiskPath.worktree [.text "a"]).isTemp = false := rfl
  have hparent : (DiskPath.worktree [.text "a"]).parent ≠ none := Option.some_ne_none _
  have hne : DiskPath.worktree [.text "a"] ≠ objectPath sampleByteObject := fun h => by cases h
  have hfollowed : (sampleRepository bytes).followed (objectPath sampleByteObject) =
      some ⟨[0], 0o644, 1⟩ := by
    unfold FileState.followed sampleRepository
    rw [AList.lookup_insert]
  have hfile : (sampleRepository bytes).fileAt (.worktree [.text "a"]) =
      some ⟨bytes, 0o755, 0⟩ := by
    rw [fileAt_eq_some]
    unfold sampleRepository
    rw [AList.lookup_insert_ne hne]
    rfl
  have hcached : Cached sampleCacheDigest (sampleRepository bytes) sampleByteObject :=
    ⟨_, hfollowed, rfl, rfl⟩
  have hempty : pointer.isEmpty = false := by
    unfold LfsPointer.isEmpty
    rw [hobject]
    rfl
  have hexists : ∃ result t,
      ((hydratePointerFile sampleCacheDigest sampleStripe (.worktree [.text "a"])).from ()).Returns
        (fileOp NoFailures) (sampleRepository bytes) (.ok result, ()) t ∧
          Hydrated sampleCacheDigest (.worktree [.text "a"]) (sampleRepository bytes) t result.1 :=
    exists_hydrate hpath hparent hfile hpointer (.inr (hobject ▸ hcached))
  obtain ⟨result, t, hhydrate, hhydrated⟩ := hexists
  have hready : ∃ file, t.fileAt (.worktree [.text "a"]) = some file ∧
      IsObject sampleCacheDigest sampleByteObject file.bytes ∧
        Cached sampleCacheDigest t sampleByteObject := by
    obtain ⟨old, pointer', hold, hpointer', hresult, hdone⟩ := id hhydrated
    rw [hfile] at hold
    obtain rfl := Option.some.inj hold
    rw [hpointer] at hpointer'
    obtain rfl := Option.some.inj hpointer'
    rcases hdone with ⟨hyes, _⟩ | ⟨_, file, hreplaced, hgood, _⟩
    · rw [hempty] at hyes
      cases hyes
    · rw [hresult, hobject] at hgood
      have hkept : t.followed (objectPath sampleByteObject) =
          (sampleRepository bytes).followed (objectPath sampleByteObject) := by
        unfold FileState.followed
        rw [hreplaced.2 (objectPath sampleByteObject) hne.symm rfl]
      exact ⟨file, hreplaced.fileAt, hgood, _, hkept.trans hfollowed, rfl, rfl⟩
  obtain ⟨file, hthere, hgood, hcached'⟩ := hready
  have hexists : ∃ status u,
      ((dehydrateFile sampleCacheDigest sampleStripe pointer.object (.worktree [.text "a"])).from
        ()).Returns (fileOp NoFailures) t (.ok status, ()) u ∧
          Dehydrated sampleCacheDigest pointer.object (.worktree [.text "a"]) t u := by
    rw [hobject]
    exact exists_dehydrate rfl hpath hne hparent hthere hgood fun h => h.2 hcached'
  obtain ⟨status, u, hdehydrate, hdehydrated⟩ := hexists
  refine ⟨result, status, t, u, hhydrate, hdehydrate, ?_⟩
  rw [restoresPointer_iff rfl hpath hfile hpointer hhydrated hdehydrated]
  rintro (hyes | hself | ⟨cached, hthere', hcase⟩)
  · rw [hempty] at hyes
    cases hyes
  · rw [hobject] at hself
    exact hlength hself.2
  · rw [hobject, hfollowed] at hthere'
    obtain rfl := Option.some.inj hthere'
    have hnone : pointerOf [0] = none := by rfl
    rcases hcase with ⟨⟨pointer', hpointer', _⟩, _⟩ | ⟨_, hnew⟩
    · rw [hnone] at hpointer'
      cases hpointer'
    · rw [hobject] at hnew
      exact hother hnew

end LfsCloud
