import LfsCloud.LocalCache.Materialization

/-!
# Rules for the operations on files

What the operations read, what they leave as it is, and what an exchange that is rolled back
restores, where nobody else writes the files.
-/

namespace LfsCloud

open Interaction

section

variable {fails : FileState → FileCall → Prop} {α β : Type}

/-- What holds of a result: one thing of a value, another one of an error. -/
def ResultSpec (Q : α → Prop) (E : LocalCacheFileError → Prop) :
    Except LocalCacheFileError α → Prop
  | .ok a => Q a
  | .error e => E e

/-- A program from one state: it ends with a result and `Q`, or with an error and `E`. -/
def FileSpec (fails : FileState → FileCall → Prop) (s : FileState) (p : FileProg α)
    (Q : α → FileState → Prop) (E : LocalCacheFileError → FileState → Prop) : Prop :=
  Triple (fileOp fails) (fun _ => True) (fun _ t => t = s) p (fun a _ t => Q a t) fun e _ t => E e t

namespace FileSpec

variable {s : FileState} {Q Q' : α → FileState → Prop} {R : β → FileState → Prop}
  {E E' : LocalCacheFileError → FileState → Prop}

theorem pure {a : α} (h : Q a s) : FileSpec fails s (pure a) Q E :=
  Triple.pure fun _ _ hs => hs ▸ h

theorem throw {e : LocalCacheFileError} (h : E e s) :
    FileSpec fails s (throw e : FileProg α) Q E :=
  Triple.throw fun _ _ hs => hs ▸ h

theorem bind {p : FileProg α} {f : α → FileProg β} (h : FileSpec fails s p Q E)
    (hf : ∀ a t, Q a t → FileSpec fails t (f a) R E) : FileSpec fails s (p >>= f) R E := by
  apply Triple.bind h
  intro a m t ht
  exact hf a t ht m t rfl

theorem conseq {p : FileProg α} (h : FileSpec fails s p Q E) (hQ : ∀ a t, Q a t → Q' a t)
    (hE : ∀ e t, E e t → E' e t) : FileSpec fails s p Q' E' :=
  Triple.conseq h (fun _ _ h => h) (fun a _ t => hQ a t) fun e _ t => hE e t

/-- A call, by its answers. -/
theorem ask {c : FileCall} {Q : FileAnswer c → FileState → Prop}
    (h : ∀ answer t, fileOp fails s c answer t → Q answer t) :
    FileSpec fails s (ask (F := fileInterface) c) Q E := by
  apply Triple.ask
  rintro m _ answer t rfl hop
  exact ⟨trivial, h answer t hop⟩

theorem tryFile {c : FileCall} {hc : FileAnswer c = Except FileErrorKind α}
    {Q : Except FileErrorKind α → FileState → Prop}
    (h : ∀ answer t, fileOp fails s c answer t → Q (cast hc answer) t) :
    FileSpec fails s (tryFile c hc) Q E :=
  bind (ask h) fun _ _ ht => pure ht

theorem askFile {c : FileCall} {hc : FileAnswer c = Except FileErrorKind α} {context : String}
    {path : DiskPath}
    (h : ∀ answer t, fileOp fails s c answer t →
      (∀ a, cast hc answer = .ok a → Q a t) ∧
        ∀ source, cast hc answer = .error source → E (.io context path source) t) :
    FileSpec fails s (askFile c hc context path) Q E := by
  apply bind (ask h)
  intro answer t ht
  split
  next a ha => exact pure (ht.1 a ha)
  next source hsource => exact throw (ht.2 source hsource)

/-- The result of a program is a value. -/
theorem attempt {p : FileProg α} (h : FileSpec fails s p Q E)
    {R : Except LocalCacheFileError α → FileState → Prop} (hok : ∀ a t, Q a t → R (.ok a) t)
    (herror : ∀ e t, E e t → R (.error e) t) : FileSpec fails s (attempt p) R E' := by
  intro m _ hs
  obtain ⟨hp, he, _⟩ := h m _ hs
  have hfrom : (LfsCloud.attempt p).from m =
      (p.from m).bind fun r => .done (.ok r.1, r.2) := rfl
  rw [hfrom]
  refine ⟨?_, ?_, fun _ _ => trivial⟩
  · intro r m' t hret
    obtain ⟨⟨result, m''⟩, u, hret, hrest⟩ := hret.of_bind
    cases hrest
    cases result with
    | ok a => exact hok a t (hp a m'' t hret)
    | error e => exact herror e t (he e m'' t hret)
  · intro e m' t hret
    obtain ⟨⟨result, m''⟩, u, hret, hrest⟩ := hret.of_bind
    cases hrest

/-- A computed result. -/
theorem liftResult {result : Except LocalCacheFileError α} (hok : ∀ a, result = .ok a → Q a s)
    (herror : ∀ e, result = .error e → E e s) : FileSpec fails s (liftResult result) Q E :=
  Triple.liftResult (fun a ha _ _ hs => hs ▸ hok a ha) fun e he _ _ hs => hs ▸ herror e he

/-- The drop of a temporary file. -/
theorem dropTemp {temp : DiskPath} {Q : FileState → Prop}
    (h : ∀ t, t = s ∨ t = s.unlink temp → Q t) :
    FileSpec fails s (dropTemp temp) (fun _ t => Q t) E := by
  apply bind (Q := fun _ t => Q t)
  · apply ask
    rintro answer t (ht | ⟨_, ht⟩)
    · exact h t (.inr ht)
    · exact h t (.inl ht)
  · exact fun _ _ h => pure h

/-- A program with a temporary file, which is dropped where it fails. -/
theorem withTemp {temp : DiskPath} {p : FileProg α} (h : FileSpec fails s p Q E)
    (hE : ∀ e t u, E e t → u = t ∨ u = t.unlink temp → E' e u) :
    FileSpec fails s (withTemp temp p) Q E' := by
  apply bind (attempt h (R := fun r t => ResultSpec (Q · t) (E · t) r) (fun _ _ h => h)
    fun _ _ h => h)
  intro r t ht
  cases r with
  | ok a => exact pure ht
  | error e =>
    apply bind (dropTemp (Q := fun u => E' e u) fun u hu => hE e t u ht hu)
    exact fun _ _ h => throw h

/-- The result of a complete run. -/
theorem returns {p : FileProg α} (h : FileSpec fails s p Q E) {result : Except LocalCacheFileError α}
    {t : FileState} (hret : (p.from ()).Returns (fileOp fails) s (result, ()) t) :
    (∀ a, result = .ok a → Q a t) ∧ ∀ e, result = .error e → E e t := by
  obtain ⟨hok, herror, _⟩ := h () s rfl
  constructor
  · rintro a rfl
    exact hok a () t hret
  · rintro e rfl
    exact herror e () t hret

end FileSpec

end

section Reads

variable {fails : FileState → FileCall → Prop} {digest : List UInt8 → LfsOid} {s : FileState}
  {path : DiskPath} {object : LfsObject}

/-- The bytes are those of the object. -/
def IsObject (digest : List UInt8 → LfsOid) (object : LfsObject) (bytes : List UInt8) : Prop :=
  digest bytes = object.oid ∧ bytes.length = object.size.toNat

/-- The pointer in a file. -/
def pointerOf (bytes : List UInt8) : Option LfsPointer :=
  if lfsPointerSizeCutoff ≤ bytes.length then none
  else match pointerText bytes with
    | none => none
    | some text => match LfsPointer.parse text with
      | .ok pointer => some pointer
      | .error _ => none

/-- The metadata or the bytes of a path may fail to be read. -/
def MayFail (fails : FileState → FileCall → Prop) (s : FileState) (path : DiskPath) : Prop :=
  fails s (.symlinkMetadata path) ∨ fails s (.readNoFollow path)

variable (digest) in
/-- The loop hashes and counts all bytes, unless these are too many to count. -/
theorem hashChunks_eq (chunks : List (List UInt8)) (hasher : List UInt8) (totalSize : ℕ)
    (hsize : totalSize < 2 ^ 64) :
    hashChunks digest chunks hasher totalSize =
      if totalSize + chunks.flatten.length < 2 ^ 64 then
        some (digest (hasher ++ chunks.flatten),
          UInt64.ofNat (totalSize + chunks.flatten.length))
      else none := by
  induction chunks generalizing hasher totalSize with
  | nil =>
    rw [hashChunks, List.flatten_nil, List.length_nil, Nat.add_zero, if_pos hsize, List.append_nil]
  | cons chunk chunks ih =>
    rw [hashChunks]
    split
    next hlt =>
      rw [ih _ _ hlt]
      simp only [List.flatten_cons, List.length_append, List.append_assoc, Nat.add_assoc]
    next hge =>
      rw [if_neg]
      simp only [List.flatten_cons, List.length_append]
      omega

/-- The error says that the bytes are not those of the object. -/
def LocalCacheFileError.isMismatch : LocalCacheFileError → Bool
  | .integrityMismatch _ _ _ _ _ => true
  | _ => false

/-- The bytes that were hashed are those of the object, or the identity is another one. -/
theorem hashed_ensure_spec {chunks : List (List UInt8)} {reported : DiskPath} :
    FileSpec fails s
      (hashed digest reported chunks >>= ensureObjectIdentity reported object)
      (fun _ t => t = s ∧ IsObject digest object chunks.flatten)
      fun e t => t = s ∧ ¬IsObject digest object chunks.flatten ∧
        (e.isMismatch = true ∨ 2 ^ 64 ≤ chunks.flatten.length) := by
  have hhash := hashChunks_eq digest chunks [] 0 (by decide)
  simp only [List.nil_append, Nat.zero_add] at hhash
  have hsize := object.size.toNat_lt
  unfold hashed
  rw [hhash]
  split_ifs with hlt
  · apply FileSpec.bind (Q := fun actual t => t = s ∧ actual =
      (digest chunks.flatten, UInt64.ofNat chunks.flatten.length)) (.pure ⟨rfl, rfl⟩)
    rintro actual t ⟨rfl, rfl⟩
    unfold ensureObjectIdentity
    split_ifs with hne
    · refine .throw ⟨rfl, ?_, .inl rfl⟩
      rintro ⟨hoid, hlength⟩
      rcases hne with hne | hne
      · exact hne hoid
      · apply hne
        dsimp only
        rw [hlength, UInt64.ofNat_toNat]
    · push Not at hne
      refine .pure ⟨rfl, hne.1, ?_⟩
      rw [← hne.2]
      exact (UInt64.toNat_ofNat_of_lt' hlt).symm
  · apply FileSpec.bind (Q := fun _ _ => False)
    · refine .throw ⟨rfl, ?_, .inr (by omega)⟩
      rintro ⟨_, hlength⟩
      omega
    · exact fun _ _ h => h.elim

/-- The metadata of a file of a worktree. -/
theorem worktreeFileMetadata_spec :
    FileSpec fails s (worktreeFileMetadata path)
      (fun metadata t => t = s ∧ ∃ file, s.fileAt path = some file ∧
        metadata = (file.bytes.length, file.mode))
      fun e t => t = s ∧ e.isMismatch = false ∧ (MayFail fails s path ∨ s.fileAt path = none) := by
  unfold worktreeFileMetadata
  apply FileSpec.bind (Q := fun answer t => t = s ∧ (answer = metadataOf (s.nodes.lookup path) ∨
    (fails s (.symlinkMetadata path) ∧ answer = .error .other)))
  · apply FileSpec.tryFile
    rintro answer t (⟨rfl, rfl⟩ | ⟨hfails, rfl, rfl⟩)
    · exact ⟨rfl, .inl rfl⟩
    · exact ⟨rfl, .inr ⟨hfails, rfl⟩⟩
  rintro answer t ⟨rfl, hanswer | ⟨hfails, hanswer⟩⟩
  · cases hnode : t.nodes.lookup path with
    | none =>
      rw [hanswer, hnode]
      exact .throw ⟨rfl, rfl, .inr (by rw [FileState.fileAt, hnode])⟩
    | some node =>
      cases node with
      | file file =>
        rw [hanswer, hnode]
        exact .pure ⟨rfl, file, by rw [FileState.fileAt, hnode], rfl⟩
      | symlink target =>
        rw [hanswer, hnode]
        exact .throw ⟨rfl, rfl, .inr (by rw [FileState.fileAt, hnode])⟩
      | other =>
        rw [hanswer, hnode]
        exact .throw ⟨rfl, rfl, .inr (by rw [FileState.fileAt, hnode])⟩
  · rw [hanswer]
    exact .throw ⟨rfl, rfl, .inl (.inl hfails)⟩

/-- The chunks of a file of a worktree. -/
theorem readWorktreeFile_spec {context : String} :
    FileSpec fails s (readWorktreeFile path context)
      (fun chunks t => t = s ∧ ∃ file, s.fileAt path = some file ∧ chunks.flatten = file.bytes)
      fun e t => t = s ∧ e.isMismatch = false ∧ (MayFail fails s path ∨ s.fileAt path = none) := by
  unfold readWorktreeFile
  apply FileSpec.bind worktreeFileMetadata_spec
  rintro metadata t ⟨rfl, file, hfile, _⟩
  apply FileSpec.bind (Q := fun answer u => u = t ∧ ((∃ chunks : List (List UInt8),
    answer = .ok chunks ∧ chunks.flatten = file.bytes) ∨
      (fails t (.readNoFollow path) ∧ answer = .error .other)))
  · apply FileSpec.tryFile
    rintro answer u (⟨rfl, hread⟩ | ⟨hfails, rfl, rfl⟩)
    · rw [hfile] at hread
      exact ⟨rfl, .inl hread⟩
    · exact ⟨rfl, .inr ⟨hfails, rfl⟩⟩
  rintro answer u ⟨rfl, ⟨chunks, rfl, hchunks⟩ | ⟨hfails, rfl⟩⟩
  · exact .pure ⟨rfl, file, hfile, hchunks⟩
  · apply FileSpec.bind (Q := fun _ v => v = u)
    · apply FileSpec.tryFile
      rintro answer v (⟨rfl, _⟩ | ⟨_, rfl, _⟩) <;> rfl
    · rintro answer v rfl
      split <;> exact .throw ⟨rfl, rfl, .inl (.inr hfails)⟩

/-- A file of a worktree is the object, or the error says why not. -/
theorem verifyWorktreeFileObject_spec :
    FileSpec fails s (verifyWorktreeFileObject digest path object)
      (fun _ t => t = s ∧ ∃ file, s.fileAt path = some file ∧ IsObject digest object file.bytes)
      fun e t => t = s ∧
        (e.isMismatch = true → ∃ file, s.fileAt path = some file ∧
          ¬IsObject digest object file.bytes) ∧
        (e.isMismatch = false → MayFail fails s path ∨ s.fileAt path = none ∨
          ∃ file, s.fileAt path = some file ∧ 2 ^ 64 ≤ file.bytes.length) := by
  unfold verifyWorktreeFileObject
  apply FileSpec.bind (readWorktreeFile_spec.conseq (fun _ _ h => h) ?_)
  · rintro chunks t ⟨rfl, file, hfile, hchunks⟩
    apply hashed_ensure_spec.conseq
    · rintro _ u ⟨rfl, hobject⟩
      exact ⟨rfl, file, hfile, hchunks ▸ hobject⟩
    · rintro e u ⟨rfl, hobject, he⟩
      rw [hchunks] at hobject he
      refine ⟨rfl, fun _ => ⟨file, hfile, hobject⟩, fun hnot => ?_⟩
      rcases he with hmismatch | hlarge
      · rw [hnot] at hmismatch
        cases hmismatch
      · exact .inr (.inr ⟨file, hfile, hlarge⟩)
  · rintro e t ⟨rfl, hnot, hcause⟩
    refine ⟨rfl, fun hmismatch => ?_, fun _ => hcause.imp_right .inl⟩
    rw [hnot] at hmismatch
    cases hmismatch

/-- The pointer of a file of a worktree. -/
theorem readLfsPointerFile_spec :
    FileSpec fails s (readLfsPointerFile path)
      (fun pointer t => t = s ∧ ∃ file, s.fileAt path = some file ∧
        pointerOf file.bytes = some pointer)
      fun _ t => t = s ∧ (MayFail fails s path ∨
        ∀ file, s.fileAt path = some file → pointerOf file.bytes = none) := by
  unfold readLfsPointerFile
  have hread : FileSpec fails s
      (readWorktreeFile path "failed to open Git LFS pointer file") _ _ := readWorktreeFile_spec
  apply FileSpec.bind (hread.conseq (fun _ _ h => h) ?_)
  · rintro chunks t ⟨rfl, file, hfile, hchunks⟩
    have hnone : pointerOf file.bytes = none →
        ∀ file, t.fileAt path = some file → pointerOf file.bytes = none := by
      intro h file' hfile'
      rw [hfile] at hfile'
      rwa [← Option.some.inj hfile']
    dsimp only
    rw [hchunks]
    split
    next hlarge => exact .throw ⟨rfl, .inr (hnone (by rw [pointerOf, if_pos hlarge]))⟩
    next hsmall =>
      cases htext : pointerText file.bytes with
      | none =>
        exact .throw ⟨rfl, .inr (hnone (by rw [pointerOf, if_neg hsmall, htext]))⟩
      | some text =>
        dsimp only
        cases hparse : LfsPointer.parse text with
        | error e =>
          refine .throw ⟨rfl, .inr (hnone ?_)⟩
          rw [pointerOf, if_neg hsmall, htext]
          dsimp only
          rw [hparse]
        | ok pointer =>
          refine .pure ⟨rfl, file, hfile, ?_⟩
          rw [pointerOf, if_neg hsmall, htext]
          dsimp only
          rw [hparse]
  · rintro e t ⟨rfl, _, hfails | hnone⟩
    · exact ⟨rfl, .inl hfails⟩
    · refine ⟨rfl, .inr fun file hfile => ?_⟩
      rw [hnone] at hfile
      cases hfile

/-- The pointer of a file that may have none. -/
theorem readExistingLfsPointerFile_spec :
    FileSpec fails s (readExistingLfsPointerFile path)
      (fun pointer t => t = s ∧ ∃ file, s.fileAt path = some file ∧
        pointer = pointerOf file.bytes)
      fun _ t => t = s ∧ (MayFail fails s path ∨ s.fileAt path = none) := by
  unfold readExistingLfsPointerFile
  apply FileSpec.bind (readWorktreeFile_spec.conseq (fun _ _ h => h) fun e t h => ⟨h.1, h.2.2⟩)
  rintro chunks t ⟨rfl, file, hfile, hchunks⟩
  dsimp only
  rw [hchunks]
  split
  next hlarge => exact .pure ⟨rfl, file, hfile, by rw [pointerOf, if_pos hlarge]⟩
  next hsmall =>
    cases htext : pointerText file.bytes with
    | none => exact .pure ⟨rfl, file, hfile, by rw [pointerOf, if_neg hsmall, htext]⟩
    | some text =>
      dsimp only
      cases hparse : LfsPointer.parse text with
      | error e =>
        refine .pure ⟨rfl, file, hfile, ?_⟩
        rw [pointerOf, if_neg hsmall, htext]
        dsimp only
        rw [hparse]
      | ok pointer =>
        refine .pure ⟨rfl, file, hfile, ?_⟩
        rw [pointerOf, if_neg hsmall, htext]
        dsimp only
        rw [hparse]

end Reads

section Frames

variable {fails : FileState → FileCall → Prop} {digest : List UInt8 → LfsOid} {s t u : FileState}
  {temp path : DiskPath} {object : LfsObject}

/-- Some call may fail. -/
def CanFail (fails : FileState → FileCall → Prop) : Prop := ∃ s c, fails s c

theorem MayFail.canFail (h : MayFail fails s path) : CanFail fails := by
  rcases h with hfails | hfails
  · exact ⟨_, _, hfails⟩
  · exact ⟨_, _, hfails⟩

/-- Only temporary files changed. -/
def Keeps (s t : FileState) : Prop :=
  ∀ path, path.isTemp = false → t.nodes.lookup path = s.nodes.lookup path

/-- Only temporary files and one file changed, which is another one now. -/
def Replaced (s t : FileState) (path : DiskPath) (file : DiskFile) : Prop :=
  t.nodes.lookup path = some (.file file) ∧
    ∀ other, other ≠ path → other.isTemp = false → t.nodes.lookup other = s.nodes.lookup other

theorem Keeps.refl (s : FileState) : Keeps s s := fun _ _ => rfl

theorem Keeps.trans (h : Keeps s t) (h' : Keeps t u) : Keeps s u :=
  fun path hpath => (h' path hpath).trans (h path hpath)

/-- A path that is not one of a temporary file is another path. -/
theorem ne_of_isTemp {path temp : DiskPath} (hpath : path.isTemp = false)
    (htemp : temp.isTemp = true) : path ≠ temp := by
  rintro rfl
  rw [htemp] at hpath
  cases hpath

theorem keeps_put {file : DiskFile} (htemp : temp.isTemp = true) : Keeps s (s.put temp file) :=
  fun _ hpath => AList.lookup_insert_ne (ne_of_isTemp hpath htemp)

theorem keeps_create (htemp : temp.isTemp = true) : Keeps s (s.create temp) :=
  fun _ hpath => AList.lookup_insert_ne (ne_of_isTemp hpath htemp)

theorem keeps_unlink (htemp : temp.isTemp = true) : Keeps s (s.unlink temp) :=
  fun _ hpath => AList.lookup_erase_ne (ne_of_isTemp hpath htemp)

/-- Dropping a temporary file keeps the others, whether it fails or not. -/
theorem keeps_drop (htemp : temp.isTemp = true) (h : t = s ∨ t = s.unlink temp) : Keeps s t := by
  rcases h with rfl | rfl
  · exact .refl _
  · exact keeps_unlink htemp

theorem Replaced.keeps {file : DiskFile} (h : Replaced s t path file)
    (hpath : path.isTemp = false) (h' : Keeps t u) : Replaced s u path file :=
  ⟨(h' path hpath).trans h.1, fun other hne hother => (h' other hother).trans (h.2 other hne hother)⟩

theorem Keeps.replaced {file : DiskFile} (h : Keeps s t) (h' : Replaced t u path file) :
    Replaced s u path file :=
  ⟨h'.1, fun other hne hother => (h'.2 other hne hother).trans (h other hother)⟩

theorem fileAt_eq_some {file : DiskFile} :
    s.fileAt path = some file ↔ s.nodes.lookup path = some (.file file) := by
  unfold FileState.fileAt
  split
  next file' hfile =>
    rw [hfile]
    simp
  next hnot =>
    constructor
    · intro h
      cases h
    · intro h
      exact absurd h (hnot file)

theorem Keeps.fileAt (h : Keeps s t) (hpath : path.isTemp = false) :
    t.fileAt path = s.fileAt path := by
  unfold FileState.fileAt
  rw [h path hpath]

theorem Replaced.fileAt {file : DiskFile} (h : Replaced s t path file) :
    t.fileAt path = some file := fileAt_eq_some.mpr h.1

@[simp] theorem fileAt_put (s : FileState) (path : DiskPath) (file : DiskFile) :
    (s.put path file).fileAt path = some file :=
  fileAt_eq_some.mpr (AList.lookup_insert _)

@[simp] theorem fileAt_create (s : FileState) (path : DiskPath) :
    (s.create path).fileAt path = some ⟨[], 0o600, s.inodes⟩ :=
  fileAt_eq_some.mpr (AList.lookup_insert _)

/-- The paths after an exchange. -/
theorem lookup_swap {left right : DiskPath} {a b : DiskNode} (hne : left ≠ right) :
    (s.swap left right a b).nodes.lookup left = some b ∧
      (s.swap left right a b).nodes.lookup right = some a ∧
        ∀ other, other ≠ left → other ≠ right →
          (s.swap left right a b).nodes.lookup other = s.nodes.lookup other := by
  refine ⟨?_, AList.lookup_insert _, ?_⟩
  · exact (AList.lookup_insert_ne hne).trans (AList.lookup_insert _)
  · intro other hleft hright
    exact (AList.lookup_insert_ne hright).trans (AList.lookup_insert_ne hleft)

/-- A new temporary file. -/
theorem createTemp_spec {parent reported : DiskPath} {context : String} :
    FileSpec fails s (askFile (α := DiskPath) (.createTemp parent) rfl context reported)
      (fun temp t => Keeps s t ∧ temp.isTemp = true ∧ s.nodes.lookup temp = none ∧
        ∃ inode, t.fileAt temp = some ⟨[], 0o600, inode⟩)
      fun _ t => t = s ∧ CanFail fails := by
  apply FileSpec.askFile
  rintro answer t (⟨suffix, hfree, rfl, rfl⟩ | ⟨hfails, rfl, rfl⟩)
  · refine ⟨?_, fun source h => by cases h⟩
    intro temp htemp
    cases htemp
    exact ⟨keeps_create rfl, rfl, hfree, _, fileAt_create _ _⟩
  · exact ⟨fun a h => (by cases h), fun _ _ => ⟨rfl, _, _, hfails⟩⟩

/-- A temporary file is written. -/
theorem write_spec {file : DiskFile} {bytes : List UInt8} {reported : DiskPath} {context : String}
    (htemp : temp.isTemp = true) (hfile : s.fileAt temp = some file) :
    FileSpec fails s (askFile (.write temp bytes) rfl context reported)
      (fun _ t => Keeps s t ∧ t.fileAt temp = some { file with bytes := bytes })
      fun _ t => Keeps s t ∧ CanFail fails := by
  apply FileSpec.askFile
  rintro answer t (h | ⟨hfails, h⟩)
  · simp only [fileEffect, hfile] at h
    obtain ⟨rfl, rfl⟩ := h
    exact ⟨fun _ _ => ⟨keeps_put htemp, fileAt_put _ _ _⟩, fun source h => by cases h⟩
  · simp only [fileFault, hfile] at h
    obtain ⟨rfl, part, _, rfl⟩ := h
    exact ⟨fun a h => (by cases h), fun _ _ => ⟨keeps_put htemp, _, _, hfails⟩⟩

/-- A temporary file gets its mode. -/
theorem setTemporaryFileMode_spec {file : DiskFile} {mode : ℕ} {reported : DiskPath}
    (htemp : temp.isTemp = true) (hfile : s.fileAt temp = some file) :
    FileSpec fails s (setTemporaryFileMode temp reported mode)
      (fun _ t => Keeps s t ∧ t.fileAt temp = some { file with mode := mode })
      fun _ t => Keeps s t ∧ CanFail fails := by
  apply FileSpec.askFile
  rintro answer t (h | ⟨hfails, rfl, rfl⟩)
  · simp only [fileEffect, hfile] at h
    obtain ⟨rfl, rfl⟩ := h
    exact ⟨fun _ _ => ⟨keeps_put htemp, fileAt_put _ _ _⟩, fun source h => by cases h⟩
  · exact ⟨fun a h => (by cases h), fun _ _ => ⟨.refl _, _, _, hfails⟩⟩

/-- The exchange of a temporary file with a file, or a failure. -/
theorem exchange_spec {a b : DiskNode} {E : LocalCacheFileError → FileState → Prop}
    (ha : s.nodes.lookup temp = some a) (hb : s.nodes.lookup path = some b) :
    FileSpec fails s (tryFile (α := Unit) (.exchange temp path) rfl)
      (fun answer t => (answer = .ok () ∧ t = s.swap temp path a b) ∨
        (t = s ∧ fails s (.exchange temp path) ∧ ∃ source, answer = .error source)) E := by
  apply FileSpec.tryFile
  rintro answer t (h | ⟨hfails, rfl, rfl⟩)
  · simp only [fileEffect, ha, hb] at h
    obtain ⟨rfl, rfl⟩ := h
    exact .inl ⟨rfl, rfl⟩
  · exact .inr ⟨rfl, hfails, _, rfl⟩

/-- A file is exchanged with a temporary one, which is exchanged back where the displaced file is
not the expected one. Only a failure of the second exchange leaves the new file. -/
theorem replaceRetainingDisplaced_spec {verifyDisplaced : DiskPath → FileProg Unit} {V W : Prop}
    {file old : DiskFile} (htemp : temp.isTemp = true) (hpath : path.isTemp = false)
    (hfile : s.fileAt temp = some file) (hold : s.fileAt path = some old)
    (hverify : FileSpec fails (s.swap temp path (.file file) (.file old)) (verifyDisplaced temp)
      (fun _ t => t = s.swap temp path (.file file) (.file old) ∧ V)
      fun _ t => t = s.swap temp path (.file file) (.file old) ∧ W) :
    FileSpec fails s (replaceRetainingDisplaced temp path verifyDisplaced)
      (fun _ t => Replaced s t path file ∧ V)
      fun _ t => (Keeps s t ∧ (CanFail fails ∨ W)) ∨ (Replaced s t path file ∧
        fails (s.swap temp path (.file file) (.file old)) (.exchange temp path)) := by
  have hne : temp ≠ path := (ne_of_isTemp hpath htemp).symm
  obtain ⟨hleft, hright, hothers⟩ := lookup_swap hne (s := s) (a := .file file) (b := .file old)
  have hreplaced : Replaced s (s.swap temp path (.file file) (.file old)) path file :=
    ⟨hright, fun other hother htemp' => hothers other (ne_of_isTemp htemp' htemp) hother⟩
  unfold replaceRetainingDisplaced
  apply FileSpec.bind (exchange_spec (fileAt_eq_some.mp hfile) (fileAt_eq_some.mp hold))
  rintro answer t (⟨rfl, rfl⟩ | ⟨rfl, hfails, source, rfl⟩)
  · apply FileSpec.bind (FileSpec.attempt hverify (R := fun r t =>
      t = s.swap temp path (.file file) (.file old) ∧ (r = .ok () → V) ∧ (r ≠ .ok () → W)) ?_ ?_)
    · rintro r t ⟨rfl, hV, hW⟩
      cases r with
      | ok a =>
        apply FileSpec.dropTemp
        intro u hu
        exact ⟨hreplaced.keeps hpath (keeps_drop htemp hu), hV rfl⟩
      | error e =>
        apply FileSpec.bind (exchange_spec hleft hright)
        rintro answer t (⟨rfl, rfl⟩ | ⟨rfl, hfails, source, rfl⟩)
        · have hback : Keeps s ((s.swap temp path (.file file) (.file old)).swap temp path
              (.file old) (.file file)) := by
            intro other hother
            obtain ⟨_, hright', hothers'⟩ := lookup_swap hne
              (s := s.swap temp path (.file file) (.file old)) (a := .file old) (b := .file file)
            by_cases heq : other = path
            · rw [heq, hright', fileAt_eq_some.mp hold]
            · rw [hothers' other (ne_of_isTemp hother htemp) heq,
                hothers other (ne_of_isTemp hother htemp) heq]
          apply FileSpec.bind (FileSpec.dropTemp (Q := fun t => Keeps s t) fun u hu =>
            hback.trans (keeps_drop htemp hu))
          exact fun _ t ht => .throw (.inl ⟨ht, .inr (hW fun h => by cases h)⟩)
        · exact .throw (.inr ⟨hreplaced, hfails⟩)
    · rintro _ t ⟨rfl, hV⟩
      exact ⟨rfl, fun _ => hV, fun h => absurd rfl h⟩
    · rintro e t ⟨rfl, hW⟩
      exact ⟨rfl, fun h => (by cases h), fun _ => hW⟩
  · apply FileSpec.bind (FileSpec.dropTemp (Q := fun u => Keeps t u) fun u hu =>
      keeps_drop htemp hu)
    exact fun _ u hu => .throw (.inl ⟨hu, .inl ⟨_, _, hfails⟩⟩)

end Frames

end LfsCloud
