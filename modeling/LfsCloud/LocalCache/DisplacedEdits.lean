import LfsCloud.LocalCache.Hydration
import LfsCloud.Lib.SharedLogic

/-!
# Edits of a file that is being replaced

A file is replaced while another program writes to the same path, by a rename each time. What was
displaced is put back where it does not pass its check; but what another program has written since
the exchange is then displaced itself, and dropped with the temporary file.
-/

namespace LfsCloud

open Interaction Transition

/-- The files, the numbers of those that the other program has put at the destination, and of those
that it has overwritten there. -/
structure EditedFiles where
  files : FileState
  edits : List ℕ
  overwritten : List ℕ

/-- What the other program writes. -/
structure Edit where
  bytes : List UInt8
  mode : ℕ

/-- A new file at a path, moved there over what was there. -/
def FileState.replaceBy (s : FileState) (path : DiskPath) (edit : Edit) : FileState :=
  { s with nodes := s.nodes.insert path (.file ⟨edit.bytes, edit.mode, s.inodes⟩)
           inodes := s.inodes + 1 }

/-- One write of the other program. -/
def EditedFiles.edit (path : DiskPath) (edit : Edit) (s : EditedFiles) : EditedFiles where
  files := s.files.replaceBy path edit
  edits := s.files.inodes :: s.edits
  overwritten := ((s.files.fileAt path).map DiskFile.inode).toList ++ s.overwritten

/-- The calls of the replacement, which writes nothing of the other program. -/
def editedOp (fails : FileState → FileCall → Prop) : Effect fileInterface EditedFiles :=
  fun s c answer t => fileOp fails s.files c answer t.files ∧ t.edits = s.edits ∧
    t.overwritten = s.overwritten

/-- The file at a path has a number. -/
def HasInode (s : FileState) (path : DiskPath) (inode : ℕ) : Prop :=
  ∃ file, s.fileAt path = some file ∧ file.inode = inode

/-- A replacement of the file at a path by a temporary one, among the writes of the other
program. -/
def replacementSystem (fails : FileState → FileCall → Prop) (temp path : DiskPath)
    (verifyDisplaced : DiskPath → FileProg Unit) (start : FileState) :
    System (Among fileInterface EditedFiles (Except LocalCacheFileError Unit × Unit))
      (Option Edit) :=
  amongSystem (editedOp fails) (fun edit s t => t = s.edit path edit)
    (fun s => s = ⟨start, [], []⟩) ((replaceRetainingDisplaced temp path verifyDisplaced).from ())

/-- The calls that only read. -/
def FileCall.IsRead : FileCall → Prop
  | .metadata _ => True
  | .symlinkMetadata _ => True
  | .read _ => True
  | .readNoFollow _ => True
  | _ => False

/-- The condition on a call: an exchange that takes back an earlier one finds the new file still at
the destination, and a displaced file that is dropped is not one of the other program. -/
def DropsNoEdit (temp path : DiskPath) (new : DiskFile) (s : EditedFiles) (c : FileCall) : Prop :=
  (c = .exchange temp path → s.files.fileAt temp ≠ some new →
    s.files.fileAt path = some new) ∧
  (c = .remove temp → ∀ file, s.files.fileAt temp = some file → file ≠ new →
    file.inode ∉ s.edits)

/-- Every file of the other program is at the destination, was overwritten there by that program, or
is at the path for recovery that the error names. -/
def NoLostEdit (path : DiskPath) (result : Except LocalCacheFileError Unit) (s : EditedFiles) :
    Prop :=
  ∀ inode ∈ s.edits, HasInode s.files path inode ∨ inode ∈ s.overwritten ∨
    ∃ reported recoveryPath source,
      result = .error (.worktreeReplacementRollback reported recoveryPath source) ∧
        HasInode s.files recoveryPath inode

section

variable {fails : FileState → FileCall → Prop} {temp path : DiskPath} {new : DiskFile}
  {s t : EditedFiles} {edit : Edit}

/-- Every file of the other program is at the destination or overwritten. -/
def EditsKept (path : DiskPath) (s : EditedFiles) : Prop :=
  ∀ inode ∈ s.edits, HasInode s.files path inode ∨ inode ∈ s.overwritten

/-- Every file of the other program is at the destination or overwritten, or is the temporary
file. -/
def EditsThere (temp path : DiskPath) (s : EditedFiles) : Prop :=
  ∀ inode ∈ s.edits, HasInode s.files path inode ∨ inode ∈ s.overwritten ∨
    HasInode s.files temp inode

/-- The numbers of files are below the next one, and the new file is not one of the other
program. -/
def InodesBelow (new : DiskFile) (s : EditedFiles) : Prop :=
  new.inode < s.files.inodes ∧ new.inode ∉ s.edits

theorem fileAt_replaceBy_self (s : FileState) (path : DiskPath) (edit : Edit) :
    (s.replaceBy path edit).fileAt path = some ⟨edit.bytes, edit.mode, s.inodes⟩ :=
  fileAt_eq_some.mpr (AList.lookup_insert _)

theorem fileAt_replaceBy_ne {s : FileState} {path other : DiskPath} (h : other ≠ path) :
    (s.replaceBy path edit).fileAt other = s.fileAt other := by
  unfold FileState.fileAt FileState.replaceBy
  rw [AList.lookup_insert_ne h]

theorem inodesBelow_edit (h : InodesBelow new s) : InodesBelow new (s.edit path edit) := by
  obtain ⟨hbelow, hnot⟩ := h
  refine ⟨Nat.lt_succ_of_lt hbelow, fun hmem => ?_⟩
  rcases List.mem_cons.mp hmem with heq | hold
  · rw [heq] at hbelow
    exact lt_irrefl _ hbelow
  · exact hnot hold

/-- A write of the other program is at the destination, and what was there is overwritten. -/
theorem kept_edit {inode : ℕ} (h : HasInode s.files path inode ∨ inode ∈ s.overwritten) :
    inode ∈ (s.edit path edit).overwritten := by
  apply List.mem_append.mpr
  rcases h with ⟨file, hfile, rfl⟩ | hover
  · left
    rw [hfile]
    exact List.mem_singleton.mpr rfl
  · exact .inr hover

theorem editsThere_edit (hne : temp ≠ path) (h : EditsThere temp path s) :
    EditsThere temp path (s.edit path edit) := by
  intro inode hmem
  rcases List.mem_cons.mp hmem with rfl | hold
  · exact .inl ⟨_, fileAt_replaceBy_self _ _ _, rfl⟩
  · rcases h inode hold with hat | hover | ⟨file, hfile, hinode⟩
    · exact .inr (.inl (kept_edit (.inl hat)))
    · exact .inr (.inl (kept_edit (.inr hover)))
    · exact .inr (.inr ⟨file, (fileAt_replaceBy_ne hne).trans hfile, hinode⟩)

theorem editsKept_edit (h : EditsKept path s) : EditsKept path (s.edit path edit) := by
  intro inode hmem
  rcases List.mem_cons.mp hmem with rfl | hold
  · exact .inl ⟨_, fileAt_replaceBy_self _ _ _, rfl⟩
  · exact .inr (kept_edit (h inode hold))

/-- Before the first exchange and after the second one: the temporary file is the new one. -/
def Staged (temp path : DiskPath) (new : DiskFile) (s : EditedFiles) : Prop :=
  s.files.fileAt temp = some new ∧ EditsKept path s

/-- Between the exchanges: the temporary file is the displaced one. -/
def Displaced (temp path : DiskPath) (new : DiskFile) (s : EditedFiles) : Prop :=
  s.files.fileAt temp ≠ some new ∧ EditsThere temp path s

/-- What changes from outside. -/
abbrev Edits (path : DiskPath) : Edit → EditedFiles → EditedFiles → Prop :=
  fun edit s t => t = s.edit path edit

/-- An assertion that the writes of the other program do not invalidate. -/
theorem stable_edits {X : EditedFiles → Prop}
    (h : ∀ s edit, InodesBelow new s → X s → X (s.edit path edit)) :
    Stable (InodesBelow new) (OutsideGuar (Edits path)) true X := by
  apply stable_outside
  rintro edit s _ hs hX rfl
  exact h s edit hs hX

theorem stable_staged (hne : temp ≠ path) :
    Stable (InodesBelow new) (OutsideGuar (Edits path)) true (Staged temp path new) :=
  stable_edits fun _ _ _ h => ⟨(fileAt_replaceBy_ne hne).trans h.1, editsKept_edit h.2⟩

theorem stable_displaced (hne : temp ≠ path) :
    Stable (InodesBelow new) (OutsideGuar (Edits path)) true (Displaced temp path new) :=
  stable_edits fun _ _ _ h =>
    ⟨(fileAt_replaceBy_ne hne).symm ▸ h.1, editsThere_edit hne h.2⟩

theorem stable_editsKept :
    Stable (InodesBelow new) (OutsideGuar (Edits path)) true (EditsKept path) :=
  stable_edits fun _ _ _ h => editsKept_edit h

theorem stable_editsThere (hne : temp ≠ path) :
    Stable (InodesBelow new) (OutsideGuar (Edits path)) true (EditsThere temp path) :=
  stable_edits fun _ _ _ h => editsThere_edit hne h

/-- A program of the replacement. -/
abbrev Replaces {α : Type} (fails : FileState → FileCall → Prop) (temp path : DiskPath)
    (new : DiskFile) (P : EditedFiles → Prop) (p : FileProg α)
    (Q : α → EditedFiles → Prop) (E : LocalCacheFileError → EditedFiles → Prop) : Prop :=
  Shares (opMeeting (editedOp fails) (DropsNoEdit temp path new)) (InodesBelow new)
    (OutsideGuar (Edits path)) true P p Q E

/-- Where only the temporary file is gone, all else is as it was. -/
theorem EditsKept.drop (hne : temp ≠ path) (h : EditsKept path s)
    (ht : t.files = s.files ∨ t.files = s.files.unlink temp) (hedits : t.edits = s.edits)
    (hover : t.overwritten = s.overwritten) : EditsKept path t := by
  intro inode hmem
  rw [hedits] at hmem
  have hfile : t.files.fileAt path = s.files.fileAt path := by
    rcases ht with ht | ht
    · rw [ht]
    · rw [ht]
      unfold FileState.fileAt FileState.unlink
      rw [AList.lookup_erase_ne hne.symm]
  unfold HasInode
  rw [hfile, hover]
  exact h inode hmem

/-- The temporary file is dropped where it is none of the other program. -/
theorem replaces_dropTemp {P : EditedFiles → Prop} {E : LocalCacheFileError → EditedFiles → Prop}
    (hne : temp ≠ path)
    (hP : ∀ s, InodesBelow new s → P s → DropsNoEdit temp path new s (.remove temp) →
      EditsKept path s) :
    Replaces fails temp path new P (dropTemp temp) (fun _ => EditsKept path) E := by
  apply Shares.bind (Q := fun _ => EditsKept path)
  · apply Shares.ask
    · exact fun _ => stable_editsKept
    · rintro s answer t hs hPs ⟨⟨hop, hedits, hover⟩, hmeets⟩
      have hkept := hP s hs hPs hmeets
      have ht : t.files = s.files ∨ t.files = s.files.unlink temp := by
        rcases hop with ht | ⟨_, ht⟩
        · exact .inr ht
        · exact .inl ht
      have hinodes : t.files.inodes = s.files.inodes := by
        rcases ht with ht | ht
        · rw [ht]
        · rw [ht]
          rfl
      refine ⟨⟨by rw [hinodes]; exact hs.1, by rw [hedits]; exact hs.2⟩, .inl rfl, ?_⟩
      exact hkept.drop hne ht hedits hover
  · exact fun _ => .pure fun _ _ h => h

/-- What an exchange does: the two paths change places, or nothing changes. -/
theorem exchange_cases {answer : FileAnswer (.exchange temp path)} {s t : FileState}
    (hop : fileOp fails s (.exchange temp path) answer t) :
    (answer = .ok () ∧ ∃ a b, s.nodes.lookup temp = some a ∧ s.nodes.lookup path = some b ∧
      t = s.swap temp path a b) ∨ ((∃ source, answer = .error source) ∧ t = s) := by
  rcases hop with hop | ⟨_, rfl, rfl⟩
  · unfold fileEffect at hop
    dsimp only at hop
    split at hop
    next a b ha hb => exact .inl ⟨hop.1, a, b, ha, hb, hop.2⟩
    next => exact .inr ⟨⟨_, hop.2⟩, hop.1⟩
  · exact .inr ⟨⟨_, rfl⟩, rfl⟩

/-- The files at two paths after they changed places. -/
theorem fileAt_swap {a b : DiskNode} {s : FileState} (hne : temp ≠ path)
    (ha : s.nodes.lookup temp = some a) (hb : s.nodes.lookup path = some b) :
    (s.swap temp path a b).fileAt temp = s.fileAt path ∧
      (s.swap temp path a b).fileAt path = s.fileAt temp := by
  obtain ⟨hleft, hright, _⟩ := lookup_swap hne (s := s) (a := a) (b := b)
  unfold FileState.fileAt
  rw [hleft, hright, ha, hb]
  exact ⟨rfl, rfl⟩

/-- An exchange: from `P` to `X` where it succeeds, and to `Y` where it fails. -/
theorem replaces_exchange {P X Y : EditedFiles → Prop}
    {E : LocalCacheFileError → EditedFiles → Prop}
    (hX : Stable (InodesBelow new) (OutsideGuar (Edits path)) true X)
    (hY : Stable (InodesBelow new) (OutsideGuar (Edits path)) true Y)
    (hswap : ∀ s a b, InodesBelow new s → P s → DropsNoEdit temp path new s (.exchange temp path) →
      s.files.nodes.lookup temp = some a → s.files.nodes.lookup path = some b →
        X ⟨s.files.swap temp path a b, s.edits, s.overwritten⟩)
    (hsame : ∀ s, InodesBelow new s → P s → Y s) :
    Replaces fails temp path new P (tryFile (.exchange temp path) rfl)
      (fun (answer : Except FileErrorKind Unit) s => (answer = .ok () ∧ X s) ∨
        ((∃ source, answer = .error source) ∧ Y s)) E := by
  apply Shares.bind (Q := fun (answer : Except FileErrorKind Unit) s => (answer = .ok () ∧ X s) ∨
    ((∃ source, answer = .error source) ∧ Y s))
  · apply Shares.ask
    · intro answer j s t hj hs ht hguar hcase
      exact hcase.imp (fun h => ⟨h.1, hX j s t hj hs ht hguar h.2⟩)
        fun h => ⟨h.1, hY j s t hj hs ht hguar h.2⟩
    · rintro s answer ⟨files, edits, overwritten⟩ hs hP ⟨⟨hop, rfl, rfl⟩, hmeets⟩
      rcases exchange_cases hop with ⟨rfl, a, b, ha, hb, rfl⟩ | ⟨herror, rfl⟩
      · exact ⟨hs, .inl rfl, .inl ⟨rfl, hswap s a b hs hP hmeets ha hb⟩⟩
      · exact ⟨hs, .inl rfl, .inr ⟨herror, hsame s hs hP⟩⟩
  · exact fun _ => .pure fun _ _ h => h

/-- The result of a program is a value. -/
theorem replaces_attempt {α : Type} {p : FileProg α} {P : EditedFiles → Prop}
    {Q : α → EditedFiles → Prop} {E E' : LocalCacheFileError → EditedFiles → Prop}
    (h : Replaces fails temp path new P p Q E) :
    Replaces fails temp path new P (attempt p) (fun r s => ResultHolds Q E (r, ()) s) E' :=
  Verified.bind h fun _ _ _ hr => hr

/-- A call that only reads leaves all as it is. -/
theorem fileOp_isRead {c : FileCall} {answer : FileAnswer c} {s t : FileState} (hc : c.IsRead)
    (hop : fileOp fails s c answer t) : t = s := by
  cases c with
  | metadata path => exact hop.elim And.left fun h => h.2.1
  | symlinkMetadata path => exact hop.elim And.left fun h => h.2.1
  | read path => exact hop.elim And.left fun h => h.2.1
  | readNoFollow path => exact hop.elim And.left fun h => h.2.1
  | _ => exact hc.elim

/-- The check of the displaced file leaves it where it is. -/
theorem replaces_reads {α : Type} {p : FileProg α} {X : EditedFiles → Prop}
    (hX : Stable (InodesBelow new) (OutsideGuar (Edits path)) true X)
    (hreads : (p.from ()).Calls FileCall.IsRead) :
    Replaces fails temp path new X p (fun _ => X) fun _ => X := by
  apply Shares.of_calls hX _ hreads
  rintro c s answer ⟨files, edits, overwritten⟩ hc hs hXs ⟨⟨hop, rfl, rfl⟩, _⟩
  obtain rfl := fileOp_isRead hc hop
  exact ⟨hs, .inl rfl, hXs⟩

theorem noLostEdit_of_kept {result : Except LocalCacheFileError Unit} (h : EditsKept path s) :
    NoLostEdit path result s :=
  fun inode hmem => (h inode hmem).imp id .inl

/-- What an exchange of the new file displaces is the temporary file. -/
theorem displaced_of_staged {a b : DiskNode} (hne : temp ≠ path)
    (hpath : s.files.fileAt path ≠ some new) (hs : Staged temp path new s)
    (ha : s.files.nodes.lookup temp = some a) (hb : s.files.nodes.lookup path = some b) :
    Displaced temp path new ⟨s.files.swap temp path a b, s.edits, s.overwritten⟩ := by
  obtain ⟨htemp, hdest⟩ := fileAt_swap hne ha hb
  refine ⟨htemp ▸ hpath, fun inode hmem => ?_⟩
  rcases hs.2 inode hmem with hat | hover
  · right
    right
    unfold HasInode
    rw [htemp]
    exact hat
  · exact .inr (.inl hover)

/-- An exchange that finds the new file at the destination puts the displaced one back. -/
theorem staged_of_displaced {a b : DiskNode} (hne : temp ≠ path) (hbelow : InodesBelow new s)
    (hs : Displaced temp path new s) (hnew : s.files.fileAt path = some new)
    (ha : s.files.nodes.lookup temp = some a) (hb : s.files.nodes.lookup path = some b) :
    Staged temp path new ⟨s.files.swap temp path a b, s.edits, s.overwritten⟩ := by
  obtain ⟨htemp, hdest⟩ := fileAt_swap hne ha hb
  refine ⟨htemp.trans hnew, fun inode hmem => ?_⟩
  rcases hs.2 inode hmem with ⟨file, hfile, rfl⟩ | hover | hat
  · rw [hnew] at hfile
    rw [← Option.some.inj hfile] at hmem
    exact absurd hmem hbelow.2
  · exact .inr hover
  · left
    unfold HasInode
    rw [hdest]
    exact hat

/-- A displaced file that is none of the other program leaves all of its files in place. -/
theorem kept_of_displaced (hs : Displaced temp path new s)
    (hmeets : DropsNoEdit temp path new s (.remove temp)) : EditsKept path s := by
  intro inode hmem
  rcases hs.2 inode hmem with hat | hover | ⟨file, hfile, rfl⟩
  · exact .inl hat
  · exact .inr hover
  · have hnew : file ≠ new := fun heq => hs.1 (heq ▸ hfile)
    exact absurd hmem (hmeets.2 rfl file hfile hnew)

/-- A replacement keeps the files of the other program, where its calls meet the condition. -/
theorem replaces_replaceRetainingDisplaced {verifyDisplaced : DiskPath → FileProg Unit}
    (hne : temp ≠ path)
    (hreads : ((verifyDisplaced temp).from ()).Calls FileCall.IsRead) :
    Replaces fails temp path new
      (fun s => s.files.fileAt path ≠ some new ∧ Staged temp path new s)
      (replaceRetainingDisplaced temp path verifyDisplaced)
      (fun _ s => NoLostEdit path (.ok ()) s) (fun e s => NoLostEdit path (.error e) s) := by
  unfold replaceRetainingDisplaced
  apply Shares.bind (replaces_exchange (stable_displaced hne) (stable_staged hne)
    (fun s a b _ hs _ ha hb => displaced_of_staged hne hs.1 hs.2 ha hb) fun s _ hs => hs.2)
  intro answer
  cases answer with
  | error source =>
    -- Nothing was displaced: the new file is dropped.
    have hdrop : Replaces fails temp path new (Staged temp path new) (dropTemp temp)
        (fun _ => EditsKept path) fun e s => NoLostEdit path (.error e) s :=
      replaces_dropTemp hne fun s _ hs _ => hs.2
    apply Shares.bind (hdrop.of_imp _)
    · exact fun _ => .throw fun s _ hs => noLostEdit_of_kept hs
    · rintro s _ (⟨h, _⟩ | ⟨_, hs⟩)
      · cases h
      · exact hs
  | ok u =>
    have hverify : Replaces fails temp path new (Displaced temp path new)
        (attempt (verifyDisplaced temp))
        (fun r s => ResultHolds (fun _ : Unit => Displaced temp path new)
          (fun _ : LocalCacheFileError => Displaced temp path new) (r, ()) s)
        (fun e s => NoLostEdit path (.error e) s) :=
      replaces_attempt (replaces_reads (stable_displaced hne) hreads)
    apply Shares.bind (hverify.of_imp _)
    · intro result
      cases result with
      | ok u =>
        -- The displaced file passed its check, and is dropped.
        have hdrop : Replaces fails temp path new (Displaced temp path new) (dropTemp temp)
            (fun _ => EditsKept path) fun e s => NoLostEdit path (.error e) s :=
          replaces_dropTemp hne fun s _ hs hmeets => kept_of_displaced hs hmeets
        exact hdrop.conseq (fun _ s _ hs => noLostEdit_of_kept hs) fun _ _ _ h => h
      | error e =>
        have hback : Replaces fails temp path new (Displaced temp path new)
            (tryFile (.exchange temp path) rfl) _ (fun e s => NoLostEdit path (.error e) s) :=
          replaces_exchange (stable_staged hne) (stable_editsThere hne)
            (fun s a b hbelow hs hmeets ha hb =>
              staged_of_displaced hne hbelow hs (hmeets.1 rfl hs.1) ha hb) fun s _ hs => hs.2
        apply Shares.bind hback
        intro answer
        cases answer with
        | error source =>
          apply Shares.throw
          rintro s _ (⟨h, _⟩ | ⟨_, hs⟩)
          · cases h
          · intro inode hmem
            exact (hs inode hmem).imp id (Or.imp id fun hat => ⟨_, _, _, rfl, hat⟩)
        | ok u =>
          have hdrop : Replaces fails temp path new (Staged temp path new) (dropTemp temp)
              (fun _ => EditsKept path) fun e s => NoLostEdit path (.error e) s :=
            replaces_dropTemp hne fun s _ hs _ => hs.2
          apply Shares.bind (hdrop.of_imp _)
          · exact fun _ => .throw fun s _ hs => noLostEdit_of_kept hs
          · rintro s _ (⟨_, hs⟩ | ⟨⟨source, h⟩, _⟩)
            · exact hs
            · cases h
    · rintro s _ (⟨_, hs⟩ | ⟨⟨source, h⟩, _⟩)
      · exact hs
      · cases h

end

section Reads

variable {digest : List UInt8 → LfsOid} {path : DiskPath} {object : LfsObject}

/-- A program that only reads. -/
def OnlyReads {α : Type} (p : FileProg α) : Prop := (p.from ()).Calls FileCall.IsRead

theorem onlyReads_attempt {α : Type} {p : FileProg α} (h : OnlyReads p) :
    OnlyReads (attempt p) := by
  have hbind : (attempt p).from () = (p.from ()).bind fun r => .done (.ok r.1, r.2) := rfl
  unfold OnlyReads
  rw [hbind]
  exact Prog.Calls.bind h fun _ => trivial

theorem onlyReads_tryFile {α : Type} (c : FileCall) {hc : FileAnswer c = Except FileErrorKind α}
    (h : c.IsRead) : OnlyReads (tryFile c hc) :=
  calls_bind (calls_ask h) fun _ => trivial

theorem onlyReads_worktreeFileMetadata : OnlyReads (worktreeFileMetadata path) := by
  apply calls_bind (onlyReads_tryFile (.symlinkMetadata path) trivial)
  intro answer
  cases answer with
  | error source => trivial
  | ok metadata =>
    cases metadata with
    | file len mode => trivial
    | symlink => trivial
    | other => trivial

theorem onlyReads_readWorktreeFile {context : String} :
    OnlyReads (readWorktreeFile path context) := by
  apply calls_bind onlyReads_worktreeFileMetadata
  intro _
  apply calls_bind (onlyReads_tryFile (.readNoFollow path) trivial)
  intro answer
  cases answer with
  | ok chunks => trivial
  | error source =>
    apply calls_bind (onlyReads_tryFile (.symlinkMetadata path) trivial)
    intro answer
    cases answer with
    | error source => trivial
    | ok metadata =>
      cases metadata with
      | file len mode => trivial
      | symlink => trivial
      | other => trivial

theorem onlyReads_verifyWorktreeFileObject :
    OnlyReads (verifyWorktreeFileObject digest path object) := by
  apply calls_bind onlyReads_readWorktreeFile
  intro chunks
  apply calls_bind
  · unfold hashed
    split
    · trivial
    · trivial
  · intro actual
    unfold ensureObjectIdentity
    split
    · trivial
    · trivial

theorem onlyReads_readLfsPointerFile : OnlyReads (readLfsPointerFile path) := by
  apply calls_bind onlyReads_readWorktreeFile
  intro chunks
  dsimp only
  split
  · trivial
  · split
    · trivial
    · split
      · trivial
      · trivial

/-- Both checks of a displaced file only read. -/
theorem onlyReads_verifyDisplacedObject {displaced : DiskPath} :
    OnlyReads (verifyDisplacedObject digest object path displaced) := by
  apply calls_bind (onlyReads_attempt onlyReads_verifyWorktreeFileObject)
  intro result
  cases result with
  | ok u => trivial
  | error e => trivial

theorem onlyReads_verifyDisplacedPointer {displaced : DiskPath} :
    OnlyReads (verifyDisplacedPointer object path displaced) := by
  apply calls_bind (onlyReads_attempt onlyReads_readLfsPointerFile)
  intro result
  cases result with
  | error e => trivial
  | ok pointer =>
    dsimp only
    split
    · trivial
    · trivial

end Reads

/-- A destination, and a temporary file next to it. -/
def sampleDestination : DiskPath := .worktree [.text "a"]
def sampleTemp : DiskPath := .temp (.worktree []) "b"

/-- The file that is to be replaced, and the one that replaces it. -/
def sampleOld : DiskFile := ⟨[1, 2], 0o644, 0⟩
def sampleNew : DiskFile := ⟨[3], 0o644, 1⟩

/-- Both files. -/
def sampleStaged : FileState :=
  ⟨(AList.singleton sampleTemp (.file sampleNew)).insert sampleDestination (.file sampleOld), 2, []⟩

/-- The check of a dehydration of an object of one byte. -/
def sampleVerify : DiskPath → FileProg Unit :=
  verifyDisplacedObject sampleCacheDigest ⟨.ofEmpty, 1⟩ sampleDestination

/-- What the other program writes. -/
def sampleEdit : Edit := ⟨[4], 0o644⟩

/-- The files after the exchange, after the write, after the exchange back, and after the drop. -/
def sampleExchanged : EditedFiles :=
  ⟨sampleStaged.swap sampleTemp sampleDestination (.file sampleNew) (.file sampleOld), [], []⟩
def sampleEdited : EditedFiles := sampleExchanged.edit sampleDestination sampleEdit
def sampleRolledBack : EditedFiles :=
  ⟨sampleEdited.files.swap sampleTemp sampleDestination (.file sampleOld) (.file ⟨[4], 0o644, 2⟩),
    sampleEdited.edits, sampleEdited.overwritten⟩
def sampleDropped : EditedFiles :=
  ⟨sampleRolledBack.files.unlink sampleTemp, sampleEdited.edits, sampleEdited.overwritten⟩

end LfsCloud
