import LfsCloud.LocalCache.DisplacedEdits

/-!
# A cache that several processes share

Ingest, materialization, hydration and dehydration run side by side over one cache, while other
programs write the files of the worktrees. What is at the path of an object is never replaced, and
a temporary file is left to the process that created it.
-/

namespace LfsCloud

open Interaction Transition

/-- What is asked of the cache, with the paths of the repository or of its worktree. -/
inductive CacheOperation
  | ingest (gitLfsObjectsDir : FilePath) (object : LfsObject)
  | materialize (object : LfsObject) (path : FilePath)
  | hydrate (path : FilePath)
  | dehydrate (object : LfsObject) (path : FilePath)

section

variable (digest : List UInt8 → LfsOid) (stripe : DiskPath → String)

/-- An operation, and the object that is in the cache where it succeeds. -/
def CacheOperation.run : CacheOperation → FileProg (Option LfsObject)
  | .ingest gitLfsObjectsDir object => do
    let _ ← ingestGitLfsObject digest gitLfsObjectsDir object
    pure (some object)
  | .materialize object path => do
    let _ ← materializeObject digest stripe object (.worktree path)
    pure (some object)
  | .hydrate path => do
    let hydrated ← hydratePointerFile digest stripe (.worktree path)
    pure (if hydrated.1.size = 0 then none else some hydrated.1)
  | .dehydrate object path => do
    let status ← dehydrateFile digest stripe object (.worktree path)
    pure (if status = .alreadyDehydrated then none else some object)

/-- Operations one after the other, each of which may fail, and the objects that they leave in the
cache. -/
def runOperations : List CacheOperation → FileProg (List LfsObject)
  | [] => pure []
  | operation :: operations => do
    let result ← attempt (operation.run digest stripe)
    let objects ← runOperations operations
    match result with
    | .ok (some object) => pure (object :: objects)
    | _ => pure objects

end

/-- Only files of worktrees are not as they were. -/
def OnlyWorktrees (s t : FileState) : Prop :=
  ∀ path, (∀ file, path ≠ .worktree file) → t.nodes.lookup path = s.nodes.lookup path

theorem OnlyWorktrees.cache {s t : FileState} (h : OnlyWorktrees s t) (path : FilePath) :
    t.nodes.lookup (.cache path) = s.nodes.lookup (.cache path) :=
  h _ fun _ heq => by cases heq

theorem OnlyWorktrees.temp {s t : FileState} (h : OnlyWorktrees s t) {temp : DiskPath}
    (htemp : temp.isTemp = true) : t.nodes.lookup temp = s.nodes.lookup temp := by
  apply h
  rintro file rfl
  cases htemp

/-- The call reads a file of a worktree. -/
def FileCall.ReadsWorktree : FileCall → Prop
  | .read (.worktree _) => True
  | .readNoFollow (.worktree _) => True
  | _ => False

/-- The calls among the writes of other programs: the files of the worktrees may have changed before
each call, and may change while they are read. -/
def sharedOp {ι : Type} (fails : FileState → FileCall → Prop) :
    Semantics fileInterface FileState ι :=
  fun _ s c answer t => ∃ u, OnlyWorktrees s u ∧
    (fileOp fails u c answer t ∨ (c.ReadsWorktree ∧ t = u))

/-- Processes that share the files, each with its operations. -/
def cacheSystem {ι : Type} [DecidableEq ι] (digest : List UInt8 → LfsOid)
    (stripe : DiskPath → String) (fails : FileState → FileCall → Prop) (start : FileState)
    (operations : ι → List CacheOperation) :
    System (Pool fileInterface FileState ι (Except LocalCacheFileError (List LfsObject) × Unit))
      ι :=
  poolSystem (sharedOp fails) fun s => s.shared = start ∧
    ∀ i, s.thread i = (runOperations digest stripe (operations i)).from ()

/-- What is at the path of an object is a file with the bytes of the object. -/
def CacheSound (digest : List UInt8 → LfsOid) (s : FileState) : Prop :=
  ∀ oid node, s.nodes.lookup (.cache (objectPathForOid oid)) = some node →
    ∃ file, node = .file file ∧ digest file.bytes = oid

/-- The cache has lost nothing, and nothing in it was replaced. -/
def CacheGrows (s t : FileState) : Prop :=
  ∀ path node, s.nodes.lookup (.cache path) = some node → t.nodes.lookup (.cache path) = some node

/-- The object is in the cache. -/
def InCache (digest : List UInt8 → LfsOid) (object : LfsObject) (s : FileState) : Prop :=
  ∃ file, s.nodes.lookup (objectPath object) = some (.file file) ∧
    IsObject digest object file.bytes

theorem CacheGrows.refl (s : FileState) : CacheGrows s s := fun _ _ h => h

theorem CacheGrows.trans {s t u : FileState} (h : CacheGrows s t) (h' : CacheGrows t u) :
    CacheGrows s u := fun path node hnode => h' path node (h path node hnode)

/-- An object stays in a cache that loses nothing. -/
theorem InCache.grows {digest : List UInt8 → LfsOid} {object : LfsObject} {s t : FileState}
    (hgrows : CacheGrows s t) (h : InCache digest object s) : InCache digest object t := by
  obtain ⟨file, hfile, hobject⟩ := h
  exact ⟨file, hgrows _ _ hfile, hobject⟩

/-- The path of an object names the object. -/
theorem objectPathForOid_injective {oid oid' : LfsOid}
    (h : objectPathForOid oid = objectPathForOid oid') : oid = oid' := by
  simp only [objectPathForOid, List.cons.injEq, OsString.text.injEq, and_true] at h
  have hhex : oid.hex = oid'.hex := h.2.2
  cases oid
  cases oid'
  cases hhex
  rfl

section Owners

variable {ι : Type}

/-- The process that created each temporary file last, which only the proof looks at. -/
abbrev Owners (ι : Type) := DiskPath → Option ι

/-- A file that was created belongs to the process that created it. -/
def ownersAfter (i : ι) (owners : Owners ι) : (c : FileCall) → FileAnswer c → Owners ι
  | .createTemp _, answer =>
    match (answer : Except FileErrorKind DiskPath) with
    | .ok temp => Function.update owners temp (some i)
    | .error _ => owners
  | _, _ => owners

/-- The calls, with who created which file. -/
def ownedOp (fails : FileState → FileCall → Prop) :
    Semantics fileInterface (FileState × Owners ι) ι :=
  withGhost (sharedOp fails) ownersAfter

/-- What a process does to the state: the cache loses nothing, and the temporary files of the other
processes stay as they are. -/
structure Respects (j : ι) (s t : FileState × Owners ι) : Prop where
  grows : CacheGrows s.1 t.1
  temps : ∀ temp i, temp.isTemp = true → i ≠ j → s.2 temp = some i →
    s.1.nodes.lookup temp ≠ none →
      t.2 temp = some i ∧ t.1.nodes.lookup temp = s.1.nodes.lookup temp

/-- The process has a temporary file, and what it is. -/
def Owns (i : ι) (temp : DiskPath) (K : DiskNode → Prop) (s : FileState × Owners ι) : Prop :=
  s.2 temp = some i ∧ ∃ node, s.1.nodes.lookup temp = some node ∧ K node

/-- A file that may be moved to a path: to one of a worktree, or to that of its object. -/
def Publishable (digest : List UInt8 → LfsOid) (path : DiskPath) (node : DiskNode) : Prop :=
  (∃ file, path = .worktree file) ∨ ∃ oid, path = .cache (objectPathForOid oid) ∧
    ∃ file, node = .file file ∧ digest file.bytes = oid

/-- The calls that a process may make: it changes its own temporary files only, and exchanges them
with files of worktrees only. -/
def FileCall.Allowed (digest : List UInt8 → LfsOid) (i : ι) (s : FileState × Owners ι) :
    FileCall → Prop
  | .write temp _ => temp.isTemp = true ∧ s.2 temp = some i
  | .setPermissions temp _ => temp.isTemp = true ∧ s.2 temp = some i
  | .remove temp => temp.isTemp = true ∧ s.2 temp = some i
  | .persistNoclobber temp path => temp.isTemp = true ∧ Owns i temp (Publishable digest path) s
  | .exchange temp path => temp.isTemp = true ∧ s.2 temp = some i ∧ ∃ file, path = .worktree file
  | _ => True

/-- The paths that a call may change. -/
def FileCall.Changes : (c : FileCall) → FileAnswer c → DiskPath → Prop
  | .createTemp _, answer, path => answer = .ok path
  | .write temp _, _, path => path = temp
  | .setPermissions temp _, _, path => path = temp
  | .remove temp, _, path => path = temp
  | .persistNoclobber temp dest, _, path => path = temp ∨ path = dest
  | .exchange left right, _, path => path = left ∨ path = right
  | _, _, _ => False

variable {fails : FileState → FileCall → Prop} {digest : List UInt8 → LfsOid} {i : ι}
  {s t u : FileState}

/-- A call leaves all other paths as they are. -/
theorem lookup_fileOp {c : FileCall} {answer : FileAnswer c} {path : DiskPath}
    (hop : fileOp fails s c answer t) (hpath : ¬c.Changes answer path) :
    t.nodes.lookup path = s.nodes.lookup path := by
  cases c with
  | createTemp parent =>
    rcases hop with ⟨suffix, _, rfl, rfl⟩ | ⟨_, rfl, _⟩
    · exact AList.lookup_insert_ne fun h => hpath (congrArg Except.ok h.symm)
    · rfl
  | write temp bytes =>
    rcases hop with hop | ⟨_, _, hop⟩
    · unfold fileEffect at hop
      dsimp only at hop
      split at hop
      · rw [hop.2]
        exact AList.lookup_insert_ne hpath
      · rw [hop.1]
    · split at hop
      · obtain ⟨_, _, rfl⟩ := hop
        exact AList.lookup_insert_ne hpath
      · rw [hop]
  | setPermissions temp mode =>
    rcases hop with hop | ⟨_, rfl, _⟩
    · unfold fileEffect at hop
      dsimp only at hop
      split at hop
      · rw [hop.2]
        exact AList.lookup_insert_ne hpath
      · rw [hop.1]
    · rfl
  | remove temp =>
    rcases hop with rfl | ⟨_, rfl⟩
    · exact AList.lookup_erase_ne hpath
    · rfl
  | persistNoclobber temp dest =>
    have hne : path ≠ temp ∧ path ≠ dest := not_or.mp hpath
    rcases hop with hop | ⟨_, rfl, _⟩
    · unfold fileEffect at hop
      dsimp only at hop
      split at hop
      · rw [hop.2]
        exact (AList.lookup_insert_ne hne.2).trans (AList.lookup_erase_ne hne.1)
      · rw [hop.1]
      · rw [hop.1]
    · rfl
  | exchange left right =>
    have hne : path ≠ left ∧ path ≠ right := not_or.mp hpath
    rcases hop with hop | ⟨_, rfl, _⟩
    · unfold fileEffect at hop
      dsimp only at hop
      split at hop
      · rw [hop.2]
        exact (AList.lookup_insert_ne hne.2).trans (AList.lookup_insert_ne hne.1)
      · rw [hop.1]
    · rfl
  | metadata path => exact hop.elim (fun h => by rw [h.1]) fun h => by rw [h.2.1]
  | symlinkMetadata path => exact hop.elim (fun h => by rw [h.1]) fun h => by rw [h.2.1]
  | read path => exact hop.elim (fun h => by rw [h.1]) fun h => by rw [h.2.1]
  | readNoFollow path => exact hop.elim (fun h => by rw [h.1]) fun h => by rw [h.2.1]
  | createDirAll path => exact hop.elim (fun h => by rw [h.1]) fun h => by rw [h.2.1]
  | sync path => exact hop.elim (fun h => by rw [h.1]) fun h => by rw [h.2.1]
  | lockShared => exact hop.elim (fun h => by rw [h.1]) fun h => by rw [h.2.1]
  | lockPath stripe =>
    rcases hop with ⟨_, rfl⟩ | ⟨_, rfl, _⟩
    · rfl
    · rfl
  | unlockPath stripe =>
    rcases hop with rfl | ⟨_, h⟩
    · rfl
    · exact h.elim

/-- A move ends at a free path, or changes nothing. -/
theorem persist_cases {temp dest : DiskPath} {answer : FileAnswer (.persistNoclobber temp dest)}
    (hop : fileOp fails s (.persistNoclobber temp dest) answer t) :
    (answer = .ok () ∧ s.nodes.lookup dest = none ∧ ∃ node, s.nodes.lookup temp = some node ∧
      t = s.move temp dest node) ∨ ((∃ source, answer = .error source) ∧ t = s) := by
  rcases hop with hop | ⟨_, rfl, rfl⟩
  · unfold fileEffect at hop
    dsimp only at hop
    split at hop
    next node hnode hfree => exact .inl ⟨hop.1, hfree, node, hnode, hop.2⟩
    next => exact .inr ⟨⟨_, hop.2⟩, hop.1⟩
    next => exact .inr ⟨⟨_, hop.2⟩, hop.1⟩
  · exact .inr ⟨⟨_, rfl⟩, rfl⟩

/-- A temporary file that is created was not there. -/
theorem create_cases {parent : DiskPath} {answer : FileAnswer (.createTemp parent)}
    (hop : fileOp fails s (.createTemp parent) answer t) :
    (∃ suffix, s.nodes.lookup (.temp parent suffix) = none ∧
      answer = .ok (.temp parent suffix) ∧ t = s.create (.temp parent suffix)) ∨
        ((∃ source, answer = .error source) ∧ t = s) := by
  rcases hop with hop | ⟨_, rfl, rfl⟩
  · exact .inl hop
  · exact .inr ⟨⟨_, rfl⟩, rfl⟩

/-- A call that is allowed leaves the cache as it is, but for an object that it adds. -/
theorem cache_after {owners : Owners ι} {c : FileCall} {answer : FileAnswer c} {path : FilePath}
    (hallowed : c.Allowed digest i (s, owners)) (hop : fileOp fails s c answer t)
    (hpath : t.nodes.lookup (.cache path) ≠ s.nodes.lookup (.cache path)) :
    s.nodes.lookup (.cache path) = none ∧ ∃ oid file, path = objectPathForOid oid ∧
      t.nodes.lookup (.cache path) = some (.file file) ∧ digest file.bytes = oid := by
  have hchanges : c.Changes answer (.cache path) := by
    by_contra hnot
    exact hpath (lookup_fileOp hop hnot)
  cases c with
  | createTemp parent =>
    rcases create_cases hop with ⟨suffix, _, hanswer, _⟩ | ⟨⟨source, hanswer⟩, _⟩
    · cases hchanges.symm.trans hanswer
    · cases hchanges.symm.trans hanswer
  | write temp bytes =>
    rw [← show DiskPath.cache path = temp from hchanges] at hallowed
    cases hallowed.1
  | setPermissions temp mode =>
    rw [← show DiskPath.cache path = temp from hchanges] at hallowed
    cases hallowed.1
  | remove temp =>
    rw [← show DiskPath.cache path = temp from hchanges] at hallowed
    cases hallowed.1
  | exchange temp dest =>
    obtain ⟨htemp, _, file, rfl⟩ := hallowed
    rcases hchanges with rfl | hdest
    · cases htemp
    · cases hdest
  | persistNoclobber temp dest =>
    obtain ⟨htemp, _, node, hnode, hpublishable⟩ := hallowed
    rcases hchanges with rfl | rfl
    · cases htemp
    rcases persist_cases hop with ⟨_, hfree, node', hnode', rfl⟩ | ⟨_, rfl⟩
    · obtain rfl := Option.some.inj (hnode.symm.trans hnode')
      rcases hpublishable with ⟨file, hfile⟩ | ⟨oid, hoid, file, rfl, hdigest⟩
      · cases hfile
      · cases hoid
        exact ⟨hfree, oid, file, rfl, AList.lookup_insert _, hdigest⟩
    · exact absurd rfl hpath
  | _ => exact hchanges.elim

/-- A call that is allowed leaves the temporary files of the other processes as they are. -/
theorem temp_after {owners : Owners ι} {c : FileCall} {answer : FileAnswer c} {temp : DiskPath}
    {j : ι} (hallowed : c.Allowed digest i (s, owners)) (hop : fileOp fails s c answer t)
    (htemp : temp.isTemp = true) (hne : j ≠ i) (howner : owners temp = some j)
    (hthere : s.nodes.lookup temp ≠ none) :
    ownersAfter i owners c answer temp = some j ∧ t.nodes.lookup temp = s.nodes.lookup temp := by
  have hnotMine : owners temp ≠ some i := by
    rw [howner]
    exact fun h => hne (Option.some.inj h)
  have hnot : ¬c.Changes answer temp := by
    intro hchanges
    cases c with
    | createTemp parent =>
      rcases create_cases hop with ⟨suffix, hfree, hanswer, _⟩ | ⟨⟨source, hanswer⟩, _⟩
      · cases Except.ok.inj (hchanges.symm.trans hanswer)
        exact hthere hfree
      · cases hchanges.symm.trans hanswer
    | write other bytes =>
      rw [← show temp = other from hchanges] at hallowed
      exact hnotMine hallowed.2
    | setPermissions other mode =>
      rw [← show temp = other from hchanges] at hallowed
      exact hnotMine hallowed.2
    | remove other =>
      rw [← show temp = other from hchanges] at hallowed
      exact hnotMine hallowed.2
    | exchange other dest =>
      obtain ⟨_, hmine, file, rfl⟩ := hallowed
      rcases hchanges with rfl | rfl
      · exact hnotMine hmine
      · cases htemp
    | persistNoclobber other dest =>
      obtain ⟨_, hmine, _, _, hpublishable⟩ := hallowed
      rcases hchanges with rfl | rfl
      · exact hnotMine hmine
      · rcases hpublishable with ⟨file, rfl⟩ | ⟨oid, rfl, _⟩
        · cases htemp
        · cases htemp
    | _ => exact hchanges.elim
  refine ⟨?_, lookup_fileOp hop hnot⟩
  cases c with
  | createTemp parent =>
    rcases create_cases hop with ⟨suffix, _, rfl, _⟩ | ⟨⟨source, rfl⟩, _⟩
    · have hother : temp ≠ .temp parent suffix := fun h => hnot (congrArg Except.ok h.symm)
      exact (Function.update_of_ne hother _ _).trans howner
    · exact howner
  | _ => exact howner

/-- A call that is allowed keeps the cache sound, and respects the other processes. -/
theorem respects_of_allowed {s t : FileState × Owners ι} {c : FileCall} {answer : FileAnswer c}
    (hsound : CacheSound digest s.1)
    (hallowed : ∀ u, OnlyWorktrees s.1 u → c.Allowed digest i (u, s.2))
    (hop : ownedOp fails i s c answer t) : CacheSound digest t.1 ∧ Respects i s t := by
  obtain ⟨⟨u, hworktrees, hop⟩, howners⟩ := hop
  have hcache := hworktrees.cache
  rcases hop with hop | ⟨hreads, rfl⟩
  · refine ⟨fun oid node hnode => ?_, fun path node hnode => ?_, ?_⟩
    · by_cases hsame : t.1.nodes.lookup (.cache (objectPathForOid oid)) =
          u.nodes.lookup (.cache (objectPathForOid oid))
      · exact hsound oid node (by rw [← hcache, ← hsame, hnode])
      · obtain ⟨_, oid', file, hpath, hfile, hdigest⟩ :=
          cache_after (hallowed u hworktrees) hop hsame
        rw [hnode] at hfile
        exact ⟨file, Option.some.inj hfile, (objectPathForOid_injective hpath) ▸ hdigest⟩
    · by_contra hlost
      have hchanged : t.1.nodes.lookup (.cache path) ≠ u.nodes.lookup (.cache path) := by
        rw [hcache, hnode]
        exact hlost
      have hfree := (cache_after (hallowed u hworktrees) hop hchanged).1
      rw [hcache, hnode] at hfree
      cases hfree
    · intro temp j htemp hne howner hthere
      rw [howners, ← hworktrees.temp htemp]
      exact temp_after (hallowed u hworktrees) hop htemp hne howner
        (by rwa [hworktrees.temp htemp])
  · refine ⟨fun oid node hnode => hsound oid node (by rw [← hcache, hnode]),
      fun path node hnode => by rw [hcache, hnode], fun temp j htemp _ howner _ => ?_⟩
    have hsame : ownersAfter i s.2 c answer = s.2 := by
      cases c with
      | createTemp parent => exact hreads.elim
      | _ => rfl
    exact ⟨by rw [howners, hsame, howner], hworktrees.temp htemp⟩

end Owners

end LfsCloud
