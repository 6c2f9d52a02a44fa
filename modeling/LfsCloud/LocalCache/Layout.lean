import LfsCloud.Lfs
import LfsCloud.Lib.FileTree

/-!
# Layout of the local cache

The cache keeps an object in a file that is named by its identifier, below two directories
that are named by the first digits. A file counts as an object when its name reads as an
identifier whose digits match the directories.
-/

namespace LfsCloud

/-- A file name: text, or bytes that are not. -/
inductive OsString
  | text (s : String)
  | bytes (b : List UInt8)
  deriving DecidableEq, Repr

/-- `to_str`. -/
def OsString.toStr : OsString → Option String
  | .text s => some s
  | .bytes _ => none

/-- The bytes of a name, by which names are ordered. -/
def OsString.toBytes : OsString → List UInt8
  | .text s => s.toUTF8.data.toList
  | .bytes b => b

/-- A path, as its components. -/
abbrev FilePath := List OsString

/-- The order of paths. -/
def FilePath.le (p q : FilePath) : Bool := p.map OsString.toBytes ≤ q.map OsString.toBytes

/-- `object_shards`. -/
def objectShards (oid : LfsOid) : String × String :=
  (String.ofList (oid.hex.toList.take 2), String.ofList ((oid.hex.toList.drop 2).take 2))

/-- `object_path_for_oid`, below `objects_dir`. -/
def objectPathForOid (oid : LfsOid) : FilePath :=
  [.text (objectShards oid).1, .text (objectShards oid).2, .text oid.hex]

/-- `LocalCacheGarbageCollectionObject`. -/
structure LocalCacheGarbageCollectionObject where
  oid : LfsOid
  path : FilePath
  sizeBytes : ℕ
  deriving DecidableEq

/-- `cache_object_from_entry` for a file in a directory of the second level. -/
def cacheObjectFromEntry (firstDirectory secondDirectory name : OsString) (size : Option ℕ) :
    Option LocalCacheGarbageCollectionObject :=
  match name.toStr with
  | none => none
  | some text =>
    match LfsOid.new text with
    | .error _ => none
    | .ok oid =>
      if firstDirectory.toStr = some (objectShards oid).1 ∧
          secondDirectory.toStr = some (objectShards oid).2 then
        size.map fun sizeBytes => ⟨oid, [firstDirectory, secondDirectory, name], sizeBytes⟩
      else none

/-- Visit the entries of a directory, collecting objects and skipped paths. -/
def collectEntries (entries : List (OsString × FileNode))
    (visit : OsString → FileNode → List LocalCacheGarbageCollectionObject × List FilePath) :
    List LocalCacheGarbageCollectionObject × List FilePath :=
  (entries.flatMap fun e => (visit e.1 e.2).1, entries.flatMap fun e => (visit e.1 e.2).2)

/-- An entry of a directory of the second level. -/
def visitObjectEntry (first second name : OsString) :
    FileNode → List LocalCacheGarbageCollectionObject × List FilePath
  | .file size =>
    match cacheObjectFromEntry first second name size with
    | some object => ([object], [])
    | none => ([], [[first, second, name]])
  | _ => ([], [[first, second, name]])

/-- An entry of a directory of the first level. -/
def visitSecondShard (cache : FileTree OsString) (first second : OsString) :
    FileNode → List LocalCacheGarbageCollectionObject × List FilePath
  | .dir => collectEntries (cache.readDir [first, second]) (visitObjectEntry first second)
  | _ => ([], [[first, second]])

/-- An entry of the objects directory. -/
def visitFirstShard (cache : FileTree OsString) (first : OsString) :
    FileNode → List LocalCacheGarbageCollectionObject × List FilePath
  | .dir => collectEntries (cache.readDir [first]) (visitSecondShard cache first)
  | _ => ([], [[first]])

/-- `collect_cache_object_files`, where every directory can be read. -/
def collectCacheObjectFiles (cache : FileTree OsString) :
    List LocalCacheGarbageCollectionObject × List FilePath :=
  collectEntries (cache.readDir []) (visitFirstShard cache)

section

variable {cache : FileTree OsString} {first second name : OsString}
  {object : LocalCacheGarbageCollectionObject}

/-- When a file is an object. -/
theorem cacheObjectFromEntry_eq_some {size : Option ℕ} :
    cacheObjectFromEntry first second name size = some object ↔
      ∃ text, name = .text text ∧ LfsOid.new text = .ok object.oid ∧
        first = .text (objectShards object.oid).1 ∧ second = .text (objectShards object.oid).2 ∧
          object.path = [first, second, name] ∧ size = some object.sizeBytes := by
  have htext : ∀ {s : OsString} {text : String}, s.toStr = some text ↔ s = .text text := by
    intro s text
    cases s <;> simp [OsString.toStr]
  unfold cacheObjectFromEntry
  constructor
  · intro h
    split at h
    next => cases h
    next text hname =>
      split at h
      next => cases h
      next oid hoid =>
        split at h
        next hshards =>
          obtain ⟨sizeBytes, hsize, rfl⟩ := Option.map_eq_some_iff.mp h
          exact ⟨text, htext.mp hname, hoid, htext.mp hshards.1, htext.mp hshards.2, rfl, hsize⟩
        next => cases h
  · rintro ⟨text, rfl, hoid, hfirst, hsecond, hpath, rfl⟩
    obtain ⟨oid, path, sizeBytes⟩ := object
    simp only at hoid hfirst hsecond hpath ⊢
    subst hpath
    simp [OsString.toStr, hoid, hfirst, hsecond]

/-- What the scan finds. -/
theorem mem_collectEntries {entries : List (OsString × FileNode)}
    {visit : OsString → FileNode → List LocalCacheGarbageCollectionObject × List FilePath} :
    object ∈ (collectEntries entries visit).1 ↔
      ∃ name node, (name, node) ∈ entries ∧ object ∈ (visit name node).1 := by
  unfold collectEntries
  simp only [List.mem_flatMap, Prod.exists]

theorem skipped_collectEntries {entries : List (OsString × FileNode)}
    {visit : OsString → FileNode → List LocalCacheGarbageCollectionObject × List FilePath}
    {path : FilePath} : path ∈ (collectEntries entries visit).2 ↔
      ∃ name node, (name, node) ∈ entries ∧ path ∈ (visit name node).2 := by
  unfold collectEntries
  simp only [List.mem_flatMap, Prod.exists]

/-- A file that counts as an object is one, and anything else is skipped. -/
theorem mem_visitObjectEntry {node : FileNode} :
    object ∈ (visitObjectEntry first second name node).1 ↔
      ∃ size, node = .file size ∧ cacheObjectFromEntry first second name size = some object := by
  unfold visitObjectEntry
  cases node with
  | file size =>
    cases hentry : cacheObjectFromEntry first second name size with
    | some found => simp [hentry, eq_comm]
    | none => simp [hentry]
  | dir => simp
  | other => simp

theorem skipped_visitObjectEntry {node : FileNode} {path : FilePath} :
    path ∈ (visitObjectEntry first second name node).2 ↔ path = [first, second, name] ∧
      ∀ size, node = .file size → cacheObjectFromEntry first second name size = none := by
  unfold visitObjectEntry
  cases node with
  | file size =>
    cases hentry : cacheObjectFromEntry first second name size with
    | some found => simp [hentry]
    | none => simp [hentry]
  | dir => simp
  | other => simp

/-- The objects are the files that count as one. -/
theorem mem_collectCacheObjectFiles : object ∈ (collectCacheObjectFiles cache).1 ↔
    ∃ first second name size, cache.nodes.lookup [first, second, name] = some (.file size) ∧
      cacheObjectFromEntry first second name size = some object := by
  unfold collectCacheObjectFiles
  rw [mem_collectEntries]
  constructor
  · rintro ⟨first, node, _, hfirst⟩
    cases node with
    | dir =>
      obtain ⟨second, node, _, hsecond⟩ := mem_collectEntries.mp hfirst
      cases node with
      | dir =>
        obtain ⟨name, node, hentry, hobject⟩ := mem_collectEntries.mp hsecond
        obtain ⟨size, rfl, hfound⟩ := mem_visitObjectEntry.mp hobject
        exact ⟨first, second, name, size, FileTree.mem_readDir.mp hentry, hfound⟩
      | file size => cases hsecond
      | other => cases hsecond
    | file size => cases hfirst
    | other => cases hfirst
  · rintro ⟨first, second, name, size, hlookup, hobject⟩
    have hsecond := FileTree.lookup_of_prefix [first, second] [name]
      hlookup (by simp)
    have hfirst := FileTree.lookup_of_prefix [first] [second] hsecond
      (by simp)
    refine ⟨first, .dir, FileTree.mem_readDir.mpr hfirst, ?_⟩
    refine mem_collectEntries.mpr ⟨second, .dir, FileTree.mem_readDir.mpr hsecond, ?_⟩
    refine mem_collectEntries.mpr ⟨name, .file size, FileTree.mem_readDir.mpr hlookup, ?_⟩
    exact mem_visitObjectEntry.mpr ⟨size, rfl, hobject⟩

/-- What the scan skips is no directory above an object, and no object. -/
theorem skipped_collectCacheObjectFiles {path : FilePath} :
    path ∈ (collectCacheObjectFiles cache).2 →
      (∃ node, cache.nodes.lookup path = some node ∧ node ≠ .dir ∧ path.length < 3) ∨
        ∃ first second name node, path = [first, second, name] ∧
          cache.nodes.lookup path = some node ∧
            ∀ size, node = .file size → cacheObjectFromEntry first second name size = none := by
  intro h
  obtain ⟨first, node, hfirst, h⟩ := skipped_collectEntries.mp h
  have hfirst := FileTree.mem_readDir.mp hfirst
  cases node with
  | dir =>
    obtain ⟨second, node, hsecond, h⟩ := skipped_collectEntries.mp h
    have hsecond := FileTree.mem_readDir.mp hsecond
    cases node with
    | dir =>
      obtain ⟨name, node, hentry, h⟩ := skipped_collectEntries.mp h
      obtain ⟨rfl, hnone⟩ := skipped_visitObjectEntry.mp h
      exact .inr ⟨first, second, name, node, rfl, FileTree.mem_readDir.mp hentry, hnone⟩
    | file size =>
      obtain rfl := List.mem_singleton.mp h
      exact .inl ⟨.file size, hsecond, nofun, by simp⟩
    | other =>
      obtain rfl := List.mem_singleton.mp h
      exact .inl ⟨.other, hsecond, nofun, by simp⟩
  | file size =>
    obtain rfl := List.mem_singleton.mp h
    exact .inl ⟨.file size, hfirst, nofun, by simp⟩
  | other =>
    obtain rfl := List.mem_singleton.mp h
    exact .inl ⟨.other, hfirst, nofun, by simp⟩

/-- Every file below the objects directory is an object, or it is skipped, or a directory
above it is. -/
theorem covered_collectCacheObjectFiles {path : FilePath} {node : FileNode}
    (hlookup : cache.nodes.lookup path = some node) (hnode : node ≠ .dir) (hne : path ≠ []) :
    (∃ object ∈ (collectCacheObjectFiles cache).1, object.path = path) ∨
      ∃ skipped ∈ (collectCacheObjectFiles cache).2, skipped <+: path := by
  match path with
  | [] => exact absurd rfl hne
  | [first] =>
    refine .inr ⟨[first], ?_, List.prefix_rfl⟩
    refine skipped_collectEntries.mpr ⟨first, node, FileTree.mem_readDir.mpr hlookup, ?_⟩
    cases node with
    | dir => exact absurd rfl hnode
    | file size => exact List.mem_singleton_self _
    | other => exact List.mem_singleton_self _
  | [first, second] =>
    have hfirst := FileTree.lookup_of_prefix [first] [second] hlookup
      (by simp)
    refine .inr ⟨[first, second], ?_, List.prefix_rfl⟩
    refine skipped_collectEntries.mpr ⟨first, .dir, FileTree.mem_readDir.mpr hfirst, ?_⟩
    refine skipped_collectEntries.mpr ⟨second, node, FileTree.mem_readDir.mpr hlookup, ?_⟩
    cases node with
    | dir => exact absurd rfl hnode
    | file size => exact List.mem_singleton_self _
    | other => exact List.mem_singleton_self _
  | first :: second :: name :: rest =>
    have hfirst := FileTree.lookup_of_prefix [first] (second :: name :: rest)
      hlookup (by simp)
    have hsecond := FileTree.lookup_of_prefix [first, second] (name :: rest)
      hlookup (by simp)
    obtain ⟨third, hthird, hlevel⟩ : ∃ third,
        cache.nodes.lookup [first, second, name] = some third ∧ (rest = [] ∨ third = .dir) := by
      by_cases hrest : rest = []
      · subst hrest
        exact ⟨node, hlookup, .inl rfl⟩
      · exact ⟨.dir, FileTree.lookup_of_prefix [first, second, name] rest hlookup hrest,
          .inr rfl⟩
    have hvisit : (∃ object, object ∈ (visitObjectEntry first second name third).1 ∧
        object.path = [first, second, name] ∧ rest = []) ∨
          [first, second, name] ∈ (visitObjectEntry first second name third).2 := by
      by_cases hobject : ∃ size object, third = .file size ∧
          cacheObjectFromEntry first second name size = some object
      · obtain ⟨size, object, rfl, hentry⟩ := hobject
        obtain ⟨_, _, _, _, _, hpath, _⟩ := cacheObjectFromEntry_eq_some.mp hentry
        exact .inl ⟨object, mem_visitObjectEntry.mpr ⟨size, rfl, hentry⟩, hpath,
          hlevel.resolve_right nofun⟩
      · refine .inr (skipped_visitObjectEntry.mpr ⟨rfl, fun size hsize => ?_⟩)
        by_contra hsome
        obtain ⟨object, hentry⟩ := Option.ne_none_iff_exists'.mp hsome
        exact hobject ⟨size, object, hsize, hentry⟩
    rcases hvisit with ⟨object, hobject, hpath, rfl⟩ | hskipped
    · refine .inl ⟨object, ?_, hpath⟩
      refine mem_collectEntries.mpr ⟨first, .dir, FileTree.mem_readDir.mpr hfirst, ?_⟩
      refine mem_collectEntries.mpr ⟨second, .dir, FileTree.mem_readDir.mpr hsecond, ?_⟩
      exact mem_collectEntries.mpr ⟨name, third, FileTree.mem_readDir.mpr hthird, hobject⟩
    · refine .inr ⟨[first, second, name], ?_, ⟨rest, rfl⟩⟩
      refine skipped_collectEntries.mpr ⟨first, .dir, FileTree.mem_readDir.mpr hfirst, ?_⟩
      refine skipped_collectEntries.mpr ⟨second, .dir, FileTree.mem_readDir.mpr hsecond, ?_⟩
      exact skipped_collectEntries.mpr ⟨name, third, FileTree.mem_readDir.mpr hthird, hskipped⟩

end

end LfsCloud
