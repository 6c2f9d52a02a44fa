import LfsCloud.Lib.Table

/-!
# File trees

A directory with everything below it, as a table of nodes by path. Every node but the one
at the top lies in a directory of the tree. Removing files, and directories with nothing
left in them, never loses another file.
-/

universe u

/-- A node: a file, with its size where that can be read, a directory, or anything else. -/
inductive FileNode
  | file (size : Option ℕ)
  | dir
  | other
  deriving DecidableEq, Repr

/-- A table of nodes by path, in which every parent is a directory. -/
structure FileTree (ν : Type u) [DecidableEq ν] where
  nodes : Table (List ν) FileNode
  parents : ∀ {path name node}, nodes.lookup (path ++ [name]) = some node →
    nodes.lookup path = some .dir

namespace FileTree

variable {ν : Type u} [DecidableEq ν]

/-- The entries of a directory. -/
def readDir (t : FileTree ν) (path : List ν) : List (ν × FileNode) :=
  t.nodes.entries.filterMap fun e =>
    if e.1.dropLast = path then e.1.getLast?.map fun name => (name, e.2) else none

theorem mem_readDir {t : FileTree ν} {path : List ν} {name : ν} {node : FileNode} :
    (name, node) ∈ t.readDir path ↔ t.nodes.lookup (path ++ [name]) = some node := by
  unfold readDir
  rw [List.mem_filterMap]
  constructor
  · rintro ⟨⟨q, node'⟩, hmem, hentry⟩
    split at hentry
    next hparent =>
      obtain ⟨last, hlast, hpair⟩ := Option.map_eq_some_iff.mp hentry
      cases hpair
      have hpath : q = path ++ [name] := by
        rw [← hparent]
        exact (List.dropLast_append_getLast? name hlast).symm
      rw [← hpath]
      exact AList.mem_lookup_iff.mpr hmem
    next => cases hentry
  · intro hlookup
    refine ⟨⟨path ++ [name], node⟩, AList.mem_lookup_iff.mp hlookup, ?_⟩
    simp

/-- Every directory above a node is there. -/
theorem lookup_of_prefix {t : FileTree ν} (path rest : List ν) {node : FileNode}
    (h : t.nodes.lookup (path ++ rest) = some node) (hne : rest ≠ []) :
    t.nodes.lookup path = some .dir := by
  induction rest using List.reverseRecOn generalizing node with
  | nil => exact absurd rfl hne
  | append_singleton init last ih =>
    rw [← List.append_assoc] at h
    have hinit := t.parents h
    by_cases hnil : init = []
    · rwa [hnil, List.append_nil] at hinit
    · exact ih hinit hnil

/-- Some files are gone, and perhaps directories that were left empty; the rest is as it
was. -/
structure Removes (s t : FileTree ν) (paths : List (List ν)) : Prop where
  gone : ∀ {path}, path ∈ paths → t.nodes.lookup path = none
  kept : ∀ {path node}, s.nodes.lookup path = some node → path ∉ paths → node ≠ .dir →
    t.nodes.lookup path = some node
  old : ∀ {path node}, t.nodes.lookup path = some node → s.nodes.lookup path = some node

theorem Removes.refl (t : FileTree ν) : Removes t t [] := ⟨nofun, fun h _ _ => h, fun h => h⟩

/-- One more file is removed. -/
theorem Removes.file {s t u : FileTree ν} {paths : List (List ν)} {path : List ν}
    (h : Removes s t paths) (hu : u.nodes = t.nodes.erase path) :
    Removes s u (paths ++ [path]) := by
  constructor
  · intro q hq
    rw [hu]
    rcases List.mem_append.mp hq with hq | hq
    · by_contra hsome
      obtain ⟨node, hnode⟩ := Option.ne_none_iff_exists'.mp hsome
      have hold := (Table.lookup_erase_eq_some.mp hnode).2
      rw [h.gone hq] at hold
      cases hold
    · rw [List.mem_singleton.mp hq]
      exact AList.lookup_erase ..
  · intro q node hlookup hq hdir
    rw [hu]
    simp only [List.mem_append, List.mem_singleton, not_or] at hq
    exact Table.lookup_erase_eq_some.mpr ⟨hq.2, h.kept hlookup hq.1 hdir⟩
  · intro q node hlookup
    rw [hu] at hlookup
    exact h.old (Table.lookup_erase_eq_some.mp hlookup).2

/-- A directory is removed. -/
theorem Removes.dir {s t u : FileTree ν} {paths : List (List ν)} {path : List ν}
    (h : Removes s t paths) (hdir : t.nodes.lookup path = some .dir)
    (hu : u.nodes = t.nodes.erase path) : Removes s u paths := by
  constructor
  · intro q hq
    rw [hu]
    by_contra hsome
    obtain ⟨node, hnode⟩ := Option.ne_none_iff_exists'.mp hsome
    have hold := (Table.lookup_erase_eq_some.mp hnode).2
    rw [h.gone hq] at hold
    cases hold
  · intro q node hlookup hq hnode
    rw [hu]
    refine Table.lookup_erase_eq_some.mpr ⟨?_, h.kept hlookup hq hnode⟩
    rintro rfl
    have hsame := (h.old hdir).symm.trans hlookup
    exact hnode (Option.some.inj hsame).symm
  · intro q node hlookup
    rw [hu] at hlookup
    exact h.old (Table.lookup_erase_eq_some.mp hlookup).2

end FileTree
