import Mathlib.Data.List.Sort
import Mathlib.Tactic

/-!
# Maps in the order of their keys

A finite map that is read in the order of its keys is the list of its entries, in strictly
increasing order. Two such maps with the same entries are equal.
-/

universe u v w

/-- A finite map, as its entries in the order of their keys. -/
@[ext] structure SortedMap (κ : Type u) (ν : Type v) [LinearOrder κ] where
  entries : List (κ × ν)
  /-- The keys are strictly increasing. -/
  sorted : (entries.map Prod.fst).Pairwise (· < ·)

namespace SortedMap

variable {κ : Type u} {ν : Type v} [LinearOrder κ]

instance [DecidableEq ν] : DecidableEq (SortedMap κ ν) := fun s t =>
  decidable_of_iff (s.entries = t.entries) SortedMap.ext_iff.symm

/-- The map without entries. -/
def empty : SortedMap κ ν := ⟨[], List.Pairwise.nil⟩

/-- Put an entry into its place, over the one that is there. -/
def insertEntry (k : κ) (v : ν) : List (κ × ν) → List (κ × ν)
  | [] => [(k, v)]
  | (j, w) :: rest =>
    if k < j then (k, v) :: (j, w) :: rest
    else if k = j then (k, v) :: rest
    else (j, w) :: insertEntry k v rest

/-- The keys after an insertion. -/
theorem mem_keys_insertEntry {k j : κ} {v : ν} {entries : List (κ × ν)} :
    j ∈ (insertEntry k v entries).map Prod.fst ↔ j = k ∨ j ∈ entries.map Prod.fst := by
  induction entries with
  | nil => simp [insertEntry]
  | cons entry rest ih =>
    obtain ⟨i, w⟩ := entry
    rw [insertEntry]
    split
    next => simp
    next =>
      split
      next heq => simp [heq]
      next => simp only [List.map_cons, List.mem_cons, ih]; tauto

theorem sorted_insertEntry {k : κ} {v : ν} {entries : List (κ × ν)}
    (hsorted : (entries.map Prod.fst).Pairwise (· < ·)) :
    ((insertEntry k v entries).map Prod.fst).Pairwise (· < ·) := by
  induction entries with
  | nil => simp [insertEntry]
  | cons entry rest ih =>
    obtain ⟨j, w⟩ := entry
    rw [List.map_cons, List.pairwise_cons] at hsorted
    obtain ⟨hfirst, hrest⟩ := hsorted
    rw [insertEntry]
    split
    next hlt =>
      rw [List.map_cons, List.map_cons, List.pairwise_cons, List.pairwise_cons]
      refine ⟨fun i hi => ?_, hfirst, hrest⟩
      rcases List.mem_cons.mp hi with rfl | hi
      · exact hlt
      · exact hlt.trans (hfirst i hi)
    next hnlt =>
      split
      next heq =>
        rw [List.map_cons, List.pairwise_cons]
        exact ⟨fun i hi => heq ▸ hfirst i hi, hrest⟩
      next hne =>
        have hlt : j < k := lt_of_le_of_ne (not_lt.mp hnlt) (Ne.symm hne)
        rw [List.map_cons, List.pairwise_cons]
        refine ⟨fun i hi => ?_, ih hrest⟩
        rcases mem_keys_insertEntry.mp hi with rfl | hi
        · exact hlt
        · exact hfirst i hi

/-- `BTreeMap::insert`. -/
def insert (m : SortedMap κ ν) (k : κ) (v : ν) : SortedMap κ ν :=
  ⟨insertEntry k v m.entries, sorted_insertEntry m.sorted⟩

/-- The keys in their order. -/
def keys (m : SortedMap κ ν) : List κ := m.entries.map Prod.fst

/-- The value at a key. -/
def lookup (m : SortedMap κ ν) (k : κ) : Option ν :=
  (m.entries.find? fun entry => entry.1 = k).map Prod.snd

/-- Entries with the same key are the same. -/
theorem eq_of_key_eq {m : SortedMap κ ν} {a b : κ × ν} (ha : a ∈ m.entries)
    (hb : b ∈ m.entries) (hkey : a.1 = b.1) : a = b := by
  have hnodup : (m.entries.map Prod.fst).Nodup := m.sorted.imp fun h => h.ne
  exact List.inj_on_of_nodup_map hnodup ha hb hkey

/-- The entries after an insertion. -/
theorem mem_insert {m : SortedMap κ ν} {k : κ} {v : ν} {entry : κ × ν} :
    entry ∈ (m.insert k v).entries ↔ entry = (k, v) ∨ entry ∈ m.entries ∧ entry.1 ≠ k := by
  obtain ⟨entries, hsorted⟩ := m
  change entry ∈ insertEntry k v entries ↔ _
  induction entries with
  | nil => simp [insertEntry]
  | cons first rest ih =>
    obtain ⟨j, w⟩ := first
    rw [List.map_cons, List.pairwise_cons] at hsorted
    obtain ⟨hfirst, hrest⟩ := hsorted
    have hlater : ∀ e ∈ rest, j < e.1 := fun e he => hfirst e.1 (List.mem_map_of_mem he)
    rw [insertEntry]
    split
    next hlt =>
      have hne : ∀ e ∈ (j, w) :: rest, e.1 ≠ k := by
        intro e he
        rcases List.mem_cons.mp he with rfl | he
        · exact hlt.ne'
        · exact (hlt.trans (hlater e he)).ne'
      rw [List.mem_cons]
      constructor
      · exact Or.imp_right fun he => ⟨he, hne entry he⟩
      · exact Or.imp_right And.left
    next hnlt =>
      split
      next heq =>
        subst heq
        rw [List.mem_cons, List.mem_cons]
        constructor
        · exact Or.imp_right fun he => ⟨Or.inr he, (hlater entry he).ne'⟩
        · rintro (he | ⟨rfl | he, hne⟩)
          · exact Or.inl he
          · exact absurd rfl hne
          · exact Or.inr he
      next hne =>
        rw [List.mem_cons, List.mem_cons, ih hrest]
        constructor
        · rintro (rfl | he | ⟨he, hkey⟩)
          · exact Or.inr ⟨Or.inl rfl, fun h => hne h.symm⟩
          · exact Or.inl he
          · exact Or.inr ⟨Or.inr he, hkey⟩
        · rintro (he | ⟨rfl | he, hkey⟩)
          · exact Or.inr (Or.inl he)
          · exact Or.inl rfl
          · exact Or.inr (Or.inr ⟨he, hkey⟩)

/-- An entry with the greatest key comes last. -/
theorem insertEntry_of_lt {k : κ} {v : ν} {entries : List (κ × ν)}
    (hlt : ∀ entry ∈ entries, entry.1 < k) : insertEntry k v entries = entries ++ [(k, v)] := by
  induction entries with
  | nil => rfl
  | cons entry rest ih =>
    obtain ⟨j, w⟩ := entry
    have hj : j < k := hlt _ List.mem_cons_self
    rw [insertEntry, if_neg hj.not_gt, if_neg hj.ne', ih fun e he => hlt e (by simp [he])]
    rfl

theorem lookup_eq_some {m : SortedMap κ ν} {k : κ} {v : ν} :
    m.lookup k = some v ↔ (k, v) ∈ m.entries := by
  unfold lookup
  constructor
  · intro h
    obtain ⟨entry, hfind, rfl⟩ := Option.map_eq_some_iff.mp h
    have hkey : entry.1 = k := by simpa using List.find?_some hfind
    rw [← hkey]
    exact List.mem_of_find?_eq_some hfind
  · intro hmem
    cases hfind : m.entries.find? fun entry => entry.1 = k with
    | none =>
      have hnone := List.find?_eq_none.mp hfind (k, v) hmem
      simp at hnone
    | some entry =>
      have hkey : entry.1 = k := by simpa using List.find?_some hfind
      have heq := eq_of_key_eq (List.mem_of_find?_eq_some hfind) hmem hkey
      rw [heq]
      rfl

/-- A key that is inserted has its value, and other keys keep theirs. -/
theorem lookup_insert {m : SortedMap κ ν} {k j : κ} {v : ν} :
    (m.insert k v).lookup j = if j = k then some v else m.lookup j := by
  apply Option.ext
  intro w
  rw [lookup_eq_some, mem_insert]
  split
  next heq => simp [heq, eq_comm]
  next hne => simp [hne, lookup_eq_some]

/-- The same keys with other values. -/
def mapValues {ω : Type w} (f : ν → ω) (m : SortedMap κ ν) : SortedMap κ ω :=
  ⟨m.entries.map fun entry => (entry.1, f entry.2), by
    rw [List.map_map]
    exact m.sorted⟩

/-- The keys after an insertion. -/
theorem mem_keys_insert {m : SortedMap κ ν} {k j : κ} {v : ν} :
    j ∈ (m.insert k v).keys ↔ j = k ∨ j ∈ m.keys :=
  mem_keys_insertEntry

end SortedMap
