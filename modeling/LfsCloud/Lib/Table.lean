import Mathlib.Data.List.AList
import Mathlib.Algebra.Order.BigOperators.Group.List
import Mathlib.Tactic

/-!
# Finite tables

A table is a finite map listed without duplicate keys. Besides the operations
of `AList`, the accounting arguments need two more: dropping the entries that
fail a test, and adding up a weight over all entries. Every change of a table
changes its total by the weights of the entries it touches, and nothing else.
-/

universe u v

/-- A finite map from `κ` to `ν`, listed without duplicate keys. -/
abbrev Table (κ : Type u) (ν : Type v) := AList (fun _ : κ => ν)

namespace Table

variable {κ : Type u} {ν : Type v}

/-- Keep the entries that pass the test. -/
def filter (p : κ → ν → Bool) (t : Table κ ν) : Table κ ν :=
  ⟨t.entries.filter (fun e => p e.1 e.2), t.nodupKeys.sublist List.filter_sublist⟩

/-- Change every value, and keep the keys. -/
def mapValues (f : ν → ν) (t : Table κ ν) : Table κ ν :=
  ⟨t.entries.map (fun e => ⟨e.1, f e.2⟩), by
    have hkeys : (t.entries.map (fun e : Sigma fun _ : κ => ν => (⟨e.1, f e.2⟩ :
        Sigma fun _ : κ => ν))).keys = t.entries.keys := by
      simp [List.keys, Function.comp_def]
    have hnodup : t.entries.keys.Nodup := t.nodupKeys
    rwa [← hkeys] at hnodup⟩

/-- The sum of a weight over all entries. -/
def total (f : ν → ℕ) (t : Table κ ν) : ℕ := (t.entries.map (fun e => f e.2)).sum

/-- The number of entries whose value passes the test. -/
def count (p : ν → Bool) (t : Table κ ν) : ℕ := t.total (fun v => if p v then 1 else 0)

@[simp] theorem total_empty (f : ν → ℕ) : total f (∅ : Table κ ν) = 0 := rfl

@[simp] theorem count_empty (p : ν → Bool) : count p (∅ : Table κ ν) = 0 := rfl

variable [DecidableEq κ]

/-- A lookup in a filtered table is a lookup whose result passes the test. -/
theorem lookup_filter (p : κ → ν → Bool) (t : Table κ ν) (k : κ) :
    (t.filter p).lookup k = (t.lookup k).filter (p k) := by
  ext v
  rw [← Option.mem_def, AList.mem_lookup_iff]
  simp only [filter, List.mem_filter, ← AList.mem_lookup_iff, Option.mem_def,
    Option.filter_eq_some_iff]

theorem lookup_filter_eq_some {p : κ → ν → Bool} {t : Table κ ν} {k : κ} {v : ν} :
    (t.filter p).lookup k = some v ↔ t.lookup k = some v ∧ p k v = true := by
  rw [lookup_filter, Option.filter_eq_some_iff]

/-- A lookup after a change of the values is the changed result of the lookup. -/
@[simp] theorem lookup_mapValues (f : ν → ν) (t : Table κ ν) (k : κ) :
    (t.mapValues f).lookup k = (t.lookup k).map f := by
  ext v
  rw [← Option.mem_def, AList.mem_lookup_iff, Option.map_eq_some_iff]
  constructor
  · intro h
    obtain ⟨⟨k', w⟩, hmem, hentry⟩ := List.mem_map.mp h
    simp only [Sigma.mk.injEq] at hentry
    obtain ⟨rfl, rfl⟩ := hentry
    exact ⟨w, AList.mem_lookup_iff.mpr hmem, rfl⟩
  · rintro ⟨w, hw, rfl⟩
    exact List.mem_map.mpr ⟨⟨k, w⟩, AList.mem_lookup_iff.mp hw, rfl⟩

/-- Where an entry of an updated table comes from. -/
theorem lookup_insert_eq_some {t : Table κ ν} {k j : κ} {v w : ν} :
    (t.insert k w).lookup j = some v ↔ (j = k ∧ w = v) ∨ (j ≠ k ∧ t.lookup j = some v) := by
  by_cases h : j = k
  · subst h
    simp [AList.lookup_insert]
  · simp [AList.lookup_insert_ne h, h]

/-- Where an entry of a table with one key removed comes from. -/
theorem lookup_erase_eq_some {t : Table κ ν} {k j : κ} {v : ν} :
    (t.erase k).lookup j = some v ↔ j ≠ k ∧ t.lookup j = some v := by
  by_cases h : j = k
  · subst h
    simp [AList.lookup_erase]
  · simp [AList.lookup_erase_ne h, h]

theorem mem_keys_iff {t : Table κ ν} {k : κ} : k ∈ t.keys ↔ (t.lookup k).isSome := by
  rw [← AList.mem_keys, AList.lookup_isSome]

/-- A table with no other keys is not longer. -/
theorem length_le_of_keys {ω : Type v} {t : Table κ ν} {u : Table κ ω}
    (h : ∀ k, (t.lookup k).isSome → (u.lookup k).isSome) :
    t.entries.length ≤ u.entries.length := by
  have hsub : t.keys ⊆ u.keys := fun k hk => mem_keys_iff.mpr (h k (mem_keys_iff.mp hk))
  have hle := (t.keys_nodup.subperm hsub).length_le
  simpa [AList.keys, List.keys] using hle

/-- A new key makes a table longer by one. -/
theorem length_insert {t : Table κ ν} {k : κ} {v : ν} (h : t.lookup k = none) :
    (t.insert k v).entries.length = t.entries.length + 1 := by
  rw [AList.entries_insert_of_notMem (AList.lookup_eq_none.mp h), List.length_cons]

/-- Taking an entry out of the list exposes it at the head, up to order. -/
theorem entries_perm_cons_erase {t : Table κ ν} {k : κ} {v : ν} (h : t.lookup k = some v) :
    t.entries.Perm (⟨k, v⟩ :: (t.erase k).entries) := by
  have hmem : (⟨k, v⟩ : Sigma fun _ : κ => ν) ∈ t.entries := AList.mem_lookup_iff.mp h
  obtain ⟨w, l₁, l₂, hnot, hsplit, herase⟩ :=
    List.exists_of_kerase (List.mem_keys_of_mem hmem)
  have hw : w = v := by
    have hw' : (⟨k, w⟩ : Sigma fun _ : κ => ν) ∈ t.entries := by rw [hsplit]; simp
    exact t.nodupKeys.eq_of_mk_mem hw' hmem
  subst hw
  have hrest : (t.erase k).entries = l₁ ++ l₂ := herase
  rw [hrest, hsplit]
  exact List.perm_middle

/-- Removing an entry removes exactly its weight. -/
theorem total_erase {t : Table κ ν} {k : κ} {v : ν} (f : ν → ℕ) (h : t.lookup k = some v) :
    total f (t.erase k) + f v = total f t := by
  have hperm := ((entries_perm_cons_erase h).map (fun e => f e.2)).sum_eq
  simp only [List.map_cons, List.sum_cons] at hperm
  unfold total
  omega

/-- A new entry adds exactly its weight. -/
theorem total_insert_of_notMem {t : Table κ ν} {k : κ} (f : ν → ℕ) (v : ν)
    (h : t.lookup k = none) : total f (t.insert k v) = total f t + f v := by
  have hnot : k ∉ t := AList.lookup_eq_none.mp h
  unfold total
  rw [AList.entries_insert_of_notMem hnot, List.map_cons, List.sum_cons, Nat.add_comm]

/-- Replacing an entry exchanges its weight for the new one. -/
theorem total_insert_of_lookup {t : Table κ ν} {k : κ} {v : ν} (f : ν → ℕ) (w : ν)
    (h : t.lookup k = some v) : total f (t.insert k w) + f v = total f t + f w := by
  have herase := total_erase f h
  have hinsert : total f (t.insert k w) = f w + total f (t.erase k) := by
    unfold total
    rw [AList.entries_insert]
    rfl
  omega

/-- Replacing an entry by one of the same weight changes no total. -/
theorem total_insert_eq {t : Table κ ν} {k : κ} {v w : ν} {f : ν → ℕ}
    (h : t.lookup k = some v) (hf : f w = f v) : total f (t.insert k w) = total f t := by
  have := total_insert_of_lookup f w h
  omega

/-- Every listed entry is covered by the total. -/
theorem le_total {t : Table κ ν} {k : κ} {v : ν} (f : ν → ℕ) (h : t.lookup k = some v) :
    f v ≤ total f t := by
  have := total_erase f h
  omega

theorem total_le_total {f g : ν → ℕ} {t : Table κ ν}
    (h : ∀ k v, t.lookup k = some v → f v ≤ g v) : total f t ≤ total g t := by
  refine List.sum_le_sum fun e he => ?_
  exact h e.1 e.2 (AList.mem_lookup_iff.mpr he)

theorem total_congr {f g : ν → ℕ} {t : Table κ ν}
    (h : ∀ k v, t.lookup k = some v → f v = g v) : total f t = total g t :=
  le_antisymm (total_le_total fun k v hv => (h k v hv).le)
    (total_le_total fun k v hv => (h k v hv).ge)

/-- A table with a positive total has an entry of positive weight. -/
theorem exists_of_total_pos {f : ν → ℕ} {t : Table κ ν} (h : 0 < total f t) :
    ∃ k v, t.lookup k = some v ∧ 0 < f v := by
  by_contra hnone
  push Not at hnone
  have hzero : total f t = total (fun _ => 0) t :=
    total_congr fun k v hv => Nat.le_zero.mp (hnone k v hv)
  have : total (fun _ : ν => 0) t = 0 := by simp [total]
  omega

/-- Some entry passes a test exactly when the count of the test is positive. -/
theorem count_pos_iff {p : ν → Bool} {t : Table κ ν} :
    0 < count p t ↔ ∃ k v, t.lookup k = some v ∧ p v = true := by
  constructor
  · intro h
    obtain ⟨k, v, hlookup, hpos⟩ := exists_of_total_pos h
    refine ⟨k, v, hlookup, ?_⟩
    by_contra hfalse
    simp [hfalse] at hpos
  · rintro ⟨k, v, hlookup, hp⟩
    have := le_total (fun v => if p v then 1 else 0) hlookup
    simp only [hp, if_true] at this
    exact this

theorem count_insert_eq {t : Table κ ν} {k : κ} {v w : ν} {p : ν → Bool}
    (h : t.lookup k = some v) (hp : p w = p v) : count p (t.insert k w) = count p t :=
  total_insert_eq h (by rw [hp])

theorem count_insert_of_notMem {t : Table κ ν} {k : κ} (p : ν → Bool) (v : ν)
    (h : t.lookup k = none) :
    count p (t.insert k v) = count p t + if p v then 1 else 0 :=
  total_insert_of_notMem _ v h

theorem count_erase {t : Table κ ν} {k : κ} {v : ν} (p : ν → Bool) (h : t.lookup k = some v) :
    (count p (t.erase k) + if p v then 1 else 0) = count p t :=
  total_erase (fun v => if p v then 1 else 0) h

/-- Two entries that pass a test. -/
theorem two_le_count {t : Table κ ν} {j k : κ} {v w : ν} {p : ν → Bool}
    (hne : j ≠ k) (hv : t.lookup j = some v) (hw : t.lookup k = some w) (hpv : p v = true)
    (hpw : p w = true) : 2 ≤ count p t := by
  have herase := count_erase p hv
  have hrest : 0 < count p (t.erase j) :=
    count_pos_iff.mpr ⟨k, w, lookup_erase_eq_some.mpr ⟨hne.symm, hw⟩, hpw⟩
  rw [if_pos hpv] at herase
  omega

/-- An implied test counts at least as many entries. -/
theorem count_le_count {p q : ν → Bool} {t : Table κ ν}
    (h : ∀ k v, t.lookup k = some v → p v = true → q v = true) : count p t ≤ count q t := by
  refine total_le_total fun k v hv => ?_
  by_cases hp : p v = true
  · simp [hp, h k v hv hp]
  · simp [hp]

omit [DecidableEq κ] in
/-- The number of entries that pass a test is the length of the rest of the table. -/
theorem length_filter (p : ν → Bool) (t : Table κ ν) :
    (t.filter fun _ v => p v).entries.length = count p t := by
  have hlist : ∀ l : List (Sigma fun _ : κ => ν), (l.filter fun e => p e.2).length =
      (l.map fun e => if p e.2 then 1 else 0).sum := by
    intro l
    induction l with
    | nil => rfl
    | cons e l ih =>
      by_cases hp : p e.2 = true
      · simp [hp, ih]
        omega
      · simp [hp, ih]
  exact hlist t.entries

/-- A table with no other entries counts no more. -/
theorem count_le_of_lookup {t u : Table κ ν} {p : ν → Bool}
    (h : ∀ {k v}, t.lookup k = some v → u.lookup k = some v) : count p t ≤ count p u := by
  rw [← length_filter, ← length_filter]
  apply length_le_of_keys
  intro k hk
  obtain ⟨v, hv⟩ := Option.isSome_iff_exists.mp hk
  obtain ⟨hlookup, hp⟩ := lookup_filter_eq_some.mp hv
  rw [lookup_filter_eq_some.mpr ⟨h hlookup, hp⟩]
  rfl

end Table
