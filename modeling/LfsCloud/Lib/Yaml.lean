import Mathlib.Data.List.Infix

/-!
# Document trees

Trees of scalars, sequences and mappings. A mapping keeps its entries in an order: writing to a key
moves the entry of the key to the back. A path leads from a tree to one of its nodes, and what is
found there does not depend on the order.
-/

/-- A document tree. -/
inductive Yaml
  | real (text : String)
  | integer (n : ℤ)
  | string (s : String)
  | boolean (b : Bool)
  | array (items : List Yaml)
  | hash (entries : List (Yaml × Yaml))
  | null
  | badValue

namespace Yaml

mutual

/-- Equality of trees, with the order of mappings. -/
def beq : Yaml → Yaml → Bool
  | .real a, .real b => a == b
  | .integer a, .integer b => a == b
  | .string a, .string b => a == b
  | .boolean a, .boolean b => a == b
  | .array a, .array b => beqItems a b
  | .hash a, .hash b => beqEntries a b
  | .null, .null => true
  | .badValue, .badValue => true
  | _, _ => false

/-- Equality of sequences. -/
def beqItems : List Yaml → List Yaml → Bool
  | [], [] => true
  | a :: as, b :: bs => beq a b && beqItems as bs
  | _, _ => false

/-- Equality of mappings. -/
def beqEntries : List (Yaml × Yaml) → List (Yaml × Yaml) → Bool
  | [], [] => true
  | (k, a) :: as, (l, b) :: bs => beq k l && beq a b && beqEntries as bs
  | _, _ => false

end

mutual

theorem eq_of_beq : ∀ {a b : Yaml}, beq a b = true → a = b
  | .real a, b, h => by
    cases b <;> simp_all [beq]
  | .integer a, b, h => by
    cases b <;> simp_all [beq]
  | .string a, b, h => by
    cases b <;> simp_all [beq]
  | .boolean a, b, h => by
    cases b <;> simp_all [beq]
  | .array a, b, h => by
    cases b with
    | array b =>
      simp only [beq] at h
      rw [eq_of_beqItems h]
    | _ => simp [beq] at h
  | .hash a, b, h => by
    cases b with
    | hash b =>
      simp only [beq] at h
      rw [eq_of_beqEntries h]
    | _ => simp [beq] at h
  | .null, b, h => by
    cases b <;> simp_all [beq]
  | .badValue, b, h => by
    cases b <;> simp_all [beq]

theorem eq_of_beqItems : ∀ {a b : List Yaml}, beqItems a b = true → a = b
  | [], [], _ => rfl
  | [], _ :: _, h => by simp [beqItems] at h
  | _ :: _, [], h => by simp [beqItems] at h
  | a :: as, b :: bs, h => by
    simp only [beqItems, Bool.and_eq_true] at h
    rw [eq_of_beq h.1, eq_of_beqItems h.2]

theorem eq_of_beqEntries : ∀ {a b : List (Yaml × Yaml)}, beqEntries a b = true → a = b
  | [], [], _ => rfl
  | [], _ :: _, h => by simp [beqEntries] at h
  | _ :: _, [], h => by simp [beqEntries] at h
  | (k, a) :: as, (l, b) :: bs, h => by
    simp only [beqEntries, Bool.and_eq_true] at h
    rw [eq_of_beq h.1.1, eq_of_beq h.1.2, eq_of_beqEntries h.2]

end

mutual

theorem beq_self : ∀ a : Yaml, beq a a = true
  | .real a => by simp [beq]
  | .integer a => by simp [beq]
  | .string a => by simp [beq]
  | .boolean a => by simp [beq]
  | .array a => by simp only [beq, beqItems_self a]
  | .hash a => by simp only [beq, beqEntries_self a]
  | .null => by simp [beq]
  | .badValue => by simp [beq]

theorem beqItems_self : ∀ a : List Yaml, beqItems a a = true
  | [] => by simp [beqItems]
  | a :: as => by simp [beqItems, beq_self a, beqItems_self as]

theorem beqEntries_self : ∀ a : List (Yaml × Yaml), beqEntries a a = true
  | [] => by simp [beqEntries]
  | (k, a) :: as => by simp [beqEntries, beq_self k, beq_self a, beqEntries_self as]

end

instance : DecidableEq Yaml := fun a b =>
  decidable_of_iff (beq a b = true) ⟨eq_of_beq, fun h => h ▸ beq_self a⟩

/-- The entries of a mapping, in their order. -/
abbrev Entries := List (Yaml × Yaml)

/-- `get`. -/
def Entries.get (entries : Entries) (key : Yaml) : Option Yaml :=
  (entries.find? fun entry => entry.1 = key).map Prod.snd

/-- `remove`. -/
def Entries.remove (entries : Entries) (key : Yaml) : Entries :=
  entries.filter fun entry => entry.1 ≠ key

/-- `insert`: the entry of the key comes to stand at the back. -/
def Entries.insert (entries : Entries) (key value : Yaml) : Entries :=
  entries.remove key ++ [(key, value)]

/-- A write through `get_mut`: the entry of the key stays where it is. -/
def Entries.replace (entries : Entries) (key value : Yaml) : Entries :=
  entries.map fun entry => if entry.1 = key then (key, value) else entry

section Entries

variable {entries : Entries} {key key' value : Yaml}

theorem Entries.get_cons {entry : Yaml × Yaml} :
    Entries.get (entry :: entries) key =
      if entry.1 = key then some entry.2 else entries.get key := by
  unfold Entries.get
  rw [List.find?_cons]
  by_cases h : entry.1 = key
  · simp [h]
  · simp [h]

theorem Entries.get_remove_self : (entries.remove key).get key = none := by
  induction entries with
  | nil => rfl
  | cons entry entries ih =>
    unfold Entries.remove at ih ⊢
    rw [List.filter_cons]
    split_ifs with h
    · rw [Entries.get_cons, if_neg (of_decide_eq_true h), ih]
    · exact ih

theorem Entries.get_remove_ne (h : key' ≠ key) :
    (entries.remove key).get key' = entries.get key' := by
  induction entries with
  | nil => rfl
  | cons entry entries ih =>
    unfold Entries.remove at ih ⊢
    rw [List.filter_cons, Entries.get_cons]
    split_ifs with hkept hkey hkey
    · rw [Entries.get_cons, if_pos hkey]
    · rw [Entries.get_cons, if_neg hkey, ih]
    · have hself : entry.1 = key := by simpa using hkept
      exact absurd (hkey.symm.trans hself) h
    · exact ih

theorem Entries.get_append_singleton :
    Entries.get (entries ++ [(key, value)]) key' =
      (entries.get key').or (if key = key' then some value else none) := by
  induction entries with
  | nil =>
    rw [List.nil_append, Entries.get_cons]
    rfl
  | cons entry entries ih =>
    rw [List.cons_append, Entries.get_cons, Entries.get_cons, ih]
    split_ifs <;> simp

@[simp] theorem Entries.get_insert_self : (entries.insert key value).get key = some value := by
  rw [Entries.insert, Entries.get_append_singleton, Entries.get_remove_self, if_pos rfl]
  rfl

theorem Entries.get_insert_ne (h : key' ≠ key) :
    (entries.insert key value).get key' = entries.get key' := by
  rw [Entries.insert, Entries.get_append_singleton, Entries.get_remove_ne h, if_neg h.symm,
    Option.or_none]

theorem Entries.get_replace_self (h : (entries.get key).isSome) :
    (entries.replace key value).get key = some value := by
  induction entries with
  | nil => simp [Entries.get] at h
  | cons entry entries ih =>
    unfold Entries.replace at ih ⊢
    rw [List.map_cons, Entries.get_cons]
    by_cases hkey : entry.1 = key
    · rw [if_pos hkey, if_pos rfl]
    · rw [Entries.get_cons, if_neg hkey] at h
      rw [if_neg hkey, if_neg hkey, ih h]

theorem Entries.get_replace_ne (h : key' ≠ key) :
    (entries.replace key value).get key' = entries.get key' := by
  induction entries with
  | nil => rfl
  | cons entry entries ih =>
    unfold Entries.replace at ih ⊢
    rw [List.map_cons, Entries.get_cons, Entries.get_cons, ih]
    by_cases hkey : entry.1 = key
    · rw [if_pos hkey, if_neg h.symm, if_neg fun heq => h (heq.symm.trans hkey)]
    · rw [if_neg hkey]

/-- A key is the last one of a mapping. -/
def Entries.EndsWith (entries : Entries) (key : Yaml) : Prop :=
  ∃ rest value, entries = rest ++ [(key, value)] ∧ Entries.get rest key = none

theorem Entries.remove_of_get_eq_none (h : entries.get key = none) :
    entries.remove key = entries := by
  induction entries with
  | nil => rfl
  | cons entry entries ih =>
    rw [Entries.get_cons] at h
    split_ifs at h with hkey
    unfold Entries.remove at ih ⊢
    rw [List.filter_cons, if_pos (decide_eq_true hkey), ih h]

/-- The last key is written again with its value. -/
theorem Entries.insert_of_endsWith (hends : entries.EndsWith key)
    (h : entries.get key = some value) : entries.insert key value = entries := by
  obtain ⟨rest, last, rfl, hnone⟩ := hends
  have hlast : last = value := by
    rw [Entries.get_append_singleton, hnone, if_pos rfl] at h
    exact Option.some.inj h
  have hremove : Entries.remove (rest ++ [(key, last)]) key = rest := by
    have hrest := Entries.remove_of_get_eq_none hnone
    unfold Entries.remove at hrest ⊢
    rw [List.filter_append, hrest, List.filter_singleton]
    simp
  rw [Entries.insert, hremove, hlast]

end Entries

/-- A step down a tree. -/
inductive Step
  | key (key : Yaml)
  | index (i : ℕ)
  deriving DecidableEq

/-- What is at a node. -/
inductive Leaf
  | mapping
  | sequence
  | scalar (value : Yaml)

/-- What is at the root of a tree. -/
def leaf : Yaml → Leaf
  | .hash _ => .mapping
  | .array _ => .sequence
  | value => .scalar value

/-- The tree below a step. -/
def child : Yaml → Step → Option Yaml
  | .hash entries, .key key => Entries.get entries key
  | .array items, .index i => items[i]?
  | _, _ => none

/-- What a path leads to. -/
def valueAt : Yaml → List Step → Option Leaf
  | document, [] => some document.leaf
  | document, step :: path => (document.child step).bind fun below => below.valueAt path

section Paths

variable {entries : Entries} {key value : Yaml} {path : List Step}

@[simp] theorem valueAt_nil {document : Yaml} : document.valueAt [] = some document.leaf := rfl

theorem valueAt_cons {document : Yaml} {step : Step} :
    document.valueAt (step :: path) =
      (document.child step).bind fun below => below.valueAt path := rfl

/-- What a path leads to is the same in two trees, but where they may differ. -/
def SameBut (Touched : List Step → Prop) (before after : Yaml) : Prop :=
  ∀ path, Touched path ∨ after.valueAt path = before.valueAt path

theorem SameBut.refl {Touched : List Step → Prop} (document : Yaml) :
    SameBut Touched document document := fun _ => .inr rfl

theorem SameBut.mono {Touched Touched' : List Step → Prop} {before after : Yaml}
    (h : SameBut Touched before after) (hmono : ∀ path, Touched path → Touched' path) :
    SameBut Touched' before after :=
  fun path => (h path).imp_left (hmono path)

theorem SameBut.trans {Touched : List Step → Prop} {before middle after : Yaml}
    (h : SameBut Touched before middle) (h' : SameBut Touched middle after) :
    SameBut Touched before after := by
  intro path
  rcases h path with htouched | hsame
  · exact .inl htouched
  · exact (h' path).imp_right fun hsame' => hsame'.trans hsame

/-- One child changes: what is below it may change, and so does the child if it was not there. -/
theorem sameBut_child {Touched : List Step → Prop} {before after empty : Yaml} {step : Step}
    (hleaf : after.leaf = before.leaf) (hself : after.child step = some value)
    (hne : ∀ step', step' ≠ step → after.child step' = before.child step')
    (hempty : ∀ step path, empty.valueAt (step :: path) = none)
    (h : SameBut Touched ((before.child step).getD empty) value) :
    SameBut (fun path => ∃ rest, path = step :: rest ∧
      (Touched rest ∨ rest = [] ∧ before.child step = none)) before after := by
  intro path
  cases path with
  | nil => exact .inr (congrArg some hleaf)
  | cons other path =>
    by_cases hstep : other = step
    · subst hstep
      rw [valueAt_cons, valueAt_cons, hself]
      cases hget : before.child other with
      | some old =>
        rw [hget] at h
        rcases h path with htouched | hsame
        · exact .inl ⟨path, rfl, .inl htouched⟩
        · exact .inr hsame
      | none =>
        rw [hget] at h
        cases path with
        | nil => exact .inl ⟨[], rfl, .inr ⟨rfl, rfl⟩⟩
        | cons next path =>
          rcases h (next :: path) with htouched | hsame
          · exact .inl ⟨_, rfl, .inl htouched⟩
          · exact .inr (hsame.trans (hempty next path))
    · right
      rw [valueAt_cons, valueAt_cons, hne other hstep]

/-- A path begins with a field, or is a container that is not there yet. -/
def Touched (document : Yaml) (containers fields : List (List Step)) (path : List Step) : Prop :=
  (path ∈ containers ∧ document.valueAt path = none) ∨ ∃ field ∈ fields, field <+: path

theorem Touched.mono {document : Yaml} {containers containers' fields fields' : List (List Step)}
    (hcontainers : containers ⊆ containers') (hfields : fields ⊆ fields')
    (h : Touched document containers fields path) : Touched document containers' fields' path := by
  rcases h with ⟨hmem, hnone⟩ | ⟨field, hmem, hstart⟩
  · exact .inl ⟨hcontainers hmem, hnone⟩
  · exact .inr ⟨field, hfields hmem, hstart⟩

/-- What changes below a child that changes. -/
theorem sameBut_below {containers fields : List (List Step)} {before after empty : Yaml}
    {step : Step} (hleaf : after.leaf = before.leaf) (hself : after.child step = some value)
    (hne : ∀ step', step' ≠ step → after.child step' = before.child step')
    (hempty : ∀ step path, empty.valueAt (step :: path) = none)
    (h : SameBut (Touched ((before.child step).getD empty) containers fields)
      ((before.child step).getD empty) value) :
    SameBut (Touched before ([step] :: containers.map (step :: ·)) (fields.map (step :: ·)))
      before after := by
  apply (sameBut_child hleaf hself hne hempty h).mono
  rintro path ⟨rest, rfl, hrest⟩
  rcases hrest with (⟨hmem, hnone⟩ | ⟨field, hmem, hstart⟩) | ⟨rfl, hnone⟩
  · left
    refine ⟨List.mem_cons_of_mem _ (List.mem_map_of_mem hmem), ?_⟩
    rw [valueAt_cons]
    cases hget : before.child step with
    | none => rfl
    | some old =>
      rw [hget] at hnone
      exact hnone
  · exact .inr ⟨_, List.mem_map_of_mem hmem, List.cons_prefix_cons.mpr ⟨rfl, hstart⟩⟩
  · left
    refine ⟨List.mem_cons_self, ?_⟩
    rw [valueAt_cons, hnone]
    rfl

/-- One child changes as a whole. -/
theorem sameBut_of_child {before after : Yaml} {step : Step} (hleaf : after.leaf = before.leaf)
    (hne : ∀ step', step' ≠ step → after.child step' = before.child step') :
    SameBut (Touched before [] [[step]]) before after := by
  intro path
  cases path with
  | nil => exact .inr (congrArg some hleaf)
  | cons other path =>
    by_cases hstep : other = step
    · subst hstep
      exact .inl (.inr ⟨_, List.mem_singleton_self _,
        List.cons_prefix_cons.mpr ⟨rfl, List.nil_prefix⟩⟩)
    · right
      rw [valueAt_cons, valueAt_cons, hne other hstep]

/-- The children of a mapping, where one key changes. -/
theorem child_hash_ne {entries' : Entries}
    (hne : ∀ key', key' ≠ key → entries'.get key' = entries.get key') (step : Step)
    (hstep : step ≠ .key key) :
    (Yaml.hash entries').child step = (Yaml.hash entries).child step := by
  cases step with
  | key k => exact hne k fun h => hstep (h ▸ rfl)
  | index i => rfl

/-- The children of a sequence, where one item changes. -/
theorem child_array_ne {items items' : List Yaml} {i : ℕ}
    (hne : ∀ j, j ≠ i → items'[j]? = items[j]?) (step : Step) (hstep : step ≠ .index i) :
    (Yaml.array items').child step = (Yaml.array items).child step := by
  cases step with
  | key k => rfl
  | index j => exact hne j fun h => hstep (h ▸ rfl)

/-- A key is written. -/
theorem sameBut_insert :
    SameBut (Touched (.hash entries) [] [[.key key]]) (.hash entries)
      (.hash (entries.insert key value)) :=
  sameBut_of_child rfl (child_hash_ne fun _ hne => Entries.get_insert_ne hne)

/-- A key is removed. -/
theorem sameBut_remove :
    SameBut (Touched (.hash entries) [] [[.key key]]) (.hash entries)
      (.hash (entries.remove key)) :=
  sameBut_of_child rfl (child_hash_ne fun _ hne => Entries.get_remove_ne hne)

theorem valueAt_emptyHash (step : Step) (path : List Step) :
    (Yaml.hash []).valueAt (step :: path) = none := by
  cases step with
  | key k => rfl
  | index i => rfl

theorem valueAt_emptyArray (step : Step) (path : List Step) :
    (Yaml.array []).valueAt (step :: path) = none := by
  cases step with
  | key k => rfl
  | index i => rfl

end Paths

end Yaml
