import LfsCloud.LocalCache.Registry

/-!
# Rules for the registry

What loads again, what a change of the registry does to the registrations by their keys, and what
the collector leaves of the registry wherever it stops.
-/

namespace LfsCloud

open Interaction

/-! ### The order of paths -/

theorem OsString.order_injective : Function.Injective OsString.order := by
  intro a b h
  obtain ⟨hrank, htag⟩ := List.cons.inj h
  have hmap : Function.Injective fun l : List UInt8 => l.map (·.toNat) :=
    List.map_injective_iff.mpr fun _ _ h => UInt8.toNat_inj.mp h
  have hbytes : a.toBytes = b.toBytes → a = b := by
    intro hbytes
    cases a with
    | text s =>
      cases b with
      | text s' =>
        have hdata : s.toUTF8 = s'.toUTF8 := ByteArray.ext (Array.toList_inj.mp hbytes)
        rw [String.toByteArray_inj.mp hdata]
      | bytes l => cases htag
    | bytes l =>
      cases b with
      | text s => cases htag
      | bytes l' => rw [show l = l' from hbytes]
  split_ifs at hrank with h1 h2 h3 h4 h5 h6 h7
  · rw [h1, h2]
  · cases hrank
  · cases hrank
  · cases hrank
  · rw [h4, h6]
  · cases hrank
  · cases hrank
  · cases hrank
  · exact hbytes (hmap (List.cons.inj hrank).2)

theorem FilePath.order_injective : Function.Injective FilePath.order := by
  intro a b h
  induction a generalizing b with
  | nil =>
    cases b with
    | nil => rfl
    | cons name rest => cases h
  | cons name rest ih =>
    cases b with
    | nil => cases h
    | cons name' rest' =>
      obtain ⟨hrank, hrest⟩ := List.cons.inj h
      obtain ⟨htag, hrest⟩ := List.cons.inj hrest
      have hname : name = name' := OsString.order_injective (by
        unfold OsString.order
        rw [hrank, htag])
      rw [hname, ih hrest]

variable {encoding : RegistryEncoding} {w w' : Worktrees} {file file' : Option WorktreeRegistryFile}
  {registry : LocalCacheWorktreeRegistry}
  {worktrees before after : List LocalCacheWorktreeRegistration}
  {registration : LocalCacheWorktreeRegistration} {root : FilePath}

/-- The keys of the registrations. -/
def Worktrees.keys (w : Worktrees) (worktrees : List LocalCacheWorktreeRegistration) :
    List FilePath :=
  worktrees.map fun registration => w.pathKey registration.worktreeRoot

/-- One root comes before another one. -/
def Worktrees.Lt (w : Worktrees) (a b : LocalCacheWorktreeRegistration) : Prop :=
  (w.pathKey a.worktreeRoot).order < (w.pathKey b.worktreeRoot).order

theorem Worktrees.Lt.asymm {a b : LocalCacheWorktreeRegistration} (h : w.Lt a b) : ¬w.Lt b a :=
  lt_asymm h

theorem Worktrees.Lt.ne {a b : LocalCacheWorktreeRegistration} (h : w.Lt a b) :
    w.pathKey a.worktreeRoot ≠ w.pathKey b.worktreeRoot := by
  intro heq
  unfold Worktrees.Lt at h
  rw [heq] at h
  exact lt_irrefl _ h

/-! ### Loading -/

theorem decode_registrations (worktrees : List LocalCacheWorktreeRegistration) :
    (worktrees.map (serializeRegistration encoding)).mapM (deserializeRegistration encoding) =
      .ok worktrees := by
  induction worktrees with
  | nil => rfl
  | cons registration rest ih =>
    have hone : deserializeRegistration encoding (serializeRegistration encoding registration) =
        .ok registration := by
      simp [deserializeRegistration, serializeRegistration, serializeWorktreeRegistryPath,
        deserializeWorktreeRegistryPath, decodeWorktreeRegistryPath, encoding.decode_encode,
        Bind.bind, Except.bind, Pure.pure, Except.pure]
    rw [List.map_cons, List.mapM_cons, hone, ih]
    rfl

/-- The loop over the registrations finds an invalid one, or one whose key was seen. -/
theorem checkWorktreeRoots_eq_ok {seen : List FilePath} :
    checkWorktreeRoots encoding w seen worktrees = .ok () ↔
      (∀ registration ∈ worktrees, registration.validate encoding = .ok ()) ∧
        (w.keys worktrees).Nodup ∧ ∀ key ∈ w.keys worktrees, key ∉ seen := by
  induction worktrees generalizing seen with
  | nil => simp [checkWorktreeRoots, Worktrees.keys]
  | cons registration rest ih =>
    have hkeys : w.keys (registration :: rest) =
        w.pathKey registration.worktreeRoot :: w.keys rest := rfl
    unfold checkWorktreeRoots
    rw [hkeys, List.forall_mem_cons, List.forall_mem_cons, List.nodup_cons]
    cases hvalid : registration.validate encoding with
    | error e => simp [Bind.bind, Except.bind]
    | ok u =>
      by_cases hseen : w.pathKey registration.worktreeRoot ∈ seen
      · simp [Bind.bind, Except.bind, hseen, throw, throwThe, MonadExceptOf.throw]
      · simp only [Bind.bind, Except.bind, hseen, if_false]
        rw [ih]
        simp only [List.mem_cons, not_or, true_and, not_false_eq_true]
        constructor
        · rintro ⟨hrest, hnodup, hnew⟩
          exact ⟨hrest, ⟨fun h => (hnew _ h).1 rfl, hnodup⟩, fun key h => (hnew key h).2⟩
        · rintro ⟨hrest, ⟨hnot, hnodup⟩, hnew⟩
          exact ⟨hrest, hnodup, fun key h => ⟨fun heq => hnot (heq ▸ h), hnew key h⟩⟩

/-- The file holds the registrations, all of them valid. -/
def HoldsRegistrations (encoding : RegistryEncoding) (file : Option WorktreeRegistryFile)
    (worktrees : List LocalCacheWorktreeRegistration) : Prop :=
  (file = none ∧ worktrees = []) ∨
    (file = some (serializeRegistry encoding ⟨worktreeRegistryVersion, worktrees⟩) ∧
      ∀ registration ∈ worktrees, registration.validate encoding = .ok ())

/-- The registrations load. -/
def Loaded (encoding : RegistryEncoding) (w : Worktrees) (file : Option WorktreeRegistryFile)
    (worktrees : List LocalCacheWorktreeRegistration) : Prop :=
  loadWorktreeRegistry encoding w true file = .ok ⟨worktreeRegistryVersion, worktrees⟩

theorem HoldsRegistrations.valid (h : HoldsRegistrations encoding file worktrees) :
    ∀ registration ∈ worktrees, registration.validate encoding = .ok () := by
  rcases h with ⟨_, rfl⟩ | ⟨_, hvalid⟩
  · exact fun _ h => by cases h
  · exact hvalid

/-- What was saved loads exactly if no two roots have one key. -/
theorem HoldsRegistrations.load_eq_ok (h : HoldsRegistrations encoding file worktrees) :
    loadWorktreeRegistry encoding w true file = .ok registry ↔
      registry = ⟨worktreeRegistryVersion, worktrees⟩ ∧ (w.keys worktrees).Nodup := by
  rcases h with ⟨rfl, rfl⟩ | ⟨rfl, hvalid⟩
  · simp [loadWorktreeRegistry, LocalCacheWorktreeRegistry.new, Worktrees.keys, eq_comm]
  · have hdecode : (worktrees.map (serializeRegistration encoding)).mapM
        (deserializeRegistration encoding) = .ok worktrees := decode_registrations worktrees
    unfold loadWorktreeRegistry serializeRegistry
    rw [if_pos rfl]
    simp only [hdecode]
    have hcheck : LocalCacheWorktreeRegistry.validateForPath encoding w
        ⟨worktreeRegistryVersion, worktrees⟩ = checkWorktreeRoots encoding w [] worktrees := by
      unfold LocalCacheWorktreeRegistry.validateForPath
      rw [if_pos ⟨Nat.le_succ 1, le_rfl⟩]
    rw [hcheck]
    constructor
    · intro hload
      cases hroots : checkWorktreeRoots encoding w [] worktrees with
      | error e =>
        rw [hroots] at hload
        cases hload
      | ok u =>
        rw [hroots] at hload
        obtain ⟨_, hnodup, _⟩ := checkWorktreeRoots_eq_ok.mp hroots
        exact ⟨(Except.ok.inj hload).symm, hnodup⟩
    · rintro ⟨rfl, hnodup⟩
      have hroots : checkWorktreeRoots encoding w [] worktrees = .ok () :=
        checkWorktreeRoots_eq_ok.mpr ⟨hvalid, hnodup, fun _ _ h => by cases h⟩
      rw [hroots]
      rfl

theorem HoldsRegistrations.loaded_iff (h : HoldsRegistrations encoding file worktrees) :
    Loaded encoding w file before ↔ before = worktrees ∧ (w.keys worktrees).Nodup := by
  unfold Loaded
  rw [h.load_eq_ok, LocalCacheWorktreeRegistry.mk.injEq]
  simp

/-! ### Changes -/

/-- What a change of one root does: the registrations of this root are those that are new, and all
others are as they were. -/
def Changed (w : Worktrees) (before after : List LocalCacheWorktreeRegistration) (root : FilePath)
    (new : Option LocalCacheWorktreeRegistration) : Prop :=
  (∀ registration, w.pathKey registration.worktreeRoot = w.pathKey root →
    (registration ∈ after ↔ new = some registration)) ∧
  ∀ other, w.pathKey other.worktreeRoot ≠ w.pathKey root → (other ∈ after ↔ other ∈ before)

/-- The registrations are in strict order. -/
def Worktrees.Sorted (w : Worktrees) (worktrees : List LocalCacheWorktreeRegistration) : Prop :=
  worktrees.Pairwise w.Lt

theorem Worktrees.Sorted.nodup (h : w.Sorted worktrees) : (w.keys worktrees).Nodup :=
  List.pairwise_map.mpr (h.imp Worktrees.Lt.ne)

theorem eq_of_key_eq (hnodup : (w.keys worktrees).Nodup) {a b : LocalCacheWorktreeRegistration}
    (ha : a ∈ worktrees) (hb : b ∈ worktrees)
    (h : w.pathKey a.worktreeRoot = w.pathKey b.worktreeRoot) : a = b :=
  List.inj_on_of_nodup_map hnodup ha hb h

/-- Registrations of different roots are sorted strictly. -/
theorem Worktrees.sorted_sort (hnodup : (w.keys registry.worktrees).Nodup) :
    w.Sorted (w.sort registry).worktrees := by
  have hle : (w.sort registry).worktrees.Pairwise fun a b => w.le a b = true := by
    apply List.pairwise_mergeSort
    · intro a b c hab hbc
      exact decide_eq_true (le_trans (of_decide_eq_true hab) (of_decide_eq_true hbc))
    · intro a b
      rw [Bool.or_eq_true]
      exact (le_total (w.pathKey a.worktreeRoot).order (w.pathKey b.worktreeRoot).order).imp
        decide_eq_true decide_eq_true
  have hperm : (w.sort registry).worktrees.Perm registry.worktrees := List.mergeSort_perm _ _
  have hnodup' : (w.keys (w.sort registry).worktrees).Nodup := (hperm.map _).nodup_iff.mpr hnodup
  apply (hle.and (List.pairwise_map.mp hnodup')).imp
  rintro a b ⟨hab, hne⟩
  exact lt_of_le_of_ne (of_decide_eq_true hab) fun h => hne (FilePath.order_injective h)

theorem Worktrees.mem_sort : registration ∈ (w.sort registry).worktrees ↔
    registration ∈ registry.worktrees :=
  (List.mergeSort_perm _ _).mem_iff

theorem keys_replaceFirst {p : LocalCacheWorktreeRegistration → Bool}
    (hp : ∀ a, p a = true → w.pathKey a.worktreeRoot = w.pathKey registration.worktreeRoot) :
    w.keys (replaceFirst p registration worktrees) = w.keys worktrees := by
  induction worktrees with
  | nil => rfl
  | cons a rest ih =>
    unfold replaceFirst
    split_ifs with ha
    · unfold Worktrees.keys
      rw [List.map_cons, List.map_cons, hp a ha]
    · unfold Worktrees.keys at ih ⊢
      rw [List.map_cons, List.map_cons, ih]

theorem mem_replaceFirst {p : LocalCacheWorktreeRegistration → Bool}
    {a : LocalCacheWorktreeRegistration} (h : a ∈ replaceFirst p registration worktrees) :
    a = registration ∨ a ∈ worktrees := by
  induction worktrees with
  | nil => cases h
  | cons b rest ih =>
    unfold replaceFirst at h
    split_ifs at h with hb
    · exact (List.mem_cons.mp h).imp id (List.mem_cons_of_mem b)
    · rcases List.mem_cons.mp h with rfl | hrest
      · exact .inr List.mem_cons_self
      · exact (ih hrest).imp id (List.mem_cons_of_mem b)

theorem mem_replaceFirst_self {p : LocalCacheWorktreeRegistration → Bool}
    (h : ∃ a ∈ worktrees, p a = true) : registration ∈ replaceFirst p registration worktrees := by
  induction worktrees with
  | nil =>
    obtain ⟨a, ha, _⟩ := h
    cases ha
  | cons b rest ih =>
    unfold replaceFirst
    split_ifs with hb
    · exact List.mem_cons_self
    · obtain ⟨a, ha, hpa⟩ := h
      rcases List.mem_cons.mp ha with rfl | hrest
      · exact absurd hpa hb
      · exact List.mem_cons_of_mem b (ih ⟨a, hrest, hpa⟩)

theorem mem_replaceFirst_of_not {p : LocalCacheWorktreeRegistration → Bool}
    {a : LocalCacheWorktreeRegistration} (ha : a ∈ worktrees) (hnot : p a = false) :
    a ∈ replaceFirst p registration worktrees := by
  induction worktrees with
  | nil => cases ha
  | cons b rest ih =>
    unfold replaceFirst
    split_ifs with hb
    · rcases List.mem_cons.mp ha with rfl | hrest
      · rw [hb] at hnot
        cases hnot
      · exact List.mem_cons_of_mem _ hrest
    · rcases List.mem_cons.mp ha with rfl | hrest
      · exact List.mem_cons_self
      · exact List.mem_cons_of_mem b (ih hrest)

/-- A list of different keys that holds a registration, and otherwise what was there before. -/
theorem changed_of_mem (hnodup : (w.keys after).Nodup) (hmem : registration ∈ after)
    (hothers : ∀ other, w.pathKey other.worktreeRoot ≠ w.pathKey registration.worktreeRoot →
      (other ∈ after ↔ other ∈ before)) :
    Changed w before after registration.worktreeRoot (some registration) := by
  refine ⟨fun other hkey => ?_, hothers⟩
  constructor
  · intro hother
    rw [eq_of_key_eq hnodup hother hmem hkey]
  · intro heq
    rwa [← Option.some.inj heq]

/-- What `upsert` makes of registrations of different roots. -/
theorem upsert_spec (registration : LocalCacheWorktreeRegistration)
    (registry : LocalCacheWorktreeRegistry) (hnodup : (w.keys registry.worktrees).Nodup) :
    ((w.upsert registration registry).1 = .unchanged →
      (w.upsert registration registry).2 = registry) ∧
    ((w.upsert registration registry).1 ≠ .unchanged →
      w.Sorted (w.upsert registration registry).2.worktrees) ∧
    (w.upsert registration registry).2.version = registry.version ∧
    (∀ other ∈ (w.upsert registration registry).2.worktrees,
      other = registration ∨ other ∈ registry.worktrees) ∧
    Changed w registry.worktrees (w.upsert registration registry).2.worktrees
      registration.worktreeRoot (some registration) := by
  unfold Worktrees.upsert
  dsimp only
  cases hfind : registry.worktrees.find? fun existing =>
      decide (w.pathKey existing.worktreeRoot = w.pathKey registration.worktreeRoot) with
  | none =>
    have hnew : ∀ existing ∈ registry.worktrees,
        w.pathKey existing.worktreeRoot ≠ w.pathKey registration.worktreeRoot := by
      intro existing hexisting heq
      exact absurd (decide_eq_true heq) (List.find?_eq_none.mp hfind existing hexisting)
    have hkeys : (w.keys (registry.worktrees ++ [registration])).Nodup := by
      unfold Worktrees.keys
      rw [List.map_append, List.nodup_append]
      refine ⟨hnodup, List.nodup_singleton _, ?_⟩
      intro key hkey key' hkey'
      obtain ⟨existing, hexisting, rfl⟩ := List.mem_map.mp hkey
      rw [List.map_singleton, List.mem_singleton] at hkey'
      exact hkey' ▸ hnew existing hexisting
    have hsorted : w.Sorted
        (w.sort ⟨registry.version, registry.worktrees ++ [registration]⟩).worktrees :=
      Worktrees.sorted_sort hkeys
    refine ⟨fun h => (by cases h), fun _ => hsorted, rfl, ?_, ?_⟩
    · intro other hother
      rcases List.mem_append.mp (Worktrees.mem_sort.mp hother) with hold | hone
      · exact .inr hold
      · exact .inl (List.mem_singleton.mp hone)
    · apply changed_of_mem hsorted.nodup
      · exact Worktrees.mem_sort.mpr (List.mem_append_right _ List.mem_cons_self)
      · intro other hother
        rw [Worktrees.mem_sort]
        constructor
        · intro hmem
          rcases List.mem_append.mp hmem with hold | hone
          · exact hold
          · exact absurd (by rw [List.mem_singleton.mp hone]) hother
        · exact List.mem_append_left _
  | some existing =>
    have hmem := List.mem_of_find?_eq_some hfind
    dsimp only
    split_ifs with heq
    · refine ⟨fun _ => rfl, fun h => absurd rfl h, rfl, fun other h => .inr h, ?_⟩
      exact changed_of_mem hnodup (heq ▸ hmem) fun _ _ => Iff.rfl
    · have hkeys : w.keys (replaceFirst (fun existing => decide (w.pathKey existing.worktreeRoot =
          w.pathKey registration.worktreeRoot)) registration registry.worktrees) =
          w.keys registry.worktrees := keys_replaceFirst fun a ha => of_decide_eq_true ha
      have hsorted : w.Sorted (w.sort ⟨registry.version, replaceFirst (fun existing =>
          decide (w.pathKey existing.worktreeRoot = w.pathKey registration.worktreeRoot))
          registration registry.worktrees⟩).worktrees :=
        Worktrees.sorted_sort (hkeys ▸ hnodup)
      have hsame := List.find?_some hfind
      refine ⟨fun h => (by cases h), fun _ => hsorted, rfl, ?_, ?_⟩
      · exact fun other hother => mem_replaceFirst (Worktrees.mem_sort.mp hother)
      · apply changed_of_mem hsorted.nodup
        · exact Worktrees.mem_sort.mpr
            (mem_replaceFirst_self ⟨existing, hmem, hsame⟩)
        · intro other hother
          rw [Worktrees.mem_sort]
          constructor
          · intro hreplaced
            rcases mem_replaceFirst hreplaced with rfl | hold
            · exact absurd rfl hother
            · exact hold
          · exact fun hold => mem_replaceFirst_of_not hold (decide_eq_false hother)

/-- What `remove` makes of registrations of different roots. -/
theorem removeRegistration_spec (root : FilePath) (registry : LocalCacheWorktreeRegistry)
    (hnodup : (w.keys registry.worktrees).Nodup) :
    ((w.removeRegistration root registry).1 = none →
      (w.removeRegistration root registry).2 = registry) ∧
    (w.removeRegistration root registry).2.version = registry.version ∧
    (w.removeRegistration root registry).2.worktrees.Sublist registry.worktrees ∧
    Changed w registry.worktrees (w.removeRegistration root registry).2.worktrees root none := by
  unfold Worktrees.removeRegistration
  cases hfind : registry.worktrees.find? fun registration =>
      decide (w.pathKey registration.worktreeRoot = w.pathKey root) with
  | none =>
    refine ⟨fun _ => rfl, rfl, .refl _, ?_, fun _ _ => Iff.rfl⟩
    intro existing heq
    constructor
    · intro hexisting
      exact absurd (decide_eq_true heq) (List.find?_eq_none.mp hfind existing hexisting)
    · exact fun h => by cases h
  | some existing =>
    have hremove : w.remove registry.worktrees root = registry.worktrees.filter fun registration =>
        w.pathKey registration.worktreeRoot ≠ w.pathKey root := eraseP_eq_filter hnodup
    refine ⟨fun h => (by cases h), rfl, ?_, ?_, ?_⟩
    · exact List.eraseP_sublist
    · intro other hkey
      dsimp only
      rw [hremove, List.mem_filter]
      constructor
      · rintro ⟨_, hne⟩
        exact absurd hkey (of_decide_eq_true hne)
      · exact fun h => by cases h
    · intro other hkey
      dsimp only
      rw [hremove, List.mem_filter]
      exact ⟨fun h => h.1, fun h => ⟨h, decide_eq_true hkey⟩⟩

/-! ### The collector -/

/-- The registry is one of two, whatever else changes. -/
def RegistryIn (w : Worktrees) (before after : List LocalCacheWorktreeRegistration)
    (t : LocalCacheState w) : Prop :=
  t.registry = before ∨ t.registry = after

/-- A program of the collector that keeps what the registry is. -/
def KeepsRegistry {α : Type} (w : Worktrees) (p : Collector α) : Prop :=
  ∀ registry, Triple (collectorOp w) (fun t => t.registry = registry)
    (fun _ t => t.registry = registry) p (fun _ _ t => t.registry = registry)
      fun _ _ t => t.registry = registry

namespace KeepsRegistry

variable {α β : Type}

theorem pure (a : α) : KeepsRegistry w (Pure.pure a) := fun _ => .pure fun _ _ h => h

theorem throw (e : LocalCacheError) : KeepsRegistry w (throw e : Collector α) :=
  fun _ => .throw fun _ _ h => h

theorem bind {p : Collector α} {f : α → Collector β} (hp : KeepsRegistry w p)
    (hf : ∀ a, KeepsRegistry w (f a)) : KeepsRegistry w (p >>= f) :=
  fun registry => (hp registry).bind fun a => hf a registry

/-- A call that is not the one that saves the registry. -/
theorem ask {c : CollectorCall} (hc : ∀ registry, c ≠ .saveWorktreeRegistry registry) :
    KeepsRegistry w (ask (F := collectorInterface) c) := by
  intro registry
  apply Triple.ask
  intro _ s answer t hs hop
  have hkept : t.registry = s.registry := by
    cases c with
    | lock => exact hop ▸ rfl
    | saveWorktreeRegistry registry => exact absurd rfl (hc registry)
    | loadWorktreeRegistry => cases answer <;> simp_all [collectorOp]
    | metadata root =>
      cases answer with
      | ok isDir => exact hop.2 ▸ rfl
      | error e =>
        cases e with
        | notFound => exact hop.2 ▸ rfl
        | directoryNotEmpty => exact hop ▸ rfl
        | other => exact hop ▸ rfl
    | collectTrackedLfsPointerOids registration => cases answer <;> simp_all [collectorOp]
    | collectCacheObjectFiles => cases answer <;> simp_all [collectorOp]
    | removeFile path =>
      cases answer with
      | ok u =>
        obtain ⟨_, _, _, hregistry, _⟩ := hop
        exact hregistry
      | error e => exact hop ▸ rfl
    | removeDir path =>
      cases answer with
      | ok u => exact hop.2.2.1
      | error e => exact hop ▸ rfl
  exact ⟨hkept.trans hs, hkept.trans hs⟩

theorem collectorCall {c : CollectorCall} {h : CollectorAnswer c = Except LocalCacheError α}
    (hc : ∀ registry, c ≠ .saveWorktreeRegistry registry) :
    KeepsRegistry w (collectorCall c h) := by
  apply (ask hc).bind
  intro answer registry
  exact .liftResult (fun _ _ _ _ h => h) fun _ _ _ _ h => h

theorem partitionExistingWorktrees
    (registrations active missing : List LocalCacheWorktreeRegistration) :
    KeepsRegistry w (partitionExistingWorktrees registrations active missing) := by
  induction registrations generalizing active missing with
  | nil => exact pure _
  | cons registration rest ih =>
    apply bind (ask fun _ h => by cases h)
    intro answer
    match answer with
    | .ok true => exact ih _ _
    | .ok false => exact ih _ _
    | .error .notFound => exact ih _ _
    | .error .directoryNotEmpty => exact throw _
    | .error .other => exact throw _

theorem referencedWorktreeOids (registrations : List LocalCacheWorktreeRegistration)
    (referenced : List LfsOid) (skipped : List FilePath) :
    KeepsRegistry w (referencedWorktreeOids registrations referenced skipped) := by
  induction registrations generalizing referenced skipped with
  | nil => exact pure _
  | cons registration rest ih =>
    apply bind (collectorCall fun _ h => by cases h)
    exact fun found => ih _ _

theorem removeEmptyDirectory (path : FilePath) :
    KeepsRegistry w (removeEmptyDirectory path) := by
  apply bind (ask fun _ h => by cases h)
  intro answer
  cases answer with
  | ok u => exact pure _
  | error e =>
    cases e with
    | notFound => exact pure _
    | directoryNotEmpty => exact pure _
    | other => exact throw _

theorem deleteCacheObject (object : LocalCacheGarbageCollectionObject) :
    KeepsRegistry w (deleteCacheObject object) := by
  apply bind (ask fun _ h => by cases h)
  intro answer
  cases answer with
  | error e => exact throw _
  | ok u =>
    apply bind (removeEmptyDirectory _)
    intro _
    split
    · exact removeEmptyDirectory _
    · exact pure _

theorem collectObjects {dryRun protectAll : Bool} {referenced : List LfsOid}
    (objects : List LocalCacheGarbageCollectionObject) (classified : ClassifiedObjects) :
    KeepsRegistry w (collectObjects dryRun referenced protectAll objects classified) := by
  induction objects generalizing classified with
  | nil => exact pure _
  | cons object rest ih =>
    unfold LfsCloud.collectObjects
    split
    · exact ih _
    · split
      · exact ih _
      · split
        · exact ih _
        · exact bind (deleteCacheObject object) fun _ => ih _

/-- A program that keeps the registry keeps it to be one of two. -/
theorem registryIn {p : Collector α} (h : KeepsRegistry w p)
    (before after : List LocalCacheWorktreeRegistration) :
    Triple (collectorOp w) (RegistryIn w before after) (fun _ t => RegistryIn w before after t) p
      (fun _ _ t => RegistryIn w before after t) fun _ _ t => RegistryIn w before after t := by
  rintro m s (hs | hs)
  · obtain ⟨hok, herror, hkilled⟩ := h before m s hs
    exact ⟨fun a m' t hret => .inl (hok a m' t hret), fun e m' t hret => .inl (herror e m' t hret),
      fun t ht => .inl (hkilled t ht)⟩
  · obtain ⟨hok, herror, hkilled⟩ := h after m s hs
    exact ⟨fun a m' t hret => .inr (hok a m' t hret), fun e m' t hret => .inr (herror e m' t hret),
      fun t ht => .inr (hkilled t ht)⟩

end KeepsRegistry

/-- The registry after a run: one that prunes takes out the missing worktrees. -/
def LocalCacheState.prunedRegistry (s : LocalCacheState w) (dryRun prune : Bool) :
    List LocalCacheWorktreeRegistration :=
  if !dryRun && prune then s.active else s.registry

/-- What is saved is the registry without the missing worktrees. -/
theorem triple_pruneWorktrees_registry (s : LocalCacheState w) (dryRun prune : Bool)
    {pruned : List LocalCacheWorktreeRegistration}
    (hpruned : pruned = if prune then s.unavailable else []) :
    Triple (collectorOp w) (RegistryIn w s.registry (s.prunedRegistry dryRun prune))
      (fun _ t => t = s)
      (pruneWorktrees w dryRun prune s.registry pruned)
      (fun _ _ t => RegistryIn w s.registry (s.prunedRegistry dryRun prune) t)
      fun _ _ t => RegistryIn w s.registry (s.prunedRegistry dryRun prune) t := by
  unfold pruneWorktrees
  split
  next hsave =>
    simp only [Bool.and_eq_true, Bool.not_eq_eq_eq_not, Bool.not_true] at hsave
    obtain ⟨⟨rfl, rfl⟩, _⟩ := hsave
    have hremoved : pruned.foldl (fun registry registration =>
        w.remove registry registration.worktreeRoot) s.registry = s.active := by
      rw [hpruned, if_pos rfl, s.foldl_remove_unavailable]
    have hafter : s.active = s.prunedRegistry false true := rfl
    rw [hafter] at hremoved
    apply triple_collectorCall
    rintro _ (e | _) t hs hop
    · have ht : RegistryIn w s.registry (s.prunedRegistry false true) t := by
        rcases hop with rfl | ⟨hregistry, _⟩
        · exact .inl (congrArg LocalCacheState.registry hs)
        · exact .inr (hregistry.trans hremoved)
      exact ⟨ht, fun _ _ => ht, fun _ _ => ht⟩
    · have ht : RegistryIn w s.registry (s.prunedRegistry false true) t :=
        .inr (hop.1.trans hremoved)
      exact ⟨ht, fun _ _ => ht, fun _ _ => ht⟩
  next hkeep =>
    apply Triple.pure
    rintro _ t rfl
    exact .inl rfl

/-- Wherever the collector stops, the registry is as it was, or without the missing worktrees. -/
theorem triple_garbageCollect_registry (s : LocalCacheState w) (dryRun prune : Bool) :
    Triple (collectorOp w) (RegistryIn w s.registry (s.prunedRegistry dryRun prune))
      (fun _ t => t = s)
      (garbageCollect w dryRun prune)
      (fun _ _ t => RegistryIn w s.registry (s.prunedRegistry dryRun prune) t)
      fun _ _ t => RegistryIn w s.registry (s.prunedRegistry dryRun prune) t := by
  have hC : RegistryIn w s.registry (s.prunedRegistry dryRun prune) s := .inl rfl
  have hE : ∀ (e : LocalCacheError) (m : Unit) (t : LocalCacheState w), t = s →
      RegistryIn w s.registry (s.prunedRegistry dryRun prune) t := by
    rintro _ _ t rfl
    exact hC
  apply ((triple_lock hC).conseq (fun _ _ h => h) (fun _ _ _ h => h) hE).bind
  intro _
  apply ((triple_loadWorktreeRegistry hC).conseq (fun _ _ h => h) (fun _ _ _ h => h) hE).bind
  intro registry
  apply Triple.of_fact
  rintro rfl
  apply ((triple_partitionExistingWorktrees hC _ _ _).conseq (fun _ _ h => h)
    (fun _ _ _ h => h) hE).bind
  intro worktrees
  apply Triple.of_fact
  rintro rfl
  apply ((triple_referencedWorktreeOids hC _ _ _).conseq (fun _ _ h => h)
    (fun _ _ _ h => h) hE).bind
  intro pointers
  apply Triple.of_fact
  rintro rfl
  apply ((triple_collectCacheObjectFiles hC).conseq (fun _ _ h => h) (fun _ _ _ h => h) hE).bind
  intro found
  apply Triple.of_fact
  rintro ⟨_, rfl⟩
  apply (triple_pruneWorktrees_registry s dryRun prune rfl).bind
  intro _
  apply ((KeepsRegistry.collectObjects _ _).registryIn _ _).bind
  exact fun classified => .pure fun _ _ h => h

/-- A run that comes to its end leaves the pruned registry. -/
theorem registry_of_finished {s t : LocalCacheState w} {dryRun prune : Bool}
    (h : Finished s dryRun prune t) : t.registry = s.prunedRegistry dryRun prune := by
  unfold Finished at h
  unfold LocalCacheState.prunedRegistry
  cases dryRun with
  | true =>
    rw [if_pos rfl] at h
    rw [h]
    rfl
  | false =>
    rw [if_neg Bool.false_ne_true] at h
    exact h.1

/-- The pruned registry is a part of the registry, in its order, with the active worktrees. -/
theorem mem_prunedRegistry {s : LocalCacheState w} {dryRun prune : Bool} :
    registration ∈ s.prunedRegistry dryRun prune ↔
      registration ∈ s.registry ∧ (!dryRun && prune = true → w.isActive registration = true) := by
  unfold LocalCacheState.prunedRegistry LocalCacheState.active
  split
  next h => simp [List.mem_filter, h]
  next h => simp [h]

theorem prunedRegistry_sublist (s : LocalCacheState w) (dryRun prune : Bool) :
    (s.prunedRegistry dryRun prune).Sublist s.registry := by
  unfold LocalCacheState.prunedRegistry LocalCacheState.active
  split
  · exact List.filter_sublist
  · exact .refl _

end LfsCloud
