import LfsCloud.LocalCache.RegistryRules
import LfsCloud.Lib.Transition

/-!
# The registry over time

Worktrees are registered, removed and pruned, while the file system changes between the calls. The
registry stays a map by the roots, sorted, for as long as no change of the file system makes two
registered roots one, or swaps them.
-/

namespace LfsCloud

open Interaction Transition

/-- The file system, as far as it says what the roots are, and the registry file. -/
structure RegistryState where
  roots : WorktreeRoots
  file : Option WorktreeRegistryFile

/-- The steps: the file system changes, or an operation runs on the registry. -/
inductive RegistryLabel
  | change (roots : WorktreeRoots)
  | register (faults : RegistryFaults) (registration : LocalCacheWorktreeRegistration)
  | remove (faults : RegistryFaults) (worktreeRoot : FilePath)
  | collect (dryRun prune finished : Bool)

section

variable (encoding : RegistryEncoding)

/-- A run of the collector on the registry that it loads: one that finishes, or one that fails or is
killed at any point. -/
def CollectsRegistry (w : Worktrees) (dryRun prune finished : Bool)
    (file file' : Option WorktreeRegistryFile) : Prop :=
  (finished = false ∧ file' = file) ∨
    ∃ registry, loadWorktreeRegistry encoding w true file = .ok registry ∧
      ∃ c c' : LocalCacheState w, c.registry = registry.worktrees ∧
        ((∃ report, ((garbageCollect w dryRun prune).from ()).Returns (collectorOp w) c
            (.ok report, ()) c') ∨
          (finished = false ∧ ((∃ e, ((garbageCollect w dryRun prune).from ()).Returns
            (collectorOp w) c (.error e, ()) c') ∨
              ((garbageCollect w dryRun prune).from ()).Killed (collectorOp w) c c'))) ∧
        file' = if c'.registry = c.registry then file
          else some (serializeRegistry encoding ⟨registry.version, c'.registry⟩)

/-- The registry, from a cache that has none. -/
def registrySystem : System RegistryState RegistryLabel where
  init s := s.file = none
  step s label t := match label with
    | .change roots => t = ⟨roots, s.file⟩
    | .register faults registration =>
      t = ⟨s.roots, (registerWorktree encoding s.roots.worktrees faults registration s.file).2⟩
    | .remove faults worktreeRoot => t = ⟨s.roots,
      (removeWorktreeRegistration encoding s.roots.worktrees faults worktreeRoot s.file).2⟩
    | .collect dryRun prune finished => t.roots = s.roots ∧
      CollectsRegistry encoding s.roots.worktrees dryRun prune finished s.file t.file

/-- The registry loads, sorted by the roots and with no root twice. -/
def LoadsSorted (s : RegistryState) : Prop :=
  ∃ worktrees, Loaded encoding s.roots.worktrees s.file worktrees ∧
    s.roots.worktrees.Sorted worktrees

/-- A step that changes the file system keeps the registered roots in their order, and apart. -/
def KeepsRootOrder (s : RegistryState) (label : RegistryLabel) : Prop :=
  ∀ roots, label = .change roots → ∀ worktrees, Loaded encoding s.roots.worktrees s.file worktrees →
    ∀ a ∈ worktrees, ∀ b ∈ worktrees, s.roots.worktrees.Lt a b → roots.worktrees.Lt a b

end

section

variable {encoding : RegistryEncoding} {w : Worktrees} {file file' : Option WorktreeRegistryFile}
  {before after worktrees : List LocalCacheWorktreeRegistration}

/-- What is registered after a change of one root, in the file that the change leaves. -/
def LoadsChanged (encoding : RegistryEncoding) (w : Worktrees)
    (before : List LocalCacheWorktreeRegistration) (root : FilePath)
    (new : Option LocalCacheWorktreeRegistration) (file' : Option WorktreeRegistryFile) : Prop :=
  ∃ after, Loaded encoding w file' after ∧ Changed w before after root new

/-- What is registered after a run of the collector: one that prunes takes out the registrations
whose roots are not there, and leaves all others. -/
def LoadsPruned (encoding : RegistryEncoding) (w : Worktrees)
    (before : List LocalCacheWorktreeRegistration) (dryRun prune : Bool)
    (file' : Option WorktreeRegistryFile) : Prop :=
  ∃ after, Loaded encoding w file' after ∧ ∀ registration, registration ∈ after ↔
    registration ∈ before ∧ (!dryRun && prune = true → w.isActive registration = true)

/-- A change under the lock leaves the file, or saves what it makes of what loads. -/
theorem withWorktreeRegistry_spec {α : Type} {faults : RegistryFaults}
    {change : LocalCacheWorktreeRegistry → α × Option LocalCacheWorktreeRegistry}
    {result : Except WorktreeRegistryError α} (h : HoldsRegistrations encoding file worktrees)
    (hrun : withWorktreeRegistry encoding w faults change file = (result, file')) :
    (file' = file ∨ ((w.keys worktrees).Nodup ∧
      ∃ saved, (change ⟨worktreeRegistryVersion, worktrees⟩).2 = some saved ∧
        file' = some (serializeRegistry encoding saved))) ∧
    ∀ a, result = .ok a → (w.keys worktrees).Nodup ∧
      ((change ⟨worktreeRegistryVersion, worktrees⟩).2 = none → file' = file) ∧
        ∀ saved, (change ⟨worktreeRegistryVersion, worktrees⟩).2 = some saved →
          file' = some (serializeRegistry encoding saved) := by
  unfold withWorktreeRegistry at hrun
  cases hlock : faults.lock with
  | some step =>
    rw [hlock] at hrun
    obtain ⟨rfl, rfl⟩ := Prod.mk.inj hrun
    exact ⟨.inl rfl, fun a h => by cases h⟩
  | none =>
    rw [hlock] at hrun
    dsimp only at hrun
    cases hload : loadWorktreeRegistry encoding w faults.opens file with
    | error e =>
      rw [hload] at hrun
      obtain ⟨rfl, rfl⟩ := Prod.mk.inj hrun
      exact ⟨.inl rfl, fun a h => by cases h⟩
    | ok registry =>
      rw [hload] at hrun
      dsimp only at hrun
      have hopens : faults.opens = true := by
        by_contra hnot
        unfold loadWorktreeRegistry at hload
        rw [if_neg hnot] at hload
        cases hload
      rw [hopens, h.load_eq_ok] at hload
      obtain ⟨rfl, hnodup⟩ := hload
      cases hchange : (change ⟨worktreeRegistryVersion, worktrees⟩).2 with
      | none =>
        rw [hchange] at hrun
        obtain ⟨_, rfl⟩ := Prod.mk.inj hrun
        exact ⟨.inl rfl, fun a _ => ⟨hnodup, fun _ => rfl, fun _ h => by cases h⟩⟩
      | some saved =>
        rw [hchange] at hrun
        obtain ⟨rfl, rfl⟩ := Prod.mk.inj hrun
        have hsaved : (saveWorktreeRegistry encoding faults.save saved file).2 = file ∨
            (saveWorktreeRegistry encoding faults.save saved file).2 =
              some (serializeRegistry encoding saved) := by
          unfold saveWorktreeRegistry
          split
          · exact .inr rfl
          · exact .inr rfl
          · exact .inl rfl
        refine ⟨hsaved.imp id fun h => ⟨hnodup, saved, rfl, h⟩, fun a hok => ⟨hnodup, ?_, ?_⟩⟩
        · exact fun h => by cases h
        · rintro _ ⟨⟩
          unfold saveWorktreeRegistry at hok ⊢
          split at hok
          · rfl
          · rfl
          · cases hok

/-- A registration that is valid, and what it leaves. -/
theorem registerWorktree_spec {faults : RegistryFaults}
    {registration : LocalCacheWorktreeRegistration}
    {result : Except WorktreeRegistryError
      (LocalCacheWorktreeRegistration × LocalCacheWorktreeRegistrationStatus)}
    (h : HoldsRegistrations encoding file worktrees)
    (hrun : registerWorktree encoding w faults registration file = (result, file')) :
    (file' = file ∨ ∃ after, HoldsRegistrations encoding file' after ∧
      (w.keys worktrees).Nodup ∧ w.Sorted after) ∧
    ((w.keys worktrees).Nodup → file' = file ∨
      LoadsChanged encoding w worktrees registration.worktreeRoot (some registration) file') ∧
    ∀ a, result = .ok a →
      LoadsChanged encoding w worktrees registration.worktreeRoot (some registration) file' := by
  unfold registerWorktree at hrun
  cases hvalid : registration.validate encoding with
  | error e =>
    rw [hvalid] at hrun
    obtain ⟨rfl, rfl⟩ := Prod.mk.inj hrun
    exact ⟨.inl rfl, fun _ => .inl rfl, fun a h => by cases h⟩
  | ok u =>
    rw [hvalid] at hrun
    dsimp only at hrun
    obtain ⟨hfile, hok⟩ := withWorktreeRegistry_spec h hrun
    -- What is saved holds the registrations after the change, sorted.
    have hsaved : (w.keys worktrees).Nodup →
        (w.upsert registration ⟨worktreeRegistryVersion, worktrees⟩).1 ≠ .unchanged →
        ∃ after, HoldsRegistrations encoding (some (serializeRegistry encoding
            (w.upsert registration ⟨worktreeRegistryVersion, worktrees⟩).2)) after ∧
          w.Sorted after ∧
            Changed w worktrees after registration.worktreeRoot (some registration) := by
      intro hnodup hne
      obtain ⟨_, hsorted, hversion, hmem, hchanged⟩ :=
        upsert_spec registration ⟨worktreeRegistryVersion, worktrees⟩ hnodup
      refine ⟨_, .inr ⟨?_, ?_⟩, hsorted hne, hchanged⟩
      · unfold serializeRegistry
        rw [hversion]
      · intro other hother
        rcases hmem other hother with rfl | hold
        · exact hvalid
        · exact h.valid other hold
    have hloads : ∀ after, HoldsRegistrations encoding file' after → w.Sorted after →
        Changed w worktrees after registration.worktreeRoot (some registration) →
        LoadsChanged encoding w worktrees registration.worktreeRoot (some registration) file' :=
      fun after hholds hsorted hchanged =>
        ⟨after, hholds.loaded_iff.mpr ⟨rfl, hsorted.nodup⟩, hchanged⟩
    have hcase : file' = file ∨ ∃ after, HoldsRegistrations encoding file' after ∧
        (w.keys worktrees).Nodup ∧ w.Sorted after ∧
          Changed w worktrees after registration.worktreeRoot (some registration) := by
      rcases hfile with hsame | ⟨hnodup, saved, hchange, hfile⟩
      · exact .inl hsame
      · split_ifs at hchange with hunchanged
        obtain ⟨after, hholds, hsorted, hchanged⟩ := hsaved hnodup hunchanged
        rw [Option.some.inj hchange, ← hfile] at hholds
        exact .inr ⟨after, hholds, hnodup, hsorted, hchanged⟩
    refine ⟨?_, ?_, ?_⟩
    · rcases hcase with hsame | ⟨after, hholds, hnodup, hsorted, _⟩
      · exact .inl hsame
      · exact .inr ⟨after, hholds, hnodup, hsorted⟩
    · rintro _
      rcases hcase with hsame | ⟨after, hholds, _, hsorted, hchanged⟩
      · exact .inl hsame
      · exact .inr (hloads after hholds hsorted hchanged)
    · intro a ha
      obtain ⟨hnodup, hkept, hwritten⟩ := hok a ha
      by_cases hunchanged :
          (w.upsert registration ⟨worktreeRegistryVersion, worktrees⟩).1 = .unchanged
      · obtain ⟨hsame, _, _, _, hchanged⟩ :=
          upsert_spec registration ⟨worktreeRegistryVersion, worktrees⟩ hnodup
        rw [hsame hunchanged] at hchanged
        rw [hkept (if_pos hunchanged)]
        exact ⟨worktrees, h.loaded_iff.mpr ⟨rfl, hnodup⟩, hchanged⟩
      · obtain ⟨after, hholds, hsorted, hchanged⟩ := hsaved hnodup hunchanged
        rw [← hwritten _ (if_neg hunchanged)] at hholds
        exact hloads after hholds hsorted hchanged

/-- What a removal leaves. -/
theorem removeWorktreeRegistration_spec {faults : RegistryFaults} {root : FilePath}
    {result : Except WorktreeRegistryError (Option LocalCacheWorktreeRegistration)}
    (h : HoldsRegistrations encoding file worktrees)
    (hrun : removeWorktreeRegistration encoding w faults root file = (result, file')) :
    (file' = file ∨ ∃ after, HoldsRegistrations encoding file' after ∧
      after.Sublist worktrees) ∧
    ((w.keys worktrees).Nodup → file' = file ∨
      LoadsChanged encoding w worktrees root none file') ∧
    ∀ a, result = .ok a → LoadsChanged encoding w worktrees root none file' := by
  unfold removeWorktreeRegistration at hrun
  cases hvalid : validateAbsolutePath encoding "worktree_root" root with
  | error e =>
    rw [hvalid] at hrun
    obtain ⟨rfl, rfl⟩ := Prod.mk.inj hrun
    exact ⟨.inl rfl, fun _ => .inl rfl, fun a h => by cases h⟩
  | ok u =>
    rw [hvalid] at hrun
    dsimp only at hrun
    obtain ⟨hfile, hok⟩ := withWorktreeRegistry_spec h hrun
    have hsaved : (w.keys worktrees).Nodup →
        ∃ after, HoldsRegistrations encoding (some (serializeRegistry encoding
            (w.removeRegistration root ⟨worktreeRegistryVersion, worktrees⟩).2)) after ∧
          after.Sublist worktrees ∧ Changed w worktrees after root none := by
      intro hnodup
      obtain ⟨_, hversion, hsub, hchanged⟩ :=
        removeRegistration_spec root ⟨worktreeRegistryVersion, worktrees⟩ hnodup
      refine ⟨_, .inr ⟨?_, fun other hother => h.valid other (hsub.subset hother)⟩, hsub, hchanged⟩
      unfold serializeRegistry
      rw [hversion]
    have hloads : ∀ after, (w.keys worktrees).Nodup → HoldsRegistrations encoding file' after →
        after.Sublist worktrees → Changed w worktrees after root none →
          LoadsChanged encoding w worktrees root none file' :=
      fun after hnodup hholds hsub hchanged =>
        ⟨after, hholds.loaded_iff.mpr ⟨rfl, hnodup.sublist (hsub.map _)⟩, hchanged⟩
    have hcase : file' = file ∨ ∃ after, HoldsRegistrations encoding file' after ∧
        after.Sublist worktrees ∧ Changed w worktrees after root none := by
      rcases hfile with hsame | ⟨hnodup, saved, hchange, hfile⟩
      · exact .inl hsame
      · split_ifs at hchange with hnone
        obtain ⟨after, hholds, hsub, hchanged⟩ := hsaved hnodup
        rw [Option.some.inj hchange, ← hfile] at hholds
        exact .inr ⟨after, hholds, hsub, hchanged⟩
    refine ⟨?_, ?_, ?_⟩
    · rcases hcase with hsame | ⟨after, hholds, hsub, _⟩
      · exact .inl hsame
      · exact .inr ⟨after, hholds, hsub⟩
    · intro hnodup
      rcases hcase with hsame | ⟨after, hholds, hsub, hchanged⟩
      · exact .inl hsame
      · exact .inr (hloads after hnodup hholds hsub hchanged)
    · intro a ha
      obtain ⟨hnodup, hkept, hwritten⟩ := hok a ha
      by_cases hnone : (w.removeRegistration root ⟨worktreeRegistryVersion, worktrees⟩).1 = none
      · obtain ⟨hsame, _, _, hchanged⟩ :=
          removeRegistration_spec root ⟨worktreeRegistryVersion, worktrees⟩ hnodup
        rw [hsame hnone] at hchanged
        rw [hkept (if_pos hnone)]
        exact ⟨worktrees, h.loaded_iff.mpr ⟨rfl, hnodup⟩, hchanged⟩
      · obtain ⟨after, hholds, hsub, hchanged⟩ := hsaved hnodup
        rw [← hwritten _ (if_neg hnone)] at hholds
        exact hloads after hnodup hholds hsub hchanged

/-- What a run of the collector leaves. -/
theorem collectsRegistry_spec {dryRun prune finished : Bool}
    (h : HoldsRegistrations encoding file worktrees)
    (hrun : CollectsRegistry encoding w dryRun prune finished file file') :
    (file' = file ∨ ∃ after, HoldsRegistrations encoding file' after ∧
      after.Sublist worktrees) ∧
    ((w.keys worktrees).Nodup → file' = file ∨
      LoadsPruned encoding w worktrees dryRun prune file') ∧
    (finished = true → LoadsPruned encoding w worktrees dryRun prune file') := by
  rcases hrun with ⟨hfinished, rfl⟩ | ⟨registry, hload, c, c', hc, hruns, hfile⟩
  · refine ⟨.inl rfl, fun _ => .inl rfl, fun h => ?_⟩
    rw [hfinished] at h
    cases h
  obtain ⟨rfl, hnodup⟩ := h.load_eq_ok.mp hload
  dsimp only at hc hfile
  have hin : RegistryIn w c.registry (c.prunedRegistry dryRun prune) c' := by
    obtain ⟨hok, herror, hkilled⟩ := triple_garbageCollect_registry c dryRun prune () c rfl
    rcases hruns with ⟨report, hret⟩ | ⟨_, ⟨e, hret⟩ | hkill⟩
    · exact hok report () c' hret
    · exact herror e () c' hret
    · exact hkilled c' hkill
  -- The pruned registry is saved, unless it is the one that was loaded.
  have hpruned : c'.registry = c.prunedRegistry dryRun prune →
      HoldsRegistrations encoding file' (c.prunedRegistry dryRun prune) := by
    intro hregistry
    split_ifs at hfile with hsame
    · rw [← hregistry, hsame, hc, hfile]
      exact h
    · refine .inr ⟨by rw [hfile, hregistry], fun registration hregistration => ?_⟩
      have hmem := (prunedRegistry_sublist c dryRun prune).subset hregistration
      rw [hc] at hmem
      exact h.valid registration hmem
  have hsub : (c.prunedRegistry dryRun prune).Sublist worktrees := by
    have hsub := prunedRegistry_sublist c dryRun prune
    rwa [hc] at hsub
  have hloads : c'.registry = c.prunedRegistry dryRun prune →
      LoadsPruned encoding w worktrees dryRun prune file' := by
    intro hregistry
    refine ⟨_, (hpruned hregistry).loaded_iff.mpr ⟨rfl, hnodup.sublist (hsub.map _)⟩, ?_⟩
    intro registration
    rw [mem_prunedRegistry, hc]
  have hkept : c'.registry = c.registry → file' = file := fun hsame => by rw [hfile, if_pos hsame]
  refine ⟨?_, fun _ => ?_, fun hfinished => ?_⟩
  · exact hin.imp hkept fun hregistry => ⟨_, hpruned hregistry, hsub⟩
  · exact hin.imp hkept hloads
  · rcases hruns with ⟨report, hret⟩ | ⟨hnot, _⟩
    · obtain ⟨hok, _⟩ := triple_garbageCollect c dryRun prune () c rfl
      exact hloads (registry_of_finished (hok report () c' hret).2)
    · rw [hfinished] at hnot
      cases hnot

end

section

variable {encoding : RegistryEncoding} {s t : RegistryState} {label : RegistryLabel}

/-- The step of a registration. -/
theorem register_step {faults : RegistryFaults} {registration : LocalCacheWorktreeRegistration}
    (hstep : (registrySystem encoding).step s (.register faults registration) t) :
    t.roots = s.roots ∧ registerWorktree encoding s.roots.worktrees faults registration s.file =
      ((registerWorktree encoding s.roots.worktrees faults registration s.file).1, t.file) := by
  obtain rfl := hstep
  exact ⟨rfl, rfl⟩

/-- The step of a removal. -/
theorem remove_step {faults : RegistryFaults} {root : FilePath}
    (hstep : (registrySystem encoding).step s (.remove faults root) t) :
    t.roots = s.roots ∧ removeWorktreeRegistration encoding s.roots.worktrees faults root s.file =
      ((removeWorktreeRegistration encoding s.roots.worktrees faults root s.file).1, t.file) := by
  obtain rfl := hstep
  exact ⟨rfl, rfl⟩

/-- The registry file is there with valid registrations, or not there. -/
theorem holdsRegistrations_of_reachable (h : (registrySystem encoding).Reachable s) :
    ∃ worktrees, HoldsRegistrations encoding s.file worktrees := by
  apply System.Reachable.invariant (P := fun s => ∃ worktrees,
    HoldsRegistrations encoding s.file worktrees) _ _ h
  · intro s hinit
    exact ⟨[], .inl ⟨hinit, rfl⟩⟩
  · rintro s label t _ ⟨worktrees, hs⟩ hstep
    cases label with
    | change roots =>
      rw [show t = ⟨roots, s.file⟩ from hstep]
      exact ⟨worktrees, hs⟩
    | register faults registration =>
      rcases (registerWorktree_spec hs (register_step hstep).2).1 with hsame | ⟨after, hafter, _⟩
      · exact ⟨worktrees, hsame ▸ hs⟩
      · exact ⟨after, hafter⟩
    | remove faults root =>
      rcases (removeWorktreeRegistration_spec hs (remove_step hstep).2).1 with
        hsame | ⟨after, hafter, _⟩
      · exact ⟨worktrees, hsame ▸ hs⟩
      · exact ⟨after, hafter⟩
    | collect dryRun prune finished =>
      rcases (collectsRegistry_spec hs hstep.2).1 with hsame | ⟨after, hafter, _⟩
      · exact ⟨worktrees, hsame ▸ hs⟩
      · exact ⟨after, hafter⟩

/-- What holds the registrations loads sorted exactly if they are sorted by the roots now. -/
theorem HoldsRegistrations.loadsSorted_iff {worktrees : List LocalCacheWorktreeRegistration}
    (h : HoldsRegistrations encoding s.file worktrees) :
    LoadsSorted encoding s ↔ s.roots.worktrees.Sorted worktrees := by
  constructor
  · rintro ⟨loaded, hloaded, hsorted⟩
    rwa [(h.loaded_iff.mp hloaded).1] at hsorted
  · exact fun hsorted => ⟨worktrees, h.loaded_iff.mpr ⟨rfl, hsorted.nodup⟩, hsorted⟩

/-- A list that is sorted by the roots at two times has them in the same order. -/
theorem Worktrees.Sorted.same_order {w w' : Worktrees}
    {worktrees : List LocalCacheWorktreeRegistration} (h : w.Sorted worktrees)
    (h' : w'.Sorted worktrees) : ∀ a ∈ worktrees, ∀ b ∈ worktrees,
      (w.Lt a b → w'.Lt a b) ∧ (w.Lt b a → w'.Lt b a) := by
  have hsymm : Std.Symm fun a b => (w.Lt a b → w'.Lt a b) ∧ (w.Lt b a → w'.Lt b a) :=
    ⟨fun a b hab => ⟨hab.2, hab.1⟩⟩
  apply List.Pairwise.forall_of_forall
  · exact fun a _ => ⟨fun hlt => absurd hlt hlt.asymm, fun hlt => absurd hlt hlt.asymm⟩
  · apply (h.and h').imp
    rintro a b ⟨hlt, hlt'⟩
    exact ⟨fun _ => hlt', fun hgt => absurd hgt hlt.asymm⟩

/-- A registry that is sorted stays so by a step exactly if this keeps the registered roots in
their order. -/
theorem loadsSorted_step (hreach : (registrySystem encoding).Reachable s)
    (hs : LoadsSorted encoding s) (hstep : (registrySystem encoding).step s label t) :
    LoadsSorted encoding t ↔ KeepsRootOrder encoding s label := by
  obtain ⟨worktrees, hholds⟩ := holdsRegistrations_of_reachable hreach
  have hsorted := hholds.loadsSorted_iff.mp hs
  have hloaded : Loaded encoding s.roots.worktrees s.file worktrees :=
    hholds.loaded_iff.mpr ⟨rfl, hsorted.nodup⟩
  have hsame : t.roots = s.roots → t.file = s.file → LoadsSorted encoding t := by
    intro hroots hfile
    unfold LoadsSorted
    rw [hroots, hfile]
    exact hs
  have hafter : t.roots = s.roots → ∀ after, HoldsRegistrations encoding t.file after →
      s.roots.worktrees.Sorted after → LoadsSorted encoding t := by
    intro hroots after hafter hsorted'
    rw [hafter.loadsSorted_iff, hroots]
    exact hsorted'
  cases label with
  | change roots =>
    have ht : t = ⟨roots, s.file⟩ := hstep
    have hholds' : HoldsRegistrations encoding t.file worktrees := by rwa [ht]
    rw [hholds'.loadsSorted_iff, ht]
    constructor
    · rintro hsorted' _ ⟨⟩ loaded hloaded' a ha b hb
      rw [(hholds.loaded_iff.mp hloaded').1] at ha hb
      exact (Worktrees.Sorted.same_order hsorted hsorted' a ha b hb).1
    · intro hkeeps
      exact hsorted.imp_of_mem fun ha hb hlt => hkeeps roots rfl worktrees hloaded _ ha _ hb hlt
  | register faults registration =>
    obtain ⟨hroots, hrun⟩ := register_step hstep
    refine iff_of_true ?_ fun roots h => by cases h
    rcases (registerWorktree_spec hholds hrun).1 with hfile | ⟨after, hafter', _, hsorted'⟩
    · exact hsame hroots hfile
    · exact hafter hroots after hafter' hsorted'
  | remove faults root =>
    obtain ⟨hroots, hrun⟩ := remove_step hstep
    refine iff_of_true ?_ fun roots h => by cases h
    rcases (removeWorktreeRegistration_spec hholds hrun).1 with hfile | ⟨after, hafter', hsub⟩
    · exact hsame hroots hfile
    · exact hafter hroots after hafter' (hsorted.sublist hsub)
  | collect dryRun prune finished =>
    refine iff_of_true ?_ fun roots h => by cases h
    rcases (collectsRegistry_spec hholds hstep.2).1 with hfile | ⟨after, hafter', hsub⟩
    · exact hsame hstep.1 hfile
    · exact hafter hstep.1 after hafter' (hsorted.sublist hsub)

end

/-- A registration without failures succeeds where the registry loads. -/
theorem exists_register {encoding : RegistryEncoding} {s : RegistryState}
    {before : List LocalCacheWorktreeRegistration} {registration : LocalCacheWorktreeRegistration}
    (hvalid : registration.validate encoding = .ok ())
    (hloaded : Loaded encoding s.roots.worktrees s.file before) :
    ∃ a, (registerWorktree encoding s.roots.worktrees ⟨none, true, none⟩ registration s.file).1 =
      .ok a := by
  unfold Loaded at hloaded
  unfold registerWorktree withWorktreeRegistry
  simp only [hvalid, hloaded]
  split
  · exact ⟨_, rfl⟩
  · exact ⟨_, rfl⟩

/-- The characters of a path: each one after a sign, and a letter at the end of a name. -/
def samplePathText (path : FilePath) : List Char :=
  path.flatMap fun name => match name with
    | .text s => (s.toList.flatMap fun c => ['+', c]) ++ ['t']
    | .bytes l => (l.flatMap fun b => ['+', Char.ofNat b.toNat]) ++ ['b']

/-- The names of a text, after some characters of the first one. -/
def samplePathNames : List Char → List Char → Option FilePath
  | _, [] => some []
  | name, c :: rest =>
    if c = 't' then (samplePathNames [] rest).map (.text (String.ofList name) :: ·)
    else if c = 'b' then
      (samplePathNames [] rest).map (.bytes (name.map fun c => UInt8.ofNat c.toNat) :: ·)
    else match rest with
      | [] => none
      | c :: rest => samplePathNames (name ++ [c]) rest

theorem samplePathNames_chars (name chars rest : List Char) :
    samplePathNames name ((chars.flatMap fun c => ['+', c]) ++ rest) =
      samplePathNames (name ++ chars) rest := by
  induction chars generalizing name with
  | nil => simp
  | cons c chars ih =>
    have hstep : samplePathNames name ('+' :: c :: ((chars.flatMap fun c => ['+', c]) ++ rest)) =
        samplePathNames (name ++ [c]) ((chars.flatMap fun c => ['+', c]) ++ rest) := by
      rw [samplePathNames.eq_def]
      rfl
    rw [List.flatMap_cons, List.append_assoc]
    change samplePathNames name ('+' :: c :: ((chars.flatMap fun c => ['+', c]) ++ rest)) = _
    rw [hstep, ih, List.append_assoc, List.singleton_append]

theorem samplePathNames_text (path : FilePath) :
    samplePathNames [] (samplePathText path) = some path := by
  induction path with
  | nil => rfl
  | cons name rest ih =>
    unfold samplePathText at ih ⊢
    rw [List.flatMap_cons]
    cases name with
    | text s =>
      dsimp only
      rw [List.append_assoc, samplePathNames_chars, List.singleton_append, samplePathNames.eq_def]
      dsimp only
      rw [if_pos rfl, ih, List.nil_append, String.ofList_toList]
      rfl
    | bytes l =>
      have hchars : (l.flatMap fun b => ['+', Char.ofNat b.toNat]) =
          (l.map fun b => Char.ofNat b.toNat).flatMap fun c => ['+', c] := by
        rw [List.flatMap_map]
      have hbytes : (l.map fun b => Char.ofNat b.toNat).map (fun c => UInt8.ofNat c.toNat) = l := by
        rw [List.map_map]
        apply List.map_id''
        intro b
        have hb : b.toNat < 256 := b.toNat_lt
        have hvalid : b.toNat.isValidChar := Or.inl (by omega)
        have hsmall : (Char.ofNat b.toNat).toNat = b.toNat := by
          unfold Char.ofNat
          rw [dif_pos hvalid]
          rfl
        rw [Function.comp_apply, hsmall, UInt8.ofNat_toNat]
      dsimp only
      rw [hchars, List.append_assoc, samplePathNames_chars, List.singleton_append,
        samplePathNames.eq_def]
      dsimp only
      rw [if_neg (by decide), if_pos rfl, ih, List.nil_append, hbytes]
      rfl

/-- Two roots. -/
def sampleRootA : FilePath := [.text "/", .text "a"]
def sampleRootB : FilePath := [.text "/", .text "b"]

/-- The text of a path, which for the two roots is the one of the source. -/
def sampleEncode (path : FilePath) : String :=
  if path = sampleRootA then "L2E" else if path = sampleRootB then "L2I"
  else String.ofList ('=' :: samplePathText path)

/-- The path of a text. -/
def sampleDecode (text : String) : Option FilePath :=
  if text = "L2E" then some sampleRootA else if text = "L2I" then some sampleRootB
  else samplePathNames [] text.toList.tail

theorem sampleDecode_encode (path : FilePath) : sampleDecode (sampleEncode path) = some path := by
  unfold sampleEncode
  split_ifs with ha hb
  · rw [ha]
    rfl
  · rw [hb]
    rfl
  · have hne : ∀ text : String, text.toList.head? ≠ some '=' →
        String.ofList ('=' :: samplePathText path) ≠ text := by
      rintro _ hhead rfl
      rw [String.toList_ofList] at hhead
      exact hhead rfl
    unfold sampleDecode
    rw [if_neg (hne "L2E" (by decide)), if_neg (hne "L2I" (by decide)), String.toList_ofList,
      List.tail_cons, samplePathNames_text]

/-- An encoding of paths. -/
def sampleEncoding : RegistryEncoding where
  encode := sampleEncode
  decode := sampleDecode
  decode_encode := sampleDecode_encode
  ofText text := [.text text]
  display path := String.join (path.map fun name => name.toStr.getD "")

/-- The file system where the two roots are directories, and where the second one is a link to
the first one. -/
def sampleRoots (linked : Bool) : WorktreeRoots where
  canonicalize path := if linked = true ∧ path = sampleRootB then some sampleRootA else some path
  isDir path := if path = sampleRootA ∨ path = sampleRootB then some true else none
  trackedPointers _ := ([], [])

/-- Two registrations. -/
def sampleRegistration (root : FilePath) : LocalCacheWorktreeRegistration :=
  ⟨"github-main:owner/repo", root, root ++ [.text ".git"]⟩

/-- The state after a registration. -/
def sampleRegister (s : RegistryState) (root : FilePath) : RegistryState :=
  ⟨s.roots, (registerWorktree sampleEncoding s.roots.worktrees ⟨none, true, none⟩
    (sampleRegistration root) s.file).2⟩

/-- The label of a registration. -/
def sampleLabel (root : FilePath) : RegistryLabel :=
  .register ⟨none, true, none⟩ (sampleRegistration root)

theorem sampleRegister_step (s : RegistryState) (root : FilePath) :
    (registrySystem sampleEncoding).step s (sampleLabel root) (sampleRegister s root) := rfl

theorem sampleRegister_loads {s : RegistryState} {before : List LocalCacheWorktreeRegistration}
    {root : FilePath} (hreach : (registrySystem sampleEncoding).Reachable s)
    (hloaded : Loaded sampleEncoding s.roots.worktrees s.file before)
    (hvalid : (sampleRegistration root).validate sampleEncoding = .ok ()) :
    LoadsChanged sampleEncoding s.roots.worktrees before root (some (sampleRegistration root))
      (sampleRegister s root).file := by
  obtain ⟨worktrees, hholds⟩ := holdsRegistrations_of_reachable hreach
  obtain ⟨rfl, _⟩ := hholds.loaded_iff.mp hloaded
  obtain ⟨a, ha⟩ := exists_register hvalid hloaded
  exact (registerWorktree_spec hholds rfl).2.2 a ha

end LfsCloud
