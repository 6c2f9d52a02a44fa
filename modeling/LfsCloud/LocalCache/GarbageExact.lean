import LfsCloud.LocalCache.GarbageReport

/-!
# Deleted files and their identifiers

`LfsOid::new` reads more names than the canonical one as the same identifier. A file with
such a name in the directories of its identifier is taken for a cached object, and deleted
when nothing refers to that identifier.
-/

namespace LfsCloud

open Interaction

variable {w : Worktrees} {s t : LocalCacheState w}

/-- A run of the collector that ends with a report. -/
def Reports (s : LocalCacheState w) (dryRun prune : Bool) (report : LocalCacheGarbageCollection)
    (t : LocalCacheState w) : Prop :=
  ((garbageCollect w dryRun prune).from ()).Returns (collectorOp w) s (.ok report, ()) t

/-- A run of the collector that ends with an error, or is killed. -/
def Fails (s : LocalCacheState w) (dryRun prune : Bool) (t : LocalCacheState w) : Prop :=
  (∃ e, ((garbageCollect w dryRun prune).from ()).Returns (collectorOp w) s (.error e, ()) t) ∨
    ((garbageCollect w dryRun prune).from ()).Killed (collectorOp w) s t

/-- Every file is at the path of the object that it is reported as, or it is left where it
is and reported as skipped, or a directory above it is. -/
def FilesExact (s : LocalCacheState w) (prune : Bool) : Prop :=
  ∀ dryRun report t, Reports s dryRun prune report t →
    ∀ path node, s.objects.nodes.lookup path = some node → node ≠ .dir →
      (∃ object ∈ report.retainedObjects ++ report.protectedObjects ++ report.unreferencedObjects,
        object.path = path ∧ path = objectPathForOid object.oid) ∨
      (t.objects.nodes.lookup path = some node ∧
        ∃ skipped ∈ report.skippedCachePaths, skipped <+: path)

/-- No file lies in the directories of an identifier under a name that reads as it and is
not its digits. -/
def CanonicalNames (s : LocalCacheState w) : Prop :=
  ∀ oid name size, LfsOid.new name = .ok oid →
    s.objects.nodes.lookup [.text (objectShards oid).1, .text (objectShards oid).2, .text name] =
      some (.file (some size)) → name = oid.hex

/-- What a report is. -/
theorem Reports.spec {dryRun prune : Bool} {report : LocalCacheGarbageCollection}
    (h : Reports s dryRun prune report t) :
    s.Readable ∧ report = s.report dryRun prune ∧ Finished s dryRun prune t := by
  obtain ⟨⟨hreadable, hreport⟩, hfinished⟩ :=
    (triple_garbageCollect s dryRun prune () s rfl).1 report () t h
  exact ⟨hreadable, hreport, hfinished⟩

/-- What is left after a failure. -/
theorem Fails.stopped {dryRun prune : Bool} (h : Fails s dryRun prune t) :
    Stopped s dryRun prune t := by
  obtain ⟨_, herror, hkilled⟩ := triple_garbageCollect s dryRun prune () s rfl
  rcases h with ⟨e, h⟩ | h
  · exact herror e () t h
  · exact hkilled t h

/-- Two objects of one scan with the same path are of the same identifier. -/
theorem oid_eq_of_path {object object' : LocalCacheGarbageCollectionObject}
    (h : object ∈ (collectCacheObjectFiles s.objects).1)
    (h' : object' ∈ (collectCacheObjectFiles s.objects).1) (hpath : object.path = object'.path) :
    object.oid = object'.oid := by
  obtain ⟨_, _, _, _, _, hentry⟩ := mem_collectCacheObjectFiles.mp h
  obtain ⟨_, _, _, _, _, hentry'⟩ := mem_collectCacheObjectFiles.mp h'
  obtain ⟨text, rfl, hoid, _, _, hobject, _⟩ := cacheObjectFromEntry_eq_some.mp hentry
  obtain ⟨text', rfl, hoid', _, _, hobject', _⟩ := cacheObjectFromEntry_eq_some.mp hentry'
  rw [hobject, hobject'] at hpath
  simp only [List.cons.injEq, OsString.text.injEq, and_true] at hpath
  rw [hpath.2.2] at hoid
  exact Except.ok.inj (hoid.symm.trans hoid')

/-- With canonical names, every object is where the layout puts it. -/
theorem CanonicalNames.path_eq (hs : CanonicalNames s)
    {object : LocalCacheGarbageCollectionObject}
    (h : object ∈ (collectCacheObjectFiles s.objects).1) :
    object.path = objectPathForOid object.oid := by
  obtain ⟨first, second, name, size, hlookup, hentry⟩ := mem_collectCacheObjectFiles.mp h
  obtain ⟨text, rfl, hoid, rfl, rfl, hpath, rfl⟩ := cacheObjectFromEntry_eq_some.mp hentry
  rw [hpath, hs object.oid text object.sizeBytes hoid hlookup]
  rfl

/-- Canonical names are enough. -/
theorem CanonicalNames.filesExact (hs : CanonicalNames s) (prune : Bool) :
    FilesExact s prune := by
  intro dryRun report t hreports path node hlookup hnode
  obtain ⟨hreadable, rfl, hfinished⟩ := hreports.spec
  have hmem := fun object => (s.report_perm dryRun prune).mem_iff (a := object)
  have hne : path ≠ [] := by
    rintro rfl
    exact hnode (hreadable node hlookup)
  by_cases hobject : ∃ object ∈ (collectCacheObjectFiles s.objects).1, object.path = path
  · obtain ⟨object, hscan, rfl⟩ := hobject
    exact .inl ⟨object, (hmem object).mpr hscan, rfl, hs.path_eq hscan⟩
  · right
    have hkept : t.objects.nodes.lookup path = some node := by
      unfold Finished at hfinished
      split at hfinished
      · rwa [hfinished]
      · refine hfinished.2.kept hlookup ?_ hnode
        intro hpath
        obtain ⟨object, hunreferenced, hpath⟩ := List.mem_map.mp hpath
        have hreported := (s.report_perm false prune).mem_iff.mp
          (List.mem_append_right _ hunreferenced)
        exact hobject ⟨object, hreported, hpath⟩
    obtain ⟨skipped, hskipped, hfront⟩ :=
      (covered_collectCacheObjectFiles hlookup hnode hne).resolve_left hobject
    exact ⟨hkept, skipped, List.mem_mergeSort.mpr hskipped, hfront⟩

/-- And they are needed: another name is taken for an object by every report. -/
theorem canonicalNames_of_filesExact {prune : Bool} (h : FilesExact s prune) :
    CanonicalNames s := by
  intro oid name size hoid hlookup
  have hentry : cacheObjectFromEntry (.text (objectShards oid).1) (.text (objectShards oid).2)
      (.text name) (some size) =
        some ⟨oid, [.text (objectShards oid).1, .text (objectShards oid).2, .text name], size⟩ :=
    cacheObjectFromEntry_eq_some.mpr ⟨name, rfl, hoid, rfl, rfl, rfl, rfl⟩
  have hscan := mem_collectCacheObjectFiles.mpr ⟨_, _, _, _, hlookup, hentry⟩
  have hreadable : s.Readable := by
    intro node hnode
    have hdir := FileTree.lookup_of_prefix [] _ hlookup (by simp)
    exact Option.some.inj (hnode.symm.trans hdir)
  obtain ⟨report, hreports⟩ := runs_garbageCollect s prune hreadable
  have hspec := Reports.spec hreports
  rcases h true report s hreports _ _ hlookup nofun with hobject | ⟨_, skipped, hskipped, hfront⟩
  · obtain ⟨object, hmem, hpath, hexact⟩ := hobject
    rw [hspec.2.1] at hmem
    have hfound := (s.report_perm true prune).mem_iff.mp hmem
    have hsame := oid_eq_of_path hfound hscan hpath
    rw [hsame] at hexact
    simp only [objectPathForOid, List.cons.injEq, OsString.text.injEq, and_true,
      true_and] at hexact
    exact hexact
  · exfalso
    rw [hspec.2.1] at hskipped
    obtain ⟨rest, hrest⟩ := hfront
    have hskipped := List.mem_mergeSort.mp hskipped
    rcases skipped_collectCacheObjectFiles hskipped with ⟨node, hnode, hdir, hlength⟩ |
      ⟨first, second, third, node, rfl, hnode, hnone⟩
    · have hrest' : rest ≠ [] := by
        rintro rfl
        rw [List.append_nil] at hrest
        rw [hrest] at hlength
        simp at hlength
      rw [← hrest] at hlookup
      have hfront := FileTree.lookup_of_prefix skipped rest hlookup hrest'
      exact hdir (Option.some.inj (hnode.symm.trans hfront))
    · simp only [List.cons_append, List.cons.injEq, List.nil_append] at hrest
      obtain ⟨rfl, rfl, rfl, _⟩ := hrest
      rw [hlookup] at hnode
      have hmissing := hnone _ (Option.some.inj hnode).symm
      rw [hentry] at hmissing
      cases hmissing

/-- The report divides the objects on disk into retained, protected and unreferenced ones. A
dry run changes nothing, and reports as unreferenced and as pruned what a real run from the
same state deletes and takes out of the registry. A run that fails or is killed has lost no
file but of objects that a dry run reports as unreferenced. And every file that goes is at
the path of its identifier, all others being skipped, exactly when no file has another name
that reads as the identifier of its directories. -/
theorem garbage_collection_exact (w : Worktrees) (s : LocalCacheState w) (prune : Bool) :
    (∀ dryRun report t, Reports s dryRun prune report t →
      (report.retainedObjects ++ report.protectedObjects ++ report.unreferencedObjects).Perm
        (collectCacheObjectFiles s.objects).1) ∧
    (∀ t, (∃ report, Reports s true prune report t) ∨ Fails s true prune t → t = s) ∧
    (∀ report report' t t', Reports s true prune report t → Reports s false prune report' t' →
      report.unreferencedObjects = report'.deletedObjects ∧
        report'.unreferencedObjects = report'.deletedObjects ∧
        FileTree.Removes s.objects t'.objects (report'.deletedObjects.map (·.path)) ∧
        report.prunedWorktrees = report'.prunedWorktrees ∧
        t'.registry = s.registry.filter (· ∉ report'.prunedWorktrees)) ∧
    (∀ report t t', Reports s true prune report t → Fails s false prune t' →
      ∀ path node, s.objects.nodes.lookup path = some node → node ≠ .dir →
        t'.objects.nodes.lookup path = some node ∨
          ∃ object ∈ report.unreferencedObjects, object.path = path) ∧
    (FilesExact s prune ↔ CanonicalNames s) := by
  refine ⟨?_, ?_, ?_, ?_, canonicalNames_of_filesExact, fun h => h.filesExact prune⟩
  · intro dryRun report t hreports
    rw [hreports.spec.2.1]
    exact s.report_perm dryRun prune
  · rintro t (⟨report, hreports⟩ | hfails)
    · exact hreports.spec.2.2
    · exact hfails.stopped.1 rfl
  · intro report report' t t' hreports hreports'
    obtain ⟨_, rfl, _⟩ := hreports.spec
    obtain ⟨_, rfl, hregistry, hremoves⟩ := hreports'.spec
    refine ⟨rfl, rfl, hremoves, rfl, ?_⟩
    rw [hregistry]
    cases prune with
    | true =>
      apply List.filter_congr
      intro registration hregistration
      simp [LocalCacheState.report, LocalCacheState.unavailable, hregistration]
    | false => simp [LocalCacheState.report]
  · intro report t t' hreports hfails path node hlookup hnode
    obtain ⟨_, rfl, _⟩ := hreports.spec
    obtain ⟨_, paths, hsub, hremoves⟩ := hfails.stopped
    by_cases hpath : path ∈ paths
    · obtain ⟨object, hobject, hpath⟩ := List.mem_map.mp (hsub hpath)
      exact .inr ⟨object, hobject, hpath⟩
    · exact .inl (hremoves.kept hlookup hpath hnode)

/-- No worktree is there. -/
def noWorktrees : Worktrees := ⟨id, fun _ => none, fun _ => ([], [])⟩

/-- A name of the identifier of zeros, with its algorithm. -/
def prefixedZeroName : String := "sha256:" ++ String.ofList (List.replicate sha256HexLength '0')

/-- A cache with one file, which has that name. -/
def prefixedNameTree : FileTree OsString where
  nodes := ⟨[⟨[], .dir⟩, ⟨[.text "00"], .dir⟩, ⟨[.text "00", .text "00"], .dir⟩,
    ⟨[.text "00", .text "00", .text prefixedZeroName], .file (some 0)⟩], by simp [List.NodupKeys]⟩
  parents {path name node} h := by
    have hmem := AList.mem_lookup_iff.mp h
    simp only [List.mem_cons, Sigma.mk.injEq, List.not_mem_nil, or_false] at hmem
    rcases hmem with ⟨hpath, _⟩ | ⟨hpath, _⟩ | ⟨hpath, _⟩ | ⟨hpath, _⟩
    · exact absurd hpath (by simp)
    · obtain rfl : path = [] := by simpa using congrArg List.dropLast hpath
      rfl
    · obtain rfl : path = [.text "00"] := by simpa using congrArg List.dropLast hpath
      rfl
    · obtain rfl : path = [.text "00", .text "00"] := by
        simpa using congrArg List.dropLast hpath
      rfl

/-- The cache with that file, and an empty registry. -/
def prefixedNameCache : LocalCacheState noWorktrees := ⟨[], List.nodup_nil, prefixedNameTree⟩

/-- A file whose name is not the canonical one is taken for an object, and not skipped. -/
theorem garbage_collection_prefixed_name : ¬FilesExact prefixedNameCache false := by
  intro h
  have hname : LfsOid.new prefixedZeroName = .ok LfsOid.zero := by decide
  have hshards : objectShards LfsOid.zero = ("00", "00") := by decide
  have hcanonical := canonicalNames_of_filesExact h LfsOid.zero prefixedZeroName 0 hname
  rw [hshards] at hcanonical
  have hexact := hcanonical rfl
  exact absurd hexact (by decide)

end LfsCloud
