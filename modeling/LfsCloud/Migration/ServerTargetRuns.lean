import LfsCloud.Lib.Results
import LfsCloud.Migration.ServerTarget

/-!
# A migration through the server is complete before the repository is switched

The objects of the plan and of the batches still to be asked for are at every turn a
rearrangement of the objects of the migration: a batch that is split or read only moves them. An
answer that does not name each of its objects exactly once is an error, so nothing is lost when
the server is hostile.
-/

namespace LfsCloud

open Interaction

/-- A part of the record of a migration. -/
abbrev TargetRecord := Record targetInterface

/-- A call of a migration with its answer. -/
def targetEvent (c : TargetCall) (answer : TargetAnswer c) :
    Σ c : targetInterface.Call, targetInterface.Answer c :=
  ⟨c, answer⟩

/-- The calls that switch a repository: `lfs.url` and the URL of the legacy source. -/
def TargetCall.WritesConfiguration : TargetCall → Prop
  | .writeWorktreeRemoteLfsUrl _ _ => True
  | .writeLfsUrl _ _ => True
  | _ => False

/-- The uploads and the objects that are present are the objects, each of them once. -/
structure MigrationTargetPlan.Partitions (plan : MigrationTargetPlan) (objects : List LfsObject) :
    Prop where
  nodup : (plan.uploads.map Prod.fst ++ plan.alreadyPresentObjects).Nodup
  mem_iff : ∀ object, object ∈ plan.uploads.map Prod.fst ∨
    object ∈ plan.alreadyPresentObjects ↔ object ∈ objects

/-- The entry of a batch response that says that the server has the object. -/
def LfsBatchObjectResponse.Present (result : LfsBatchObjectResponse) (object : LfsObject) : Prop :=
  (⟨result.oid, result.size⟩ : LfsObject) = object ∧ result.error = none ∧
    result.actions.entries = []

section

variable (lib : TargetLibraries)

/-- The server answered a batch request at the URL successfully with the object as present. -/
def ReportedPresent (batchUrl : Url) (object : LfsObject) (record : TargetRecord) : Prop :=
  ∃ objects status body response, object ∈ objects ∧
    targetEvent (.postBatch batchUrl ⟨.upload, [lfsBasicTransfer], objects⟩)
      (.ok (status, body)) ∈ record ∧
    isSuccessStatus status = true ∧ lib.fromJson body = .ok response ∧
    ∃ result ∈ response.objects, result.Present object

/-- The URL is that of the object below the LFS URL of the target. Where the route is that of a
Git repository, its name may differ in ASCII case. -/
structure OnTargetRoute (targetUrl : Url) (object : LfsObject) (url : Url) : Prop where
  scheme : url.scheme = targetUrl.scheme
  host : url.host = targetUrl.host
  port : url.port = targetUrl.port
  path : ∃ route, url.pathText = route ++ "/objects/".toList ++ object.oid.hex.toList ∧
    (route = Lines.trimEnd '/' targetUrl.pathText ∨
      ∃ name targetName, route = name ++ ".git/info/lfs".toList ∧
        Lines.trimEnd '/' targetUrl.pathText = targetName ++ ".git/info/lfs".toList ∧
        name.map Char.toLower = targetName.map Char.toLower)
  query : lib.queryPairs url = [("size", toString object.size)]
  userinfo : url.username = [] ∧ url.password = none
  fragment : url.fragment = none

/-- A source file was found to have the bytes of the object, and then the target accepted it at
the URL of the object. -/
def AcceptedUpload (targetUrl : Url) (object : LfsObject) (record : TargetRecord) : Prop :=
  ∃ (before middle after : TargetRecord) (source : String) (url : Url) (authorization : String)
    (status : ℕ),
    record = before ++
      (targetEvent (.hashMigrationObjectFile source) (.ok (object.oid, object.size)) ::
        (middle ++ targetEvent (.putObject url authorization object source) (.ok status) ::
          after)) ∧
    OnTargetRoute lib targetUrl object url ∧ isSuccessStatus status = true

variable {lib}

theorem ReportedPresent.append {batchUrl : Url} {object : LfsObject} {record : TargetRecord}
    (h : ReportedPresent lib batchUrl object record) (later : TargetRecord) :
    ReportedPresent lib batchUrl object (record ++ later) := by
  obtain ⟨objects, status, body, response, hobject, hmem, hrest⟩ := h
  exact ⟨objects, status, body, response, hobject, List.mem_append_left _ hmem, hrest⟩

theorem AcceptedUpload.append {targetUrl : Url} {object : LfsObject} {record : TargetRecord}
    (h : AcceptedUpload lib targetUrl object record) (later : TargetRecord) :
    AcceptedUpload lib targetUrl object (record ++ later) := by
  obtain ⟨before, middle, after, source, url, authorization, status, rfl, hrest⟩ := h
  refine ⟨before, middle, after ++ later, source, url, authorization, status, ?_, hrest⟩
  simp only [List.append_assoc, List.cons_append]

/-! ## The batches -/

theorem flatten_chunks {α : Type} {size : ℕ} (hsize : 0 < size) {fuel : ℕ} {xs : List α}
    (hfuel : xs.length ≤ fuel) : (chunks size fuel xs).flatten = xs := by
  induction fuel generalizing xs with
  | zero => rw [List.length_eq_zero_iff.mp (by omega : xs.length = 0)]; rfl
  | succ fuel ih =>
    cases xs with
    | nil => rfl
    | cons x rest =>
      have hlength : ((x :: rest).drop size).length ≤ fuel := by
        rw [List.length_drop]
        omega
      rw [chunks, List.flatten_cons, ih hlength, List.take_append_drop]

theorem ne_nil_of_mem_chunks {α : Type} {size : ℕ} (hsize : 0 < size) {fuel : ℕ} {xs chunk : List α}
    (h : chunk ∈ chunks size fuel xs) : chunk ≠ [] := by
  induction fuel generalizing xs with
  | zero => cases h
  | succ fuel ih =>
    cases xs with
    | nil => cases h
    | cons x rest =>
      rcases List.mem_cons.mp h with rfl | h
      · simp only [ne_eq, List.take_eq_nil_iff, reduceCtorEq, or_false]
        omega
      · exact ih h

/-- The batches that can still follow: each batch may be split down to single objects. -/
def pendingTurns (pending : List (List LfsObject)) : ℕ :=
  (pending.map fun chunk => 2 * chunk.length - 1).sum

theorem pendingTurns_cons (chunk : List LfsObject) (pending : List (List LfsObject)) :
    pendingTurns (chunk :: pending) = 2 * chunk.length - 1 + pendingTurns pending :=
  rfl

theorem pendingTurns_le (pending : List (List LfsObject)) :
    pendingTurns pending ≤ 2 * pending.flatten.length := by
  induction pending with
  | nil => exact Nat.le_refl _
  | cons chunk pending ih =>
    rw [pendingTurns_cons, List.flatten_cons, List.length_append]
    omega

/-- What an answer adds to the plan: each of the expected objects, once. -/
theorem readBatchResults_ok {expected : Finset LfsObject} {plan plan' : MigrationTargetPlan}
    {results : List LfsBatchObjectResponse}
    (h : readBatchResults lib expected plan results = .ok plan') :
    ∃ uploads present,
      plan' = ⟨plan.uploads ++ uploads, plan.alreadyPresentObjects ++ present⟩ ∧
      (uploads.map Prod.fst ++ present).Nodup ∧
      (∀ object, object ∈ uploads.map Prod.fst ++ present ↔ object ∈ expected) ∧
      ∀ object ∈ present, ∃ result ∈ results, result.Present object := by
  induction results generalizing expected plan with
  | nil =>
    rw [readBatchResults] at h
    split at h
    next hexpected =>
      subst hexpected
      obtain rfl := Except.ok.inj h
      refine ⟨[], [], ?_, List.nodup_nil, fun object => ?_, fun object hmem => ?_⟩
      · simp only [List.append_nil]
      · simp only [List.map_nil, List.append_nil, List.not_mem_nil, Finset.notMem_empty]
      · cases hmem
    next => cases h
  | cons result rest ih =>
    rw [readBatchResults] at h
    generalize hobject : (⟨result.oid, result.size⟩ : LfsObject) = object at h
    split at h
    · cases h
    rename_i hmem
    rw [not_not] at hmem
    split at h
    · cases h
    rename_i herror
    split at h
    · rename_i action _
      obtain ⟨uploads, present, rfl, hnodup, hiff, hpresent⟩ := ih h
      refine ⟨(object, action) :: uploads, present, ?_, ?_, fun other => ?_, ?_⟩
      · simp only [List.append_assoc, List.singleton_append]
      · rw [List.map_cons, List.cons_append, List.nodup_cons, hiff object]
        exact ⟨Finset.notMem_erase _ _, hnodup⟩
      · rw [List.map_cons, List.cons_append, List.mem_cons, hiff other, Finset.mem_erase]
        by_cases hother : other = object
        · simp only [hother, true_or, hmem]
        · simp only [hother, false_or, ne_eq, not_false_eq_true, true_and]
      · intro other hother
        obtain ⟨entry, hentry, hpresent⟩ := hpresent other hother
        exact ⟨entry, List.mem_cons_of_mem _ hentry, hpresent⟩
    · split at h
      next hactions =>
        obtain ⟨uploads, present, rfl, hnodup, hiff, hpresent⟩ := ih h
        have hperm : (uploads.map Prod.fst ++ object :: present).Perm
            (object :: (uploads.map Prod.fst ++ present)) := List.perm_middle
        refine ⟨uploads, object :: present, ?_, ?_, fun other => ?_, ?_⟩
        · simp only [List.append_assoc, List.singleton_append]
        · rw [hperm.nodup_iff, List.nodup_cons, hiff object]
          exact ⟨Finset.notMem_erase _ _, hnodup⟩
        · rw [hperm.mem_iff, List.mem_cons, hiff other, Finset.mem_erase]
          by_cases hother : other = object
          · simp only [hother, true_or, hmem]
          · simp only [hother, false_or, ne_eq, not_false_eq_true, true_and]
        · intro other hother
          rcases List.mem_cons.mp hother with rfl | hother
          · exact ⟨result, List.mem_cons_self, hobject, herror, List.isEmpty_iff.mp hactions⟩
          · obtain ⟨entry, hentry, hpresent⟩ := hpresent other hother
            exact ⟨entry, List.mem_cons_of_mem _ hentry, hpresent⟩
      next => cases h

/-! ## The plan -/

/-- Before each turn: no batch is empty, the plan and the batches are a rearrangement of the
objects, and the server reported the objects that are taken for present. -/
structure PlanInvariant (lib : TargetLibraries) (batchUrl : Url) (objects : List LfsObject)
    (state : TargetPlanState) (record : TargetRecord) : Prop where
  ne_nil : ∀ chunk ∈ state.pendingBatches, chunk ≠ []
  perm : (state.plan.uploads.map Prod.fst ++ state.plan.alreadyPresentObjects ++
    state.pendingBatches.flatten).Perm objects
  present : ∀ object ∈ state.plan.alreadyPresentObjects, ReportedPresent lib batchUrl object record

variable {batchUrl : Url} {objects chunk : List LfsObject} {pending : List (List LfsObject)}
  {plan : MigrationTargetPlan} {state : TargetPlanState} {record : TargetRecord} {status : ℕ}
  {body : String}

/-- The invariant does not depend on what is recorded later. -/
theorem PlanInvariant.append (h : PlanInvariant lib batchUrl objects state record)
    (later : TargetRecord) : PlanInvariant lib batchUrl objects state (record ++ later) :=
  ⟨h.ne_nil, h.perm, fun object hobject => (h.present object hobject).append later⟩

/-- A batch that is split. -/
theorem PlanInvariant.split
    (h : PlanInvariant lib batchUrl objects ⟨chunk :: pending, plan⟩ record)
    (hlength : 1 < chunk.length) :
    PlanInvariant lib batchUrl objects
      ⟨chunk.take (chunk.length / 2) :: chunk.drop (chunk.length / 2) :: pending, plan⟩ record := by
  refine ⟨fun part hpart => ?_, ?_, h.present⟩
  · rcases List.mem_cons.mp hpart with rfl | hpart
    · intro hnil
      have hzero := congrArg List.length hnil
      rw [List.length_take, List.length_nil] at hzero
      omega
    rcases List.mem_cons.mp hpart with rfl | hpart
    · intro hnil
      have hzero := congrArg List.length hnil
      rw [List.length_drop, List.length_nil] at hzero
      omega
    · exact h.ne_nil part (List.mem_cons_of_mem _ hpart)
  · have hperm := h.perm
    simp only [List.flatten_cons] at hperm ⊢
    rwa [← List.append_assoc (chunk.take _), List.take_append_drop]

theorem pendingTurns_split (hlength : 1 < chunk.length) :
    pendingTurns (chunk.take (chunk.length / 2) :: chunk.drop (chunk.length / 2) :: pending) <
      pendingTurns (chunk :: pending) := by
  simp only [pendingTurns_cons, List.length_take, List.length_drop]
  omega

/-- A batch whose answer is read. -/
theorem PlanInvariant.read {plan' : MigrationTargetPlan} {response : LfsBatchResponse}
    (hobjects : objects.Nodup)
    (h : PlanInvariant lib batchUrl objects ⟨chunk :: pending, plan⟩ record)
    (hstatus : isSuccessStatus status = true) (hbody : lib.fromJson body = .ok response)
    (hread : readBatchResults lib chunk.toFinset plan response.objects = .ok plan') :
    PlanInvariant lib batchUrl objects ⟨pending, plan'⟩
      (record ++ [targetEvent (.postBatch batchUrl ⟨.upload, [lfsBasicTransfer], chunk⟩)
        (.ok (status, body))]) := by
  obtain ⟨uploads, present, rfl, hnodup, hiff, hpresent⟩ := readBatchResults_ok hread
  have hperm := h.perm
  rw [List.flatten_cons] at hperm
  have hchunk : chunk.Nodup :=
    (((hperm.nodup_iff.mpr hobjects).of_append_right).of_append_left)
  have hadded : (uploads.map Prod.fst ++ present).Perm chunk := by
    refine (List.perm_ext_iff_of_nodup hnodup hchunk).mpr fun object => ?_
    rw [hiff object, List.mem_toFinset]
  refine ⟨fun part hpart => h.ne_nil part (List.mem_cons_of_mem _ hpart), ?_,
    fun object hobject => ?_⟩
  · rw [List.map_append]
    refine List.Perm.trans ?_ hperm
    rw [← List.append_assoc (_ ++ _) chunk]
    refine List.Perm.append_right _ ?_
    refine List.Perm.trans ?_ (hadded.append_left _)
    simp only [List.append_assoc]
    refine List.Perm.append_left _ ?_
    simp only [← List.append_assoc]
    exact List.perm_append_comm.append_right _
  · rcases List.mem_append.mp hobject with hobject | hobject
    · exact (h.present object hobject).append _
    · have hmem : object ∈ chunk := hadded.mem_iff.mp (List.mem_append_right _ hobject)
      exact ⟨chunk, status, body, response, hmem, List.mem_append_right _ List.mem_cons_self,
        hstatus, hbody, hpresent object hobject⟩

/-- An answer that is accepted keeps the invariant, and the loop comes closer to its end. -/
theorem PlanInvariant.accept (hobjects : objects.Nodup)
    (h : PlanInvariant lib batchUrl objects ⟨chunk :: pending, plan⟩ record)
    (haccept : acceptBatch lib chunk pending plan status body = .ok state) :
    pendingTurns state.pendingBatches < pendingTurns (chunk :: pending) ∧
      PlanInvariant lib batchUrl objects state
        (record ++ [targetEvent (.postBatch batchUrl ⟨.upload, [lfsBasicTransfer], chunk⟩)
          (.ok (status, body))]) := by
  unfold acceptBatch at haccept
  split at haccept
  next hsplit =>
    obtain rfl := Except.ok.inj haccept
    exact ⟨pendingTurns_split hsplit.2, (h.split hsplit.2).append _⟩
  split at haccept
  · cases haccept
  rename_i hstatus
  split at haccept
  · cases haccept
  rename_i response hbody
  split at haccept
  · cases haccept
  cases hread : readBatchResults lib chunk.toFinset plan response.objects with
  | error error =>
    rw [hread] at haccept
    cases haccept
  | ok plan' =>
    rw [hread] at haccept
    obtain rfl := Except.ok.inj haccept
    refine ⟨?_, h.read hobjects (Bool.eq_true_of_not_eq_false hstatus) hbody hread⟩
    have hlength := List.length_pos_of_ne_nil (h.ne_nil chunk List.mem_cons_self)
    change pendingTurns pending < 2 * chunk.length - 1 + pendingTurns pending
    omega

/-- What the loop over the batches ends with. -/
def PlanReported (lib : TargetLibraries) (batchUrl : Url) (objects : List LfsObject)
    (plan : MigrationTargetPlan) (record : TargetRecord) : Prop :=
  plan.Partitions objects ∧
    ∀ object ∈ plan.alreadyPresentObjects, ReportedPresent lib batchUrl object record

/-- A plan to which no batch is missing. -/
theorem PlanInvariant.reported (hobjects : objects.Nodup)
    (h : PlanInvariant lib batchUrl objects ⟨[], plan⟩ record) :
    PlanReported lib batchUrl objects plan record := by
  have hperm := h.perm
  rw [List.flatten_nil, List.append_nil] at hperm
  refine ⟨⟨hperm.nodup_iff.mpr hobjects, fun object => ?_⟩, h.present⟩
  rw [← List.mem_append]
  exact hperm.mem_iff

section

variable {G : TargetRecord → Prop}

/-- One turn of the loop over the batches. -/
theorem planTurn_records (hobjects : objects.Nodup) (state : TargetPlanState) :
    RecordsOk TargetCall.WritesConfiguration G (PlanInvariant lib batchUrl objects state)
      (planTurn lib batchUrl state)
      (LoopTurn (fun state => pendingTurns state.pendingBatches)
        (PlanInvariant lib batchUrl objects) (PlanReported lib batchUrl objects) state) := by
  obtain ⟨_ | ⟨chunk, pending⟩, plan⟩ := state
  · exact .pure fun record h => h.reported hobjects
  · refine RecordsOk.bind (Q := fun answer record => ∃ before,
      PlanInvariant lib batchUrl objects ⟨chunk :: pending, plan⟩ before ∧
        record = before ++ [targetEvent (.postBatch batchUrl
          ⟨.upload, [lfsBasicTransfer], chunk⟩) (.ok answer)]) ?_ ?_
    · refine Records.request (fun hwrites => hwrites.elim) ?_
      rintro (error | answer) record h
      · trivial
      · exact ⟨record, h, rfl⟩
    · rintro ⟨status, body⟩
      refine RecordsOk.bind (.result fun state haccept record h => ?_)
        fun state => .pure fun record h => h
      obtain ⟨before, h, rfl⟩ := h
      exact h.accept hobjects haccept

/-- The plan is found in at most two turns for each object. -/
theorem requestMigrationTargetPlan_records (hobjects : objects.Nodup) {fuel : ℕ}
    (hfuel : 2 * objects.length < fuel) :
    Records TargetCall.WritesConfiguration G (fun _ => True)
      (requestMigrationTargetPlan lib fuel batchUrl objects)
      fun result record => ∃ r, result = some r ∧
        Outcome (PlanReported lib batchUrl objects) (fun _ => True) r record := by
  have hflatten : (chunks migrationTargetBatchSize objects.length objects).flatten = objects :=
    flatten_chunks (by decide) (Nat.le_refl _)
  have hmeasure := pendingTurns_le (chunks migrationTargetBatchSize objects.length objects)
  rw [hflatten] at hmeasure
  have hturns : pendingTurns (chunks migrationTargetBatchSize objects.length objects) < fuel := by
    omega
  refine Records.of_imp (RecordsOk.iterate (fun state => pendingTurns state.pendingBatches)
    (planTurn_records hobjects) hturns) fun record _ => ⟨fun chunk hchunk => ?_, ?_, ?_⟩
  · exact ne_nil_of_mem_chunks (by decide) hchunk
  · rw [hflatten]
    exact List.Perm.refl _
  · exact fun object hobject => absurd hobject List.not_mem_nil

end

/-! ## The uploads -/

theorem stripTextSuffix_eq_some {suffix text rest : List Char}
    (h : stripTextSuffix suffix text = some rest) : text = rest ++ suffix := by
  unfold stripTextSuffix at h
  split at h
  next hsuffix =>
    obtain rfl := Option.some.inj h
    obtain ⟨before, rfl⟩ := hsuffix
    rw [List.length_append, Nat.add_sub_cancel, List.take_left]
  next => cases h

/-- A path that matches is that of the object below a route of the target. -/
theorem migrationUploadActionPathMatches_route {targetPath actionPath : List Char} {oid : String}
    (h : migrationUploadActionPathMatches targetPath actionPath oid = true) :
    ∃ route, actionPath = route ++ "/objects/".toList ++ oid.toList ∧
      (route = targetPath ∨
        ∃ name targetName, route = name ++ ".git/info/lfs".toList ∧
          targetPath = targetName ++ ".git/info/lfs".toList ∧
          name.map Char.toLower = targetName.map Char.toLower) := by
  unfold migrationUploadActionPathMatches at h
  split at h
  next hpath => exact ⟨targetPath, hpath, .inl rfl⟩
  split at h
  · cases h
  rename_i targetName htarget
  split at h
  · cases h
  rename_i name haction
  have hsuffix : ".git/info/lfs/objects/".toList =
    ".git/info/lfs".toList ++ "/objects/".toList := by decide
  refine ⟨name ++ ".git/info/lfs".toList, ?_, .inr ⟨name, targetName, rfl,
    stripTextSuffix_eq_some htarget, of_decide_eq_true h⟩⟩
  rw [stripTextSuffix_eq_some haction, hsuffix]
  simp only [List.append_assoc]

/-- A URL that is let through is on the route of the target. -/
theorem onTargetRoute_of_validated {targetUrl url : Url} {actionUrl : String}
    {allowInsecureHttp : Bool} {object : LfsObject}
    (h : validatedMigrationUploadActionUrl lib targetUrl actionUrl allowInsecureHttp object =
      .ok url) : OnTargetRoute lib targetUrl object url := by
  unfold validatedMigrationUploadActionUrl at h
  split at h
  · cases h
  rename_i parsed _
  simp only at h
  split at h
  · cases h
  rename_i hsafe
  obtain rfl := Except.ok.inj h
  simp only [not_or, not_not, Bool.not_eq_false] at hsafe
  obtain ⟨⟨hscheme, hhost, hport⟩, hpath, hquery, ⟨husername, hpassword⟩, hfragment, _⟩ := hsafe
  exact ⟨hscheme, hhost, hport, migrationUploadActionPathMatches_route hpath, hquery,
    ⟨husername, hpassword⟩, hfragment⟩

/-- A source that is let through was hashed to the object. -/
theorem eq_of_checkMigrationUploadSource {path : String} {object : LfsObject}
    {actual : LfsOid × UInt64} (h : checkMigrationUploadSource path object actual = .ok ()) :
    actual = (object.oid, object.size) := by
  unfold checkMigrationUploadSource at h
  split at h
  next hactual => exact Prod.ext hactual.1 hactual.2
  next => cases h

section

variable {G P : TargetRecord → Prop} {targetUrl : Url} {allowInsecureHttp : Bool} {token : String}
  {available : List LocalMigrationObject}

/-- The object is uploaded, and what is known stays known. -/
theorem uploadThroughServer_records (hkept : Record.Kept P) (index total : ℕ) (object : LfsObject)
    (action : LfsBatchAction) :
    RecordsOk TargetCall.WritesConfiguration G P
      (uploadThroughServer lib targetUrl allowInsecureHttp token available index total object
        action)
      fun _ record => P record ∧ AcceptedUpload lib targetUrl object record := by
  refine RecordsOk.bind (Q := fun _ => P) ?_ fun _ => ?_
  · refine Records.request (fun hwrites => hwrites.elim) ?_
    rintro (error | answer) record h
    · trivial
    · exact hkept record _ h
  refine RecordsOk.bind (Q := fun _ => P) (.result fun _ _ _ h => h) fun localObject => ?_
  refine RecordsOk.bind (Q := fun _ => P) (.result fun _ _ _ h => h) fun source => ?_
  refine RecordsOk.bind (Q := fun actual record => P record ∧ ∃ before,
    record = before ++ [targetEvent (.hashMigrationObjectFile source) (.ok actual)]) ?_
    fun actual => ?_
  · refine Records.request (fun hwrites => hwrites.elim) ?_
    rintro (error | answer) record h
    · trivial
    · exact ⟨hkept record _ h, record, rfl⟩
  refine RecordsOk.bind (Q := fun _ record => P record ∧ ∃ before,
    record = before ++ [targetEvent (.hashMigrationObjectFile source)
      (.ok (object.oid, object.size))]) ?_ fun _ => ?_
  · refine .result fun _ hcheck record h => ?_
    rwa [eq_of_checkMigrationUploadSource (mapError_eq_ok hcheck)] at h
  refine RecordsOk.bind (Q := fun url record => OnTargetRoute lib targetUrl object url ∧
    P record ∧ ∃ before, record = before ++ [targetEvent (.hashMigrationObjectFile source)
      (.ok (object.oid, object.size))]) ?_ fun url => ?_
  · exact .result fun url hurl record h => ⟨onTargetRoute_of_validated hurl, h⟩
  refine RecordsOk.bind (Q := fun _ record => OnTargetRoute lib targetUrl object url ∧
    P record ∧ ∃ before, record = before ++ [targetEvent (.hashMigrationObjectFile source)
      (.ok (object.oid, object.size))]) (.result fun _ _ _ h => h) fun authorization => ?_
  refine RecordsOk.bind (Q := fun _ record => OnTargetRoute lib targetUrl object url ∧
    P record ∧ ∃ before event, record = before ++ [targetEvent (.hashMigrationObjectFile source)
      (.ok (object.oid, object.size)), event]) ?_ fun _ => ?_
  · refine Records.request (fun hwrites => hwrites.elim) ?_
    rintro (error | answer) record ⟨hroute, h, before, rfl⟩
    · trivial
    · exact ⟨hroute, hkept _ _ h, before, _, List.append_assoc _ _ _⟩
  refine RecordsOk.bind (Q := fun status record => P record ∧ (isSuccessStatus status = true →
    AcceptedUpload lib targetUrl object record)) ?_ fun status => ?_
  · refine Records.request (fun hwrites => hwrites.elim) ?_
    rintro (error | status) record ⟨hroute, h, before, event, rfl⟩
    · trivial
    · refine ⟨hkept _ _ h, fun hstatus => ⟨before, [event], [], source, url, authorization,
        status, ?_, hroute, hstatus⟩⟩
      exact List.append_assoc _ _ _
  · unfold acceptUpload
    split
    next hstatus => exact .pure fun record h => ⟨h.1, h.2 hstatus⟩
    next =>
      refine RecordsOk.bind (Q := fun _ _ => True) ?_ fun body =>
        .result fun _ hfail => nomatch hfail
      refine Records.request (fun hwrites => hwrites.elim) ?_
      rintro (error | answer) record _ <;> trivial

/-- Every object of the list is uploaded. -/
theorem uploadAllThroughServer_records (hkept : Record.Kept P) (total : ℕ)
    (uploads : List (LfsObject × LfsBatchAction)) (index : ℕ) :
    RecordsOk TargetCall.WritesConfiguration G P
      (uploadAllThroughServer lib targetUrl allowInsecureHttp token available total index uploads)
      fun _ record => P record ∧
        ∀ object ∈ uploads.map Prod.fst, AcceptedUpload lib targetUrl object record := by
  induction uploads generalizing index P with
  | nil => exact .pure fun record h => ⟨h, fun object hobject => absurd hobject List.not_mem_nil⟩
  | cons upload rest ih =>
    obtain ⟨object, action⟩ := upload
    refine RecordsOk.bind (uploadThroughServer_records hkept index total object action) fun _ => ?_
    have hkept' : Record.Kept fun record => P record ∧ AcceptedUpload lib targetUrl object record :=
      fun record event h => ⟨hkept record event h.1, h.2.append [event]⟩
    refine RecordsOk.bind (ih hkept' (index + 1)) fun uploaded => .pure fun record h => ?_
    obtain ⟨⟨hP, hobject⟩, hrest⟩ := h
    refine ⟨hP, fun other hother => ?_⟩
    rcases List.mem_cons.mp hother with rfl | hother
    · exact hobject
    · exact hrest other hother

end

/-! ## The execution -/

/-- The server reported each object as present, or accepted it at the URL of the object. -/
def TargetComplete (lib : TargetLibraries) (context : MigrationExecutionContext)
    (record : TargetRecord) : Prop :=
  ∀ object ∈ context.objects,
    (∃ batchUrl, migrationBatchUrl lib context.lfsUrl context.allowInsecureHttp = .ok batchUrl ∧
      ReportedPresent lib batchUrl object record) ∨
    ∃ targetUrl, lib.parseUrl context.lfsUrl.toList = .ok targetUrl ∧
      AcceptedUpload lib targetUrl object record

section

variable {context : MigrationExecutionContext} {token : String}

theorem targetComplete_kept : Record.Kept (TargetComplete lib context) := by
  intro record event h object hobject
  rcases h object hobject with ⟨batchUrl, hurl, hpresent⟩ | ⟨targetUrl, hurl, haccepted⟩
  · exact .inl ⟨batchUrl, hurl, hpresent.append [event]⟩
  · exact .inr ⟨targetUrl, hurl, haccepted.append [event]⟩

theorem planReported_kept {plan : MigrationTargetPlan} :
    Record.Kept (PlanReported lib batchUrl objects plan) :=
  fun _ event h => ⟨h.1, fun object hobject => (h.2 object hobject).append [event]⟩

theorem configureLegacySource_records :
    RecordsOk TargetCall.WritesConfiguration (TargetComplete lib context)
      (TargetComplete lib context) (configureLegacySource lib context)
      fun _ => TargetComplete lib context := by
  unfold configureLegacySource
  split
  · exact .pure fun _ h => h
  refine RecordsOk.bind (Q := fun _ => TargetComplete lib context) (.result fun _ _ _ h => h)
    fun sourceUrl => ?_
  refine RecordsOk.bind (Q := fun _ => TargetComplete lib context) ?_ fun _ => .pure fun _ h => h
  refine Records.request (fun _ _ h => h) ?_
  rintro (error | answer) record h
  · trivial
  · exact targetComplete_kept record _ h

/-- The repository is pointed to a server that has every object. -/
theorem configureTarget_records (serverUpload : MigrationServerUpload) :
    RecordsOk TargetCall.WritesConfiguration (TargetComplete lib context)
      (TargetComplete lib context) (configureTarget lib context serverUpload)
      fun _ => TargetComplete lib context := by
  have hwrite : ∀ target, RecordsOk TargetCall.WritesConfiguration (TargetComplete lib context)
      (TargetComplete lib context) (ExceptT.mk (request (F := targetInterface)
        (.writeLfsUrl target context.lfsUrl)) : TargetProg Unit)
      fun _ => TargetComplete lib context := by
    intro target
    refine Records.request (fun _ _ h => h) ?_
    rintro (error | answer) record h
    · trivial
    · exact targetComplete_kept record _ h
  refine RecordsOk.bind configureLegacySource_records fun legacy => ?_
  refine RecordsOk.bind (hwrite .worktreeFile) fun _ => ?_
  refine RecordsOk.bind (hwrite .localRepository) fun _ => ?_
  exact .pure fun _ h => h

/-- The uploads of a plan. -/
theorem uploadMigrationObjectsThroughServer_records {P G : TargetRecord → Prop} (hkept : Record.Kept P)
    {lfsUrl : String} {allowInsecureHttp : Bool} {available : List LocalMigrationObject} :
    RecordsOk TargetCall.WritesConfiguration G P
      (uploadMigrationObjectsThroughServer lib lfsUrl allowInsecureHttp token available plan)
      fun _ record => P record ∧ ∃ targetUrl, lib.parseUrl lfsUrl.toList = .ok targetUrl ∧
        ∀ object ∈ plan.uploads.map Prod.fst, AcceptedUpload lib targetUrl object record := by
  refine RecordsOk.bind (Q := fun targetUrl record =>
    lib.parseUrl lfsUrl.toList = .ok targetUrl ∧ P record)
    (.result fun _ hurl _ h => ⟨mapError_eq_ok hurl, h⟩) fun targetUrl => ?_
  have hkept' : Record.Kept fun record => lib.parseUrl lfsUrl.toList = .ok targetUrl ∧ P record :=
    fun record event h => ⟨h.1, hkept record event h.2⟩
  refine RecordsOk.bind (Q := fun _ record =>
    lib.parseUrl lfsUrl.toList = .ok targetUrl ∧ P record) ?_ fun _ => ?_
  · refine Records.request (fun hwrites => hwrites.elim) ?_
    rintro (error | answer) record h
    · trivial
    · exact hkept' record _ h
  · exact (uploadAllThroughServer_records hkept' _ _ _).bind fun uploaded =>
      .pure fun record h => ⟨h.1.2, targetUrl, h.1.1, h.2⟩

/-- What follows the plan. -/
theorem executePlan_records
    (hurl : migrationBatchUrl lib context.lfsUrl context.allowInsecureHttp = .ok batchUrl) :
    RecordsOk TargetCall.WritesConfiguration (TargetComplete lib context)
      (PlanReported lib batchUrl context.objects plan) (executePlan lib context token plan)
      fun _ => TargetComplete lib context := by
  have hkept : Record.Kept (PlanReported lib batchUrl context.objects plan) := planReported_kept
  refine RecordsOk.bind (Q := fun _ => PlanReported lib batchUrl context.objects plan) ?_
    fun unavailable => ?_
  · refine Records.request (fun hwrites => hwrites.elim) ?_
    rintro (error | answer) record h
    · trivial
    · exact hkept record _ h
  split
  · exact .result fun _ hfail => nomatch hfail
  refine RecordsOk.bind (Q := fun _ => PlanReported lib batchUrl context.objects plan) ?_
    fun sourceFetch => ?_
  · refine Records.request (fun hwrites => hwrites.elim) ?_
    rintro (error | answer) record h
    · trivial
    · exact hkept record _ h
  split
  · exact .result fun _ hfail => nomatch hfail
  refine RecordsOk.bind (uploadMigrationObjectsThroughServer_records hkept) fun serverUpload => ?_
  refine Records.of_imp (configureTarget_records serverUpload) fun record h object hobject => ?_
  obtain ⟨⟨hpartition, hpresent⟩, targetUrl, htarget, haccepted⟩ := h
  rcases (hpartition.mem_iff object).mpr hobject with hupload | halready
  · exact .inr ⟨targetUrl, htarget, haccepted object hupload⟩
  · exact .inl ⟨batchUrl, hurl, hpresent object halready⟩

/-- A migration comes to a result, and switches the repository only to a complete target. -/
theorem executeMigrationThroughServer_records (hobjects : context.objects.Nodup) {fuel : ℕ}
    (hfuel : 2 * context.objects.length < fuel) :
    Records TargetCall.WritesConfiguration (TargetComplete lib context) (· = [])
      (executeMigrationThroughServer lib fuel context token)
      fun result _ => ∃ r, result = some r := by
  have hprepare : RecordsOk TargetCall.WritesConfiguration (TargetComplete lib context) (· = [])
      (prepareTargetPlan lib context) fun batchUrl _ =>
        migrationBatchUrl lib context.lfsUrl context.allowInsecureHttp = .ok batchUrl := by
    unfold prepareTargetPlan
    split
    · exact .result fun _ hfail => nomatch hfail
    refine RecordsOk.bind (.result fun batchUrl hurl _ _ => hurl) fun batchUrl => ?_
    refine RecordsOk.bind (Q := fun _ _ =>
      migrationBatchUrl lib context.lfsUrl context.allowInsecureHttp = .ok batchUrl) ?_
      fun _ => .pure fun _ h => h
    refine Records.request (fun hwrites => hwrites.elim) ?_
    rintro (error | answer) record h
    · trivial
    · exact h
  refine Records.bind hprepare ?_
  rintro (error | batchUrl)
  · exact .done fun _ _ => ⟨_, rfl⟩
  refine Records.bind (Q := fun result record =>
    migrationBatchUrl lib context.lfsUrl context.allowInsecureHttp = .ok batchUrl ∧
      ∃ r, result = some r ∧
        Outcome (PlanReported lib batchUrl context.objects) (fun _ => True) r record) ?_ ?_
  · by_cases hurl : migrationBatchUrl lib context.lfsUrl context.allowInsecureHttp = .ok batchUrl
    · exact ((requestMigrationTargetPlan_records hobjects hfuel).post fun _ _ h =>
        ⟨hurl, h⟩).of_imp fun _ _ => trivial
    · exact Verified.of_not fun _ _ h => hurl h
  · rintro (_ | error | plan)
    · exact Verified.of_not fun _ _ ⟨_, r, hr, _⟩ => nomatch hr
    · exact .done fun _ _ => ⟨_, rfl⟩
    · by_cases hurl : migrationBatchUrl lib context.lfsUrl context.allowInsecureHttp = .ok batchUrl
      · refine Records.bind ((executePlan_records hurl).of_imp ?_) fun result =>
          .done fun _ _ => ⟨result, rfl⟩
        rintro record ⟨_, r, hr, hplan⟩
        obtain rfl := Option.some.inj hr
        exact hplan
      · exact Verified.of_not fun _ _ h => hurl h.1

end

end

/-- The LFS URL of the run below. -/
def switchUrl : Url :=
  ⟨"https".toList, [], none, some ⟨"h".toList, false⟩, none, .segments [['a']], none, none⟩

/-- The batch URL of the run below. -/
def switchBatchUrl : Url :=
  { switchUrl with path := .segments [['a'], "objects".toList, "batch".toList] }

/-- The object of the run below. -/
def switchObject : LfsObject := ⟨.zero, 5⟩

/-- What the libraries do in the run below, where the server has the object. -/
def switchLibraries : TargetLibraries where
  fromJson _ := .ok ⟨"basic", [⟨switchObject.oid, switchObject.size, none, .empty, none⟩]⟩
  parseUrl _ := .ok switchUrl
  encode := id
  queryPairs _ := []
  headerName := some
  headerValue := some
  base64 := id
  sanitize := id
  redacted := id

/-- The migration of the run below. -/
def switchContext : MigrationExecutionContext :=
  ⟨"https://h/a", false, "origin", none, [switchObject]⟩

/-- The record of the run below before the configuration is written. -/
def switchRecord : TargetRecord :=
  [targetEvent (.httpClient "failed to create migration batch client") (.ok ()),
    targetEvent (.postBatch switchBatchUrl ⟨.upload, [lfsBasicTransfer], [switchObject]⟩)
      (.ok (200, "")),
    targetEvent (.checkLocalMigrationObjects []) (.ok []),
    targetEvent (.fetchMissingMigrationObjects [] none) (.ok ⟨[], []⟩),
    targetEvent (.httpClient "failed to create migration upload client") (.ok ())]

/-- The server has the object, and the repository is pointed to it. -/
theorem switchRun : ∃ rest,
    (recordedSystem (executeMigrationThroughServer switchLibraries 3 switchContext "t")).Reachable
      ⟨switchRecord ++ [targetEvent (.writeLfsUrl .worktreeFile "https://h/a") (.ok ())],
        rest⟩ := by
  have hstart : (recordedSystem
      (executeMigrationThroughServer switchLibraries 3 switchContext "t")).Reachable
      ⟨[], fun _ => executeMigrationThroughServer switchLibraries 3 switchContext "t"⟩ :=
    .init ⟨rfl, rfl⟩
  have hclient := reachable_answer (F := targetInterface)
    (c := .httpClient "failed to create migration batch client") (.ok ()) hstart
  have hbatch := reachable_answer (F := targetInterface)
    (c := .postBatch switchBatchUrl ⟨.upload, [lfsBasicTransfer], [switchObject]⟩)
    (.ok (200, "")) hclient
  have hcheck := reachable_answer (F := targetInterface)
    (c := .checkLocalMigrationObjects []) (.ok []) hbatch
  have hfetch := reachable_answer (F := targetInterface)
    (c := .fetchMissingMigrationObjects [] none) (.ok ⟨[], []⟩) hcheck
  have hupload := reachable_answer (F := targetInterface)
    (c := .httpClient "failed to create migration upload client") (.ok ()) hfetch
  exact ⟨_, reachable_answer (F := targetInterface)
    (c := .writeLfsUrl .worktreeFile "https://h/a") (.ok ()) hupload⟩

end LfsCloud
