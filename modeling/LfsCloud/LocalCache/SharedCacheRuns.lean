import LfsCloud.LocalCache.SharedCache

/-!
# Runs over a shared cache

Every program is verified on its own, whatever the other processes and programs do meanwhile: it
makes only calls that are allowed, and reports an object only where that is in the cache.
-/

namespace LfsCloud

open Interaction Transition

section

variable {ι : Type} {fails : FileState → FileCall → Prop}
  {digest : List UInt8 → LfsOid} {stripe : DiskPath → String} {i : ι} {temp path : DiskPath}
  {object : LfsObject} {α β : Type} {K : DiskNode → Prop} {X Y : FileState × Owners ι → Prop}

/-- A program of one of the processes: it makes only calls that are allowed. -/
abbrev Cooperates (digest : List UInt8 → LfsOid) (fails : FileState → FileCall → Prop) (i : ι)
    (P : FileState × Owners ι → Prop) (p : FileProg α) (Q : α → FileState × Owners ι → Prop)
    (E : FileState × Owners ι → Prop) : Prop :=
  Shares (ownedOp fails) (fun s => CacheSound digest s.1) Respects i P p Q fun _ => E

/-- An assertion of a process that neither the others nor the writes to worktrees affect. -/
structure Unaffected (i : ι) (X : FileState × Owners ι → Prop) : Prop where
  others : ∀ j s t, j ≠ i → Respects j s t → X s → X t
  worktrees : ∀ s t : FileState × Owners ι, OnlyWorktrees s.1 t.1 → t.2 = s.2 → X s → X t

namespace Unaffected

theorem stable (h : Unaffected i X) : Stable (fun s => CacheSound digest s.1) Respects i X :=
  fun j s t hne _ _ hrespects hX => h.others j s t hne hrespects hX

theorem const (P : Prop) : Unaffected i fun _ => P := ⟨fun _ _ _ _ _ h => h, fun _ _ _ _ h => h⟩

/-- What a cache that loses nothing keeps. -/
theorem of_grows {X : FileState → Prop} (h : ∀ s t, CacheGrows s t → X s → X t) :
    Unaffected i fun s => X s.1 := by
  refine ⟨fun j s t _ hrespects hX => h _ _ hrespects.grows hX, fun s t hworktrees _ hX => ?_⟩
  refine h _ _ (fun path node hnode => ?_) hX
  rw [hworktrees.cache, hnode]

/-- The process keeps its temporary file. -/
theorem owns (htemp : temp.isTemp = true) : Unaffected i (Owns i temp K) := by
  constructor
  · rintro j s t hne hrespects ⟨howner, node, hnode, hK⟩
    have hthere : s.1.nodes.lookup temp ≠ none := by
      rw [hnode]
      exact fun h => by cases h
    obtain ⟨howner', hsame⟩ := hrespects.temps temp i htemp (Ne.symm hne) howner hthere
    exact ⟨howner', node, hsame.trans hnode, hK⟩
  · rintro s t hworktrees howners ⟨howner, node, hnode, hK⟩
    refine ⟨by rw [howners, howner], node, ?_, hK⟩
    rw [hworktrees.temp htemp, hnode]

end Unaffected

/-- The call changes no file. -/
def FileCall.IsQuiet : FileCall → Prop
  | .createTemp _ => False
  | .write _ _ => False
  | .setPermissions _ _ => False
  | .persistNoclobber _ _ => False
  | .exchange _ _ => False
  | .remove _ => False
  | _ => True

/-- The rule for a call: what it leads to, where the files of worktrees stay as they are. -/
theorem cooperates_ask {c : FileCall} {P : FileState × Owners ι → Prop}
    {Q : fileInterface.Answer c → FileState × Owners ι → Prop} {E : FileState × Owners ι → Prop}
    (hP : Unaffected i P) (hallowed : ∀ s, P s → c.Allowed digest i s)
    (hQ : ∀ answer, Unaffected i (Q answer))
    (hop : ∀ s answer t, CacheSound digest s.1 → P s → fileOp fails s.1 c answer t.1 →
      t.2 = ownersAfter i s.2 c answer → Q answer t)
    (hreads : c.ReadsWorktree → ∀ s answer, P s → Q answer s) :
    Cooperates digest fails i P (ask (F := fileInterface) c) Q E := by
  apply Shares.ask (Q := Q) fun answer => (hQ answer).stable
  rintro s answer t hsound hPs hcall
  have hblind : ∀ u, OnlyWorktrees s.1 u → P (u, s.2) := fun u hu =>
    hP.worktrees s (u, s.2) hu rfl hPs
  have hkept := respects_of_allowed hsound (fun u hu => hallowed _ (hblind u hu)) hcall
  refine ⟨hkept.1, hkept.2, ?_⟩
  obtain ⟨⟨u, hworktrees, hcall⟩, howners⟩ := hcall
  rcases hcall with hcall | ⟨hworktree, rfl⟩
  · have hsound' : CacheSound digest u := fun oid node hnode =>
      hsound oid node (by rw [← hworktrees.cache, hnode])
    exact hop (u, s.2) answer t hsound' (hblind u hworktrees) hcall howners
  · have hsame : ownersAfter i s.2 c answer = s.2 := by
      cases c with
      | createTemp parent => exact hworktree.elim
      | _ => rfl
    have ht : t = (t.1, s.2) := Prod.ext rfl (howners.trans hsame)
    rw [ht]
    exact hreads hworktree _ answer (hblind t.1 hworktrees)

/-- A call that changes no file. -/
theorem quiet_fileOp {c : FileCall} {answer : FileAnswer c} {s t : FileState × Owners ι}
    (hc : c.IsQuiet) (hop : fileOp fails s.1 c answer t.1)
    (howners : t.2 = ownersAfter i s.2 c answer) : OnlyWorktrees s.1 t.1 ∧ t.2 = s.2 := by
  refine ⟨fun path _ => lookup_fileOp hop fun hchanges => ?_, howners.trans ?_⟩
  · cases c with
    | createTemp _ => exact hc
    | write _ _ => exact hc
    | setPermissions _ _ => exact hc
    | persistNoclobber _ _ => exact hc
    | exchange _ _ => exact hc
    | remove _ => exact hc
    | _ => exact hchanges
  · cases c with
    | createTemp _ => exact hc.elim
    | _ => rfl

theorem allowed_of_quiet {c : FileCall} {s : FileState × Owners ι} (hc : c.IsQuiet) :
    c.Allowed digest i s := by
  cases c with
  | createTemp _ => trivial
  | write _ _ => exact hc.elim
  | setPermissions _ _ => exact hc.elim
  | persistNoclobber _ _ => exact hc.elim
  | exchange _ _ => exact hc.elim
  | remove _ => exact hc.elim
  | _ => trivial

/-- A program that changes no file keeps what is not affected. -/
theorem cooperates_quiet {p : FileProg α} (hX : Unaffected i X)
    (h : (p.from ()).Calls FileCall.IsQuiet) : Cooperates digest fails i X p (fun _ => X) X := by
  apply Shares.of_calls hX.stable _ h
  rintro c s answer t hc hsound hXs hcall
  have hkept := respects_of_allowed hsound (fun _ _ => allowed_of_quiet hc) hcall
  refine ⟨hkept.1, hkept.2, ?_⟩
  obtain ⟨⟨u, hworktrees, hcall⟩, howners⟩ := hcall
  have hXu : X (u, s.2) := hX.worktrees s (u, s.2) hworktrees rfl hXs
  rcases hcall with hcall | ⟨hworktree, rfl⟩
  · obtain ⟨hsame, howners'⟩ := quiet_fileOp (s := (u, s.2)) hc hcall howners
    exact hX.worktrees (u, s.2) t hsame howners' hXu
  · refine hX.worktrees (t.1, s.2) t (fun _ _ => rfl) (howners.trans ?_) hXu
    cases c with
    | createTemp parent => exact hworktree.elim
    | _ => rfl

/-- What a cache that loses nothing keeps holds next to any assertion. -/
theorem cooperates_frame {p : FileProg α} {P E : FileState × Owners ι → Prop}
    {Q : α → FileState × Owners ι → Prop} {R : FileState → Prop}
    (hR : ∀ s t, CacheGrows s t → R s → R t) (h : Cooperates digest fails i P p Q E) :
    Cooperates digest fails i (fun s => R s.1 ∧ P s) p (fun a s => R s.1 ∧ Q a s)
      fun s => R s.1 ∧ E s :=
  Shares.frame (fun _ _ _ hrespects hRs => hR _ _ hrespects.grows hRs) h

/-- What a cache that loses nothing keeps holds after a program as before it. -/
theorem cooperates_keeps {p : FileProg α} {Q : α → FileState × Owners ι → Prop}
    {R : FileState → Prop} (hR : ∀ s t, CacheGrows s t → R s → R t)
    (h : Cooperates digest fails i (fun _ => True) p Q fun _ => True) :
    Cooperates digest fails i (fun s => R s.1) p (fun a s => R s.1 ∧ Q a s) fun _ => True :=
  ((cooperates_frame hR h).of_imp fun _ _ hRs => ⟨hRs, trivial⟩).conseq (fun _ _ _ h => h)
    fun _ _ _ _ => trivial

/-- The result of a program as a value. -/
theorem cooperates_attempt {p : FileProg α} {P E E' : FileState × Owners ι → Prop}
    {Q : α → FileState × Owners ι → Prop} (h : Cooperates digest fails i P p Q E) :
    Cooperates digest fails i P (attempt p) (fun r s => ResultHolds Q (fun _ => E) (r, ()) s) E' :=
  Verified.bind h fun _ _ _ hr => hr

/-! ## Temporary files -/

/-- Any file. -/
def AnyNode (_ : DiskNode) : Prop := True

/-- A temporary file with some bytes. -/
def HasBytes (bytes : List UInt8) (node : DiskNode) : Prop :=
  ∃ file, node = .file file ∧ file.bytes = bytes

theorem Owns.mono {K' : DiskNode → Prop} {s : FileState × Owners ι} (h : Owns i temp K s)
    (hK : ∀ node, K node → K' node) : Owns i temp K' s :=
  ⟨h.1, h.2.imp fun node hnode => ⟨hnode.1, hK node hnode.2⟩⟩

/-- A new temporary file belongs to the process. -/
theorem cooperates_createTemp {parent reported : DiskPath} {context : String} :
    Cooperates digest fails i (fun _ => True)
      (askFile (α := DiskPath) (.createTemp parent) rfl context reported)
      (fun temp s => temp.isTemp = true ∧ Owns i temp AnyNode s) fun _ => True := by
  apply Shares.bind (Q := fun (answer : Except FileErrorKind DiskPath) s =>
    ∀ temp, answer = .ok temp → temp.isTemp = true ∧ Owns i temp AnyNode s)
  · apply cooperates_ask (c := .createTemp parent) (.const _) (fun _ _ => trivial) _ _
      fun h => h.elim
    · intro answer
      refine ⟨fun j s t hne hrespects h temp hanswer => ?_, fun s t hworktrees howners h temp
        hanswer => ?_⟩
      · exact ⟨(h temp hanswer).1, (Unaffected.owns (h temp hanswer).1).others j s t hne hrespects
          (h temp hanswer).2⟩
      · exact ⟨(h temp hanswer).1, (Unaffected.owns (h temp hanswer).1).worktrees s t hworktrees
          howners (h temp hanswer).2⟩
    · rintro s answer ⟨t, owners⟩ _ _ hop rfl temp rfl
      rcases create_cases hop with ⟨suffix, _, hanswer, rfl⟩ | ⟨⟨source, hanswer⟩, _⟩
      · cases hanswer
        exact ⟨rfl, Function.update_self _ _ _, _, AList.lookup_insert _, trivial⟩
      · cases hanswer
  · intro answer
    cases answer with
    | ok temp => exact .pure fun s _ h => h temp rfl
    | error source => exact .throw fun _ _ _ => trivial

/-- The owner of a temporary file writes it. -/
theorem cooperates_write {bytes : List UInt8} {reported : DiskPath} {context : String}
    (htemp : temp.isTemp = true) :
    Cooperates digest fails i (Owns i temp AnyNode)
      (askFile (.write temp bytes) rfl context reported)
      (fun _ => Owns i temp (HasBytes bytes)) (Owns i temp AnyNode) := by
  apply Shares.bind (Q := fun (answer : Except FileErrorKind Unit) s =>
    Owns i temp AnyNode s ∧ (answer = .ok () → Owns i temp (HasBytes bytes) s))
  · apply cooperates_ask (c := .write temp bytes) (.owns htemp) (fun s h => ⟨htemp, h.1⟩) _ _
      fun h => h.elim
    · intro answer
      refine ⟨fun j s t hne hrespects h => ⟨?_, fun hok => ?_⟩, fun s t hworktrees howners h =>
        ⟨?_, fun hok => ?_⟩⟩
      · exact (Unaffected.owns htemp).others j s t hne hrespects h.1
      · exact (Unaffected.owns htemp).others j s t hne hrespects (h.2 hok)
      · exact (Unaffected.owns htemp).worktrees s t hworktrees howners h.1
      · exact (Unaffected.owns htemp).worktrees s t hworktrees howners (h.2 hok)
    · rintro s answer ⟨t, owners⟩ _ ⟨howner, node, hnode, _⟩ hop rfl
      have hsame : Owns i temp AnyNode (s.1, s.2) := ⟨howner, node, hnode, trivial⟩
      rcases hop with hop | ⟨_, rfl, hop⟩
      · unfold fileEffect at hop
        dsimp only at hop
        split at hop
        · obtain ⟨rfl, rfl⟩ := hop
          exact ⟨⟨howner, _, AList.lookup_insert _, trivial⟩,
            fun _ => ⟨howner, _, AList.lookup_insert _, _, rfl, rfl⟩⟩
        · obtain ⟨rfl, rfl⟩ := hop
          exact ⟨hsame, fun h => by cases h⟩
      · split at hop
        · obtain ⟨part, _, rfl⟩ := hop
          exact ⟨⟨howner, _, AList.lookup_insert _, trivial⟩, fun h => by cases h⟩
        · obtain rfl := hop
          exact ⟨hsame, fun h => by cases h⟩
  · intro answer
    cases answer with
    | ok u => exact .pure fun s _ h => h.2 rfl
    | error source => exact .throw fun s _ h => h.1

/-- The owner of a temporary file sets its mode. -/
theorem cooperates_setTemporaryFileMode {reported : DiskPath} {mode : ℕ}
    (htemp : temp.isTemp = true) :
    Cooperates digest fails i (Owns i temp AnyNode) (setTemporaryFileMode temp reported mode)
      (fun _ => Owns i temp AnyNode) (Owns i temp AnyNode) := by
  apply Shares.bind (Q := fun _ => Owns i temp AnyNode)
  · apply cooperates_ask (c := .setPermissions temp mode) (.owns htemp)
      (fun s h => ⟨htemp, h.1⟩) (fun _ => .owns htemp) _ fun h => h.elim
    rintro s answer ⟨t, owners⟩ _ ⟨howner, node, hnode, _⟩ hop rfl
    rcases hop with hop | ⟨_, rfl, _⟩
    · unfold fileEffect at hop
      dsimp only at hop
      split at hop
      · obtain ⟨_, rfl⟩ := hop
        exact ⟨howner, _, AList.lookup_insert _, trivial⟩
      · obtain ⟨rfl, _⟩ := hop
        exact ⟨howner, node, hnode, trivial⟩
    · exact ⟨howner, node, hnode, trivial⟩
  · intro answer
    split
    · exact .pure fun _ _ h => h
    · exact .throw fun _ _ h => h

/-- The owner of a temporary file drops it. -/
theorem cooperates_dropTemp {E : FileState × Owners ι → Prop} (htemp : temp.isTemp = true) :
    Cooperates digest fails i (Owns i temp K) (dropTemp temp) (fun _ _ => True) E := by
  apply Shares.bind (Q := fun _ _ => True)
  · exact cooperates_ask (c := .remove temp) (.owns htemp) (fun s h => ⟨htemp, h.1⟩)
      (fun _ => .const _) (fun _ _ _ _ _ _ _ => trivial) fun h => h.elim
  · exact fun _ => .pure fun _ _ h => h

/-- What is done with a temporary file, which is dropped where that fails. -/
theorem cooperates_withTemp {p : FileProg α} {P : FileState × Owners ι → Prop}
    {Q : α → FileState × Owners ι → Prop} (htemp : temp.isTemp = true)
    (h : Cooperates digest fails i P p Q (Owns i temp AnyNode)) :
    Cooperates digest fails i P (withTemp temp p) Q fun _ => True := by
  apply Shares.bind (cooperates_attempt h)
  intro result
  cases result with
  | ok a => exact .pure fun _ _ h => h
  | error e =>
    apply Shares.bind (cooperates_dropTemp htemp)
    exact fun _ => .throw fun _ _ h => h

/-- A temporary file is exchanged with a file of a worktree, and stays with its owner. -/
theorem cooperates_exchange {file : FilePath} {E : FileState × Owners ι → Prop}
    (htemp : temp.isTemp = true) :
    Cooperates digest fails i (Owns i temp AnyNode)
      (tryFile (α := Unit) (.exchange temp (.worktree file)) rfl) (fun _ => Owns i temp AnyNode)
      E := by
  have hne : temp ≠ .worktree file := by
    rintro rfl
    cases htemp
  apply Shares.bind (Q := fun _ => Owns i temp AnyNode)
  · apply cooperates_ask (c := .exchange temp (.worktree file)) (.owns htemp)
      (fun s h => ⟨htemp, h.1, file, rfl⟩) (fun _ => .owns htemp) _ fun h => h.elim
    rintro s answer ⟨t, owners⟩ _ ⟨howner, node, hnode, _⟩ hop rfl
    rcases exchange_cases hop with ⟨_, a, b, ha, hb, rfl⟩ | ⟨_, rfl⟩
    · exact ⟨howner, b, (lookup_swap hne).1, trivial⟩
    · exact ⟨howner, node, hnode, trivial⟩
  · exact fun _ => .pure fun _ _ h => h

/-- A temporary file is moved to a free path of a worktree, or stays with its owner. -/
theorem cooperates_persist_worktree {file : FilePath} {E : FileState × Owners ι → Prop}
    (htemp : temp.isTemp = true) :
    Cooperates digest fails i (Owns i temp AnyNode)
      (tryFile (α := Unit) (.persistNoclobber temp (.worktree file)) rfl)
      (fun answer s => (∃ source, answer = .error source) → Owns i temp AnyNode s) E := by
  apply Shares.bind (Q := fun (answer : Except FileErrorKind Unit) s =>
    (∃ source, answer = .error source) → Owns i temp AnyNode s)
  · apply cooperates_ask (c := .persistNoclobber temp (.worktree file)) (.owns htemp) _ _ _
      fun h => h.elim
    · rintro s ⟨howner, node, hnode, _⟩
      exact ⟨htemp, howner, node, hnode, .inl ⟨file, rfl⟩⟩
    · exact fun answer => ⟨fun j s t hne hrespects h herror =>
        (Unaffected.owns htemp).others j s t hne hrespects (h herror),
        fun s t hworktrees howners h herror =>
          (Unaffected.owns htemp).worktrees s t hworktrees howners (h herror)⟩
    · rintro s answer ⟨t, owners⟩ _ hP hop rfl ⟨source, rfl⟩
      rcases persist_cases hop with ⟨hok, _⟩ | ⟨_, rfl⟩
      · cases hok
      · exact hP
  · exact fun _ => .pure fun _ _ h => h

/-- A verified copy of an object is moved to the path of the object, or stays with its owner. -/
theorem cooperates_persist_cache {bytes : List UInt8} {E : FileState × Owners ι → Prop}
    (htemp : temp.isTemp = true) (hobject : IsObject digest object bytes) :
    Cooperates digest fails i (Owns i temp (HasBytes bytes))
      (tryFile (α := Unit) (.persistNoclobber temp (objectPath object)) rfl)
      (fun answer s => match answer with
        | .ok _ => InCache digest object s.1
        | .error _ => Owns i temp AnyNode s) E := by
  apply Shares.bind (Q := fun (answer : Except FileErrorKind Unit) s => match answer with
    | .ok _ => InCache digest object s.1
    | .error _ => Owns i temp AnyNode s)
  · apply cooperates_ask (c := .persistNoclobber temp (objectPath object)) (.owns htemp) _ _ _
      fun h => h.elim
    · rintro s ⟨howner, node, hnode, file, rfl, hbytes⟩
      exact ⟨htemp, howner, _, hnode, .inr ⟨object.oid, rfl, file, rfl, hbytes ▸ hobject.1⟩⟩
    · rintro (source | u)
      · exact .owns htemp
      · exact Unaffected.of_grows (X := InCache digest object) fun _ _ => InCache.grows
    · rintro s answer ⟨t, owners⟩ _ ⟨howner, node, hnode, file, rfl, hbytes⟩ hop rfl
      rcases persist_cases hop with ⟨rfl, _, node, hnode', rfl⟩ | ⟨⟨source, rfl⟩, rfl⟩
      · rw [hnode] at hnode'
        cases hnode'
        exact ⟨file, AList.lookup_insert _, hbytes ▸ hobject⟩
      · exact ⟨howner, _, hnode, trivial⟩
  · exact fun _ => .pure fun _ _ h => h

/-! ## Programs that change nothing -/

/-- A program that changes no file. -/
def OnlyQuiet (p : FileProg α) : Prop := (p.from ()).Calls FileCall.IsQuiet

theorem OnlyReads.quiet {p : FileProg α} (h : OnlyReads p) : OnlyQuiet p := by
  apply Prog.Calls.mono h
  intro c hc
  cases c with
  | metadata path => trivial
  | symlinkMetadata path => trivial
  | read path => trivial
  | readNoFollow path => trivial
  | _ => exact hc.elim

theorem onlyQuiet_askFile (c : FileCall) {hc : FileAnswer c = Except FileErrorKind α}
    {context : String} {reported : DiskPath} (h : c.IsQuiet) :
    OnlyQuiet (askFile c hc context reported) := by
  apply calls_bind (calls_ask h)
  intro answer
  split
  · trivial
  · trivial

theorem onlyReads_regularFileExists {inspect wrong : String} :
    OnlyReads (regularFileExists path inspect wrong) := by
  apply calls_bind (onlyReads_tryFile (.metadata path) trivial)
  intro answer
  split
  · trivial
  · trivial
  · trivial
  · trivial

theorem onlyReads_ensureMatchingPointer {reported : DiskPath} :
    OnlyReads (ensureMatchingPointer path object reported) := by
  apply calls_bind onlyReads_readLfsPointerFile
  intro pointer
  split
  · trivial
  · trivial

theorem onlyReads_existingDestinationStatus :
    OnlyReads (existingDestinationStatus digest path object) := by
  apply calls_bind (onlyReads_tryFile (.symlinkMetadata path) trivial)
  intro answer
  split
  · trivial
  · split
    · trivial
    · apply calls_bind (onlyReads_attempt onlyReads_verifyWorktreeFileObject)
      intro result
      split
      · trivial
      · trivial
      · trivial
  · trivial
  · trivial
  · trivial

theorem onlyReads_checkDestination {mode : MaterializationMode}
    {status : ExistingDestinationStatus} :
    OnlyReads (checkDestination object path mode status) := by
  cases status with
  | missing => trivial
  | alreadyMaterialized => trivial
  | different =>
    cases mode with
    | noReplace => trivial
    | replaceMatchingPointer => exact onlyReads_ensureMatchingPointer

theorem onlyReads_readExistingLfsPointerFile : OnlyReads (readExistingLfsPointerFile path) := by
  apply calls_bind onlyReads_readWorktreeFile
  intro chunks
  dsimp only
  split
  · trivial
  · split
    · trivial
    · split
      · trivial
      · trivial

/-- A program that changes no file, where nothing is held. -/
theorem OnlyQuiet.cooperates {p : FileProg α} (h : OnlyQuiet p) :
    Cooperates digest fails i (fun _ => True) p (fun _ _ => True) fun _ => True :=
  cooperates_quiet (.const _) h

/-! ## Objects of the cache -/

/-- The bytes that were hashed are those of the object. -/
theorem cooperates_ensure {P : FileState × Owners ι → Prop} {chunks : List (List UInt8)}
    {reported : DiskPath} :
    Cooperates digest fails i P
      (hashed digest reported chunks >>= ensureObjectIdentity reported object)
      (fun _ s => IsObject digest object chunks.flatten ∧ P s) P := by
  have hhash := hashChunks_eq digest chunks [] 0 (by decide)
  simp only [List.nil_append, Nat.zero_add] at hhash
  unfold hashed
  rw [hhash]
  split_ifs with hlt
  · apply Shares.bind (Q := fun actual s => actual = (digest chunks.flatten,
      UInt64.ofNat chunks.flatten.length) ∧ P s) (.pure fun _ _ h => ⟨rfl, h⟩)
    intro actual
    apply Shares.of_fact
    rintro rfl
    unfold ensureObjectIdentity
    split_ifs with hne
    · exact .throw fun _ _ h => h
    · push Not at hne
      refine .pure fun _ _ h => ⟨⟨hne.1, ?_⟩, h⟩
      rw [← hne.2]
      exact (UInt64.toNat_ofNat_of_lt' hlt).symm
  · apply Shares.bind (Q := fun _ _ => False) (.throw fun _ _ h => h)
    exact fun _ => .of_imp (P := fun _ => False) (.of_not fun _ _ h => h) fun _ _ h => h

/-- What is read at the path of an object is the file of the cache. -/
theorem cooperates_read {context : String} :
    Cooperates digest fails i (fun _ => True)
      (askFile (α := List (List UInt8)) (.read (objectPath object)) rfl context
        (objectPath object))
      (fun chunks s => ∃ file, s.1.nodes.lookup (objectPath object) = some (.file file) ∧
        chunks.flatten = file.bytes) fun _ => True := by
  apply Shares.bind (Q := fun (answer : Except FileErrorKind (List (List UInt8))) s =>
    ∀ chunks, answer = .ok chunks → ∃ file,
      s.1.nodes.lookup (objectPath object) = some (.file file) ∧ chunks.flatten = file.bytes)
  · apply cooperates_ask (c := .read (objectPath object)) (.const _) (fun _ _ => trivial) _ _
      fun h => h.elim
    · intro answer
      apply Unaffected.of_grows (X := fun t => ∀ chunks : List (List UInt8),
        answer = .ok chunks → ∃ file, t.nodes.lookup (objectPath object) = some (.file file) ∧
          chunks.flatten = file.bytes)
      intro s t hgrows h chunks hanswer
      obtain ⟨file, hfile, hchunks⟩ := h chunks hanswer
      exact ⟨file, hgrows _ _ hfile, hchunks⟩
    · rintro s answer ⟨t, owners⟩ hsound _ hop _ chunks rfl
      rcases hop with ⟨rfl, hread⟩ | ⟨_, _, hanswer⟩
      · cases hnode : s.1.nodes.lookup (objectPath object) with
        | none =>
          rw [FileState.followed, hnode] at hread
          obtain ⟨kind, hanswer⟩ := hread
          cases hanswer
        | some node =>
          obtain ⟨file, rfl, _⟩ := hsound object.oid node hnode
          rw [FileState.followed, hnode] at hread
          obtain ⟨chunks', hanswer, hchunks⟩ := hread
          cases hanswer
          exact ⟨file, rfl, hchunks⟩
      · cases hanswer
  · intro answer
    cases answer with
    | ok chunks => exact .pure fun s _ h => h chunks rfl
    | error source => exact .throw fun _ _ _ => trivial

/-- An object that is verified at its path is in the cache. -/
theorem cooperates_verifyFileObject :
    Cooperates digest fails i (fun _ => True) (verifyFileObject digest (objectPath object) object)
      (fun _ s => InCache digest object s.1) fun _ => True := by
  apply Shares.bind cooperates_read
  intro chunks
  apply Shares.conseq cooperates_ensure
  · rintro _ s _ ⟨hobject, file, hfile, hchunks⟩
    exact ⟨file, hfile, hchunks ▸ hobject⟩
  · exact fun _ _ _ _ => trivial

theorem cooperates_verifyObject :
    Cooperates digest fails i (fun _ => True) (verifyObject digest object)
      (fun _ s => InCache digest object s.1) fun _ => True := by
  apply Shares.bind (OnlyQuiet.cooperates onlyReads_regularFileExists.quiet)
  intro found
  split
  · exact cooperates_verifyFileObject
  · exact .throw fun _ _ h => h

/-- A program that changes no file, next to what the cache keeps. -/
theorem OnlyQuiet.keeps {p : FileProg α} {R : FileState → Prop} (h : OnlyQuiet p)
    (hR : ∀ s t, CacheGrows s t → R s → R t) :
    Cooperates digest fails i (fun s => R s.1) p (fun _ s => R s.1) fun _ => True :=
  Shares.conseq (cooperates_quiet (.of_grows hR) h) (fun _ _ _ h => h) fun _ _ _ _ => trivial

theorem onlyQuiet_syncVerifiedCacheObject :
    OnlyQuiet (syncVerifiedCacheObject path) :=
  calls_bind (onlyQuiet_askFile (.sync _) trivial) fun _ => onlyQuiet_askFile (.sync _) trivial

/-- A copy of the chunks is verified in a temporary file. -/
theorem cooperates_stageVerifiedCopy {sourcePath cachePath : DiskPath}
    {chunks : List (List UInt8)} {durability : CachePublishDurability}
    (htemp : temp.isTemp = true) :
    Cooperates digest fails i (Owns i temp AnyNode)
      (stageVerifiedCopy digest sourcePath temp cachePath object chunks durability)
      (fun _ s => IsObject digest object chunks.flatten ∧
        Owns i temp (HasBytes chunks.flatten) s) (Owns i temp AnyNode) := by
  have hany : ∀ s, Owns i temp (HasBytes chunks.flatten) s → Owns i temp AnyNode s :=
    fun s h => h.mono fun _ _ => trivial
  unfold stageVerifiedCopy
  apply Shares.bind (Q := fun _ s => IsObject digest object chunks.flatten ∧
    Owns i temp (HasBytes chunks.flatten) s)
  · unfold copyAndVerifyObject
    apply Shares.bind (cooperates_write htemp)
    exact fun _ => Shares.conseq cooperates_ensure (fun _ _ _ h => h) fun _ s _ h => hany s h
  · intro _
    apply Shares.of_fact
    intro hobject
    split
    · apply Shares.conseq (cooperates_quiet (.owns htemp) (onlyQuiet_askFile (.sync _) trivial))
      · exact fun _ s _ h => ⟨hobject, h⟩
      · exact fun _ s _ h => hany s h
    · exact .pure fun _ _ h => ⟨hobject, h⟩

/-- A verified copy is published, or the object is there already. -/
theorem cooperates_publishCacheObject {bytes : List UInt8} {cacheParent : DiskPath}
    {durability : CachePublishDurability} (htemp : temp.isTemp = true)
    (hobject : IsObject digest object bytes) :
    Cooperates digest fails i (Owns i temp (HasBytes bytes))
      (publishCacheObject digest temp (objectPath object) cacheParent object durability)
      (fun _ s => InCache digest object s.1) fun _ => True := by
  have hkeeps : ∀ s t : FileState, CacheGrows s t → InCache digest object s →
      InCache digest object t := fun _ _ => InCache.grows
  unfold publishCacheObject
  apply Shares.bind (cooperates_persist_cache htemp hobject)
  intro answer
  cases answer with
  | ok u =>
    dsimp only
    split
    · apply OnlyQuiet.keeps _ hkeeps
      exact calls_bind (onlyQuiet_askFile (.sync _) trivial)
        fun _ => calls_bind (onlyQuiet_askFile (.sync _) trivial) fun _ => trivial
    · exact .pure fun _ _ h => h
  | error source =>
    apply Shares.of_imp (P := Owns i temp AnyNode) _ fun _ _ h => h
    split
    · rename_i h
      cases h
    · apply Shares.bind (cooperates_dropTemp htemp)
      intro _
      apply Shares.bind cooperates_verifyFileObject
      intro _
      split
      · apply OnlyQuiet.keeps _ hkeeps
        exact calls_bind onlyQuiet_syncVerifiedCacheObject fun _ => trivial
      · exact .pure fun _ _ h => h
    · apply Shares.bind (cooperates_dropTemp htemp)
      exact fun _ => .throw fun _ _ h => h

/-- The chunks of a source are copied into the cache. -/
theorem cooperates_copyVerifiedFileToCache {sourcePath : DiskPath} {chunks : List (List UInt8)}
    {durability : CachePublishDurability} :
    Cooperates digest fails i (fun _ => True)
      (copyVerifiedFileToCache digest sourcePath object chunks durability)
      (fun _ s => InCache digest object s.1) fun _ => True := by
  unfold copyVerifiedFileToCache
  apply Shares.bind (OnlyQuiet.cooperates (onlyQuiet_askFile (.createDirAll _) trivial))
  intro _
  apply Shares.bind cooperates_createTemp
  intro temp
  apply Shares.of_fact
  intro htemp
  apply Shares.bind (cooperates_withTemp htemp (cooperates_stageVerifiedCopy htemp))
  intro _
  apply Shares.of_fact
  exact fun hobject => cooperates_publishCacheObject htemp hobject

theorem cooperates_ingestGitLfsObject {gitLfsObjectsDir : FilePath} :
    Cooperates digest fails i (fun _ => True) (ingestGitLfsObject digest gitLfsObjectsDir object)
      (fun _ s => InCache digest object s.1) fun _ => True := by
  unfold ingestGitLfsObject
  apply Shares.bind (OnlyQuiet.cooperates (onlyQuiet_askFile .lockShared trivial))
  intro _
  apply Shares.bind (OnlyQuiet.cooperates onlyReads_regularFileExists.quiet)
  intro found
  split
  · apply Shares.bind cooperates_verifyObject
    exact fun _ => .pure fun _ _ h => h
  · apply Shares.bind (Q := fun _ _ => True)
    · apply OnlyQuiet.cooperates
      apply calls_bind onlyReads_regularFileExists.quiet
      intro found
      split
      · trivial
      · trivial
    · intro _
      apply Shares.bind (OnlyQuiet.cooperates (onlyQuiet_askFile (.read _) trivial))
      exact fun _ => cooperates_copyVerifiedFileToCache

/-! ## Files of worktrees -/

/-- A file of a worktree is replaced by a temporary file. -/
theorem cooperates_replaceRetainingDisplaced {file : FilePath}
    {verifyDisplaced : DiskPath → FileProg Unit} (htemp : temp.isTemp = true)
    (hreads : OnlyReads (verifyDisplaced temp)) :
    Cooperates digest fails i (Owns i temp AnyNode)
      (replaceRetainingDisplaced temp (.worktree file) verifyDisplaced) (fun _ _ => True)
      fun _ => True := by
  unfold replaceRetainingDisplaced
  apply Shares.bind (cooperates_exchange htemp)
  intro answer
  cases answer with
  | error source =>
    apply Shares.bind (cooperates_dropTemp htemp)
    exact fun _ => .throw fun _ _ h => h
  | ok u =>
    apply Shares.bind (cooperates_attempt (cooperates_quiet (.owns htemp) hreads.quiet))
    intro result
    cases result with
    | ok u => exact cooperates_dropTemp htemp
    | error e =>
      apply Shares.bind (cooperates_exchange htemp)
      intro answer
      cases answer with
      | error source => exact .throw fun _ _ _ => trivial
      | ok u =>
        apply Shares.bind (cooperates_dropTemp htemp)
        exact fun _ => .throw fun _ _ h => h

theorem cooperates_publishMaterializedFile {file : FilePath} {mode : MaterializationMode}
    (htemp : temp.isTemp = true) :
    Cooperates digest fails i (Owns i temp AnyNode)
      (publishMaterializedFile digest temp (.worktree file) mode object) (fun _ _ => True)
      fun _ => True := by
  cases mode with
  | noReplace =>
    apply Shares.bind (cooperates_withTemp htemp (cooperates_setTemporaryFileMode htemp))
    intro _
    apply Shares.bind (cooperates_persist_worktree htemp)
    intro answer
    split
    · exact .pure fun _ _ _ => trivial
    · apply Shares.of_imp (P := Owns i temp AnyNode) _ fun s _ h => h ⟨_, rfl⟩
      apply Shares.bind (cooperates_attempt
        (cooperates_quiet (.owns htemp) onlyReads_verifyWorktreeFileObject.quiet))
      intro result
      cases result with
      | ok u => exact cooperates_dropTemp htemp
      | error e =>
        split
        · rename_i h
          cases h
        · apply Shares.bind (cooperates_dropTemp htemp)
          exact fun _ => .throw fun _ _ h => h
        · apply Shares.bind (cooperates_dropTemp htemp)
          exact fun _ => .throw fun _ _ h => h
    · apply Shares.of_imp (P := Owns i temp AnyNode) _ fun s _ h => h ⟨_, rfl⟩
      apply Shares.bind (cooperates_dropTemp htemp)
      exact fun _ => .throw fun _ _ h => h
  | replaceMatchingPointer =>
    apply Shares.bind (Q := fun _ => Owns i temp AnyNode)
    · apply cooperates_withTemp htemp
      apply Shares.bind (cooperates_quiet (.owns htemp) onlyReads_ensureMatchingPointer.quiet)
      intro _
      apply Shares.bind (cooperates_quiet (.owns htemp) onlyReads_worktreeFileMetadata.quiet)
      exact fun _ => cooperates_setTemporaryFileMode htemp
    · exact fun _ => cooperates_replaceRetainingDisplaced htemp onlyReads_verifyDisplacedPointer

theorem cooperates_materializeVerifiedObject {file : FilePath} {mode : MaterializationMode} :
    Cooperates digest fails i (fun _ => True)
      (materializeVerifiedObject digest object (.worktree file) mode) (fun _ _ => True)
      fun _ => True := by
  unfold materializeVerifiedObject
  apply Shares.bind (OnlyQuiet.cooperates onlyReads_existingDestinationStatus.quiet)
  intro status
  split
  · exact .pure fun _ _ h => h
  · apply Shares.bind (OnlyQuiet.cooperates onlyReads_checkDestination.quiet)
    intro _
    unfold materializeInParent
    split
    · exact .throw fun _ _ h => h
    · unfold materializeCopy
      apply Shares.bind (OnlyQuiet.cooperates (onlyQuiet_askFile (.createDirAll _) trivial))
      intro _
      apply Shares.bind cooperates_createTemp
      intro temp
      apply Shares.of_fact
      intro htemp
      apply Shares.bind (Q := fun _ => Owns i temp AnyNode)
      · apply cooperates_withTemp htemp
        apply Shares.bind (cooperates_quiet (.owns htemp) (onlyQuiet_askFile (.read _) trivial))
        intro chunks
        apply Shares.bind (cooperates_write htemp)
        intro _
        apply Shares.conseq cooperates_ensure
        · exact fun _ s _ h => h.2.mono fun _ _ => trivial
        · exact fun _ s _ h => h.mono fun _ _ => trivial
      · intro _
        apply Shares.bind (cooperates_publishMaterializedFile htemp)
        intro _
        apply Shares.bind (OnlyQuiet.cooperates onlyReads_verifyWorktreeFileObject.quiet)
        exact fun _ => .pure fun _ _ h => h

theorem cooperates_publishPointerFile {file : FilePath} :
    Cooperates digest fails i (fun _ => True)
      (publishPointerFile digest (.worktree file) object) (fun _ _ => True) fun _ => True := by
  unfold publishPointerFile
  split
  · exact .throw fun _ _ h => h
  · apply Shares.bind (OnlyQuiet.cooperates onlyReads_worktreeFileMetadata.quiet)
    intro metadata
    apply Shares.bind cooperates_createTemp
    intro temp
    apply Shares.of_fact
    intro htemp
    apply Shares.bind (Q := fun _ => Owns i temp AnyNode)
    · apply cooperates_withTemp htemp
      apply Shares.bind (cooperates_write htemp)
      exact fun _ => Shares.of_imp (cooperates_setTemporaryFileMode htemp)
        fun s _ h => h.mono fun _ _ => trivial
    · intro _
      apply Shares.bind (cooperates_replaceRetainingDisplaced htemp
        onlyReads_verifyDisplacedObject)
      intro _
      apply Shares.bind (OnlyQuiet.cooperates onlyReads_readLfsPointerFile.quiet)
      intro pointer
      split
      · exact .throw fun _ _ h => h
      · exact .pure fun _ _ h => h

/-- What is done under the lock of a path leads to what it leads to without. -/
theorem cooperates_withPathLock {p : FileProg α} {Q : α → FileState → Prop}
    (hQ : ∀ a s t, CacheGrows s t → Q a s → Q a t)
    (h : Cooperates digest fails i (fun _ => True) p (fun a s => Q a s.1) fun _ => True) :
    Cooperates digest fails i (fun _ => True) (withPathLock stripe path p) (fun a s => Q a s.1)
      fun _ => True := by
  unfold withPathLock
  apply Shares.bind (OnlyQuiet.cooperates (onlyQuiet_askFile (.lockPath _) trivial))
  intro _
  apply Shares.bind (cooperates_attempt h)
  intro result
  cases result with
  | ok a =>
    apply Shares.bind (OnlyQuiet.keeps (p := ask (F := fileInterface) (.unlockPath _))
      (calls_ask trivial) (hQ a))
    exact fun _ => .pure fun _ _ h => h
  | error e =>
    apply Shares.bind (OnlyQuiet.cooperates (p := ask (F := fileInterface) (.unlockPath _))
      (calls_ask trivial))
    exact fun _ => .throw fun _ _ h => h

/-! ## Operations -/

theorem cooperates_materializeObject {file : FilePath} :
    Cooperates digest fails i (fun _ => True)
      (materializeObject digest stripe object (.worktree file))
      (fun _ s => InCache digest object s.1) fun _ => True := by
  unfold materializeObject
  apply Shares.bind (OnlyQuiet.cooperates (onlyQuiet_askFile .lockShared trivial))
  intro _
  apply cooperates_withPathLock (Q := fun _ => InCache digest object)
    (fun _ _ _ hgrows h => h.grows hgrows)
  apply Shares.bind cooperates_verifyObject
  intro _
  apply Shares.conseq (cooperates_keeps (fun _ _ => InCache.grows)
    cooperates_materializeVerifiedObject)
  · exact fun _ _ _ h => h.1
  · exact fun _ _ _ h => h

/-- A hydration reports an object of the cache, unless it is empty. -/
theorem cooperates_hydratePointerFile {file : FilePath} :
    Cooperates digest fails i (fun _ => True) (hydratePointerFile digest stripe (.worktree file))
      (fun hydrated s => hydrated.1.size ≠ 0 → InCache digest hydrated.1 s.1) fun _ => True := by
  unfold hydratePointerFile
  apply Shares.bind (OnlyQuiet.cooperates (onlyQuiet_askFile .lockShared trivial))
  intro _
  apply cooperates_withPathLock
    (Q := fun (hydrated : LfsObject × LocalCacheMaterializationStatus) s =>
      hydrated.1.size ≠ 0 → InCache digest hydrated.1 s)
  · exact fun _ _ _ hgrows h hsize => (h hsize).grows hgrows
  unfold hydrateLocked
  apply Shares.bind (OnlyQuiet.cooperates onlyReads_readLfsPointerFile.quiet)
  intro pointer
  split
  next hempty =>
    have hsize : pointer.object.size = 0 := of_decide_eq_true hempty
    exact .pure fun _ _ _ hne => absurd hsize hne
  next =>
    apply Shares.bind cooperates_verifyObject
    intro _
    apply Shares.bind (cooperates_keeps (fun _ _ => InCache.grows)
      cooperates_materializeVerifiedObject)
    exact fun _ => .pure fun _ _ h _ => h.1

/-- The object of a file is in the cache before its pointer is published. -/
theorem cooperates_replaceWithPointer {file : FilePath} :
    Cooperates digest fails i (fun _ => True)
      (replaceWithPointer digest (.worktree file) object)
      (fun _ s => InCache digest object s.1) fun _ => True := by
  unfold replaceWithPointer
  apply Shares.bind (Q := fun _ s => InCache digest object s.1)
  · unfold cacheWorktreeObject
    apply Shares.bind (OnlyQuiet.cooperates onlyReads_regularFileExists.quiet)
    intro found
    split
    · apply Shares.bind cooperates_verifyObject
      intro _
      apply OnlyQuiet.keeps _ fun _ _ => InCache.grows
      exact calls_bind onlyQuiet_syncVerifiedCacheObject fun _ => trivial
    · apply Shares.bind (Q := fun _ s => InCache digest object s.1)
      · unfold copyVerifiedWorktreeObjectToCache
        apply Shares.bind (OnlyQuiet.cooperates onlyReads_readWorktreeFile.quiet)
        intro chunks
        apply Shares.bind cooperates_copyVerifiedFileToCache
        exact fun _ => .pure fun _ _ h => h
      · exact fun _ => .pure fun _ _ h => h
  · intro status
    apply Shares.bind (cooperates_keeps (fun _ _ => InCache.grows)
      cooperates_publishPointerFile)
    exact fun _ => .pure fun _ _ h => h.1

theorem cooperates_dehydrateFile {file : FilePath} :
    Cooperates digest fails i (fun _ => True)
      (dehydrateFile digest stripe object (.worktree file))
      (fun status s => status ≠ .alreadyDehydrated → InCache digest object s.1)
      fun _ => True := by
  unfold dehydrateFile
  apply Shares.bind (OnlyQuiet.cooperates (onlyQuiet_askFile .lockShared trivial))
  intro _
  apply cooperates_withPathLock (Q := fun (status : LocalCacheDehydrationStatus) s =>
    status ≠ .alreadyDehydrated → InCache digest object s)
  · exact fun _ _ _ hgrows h hstatus => (h hstatus).grows hgrows
  unfold dehydrateLocked
  apply Shares.bind (OnlyQuiet.cooperates onlyReads_readExistingLfsPointerFile.quiet)
  intro pointer
  cases pointer with
  | none => exact cooperates_replaceWithPointer.conseq (fun _ _ _ h _ => h) fun _ _ _ h => h
  | some pointer =>
    dsimp only
    split
    · exact .pure fun _ _ _ h => absurd rfl h
    · apply Shares.bind (OnlyQuiet.cooperates
        (onlyReads_attempt onlyReads_verifyWorktreeFileObject).quiet)
      intro result
      cases result with
      | error e => exact .throw fun _ _ h => h
      | ok u => exact cooperates_replaceWithPointer.conseq (fun _ _ _ h _ => h) fun _ _ _ h => h

/-- An operation reports an object only where that is in the cache. -/
theorem cooperates_run (operation : CacheOperation) :
    Cooperates digest fails i (fun _ => True) (operation.run digest stripe)
      (fun reported s => ∀ object, reported = some object → InCache digest object s.1)
      fun _ => True := by
  cases operation with
  | ingest gitLfsObjectsDir object =>
    apply Shares.bind cooperates_ingestGitLfsObject
    exact fun _ => .pure fun _ _ h other hother => Option.some.inj hother ▸ h
  | materialize object path =>
    apply Shares.bind cooperates_materializeObject
    exact fun _ => .pure fun _ _ h other hother => Option.some.inj hother ▸ h
  | hydrate path =>
    apply Shares.bind cooperates_hydratePointerFile
    intro hydrated
    refine .pure fun s _ h other hother => ?_
    split at hother
    · cases hother
    next hsize => exact Option.some.inj hother ▸ h hsize
  | dehydrate object path =>
    apply Shares.bind cooperates_dehydrateFile
    intro status
    refine .pure fun s _ h other hother => ?_
    split at hother
    · cases hother
    next hstatus => exact Option.some.inj hother ▸ h hstatus

/-- Operations one after the other report objects of the cache only. -/
theorem cooperates_runOperations (operations : List CacheOperation) :
    Cooperates digest fails i (fun _ => True) (runOperations digest stripe operations)
      (fun objects s => ∀ object ∈ objects, InCache digest object s.1) fun _ => True := by
  induction operations with
  | nil => exact .pure fun _ _ _ _ h => absurd h List.not_mem_nil
  | cons operation operations ih =>
    apply Shares.bind (cooperates_attempt (cooperates_run operation))
    intro result
    -- What the first operation reports stays in the cache during the others.
    have hrest := cooperates_keeps (R := fun s => ∀ object, result = .ok (some object) →
      InCache digest object s) (fun _ _ hgrows h object hresult => (h object hresult).grows hgrows)
      ih
    apply Shares.bind (hrest.of_imp _)
    · intro objects
      split
      next object =>
        refine .pure fun s _ h other hother => ?_
        rcases List.mem_cons.mp hother with rfl | hother
        · exact h.1 _ rfl
        · exact h.2 _ hother
      next => exact .pure fun _ _ h => h.2
    · intro s _ h object hresult
      rw [hresult] at h
      exact h object rfl

end

section

variable {ι : Type} [DecidableEq ι] {digest : List UInt8 → LfsOid} {stripe : DiskPath → String}
  {fails : FileState → FileCall → Prop} {start : FileState} {operations : ι → List CacheOperation}

/-- The result of a process that has come to its end. -/
def ProcessReports (digest : List UInt8 → LfsOid) (_ : ι) :
    Except LocalCacheFileError (List LfsObject) × Unit → FileState × Owners ι → Prop :=
  ResultHolds (fun objects s => ∀ object ∈ objects, InCache digest object s.1) fun _ _ => True

variable (digest stripe fails operations) in
/-- The processes, next to the owners of the temporary files. -/
def ownedSystem : System (Pool fileInterface (FileState × Owners ι) ι
    (Except LocalCacheFileError (List LfsObject) × Unit)) ι :=
  poolSystem (ownedOp fails) fun s => CacheSound digest s.shared.1 ∧
    ∀ i, s.thread i = (runOperations digest stripe (operations i)).from ()

/-- In every state the rest of each process is verified. -/
theorem wellRun_ownedSystem {s} (h : (ownedSystem digest stripe fails operations).Reachable s) :
    s.WellRun (ownedOp fails) (fun s => CacheSound digest s.1) Respects
      (ProcessReports digest) := by
  apply wellRun_of_reachable _ h
  rintro s ⟨hsound, hthreads⟩
  refine ⟨hsound, fun i => ⟨fun _ => True, .const _, trivial, ?_⟩⟩
  rw [hthreads]
  exact cooperates_runOperations (operations i)

/-- A run of the processes loses nothing of the cache. -/
theorem grows_of_run {s t is} (hreach : (ownedSystem digest stripe fails operations).Reachable s)
    (hrun : (ownedSystem digest stripe fails operations).Run s is t) :
    CacheGrows s.shared.1 t.shared.1 := by
  apply System.Run.relates (R := fun s t => CacheGrows s.shared.1 t.shared.1) _ _ _ hreach hrun
  · exact fun s => .refl s.shared.1
  · exact fun h h' => h.trans h'
  · exact fun hreach hstep => ((wellRun_ownedSystem hreach).step hstep).1.grows

/-- A run of the processes has one next to the owners. -/
theorem run_owned {s t is} (h : (cacheSystem digest stripe fails start operations).Run s is t)
    (owners : Owners ι) : ∃ owners', (ownedSystem digest stripe fails operations).Run
      (s.withGhost owners) is (t.withGhost owners') :=
  run_withGhost h owners

/-- In every run of any processes, whatever calls fail and whatever other programs write to the
worktrees meanwhile, the cache is sound, it keeps every file that it ever has at any path, and what
a process has reported is there. -/
theorem shared_cache_sound (hstart : CacheSound digest start) :
    ∀ s, (cacheSystem digest stripe fails start operations).Reachable s →
      CacheSound digest s.shared ∧
        (∀ t is, (cacheSystem digest stripe fails start operations).Run s is t →
          CacheGrows s.shared t.shared) ∧
        ∀ i objects, s.thread i = .done (.ok objects, ()) →
          ∀ object ∈ objects, InCache digest object s.shared := by
  rintro s ⟨s₀, is, ⟨hshared, hthreads⟩, hrun⟩
  obtain ⟨owners, hrun⟩ := run_owned hrun fun _ => none
  have hreach : (ownedSystem digest stripe fails operations).Reachable (s.withGhost owners) :=
    ⟨_, is, ⟨by rw [← hshared] at hstart; exact hstart, hthreads⟩, hrun⟩
  have hwell := wellRun_ownedSystem hreach
  refine ⟨hwell.1, fun t js hrest => ?_, fun i objects hdone => hwell.result hdone⟩
  obtain ⟨owners', hrest⟩ := run_owned hrest owners
  exact grows_of_run hreach hrest

end

/-- A cache with the empty object. -/
def sampleSharedCache : FileState :=
  ⟨(∅ : Table DiskPath DiskNode).insert (objectPath ⟨.ofEmpty, 0⟩) (.file ⟨[], 0o600, 0⟩), 1, []⟩

theorem cacheSound_sampleSharedCache : CacheSound sampleCacheDigest sampleSharedCache := by
  intro oid node hnode
  by_cases hpath : DiskPath.cache (objectPathForOid oid) = objectPath ⟨.ofEmpty, 0⟩
  · rw [hpath] at hnode
    have hfile := Option.some.inj ((AList.lookup_insert _).symm.trans hnode)
    exact ⟨_, hfile.symm, (objectPathForOid_injective (DiskPath.cache.inj hpath)).symm⟩
  · have hnone : sampleSharedCache.nodes.lookup (.cache (objectPathForOid oid)) = none :=
      AList.lookup_insert_ne hpath
    rw [hnone] at hnode
    cases hnode

/-- Two processes that each ingest an object and hydrate a file, where every call may fail. -/
def twoProcesses : System (Pool fileInterface FileState Bool
    (Except LocalCacheFileError (List LfsObject) × Unit)) Bool :=
  cacheSystem sampleCacheDigest sampleStripe (fun _ _ => True) sampleSharedCache
    fun _ => [.ingest [] ⟨.ofEmpty, 0⟩, .hydrate [.text "a"]]

/-- Before the two processes start, and in every run of them. -/
theorem shared_cache_sound_two : ∃ s, twoProcesses.Reachable s ∧
    CacheSound sampleCacheDigest s.shared ∧
      (∀ t is, twoProcesses.Run s is t → CacheGrows s.shared t.shared) ∧
        ∀ i objects, s.thread i = .done (.ok objects, ()) →
          ∀ object ∈ objects, InCache sampleCacheDigest object s.shared := by
  have hreach : twoProcesses.Reachable ⟨sampleSharedCache, fun _ =>
      (runOperations sampleCacheDigest sampleStripe
        [.ingest [] ⟨.ofEmpty, 0⟩, .hydrate [.text "a"]]).from ()⟩ :=
    .init ⟨rfl, fun _ => rfl⟩
  exact ⟨_, hreach, shared_cache_sound cacheSound_sampleSharedCache _ hreach⟩

end LfsCloud
