import LfsCloud.Sessions.Store

/-!
# Rules for the session store

What each operation does to the memory, for a store with rows or without, together with
any relation between rows and memory that the single statements keep.
-/

namespace LfsCloud

open Interaction

/-- Sessions in memory. -/
abbrev SessionTable := Table LfsSessionTokenKey LfsSessionRecord

/-- Nothing is new, and nothing is lost but what has expired. -/
structure Kept (now : SystemTime) (before after : SessionTable) : Prop where
  sub : ∀ {key record}, after.lookup key = some record → before.lookup key = some record
  active : ∀ {key record}, before.lookup key = some record →
    now < record.metadata.expiresAt → after.lookup key = some record

theorem Kept.refl (now : SystemTime) (sessions : SessionTable) : Kept now sessions sessions :=
  ⟨fun h => h, fun h _ => h⟩

theorem SessionStoreState.lookup_pruneExpiredSessions {state : SessionStoreState}
    {now : SystemTime} {key : LfsSessionTokenKey} {record : LfsSessionRecord} :
    (state.pruneExpiredSessions now).sessions.lookup key = some record ↔
      state.sessions.lookup key = some record ∧ now < record.metadata.expiresAt := by
  unfold pruneExpiredSessions
  rw [Table.lookup_filter_eq_some, decide_eq_true_eq]

/-- Pruning loses what has expired. -/
theorem SessionStoreState.kept_pruneExpiredSessions (state : SessionStoreState)
    (now : SystemTime) : Kept now state.sessions (state.pruneExpiredSessions now).sessions where
  sub h := (lookup_pruneExpiredSessions.mp h).1
  active h hnow := lookup_pruneExpiredSessions.mpr ⟨h, hnow⟩

/-- The memory in which an issue is decided. -/
def SessionStoreState.pruned (state : SessionStoreState) (now : SystemTime)
    (limits : SessionStoreLimits) : SessionStoreState :=
  (state.pruneExpiredSessions now).pruneRecentIssuances now limits.issuanceWindow

theorem SessionStoreState.kept_pruned (state : SessionStoreState) (now : SystemTime)
    (limits : SessionStoreLimits) : Kept now state.sessions (state.pruned now limits).sessions :=
  state.kept_pruneExpiredSessions now

/-- Taking a session removes it if it has expired. -/
theorem SessionStoreState.kept_takeActiveSession (state : SessionStoreState)
    (key : LfsSessionTokenKey) (now : SystemTime) :
    Kept now state.sessions (state.takeActiveSession key now).2.sessions := by
  unfold takeActiveSession
  cases hlookup : state.sessions.lookup key with
  | none => exact .refl now _
  | some record =>
    dsimp only
    split_ifs with hnow
    · exact .refl now _
    · refine ⟨fun h => (Table.lookup_erase_eq_some.mp h).2, fun {key' record'} h hactive => ?_⟩
      apply Table.lookup_erase_eq_some.mpr ⟨?_, h⟩
      rintro rfl
      rw [hlookup] at h
      cases h
      exact hnow hactive

/-- A relation between the database and the sessions in memory that the statements of the
operations keep. -/
structure RowsRule (codec : SessionCodec) (durable : Option SessionTokenProtector)
    (limits : SessionStoreLimits) (B : SessionDatabase → SessionTable → Prop) : Prop where
  tick : ∀ {d live now}, B d live → d.clock ≤ now → B (d.tick now) live
  generate : ∀ {d live token}, B d live → B (d.generate token) live
  keep : ∀ {d live live'}, B d live → Kept d.clock live live' → B d live'
  expire : ∀ {d live}, durable.isSome → B d live →
    B (d.deleteExpired (unixTimestampSeconds d.clock)) live
  record : ∀ {d live key record protectedToken row protector}, durable = some protector →
    B d live → live.lookup key = none → live.entries.length < limits.maxSessions →
    record.metadata.issuedAt = d.clock → Protects codec protector key record protectedToken →
    storedSession codec key record protectedToken = .ok row →
    B (d.record row) (live.insert key record)
  recordMemory : ∀ {d live key record}, durable = none → B d live →
    B d (live.insert key record)
  delete : ∀ {d live key}, durable.isSome → B d live → B (d.delete key.toHex) (live.erase key)
  deleteMemory : ∀ {d live key}, durable = none → B d live → B d (live.erase key)

section Rules

variable {codec : SessionCodec} {durable : Option SessionTokenProtector}
  {limits : SessionStoreLimits} {B : SessionDatabase → SessionTable → Prop} {fails : Prop}
  {C : SessionDatabase → Prop}

/-- Rules for a part of an operation that may work on the rows. -/
theorem whenDurable_triple {P : SessionStoreState → SessionDatabase → Prop}
    {Q : Unit → SessionStoreState → SessionDatabase → Prop}
    {E : ServerError → SessionStoreState → SessionDatabase → Prop}
    {p : SessionTokenProtector → SessionProg Unit}
    (hnone : durable = none → ∀ m d, P m d → Q () m d)
    (hsome : ∀ protector, durable = some protector → Triple (sessionOp fails) C P (p protector) Q E) :
    Triple (sessionOp fails) C P (whenDurable durable p) Q E := by
  cases durable with
  | none => exact .pure (hnone rfl)
  | some protector => exact hsome protector rfl

/-- A statement of the database, with its error. -/
theorem statement_triple {μ : Type} {c : SessionCall} {f : SessionDatabase → SessionDatabase}
    {P : μ → SessionDatabase → Prop} {Q : Unit → μ → SessionDatabase → Prop}
    {E : ServerError → μ → SessionDatabase → Prop}
    (hc : sessionInterface.Answer c = Except ServerError Unit)
    (hop : ∀ d answer d', sessionOp fails d c answer d' →
      statement fails d d' (f d) (cast hc answer))
    (hok : ∀ m d, P m d → C (f d) ∧ Q () m (f d))
    (herror : fails → ∀ m d, P m d → C d ∧ E .metadataOperation m d) :
    Triple (sessionOp fails) C P
      (ask c >>= fun answer => liftResult (cast hc answer) : MemoryProg _ μ _ Unit) Q E := by
  apply Triple.bind (Q := fun answer m d =>
    (cast hc answer = .ok () ∧ Q () m d) ∨
      (cast hc answer = .error .metadataOperation ∧ E .metadataOperation m d))
  · apply Triple.ask
    intro m d answer d' hm hanswer
    rcases hop d answer d' hanswer with ⟨heq, rfl⟩ | ⟨hfails, heq, rfl⟩
    · exact ⟨(hok m d hm).1, .inl ⟨heq, (hok m d hm).2⟩⟩
    · exact ⟨(herror hfails m d' hm).1, .inr ⟨heq, (herror hfails m d' hm).2⟩⟩
  · intro answer
    apply Triple.liftResult
    · rintro ⟨⟩ heq m d (⟨_, hQ⟩ | ⟨heq', _⟩)
      · exact hQ
      · rw [heq] at heq'
        cases heq'
    · rintro e heq m d (⟨heq', _⟩ | ⟨heq', hE⟩)
      · rw [heq] at heq'
        cases heq'
      · rw [heq] at heq'
        cases heq'
        exact hE

theorem deleteExpiredSessions_triple {μ : Type} {now : ℤ} {P : μ → SessionDatabase → Prop}
    {Q : Unit → μ → SessionDatabase → Prop} {E : ServerError → μ → SessionDatabase → Prop}
    (hok : ∀ m d, P m d → C (d.deleteExpired now) ∧ Q () m (d.deleteExpired now))
    (herror : fails → ∀ m d, P m d → C d ∧ E .metadataOperation m d) :
    Triple (sessionOp fails) C P (deleteExpiredSessions now) Q E :=
  statement_triple (f := fun d => d.deleteExpired now) rfl (fun _ _ _ h => h) hok herror

section

variable {P : SessionStoreState → SessionDatabase → Prop}
  {Q : Unit → SessionStoreState → SessionDatabase → Prop}
  {E : ServerError → SessionStoreState → SessionDatabase → Prop}

theorem recordSessionRow_triple {row : MetadataSessionRecord}
    (hok : ∀ m d, P m d → C (d.record row) ∧ Q () m (d.record row))
    (herror : fails → ∀ m d, P m d → C d ∧ E .metadataOperation m d) :
    Triple (sessionOp fails) C P (recordSessionRow row) Q E :=
  statement_triple (f := fun d => d.record row) rfl (fun _ _ _ h => h) hok herror

theorem deleteSession_triple {tokenSha256 : List UInt8}
    (hok : ∀ m d, P m d → C (d.delete tokenSha256) ∧ Q () m (d.delete tokenSha256))
    (herror : fails → ∀ m d, P m d → C d ∧ E .metadataOperation m d) :
    Triple (sessionOp fails) C P (deleteSession tokenSha256) Q E :=
  statement_triple (f := fun d => d.delete tokenSha256) rfl (fun _ _ _ h => h) hok herror

end

/-- A failure of the durable part of an issue. -/
def ServerError.OfStorage (e : ServerError) : Prop :=
  e = .metadataOperation ∨ ∃ message, e = .internal message

theorem sessionAssociatedData_error {key : LfsSessionTokenKey} {metadata : LfsSessionMetadata}
    {e : ServerError} (h : sessionAssociatedData codec key metadata = .error e) :
    e.OfStorage := by
  unfold sessionAssociatedData at h
  rw [unixTimestampSecondsI64_eq, unixTimestampSecondsI64_eq] at h
  simp only [bind, Except.bind] at h
  split at h
  · cases h
  · cases h
    exact .inr ⟨_, rfl⟩

theorem encryptWith_error {protector : SessionTokenProtector} {nonce : Vector UInt8 12}
    {key : LfsSessionTokenKey} {metadata : LfsSessionMetadata} {token : GitHubPersonalAccessToken}
    {e : ServerError} (h : protector.encryptWith codec nonce key metadata token = .error e) :
    e.OfStorage := by
  unfold SessionTokenProtector.encryptWith at h
  cases hdata : sessionAssociatedData codec key metadata with
  | error e' =>
    rw [hdata] at h
    cases h
    exact sessionAssociatedData_error hdata
  | ok data =>
    rw [hdata] at h
    simp only [bind, Except.bind] at h
    split at h
    · cases h
    · cases h
      exact .inr ⟨_, rfl⟩

theorem storedSession_error {key : LfsSessionTokenKey} {record : LfsSessionRecord}
    {protectedToken : Option (ByteArray × Vector UInt8 12)} {e : ServerError}
    (h : storedSession codec key record protectedToken = .error e) : e.OfStorage := by
  unfold storedSession at h
  rw [unixTimestampSecondsI64_eq, unixTimestampSecondsI64_eq] at h
  cases hscopes : codec.scopesToJson record.metadata.grantedScopes with
  | none =>
    rw [hscopes] at h
    cases h
    exact .inr ⟨_, rfl⟩
  | some text =>
    rw [hscopes] at h
    cases h

/-- Protecting a token writes nothing. -/
theorem protectToken_triple {protector : SessionTokenProtector} {key : LfsSessionTokenKey}
    {record : LfsSessionRecord} {P : SessionStoreState → SessionDatabase → Prop}
    (hC : ∀ m d, P m d → C d) :
    Triple (sessionOp fails) C P (protectToken codec protector key record)
      (fun protectedToken m d => Protects codec protector key record protectedToken ∧ P m d)
      fun e m d => e.OfStorage ∧ P m d := by
  unfold protectToken Protects
  cases record.githubPersonalAccessToken with
  | none => exact .pure fun m d hm => ⟨rfl, hm⟩
  | some token =>
    apply Triple.bind (Q := fun result m d =>
      (∃ nonce, protector.encryptWith codec nonce key record.metadata token = .ok result) ∧ P m d)
    · unfold SessionTokenProtector.encrypt
      apply Triple.bind (Q := fun _ => P)
      · apply Triple.ask
        rintro m d answer d' hm rfl
        exact ⟨hC m _ hm, hm⟩
      · rintro (_ | nonce)
        · exact .throw fun m d hm => ⟨.inr ⟨_, rfl⟩, hm⟩
        · exact .liftResult (fun result heq m d hm => ⟨⟨nonce, heq⟩, hm⟩)
            fun e heq m d hm => ⟨encryptWith_error heq, hm⟩
    · intro result
      apply Triple.pure
      rintro m d ⟨⟨nonce, heq⟩, hm⟩
      exact ⟨⟨nonce, result, rfl, heq⟩, hm⟩

/-- A session that is not in memory gets its row, or nothing happens. -/
theorem recordSession_triple (hB : RowsRule codec durable limits B)
    {protector : SessionTokenProtector} (hdurable : durable = some protector)
    {p : SessionStoreState} {key : LfsSessionTokenKey} {record : LfsSessionRecord}
    (hnew : p.sessions.lookup key = none) (hfew : p.sessions.entries.length < limits.maxSessions)
    (hC : ∀ d, d.clock = record.metadata.issuedAt → B d p.sessions → C d)
    (hC' : ∀ d, d.clock = record.metadata.issuedAt → B d (p.sessions.insert key record) → C d) :
    Triple (sessionOp fails) C
      (fun m d => m = p ∧ d.clock = record.metadata.issuedAt ∧ B d p.sessions)
      (recordSession codec protector key record)
      (fun _ m d => m = p ∧ d.clock = record.metadata.issuedAt ∧
        B d (p.sessions.insert key record))
      fun e m d => e.OfStorage ∧ m = p ∧ d.clock = record.metadata.issuedAt ∧
        B d p.sessions := by
  unfold recordSession
  apply Triple.bind (protectToken_triple fun m d hm => hC d hm.2.1 hm.2.2)
  intro protectedToken
  apply Triple.of_fact
  intro hprotects
  apply Triple.bind (Q := fun row m d => storedSession codec key record protectedToken = .ok row ∧
    m = p ∧ d.clock = record.metadata.issuedAt ∧ B d p.sessions)
  · exact .liftResult (fun row heq m d hm => ⟨heq, hm⟩)
      fun e heq m d hm => ⟨storedSession_error heq, hm⟩
  · intro row
    apply Triple.of_fact
    intro hrow
    apply recordSessionRow_triple
    · rintro m d ⟨rfl, hclock, hd⟩
      have hrecord := hB.record hdurable hd hnew hfew hclock.symm hprotects hrow
      exact ⟨hC' _ hclock hrecord, rfl, hclock, hrecord⟩
    · rintro _ m d ⟨rfl, hclock, hd⟩
      exact ⟨hC _ hclock hd, .inl rfl, rfl, hclock, hd⟩

/-- Every one of a row of generated tokens is in memory already. -/
def Collided (codec : SessionCodec) (p : SessionStoreState) (generated : List LfsSessionToken)
    (attempts : ℕ) (d : SessionDatabase) : Prop :=
  ∃ tokens, d.generated = generated ++ tokens ∧ tokens.length = attempts ∧
    ∀ token ∈ tokens, (p.sessions.lookup (.fromToken codec token)).isSome

/-- What an issue has done to the memory in which it was decided. -/
def Issued (codec : SessionCodec) (p : SessionStoreState) (record : LfsSessionRecord)
    (session : IssuedLfsSession) (m : SessionStoreState) : Prop :=
  session.metadata = record.metadata ∧
    p.sessions.lookup (.fromToken codec session.token) = none ∧
      m = p.insertSession (.fromToken codec session.token) record record.metadata.issuedAt

/-- The loop over the attempts: a new session, or as many collisions as attempts. -/
theorem issueWithToken_triple (hB : RowsRule codec durable limits B) {p : SessionStoreState}
    {record : LfsSessionRecord} (generated : List LfsSessionToken) {attempts n : ℕ}
    (hfew : p.sessions.entries.length < limits.maxSessions)
    (hC : ∀ d, d.clock = record.metadata.issuedAt → B d p.sessions → C d)
    (hC' : ∀ d key, d.clock = record.metadata.issuedAt → p.sessions.lookup key = none →
      B d (p.sessions.insert key record) → C d) :
    Triple (sessionOp fails) C
      (fun m d => m = p ∧ d.clock = record.metadata.issuedAt ∧ B d p.sessions ∧
        Collided codec p generated n d)
      (issueWithToken codec durable record record.metadata.issuedAt attempts)
      (fun session m d => d.clock = record.metadata.issuedAt ∧ B d m.sessions ∧
        Issued codec p record session m)
      fun e m d => m = p ∧ d.clock = record.metadata.issuedAt ∧ B d p.sessions ∧
        ((durable.isSome ∧ e.OfStorage) ∨ Collided codec p generated (n + attempts) d) := by
  induction attempts generalizing n with
  | zero =>
    apply Triple.throw
    rintro m d ⟨rfl, hclock, hd, hcollided⟩
    exact ⟨rfl, hclock, hd, .inr hcollided⟩
  | succ attempts ih =>
    apply Triple.bind (Q := fun (token : LfsSessionToken) m d => m = p ∧
      d.clock = record.metadata.issuedAt ∧ B d p.sessions ∧
        ((p.sessions.lookup (.fromToken codec token)).isSome →
          Collided codec p generated (n + 1) d))
    · apply Triple.ask
      rintro m d (token : LfsSessionToken) d' ⟨rfl, hclock, hd, tokens, hgenerated, hlength, hall⟩ rfl
      have hd' : B (d.generate token) m.sessions := hB.generate hd
      refine ⟨hC _ hclock hd', rfl, hclock, hd', fun hsome => ⟨tokens ++ [token], ?_, ?_, ?_⟩⟩
      · simp [SessionDatabase.generate, hgenerated]
      · simp [hlength]
      · intro other hother
        rcases List.mem_append.mp hother with hother | hother
        · exact hall other hother
        · rw [List.mem_singleton.mp hother]
          exact hsome
    intro token
    apply Triple.bind (Q := fun state m d => state = p ∧ m = p ∧
      d.clock = record.metadata.issuedAt ∧ B d p.sessions ∧
        ((p.sessions.lookup (.fromToken codec token)).isSome →
          Collided codec p generated (n + 1) d))
    · apply Triple.get
      rintro m d ⟨rfl, hm⟩
      exact ⟨rfl, rfl, hm⟩
    intro state
    apply Triple.of_fact
    rintro rfl
    by_cases hsome : (state.sessions.lookup (.fromToken codec token)).isSome
    · rw [if_pos hsome]
      apply (ih (n := n + 1)).conseq
      · rintro m d ⟨rfl, hclock, hd, hcollided⟩
        exact ⟨rfl, hclock, hd, hcollided hsome⟩
      · exact fun session m d h => h
      · rintro e m d ⟨rfl, hclock, hd, hreason⟩
        rw [show n + (attempts + 1) = n + 1 + attempts by omega]
        exact ⟨rfl, hclock, hd, hreason⟩
    · rw [if_neg hsome]
      have hnew : state.sessions.lookup (.fromToken codec token) = none := by
        simpa using hsome
      apply Triple.bind (Q := fun _ m d => m = state ∧ d.clock = record.metadata.issuedAt ∧
        B d (state.sessions.insert (.fromToken codec token) record))
      · apply whenDurable_triple
        · rintro hnone m d ⟨rfl, hclock, hd, _⟩
          exact ⟨rfl, hclock, hB.recordMemory hnone hd⟩
        · intro protector hprotector
          apply (recordSession_triple hB hprotector hnew hfew hC
            fun d hclock hd => hC' d _ hclock hnew hd).conseq
          · rintro m d ⟨rfl, hclock, hd, _⟩
            exact ⟨rfl, hclock, hd⟩
          · exact fun _ m d h => h
          · rintro e m d ⟨he, rfl, hclock, hd⟩
            exact ⟨rfl, hclock, hd, .inl ⟨by simp [hprotector], he⟩⟩
      · intro _
        apply Triple.bind (Q := fun _ m d => d.clock = record.metadata.issuedAt ∧
          B d m.sessions ∧ m = state.insertSession (.fromToken codec token) record
            record.metadata.issuedAt)
        · apply Triple.modify
          rintro m d ⟨rfl, hclock, hd⟩
          exact ⟨hclock, hd, rfl⟩
        · intro _
          apply Triple.pure
          rintro m d ⟨hclock, hd, rfl⟩
          exact ⟨hclock, hd, rfl, hnew, rfl⟩

/-- The memory after a refused issue. -/
def Refused (request : IssueRequest) (limits : SessionStoreLimits)
    (state m : SessionStoreState) (d : SessionDatabase) : Prop :=
  (m = state ∧ (request.ttl.isZero ∨ d.clock.checkedAdd request.ttl = none)) ∨
    m = state.pruned d.clock limits

/-- Why an issue was refused. -/
inductive Refusal (codec : SessionCodec) (durable : Option SessionTokenProtector)
    (limits : SessionStoreLimits) (request : IssueRequest) (state : SessionStoreState)
    (generated : List LfsSessionToken) (d : SessionDatabase) (e : ServerError) : Prop
  /-- The lifetime is zero, or its end cannot be represented. -/
  | request (h : request.ttl.isZero ∨ d.clock.checkedAdd request.ttl = none)
  /-- The rows could not be written. -/
  | durable (h : durable.isSome) (he : e.OfStorage)
  | limit (principal : LfsSessionPrincipal)
      (hprincipal : ∀ issuedAt expiresAt,
        principal = .fromMetadata (request.record issuedAt expiresAt).metadata)
      (h : enforceSessionAdmission (state.pruned d.clock limits) principal d.clock limits =
        .error e)
  | collision (h : Collided codec (state.pruned d.clock limits) generated
      maxLfsSessionTokenGenerationAttempts d)

/-- A granted issue: the session is new, and was admitted. -/
structure Granted (codec : SessionCodec) (limits : SessionStoreLimits) (request : IssueRequest)
    (state : SessionStoreState) (session : IssuedLfsSession) (m : SessionStoreState)
    (d : SessionDatabase) (expiresAt : SystemTime) : Prop where
  lifetime : request.ttl.isZero = false ∧ d.clock.checkedAdd request.ttl = some expiresAt
  admitted : enforceSessionAdmission (state.pruned d.clock limits)
    (.fromMetadata (request.record d.clock expiresAt).metadata) d.clock limits = .ok ()
  issued : Issued codec (state.pruned d.clock limits) (request.record d.clock expiresAt) session m

/-- An admitted issue leaves room for one more session. -/
theorem lt_maxSessions_of_admitted {state : SessionStoreState} {principal : LfsSessionPrincipal}
    {now : SystemTime} (h : enforceSessionAdmission state principal now limits = .ok ()) :
    state.sessions.entries.length < limits.maxSessions := by
  dsimp only [enforceSessionAdmission] at h
  split_ifs at h with hprincipal hrecent hall
  omega

/-- A session that is decided on at a time. -/
theorem issueRecord_triple (hB : RowsRule codec durable limits B) (state : SessionStoreState)
    (record : LfsSessionRecord) (generated : List LfsSessionToken)
    (hC : ∀ d live, d.clock = record.metadata.issuedAt →
      Kept record.metadata.issuedAt state.sessions live → B d live → C d)
    (hC' : ∀ d key, d.clock = record.metadata.issuedAt →
      (state.pruned record.metadata.issuedAt limits).sessions.lookup key = none →
      B d ((state.pruned record.metadata.issuedAt limits).sessions.insert key record) → C d) :
    Triple (sessionOp fails) C
      (fun m d => m = state ∧ d.clock = record.metadata.issuedAt ∧ B d state.sessions ∧
        d.generated = generated)
      (issueRecord codec durable limits record record.metadata.issuedAt)
      (fun session m d => d.clock = record.metadata.issuedAt ∧ B d m.sessions ∧
        enforceSessionAdmission (state.pruned record.metadata.issuedAt limits)
          (.fromMetadata record.metadata) record.metadata.issuedAt limits = .ok () ∧
        Issued codec (state.pruned record.metadata.issuedAt limits) record session m)
      fun e m d => m = state.pruned record.metadata.issuedAt limits ∧
        d.clock = record.metadata.issuedAt ∧ B d m.sessions ∧
        ((durable.isSome ∧ e.OfStorage) ∨
          enforceSessionAdmission (state.pruned record.metadata.issuedAt limits)
            (.fromMetadata record.metadata) record.metadata.issuedAt limits = .error e ∨
        Collided codec (state.pruned record.metadata.issuedAt limits) generated
          maxLfsSessionTokenGenerationAttempts d) := by
  have hkept := state.kept_pruned record.metadata.issuedAt limits
  set now := record.metadata.issuedAt with hnow
  set p := state.pruned now limits with hp
  have hCp : ∀ d, d.clock = now → B d p.sessions → C d :=
    fun d hclock hd => hC d _ hclock hkept hd
  apply Triple.bind (Q := fun _ m d => m = state.pruneExpiredSessions now ∧ d.clock = now ∧
    B d p.sessions ∧ d.generated = generated)
  · apply Triple.modify
    rintro m d ⟨rfl, hclock, hd, hgenerated⟩
    exact ⟨rfl, hclock, hB.keep hd (hclock ▸ hkept), hgenerated⟩
  intro _
  apply Triple.bind (Q := fun _ m d => m = p ∧ d.clock = now ∧ B d p.sessions ∧
    d.generated = generated)
  · apply Triple.modify
    rintro m d ⟨rfl, hm⟩
    exact ⟨rfl, hm⟩
  intro _
  apply Triple.bind (Q := fun _ m d => m = p ∧ d.clock = now ∧ B d p.sessions ∧
    d.generated = generated)
  · apply whenDurable_triple
    · exact fun _ m d h => h
    · intro protector hprotector
      have hsome : durable.isSome := by simp [hprotector]
      rw [unixTimestampSecondsI64_eq]
      apply deleteExpiredSessions_triple
      · rintro m d ⟨rfl, hclock, hd, hgenerated⟩
        have hexpire := hB.expire hsome hd
        rw [hclock] at hexpire
        exact ⟨hCp _ hclock hexpire, rfl, hclock, hexpire, hgenerated⟩
      · rintro _ m d ⟨rfl, hclock, hd, _⟩
        exact ⟨hCp _ hclock hd, rfl, hclock, hd, .inl ⟨hsome, .inl rfl⟩⟩
  intro _
  apply Triple.bind (Q := fun current m d => current = p ∧ m = p ∧ d.clock = now ∧
    B d p.sessions ∧ d.generated = generated)
  · apply Triple.get
    rintro m d ⟨rfl, hm⟩
    exact ⟨rfl, rfl, hm⟩
  intro current
  apply Triple.of_fact
  rintro rfl
  apply Triple.bind (Q := fun _ m d =>
    enforceSessionAdmission p (.fromMetadata record.metadata) now limits = .ok () ∧
      m = p ∧ d.clock = now ∧ B d p.sessions ∧ d.generated = generated)
  · apply Triple.liftResult
    · rintro ⟨⟩ heq m d hm
      exact ⟨heq, hm⟩
    · rintro e heq m d ⟨rfl, hclock, hd, _⟩
      exact ⟨rfl, hclock, hd, .inr (.inl heq)⟩
  intro _
  apply Triple.of_fact
  intro hadmitted
  have hfew := lt_maxSessions_of_admitted hadmitted
  apply (issueWithToken_triple (n := 0) hB generated hfew hCp hC').conseq
  · rintro m d ⟨rfl, hclock, hd, hgenerated⟩
    exact ⟨rfl, hclock, hd, [], by simp [hgenerated], rfl, nofun⟩
  · rintro session m d ⟨hclock, hd, hissued⟩
    exact ⟨hclock, hd, hadmitted, hissued⟩
  · rintro e m d ⟨rfl, hclock, hd, hreason⟩
    rw [Nat.zero_add] at hreason
    exact ⟨rfl, hclock, hd, hreason.imp_right .inr⟩

/-- The principal of a request does not depend on its times. -/
theorem IssueRequest.principal_eq (request : IssueRequest) (issuedAt expiresAt issuedAt' expiresAt' :
    SystemTime) : LfsSessionPrincipal.fromMetadata (request.record issuedAt expiresAt).metadata =
      .fromMetadata (request.record issuedAt' expiresAt').metadata := rfl

/-- What is left of an issue that was killed: nothing is new, or the session is. -/
def IssueCut (limits : SessionStoreLimits) (request : IssueRequest)
    (state : SessionStoreState) (B : SessionDatabase → SessionTable → Prop) (start : SystemTime)
    (d : SessionDatabase) : Prop :=
  start ≤ d.clock ∧
    ((∃ live, B d live ∧ Kept d.clock state.sessions live) ∨
      ∃ key expiresAt, d.clock.checkedAdd request.ttl = some expiresAt ∧
        (state.pruned d.clock limits).sessions.lookup key = none ∧
          B d ((state.pruned d.clock limits).sessions.insert key
            (request.record d.clock expiresAt)))

/-- An issue is granted, or refused for a reason; killed, it leaves no session or the new
one. -/
theorem issueSessionRecord_triple (hB : RowsRule codec durable limits B)
    (request : IssueRequest) (state : SessionStoreState) (start : SystemTime)
    (generated : List LfsSessionToken) :
    Triple (sessionOp fails) (IssueCut limits request state B start)
      (fun m d => m = state ∧ d.clock = start ∧ B d state.sessions ∧ d.generated = generated)
      (issueSessionRecord codec durable limits request)
      (fun session m d => start ≤ d.clock ∧ B d m.sessions ∧
        ∃ expiresAt, Granted codec limits request state session m d expiresAt)
      fun e m d => start ≤ d.clock ∧ B d m.sessions ∧ Refused request limits state m d ∧
        Refusal codec durable limits request state generated d e := by
  unfold issueSessionRecord
  split_ifs with hzero
  · apply Triple.throw
    rintro m d ⟨rfl, rfl, hd, _⟩
    exact ⟨le_rfl, hd, .inl ⟨rfl, .inl hzero⟩, .request (.inl hzero)⟩
  apply Triple.bind (Q := fun (issuedAt : SystemTime) m d => start ≤ issuedAt ∧ m = state ∧
    d.clock = issuedAt ∧ B d state.sessions ∧ d.generated = generated)
  · apply Triple.ask
    rintro m d answer d' ⟨rfl, rfl, hd, hgenerated⟩ ⟨hle, rfl⟩
    have hd' := hB.tick hd hle
    exact ⟨⟨hle, .inl ⟨_, hd', .refl _ _⟩⟩, hle, rfl, rfl, hd', hgenerated⟩
  intro issuedAt
  apply Triple.of_fact
  intro hle
  cases hadd : issuedAt.checkedAdd request.ttl with
  | none =>
    apply Triple.throw
    rintro m d ⟨rfl, rfl, hd, _⟩
    exact ⟨hle, hd, .inl ⟨rfl, .inr hadd⟩, .request (.inr hadd)⟩
  | some expiresAt =>
    apply (issueRecord_triple hB state (request.record issuedAt expiresAt) generated ?_ ?_).conseq
    · exact fun m d h => h
    · rintro session m d ⟨rfl, hd, hadmitted, hissued⟩
      exact ⟨hle, hd, expiresAt, ⟨by simpa using hzero, hadd⟩, hadmitted, hissued⟩
    · rintro e m d ⟨rfl, rfl, hd, hreason⟩
      refine ⟨hle, hd, .inr rfl, ?_⟩
      rcases hreason with ⟨hsome, he⟩ | hlimit | hcollided
      · exact .durable hsome he
      · exact .limit _ (fun _ _ => request.principal_eq _ _ _ _) hlimit
      · exact .collision hcollided
    · rintro d live rfl hkept hd
      exact ⟨hle, .inl ⟨live, hd, hkept⟩⟩
    · rintro d key rfl hnew hd
      exact ⟨hle, .inr ⟨key, expiresAt, hadd, hnew, hd⟩⟩

/-- A reading of the clock keeps the relation. -/
theorem ask_clock_triple (hB : RowsRule codec durable limits B) {state : SessionStoreState}
    {start : SystemTime} {E : ServerError → SessionStoreState → SessionDatabase → Prop}
    (hC : ∀ d, start ≤ d.clock → B d state.sessions → C d) :
    Triple (sessionOp fails) C (fun m d => m = state ∧ d.clock = start ∧ B d state.sessions)
      (ask (F := sessionInterface) .clock)
      (fun (now : SystemTime) m d => m = state ∧ d.clock = now ∧ start ≤ d.clock ∧
        B d state.sessions) E := by
  apply Triple.ask
  rintro m d answer d' ⟨rfl, rfl, hd⟩ ⟨hle, rfl⟩
  have hd' := hB.tick hd hle
  exact ⟨hC _ hle hd', rfl, rfl, hle, hd'⟩

/-- A verification takes what is active from memory, and never fails. -/
theorem verifyRecord_triple (hB : RowsRule codec durable limits B) (token : LfsSessionToken)
    (state : SessionStoreState) (start : SystemTime) :
    Triple (sessionOp fails) (fun d => start ≤ d.clock ∧ B d state.sessions)
      (fun m d => m = state ∧ d.clock = start ∧ B d state.sessions)
      (verifyRecord codec token)
      (fun result m d => start ≤ d.clock ∧ B d m.sessions ∧
        (result, m) = state.takeActiveSession (.fromToken codec token) d.clock)
      fun _ _ _ => False := by
  apply Triple.bind (ask_clock_triple hB fun d hle hd => ⟨hle, hd⟩)
  intro now
  apply Triple.bind (Q := fun current m d => current = state ∧ d.clock = now ∧
    start ≤ d.clock ∧ B d state.sessions)
  · apply Triple.get
    rintro m d ⟨rfl, hm⟩
    exact ⟨rfl, hm⟩
  intro current
  apply Triple.of_fact
  rintro rfl
  apply Triple.bind (Q := fun _ m d => start ≤ d.clock ∧ B d m.sessions ∧
    m = (current.takeActiveSession (.fromToken codec token) d.clock).2 ∧ d.clock = now)
  · apply Triple.set
    rintro m d ⟨rfl, hle, hd⟩
    exact ⟨hle, hB.keep hd (current.kept_takeActiveSession _ _), rfl, rfl⟩
  · intro _
    apply Triple.pure
    rintro m d ⟨hle, hd, rfl, rfl⟩
    exact ⟨hle, hd, rfl⟩

/-- A revocation removes the session, or fails and changes nothing. -/
theorem revoke_triple (hB : RowsRule codec durable limits B) (token : LfsSessionToken)
    (state : SessionStoreState) (start : SystemTime) :
    Triple (sessionOp fails)
      (fun d => start ≤ d.clock ∧
        (B d state.sessions ∨ B d (state.sessions.erase (.fromToken codec token))))
      (fun m d => m = state ∧ d.clock = start ∧ B d state.sessions)
      (revoke codec durable token)
      (fun result m d => start ≤ d.clock ∧ B d m.sessions ∧
        m = { state with sessions := state.sessions.erase (.fromToken codec token) } ∧
        result = match state.sessions.lookup (.fromToken codec token) with
          | some record => decide (d.clock < record.metadata.expiresAt)
          | none => false)
      fun _ m d => start ≤ d.clock ∧ B d m.sessions ∧ m = state := by
  apply Triple.bind (ask_clock_triple hB fun d hle hd => ⟨hle, .inl hd⟩)
  intro now
  apply Triple.bind (Q := fun _ m d => m = state ∧ d.clock = now ∧ start ≤ d.clock ∧
    B d (state.sessions.erase (.fromToken codec token)))
  · apply whenDurable_triple
    · rintro hnone m d ⟨rfl, hclock, hle, hd⟩
      exact ⟨rfl, hclock, hle, hB.deleteMemory hnone hd⟩
    · intro protector hprotector
      have hsome : durable.isSome := by simp [hprotector]
      apply deleteSession_triple
      · rintro m d ⟨rfl, hclock, hle, hd⟩
        have hdelete : B (d.delete (LfsSessionTokenKey.fromToken codec token).toHex)
            (m.sessions.erase (.fromToken codec token)) := hB.delete hsome hd
        exact ⟨⟨hle, .inr hdelete⟩, rfl, hclock, hle, hdelete⟩
      · rintro _ m d ⟨rfl, hclock, hle, hd⟩
        exact ⟨⟨hle, .inl hd⟩, hle, hd, rfl⟩
  intro _
  apply Triple.bind (Q := fun current m d => current = state ∧ d.clock = now ∧
    start ≤ d.clock ∧ B d (state.sessions.erase (.fromToken codec token)))
  · apply Triple.get
    rintro m d ⟨rfl, hm⟩
    exact ⟨rfl, hm⟩
  intro current
  apply Triple.of_fact
  rintro rfl
  apply Triple.bind (Q := fun _ m d => start ≤ d.clock ∧ B d m.sessions ∧
    m = { current with sessions := current.sessions.erase (.fromToken codec token) } ∧
      d.clock = now)
  · apply Triple.set
    rintro m d ⟨hclock, hle, hd⟩
    exact ⟨hle, hd, rfl, hclock⟩
  · intro _
    apply Triple.pure
    rintro m d ⟨hle, hd, rfl, rfl⟩
    exact ⟨hle, hd, rfl, rfl⟩

/-- Counting drops what has expired. -/
theorem sessionCount_triple (hB : RowsRule codec durable limits B) (state : SessionStoreState)
    (start : SystemTime) :
    Triple (sessionOp fails) (fun d => start ≤ d.clock ∧ B d state.sessions)
      (fun m d => m = state ∧ d.clock = start ∧ B d state.sessions) sessionCount
      (fun result m d => start ≤ d.clock ∧ B d m.sessions ∧
        m = state.pruneExpiredSessions d.clock ∧ result = m.sessions.entries.length)
      fun _ _ _ => False := by
  apply Triple.bind (ask_clock_triple hB fun d hle hd => ⟨hle, hd⟩)
  intro now
  apply Triple.bind (Q := fun _ m d => start ≤ d.clock ∧ B d m.sessions ∧
    m = state.pruneExpiredSessions d.clock)
  · apply Triple.modify
    rintro m d ⟨rfl, rfl, hle, hd⟩
    exact ⟨hle, hB.keep hd (m.kept_pruneExpiredSessions _), rfl⟩
  intro _
  apply Triple.bind (Q := fun current m d => current = m ∧ start ≤ d.clock ∧ B d m.sessions ∧
    m = state.pruneExpiredSessions d.clock)
  · exact .get fun m d hm => ⟨rfl, hm⟩
  intro current
  apply Triple.pure
  rintro m d ⟨rfl, hle, hd, rfl⟩
  exact ⟨hle, hd, rfl, rfl⟩

end Rules

end LfsCloud
