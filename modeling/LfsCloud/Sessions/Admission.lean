import LfsCloud.Sessions.Restart

/-!
# Admission limits

One process with its store: the bounds on the sessions and on the issues of a principal,
the reasons for which an issue is refused, and what a verification returns.
-/

namespace LfsCloud

open Interaction Transition

/-- An operation of the store. -/
def SessionEvent.Operation : SessionEvent → Prop
  | .issue _ _ => True
  | .verify _ _ => True
  | .revoke _ _ => True
  | .count _ => True
  | _ => False

section

variable (codec : SessionCodec)

/-- A new store, with rows or without. -/
def storeSystem (secret : ByteArray) (durable : Option SessionTokenProtector)
    (limits : SessionStoreLimits) : System SessionWorld SessionEvent where
  init s := s.store = some ⟨⟨∅, ∅⟩, durable, limits⟩
  step s e t := SessionWorld.Step codec secret s e t ∧ e.Operation

/-- The times at which a principal was issued sessions. -/
def issueTimes (principal : LfsSessionPrincipal) (events : List SessionEvent) : List SystemTime :=
  events.filterMap fun e => match e with
    | .issue _ (.ok session) =>
      if LfsSessionPrincipal.fromMetadata session.metadata = principal then
        some session.metadata.issuedAt
      else none
    | _ => none

end

/-- The issues of a window that begins at a time. -/
def inWindow (start : ℤ) (window : Duration) (time : SystemTime) : Bool :=
  start ≤ time.nanos && time.nanos < start + window.nanos

/-- An issue that was recent later was recent before. -/
theorem isRecent_of_le {now now' time : SystemTime} {window : Duration} (hle : now ≤ now')
    (h : SessionStoreState.isRecent now' window time = true) :
    SessionStoreState.isRecent now window time = true := by
  unfold SessionStoreState.isRecent at h ⊢
  cases hadd : time.checkedAdd window with
  | none => rfl
  | some expiresAt =>
    rw [hadd] at h
    simp only [decide_eq_true_eq] at h ⊢
    exact lt_of_le_of_lt hle h

/-- An issue of a window that is not over is recent. -/
theorem isRecent_of_inWindow {start : ℤ} {window : Duration} {now time : SystemTime}
    (hnow : inWindow start window now = true) (h : inWindow start window time = true) :
    SessionStoreState.isRecent now window time = true := by
  unfold SessionStoreState.isRecent SystemTime.checkedAdd
  simp only [inWindow, Bool.and_eq_true, decide_eq_true_eq] at hnow h
  split_ifs with hbound
  · simp only [decide_eq_true_eq, SystemTime.lt_iff]
    omega
  · rfl

namespace SessionStoreState

@[simp] theorem recentFor_pruned (state : SessionStoreState) (now : SystemTime)
    (limits : SessionStoreLimits) (principal : LfsSessionPrincipal) :
    (state.pruned now limits).recentFor principal =
      (state.recentFor principal).filter (isRecent now limits.issuanceWindow) := by
  unfold recentFor pruned pruneRecentIssuances pruneExpiredSessions
  simp only [Table.lookup_filter, Table.lookup_mapValues]
  cases state.recentIssuances.lookup principal with
  | none => rfl
  | some times =>
    by_cases hnil : times.filter (isRecent now limits.issuanceWindow) = []
    · simp [Option.filter, hnil]
    · simp [Option.filter, hnil]

/-- A new session is the latest issue of its principal. -/
theorem recentFor_insertSession (state : SessionStoreState) (key : LfsSessionTokenKey)
    (record : LfsSessionRecord) (issuedAt : SystemTime) (principal : LfsSessionPrincipal) :
    (state.insertSession key record issuedAt).recentFor principal =
      state.recentFor principal ++
        if LfsSessionPrincipal.fromMetadata record.metadata = principal then [issuedAt]
        else [] := by
  unfold recentFor insertSession
  split_ifs with hprincipal
  · subst hprincipal
    rw [AList.lookup_insert]
    rfl
  · rw [AList.lookup_insert_ne (Ne.symm hprincipal), List.append_nil]

/-- The number of sessions of a principal. -/
def principalCount (state : SessionStoreState) (principal : LfsSessionPrincipal) : ℕ :=
  Table.count (fun record => decide (LfsSessionPrincipal.fromMetadata record.metadata = principal))
    state.sessions

theorem length_principalSessions (state : SessionStoreState) (principal : LfsSessionPrincipal) :
    (state.principalSessions principal).length = state.principalCount principal := by
  unfold principalCount principalSessions
  rw [← Table.length_filter, Table.filter, List.filter_map, List.length_map]
  rfl

end SessionStoreState

/-- One of the limits is reached for a principal. -/
def LimitReached (limits : SessionStoreLimits) (state : SessionStoreState)
    (principal : LfsSessionPrincipal) : Prop :=
  limits.maxSessionsPerPrincipal ≤ state.principalCount principal ∨
    limits.maxIssuancesPerWindow ≤ (state.recentFor principal).length ∨
      limits.maxSessions ≤ state.sessions.entries.length

/-- A session is admitted exactly when no limit is reached. -/
theorem enforceSessionAdmission_spec {limits : SessionStoreLimits} {state : SessionStoreState}
    {principal : LfsSessionPrincipal} {now : SystemTime} :
    (enforceSessionAdmission state principal now limits = .ok () ↔
      ¬LimitReached limits state principal) ∧
    ∀ e, enforceSessionAdmission state principal now limits = .error e →
      LimitReached limits state principal := by
  have hpos := limits.maxIssuancesPerWindow_pos
  have hnone : state.recentIssuances.lookup principal = none →
      (state.recentFor principal).length = 0 := by
    intro h
    simp [SessionStoreState.recentFor, h]
  unfold LimitReached
  dsimp only [enforceSessionAdmission]
  rw [state.length_principalSessions]
  split_ifs with hprincipal hrecent hall
  · simp [hprincipal]
  · simp [hrecent.2]
  · simp [hall]
  · have hshort : ¬limits.maxIssuancesPerWindow ≤ (state.recentFor principal).length := by
      intro hlong
      apply hrecent
      refine ⟨?_, hlong⟩
      by_contra hsome
      rw [Option.not_isSome_iff_eq_none] at hsome
      have := hnone hsome
      omega
    simp [hprincipal, hshort, hall]

/-- The invariant of a run: the bounds, and what the events say of the memory. -/
structure WithinLimits (codec : SessionCodec) (limits : SessionStoreLimits)
    (events : List SessionEvent) (clock : SystemTime) (state : SessionStoreState) : Prop where
  sessions : state.sessions.entries.length ≤ limits.maxSessions
  principal : ∀ principal, state.principalCount principal ≤ limits.maxSessionsPerPrincipal
  issued : ∀ {key record}, state.sessions.lookup key = some record →
    Since (SessionEvent.Promises codec key record) (SessionEvent.Revokes codec key) events
  active : ∀ {key record},
    Since (SessionEvent.Promises codec key record) (SessionEvent.Revokes codec key) events →
      clock < record.metadata.expiresAt → state.sessions.lookup key = some record
  past : ∀ principal, ∀ time ∈ issueTimes principal events, time ≤ clock
  recent : ∀ principal, (issueTimes principal events).filter
    (SessionStoreState.isRecent clock limits.issuanceWindow) =
      (state.recentFor principal).filter
        (SessionStoreState.isRecent clock limits.issuanceWindow)
  window : ∀ principal start, ((issueTimes principal events).filter
    (inWindow start limits.issuanceWindow)).length ≤ limits.maxIssuancesPerWindow

section

variable {codec : SessionCodec} {limits : SessionStoreLimits} {events : List SessionEvent}
  {clock clock' : SystemTime} {state state' : SessionStoreState} {e : SessionEvent}

/-- Filtering by a later time absorbs filtering by an earlier one. -/
theorem filter_isRecent_filter {window : Duration} (hle : clock ≤ clock')
    (times : List SystemTime) :
    (times.filter (SessionStoreState.isRecent clock window)).filter
      (SessionStoreState.isRecent clock' window) =
        times.filter (SessionStoreState.isRecent clock' window) := by
  rw [List.filter_filter]
  apply List.filter_congr
  intro time _
  by_cases hrecent : SessionStoreState.isRecent clock' window time = true
  · simp [hrecent, isRecent_of_le hle hrecent]
  · simp [hrecent]

/-- What the memory says of the issues in the window, at a later time. -/
theorem WithinLimits.recent_later (h : WithinLimits codec limits events clock state)
    (hle : clock ≤ clock') (principal : LfsSessionPrincipal) :
    (issueTimes principal events).filter
      (SessionStoreState.isRecent clock' limits.issuanceWindow) =
        (state.recentFor principal).filter
          (SessionStoreState.isRecent clock' limits.issuanceWindow) := by
  have hfilter := congrArg
    (List.filter (SessionStoreState.isRecent clock' limits.issuanceWindow)) (h.recent principal)
  rwa [filter_isRecent_filter hle, filter_isRecent_filter hle] at hfilter

/-- An event that issues nothing. -/
theorem issueTimes_snoc_of_not (principal : LfsSessionPrincipal)
    (hpromises : ∀ key record, ¬e.Promises codec key record) :
    issueTimes principal (events ++ [e]) = issueTimes principal events := by
  unfold issueTimes
  rw [List.filterMap_append]
  cases e with
  | issue request result =>
    cases result with
    | ok session => exact absurd ⟨request, session, rfl, rfl, rfl⟩ (hpromises _ _)
    | error _ => simp
  | _ => simp

/-- An event that issues nothing, and removes what has expired or what it revokes. -/
theorem WithinLimits.shrink (h : WithinLimits codec limits events clock state)
    (hle : clock ≤ clock') (hpromises : ∀ key record, ¬e.Promises codec key record)
    (hsub : ∀ {key record}, state'.sessions.lookup key = some record →
      state.sessions.lookup key = some record ∧ ¬e.Revokes codec key)
    (hactive : ∀ {key record}, state.sessions.lookup key = some record →
      clock' < record.metadata.expiresAt → ¬e.Revokes codec key →
        state'.sessions.lookup key = some record)
    (hrecent : ∀ principal, (state'.recentFor principal).filter
      (SessionStoreState.isRecent clock' limits.issuanceWindow) =
        (state.recentFor principal).filter
          (SessionStoreState.isRecent clock' limits.issuanceWindow)) :
    WithinLimits codec limits (events ++ [e]) clock' state' := by
  constructor
  · refine le_trans (Table.length_le_of_keys fun key hkey => ?_) h.sessions
    obtain ⟨record, hrecord⟩ := Option.isSome_iff_exists.mp hkey
    simp [(hsub hrecord).1]
  · intro principal
    exact le_trans (Table.count_le_of_lookup fun hlookup => (hsub hlookup).1) (h.principal _)
  · intro key record hlookup
    obtain ⟨hold, hnot⟩ := hsub hlookup
    exact since_snoc.mpr (.inr ⟨h.issued hold, hnot⟩)
  · intro key record hsince hnow
    rcases since_snoc.mp hsince with hpromise | ⟨hbefore, hnot⟩
    · exact absurd hpromise (hpromises _ _)
    · exact hactive (h.active hbefore (lt_of_le_of_lt hle hnow)) hnow hnot
  · intro principal time htime
    rw [issueTimes_snoc_of_not principal hpromises] at htime
    exact le_trans (h.past principal time htime) hle
  · intro principal
    rw [issueTimes_snoc_of_not principal hpromises, h.recent_later hle, hrecent]
  · intro principal start
    rw [issueTimes_snoc_of_not principal hpromises]
    exact h.window principal start

/-- An event that loses nothing from memory but what has expired. -/
theorem WithinLimits.keep (h : WithinLimits codec limits events clock state)
    (hle : clock ≤ clock') (hpromises : ∀ key record, ¬e.Promises codec key record)
    (hrevokes : ∀ key, ¬e.Revokes codec key)
    (hkept : Kept clock' state.sessions state'.sessions)
    (hrecent : ∀ principal, (state'.recentFor principal).filter
      (SessionStoreState.isRecent clock' limits.issuanceWindow) =
        (state.recentFor principal).filter
          (SessionStoreState.isRecent clock' limits.issuanceWindow)) :
    WithinLimits codec limits (events ++ [e]) clock' state' :=
  h.shrink hle hpromises (fun hlookup => ⟨hkept.sub hlookup, hrevokes _⟩)
    (fun hlookup hnow _ => hkept.active hlookup hnow) hrecent

theorem issueTimes_snoc_issue (principal : LfsSessionPrincipal) {request : IssueRequest}
    {session : IssuedLfsSession} :
    issueTimes principal (events ++ [.issue request (.ok session)]) =
      issueTimes principal events ++
        if LfsSessionPrincipal.fromMetadata session.metadata = principal then
          [session.metadata.issuedAt] else [] := by
  unfold issueTimes
  rw [List.filterMap_append]
  split_ifs with h <;> simp [h]

/-- The issues of a window that is not over are recent. -/
theorem length_inWindow_le {start : ℤ} {window : Duration} {now : SystemTime}
    (hnow : inWindow start window now = true) (times : List SystemTime) :
    (times.filter (inWindow start window)).length ≤
      (times.filter (SessionStoreState.isRecent now window)).length := by
  have hfilter : times.filter (inWindow start window) =
      (times.filter (SessionStoreState.isRecent now window)).filter (inWindow start window) := by
    rw [List.filter_filter]
    apply List.filter_congr
    intro time _
    by_cases hin : inWindow start window time = true
    · simp [hin, isRecent_of_inWindow hnow hin]
    · simp [hin]
  rw [hfilter]
  exact List.length_filter_le _ _

/-- A granted issue stays within the limits. -/
theorem WithinLimits.grant (h : WithinLimits codec limits events clock state)
    {d : SessionDatabase} (hle : clock ≤ d.clock) {request : IssueRequest}
    {session : IssuedLfsSession} {expiresAt : SystemTime}
    (hgranted : Granted codec limits request state session state' d expiresAt) :
    WithinLimits codec limits (events ++ [.issue request (.ok session)]) d.clock state' := by
  have hkept := state.kept_pruned d.clock limits
  have hadmitted := enforceSessionAdmission_spec.1.mp hgranted.admitted
  obtain ⟨hmetadata, hnew, rfl⟩ := hgranted.issued
  set p := state.pruned d.clock limits with hp
  set record := request.record d.clock expiresAt with hrecord
  set key := LfsSessionTokenKey.fromToken codec session.token with hkey
  have hissuedAt : session.metadata.issuedAt = d.clock := by rw [hmetadata]; rfl
  have hpromise : (SessionEvent.issue request (.ok session)).Promises codec key record :=
    ⟨request, session, rfl, rfl, by rw [hmetadata]; rfl⟩
  have honly : ∀ {key' first}, (SessionEvent.issue request (.ok session)).Promises codec key' first →
      key' = key ∧ first = record := by
    rintro key' first ⟨_, _, heq, rfl, rfl⟩
    cases heq
    exact ⟨rfl, by rw [hmetadata]; rfl⟩
  have hrevokes : ∀ key', ¬(SessionEvent.issue request (.ok session)).Revokes codec key' := by
    rintro key' ⟨_, _, heq, _⟩
    cases heq
  have hinsert : (p.insertSession key record record.metadata.issuedAt).sessions =
      p.sessions.insert key record := rfl
  unfold LimitReached at hadmitted
  push Not at hadmitted
  obtain ⟨hprincipal, hrecent, hall⟩ := hadmitted
  constructor
  · rw [hinsert, Table.length_insert hnew]
    exact hall
  · intro principal
    have hcount := Table.count_insert_of_notMem
      (fun record => decide (LfsSessionPrincipal.fromMetadata record.metadata = principal))
      record hnew
    have hold : p.principalCount principal ≤ limits.maxSessionsPerPrincipal :=
      le_trans (Table.count_le_of_lookup hkept.sub) (h.principal principal)
    unfold SessionStoreState.principalCount at hold hprincipal ⊢
    rw [hinsert, hcount]
    by_cases hsame : LfsSessionPrincipal.fromMetadata record.metadata = principal
    · subst hsame
      simp only [decide_true, if_true]
      exact hprincipal
    · simpa [hsame] using hold
  · intro key' record' hlookup
    rcases Table.lookup_insert_eq_some.mp hlookup with ⟨rfl, rfl⟩ | ⟨_, hold⟩
    · exact since_snoc.mpr (.inl hpromise)
    · exact since_snoc.mpr (.inr ⟨h.issued (hkept.sub hold), hrevokes key'⟩)
  · intro key' record' hsince hnow
    rcases since_snoc.mp hsince with hfirst | ⟨hbefore, _⟩
    · obtain ⟨rfl, rfl⟩ := honly hfirst
      exact AList.lookup_insert _
    · have hold := hkept.active (h.active hbefore (lt_of_le_of_lt hle hnow)) hnow
      refine Table.lookup_insert_eq_some.mpr (.inr ⟨?_, hold⟩)
      rintro rfl
      rw [hnew] at hold
      cases hold
  · intro principal time htime
    rw [issueTimes_snoc_issue] at htime
    rcases List.mem_append.mp htime with hold | hnow
    · exact le_trans (h.past principal time hold) hle
    · split_ifs at hnow
      · rw [List.mem_singleton.mp hnow, hissuedAt]
      · cases hnow
  · intro principal
    rw [issueTimes_snoc_issue, SessionStoreState.recentFor_insertSession, hp,
      SessionStoreState.recentFor_pruned, List.filter_append, List.filter_append,
      filter_isRecent_filter le_rfl, h.recent_later hle, hmetadata]
  · intro principal start
    rw [issueTimes_snoc_issue, List.filter_append, List.length_append]
    have hold := h.window principal start
    by_cases hsame : LfsSessionPrincipal.fromMetadata session.metadata = principal
    · by_cases hin : inWindow start limits.issuanceWindow d.clock = true
      · have hle' := length_inWindow_le hin (issueTimes principal events)
        rw [h.recent_later hle, ← SessionStoreState.recentFor_pruned, ← hp] at hle'
        rw [← hmetadata, hsame] at hrecent
        simp only [hsame, if_true, hissuedAt, hin, List.filter_cons, List.filter_nil,
          List.length_singleton]
        omega
      · simpa [hsame, hissuedAt, hin] using hold
    · simpa [hsame] using hold

/-- The recent issues after a verification. -/
theorem recentFor_takeActiveSession (key : LfsSessionTokenKey) (now : SystemTime)
    (principal : LfsSessionPrincipal) :
    (state.takeActiveSession key now).2.recentFor principal = state.recentFor principal := by
  unfold SessionStoreState.takeActiveSession
  split
  · split_ifs <;> rfl
  · rfl

/-- A session is taken exactly when it is there and has not expired. -/
theorem takeActiveSession_eq_some {key : LfsSessionTokenKey} {now : SystemTime}
    {record : LfsSessionRecord} : (state.takeActiveSession key now).1 = some record ↔
      state.sessions.lookup key = some record ∧ now < record.metadata.expiresAt := by
  unfold SessionStoreState.takeActiveSession
  cases hlookup : state.sessions.lookup key with
  | none => simp
  | some found =>
    dsimp only
    split_ifs with hactive
    · simp only [Option.some.injEq]
      exact ⟨fun heq => ⟨heq, heq ▸ hactive⟩, fun heq => heq.1⟩
    · simp only [Option.some.injEq, false_iff, not_and]
      rintro rfl
      exact hactive

variable (codec limits) in
/-- Any relation will do where the rows do not matter. -/
theorem trivial_rule (durable : Option SessionTokenProtector) :
    RowsRule codec durable limits fun _ _ => True := by
  constructor <;> intros <;> trivial

/-- A state of a run: the store is there, within its limits. -/
def SessionWorld.Limited (codec : SessionCodec) (durable : Option SessionTokenProtector)
    (limits : SessionStoreLimits) (events : List SessionEvent) (s : SessionWorld) : Prop :=
  ∃ store, s.store = some store ∧ store.durable = durable ∧ store.limits = limits ∧
    WithinLimits codec limits events s.database.clock store.state

/-- What an issue does to a store within its limits. -/
theorem issue_spec {durable : Option SessionTokenProtector} {request : IssueRequest}
    {result : Except ServerError IssuedLfsSession} {d d' : SessionDatabase}
    (hret : ((issueSessionRecord codec durable limits request).from state).Returns
      (sessionOp True) d (result, state') d') :
    d.clock ≤ d'.clock ∧
      ((∃ session expiresAt, result = .ok session ∧
        Granted codec limits request state session state' d' expiresAt) ∨
      ∃ e, result = .error e ∧ Refused request limits state state' d' ∧
        Refusal codec durable limits request state d.generated d' e) := by
  obtain ⟨hok, herror, _⟩ :=
    issueSessionRecord_triple (trivial_rule codec limits durable) request state
    d.clock d.generated state d ⟨rfl, rfl, trivial, rfl⟩
  cases result with
  | ok session =>
    obtain ⟨hle, _, expiresAt, hgranted⟩ := hok session state' d' hret
    exact ⟨hle, .inl ⟨session, expiresAt, rfl, hgranted⟩⟩
  | error e =>
    obtain ⟨hle, _, hrefused, hrefusal⟩ := herror e state' d' hret
    exact ⟨hle, .inr ⟨e, rfl, hrefused, hrefusal⟩⟩

/-- A refused issue loses what has expired, and nothing of the window. -/
theorem Refused.kept {request : IssueRequest} {d : SessionDatabase}
    (h : Refused request limits state state' d) :
    Kept d.clock state.sessions state'.sessions ∧
      ∀ principal, (state'.recentFor principal).filter
        (SessionStoreState.isRecent d.clock limits.issuanceWindow) =
          (state.recentFor principal).filter
            (SessionStoreState.isRecent d.clock limits.issuanceWindow) := by
  rcases h with ⟨rfl, _⟩ | rfl
  · exact ⟨.refl _ _, fun _ => rfl⟩
  · refine ⟨state.kept_pruned _ _, fun principal => ?_⟩
    rw [SessionStoreState.recentFor_pruned, filter_isRecent_filter le_rfl]

/-- Every operation keeps the store within its limits. -/
theorem SessionWorld.Limited.step {durable : Option SessionTokenProtector} {secret : ByteArray}
    {s t : SessionWorld} (hs : s.Limited codec durable limits events)
    (hstep : SessionWorld.Step codec secret s e t) (hop : e.Operation) :
    t.Limited codec durable limits (events ++ [e]) := by
  obtain ⟨store, hstore, hdurable, hlimits, hwithin⟩ := hs
  cases hstep with
  | @issue d _ request result state d' hret =>
    obtain rfl := Option.some.inj hstore
    rw [hdurable, hlimits] at hret
    obtain ⟨hle, ⟨session, expiresAt, rfl, hgranted⟩ | ⟨e, rfl, hrefused, _⟩⟩ := issue_spec hret
    · exact ⟨_, rfl, hdurable, hlimits, hwithin.grant hle hgranted⟩
    · refine ⟨_, rfl, hdurable, hlimits, hwithin.keep hle ?_ ?_ hrefused.kept.1 hrefused.kept.2⟩
      · rintro key record ⟨_, _, heq, _⟩
        cases heq
      · rintro key ⟨_, _, heq, _⟩
        cases heq
  | @verify d _ token result state d' hret =>
    obtain rfl := Option.some.inj hstore
    obtain ⟨hok, _, _⟩ := verifyRecord_triple (trivial_rule codec limits durable) token _
      d.clock _ d ⟨rfl, rfl, trivial⟩
    obtain ⟨hle, _, htaken⟩ := hok result state d' hret
    obtain ⟨rfl, rfl⟩ := Prod.mk.inj htaken
    refine ⟨_, rfl, hdurable, hlimits, hwithin.keep hle ?_ ?_
      (SessionStoreState.kept_takeActiveSession _ _ _) fun principal => ?_⟩
    · rintro key record ⟨_, _, heq, _⟩
      cases heq
    · rintro key ⟨_, _, heq, _⟩
      cases heq
    · exact congrArg _ (recentFor_takeActiveSession _ _ _)
  | @revoke d _ token result state d' hret =>
    obtain rfl := Option.some.inj hstore
    rw [hdurable] at hret
    obtain ⟨hok, herror, _⟩ := revoke_triple (trivial_rule codec limits durable) token _
      d.clock _ d ⟨rfl, rfl, trivial⟩
    have hpromises : ∀ key record,
        ¬(SessionEvent.revoke token result).Promises codec key record := by
      rintro key record ⟨_, _, heq, _⟩
      cases heq
    cases result with
    | error e =>
      obtain ⟨hle, _, rfl⟩ := herror e state d' hret
      refine ⟨_, rfl, hdurable, hlimits, hwithin.keep hle hpromises ?_ (.refl _ _) fun _ => rfl⟩
      rintro key ⟨_, _, heq, _⟩
      cases heq
    | ok removed =>
      obtain ⟨hle, _, rfl, _⟩ := hok removed state d' hret
      refine ⟨_, rfl, hdurable, hlimits, hwithin.shrink hle hpromises ?_ ?_ fun _ => rfl⟩
      · intro key record hlookup
        obtain ⟨hne, hold⟩ := Table.lookup_erase_eq_some.mp hlookup
        refine ⟨hold, ?_⟩
        rintro ⟨_, _, heq, rfl⟩
        cases heq
        exact hne rfl
      · intro key record hlookup _ hnot
        refine Table.lookup_erase_eq_some.mpr ⟨?_, hlookup⟩
        rintro rfl
        exact hnot ⟨token, removed, rfl, rfl⟩
  | @count d _ result state d' hret =>
    obtain rfl := Option.some.inj hstore
    obtain ⟨hok, _, _⟩ := sessionCount_triple (trivial_rule codec limits durable) _ d.clock _ d
      ⟨rfl, rfl, trivial⟩
    obtain ⟨hle, _, rfl, _⟩ := hok result state d' hret
    refine ⟨_, rfl, hdurable, hlimits, hwithin.keep hle ?_ ?_
      (SessionStoreState.kept_pruneExpiredSessions _ _) fun _ => rfl⟩
    · rintro key record ⟨_, _, heq, _⟩
      cases heq
    · rintro key ⟨_, _, heq, _⟩
      cases heq
  | _ => exact hop.elim

/-- A new store is within its limits. -/
theorem withinLimits_new (clock : SystemTime) : WithinLimits codec limits [] clock ⟨∅, ∅⟩ := by
  constructor
  · exact Nat.zero_le _
  · intro principal
    exact Nat.zero_le _
  · intro key record hlookup
    cases hlookup
  · rintro key record ⟨before, e, after, hnil, _⟩
    simp at hnil
  · intro principal time htime
    cases htime
  · intro principal
    rfl
  · intro principal start
    exact Nat.zero_le _

/-- Along every run the store is within its limits. -/
theorem limited_of_run {durable : Option SessionTokenProtector} {secret : ByteArray}
    {start s : SessionWorld} (hstart : (storeSystem codec secret durable limits).init start)
    (hrun : (storeSystem codec secret durable limits).Run start events s) :
    s.Limited codec durable limits events := by
  apply hrun.history (P := fun events s => s.Limited codec durable limits events)
  · exact ⟨_, hstart, rfl, rfl, withinLimits_new _⟩
  · exact fun _ hs hstep => hs.step hstep.1 hstep.2

/-- One of the limits is reached for a principal: by the sessions that have not expired, or by
the issues of the last window. -/
def LimitReachedAt (limits : SessionStoreLimits) (events : List SessionEvent)
    (state : SessionStoreState) (principal : LfsSessionPrincipal) (now : SystemTime) : Prop :=
  limits.maxSessionsPerPrincipal ≤
      ((state.pruneExpiredSessions now).principalSessions principal).length ∨
    limits.maxIssuancesPerWindow ≤ ((issueTimes principal events).filter
      (SessionStoreState.isRecent now limits.issuanceWindow)).length ∨
      limits.maxSessions ≤ (state.pruneExpiredSessions now).sessions.entries.length

/-- Why an issue returned an error. -/
def RefusedFor (codec : SessionCodec) (durable : Option SessionTokenProtector)
    (limits : SessionStoreLimits) (events : List SessionEvent) (state : SessionStoreState)
    (request : IssueRequest) (generated : List LfsSessionToken) (d : SessionDatabase)
    (error : ServerError) : Prop :=
  (request.ttl.isZero ∨ d.clock.checkedAdd request.ttl = none) ∨
    (durable.isSome ∧ error.OfStorage) ∨
      LimitReachedAt limits events state
        (.fromMetadata (request.record d.clock d.clock).metadata) d.clock ∨
        Collided codec (state.pruned d.clock limits) generated
          maxLfsSessionTokenGenerationAttempts d

/-- The reason of a refusal, by the events so far. -/
theorem WithinLimits.refusedFor (h : WithinLimits codec limits events clock state)
    {durable : Option SessionTokenProtector} {request : IssueRequest}
    {generated : List LfsSessionToken} {d : SessionDatabase} {error : ServerError}
    (hle : clock ≤ d.clock)
    (hrefusal : Refusal codec durable limits request state generated d error) :
    RefusedFor codec durable limits events state request generated d error := by
  cases hrefusal with
  | request hrequest => exact .inl hrequest
  | durable hsome he => exact .inr (.inl ⟨hsome, he⟩)
  | collision hcollided => exact .inr (.inr (.inr hcollided))
  | limit principal hprincipal herror =>
    obtain rfl := hprincipal d.clock d.clock
    have hreached := enforceSessionAdmission_spec.2 error herror
    unfold LimitReached at hreached
    rw [SessionStoreState.recentFor_pruned, ← h.recent_later hle,
      ← SessionStoreState.length_principalSessions] at hreached
    exact .inr (.inr (.inl hreached))

end

end LfsCloud
