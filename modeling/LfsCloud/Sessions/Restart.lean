import LfsCloud.Sessions.Durable

/-!
# Sessions across restarts

Processes that open the store one after the other over the same rows, each of which may be
killed at any time. What a caller was told, by the results so far, is what the next process
restores.
-/

namespace LfsCloud

open Interaction Transition

/-- What happens to the store. -/
inductive SessionEvent
  | issue (request : IssueRequest) (result : Except ServerError IssuedLfsSession)
  | verify (token : LfsSessionToken) (result : Option LfsSessionRecord)
  | revoke (token : LfsSessionToken) (result : Except ServerError Bool)
  | count (result : ℕ)
  /-- A process opens the store. -/
  | reopen (result : Except ServerError Unit)
  /-- The process is killed during an issue. -/
  | killIssue (request : IssueRequest)
  | killRevoke (token : LfsSessionToken)
  /-- The process is killed at another time. -/
  | kill

/-- The database, and the store of the process if there is one. -/
structure SessionWorld where
  database : SessionDatabase
  store : Option LocalLfsSessionStore

/-- The store with another state. -/
def LocalLfsSessionStore.withState (store : LocalLfsSessionStore) (state : SessionStoreState) :
    LocalLfsSessionStore :=
  { store with state := state }

section

variable (codec : SessionCodec) (secret : ByteArray)

/-- One operation, or a process that is killed. -/
inductive SessionWorld.Step : SessionWorld → SessionEvent → SessionWorld → Prop
  | issue {d store request result state d'}
      (hret : ((issueSessionRecord codec store.durable store.limits request).from
        store.state).Returns (sessionOp True) d (result, state) d') :
      Step ⟨d, some store⟩ (.issue request result) ⟨d', some (store.withState state)⟩
  | verify {d store token result state d'}
      (hret : ((verifyRecord codec token).from store.state).Returns (sessionOp True) d
        (.ok result, state) d') :
      Step ⟨d, some store⟩ (.verify token result) ⟨d', some (store.withState state)⟩
  | revoke {d store token result state d'}
      (hret : ((revoke codec store.durable token).from store.state).Returns (sessionOp True) d
        (result, state) d') :
      Step ⟨d, some store⟩ (.revoke token result) ⟨d', some (store.withState state)⟩
  | count {d store result state d'}
      (hret : (sessionCount.from store.state).Returns (sessionOp True) d (.ok result, state) d') :
      Step ⟨d, some store⟩ (.count result) ⟨d', some (store.withState state)⟩
  | reopen {d store result d'}
      (hret : ((openDurable codec secret).from ()).Returns (sessionOp True) d (result, ()) d') :
      Step ⟨d, store⟩ (.reopen (result.map fun _ => ())) ⟨d', result.toOption⟩
  | killIssue {d store request d'}
      (hkill : ((issueSessionRecord codec store.durable store.limits request).from
        store.state).Killed (sessionOp True) d d') :
      Step ⟨d, some store⟩ (.killIssue request) ⟨d', none⟩
  | killRevoke {d store token d'}
      (hkill : ((LfsCloud.revoke codec store.durable token).from store.state).Killed
        (sessionOp True) d d') :
      Step ⟨d, some store⟩ (.killRevoke token) ⟨d', none⟩
  | killVerify {d store token d'}
      (hkill : ((verifyRecord codec token).from store.state).Killed (sessionOp True) d d') :
      Step ⟨d, some store⟩ .kill ⟨d', none⟩
  | killCount {d store d'}
      (hkill : (sessionCount.from store.state).Killed (sessionOp True) d d') :
      Step ⟨d, some store⟩ .kill ⟨d', none⟩
  | killReopen {d store d'}
      (hkill : ((openDurable codec secret).from ()).Killed (sessionOp True) d d') :
      Step ⟨d, store⟩ .kill ⟨d', none⟩
  | kill {d store} : Step ⟨d, store⟩ .kill ⟨d, none⟩

/-- The store over an empty database. -/
def sessionSystem : System SessionWorld SessionEvent where
  init s := s.store = none ∧ s.database.rows = ∅
  step := SessionWorld.Step codec secret

namespace SessionEvent

/-- The caller was told that the session was issued. -/
def Promises (key : LfsSessionTokenKey) (record : LfsSessionRecord) (e : SessionEvent) : Prop :=
  ∃ request session, e = .issue request (.ok session) ∧ key = .fromToken codec session.token ∧
    record = ⟨session.metadata, request.githubPersonalAccessToken⟩

/-- The session was issued, or may have been when the process was killed. -/
def MayIssue (key : LfsSessionTokenKey) (record : LfsSessionRecord) (e : SessionEvent) : Prop :=
  e.Promises codec key record ∨ ∃ request issuedAt expiresAt, e = .killIssue request ∧
    issuedAt.checkedAdd request.ttl = some expiresAt ∧ record = request.record issuedAt expiresAt

/-- The caller was told that the session is revoked. -/
def Revokes (key : LfsSessionTokenKey) (e : SessionEvent) : Prop :=
  ∃ token removed, e = .revoke token (.ok removed) ∧ key = .fromToken codec token

/-- The session was revoked, or may have been when the process was killed. -/
def MayRevoke (key : LfsSessionTokenKey) (e : SessionEvent) : Prop :=
  e.Revokes codec key ∨ ∃ token, e = .killRevoke token ∧ key = .fromToken codec token

end SessionEvent

end

variable {codec : SessionCodec} {secret : ByteArray}

/-- The sessions that are there agree with what callers were told. -/
structure Remembers (codec : SessionCodec) (events : List SessionEvent) (clock : SystemTime)
    (live : SessionTable) : Prop where
  issued : ∀ {key record}, live.lookup key = some record → ∃ first,
    Since (SessionEvent.MayIssue codec key first) (SessionEvent.Revokes codec key) events ∧
      record.truncate = first.truncate
  kept : ∀ {key first},
    Since (SessionEvent.Promises codec key first) (SessionEvent.MayRevoke codec key) events →
      unixTimestampSeconds clock < unixTimestampSeconds first.metadata.expiresAt →
        ∃ record, live.lookup key = some record ∧ record.truncate = first.truncate

/-- Sessions with the same row expire in the same second. -/
theorem seconds_eq_of_truncate_eq {record first : LfsSessionRecord}
    (h : record.truncate = first.truncate) : unixTimestampSeconds record.metadata.expiresAt =
      unixTimestampSeconds first.metadata.expiresAt := by
  have := congrArg (fun r => unixTimestampSeconds r.metadata.expiresAt) h
  simpa using this

/-- One more event, by what it does to the sessions. -/
theorem Remembers.step {events : List SessionEvent} {clock clock' : SystemTime}
    {live live' : SessionTable} {e : SessionEvent} (h : Remembers codec events clock live)
    (hclock : clock ≤ clock')
    (hissued : ∀ {key record'}, live'.lookup key = some record' →
      (∃ record, live.lookup key = some record ∧ record'.truncate = record.truncate ∧
        ¬e.Revokes codec key) ∨
          ∃ first, e.MayIssue codec key first ∧ record'.truncate = first.truncate)
    (hkept : ∀ {key record}, live.lookup key = some record →
      unixTimestampSeconds clock' < unixTimestampSeconds record.metadata.expiresAt →
        ¬e.MayRevoke codec key →
          ∃ record', live'.lookup key = some record' ∧ record'.truncate = record.truncate)
    (hnew : ∀ {key first}, e.Promises codec key first →
      ∃ record', live'.lookup key = some record' ∧ record'.truncate = first.truncate) :
    Remembers codec (events ++ [e]) clock' live' := by
  constructor
  · intro key record' hlookup
    rcases hissued hlookup with ⟨record, hrecord, heq, hnot⟩ | ⟨first, hfirst, heq⟩
    · obtain ⟨first, hsince, hfirst⟩ := h.issued hrecord
      exact ⟨first, since_snoc.mpr (.inr ⟨hsince, hnot⟩), heq.trans hfirst⟩
    · exact ⟨first, since_snoc.mpr (.inl hfirst), heq⟩
  · intro key first hsince hactive
    rcases since_snoc.mp hsince with hfirst | ⟨hbefore, hnot⟩
    · exact hnew hfirst
    · have hmono := unixTimestampSeconds_mono hclock
      obtain ⟨record, hrecord, heq⟩ := h.kept hbefore (by omega)
      rw [← seconds_eq_of_truncate_eq heq] at hactive
      obtain ⟨record', hrecord', heq'⟩ := hkept hrecord hactive hnot
      exact ⟨record', hrecord', heq'.trans heq⟩

/-- An event that issues and revokes nothing, and loses nothing but what has expired. -/
theorem Remembers.keep {events : List SessionEvent} {clock clock' : SystemTime}
    {live live' : SessionTable} {e : SessionEvent} (h : Remembers codec events clock live)
    (hclock : clock ≤ clock') (hkept : Kept clock' live live')
    (hpromises : ∀ key first, ¬e.Promises codec key first)
    (hrevokes : ∀ key, ¬e.Revokes codec key) :
    Remembers codec (events ++ [e]) clock' live' := by
  apply h.step hclock
  · intro key record hlookup
    exact .inl ⟨record, hkept.sub hlookup, rfl, hrevokes key⟩
  · intro key record hlookup hactive _
    exact ⟨record, hkept.active hlookup (lt_of_seconds_lt hactive), rfl⟩
  · intro key first hfirst
    exact absurd hfirst (hpromises key first)

/-- An event that issues one session. -/
theorem Remembers.issue {events : List SessionEvent} {clock clock' : SystemTime}
    {live pruned : SessionTable} {e : SessionEvent} {key : LfsSessionTokenKey}
    {record : LfsSessionRecord} (h : Remembers codec events clock live) (hclock : clock ≤ clock')
    (hkept : Kept clock' live pruned) (hnew : pruned.lookup key = none)
    (hmay : e.MayIssue codec key record)
    (hpromises : ∀ key' first, e.Promises codec key' first → key' = key ∧ first = record)
    (hrevokes : ∀ key, ¬e.Revokes codec key) :
    Remembers codec (events ++ [e]) clock' (pruned.insert key record) := by
  apply h.step hclock
  · intro key' record' hlookup
    rcases Table.lookup_insert_eq_some.mp hlookup with ⟨rfl, rfl⟩ | ⟨_, hold⟩
    · exact .inr ⟨record, hmay, rfl⟩
    · exact .inl ⟨record', hkept.sub hold, rfl, hrevokes key'⟩
  · intro key' record' hlookup hactive _
    have hold := hkept.active hlookup (lt_of_seconds_lt hactive)
    refine ⟨record', Table.lookup_insert_eq_some.mpr (.inr ⟨?_, hold⟩), rfl⟩
    rintro rfl
    rw [hnew] at hold
    cases hold
  · intro key' first hfirst
    obtain ⟨rfl, rfl⟩ := hpromises key' first hfirst
    exact ⟨first, AList.lookup_insert _, rfl⟩

/-- An event that may revoke one session, and removes it. -/
theorem Remembers.erase {events : List SessionEvent} {clock clock' : SystemTime}
    {live : SessionTable} {e : SessionEvent} {key : LfsSessionTokenKey}
    (h : Remembers codec events clock live) (hclock : clock ≤ clock')
    (hmay : e.MayRevoke codec key) (hrevokes : ∀ key', e.Revokes codec key' → key' = key)
    (hpromises : ∀ key first, ¬e.Promises codec key first) :
    Remembers codec (events ++ [e]) clock' (live.erase key) := by
  apply h.step hclock
  · intro key' record hlookup
    obtain ⟨hne, hold⟩ := Table.lookup_erase_eq_some.mp hlookup
    exact .inl ⟨record, hold, rfl, fun hrevoke => hne (hrevokes key' hrevoke)⟩
  · intro key' record hlookup _ hnot
    refine ⟨record, Table.lookup_erase_eq_some.mpr ⟨?_, hlookup⟩, rfl⟩
    rintro rfl
    exact hnot hmay
  · intro key' first hfirst
    exact absurd hfirst (hpromises key' first)

/-- What is restored agrees with what callers were told. -/
theorem Remembers.restored {events : List SessionEvent} {clock clock' : SystemTime}
    {live sessions : SessionTable} {e : SessionEvent} (h : Remembers codec events clock live)
    (hclock : clock ≤ clock') (hrestored : Restored live clock' sessions)
    (hpromises : ∀ key first, ¬e.Promises codec key first)
    (hrevokes : ∀ key, ¬e.Revokes codec key) :
    Remembers codec (events ++ [e]) clock' sessions := by
  apply h.step hclock
  · intro key restored hlookup
    obtain ⟨record, hlive, _, rfl⟩ := (hrestored key restored).mp hlookup
    exact .inl ⟨record, hlive, truncate_truncate record, hrevokes key⟩
  · intro key record hlookup hactive _
    exact ⟨record.truncate, (hrestored _ _).mpr ⟨record, hlookup, hactive, rfl⟩,
      truncate_truncate record⟩
  · intro key first hfirst
    exact absurd hfirst (hpromises key first)

/-- The rows back the sessions, and these are what callers were told; a process holds them in
memory. -/
def SessionWorld.Sound (codec : SessionCodec) (secret : ByteArray) (events : List SessionEvent)
    (s : SessionWorld) : Prop :=
  ∃ live, Backed codec (.new codec secret) s.database live ∧
    Remembers codec events s.database.clock live ∧
      ∀ store, s.store = some store → store.durable = some (.new codec secret) ∧
        store.limits = .production ∧ store.state.sessions = live

/-- Nothing of another event. -/
theorem Remembers.other {events : List SessionEvent} {clock clock' : SystemTime}
    {live : SessionTable} {e : SessionEvent} (h : Remembers codec events clock live)
    (hclock : clock ≤ clock') (hpromises : ∀ key first, ¬e.Promises codec key first)
    (hrevokes : ∀ key, ¬e.Revokes codec key) : Remembers codec (events ++ [e]) clock' live :=
  h.keep hclock (.refl _ _) hpromises hrevokes

section Step

variable {events : List SessionEvent} {d d' : SessionDatabase} {store : LocalLfsSessionStore}
  {state : SessionStoreState}

/-- An issue that returns keeps the promise that it makes. -/
theorem sound_issue (hlaw : codec.Lawful) {request : IssueRequest}
    {result : Except ServerError IssuedLfsSession}
    (hs : SessionWorld.Sound codec secret events ⟨d, some store⟩)
    (hret : ((issueSessionRecord codec store.durable store.limits request).from
      store.state).Returns (sessionOp True) d (result, state) d') :
    SessionWorld.Sound codec secret (events ++ [.issue request result])
      ⟨d', some (store.withState state)⟩ := by
  obtain ⟨live, hbacked, hremembers, hstore⟩ := hs
  obtain ⟨hdurable, hlimits, rfl⟩ := hstore store rfl
  rw [hdurable, hlimits] at hret
  obtain ⟨hok, herror, _⟩ := issueSessionRecord_triple (backed_rule hlaw) request store.state
    d.clock d.generated store.state d ⟨rfl, rfl, hbacked, rfl⟩
  have hrevokes : ∀ key, ¬(SessionEvent.issue request result).Revokes codec key := by
    rintro key ⟨token, removed, heq, _⟩
    cases heq
  cases result with
  | error e =>
    obtain ⟨hle, hbacked', hrefused, _⟩ := herror e state d' hret
    refine ⟨state.sessions, hbacked', hremembers.keep hle ?_ ?_ hrevokes, ?_⟩
    · rcases hrefused with ⟨rfl, _⟩ | rfl
      · exact .refl _ _
      · exact store.state.kept_pruned _ _
    · rintro key first ⟨_, _, heq, _⟩
      cases heq
    · intro store' hstore'
      obtain rfl := Option.some.inj hstore'
      exact ⟨hdurable, hlimits, rfl⟩
  | ok session =>
    obtain ⟨hle, hbacked', expiresAt, hgranted⟩ := hok session state d' hret
    obtain ⟨hmetadata, hnew, rfl⟩ := hgranted.issued
    have hpromise : (SessionEvent.issue request (.ok session)).Promises codec
        (.fromToken codec session.token) (request.record d'.clock expiresAt) :=
      ⟨request, session, rfl, rfl, by rw [hmetadata]; rfl⟩
    refine ⟨_, hbacked', hremembers.issue hle (store.state.kept_pruned _ _) hnew
      (.inl hpromise) ?_ hrevokes, ?_⟩
    · rintro key first ⟨_, _, heq, rfl, rfl⟩
      cases heq
      exact ⟨rfl, by rw [hmetadata]; rfl⟩
    · intro store' hstore'
      obtain rfl := Option.some.inj hstore'
      exact ⟨hdurable, hlimits, rfl⟩

/-- A killed issue leaves no session, or the one that it may have issued. -/
theorem sound_killIssue (hlaw : codec.Lawful) {request : IssueRequest}
    (hs : SessionWorld.Sound codec secret events ⟨d, some store⟩)
    (hkill : ((issueSessionRecord codec store.durable store.limits request).from
      store.state).Killed (sessionOp True) d d') :
    SessionWorld.Sound codec secret (events ++ [.killIssue request]) ⟨d', none⟩ := by
  obtain ⟨live, hbacked, hremembers, hstore⟩ := hs
  obtain ⟨hdurable, hlimits, rfl⟩ := hstore store rfl
  rw [hdurable, hlimits] at hkill
  obtain ⟨_, _, hcut⟩ := issueSessionRecord_triple (backed_rule hlaw) request store.state
    d.clock d.generated store.state d ⟨rfl, rfl, hbacked, rfl⟩
  have hrevokes : ∀ key, ¬(SessionEvent.killIssue request).Revokes codec key := by
    rintro key ⟨token, removed, heq, _⟩
    cases heq
  have hpromises : ∀ key first, ¬(SessionEvent.killIssue request).Promises codec key first := by
    rintro key first ⟨_, _, heq, _⟩
    cases heq
  obtain ⟨hle, ⟨live, hbacked', hkept⟩ | ⟨key, expiresAt, hadd, hnew, hbacked'⟩⟩ := hcut d' hkill
  · exact ⟨live, hbacked', hremembers.keep hle hkept hpromises hrevokes, nofun⟩
  · have hmay : (SessionEvent.killIssue request).MayIssue codec key
        (request.record d'.clock expiresAt) :=
      .inr ⟨request, _, _, rfl, hadd, rfl⟩
    exact ⟨_, hbacked', hremembers.issue hle (store.state.kept_pruned _ _) hnew hmay
      (fun key first hfirst => absurd hfirst (hpromises key first)) hrevokes, nofun⟩

/-- A revocation that returns removes its session, unless it fails. -/
theorem sound_revoke (hlaw : codec.Lawful) {token : LfsSessionToken}
    {result : Except ServerError Bool}
    (hs : SessionWorld.Sound codec secret events ⟨d, some store⟩)
    (hret : ((revoke codec store.durable token).from store.state).Returns (sessionOp True) d
      (result, state) d') :
    SessionWorld.Sound codec secret (events ++ [.revoke token result])
      ⟨d', some (store.withState state)⟩ := by
  obtain ⟨live, hbacked, hremembers, hstore⟩ := hs
  obtain ⟨hdurable, hlimits, rfl⟩ := hstore store rfl
  rw [hdurable] at hret
  obtain ⟨hok, herror, _⟩ := revoke_triple (backed_rule hlaw) token store.state d.clock
    store.state d ⟨rfl, rfl, hbacked⟩
  have hpromises : ∀ key first, ¬(SessionEvent.revoke token result).Promises codec key first := by
    rintro key first ⟨_, _, heq, _⟩
    cases heq
  cases result with
  | error e =>
    obtain ⟨hle, hbacked', rfl⟩ := herror e state d' hret
    refine ⟨_, hbacked', hremembers.other hle hpromises ?_, ?_⟩
    · rintro key ⟨_, _, heq, _⟩
      cases heq
    · intro store' hstore'
      obtain rfl := Option.some.inj hstore'
      exact ⟨hdurable, hlimits, rfl⟩
  | ok removed =>
    obtain ⟨hle, hbacked', rfl, _⟩ := hok removed state d' hret
    refine ⟨_, hbacked', hremembers.erase hle (.inl ⟨token, removed, rfl, rfl⟩) ?_ hpromises, ?_⟩
    · rintro key ⟨_, _, heq, rfl⟩
      cases heq
      rfl
    · intro store' hstore'
      obtain rfl := Option.some.inj hstore'
      exact ⟨hdurable, hlimits, rfl⟩

/-- A killed revocation leaves the session or not. -/
theorem sound_killRevoke (hlaw : codec.Lawful) {token : LfsSessionToken}
    (hs : SessionWorld.Sound codec secret events ⟨d, some store⟩)
    (hkill : ((revoke codec store.durable token).from store.state).Killed (sessionOp True) d d') :
    SessionWorld.Sound codec secret (events ++ [.killRevoke token]) ⟨d', none⟩ := by
  obtain ⟨live, hbacked, hremembers, hstore⟩ := hs
  obtain ⟨hdurable, _, rfl⟩ := hstore store rfl
  rw [hdurable] at hkill
  obtain ⟨_, _, hcut⟩ := revoke_triple (backed_rule hlaw) token store.state d.clock
    store.state d ⟨rfl, rfl, hbacked⟩
  have hpromises : ∀ key first, ¬(SessionEvent.killRevoke token).Promises codec key first := by
    rintro key first ⟨_, _, heq, _⟩
    cases heq
  have hrevokes : ∀ key, ¬(SessionEvent.killRevoke token).Revokes codec key := by
    rintro key ⟨_, _, heq, _⟩
    cases heq
  obtain ⟨hle, hbacked' | hbacked'⟩ := hcut d' hkill
  · exact ⟨_, hbacked', hremembers.other hle hpromises hrevokes, nofun⟩
  · exact ⟨_, hbacked', hremembers.erase hle (.inr ⟨token, rfl, rfl⟩)
      (fun key' hrevoke => absurd hrevoke (hrevokes key')) hpromises, nofun⟩

/-- A kill at another time loses the memory only. -/
theorem sound_kill (hbacked : Backed codec (.new codec secret) d' store.state.sessions)
    (hle : d.clock ≤ d'.clock) (hremembers : Remembers codec events d.clock store.state.sessions) :
    SessionWorld.Sound codec secret (events ++ [.kill]) ⟨d', none⟩ := by
  refine ⟨_, hbacked, hremembers.other hle ?_ ?_, nofun⟩
  · rintro key first ⟨_, _, heq, _⟩
    cases heq
  · rintro key ⟨_, _, heq, _⟩
    cases heq

end Step

/-- Every step keeps the invariant. -/
theorem SessionWorld.Sound.step (hlaw : codec.Lawful) (hsecret : secret.size ≠ 0)
    {events : List SessionEvent} {s t : SessionWorld} {e : SessionEvent}
    (hs : s.Sound codec secret events) (hstep : SessionWorld.Step codec secret s e t) :
    t.Sound codec secret (events ++ [e]) := by
  cases hstep with
  | issue hret => exact sound_issue hlaw hs hret
  | killIssue hkill => exact sound_killIssue hlaw hs hkill
  | revoke hret => exact sound_revoke hlaw hs hret
  | killRevoke hkill => exact sound_killRevoke hlaw hs hkill
  | @verify d store token result state d' hret =>
    obtain ⟨live, hbacked, hremembers, hstore⟩ := hs
    obtain ⟨hdurable, hlimits, rfl⟩ := hstore store rfl
    obtain ⟨hok, _, _⟩ := verifyRecord_triple (backed_rule hlaw) token store.state d.clock
      store.state d ⟨rfl, rfl, hbacked⟩
    obtain ⟨hle, hbacked', htaken⟩ := hok result state d' hret
    obtain ⟨rfl, rfl⟩ := Prod.mk.inj htaken
    refine ⟨_, hbacked', hremembers.keep hle (store.state.kept_takeActiveSession _ _) ?_ ?_, ?_⟩
    · rintro key first ⟨_, _, heq, _⟩
      cases heq
    · rintro key ⟨_, _, heq, _⟩
      cases heq
    · intro store' hstore'
      obtain rfl := Option.some.inj hstore'
      exact ⟨hdurable, hlimits, rfl⟩
  | @count d store result state d' hret =>
    obtain ⟨live, hbacked, hremembers, hstore⟩ := hs
    obtain ⟨hdurable, hlimits, rfl⟩ := hstore store rfl
    obtain ⟨hok, _, _⟩ := sessionCount_triple (backed_rule hlaw) store.state d.clock
      store.state d ⟨rfl, rfl, hbacked⟩
    obtain ⟨hle, hbacked', rfl, _⟩ := hok result state d' hret
    refine ⟨_, hbacked', hremembers.keep hle (store.state.kept_pruneExpiredSessions _) ?_ ?_, ?_⟩
    · rintro key first ⟨_, _, heq, _⟩
      cases heq
    · rintro key ⟨_, _, heq, _⟩
      cases heq
    · intro store' hstore'
      obtain rfl := Option.some.inj hstore'
      exact ⟨hdurable, hlimits, rfl⟩
  | @killVerify d store token d' hkill =>
    obtain ⟨live, hbacked, hremembers, hstore⟩ := hs
    obtain ⟨_, _, rfl⟩ := hstore store rfl
    obtain ⟨_, _, hcut⟩ := verifyRecord_triple (backed_rule hlaw) token store.state d.clock
      store.state d ⟨rfl, rfl, hbacked⟩
    exact sound_kill (hcut d' hkill).2 (hcut d' hkill).1 hremembers
  | @killCount d store d' hkill =>
    obtain ⟨live, hbacked, hremembers, hstore⟩ := hs
    obtain ⟨_, _, rfl⟩ := hstore store rfl
    obtain ⟨_, _, hcut⟩ := sessionCount_triple (backed_rule hlaw) store.state d.clock
      store.state d ⟨rfl, rfl, hbacked⟩
    exact sound_kill (hcut d' hkill).2 (hcut d' hkill).1 hremembers
  | @reopen d store result d' hret =>
    obtain ⟨live, hbacked, hremembers, _⟩ := hs
    obtain ⟨hok, herror, _⟩ := openDurable_triple hsecret live d.clock () d ⟨rfl, hbacked⟩
    have hpromises : ∀ key first,
        ¬(SessionEvent.reopen (result.map fun _ => ())).Promises codec key first := by
      rintro key first ⟨_, _, heq, _⟩
      cases heq
    have hrevokes : ∀ key,
        ¬(SessionEvent.reopen (result.map fun _ => ())).Revokes codec key := by
      rintro key ⟨_, _, heq, _⟩
      cases heq
    cases result with
    | error e =>
      obtain ⟨_, hle, hbacked'⟩ := herror e () d' hret
      exact ⟨live, hbacked', hremembers.other hle hpromises hrevokes, nofun⟩
    | ok opened =>
      obtain ⟨hle, hrestored, hbacked', hdurable, hlimits⟩ := hok opened () d' hret
      refine ⟨_, hbacked', hremembers.restored hle hrestored hpromises hrevokes, ?_⟩
      intro store' hstore'
      obtain rfl := Option.some.inj hstore'
      exact ⟨hdurable, hlimits, rfl⟩
  | @killReopen d store d' hkill =>
    obtain ⟨live, hbacked, hremembers, _⟩ := hs
    obtain ⟨_, _, hcut⟩ := openDurable_triple hsecret live d.clock () d ⟨rfl, hbacked⟩
    refine ⟨live, (hcut d' hkill).2, hremembers.other (hcut d' hkill).1 ?_ ?_, nofun⟩
    · rintro key first ⟨_, _, heq, _⟩
      cases heq
    · rintro key ⟨_, _, heq, _⟩
      cases heq
  | @kill d store =>
    obtain ⟨live, hbacked, hremembers, _⟩ := hs
    refine ⟨live, hbacked, hremembers.other le_rfl ?_ ?_, nofun⟩
    · rintro key first ⟨_, _, heq, _⟩
      cases heq
    · rintro key ⟨_, _, heq, _⟩
      cases heq

/-- The invariant holds along every run. -/
theorem sound_of_run (hlaw : codec.Lawful) (hsecret : secret.size ≠ 0) {start s : SessionWorld}
    (hstart : (sessionSystem codec secret).init start) {events : List SessionEvent}
    (hrun : (sessionSystem codec secret).Run start events s) : s.Sound codec secret events := by
  apply hrun.history (P := fun events s => s.Sound codec secret events)
  · obtain ⟨hstore, hrows⟩ := hstart
    refine ⟨∅, ⟨?_, nofun, Nat.zero_le _⟩, ⟨nofun, ?_⟩, ?_⟩
    · intro hex row hrow
      rw [hrows] at hrow
      cases hrow
    · rintro key first ⟨before, e, after, hnil, _⟩
      simp at hnil
    · intro store h
      rw [hstore] at h
      cases h
  · exact fun _ hs hstep => hs.step hlaw hsecret hstep

/-- The result of an operation that failed. -/
def SessionEvent.Failed (e : SessionEvent) : Prop :=
  (∃ request error, e = .issue request (.error error)) ∨
    ∃ token error, e = .revoke token (.error error)

/-- The store opens whenever the database works; it restores the sessions that callers were
promised and that have not expired by the second, with all that belongs to them, and no
others; and an operation that fails loses nothing from memory but what has expired. -/
theorem durable_sessions (hlaw : codec.Lawful) (hsecret : secret.size ≠ 0)
    {start s : SessionWorld} (hstart : (sessionSystem codec secret).init start)
    {events : List SessionEvent} (hrun : (sessionSystem codec secret).Run start events s) :
    (∀ result d', ((openDurable codec secret).from ()).Returns (sessionOp False) s.database
      (result, ()) d' → ∃ store, result = .ok store) ∧
    (∀ store d', ((openDurable codec secret).from ()).Returns (sessionOp True) s.database
      (.ok store, ()) d' →
        (∀ key record,
          Since (SessionEvent.Promises codec key record) (SessionEvent.MayRevoke codec key) events →
            unixTimestampSeconds d'.clock < unixTimestampSeconds record.metadata.expiresAt →
              store.state.sessions.lookup key = some record.truncate) ∧
        ∀ key restored, store.state.sessions.lookup key = some restored → ∃ record,
          Since (SessionEvent.MayIssue codec key record) (SessionEvent.Revokes codec key) events ∧
            restored = record.truncate ∧
              restored.metadata.expiresAt ≤ record.metadata.expiresAt ∧
                d'.clock < restored.metadata.expiresAt) ∧
    ∀ e t, SessionWorld.Step codec secret s e t → e.Failed → ∀ store store',
      s.store = some store → t.store = some store' →
        Kept t.database.clock store.state.sessions store'.state.sessions := by
  obtain ⟨live, hbacked, hremembers, hstore⟩ := sound_of_run hlaw hsecret hstart hrun
  refine ⟨fun result d' hret => ?_, fun store d' hret => ⟨?_, ?_⟩, ?_⟩
  · obtain ⟨_, herror, _⟩ := openDurable_triple hsecret live s.database.clock () s.database
      ⟨rfl, hbacked⟩
    cases result with
    | ok store => exact ⟨store, rfl⟩
    | error e => exact (herror e () d' hret).1.elim
  · obtain ⟨hok, _, _⟩ := openDurable_triple hsecret live s.database.clock () s.database
      ⟨rfl, hbacked⟩
    obtain ⟨hle, hrestored, _⟩ := hok store () d' hret
    intro key record hpromised hactive
    have hmono := unixTimestampSeconds_mono hle
    obtain ⟨record', hlive, heq⟩ := hremembers.kept hpromised (by omega)
    rw [← seconds_eq_of_truncate_eq heq] at hactive
    exact (hrestored _ _).mpr ⟨record', hlive, hactive, heq.symm⟩
  · obtain ⟨hok, _, _⟩ := openDurable_triple hsecret live s.database.clock () s.database
      ⟨rfl, hbacked⟩
    obtain ⟨_, hrestored, _⟩ := hok store () d' hret
    intro key restored hlookup
    obtain ⟨record', hlive, hactive, rfl⟩ := (hrestored _ _).mp hlookup
    obtain ⟨record, hissued, heq⟩ := hremembers.issued hlive
    rw [seconds_eq_of_truncate_eq heq] at hactive
    refine ⟨record, hissued, heq, ?_, ?_⟩
    · rw [heq]
      exact truncate_le (by omega)
    · rw [heq]
      exact lt_truncate_of_seconds_lt hactive
  · intro e t hstep hfailed store store' hs ht
    obtain ⟨hdurable, hlimits, rfl⟩ := hstore store hs
    rcases hfailed with ⟨request, error, rfl⟩ | ⟨token, error, rfl⟩
    · cases hstep with
      | @issue d _ _ _ state d' hret =>
        obtain rfl := Option.some.inj hs
        obtain rfl := Option.some.inj ht
        rw [hdurable, hlimits] at hret
        obtain ⟨_, herror, _⟩ := issueSessionRecord_triple (backed_rule hlaw) request _ _ _ _ d
          ⟨rfl, rfl, hbacked, rfl⟩
        obtain ⟨_, _, hrefused, _⟩ := herror error state d' hret
        rcases hrefused with ⟨rfl, _⟩ | rfl
        · exact .refl _ _
        · exact SessionStoreState.kept_pruned _ _ _
    · cases hstep with
      | @revoke d _ _ _ state d' hret =>
        obtain rfl := Option.some.inj hs
        obtain rfl := Option.some.inj ht
        rw [hdurable] at hret
        obtain ⟨_, herror, _⟩ := revoke_triple (backed_rule hlaw) token _ _ _ d
          ⟨rfl, rfl, hbacked⟩
        obtain ⟨_, _, rfl⟩ := herror error state d' hret
        exact .refl _ _

/-- A run of a program of the store, one call at a time. -/
theorem exists_returns_call {α : Type} {fails : Prop} (c : SessionCall)
    {next : SessionAnswer c → Prog sessionInterface α} {d d' : SessionDatabase}
    {P : α → SessionDatabase → Prop} (answer : SessionAnswer c)
    (hop : sessionOp fails d c answer d')
    (hrest : ∃ a u, (next answer).Returns (sessionOp fails) d' a u ∧ P a u) :
    ∃ a u, (Prog.call (F := sessionInterface) c next).Returns (sessionOp fails) d a u ∧ P a u := by
  obtain ⟨a, u, hret, hP⟩ := hrest
  exact ⟨a, u, .call answer hop hret, hP⟩

/-- The functions of other packages, for one token, one secret and no scopes. -/
def sampleCodec : SessionCodec where
  sha256 bytes := .ofFn fun index => List.getD
    (if bytes.size = 9 then
      [109, 27, 89, 126, 162, 232, 83, 36, 133, 151, 98, 47, 29, 162, 22, 34, 57, 196, 45, 239,
        215, 243, 72, 9, 88, 117, 16, 56, 90, 186, 1, 7]
    else
      [226, 231, 136, 36, 207, 125, 204, 108, 133, 169, 254, 147, 129, 147, 32, 241, 2, 28, 180,
        94, 68, 158, 103, 180, 78, 135, 166, 25, 161, 16, 38, 171]) index 0
  sealInPlaceAppendTag _ _ _ _ := none
  openInPlace _ _ _ _ := none
  scopesToJson scopes := if scopes.isEmpty then some "[]" else none
  scopesFromJson text := if text = "[]" then some [] else none
  associatedDataToJson _ := none

/-- A session without a provider token seals nothing. -/
theorem sampleCodec_lawful : sampleCodec.Lawful where
  open_seal h := nomatch h
  decode_encode {scopes text} h := by
    simp only [sampleCodec] at h ⊢
    split_ifs at h with hscopes
    cases h
    simpa using hscopes.symm

/-- The encryption secret of a server. -/
def sampleSecret : ByteArray := "server secret".toByteArray

/-- A session of a minute. -/
def sampleRequest : IssueRequest := ⟨⟨"github-main", "alice", none⟩, [], .fromSecs 60, none⟩

/-- The process opens its store, issues a session, and is killed. -/
theorem sample_run : ∃ session s, (sessionSystem sampleCodec sampleSecret).Run
    ⟨⟨unixEpoch, ∅, []⟩, none⟩
    [.reopen (.ok ()), .issue sampleRequest (.ok session), .kill] s ∧
      session.token = ⟨"lfs-token"⟩ := by
  have hopen : ∃ result d', ((openDurable sampleCodec sampleSecret).from ()).Returns
      (sessionOp True) ⟨unixEpoch, ∅, []⟩ result d' ∧
        result = (.ok ⟨⟨∅, ∅⟩, some (.new sampleCodec sampleSecret), .production⟩, ()) ∧
          d' = ⟨unixEpoch, ∅, []⟩ := by
    refine exists_returns_call .clock unixEpoch ⟨le_rfl, rfl⟩ ?_
    refine exists_returns_call (.deleteExpiredSessions 0) (.ok ()) (.inl ⟨rfl, rfl⟩) ?_
    refine exists_returns_call (.loadActiveSessions 0) (.ok []) ⟨rfl, .inl ⟨[], rfl, .nil⟩⟩ ?_
    exact ⟨_, _, .done, rfl, rfl⟩
  have hissue : ∃ result d', ((issueSessionRecord sampleCodec
      (some (.new sampleCodec sampleSecret)) .production sampleRequest).from ⟨∅, ∅⟩).Returns
        (sessionOp True) ⟨unixEpoch, ∅, []⟩ result d' ∧
          ∃ session m, result = (.ok session, m) ∧ session.token = ⟨"lfs-token"⟩ := by
    refine exists_returns_call .clock unixEpoch ⟨le_rfl, rfl⟩ ?_
    refine exists_returns_call (.deleteExpiredSessions 0) (.ok ()) (.inl ⟨rfl, rfl⟩) ?_
    refine exists_returns_call .generateToken ⟨"lfs-token"⟩ rfl ?_
    refine exists_returns_call (.recordSession _) (.ok ()) (.inl ⟨rfl, rfl⟩) ?_
    exact ⟨_, _, .done, _, _, rfl, rfl⟩
  obtain ⟨_, _, hopen, rfl, rfl⟩ := hopen
  obtain ⟨_, d', hissue, session, m, rfl, htoken⟩ := hissue
  exact ⟨session, _, .cons (.reopen hopen) (.cons (.issue hissue) (.cons .kill (.nil _))), htoken⟩

/-- The session is there when the next process opens the store within the minute. -/
theorem durable_sessions_killed : ∃ session s, (sessionSystem sampleCodec sampleSecret).Run
    ⟨⟨unixEpoch, ∅, []⟩, none⟩
    [.reopen (.ok ()), .issue sampleRequest (.ok session), .kill] s ∧
      ∀ store d', ((openDurable sampleCodec sampleSecret).from ()).Returns (sessionOp True)
        s.database (.ok store, ()) d' →
          unixTimestampSeconds d'.clock < unixTimestampSeconds session.metadata.expiresAt →
            store.state.sessions.lookup (.fromToken sampleCodec ⟨"lfs-token"⟩) =
              some (LfsSessionRecord.truncate ⟨session.metadata, none⟩) := by
  obtain ⟨session, s, hrun, htoken⟩ := sample_run
  refine ⟨session, s, hrun, fun store d' hret hactive => ?_⟩
  obtain ⟨_, hopened, _⟩ := durable_sessions sampleCodec_lawful (by decide) ⟨rfl, rfl⟩ hrun
  refine (hopened store d' hret).1 _ ⟨session.metadata, none⟩ ?_ hactive
  refine ⟨[.reopen (.ok ())], _, [.kill], rfl, ⟨sampleRequest, session, rfl, ?_, rfl⟩, ?_⟩
  · rw [htoken]
  · rintro j hj (⟨_, _, heq, _⟩ | ⟨_, heq, _⟩)
    · rw [List.mem_singleton.mp hj] at heq
      cases heq
    · rw [List.mem_singleton.mp hj] at heq
      cases heq

end LfsCloud
