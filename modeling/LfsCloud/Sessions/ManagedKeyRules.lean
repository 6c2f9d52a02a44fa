import LfsCloud.Sessions.ManagedKey

/-!
# The managed key and the rows

The rows are always written under one key, and no other key is in the native key store. A key
is only stored while there are no rows, so each failure leaves a key that opens what is left.
-/

namespace LfsCloud

open Interaction Transition

section Rows

variable {codec : SessionCodec} {secret : ByteArray}

/-- The row was written under the key. -/
def WrittenRow (codec : SessionCodec) (secret : ByteArray) (row : MetadataSessionRecord) :
    Prop :=
  ∃ key record protectedToken, Protects codec (.new codec secret) key record protectedToken ∧
    storedSession codec key record protectedToken = .ok row

/-- Every row was written under the key. -/
def WrittenUnder (codec : SessionCodec) (secret : ByteArray) (d : SessionDatabase) : Prop :=
  ∀ hex row, d.rows.lookup hex = some row → WrittenRow codec secret row

/-- The row decrypts under the key: its columns can be read, and it has no provider token, or
its token is recovered. -/
def DecryptsRow (codec : SessionCodec) (secret : ByteArray) (row : MetadataSessionRecord) :
    Prop :=
  ∃ key scopes issuedAt expiresAt, LfsSessionTokenKey.fromHex row.tokenSha256 = .ok key ∧
    codec.scopesFromJson row.grantedScopesJson = some scopes ∧
    systemTimeFromUnixSeconds row.issuedAtUnixSeconds = .ok issuedAt ∧
    systemTimeFromUnixSeconds row.expiresAtUnixSeconds = .ok expiresAt ∧
    match row.providerAccessTokenCiphertext, row.providerAccessTokenNonce with
    | none, none => True
    | some ciphertext, some nonce => ∃ token, (SessionTokenProtector.new codec secret).decrypt
        codec key ⟨row.providerId, row.login, row.stableId, scopes, issuedAt, expiresAt⟩
          ciphertext nonce = .ok token
    | _, _ => False

theorem WrittenRow.decrypts (hlaw : codec.Lawful) {row : MetadataSessionRecord}
    (h : WrittenRow codec secret row) : DecryptsRow codec secret row := by
  obtain ⟨key, record, protectedToken, hprotects, hstored⟩ := h
  obtain ⟨text, hscopes, rfl⟩ := storedSession_spec hstored
  refine ⟨key, record.metadata.grantedScopes, _, _, LfsSessionTokenKey.fromHex_toHex key,
    hlaw.decode_encode hscopes, systemTimeFromUnixSeconds_eq _, systemTimeFromUnixSeconds_eq _, ?_⟩
  unfold Protects at hprotects
  cases htoken : record.githubPersonalAccessToken with
  | none =>
    rw [htoken] at hprotects
    subst hprotects
    trivial
  | some token =>
    rw [htoken] at hprotects
    obtain ⟨nonce, ⟨ciphertext, nonce'⟩, rfl, hencrypt⟩ := hprotects
    exact ⟨token, SessionTokenProtector.decrypt_encryptWith hlaw hencrypt⟩

/-- No rows were written under any key. -/
theorem writtenUnder_of_rows_empty {d : SessionDatabase} (h : d.rows = ∅) :
    WrittenUnder codec secret d := by
  intro hex row hrow
  rw [h] at hrow
  cases hrow

theorem WrittenUnder.deleteExpired {d : SessionDatabase} (h : WrittenUnder codec secret d)
    (now : ℤ) : WrittenUnder codec secret (d.deleteExpired now) :=
  fun hex row hrow => h hex row (Table.lookup_filter_eq_some.mp hrow).1

/-- The operations of a store under the key write their rows under it. -/
theorem written_rule : RowsRule codec (some (.new codec secret)) .production
    fun d _ => WrittenUnder codec secret d where
  tick h _ := h
  generate h := h
  keep h _ := h
  expire _ h := h.deleteExpired _
  record hprotector h _ _ _ hprotects hrow := by
    cases hprotector
    intro hex row' hrow'
    rcases Table.lookup_insert_eq_some.mp hrow' with ⟨rfl, rfl⟩ | ⟨_, hold⟩
    · exact ⟨_, _, _, hprotects, hrow⟩
    · exact h hex row' hold
  recordMemory hnone := by cases hnone
  delete _ h := fun hex row hrow => h hex row (Table.lookup_erase_eq_some.mp hrow).2
  deleteMemory hnone := by cases hnone

/-- Opening a store writes no rows. -/
theorem openDurable_written (opened : ByteArray) :
    Triple (sessionOp True) (WrittenUnder codec secret) (fun _ d => WrittenUnder codec secret d)
      (openDurable codec opened) (fun _ _ d => WrittenUnder codec secret d)
      fun _ _ d => WrittenUnder codec secret d := by
  unfold openDurable
  split
  next => exact .throw fun _ _ h => h
  next =>
    apply Triple.bind (Q := fun (_ : SystemTime) _ d => WrittenUnder codec secret d)
    · apply Triple.ask
      rintro m d now d' h ⟨_, rfl⟩
      exact ⟨h, h⟩
    intro now
    apply Triple.bind (Q := fun _ _ d => WrittenUnder codec secret d)
    · exact .liftResult (fun _ _ _ _ h => h) fun _ _ _ _ h => h
    intro seconds
    apply Triple.bind (Q := fun _ _ d => WrittenUnder codec secret d)
    · apply deleteExpiredSessions_triple
      · exact fun _ d h => ⟨h.deleteExpired _, h.deleteExpired _⟩
      · exact fun _ _ d h => ⟨h, h⟩
    intro _
    apply Triple.bind (Q := fun (_ : Except ServerError (List MetadataSessionRecord)) _ d =>
      WrittenUnder codec secret d)
    · apply Triple.ask
      rintro m d answer d' h ⟨rfl, _⟩
      exact ⟨h, h⟩
    intro answer
    apply Triple.bind (Q := fun _ _ d => WrittenUnder codec secret d)
    · exact .liftResult (fun _ _ _ _ h => h) fun _ _ _ _ h => h
    intro rows
    apply Triple.bind (Q := fun _ _ d => WrittenUnder codec secret d)
    · exact .liftResult (fun _ _ _ _ h => h) fun _ _ _ _ h => h
    intro sessions
    split_ifs
    · exact .throw fun _ _ h => h
    · exact .pure fun _ _ h => h

/-- Every step of a process under the key writes rows under it only. -/
theorem WrittenUnder.step {s t : SessionWorld} {e : SessionEvent}
    (h : WrittenUnder codec secret s.database)
    (hstore : ∀ store, s.store = some store → store.durable = some (.new codec secret) ∧
      store.limits = .production)
    (hstep : SessionWorld.Step codec secret s e t) : WrittenUnder codec secret t.database := by
  cases hstep with
  | @issue d store request result state d' hret =>
    obtain ⟨hdurable, hlimits⟩ := hstore store rfl
    rw [hdurable, hlimits] at hret
    obtain ⟨hok, herror, _⟩ := issueSessionRecord_triple written_rule request store.state
      d.clock d.generated store.state d ⟨rfl, rfl, h, rfl⟩
    cases result with
    | ok session => exact (hok session state d' hret).2.1
    | error e => exact (herror e state d' hret).2.1
  | @killIssue d store request d' hkill =>
    obtain ⟨hdurable, hlimits⟩ := hstore store rfl
    rw [hdurable, hlimits] at hkill
    obtain ⟨_, _, hcut⟩ := issueSessionRecord_triple written_rule request store.state
      d.clock d.generated store.state d ⟨rfl, rfl, h, rfl⟩
    rcases (hcut d' hkill).2 with ⟨_, hwritten, _⟩ | ⟨_, _, _, _, hwritten⟩
    · exact hwritten
    · exact hwritten
  | @revoke d store token result state d' hret =>
    obtain ⟨hdurable, _⟩ := hstore store rfl
    rw [hdurable] at hret
    obtain ⟨hok, herror, _⟩ := revoke_triple written_rule token store.state d.clock store.state d
      ⟨rfl, rfl, h⟩
    cases result with
    | ok removed => exact (hok removed state d' hret).2.1
    | error e => exact (herror e state d' hret).2.1
  | @killRevoke d store token d' hkill =>
    obtain ⟨hdurable, _⟩ := hstore store rfl
    rw [hdurable] at hkill
    obtain ⟨_, _, hcut⟩ := revoke_triple written_rule token store.state d.clock store.state d
      ⟨rfl, rfl, h⟩
    rcases (hcut d' hkill).2 with hwritten | hwritten
    · exact hwritten
    · exact hwritten
  | @verify d store token result state d' hret =>
    obtain ⟨hok, _, _⟩ := verifyRecord_triple written_rule token store.state d.clock store.state d
      ⟨rfl, rfl, h⟩
    exact (hok result state d' hret).2.1
  | @killVerify d store token d' hkill =>
    obtain ⟨_, _, hcut⟩ := verifyRecord_triple written_rule token store.state d.clock store.state
      d ⟨rfl, rfl, h⟩
    exact (hcut d' hkill).2
  | @count d store result state d' hret =>
    obtain ⟨hok, _, _⟩ := sessionCount_triple written_rule store.state d.clock store.state d
      ⟨rfl, rfl, h⟩
    exact (hok result state d' hret).2.1
  | @killCount d store d' hkill =>
    obtain ⟨_, _, hcut⟩ := sessionCount_triple written_rule store.state d.clock store.state d
      ⟨rfl, rfl, h⟩
    exact (hcut d' hkill).2
  | @reopen d store result d' hret =>
    obtain ⟨hok, herror, _⟩ := openDurable_written secret () d h
    cases result with
    | ok opened => exact hok opened () d' hret
    | error e => exact herror e () d' hret
  | @killReopen d store d' hkill =>
    obtain ⟨_, _, hcut⟩ := openDurable_written secret () d h
    exact hcut d' hkill
  | kill => exact h

end Rows

section Keys

variable {codec : SessionCodec} {lost : Bool} {fails : Prop}

/-- What holds of the key store and of the rows while no process runs. -/
def KeyIdle (codec : SessionCodec) (lost : Bool) (s : KeyState) : Prop :=
  ∃ secret events, secret.size = managedSessionKeyBytes ∧
    SessionWorld.Sound codec secret events ⟨s.database, none⟩ ∧
    WrittenUnder codec secret s.database ∧
    (∀ stored, s.storedKey = some stored → stored = secret) ∧
    (lost = false → s.storedKey = none → s.database.rows = ∅)

/-- An empty database has the sessions of any key. -/
theorem sound_of_rows_empty (secret : ByteArray) {d : SessionDatabase} (h : d.rows = ∅) :
    SessionWorld.Sound codec secret [] ⟨d, none⟩ := by
  refine ⟨∅, ⟨?_, ?_, Nat.zero_le _⟩, ⟨?_, ?_⟩, fun _ hstore => by cases hstore⟩
  · intro hex row hrow
    rw [show (SessionWorld.mk d none).database.rows = ∅ from h] at hrow
    cases hrow
  · intro key record hkey
    cases hkey
  · intro key record hkey
    cases hkey
  · rintro key first ⟨before, e, after, hnil, _⟩
    simp at hnil

/-- Time passes, and expired rows are deleted. -/
theorem SessionWorld.Sound.change {secret : ByteArray} {events : List SessionEvent}
    {d d' : SessionDatabase} (h : SessionWorld.Sound codec secret events ⟨d, none⟩)
    (hle : d.clock ≤ d'.clock)
    (hbacked : ∀ live, Backed codec (.new codec secret) d live →
      Backed codec (.new codec secret) d' live) :
    ∃ events', SessionWorld.Sound codec secret events' ⟨d', none⟩ := by
  obtain ⟨live, hlive, hremembers, _⟩ := h
  refine ⟨events ++ [.kill], live, hbacked live hlive, hremembers.other hle ?_ ?_,
    fun _ hstore => by cases hstore⟩
  · rintro key first ⟨_, _, heq, _⟩
    cases heq
  · rintro key ⟨_, _, heq, _⟩
    cases heq

theorem KeyIdle.tick {s : KeyState} (h : KeyIdle codec lost s) {now : SystemTime}
    (hle : s.database.clock ≤ now) : KeyIdle codec lost (s.withDatabase (s.database.tick now)) := by
  obtain ⟨secret, events, hsize, hsound, hwritten, hstored, hpresent⟩ := h
  obtain ⟨events', hsound'⟩ := hsound.change hle fun live hlive => hlive.tick hle
  exact ⟨secret, events', hsize, hsound', hwritten, hstored, hpresent⟩

/-- An empty database stays empty. -/
theorem deleteExpired_rows_empty {d : SessionDatabase} (h : d.rows = ∅) (now : ℤ) :
    (d.deleteExpired now).rows = ∅ := by
  have hrows : (d.deleteExpired now).rows =
      d.rows.filter fun _ row => decide (now < row.expiresAtUnixSeconds) := rfl
  rw [hrows, h]
  rfl

theorem KeyIdle.expire {s : KeyState} (h : KeyIdle codec lost s) :
    KeyIdle codec lost (s.withDatabase
      (s.database.deleteExpired (unixTimestampSeconds s.database.clock))) := by
  obtain ⟨secret, events, hsize, hsound, hwritten, hstored, hpresent⟩ := h
  have hchange : ∃ events', SessionWorld.Sound codec secret events'
      ⟨s.database.deleteExpired (unixTimestampSeconds s.database.clock), none⟩ :=
    hsound.change le_rfl fun live hlive => hlive.expire
  obtain ⟨events', hsound'⟩ := hchange
  refine ⟨secret, events', hsize, hsound', hwritten.deleteExpired _, hstored, ?_⟩
  intro hlost hnone
  exact deleteExpired_rows_empty (hpresent hlost hnone) _

/-- Without rows the key can be any. -/
theorem KeyIdle.of_rows_empty {s : KeyState} {secret : ByteArray}
    (hsize : secret.size = managedSessionKeyBytes) (hrows : s.database.rows = ∅)
    (hstored : ∀ stored, s.storedKey = some stored → stored = secret) :
    KeyIdle codec lost s :=
  ⟨secret, [], hsize, sound_of_rows_empty secret hrows, writtenUnder_of_rows_empty hrows, hstored,
    fun _ _ => hrows⟩

theorem KeyIdle.deleteAll {s : KeyState} (h : KeyIdle codec lost s) :
    KeyIdle codec lost (s.withDatabase s.database.deleteAll) := by
  obtain ⟨secret, _, hsize, _, _, hstored, _⟩ := h
  exact .of_rows_empty hsize rfl hstored

@[simp] theorem storedKey_store (s : KeyState) (secret : ByteArray) :
    (s.store s.instanceId secret).storedKey = some secret := AList.lookup_insert _

/-- A key is stored where there are no rows. -/
theorem KeyIdle.store {s : KeyState} {secret : ByteArray}
    (hsize : secret.size = managedSessionKeyBytes) (hrows : s.database.rows = ∅) :
    KeyIdle codec lost (s.store s.instanceId secret) := by
  have hafter : (s.store s.instanceId secret).database.rows = ∅ := hrows
  refine KeyIdle.of_rows_empty hsize hafter ?_
  intro stored hstored
  rw [storedKey_store] at hstored
  exact (Option.some.inj hstored).symm

/-- The keys are those at the start, or there are no rows. -/
def StoredSafely (start s : KeyState) : Prop :=
  s.instanceId = start.instanceId ∧ (s.keys = start.keys ∨ s.database.rows = ∅)

/-- What holds after every call of a function for the key. -/
def KeySafe (codec : SessionCodec) (lost : Bool) (start s : KeyState) : Prop :=
  KeyIdle codec lost s ∧ StoredSafely start s

/-- A call, by what its answers lead to. -/
theorem askKey_triple {α : Type} {c : KeyCall} {hc : KeyAnswer c = Except ServerError α}
    {C : KeyState → Prop} {P : Unit → KeyState → Prop} {Q : α → Unit → KeyState → Prop}
    {E : ServerError → Unit → KeyState → Prop}
    (h : ∀ m s answer s', P m s → keyOp fails s c answer s' → C s' ∧
      (∀ a, cast hc answer = .ok a → Q a m s') ∧
      ∀ e, cast hc answer = .error e → E e m s') :
    Triple (keyOp fails) C P (askKey c hc) Q E := by
  unfold askKey
  apply Triple.bind (Q := fun answer m s => (∀ a, cast hc answer = .ok a → Q a m s) ∧
    ∀ e, cast hc answer = .error e → E e m s)
  · exact .ask fun m s answer s' hm hop => h m s answer s' hm hop
  · intro answer
    exact .liftResult (fun a ha m s hm => hm.1 a ha) fun e he m s hm => hm.2 e he

/-- A generated key has the length of a managed key. -/
theorem keyBytes_size (key : Vector UInt8 managedSessionKeyBytes) :
    (keyBytes key).size = managedSessionKeyBytes := key.size_toArray

theorem generateManagedSessionKey_triple {C : KeyState → Prop} {P : KeyState → Prop}
    {E : ServerError → Unit → KeyState → Prop} (hC : ∀ s, P s → C s)
    (hE : fails → ∀ e s, P s → E e () s) :
    Triple (keyOp fails) C (fun _ s => P s) generateManagedSessionKey
      (fun secret _ s => secret.size = managedSessionKeyBytes ∧ P s) E := by
  unfold generateManagedSessionKey
  apply Triple.bind (Q := fun (answer : Option (Vector UInt8 managedSessionKeyBytes)) _ s =>
    P s ∧ (answer.isSome = true ∨ fails))
  · apply Triple.ask
    rintro m s answer s' hs ⟨rfl, hanswer⟩
    exact ⟨hC _ hs, hs, hanswer⟩
  · intro answer
    cases answer with
    | some key => exact .pure fun _ s hs => ⟨keyBytes_size key, hs.1⟩
    | none =>
      apply Triple.throw
      rintro _ s ⟨hs, hsome | hfails⟩
      · cases hsome
      · exact hE hfails _ s hs

/-- The end of both functions: a key is stored where there are no rows. -/
theorem storeKey_triple {start : KeyState} (keys : Table String ByteArray → Prop)
    {secret : ByteArray} (hsize : secret.size = managedSessionKeyBytes)
    {E : ServerError → Unit → KeyState → Prop}
    (hE : fails → ∀ e s, KeySafe codec lost start s → E e () s) :
    Triple (keyOp fails) (KeySafe codec lost start)
      (fun _ s => s.database.rows = ∅ ∧ keys s.keys ∧ KeySafe codec lost start s)
      (askKey (.storeKey start.instanceId secret) rfl)
      (fun _ _ s => KeySafe codec lost start s ∧ s.storedKey = some secret ∧
        s.database.rows = ∅ ∧ ∃ before, keys before ∧
          s.keys = before.insert start.instanceId secret) E := by
  apply askKey_triple
  rintro ⟨⟩ s answer s' ⟨hrows, hkeys, hsafe⟩ hop
  have hafter : KeySafe codec lost start (s.store start.instanceId secret) := by
    rw [← hsafe.2.1]
    exact ⟨.store hsize hrows, hsafe.2.1, .inr hrows⟩
  rcases hop with ⟨rfl, rfl⟩ | ⟨hfails, ⟨message, rfl⟩, rfl | rfl⟩
  · refine ⟨hafter, fun _ _ => ⟨hafter, ?_, hrows, s.keys, hkeys, rfl⟩, fun _ h => by cases h⟩
    rw [← hsafe.2.1]
    exact storedKey_store s secret
  · exact ⟨hsafe, fun _ h => (by cases h), fun e _ => hE hfails e _ hsafe⟩
  · exact ⟨hafter, fun _ h => (by cases h), fun e _ => hE hfails e _ hafter⟩

/-- Why no key is loaded: something failed, the clock is wrong, or the key of the rows is not
there. -/
def LoadRefused (fails : Prop) (s : KeyState) : Prop :=
  fails ∨ s.database.clock.nanos < 0 ∨ (s.storedKey = none ∧ s.database.rows ≠ ∅)

/-- A key is created where no rows are left. -/
theorem createManagedSessionKey_triple (start : KeyState) :
    Triple (keyOp fails) (KeySafe codec lost start)
      (fun _ s => KeySafe codec lost start s ∧ s.storedKey = none)
      (createManagedSessionKey start.instanceId)
      (fun secret _ s => KeySafe codec lost start s ∧ s.storedKey = some secret)
      fun _ _ s => KeySafe codec lost start s ∧ LoadRefused fails s := by
  unfold createManagedSessionKey
  apply Triple.bind (Q := fun (clock : SystemTime) _ s => s.database.clock = clock ∧
    KeySafe codec lost start s ∧ s.storedKey = none)
  · apply Triple.ask
    rintro m s now s' ⟨⟨hidle, hinstance, hkeys⟩, hnone⟩ ⟨hle, rfl⟩
    have hsafe : KeySafe codec lost start (s.withDatabase (s.database.tick now)) :=
      ⟨hidle.tick hle, hinstance, hkeys⟩
    exact ⟨hsafe, rfl, hsafe, hnone⟩
  intro clock
  apply Triple.bind (Q := fun seconds _ s => seconds = (unixTimestampSeconds clock : ℤ) ∧
    s.database.clock = clock ∧ KeySafe codec lost start s ∧ s.storedKey = none)
  · unfold managedKeyTimestamp
    split
    next hneg =>
      apply Triple.throw
      rintro m s ⟨rfl, hsafe, _⟩
      exact ⟨hsafe, .inr (.inl hneg)⟩
    next =>
      rw [if_pos (unixTimestampSeconds_lt clock)]
      exact .pure fun m s hs => ⟨rfl, hs⟩
  intro seconds
  apply Triple.of_fact
  rintro rfl
  apply Triple.bind (Q := fun _ _ s => KeySafe codec lost start s ∧ s.storedKey = none)
  · apply askKey_triple
    rintro m s answer s' ⟨rfl, ⟨hidle, hinstance, hkeys⟩, hnone⟩ hop
    rcases hop with ⟨rfl, rfl⟩ | ⟨hfails, rfl, rfl⟩
    · have hrows : s.keys = start.keys ∨ (s.database.deleteExpired
          (unixTimestampSeconds s.database.clock)).rows = ∅ := by
        rcases hkeys with hkeys | hempty
        · exact .inl hkeys
        · exact .inr (deleteExpired_rows_empty hempty _)
      have hsafe : KeySafe codec lost start (s.withDatabase
          (s.database.deleteExpired (unixTimestampSeconds s.database.clock))) :=
        ⟨hidle.expire, hinstance, hrows⟩
      exact ⟨hsafe, fun _ _ => ⟨hsafe, hnone⟩, fun _ h => by cases h⟩
    · have hsafe : KeySafe codec lost start s' := ⟨hidle, hinstance, hkeys⟩
      exact ⟨hsafe, fun _ h => (by cases h), fun _ _ => ⟨hsafe, .inl hfails⟩⟩
  intro _
  apply Triple.bind (Q := fun (count : ℕ) _ s => count = s.database.rows.entries.length ∧
    KeySafe codec lost start s ∧ s.storedKey = none)
  · apply askKey_triple
    rintro m s answer s' ⟨hsafe, hnone⟩ ⟨rfl, hanswer | ⟨hfails, hanswer⟩⟩
    · subst hanswer
      refine ⟨hsafe, ?_, fun _ h => by cases h⟩
      intro count hcount
      cases hcount
      exact ⟨rfl, hsafe, hnone⟩
    · subst hanswer
      exact ⟨hsafe, fun _ h => (by cases h), fun _ _ => ⟨hsafe, .inl hfails⟩⟩
  intro count
  split_ifs with hcount
  · apply Triple.throw
    rintro m s ⟨rfl, hsafe, hnone⟩
    refine ⟨hsafe, .inr (.inr ⟨hnone, ?_⟩)⟩
    intro hempty
    rw [hempty] at hcount
    exact absurd hcount (lt_irrefl 0)
  · have hrows : Triple (keyOp fails) (KeySafe codec lost start)
        (fun _ s => s.database.rows = ∅ ∧ True ∧ KeySafe codec lost start s)
        (generateManagedSessionKey >>= fun secret => do
          askKey (.storeKey start.instanceId secret) rfl
          pure secret : KeyProg ByteArray)
        (fun secret _ s => KeySafe codec lost start s ∧ s.storedKey = some secret)
        fun _ _ s => KeySafe codec lost start s ∧ LoadRefused fails s := by
      apply Triple.bind (generateManagedSessionKey_triple (fun s hs => hs.2.2)
        fun hfails _ s hs => ⟨hs.2.2, .inl hfails⟩)
      intro secret
      apply Triple.of_fact
      intro hsize
      apply Triple.bind (storeKey_triple (fun _ => True) hsize
        fun hfails _ s hs => ⟨hs, .inl hfails⟩)
      intro _
      exact .pure fun m s hs => ⟨hs.1, hs.2.1⟩
    apply hrows.of_imp
    rintro m s ⟨hlength, hsafe, _⟩
    refine ⟨?_, trivial, hsafe⟩
    apply AList.ext
    exact List.eq_nil_of_length_eq_zero (by omega)

variable (fails) in
/-- The key that is there is loaded, or one is created. -/
theorem loadOrCreateManagedSessionKey_triple (start : KeyState) :
    Triple (keyOp fails) (KeySafe codec lost start)
      (fun _ s => s = start ∧ KeyIdle codec lost start) loadOrCreateManagedSessionKey
      (fun secret _ s => KeySafe codec lost start s ∧ s.storedKey = some secret)
      fun _ _ s => KeySafe codec lost start s ∧ LoadRefused fails s := by
  have hsafe : KeyIdle codec lost start → KeySafe codec lost start start :=
    fun h => ⟨h, rfl, .inl rfl⟩
  unfold loadOrCreateManagedSessionKey
  apply Triple.bind (Q := fun (account : String) _ s => account = start.instanceId ∧ s = start ∧
    KeyIdle codec lost start)
  · apply askKey_triple
    rintro m s answer s' ⟨rfl, hidle⟩ ⟨rfl, hanswer | ⟨hfails, hanswer⟩⟩
    · subst hanswer
      refine ⟨hsafe hidle, ?_, fun _ h => by cases h⟩
      intro account haccount
      cases haccount
      exact ⟨rfl, rfl, hidle⟩
    · subst hanswer
      exact ⟨hsafe hidle, fun _ h => (by cases h), fun _ _ => ⟨hsafe hidle, .inl hfails⟩⟩
  intro account
  apply Triple.of_fact
  rintro rfl
  apply Triple.bind (Q := fun (loaded : Option ByteArray) _ s => loaded = start.storedKey ∧
    s = start ∧ KeyIdle codec lost start)
  · apply askKey_triple
    rintro m s answer s' ⟨rfl, hidle⟩ ⟨rfl, hanswer | ⟨hfails, message, hanswer⟩⟩
    · subst hanswer
      refine ⟨hsafe hidle, ?_, fun _ h => by cases h⟩
      intro loaded hloaded
      cases hloaded
      exact ⟨rfl, rfl, hidle⟩
    · subst hanswer
      exact ⟨hsafe hidle, fun _ h => (by cases h), fun _ _ => ⟨hsafe hidle, .inl hfails⟩⟩
  intro loaded
  apply Triple.of_fact
  intro hloaded
  cases loaded with
  | some secret =>
    dsimp only
    split
    next hbad =>
      apply Triple.throw
      rintro m s ⟨rfl, hidle⟩
      obtain ⟨key, _, hsize, _, _, hstored, _⟩ := hidle
      rw [hstored secret hloaded.symm] at hbad
      exact absurd hsize hbad
    next =>
      apply Triple.pure
      rintro m s ⟨rfl, hidle⟩
      exact ⟨hsafe hidle, hloaded.symm⟩
  | none =>
    apply (createManagedSessionKey_triple start).of_imp
    rintro m s ⟨rfl, hidle⟩
    exact ⟨hsafe hidle, hloaded.symm⟩

variable (fails) in
/-- A rotation deletes every session and then stores a new key. -/
theorem rotateManagedSessionKey_triple (start : KeyState) :
    Triple (keyOp fails) (KeySafe codec lost start)
      (fun _ s => s = start ∧ KeyIdle codec lost start) rotateManagedSessionKey
      (fun _ _ s => KeySafe codec lost start s ∧ s.database.rows = ∅ ∧
        ∃ secret, s.storedKey = some secret ∧ secret.size = managedSessionKeyBytes ∧
          s.keys = start.keys.insert start.instanceId secret)
      fun _ _ s => KeySafe codec lost start s ∧ fails := by
  have hsafe : KeyIdle codec lost start → KeySafe codec lost start start :=
    fun h => ⟨h, rfl, .inl rfl⟩
  unfold rotateManagedSessionKey
  apply Triple.bind (Q := fun (account : String) _ s => account = start.instanceId ∧ s = start ∧
    KeyIdle codec lost start)
  · apply askKey_triple
    rintro m s answer s' ⟨rfl, hidle⟩ ⟨rfl, hanswer | ⟨hfails, hanswer⟩⟩
    · subst hanswer
      refine ⟨hsafe hidle, ?_, fun _ h => by cases h⟩
      intro account haccount
      cases haccount
      exact ⟨rfl, rfl, hidle⟩
    · subst hanswer
      exact ⟨hsafe hidle, fun _ h => (by cases h), fun _ _ => ⟨hsafe hidle, hfails⟩⟩
  intro account
  apply Triple.of_fact
  rintro rfl
  apply Triple.bind (Q := fun (_ : ℕ) _ s => s.database.rows = ∅ ∧ s.keys = start.keys ∧
    KeySafe codec lost start s)
  · apply askKey_triple
    rintro m s answer s' ⟨rfl, hidle⟩ hop
    rcases hop with ⟨rfl, rfl⟩ | ⟨hfails, rfl, rfl⟩
    · have hsafe' : KeySafe codec lost s (s.withDatabase s.database.deleteAll) :=
        ⟨hidle.deleteAll, rfl, .inl rfl⟩
      exact ⟨hsafe', fun _ _ => ⟨rfl, rfl, hsafe'⟩, fun _ h => by cases h⟩
    · exact ⟨hsafe hidle, fun _ h => (by cases h), fun _ _ => ⟨hsafe hidle, hfails⟩⟩
  intro invalidated
  apply Triple.bind (generateManagedSessionKey_triple (fun s hs => hs.2.2)
    fun hfails _ s hs => ⟨hs.2.2, hfails⟩)
  intro secret
  apply Triple.of_fact
  intro hsize
  apply Triple.bind (storeKey_triple (· = start.keys) hsize fun hfails _ s hs => ⟨hs, hfails⟩)
  intro _
  apply Triple.pure
  rintro m s ⟨hs, hstored, hrows, _, rfl, hkeys⟩
  exact ⟨hs, hrows, secret, hstored, hsize, hkeys⟩

end Keys

end LfsCloud
