import LfsCloud.Sessions.StoreRules

/-!
# Durable sessions

A process opens its store from the rows, and may be killed at any time. The rows that have
not expired are those of the sessions in memory that last into another second, and each of
them restores its session with its times as whole seconds.
-/

namespace LfsCloud

open Interaction Transition

/-- The relation between the rows and the sessions of a process. -/
structure Backed (codec : SessionCodec) (protector : SessionTokenProtector)
    (d : SessionDatabase) (live : SessionTable) : Prop where
  restores : ∀ {hex row}, d.rows.lookup hex = some row →
    (unixTimestampSeconds d.clock : ℤ) < row.expiresAtUnixSeconds →
      ∃ key record, hex = key.toHex ∧ live.lookup key = some record ∧
        row.expiresAtUnixSeconds = unixTimestampSeconds record.metadata.expiresAt ∧
          restoreSession codec protector row = .ok (key, record.truncate)
  stored : ∀ {key record}, live.lookup key = some record →
    unixTimestampSeconds d.clock < unixTimestampSeconds record.metadata.expiresAt →
      ∃ row, d.rows.lookup key.toHex = some row ∧
        row.expiresAtUnixSeconds = unixTimestampSeconds record.metadata.expiresAt
  few : live.entries.length ≤ maxLocalLfsSessions

theorem lt_of_seconds_lt {t u : SystemTime}
    (h : unixTimestampSeconds t < unixTimestampSeconds u) : t < u := by
  by_contra hle
  have := unixTimestampSeconds_mono (not_lt.mp hle)
  omega

/-- What a row says of the expiry of its session. -/
theorem expiresAtUnixSeconds_storedSession {codec : SessionCodec} {key : LfsSessionTokenKey}
    {record : LfsSessionRecord} {protectedToken : Option (ByteArray × Vector UInt8 12)}
    {row : MetadataSessionRecord} (h : storedSession codec key record protectedToken = .ok row) :
    row.tokenSha256 = key.toHex ∧
      row.expiresAtUnixSeconds = unixTimestampSeconds record.metadata.expiresAt := by
  obtain ⟨text, _, rfl⟩ := storedSession_spec h
  exact ⟨rfl, rfl⟩

section

variable {codec : SessionCodec} {protector : SessionTokenProtector} {d : SessionDatabase}
  {live live' : SessionTable}

theorem Backed.tick (h : Backed codec protector d live) {now : SystemTime} (hle : d.clock ≤ now) :
    Backed codec protector (d.tick now) live := by
  have hmono := unixTimestampSeconds_mono hle
  constructor
  · intro hex row hrow hactive
    apply h.restores hrow
    have hactive' : (unixTimestampSeconds now : ℤ) < row.expiresAtUnixSeconds := hactive
    omega
  · intro key record hkey hactive
    apply h.stored hkey
    have hactive' : unixTimestampSeconds now < _ := hactive
    omega
  · exact h.few

theorem Backed.keep (h : Backed codec protector d live) (hkept : Kept d.clock live live') :
    Backed codec protector d live' := by
  constructor
  · intro hex row hrow hactive
    obtain ⟨key, record, hhex, hkey, hexpires, hrestore⟩ := h.restores hrow hactive
    refine ⟨key, record, hhex, hkept.active hkey (lt_of_seconds_lt ?_), hexpires, hrestore⟩
    omega
  · intro key record hkey hactive
    exact h.stored (hkept.sub hkey) hactive
  · refine le_trans (Table.length_le_of_keys fun key hkey => ?_) h.few
    obtain ⟨record, hrecord⟩ := Option.isSome_iff_exists.mp hkey
    simp [hkept.sub hrecord]

theorem Backed.expire (h : Backed codec protector d live) :
    Backed codec protector (d.deleteExpired (unixTimestampSeconds d.clock)) live := by
  constructor
  · intro hex row hrow hactive
    exact h.restores (Table.lookup_filter_eq_some.mp hrow).1 hactive
  · intro key record hkey hactive
    obtain ⟨row, hrow, hexpires⟩ := h.stored hkey hactive
    refine ⟨row, Table.lookup_filter_eq_some.mpr ⟨hrow, ?_⟩, hexpires⟩
    rw [decide_eq_true_eq, hexpires]
    exact_mod_cast hactive
  · exact h.few

theorem Backed.record (hlaw : codec.Lawful) (h : Backed codec protector d live)
    {key : LfsSessionTokenKey} {record : LfsSessionRecord}
    {protectedToken : Option (ByteArray × Vector UInt8 12)} {row : MetadataSessionRecord}
    (hnew : live.lookup key = none) (hfew : live.entries.length < maxLocalLfsSessions)
    (hclock : record.metadata.issuedAt = d.clock)
    (hprotects : Protects codec protector key record protectedToken)
    (hrow : storedSession codec key record protectedToken = .ok row) :
    Backed codec protector (d.record row) (live.insert key record) := by
  obtain ⟨hhex, hexpires⟩ := expiresAtUnixSeconds_storedSession hrow
  constructor
  · intro hex row' hrow' hactive
    rcases Table.lookup_insert_eq_some.mp hrow' with ⟨rfl, rfl⟩ | ⟨hne, hold⟩
    · have hlast : unixTimestampSeconds record.metadata.issuedAt <
          unixTimestampSeconds record.metadata.expiresAt := by
        have hactive' : (unixTimestampSeconds d.clock : ℤ) < row.expiresAtUnixSeconds := hactive
        rw [hexpires] at hactive'
        rw [hclock]
        exact_mod_cast hactive'
      exact ⟨key, record, hhex, AList.lookup_insert _, hexpires,
        restoreSession_storedSession hlaw hprotects hrow hlast⟩
    · obtain ⟨key', record', rfl, hkey', hexpires', hrestore⟩ := h.restores hold hactive
      have hne' : key' ≠ key := by
        rintro rfl
        rw [hnew] at hkey'
        cases hkey'
      exact ⟨key', record', rfl, Table.lookup_insert_eq_some.mpr (.inr ⟨hne', hkey'⟩),
        hexpires', hrestore⟩
  · intro key' record' hkey' hactive
    rcases Table.lookup_insert_eq_some.mp hkey' with ⟨rfl, rfl⟩ | ⟨hne, hold⟩
    · exact ⟨row, Table.lookup_insert_eq_some.mpr (.inl ⟨hhex.symm, rfl⟩), hexpires⟩
    · obtain ⟨row', hrow', hexpires'⟩ := h.stored hold hactive
      refine ⟨row', Table.lookup_insert_eq_some.mpr (.inr ⟨?_, hrow'⟩), hexpires'⟩
      rw [hhex]
      exact fun heq => hne (LfsSessionTokenKey.toHex_injective heq)
  · rw [Table.length_insert hnew]
    exact hfew

theorem Backed.delete (h : Backed codec protector d live) {key : LfsSessionTokenKey} :
    Backed codec protector (d.delete key.toHex) (live.erase key) := by
  constructor
  · intro hex row hrow hactive
    obtain ⟨hne, hold⟩ := Table.lookup_erase_eq_some.mp hrow
    obtain ⟨key', record, rfl, hkey', hexpires, hrestore⟩ := h.restores hold hactive
    refine ⟨key', record, rfl, Table.lookup_erase_eq_some.mpr ⟨?_, hkey'⟩, hexpires, hrestore⟩
    rintro rfl
    exact hne rfl
  · intro key' record hkey' hactive
    obtain ⟨hne, hold⟩ := Table.lookup_erase_eq_some.mp hkey'
    obtain ⟨row, hrow, hexpires⟩ := h.stored hold hactive
    refine ⟨row, Table.lookup_erase_eq_some.mpr ⟨?_, hrow⟩, hexpires⟩
    exact fun heq => hne (LfsSessionTokenKey.toHex_injective heq)
  · refine le_trans (Table.length_le_of_keys fun key' hkey' => ?_) h.few
    obtain ⟨record, hrecord⟩ := Option.isSome_iff_exists.mp hkey'
    simp [(Table.lookup_erase_eq_some.mp hrecord).2]

/-- The statements of the operations keep the relation. -/
theorem backed_rule (hlaw : codec.Lawful) :
    RowsRule codec (some protector) .production (Backed codec protector) where
  tick h hle := h.tick hle
  generate h := ⟨h.restores, h.stored, h.few⟩
  keep h hkept := h.keep hkept
  expire _ h := h.expire
  record hprotector h hnew hfew hclock hprotects hrow := by
    cases hprotector
    exact h.record hlaw hnew hfew hclock hprotects hrow
  recordMemory hnone := nomatch hnone
  delete _ h := h.delete
  deleteMemory hnone := nomatch hnone

/-- Times are truncated once. -/
@[simp] theorem truncate_truncate (record : LfsSessionRecord) :
    record.truncate.truncate = record.truncate := by
  have htime : ∀ t : SystemTime, t.truncate.truncate = t.truncate := by
    intro t
    apply SystemTime.ext
    change (unixTimestampSeconds t.truncate : ℤ) * nanosPerSecond = _
    rw [unixTimestampSeconds_truncate]
    rfl
  simp [LfsSessionRecord.truncate, LfsSessionMetadata.truncate, htime]

/-- The sessions that a process restores. -/
def Restored (live : SessionTable) (now : SystemTime) (sessions : SessionTable) : Prop :=
  ∀ key restored, sessions.lookup key = some restored ↔ ∃ record, live.lookup key = some record ∧
    unixTimestampSeconds now < unixTimestampSeconds record.metadata.expiresAt ∧
      restored = record.truncate

variable (codec protector live) in
/-- Rows of sessions in memory are restored, all of them. -/
theorem restoreSessions_spec (rows : List MetadataSessionRecord)
    (h : ∀ row ∈ rows, ∃ key record, live.lookup key = some record ∧
      restoreSession codec protector row = .ok (key, record.truncate)) :
    ∃ sessions, restoreSessions codec protector rows = .ok sessions ∧
      ∀ key restored, sessions.lookup key = some restored ↔
        ∃ row ∈ rows, restoreSession codec protector row = .ok (key, restored) := by
  induction rows with
  | nil => exact ⟨∅, rfl, by simp⟩
  | cons row rows ih =>
    obtain ⟨key, record, hkey, hrow⟩ := h row List.mem_cons_self
    obtain ⟨sessions, hsessions, hspec⟩ := ih fun row' hrow' => h row' (List.mem_cons_of_mem _ hrow')
    -- A row with the key of this one restores the same session.
    have hsame : ∀ restored, sessions.lookup key = some restored → restored = record.truncate := by
      intro restored hlookup
      obtain ⟨row', hrow', hrestore⟩ := (hspec key restored).mp hlookup
      obtain ⟨key', record', hkey', hrestore'⟩ := h row' (List.mem_cons_of_mem _ hrow')
      rw [hrestore] at hrestore'
      obtain ⟨rfl, rfl⟩ := Prod.mk.inj (Except.ok.inj hrestore')
      rw [hkey] at hkey'
      cases hkey'
      rfl
    refine ⟨_, by rw [restoreSessions, hrow]; simp only [bind, Except.bind, hsessions]; rfl, ?_⟩
    intro key' restored
    simp only [List.mem_cons, exists_eq_or_imp, hrow, Except.ok.injEq, Prod.mk.injEq, ← hspec]
    cases hlookup : sessions.lookup key with
    | some restored' =>
      simp only [Option.isSome_some, if_true]
      refine ⟨.inr, fun hor => hor.elim ?_ id⟩
      rintro ⟨rfl, rfl⟩
      rw [hlookup, hsame _ hlookup]
    | none =>
      simp only [Option.isSome_none, Bool.false_eq_true, if_false]
      rw [Table.lookup_insert_eq_some]
      constructor
      · rintro (⟨rfl, rfl⟩ | ⟨hne, hold⟩)
        · exact .inl ⟨rfl, rfl⟩
        · exact .inr hold
      · rintro (⟨rfl, rfl⟩ | hold)
        · exact .inl ⟨rfl, rfl⟩
        · refine .inr ⟨?_, hold⟩
          rintro rfl
          rw [hlookup] at hold
          cases hold

/-- A truncated session. -/
@[simp] theorem expiresAt_truncate (record : LfsSessionRecord) :
    record.truncate.metadata.expiresAt = record.metadata.expiresAt.truncate := rfl

/-- What is restored is what the rows are for. -/
theorem Backed.restored (h : Backed codec protector d live) {rows : List MetadataSessionRecord}
    (hrows : rows.Perm ((d.activeRows (unixTimestampSeconds d.clock)).entries.map Sigma.snd)) :
    ∃ sessions, restoreSessions codec protector rows = .ok sessions ∧
      Restored live d.clock sessions ∧ Backed codec protector d sessions := by
  have hmem : ∀ row, row ∈ rows ↔ ∃ hex, d.rows.lookup hex = some row ∧
      (unixTimestampSeconds d.clock : ℤ) < row.expiresAtUnixSeconds := by
    intro row
    rw [hrows.mem_iff, List.mem_map]
    constructor
    · rintro ⟨⟨hex, row'⟩, hentry, rfl⟩
      have := Table.lookup_filter_eq_some.mp (AList.mem_lookup_iff.mpr hentry)
      exact ⟨hex, this.1, by simpa using this.2⟩
    · rintro ⟨hex, hlookup, hactive⟩
      refine ⟨⟨hex, row⟩, AList.mem_lookup_iff.mp ?_, rfl⟩
      exact Table.lookup_filter_eq_some.mpr ⟨hlookup, by simpa using hactive⟩
  obtain ⟨sessions, hsessions, hspec⟩ :=
    restoreSessions_spec codec protector live rows fun row hrow => by
      obtain ⟨hex, hlookup, hactive⟩ := (hmem row).mp hrow
      obtain ⟨key, record, _, hkey, _, hrestore⟩ := h.restores hlookup hactive
      exact ⟨key, record, hkey, hrestore⟩
  have hrestored : Restored live d.clock sessions := by
    intro key restored
    rw [hspec]
    constructor
    · rintro ⟨row, hrow, hrestore⟩
      obtain ⟨hex, hlookup, hactive⟩ := (hmem row).mp hrow
      obtain ⟨key', record, _, hkey, hexpires, hrestore'⟩ := h.restores hlookup hactive
      rw [hrestore] at hrestore'
      obtain ⟨rfl, rfl⟩ := Prod.mk.inj (Except.ok.inj hrestore')
      refine ⟨record, hkey, ?_, rfl⟩
      rw [hexpires] at hactive
      exact_mod_cast hactive
    · rintro ⟨record, hkey, hactive, rfl⟩
      obtain ⟨row, hlookup, hexpires⟩ := h.stored hkey hactive
      have hactive' : (unixTimestampSeconds d.clock : ℤ) < row.expiresAtUnixSeconds := by
        rw [hexpires]
        exact_mod_cast hactive
      obtain ⟨key', record', hhex, hkey', _, hrestore⟩ := h.restores hlookup hactive'
      obtain rfl := LfsSessionTokenKey.toHex_injective hhex
      rw [hkey] at hkey'
      cases hkey'
      exact ⟨row, (hmem row).mpr ⟨_, hlookup, hactive'⟩, hrestore⟩
  refine ⟨sessions, hsessions, hrestored, ?_, ?_, ?_⟩
  · intro hex row hlookup hactive
    obtain ⟨key, record, hhex, hkey, hexpires, hrestore⟩ := h.restores hlookup hactive
    have hactive' : unixTimestampSeconds d.clock <
        unixTimestampSeconds record.metadata.expiresAt := by
      rw [hexpires] at hactive
      exact_mod_cast hactive
    refine ⟨key, record.truncate, hhex, (hrestored _ _).mpr ⟨record, hkey, hactive', rfl⟩, ?_, ?_⟩
    · rw [expiresAt_truncate, unixTimestampSeconds_truncate, hexpires]
    · rw [hrestore, truncate_truncate]
  · intro key restored hkey _
    obtain ⟨record, hlive, hactive, rfl⟩ := (hrestored _ _).mp hkey
    obtain ⟨row, hlookup, hexpires⟩ := h.stored hlive hactive
    refine ⟨row, hlookup, ?_⟩
    rw [expiresAt_truncate, unixTimestampSeconds_truncate, hexpires]
  · refine le_trans (Table.length_le_of_keys fun key hkey => ?_) h.few
    obtain ⟨restored, hrestored'⟩ := Option.isSome_iff_exists.mp hkey
    obtain ⟨record, hkey', _, _⟩ := (hrestored _ _).mp hrestored'
    simp [hkey']

/-- A store opens over rows that back some sessions, unless the database fails. -/
theorem openDurable_triple {fails : Prop} {secret : ByteArray} (hsecret : secret.size ≠ 0)
    (live : SessionTable) (start : SystemTime) :
    Triple (sessionOp fails)
      (fun d => start ≤ d.clock ∧ Backed codec (.new codec secret) d live)
      (fun _ d => d.clock = start ∧ Backed codec (.new codec secret) d live)
      (openDurable codec secret)
      (fun store _ d => start ≤ d.clock ∧ Restored live d.clock store.state.sessions ∧
        Backed codec (.new codec secret) d store.state.sessions ∧
        store.durable = some (.new codec secret) ∧ store.limits = .production)
      fun _ _ d => fails ∧ start ≤ d.clock ∧ Backed codec (.new codec secret) d live := by
  unfold openDurable
  rw [if_neg hsecret]
  apply Triple.bind (Q := fun (now : SystemTime) _ d => d.clock = now ∧ start ≤ d.clock ∧
    Backed codec (.new codec secret) d live)
  · apply Triple.ask
    rintro m d now d' ⟨rfl, hd⟩ ⟨hle, rfl⟩
    exact ⟨⟨hle, hd.tick hle⟩, rfl, hle, hd.tick hle⟩
  intro now
  rw [unixTimestampSecondsI64_eq]
  apply Triple.bind (Q := fun seconds _ d => seconds = (unixTimestampSeconds now : ℤ) ∧
    d.clock = now ∧ start ≤ d.clock ∧ Backed codec (.new codec secret) d live)
  · exact .pure fun m d hm => ⟨rfl, hm⟩
  intro seconds
  apply Triple.of_fact
  rintro rfl
  apply Triple.bind (Q := fun _ _ d => d.clock = now ∧ start ≤ d.clock ∧
    Backed codec (.new codec secret) d live)
  · apply deleteExpiredSessions_triple
    · rintro m d ⟨rfl, hle, hd⟩
      exact ⟨⟨hle, hd.expire⟩, rfl, hle, hd.expire⟩
    · rintro hfails m d ⟨rfl, hle, hd⟩
      exact ⟨⟨hle, hd⟩, hfails, hle, hd⟩
  intro _
  apply Triple.bind (Q := fun (answer : Except ServerError (List MetadataSessionRecord)) _ d =>
    (∀ rows, answer = .ok rows → ∃ sessions,
      restoreSessions codec (.new codec secret) rows = .ok sessions ∧
      Restored live d.clock sessions ∧ Backed codec (.new codec secret) d sessions) ∧
    (∀ e, answer = .error e → fails) ∧ start ≤ d.clock ∧
      Backed codec (.new codec secret) d live)
  · apply Triple.ask
    rintro m d answer d' ⟨rfl, hle, hd⟩ ⟨rfl, ⟨rows, rfl, hperm⟩ | ⟨hfails, rfl⟩⟩
    · refine ⟨⟨hle, hd⟩, ?_, nofun, hle, hd⟩
      rintro rows' heq
      cases heq
      exact hd.restored hperm
    · exact ⟨⟨hle, hd⟩, nofun, fun _ _ => hfails, hle, hd⟩
  intro answer
  apply Triple.bind (Q := fun rows _ d => (∃ sessions,
      restoreSessions codec (.new codec secret) rows = .ok sessions ∧
      Restored live d.clock sessions ∧ Backed codec (.new codec secret) d sessions) ∧
    start ≤ d.clock)
  · apply Triple.liftResult
    · rintro rows rfl m d ⟨hrows, _, hle, _⟩
      exact ⟨hrows rows rfl, hle⟩
    · rintro e rfl m d ⟨_, hfails, hle, hd⟩
      exact ⟨hfails e rfl, hle, hd⟩
  intro rows
  apply Triple.bind (Q := fun sessions _ d => Restored live d.clock sessions ∧
    Backed codec (.new codec secret) d sessions ∧ start ≤ d.clock)
  · apply Triple.liftResult
    · rintro sessions heq m d ⟨⟨sessions', heq', hrestored, hd⟩, hle⟩
      rw [heq] at heq'
      cases heq'
      exact ⟨hrestored, hd, hle⟩
    · rintro e heq m d ⟨⟨sessions', heq', _⟩, _⟩
      rw [heq] at heq'
      cases heq'
  intro sessions
  split_ifs with hmany
  · apply Triple.throw
    rintro m d ⟨_, hd, _⟩
    exact absurd hd.few (not_le.mpr hmany)
  · apply Triple.pure
    rintro m d ⟨hrestored, hd, hle⟩
    exact ⟨hle, hrestored, hd, rfl, rfl⟩

end

end LfsCloud
