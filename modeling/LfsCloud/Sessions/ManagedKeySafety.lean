import LfsCloud.Sessions.ManagedKeyRules

/-!
# The managed key over whole runs

Processes, rotations and their failures in any order: the key in the native key store is always
the one that the rows are written under, and it stays there as long as there are rows.
-/

namespace LfsCloud

open Interaction Transition

section Worlds

variable {codec : SessionCodec} {w w' : KeyWorld} {event : KeyEvent}

/-- The rows are written under the key in the store, which is the key of the process. -/
def KeyWorld.Sound (codec : SessionCodec) (w : KeyWorld) : Prop :=
  ∃ secret events, secret.size = managedSessionKeyBytes ∧
    SessionWorld.Sound codec secret events ⟨w.state.database, w.process.bind Prod.snd⟩ ∧
    WrittenUnder codec secret w.state.database ∧
    (∀ stored, w.state.storedKey = some stored → stored = secret) ∧
    (∀ held store, w.process = some (held, store) →
      held = secret ∧ (w.lost = false → w.state.storedKey = some held)) ∧
    (w.lost = false → w.state.storedKey = none → w.state.database.rows = ∅)

/-- While no process runs. -/
theorem KeyIdle.sound {s : KeyState} {lost : Bool} (h : KeyIdle codec lost s) :
    KeyWorld.Sound codec ⟨s, none, lost⟩ := by
  obtain ⟨secret, events, hsize, hsound, hwritten, hstored, hpresent⟩ := h
  exact ⟨secret, events, hsize, hsound, hwritten, hstored, fun _ _ heq => (by cases heq), hpresent⟩

theorem KeyWorld.Sound.idle {s : KeyState} {lost : Bool}
    (h : KeyWorld.Sound codec ⟨s, none, lost⟩) : KeyIdle codec lost s := by
  obtain ⟨secret, events, hsize, hsound, hwritten, hstored, _, hpresent⟩ := h
  exact ⟨secret, events, hsize, hsound, hwritten, hstored, hpresent⟩

/-- A function that fails does not end the search for a removed key. -/
theorem KeyIdle.failed {s : KeyState} {lost : Bool} (h : KeyIdle codec lost s) :
    KeyIdle codec (lost && true) s := by
  rwa [Bool.and_true]

/-- With a key in the store nothing is lost. -/
theorem KeyIdle.stored {s : KeyState} {lost lost' : Bool} (h : KeyIdle codec lost s)
    (secret : ByteArray) (hsecret : s.storedKey = some secret) : KeyIdle codec lost' s := by
  obtain ⟨secret', events, hsize, hsound, hwritten, hstored, _⟩ := h
  refine ⟨secret', events, hsize, hsound, hwritten, hstored, ?_⟩
  intro _ hnone
  rw [hsecret] at hnone
  cases hnone

/-- A managed key is a secret. -/
theorem ne_zero_of_size {secret : ByteArray} (h : secret.size = managedSessionKeyBytes) :
    secret.size ≠ 0 := by
  rw [h]
  decide

/-- The steps of the keys, of a session and of a removal keep the invariant. -/
theorem KeyWorld.Sound.step (hlaw : codec.Lawful) (h : w.Sound codec)
    (hstep : KeyWorld.Step codec w event w') : w'.Sound codec := by
  cases hstep with
  | @start s s' lost result hret =>
    obtain ⟨hok, herror, _⟩ := loadOrCreateManagedSessionKey_triple True s () s
      ⟨rfl, h.idle⟩
    cases result with
    | error e => exact (herror e () s' hret).1.1.failed.sound
    | ok held =>
      obtain ⟨⟨hidle, _⟩, hheld⟩ := hok held () s' hret
      obtain ⟨secret, events, hsize, hsound, hwritten, hstored, _⟩ := hidle
      refine ⟨secret, events, hsize, hsound, hwritten, hstored, ?_, ?_⟩
      · rintro _ _ heq
        obtain ⟨rfl, _⟩ := Prod.mk.inj (Option.some.inj heq)
        exact ⟨hstored _ hheld, fun _ => hheld⟩
      · intro _ hnone
        exact absurd (hheld.symm.trans hnone) (by simp)
  | @killStart s s' lost hkill =>
    obtain ⟨_, _, hcut⟩ := loadOrCreateManagedSessionKey_triple True s () s
      ⟨rfl, h.idle⟩
    exact (hcut s' hkill).1.sound
  | @session s held store lost event d' store' hstep =>
    obtain ⟨secret, events, hsize, hsound, hwritten, hstored, hprocess, hpresent⟩ := h
    obtain ⟨rfl, hheld⟩ := hprocess held store rfl
    have hsound' : SessionWorld.Sound codec held (events ++ [event]) ⟨d', store'⟩ :=
      hsound.step hlaw (ne_zero_of_size hsize) hstep
    have hwritten' : WrittenUnder codec held d' := by
      obtain ⟨_, _, _, hopened⟩ := hsound
      exact hwritten.step (fun store' hstore => ⟨(hopened store' hstore).1,
        (hopened store' hstore).2.1⟩) hstep
    refine ⟨held, _, hsize, hsound', hwritten', hstored, ?_, ?_⟩
    · rintro _ _ heq
      obtain ⟨rfl, _⟩ := Prod.mk.inj (Option.some.inj heq)
      exact ⟨rfl, hheld⟩
    · intro hlost hnone
      have hsome : s.storedKey = some held := hheld hlost
      have hnone' : s.storedKey = none := hnone
      rw [hsome] at hnone'
      cases hnone'
  | @exit s process lost =>
    obtain ⟨secret, events, hsize, hsound, hwritten, hstored, _, hpresent⟩ := h
    exact ⟨secret, _, hsize, hsound.step hlaw (ne_zero_of_size hsize) .kill, hwritten, hstored,
      fun _ _ heq => (by cases heq), hpresent⟩
  | @rotate s s' lost result hret =>
    obtain ⟨hok, herror, _⟩ := rotateManagedSessionKey_triple True s () s
      ⟨rfl, h.idle⟩
    cases result with
    | error e => exact (herror e () s' hret).1.1.failed.sound
    | ok invalidated =>
      obtain ⟨⟨hidle, _⟩, _, stored, hstored, _⟩ := hok invalidated () s' hret
      exact (hidle.stored stored hstored).sound
  | @killRotate s s' lost hkill =>
    obtain ⟨_, _, hcut⟩ := rotateManagedSessionKey_triple True s () s
      ⟨rfl, h.idle⟩
    exact (hcut s' hkill).1.sound
  | @lose s process lost =>
    obtain ⟨secret, events, hsize, hsound, hwritten, hstored, hprocess, _⟩ := h
    have hnone : (s.keys.erase s.instanceId).lookup s.instanceId = none :=
      AList.lookup_erase s.instanceId s.keys
    refine ⟨secret, events, hsize, hsound, hwritten, ?_, ?_, fun hlost => by cases hlost⟩
    · intro stored h
      have h' : (s.keys.erase s.instanceId).lookup s.instanceId = some stored := h
      rw [hnone] at h'
      cases h'
    · intro held store heq
      exact ⟨(hprocess held store heq).1, fun hlost => by cases hlost⟩

/-- The invariant holds along every run. -/
theorem keySound_of_run (hlaw : codec.Lawful) {start : KeyWorld}
    (hstart : (keySystem codec).init start) {events : List KeyEvent}
    (hrun : (keySystem codec).Run start events w) : w.Sound codec := by
  apply hrun.history (P := fun _ w => w.Sound codec)
  · obtain ⟨hprocess, hlost, hrows, hnone⟩ := hstart
    obtain ⟨s, process, lost⟩ := start
    obtain rfl : process = none := hprocess
    have hsize : (keyBytes (Vector.replicate managedSessionKeyBytes 0)).size =
        managedSessionKeyBytes := keyBytes_size _
    apply KeyIdle.sound
    refine KeyIdle.of_rows_empty hsize hrows ?_
    intro stored hstored
    rw [hnone] at hstored
    cases hstored
  · exact fun _ hs hstep => hs.step hlaw hstep

/-- A key is only stored where no rows are left, so no rows are under another key. -/
theorem KeyWorld.Step.keys (h : w.Sound codec)
    (hstep : KeyWorld.Step codec w event w') : w'.state.keys = w.state.keys ∨ event = .lose ∨
      w'.state.database.rows = ∅ := by
  have hsafe : ∀ {s s' : KeyState} {lost : Bool}, KeySafe codec lost s s' →
      s'.keys = s.keys ∨ event = .lose ∨ s'.database.rows = ∅ := by
    rintro s s' lost ⟨_, _, hkeys | hempty⟩
    · exact .inl hkeys
    · exact .inr (.inr hempty)
  cases hstep with
  | @start s s' lost result hret =>
    obtain ⟨hok, herror, _⟩ := loadOrCreateManagedSessionKey_triple True s () s
      ⟨rfl, h.idle⟩
    cases result with
    | error e => exact hsafe (herror e () s' hret).1
    | ok held => exact hsafe (hok held () s' hret).1
  | @killStart s s' lost hkill =>
    obtain ⟨_, _, hcut⟩ := loadOrCreateManagedSessionKey_triple True s () s
      ⟨rfl, h.idle⟩
    exact hsafe (hcut s' hkill)
  | session => exact .inl rfl
  | exit => exact .inl rfl
  | @rotate s s' lost result hret =>
    obtain ⟨hok, herror, _⟩ := rotateManagedSessionKey_triple True s () s
      ⟨rfl, h.idle⟩
    cases result with
    | error e => exact hsafe (herror e () s' hret).1
    | ok invalidated => exact hsafe (hok invalidated () s' hret).1
  | @killRotate s s' lost hkill =>
    obtain ⟨_, _, hcut⟩ := rotateManagedSessionKey_triple True s () s
      ⟨rfl, h.idle⟩
    exact hsafe (hcut s' hkill)
  | lose => exact .inr (.inl rfl)

/-- Every call of a store can succeed. -/
theorem exists_sessionOp (d : SessionDatabase) (c : SessionCall) :
    ∃ answer d', sessionOp False d c answer d' := by
  cases c with
  | clock => exact ⟨d.clock, _, le_rfl, rfl⟩
  | generateToken => exact ⟨⟨""⟩, _, rfl⟩
  | randomNonce => exact ⟨none, _, rfl⟩
  | deleteExpiredSessions now => exact ⟨.ok (), _, .inl ⟨rfl, rfl⟩⟩
  | recordSession row => exact ⟨.ok (), _, .inl ⟨rfl, rfl⟩⟩
  | deleteSession tokenSha256 => exact ⟨.ok (), _, .inl ⟨rfl, rfl⟩⟩
  | loadActiveSessions now => exact ⟨.ok _, _, rfl, .inl ⟨_, rfl, .refl _⟩⟩

/-- Every call for the managed key can succeed. -/
theorem exists_keyOp (s : KeyState) (c : KeyCall) : ∃ answer s', keyOp False s c answer s' := by
  cases c with
  | instanceId => exact ⟨.ok _, _, rfl, .inl rfl⟩
  | loadKey account => exact ⟨.ok _, _, rfl, .inl rfl⟩
  | storeKey account secret => exact ⟨.ok (), _, .inl ⟨rfl, rfl⟩⟩
  | clock => exact ⟨s.database.clock, _, le_rfl, rfl⟩
  | deleteExpiredSessions now => exact ⟨.ok (), _, .inl ⟨rfl, rfl⟩⟩
  | sessionCount => exact ⟨.ok _, _, rfl, .inl rfl⟩
  | deleteAllSessions => exact ⟨.ok _, _, .inl ⟨rfl, rfl⟩⟩
  | randomKey => exact ⟨some (.replicate _ 0), _, rfl, .inl rfl⟩

/-- Where nothing fails any more, the store opens with the key. -/
def Reopens (codec : SessionCodec) (d : SessionDatabase) (secret : ByteArray) : Prop :=
  (∃ r d', ((openDurable codec secret).from ()).Returns (sessionOp False) d r d') ∧
    ∀ result d', ((openDurable codec secret).from ()).Returns (sessionOp False) d (result, ()) d' →
      ∃ store, result = .ok store

/-- Where nothing fails any more and the clock is right, the key is loaded, or one is created. It
is refused if the key of the remaining sessions was removed by someone else. -/
def Loads (w : KeyWorld) : Prop :=
  (∃ r s', (loadOrCreateManagedSessionKey.from ()).Returns (keyOp False) w.state r s') ∧
    ∀ result s', (loadOrCreateManagedSessionKey.from ()).Returns (keyOp False) w.state
      (result, ()) s' →
        (∃ secret, result = .ok secret ∧ s'.storedKey = some secret) ∨
          s'.database.clock.nanos < 0 ∨
            (w.lost = true ∧ s'.storedKey = none ∧ s'.database.rows ≠ ∅)

/-- Where nothing fails any more, a rotation succeeds. -/
def Retries (s : KeyState) : Prop :=
  (∃ r s', (rotateManagedSessionKey.from ()).Returns (keyOp False) s r s') ∧
    ∀ result s', (rotateManagedSessionKey.from ()).Returns (keyOp False) s (result, ()) s' →
      ∃ invalidated, result = .ok invalidated

/-- What the key in the store is good for. -/
structure ManagedKeySafe (codec : SessionCodec) (w : KeyWorld) : Prop where
  decrypts : ∀ stored, w.state.storedKey = some stored →
    ∀ hex row, w.state.database.rows.lookup hex = some row → DecryptsRow codec stored row
  present : w.lost = false → w.state.database.rows ≠ ∅ → w.state.storedKey.isSome = true
  held : ∀ secret store, w.process = some (secret, store) → w.lost = false →
    w.state.storedKey = some secret
  opens : ∀ stored, w.state.storedKey = some stored → Reopens codec w.state.database stored
  loads : w.process = none → Loads w
  retries : w.process = none → Retries w.state

/-- A sound state is safe. -/
theorem KeyWorld.Sound.safe (hlaw : codec.Lawful) (h : w.Sound codec) : ManagedKeySafe codec w := by
  obtain ⟨secret, events, hsize, hsound, hwritten, hstored, hprocess, hpresent⟩ := id h
  constructor
  · intro stored hkey hex row hrow
    rw [hstored stored hkey]
    exact (hwritten hex row hrow).decrypts hlaw
  · intro hlost hrows
    cases hkey : w.state.storedKey with
    | none => exact absurd (hpresent hlost hkey) hrows
    | some stored => rfl
  · intro held store hheld hlost
    exact (hprocess held store hheld).2 hlost
  · intro stored hkey
    refine ⟨Prog.exists_returns exists_sessionOp _ _, ?_⟩
    intro result d' hret
    rw [hstored stored hkey] at hret
    obtain ⟨live, hbacked, _⟩ := hsound
    have hopen : Triple (sessionOp False) _ _ (openDurable codec secret) _ _ :=
      openDurable_triple (ne_zero_of_size hsize) live w.state.database.clock
    obtain ⟨_, herror, _⟩ := hopen () w.state.database ⟨rfl, hbacked⟩
    cases result with
    | ok store => exact ⟨store, rfl⟩
    | error e => exact (herror e () d' hret).1.elim
  · intro hidle
    obtain ⟨s, process, lost⟩ := w
    obtain rfl : process = none := hidle
    refine ⟨Prog.exists_returns exists_keyOp _ _, ?_⟩
    intro result s' hret
    obtain ⟨hok, herror, _⟩ := loadOrCreateManagedSessionKey_triple False s () s
      ⟨rfl, h.idle⟩
    cases result with
    | ok secret => exact .inl ⟨secret, rfl, (hok secret () s' hret).2⟩
    | error e =>
      obtain ⟨⟨⟨_, _, _, _, _, _, hthere⟩, _⟩, hfails | hclock | ⟨hnone, hrows⟩⟩ :=
        herror e () s' hret
      · exact hfails.elim
      · exact .inr (.inl hclock)
      · cases lost with
        | true => exact .inr (.inr ⟨rfl, hnone, hrows⟩)
        | false => exact absurd (hthere rfl hnone) hrows
  · intro hidle
    obtain ⟨s, process, lost⟩ := w
    obtain rfl : process = none := hidle
    refine ⟨Prog.exists_returns exists_keyOp _ _, ?_⟩
    intro result s' hret
    obtain ⟨_, herror, _⟩ := rotateManagedSessionKey_triple False s () s ⟨rfl, h.idle⟩
    cases result with
    | ok invalidated => exact ⟨invalidated, rfl⟩
    | error e => exact (herror e () s' hret).2.elim

/-- What a rotation that succeeds leaves: a new key in place of the old one, and no session. -/
def Rotated (codec : SessionCodec) (s s' : KeyState) : Prop :=
  ∃ secret, secret.size = managedSessionKeyBytes ∧ s'.keys = s.keys.insert s.instanceId secret ∧
    s'.storedKey = some secret ∧ s'.database.rows = ∅ ∧ Reopens codec s'.database secret

/-- A rotation that returns a number succeeded. -/
theorem KeyWorld.Step.rotated (hlaw : codec.Lawful) (h : w.Sound codec) {invalidated : ℕ}
    (hstep : KeyWorld.Step codec w (.rotate (.ok invalidated)) w') :
    Rotated codec w.state w'.state := by
  have hsafe : ManagedKeySafe codec w' := (h.step hlaw hstep).safe hlaw
  generalize hevent : KeyEvent.rotate (.ok invalidated) = event at hstep
  cases hstep with
  | @rotate s s' lost result hret =>
    cases hevent
    obtain ⟨hok, _, _⟩ := rotateManagedSessionKey_triple True s () s ⟨rfl, h.idle⟩
    obtain ⟨_, hrows, secret, hstored, hsize, hkeys⟩ := hok invalidated () s' hret
    exact ⟨secret, hsize, hkeys, hstored, hrows, hsafe.opens secret hstored⟩
  | _ => cases hevent

/-- A new database and an empty key store. -/
def sampleKeyWorld : KeyWorld := ⟨⟨⟨unixEpoch, ∅, []⟩, "instance", ∅⟩, none, false⟩

end Worlds

end LfsCloud
