import LfsCloud.ChildProcessRules

/-!
# Runs of the supervision of a child

What is known before a round is kept by it, and a round that goes on comes closer to the end, so
that with a timeout the loop ends after a number of rounds.
-/

namespace LfsCloud

variable {pipes : OutputStream → Option OutputPipe} {options : ChildProcessOptions}
  {commandName : String} {deadline : Option ℕ} {s s' : SupervisionState}
  {round : SupervisionRound}

/-! ## Waiting -/

@[simp] theorem waitForEvent_captured : (waitForEvent s round).captured = s.captured := by
  unfold waitForEvent
  split_ifs
  · cases round.next <;> rfl
  · rfl

@[simp] theorem waitForEvent_status : (waitForEvent s round).status = s.status := by
  unfold waitForEvent
  split_ifs
  · cases round.next <;> rfl
  · rfl

@[simp] theorem waitForEvent_drainDeadline :
    (waitForEvent s round).drainDeadline = s.drainDeadline := by
  unfold waitForEvent
  split_ifs
  · cases round.next <;> rfl
  · rfl

variable (s round) in
/-- Waiting gives a result, or finds that the readers are gone, or takes its time. -/
theorem waitForEvent_cases :
    (∃ event, round.next = .event event ∧ (waitForEvent s round).pending = some event ∧
      (waitForEvent s round).connected = s.connected ∧
        (waitForEvent s round).clock = round.drainClock) ∨
    ((waitForEvent s round).pending = none ∧ s.connected = true ∧
      (waitForEvent s round).connected = false ∧
        (waitForEvent s round).clock = round.drainClock) ∨
    (waitForEvent s round).pending = none ∧
      (waitForEvent s round).connected = s.connected ∧
        (waitForEvent s round).clock = round.drainClock + processPollInterval := by
  unfold waitForEvent
  split_ifs with hconnected
  · cases hnext : round.next with
    | event event => exact .inl ⟨event, rfl, rfl, rfl, rfl⟩
    | timeout => exact .inr (.inr ⟨rfl, rfl, rfl⟩)
    | disconnected => exact .inr (.inl ⟨rfl, hconnected, rfl, rfl⟩)
  · exact .inr (.inr ⟨rfl, rfl, rfl⟩)

/-! ## The invariant -/

/-- The results that a round has accepted or collected. -/
theorem RoundAllowed.sent_polled (h : RoundAllowed pipes options s round) :
    ∀ event ∈ round.polled, event.SentBy pipes options :=
  fun event hevent => h.sent event
    (List.mem_append_left _ (List.mem_append_left _ hevent))

theorem RoundAllowed.sent_collected (h : RoundAllowed pipes options s round) :
    ∀ event ∈ round.collected, event.SentBy pipes options :=
  fun event hevent => h.sent event
    (List.mem_append_left _ (List.mem_append_right _ hevent))

theorem mem_events_of_next {event : PipeEvent} (hnext : round.next = .event event) :
    event ∈ round.events := by
  unfold SupervisionRound.events
  rw [hnext]
  exact List.mem_append_right _ List.mem_cons_self

/-- What was accepted is of pipes that were drained. -/
theorem SupervisionInv.drained_accepted (hinv : SupervisionInv pipes options s)
    (hallowed : RoundAllowed pipes options s round)
    (herrors : ∀ event ∈ s.pending.toList ++ round.polled, event.error commandName = none) :
    ∀ stream bytes,
      (s.pending.toList ++ round.polled).foldl Captured.receive s.captured stream = some bytes →
        StreamDrained pipes options stream bytes := by
  refine foldl_receive_sound hinv.drained fun event hevent => ?_
  have hsent : event.SentBy pipes options := by
    rcases List.mem_append.mp hevent with hpending | hpolled
    · exact hinv.pending event (Option.mem_toList.mp hpending)
    · exact hallowed.sent_polled event hpolled
  exact hsent.drained (herrors event hevent)

/-- What waiting gives is known. -/
theorem pending_waitForEvent (hallowed : RoundAllowed pipes options s round)
    {t : SupervisionState} : ∀ event ∈ (waitForEvent t round).pending,
      event.SentBy pipes options := by
  intro event hevent
  rcases waitForEvent_cases t round with
    ⟨found, hnext, hpending, _⟩ | ⟨hpending, _⟩ | ⟨hpending, _⟩
  · rw [hpending] at hevent
    obtain rfl := Option.mem_some_iff.mp hevent
    exact hallowed.sent _ (mem_events_of_next hnext)
  · rw [hpending] at hevent
    cases hevent
  · rw [hpending] at hevent
    cases hevent

/-- A round keeps what is known. -/
theorem SupervisionInv.step (hinv : SupervisionInv pipes options s)
    (hallowed : RoundAllowed pipes options s round)
    (h : superviseRound options commandName deadline s round = .inl s') :
    SupervisionInv pipes options s' := by
  rcases superviseRound_cases options commandName deadline s round with
    ⟨outcome, hround, _⟩ | ⟨status, drainDeadline, hround, herrors, hstatus⟩
  · cases h.symm.trans hround
  · have hdrained := hinv.drained_accepted hallowed herrors
    have hdeadline : status.isSome = true → drainDeadline.isSome = true := by
      intro hsome
      rcases hstatus with ⟨_, rfl, rfl⟩ | ⟨_, rfl⟩
      · exact hinv.drainDeadline hsome
      · rwa [Option.isSome_map]
    rcases superviseStatus_inl (hround.symm.trans h) with
      ⟨_, _, rfl⟩ | ⟨_, _, _, rfl⟩ | ⟨_, _, _, hcollected, rfl⟩
    · refine ⟨?_, pending_waitForEvent hallowed, ?_⟩
      · rwa [waitForEvent_captured]
      · rwa [waitForEvent_status, waitForEvent_drainDeadline]
    · refine ⟨?_, pending_waitForEvent hallowed, ?_⟩
      · rwa [waitForEvent_captured]
      · rwa [waitForEvent_status, waitForEvent_drainDeadline]
    · refine ⟨?_, pending_waitForEvent hallowed, ?_⟩
      · rw [waitForEvent_captured]
        exact foldl_receive_sound hdrained fun event hevent =>
          (hallowed.sent_collected event hevent).drained (hcollected event hevent)
      · rwa [waitForEvent_status, waitForEvent_drainDeadline]

/-- A return of a round is sound, and settled when the calls succeed. -/
theorem SupervisionInv.outcome {outcome : SupervisionOutcome}
    (hinv : SupervisionInv pipes options s) (hallowed : RoundAllowed pipes options s round)
    (h : superviseRound options commandName deadline s round = .inr outcome) :
    SupervisionSound pipes options outcome ∧ (CallsSucceed round → SupervisionSettled outcome) := by
  rcases superviseRound_cases options commandName deadline s round with
    ⟨failed, hround, hfailed, hsettled⟩ | ⟨status, drainDeadline, hround, herrors, _⟩
  · obtain rfl := Sum.inr.inj (h.symm.trans hround)
    exact ⟨hfailed.sound, hsettled⟩
  · exact superviseStatus_inr (hinv.drained_accepted hallowed herrors)
      hallowed.sent_collected (hround.symm.trans h)

/-- A run returns soundly, and settled when the calls succeed. -/
theorem SupervisionInv.run {outcome : SupervisionOutcome} {rounds : List SupervisionRound}
    (hinv : SupervisionInv pipes options s)
    (hallowed : RoundsAllowed pipes options commandName deadline s rounds)
    (h : supervise options commandName deadline s rounds = some outcome) :
    SupervisionSound pipes options outcome ∧
      ((∀ round ∈ rounds, CallsSucceed round) → SupervisionSettled outcome) := by
  induction rounds generalizing s with
  | nil => cases h
  | cons round rounds ih =>
    obtain ⟨hround, hrest⟩ := hallowed
    unfold supervise at h
    cases hstep : superviseRound options commandName deadline s round with
    | inl next =>
      rw [hstep] at h
      obtain ⟨hsound, hsettled⟩ := ih (hinv.step hround hstep) (hrest next hstep) h
      exact ⟨hsound, fun hcalls => hsettled (List.forall_mem_cons.mp hcalls).2⟩
    | inr returned =>
      rw [hstep] at h
      obtain rfl := Option.some.inj h
      obtain ⟨hsound, hsettled⟩ := hinv.outcome hround hstep
      exact ⟨hsound, fun hcalls => hsettled (List.forall_mem_cons.mp hcalls).1⟩

/-- What is known before the loop. -/
theorem SupervisionInv.start {clock : ℕ} :
    SupervisionInv pipes options (SupervisionState.start pipes clock) := by
  refine ⟨fun stream bytes hbytes => ?_, fun event hevent => (by cases hevent),
    fun hstatus => (by cases hstatus)⟩
  unfold StreamDrained
  unfold SupervisionState.start at hbytes
  cases hpipe : pipes stream with
  | none =>
    simp only [hpipe, Option.isNone_none, if_true, Option.some.injEq] at hbytes
    exact hbytes.symm
  | some pipe =>
    simp only [hpipe, Option.isNone_some, Bool.false_eq_true, if_false, reduceCtorEq] at hbytes

/-! ## The end of the loop -/

/-- A stream whose result is still to be received. -/
def SupervisionState.awaits (s : SupervisionState) (stream : OutputStream) : ℕ :=
  if (s.captured stream).isNone ∧ s.pending.map PipeEvent.stream ≠ some stream then 1 else 0

/-- How many results are still to be received, and whether the readers may be gone. -/
def SupervisionState.results (s : SupervisionState) : ℕ :=
  s.awaits .stdout + s.awaits .stderr + if s.connected then 1 else 0

/-- How often the loop can wait until a time. -/
def pollsUntil (limit clock : ℕ) : ℕ := (limit + processPollInterval - clock) / processPollInterval

open Classical in
/-- How much time is left: until the child is stopped, or until its pipes are. -/
noncomputable def SupervisionState.time (deadline : ℕ) (s : SupervisionState) : ℕ :=
  if s.status.isNone then pollsUntil deadline s.clock + 204
  else if s.captured.Complete then 0
  else pollsUntil (s.drainDeadline.getD 0) s.clock + 1

theorem awaits_le {t : SupervisionState} {stream : OutputStream}
    (h : (t.captured stream).isNone = true → t.pending.map PipeEvent.stream ≠ some stream →
      (s.captured stream).isNone = true ∧ s.pending.map PipeEvent.stream ≠ some stream) :
    t.awaits stream ≤ s.awaits stream := by
  unfold SupervisionState.awaits
  split_ifs with ht hs
  · exact le_rfl
  · exact absurd (h ht.1 ht.2) hs
  · exact Nat.zero_le _
  · exact le_rfl

/-- What was captured stays captured. -/
theorem isNone_of_foldl_receive {events : List PipeEvent} {captured : Captured}
    {stream : OutputStream} (h : (events.foldl Captured.receive captured stream).isNone = true) :
    (captured stream).isNone = true ∧ stream ∉ events.map PipeEvent.stream := by
  rw [Option.isNone_iff_eq_none, ← Option.not_isSome_iff_eq_none] at h
  constructor
  · rw [Option.isNone_iff_eq_none, ← Option.not_isSome_iff_eq_none]
    exact fun hsome => h (isSome_foldl_receive (.inl hsome))
  · exact fun hmem => h (isSome_foldl_receive (.inr hmem))

theorem mem_pending_map {events : List PipeEvent} {stream : OutputStream}
    (h : stream ∉ (s.pending.toList ++ events).map PipeEvent.stream) :
    s.pending.map PipeEvent.stream ≠ some stream := by
  intro hpending
  obtain ⟨event, hevent, rfl⟩ := Option.map_eq_some_iff.mp hpending
  exact h (List.mem_map_of_mem (List.mem_append_left _ (Option.mem_toList.mpr hevent)))

/-- Waiting behind received results uses up a result, the connection, or time. -/
theorem results_waitForEvent {captured : Captured} (status : Option ℤ) (drainDeadline : Option ℕ)
    (hallowed : RoundAllowed pipes options s round)
    (hcaptured : ∀ stream, (captured stream).isNone = true → (s.captured stream).isNone = true ∧
      stream ∉ (s.pending.toList ++ round.polled).map PipeEvent.stream)
    (hfresh : ∀ event, round.next = .event event → (captured event.stream).isNone = true) :
    s.clock ≤ (waitForEvent (s.asked captured status drainDeadline) round).clock ∧
      (waitForEvent (s.asked captured status drainDeadline) round).results ≤ s.results ∧
      ((waitForEvent (s.asked captured status drainDeadline) round).results < s.results ∨
        s.clock + processPollInterval ≤
          (waitForEvent (s.asked captured status drainDeadline) round).clock) := by
  have hclock : s.clock ≤ round.drainClock :=
    hallowed.exitClock.trans (hallowed.deadlineClock.trans hallowed.drainClock)
  have hawaits : ∀ stream,
      (waitForEvent (s.asked captured status drainDeadline) round).awaits stream ≤
        s.awaits stream := by
    intro stream
    refine awaits_le fun hnone _ => ?_
    rw [waitForEvent_captured] at hnone
    obtain ⟨hopen, hnot⟩ := hcaptured stream hnone
    exact ⟨hopen, mem_pending_map hnot⟩
  have hout := hawaits .stdout
  have herr := hawaits .stderr
  have hconnected : (s.asked captured status drainDeadline).connected = s.connected := rfl
  rcases waitForEvent_cases (s.asked captured status drainDeadline) round with
    ⟨event, hnext, hpending, hsame, htime⟩ | ⟨_, htrue, hfalse, htime⟩ | ⟨_, hsame, htime⟩
  · have hopen := hfresh event hnext
    obtain ⟨hopenBefore, hnot⟩ := hcaptured event.stream hopen
    have hbefore : s.awaits event.stream = 1 := if_pos ⟨hopenBefore, mem_pending_map hnot⟩
    have hafter :
        (waitForEvent (s.asked captured status drainDeadline) round).awaits event.stream = 0 := by
      refine if_neg fun h => h.2 ?_
      rw [hpending]
      rfl
    have hless : (waitForEvent (s.asked captured status drainDeadline) round).results <
        s.results := by
      unfold SupervisionState.results
      rw [hsame, hconnected]
      cases hstream : event.stream with
      | stdout =>
        rw [hstream] at hbefore hafter
        omega
      | stderr =>
        rw [hstream] at hbefore hafter
        omega
    exact ⟨htime ▸ hclock, hless.le, .inl hless⟩
  · have hless : (waitForEvent (s.asked captured status drainDeadline) round).results <
        s.results := by
      unfold SupervisionState.results
      rw [hfalse, ← hconnected, htrue, if_pos rfl, if_neg Bool.false_ne_true]
      omega
    exact ⟨htime ▸ hclock, hless.le, .inl hless⟩
  · have hle : (waitForEvent (s.asked captured status drainDeadline) round).results ≤
        s.results := by
      unfold SupervisionState.results
      rw [hsame, hconnected]
      omega
    rw [htime]
    exact ⟨hclock.trans (Nat.le_add_right _ _), hle, .inr (Nat.add_le_add_right hclock _)⟩

/-- Time passes, and less of it is left. -/
theorem pollsUntil_le (limit : ℕ) {clock clock' : ℕ} (h : clock ≤ clock') :
    pollsUntil limit clock' ≤ pollsUntil limit clock := by
  unfold pollsUntil
  exact Nat.div_le_div_right (Nat.sub_le_sub_left h _)

theorem pollsUntil_lt {limit clock clock' : ℕ} (hlimit : clock < limit)
    (h : clock + processPollInterval ≤ clock') :
    pollsUntil limit clock' < pollsUntil limit clock := by
  unfold pollsUntil processPollInterval at *
  omega

theorem time_of_none {limit : ℕ} (h : s.status = none) :
    s.time limit = pollsUntil limit s.clock + 204 := by
  unfold SupervisionState.time
  rw [h]
  exact if_pos rfl

theorem time_of_complete {limit : ℕ} (h : s.status.isSome = true)
    (hcomplete : s.captured.Complete) :
    s.time limit = 0 := by
  unfold SupervisionState.time
  rw [if_neg, if_pos hcomplete]
  rw [Option.isNone_iff_eq_none, ← ne_eq, ← Option.isSome_iff_ne_none]
  exact h

theorem time_of_incomplete {limit : ℕ} (h : s.status.isSome = true)
    (hcomplete : ¬s.captured.Complete) :
    s.time limit = pollsUntil (s.drainDeadline.getD 0) s.clock + 1 := by
  unfold SupervisionState.time
  rw [if_neg, if_neg hcomplete]
  rw [Option.isNone_iff_eq_none, ← ne_eq, ← Option.isSome_iff_ne_none]
  exact h

/-- Waiting does not go back before the child was found to be over. -/
theorem exitClock_le_waitForEvent (t : SupervisionState)
    (h : round.exitClock ≤ round.drainClock) :
    round.exitClock ≤ (waitForEvent t round).clock := by
  rcases waitForEvent_cases t round with ⟨_, _, _, _, htime⟩ | ⟨_, _, _, htime⟩ | ⟨_, _, htime⟩
  · rwa [htime]
  · rwa [htime]
  · rw [htime]
    exact h.trans (Nat.le_add_right _ _)

/-- The time for draining is short. -/
theorem pollsUntil_drain {exitClock clock : ℕ} (h : exitClock ≤ clock) :
    pollsUntil (exitClock + outputDrainGrace) clock ≤ 201 := by
  unfold pollsUntil outputDrainGrace processPollInterval
  omega

/-- A round that goes on comes closer to the end. -/
theorem superviseRound_closer {limit : ℕ} (hinv : SupervisionInv pipes options s)
    (hallowed : RoundAllowed pipes options s round)
    (h : superviseRound options commandName (some limit) s round = .inl s') :
    s'.results + s'.time limit < s.results + s.time limit := by
  rcases superviseRound_cases options commandName (some limit) s round with
    ⟨outcome, hround, _⟩ | ⟨status, drainDeadline, hround, _, hstatus⟩
  · cases h.symm.trans hround
  have hcaptured : ∀ stream,
      ((s.pending.toList ++ round.polled).foldl Captured.receive s.captured stream).isNone = true →
        (s.captured stream).isNone = true ∧
          stream ∉ (s.pending.toList ++ round.polled).map PipeEvent.stream :=
    fun stream hnone => isNone_of_foldl_receive hnone
  have hnew : ∀ event, round.next = .event event →
      event.stream ∉ (s.pending.toList ++ (round.polled ++ round.collected)).map
        PipeEvent.stream := by
    intro event hnext hmem
    have honce := hallowed.once
    unfold SupervisionRound.events at honce
    rw [hnext] at honce
    dsimp only at honce
    rw [← List.append_assoc, List.map_append, List.nodup_append] at honce
    exact honce.2.2 _ hmem _ (by simp) rfl
  have hopen : ∀ event, round.next = .event event → (s.captured event.stream).isNone = true := by
    intro event hnext
    rw [Option.isNone_iff_eq_none]
    exact hallowed.fresh event (List.mem_append_right _ (mem_events_of_next hnext))
  have hkeep : ∀ (events : List PipeEvent) (captured : Captured) (stream : OutputStream),
      (captured stream).isNone = true → stream ∉ events.map PipeEvent.stream →
        (events.foldl Captured.receive captured stream).isNone = true := by
    intro events
    induction events with
    | nil => exact fun captured stream hnone _ => hnone
    | cons event events ih =>
      intro captured stream hnone hnot
      rw [List.map_cons, List.mem_cons, not_or] at hnot
      refine ih _ stream ?_ hnot.2
      unfold Captured.receive
      rwa [Function.update_of_ne hnot.1]
  have hfresh : ∀ event, round.next = .event event →
      ((s.pending.toList ++ round.polled).foldl Captured.receive s.captured
        event.stream).isNone = true := by
    intro event hnext
    refine hkeep _ _ _ (hopen event hnext) fun hmem => hnew event hnext ?_
    rw [← List.append_assoc, List.map_append]
    exact List.mem_append_left _ hmem
  have hclock : s.clock ≤ round.deadlineClock := hallowed.exitClock.trans hallowed.deadlineClock
  have hincomplete :
      ¬((s.pending.toList ++ round.polled).foldl Captured.receive s.captured).Complete →
        ¬s.captured.Complete :=
    fun hnot hcomplete => hnot fun stream => isSome_foldl_receive (.inl (hcomplete stream))
  have hclocks : round.exitClock ≤ round.drainClock :=
    hallowed.deadlineClock.trans hallowed.drainClock
  rcases superviseStatus_inl (hround.symm.trans h) with
    ⟨hnone, hearly, rfl⟩ | ⟨hsome, hnot, hearly, rfl⟩ | ⟨hsome, hnot, hcomplete, _, rfl⟩
  · -- the child runs
    obtain ⟨hclock', hle, hless⟩ :=
      results_waitForEvent status drainDeadline hallowed hcaptured hfresh
    have hnone' : status = none := hnone
    have hbefore : s.status = none := by
      rcases hstatus with ⟨_, hstatus, _⟩ | ⟨hstatus, _⟩
      · rw [← hstatus, hnone']
      · exact hstatus
    have hlimit : s.clock < limit := hclock.trans_lt (hearly limit rfl)
    rw [time_of_none hbefore, time_of_none (waitForEvent_status.trans hnone)]
    have hpolls := pollsUntil_le limit hclock'
    rcases hless with hless | hlater
    · omega
    · have hfewer := pollsUntil_lt hlimit hlater
      omega
  · -- the child is over, and its pipes are not
    obtain ⟨hclock', hle, hless⟩ :=
      results_waitForEvent status drainDeadline hallowed hcaptured hfresh
    have hsome' : status.isSome = true := hsome
    have hafter : (waitForEvent (s.asked
        ((s.pending.toList ++ round.polled).foldl Captured.receive s.captured) status
          drainDeadline) round).time limit = pollsUntil (drainDeadline.getD 0) (waitForEvent
            (s.asked ((s.pending.toList ++ round.polled).foldl Captured.receive s.captured) status
              drainDeadline) round).clock + 1 := by
      rw [time_of_incomplete (by rwa [waitForEvent_status]) (by rwa [waitForEvent_captured]),
        waitForEvent_drainDeadline]
      rfl
    rw [hafter]
    rcases hstatus with ⟨hwas, rfl, rfl⟩ | ⟨hwas, rfl⟩
    · obtain ⟨drain, hdrain⟩ := Option.isSome_iff_exists.mp (hinv.drainDeadline hwas)
      have hdrainClock : round.drainClock < drain := hearly drain hdrain
      have hget : s.drainDeadline.getD 0 = drain := by
        rw [hdrain]
        rfl
      rw [time_of_incomplete hwas (hincomplete hnot), hget]
      have hpolls := pollsUntil_le drain hclock'
      rcases hless with hless | hlater
      · omega
      · have hbefore : s.clock < drain := (hallowed.exitClock.trans hclocks).trans_lt hdrainClock
        have hfewer := pollsUntil_lt hbefore hlater
        omega
    · obtain ⟨code, rfl⟩ := Option.isSome_iff_exists.mp hsome'
      rw [time_of_none hwas, Option.map_some, Option.getD_some]
      have hlate := exitClock_le_waitForEvent (s.asked
        ((s.pending.toList ++ round.polled).foldl Captured.receive s.captured) (some code)
          ((some code).map fun _ => round.exitClock + outputDrainGrace)) hclocks
      have hgrace := pollsUntil_drain hlate
      rw [Option.map_some] at hgrace hle
      omega
  · -- the pipes are drained
    have hcollected : ∀ stream,
        (round.collected.foldl Captured.receive ((s.pending.toList ++ round.polled).foldl
          Captured.receive s.captured) stream).isNone = true → (s.captured stream).isNone = true ∧
            stream ∉ (s.pending.toList ++ round.polled).map PipeEvent.stream := by
      intro stream hnone
      exact hcaptured stream (isNone_of_foldl_receive hnone).1
    have hnext : ∀ event, round.next = .event event →
        (round.collected.foldl Captured.receive ((s.pending.toList ++ round.polled).foldl
          Captured.receive s.captured) event.stream).isNone = true := by
      intro event hnext
      refine hkeep _ _ _ (hfresh event hnext) fun hmem => hnew event hnext ?_
      rw [← List.append_assoc, List.map_append]
      exact List.mem_append_right _ hmem
    obtain ⟨_, hle, _⟩ := results_waitForEvent status drainDeadline hallowed hcollected hnext
    have hzero : (waitForEvent (s.asked (round.collected.foldl Captured.receive
        ((s.pending.toList ++ round.polled).foldl Captured.receive s.captured)) status
          drainDeadline) round).time limit = 0 := by
      refine time_of_complete ?_ ?_
      · rwa [waitForEvent_status]
      · rwa [waitForEvent_captured]
    have hleft : 0 < s.time limit := by
      cases hwas : s.status with
      | none =>
        rw [time_of_none hwas]
        omega
      | some code =>
        rw [time_of_incomplete (by rw [hwas]; rfl) (hincomplete hnot)]
        omega
    have hrest : (waitForEvent (s.asked (round.collected.foldl Captured.receive
        ((s.pending.toList ++ round.polled).foldl Captured.receive s.captured)) status
          drainDeadline) round).results + 0 < s.results + s.time limit := by
      omega
    rw [← hzero] at hrest
    exact hrest

/-- With a deadline the loop returns, after so many rounds that nothing is left. -/
theorem SupervisionInv.returns {limit : ℕ} {rounds : List SupervisionRound}
    (hinv : SupervisionInv pipes options s)
    (hallowed : RoundsAllowed pipes options commandName (some limit) s rounds)
    (hlong : s.results + s.time limit < rounds.length) :
    (supervise options commandName (some limit) s rounds).isSome = true := by
  induction rounds generalizing s with
  | nil => exact absurd hlong (Nat.not_lt_zero _)
  | cons round rounds ih =>
    obtain ⟨hround, hrest⟩ := hallowed
    unfold supervise
    cases hstep : superviseRound options commandName (some limit) s round with
    | inl next =>
      have hcloser := superviseRound_closer hinv hround hstep
      rw [List.length_cons] at hlong
      exact ih (hinv.step hround hstep) (hrest next hstep) (by omega)
    | inr outcome => rfl

/-- How much is left at first. -/
theorem SupervisionState.start_left {clock timeout : ℕ} :
    (SupervisionState.start pipes clock).results +
      (SupervisionState.start pipes clock).time (clock + timeout) ≤ timeout / 10 + 208 := by
  have hawaits : ∀ stream, (SupervisionState.start pipes clock).awaits stream ≤ 1 := by
    intro stream
    unfold SupervisionState.awaits
    split_ifs
    · exact le_rfl
    · exact Nat.zero_le _
  have hresults : (SupervisionState.start pipes clock).results ≤ 3 := by
    have hout := hawaits .stdout
    have herr := hawaits .stderr
    unfold SupervisionState.results
    split_ifs <;> omega
  have htime : (SupervisionState.start pipes clock).time (clock + timeout) =
      pollsUntil (clock + timeout) clock + 204 := time_of_none rfl
  have hpolls : pollsUntil (clock + timeout) clock = timeout / 10 + 1 := by
    unfold pollsUntil processPollInterval
    omega
  omega

/-! ## Runs -/

/-- A run of `wait_for_child`: the time at its start, and the rounds of its loop. -/
structure SupervisionRun (pipes : OutputStream → Option OutputPipe) (options : ChildProcessOptions)
    (commandName : String) where
  clock : ℕ
  rounds : List SupervisionRound
  allowed : RoundsAllowed pipes options commandName (options.timeout.map (clock + ·))
    (SupervisionState.start pipes clock) rounds

/-- What `wait_for_child` returns with. -/
def SupervisionRun.outcome (run : SupervisionRun pipes options commandName) :
    Option SupervisionOutcome :=
  waitForChild pipes options commandName run.clock run.rounds

/-- A round that finds nothing and cannot wait for the child. -/
def unwaitableRound : SupervisionRound where
  polled := []
  tryWait := .error "wait"
  exitClock := 0
  deadlineClock := 0
  drainClock := 0
  descendants := false
  stop := ⟨.ok none, .ok (), .ok 0⟩
  collected := []
  collectEnd := .complete
  next := .timeout

theorem unwaitableRound_allowed :
    RoundAllowed pipes options (SupervisionState.start pipes 0) unwaitableRound := by
  constructor
  · intro event hevent
    cases hevent
  · intro event hevent
    cases hevent
  · exact List.nodup_nil
  · exact le_rfl
  · exact le_rfl
  · exact le_rfl

/-- A pipe with two bytes on the standard output, and none on the other. -/
def closedPipe : OutputStream → Option OutputPipe
  | .stdout => some ⟨[[97], [98]], .closed⟩
  | .stderr => none

/-- A round that finds the bytes, and the child over. -/
def drainedRound : SupervisionRound :=
  { unwaitableRound with
    polled := [⟨.stdout, .ok ⟨[97], none⟩⟩]
    tryWait := .ok (some 0) }

theorem drainedRound_allowed :
    RoundAllowed closedPipe ⟨some 1000, fun _ => .truncate 1, false⟩
      (SupervisionState.start closedPipe 0) drainedRound := by
  constructor
  · intro event hevent
    obtain rfl := List.mem_singleton.mp hevent
    exact ⟨_, rfl, rfl⟩
  · intro event hevent
    obtain rfl := List.mem_singleton.mp hevent
    rfl
  · exact List.nodup_singleton _
  · exact le_rfl
  · exact le_rfl
  · exact le_rfl

end LfsCloud
