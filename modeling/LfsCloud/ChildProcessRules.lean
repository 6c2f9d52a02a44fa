import LfsCloud.ChildProcess

/-!
# What supervision of a child guarantees

The results that were received without an error are of pipes that were read to their end. Every
round that goes on uses up a result, the connection to the readers, or time.
-/

namespace LfsCloud

/-! ## Pipes -/

/-- What a policy retains of the data of a pipe. -/
def PipeCapture.retain (policy : PipeCapture) (data : List UInt8) : List UInt8 :=
  match policy with
  | .unlimited => data
  | .truncate limit => data.take limit
  | .hardLimit limit => data.take limit

/-- The data is not more than a hard limit. -/
def PipeCapture.Within (policy : PipeCapture) (data : List UInt8) : Prop :=
  ∀ limit, policy = .hardLimit limit → data.length ≤ limit

theorem take_append_take (data chunk : List UInt8) (limit : ℕ) :
    data.take limit ++ chunk.take (limit - (data.take limit).length) =
      (data ++ chunk).take limit := by
  rw [List.take_append, List.length_take]
  congr 2
  omega

/-- A result without an error is of a pipe that was read to its end, within the limit. Another one
has what was retained of a part of the data. -/
theorem readPipe_eq_some {policy : PipeCapture} {ending : PipeEnd} {chunks : List (List UInt8)}
    {data : List UInt8} (hwithin : policy.Within data) {output : PipeReadResult}
    (h : readPipe policy ending chunks (policy.retain data) = some (.ok output)) :
    (output.exceededLimit = none → ending = .closed ∧
      output.bytes = policy.retain (data ++ chunks.flatten) ∧
        policy.Within (data ++ chunks.flatten)) ∧
    ∃ part, part <+: data ++ chunks.flatten ∧ output.bytes = policy.retain part := by
  induction chunks generalizing data with
  | nil =>
    cases ending with
    | closed =>
      obtain rfl := Except.ok.inj (Option.some.inj h)
      rw [List.flatten_nil, List.append_nil]
      exact ⟨fun _ => ⟨rfl, rfl, hwithin⟩, data, List.prefix_rfl, rfl⟩
    | failed source => cases Option.some.inj h
    | never => cases h
  | cons chunk chunks ih =>
    have hflatten : data ++ (chunk :: chunks).flatten = data ++ chunk ++ chunks.flatten := by
      rw [List.flatten_cons, List.append_assoc]
    rw [hflatten]
    cases policy with
    | unlimited => exact ih (fun limit hlimit => by cases hlimit) h
    | truncate limit =>
      have hretain := take_append_take data chunk limit
      unfold readPipe at h
      simp only [PipeCapture.retain] at h ih ⊢
      rw [hretain] at h
      exact ih (fun limit hlimit => by cases hlimit) h
    | hardLimit limit =>
      have hlength := hwithin limit rfl
      unfold readPipe at h
      simp only [PipeCapture.retain, List.take_of_length_le hlength] at h ih ⊢
      split at h
      · obtain rfl := Except.ok.inj (Option.some.inj h)
        refine ⟨fun hnone => (by cases hnone), data ++ chunk, List.prefix_append _ _, ?_⟩
        rw [List.take_append, List.take_of_length_le hlength]
      · next hfits =>
        have hlonger : (data ++ chunk).length ≤ limit := by
          rw [List.length_append]
          omega
        refine ih (fun limit' hlimit => ?_) ?_
        · cases hlimit
          exact hlonger
        · rwa [List.take_of_length_le hlonger]

/-- The data of a pipe. -/
def OutputPipe.data (pipe : OutputPipe) : List UInt8 := pipe.chunks.flatten

variable {pipes : OutputStream → Option OutputPipe} {options : ChildProcessOptions}
  {commandName : String} {deadline : Option ℕ}

/-- The pipe of a stream was read to its end, within the limit, and this is what is retained. -/
def StreamDrained (pipes : OutputStream → Option OutputPipe) (options : ChildProcessOptions)
    (stream : OutputStream) (bytes : List UInt8) : Prop :=
  match pipes stream with
  | none => bytes = []
  | some pipe => pipe.ending = .closed ∧ bytes = (options.capture stream).retain pipe.data ∧
      (options.capture stream).Within pipe.data

/-- This is what is retained of a part of the data of a stream. -/
def StreamRetained (pipes : OutputStream → Option OutputPipe) (options : ChildProcessOptions)
    (stream : OutputStream) (bytes : List UInt8) : Prop :=
  ∃ part, part <+: (pipes stream).elim [] OutputPipe.data ∧
    bytes = (options.capture stream).retain part

theorem PipeCapture.retain_nil {policy : PipeCapture} : policy.retain [] = [] := by
  cases policy <;> simp [PipeCapture.retain]

theorem StreamRetained.nil {stream : OutputStream} : StreamRetained pipes options stream [] :=
  ⟨[], List.nil_prefix, PipeCapture.retain_nil.symm⟩

theorem StreamDrained.retained {stream : OutputStream} {bytes : List UInt8}
    (h : StreamDrained pipes options stream bytes) : StreamRetained pipes options stream bytes := by
  unfold StreamDrained at h
  cases hpipe : pipes stream with
  | none =>
    rw [hpipe] at h
    exact h ▸ StreamRetained.nil
  | some pipe =>
    rw [hpipe] at h
    exact ⟨pipe.data, by rw [hpipe]; exact List.prefix_rfl, h.2.1⟩

/-- A result comes from the reader of a pipe. -/
def PipeEvent.SentBy (event : PipeEvent) (pipes : OutputStream → Option OutputPipe)
    (options : ChildProcessOptions) : Prop :=
  ∃ pipe, pipes event.stream = some pipe ∧
    pipe.result (options.capture event.stream) = some event.result

theorem OutputPipe.result_eq_some {pipe : OutputPipe} {policy : PipeCapture}
    {output : PipeReadResult} (h : pipe.result policy = some (.ok output)) :
    (output.exceededLimit = none → pipe.ending = .closed ∧
      output.bytes = policy.retain pipe.data ∧ policy.Within pipe.data) ∧
    ∃ part, part <+: pipe.data ∧ output.bytes = policy.retain part := by
  have hstart : readPipe policy pipe.ending pipe.chunks (policy.retain []) = some (.ok output) := by
    rw [PipeCapture.retain_nil]
    exact h
  have hwithin : policy.Within [] := fun limit _ => Nat.zero_le limit
  exact readPipe_eq_some hwithin hstart

/-- What a reader without an error has read is the whole. -/
theorem PipeEvent.SentBy.drained {event : PipeEvent} (h : event.SentBy pipes options)
    (herror : event.error commandName = none) :
    StreamDrained pipes options event.stream event.bytes := by
  obtain ⟨pipe, hpipe, hresult⟩ := h
  unfold StreamDrained
  rw [hpipe]
  unfold PipeEvent.error at herror
  unfold PipeEvent.bytes
  cases hsent : event.result with
  | error source =>
    rw [hsent] at herror
    cases herror
  | ok output =>
    rw [hsent] at herror hresult
    exact (OutputPipe.result_eq_some hresult).1 (Option.map_eq_none_iff.mp herror)

/-- What a reader sends is retained of a part. -/
theorem PipeEvent.SentBy.retained {event : PipeEvent} (h : event.SentBy pipes options) :
    StreamRetained pipes options event.stream event.bytes := by
  obtain ⟨pipe, hpipe, hresult⟩ := h
  unfold PipeEvent.bytes
  cases hsent : event.result with
  | error source => exact StreamRetained.nil
  | ok output =>
    rw [hsent] at hresult
    obtain ⟨part, hpart, hbytes⟩ := (OutputPipe.result_eq_some hresult).2
    exact ⟨part, by rw [hpipe]; exact hpart, hbytes⟩

/-! ## Results -/

/-- Results that were accepted had no error. -/
theorem acceptPipeEvents_eq_none {events : List PipeEvent} {captured captured' : Captured}
    (h : acceptPipeEvents commandName events captured = (captured', none)) :
    captured' = events.foldl Captured.receive captured ∧
      ∀ event ∈ events, event.error commandName = none := by
  induction events generalizing captured with
  | nil =>
    obtain ⟨rfl, _⟩ := Prod.mk.inj h
    exact ⟨rfl, fun event hevent => absurd hevent List.not_mem_nil⟩
  | cons event events ih =>
    unfold acceptPipeEvents at h
    cases herror : event.error commandName with
    | some error =>
      rw [herror] at h
      cases (Prod.mk.inj h).2
    | none =>
      rw [herror] at h
      obtain ⟨hcaptured, hall⟩ := ih h
      exact ⟨hcaptured, List.forall_mem_cons.mpr ⟨herror, hall⟩⟩

/-- The error of a result is not that the time is up. -/
theorem PipeEvent.error_ne_timedOut {event : PipeEvent} {timeout : ℕ} {stdout stderr : List UInt8} :
    event.error commandName ≠ some (.timedOut timeout stdout stderr) := by
  unfold PipeEvent.error
  cases event.result with
  | error source => exact fun h => ChildProcessError.noConfusion (Option.some.inj h)
  | ok output =>
    cases output with
    | mk bytes exceededLimit =>
      cases exceededLimit with
      | none =>
        intro h
        cases h
      | some limit => exact fun h => ChildProcessError.noConfusion (Option.some.inj h)

/-- The error that stops accepting is the one of a result. -/
theorem acceptPipeEvents_eq_some {events : List PipeEvent} {captured captured' : Captured}
    {error : ChildProcessError}
    (h : acceptPipeEvents commandName events captured = (captured', some error)) :
    ∃ event ∈ events, event.error commandName = some error := by
  induction events generalizing captured with
  | nil => cases (Prod.mk.inj h).2
  | cons event events ih =>
    unfold acceptPipeEvents at h
    cases herror : event.error commandName with
    | some found =>
      rw [herror] at h
      obtain ⟨_, hfound⟩ := Prod.mk.inj h
      exact ⟨event, List.mem_cons_self, herror.trans hfound⟩
    | none =>
      rw [herror] at h
      obtain ⟨found, hmem, hfound⟩ := ih h
      exact ⟨found, List.mem_cons_of_mem _ hmem, hfound⟩

/-- The error of collecting is the one of a result. -/
theorem collectPipeEvents_eq_some {events : List PipeEvent} {captured : Captured}
    {error : ChildProcessError}
    (h : (collectPipeEvents commandName events captured).2 = some error) :
    ∃ event ∈ events, event.error commandName = some error := by
  induction events generalizing captured with
  | nil => cases h
  | cons event events ih =>
    have hor : (event.error commandName).or
        (collectPipeEvents commandName events (captured.receive event)).2 = some error := h
    rcases Option.or_eq_some_iff.mp hor with hfirst | ⟨_, hrest⟩
    · exact ⟨event, List.mem_cons_self, hfirst⟩
    · obtain ⟨found, hmem, hfound⟩ := ih hrest
      exact ⟨found, List.mem_cons_of_mem _ hmem, hfound⟩

/-- Results that are collected are all received. -/
theorem collectPipeEvents_fst {events : List PipeEvent} {captured : Captured} :
    (collectPipeEvents commandName events captured).1 =
      events.foldl Captured.receive captured := by
  induction events generalizing captured with
  | nil => rfl
  | cons event events ih => exact ih

/-- No error means that none of them had one. -/
theorem collectPipeEvents_snd {events : List PipeEvent} {captured : Captured}
    (h : (collectPipeEvents commandName events captured).2 = none) :
    ∀ event ∈ events, event.error commandName = none := by
  induction events generalizing captured with
  | nil => exact fun event hevent => absurd hevent List.not_mem_nil
  | cons event events ih =>
    have hor : (event.error commandName).or
        (collectPipeEvents commandName events (captured.receive event)).2 = none := h
    obtain ⟨hfirst, hrest⟩ := Option.or_eq_none_iff.mp hor
    exact List.forall_mem_cons.mpr ⟨hfirst, ih hrest⟩

/-- What holds of the bytes that are received, and of the results, holds of all. -/
theorem foldl_receive_sound {P : OutputStream → List UInt8 → Prop} {events : List PipeEvent}
    {captured : Captured}
    (hcaptured : ∀ stream bytes, captured stream = some bytes → P stream bytes)
    (hevents : ∀ event ∈ events, P event.stream event.bytes) :
    ∀ stream bytes, events.foldl Captured.receive captured stream = some bytes →
      P stream bytes := by
  induction events generalizing captured with
  | nil => exact hcaptured
  | cons event events ih =>
    obtain ⟨hevent, hrest⟩ := List.forall_mem_cons.mp hevents
    refine ih (fun stream bytes hbytes => ?_) hrest
    unfold Captured.receive at hbytes
    by_cases hstream : stream = event.stream
    · rw [hstream, Function.update_self] at hbytes
      rw [hstream, ← Option.some.inj hbytes]
      exact hevent
    · rw [Function.update_of_ne hstream] at hbytes
      exact hcaptured stream bytes hbytes

/-- A result is not lost. -/
theorem isSome_foldl_receive {events : List PipeEvent} {captured : Captured} {stream : OutputStream}
    (h : (captured stream).isSome ∨ stream ∈ events.map PipeEvent.stream) :
    (events.foldl Captured.receive captured stream).isSome = true := by
  induction events generalizing captured with
  | nil => exact h.resolve_right List.not_mem_nil
  | cons event events ih =>
    refine ih ?_
    unfold Captured.receive
    by_cases hstream : stream = event.stream
    · rw [hstream, Function.update_self]
      exact .inl rfl
    · rw [Function.update_of_ne hstream]
      rcases h with hcaptured | hmem
      · exact .inl hcaptured
      · exact .inr ((List.mem_cons.mp hmem).resolve_left hstream)

/-! ## Rounds -/

/-- The results that a round may receive. -/
def SupervisionRound.events (round : SupervisionRound) : List PipeEvent :=
  round.polled ++ round.collected ++
    match round.next with
    | .event event => [event]
    | _ => []

/-- What a round may find: each result comes from the reader of its stream, once, and the clock
does not go back. -/
structure RoundAllowed (pipes : OutputStream → Option OutputPipe) (options : ChildProcessOptions)
    (s : SupervisionState) (round : SupervisionRound) : Prop where
  sent : ∀ event ∈ round.events, event.SentBy pipes options
  fresh : ∀ event ∈ s.pending.toList ++ round.events, s.captured event.stream = none
  once : ((s.pending.toList ++ round.events).map PipeEvent.stream).Nodup
  exitClock : s.clock ≤ round.exitClock
  deadlineClock : round.exitClock ≤ round.deadlineClock
  drainClock : round.deadlineClock ≤ round.drainClock

/-- The rounds of a loop, each of them allowed after those before it. -/
def RoundsAllowed (pipes : OutputStream → Option OutputPipe) (options : ChildProcessOptions)
    (commandName : String) (deadline : Option ℕ) : SupervisionState → List SupervisionRound → Prop
  | _, [] => True
  | s, round :: rounds => RoundAllowed pipes options s round ∧
    ∀ s', superviseRound options commandName deadline s round = .inl s' →
      RoundsAllowed pipes options commandName deadline s' rounds

/-- What is known before a round. -/
structure SupervisionInv (pipes : OutputStream → Option OutputPipe) (options : ChildProcessOptions)
    (s : SupervisionState) : Prop where
  drained : ∀ stream bytes, s.captured stream = some bytes →
    StreamDrained pipes options stream bytes
  pending : ∀ event ∈ s.pending, event.SentBy pipes options
  drainDeadline : s.status.isSome = true → s.drainDeadline.isSome = true

/-- The system calls for a child succeed. -/
structure CallsSucceed (round : SupervisionRound) : Prop where
  tryWait : round.tryWait.toOption.isSome = true
  stop : ∀ commandName status, terminateProcessTree commandName status round.stop = .ok ()

/-- What a return guarantees. -/
structure SupervisionSound (pipes : OutputStream → Option OutputPipe)
    (options : ChildProcessOptions) (outcome : SupervisionOutcome) : Prop where
  success : ∀ output, outcome.result = .ok output →
    StreamDrained pipes options .stdout output.stdout ∧
      StreamDrained pipes options .stderr output.stderr
  timedOut : ∀ timeout stdout stderr, outcome.result = .error (.timedOut timeout stdout stderr) →
    StreamRetained pipes options .stdout stdout ∧ StreamRetained pipes options .stderr stderr

/-- A return leaves no child that was not reaped and no reader that might have been waited for. -/
structure SupervisionSettled (outcome : SupervisionOutcome) : Prop where
  reaped : outcome.reaped = true
  readers : ∀ stream, outcome.readers stream ≠ .left

theorem readersAfter_ne_left {captured : Captured} {collectEnd : CollectEnd}
    {stream : OutputStream} : readersAfter captured collectEnd stream ≠ .left := by
  unfold readersAfter
  split_ifs
  · exact ReaderFate.noConfusion
  · cases collectEnd <;> exact ReaderFate.noConfusion

section Round

variable {s : SupervisionState} {round : SupervisionRound}

/-- A return with an error other than that the time is up. -/
def SupervisionOutcome.Failed (outcome : SupervisionOutcome) : Prop :=
  ∃ error, outcome.result = .error error ∧
    ∀ timeout stdout stderr, error ≠ .timedOut timeout stdout stderr

theorem SupervisionOutcome.Failed.sound {outcome : SupervisionOutcome} (h : outcome.Failed) :
    SupervisionSound pipes options outcome := by
  obtain ⟨error, hresult, hne⟩ := h
  constructor
  · intro output hok
    cases hok.symm.trans hresult
  · intro timeout stdout stderr htimedOut
    exact absurd (Except.error.inj (hresult.symm.trans htimedOut)) (hne _ _ _)

/-- Stopping the child settles everything when the calls succeed. -/
theorem settled_stopAndReturn {captured : Captured} {status : Option ℤ}
    {error : Captured → ChildProcessError} (hcalls : CallsSucceed round) :
    SupervisionSettled (stopAndReturn commandName captured status round error) := by
  unfold stopAndReturn
  rw [hcalls.stop]
  exact ⟨rfl, fun stream => readersAfter_ne_left⟩

/-- The error of stopping is one of a call. -/
theorem terminateProcessTree_error {status : Option ℤ} {calls : StopCalls}
    {error : ChildProcessError}
    (h : terminateProcessTree commandName status calls = .error error) :
    ∃ context source, error = .io context source := by
  unfold terminateProcessTree at h
  split at h
  · cases h
  · split at h
    · exact ⟨_, _, (Except.error.inj h).symm⟩
    · cases h
    · split at h
      · exact ⟨_, _, (Except.error.inj h).symm⟩
      · split at h
        · exact ⟨_, _, (Except.error.inj h).symm⟩
        · cases h

variable (commandName round) in
/-- What stopping the child returns with. -/
theorem stopAndReturn_result (captured : Captured) (status : Option ℤ)
    (error : Captured → ChildProcessError) :
    (stopAndReturn commandName captured status round error).Failed ∨
      (stopAndReturn commandName captured status round error).result =
        .error (error (round.collected.foldl Captured.receive captured)) := by
  unfold stopAndReturn
  cases hstop : terminateProcessTree commandName status round.stop with
  | error stopError =>
    obtain ⟨context, source, rfl⟩ := terminateProcessTree_error hstop
    exact .inl ⟨_, rfl, fun _ _ _ => ChildProcessError.noConfusion⟩
  | ok _ =>
    refine .inr ?_
    dsimp only
    rw [collectPipeEvents_fst]

/-- The variables after the results were accepted and the child was asked for. -/
def SupervisionState.asked (s : SupervisionState) (captured : Captured) (status : Option ℤ)
    (drainDeadline : Option ℕ) : SupervisionState :=
  { s with captured := captured, pending := none, status := status, drainDeadline := drainDeadline }

variable (options commandName deadline s round) in
/-- How a round comes to look at the status: the results were accepted without an error. -/
theorem superviseRound_cases :
    (∃ outcome, superviseRound options commandName deadline s round = .inr outcome ∧
      outcome.Failed ∧ (CallsSucceed round → SupervisionSettled outcome)) ∨
    ∃ status drainDeadline, superviseRound options commandName deadline s round =
        superviseStatus options commandName deadline
          (s.asked ((s.pending.toList ++ round.polled).foldl Captured.receive s.captured) status
            drainDeadline) round ∧
      (∀ event ∈ s.pending.toList ++ round.polled, event.error commandName = none) ∧
      ((s.status.isSome = true ∧ status = s.status ∧ drainDeadline = s.drainDeadline) ∨
        s.status = none ∧
          drainDeadline = status.map fun _ => round.exitClock + outputDrainGrace) := by
  unfold superviseRound
  cases haccept : acceptPipeEvents commandName (s.pending.toList ++ round.polled) s.captured with
  | mk captured error =>
    cases error with
    | some error =>
      refine .inl ⟨_, rfl, ?_, settled_stopAndReturn⟩
      rcases stopAndReturn_result commandName round captured s.status fun _ => error with
        hfailed | hresult
      · exact hfailed
      · obtain ⟨event, _, herror⟩ := acceptPipeEvents_eq_some haccept
        exact ⟨error, hresult, fun _ _ _ h => PipeEvent.error_ne_timedOut (h ▸ herror)⟩
    | none =>
      obtain ⟨rfl, herrors⟩ := acceptPipeEvents_eq_none haccept
      cases hstatus : s.status with
      | some status =>
        refine .inr ⟨s.status, s.drainDeadline, ?_, herrors, .inl ⟨rfl, hstatus, rfl⟩⟩
        dsimp only
        rw [hstatus]
        rfl
      | none =>
        dsimp only
        cases htry : round.tryWait with
        | error source =>
          refine .inl ⟨_, rfl, ⟨_, rfl, fun _ _ _ => ChildProcessError.noConfusion⟩, ?_⟩
          intro hcalls
          have hsome := hcalls.tryWait
          rw [htry] at hsome
          cases hsome
        | ok status => exact .inr ⟨status, _, rfl, herrors, .inr ⟨rfl, rfl⟩⟩

/-- Everything was received. -/
def Captured.Complete (captured : Captured) : Prop := ∀ stream, (captured stream).isSome = true

/-- A return at the status of the child is sound, and settled when the calls succeed. -/
theorem superviseStatus_inr {outcome : SupervisionOutcome}
    (hdrained : ∀ stream bytes, s.captured stream = some bytes →
      StreamDrained pipes options stream bytes)
    (hsent : ∀ event ∈ round.collected, event.SentBy pipes options)
    (h : superviseStatus options commandName deadline s round = .inr outcome) :
    SupervisionSound pipes options outcome ∧ (CallsSucceed round → SupervisionSettled outcome) := by
  unfold superviseStatus at h
  split at h
  · next status stdout stderr _ hstdout hstderr =>
    obtain rfl := Sum.inr.inj h
    refine ⟨⟨fun output hok => ?_, fun _ _ _ herror => (by cases herror)⟩,
      fun _ => ⟨rfl, fun _ => ReaderFate.noConfusion⟩⟩
    obtain rfl := Except.ok.inj hok
    exact ⟨hdrained _ _ hstdout, hdrained _ _ hstderr⟩
  · split at h
    · split_ifs at h
      obtain rfl := Sum.inr.inj h
      refine ⟨?_, settled_stopAndReturn⟩
      rcases stopAndReturn_result commandName round s.captured s.status fun captured =>
          .timedOut (options.timeout.getD 0) ((captured .stdout).getD [])
            ((captured .stderr).getD []) with hfailed | hresult
      · exact hfailed.sound
      · have hretained : ∀ stream bytes,
            round.collected.foldl Captured.receive s.captured stream = some bytes →
              StreamRetained pipes options stream bytes :=
          foldl_receive_sound (fun stream bytes hbytes => (hdrained _ _ hbytes).retained)
            fun event hevent => (hsent event hevent).retained
        have hgetD : ∀ stream, StreamRetained pipes options stream
            ((round.collected.foldl Captured.receive s.captured stream).getD []) := by
          intro stream
          cases hbytes : round.collected.foldl Captured.receive s.captured stream with
          | none => exact StreamRetained.nil
          | some bytes => exact hretained stream bytes hbytes
        refine ⟨fun output hok => ?_, fun timeout stdout stderr herror => ?_⟩
        · cases hok.symm.trans hresult
        · obtain ⟨_, rfl, rfl⟩ :=
            ChildProcessError.timedOut.inj (Except.error.inj (herror.symm.trans hresult))
          exact ⟨hgetD .stdout, hgetD .stderr⟩
    · cases h
  · split_ifs at h with hdrain
    dsimp only at h
    cases herror : (collectPipeEvents commandName round.collected s.captured).2 with
    | some error =>
      rw [herror] at h
      obtain rfl := Sum.inr.inj h
      obtain ⟨event, _, hevent⟩ := collectPipeEvents_eq_some herror
      have hfailed : SupervisionOutcome.Failed ⟨.error error, true, readersAfter
          (collectPipeEvents commandName round.collected s.captured).1 round.collectEnd⟩ :=
        ⟨error, rfl, fun _ _ _ h => PipeEvent.error_ne_timedOut (h ▸ hevent)⟩
      exact ⟨hfailed.sound, fun _ => ⟨rfl, fun stream => readersAfter_ne_left⟩⟩
    | none =>
      rw [herror] at h
      dsimp only at h
      split_ifs at h
      obtain rfl := Sum.inr.inj h
      have hfailed : SupervisionOutcome.Failed ⟨.error .inheritedPipe, true, readersAfter
          (collectPipeEvents commandName round.collected s.captured).1 round.collectEnd⟩ :=
        ⟨_, rfl, fun _ _ _ => ChildProcessError.noConfusion⟩
      exact ⟨hfailed.sound, fun _ => ⟨rfl, fun stream => readersAfter_ne_left⟩⟩

/-- How the loop goes on: the child runs and its time is not up; or it is over, a result is missing
and the time for draining is not up; or everything was drained. -/
theorem superviseStatus_inl {s' : SupervisionState}
    (h : superviseStatus options commandName deadline s round = .inl s') :
    (s.status = none ∧ (∀ d ∈ deadline, round.deadlineClock < d) ∧ s' = waitForEvent s round) ∨
    (s.status.isSome = true ∧ ¬s.captured.Complete ∧
      (∀ d ∈ s.drainDeadline, round.drainClock < d) ∧ s' = waitForEvent s round) ∨
    s.status.isSome = true ∧ ¬s.captured.Complete ∧
      (round.collected.foldl Captured.receive s.captured).Complete ∧
      (∀ event ∈ round.collected, event.error commandName = none) ∧
      s' = waitForEvent
        { s with captured := round.collected.foldl Captured.receive s.captured } round := by
  unfold superviseStatus at h
  split at h
  · cases h
  · next hstatus =>
    refine .inl ⟨hstatus, ?_⟩
    split at h
    · next d hdeadline =>
      split_ifs at h with hreached
      refine ⟨fun d' hd' => ?_, (Sum.inl.inj h).symm⟩
      rw [Option.mem_some_iff.mp hd'] at hreached
      omega
    · exact ⟨fun d' hd' => (by cases hd'), (Sum.inl.inj h).symm⟩
  · next status hstatus hnot =>
    have hopen : ¬s.captured.Complete := by
      intro hcomplete
      obtain ⟨stdout, hstdout⟩ := Option.isSome_iff_exists.mp (hcomplete .stdout)
      obtain ⟨stderr, hstderr⟩ := Option.isSome_iff_exists.mp (hcomplete .stderr)
      exact hnot stdout stderr hstdout hstderr
    have hsome : s.status.isSome = true := by
      rw [hstatus]
      rfl
    split_ifs at h with hdrain
    · dsimp only at h
      cases herror : (collectPipeEvents commandName round.collected s.captured).2 with
      | some error =>
        rw [herror] at h
        cases h
      | none =>
        rw [herror] at h
        dsimp only at h
        split_ifs at h with hmissing
        rw [collectPipeEvents_fst] at h hmissing
        simp only [not_or, Option.isNone_iff_eq_none, ← ne_eq, ← Option.isSome_iff_ne_none]
          at hmissing
        refine .inr (.inr ⟨hsome, hopen, ?_, collectPipeEvents_snd herror, (Sum.inl.inj h).symm⟩)
        intro stream
        cases stream
        · exact hmissing.1
        · exact hmissing.2.1
    · refine .inr (.inl ⟨hsome, hopen, fun d hd => ?_, (Sum.inl.inj h).symm⟩)
      obtain ⟨_, hlate⟩ := not_or.mp hdrain
      rw [Option.mem_def.mp hd] at hlate
      simpa using hlate

end Round

end LfsCloud
