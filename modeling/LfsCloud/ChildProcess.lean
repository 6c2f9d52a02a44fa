import Mathlib.Tactic

/-!
# Waiting for a child process

A child runs with up to two output pipes, each read by a thread of its own. The loop that waits for
it looks at the results of the readers, at the child, at the clock and at the process tree, in this
order, and waits a moment for another result.
-/

namespace LfsCloud

/-! ## Reading a pipe -/

/-- `PipeCapture`. -/
inductive PipeCapture
  | unlimited
  | truncate (limit : ℕ)
  | hardLimit (limit : ℕ)
  deriving DecidableEq

/-- `PipeReadResult`. -/
structure PipeReadResult where
  bytes : List UInt8
  exceededLimit : Option ℕ
  deriving DecidableEq

/-- How a pipe ends: it is closed, a read fails, or it stays open or its reader is lost. -/
inductive PipeEnd
  | closed
  | failed (source : String)
  | never
  deriving DecidableEq

/-- What the reads of a pipe give: chunks of bytes, and then its end. -/
structure OutputPipe where
  chunks : List (List UInt8)
  ending : PipeEnd

/-- `read_pipe`, with the bytes that are retained so far; no result means that it is not over. -/
def readPipe (policy : PipeCapture) (ending : PipeEnd) :
    List (List UInt8) → List UInt8 → Option (Except String PipeReadResult)
  | [], bytes =>
    match ending with
    | .closed => some (.ok ⟨bytes, none⟩)
    | .failed source => some (.error source)
    | .never => none
  | chunk :: chunks, bytes =>
    match policy with
    | .unlimited => readPipe policy ending chunks (bytes ++ chunk)
    | .truncate limit => readPipe policy ending chunks (bytes ++ chunk.take (limit - bytes.length))
    | .hardLimit limit =>
      let remaining := limit - bytes.length
      if remaining < chunk.length then some (.ok ⟨bytes ++ chunk.take remaining, some limit⟩)
      else readPipe policy ending chunks (bytes ++ chunk)

/-- The result that the reader of a pipe sends. -/
def OutputPipe.result (pipe : OutputPipe) (policy : PipeCapture) :
    Option (Except String PipeReadResult) :=
  readPipe policy pipe.ending pipe.chunks []

/-! ## The loop -/

/-- The two output streams. -/
inductive OutputStream
  | stdout
  | stderr
  deriving DecidableEq

/-- `ChildProcessOptions`; times are in milliseconds. -/
structure ChildProcessOptions where
  timeout : Option ℕ
  capture : OutputStream → PipeCapture
  inheritedPipeIsError : Bool

/-- `PipeEvent`: the result of a reader. -/
structure PipeEvent where
  stream : OutputStream
  result : Except String PipeReadResult

/-- `ChildProcessError`. -/
inductive ChildProcessError
  | io (context source : String)
  | timedOut (timeout : ℕ) (stdout stderr : List UInt8)
  | outputLimit (stream : OutputStream) (limit : ℕ)
  | inheritedPipe
  deriving DecidableEq

/-- `ChildProcessOutput`, with the exit code for the status. -/
structure ChildProcessOutput where
  status : ℤ
  stdout : List UInt8
  stderr : List UInt8
  deriving DecidableEq

/-- `OUTPUT_DRAIN_GRACE`. -/
def outputDrainGrace : ℕ := 2000

/-- `PROCESS_POLL_INTERVAL`. -/
def processPollInterval : ℕ := 10

/-- What has been received of each stream. -/
abbrev Captured := OutputStream → Option (List UInt8)

/-- The name of a stream in an error. -/
def OutputStream.name : OutputStream → String
  | .stdout => "stdout"
  | .stderr => "stderr"

/-- The error in the result of a reader. -/
def PipeEvent.error (commandName : String) (event : PipeEvent) : Option ChildProcessError :=
  match event.result with
  | .error source =>
    some (.io ("failed to read " ++ event.stream.name ++ " from " ++ commandName) source)
  | .ok output => output.exceededLimit.map (.outputLimit event.stream)

/-- The bytes in the result of a reader. -/
def PipeEvent.bytes (event : PipeEvent) : List UInt8 :=
  match event.result with
  | .error _ => []
  | .ok output => output.bytes

/-- A result is received. -/
def Captured.receive (captured : Captured) (event : PipeEvent) : Captured :=
  Function.update captured event.stream (some event.bytes)

/-- `accept_pipe_event` for one result after the other, up to the first error. -/
def acceptPipeEvents (commandName : String) :
    List PipeEvent → Captured → Captured × Option ChildProcessError
  | [], captured => (captured, none)
  | event :: events, captured =>
    match event.error commandName with
    | some error => (captured.receive event, some error)
    | none => acceptPipeEvents commandName events (captured.receive event)

/-- `collect_pipe_events` for the results that arrive in time: all of them, and the first error. -/
def collectPipeEvents (commandName : String) :
    List PipeEvent → Captured → Captured × Option ChildProcessError
  | [], captured => (captured, none)
  | event :: events, captured =>
    let (captured, error) := collectPipeEvents commandName events (captured.receive event)
    (captured, (event.error commandName).or error)

/-- Why collecting is over: everything is there, the time is up, or the readers are gone. -/
inductive CollectEnd
  | complete
  | deadline
  | disconnected
  deriving DecidableEq

/-- What the calls return that stop a child and its descendants. -/
structure StopCalls where
  tryWait : Except String (Option ℤ)
  kill : Except String Unit
  wait : Except String ℤ

/-- What becomes of waiting for a result. -/
inductive WaitEnd
  | event (event : PipeEvent)
  | timeout
  | disconnected

/-- What one round of the loop finds: the results that are there, the child, the clock when it is
read, the descendants, what the calls return, and the results that arrive while it waits. -/
structure SupervisionRound where
  polled : List PipeEvent
  tryWait : Except String (Option ℤ)
  exitClock : ℕ
  deadlineClock : ℕ
  drainClock : ℕ
  descendants : Bool
  stop : StopCalls
  collected : List PipeEvent
  collectEnd : CollectEnd
  next : WaitEnd

/-- The variables of the loop; the clock is the time at which a round begins, at least. -/
structure SupervisionState where
  clock : ℕ
  status : Option ℤ
  drainDeadline : Option ℕ
  captured : Captured
  pending : Option PipeEvent
  connected : Bool

/-- What becomes of the reader of a stream: it was joined, or had none to join; it was over, but not
joined; it was abandoned when the time for draining was up; or it was left before. -/
inductive ReaderFate
  | joined
  | over
  | abandoned
  | left
  deriving DecidableEq

/-- What the loop returns with, and what it leaves behind. -/
structure SupervisionOutcome where
  result : Except ChildProcessError ChildProcessOutput
  reaped : Bool
  readers : OutputStream → ReaderFate

/-- What becomes of the readers after collecting: `join_completed_reader` for each. -/
def readersAfter (captured : Captured) (collectEnd : CollectEnd) (stream : OutputStream) :
    ReaderFate :=
  if (captured stream).isSome then .joined
  else match collectEnd with
    | .deadline => .abandoned
    | _ => .over

/-- `terminate_process_tree`; a child that was seen to exit is found so again. -/
def terminateProcessTree (commandName : String) (status : Option ℤ) (calls : StopCalls) :
    Except ChildProcessError Unit :=
  match status with
  | some _ => .ok ()
  | none =>
    match calls.tryWait with
    | .error source => .error (.io ("failed to wait for stopped " ++ commandName) source)
    | .ok (some _) => .ok ()
    | .ok none =>
      match calls.kill with
      | .error source => .error (.io ("failed to stop " ++ commandName) source)
      | .ok () =>
        match calls.wait with
        | .error source => .error (.io ("failed to reap stopped " ++ commandName) source)
        | .ok _ => .ok ()

section Loop

variable (options : ChildProcessOptions) (commandName : String) (deadline : Option ℕ)

/-- The child is stopped, what arrives in time is collected, and an error is returned. -/
def stopAndReturn (captured : Captured) (status : Option ℤ) (round : SupervisionRound)
    (error : Captured → ChildProcessError) : SupervisionOutcome :=
  match terminateProcessTree commandName status round.stop with
  | .error stopError => ⟨.error stopError, status.isSome, fun _ => .left⟩
  | .ok () =>
    let (captured, _) := collectPipeEvents commandName round.collected captured
    ⟨.error (error captured), true, readersAfter captured round.collectEnd⟩

/-- The end of a round: a moment is waited for another result. -/
def waitForEvent (s : SupervisionState) (round : SupervisionRound) : SupervisionState :=
  if s.connected then
    match round.next with
    | .event event => { s with clock := round.drainClock, pending := some event }
    | .timeout => { s with clock := round.drainClock + processPollInterval, pending := none }
    | .disconnected => { s with clock := round.drainClock, pending := none, connected := false }
  else { s with clock := round.drainClock + processPollInterval, pending := none }

/-- A round after the results were accepted and the status of the child is known. -/
def superviseStatus (s : SupervisionState) (round : SupervisionRound) :
    SupervisionState ⊕ SupervisionOutcome :=
  match s.status, s.captured .stdout, s.captured .stderr with
  | some status, some stdout, some stderr =>
    .inr ⟨.ok ⟨status, stdout, stderr⟩, true, fun _ => .joined⟩
  | none, _, _ =>
    match deadline with
    | some deadline =>
      if deadline ≤ round.deadlineClock then
        .inr (stopAndReturn commandName s.captured s.status round fun captured =>
          .timedOut (options.timeout.getD 0) ((captured .stdout).getD [])
            ((captured .stderr).getD []))
      else .inl (waitForEvent s round)
    | none => .inl (waitForEvent s round)
  | some _, _, _ =>
    if round.descendants ∨ s.drainDeadline.any (· ≤ round.drainClock) then
      let (captured, error) := collectPipeEvents commandName round.collected s.captured
      match error with
      | some error => .inr ⟨.error error, true, readersAfter captured round.collectEnd⟩
      | none =>
        if (captured .stdout).isNone ∨ (captured .stderr).isNone ∨
            options.inheritedPipeIsError = true then
          .inr ⟨.error .inheritedPipe, true, readersAfter captured round.collectEnd⟩
        else .inl (waitForEvent { s with captured := captured } round)
    else .inl (waitForEvent s round)

/-- One round of the loop in `wait_for_child`. -/
def superviseRound (s : SupervisionState) (round : SupervisionRound) :
    SupervisionState ⊕ SupervisionOutcome :=
  match acceptPipeEvents commandName (s.pending.toList ++ round.polled) s.captured with
  | (captured, some error) =>
    .inr (stopAndReturn commandName captured s.status round fun _ => error)
  | (captured, none) =>
    match s.status with
    | some _ =>
      superviseStatus options commandName deadline { s with captured := captured, pending := none }
        round
    | none =>
      match round.tryWait with
      | .error source =>
        .inr ⟨.error (.io ("failed to wait for " ++ commandName) source), false, fun _ => .left⟩
      | .ok status =>
        superviseStatus options commandName deadline
          { s with
            captured := captured
            pending := none
            status := status
            drainDeadline := status.map fun _ => round.exitClock + outputDrainGrace } round

/-- The loop in `wait_for_child`; no outcome means that it goes on. -/
def supervise : SupervisionState → List SupervisionRound → Option SupervisionOutcome
  | _, [] => none
  | s, round :: rounds =>
    match superviseRound options commandName deadline s round with
    | .inl s => supervise s rounds
    | .inr outcome => some outcome

end Loop

/-- The variables before the loop. -/
def SupervisionState.start (pipes : OutputStream → Option OutputPipe) (clock : ℕ) :
    SupervisionState where
  clock := clock
  status := none
  drainDeadline := none
  captured stream := if (pipes stream).isNone then some [] else none
  pending := none
  connected := true

/-- `wait_for_child`. -/
def waitForChild (pipes : OutputStream → Option OutputPipe) (options : ChildProcessOptions)
    (commandName : String) (clock : ℕ) (rounds : List SupervisionRound) :
    Option SupervisionOutcome :=
  supervise options commandName (options.timeout.map (clock + ·))
    (SupervisionState.start pipes clock) rounds

end LfsCloud
