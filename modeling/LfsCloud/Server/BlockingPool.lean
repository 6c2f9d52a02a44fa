import LfsCloud.Server.TransferRules

/-!
# Uploads on a bounded blocking pool

One server process: its request permits, its pool of blocking threads, and the upload
handlers. Metadata operations and the wait for a lock file run on the pool, in the order
in which they were spawned; a handler that awaits one holds no thread itself. A client
may disconnect at any time, which drops the handler with all it holds, but not the task
that it has spawned.
-/

namespace LfsCloud

open Transition Interaction

variable {ι : Type}

/-- The calls that run as a task on the blocking pool. -/
def ServerCall.blocking : ServerCall → Bool
  | .startTransferAttempt _ => true
  | .finishTransferAttempt _ _ => true
  | .lookupMetadata _ => true
  | .markObjectStale _ _ => true
  | .recordVerifiedObject _ _ _ => true
  | .stagingFile _ => true
  | .acquireObjectUploadLock _ => true
  | _ => false

/-- The remaining program of an upload handler. -/
abbrev UploadProg := Prog serverInterface (Except ServerError StoredObject)

/-- A `PUT` request. -/
structure PutRequest where
  repository : RepositoryMapping
  object : LfsObject
  runtime : ServerStorageProvider
  createdBy : RepositoryUser

/-- The handler of a request. -/
def PutRequest.handler (put : PutRequest) : UploadProg :=
  (handleLfsUploadRequest put.repository put.object 0 put.runtime put.createdBy).run

/-- Where a handler stands. -/
inductive HandlerState
  /-- The request has not arrived. -/
  | absent
  | ready (rest : UploadProg)
  /-- A task was spawned for the call. -/
  | awaiting (call : ServerCall) (next : serverInterface.Answer call → UploadProg)
  /-- Answered, turned away, or dropped. -/
  | gone

/-- A task on the blocking pool, with the handler that has spawned it. -/
structure BlockingTask (ι : Type) where
  owner : ι
  call : ServerCall

/-- The wait for a lock file. -/
def BlockingTask.isLockWait (task : BlockingTask ι) : Bool :=
  match task.call with
  | .acquireObjectUploadLock _ => true
  | _ => false

/-- The server process. -/
structure UploadServer (ι : Type) where
  shared : ServerState ι
  handler : ι → HandlerState
  /-- The lock that a handler holds a reference to. -/
  lockRef : ι → Option ℕ
  /-- The handlers that hold a request permit. -/
  active : Finset ι
  /-- Tasks without a thread, the oldest first. -/
  queue : List (BlockingTask ι)
  /-- Tasks on a thread. -/
  running : List (BlockingTask ι)

/-- The reference that a handler holds after a call. -/
def lockRefAfter (held : Option ℕ) : (c : ServerCall) → serverInterface.Answer c → Option ℕ
  | .uploadLockFor _ _, lock => some lock
  | .dropUploadLock _ _, _ => none
  | _, _ => held

section

variable [DecidableEq ι]

/-- What goes with a handler: its lock files are closed, its lock and the reference to it
are given up. -/
def ServerState.dropHandler (s : ServerState ι) (i : ι) (lockRef : Option ℕ) : ServerState ι :=
  let u := s.uploadLocks 0
  { s with
    fileLocks := fun stripe => if s.fileLocks stripe = some i then none else s.fileLocks stripe
    uploadLocks := Function.update s.uploadLocks 0 { u with
      holder := fun lock => if u.holder lock = some i then none else u.holder lock
      strongCount := match lockRef with
        | some lock => Function.update u.strongCount lock (u.strongCount lock - 1)
        | none => u.strongCount } }

/-- What can happen to the server. -/
inductive UploadEvent (ι : Type)
  | arrive (i : ι) (put : PutRequest)
  /-- The next call of a handler, which needs no thread. -/
  | step (i : ι)
  | spawn (i : ι)
  /-- A free thread takes the oldest task. -/
  | start
  /-- A task on a thread is done. -/
  | complete (i : ι)
  /-- A handler answers. -/
  | finish (i : ι)
  | disconnect (i : ι)

/-- The handler goes, and its permit is free. -/
def UploadServer.leave (s : UploadServer ι) (i : ι) : UploadServer ι :=
  { s with
    shared := s.shared.dropHandler i (s.lockRef i)
    handler := Function.update s.handler i .gone
    lockRef := Function.update s.lockRef i none
    active := s.active.erase i }

/-- A handler has the answer to its call. -/
def UploadServer.resume (s : UploadServer ι) (i : ι) (shared : ServerState ι)
    {c : ServerCall} (next : serverInterface.Answer c → UploadProg)
    (answer : serverInterface.Answer c) : UploadServer ι :=
  { s with
    shared := shared
    handler := Function.update s.handler i (.ready (next answer))
    lockRef := Function.update s.lockRef i (lockRefAfter (s.lockRef i) c answer) }

/-- The steps of a server with a number of threads and a request limit. -/
inductive UploadServer.Step (threads limit : ℕ) (sha256 : List UInt8 → List UInt8) :
    UploadServer ι → UploadEvent ι → UploadServer ι → Prop
  | enter {s i put} (habsent : s.handler i = .absent) (hpermit : s.active.card < limit) :
      Step threads limit sha256 s (.arrive i put)
        { s with
          handler := Function.update s.handler i (.ready put.handler)
          active := insert i s.active }
  | reject {s i put} (habsent : s.handler i = .absent) (hpermit : limit ≤ s.active.card) :
      Step threads limit sha256 s (.arrive i put)
        { s with handler := Function.update s.handler i .gone }
  | step {s i c next a shared} (hready : s.handler i = .ready (.call c next))
      (hblocking : c.blocking = false) (hop : serverOp sha256 i s.shared c a shared) :
      Step threads limit sha256 s (.step i) (s.resume i shared next a)
  | spawn {s i c next} (hready : s.handler i = .ready (.call c next))
      (hblocking : c.blocking = true) :
      Step threads limit sha256 s (.spawn i)
        { s with
          handler := Function.update s.handler i (.awaiting c next)
          queue := s.queue ++ [⟨i, c⟩] }
  | start {s task rest} (hqueue : s.queue = task :: rest) (hthread : s.running.length < threads) :
      Step threads limit sha256 s .start { s with queue := rest, running := task :: s.running }
  | complete {s i c next a shared l r}
      (hrunning : s.running = l ++ ⟨i, c⟩ :: r)
      (hawaiting : s.handler i = .awaiting c next)
      (hop : serverOp sha256 i s.shared c a shared) :
      Step threads limit sha256 s (.complete i)
        { s.resume i shared next a with running := l ++ r }
  /-- Nobody takes the result: it is dropped with what it holds. -/
  | discard {s i c a shared l r}
      (hrunning : s.running = l ++ ⟨i, c⟩ :: r) (hgone : s.handler i = .gone)
      (hop : serverOp sha256 i s.shared c a shared) :
      Step threads limit sha256 s (.complete i)
        { s with shared := shared.dropHandler i none, running := l ++ r }
  | finish {s i result} (hready : s.handler i = .ready (.done result)) :
      Step threads limit sha256 s (.finish i) (s.leave i)
  | disconnect {s i} (hactive : i ∈ s.active) :
      Step threads limit sha256 s (.disconnect i) (s.leave i)

/-- The server before any request has arrived. -/
def UploadServer.start (objects : MetadataObjects)
    (returned : List (MetadataObjectKey × StoredObject)) : UploadServer ι where
  shared := .new objects returned
  handler _ := .absent
  lockRef _ := none
  active := ∅
  queue := []
  running := []

/-- The server as a system. -/
def uploadServerSystem (threads limit : ℕ) (sha256 : List UInt8 → List UInt8) :
    System (UploadServer ι) (UploadEvent ι) where
  init s := ∃ objects returned, s = .start objects returned
  step := UploadServer.Step threads limit sha256

end

end LfsCloud
