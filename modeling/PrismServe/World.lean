import PrismServe.Lib.TaskPool
import PrismServe.Scheduler.SequenceState
import PrismServe.Scheduler.TransferGovernor
import PrismServe.Gateway.OutputBuffer

/-!
# The shared state of the serving process

All components of the gateway live in one event loop and share one state,
`World`.  A program of the process is a coroutine over it: it awaits calls to
workers, to the message queue and to the clock, and the environment answers.

The answers of collaborators that are called without awaiting (identifiers
drawn from `uuid4`, the routing decisions for a request, the result of handing
a transfer to a legacy client) are fixed in advance by the settings, one for
each use.  The history records, without influencing anything, the points of a
run that the statements about whole runs refer to.
-/

namespace PrismServe

open Lib

/-! ## Messages and replies -/

inductive Subject
  | prefillDone
  | suffixPrefillDone
  | recomputeDone
  | firstToken
  | decodeProgress
  | decodeDone
  deriving DecidableEq, Repr

/-- The `first_token` entry of a prefill completion. -/
inductive FirstToken
  | integer (token : Int)
  | other
  deriving DecidableEq, Repr

/--
A message of a worker.  `origin` is the serial number of the request for which
the worker produced it; no code reads it.
-/
structure Message where
  origin : Nat
  reqId : Option String := none
  operationId : Option String := none
  instanceEpoch : Option String := none
  kvSizeBytes : Option Int := none
  firstToken : FirstToken := .other
  tokenIds : Option (List Int) := none
  outputSeqNo : Option Int := none
  deriving DecidableEq, Repr

/-- Answer to an authoritative output query; `origin` as in a message. -/
structure OutputReply where
  origin : Nat
  reqId : Option String
  instanceEpoch : Option String
  operationId : Option String
  tokenIds : Option (List Int)
  outputSeqNo : Option Int
  terminal : Bool
  error : Option String
  deriving DecidableEq, Repr

inductive EndpointState
  | completed
  | fenced
  | prepared
  | running
  | unknown
  deriving DecidableEq, Repr

/-- Answer to an exact-reference status query. -/
structure EndpointStatus where
  state : EndpointState
  resourcesHeld : Bool
  /-- The kinds one by one, or the type of a value that cannot be iterated. -/
  heldResourceKinds : Except String (List String) := .ok []
  deriving DecidableEq, Repr

/-- The object with which a worker acknowledges a finalise call; no code reads it. -/
structure FinalizeSnapshot where
  body : String
  deriving DecidableEq, Repr

inductive MappedTransferStatus
  | prepared
  | running
  | completed
  | fenced
  | unknown
  deriving DecidableEq, Repr

inductive PrefixOperationStatus
  | prepared
  | committed
  | aborted
  | unknown
  deriving DecidableEq, Repr

structure CachedPrefixDecision where
  sourceInstance : String
  sourceEpoch : String
  decodeInstance : String
  cachedPrefixBlocks : Nat
  deriving DecidableEq, Repr

/-- One-shot fault of a dispatch in the correctness harness. -/
inductive FaultKind
  | natsDrop
  | natsDuplicate
  | natsPublishUnknown
  deriving DecidableEq, Repr

/-- What the body of a chat request asks for; an absent id is empty. -/
structure ChatRequest where
  requestId : String := ""
  stream : Bool := false
  hasFingerprint : Bool := false
  correctnessPath : String := ""
  correctnessSourceInstance : String := ""
  correctnessTargetInstance : String := ""
  deriving DecidableEq, Repr

inductive RefKind
  | requestSource
  | requestPrepare
  | requestCommit
  | transferTarget
  | transferSource
  | prefixResolve
  | prefixPrepare
  | prefixCommit
  | suffix
  deriving DecidableEq, Repr

structure PredicateSnapshot where
  name : RefKind
  status : EndpointState
  endpointRef : EndpointRef
  resourcesHeld : Bool := true
  deriving DecidableEq, Repr

structure EndpointFinalizePlan where
  instanceId : String
  endpointRefs : List EndpointRef
  resourceKinds : List String
  deriving DecidableEq, Repr

/-- A release plan: the references that must be terminal and the endpoints to finalise. -/
structure CleanupPlan where
  cleanupId : String
  operationId : String
  leaseId : Nat
  predicates : List PredicateSnapshot
  endpoints : List EndpointFinalizePlan
  deriving DecidableEq, Repr

/-- The calls at which a program suspends. -/
inductive Call
  | entry
  | sleep
  | cleanupPause (operationId : String)
  | reconcilePause (operationId : String)
  | join
  | chunk (client : Nat)
  | prepareRequest (target reqId : String)
  | faultCheckpoint (reqId : String)
  | faultAuthority (reqId : String)
  | publish (instanceId reqId : String)
  | publishSuffix (instanceId operationId : String)
  | abortRequest (instanceId reqId : String)
  | abortTransfer (src dst reqId operationId : String)
  | resetToWaiting (instanceId reqId : String)
  | endpointAbort (kind : RefKind) (ref : EndpointRef)
  | endpointStatus (ref : EndpointRef)
  | finalize (cleanupId operationId : String) (leaseId : Nat) (endpoint : EndpointFinalizePlan)
  | requestOutput (instanceId reqId : String) (cursor : Nat)
  | ncclGate (operationId : String)
  | prepareReceive (ref : EndpointRef)
  | startTransfer (ref : EndpointRef)
  | transferTerminal (operationId : String)
  | commitRequest (reqId : String)
  | resolvePrefix (source operationId : String)
  | preparePrefix (target operationId : String)
  | transferPrefix (operationId : String)
  | commitPrefix (target operationId : String)
  | abortMapped (operationId : String)
  | prefixStatus (target operationId : String)
  | abortPrefix (target operationId : String)
  | unpinPrefix (source operationId : String)
  | kvUsage
  | outputChange (ref : Nat)
  deriving DecidableEq, Repr

inductive Reply
  | ok
  | raised (e : Exc)
  | flag (b : Bool)
  | directive (fault : Option FaultKind)
  | counts (delivery execution : Nat)
  | status (s : EndpointStatus)
  | finalized (snapshot : FinalizeSnapshot)
  | output (o : OutputReply)
  | resolved (blocks : Option Nat)
  | mapped (s : MappedTransferStatus)
  | prefixed (s : PrefixOperationStatus)
  | usages (samples : List (String × Rat × String))
  deriving DecidableEq, Repr

/-- The tasks of the process next to the scheduling loop. -/
inductive Task
  | load (reqId operationId : String) (decision : CachedPrefixDecision)
  | recover (reqId operationId : String)
  | releaseSource (operationId : String)
  | transfer (task : TransferTask)
  | legacyCompletion (task : TransferTask)
  | chat (request : ChatRequest)
  | scrape
  deriving DecidableEq, Repr

/-! ## Components without a module of their own -/

inductive LoadStage
  | started
  | resolving
  | resolved
  | preparing
  | prepared
  | transferring
  | committing
  | committed
  deriving DecidableEq, Repr

/-- A cached-prefix load; `localReuse` is the mode of its plan once it has one. -/
structure PrefixLoadContext where
  operationId : String
  reqId : String
  sourceInstance : String
  targetInstance : String
  stage : LoadStage := .started
  localReuse : Option Bool := none
  sourcePinned : Bool := false
  deriving DecidableEq, Repr

inductive CleanupAction
  | aborted
  | committed
  | quarantined
  deriving DecidableEq, Repr

/-- Loads by operation, and the operations whose context, recovery or release is registered. -/
structure AffinityCoordinator where
  loads : Dict String PrefixLoadContext := Dict.empty
  contexts : List String := []
  recoveryTasks : List String := []
  sourceReleaseTasks : List String := []

/-- References and plans of the network control client and its release evaluator. -/
structure NetworkControl where
  activeOperationCap : Nat := 512
  terminalSnapshotCap : Nat := 4096
  workerEpochs : Dict String String := Dict.empty
  nextSequence : Dict String Nat := Dict.empty
  refs : Dict (RefKind × String × String) EndpointRef := Dict.empty
  attemptedRefs : List EndpointRef := []
  retiredOperations : List String := []
  cleanupPlans : Dict String CleanupPlan := Dict.empty
  normalTasks : List String := []
  ncclPoisoned : Bool := false
  completedEndpoint : Dict String (List FinalizeSnapshot) := Dict.empty
  activeEndpoint : Dict String CleanupPlan := Dict.empty
  endpointAcks : Dict (String × String) FinalizeSnapshot := Dict.empty

/--
What a chat client has been sent.  `ref` is the output state that was found at
its admission, `closedWith` the tokens of that state at the read that ended the
stream, and `heard` the requests whose workers had contributed to what it read;
no code reads the three.
-/
structure ClientView where
  serial : Option Nat := none
  ref : Option Nat := none
  delivered : List Int := []
  finishReason : Option String := none
  closedWith : List Int := []
  heard : List Nat := []
  deriving DecidableEq, Repr

/-- Result of handing a transfer to a legacy inference client. -/
inductive TransferResult
  | accepted
  | raised
  | completedInline
  deriving DecidableEq, Repr

/-- Which handler of a failed load ran. -/
inductive LoadFailure
  | loadError
  | otherError
  deriving DecidableEq, Repr

/-- Points of a run, newest first in the history. -/
inductive Observation
  | cancelled
  | admitted (reqId : String) (serial : Nat) (retained : Bool)
  | slotAdopted (serial : Nat) (raised : Bool)
  | prepareRejected (serial : Nat)
  | prepareAmbiguous (serial : Nat)
  | prefillPublished (serial : Nat) (fault : Option FaultKind)
  | recomputeTriggered (serial : Nat)
  | recomputeRefused (serial : Nat)
  | cleanupEntered (serial : Nat) (state : SeqState) (assigned : Bool)
  | removedSilently (serial : Nat)
  | loadFailed (operationId : String) (failure : LoadFailure) (outcome : Option CleanupAction)
  | contextSettled (operationId : String) (action : CleanupAction)
  | outputApplied (reqId : String) (serial origin : Nat)
  | endedCleanly (ref : Nat)
  | spoiled (ref : Nat)
  | decodeDonePolled (serial : Nat) (state : SeqState) (before : Option OutputState)
      (commits : Bool)
  | decodeDoneTaken (serial : Nat) (kept : Bool)
  | lostOutput (client : Nat)
  | readAfterRemoval (client cursor : Nat)
  deriving DecidableEq, Repr

/--
The state of the process.  `contributors` lists for each output state the
requests for which workers produced what was committed to it; like the history
it is only written.
-/
structure World where
  now : Time := 0
  scheduler : PDScheduler := {}
  tracker : RequestTracker := RequestTracker.empty
  governor : TransferGovernor := {}
  output : OutputBuffer := OutputBuffer.empty 512 4096 (by decide) (by decide)
  coordinator : AffinityCoordinator := {}
  control : NetworkControl := {}
  inbox : Subject → List Message := fun _ => []
  clients : Nat → ClientView := fun _ => {}
  clientCount : Nat := 0
  contributors : Nat → List Nat := fun _ => []
  uuidCount : Nat := 0
  routeCount : Nat := 0
  dispatchCount : Nat := 0
  transferCount : Nat := 0
  history : List Observation := []

/--
Configuration of the process and the answers of its synchronous collaborators.
Loops that the source leaves unbounded end after `rounds` rounds in a task that
never resumes; every statement below is about every number of rounds.
-/
structure Settings where
  rounds : Nat
  network : Bool
  affinityEnabled : Bool
  ownerId : String
  kvTransferTimeout : Time := 30
  prefillTimeout : Time := 30
  recomputeTimeout : Time := 30
  decodeTimeout : Time := 300
  suffixPrefillTimeout : Time := 30
  maxDispatchAttempts : Nat := 3
  outputQueryInterval : Time := 1
  localityWait : Time := 20
  prefixOperationWatchdog : Time := 30
  uuid : Nat → String
  uuid_injective : Function.Injective uuid
  uuid_ne_empty : ∀ n, uuid n ≠ ""
  routes : Nat → List CachedPrefixDecision
  transferResult : Nat → TransferResult

/-! ## Programs -/

abbrev Loop := Prog World Call Reply Exc Task

abbrev Process := Sys World Task

namespace Loop

variable {α : Type}

def observe (o : Observation) : Loop Unit :=
  .modify fun w => { w with history := o :: w.history }

/-- A conditional statement. -/
def when (b : Bool) (p : Loop Unit) : Loop Unit := if b then p else .ret ()

theorem when_atomic {b : Bool} {p : Loop Unit} (h : p.Atomic) : (when b p).Atomic := by
  unfold when
  split
  · exact h
  · trivial

/-- Await a call; a reply that is no answer to it never comes. -/
def call (c : Call) (answer : Reply → Option α) : Loop α :=
  .await c fun r =>
    match r with
    | .raised .deadline => .cut
    | .raised .cancelled => (observe .cancelled).bind fun _ => .raise .cancelled
    | .raised e => .raise e
    | r => (answer r).elim .cut .ret

/-- A call inside `asyncio.wait_for`, which may be cut short by the deadline. -/
def timedCall (c : Call) (answer : Reply → Option α) : Loop α :=
  .await c fun r =>
    match r with
    | .raised .cancelled => (observe .cancelled).bind fun _ => .raise .cancelled
    | .raised e => .raise e
    | r => (answer r).elim .cut .ret

/-- A sleep: nothing but a cancellation interrupts it. -/
def pause (c : Call) : Loop Unit :=
  .await c fun r =>
    match r with
    | .ok => .ret ()
    | .raised .cancelled => (observe .cancelled).bind fun _ => .raise .cancelled
    | _ => .cut

/-- A wait on a condition; the answer tells whether it was signalled before the deadline. -/
def timedWait (c : Call) : Loop Bool :=
  .await c fun r =>
    match r with
    | .ok => .ret true
    | .raised .deadline => .ret false
    | .raised .cancelled => (observe .cancelled).bind fun _ => .raise .cancelled
    | _ => .cut

/-- A call of code that runs both inside and outside of `asyncio.wait_for`. -/
def callIn (timed : Bool) (c : Call) (answer : Reply → Option α) : Loop α :=
  if timed then timedCall c answer else call c answer

/-- The deadline of `asyncio.wait_for` surfaces as a timeout. -/
def waitFor (p : Loop α) : Loop α :=
  p.rescue fun e => if e = .deadline then some (.raise .timeout) else none

/-- An `except Exception` clause. -/
def exceptException (p : Loop α) (handler : Exc → Loop α) : Loop α :=
  p.rescue fun e => if e.isException then some (handler e) else none

/-- Run a final statement however the program ends. -/
def finallyDo (p : Loop α) (final : Loop Unit) : Loop α :=
  (p.rescue fun e => some (final.bind fun _ => .raise e)).bind fun a =>
    final.bind fun _ => .ret a

/-- Let the other tasks run. -/
def switch : Loop Unit := .await .join fun _ => .ret ()

/-- Draw an identifier. -/
def mint (cfg : Settings) : Loop String := do
  let w ← Prog.read
  .modify fun w => { w with uuidCount := w.uuidCount + 1 }
  return cfg.uuid w.uuidCount

/-! Lifts of the components' methods. -/

def onTracker (f : Time → RequestTracker → Except Exc RequestTracker) : Loop Unit :=
  .attempt fun w =>
    match f w.now w.tracker with
    | .ok t => .ok ((), { w with tracker := t })
    | .error e => .error e

def transition (reqId : String) (new : SeqState)
    (kwargs : RequestInfo → RequestInfo) : Loop Unit :=
  onTracker fun now t => t.transition now reqId new kwargs

def remove (reqId : String) : Loop Unit :=
  .modify fun w => { w with tracker := w.tracker.remove reqId }

/-- Attribute assignments to a request object. -/
def assign (serial : Nat) (f : Time → RequestInfo → RequestInfo) : Loop Unit :=
  .modify fun w => { w with tracker := w.tracker.assign serial (f w.now) }

def onScheduler (f : Time → PDScheduler → Except Exc (α × PDScheduler)) : Loop α :=
  .attempt fun w =>
    match f w.now w.scheduler with
    | .ok (a, s) => .ok (a, { w with scheduler := s })
    | .error e => .error e

def onGovernor (f : TransferGovernor → TransferGovernor) : Loop Unit :=
  .modify fun w => { w with governor := f w.governor }

def onControl (f : NetworkControl → Except Exc (α × NetworkControl)) : Loop α :=
  .attempt fun w =>
    match f w.control with
    | .ok (a, c) => .ok (a, { w with control := c })
    | .error e => .error e

def onCoordinator (f : AffinityCoordinator → AffinityCoordinator) : Loop Unit :=
  .modify fun w => { w with coordinator := f w.coordinator }

/-- A method of the instance scheduler that cannot raise. -/
def onSchedulerPure (f : PDScheduler → PDScheduler) : Loop Unit :=
  .modify fun w => { w with scheduler := f w.scheduler }

def snapshot (reqId : String) : Loop OutputState :=
  .attempt fun w =>
    match w.output.snapshot reqId with
    | .ok (o, b) => .ok (o, { w with output := b })
    | .error e => .error e

def markResourceFree (reqId : String) : Loop Unit :=
  .attempt fun w =>
    match w.output.markResourceFree reqId with
    | .ok b => .ok ((), { w with output := b })
    | .error e => .error e

def recordFirstToken (reqId : String) : Loop Unit :=
  .modify fun w => { w with tracker := w.tracker.recordFirstToken w.now reqId }

/-- The current information of a request object. -/
def info (serial : Nat) : Loop RequestInfo :=
  Prog.read.bind fun w => .ret (w.tracker.info serial)

end Loop

namespace Reply

def okOnly : Reply → Option Unit
  | .ok => some ()
  | _ => none

def flagOnly : Reply → Option Bool
  | .flag b => some b
  | _ => none

def directiveOnly : Reply → Option (Option FaultKind)
  | .directive fault => some fault
  | _ => none

def countsOnly : Reply → Option (Nat × Nat)
  | .counts d e => some (d, e)
  | _ => none

def statusOnly : Reply → Option EndpointStatus
  | .status s => some s
  | _ => none

def finalizedOnly : Reply → Option FinalizeSnapshot
  | .finalized snapshot => some snapshot
  | _ => none

def outputOnly : Reply → Option OutputReply
  | .output o => some o
  | _ => none

def resolvedOnly : Reply → Option (Option Nat)
  | .resolved blocks => some blocks
  | _ => none

def mappedOnly : Reply → Option MappedTransferStatus
  | .mapped s => some s
  | _ => none

def prefixedOnly : Reply → Option PrefixOperationStatus
  | .prefixed s => some s
  | _ => none

def usagesOnly : Reply → Option (List (String × Rat × String))
  | .usages samples => some samples
  | _ => none

end Reply

end PrismServe
