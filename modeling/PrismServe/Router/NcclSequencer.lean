import PrismServe.Lib.AsyncLock
import PrismServe.Lib.Crew
import PrismServe.Router.OwnerTakeover

/-!
# Launching transfer pairs one after the other

`runNcclPair` takes the sequence lock, has the target prepare to receive, starts
the source and keeps the lock until both endpoints are seen terminal.  A response
that was lost is made up for by a query of the exact reference.  Whatever
exception or cancellation ends this section poisons the sequencer, and a pair
that gets the lock afterwards raises at once.

The state keeps a log of what the pairs did, which nothing reads.  The polling of
the two endpoints is a loop that is cut after `rounds` rounds.
-/

namespace PrismServe

open Lib

/-- One transfer, normal or of a cached prefix; every transfer has a serial of its own. -/
structure PairTask where
  serial : Nat
  sourceInstance : String
  sourceRef : EndpointOperationRef
  targetInstance : String
  targetRef : EndpointOperationRef
  /-- The request id in the payload of the source. -/
  reqId : String
  deriving DecidableEq, Repr

/-- What a pair did, for the record. -/
inductive NcclEvent
  /-- The target was called to prepare. -/
  | prepared (t : PairTask)
  /-- The source was called to start. -/
  | started (t : PairTask)
  /-- Both endpoints passed as terminal. -/
  | observed (t : PairTask) (source target : JsonObject)
  /-- The section was left with an exception. -/
  | left (t : PairTask)

structure NcclState where
  lock : AsyncLock PairTask := {}
  poisoned : Bool := false
  attemptedRefs : List EndpointOperationRef := []
  ambiguousRefs : List EndpointOperationRef := []
  correctnessRequired : List String := []
  /-- For the record. -/
  log : List NcclEvent := []

inductive PairCall
  | acquire
  | prepareReceive (instanceId : String) (ref : EndpointOperationRef)
  | startTransfer (instanceId : String) (ref : EndpointOperationRef)
  | operationRefStatus (instanceId : String) (ref : EndpointOperationRef)
  | checkpoint (name : String)
  /-- The two polls that are gathered. -/
  | poll (target source : EndpointOperationRef)
  deriving DecidableEq, Repr

inductive PairError
  | cancelled
  | ambiguous (ref : Option EndpointOperationRef)
  | runtime (message : String)
  | timeout (message : String)
  | other
  deriving DecidableEq, Repr

inductive PairReply
  | ok (value : JsonObject)
  | raised (e : PairError)
  /-- The poll of one endpoint was answered; the last flag tells that its deadline has passed. -/
  | polled (ofTarget : Bool) (value : JsonObject) (late : Bool)

abbrev Pair (α : Type) := Prog NcclState PairCall PairReply PairError Empty α

namespace NcclState

def markRefAttempted (ref : EndpointOperationRef) (s : NcclState) : NcclState :=
  { s with attemptedRefs := ref :: s.attemptedRefs }

def markRefAmbiguous (ref : EndpointOperationRef) (s : NcclState) : NcclState :=
  { s with attemptedRefs := ref :: s.attemptedRefs, ambiguousRefs := ref :: s.ambiguousRefs }

def record (e : NcclEvent) (s : NcclState) : NcclState := { s with log := s.log ++ [e] }

def onLock (f : AsyncLock PairTask → AsyncLock PairTask) (s : NcclState) : NcclState :=
  { s with lock := f s.lock }

/-- The section is left with an exception. -/
def poison (t : PairTask) (s : NcclState) : NcclState :=
  { s.record (.left t) with poisoned := true }

end NcclState

/-! ## What the endpoints answer -/

/-- The value is the dictionary of the reference. -/
def isRef (ref : EndpointOperationRef) (value : Option Json) : Bool :=
  match parseEndpointRef "" value with
  | .ok found => decide (found = ref)
  | .error _ => false

/-- `str(value.get("state", "UNKNOWN"))`, for the texts that matter. -/
def stateText (value : JsonObject) : String :=
  match value.lookup "state" with
  | none => "UNKNOWN"
  | some (.string s) => s
  | some _ => ""

def positiveCount : Option Json → Option Int
  | some (.integer n) => if 0 < n then some n else none
  | _ => none

def isFlag : Option Json → Bool
  | some (.bool _) => true
  | _ => false

def isTrue : Option Json → Bool
  | some (.bool true) => true
  | _ => false

/-- The result of a reconciled call shows that the launch was accepted. -/
def launchAuthority (result : JsonObject) : Bool :=
  (match result.lookup "pair_id" with
    | some value => !value.falsy
    | none => false) &&
    (positiveCount (result.lookup "completed_bytes")).isSome &&
    isFlag (result.lookup "work_terminal") && isFlag (result.lookup "cuda_terminal")

/-- The count that a value compares equal to. -/
def equalsCount (n : Int) : Option Json → Bool
  | some (.integer m) => decide (m = n)
  | some (.number q) => decide (q = n)
  | some (.bool b) => decide ((if b then 1 else 0) = n)
  | _ => false

/-- `_terminal_transfer_facts`: the bytes that both endpoints have completed. -/
def terminalTransferFacts (source target : JsonObject) : Except PairError Int :=
  if stateText source ≠ "COMPLETED" ∨ stateText target ≠ "COMPLETED" then
    .error (.runtime "transfer evidence requires two COMPLETED endpoints")
  else
    match source.lookup "result", target.lookup "result" with
    | some (.object sourceResult), some (.object targetResult) =>
      match positiveCount (sourceResult.lookup "completed_bytes") with
      | none => .error (.runtime "transfer endpoint completed bytes disagree")
      | some n =>
        if !equalsCount n (targetResult.lookup "completed_bytes") then
          .error (.runtime "transfer endpoint completed bytes disagree")
        else if isTrue (sourceResult.lookup "work_terminal") &&
            isTrue (targetResult.lookup "work_terminal") &&
            isTrue (sourceResult.lookup "cuda_terminal") &&
            isTrue (targetResult.lookup "cuda_terminal") then .ok n
        else .error (.runtime "transfer endpoint terminal proof is incomplete")
    | _, _ => .error (.runtime "transfer terminal result is missing")

/-! ## The section -/

namespace Pair

variable {α : Type}

def call (c : PairCall) : Pair JsonObject :=
  .await c fun reply =>
    match reply with
    | .ok value => .ret value
    | .raised e => .raise e
    | .polled _ _ _ => .raise .other

/-- `_reconcile_ambiguous_transfer_mutation`. -/
def reconcileAmbiguousTransferMutation (phase instanceId : String) (ref : EndpointOperationRef)
    (lost : Option EndpointOperationRef) : Pair JsonObject :=
  if lost ≠ some ref then
    .raise (.runtime (phase ++ " response loss referred to another endpoint ref"))
  else do
    let value ← call (.operationRefStatus instanceId ref)
    if !isRef ref (value.lookup "endpoint_ref") then
      .raise (.runtime (phase ++ " reconciliation returned another endpoint ref"))
    else if stateText value ∉ ["PREPARED", "RUNNING", "UNKNOWN", "COMPLETED"] then
      .raise (.runtime (phase ++ " reconciliation did not prove an accepted operation: " ++
        stateText value))
    else
      match value.lookup "result" with
      | some (.object result) =>
        if launchAuthority result then return value
        else .raise (.runtime (phase ++ " reconciliation lacks transfer launch authority"))
      | _ => .raise (.runtime (phase ++ " reconciliation lacks transfer launch authority"))

/-- A call that changes an endpoint; a lost response is reconciled. -/
def mutateEndpoint (phase instanceId : String) (ref : EndpointOperationRef) (c : PairCall) :
    Pair JsonObject :=
  (call c).rescue fun e =>
    match e with
    | .ambiguous lost => some (do
        Prog.modify (NcclState.markRefAmbiguous ref)
        reconcileAmbiguousTransferMutation phase instanceId ref lost)
    | _ => none

/-- A checkpoint of requests whose correctness evidence is required. -/
def checkpoint (t : PairTask) (name : String) : Pair Unit := do
  let s ← Prog.read
  if t.reqId ∈ s.correctnessRequired then do
    let _ ← call (.checkpoint name)
    return ()
  else return ()

/-- What one answer means for the poll of an endpoint: its terminal value, or go on. -/
def pollEndpoint (ref : EndpointOperationRef) (value : JsonObject) (late : Bool) :
    Except PairError (Option JsonObject) :=
  if ((value.lookup "state").map Json.unhashable).getD false then .error .other
  else if stateText value = "COMPLETED" then .ok (some value)
  else if stateText value = "FENCED" then
    .error (.runtime ("remote operation fenced: " ++ ref.operationId))
  else if late then
    .error (.timeout ("remote operation did not terminalize: " ++ ref.operationId))
  else .ok none

/-- Both endpoints are polled until they are completed; the first failure is raised. -/
def gatherTerminals (t : PairTask) :
    Nat → Option JsonObject → Option JsonObject → Pair (JsonObject × JsonObject)
  | _, some target, some source => .ret (target, source)
  | 0, _, _ => .cut
  | rounds + 1, target, source =>
    .await (.poll t.targetRef t.sourceRef) fun reply =>
      match reply with
      | .ok _ => gatherTerminals t rounds target source
      | .raised e => .raise e
      | .polled true value late =>
        match pollEndpoint t.targetRef value late with
        | .error e => .raise e
        | .ok found => gatherTerminals t rounds (target.or found) source
      | .polled false value late =>
        match pollEndpoint t.sourceRef value late with
        | .error e => .raise e
        | .ok found => gatherTerminals t rounds target (source.or found)

/-- From the first call to the target until both endpoints are terminal. -/
def launch (rounds : Nat) (t : PairTask) : Pair (JsonObject × JsonObject) := do
  Prog.modify (NcclState.markRefAttempted t.targetRef)
  Prog.modify (NcclState.record (.prepared t))
  let _ ← mutateEndpoint "target_prepare_receive" t.targetInstance t.targetRef
    (.prepareReceive t.targetInstance t.targetRef)
  checkpoint t "before_nccl_source_start"
  Prog.modify (NcclState.markRefAttempted t.sourceRef)
  Prog.modify (NcclState.record (.started t))
  let _ ← mutateEndpoint "source_start" t.sourceInstance t.sourceRef
    (.startTransfer t.sourceInstance t.sourceRef)
  checkpoint t "after_nccl_pair_mutations_accepted"
  let (target, source) ← gatherTerminals t rounds none none
  match terminalTransferFacts source target with
  | .error e => .raise e
  | .ok _ => do
      Prog.modify (NcclState.record (.observed t source target))
      return (target, source)

/-- The lock is taken at once, or when the turn comes; a waiting task may be cancelled. -/
def acquire (t : PairTask) : Pair Unit := do
  let s ← Prog.read
  if s.lock.free then Prog.modify (NcclState.onLock (·.seize t))
  else do
    Prog.modify (NcclState.onLock (·.enqueue t))
    .await .acquire fun reply => do
      let s ← Prog.read
      match reply with
      | .ok _ =>
        if s.lock.Woken t then Prog.modify (NcclState.onLock (·.take t))
        else do
          Prog.modify (NcclState.onLock (·.abandon t))
          .raise .cancelled
      | _ => do
          Prog.modify (NcclState.onLock (·.abandon t))
          .raise .cancelled

/-- The body of `async with`: nothing is launched once the sequencer is poisoned. -/
def guarded (rounds : Nat) (t : PairTask) : Pair (JsonObject × JsonObject) := do
  let s ← Prog.read
  if s.poisoned then
    .raise (.runtime "NCCL launch sequencer is poisoned by an ambiguous prior transfer")
  else
    (launch rounds t).rescue fun e => some (do
      Prog.modify (NcclState.poison t)
      .raise e)

/-- `_run_nccl_pair`: the lock is released however the body ends. -/
def runNcclPair (rounds : Nat) (t : PairTask) : Pair (JsonObject × JsonObject) := do
  acquire t
  let result ← (guarded rounds t).rescue fun e => some (do
    Prog.modify (NcclState.onLock AsyncLock.release)
    .raise e)
  Prog.modify (NcclState.onLock AsyncLock.release)
  return result

end Pair

/-- What happens beside the pairs. -/
inductive NcclHappening
  /-- The task is cancelled while it waits for the lock. -/
  | cancelWaiter (t : PairTask)
  | require (requests : List String)
  | retire (operationId : String)

/-- The transfers of one control object; a task that is cancelled before its first turn never
runs. -/
def ncclCrew (rounds : Nat) :
    Crew NcclState PairCall PairReply PairError PairTask NcclHappening where
  body t first :=
    match first with
    | .raised e => .raise e
    | _ => (Pair.runNcclPair rounds t).bind fun _ => .ret ()
  event e s :=
    match e with
    | .cancelWaiter t => s.onLock (·.cancel t)
    | .require requests => { s with correctnessRequired := requests }
    | .retire operationId =>
      { s with
        attemptedRefs := s.attemptedRefs.filter fun r => r.operationId ≠ operationId
        ambiguousRefs := s.ambiguousRefs.filter fun r => r.operationId ≠ operationId }

end PrismServe
