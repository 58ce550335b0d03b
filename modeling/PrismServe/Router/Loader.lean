import PrismServe.Router.NetworkControl

/-!
# Cached-prefix loads

A load resolves the prefix at its source, prepares the target, copies the
mapped blocks unless source and target are one instance, and commits.  The
context of the load records how far it has come, so that a compensation knows
which of the remote steps may have happened.

With network control every remote step draws an endpoint reference first; the
legacy client is called directly.
-/

namespace PrismServe

open Lib

namespace Loop

/-- Assignments to the context object of a load. -/
def onLoad (operationId : String) (f : PrefixLoadContext → PrefixLoadContext) : Loop Unit :=
  onCoordinator fun c =>
    match c.loads.get? operationId with
    | none => c
    | some context => { c with loads := c.loads.set operationId (f context) }

def setStage (operationId : String) (stage : LoadStage) : Loop Unit :=
  onLoad operationId fun x => { x with stage := stage }

/-- A response loss is resolved by querying the original reference only. -/
def reconcileAmbiguous (timed : Bool) (ref : EndpointRef) : Loop Unit := do
  let s ← callIn timed (.endpointStatus ref) Reply.statusOnly
  if s.state = .fenced then
    .raise (.runtime "reconciliation did not prove an accepted operation")
  else return ()

/-- A transfer mutation under its reference. -/
def transferMutation (timed : Bool) (c : Call) (ref : EndpointRef) : Loop Unit := do
  markAttempted ref
  (callIn timed c Reply.okOnly).rescue fun e =>
    if e = .ambiguous then some (reconcileAmbiguous timed ref) else none

/-- One transfer pair through both terminals; any failure poisons the launch sequencer. -/
def runNcclPair (timed : Bool) (operationId : String) (sourceRef targetRef : EndpointRef) :
    Loop Unit := do
  callIn timed (.ncclGate operationId) Reply.okOnly
  let w ← Prog.read
  if w.control.ncclPoisoned then
    .raise (.runtime "NCCL launch sequencer is poisoned by an ambiguous prior transfer")
  else
    (do
      transferMutation timed (.prepareReceive targetRef) targetRef
      transferMutation timed (.startTransfer sourceRef) sourceRef
      callIn timed (.transferTerminal operationId) Reply.okOnly : Loop Unit).rescue fun e =>
        some do
          onControl fun c => .ok ((), { c with ncclPoisoned := true })
          .raise e

/-- A prefix step of the network client at the source or the target, whose epoch is
checked first. -/
def prefixMutation {α : Type} (side : String) (kind : RefKind)
    (instanceId epoch operationId : String) (c : Call) (answer : Reply → Option α) :
    Loop α := do
  let w ← Prog.read
  match w.control.workerEpochs.get? instanceId with
  | none => .raise (.key instanceId)
  | some current =>
    if current ≠ epoch then .raise (.value (side ++ " worker epoch changed"))
    else do
      let ref ← onControl (NetworkControl.allocate kind instanceId operationId)
      markAttempted ref
      timedCall c answer

def resolvePrefix (network : Bool) (source epoch operationId : String) :
    Loop (Option Nat) :=
  if network then
    prefixMutation "source" .prefixResolve source epoch operationId
      (.resolvePrefix source operationId) Reply.resolvedOnly
  else timedCall (.resolvePrefix source operationId) Reply.resolvedOnly

def preparePrefix (network : Bool) (target epoch operationId : String) : Loop Bool :=
  if network then
    prefixMutation "target" .prefixPrepare target epoch operationId
      (.preparePrefix target operationId) Reply.flagOnly
  else timedCall (.preparePrefix target operationId) Reply.flagOnly

def transferCachedPrefix (network : Bool) (source target operationId : String) :
    Loop MappedTransferStatus :=
  if network then do
    let targetRef ← onControl (NetworkControl.allocate .transferTarget target operationId)
    let sourceRef ← onControl (NetworkControl.allocate .transferSource source operationId)
    (do
      runNcclPair true operationId sourceRef targetRef
      return .completed : Loop MappedTransferStatus).rescue fun e =>
        if e = .ambiguous then some (.ret .unknown) else none
  else timedCall (.transferPrefix operationId) Reply.mappedOnly

def commitCachedPrefix (network : Bool) (target operationId : String) (localReuse : Bool) :
    Loop Unit :=
  if network then do
    let w ← Prog.read
    if localReuse = false ∧
        w.control.refs.get? (.transferTarget, target, operationId) = none then
      .raise (.runtime "remote prefix commit lost target transfer identity")
    else do
      let ref ← onControl (NetworkControl.allocate .prefixCommit target operationId)
      markAttempted ref
      timedCall (.commitPrefix target operationId) Reply.okOnly
  else timedCall (.commitPrefix target operationId) Reply.okOnly

/-- The mapped copy of a load; a load within one instance has none. -/
def transferStage (network : Bool) (operationId : String) (decision : CachedPrefixDecision) :
    Loop Unit :=
  if decision.sourceInstance = decision.decodeInstance then .ret ()
  else do
    setStage operationId .transferring
    let transfer ← transferCachedPrefix network decision.sourceInstance
      decision.decodeInstance operationId
    if transfer ≠ .completed then .raise .prefixLoad else return ()

/-- Resolve, prepare, copy or reuse, commit; the source release is left to the coordinator. -/
def loadCachedPrefix (network : Bool) (operationId targetEpoch : String)
    (decision : CachedPrefixDecision) : Loop Unit := do
  let localReuse := decide (decision.sourceInstance = decision.decodeInstance)
  setStage operationId .resolving
  let resolved ← resolvePrefix network decision.sourceInstance decision.sourceEpoch operationId
  if resolved ≠ some decision.cachedPrefixBlocks then .raise .prefixLoad
  else do
    onLoad operationId fun x =>
      { x with
        sourcePinned := true
        localReuse := some localReuse
        stage := .preparing }
    let prepared ← preparePrefix network decision.decodeInstance targetEpoch operationId
    if prepared = false then .raise .prefixLoad
    else do
      setStage operationId .prepared
      transferStage network operationId decision
      setStage operationId .committing
      commitCachedPrefix network decision.decodeInstance operationId localReuse
      onLoad operationId fun x =>
        { x with
          stage := .committed
          sourcePinned := if localReuse then false else x.sourcePinned }

/-! ## Compensation with the legacy client -/

def unpinPrefix (source operationId : String) : Loop Unit :=
  timedCall (.unpinPrefix source operationId) Reply.okOnly

def commitSlot (operationId : String) : Loop Unit :=
  onScheduler fun _ s =>
    match s.commitDecodeSlot operationId with
    | .ok s' => .ok ((), s')
    | .error e => .error e

def releaseReservedOrQuarantined (operationId : String) : Loop Unit := do
  let _ ← onScheduler fun _ s =>
    if (s.slotLeases.get? operationId).any fun lease => decide (lease.state = .quarantined) then
      s.releaseQuarantinedDecodeSlot operationId none none
    else s.releaseDecodeSlot operationId
  return ()

/-- The source pin of a context is gone. -/
def clearPin (operationId : String) : Loop Unit :=
  onLoad operationId fun x => { x with sourcePinned := false }

/-- The abort that ends a compensation; `unpinned` runs once the source is released. -/
def compensated (context : PrefixLoadContext) (unpinned : Loop Unit) :
    Loop CleanupAction := do
  unpinPrefix context.sourceInstance context.operationId
  unpinned
  releaseReservedOrQuarantined context.operationId
  return .aborted

def quarantined (operationId : String) : Loop CleanupAction := do
  quarantineSlot operationId
  return .quarantined

/--
Partial cleanup by the state of the target operation.  A prepared target is
aborted only when no copy can write to it any more (`fenced`).
-/
def cleanupByTarget (context : PrefixLoadContext) (fenced : Bool) (unpinned : Loop Unit) :
    Loop CleanupAction := do
  let target ← timedCall (.prefixStatus context.targetInstance context.operationId)
    Reply.prefixedOnly
  match target with
  | .committed => do
      commitSlot context.operationId
      unpinPrefix context.sourceInstance context.operationId
      unpinned
      return .committed
  | .unknown => quarantined context.operationId
  | .prepared =>
    if fenced then do
      timedCall (.abortPrefix context.targetInstance context.operationId) Reply.okOnly
      compensated context unpinned
    else quarantined context.operationId
  | .aborted => compensated context unpinned

/-- A copy that may still write fences everything else. -/
def cleanupMappedOperation (context : PrefixLoadContext) (localReuse : Bool) :
    Loop CleanupAction :=
  if localReuse then cleanupByTarget context true (.ret ())
  else do
    let transfer ← timedCall (.abortMapped context.operationId) Reply.mappedOnly
    if transfer = .unknown then quarantined context.operationId
    else
      cleanupByTarget context (decide (transfer = .fenced ∨ transfer = .completed)) (.ret ())

/-- Compensate a load at whatever stage it stopped. -/
def cleanupLoadContext (operationId : String) : Loop CleanupAction := do
  let w ← Prog.read
  match w.coordinator.loads.get? operationId with
  | none => .raise (.key operationId)
  | some context =>
    match context.stage, context.localReuse with
    | .started, _ => compensated context (.ret ())
    | .resolving, _ => compensated context (.ret ())
    | .resolved, _ => compensated context (.ret ())
    | _, none => .raise (.assertion "")
    | .preparing, some _ => cleanupByTarget context true (clearPin operationId)
    | .prepared, some _ => cleanupByTarget context true (clearPin operationId)
    | _, some localReuse => do
        let action ← cleanupMappedOperation context localReuse
        when (decide (action ≠ .quarantined)) (clearPin operationId)
        return action

end Loop

end PrismServe
