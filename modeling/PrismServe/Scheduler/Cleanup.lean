import PrismServe.Router.Coordinator
import PrismServe.Scheduler.Transfers

/-!
# Canonical cleanup of a request

One owner for all terminal resource changes of a request.  With network control
the release is left to the exact-reference evaluator of the client; otherwise
evidence about the prefill side, the decode side and the transfer is collected,
checked against the request's state and turned into releases or quarantines.
-/

namespace PrismServe

open Lib

inductive RemoteRequestState
  | notOwned
  | neverDispatched
  | abortAck
  | uncertain
  | alreadyCompleted
  deriving DecidableEq, Repr

inductive TransferCleanupState
  | none
  | deferredCancelled
  | fencedAck
  | uncertain
  deriving DecidableEq, Repr

inductive TransferEpochResult
  | bothCurrent
  | sourceChangedTargetCurrent
  | targetChanged
  deriving DecidableEq, Repr

/-- The target takes precedence when both epochs changed. -/
def classifyTransferEpochs (s : PDScheduler) (req : RequestInfo) : TransferEpochResult :=
  if s.epochMatches req.decodeInstance req.decodeInstanceEpoch = false then .targetChanged
  else if s.epochMatches req.prefillInstance req.prefillInstanceEpoch = false then
    .sourceChangedTargetCurrent
  else .bothCurrent

structure CleanupProof where
  requestState : SeqState
  pRemoteRequestState : RemoteRequestState
  dRemoteRequestState : RemoteRequestState
  transferState : TransferCleanupState
  transferMode : TaskState
  publishOutcome : PublishOutcome
  requestOwnsPLoad : Bool
  requestOwnsOriginalDSlot : Bool
  dEpochChanged : Bool
  deriving DecidableEq, Repr

namespace CleanupProof

def pLoadReleasable (proof : CleanupProof) : Bool :=
  !proof.requestOwnsPLoad ||
    decide (proof.pRemoteRequestState = .notOwned) ||
    decide (proof.pRemoteRequestState = .alreadyCompleted) ||
    (decide (proof.publishOutcome = .notStarted) &&
      decide (proof.pRemoteRequestState = .neverDispatched)) ||
    (decide (proof.publishOutcome = .acked) &&
      decide (proof.pRemoteRequestState = .abortAck))

/-- Which remote prefill states a publish outcome admits. -/
def prefillEvidence : PublishOutcome → RemoteRequestState → Bool
  | .notStarted, .neverDispatched => true
  | .acked, .abortAck => true
  | .acked, .uncertain => true
  | .unknown, .neverDispatched => true
  | .unknown, .abortAck => true
  | .unknown, .uncertain => true
  | _, _ => false

/-- Shared part of the states past prefill: the decode side answered or is uncertain. -/
def decodeEvidence (proof : CleanupProof) : Bool :=
  !proof.requestOwnsPLoad && proof.requestOwnsOriginalDSlot &&
    decide (proof.pRemoteRequestState = .alreadyCompleted) &&
    (decide (proof.dRemoteRequestState = .abortAck) ||
      decide (proof.dRemoteRequestState = .uncertain))

def noTransfer (proof : CleanupProof) : Bool :=
  decide (proof.transferState = .none) && decide (proof.transferMode = .none)

def valid (proof : CleanupProof) : Bool :=
  match proof.requestState with
  | .waiting =>
    !proof.requestOwnsPLoad && !proof.requestOwnsOriginalDSlot &&
      decide (proof.pRemoteRequestState = .notOwned) &&
      decide (proof.dRemoteRequestState = .neverDispatched) && proof.noTransfer
  | .prefilling =>
    proof.requestOwnsPLoad && proof.requestOwnsOriginalDSlot &&
      prefillEvidence proof.publishOutcome proof.pRemoteRequestState &&
      decide (proof.dRemoteRequestState = .neverDispatched) && proof.noTransfer
  | .kvPending =>
    proof.decodeEvidence &&
      ((decide (proof.transferMode = .deferred) &&
          decide (proof.transferState = .deferredCancelled)) ||
        (decide (proof.transferMode = .inflight) &&
          (decide (proof.transferState = .fencedAck) ||
            decide (proof.transferState = .uncertain))))
  | .decoding => proof.decodeEvidence && proof.noTransfer
  | .recomputing =>
    proof.decodeEvidence && decide (proof.transferState = .fencedAck) &&
      decide (proof.transferMode = .none)
  | _ => false

def dSlotReleasable (proof : CleanupProof) : Bool :=
  proof.requestOwnsOriginalDSlot && !proof.dEpochChanged &&
    match proof.requestState with
    | .prefilling =>
      decide (proof.dRemoteRequestState = .neverDispatched) &&
        decide (proof.transferState = .none)
    | .kvPending =>
      decide (proof.dRemoteRequestState = .abortAck) &&
        (decide (proof.transferState = .deferredCancelled) ||
          decide (proof.transferState = .fencedAck))
    | .decoding =>
      decide (proof.dRemoteRequestState = .abortAck) &&
        decide (proof.transferState = .none)
    | .recomputing =>
      decide (proof.dRemoteRequestState = .abortAck) &&
        decide (proof.transferState = .fencedAck)
    | _ => false

end CleanupProof

namespace Loop

def onPrefillDone (instanceId : String) (epoch : Option String) : Loop Unit :=
  onSchedulerPure fun s => (s.onPrefillDone instanceId epoch).2

def onDecodeFinished (instanceId : String) (epoch operationId : Option String) : Loop Unit :=
  onSchedulerPure fun s => (s.onDecodeFinished instanceId epoch operationId).2

def quarantineInstance (instanceId : String)
    (uncertainTransfer uncertainDispatch : Option UncertainRef) : Loop Unit :=
  .modify fun w => { w with
    scheduler := w.scheduler.quarantineInstance w.now instanceId uncertainTransfer
      uncertainDispatch }

def finishRequest (reqId : String) : Loop Unit :=
  onGovernor (TransferGovernor.finishRequest reqId)

def cancelTransfer (reqId : String) (operationId : Option String) : Loop Unit :=
  onGovernor (TransferGovernor.cancel reqId operationId)

/-- The abort calls of the legacy client: an answer, or `false` on any failure. -/
def abortRemote (c : Call) : Loop Bool :=
  (waitFor (timedCall c Reply.flagOnly)).exceptException fun _ => .ret false

def abortRemoteRequest (instanceId reqId : String) : Loop Bool :=
  abortRemote (.abortRequest instanceId reqId)

def abortRemoteTransfer (req : RequestInfo) : Loop Bool :=
  abortRemote (.abortTransfer req.prefillInstance req.decodeInstance req.reqId
    req.transferOperationId)

def epochMatches (instanceId epoch : String) : Loop Bool :=
  Prog.read.bind fun w => .ret (w.scheduler.epochMatches instanceId epoch)

/-! ## Evidence of the legacy cleanup -/

/-- Evidence about the transfer of a request. -/
structure TransferEvidence where
  targetChanged : Bool
  sourceChanged : Bool
  transferState : TransferCleanupState
  taskState : TaskState

variable (cfg : Settings)

def uncertainTransfer (req : RequestInfo) (epoch : String) : UncertainRef :=
  (cfg.ownerId, req.reqId, req.transferOperationId, epoch)

/-- Evidence for a transfer whose target or source epoch has moved on. -/
def changedTransfer (req : RequestInfo) (sourceChanged : Bool) : Loop TransferEvidence :=
  if sourceChanged then do
    quarantineInstance req.decodeInstance
      (some (uncertainTransfer cfg req req.decodeInstanceEpoch)) none
    cancelTransfer req.reqId (some req.transferOperationId)
    return ⟨false, true, .uncertain, .inflight⟩
  else do
    cancelTransfer req.reqId (some req.transferOperationId)
    return ⟨true, false, .none, .inflight⟩

/-- Evidence for a transfer that was handed off. -/
def inflightTransfer (req : RequestInfo) : Loop TransferEvidence := do
  let w ← Prog.read
  match classifyTransferEpochs w.scheduler req with
  | .targetChanged => changedTransfer cfg req false
  | .sourceChangedTargetCurrent => changedTransfer cfg req true
  | .bothCurrent => do
      let fenced ← abortRemoteTransfer req
      let w ← Prog.read
      match classifyTransferEpochs w.scheduler req with
      | .targetChanged => changedTransfer cfg req false
      | .sourceChangedTargetCurrent => changedTransfer cfg req true
      | .bothCurrent => return ⟨false, false, if fenced then .fencedAck else .uncertain, .inflight⟩

def transferEvidence (req : RequestInfo) (targetChanged : Bool) : Loop TransferEvidence := do
  let w ← Prog.read
  let operationId := if req.transferOperationId = "" then none else some req.transferOperationId
  let taskState := w.governor.taskState req.reqId operationId
  match req.state with
  | .kvPending =>
    if targetChanged then return ⟨true, false, .fencedAck, taskState⟩
    else
      match taskState with
      | .deferred => do
          cancelTransfer req.reqId (some req.transferOperationId)
          return ⟨false, false, .deferredCancelled, taskState⟩
      | .inflight => inflightTransfer cfg req
      | .none => return ⟨false, false, .uncertain, .inflight⟩
  | .recomputing => return ⟨targetChanged, false, .fencedAck, taskState⟩
  | _ => return ⟨targetChanged, false, .none, taskState⟩

/-- Evidence about the prefill side: remote state, and whether its epoch changed. -/
def prefillEvidence (req : RequestInfo) (ownsP changed : Bool) :
    Loop (RemoteRequestState × Bool) :=
  if ownsP && !changed then do
    let acknowledged ← abortRemoteRequest req.prefillInstance req.reqId
    let current ← epochMatches req.prefillInstance req.prefillInstanceEpoch
    return if current then (if acknowledged then .abortAck else .uncertain, false)
      else (.neverDispatched, true)
  else
    .ret (if ownsP then .neverDispatched
      else if req.state = .waiting then .notOwned else .alreadyCompleted, changed)

/-- Evidence about the decode side: remote state, and whether its epoch changed. -/
def decodeEvidence (serial : Nat) (evidence : TransferEvidence) :
    Loop (RemoteRequestState × Bool) := do
  let req ← info serial
  let remote := decide (req.state = .kvPending) || decide (req.state = .recomputing) ||
    decide (req.state = .decoding)
  if !evidence.targetChanged && !evidence.sourceChanged && remote then do
    let acknowledged ← abortRemoteRequest req.decodeInstance req.reqId
    let current ← epochMatches req.decodeInstance req.decodeInstanceEpoch
    if current then return (if acknowledged then .abortAck else .uncertain, false)
    else do
      cancelTransfer req.reqId
        (if req.transferOperationId = "" then none else some req.transferOperationId)
      return (.neverDispatched, true)
  else return (.neverDispatched, evidence.targetChanged)

/-- Release or quarantine the prefill side by the proof. -/
def settlePrefill (req : RequestInfo) (proof : CleanupProof) : Loop Unit :=
  if proof.pLoadReleasable then onPrefillDone req.prefillInstance (some req.prefillInstanceEpoch)
  else quarantineInstance req.prefillInstance none none

/-- Release or quarantine the decode side by the proof. -/
def settleDecode (req : RequestInfo) (proof : CleanupProof) : Loop Unit :=
  if proof.dSlotReleasable then
    onDecodeFinished req.decodeInstance (some req.decodeInstanceEpoch) none
  else do
    let w ← Prog.read
    quarantineInstance req.decodeInstance
      (if proof.transferState = .uncertain then
        some (uncertainTransfer cfg req (w.scheduler.instanceEpoch req.decodeInstance))
      else none) none

/-- Collect the evidence, check it, and release or quarantine each side. -/
def fenceAndAbortRequest (serial : Nat) : Loop Unit := do
  let w ← Prog.read
  let req := w.tracker.info serial
  let ownsP := decide (req.state = .prefilling) && decide (req.prefillInstance ≠ "")
  let ownsD := decide (req.decodeInstance ≠ "") && decide (req.state ≠ .waiting)
  let pChanged := ownsP &&
    !w.scheduler.epochMatches req.prefillInstance req.prefillInstanceEpoch
  let dChanged := ownsD &&
    !w.scheduler.epochMatches req.decodeInstance req.decodeInstanceEpoch
  let transfer ← transferEvidence cfg req dChanged
  let (pState, pChanged) ← prefillEvidence req ownsP pChanged
  let (dState, dChanged) ← decodeEvidence serial transfer
  let req ← info serial
  let proof : CleanupProof :=
    { requestState := req.state
      pRemoteRequestState := pState
      dRemoteRequestState := dState
      transferState := transfer.transferState
      transferMode := if req.state = .kvPending then transfer.taskState else .none
      publishOutcome := req.publishOutcome
      requestOwnsPLoad := ownsP
      requestOwnsOriginalDSlot := ownsD
      dEpochChanged := dChanged }
  if !pChanged && !dChanged && !transfer.sourceChanged && !proof.valid then
    .raise (.value "invalid cleanup proof ownership combination")
  else do
    when (ownsP && !pChanged) (settlePrefill req proof)
    when (ownsD && !dChanged && !transfer.sourceChanged) (settleDecode cfg req proof)
    finishRequest req.reqId

/-! ## The cleanup -/

/-- Resources of a request at the end of a legacy cleanup. -/
def legacyRelease (serial : Nat) : Loop Unit := do
  let w ← Prog.read
  let req := w.tracker.info serial
  match req.state, req.publishOutcome with
  | .prefilling, .unknown => do
      let current := w.scheduler.epochMatches req.prefillInstance req.prefillInstanceEpoch
      when current (quarantineInstance req.prefillInstance none
        (some (cfg.ownerId, req.reqId, req.commandId, req.prefillInstanceEpoch)))
      onDecodeFinished req.decodeInstance (some req.decodeInstanceEpoch) none
      when current do
        let _ ← abortRemoteRequest req.prefillInstance req.reqId
      finishRequest req.reqId
  | .prefilling, .notStarted => do
      onPrefillDone req.prefillInstance (some req.prefillInstanceEpoch)
      onDecodeFinished req.decodeInstance (some req.decodeInstanceEpoch) none
      finishRequest req.reqId
  | _, _ => fenceAndAbortRequest cfg serial

/-- The request is aborted unless it is terminal, and leaves the tracker when released. -/
def retireRequest (serial : Nat) (released : Bool) : Loop Unit := do
  let w ← Prog.read
  let req := w.tracker.info serial
  when (w.tracker.isCurrent serial) do
    when (decide (req.state ≠ .finished) && decide (req.state ≠ .aborted))
      (transition req.reqId .aborted id)
    when released do
      observe (.removedSilently serial)
      remove req.reqId

def canonicalCleanup (serial : Nat) : Loop Unit := do
  let w ← Prog.read
  when (w.tracker.isCurrent serial) do
    let req := w.tracker.info serial
    observe (.cleanupEntered serial req.state (decide (req.prefillInstance ≠ "")))
    if cfg.network then do
      when (decide (req.prefillInstance ≠ ""))
        (onPrefillDone req.prefillInstance (some req.prefillInstanceEpoch))
      let released ← cleanupRequest serial true
      when released (finishRequest req.reqId)
      retireRequest serial released
    else do
      legacyRelease cfg serial
      retireRequest serial true

/--
Run the cleanup as a task of its own and wait for it.  The loop joins one cleanup after the other,
so that the registry has no task of the request before a join, and none after it
(`CleanupTasks.join_alone`).
-/
def joinCanonicalCleanup (serial : Nat) : Loop Unit := do
  switch
  canonicalCleanup cfg serial
  switch

end Loop

/-! ## The shutdown -/

/--
`_abort_remaining_requests` once the cleanup tasks of the tracked requests exist: a task that has
not ended at the deadline is cancelled, and the results of the others are awaited in turn.
-/
def abortRemainingRequests (joinTimeout : Option Time)
    (ended : List (Option (Except Exc Unit))) : Except Exc Unit :=
  if ended.isEmpty then .ok ()
  else if joinTimeout.any fun t => t ≤ 0 then .error (.value "join_timeout_s must be positive")
  else ended.forM fun result => result.getD (.ok ())

end PrismServe
