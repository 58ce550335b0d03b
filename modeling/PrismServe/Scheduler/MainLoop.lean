import PrismServe.Gateway.OutputRepair
import PrismServe.Scheduler.Cleanup

/-!
# The scheduling loop

One tick starts waiting requests, drains the reply subjects in a fixed order,
handles the timeouts of every phase, flushes deferred transfers, and brings
finished and aborted requests to their release.  The end of a tick is the sleep
between two ticks.
-/

namespace PrismServe

open Lib

namespace Loop

/-- An attribute that names an instance, or nothing when it is empty. -/
def required (name : String) : Option String := if name = "" then none else some name

/-- Drain one inbox. -/
def poll (subject : Subject) : Loop (List Message) := do
  let w ← Prog.read
  .modify fun w => { w with inbox := Function.update w.inbox subject [] }
  return w.inbox subject

/-! ## Dispatch of waiting requests -/

def setPublishOutcome (reqId : String) (outcome : PublishOutcome) : Loop Unit :=
  onTracker fun _ t => t.setPublishOutcome reqId outcome

/-- How often a faulty dispatch publishes its command, and what the worker must report. -/
def faultPlan : FaultKind → Nat × Nat × Nat
  | .natsDrop => (0, 0, 0)
  | .natsDuplicate => (2, 2, 1)
  | .natsPublishUnknown => (1, 1, 1)

/-- What the worker reports of a faulty dispatch; a dropped one is not asked for. -/
def faultObserved (kind : FaultKind) (reqId : String) : Loop (Nat × Nat) :=
  if kind = .natsDrop then .ret (0, 0) else call (.faultAuthority reqId) Reply.countsOnly

/-- Publish the prefill command of a request. -/
def publish (serial : Nat) (req : RequestInfo) (fault : Option FaultKind) : Loop Unit := do
  observe (.prefillPublished serial fault)
  call (.publish req.prefillInstance req.reqId) Reply.okOnly

/-- Publish a command, once or with the one-shot fault of the directive. -/
def publishCommandWithFault (serial : Nat) (req : RequestInfo) (fault : Option FaultKind) :
    Loop Unit :=
  match fault with
  | none => publish serial req none
  | some kind => do
      Prog.forEach (List.range (faultPlan kind).1) fun _ => publish serial req fault
      let observed ← faultObserved kind req.reqId
      if observed ≠ (faultPlan kind).2 then .raise (.runtime "worker authority mismatch")
      else .raise (.runtime "injected fault")

variable (cfg : Settings)

/-- The handlers of a failed publish; `false` when the request is given up. -/
def publishFailed (serial : Nat) (outcome : PublishOutcome) (e : Exc) : Option (Loop Bool) :=
  if e = .cancelled then
    some do
      let req ← info serial
      setPublishOutcome req.reqId .unknown
      joinCanonicalCleanup cfg serial
      .raise .cancelled
  else if e.isException then
    some do
      let req ← info serial
      setPublishOutcome req.reqId outcome
      joinCanonicalCleanup cfg serial
      return false
  else none

/-- Publish and acknowledge; a failure may have reached the worker. -/
def publishAndAck (serial : Nat) (publish : Loop Unit) : Loop Bool :=
  (do
    publish
    let req ← info serial
    setPublishOutcome req.reqId .acked
    return true : Loop Bool).rescue (publishFailed cfg serial .unknown)

/-- Build the command of a dispatch; only network control draws a reference for it. -/
def buildCommand (serial : Nat) : Loop (Option FaultKind) := do
  let req ← info serial
  if cfg.network then do
    let ref ← onControl fun c =>
      .ok (c.drawRef req.prefillInstance req.prefillInstanceEpoch req.reqId)
    assign serial fun _ r => { r with dispatchOperationRef := some ref }
    if req.correctnessPath = "" then return none
    else call (.faultCheckpoint req.reqId) Reply.directiveOnly
  else return none

/-- Send the prefill command of a request that has just been promoted. -/
def dispatchPrefill (serial : Nat) : Loop Unit := do
  let command ← (do
      let fault ← buildCommand cfg serial
      return some fault : Loop (Option (Option FaultKind))).rescue fun e =>
        (publishFailed cfg serial .notStarted e).map fun p => p.bind fun _ => .ret none
  match command with
  | none => return ()
  | some fault => do
      let req ← info serial
      let _ ← publishAndAck cfg serial (publishCommandWithFault serial req fault)
      return ()

/-- What a promotion records about the instances picked for a request. -/
def promotion (reqId p pEpoch d dEpoch : String) (r : RequestInfo) : RequestInfo :=
  { r with
    prefillInstance := p
    decodeInstance := d
    prefillInstanceEpoch := pEpoch
    decodeInstanceEpoch := dEpoch
    commandId := cfg.ownerId ++ ":" ++ reqId
    publishOutcome := .notStarted
    activeOperationId := if cfg.network then reqId else "" }

/-- Promote a request to the instances picked for it. -/
def promote (reqId p pEpoch d dEpoch : String) : Loop Unit :=
  transition reqId .prefilling (promotion cfg reqId p pEpoch d dEpoch)

/-- The target could not be prepared: give the picked instances back. -/
def prepareFailed (serial : Nat) (p pEpoch d dEpoch : String) (e : Exc) : Loop Unit := do
  let req ← info serial
  onPrefillDone p (some pEpoch)
  if e = .ambiguous then do
    observe (.prepareAmbiguous serial)
    promote cfg req.reqId p pEpoch d dEpoch
    joinCanonicalCleanup cfg serial
  else do
    observe (.prepareRejected serial)
    let _ ← onScheduler fun _ s => s.releaseDecodeSlot req.reqId
    return ()

/-- Adopt the picked slot and prepare the target request; `false` when that failed. -/
def prepareTarget (serial : Nat) (p pEpoch d dEpoch : String) : Loop Bool := do
  let w ← Prog.read
  let req := w.tracker.info serial
  observe (.slotAdopted serial
    (!(w.scheduler.adoptPickedDecodeSlot w.now d req.reqId req.reqId).toBool))
  let _ ← onScheduler fun now s => s.adoptPickedDecodeSlot now d req.reqId req.reqId
  (do
    let _ ← prepareNormalRequest d dEpoch req.reqId
    return true : Loop Bool).exceptException fun e => do
      prepareFailed cfg serial p pEpoch d dEpoch e
      return false

/-- Only network control prepares the target before the dispatch. -/
def prepare (serial : Nat) (p pEpoch d dEpoch : String) : Loop Bool :=
  if cfg.network then prepareTarget cfg serial p pEpoch d dEpoch else .ret true

/-- Start a request on the prefill and decode instances picked for it. -/
def startOn (serial : Nat) (p d : String) : Loop Unit := do
  let w ← Prog.read
  let pEpoch := w.scheduler.instanceEpoch p
  let dEpoch := w.scheduler.instanceEpoch d
  let prepared ← prepare cfg serial p pEpoch d dEpoch
  when prepared do
    let req ← info serial
    promote cfg req.reqId p pEpoch d dEpoch
    dispatchPrefill cfg serial

/-- Whether a request is offered to the affinity coordinator first. -/
def affinityCandidate (req : RequestInfo) : Bool :=
  cfg.affinityEnabled && req.hasFingerprint &&
    decide (req.correctnessPath ∉ ["cold", "seed_d0", "seed_d1"])

def offerAffinity (serial : Nat) (req : RequestInfo) : Loop Bool :=
  if affinityCandidate cfg req then tryStart cfg serial else .ret false

/-- Start one waiting request; `false` when no prefill instance is left. -/
def startWaiting (serial : Nat) : Loop Bool := do
  let req ← info serial
  let loading ← offerAffinity cfg serial req
  if loading then return true
  else do
    let picked ← onScheduler fun _ s =>
      .ok (s.pickPrefillInstance (required req.correctnessSourceInstance))
    match picked with
    | none => return false
    | some p => do
        let target ← onScheduler fun now s =>
          .ok (s.pickDecodeInstance now (required req.correctnessTargetInstance))
        match target with
        | none => do
            onPrefillDone p none
            return true
        | some d => do
            startOn cfg serial p d
            return true

def waitingPhase : Loop Unit := do
  let w ← Prog.read
  if w.scheduler.admissionReady then
    Prog.forEachWhile (w.tracker.iterByState .waiting) (startWaiting cfg)
  else return ()

/-! ## Messages and timeouts before decode -/

/-- The fence of a message of the decode worker: its epoch is the assigned and current one. -/
def fromDecode (w : World) (req : RequestInfo) (msg : Message) : Bool :=
  decide (msg.instanceEpoch = some req.decodeInstanceEpoch) &&
    w.scheduler.epochMatches req.decodeInstance req.decodeInstanceEpoch

/-- The tracked request that a message names. -/
def addressee (w : World) (msg : Message) : Option Nat := msg.reqId.bind w.tracker.get?

def suffixPrefillDone (msg : Message) : Loop Unit := do
  let w ← Prog.read
  match addressee w msg with
  | none => return ()
  | some serial =>
    let req := w.tracker.info serial
    when (decide (req.state = .prefixPrefilling) &&
        decide (msg.operationId = some req.activeOperationId) && fromDecode w req msg)
      (transition req.reqId .decoding id)

def stuckSuffix (serial : Nat) : Loop Unit := do
  match ← cleanupSuffix cfg serial with
  | some .aborted => do
      let w ← Prog.read
      let req := w.tracker.info serial
      when (w.tracker.isCurrent serial) do
        transition req.reqId .aborted id
        observe (.removedSilently serial)
        remove req.reqId
  | _ => return ()

def stuckPrefill (serial : Nat) : Loop Unit := do
  let req ← info serial
  if cfg.maxDispatchAttempts ≤ req.dispatchAttempts then joinCanonicalCleanup cfg serial
  else do
    let published ← publishAndAck cfg serial (publish serial req none)
    when published
      (assign serial fun now r =>
        { r with prefillStart := now, dispatchAttempts := r.dispatchAttempts + 1 })

/-- Ask the decode worker to recompute a request; the network client declines at once. -/
def triggerRecompute (serial : Nat) (req : RequestInfo) : Loop Bool := do
  observe (.recomputeTriggered serial)
  if cfg.network then return false
  else call (.resetToWaiting req.decodeInstance req.reqId) Reply.flagOnly

/-- Whether a recompute was accepted with the decode epoch stable around it. -/
def triggerRecomputeEpochFenced (serial : Nat) : Loop Bool := do
  let req ← info serial
  let before ← epochMatches req.decodeInstance req.decodeInstanceEpoch
  if before = false then return false
  else do
    let accepted ← triggerRecompute cfg serial req
    let after ← epochMatches req.decodeInstance req.decodeInstanceEpoch
    return accepted && after

/-- A transfer or a recompute failed: recompute within the budget, else clean up. -/
def afterTransferFailure (serial : Nat) (recomputing : Loop Unit) : Loop Unit := do
  let w ← Prog.read
  let req := w.tracker.info serial
  let (decision, g) := w.governor.onTransferFailure req.reqId
  onGovernor fun _ => g
  match decision with
  | .abort => do
      observe (.recomputeRefused serial)
      joinCanonicalCleanup cfg serial
  | .recompute =>
    if w.scheduler.epochMatches req.decodeInstance req.decodeInstanceEpoch then do
      let accepted ← triggerRecomputeEpochFenced cfg serial
      if accepted then recomputing
      else do
        finishRequest req.reqId
        joinCanonicalCleanup cfg serial
    else joinCanonicalCleanup cfg serial

def enterRecomputing (reqId : String) : Loop Unit := transition reqId .recomputing id

/-- The operation id of a transfer: the active one, or a new one. -/
def transferOperation (req : RequestInfo) : Loop String :=
  if req.activeOperationId = "" then mint cfg else .ret req.activeOperationId

/-- Submit the transfer of a request whose prefill is complete. -/
def submitTransfer (serial : Nat) (kvSize : Int) : Loop Unit := do
  let w ← Prog.read
  let req := w.tracker.info serial
  .modify fun w => { w with transferCount := w.transferCount + 1 }
  let task : TransferTask :=
    { serial := w.transferCount
      reqId := req.reqId
      src := req.prefillInstance
      dst := req.decodeInstance
      kvSize := kvSize
      operationId := req.transferOperationId }
  (submit cfg task).rescue fun e =>
    if e = .transferDispatch then
      some (afterTransferFailure cfg serial (enterRecomputing req.reqId))
    else none

def FirstToken.isInteger : FirstToken → Bool
  | .integer _ => true
  | .other => false

def prefillDone (msg : Message) : Loop Unit := do
  let w ← Prog.read
  match addressee w msg with
  | none => return ()
  | some serial =>
    let req := w.tracker.info serial
    when (decide (req.state = .prefilling) &&
        decide (msg.instanceEpoch = some req.prefillInstanceEpoch) &&
        w.scheduler.epochMatches req.prefillInstance req.prefillInstanceEpoch) do
      if cfg.network && !FirstToken.isInteger msg.firstToken then
        joinCanonicalCleanup cfg serial
      else do
        let kvSize := msg.kvSizeBytes.getD 0
        let operationId ← transferOperation cfg req
        transition req.reqId .kvPending fun r =>
          { r with kvSizeBytes := kvSize, transferOperationId := operationId }
        onPrefillDone req.prefillInstance (some req.prefillInstanceEpoch)
        submitTransfer cfg serial kvSize

/-- Whether an operation may still win completion or timeout. -/
def matchesPendingOperation (w : World) (reqId operationId : String) : Bool :=
  (w.tracker.get? reqId).any fun serial =>
    decide ((w.tracker.info serial).state = .kvPending) &&
      decide ((w.tracker.info serial).transferOperationId = operationId)

def ownsPendingTransfer (w : World) (reqId operationId : String) : Bool :=
  matchesPendingOperation w reqId operationId && w.governor.owns reqId operationId

/-- A transfer timed out and is stopped: fall back. -/
def transferStopped (serial : Nat) (operationId : String) : Loop Unit := do
  let req ← info serial
  cancelTransfer req.reqId (some operationId)
  afterTransferFailure cfg serial (enterRecomputing req.reqId)

/-- A transfer timed out in flight: stop it remotely first. -/
def stuckInflight (serial : Nat) (operationId : String) : Loop Unit := do
  let req ← info serial
  let stopped ← abortRemoteTransfer req
  let w ← Prog.read
  if ownsPendingTransfer w req.reqId operationId then
    if classifyTransferEpochs w.scheduler (w.tracker.info serial) = .bothCurrent ∧ stopped then
      transferStopped cfg serial operationId
    else joinCanonicalCleanup cfg serial
  else return ()

def stuckTransfer (serial : Nat) : Loop Unit := do
  let w ← Prog.read
  let req := w.tracker.info serial
  let operationId := req.transferOperationId
  if classifyTransferEpochs w.scheduler req ≠ .bothCurrent then joinCanonicalCleanup cfg serial
  else
    when (matchesPendingOperation w req.reqId operationId) do
      match w.governor.taskState req.reqId (some operationId) with
      | .inflight => stuckInflight cfg serial operationId
      | .none => joinCanonicalCleanup cfg serial
      | .deferred => transferStopped cfg serial operationId

def recomputeDone (msg : Message) : Loop Unit := do
  let w ← Prog.read
  match addressee w msg with
  | none => return ()
  | some serial =>
    let req := w.tracker.info serial
    when (decide (req.state = .recomputing) && fromDecode w req msg)
      (transition req.reqId .decoding id)

def stuckRecompute (serial : Nat) : Loop Unit := do
  let req ← info serial
  let current ← epochMatches req.decodeInstance req.decodeInstanceEpoch
  if current then
    afterTransferFailure cfg serial
      (assign serial fun now r => { r with recomputeStart := now })
  else joinCanonicalCleanup cfg serial

/-! ## Output -/

/-- With network control an output message also names the active operation. -/
def outputFence (w : World) (req : RequestInfo) (msg : Message) : Bool :=
  (!cfg.network || decide (msg.operationId = some req.activeOperationId)) &&
    fromDecode w req msg

/-- The handler `except (TypeError, ValueError)`. -/
def exceptValueError (p handler : Loop Unit) : Loop Unit :=
  p.rescue fun e => if e.isValueError then some handler else none

/-- Output in a first-token message, if it has any; a bad cursor is ignored. -/
def applyFirstToken (reqId : String) (serial : Nat) (msg : Message) : Loop Unit :=
  match msg.tokenIds with
  | none => .ret ()
  | some tokenIds =>
    exceptValueError
      (applyOutput reqId serial msg.origin tokenIds (msg.outputSeqNo.getD (-1)) false none true)
      (.ret ())

def firstTokenMessage (msg : Message) : Loop Unit := do
  let w ← Prog.read
  match addressee w msg with
  | none => return ()
  | some serial =>
    let req := w.tracker.info serial
    when (outputFence cfg w req msg) do
      applyFirstToken req.reqId serial msg
      let req ← info serial
      when (decide (req.state = .decoding)) (recordFirstToken req.reqId)

/-- Handler of a bad progress event: query the worker when its output can be identified. -/
def repairProgress (serial : Nat) : Loop Unit := do
  let w ← Prog.read
  if cfg.network then
    match queryIdentity w serial with
    | none => return ()
    | some q =>
      (do
        let o ← snapshot q.reqId
        repairOutputGap q o.tokenIds.length : Loop Unit).exceptException fun _ => .ret ()
  else return ()

def decodeProgress (msg : Message) : Loop Unit := do
  let w ← Prog.read
  match addressee w msg with
  | none => return ()
  | some serial =>
    let req := w.tracker.info serial
    when (outputFence cfg w req msg)
      (exceptValueError
        (applyOutput req.reqId serial msg.origin (msg.tokenIds.getD [])
          (msg.outputSeqNo.getD (-1)) false none true)
        (repairProgress cfg serial))

/-- The cumulative update of a completion, and its fallback when the update is refused. -/
def commitDecodeDone (reqId : String) (serial : Nat) (msg : Message) : Loop Unit :=
  let tokenIds := msg.tokenIds.getD []
  exceptValueError
    (applyOutput reqId serial msg.origin tokenIds (msg.outputSeqNo.getD tokenIds.length)
      true none true)
    (applyOutput reqId serial msg.origin [] 0 true (some "invalid decode_done cursor") true)

/-- A legacy request leaves the tracker with its completion. -/
def releaseFinished (serial : Nat) : Loop Unit := do
  let req ← info serial
  onDecodeFinished req.decodeInstance (some req.decodeInstanceEpoch)
    (required req.activeOperationId)
  finishRequest req.reqId
  remove req.reqId
  markResourceFree req.reqId

/-- Whether one of the two updates of a completion is committed. -/
def completionCommits (b : OutputBuffer) (reqId : String) (msg : Message) : Bool :=
  let tokenIds := msg.tokenIds.getD []
  match b.stateOf reqId with
  | none => decide (b.active < b.activeOperationCap)
  | some o =>
    decide (o.tokenIds = []) ||
      decide (msg.outputSeqNo.getD tokenIds.length = tokenIds.length) &&
        decide (o.tokenIds <+: tokenIds)

/-- Whether a completion has had its effect on a request. -/
def completionKept (w : World) (serial : Nat) : Bool :=
  !w.tracker.isCurrent serial || decide ((w.tracker.info serial).state = .finished) ||
    (w.output.stateOf (w.tracker.info serial).reqId).any OutputState.terminal

/-- The effect of a completion on a request that expects it. -/
def takeDecodeDone (serial : Nat) (msg : Message) : Loop Unit := do
  let req ← info serial
  commitDecodeDone req.reqId serial msg
  let req ← info serial
  when (decide (req.state = .decoding)) (transition req.reqId .finished id)
  when (!cfg.network) (releaseFinished serial)

def noteCompletion (serial : Nat) : Loop Unit := do
  let w ← Prog.read
  observe (.decodeDoneTaken serial (completionKept w serial))

def decodeDone (msg : Message) : Loop Unit := do
  let w ← Prog.read
  match addressee w msg with
  | none => return ()
  | some serial =>
    let req := w.tracker.info serial
    when (outputFence cfg w req msg) do
      observe (.decodeDonePolled serial req.state (w.output.stateOf req.reqId)
        (completionCommits w.output req.reqId msg))
      finallyDo
        (when (decide (req.state = .kvPending) || decide (req.state = .decoding))
          (takeDecodeDone cfg serial msg))
        (noteCompletion serial)

/-! ## Network control: authoritative output and release -/

def reconcileAuthoritativeOutput (serial : Nat) : Loop Unit := do
  let w ← Prog.read
  match queryIdentity w serial with
  | none => .raise (.value "output query is not ready")
  | some q => do
      let known ← snapshot q.reqId
      let o ← call (.requestOutput q.instanceId q.reqId known.tokenIds.length) Reply.outputOnly
      let w ← Prog.read
      if stillCurrent w q && answersQuery q o then do
        applyOutput q.reqId q.serial o.origin (o.tokenIds.getD []) (o.outputSeqNo.getD (-1))
          o.terminal o.error true
        let now ← snapshot q.reqId
        followOutput q.reqId now
      else .raise (.value "output query identity changed")

def followDecoding (now : Time) (serial : Nat) : Loop Unit := do
  let req ← info serial
  let o ← snapshot req.reqId
  when (decide (o.tokenIds ≠ [])) (recordFirstToken req.reqId)
  if o.closed then transition req.reqId .finished id
  else
    when (decide (cfg.outputQueryInterval ≤ now - req.lastOutputQueryAt)) do
      assign serial fun _ r => { r with lastOutputQueryAt := now }
      (reconcileAuthoritativeOutput serial).exceptException fun _ => .ret ()

/-- Bookkeeping of a request whose remote resources have been released. -/
def forgetRequest (serial : Nat) : Loop Unit := do
  terminalCleanupComplete serial
  let req ← info serial
  finishRequest req.reqId
  remove req.reqId

def releaseFinishedNetwork (serial : Nat) : Loop Unit := do
  let released ← cleanupRequest serial false
  when released do
    forgetRequest serial
    let req ← info serial
    markResourceFree req.reqId

def releaseAbortedNetwork (serial : Nat) : Loop Unit := do
  let released ← cleanupRequest serial true
  when released do
    forgetRequest serial
    let req ← info serial
    failOutput req.reqId "request_aborted"
    markResourceFree req.reqId

def networkPhase : Loop Unit := do
  let w ← Prog.read
  Prog.forEach (w.tracker.iterByState .decoding) (followDecoding cfg w.now)
  let w ← Prog.read
  Prog.forEach (w.tracker.iterByState .finished) releaseFinishedNetwork
  let w ← Prog.read
  Prog.forEach (w.tracker.iterByState .aborted) releaseAbortedNetwork

/-! ## The loop -/

/-- Handle every message of a subject. -/
def drain (subject : Subject) (handler : Message → Loop Unit) : Loop Unit := do
  let messages ← poll subject
  Prog.forEach messages handler

/-- Handle every request that a query of the tracker returns. -/
def sweep (query : Time → RequestTracker → List Nat) (handler : Nat → Loop Unit) :
    Loop Unit := do
  let w ← Prog.read
  Prog.forEach (query w.now w.tracker) handler

def suffixPhase : Loop Unit :=
  sweep (fun now => RequestTracker.getStuckSuffixPrefills now cfg.suffixPrefillTimeout)
    (stuckSuffix cfg)

def tick : Loop Unit := do
  waitingPhase cfg
  drain .suffixPrefillDone suffixPrefillDone
  when cfg.affinityEnabled (suffixPhase cfg)
  sweep (fun now => RequestTracker.getStuckPrefills now cfg.prefillTimeout) (stuckPrefill cfg)
  drain .prefillDone (prefillDone cfg)
  sweep (fun now => RequestTracker.getStuckRequests now cfg.kvTransferTimeout)
    (stuckTransfer cfg)
  drain .recomputeDone recomputeDone
  sweep (fun now => RequestTracker.getStuckRecomputes now cfg.recomputeTimeout)
    (stuckRecompute cfg)
  governorTick cfg
  drain .firstToken (firstTokenMessage cfg)
  drain .decodeProgress (decodeProgress cfg)
  drain .decodeDone (decodeDone cfg)
  when cfg.network (networkPhase cfg)
  sweep (fun now => RequestTracker.getStuckDecodes now cfg.decodeTimeout)
    (joinCanonicalCleanup cfg)

/-- Ticks with a sleep after each. -/
def scheduleLoop (cfg : Settings) : Nat → Loop Unit
  | 0 => .cut
  | rounds + 1 => do
      tick cfg
      pause .sleep
      scheduleLoop cfg rounds

end Loop

end PrismServe
