import PrismServe.Router.Loader

/-!
# Handing transfers to the workers

Dispatch, completion and flushing of KV transfers.  With network control a
transfer is a task of its own; a legacy client may refuse it, accept it, or
call the completion before it returns.  A completion promotes the request and
then flushes the deferred transfers of the destination.

A completion inside a dispatch flushes the same queue that the dispatching loop
goes on to flush, so the loop alone models both.
-/

namespace PrismServe

open Lib

namespace Loop

/-- Bring a request to its end by the output that is known of it. -/
def followOutput (reqId : String) (o : OutputState) : Loop Unit := do
  when (decide (o.tokenIds ≠ [])) (recordFirstToken reqId)
  when o.closed (transition reqId .finished id)

/-- Called when the KV cache has reached the decode instance. -/
def onKvDone (reqId operationId : String) : Loop Unit := do
  let w ← Prog.read
  match w.tracker.get? reqId with
  | none => return ()
  | some serial =>
    let req := w.tracker.info serial
    if req.state ≠ .kvPending ∨ req.transferOperationId ≠ operationId ∨
        w.scheduler.epochMatches req.decodeInstance req.decodeInstanceEpoch = false then
      return ()
    else do
      when (decide (req.activeOperationId ≠ "")) (commitSlot req.activeOperationId)
      transition reqId .decoding id
      let o ← snapshot reqId
      followOutput reqId o

/-- Completion of a task; the answer tells whether the callback was current. -/
def completeTask (task : TransferTask) : Loop Bool := do
  let w ← Prog.read
  if w.governor.holds task then do
    onGovernor (TransferGovernor.discharge task)
    onKvDone task.reqId task.operationId
    return true
  else return false

/-- Undo the accounting of a dispatch that raised, unless it is gone already. -/
def undoDispatch (task : TransferTask) : Loop Unit :=
  onGovernor fun g => if g.holds task then g.discharge task else g

variable (cfg : Settings)

/-- Hand a task to the client; the answer tells whether it completed at once. -/
def dispatch (task : TransferTask) : Loop Bool := do
  onGovernor (TransferGovernor.charge task)
  let w ← Prog.read
  if cfg.network then
    if task.operationId ∈ w.control.normalTasks then return false
    else do
      onControl fun c => .ok ((), { c with normalTasks := task.operationId :: c.normalTasks })
      .spawn (.transfer task) (.ret false)
  else do
    .modify fun w => { w with dispatchCount := w.dispatchCount + 1 }
    match cfg.transferResult w.dispatchCount with
    | .accepted => return false
    | .raised => do
        undoDispatch task
        .raise .transferDispatch
    | .completedInline =>
      (completeTask task).exceptException fun _ => do
        undoDispatch task
        .raise .transferDispatch

/-- Dispatch from the front of a queue while the governor permits. -/
def flushQueue (cfg : Settings) (dst : String) : List TransferTask → Loop Unit
  | [] => .ret ()
  | task :: rest => do
      let w ← Prog.read
      if w.governor.canSend w.now task then do
        onGovernor (TransferGovernor.setQueue dst rest)
        let _ ← dispatch cfg task
        flushQueue cfg dst rest
      else return ()

def flushDeferred (dst : String) : Loop Unit := do
  let w ← Prog.read
  let queue := w.governor.queueOf dst
  onGovernor (TransferGovernor.setQueue dst queue)
  flushQueue cfg dst queue

def submit (task : TransferTask) : Loop Unit := do
  let w ← Prog.read
  if w.governor.canSend w.now task then do
    let completed ← dispatch cfg task
    when completed (flushDeferred cfg task.dst)
  else onGovernor (TransferGovernor.defer task)

/-- The callback of a task that was handed off. -/
def onComplete (task : TransferTask) : Loop Unit := do
  let current ← completeTask task
  when current (flushDeferred cfg task.dst)

/-- Flush every destination, as the tick of the governor does. -/
def governorTick : Loop Unit := do
  let w ← Prog.read
  Prog.forEach w.governor.deferred.keys fun dst => do
    let w ← Prog.read
    when (decide (w.governor.queueOf dst ≠ [])) (flushDeferred cfg dst)

/-- Commit the target request; a lost response is resolved by its exact reference. -/
def commitTarget (reqId : String) (ref : EndpointRef) : Loop Unit :=
  (call (.commitRequest reqId) Reply.okOnly).rescue fun e =>
    if e = .ambiguous then
      some do
        let s ← call (.endpointStatus ref) Reply.statusOnly
        match s.state with
        | .completed => return ()
        | .running => call (.commitRequest reqId) Reply.okOnly
        | .prepared => call (.commitRequest reqId) Reply.okOnly
        | _ => .raise .ambiguous
    else none

/-- The transfer task of the network client. -/
def runNormalTransfer (task : TransferTask) : Loop Unit :=
  finallyDo
    (do
      let targetRef ← onControl
        (NetworkControl.allocate .transferTarget task.dst task.operationId)
      let sourceRef ← onControl
        (NetworkControl.allocate .transferSource task.src task.operationId)
      runNcclPair false task.operationId sourceRef targetRef
      let commitRef ← onControl (NetworkControl.allocate .requestCommit task.dst task.reqId)
      markAttempted commitRef
      commitTarget task.reqId commitRef
      onComplete cfg task)
    (onControl fun c => .ok ((), { c with
      normalTasks := c.normalTasks.filter fun op => op ≠ task.operationId }))

/-- One usage sample of the collector: governor first, then scheduler. -/
def applyUsage (instanceId : String) (sample : Option KVUsageSample) : Loop Unit := do
  let w ← Prog.read
  let (crossed, g) := w.governor.updateKvUsage w.now instanceId sample
  onGovernor fun _ => g
  when crossed (flushDeferred cfg instanceId)
  onSchedulerPure (PDScheduler.updateKvUsage instanceId sample)

/-- The sample of an instance in a scrape, when it reports the expected epoch. -/
def scrapedSample (now : Time) (samples : List (String × Rat × String))
    (instanceId epoch : String) : Option KVUsageSample :=
  match samples.find? fun s => decide (s.1 = instanceId) with
  | none => none
  | some (_, ratio, reported) => if reported = epoch then some ⟨ratio, reported, now⟩ else none

/-- One scrape of the usage of all decode instances. -/
def scrapeUsage : Loop Unit := do
  let w ← Prog.read
  let names := w.scheduler.decodeSlots.keys
  let epochs := names.map fun id => (id, w.scheduler.instanceEpoch id)
  onGovernor (TransferGovernor.setExpectedEpochs
    (epochs.foldl (fun d e => d.set e.1 e.2) Dict.empty))
  (do
    let samples ← call .kvUsage Reply.usagesOnly
    let w ← Prog.read
    Prog.forEach epochs fun e =>
      applyUsage cfg e.1 (scrapedSample w.now samples e.1 e.2) : Loop Unit).exceptException
    fun _ => Prog.forEach names fun id => applyUsage cfg id none

end Loop

end PrismServe
