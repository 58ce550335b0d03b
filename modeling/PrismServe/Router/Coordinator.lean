import PrismServe.Router.Loader

/-!
# Affinity coordinator

A waiting request whose prompt has a cached prefix is loaded by a task of its
own.  The load promotes the request and dispatches the suffix; when it fails,
its remote steps are compensated, and when the compensation cannot be proved
within its watchdog a recovery task goes on until it is.

The entry of a task in the registries is dropped with the task itself.
-/

namespace PrismServe

open Lib

namespace Loop

variable (cfg : Settings)

/-- One attempt at compensating a load; `none` when it raised. -/
def cleanupAttempt (operationId : String) : Loop (Option CleanupAction) :=
  (do
    let action ← waitFor
      (if cfg.network then cleanupPrefixContext operationId else cleanupLoadContext operationId)
    return some action : Loop (Option CleanupAction)).exceptException fun _ => do
      let w ← Prog.read
      when ((w.scheduler.slotLeases.get? operationId).any fun lease =>
          decide (lease.state ≠ .released) && decide (lease.state ≠ .quarantined))
        (quarantineSlot operationId)
      pause (.cleanupPause operationId)
      return none

/-- Attempts until one succeeds or the watchdog expires; `none` stands for the watchdog. -/
def cleanupUntil (cfg : Settings) (operationId : String) (deadline : Time) :
    Nat → Loop (Option CleanupAction)
  | 0 => .cut
  | rounds + 1 => do
      let w ← Prog.read
      if w.now < deadline then do
        match ← cleanupAttempt cfg operationId with
        | some action => return some action
        | none => cleanupUntil cfg operationId deadline rounds
      else return none

def cleanup (operationId : String) : Loop (Option CleanupAction) := do
  let w ← Prog.read
  cleanupUntil cfg operationId (w.now + cfg.prefixOperationWatchdog) cfg.rounds

def retainForRecovery (reqId operationId : String) : Loop Unit := do
  let w ← Prog.read
  if operationId ∈ w.coordinator.recoveryTasks then return ()
  else do
    onCoordinator fun c => { c with recoveryTasks := operationId :: c.recoveryTasks }
    .spawn (.recover reqId operationId) (.ret ())

def sourcePinned (w : World) (operationId : String) : Bool :=
  (w.coordinator.loads.get? operationId).any PrefixLoadContext.sourcePinned

def releaseSourceAfterCommit (operationId : String) : Loop Unit := do
  let w ← Prog.read
  if cfg.network ∨ sourcePinned w operationId = false ∨
      operationId ∈ w.coordinator.sourceReleaseTasks then return ()
  else do
    onCoordinator fun c => { c with sourceReleaseTasks := operationId :: c.sourceReleaseTasks }
    .spawn (.releaseSource operationId) (.ret ())

/-- Unpin the source until the call succeeds. -/
def releaseSourceUntilProven (operationId : String) : Nat → Loop Unit
  | 0 => .cut
  | rounds + 1 => do
      let w ← Prog.read
      match w.coordinator.loads.get? operationId with
      | none => return ()
      | some context =>
        if context.sourcePinned then do
          let released ← (do
              waitFor (unpinPrefix context.sourceInstance operationId)
              return true : Loop Bool).exceptException fun _ => do
                pause (.reconcilePause operationId)
                return false
          if released then clearPin operationId
          else releaseSourceUntilProven operationId rounds
        else return ()

def dropContext (operationId : String) : Loop Unit :=
  onCoordinator fun c => { c with contexts := c.contexts.filter fun op => op ≠ operationId }

/-- A committed context is forgotten only after the release of its request. -/
def terminalCleanupComplete (serial : Nat) : Loop Unit := do
  let w ← Prog.read
  let operationId := (w.tracker.info serial).activeOperationId
  when (decide (operationId ∈ w.coordinator.contexts)) do
    dropContext operationId
    clearPin operationId

/-- What a proved compensation means for the request that is still on the operation. -/
def settleRecovered (reqId operationId : String) (action : CleanupAction) : Loop Unit := do
  let w ← Prog.read
  match w.tracker.get? reqId with
  | none => return ()
  | some serial =>
    let current := w.tracker.info serial
    if current.activeOperationId ≠ operationId then return ()
    else
      match action, current.state with
      | .aborted, .affinityLoading =>
        transition reqId .waiting fun r => { r with activeOperationId := "" }
      | .aborted, .prefixPrefilling => do
          transition reqId .aborted id
          observe (.removedSilently serial)
          remove reqId
      | .committed, .affinityLoading => transition reqId .prefixPrefilling id
      | _, _ => return ()

def recoverUntilProven (cfg : Settings) (reqId operationId : String) : Nat → Loop Unit
  | 0 => .cut
  | rounds + 1 => do
      match ← cleanup cfg operationId with
      | none => do
          pause (.reconcilePause operationId)
          recoverUntilProven cfg reqId operationId rounds
      | some .quarantined => do
          pause (.reconcilePause operationId)
          recoverUntilProven cfg reqId operationId rounds
      | some action => do
          settleRecovered reqId operationId action
          observe (.contextSettled operationId action)
          dropContext operationId

/-- What the start of a load records about a request. -/
def loading (operationId decodeInstance decodeEpoch : String) (r : RequestInfo) : RequestInfo :=
  { r with
    activeOperationId := operationId
    decodeInstance := decodeInstance
    decodeInstanceEpoch := decodeEpoch }

/-- The context of a load that starts. -/
def openContext (reqId operationId : String) (decision : CachedPrefixDecision)
    (c : AffinityCoordinator) : AffinityCoordinator :=
  { c with
    loads := c.loads.set operationId
      { operationId := operationId
        reqId := reqId
        sourceInstance := decision.sourceInstance
        targetInstance := decision.decodeInstance }
    contexts := operationId :: c.contexts }

/-- Reserve a slot for the first decision that still has one and start its load. -/
def startLoad (cfg : Settings) (serial : Nat) : List CachedPrefixDecision → Loop Bool
  | [] => .ret false
  | decision :: rest => do
      let w ← Prog.read
      let reqId := (w.tracker.info serial).reqId
      let operationId ← mint cfg
      let lease ← onScheduler fun now s =>
        s.reserveDecodeSlot now decision.decodeInstance reqId operationId
      match lease with
      | none => startLoad cfg serial rest
      | some _ => do
          let w ← Prog.read
          transition reqId .affinityLoading (loading operationId decision.decodeInstance
            (w.scheduler.instanceEpoch decision.decodeInstance))
          onCoordinator (openContext reqId operationId decision)
          .spawn (.load reqId operationId decision) (.ret true)

def shouldWait (now : Time) (req : RequestInfo) : Bool :=
  decide (now - req.arrivedAt < cfg.localityWait)

def tryStart (serial : Nat) : Loop Bool := do
  let w ← Prog.read
  let candidates := (w.scheduler.decodeSlots.entries.filter
    fun e => decide (0 < e.2.free)).map Prod.fst
  if candidates = [] then return false
  else do
    let decisions := (cfg.routes w.routeCount).filter
      fun d => decide (d.decodeInstance ∈ candidates)
    .modify fun w => { w with routeCount := w.routeCount + 1 }
    if ← startLoad cfg serial decisions then return true
    else do
      let w ← Prog.read
      let req := w.tracker.info serial
      if req.correctnessPath = "same_instance" ∨ req.correctnessPath = "cross_instance" then
        return true
      else return decide (decisions ≠ []) && shouldWait cfg w.now req

/-- The reference of a suffix dispatch; only the network client has one. -/
def suffixRef (operationId target epoch : String) : Loop (Option EndpointRef) :=
  if cfg.network then do
    let ref ← onControl fun c => .ok (c.drawRef target epoch operationId)
    onControl (NetworkControl.rememberExternalRef .suffix target operationId ref)
    onControl (NetworkControl.markExternalRefAttempted ref)
    return some ref
  else .ret none

def markSuffixAmbiguous (ref : Option EndpointRef) : Loop Unit :=
  match ref with
  | none => .ret ()
  | some ref => onControl (NetworkControl.markExternalRefAttempted ref)

/-- The part of a load that may raise. -/
def loadAndDispatch (serial : Nat) (reqId operationId : String)
    (decision : CachedPrefixDecision) : Loop Unit := do
  let req ← info serial
  waitFor (loadCachedPrefix cfg.network operationId req.decodeInstanceEpoch decision)
  let w ← Prog.read
  let current := (w.tracker.get? reqId).map w.tracker.info
  if current.any (fun r => decide (r.state = .affinityLoading) &&
      decide (r.activeOperationId = operationId)) = false then do
    let _ ← cleanup cfg operationId
    return ()
  else do
    commitSlot operationId
    transition reqId .prefixPrefilling id
    releaseSourceAfterCommit cfg operationId
    let req ← info serial
    let ref ← suffixRef cfg operationId decision.decodeInstance req.decodeInstanceEpoch
    (call (.publishSuffix decision.decodeInstance operationId) Reply.okOnly).rescue fun e =>
      some do
        markSuffixAmbiguous ref
        .raise e

/-- Handler of `PrefixLoadError` and of the load timeout. -/
def loadErrored (reqId operationId : String) : Loop Unit := do
  let outcome ← cleanup cfg operationId
  observe (.loadFailed operationId .loadError outcome)
  let w ← Prog.read
  let current := (w.tracker.get? reqId).map w.tracker.info
  if outcome = some .aborted ∧
      current.any (fun r => decide (r.state = .affinityLoading) &&
        decide (r.activeOperationId = operationId)) then
    transition reqId .waiting fun r => { r with activeOperationId := "" }
  else when (decide (outcome = none)) (retainForRecovery reqId operationId)

/-- Handler of every other exception. -/
def loadCrashed (reqId operationId : String) : Loop Unit := do
  let w ← Prog.read
  if (w.coordinator.loads.get? operationId).any fun x => decide (x.stage = .committed) then
    releaseSourceAfterCommit cfg operationId
  else do
    let outcome ← cleanup cfg operationId
    observe (.loadFailed operationId .otherError outcome)
    when (decide (outcome = none)) (retainForRecovery reqId operationId)

/-- The task of a load. -/
def runLoad (reqId operationId : String) (decision : CachedPrefixDecision) : Loop Unit := do
  let w ← Prog.read
  match w.tracker.get? reqId with
  | none => return ()
  | some serial =>
    if operationId ∉ w.coordinator.contexts then .raise (.key operationId)
    else
      (loadAndDispatch cfg serial reqId operationId decision).rescue fun e =>
        match e with
        | .cancelled => some do
            let _ ← cleanup cfg operationId
            .raise .cancelled
        | .deadline => none
        | .prefixLoad => some (loadErrored cfg reqId operationId)
        | .timeout => some (loadErrored cfg reqId operationId)
        | _ => some (loadCrashed cfg reqId operationId)

/-- The suffix of a request timed out; `none` keeps the request for a recovery. -/
def cleanupSuffix (serial : Nat) : Loop (Option CleanupAction) := do
  let w ← Prog.read
  let req := w.tracker.info serial
  let operationId := req.activeOperationId
  if operationId ∉ w.coordinator.contexts then return none
  else do
    match ← cleanup cfg operationId with
    | none => do
        retainForRecovery req.reqId operationId
        return none
    | some .quarantined => do
        retainForRecovery req.reqId operationId
        return none
    | some action => do
        observe (.contextSettled operationId action)
        dropContext operationId
        return some action

end Loop

end PrismServe
