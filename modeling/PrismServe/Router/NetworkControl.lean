import PrismServe.World

/-!
# Network control client

Every remote mutation has an endpoint reference that is remembered under its
kind, instance and operation.  A reference whose mutation was attempted needs
cleanup: abort it, query it until it is terminal, finalise the endpoints that
still hold resources and release the decode slot last.

References that are ambiguous are attempted as well, so one list holds both.

The release evaluator takes any plan: it finalises the planned endpoints one by
one, remembers their acknowledgements over failed attempts, and releases the
quarantined slot when every endpoint has answered.
-/

namespace PrismServe

open Lib

namespace NetworkControl

def activeOperations (c : NetworkControl) : List String :=
  (c.refs.keys.map fun key => key.2.2).dedup

def ensureOperationCapacity (operationId : String) (c : NetworkControl) : Except Exc Unit :=
  if operationId ∈ c.retiredOperations then
    .error (.runtime "network operation is already resource-free terminal")
  else if operationId ∉ c.activeOperations ∧
      c.activeOperationCap ≤ c.activeOperations.length then
    .error (.runtime "active network operation capacity exhausted")
  else .ok ()

/-- The endpoint sequence allocator, shared with the scheduling loop. -/
def drawRef (instanceId epoch operationId : String) (c : NetworkControl) :
    EndpointRef × NetworkControl :=
  let sequence := (c.nextSequence.get? instanceId).getD 1
  (⟨sequence, instanceId, epoch, operationId⟩,
    { c with nextSequence := c.nextSequence.set instanceId (sequence + 1) })

def rememberRef (kind : RefKind) (instanceId operationId : String) (ref : EndpointRef)
    (c : NetworkControl) : NetworkControl :=
  { c with refs := c.refs.set (kind, instanceId, operationId) ref }

def allocate (kind : RefKind) (instanceId operationId : String) (c : NetworkControl) :
    Except Exc (EndpointRef × NetworkControl) :=
  match c.ensureOperationCapacity operationId with
  | .error e => .error e
  | .ok () =>
    match c.workerEpochs.get? instanceId with
    | none => .error (.key instanceId)
    | some epoch =>
      let (ref, c') := c.drawRef instanceId epoch operationId
      .ok (ref, c'.rememberRef kind instanceId operationId ref)

def rememberExternalRef (kind : RefKind) (instanceId operationId : String)
    (ref : EndpointRef) (c : NetworkControl) : Except Exc (Unit × NetworkControl) :=
  match c.ensureOperationCapacity operationId with
  | .error e => .error e
  | .ok () => .ok ((), c.rememberRef kind instanceId operationId ref)

def markRefAttempted (ref : EndpointRef) (c : NetworkControl) : NetworkControl :=
  { c with attemptedRefs := ref :: c.attemptedRefs }

def markExternalRefAttempted (ref : EndpointRef) (c : NetworkControl) :
    Except Exc (Unit × NetworkControl) :=
  if ref ∈ c.refs.values then .ok ((), c.markRefAttempted ref)
  else .error (.runtime "external endpoint ref was not remembered")

def refRequiresCleanup (c : NetworkControl) (ref : EndpointRef) : Bool :=
  decide (ref ∈ c.attemptedRefs)

/-- Remembered references of an operation that need cleanup. -/
def cleanupRefs (c : NetworkControl) (operationId : String) : List (RefKind × EndpointRef) :=
  (c.refs.entries.filter fun e =>
    decide (e.1.2.2 = operationId) && c.refRequiresCleanup e.2).map fun e => (e.1.1, e.2)

/-- Append to a bounded list, dropping the oldest entries beyond the cap. -/
def pushBounded (cap : Nat) (x : String) (l : List String) : List String :=
  let l' := l.filter (fun y => y ≠ x) ++ [x]
  l'.drop (l'.length - cap)

def retireOperation (operationId : String) (c : NetworkControl) :
    Except Exc (Unit × NetworkControl) :=
  if operationId ∈ c.normalTasks then
    .error (.runtime "cannot evict an active network task")
  else
    .ok ((), { c with
      refs := c.refs.filter fun key _ => decide (key.2.2 ≠ operationId)
      attemptedRefs := c.attemptedRefs.filter fun ref => decide (ref.operationId ≠ operationId)
      cleanupPlans := c.cleanupPlans.filter fun _ plan => decide (plan.operationId ≠ operationId)
      retiredOperations := pushBounded c.terminalSnapshotCap operationId c.retiredOperations })

/-- A plan is registered as active, once. -/
def activatePlan (plan : CleanupPlan) (c : NetworkControl) :
    Except Exc (Unit × NetworkControl) :=
  match c.activeEndpoint.get? plan.cleanupId with
  | some active =>
    if active = plan then .ok ((), c)
    else .error (.value "cleanup id reused with different plan")
  | none =>
    if c.activeOperationCap ≤ c.activeEndpoint.size then
      .error (.runtime "active cleanup capacity exhausted")
    else .ok ((), { c with activeEndpoint := c.activeEndpoint.set plan.cleanupId plan })

def acknowledge (cleanupId instanceId : String) (snapshot : FinalizeSnapshot)
    (c : NetworkControl) : NetworkControl :=
  { c with endpointAcks := c.endpointAcks.set (cleanupId, instanceId) snapshot }

/-- A completed release is remembered and replaces its plan and acknowledgements. -/
def completePlan (cleanupId : String) (result : List FinalizeSnapshot) (c : NetworkControl) :
    NetworkControl :=
  { c with
    completedEndpoint := ((c.completedEndpoint.set cleanupId result).moveToEnd
      cleanupId).keepNewest c.terminalSnapshotCap
    activeEndpoint := c.activeEndpoint.erase cleanupId
    endpointAcks := c.endpointAcks.filter fun key _ => decide (key.1 ≠ cleanupId) }

end NetworkControl

/-- The members of `TERMINAL_PREDICATES`. -/
def EndpointState.isTerminal : EndpointState → Bool
  | .completed => true
  | .fenced => true
  | _ => false

namespace CleanupPlan

/-- Held references and their resource kinds, by instance. -/
def groupHeld (snapshots : List (RefKind × EndpointRef × EndpointStatus)) :
    Dict String (List (EndpointRef × List String)) :=
  (snapshots.filter fun s => s.2.2.resourcesHeld).foldl
    (fun d s => d.set s.2.1.targetInstance
      ((d.get? s.2.1.targetInstance).getD [] ++
        [(s.2.1, (s.2.2.heldResourceKinds.toOption).getD [])]))
    Dict.empty

def endpointOf (group : String × List (EndpointRef × List String)) : EndpointFinalizePlan where
  instanceId := group.1
  endpointRefs := group.2.map Prod.fst
  resourceKinds := (group.2.flatMap Prod.snd).dedup.mergeSort fun a b => decide (a ≤ b)

/-- The groups in the order of the plan: a request's cleanup sorts them by instance. -/
def orderGroups (sorted : Bool) (groups : List (String × List (EndpointRef × List String))) :
    List (String × List (EndpointRef × List String)) :=
  if sorted then groups.mergeSort fun a b => decide (a.1 ≤ b.1) else groups

/-- The first kinds of a held reference that cannot be iterated, by their type. -/
def unreadable (snapshots : List (RefKind × EndpointRef × EndpointStatus)) : Option String :=
  (snapshots.filter fun s => s.2.2.resourcesHeld).findSome? fun s =>
    match s.2.2.heldResourceKinds with
    | .error typeName => some typeName
    | .ok _ => none

/-- Plan for the references that a cleanup has found terminal, when their kinds can be read. -/
def ofSnapshots (sorted : Bool) (cleanupId operationId : String) (leaseId : Nat)
    (snapshots : List (RefKind × EndpointRef × EndpointStatus)) : CleanupPlan where
  cleanupId := cleanupId
  operationId := operationId
  leaseId := leaseId
  predicates := snapshots.map fun s => ⟨s.1, s.2.2.state, s.2.1, s.2.2.resourcesHeld⟩
  endpoints := (orderGroups sorted (groupHeld snapshots).entries).map endpointOf

/-- Nothing to prove, or something not terminal yet. -/
def incomplete (plan : CleanupPlan) : Bool :=
  plan.predicates.isEmpty || plan.predicates.any fun p => !p.status.isTerminal

/-- References of the predicates that hold resources. -/
def expectedRefs (plan : CleanupPlan) : List EndpointRef :=
  (plan.predicates.filter fun p => p.resourcesHeld).map PredicateSnapshot.endpointRef

def plannedRefs (plan : CleanupPlan) : List EndpointRef :=
  plan.endpoints.flatMap EndpointFinalizePlan.endpointRefs

/-- Every held reference is finalised with some endpoint. -/
def covers (plan : CleanupPlan) : Bool :=
  plan.expectedRefs.all fun ref => decide (ref ∈ plan.plannedRefs)

end CleanupPlan

namespace Loop

def quarantineSlot (operationId : String) : Loop Unit :=
  onScheduler fun _ s =>
    match s.quarantineDecodeSlot operationId with
    | .ok s' => .ok ((), s')
    | .error e => .error e

/-- Acknowledgement of one endpoint: the remembered one, or that of a finalise call. -/
def finalizeEndpoint (timed : Bool) (plan : CleanupPlan) (endpoint : EndpointFinalizePlan) :
    Loop FinalizeSnapshot := do
  let w ← Prog.read
  match w.control.endpointAcks.get? (plan.cleanupId, endpoint.instanceId) with
  | some snapshot => return snapshot
  | none => do
      let snapshot ← callIn timed
        (.finalize plan.cleanupId plan.operationId plan.leaseId endpoint) Reply.finalizedOnly
      onControl fun c =>
        .ok ((), c.acknowledge plan.cleanupId endpoint.instanceId snapshot)
      return snapshot

/-- Acknowledgements of the endpoints, in the order of the plan. -/
def finalizeEndpoints (timed : Bool) (plan : CleanupPlan) :
    List EndpointFinalizePlan → Loop (List FinalizeSnapshot)
  | [] => .ret []
  | endpoint :: rest => do
      let snapshot ← finalizeEndpoint timed plan endpoint
      let others ← finalizeEndpoints timed plan rest
      return snapshot :: others

/-- The evaluator's `release_endpoint_terminal`: the slot is released last. -/
def releaseEndpointTerminal (timed : Bool) (plan : CleanupPlan) :
    Loop (Option (List FinalizeSnapshot)) := do
  let w ← Prog.read
  match w.control.completedEndpoint.get? plan.cleanupId with
  | some completed => do
      onControl fun c => .ok ((), { c with
        completedEndpoint := c.completedEndpoint.moveToEnd plan.cleanupId })
      return some completed
  | none =>
    if plan.incomplete then return none
    else if plan.covers = false then
      .raise (.value "endpoint finalize plan omits predicate refs")
    else do
      onControl (NetworkControl.activatePlan plan)
      let result ← finalizeEndpoints timed plan plan.endpoints
      let _ ← onScheduler fun _ s =>
        s.releaseQuarantinedDecodeSlot plan.operationId (some plan.leaseId)
          (some plan.cleanupId)
      onControl fun c => .ok ((), c.completePlan plan.cleanupId result)
      return some result

/-- The plan of a cleanup id: the first one that was made of its snapshots. -/
def cleanupPlan (snapshots : List (RefKind × EndpointRef × EndpointStatus)) (plan : CleanupPlan) :
    Loop CleanupPlan :=
  onControl fun c =>
    match c.cleanupPlans.get? plan.cleanupId with
    | some existing => .ok (existing, c)
    | none =>
      match CleanupPlan.unreadable snapshots with
      | some typeName => .error (.notIterable typeName)
      | none => .ok (plan, { c with cleanupPlans := c.cleanupPlans.set plan.cleanupId plan })

/-- Query references in order; `none` as soon as one is not proved terminal. -/
def queryTerminal (timed : Bool) :
    List (RefKind × EndpointRef) → Loop (Option (List (RefKind × EndpointRef × EndpointStatus)))
  | [] => .ret (some [])
  | (kind, ref) :: rest => do
      let status ← (do
          let s ← callIn timed (.endpointStatus ref) Reply.statusOnly
          return some s : Loop (Option EndpointStatus)).exceptException fun _ => .ret none
      match status with
      | none => return none
      | some s =>
        if s.state.isTerminal then do
          let others ← queryTerminal timed rest
          return others.map fun l => (kind, ref, s) :: l
        else return none

/-- Best-effort abort of every reference. -/
def abortRefs (timed : Bool) (refs : List (RefKind × EndpointRef)) : Loop Unit :=
  Prog.forEach refs fun x =>
    (callIn timed (.endpointAbort x.1 x.2) Reply.okOnly).exceptException fun _ => .ret ()

/-- References by endpoint sequence identity: the last one of a sequence in the first one's
place. -/
def dedupRefs (refs : List (RefKind × EndpointRef)) : List (RefKind × EndpointRef) :=
  (refs.foldl
    (fun (d : Dict (String × Nat) (RefKind × EndpointRef)) x =>
      d.set (x.2.targetInstance, x.2.operationSeq) x)
    Dict.empty).values

/-- The operation of a request: the active one, or the request itself. -/
def operationOf (req : RequestInfo) : String :=
  if req.activeOperationId = "" then req.reqId else req.activeOperationId

/-- Terminalise and query every reference of a request, then release the slot last. -/
def cleanupRequest (serial : Nat) (abort : Bool) : Loop Bool := do
  let w ← Prog.read
  let req := w.tracker.info serial
  let operationId := operationOf req
  match w.scheduler.slotLeases.get? operationId with
  | none => .raise (.value "normal request lost decode slot lease")
  | some lease =>
    if lease.state = .released then return true
    else do
      when (decide (lease.state ≠ .quarantined)) (quarantineSlot operationId)
      let w ← Prog.read
      if operationId ∈ w.control.normalTasks then return false
      else do
        let source := req.dispatchOperationRef.toList.map fun ref => (RefKind.requestSource, ref)
        let candidates := dedupRefs (source ++ w.control.cleanupRefs operationId)
        if candidates = [] then return false
        else do
          when abort (abortRefs false candidates)
          match ← queryTerminal false candidates with
          | none => return false
          | some snapshots => do
              let plan ← cleanupPlan snapshots (CleanupPlan.ofSnapshots true
                ("normal-cleanup:" ++ operationId) operationId lease.leaseId snapshots)
              match ← (releaseEndpointTerminal false plan).exceptException
                fun _ => .ret none with
              | none => return false
              | some _ => do
                  onControl (NetworkControl.retireOperation operationId)
                  return true

/-- Cleanup of a cached-prefix load; the network client never reports a commit. -/
def cleanupPrefixContext (operationId : String) : Loop CleanupAction := do
  let w ← Prog.read
  match w.scheduler.slotLeases.get? operationId with
  | none => .raise (.value "prefix cleanup lost decode slot lease")
  | some lease => do
      when (decide (lease.state ≠ .quarantined)) (quarantineSlot operationId)
      let w ← Prog.read
      let candidates := w.control.cleanupRefs operationId
      abortRefs true candidates
      match ← queryTerminal true candidates with
      | none => return .quarantined
      | some snapshots => do
          let plan ← cleanupPlan snapshots (CleanupPlan.ofSnapshots false
            ("prefix-cleanup:" ++ operationId) operationId lease.leaseId snapshots)
          match ← releaseEndpointTerminal true plan with
          | none => return .quarantined
          | some _ => do
              onControl (NetworkControl.retireOperation operationId)
              return .aborted

def markAttempted (ref : EndpointRef) : Loop Unit :=
  onControl fun c => .ok ((), c.markRefAttempted ref)

def prepareNormalRequest (target targetEpoch reqId : String) : Loop EndpointRef := do
  let w ← Prog.read
  match w.control.workerEpochs.get? target with
  | none => .raise (.key target)
  | some epoch =>
    if epoch ≠ targetEpoch then .raise (.value "target worker epoch changed")
    else do
      let ref ← onControl (NetworkControl.allocate .requestPrepare target reqId)
      markAttempted ref
      call (.prepareRequest target reqId) Reply.okOnly
      return ref

end Loop

end PrismServe
