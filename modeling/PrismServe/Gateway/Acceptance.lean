import PrismServe.Lib.Crew
import PrismServe.Gateway.GatewayState
import PrismServe.Scheduler.Quarantine

/-!
# Accepting a replacement topology

`acceptReplacementTopology` validates a request, stops the mutators of the old
world, freezes its requests and leases, has the new workers take over the owner
and report, records the release of every frozen lease, commits the new registry,
releases the leases, publishes the new world, seals the run and opens admission
again.  A request for a run that got further in an earlier attempt is sent to
one of the recoveries.

`_refresh_worker_world_once` runs beside it and decides about admission from the
registry that it found when it began.

The log is for the record and nothing in the code reads it; the mutators of a
scheduler that were joined are told by it to create no more leases.  Statements
that the source could see fail take their turn in `faults`.
-/

namespace PrismServe

open Lib ReplacementDecisionStore

/-- What the gateway is built with. -/
structure GatewayConfig where
  digests : Digests
  hashing : Hashing
  limits : StoreLimits := {}
  /-- The digest of the sorted ids of the operations and of the resources that are excluded. -/
  exclusion : List String → List String → String
  /-- The text of a lease id. -/
  leaseText : Nat → String
  highWatermark : Rat := 85 / 100
  kvUsageStaleAfter : Time := 10
  exclusion_ne_empty : ∀ l l', exclusion l l' ≠ ""

/-- The steps of a replacement that are told apart. -/
inductive AcceptPoint
  | joining
  /-- The frozen operations are compared with those of the request. -/
  | freezing
  | takeover
  | firstPull
  | draining
  | building
  | persisting
  /-- The records are durable. -/
  | persisted
  | releasing
  | rebuilding
  | finalPull
  | sealing
  | lastPull
  | finalizing
  deriving DecidableEq, Repr

/-- What happened, for the record. -/
inductive GatewayMoment
  /-- The mutators of a scheduler were joined. -/
  | joined (scheduler : SchedulerRef)
  /-- The frozen leases could not be recorded; what that has left. -/
  | persistFailed (scheduler : SchedulerRef) (leases : List DecodeSlotLease) (app : AppState)
  /-- A lease was released on a record, in the given state. -/
  | released (scheduler : SchedulerRef) (record : ReplacementReleaseRecord) (app : AppState)
  /-- The evaluator of a scheduler brought a seal into the file; what that has left. -/
  | sealed (scheduler : SchedulerRef) (runSeal : ReplacementRunSeal) (app : AppState)
  /-- A run has replaced a scheduler. -/
  | published (run : String) (old : SchedulerRef)
  /-- A topology acceptance became pending. -/
  | opened
  /-- The pending acceptance was completed in the given state. -/
  | cleared (app : AppState)
  | reached (point : AcceptPoint)

structure Gateway where
  app : AppState := {}
  log : List GatewayMoment := []

inductive GatewayCall
  | joinLoop
  | quiesceNetwork
  | shutdownCoordinator
  | quiesceCleanup
  | joinReconciler
  | activateOwner (instances : List String)
  | pullResources (registry : RegistryRef) (instances : List String)
  | failOutput (reqId : String)
  | rebuildPrefix (expected : Epochs)
  /-- The identity, the capabilities and the report of an instance are pulled. -/
  | pullEvidence (instanceId : String)
  deriving DecidableEq, Repr

inductive GatewayReply
  | ok
  | raised (e : AcceptError)
  /-- The reports with the times at which they were received; one that is no object is `none`. -/
  | reports (samples : List (Option ResourceReport × Nat))
  /-- The instances and epochs of the full prefix reports. -/
  | prefixReports (reports : Epochs)
  /-- What an instance says of itself; a part that is malformed is `none`. -/
  | evidence (identity : Option WorkerIdentity) (capabilities : Option (List PairCapability))
      (report : Option ResourceReport) (receivedAt : Nat)
  deriving DecidableEq, Repr

abbrev Accept (α : Type) := Prog Gateway GatewayCall GatewayReply AcceptError Empty α

namespace Gateway

def note (m : GatewayMoment) (g : Gateway) : Gateway := { g with log := g.log ++ [m] }

def onApp (f : AppState → AppState) (g : Gateway) : Gateway := { g with app := f g.app }

end Gateway

namespace Accept

variable {α : Type}

def app : Accept AppState := Prog.read.bind fun g => .ret g.app

def update (f : AppState → AppState) : Accept Unit := Prog.modify (Gateway.onApp f)

def note (m : GatewayMoment) : Accept Unit := Prog.modify (Gateway.note m)

def reach (point : AcceptPoint) : Accept Unit := note (.reached point)

/-- A change of the application that leaves it alone when it fails. -/
def attempt (f : AppState → Except AcceptError AppState) : Accept Unit :=
  Prog.attempt fun g =>
    match f g.app with
    | .ok a => .ok ((), { g with app := a })
    | .error e => .error e

/-- A change of the application that may fail half way. -/
def attemptWith (f : AppState → Except AcceptError α × AppState) : Accept α :=
  Prog.attemptWith fun g => ((f g.app).1, { g with app := (f g.app).2 })

/-- A statement that may fail. -/
def mayRaise : Accept Unit :=
  attemptWith fun a =>
    match a.faults with
    | true :: rest => (.error (.exc .other), { a with faults := rest })
    | false :: rest => (.ok (), { a with faults := rest })
    | [] => (.ok (), a)

/-- A call of which only the end matters. -/
def call (c : GatewayCall) : Accept Unit :=
  .await c fun reply =>
    match reply with
    | .ok => .ret ()
    | .raised e => .raise e
    | _ => .raise (.exc .other)

/-- A control task was cancelled and is joined, whatever comes of the joining task. -/
def join (c : GatewayCall) (stop : AppState → AppState) : Accept Unit :=
  .await c fun reply => do
    update stop
    match reply with
    | .ok => return ()
    | .raised e => .raise e
    | _ => .raise (.exc .other)

/-! ## Reports of the new workers -/

/-- The reports are taken over one after the other and must mention nothing excluded. -/
def takeSamples (now : Nat) (operations resources : List String) :
    List (String × Option ResourceReport × Nat) → WorkerRegistry →
      Except AcceptError (List (String × ResourceReport)) × WorkerRegistry
  | [], r => (.ok [], r)
  | (name, none, _) :: _, r =>
    (.error (.value ("replacement resource report for " ++ name ++ " is not an object")), r)
  | (name, some report, receivedAt) :: rest, r =>
    match r.updateResourceReport now name report (some receivedAt) with
    | (false, r') =>
      (.error (.value ("replacement resource report for " ++ name ++ " is invalid")), r')
    | (true, r') =>
      match report.operationIds, report.resourceIds with
      | .list operationIds, .list resourceIds =>
        if operationIds.any (operations.contains ·) then
          (.error (.value ("replacement worker " ++ name ++
            " still reports an old operation")), r')
        else if resourceIds.any (resources.contains ·) then
          (.error (.value ("replacement worker " ++ name ++
            " still reports an old resource")), r')
        else
          match takeSamples now operations resources rest r' with
          | (.ok reports, r'') => (.ok ((name, report) :: reports), r'')
          | (.error e, r'') => (.error e, r'')
      | _, _ =>
        (.error (.value
          "replacement resource report must exhaustively list operations and resources"), r')

/-- The reports that were pulled are installed in the registry, which must be fresh then. -/
def installSamples (ref : RegistryRef) (operations resources : List String)
    (samples : List (String × Option ResourceReport × Nat)) (a : AppState) :
    Except AcceptError (List (String × ResourceReport)) × AppState :=
  match a.registries[ref]? with
  | none => (.error (.exc .other), a)
  | some r =>
    match takeSamples a.now operations resources samples r with
    | (.error e, r') => (.error e, a.setRegistry ref r')
    | (.ok reports, r') =>
      if r'.worldFresh a.now then (.ok reports, a.setRegistry ref r')
      else
        (.error (.value "replacement worker world is not fresh after report pull"),
          a.setRegistry ref r')

/-- The names of the workers of a registry, in their order. -/
def instancesOf (ref : RegistryRef) (a : AppState) : List String :=
  sortedNames ((a.registries[ref]?.map (·.members.keys)).getD [])

/-- `_pull_replacement_resource_reports`. -/
def pullReplacementResourceReports (ref : RegistryRef) (operations resources : List String) :
    Accept (List (String × ResourceReport)) := do
  let a ← app
  .await (.pullResources ref (instancesOf ref a)) fun reply =>
    match reply with
    | .reports samples =>
      attemptWith (installSamples ref operations resources ((instancesOf ref a).zip samples))
    | .raised e => .raise e
    | _ => .raise (.exc .other)

/-! ## Beginning and end -/

def beginTopologyAcceptance (generation : String) : Accept Unit := do
  attempt (·.beginTopologyAcceptance generation)
  note .opened

variable (cfg : GatewayConfig)

def finalizeTopologyAcceptance (generation : String) : Accept Unit :=
  Prog.attempt fun g =>
    match g.app.finalizeTopologyAcceptance cfg.limits generation with
    | .ok a => .ok ((), { app := a, log := g.log ++ [.cleared g.app] })
    | .error e => .error e

/-- The evidence of a request, with the reports that were pulled. -/
def evidenceOf (body : AcceptBody) (record : RestartRunRecord)
    (reports : List (String × ResourceReport)) : ReplacementEvidence where
  restartRunId := record.restartRunId
  oldTopologyGeneration := record.oldTopologyGeneration
  newTopologyGeneration := record.newTopologyGeneration
  oldTerminationProofDigests := record.terminationProofDigests
  freshResourceReportDigests := reports.map fun entry => cfg.digests.report entry.2
  excludedOldOperationDigest :=
    cfg.exclusion (sortedNames (body.oldOperationIds.getD []))
      (sortedNames (body.oldResourceIds.getD []))
  accepted := record.accepted
  decisionDigest := record.decisionDigest

/-- The run is sealed by the evaluator of a scheduler. -/
def sealRunOf (ref : SchedulerRef) (evidence : ReplacementEvidence)
    (a : AppState) : Except AcceptError ReplacementRunSeal × AppState :=
  match a.schedulers[ref]? with
  | none => (.error (.exc .other), a)
  | some s =>
    ((sealWholeWorldReplacement cfg.hashing cfg.limits evidence s a.replacementStore).1,
      { a with replacementStore :=
          (sealWholeWorldReplacement cfg.hashing cfg.limits evidence s a.replacementStore).2 })

/-- The seals that a step has brought into the file, whether or not it was reported to fail. -/
def sealMoments (ref : SchedulerRef) (before after : AppState) : List GatewayMoment :=
  ((fileSeals after.replacementStore.directory).filter fun runSeal =>
    decide (runSeal ∉ fileSeals before.replacementStore.directory)).map (.sealed ref · after)

def sealReplacement (ref : SchedulerRef) (evidence : ReplacementEvidence) : Accept Unit :=
  Prog.attemptWith fun g =>
    ((sealRunOf cfg ref evidence g.app).1.map fun _ => (),
      { app := (sealRunOf cfg ref evidence g.app).2
        log := g.log ++ sealMoments ref g.app (sealRunOf cfg ref evidence g.app).2 })

def changeLedger (f : Registries → TopologyLedger → Except Exc TopologyLedger) (a : AppState) :
    Except AcceptError AppState :=
  match f a.registries a.topologyAdmin with
  | .ok ledger => .ok { a with topologyAdmin := ledger }
  | .error e => .error (.exc e)

/-! ## Recoveries -/

/-- Two dictionaries of members agree. -/
def sameMembers (a b : Dict String WorkerIdentity) : Bool :=
  a.entries.all (fun e => decide (b.get? e.1 = some e.2)) &&
    b.entries.all (fun e => decide (a.get? e.1 = some e.2))

/-- `_canonical_worker_identity_map`. -/
def canonicalWorkerIdentityMap (values : List WireIdentity) :
    Except Exc (Dict String WorkerIdentity) := do
  let identities ← values.mapM parseWorkerIdentity
  let result := identities.foldl (fun d i => d.set i.instanceId i) Dict.empty
  require (decide (identities.length = 4) && sameNames result.keys memberNames)
    "replacement requires four unique worker identities"
  return result

/-- The identities and capabilities of a request are those of the live world. -/
def checkLiveWorld (recovery : String) (body : AcceptBody) (registry : WorkerRegistry) :
    Except Exc Unit := do
  let identities ← canonicalWorkerIdentityMap body.identities
  require (sameMembers identities registry.members)
    (recovery ++ " identities do not match live world")
  require (WorkerRegistry.sameCapabilities
      (body.pairCapabilities.foldl (fun d c => d.set c.pairId c) Dict.empty) registry.capabilities)
    (recovery ++ " pair probes do not match live world")

/-- The registry of the ledger. -/
def ledgerRegistry (a : AppState) : Except AcceptError WorkerRegistry :=
  match a.registries[a.topologyAdmin.registry]? with
  | some r => .ok r
  | none => .error (.exc .other)

/-- A check of the application. -/
def check (f : AppState → Except AcceptError Unit) : Accept Unit :=
  attempt fun a => do
    f a
    return a

/-- The reports of a cold request are taken over by the live registry. -/
def takeColdReports (now : Nat) (operations resources : List String) :
    List (String × ResourceReport) → WorkerRegistry → Except AcceptError Unit × WorkerRegistry
  | [], r => (.ok (), r)
  | (name, report) :: rest, r =>
    match r.updateResourceReport now name report none with
    | (false, r') => (.error (.value "cold replacement resource report is invalid"), r')
    | (true, r') =>
      match report.operationIds, report.resourceIds with
      | .list operationIds, .list resourceIds =>
        if operationIds.any (operations.contains ·) ||
            resourceIds.any (resources.contains ·) then
          (.error (.value "cold replacement report still contains old resources"), r')
        else if report.excludedOperationIds ≠ some (sortedNames operations) then
          (.error (.value "cold replacement report omits old operations"), r')
        else if report.excludedResourceIds ≠ some (sortedNames resources) then
          (.error (.value "cold replacement report omits old resources"), r')
        else takeColdReports now operations resources rest r'
      | _, _ =>
        (.error (.value "cold replacement report ids must be exhaustive lists"), r')

/-- The checks of a cold recovery before the reports of the request. -/
def checkColdRecovery (body : AcceptBody) (a : AppState) : Except AcceptError Unit := do
  let registry ← ledgerRegistry a
  if body.restartRunId = "" ∨ body.oldTopologyGeneration = "" ∨
      body.newTopologyGeneration = "" then
    throw (.value "cold replacement recovery requires run and generations")
  if body.oldTopologyGeneration = body.newTopologyGeneration then
    throw (.value "cold replacement recovery requires a fresh generation")
  if registry.expectedTopologyGeneration ≠ body.newTopologyGeneration then
    throw (.value "cold replacement recovery registry generation mismatch")
  AcceptError.ofStore
    (validateColdRecoveryBase body.oldTopologyGeneration a.replacementStore.store)
  if a.schedulers[a.scheduler]?.any fun s => decide (s.replacementDecodeLeases ≠ []) then
    throw (.value "cold replacement recovery cannot own old local leases")
  if a.tracker ≠ [] then
    throw (.value "cold replacement recovery cannot own old requests")
  AcceptError.ofExc (validatePhysicalTerminationRecords cfg.digests body)
  AcceptError.ofExc (checkLiveWorld "cold replacement" body registry)
  match body.oldOperationIds, body.oldResourceIds with
  | some operations, some resources =>
    if ¬ (operations.Nodup ∧ resources.Nodup) then
      throw (.value "cold replacement old id snapshots must be unique")
    if sameNames (body.resourceReports.map (·.1)) registry.members.keys = false then
      throw (.value "cold replacement requires four resource reports")
  | _, _ => throw (.value "cold replacement old id snapshots must be lists")

def installColdReports (body : AcceptBody) (a : AppState) :
    Except AcceptError Unit × AppState :=
  match a.registries[a.topologyAdmin.registry]? with
  | none => (.error (.exc .other), a)
  | some r =>
    ((takeColdReports a.now (body.oldOperationIds.getD []) (body.oldResourceIds.getD [])
        body.resourceReports r).1,
      a.setRegistry a.topologyAdmin.registry
        (takeColdReports a.now (body.oldOperationIds.getD []) (body.oldResourceIds.getD [])
          body.resourceReports r).2)

/-- An empty segment of a run is opened in the store. -/
def persistEmptyRun (body : AcceptBody) (a : AppState) :
    Except AcceptError (List ReplacementReleaseRecord) × AppState :=
  ((runStore (persistRecords cfg.hashing cfg.limits [] body.restartRunId
      body.oldTopologyGeneration (some body.digest)) a.replacementStore).1,
    { a with replacementStore :=
        (runStore (persistRecords cfg.hashing cfg.limits [] body.restartRunId
          body.oldTopologyGeneration (some body.digest)) a.replacementStore).2 })

/-- `_recover_cold_replacement`. -/
def recoverColdReplacement (body : AcceptBody) : Accept RestartRunRecord := do
  let ref := (← app).topologyAdmin.registry
  check (checkColdRecovery cfg body)
  attemptWith (installColdReports body)
  let reports ← pullReplacementResourceReports ref (body.oldOperationIds.getD [])
    (body.oldResourceIds.getD [])
  let record := recordOf cfg.digests body
  let _ ← attemptWith (persistEmptyRun cfg body)
  sealReplacement cfg (← app).resourceReleaseEvaluator
    (evidenceOf cfg body record reports)
  attempt (changeLedger fun heap L => L.recoverCommittedRun record heap)
  finalizeTopologyAcceptance cfg body.newTopologyGeneration
  return record

/-- The checks of a recovery of a sealed run. -/
def checkSealedRecovery (body : AcceptBody) (a : AppState) : Except AcceptError Unit := do
  let registry ← ledgerRegistry a
  let completed ← AcceptError.ofStore (exactCompletedRun cfg.hashing body.restartRunId
    body.oldTopologyGeneration body.newTopologyGeneration body.digest a.replacementStore.store)
  if completed.isNone then
    throw (.value "sealed replacement completion is no longer retained")
  if a.workerRegistry ≠ a.topologyAdmin.registry then
    throw (.value "sealed replacement replay requires the installed candidate runtime")
  if registry.expectedTopologyGeneration ≠ body.newTopologyGeneration then
    throw (.value "sealed replacement replay generation mismatch")
  AcceptError.ofExc (checkLiveWorld "sealed replacement" body registry)

/-- `_recover_sealed_replacement`. -/
def recoverSealedReplacement (body : AcceptBody) : Accept RestartRunRecord := do
  let ref := (← app).topologyAdmin.registry
  check (checkSealedRecovery cfg body)
  let _ ← pullReplacementResourceReports ref (body.oldOperationIds.getD [])
    (body.oldResourceIds.getD [])
  let record := recordOf cfg.digests body
  attempt (changeLedger fun heap L => L.recoverCommittedRun record heap)
  finalizeTopologyAcceptance cfg body.newTopologyGeneration
  return record

/-- The checks of a recovery of a run that was not sealed. -/
def checkUnsealedRecovery (body : AcceptBody) (a : AppState) : Except AcceptError Unit := do
  let registry ← ledgerRegistry a
  AcceptError.ofStore (validateActiveRun cfg.hashing body.restartRunId body.oldTopologyGeneration
    body.digest a.replacementStore.store)
  if registry.expectedTopologyGeneration ≠ body.newTopologyGeneration then
    throw (.value "replacement recovery registry generation mismatch")
  AcceptError.ofExc (checkLiveWorld "replacement recovery" body registry)
  AcceptError.ofExc (validatePhysicalTerminationRecords cfg.digests body)

/-- The reports of a request name the members of the live world. -/
def checkReportNames (body : AcceptBody) (a : AppState) : Except AcceptError Unit := do
  let registry ← ledgerRegistry a
  if sameNames (body.resourceReports.map (·.1)) registry.members.keys = false then
    throw (.value "replacement recovery body requires four resource reports")

/-- `_recover_unsealed_replacement`. -/
def recoverUnsealedReplacement (body : AcceptBody) : Accept RestartRunRecord := do
  let ref := (← app).topologyAdmin.registry
  check (checkUnsealedRecovery cfg body)
  let reports ← pullReplacementResourceReports ref (body.oldOperationIds.getD [])
    (body.oldResourceIds.getD [])
  check (checkReportNames body)
  let record := recordOf cfg.digests body
  sealReplacement cfg (← app).resourceReleaseEvaluator
    (evidenceOf cfg body record reports)
  attempt (changeLedger fun heap L => L.recoverCommittedRun record heap)
  finalizeTopologyAcceptance cfg body.newTopologyGeneration
  return record

/-! ## The old world -/

/-- A coordinator exists with affinity routing only. -/
def stopCoordinator (old : AppState) : Accept Unit :=
  if old.affinityEnabled then call .shutdownCoordinator else .ret ()

def stopReconciler (task : Nat) (old : AppState) : Accept Unit :=
  if old.reconcilerTask.isSome then do
    attempt (·.beginExpectedReconcilerReplacement task)
    join .joinReconciler fun a => { a with reconcilerTask := a.reconcilerTask.map ControlTask.stop }
  else .ret ()

/-- Every mutator of the old world is stopped. -/
def stopOldWorld (task : Nat) (old : AppState) : Accept Unit := do
  join .joinLoop fun a => { a with loopTask := a.loopTask.stop }
  call .quiesceNetwork
  stopCoordinator old
  call .quiesceCleanup
  note (.joined old.scheduler)
  stopReconciler task old

/-- The requests and leases of the old world. -/
structure Frozen where
  requests : List RunningRequest
  leases : List DecodeSlotLease
  deriving DecidableEq, Repr

def frozenOf (ref : SchedulerRef) (a : AppState) : Frozen where
  requests := a.tracker
  leases := (a.schedulers[ref]?.map (·.replacementDecodeLeases)).getD []

/-- The operations of the old world that a request leaves out. -/
def Frozen.missing (operations : List String) (f : Frozen) : List String :=
  (f.leases.map (·.operationId) ++ f.requests.flatMap RunningRequest.operations).dedup.filter
    fun op => !operations.contains op

def freeze (ref : SchedulerRef) (body : AcceptBody) : Accept Frozen := do
  let frozen := frozenOf ref (← app)
  let missing := frozen.missing (body.oldOperationIds.getD [])
  if missing ≠ [] then
    .raise (.value ("replacement evidence omits frozen operations: " ++
      quotedList (sortedNames missing)))
  else return frozen

/-- A request of the old world ends with an error and is forgotten. -/
def failFrozen (r : RunningRequest) : Accept Unit := do
  call (.failOutput r.reqId)
  update fun a => { a with tracker := a.tracker.filter fun other => decide (other.reqId ≠ r.reqId) }

/-! ## The new world -/

def roleOf (role : String) : Role :=
  if role = "prefill" then .prefill else if role = "decode" then .decode else .other role

/-- The members of a registry are registered with the slots that they report. -/
def registerMembers (registry : WorkerRegistry) :
    List (String × WorkerIdentity) → PDScheduler → Except Exc PDScheduler
  | [], s => .ok s
  | (name, identity) :: rest, s => do
      let report := (registry.resources.get? name).map (·.2)
      let slots := (report.bind (·.maxSlots)).getD (if identity.role = "decode" then 1 else 0)
      registerMembers registry rest (← s.registerInstance name (roleOf identity.role) slots
        identity.instanceEpoch ((report.map (·.activeRequestIds)).getD []))

/-- The scheduler of the new world. -/
def buildScheduler (candidate : RegistryRef) (a : AppState) : Except AcceptError AppState :=
  match a.registries[candidate]? with
  | none => .error (.exc .other)
  | some registry =>
    match registerMembers registry registry.members.entries
        (PDScheduler.initial cfg.highWatermark cfg.kvUsageStaleAfter
          (some ⟨registry.worldFresh a.now, memberNames.filter (registry.canAdmit a.now)⟩)) with
    | .ok s => .ok { a with schedulers := a.schedulers ++ [s] }
    | .error e => .error (.exc e)

def replacementEntry (run : String) (lease : DecodeSlotLease) : ReplacementEntry where
  cleanupId := "replacement:" ++ run ++ ":" ++ lease.operationId
  operationId := lease.operationId
  leaseId := cfg.leaseText lease.leaseId
  oldResourceKinds := ["DECODE_SLOT"]

/-- A change of one scheduler that may fail half way. -/
def onScheduler {α : Type} (ref : SchedulerRef)
    (f : PDScheduler → Except AcceptError α × PDScheduler) (a : AppState) :
    Except AcceptError α × AppState :=
  match a.schedulers[ref]? with
  | none => (.error (.exc .other), a)
  | some s => ((f s).1, a.setScheduler ref (f s).2)

/-- The frozen leases are recorded by the evaluator of their scheduler. -/
def persistFrozen (ref : SchedulerRef) (leases : List DecodeSlotLease)
    (evidence : ReplacementEvidence) (a : AppState) :
    Except AcceptError (List ReplacementReleaseRecord) × AppState :=
  match a.schedulers[ref]? with
  | none => (.error (.exc .other), a)
  | some s =>
    ((persistWholeWorldReplacedBatch cfg.leaseText cfg.hashing cfg.limits
        (leases.map (replacementEntry cfg evidence.restartRunId)) evidence s
        a.replacementStore).1,
      { a with replacementStore :=
          (persistWholeWorldReplacedBatch cfg.leaseText cfg.hashing cfg.limits
            (leases.map (replacementEntry cfg evidence.restartRunId)) evidence s
            a.replacementStore).2 })

/-- The frozen leases are recorded, or it is noted that they are not. -/
def persist (ref : SchedulerRef) (leases : List DecodeSlotLease)
    (evidence : ReplacementEvidence) : Accept (List ReplacementReleaseRecord) :=
  (attemptWith (persistFrozen cfg ref leases evidence)).rescue fun e => some (do
    let a ← app
    note (.persistFailed ref leases a)
    .raise e)

/-- The lease of one record is released. -/
def releaseRecordOf (ref : SchedulerRef) (record : ReplacementReleaseRecord)
    (a : AppState) : Except AcceptError AppState :=
  match a.schedulers[ref]? with
  | none => .error (.exc .other)
  | some s =>
    match releaseLocalRecord cfg.leaseText record false s with
    | .ok s' => .ok (a.setScheduler ref s')
    | .error e => .error e

def releaseRecord (ref : SchedulerRef) (record : ReplacementReleaseRecord) : Accept Unit := do
  let a ← app
  attempt (releaseRecordOf cfg ref record)
  note (.released ref record a)

/-- `release_persisted_replacement_batch`. -/
def releasePersistedReplacementBatch (ref : SchedulerRef)
    (records : List ReplacementReleaseRecord) : Accept Unit :=
  Prog.forEach records (releaseRecord cfg ref)

/-- The world that the full prefix reports describe. -/
def checkPrefixReports (expected : Epochs) (instances : List String) (reports : Epochs) :
    Except Exc Unit :=
  (instances.zip reports).forM fun (requested, report) => do
    require (decide (report.1 = requested)) "prefix full report returned another instance"
    require (decide (expected.lookup requested = some report.2))
      "prefix full report epoch does not match current world"

/-- `rebuild_world` of a new prefix reconciler. -/
def rebuildWorld (candidate : RegistryRef) : Accept PrefixReconciler := do
  let expected := ((← app).registries[candidate]?.map epochsOf).getD []
  if expected = [] then .raise (.value "prefix full-report world cannot be empty")
  else
    .await (.rebuildPrefix expected) fun reply =>
      match reply with
      | .prefixReports reports =>
        match checkPrefixReports expected (sortedNames (expected.map (·.1))) reports with
        | .ok () => .ret { owners := reports, worldPublication := some reports }
        | .error e => .raise (.exc e)
      | .raised e => .raise e
      | _ => .raise (.exc .other)

/-- The reconciler of the new world, with affinity routing. -/
def renewReconciler (old : AppState) (candidate : RegistryRef) : Accept (Option PrefixReconciler) :=
  if old.affinityEnabled then (rebuildWorld candidate).bind fun p => .ret (some p)
  else .ret none

/-- Nothing in the publication of the new world can fail. -/
def publish (task : Nat) (candidate : RegistryRef) (scheduler : SchedulerRef)
    (reconciler : Option PrefixReconciler) (a : AppState) : AppState :=
  AppState.finishExpectedReconcilerReplacement task
    { a with
      workerRegistry := candidate
      scheduler := scheduler
      resourceReleaseEvaluator := scheduler
      tracker := []
      prefixReconciler := reconciler.orElse fun _ => a.prefixReconciler
      prefixWorldPublication :=
        match reconciler with
        | some p => p.worldPublication
        | none => a.prefixWorldPublication
      reconcilerTask := if reconciler.isSome then some .running else a.reconcilerTask
      loopTask := .running }

/-- The leases are quarantined, recorded and released, and the ledger takes the new registry. -/
def settleLeases (ref : SchedulerRef) (staged : TopologyLedger.Staged)
    (leases : List DecodeSlotLease) (evaluator : SchedulerRef) (evidence : ReplacementEvidence) :
    Accept Unit := do
  reach .persisting
  attemptWith (onScheduler ref (quarantineFrozen leases))
  mayRaise
  let records ← persist cfg evaluator leases evidence
  reach .persisted
  mayRaise
  attempt (changeLedger fun heap L => L.commit staged.record staged.candidate heap)
  reach .releasing
  releasePersistedReplacementBatch cfg evaluator records
  mayRaise

/-- From the publication of the new world to the opening of admission. -/
def sealAndOpen (body : AcceptBody) (staged : TopologyLedger.Staged)
    (evaluator : SchedulerRef) : Accept RestartRunRecord := do
  reach .finalPull
  let reports ← pullReplacementResourceReports staged.candidate (body.oldOperationIds.getD [])
    (body.oldResourceIds.getD [])
  reach .sealing
  sealReplacement cfg evaluator (evidenceOf cfg body staged.record reports)
  reach .lastPull
  let _ ← pullReplacementResourceReports staged.candidate (body.oldOperationIds.getD [])
    (body.oldResourceIds.getD [])
  reach .finalizing
  finalizeTopologyAcceptance cfg staged.record.newTopologyGeneration
  return staged.record

/-- The replacement of the old world by a staged one. -/
def replaceWorld (task : Nat) (body : AcceptBody)
    (staged : TopologyLedger.Staged) : Accept RestartRunRecord := do
  let old ← app
  reach .joining
  stopOldWorld task old
  reach .freezing
  let frozen ← freeze old.scheduler body
  reach .takeover
  call (.activateOwner (instancesOf staged.candidate (← app)))
  reach .firstPull
  let reports ← pullReplacementResourceReports staged.candidate (body.oldOperationIds.getD [])
    (body.oldResourceIds.getD [])
  reach .draining
  Prog.forEach frozen.requests failFrozen
  reach .building
  let scheduler := (← app).schedulers.length
  attempt (buildScheduler cfg staged.candidate)
  mayRaise
  settleLeases cfg old.scheduler staged frozen.leases old.resourceReleaseEvaluator
    (evidenceOf cfg body staged.record reports)
  reach .rebuilding
  let reconciler ← renewReconciler old staged.candidate
  update (publish task staged.candidate scheduler reconciler)
  note (.published staged.record.restartRunId old.scheduler)
  sealAndOpen cfg body staged old.resourceReleaseEvaluator

/-! ## The choice of a path -/

inductive AcceptRoute
  | sealed
  | cold
  | unsealed
  | stage
  deriving DecidableEq, Repr

/-- A request that no recovery takes must be about the current world. -/
def stageRoute (body : AcceptBody) (current : Option String) (existing : Option RestartRunRecord) :
    Except AcceptError AcceptRoute :=
  if some body.oldTopologyGeneration ≠ current ∨
      existing.any fun r => decide (some r.newTopologyGeneration ≠ current) then
    if existing.any fun r => decide (r.decisionDigest ≠ body.digest) then
      .error (.value "restart run id reused with different evidence")
    else
      .error (.store (.unknownRun
        "UNKNOWN_REPLACEMENT_RUN: completion seal is no longer retained"))
  else .ok .stage

/-- The first part of `_accept_replacement_topology_impl`. -/
def chooseRoute (body : AcceptBody) (a : AppState) : Except AcceptError AcceptRoute :=
  let store := a.replacementStore.store
  let current := a.generationOf a.topologyAdmin.registry
  let installed : Bool :=
    decide (a.workerRegistry = a.topologyAdmin.registry ∧ current = some body.newTopologyGeneration)
  let existing := a.topologyAdmin.records.get? body.restartRunId
  if store.transitionClosed then
    match exactCompletedRun cfg.hashing body.restartRunId body.oldTopologyGeneration
        body.newTopologyGeneration body.digest store with
    | .error e => .error (.store e)
    | .ok (some completed) =>
      if current ≠ some body.newTopologyGeneration then .error (.store (.retired completed))
      else .ok .sealed
    | .ok none =>
      if a.topologyAdmin.records.size = 0 ∧ installed then .ok .cold
      else stageRoute body current existing
  else if installed then .ok .unsealed
  else stageRoute body current existing

/-- The ledger checks the request and builds the registry of the new world. -/
def stage (body : AcceptBody) : Accept TopologyLedger.Staged :=
  Prog.attempt fun g =>
    match g.app.topologyAdmin.stage cfg.digests g.app.now body g.app.registries with
    | .ok (staged, heap, ledger) =>
      .ok (staged, { g with app := { g.app with registries := heap, topologyAdmin := ledger } })
    | .error e => .error (.exc e)

/-- A request that was staged is a replay of a world that is installed, or a new one. -/
def acceptStaged (task : Nat) (body : AcceptBody)
    (staged : TopologyLedger.Staged) : Accept RestartRunRecord := do
  let a ← app
  if staged.replay && decide (a.workerRegistry = staged.candidate) &&
      a.replacementStoreAllowsAdmission cfg.limits then do
    finalizeTopologyAcceptance cfg staged.record.newTopologyGeneration
    return staged.record
  else replaceWorld cfg task body staged

/-- `_accept_replacement_topology_impl`. -/
def acceptReplacementTopologyImpl (task : Nat) (body : AcceptBody) : Accept RestartRunRecord := do
  let a ← app
  match chooseRoute cfg body a with
  | .error e => .raise e
  | .ok .sealed => do
      beginTopologyAcceptance body.newTopologyGeneration
      recoverSealedReplacement cfg body
  | .ok .cold => do
      beginTopologyAcceptance body.newTopologyGeneration
      recoverColdReplacement cfg body
  | .ok .unsealed => do
      beginTopologyAcceptance body.newTopologyGeneration
      recoverUnsealedReplacement cfg body
  | .ok .stage => do
      let staged ← stage cfg body
      beginTopologyAcceptance staged.record.newTopologyGeneration
      acceptStaged cfg task body staged

/-- The task takes its name back, however the acceptance ends. -/
def finishAcceptance (task : Nat) (a : AppState) : AppState :=
  if (a.finishExpectedReconcilerReplacement task).topologyAcceptanceTask = some task then
    { a.finishExpectedReconcilerReplacement task with topologyAcceptanceTask := none }
  else a.finishExpectedReconcilerReplacement task

/-- `_accept_replacement_topology`. -/
def acceptReplacementTopology (task : Nat) (body : AcceptBody) : Accept RestartRunRecord := do
  let a ← app
  if a.topologyAcceptanceTask.any fun other => decide (other ≠ task) then
    .raise (.runtime "another topology acceptance is already running")
  else do
    update fun a => { a with topologyAcceptanceTask := some task }
    let record ← (acceptReplacementTopologyImpl cfg task body).rescue fun e => some (do
      update (finishAcceptance task)
      .raise e)
    update (finishAcceptance task)
    return record

/-! ## The refresh of the worker world -/

/-- What a sweep over the workers has found so far. -/
structure Sweep where
  complete : Bool := true
  drift : Bool := false
  /-- What each worker has attested of a pair. -/
  attestations : Dict String (Dict String PairCapability) := Dict.empty

/-- The ends of a pair, as its name gives them. -/
def pairEnds (pairId : String) : List String := (pairId.splitOn "--").dedup

/-- The pairs that a worker attests are those that it takes part in. -/
def attestsItsPairs (instanceId : String) (expected : Dict String PairCapability)
    (pairs : List PairCapability) : Bool :=
  pairs.all (fun c => decide ((pairEnds c.pairId).length = 2) &&
      (pairEnds c.pairId).contains instanceId) &&
    sameNames (pairs.map (·.pairId))
      (expected.keys.filter fun pairId => (pairEnds pairId).contains instanceId)

/-- The attestations of a worker are noted under their pairs; the last one of a pair stays. -/
def attest (instanceId : String) (pairs : List PairCapability)
    (attestations : Dict String (Dict String PairCapability)) :
    Dict String (Dict String PairCapability) :=
  pairs.foldl (fun d c =>
    d.set c.pairId (((d.get? c.pairId).getD Dict.empty).set instanceId c)) attestations

/-- The evidence of one worker is compared with the registry. -/
def takeEvidence (now : Nat) (instanceId : String) (expected : Dict String PairCapability)
    (identity : Option WorkerIdentity) (capabilities : Option (List PairCapability))
    (report : Option ResourceReport) (receivedAt : Nat) (sweep : Sweep) (r : WorkerRegistry) :
    Sweep × WorkerRegistry :=
  match identity with
  | none => ({ sweep with complete := false }, r)
  | some i =>
    match r.observeIdentity i with
    | (false, r') => ({ sweep with drift := true }, r')
    | (true, r') =>
      match capabilities with
      | none => ({ sweep with complete := false }, r')
      | some pairs =>
        if attestsItsPairs instanceId expected pairs = false then
          ({ sweep with complete := false }, r')
        else
          match report with
          | none => ({ sweep with complete := false }, r')
          | some report =>
            match r'.updateResourceReport now instanceId report (some receivedAt) with
            | (false, r'') => ({ sweep with complete := false }, r'')
            | (true, r'') =>
              ({ sweep with attestations := attest instanceId pairs sweep.attestations },
                r'')

/-- A change of one registry that reports something. -/
def onRegistry {α : Type} (ref : RegistryRef) (otherwise : α)
    (f : AppState → WorkerRegistry → α × WorkerRegistry) : Accept α :=
  attemptWith fun a =>
    match a.registries[ref]? with
    | none => (.ok otherwise, a)
    | some r => (.ok (f a r).1, a.setRegistry ref (f a r).2)

/-- The workers are asked one after the other; only a cancellation ends the sweep. -/
def sweepWorkers (ref : RegistryRef) (expected : Dict String PairCapability) :
    List String → Sweep → Accept Sweep
  | [], sweep => .ret sweep
  | name :: rest, sweep =>
    .await (.pullEvidence name) fun reply =>
      match reply with
      | .raised (.exc .cancelled) => .raise (.exc .cancelled)
      | .evidence identity capabilities report receivedAt =>
        (onRegistry ref sweep fun a r =>
          takeEvidence a.now name expected identity capabilities report receivedAt sweep r).bind
            (sweepWorkers ref expected rest)
      | _ => sweepWorkers ref expected rest { sweep with complete := false }

/-- `_collapse_pair_attestations`: both ends of every pair attest the same. -/
def collapsePairAttestations (attestations : Dict String (Dict String PairCapability)) :
    Option (List PairCapability) :=
  if sameNames attestations.keys pairNames = false then none
  else
    attestations.entries.mapM fun (pairId, byWorker) =>
      if sameNames byWorker.keys (pairEnds pairId) = false then none
      else
        match byWorker.values with
        | first :: second :: _ => if first = second then some first else none
        | _ => none

/-- The sweep is compared with the registry as a whole: whether the world has drifted. -/
def judgeSweep (sweep : Sweep) (r : WorkerRegistry) : Bool × WorkerRegistry :=
  if sweep.drift then
    (true, if r.state = .failed then r else (r.observeCapabilities []).2)
  else if sweep.complete = false then (false, r)
  else
    match collapsePairAttestations sweep.attestations with
    | none => (true, if r.state = .failed then r else (r.observeCapabilities []).2)
    | some observed => (!(r.observeCapabilities observed).1, (r.observeCapabilities observed).2)

/-- What a sweep means for admission. -/
def closeSweep (limits : StoreLimits) (ref : RegistryRef) (complete drift : Bool) (a : AppState) :
    AppState :=
  { a with
    workerRpcReady := complete && !drift && a.worldFresh ref
    accepting := !drift && a.worldFresh ref && a.replacementStoreAllowsAdmission limits &&
      a.topologyAcceptanceAllowsAdmission && a.prefixWorldAllowsAdmission &&
      a.backgroundControlPlaneTasksHealthy }

/-- `_refresh_worker_world_once`. -/
def refreshWorkerWorldOnce : Accept Unit := do
  let a ← app
  let ref := a.workerRegistry
  let expected := (a.registries[ref]?.map (·.capabilities)).getD Dict.empty
  let sweep ← sweepWorkers ref expected memberNames {}
  let drift ← onRegistry ref true fun _ r => judgeSweep sweep r
  update (closeSweep cfg.limits ref sweep.complete drift)

end Accept

/-! ## The gateway as a whole -/

inductive GatewayTask
  | accept (serial : Nat) (body : AcceptBody)
  | refresh (cycle : Nat)
  deriving DecidableEq, Repr

/-- The control tasks that are supervised. -/
inductive Supervised
  | scheduleLoop
  | prefixReconciler
  | resourceRefresh
  deriving DecidableEq, Repr

/-- What happens beside the acceptances and the refresh cycles. -/
inductive GatewayHappening
  | tick (duration : Nat)
  | schedulerCall (scheduler : SchedulerRef) (c : SchedulerCall)
  | track (requests : List RunningRequest)
  /-- What will come of the next writes of the store; a crash would end the process. -/
  | writes (outcomes : List (Option (WriteEffect × String)))
  | faults (outcomes : List Bool)
  | taskEnds (task : Supervised)
  /-- The done callback of a task that was not cancelled. -/
  | taskDone (task : Supervised)
  | syncPrefix (reconciler : PrefixReconciler)

/-- The calls that may create a lease or bring one back. -/
def SchedulerCall.createsLease : SchedulerCall → Bool
  | .reserve _ _ _ _ => true
  | .adopt _ _ _ _ => true
  | .restoreQuarantined _ _ _ => true
  | .restoreReplaced _ _ _ _ => true
  | _ => false

namespace GatewayHappening

def writeOutcome : Option (WriteEffect × String) → WriteOutcome
  | none => .done
  | some (effect, error) => .fails effect error

def endTask (t : ControlTask) : ControlTask := if t = .running then .ended else t

/-- The mutators of the scheduler were joined. -/
def wasJoined (ref : SchedulerRef) (log : List GatewayMoment) : Bool :=
  log.any fun m =>
    match m with
    | .joined joined => decide (joined = ref)
    | _ => false

def apply (g : Gateway) : GatewayHappening → AppState
  | .tick duration => { g.app with now := g.app.now + duration }
  | .schedulerCall ref c =>
    match g.app.schedulers[ref]? with
    | none => g.app
    | some s =>
      -- Only the cleanup of single requests still calls a scheduler that was joined.
      if c.createsLease && wasJoined ref g.log then g.app
      else g.app.setScheduler ref (s.after c)
  | .track requests => { g.app with tracker := requests }
  | .writes outcomes =>
    { g.app with replacementStore :=
        { g.app.replacementStore with writes := outcomes.map writeOutcome } }
  | .faults outcomes => { g.app with faults := outcomes }
  | .taskEnds .scheduleLoop => { g.app with loopTask := endTask g.app.loopTask }
  | .taskEnds .prefixReconciler =>
    { g.app with reconcilerTask := g.app.reconcilerTask.map endTask }
  | .taskEnds .resourceRefresh =>
    { g.app with resourceRefreshTask := endTask g.app.resourceRefreshTask }
  | .taskDone task => g.app.onControlPlaneTaskDone (decide (task = .prefixReconciler))
  | .syncPrefix reconciler =>
    { g.app with prefixReconciler := g.app.prefixReconciler.map fun _ => reconciler }

end GatewayHappening

/-- A task that is cancelled before its first turn never runs. -/
def gatewayCrew (cfg : GatewayConfig) :
    Crew Gateway GatewayCall GatewayReply AcceptError GatewayTask GatewayHappening where
  body t first :=
    match first, t with
    | .raised e, _ => .raise e
    | _, .accept serial body =>
      (Accept.acceptReplacementTopology cfg serial body).bind fun _ => .ret ()
    | _, .refresh _ => Accept.refreshWorkerWorldOnce cfg
  event e g := { g with app := e.apply g }

end PrismServe
