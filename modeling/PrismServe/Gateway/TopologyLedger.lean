import PrismServe.Runtime
import PrismServe.Gateway.TerminationAuthority

/-!
# Acceptance of a whole-world replacement

The ledger holds the registry of the current world and the records of the
restart runs it has accepted.  `stage` checks the evidence of a request against
the members of the current world and builds the registry of the next one;
`commit` publishes it.  Registries are objects: a reference is a position in the
list of all registries, and `is` compares references.

A request is given as it was decoded; the checks of its shape, which only fail
on values of a wrong type, are not part of the model.
-/

namespace PrismServe

open Lib

/-- Digests of canonical JSON. -/
structure Digests where
  observation : TerminationPayload → String
  termination : TerminationRecord → String
  report : ResourceReport → String
  capability : PairCapability → String

/-- A check that raises a `ValueError`. -/
def require (condition : Bool) (message : String) : Except Exc Unit :=
  ensure condition (.value message)

/-! ## Requests and records -/

/-- An identity on the wire may repeat the epoch that follows from it. -/
structure WireIdentity where
  identity : WorkerIdentity
  instanceEpoch : Option String := none
  deriving DecidableEq, Repr

def parseWorkerIdentity (value : WireIdentity) : Except Exc WorkerIdentity := do
  require (value.instanceEpoch.all fun e => decide (e = value.identity.instanceEpoch))
    "worker identity instance_epoch does not match pod/process identity"
  return value.identity

/-- A request to accept a new world. -/
structure AcceptBody where
  restartRunId : String
  oldTopologyGeneration : String
  newTopologyGeneration : String
  terminationRecords : List TerminationRecord
  identities : List WireIdentity
  pairCapabilities : List PairCapability
  resourceReports : List (String × ResourceReport)
  oldOperationIds : Option (List String)
  oldResourceIds : Option (List String)
  /-- The digest of the request as it was received. -/
  digest : String
  deriving DecidableEq, Repr

structure RestartRunRecord where
  restartRunId : String
  oldTopologyGeneration : String
  newTopologyGeneration : String
  terminationProofDigests : List String
  freshResourceReportDigests : List String
  pairProbeDigests : List String
  decisionDigest : String
  accepted : Bool := true
  deriving DecidableEq, Repr

/-- Names in their order. -/
def sortedNames (l : List String) : List String := l.insertionSort (· ≤ ·)

/-- `validate_physical_termination_records`. -/
def validatePhysicalTerminationRecords (D : Digests) (body : AcceptBody) : Except Exc Unit := do
  require (decide (body.oldTopologyGeneration ≠ "")) "old topology generation is required"
  (validateTerminationRecords D.observation body.oldTopologyGeneration memberNames
    body.terminationRecords).mapError .value

/-- The proofs of a request are about the members of a given world. -/
def bindsOldWorld (old : WorkerRegistry) (t : TerminationRecord) : Except Exc Unit :=
  match old.members.get? t.logicalInstanceId with
  | none => .error (.key t.logicalInstanceId)
  | some member => do
      require (decide (t.podUid = member.podUid)) "termination proof does not bind old pod uid"
      require (decide (t.processGeneration = member.processGeneration))
        "termination proof does not bind old process generation"

def requireFreshPod (old : WorkerRegistry) (i : WorkerIdentity) : Except Exc Unit :=
  match old.members.get? i.instanceId with
  | none => .error (.key i.instanceId)
  | some member =>
    require (decide (i.podUid ≠ member.podUid)) "replacement pod uid must be fresh"

/-- The registry of the next world before anything is installed. -/
def emptyCandidate (old : WorkerRegistry) (generation : String) : WorkerRegistry where
  expectedTopologyGeneration := generation
  expectedKvCompatibilityId := old.expectedKvCompatibilityId
  expectedModelProfile := old.expectedModelProfile
  requireGpudirectRdma := old.requireGpudirectRdma
  resourceReportStaleAfter := old.resourceReportStaleAfter

/-- One report of a request is taken over by the candidate and excludes every old id. -/
def takeReport (now : Nat) (operations resources : List String) (candidate : WorkerRegistry)
    (entry : String × ResourceReport) : Except Exc WorkerRegistry :=
  match candidate.updateResourceReport now entry.1 entry.2 none with
  | (false, _) => .error (.value "new resource report is incomplete or epoch-mismatched")
  | (true, updated) => do
      let report := entry.2
      let operationIds ← report.operationIds.iterated.mapError .notIterable
      let resourceIds ← report.resourceIds.iterated.mapError .notIterable
      require ((operationIds.all fun x => !operations.contains x) &&
          resourceIds.all fun x => !resources.contains x)
        "fresh report still contains old operation/resource"
      require (decide (report.excludedOperationIds = some (sortedNames operations)))
        "report does not explicitly exclude every old operation"
      require (decide (report.excludedResourceIds = some (sortedNames resources)))
        "report does not explicitly exclude every old resource"
      return updated

def takeReports (now : Nat) (operations resources : List String) (candidate : WorkerRegistry) :
    List (String × ResourceReport) → Except Exc WorkerRegistry
  | [] => .ok candidate
  | entry :: rest => do
      takeReports now operations resources (← takeReport now operations resources candidate entry)
        rest

/-- The digests of reports in the order of their instances. -/
def reportDigests (D : Digests) (reports : List (String × ResourceReport)) : List String :=
  (sortedNames (reports.map (·.1))).filterMap fun name =>
    (lookupEntries name reports).map D.report

def pairDigests (D : Digests) (capabilities : List PairCapability) : List String :=
  (sortedNames (capabilities.map (·.pairId))).filterMap fun name =>
    (capabilities.find? fun c => decide (c.pairId = name)).map D.capability

/-- The record that a request leads to. -/
def recordOf (D : Digests) (body : AcceptBody) : RestartRunRecord where
  restartRunId := body.restartRunId
  oldTopologyGeneration := body.oldTopologyGeneration
  newTopologyGeneration := body.newTopologyGeneration
  terminationProofDigests := body.terminationRecords.map D.termination
  freshResourceReportDigests := reportDigests D body.resourceReports
  pairProbeDigests := pairDigests D body.pairCapabilities
  decisionDigest := body.digest

/-- Validate a request against the current world and build the registry of the next one. -/
def buildCandidate (D : Digests) (now : Nat) (old : WorkerRegistry) (body : AcceptBody) :
    Except Exc WorkerRegistry := do
  require (decide (body.oldTopologyGeneration = old.expectedTopologyGeneration))
    "old topology generation does not match active world"
  require (decide (body.newTopologyGeneration ≠ body.oldTopologyGeneration))
    "restart requires a fresh topology generation"
  validatePhysicalTerminationRecords D body
  body.terminationRecords.forM (bindsOldWorld old)
  require (decide (body.identities.length = 4))
    "replacement requires four unique worker identities"
  let identities ← body.identities.mapM parseWorkerIdentity
  require (sameNames (identities.map (·.instanceId)) memberNames)
    "replacement requires four unique worker identities"
  require (identities.all fun i => decide (i.topologyGeneration = body.newTopologyGeneration))
    "new identity generation mismatch"
  identities.forM (requireFreshPod old)
  require (decide (body.pairCapabilities.length = 5) &&
      sameNames (body.pairCapabilities.map (·.pairId)) pairNames)
    "replacement requires five pair probes"
  require (sameNames (body.resourceReports.map (·.1)) memberNames)
    "replacement requires four resource reports"
  match body.oldOperationIds, body.oldResourceIds with
  | some operations, some resources => do
      require (decide operations.Nodup && decide resources.Nodup)
        "replacement old id snapshots must be unique"
      if body.newTopologyGeneration = "" then
        throw (.assertion "")
      else
        match (emptyCandidate old body.newTopologyGeneration).installWorld identities
            body.pairCapabilities with
        | (false, _) => throw (.value "new worker world failed identity/capability validation")
        | (true, candidate) => takeReports now operations resources candidate body.resourceReports
  | _, _ => throw (.value "replacement evidence must include exhaustive old id snapshots")

/-! ## The ledger -/

/-- A registry object. -/
abbrev RegistryRef := Nat

structure TopologyLedger where
  registry : RegistryRef
  records : Dict String RestartRunRecord := Dict.empty
  terminalSnapshotCap : Nat := 4096

/-- The registries that exist; a reference is a position. -/
abbrev Registries := List WorkerRegistry

namespace TopologyLedger

def generation (heap : Registries) (ref : RegistryRef) : Option String :=
  heap[ref]?.map (·.expectedTopologyGeneration)

/-- What `stage` answers: the record, the candidate, and whether the run is a replay. -/
structure Staged where
  record : RestartRunRecord
  candidate : RegistryRef
  replay : Bool
  deriving DecidableEq, Repr

def stage (D : Digests) (now : Nat) (body : AcceptBody) (heap : Registries) (L : TopologyLedger) :
    Except Exc (Staged × Registries × TopologyLedger) :=
  match L.records.get? body.restartRunId with
  | some existing =>
    if existing.decisionDigest ≠ body.digest then
      .error (.value "restart run id reused with different evidence")
    else
      .ok (⟨existing, L.registry, true⟩, heap,
        { L with records := L.records.moveToEnd body.restartRunId })
  | none =>
    match heap[L.registry]? with
    | none => .error .other
    | some old => do
        let candidate ← buildCandidate D now old body
        return (⟨recordOf D body, heap.length, false⟩, heap ++ [candidate], L)

/-- A record becomes the newest one; the oldest ones go. -/
def keepRecord (record : RestartRunRecord) (L : TopologyLedger) : TopologyLedger :=
  { L with records := ((L.records.set record.restartRunId record).moveToEnd
      record.restartRunId).keepNewest L.terminalSnapshotCap }

def commit (record : RestartRunRecord) (candidate : RegistryRef) (heap : Registries)
    (L : TopologyLedger) : Except Exc TopologyLedger :=
  match L.records.get? record.restartRunId with
  | some existing =>
    if existing ≠ record ∨ L.registry ≠ candidate then
      .error (.value "restart run publication conflict")
    else .ok L
  | none =>
    if generation heap L.registry ≠ some record.oldTopologyGeneration then
      .error (.value "active topology changed during replacement staging")
    else if generation heap candidate ≠ some record.newTopologyGeneration then
      .error (.value "candidate topology generation changed")
    else .ok { L.keepRecord record with registry := candidate }

def recoverCommittedRun (record : RestartRunRecord) (heap : Registries) (L : TopologyLedger) :
    Except Exc TopologyLedger :=
  match L.records.get? record.restartRunId with
  | some existing =>
    if existing ≠ record then
      .error (.value "restart recovery conflicts with accepted run")
    else .ok { L with records := L.records.moveToEnd record.restartRunId }
  | none =>
    if generation heap L.registry ≠ some record.newTopologyGeneration then
      .error (.value "recovery world is not the accepted new generation")
    else if record.oldTopologyGeneration = record.newTopologyGeneration then
      .error (.value "replacement recovery requires distinct generations")
    else .ok (L.keepRecord record)

def rollback (record : RestartRunRecord) (candidate oldRegistry : RegistryRef)
    (L : TopologyLedger) : Except Exc TopologyLedger :=
  if L.records.get? record.restartRunId ≠ some record then .ok L
  else if L.registry ≠ candidate then
    .error (.value "cannot rollback a topology published by another transaction")
  else .ok { L with records := L.records.erase record.restartRunId, registry := oldRegistry }

end TopologyLedger

end PrismServe
