import PrismServe.Lib.Methods
import PrismServe.Gateway.TopologyLedger
import PrismServe.Scheduler.PDScheduler
import PrismServe.Scheduler.ReplacementStore

/-!
# Releasing the leases of a replaced world

The release evaluator turns the frozen leases of an old scheduler into records
of the replacement store, releases them once the records are durable, and seals
the run when no lease is left.  An exception keeps whatever was changed before
it.
-/

namespace PrismServe

open Lib ReplacementDecisionStore

/-- An exception of the gateway or of the replacement store. -/
inductive AcceptError
  | exc (e : Exc)
  | store (e : StoreError)
  deriving DecidableEq, Repr

namespace AcceptError

def value (message : String) : AcceptError := .exc (.value message)

def runtime (message : String) : AcceptError := .exc (.runtime message)

def ofExc {α : Type} : Except Exc α → Except AcceptError α
  | .ok a => .ok a
  | .error e => .error (.exc e)

def ofStore {α : Type} : Except StoreError α → Except AcceptError α
  | .ok a => .ok a
  | .error e => .error (.store e)

end AcceptError

structure ReplacementEvidence where
  restartRunId : String
  oldTopologyGeneration : String
  newTopologyGeneration : String
  oldTerminationProofDigests : List String
  freshResourceReportDigests : List String
  excludedOldOperationDigest : String
  accepted : Bool
  decisionDigest : String
  deriving DecidableEq, Repr

/-- `_validate_replacement_evidence`. -/
def ReplacementEvidence.validate (e : ReplacementEvidence) : Except Exc Unit := do
  require e.accepted "restart run is not accepted"
  require (decide (e.oldTopologyGeneration ≠ e.newTopologyGeneration))
    "replacement requires a fresh topology generation"
  require (decide (e.oldTerminationProofDigests.length = 4))
    "replacement requires four old termination proofs"
  require (decide (e.oldTerminationProofDigests.dedup.length = 4))
    "old termination proofs must identify four members"
  require (decide (e.freshResourceReportDigests.length = 4))
    "replacement requires four fresh complete reports"
  require (decide (e.freshResourceReportDigests.dedup.length = 4))
    "resource reports must identify four members"
  require (decide (e.excludedOldOperationDigest ≠ "") && decide (e.decisionDigest ≠ ""))
    "replacement evidence digests are required"

/-- What is to be recorded of one lease. -/
structure ReplacementEntry where
  cleanupId : String
  operationId : String
  leaseId : String
  oldResourceKinds : List String
  deriving DecidableEq, Repr

/-- `_replacement_record`. -/
def replacementRecord (evidence : ReplacementEvidence) (entry : ReplacementEntry) :
    Except Exc ReplacementReleaseRecord := do
  require (decide (entry.cleanupId ≠ "") && decide (entry.operationId ≠ "") &&
      decide (entry.leaseId ≠ ""))
    "replacement cleanup/operation/lease ids are required"
  return {
    cleanupId := entry.cleanupId
    restartRunId := evidence.restartRunId
    oldOperationDigest := evidence.excludedOldOperationDigest
    operationId := entry.operationId
    leaseId := entry.leaseId
    oldResourceKinds := sortedNames entry.oldResourceKinds.dedup
    decisionDigest := evidence.decisionDigest }

/-- The leases of a scheduler that can still own capacity. -/
def PDScheduler.replacementDecodeLeases (s : PDScheduler) : List DecodeSlotLease :=
  s.slotLeases.values.filter fun lease => decide (lease.state ≠ .released)

def noLiveReplacementLease (message : String) : AcceptError :=
  .value ("NO_LIVE_REPLACEMENT_LEASE: " ++ message)

/-- `_require_replacement_store`. -/
def requireReplacementStore (store : ReplacementDecisionStore) : Except StoreError Unit :=
  match store.fatalError with
  | some error => .error (.unavailable ("durable replacement store is not ready: " ++ error))
  | none => .ok ()

/-- A method of the store as the process sees it, which no crash ends. -/
def runStore {α : Type} (m : StoreM α) (h : Host) : Except AcceptError α × Host :=
  match m.run h with
  | .ok a h' => (.ok a, h')
  | .error (.raised e) h' => (.error (.store e), h')
  | .error .crashed h' => (.error (.exc .other), h')

section Evaluator

variable (text : Nat → String)

/-- `_require_live_quarantined_lease`; `text` renders the id of a lease. -/
def requireLiveQuarantinedLease (s : PDScheduler) (record : ReplacementReleaseRecord) :
    Except AcceptError Unit :=
  match s.slotLeases.get? record.operationId with
  | none => .error (noLiveReplacementLease "exact quarantined lease required")
  | some lease =>
    if text lease.leaseId ≠ record.leaseId ∨ lease.state ≠ .quarantined then
      .error (noLiveReplacementLease "exact quarantined lease required")
    else .ok ()

/-- A record that the store does not have yet needs the lease that it is about. -/
def checkReplacementRecord (H : Hashing) (oldTopologyGeneration : String) (s : PDScheduler)
    (store : ReplacementDecisionStore) (record : ReplacementReleaseRecord) :
    Except AcceptError Unit := do
  match ← AcceptError.ofStore (lookup H record oldTopologyGeneration store) with
  | some _ => return ()
  | none => requireLiveQuarantinedLease text s record

/-- The checks of a batch, up to its records. -/
def prepareReplacementBatch (H : Hashing) (entries : List ReplacementEntry)
    (evidence : ReplacementEvidence) (s : PDScheduler) (store : ReplacementDecisionStore) :
    Except AcceptError (List ReplacementReleaseRecord) := do
  AcceptError.ofStore (requireReplacementStore store)
  AcceptError.ofExc evidence.validate
  let records ← AcceptError.ofExc (entries.mapM (replacementRecord evidence))
  records.forM (checkReplacementRecord text H evidence.oldTopologyGeneration s store)
  return records

def persistWholeWorldReplacedBatch (H : Hashing) (limits : StoreLimits)
    (entries : List ReplacementEntry) (evidence : ReplacementEvidence) (s : PDScheduler)
    (h : Host) : Except AcceptError (List ReplacementReleaseRecord) × Host :=
  match prepareReplacementBatch text H entries evidence s h.store with
  | .error e => (.error e, h)
  | .ok records =>
    runStore (persistRecords H limits records evidence.restartRunId
      evidence.oldTopologyGeneration (some evidence.decisionDigest)) h

/-- `_release_local_record`. -/
def releaseLocalRecord (record : ReplacementReleaseRecord) (allowMissing : Bool)
    (s : PDScheduler) : Except AcceptError PDScheduler :=
  match s.slotLeases.get? record.operationId with
  | none =>
    if allowMissing then .ok s
    else .error (noLiveReplacementLease "local lease disappeared after record")
  | some lease =>
    if text lease.leaseId ≠ record.leaseId then
      .error (noLiveReplacementLease "local lease id changed")
    else if lease.state = .released then
      if lease.releaseCleanupId ≠ some record.cleanupId then
        .error (.store (.conflict "released replacement lease used another cleanup id"))
      else .ok s
    else if lease.state ≠ .quarantined then
      .error (noLiveReplacementLease "lease is not quarantined")
    else
      match s.releaseQuarantinedDecodeSlot record.operationId (some lease.leaseId)
          (some record.cleanupId) with
      | .error e => .error (.exc e)
      | .ok (false, _) =>
        .error (.runtime "durable replacement record did not release its local lease")
      | .ok (true, s') => .ok s'

end Evaluator

/-- Every frozen lease is quarantined. -/
def quarantineFrozen : List DecodeSlotLease → PDScheduler → Except AcceptError Unit × PDScheduler
  | [], s => (.ok (), s)
  | lease :: rest, s =>
    match s.quarantineDecodeSlot lease.operationId with
    | .error e => (.error (.exc e), s)
    | .ok s' => quarantineFrozen rest s'

def sealWholeWorldReplacement (H : Hashing) (limits : StoreLimits) (evidence : ReplacementEvidence)
    (s : PDScheduler) (h : Host) : Except AcceptError ReplacementRunSeal × Host :=
  match AcceptError.ofStore (requireReplacementStore h.store),
    AcceptError.ofExc evidence.validate with
  | .error e, _ => (.error e, h)
  | .ok (), .error e => (.error e, h)
  | .ok (), .ok () =>
    if s.replacementDecodeLeases ≠ [] then
      (.error (.value "replacement run still has live local leases"), h)
    else
      runStore (sealRun H limits evidence.restartRunId evidence.oldTopologyGeneration
        evidence.newTopologyGeneration evidence.decisionDigest) h

end PrismServe
