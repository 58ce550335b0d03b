import PrismServe.Lib.Dict

/-!
# Worker identities, capabilities and fresh reports

A registry describes one world of four workers: their identities, the transports
that were probed between them, and the last resource report of each.  The
identities are installed once, as a whole; reports go stale with time.  Time is
the monotonic clock of the gateway, in ticks.
-/

namespace PrismServe

open Lib

structure WorkerIdentity where
  instanceId : String
  role : String
  topologyGeneration : String
  podUid : String
  processGeneration : String
  rpcEndpoint : String
  globalRank : Int
  topologyDigest : String
  kvCompatibilityId : String
  deriving DecidableEq, Repr

def WorkerIdentity.instanceEpoch (i : WorkerIdentity) : String :=
  i.podUid ++ ":" ++ i.processGeneration

structure PairCapability where
  pairId : String
  sourceEpoch : String
  targetEpoch : String
  transport : String
  probeGeneration : String
  probePassed : Bool
  evidencePath : String
  deriving DecidableEq, Repr

/-- A field of a report that should list ids. -/
inductive ReportedIds
  | absent
  | list (ids : List String)
  /-- Another value that can be iterated over. -/
  | iterable (ids : List String)
  | scalar (typeName : String)
  deriving DecidableEq, Repr

/-- The ids that are found by iterating over the field. -/
def ReportedIds.iterated : ReportedIds → Except String (List String)
  | absent => .ok []
  | list ids => .ok ids
  | iterable ids => .ok ids
  | scalar typeName => .error typeName

/-- A resource report as it was decoded; another value that is absent or malformed is `none`. -/
structure ResourceReport where
  instanceEpoch : String
  complete : Bool := true
  hasResources : Bool := true
  modelProfile : Option (List (String × String)) := none
  numGpuBlocks : Option Int := none
  freeBlocks : Option Int := none
  blockBuckets : Option (List (String × Int)) := none
  blockConservationValid : Option Bool := none
  operationIds : ReportedIds := .list []
  resourceIds : ReportedIds := .list []
  excludedOperationIds : Option (List String) := none
  excludedResourceIds : Option (List String) := none
  maxSlots : Option Int := none
  activeRequestIds : List String := []
  deriving DecidableEq, Repr

inductive TopologyState
  | starting
  | ready
  | failed
  | stopped
  deriving DecidableEq, Repr

/-- `EXPECTED_MEMBERS`. -/
def expectedMembers : List (String × String × Int) :=
  [("p0", "prefill", 0), ("p1", "prefill", 1), ("d0", "decode", 2), ("d1", "decode", 3)]

def memberNames : List String := expectedMembers.map (·.1)

/-- `EXPECTED_PAIRS`, each with its two ends. -/
def expectedPairs : List (String × String × String) :=
  [("p0--d0", "p0", "d0"), ("p0--d1", "p0", "d1"), ("p1--d0", "p1", "d0"),
    ("p1--d1", "p1", "d1"), ("d0--d1", "d0", "d1")]

def pairNames : List String := expectedPairs.map (·.1)

/-- Two lists of names have the same members. -/
def sameNames (a b : List String) : Bool := a.all (b.contains ·) && b.all (a.contains ·)

structure WorkerRegistry where
  expectedTopologyGeneration : String
  expectedKvCompatibilityId : Option String := none
  expectedModelProfile : Option (List (String × String)) := none
  requireGpudirectRdma : Bool := false
  resourceReportStaleAfter : Nat := 2
  state : TopologyState := .starting
  members : Dict String WorkerIdentity := Dict.empty
  capabilities : Dict String PairCapability := Dict.empty
  /-- The last report of each instance, with the time at which it was received. -/
  resources : Dict String (Nat × ResourceReport) := Dict.empty

namespace WorkerRegistry

/-- `_fail`. -/
def fail (r : WorkerRegistry) : WorkerRegistry :=
  { r with state := .failed, resources := Dict.empty, capabilities := Dict.empty }

/-- `_admit_capability`, for a pair with the given ends. -/
def admitCapability (r : WorkerRegistry) (members : Dict String WorkerIdentity)
    (c : PairCapability) : Bool :=
  match expectedPairs.find? (fun p => p.1 = c.pairId) with
  | none => false
  | some (_, source, target) =>
    c.probePassed && decide (c.probeGeneration ≠ "") &&
      (members.get? source).any (fun i => decide (c.sourceEpoch = i.instanceEpoch)) &&
      (members.get? target).any (fun i => decide (c.targetEpoch = i.instanceEpoch)) &&
      if r.requireGpudirectRdma then decide (c.transport = "NCCL_GDR")
      else ["NCCL_GDR", "NCCL_SOCKET", "CUDA_IPC"].contains c.transport

/-- The conditions under which a world may be installed. -/
def validWorld (r : WorkerRegistry) (members : Dict String WorkerIdentity)
    (caps : Dict String PairCapability) : Bool :=
  sameNames members.keys memberNames && sameNames caps.keys pairNames &&
    members.values.all (fun i => decide (i.topologyGeneration = r.expectedTopologyGeneration)) &&
    decide ((members.values.map (·.topologyDigest)).dedup.length = 1) &&
    decide ((members.values.map (·.podUid)).dedup.length = 4) &&
    decide ((members.values.map (·.kvCompatibilityId)).dedup.length = 1) &&
    members.values.all (fun i => decide (i.kvCompatibilityId ≠ "")) &&
    r.expectedKvCompatibilityId.all
      (fun id => members.values.all fun i => decide (i.kvCompatibilityId = id)) &&
    expectedMembers.all (fun (name, role, rank) =>
      (members.get? name).any fun i => decide (i.role = role ∧ i.globalRank = rank)) &&
    caps.values.all (r.admitCapability members)

def installWorld (identities : List WorkerIdentity) (capabilities : List PairCapability)
    (r : WorkerRegistry) : Bool × WorkerRegistry :=
  let members := identities.foldl (fun d i => d.set i.instanceId i) Dict.empty
  let caps := capabilities.foldl (fun d c => d.set c.pairId c) Dict.empty
  if r.validWorld members caps then
    (true, { r with
      members := members, capabilities := caps, resources := Dict.empty, state := .ready })
  else (false, r.fail)

def observeIdentity (i : WorkerIdentity) (r : WorkerRegistry) : Bool × WorkerRegistry :=
  if r.members.get? i.instanceId = some i then (true, r) else (false, r.fail)

/-- Two dictionaries of capabilities agree. -/
def sameCapabilities (a b : Dict String PairCapability) : Bool :=
  a.entries.all (fun e => decide (b.get? e.1 = some e.2)) &&
    b.entries.all (fun e => decide (a.get? e.1 = some e.2))

def observeCapabilities (capabilities : List PairCapability) (r : WorkerRegistry) :
    Bool × WorkerRegistry :=
  let observed := capabilities.foldl (fun d c => d.set c.pairId c) Dict.empty
  if sameCapabilities observed r.capabilities then (true, r) else (false, r.fail)

/-- Value of a field in a decoded object. -/
def field (l : List (String × String)) (k : String) : Option String := lookupEntries k l

def bucketNames : List String := ["free", "pending", "sequence", "evictable", "quarantined"]

/-- `_resource_report_schema_valid`. -/
def reportSchemaValid (r : WorkerRegistry) (report : ResourceReport) (i : WorkerIdentity) : Bool :=
  (match r.expectedModelProfile with
    | none => true
    | some expected =>
      match report.modelProfile with
      | none => false
      | some profile =>
        expected.all (fun e => decide (field profile e.1 = some e.2)) &&
          decide (field profile "kv_compatibility_id" = some i.kvCompatibilityId)) &&
  match report.numGpuBlocks, report.freeBlocks, report.blockBuckets,
      report.blockConservationValid with
  | none, none, none, none => r.expectedModelProfile.isNone
  | some total, some free, some buckets, some conserved =>
    decide (0 ≤ total) && decide (0 ≤ free) && conserved &&
      sameNames (buckets.map (·.1)) bucketNames && buckets.all (fun b => decide (0 ≤ b.2)) &&
      decide (lookupEntries "free" buckets = some free) &&
      decide ((buckets.map (·.2)).sum = total)
  | _, _, _, _ => false

/-- The report of an instance is taken, as received at a given time. -/
def updateResourceReport (now : Nat) (instanceId : String) (report : ResourceReport)
    (receivedAt : Option Nat) (r : WorkerRegistry) : Bool × WorkerRegistry :=
  match r.members.get? instanceId with
  | none => (false, r)
  | some i =>
    if report.instanceEpoch = i.instanceEpoch ∧ report.complete = true ∧
        report.hasResources = true ∧ r.reportSchemaValid report i = true ∧
        receivedAt.getD now ≤ now then
      (true, { r with resources := r.resources.set instanceId (receivedAt.getD now, report) })
    else (false, r)

/-- The report of an instance is there and not stale. -/
def fresh (now : Nat) (r : WorkerRegistry) (instanceId : String) : Bool :=
  (r.resources.get? instanceId).any fun s => decide (now - s.1 ≤ r.resourceReportStaleAfter)

def canAdmit (now : Nat) (r : WorkerRegistry) (instanceId : String) : Bool :=
  decide (r.state = .ready) && r.fresh now instanceId

def worldFresh (now : Nat) (r : WorkerRegistry) : Bool :=
  decide (r.state = .ready) && sameNames r.members.keys memberNames &&
    memberNames.all (r.canAdmit now)

end WorkerRegistry

end PrismServe
