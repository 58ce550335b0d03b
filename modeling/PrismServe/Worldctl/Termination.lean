import PrismServe.Gateway.TerminationAuthority

/-!
# Proofs that the old processes are gone

A termination proof says what was observed of one old worker process.
`terminationAuthorityRecord` makes the canonical record of a proof and validates it
as the gateway does.  `recordTermination` is the guard of a restart: it accepts a proof
that is complete, has a canonical record and binds the process that was captured.
-/

namespace PrismServe.Worldctl

open Lib

/-- The four members of the fixed topology. -/
def members : List String := ["p0", "p1", "d0", "d1"]

inductive CtlError
  | valueError (message : String)
  | runtimeError (message : String)
  | keyError (missing : String)
  | timeoutError (message : String)
  /-- What a call of the cluster or of the gateway raised. -/
  | backendError (message : String)
  deriving DecidableEq, Repr

structure ProcessIdentity where
  member : String
  podUid : String
  nodeUid : String
  containerId : String
  processGeneration : String
  podName : String := ""
  nodeName : String := ""
  resourceVersion : String := ""
  topologyGeneration : String := ""
  containerName : String := "worker"
  restartCount : Int := 0
  deriving DecidableEq, Repr

structure TerminationProof where
  member : String
  podUid : String
  nodeUid : String
  containerId : String
  processGeneration : String
  exitCode : Int
  containerTerminated : Bool
  podDeleted : Bool
  terminationReason : String := ""
  terminationMessage : String := ""
  finishedAt : String := ""
  topologyGeneration : String := ""
  containerName : String := "worker"
  watchStartResourceVersion : String := ""
  observedResourceVersion : String := ""
  deletionResourceVersion : String := ""
  restartCountBefore : Int := 0
  restartCountObserved : Int := 0
  terminationSource : String := ""
  terminationEventType : String := ""
  deletionEventType : String := ""
  signal : Option Int := none
  startedAt : String := ""
  adjacentCurrentContainerId : Option String := none
  terminationRawPodJsonSha256 : String := ""
  terminationRawObservationSequence : Option Int := none
  deletionRawPodJsonSha256 : String := ""
  deletionRawObservationSequence : Option Int := none
  deriving DecidableEq, Repr

/-! ## Canonical records -/

def terminationAuthorityPayload (p : TerminationProof) : TerminationPayload where
  logicalInstanceId := p.member
  topologyGeneration := p.topologyGeneration
  podUid := p.podUid
  nodeUid := p.nodeUid
  containerName := p.containerName
  capturedContainerId := p.containerId
  processGeneration := p.processGeneration
  watchStartResourceVersion := p.watchStartResourceVersion
  observedResourceVersion := p.observedResourceVersion
  deletionResourceVersion := p.deletionResourceVersion
  restartCountBefore := p.restartCountBefore
  restartCountObserved := p.restartCountObserved
  terminationSource := p.terminationSource
  terminationEventType := p.terminationEventType
  deletionEventType := p.deletionEventType
  terminated :=
    ⟨p.exitCode, p.terminationReason, p.signal, p.startedAt, p.finishedAt⟩
  adjacentCurrentContainerId := p.adjacentCurrentContainerId
  podDeletionObserved := p.podDeleted
  rawPodJsonSha256 := p.terminationRawPodJsonSha256
  terminationRawObservationSequence := p.terminationRawObservationSequence
  deletionRawPodJsonSha256 := p.deletionRawPodJsonSha256
  deletionRawObservationSequence := p.deletionRawObservationSequence

variable (sha : TerminationPayload → String)

/-- The canonical record of a proof. -/
def authorityRecord (p : TerminationProof) : TerminationRecord :=
  { terminationAuthorityPayload p with
    observationSha256 := sha (terminationAuthorityPayload p) }

/-- A check that raises a `ValueError`. -/
def require (holds : Bool) (message : String) : Except CtlError Unit :=
  ensure holds (.valueError message)

/-- `_termination_authority_record` -/
def terminationAuthorityRecord (p : TerminationProof) : Except CtlError TerminationRecord := do
  ((authorityRecord sha p).validate sha none).mapError .valueError
  return authorityRecord sha p

/-- The records of the four members of an old world. -/
def validateMemberRecords (expectedGeneration : String)
    (records : List TerminationRecord) : Except CtlError Unit :=
  (validateTerminationRecords sha expectedGeneration members records).mapError .valueError

/-! ## The guard of a restart -/

/-- The physical identity that a proof has to bind. -/
def ProcessIdentity.physical (i : ProcessIdentity) : String × String × String × String :=
  (i.podUid, i.nodeUid, i.containerId, i.processGeneration)

def TerminationProof.physical (p : TerminationProof) : String × String × String × String :=
  (p.podUid, p.nodeUid, p.containerId, p.processGeneration)

/-- The constructor of the guard. -/
def checkOldWorld (oldGeneration newGeneration : String) (old : Dict String ProcessIdentity) :
    Except CtlError Unit := do
  require (oldGeneration ≠ "" ∧ newGeneration ≠ "" ∧ oldGeneration ≠ newGeneration)
    "whole-world restart requires a fresh generation"
  require ((∀ m ∈ old.keys, m ∈ members) ∧ ∀ m ∈ members, m ∈ old.keys)
    "expected old world must contain four members"
  require (∀ e ∈ old.entries, e.2.member = e.1 ∧ e.2.podUid ≠ "" ∧ e.2.nodeUid ≠ "" ∧
      e.2.containerId ≠ "" ∧ e.2.processGeneration ≠ "")
    "expected old process physical identity is incomplete"
  require ((old.values.map (·.podUid)).dedup.length = 4) "expected old Pod UIDs must be unique"
  require ((old.values.map (·.containerId)).dedup.length = 4)
    "expected old container IDs must be unique"

/-- The proofs that the guard has accepted. -/
abbrev Guard := Dict String TerminationProof

/-- `WorldRestartGuard.record_termination` -/
def recordTermination (old : Dict String ProcessIdentity)
    (p : TerminationProof) (proofs : Guard) : Except CtlError Guard := do
  require (p.member ∈ members) ("unknown fixed-topology member: " ++ p.member)
  require (p.podUid ≠ "" ∧ p.nodeUid ≠ "" ∧ p.containerId ≠ "")
    "termination identity fields are required"
  require (p.containerTerminated ∧ p.podDeleted) "termination proof is not complete"
  let _ ← terminationAuthorityRecord sha p
  match old.get? p.member with
  | none => .error (.keyError p.member)
  | some expected => do
      require (p.physical = expected.physical)
        "termination proof does not bind expected old process"
      require ((proofs.get? p.member).all fun prior => prior = p)
        "termination proof changed for member"
      return proofs.set p.member p

/-- `has_four_termination_proofs` -/
def hasFourTerminationProofs (proofs : Guard) : Bool :=
  (∀ m ∈ proofs.keys, m ∈ members) ∧ (∀ m ∈ members, m ∈ proofs.keys) ∧
    (proofs.values.map (·.podUid)).dedup.length = 4 ∧
    (proofs.values.map (·.containerId)).dedup.length = 4

end PrismServe.Worldctl
