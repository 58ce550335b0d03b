import PrismServe.Lib.Methods
import PrismServe.Router.WorkerRegistry

/-!
# Records of terminated processes

A termination record says what was observed of the end of one old worker process:
that its container terminated, and that its pod was deleted.  The gateway and the
controller of a restart check records in the same way.  A check that fails raises
a `ValueError`; the error here is its message.
-/

namespace PrismServe

open Lib

structure TerminatedState where
  exitCode : Int
  reason : String
  signal : Option Int
  startedAt : String
  finishedAt : String
  deriving DecidableEq, Repr

/-- What a record says, before it is sealed. -/
structure TerminationPayload where
  logicalInstanceId : String
  topologyGeneration : String
  podUid : String
  nodeUid : String
  containerName : String
  capturedContainerId : String
  processGeneration : String
  watchStartResourceVersion : String
  observedResourceVersion : String
  deletionResourceVersion : String
  restartCountBefore : Int
  restartCountObserved : Int
  terminationSource : String
  terminationEventType : String
  deletionEventType : String
  terminated : TerminatedState
  adjacentCurrentContainerId : Option String
  podDeletionObserved : Bool
  rawPodJsonSha256 : String
  terminationRawObservationSequence : Option Int
  deletionRawPodJsonSha256 : String
  deletionRawObservationSequence : Option Int
  deriving DecidableEq, Repr

structure TerminationRecord extends TerminationPayload where
  observationSha256 : String
  deriving DecidableEq, Repr

/-- The pattern `^sha256:[0-9a-f]{64}$`. -/
def isSha256 (s : String) : Bool :=
  s.toList.take 7 = "sha256:".toList ∧ s.toList.length = 71 ∧
    (s.toList.drop 7).all fun c => c.isDigit || (decide ('a' ≤ c) && decide (c ≤ 'f'))

/-- `_text`: the field is not empty. -/
def requireText (field value : String) : Except String Unit :=
  ensure (value ≠ "") ("termination " ++ field ++ " must be a string")

/-- `_integer`, for a field that may be missing. -/
def requireInteger (field : String) (minimum : Int) (value : Option Int) : Except String Int :=
  match value with
  | none => .error ("termination " ++ field ++ " must be an integer")
  | some n =>
    if n < minimum then .error ("termination " ++ field ++ " must be an integer") else .ok n

namespace TerminationRecord

/-- The fields that must not be empty, under their names. -/
def texts (r : TerminationRecord) : List (String × String) :=
  [("logical_instance_id", r.logicalInstanceId), ("topology_generation", r.topologyGeneration),
    ("pod_uid", r.podUid), ("node_uid", r.nodeUid), ("container_name", r.containerName),
    ("captured_container_id", r.capturedContainerId),
    ("process_generation", r.processGeneration),
    ("watch_start_resource_version", r.watchStartResourceVersion),
    ("observed_resource_version", r.observedResourceVersion),
    ("deletion_resource_version", r.deletionResourceVersion),
    ("termination_source", r.terminationSource),
    ("termination_event_type", r.terminationEventType),
    ("deletion_event_type", r.deletionEventType),
    ("raw_pod_json_sha256", r.rawPodJsonSha256),
    ("deletion_raw_pod_json_sha256", r.deletionRawPodJsonSha256)]

/-- The container terminated in a way that its restart count agrees with. -/
def validateSource (r : TerminationRecord) : Except String Unit :=
  if r.terminationSource = "state.terminated" then do
    ensure (r.restartCountObserved = r.restartCountBefore)
      "state.terminated restartCount must equal captured count"
    ensure r.adjacentCurrentContainerId.isNone
      "state.terminated cannot have an adjacent current container"
  else if r.terminationSource = "lastState.terminated" then do
    ensure (r.restartCountObserved = r.restartCountBefore + 1)
      "lastState.terminated restartCount must increase exactly once"
    ensure (r.adjacentCurrentContainerId.any fun c => c ≠ "" ∧ c ≠ r.capturedContainerId)
      "lastState.terminated requires a distinct adjacent current container"
  else .error "termination source is invalid"

/-- `validate_termination_record`; `sha` is the digest of a canonical payload. -/
def validate (sha : TerminationPayload → String) (expectedGeneration : Option String)
    (r : TerminationRecord) : Except String Unit := do
  ensure (r.observationSha256 = sha r.toTerminationPayload)
    "termination observation_sha256 mismatch"
  r.texts.forM fun (field, value) => requireText field value
  ensure (r.containerName = "worker") "termination container_name must be worker"
  ensure (expectedGeneration.all fun g => r.topologyGeneration = g)
    "termination topology generation mismatch"
  ensure (r.terminationEventType = "MODIFIED") "termination transition must begin with MODIFIED"
  ensure (r.deletionEventType = "DELETED") "termination transition must end with DELETED"
  ensure r.podDeletionObserved "termination Pod deletion is not proven"
  let _ ← requireInteger "restart_count_before" 0 (some r.restartCountBefore)
  let _ ← requireInteger "restart_count_observed" 0 (some r.restartCountObserved)
  let terminationSequence ←
    requireInteger "termination_raw_observation_sequence" 1 r.terminationRawObservationSequence
  let deletionSequence ←
    requireInteger "deletion_raw_observation_sequence" 1 r.deletionRawObservationSequence
  ensure (terminationSequence < deletionSequence)
    "termination raw transitions must link MODIFIED before DELETED"
  ensure (isSha256 r.rawPodJsonSha256) "termination raw Pod digest is invalid"
  ensure (isSha256 r.deletionRawPodJsonSha256) "termination deletion raw Pod digest is invalid"
  ensure (r.watchStartResourceVersion ≠ r.observedResourceVersion ∧
      r.watchStartResourceVersion ≠ r.deletionResourceVersion)
    "termination resourceVersion must advance beyond watch start"
  let _ ← requireInteger "exit_code" 0 (some r.terminated.exitCode)
  requireText "started_at" r.terminated.startedAt
  requireText "finished_at" r.terminated.finishedAt
  ensure (r.terminated.signal.all fun n => 0 ≤ n) "termination signal must be null or integer"
  r.validateSource

/-- The raw observations that a record refers to. -/
def sequences (r : TerminationRecord) : List Int :=
  [r.terminationRawObservationSequence.getD 0, r.deletionRawObservationSequence.getD 0]

end TerminationRecord

def validateTerminationRecords (sha : TerminationPayload → String) (expectedGeneration : String)
    (expectedMembers : List String) (records : List TerminationRecord) : Except String Unit := do
  records.forM fun r => r.validate sha (some expectedGeneration)
  ensure (records.length = 4 ∧ sameNames (records.map (·.logicalInstanceId)) expectedMembers)
    "restart requires four member termination records"
  ensure ((records.map (·.podUid)).dedup.length = 4 ∧
      (records.map (·.capturedContainerId)).dedup.length = 4)
    "termination records must bind four distinct processes"
  ensure (records.flatMap TerminationRecord.sequences).Nodup
    "termination raw transition sequences must be globally unique"

end PrismServe
