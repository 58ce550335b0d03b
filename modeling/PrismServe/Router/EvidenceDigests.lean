import Mathlib.Data.Prod.Lex
import PrismServe.Router.OwnerTakeover
import PrismServe.Router.PrefixIndex

/-!
# Digests of evidence

The digest of the operations that a worker lists during a takeover, and the digest
of a prefix report.  Both put their entries into an order of their own, write them
as one document with sorted keys and hash the text.
-/

namespace PrismServe

open Lib

/-! ## Listed operations -/

def EndpointState.text : EndpointState → String
  | prepared => "PREPARED"
  | running => "RUNNING"
  | completed => "COMPLETED"
  | fenced => "FENCED"
  | unknown => "UNKNOWN"

namespace EndpointOperationRef

/-- `asdict(endpoint_ref)` -/
def toJson (ref : EndpointOperationRef) : Json :=
  .object [
    ("topology_generation", .string ref.topologyGeneration),
    ("owner_generation", .string ref.ownerGeneration),
    ("operation_seq", .integer ref.operationSeq),
    ("target_instance", .string ref.targetInstance),
    ("target_worker_epoch", .string ref.targetWorkerEpoch),
    ("operation_id", .string ref.operationId),
    ("payload_digest", .string ref.payloadDigest)]

/-- The tuple by which operations are ordered. -/
def sortKey (ref : EndpointOperationRef) :
    String ×ₗ Int ×ₗ String ×ₗ String ×ₗ String ×ₗ String ×ₗ String :=
  toLex (ref.targetInstance, toLex (ref.operationSeq, toLex (ref.operationId,
    toLex (ref.payloadDigest, toLex (ref.ownerGeneration, toLex (ref.targetWorkerEpoch,
      ref.topologyGeneration))))))

end EndpointOperationRef

namespace ParsedOperationSnapshot

def toJson (value : ParsedOperationSnapshot) : Json :=
  .object [
    ("endpoint_ref", value.endpointRef.toJson),
    ("state", .string value.state.text),
    ("resources_held", .bool value.resourcesHeld),
    ("held_resource_kinds", .array (value.heldResourceKinds.map .string))]

end ParsedOperationSnapshot

structure OwnerTakeoverListEvidence where
  instanceId : String
  instanceEpoch : String
  ownerGeneration : String
  complete : Bool
  endpointRefs : List EndpointOperationRef
  operations : List ParsedOperationSnapshot
  reportDigest : String

/-- The operations in the order of their references. -/
def orderedOperations (operations : List ParsedOperationSnapshot) : List ParsedOperationSnapshot :=
  operations.insertionSort fun a b => a.endpointRef.sortKey ≤ b.endpointRef.sortKey

/-- The document that is hashed. -/
def operationListPayload (instanceEpoch : String) (snapshots : List ParsedOperationSnapshot) :
    Json :=
  .object [
    ("instance_epoch", .string instanceEpoch),
    ("complete", .bool true),
    ("operations", .array (snapshots.map ParsedOperationSnapshot.toJson))]

/-- `_operation_list_evidence` -/
def operationListEvidence (d : Json.Digest) (w : OldWorker)
    (operations : List ParsedOperationSnapshot) : OwnerTakeoverListEvidence :=
  let snapshots := orderedOperations operations
  { instanceId := w.instanceId
    instanceEpoch := w.epoch
    ownerGeneration := w.owner
    complete := true
    endpointRefs := snapshots.map (·.endpointRef)
    operations := snapshots
    reportDigest := "sha256:" ++
      d.sha256 (Json.dumps d.ascii (operationListPayload w.epoch snapshots)) }

/-! ## Prefix reports -/

namespace Directory

/-- A location as the digest sees it, without the time of its last update. -/
def CacheLocation.toJson (value : CacheLocation) : Json :=
  .object [
    ("instance_id", .string value.instanceId),
    ("instance_epoch", .string value.instanceEpoch),
    ("namespace", .string value.cacheNamespace),
    ("kv_compatibility_id", .string value.kvCompatibilityId),
    ("request_context_digest", .string value.requestContextDigest),
    ("chain_hash", .integer value.chainHash),
    ("block_index", .integer value.blockIndex),
    ("block_id", .integer value.blockId),
    ("prefix_tokens", .integer value.prefixTokens)]

namespace PrefixReport

/-- The locations in the order of their texts. -/
def orderedLocations (d : Json.Digest) (report : PrefixReport) : List Json :=
  (report.locations.map CacheLocation.toJson).insertionSort fun a b =>
    Json.dumps d.ascii a ≤ Json.dumps d.ascii b

def payload (d : Json.Digest) (report : PrefixReport) : Json :=
  .object [
    ("instance_id", .string report.instanceId),
    ("instance_epoch", .string report.instanceEpoch),
    ("snapshot_seq_no", .integer report.snapshotSeqNo),
    ("locations", .array (report.orderedLocations d))]

/-- `PrefixReconciler._report_digest` -/
def contentDigest (d : Json.Digest) (report : PrefixReport) : String :=
  "sha256:" ++ d.sha256 (Json.dumps d.ascii (report.payload d))

end PrefixReport

end Directory

end PrismServe
