import PrismServe.Lib.Dict
import PrismServe.Lib.Dialogue
import PrismServe.Router.HttpClient
import PrismServe.Router.NetworkControl
import Mathlib.Data.List.Sort
import Mathlib.Data.String.Basic

/-!
# Takeover of the workers by a replacement owner

Before a gateway admits anything, the replacement owner has every worker list the
operations that the previous owner left on it.  These are the parsers of what a
worker answers: they raise unless every operation has the shape, the owner and the
state that it may have.
-/

namespace PrismServe

open Lib

namespace Json

/-- An array of texts. -/
def texts? : Json → Option (List String)
  | array items => items.mapM text?
  | _ => none

end Json

/-- A link of the chain from an exception to its causes. -/
inductive Cause
  /-- A lost response, a broken connection or a timeout. -/
  | transient
  | inferRpc (statusCode : Nat)
  | other
  deriving DecidableEq, Repr

/-- What an awaited call raises: a cancellation, or an exception with its causes. -/
inductive Fault
  | cancelled
  | exception (chain : List Cause)
  deriving DecidableEq, Repr

inductive TakeoverError
  | fault (f : Fault)
  | value (message : String)
  | runtime (message : String)
  | type (message : String)
  deriving DecidableEq, Repr

/-! ## What the workers answer -/

structure EndpointOperationRef where
  topologyGeneration : String
  ownerGeneration : String
  operationSeq : Int
  targetInstance : String
  targetWorkerEpoch : String
  operationId : String
  payloadDigest : String
  deriving DecidableEq, Repr

def endpointRefFields : List String :=
  ["topology_generation", "owner_generation", "operation_seq", "target_instance",
    "target_worker_epoch", "operation_id", "payload_digest"]

section Parsers

variable (context : String)

def refText (object : JsonObject) (field : String) : Except TakeoverError String :=
  match object.lookup field with
  | some (.string s) =>
    if s.isEmpty then
      .error (.runtime (context ++ " endpoint ref field " ++ field ++ " is invalid"))
    else .ok s
  | _ => .error (.runtime (context ++ " endpoint ref field " ++ field ++ " is invalid"))

def refSequence (object : JsonObject) : Except TakeoverError Int :=
  match object.lookup "operation_seq" with
  | some (.integer n) =>
    if n ≤ 0 then .error (.runtime (context ++ " endpoint operation sequence is invalid"))
    else .ok n
  | _ => .error (.runtime (context ++ " endpoint operation sequence is invalid"))

def parseEndpointRef : Option Json → Except TakeoverError EndpointOperationRef
  | some (.object fields) =>
    if hasFields endpointRefFields fields then do
      return {
        topologyGeneration := ← refText context fields "topology_generation"
        ownerGeneration := ← refText context fields "owner_generation"
        targetInstance := ← refText context fields "target_instance"
        targetWorkerEpoch := ← refText context fields "target_worker_epoch"
        operationId := ← refText context fields "operation_id"
        payloadDigest := ← refText context fields "payload_digest"
        operationSeq := ← refSequence context fields }
    else .error (.runtime (context ++ " endpoint ref is incomplete"))
  | _ => .error (.runtime (context ++ " endpoint ref is incomplete"))

structure ParsedOperationSnapshot where
  endpointRef : EndpointOperationRef
  state : EndpointState
  resourcesHeld : Bool
  heldResourceKinds : List String
  deriving DecidableEq, Repr

def parseOperationState : Option Json → Except TakeoverError EndpointState
  | some (.string "PREPARED") => .ok .prepared
  | some (.string "RUNNING") => .ok .running
  | some (.string "COMPLETED") => .ok .completed
  | some (.string "FENCED") => .ok .fenced
  | some (.string "UNKNOWN") => .ok .unknown
  | _ => .error (.runtime (context ++ " operation state is invalid"))

def parseHeldKinds (value : Option Json) : Except TakeoverError (List String) :=
  match value.bind Json.texts? with
  | some kinds =>
    if kinds.any String.isEmpty || !decide kinds.Nodup then
      .error (.runtime (context ++ " held resource kinds are invalid"))
    else .ok (kinds.insertionSort (· ≤ ·))
  | none => .error (.runtime (context ++ " held resource kinds are invalid"))

/-- A worker that the previous owner is active on, with the epoch of its identity. -/
structure OldWorker where
  instanceId : String
  owner : String
  epoch : String
  deriving DecidableEq, Repr

/-- The reference belongs to the worker, its owner and its epoch. -/
def OldWorker.owns (w : OldWorker) (ref : EndpointOperationRef) : Bool :=
  decide (ref.targetInstance = w.instanceId) && decide (ref.ownerGeneration = w.owner) &&
    decide (ref.targetWorkerEpoch = w.epoch) && !ref.operationId.isEmpty

/-- `_parse_operation_snapshot`. -/
def parseOperationSnapshot (w : OldWorker) (expectedRef : Option EndpointOperationRef) :
    Json → Except TakeoverError ParsedOperationSnapshot
  | .object value => do
      let ref ← parseEndpointRef context (value.lookup "endpoint_ref")
      if expectedRef.any fun expected => decide (ref ≠ expected) then
        throw (.runtime (context ++ " returned another endpoint ref"))
      if !w.owns ref then
        throw (.runtime (context ++ " returned a foreign endpoint ref"))
      let state ← parseOperationState context (value.lookup "state")
      let resourcesHeld ← match value.lookup "resources_held" with
        | some (.bool held) => .ok held
        | _ => throw (.runtime (context ++ " resources_held is invalid"))
      let kinds ← parseHeldKinds context (value.lookup "held_resource_kinds")
      if resourcesHeld ≠ !kinds.isEmpty then
        throw (.runtime (context ++ " held resource state is inconsistent"))
      return ⟨ref, state, resourcesHeld, kinds⟩
  | _ => .error (.runtime (context ++ " operation entry is not an object"))

end Parsers

/-- `_parse_complete_operation_report`. -/
def parseCompleteOperationReport (w : OldWorker) (maxEntries : Option Nat) (report : JsonObject) :
    Except TakeoverError (List ParsedOperationSnapshot) :=
  match report.lookup "complete" with
  | some (.bool true) =>
    match report.lookup "instance_epoch" with
    | some (.string epoch) =>
      if epoch ≠ w.epoch then
        .error (.runtime "old-owner operation report has another worker epoch")
      else
        match report.lookup "operations" with
        | some (.array operations) =>
          if maxEntries.any fun cap => decide (cap < operations.length) then
            .error (.runtime "old-owner operation audit exceeds configured cap")
          else operations.mapM (parseOperationSnapshot "old-owner operation list" w none)
        | _ => .error (.runtime "complete old-owner operation report lacks operations")
    | _ => .error (.runtime "old-owner operation report has another worker epoch")
  | _ => .error (.runtime "old-owner operation report is not complete")

end PrismServe
