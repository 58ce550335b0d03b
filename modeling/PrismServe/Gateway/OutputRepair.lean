import PrismServe.World

/-!
# Committing, failing and repairing output

Workers push cumulative output, and the gateway may query it.  Whatever way a
report comes, it is committed to the output state of its request in one step,
and so is a failure that the gateway decides on itself.

Next to the buffer the steps write down, for statements only, whose worker
contributed to a state, whether a state ended cleanly and whether an error was
put on it after that.
-/

namespace PrismServe

open Lib

/-- Identity of the output of a request at its decode worker, once it has one. -/
def outputQueryIdentity (r : RequestInfo) : Option (String × String × String × String) :=
  if (r.state = .decoding ∨ r.state = .finished) ∧ r.decodeInstance ≠ "" ∧
      r.decodeInstanceEpoch ≠ "" ∧ r.reqId ≠ "" ∧ r.activeOperationId ≠ "" then
    some (r.decodeInstance, r.decodeInstanceEpoch, r.reqId, r.activeOperationId)
  else none

/-- How the end of an output state changed. -/
def endObservations (ref : Nat) (old new : OutputState) : List Observation :=
  if old.clean = new.clean then []
  else if new.clean then [.endedCleanly ref]
  else [.spoiled ref]

namespace World

/-- The buffer after a change to the output state of one id. -/
def withOutput (reqId : String) (b : OutputBuffer) (w : World) : World :=
  match b.states.get? reqId with
  | none => { w with output := b }
  | some ref =>
    { w with
      output := b
      history := endObservations ref ((w.output.stateOf reqId).getD {}) (b.objects ref) ++
        w.history }

/-- A worker's report, produced for the request `origin`, has gone into a state. -/
def contribute (reqId : String) (serial origin : Nat) (w : World) : World :=
  match w.output.states.get? reqId with
  | none => w
  | some ref =>
    { w with
      contributors := Function.update w.contributors ref (origin :: w.contributors ref)
      history := .outputApplied reqId serial origin :: w.history }

end World

namespace Loop

/-- Commit what a worker reported about the output of a request. -/
def applyOutput (reqId : String) (serial origin : Nat) (tokenIds : List Int)
    (outputSeqNo : Int) (terminal : Bool) (error : Option String) (stillCurrent : Bool) :
    Loop Unit :=
  .attemptWith fun w =>
    let r := w.output.applyCumulative reqId tokenIds outputSeqNo terminal error stillCurrent
    (r.1.map fun _ => (),
      if stillCurrent then (w.withOutput reqId r.2).contribute reqId serial origin else w)

/-- Close the output of a request with an error of the gateway. -/
def failOutput (reqId error : String) : Loop Unit :=
  .attempt fun w =>
    match w.output.fail reqId error with
    | .ok b => .ok ((), w.withOutput reqId b)
    | .error e => .error e

/-- The identity of an output query and the request object it was taken from. -/
structure QueryIdentity where
  serial : Nat
  instanceId : String
  instanceEpoch : String
  reqId : String
  operationId : String

def queryIdentity (w : World) (serial : Nat) : Option QueryIdentity :=
  (outputQueryIdentity (w.tracker.info serial)).map fun i =>
    ⟨serial, i.1, i.2.1, i.2.2.1, i.2.2.2⟩

theorem queryIdentity_reqId {w : World} {serial : Nat} {q : QueryIdentity}
    (h : queryIdentity w serial = some q) : q.reqId = (w.tracker.info serial).reqId := by
  obtain ⟨i, hi, rfl⟩ := Option.map_eq_some_iff.mp h
  unfold outputQueryIdentity at hi
  split at hi
  · cases hi
    rfl
  · cases hi

/-- The request is still tracked under the identity of the query. -/
def stillCurrent (w : World) (q : QueryIdentity) : Bool :=
  decide (w.tracker.get? q.reqId = some q.serial) &&
    decide (outputQueryIdentity (w.tracker.info q.serial) =
      some (q.instanceId, q.instanceEpoch, q.reqId, q.operationId))

def answersQuery (q : QueryIdentity) (o : OutputReply) : Bool :=
  decide (o.reqId = some q.reqId) && decide (o.instanceEpoch = some q.instanceEpoch) &&
    decide (o.operationId = some q.operationId)

/-- Query the authoritative output after a missing or bad event. -/
def repairOutputGap (q : QueryIdentity) (cursor : Nat) : Loop Unit := do
  let o ← call (.requestOutput q.instanceId q.reqId cursor) Reply.outputOnly
  if answersQuery q o then
    match o.tokenIds, o.outputSeqNo with
    | none, _ => .raise (.key "token_ids")
    | _, none => .raise (.key "output_seq_no")
    | some tokenIds, some outputSeqNo => do
        let w ← Prog.read
        applyOutput q.reqId q.serial o.origin tokenIds outputSeqNo o.terminal o.error
          (stillCurrent w q)
  else .raise (.value "output query identity changed")

end Loop

end PrismServe
