import PrismServe.Gateway.OutputRepair

/-!
# The chat endpoint

A chat request is admitted to the tracker, gets an output state, and then reads
its output until it is terminal or failed.  A read waits for output behind the
cursor; whenever the wait times out the handler looks whether the request is
still tracked and, with network control, queries the worker.

The cursor of a handler is the number of tokens it has handed out, so it is
kept with the client's view.  A streaming handler is suspended at every chunk.
-/

namespace PrismServe

open Lib

namespace ClientView

def cursor (v : ClientView) : Nat := v.delivered.length

/-- The view after a read that returned `tokens` and the flags of `o`. -/
def receive (tokens : List Int) (o : OutputState) (committed : List Int)
    (contributors : List Nat) (v : ClientView) : ClientView :=
  { v with
    delivered := v.delivered ++ tokens
    heard := contributors ++ v.heard
    finishReason :=
      if o.closed then some (if (orText o.error none).isSome then "error" else "stop")
      else v.finishReason
    closedWith := if o.closed then committed else v.closedWith }

end ClientView

namespace Loop

def ensureOutput (reqId : String) : Loop Nat :=
  .attempt fun w =>
    match w.output.ensure reqId with
    | .ok (ref, b) => .ok (ref, { w with output := b })
    | .error e => .error e

/-- Note when the output state of a client's request is gone or not the one of its admission. -/
def noteLostOutput (client : Nat) (reqId : String) : Loop Unit := do
  let w ← Prog.read
  when (decide (w.output.states.get? reqId = none) ||
      decide (w.output.states.get? reqId ≠ (w.clients client).ref))
    (observe (.lostOutput client))

/-- Find the output state of a client's request. -/
def lookUp (client : Nat) (reqId : String) : Loop Nat := do
  noteLostOutput client reqId
  ensureOutput reqId

/-- Hand out tokens of an output state; the answer tells whether the stream is closed. -/
def handOut (client ref : Nat) (tokens : ClientView → OutputState → List Int) :
    Loop Bool := do
  let w ← Prog.read
  let o := w.output.objects ref
  let v := w.clients client
  let committed := (w.output.objects (v.ref.getD 0)).tokenIds
  .modify fun w => { w with
    clients := Function.update w.clients client
      (v.receive (tokens v o) o committed (w.contributors ref)) }
  return o.closed

/-- The tokens behind the cursor, as `wait_next` returns them. -/
def behindCursor (v : ClientView) (o : OutputState) : List Int := o.tokenIds.drop v.cursor

/-- All tokens, as `snapshot` returns them. -/
def fromStart (_ : ClientView) (o : OutputState) : List Int := o.tokenIds

/-- Wait until an output state is ready; `false` at the deadline. -/
def waitReady (client ref : Nat) : Nat → Loop Bool
  | 0 => .cut
  | rounds + 1 => do
      let w ← Prog.read
      if (w.output.objects ref).ready (w.clients client).cursor then return true
      else if ← timedWait (.outputChange ref) then waitReady client ref rounds
      else return false

/-- The request of a client has left the tracker: end its stream. -/
def endUntracked (client : Nat) (reqId : String) : Loop Bool := do
  let w ← Prog.read
  observe (.readAfterRemoval client (w.clients client).cursor)
  noteLostOutput client reqId
  failOutput reqId "request_terminated_without_output"
  markResourceFree reqId
  let ref ← ensureOutput reqId
  handOut client ref fromStart

/-- After a timeout, query the worker when the output can be identified. -/
def repairTracked (cfg : Settings) (client serial : Nat) (reqId : String) : Loop Unit := do
  let w ← Prog.read
  match queryIdentity w serial with
  | none => return ()
  | some q =>
    when (cfg.network && decide (q.reqId = reqId))
      ((repairOutputGap q (w.clients client).cursor).exceptException fun _ => .ret ())

/-- One read; the answer tells whether the stream is closed. -/
def waitWithQuery (cfg : Settings) (client : Nat) (reqId : String) : Nat → Loop Bool
  | 0 => .cut
  | rounds + 1 => do
      let ref ← lookUp client reqId
      if ← waitReady client ref cfg.rounds then handOut client ref behindCursor
      else do
        let w ← Prog.read
        match w.tracker.get? reqId with
        | none => endUntracked client reqId
        | some serial => do
            repairTracked cfg client serial reqId
            waitWithQuery cfg client reqId rounds

/-- Read until the stream is closed. -/
def readOutput (cfg : Settings) (client : Nat) (reqId : String) (stream : Bool) :
    Nat → Loop Unit
  | 0 => .cut
  | rounds + 1 => do
      let before ← Prog.read
      let closed ← waitWithQuery cfg client reqId cfg.rounds
      let after ← Prog.read
      when stream (Prog.forEach
        ((after.clients client).delivered.drop (before.clients client).cursor)
        fun _ => pause (.chunk client))
      if closed then return () else readOutput cfg client reqId stream rounds

def requestInfo (now : Time) (reqId : String) (request : ChatRequest) : RequestInfo :=
  { reqId := reqId
    hasFingerprint := request.hasFingerprint
    arrivedAt := now
    correctnessPath := request.correctnessPath
    correctnessSourceInstance := request.correctnessSourceInstance
    correctnessTargetInstance := request.correctnessTargetInstance }

/-- Track a request and give it an output state; `none` when it is refused. -/
def admitRequest (reqId : String) (request : ChatRequest) : Loop (Option Nat) := do
  let w ← Prog.read
  match w.tracker.add (requestInfo w.now reqId request) with
  | .error _ => return none
  | .ok (serial, t) => do
      .modify fun w => { w with tracker := t }
      let ref ← (do
          let ref ← ensureOutput reqId
          return some ref : Loop (Option Nat)).rescue fun e =>
            if e = .outputCapacity then
              some ((remove reqId).bind fun _ => .ret none)
            else none
      match ref with
      | none => return none
      | some ref => do
          observe (.admitted reqId serial (w.output.states.contains reqId))
          .modify fun w => { w with
            clients := Function.update w.clients w.clientCount
              { serial := some serial, ref := some ref }
            clientCount := w.clientCount + 1 }
          return some w.clientCount

/-- The id of a chat request: the client's, or a new one. -/
def requestId (cfg : Settings) (request : ChatRequest) : Loop String :=
  if request.requestId = "" then (mint cfg).bind fun id => .ret ("chatcmpl-" ++ id)
  else .ret request.requestId

/-- The handler of a chat completion. -/
def chatCompletions (cfg : Settings) (request : ChatRequest) : Loop Unit := do
  let reqId ← requestId cfg request
  match ← admitRequest reqId request with
  | none => return ()
  | some client => readOutput cfg client reqId request.stream cfg.rounds

end Loop

end PrismServe
