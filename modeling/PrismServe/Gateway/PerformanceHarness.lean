import PrismServe.Gateway.OutputBuffer
import PrismServe.Lib.Binary64
import PrismServe.Lib.Dict
import PrismServe.Lib.Methods
import PrismServe.Router.HttpClient

/-!
# The performance harness

`parsePerformanceRequest` admits a raw prompt with a fixed shape and turns it into
tokens.  The registry keeps for every admitted request an active trace, then its
evidence, and after the evidence was acknowledged a tombstone.

A method of the registry keeps the state that it has reached when it raises, so
that the order of its checks and of its writes is the one of the source.
-/

namespace PrismServe.Performance

open Lib

def performanceRequestSchema : String := "prism.performance_request/v1"

def performanceTraceCap : Nat := 8192

structure PerformanceRequest where
  requestId : String
  expectedInputTokens : Int
  expectedOutputTokens : Int
  inputTokenIds : List Int
  rawContentSha256 : String
  inputTokenIdsSha256 : String
  modelProfile : JsonObject

def tokenIdsSha256 (d : Json.Digest) (tokenIds : List Int) : String :=
  "sha256:" ++ d.sha256 (Json.dumps d.ascii (.array (tokenIds.map .integer)))

def isUint64 (token : Int) : Bool := decide (0 ≤ token) && decide (token < 2 ^ 64)

/-! ## Admission -/

/-- A check of a request, which raises a `ValueError`. -/
def requireValue (holds : Bool) (message : String) : Except Exc Unit :=
  ensure holds (.value message)

@[simp] theorem requireValue_eq_ok {holds : Bool} {message : String} {u : Unit} :
    requireValue holds message = .ok u ↔ holds = true := ensure_eq_ok

def requireInt (value : Option Json) (name : String) (minimum maximum : Int) : Except Exc Int :=
  match value with
  | some (.integer n) =>
    if minimum ≤ n ∧ n ≤ maximum then .ok n
    else .error (.value s!"{name} must be an integer in {minimum}..{maximum}")
  | _ => .error (.value s!"{name} must be an integer in {minimum}..{maximum}")

/-- `_REQUEST_ID.fullmatch` -/
def matchesRequestId (s : String) : Bool :=
  match s.toList with
  | [] => false
  | c :: rest =>
    c.isAlphanum && decide (rest.length ≤ 127) &&
      rest.all fun c => c.isAlphanum || c ∈ ['.', '_', ':', '-']

def requestIdOf (body : JsonObject) : Except Exc String :=
  match body.lookup "request_id" with
  | some (.string s) =>
    if matchesRequestId s then .ok s
    else .error (.value "request_id does not match the performance harness format")
  | _ => .error (.value "request_id does not match the performance harness format")

/-- `float(temperature) != 0.0` after the check of the type; an integer may be too large. -/
def requireZeroTemperature (value : Option Json) : Except Exc Unit :=
  match value with
  | some (.integer n) =>
    if n.natAbs < 2 ^ 1024 - 2 ^ 970 then
      requireValue (decide (n = 0)) "performance harness requires temperature=0"
    else .error .other
  | some (.number q) => requireValue (decide (q = 0)) "performance harness requires temperature=0"
  | _ => .error (.value "performance harness requires temperature=0")

/-- The envelope with its fields. -/
def envelopeOf (body : JsonObject) : Except Exc JsonObject :=
  match body.lookup "prism_performance" with
  | some (.object envelope) =>
    if hasFields ["schema_version", "expected_input_tokens", "expected_output_tokens"] envelope
    then .ok envelope
    else .error (.value "prism_performance has unexpected fields")
  | _ => .error (.value "prism_performance has unexpected fields")

/-- The content of the one user message. -/
def contentOf (body : JsonObject) : Except Exc String :=
  match body.lookup "messages" with
  | some (.array [.object message]) =>
    if hasFields ["role", "content"] message then
      match message.lookup "role", message.lookup "content" with
      | some (.string "user"), some (.string content) => .ok content
      | _, _ => .error (.value "performance prompt must be one raw user string")
    else .error (.value "performance prompt must be one raw user string")
  | some (.array [_]) => .error (.value "performance prompt must be one raw user string")
  | _ => .error (.value "performance messages must contain exactly one user item")

def isText (value : Option Json) (text : String) : Bool :=
  match value with
  | some (.string s) => decide (s = text)
  | _ => false

def isTrue (value : Option Json) : Bool :=
  match value with
  | some (.bool b) => b
  | _ => false

def isInteger (value : Option Json) (n : Int) : Bool :=
  match value with
  | some (.integer m) => decide (m = n)
  | _ => false

/-- `parse_performance_request`; `encode` is the encoder without special tokens. -/
def parsePerformanceRequest (d : Json.Digest) (encode : String → Except Exc (List Int))
    (runtimeModel : String) (modelProfile body : JsonObject) : Except Exc PerformanceRequest := do
  let requestId ← requestIdOf body
  requireValue (isText (body.lookup "model") runtimeModel)
    "performance model does not match runtime"
  requireValue (isTrue (body.lookup "stream")) "performance harness requires stream=true"
  requireZeroTemperature (body.lookup "temperature")
  requireValue (isTrue (body.lookup "ignore_eos")) "performance harness requires ignore_eos=true"
  requireValue (body.lookup "input_token_ids").isNone
    "performance harness accepts raw text, not input_token_ids"
  let envelope ← envelopeOf body
  requireValue (isText (envelope.lookup "schema_version") performanceRequestSchema)
    "unsupported prism_performance schema_version"
  let expectedInput ←
    requireInt (envelope.lookup "expected_input_tokens") "expected_input_tokens" 1 4096
  let expectedOutput ←
    requireInt (envelope.lookup "expected_output_tokens") "expected_output_tokens" 2 256
  requireValue (isInteger (body.lookup "max_tokens") expectedOutput)
    "max_tokens must equal expected_output_tokens"
  let content ← contentOf body
  let tokenIds ← encode content
  requireValue (decide ((tokenIds.length : Int) = expectedInput))
    "tokenized input length does not match expected_input_tokens"
  requireValue (!tokenIds.isEmpty && tokenIds.all isUint64)
    "tokenizer returned a non-uint64 token id"
  return {
    requestId := requestId
    expectedInputTokens := expectedInput
    expectedOutputTokens := expectedOutput
    inputTokenIds := tokenIds
    rawContentSha256 := "sha256:" ++ d.sha256 content
    inputTokenIdsSha256 := tokenIdsSha256 d tokenIds
    modelProfile := modelProfile }

/-! ## The identity of the world -/

structure WorkerIdentity where
  podUid : String
  instanceEpoch : String
  globalRank : Int
  deriving DecidableEq, Repr

structure WorldIdentity where
  gatewayPodUid : String
  gatewayClockEpoch : String
  topologyGeneration : String
  affinityEnabled : Bool
  workers : List (String × WorkerIdentity)
  deriving DecidableEq, Repr

/-- A text that is not empty. -/
def nonEmptyText (value : Option Json) (message : String) : Except Exc String :=
  match value with
  | some (.string s) => if s.isEmpty then .error (.value message) else .ok s
  | _ => .error (.value message)

def expectedRanks : List (String × Int) := [("p0", 0), ("p1", 1), ("d0", 2), ("d1", 3)]

/-- The fields of a worker. -/
def workerFields (instanceId : String) (value : Option Json) : Except Exc JsonObject :=
  match value with
  | some (.object identity) =>
    if hasFields ["pod_uid", "instance_epoch", "global_rank"] identity then .ok identity
    else .error (.value s!"performance worker identity is incomplete: {instanceId}")
  | _ => .error (.value s!"performance worker identity is incomplete: {instanceId}")

/-- The epoch starts with the pod and a colon, and something follows. -/
def epochOfPod (podUid instanceEpoch : String) : Bool :=
  (podUid ++ ":").toList.isPrefixOf instanceEpoch.toList &&
    decide (instanceEpoch.length ≠ podUid.length + 1)

def workerIdentity (instanceId : String) (expectedRank : Int) (identity : JsonObject) :
    Except Exc WorkerIdentity :=
  match identity.lookup "pod_uid", identity.lookup "instance_epoch",
    identity.lookup "global_rank" with
  | some (.string podUid), some (.string instanceEpoch), some (.integer rank) =>
    if !podUid.isEmpty && epochOfPod podUid instanceEpoch && decide (rank = expectedRank) then
      .ok ⟨podUid, instanceEpoch, rank⟩
    else .error (.value s!"performance worker identity is invalid: {instanceId}")
  | _, _, _ => .error (.value s!"performance worker identity is invalid: {instanceId}")

/-- The loop over the expected workers, with those that were seen. -/
def freezeWorkers (workers : JsonObject) : List (String × Int) → List (String × WorkerIdentity) →
    Except Exc (List (String × WorkerIdentity))
  | [], frozen => .ok frozen
  | (instanceId, expectedRank) :: rest, frozen => do
      let identity ← workerFields instanceId (workers.lookup instanceId)
      let worker ← workerIdentity instanceId expectedRank identity
      requireValue (frozen.all fun other => decide (other.2.podUid ≠ worker.podUid) &&
          decide (other.2.instanceEpoch ≠ worker.instanceEpoch))
        "performance worker identities must be unique"
      freezeWorkers workers rest (frozen ++ [(instanceId, worker)])

def gatewayOf (value : JsonObject) : Except Exc JsonObject :=
  match value.lookup "gateway" with
  | some (.object gateway) =>
    if hasFields ["pod_uid", "clock_epoch"] gateway then .ok gateway
    else .error (.value "performance Gateway identity is incomplete")
  | _ => .error (.value "performance Gateway identity is incomplete")

def workersOf (value : JsonObject) : Except Exc JsonObject :=
  match value.lookup "workers" with
  | some (.object workers) =>
    if hasFields (expectedRanks.map Prod.fst) workers then .ok workers
    else .error (.value "performance world must identify p0, p1, d0 and d1")
  | _ => .error (.value "performance world must identify p0, p1, d0 and d1")

def affinityOf (value : JsonObject) : Except Exc Bool :=
  match value.lookup "affinity_enabled" with
  | some (.bool b) => .ok b
  | _ => .error (.value "performance affinity_enabled must be boolean")

/-- `_freeze_world_identity` -/
def freezeWorldIdentity (value : JsonObject) : Except Exc WorldIdentity := do
  requireValue (hasFields ["gateway", "topology_generation", "affinity_enabled", "workers"] value)
    "performance world identity has unexpected fields"
  let gateway ← gatewayOf value
  let podUid ← nonEmptyText (gateway.lookup "pod_uid")
    "performance Gateway identity fields must be non-empty"
  let clockEpoch ← nonEmptyText (gateway.lookup "clock_epoch")
    "performance Gateway identity fields must be non-empty"
  let topologyGeneration ← nonEmptyText (value.lookup "topology_generation")
    "performance topology_generation must be non-empty"
  let affinityEnabled ← affinityOf value
  let workers ← freezeWorkers (← workersOf value) expectedRanks []
  return ⟨podUid, clockEpoch, topologyGeneration, affinityEnabled, workers⟩

/-! ## The evidence of a request -/

structure ActiveTrace where
  request : PerformanceRequest
  worldIdentity : WorldIdentity
  streamTerminalObserved : Bool := false
  detached : Bool := false
  streamError : Option String := none

inductive TraceStatus
  | pass
  | cancelled
  | failed
  deriving DecidableEq, Repr

structure RouteSummary where
  path : Json
  source : Json
  target : Json
  cachedPrefixTokens : Json
  suffixTokens : Json
  srcBlockIds : List Json
  dstBlockIds : List Json
  mapping : List Json

structure TransferSummary where
  selectedMode : Json
  pairId : Option Json
  completedBytes : Int
  workTerminal : Bool
  cudaTerminal : Bool
  gatewayClockEpoch : Option Json
  transferStartedNs : Option Json
  transferTerminalNs : Option Json
  gatewayObservedTransferWallMs : Option Rat
  effectiveBytesPerS : Option Rat

structure PerformanceEvidence where
  requestId : String
  status : TraceStatus
  errorCode : Option String
  runtimeError : Option String
  modelProfile : JsonObject
  worldIdentity : WorldIdentity
  expectedInputTokens : Int
  expectedOutputTokens : Int
  actualInputTokens : Nat
  actualOutputTokens : Nat
  rawContentSha256 : String
  inputTokenIdsSha256 : String
  outputTokenIds : List Int
  outputTokenIdsSha256 : String
  route : RouteSummary
  transfer : TransferSummary
  streamTerminalObserved : Bool
  detached : Bool

/-- `value[key]` -/
def item (value : Json) (key : String) : Except Exc Json :=
  match value with
  | .object fields =>
    match fields.lookup key with
    | some v => .ok v
    | none => .error (.key key)
  | _ => .error (.type "object is not subscriptable with a text")

/-- `a / b` of integers, which raises when the result is too large for a float. -/
def trueDivide (a b : Int) : Except Exc Rat :=
  let q := Binary64.round ((a : Rat) / b)
  if |q| < 2 ^ 1024 then .ok q else .error .other

/-- A token that is an unsigned 64-bit integer. -/
def uint64Token (message : String) : Json → Except Exc Int
  | .integer n => if isUint64 n then .ok n else .error (.value message)
  | _ => .error (.value message)

def uint64Tokens (values : List Json) (message : String) : Except Exc (List Int) :=
  values.mapM (uint64Token message)

theorem uint64Token_eq_ok {message : String} {value : Json} {n : Int} :
    uint64Token message value = .ok n ↔ value = .integer n ∧ isUint64 n = true := by
  cases value with
  | integer m =>
    simp only [uint64Token, Json.integer.injEq]
    constructor
    · intro h
      split at h
      · rename_i hm
        cases h
        exact ⟨rfl, hm⟩
      · cases h
    · rintro ⟨rfl, hm⟩
      rw [if_pos hm]
  | _ =>
    simp [uint64Token]

/-- The status, the error code and the runtime error of a trace. -/
def verdict (trace : ActiveTrace) (outputTokens : Nat) (runtimeError : Option String) :
    TraceStatus × Option String × Option String :=
  let runtimeError := orText runtimeError trace.streamError
  if trace.detached then
    -- a client that went away is a cancellation, whatever the socket raised
    (.cancelled, some "CLIENT_DISCONNECTED", none)
  else if runtimeError.isSome then (.failed, some "SERVER_ERROR", runtimeError)
  else if (outputTokens : Int) ≠ trace.request.expectedOutputTokens then
    (.failed, some "OUTPUT_TOKEN_COUNT_MISMATCH", runtimeError)
  else if !trace.streamTerminalObserved then
    (.failed, some "STREAM_TERMINAL_NOT_OBSERVED", runtimeError)
  else (.pass, none, runtimeError)

def routeSummary (routeEvidence : Json) : Except Exc RouteSummary := do
  let path ← item routeEvidence "path"
  let source ← item (← item routeEvidence "route") "source"
  let target ← item (← item routeEvidence "route") "target"
  let cachedPrefixTokens ← item routeEvidence "cached_prefix_tokens"
  let suffixTokens ← item routeEvidence "suffix_tokens"
  let srcBlockIds ← (← item routeEvidence "src_block_ids").iterate
  let dstBlockIds ← (← item routeEvidence "dst_block_ids").iterate
  let mapping ← (← item routeEvidence "mapping").iterate
  return ⟨path, source, target, cachedPrefixTokens, suffixTokens, srcBlockIds, dstBlockIds, mapping⟩

/-- The time between two integral instants. -/
def elapsedNs (started terminal : Option Json) : Option Int :=
  match started, terminal with
  | some (.integer started), some (.integer terminal) => some (terminal - started)
  | _, _ => none

/-- A quotient by the elapsed time, if that is known. -/
def perElapsed (elapsed : Option Int) (divide : Int → Except Exc Rat) : Except Exc (Option Rat) :=
  match elapsed with
  | none => .ok none
  | some n => (divide n).map some

/-- The summary of a transfer; `transport` has been indexed, so it is an object. -/
def transferSummary (parseInt : String → Option Int) (transport : Json) :
    Except Exc TransferSummary := do
  let completedBytes ← (← item transport "completed_bytes").toInt parseInt
  let fields ← transport.asObject
  let started := fields.lookup "transfer_started_ns"
  let terminal := fields.lookup "transfer_terminal_ns"
  let elapsed := elapsedNs started terminal
  requireValue (!elapsed.any fun n => decide (n ≤ 0)) "Gateway transfer timing is not monotonic"
  let selectedMode ← item transport "selected_mode"
  let wallMs ← perElapsed elapsed fun n => trueDivide n 1000000
  let bytesPerS ← perElapsed elapsed fun n => trueDivide (completedBytes * 1000000000) n
  return {
    selectedMode := selectedMode
    pairId := fields.lookup "pair_id"
    completedBytes := completedBytes
    workTerminal := isTrue (fields.lookup "work_terminal")
    cudaTerminal := isTrue (fields.lookup "cuda_terminal")
    gatewayClockEpoch := fields.lookup "gateway_clock_epoch"
    transferStartedNs := started
    transferTerminalNs := terminal
    gatewayObservedTransferWallMs := wallMs
    effectiveBytesPerS := bytesPerS }

/-- What the evidence is bound to besides the arguments of a call. -/
structure EvidenceSettings where
  digest : Json.Digest
  parseInt : String → Option Int

/-- The part of `finalize` between the lookup of the trace and the commit. -/
def evidenceOf (cfg : EvidenceSettings) (trace : ActiveTrace) (requestId : String)
    (outputTokenIds : List Json) (runtimeError : Option String) (routeEvidence : Json) :
    Except Exc PerformanceEvidence := do
  let output ← uint64Tokens outputTokenIds "output contains a non-uint64 token id"
  let judged := verdict trace output.length runtimeError
  let transport ← item routeEvidence "transport"
  let route ← routeSummary routeEvidence
  let transfer ← transferSummary cfg.parseInt transport
  requireValue (isText transfer.gatewayClockEpoch trace.worldIdentity.gatewayClockEpoch)
    "Gateway clock epoch changed within performance request"
  return {
    requestId := requestId
    status := judged.1
    errorCode := judged.2.1
    runtimeError := judged.2.2
    modelProfile := trace.request.modelProfile
    worldIdentity := trace.worldIdentity
    expectedInputTokens := trace.request.expectedInputTokens
    expectedOutputTokens := trace.request.expectedOutputTokens
    actualInputTokens := trace.request.inputTokenIds.length
    actualOutputTokens := output.length
    rawContentSha256 := trace.request.rawContentSha256
    inputTokenIdsSha256 := trace.request.inputTokenIdsSha256
    outputTokenIds := output
    outputTokenIdsSha256 := tokenIdsSha256 cfg.digest output
    route := route
    transfer := transfer
    streamTerminalObserved := trace.streamTerminalObserved
    detached := trace.detached }

/-! ## The registry -/

structure TraceRegistry where
  active : Dict String ActiveTrace := .empty
  terminal : Dict String PerformanceEvidence := .empty
  tombstones : Dict String Unit := .empty

/-- A method of the registry. -/
abbrev TraceM := EStateM Exc TraceRegistry

namespace TraceRegistry

def contains (r : TraceRegistry) (requestId : String) : Bool :=
  r.active.contains requestId || r.terminal.contains requestId || r.tombstones.contains requestId

/-- `counts()["total"]` -/
def total (r : TraceRegistry) : Nat := r.active.size + r.terminal.size + r.tombstones.size

/-- Raise what a computation raises. -/
def check {α : Type} (x : Except Exc α) : TraceM α :=
  match x with
  | .ok a => pure a
  | .error e => throw e

/-- Change the active trace of a request, if it has one. -/
def updateActive (requestId : String) (change : ActiveTrace → ActiveTrace) : TraceM Unit :=
  modify fun r =>
    match r.active.get? requestId with
    | none => r
    | some trace => { r with active := r.active.set requestId (change trace) }

/-- The two errors of the registry itself are subclasses of `RuntimeError`. -/
def reserve (request : PerformanceRequest) (worldIdentity : JsonObject) : TraceM Unit := do
  let r ← get
  if r.contains request.requestId then
    throw (.runtime "performance request id already exists")
  else if performanceTraceCap ≤ r.total then
    throw (.runtime "performance trace capacity exhausted")
  else do
    let identity ← check (freezeWorldIdentity worldIdentity)
    modify fun r => { r with
      active := r.active.set request.requestId { request := request, worldIdentity := identity } }

def rollbackUncommitted (requestId : String) : TraceM Unit :=
  modify fun r => { r with active := r.active.erase requestId }

def observeStreamTerminal (requestId : String) : TraceM Unit :=
  updateActive requestId fun trace => { trace with streamTerminalObserved := true }

def markDetached (requestId : String) : TraceM Unit :=
  updateActive requestId fun trace => { trace with detached := true }

def markStreamError (requestId error : String) : TraceM Unit :=
  updateActive requestId fun trace => { trace with streamError := some error }

def finalize (cfg : EvidenceSettings) (requestId : String) (outputTokenIds : List Json)
    (runtimeError : Option String) (routeEvidence : Json) : TraceM PerformanceEvidence := do
  let r ← get
  match r.terminal.get? requestId with
  | some existing => return existing
  | none =>
    match r.active.get? requestId with
    | none => throw (.key requestId)
    | some trace => do
        let value ← check
          (evidenceOf cfg trace requestId outputTokenIds runtimeError routeEvidence)
        modify fun r => { r with active := r.active.erase requestId }
        modify fun r => { r with terminal := r.terminal.set requestId value }
        return value

inductive Acknowledgement
  | active
  | acked
  | unknown
  deriving DecidableEq, Repr

def acknowledge (requestId : String) : TraceM Acknowledgement := do
  let r ← get
  if r.active.contains requestId then return .active
  else if r.tombstones.contains requestId then return .acked
  else if !r.terminal.contains requestId then return .unknown
  else do
    modify fun r => { r with terminal := r.terminal.erase requestId }
    modify fun r => { r with tombstones := r.tombstones.set requestId () }
    return .acked

end TraceRegistry

end PrismServe.Performance
