import PrismServe.Gateway.PerformanceHarness
import PrismServe.Router.Fingerprint

/-!
# Prompts of chat requests

The chat endpoint reads the body of a request, takes its prompt from one of three
places and fingerprints it.  A prompt of the correctness harness comes as tokens, a
prompt of the performance harness is encoded by the pinned tokenizer, and both are
checked to be unsigned 64-bit integers; other prompts are encoded as they are.

All of it happens inside one `try` statement, which answers a `KeyError`, a
`TypeError` or a `ValueError` with an invalid-request response.
-/

namespace PrismServe.Performance

open Lib Directory

structure ChatResponse where
  status : Nat
  error : String
  detail : Option String := none
  deriving DecidableEq, Repr

/-- The adapter of the tokenizer; its constructor asserts the block size. -/
structure TokenizerAdapter where
  cacheNamespace : String
  kvCompatibilityId : String
  blockSize : Nat
  blockSize_pos : 0 < blockSize
  /-- `encoder.encode`, with or without special tokens. -/
  encode : Bool → String → Except Exc (List Int)

/-- What the handler reads of the application, and what the request brings besides its body. -/
structure ChatSettings where
  runtimeModel : String
  correctnessHarnessEnabled : Bool
  routeParityHarnessEnabled : Bool
  performanceHarnessEnabled : Bool
  affinityEnabled : Bool
  configuredSecret : String
  suppliedSecret : String
  expectedModelProfile : JsonObject
  tokenizer : Option TokenizerAdapter
  digest : Json.Digest
  /-- The 64-bit hash of the blocks. -/
  hash : List UInt8 → UInt64
  /-- `str(value)` of a value that is no text. -/
  toText : Json → String

inductive CorrectnessPath
  | cold
  | sameInstance
  | crossInstance
  | seedD1
  | seedD0
  deriving DecidableEq, Repr

structure CorrectnessRoute where
  path : CorrectnessPath
  sourceInstance : String
  targetInstance : String
  cachedPrefixTokens : Nat
  includeInPacket : Bool := true
  deriving DecidableEq, Repr

def routes : List (String × CorrectnessRoute) :=
  [("cold", ⟨.cold, "p0", "d1", 0, true⟩),
    ("same_instance", ⟨.sameInstance, "d1", "d1", 512, true⟩),
    ("cross_instance", ⟨.crossInstance, "d0", "d1", 512, true⟩),
    ("seed_d1", ⟨.seedD1, "p1", "d1", 0, false⟩),
    ("seed_d0", ⟨.seedD0, "p1", "d0", 0, false⟩)]

def parseRoute (value : Json) : Except Exc CorrectnessRoute :=
  match value with
  | .object fields =>
    if hasFields ["path"] fields then
      match (fields.lookup "path").bind Json.text? with
      | some path =>
        match routes.lookup path with
        | some route => .ok route
        | none => .error (.value "unsupported correctness path")
      | none => .error (.value "unsupported correctness path")
    else .error (.value "week12_correctness must contain only path")
  | _ => .error (.value "week12_correctness must contain only path")

def isAscii (text : String) : Bool := text.toList.all fun c => decide (c.toNat < 128)

variable (s : ChatSettings)

/-- `_operator_auth_error`: both secrets must be set and equal,
and only ASCII texts are compared. -/
def operatorAuthError (enabled : Bool) : Except Exc (Option ChatResponse) :=
  if !enabled then .ok (some { status := 404, error := "not_found" })
  else if s.configuredSecret.isEmpty || s.suppliedSecret.isEmpty then
    .ok (some { status := 403, error := "forbidden" })
  else if !isAscii s.configuredSecret || !isAscii s.suppliedSecret then
    .error (.type "comparing strings with non-ASCII characters is not supported")
  else if s.configuredSecret ≠ s.suppliedSecret then
    .ok (some { status := 403, error := "forbidden" })
  else .ok none

/-- A prompt with its fingerprint, and where it came from. -/
structure Prompt where
  tokenIds : List Int
  fingerprint : Option PromptFingerprint
  correctnessRoute : Option CorrectnessRoute := none
  performanceRequest : Option PerformanceRequest := none

/-- How the reading of the prompt ends when nothing is raised. -/
inductive PromptOutcome
  | response (r : ChatResponse)
  | admitted (prompt : Prompt)

/-- `body[key]` on the object of the request. -/
def field (body : JsonObject) (key : String) : Except Exc Json := item (.object body) key

/-- A harness prompt that has passed its checks. -/
structure HarnessPrompt where
  tokenizer : TokenizerAdapter
  tokenIds : List Int
  correctnessRoute : Option CorrectnessRoute := none
  performanceRequest : Option PerformanceRequest := none

def requireTokenizer (message : String) : Except Exc TokenizerAdapter :=
  match s.tokenizer with
  | some t => .ok t
  | none => .error (.value message)

/-- `list(body["input_token_ids"])`, which must not be empty and hold unsigned integers. -/
def correctnessTokens (body : JsonObject) : Except Exc (List Int) := do
  let values ← (← field body "input_token_ids").iterate
  requireValue (!values.isEmpty) "input_token_ids must be unsigned 64-bit integers"
  uint64Tokens values "input_token_ids must be unsigned 64-bit integers"

/-- The correctness branch up to the fingerprint. -/
def correctnessPrompt (body : JsonObject) : Except Exc (ChatResponse ⊕ HarnessPrompt) := do
  match ← operatorAuthError s (s.correctnessHarnessEnabled || s.routeParityHarnessEnabled) with
  | some r => return .inl r
  | none => do
      let route ← parseRoute (← field body "week12_correctness")
      if s.performanceHarnessEnabled && !s.affinityEnabled && decide (route.path ≠ .cold) then
        return .inl { status := 404, error := "not_found" }
      else do
        let tokenizer ← requireTokenizer s "correctness checks require the frozen tokenizer"
        let tokenIds ← correctnessTokens body
        return .inr ⟨tokenizer, tokenIds, some route, none⟩

/-- The performance branch up to the fingerprint. -/
def performancePrompt (body : JsonObject) : Except Exc (ChatResponse ⊕ HarnessPrompt) := do
  match ← operatorAuthError s s.performanceHarnessEnabled with
  | some r => return .inl r
  | none => do
      let tokenizer ← requireTokenizer s "performance harness requires the pinned tokenizer"
      let request ← parsePerformanceRequest s.digest (tokenizer.encode false) s.runtimeModel
        s.expectedModelProfile body
      return .inr ⟨tokenizer, request.inputTokenIds, none, some request⟩

/-- An exception of the fingerprint as the handler sees it: `struct.error` is no `ValueError`. -/
def fingerprintExc : FingerprintError → Exc
  | .assertionError message => .assertion message
  | .structError => .other

/-- `PromptFingerprint.create` for a text-only request. -/
def createFingerprint (t : TokenizerAdapter) (tokenIds : List Int) : Except Exc PromptFingerprint :=
  match PromptFingerprint.create s.hash t.cacheNamespace t.kvCompatibilityId "text-only" tokenIds
      t.blockSize with
  | .ok fingerprint => .ok fingerprint
  | .error e => .error (fingerprintExc e)

/-- Both harness branches end in the same call. -/
def fingerprintHarness (p : HarnessPrompt) : Except Exc PromptOutcome := do
  let fingerprint ← createFingerprint s p.tokenizer p.tokenIds
  return .admitted ⟨p.tokenIds, some fingerprint, p.correctnessRoute, p.performanceRequest⟩

/-- `str(message["content"])` -/
def messageText (message : Json) : Except Exc String := do
  match ← item message "content" with
  | .string text => return text
  | value => return s.toText value

/-- The integers of a list, `bool` included. -/
def integers (values : List Json) : Except Exc (List Int) :=
  values.mapM fun value =>
    match value with
    | .integer n => .ok n
    | .bool b => .ok (if b then 1 else 0)
    | _ => .error (.value "input_token_ids are required without tokenizer")

/-- A request without an envelope. -/
def plainPrompt (body : JsonObject) : Except Exc PromptOutcome := do
  match ← field body "messages" with
  | .array (first :: rest) => do
      let texts ← (first :: rest).mapM (messageText s)
      match s.tokenizer with
      | some t => do
          let tokenIds ← t.encode true ("\n".intercalate texts)
          let fingerprint ← createFingerprint s t tokenIds
          return .admitted { tokenIds := tokenIds, fingerprint := some fingerprint }
      | none => do
          let values ← (← field body "input_token_ids").iterate
          requireValue (!values.isEmpty) "input_token_ids are required without tokenizer"
          let tokenIds ← integers values
          return .admitted { tokenIds := tokenIds, fingerprint := none }
  | _ => throw (.value "messages must be a non-empty list")

/-- The envelopes of a body. -/
inductive Envelope
  | both
  | correctness
  | performance
  | none

def envelope (body : JsonObject) : Envelope :=
  match body.lookup "week12_correctness", body.lookup "prism_performance" with
  | some _, some _ => .both
  | some _, none => .correctness
  | none, some _ => .performance
  | none, none => .none

/-- The harness branch of a body, `none` when it has no envelope. -/
def harnessPrompt (body : JsonObject) : Option (Except Exc (ChatResponse ⊕ HarnessPrompt)) :=
  match envelope body with
  | .both => some (.error (.value "correctness and performance envelopes are isolated"))
  | .correctness => some (correctnessPrompt s body)
  | .performance => some (performancePrompt s body)
  | .none => none

/-- The body as an object with the model of the runtime; indexing anything else by a text raises. -/
def checkedBody (document : Except Exc Json) : Except Exc JsonObject := do
  let value ← document
  let model ← item value "model"
  let body ← value.asObject
  let text := match model with
    | .string text => text
    | other => s.toText other
  requireValue (decide (text = s.runtimeModel)) "model does not match runtime"
  return body

/-- The body of the `try` statement. -/
def readPrompt (document : Except Exc Json) : Except Exc PromptOutcome := do
  let body ← checkedBody s document
  match harnessPrompt s body with
  | none => plainPrompt s body
  | some branch => do
      match ← branch with
      | .inl response => return .response response
      | .inr prompt => fingerprintHarness s prompt

/-- `str(exc)` of what the clause catches; a missing key is quoted. -/
def caughtDetail : Exc → Option String
  | .key missing => some (quoted missing)
  | .type message => some message
  | .value message => some message
  | .quarantined instanceId => some instanceId
  | _ => none

/-- The invalid-request response. -/
def invalidRequest (detail : String) : ChatResponse :=
  { status := 422, error := "invalid_request", detail := some detail }

/-- The `try` statement: what is not caught leaves the handler. -/
def chatPrompt (document : Except Exc Json) : Except Exc PromptOutcome :=
  match readPrompt s document with
  | .ok outcome => .ok outcome
  | .error e =>
    match caughtDetail e with
    | some detail => .ok (.response (invalidRequest detail))
    | none => .error e

end PrismServe.Performance
