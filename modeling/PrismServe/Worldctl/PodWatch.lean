import PrismServe.Router.HttpClient
import PrismServe.Worldctl.Termination

/-!
# Watching a pod until its worker is gone

An event of the pod watch is flattened to twenty texts that are joined by tabs, and
split again where it is read.  `consumeTerminationObservation` reads the events of
one pod: the first termination of the captured container is frozen, every later
one has to agree with it, and the deletion of the pod completes the proof.

A round of the loop is what it meets there: the state of the node, and an item of
the queue or none.  The loop times out when the rounds are used up.  The sink that
journals a raw event answers with a number and a digest, or raises.
-/

namespace PrismServe.Worldctl.Watch

open Lib

/-- How texts become documents and numbers, and how values become texts. -/
structure WatchSettings where
  loads : String → Option Json
  /-- `str(value)` of a float, a list or a dictionary. -/
  toText : Json → String
  parseInt : String → Option Int
  digest : Json.Digest

/-- `_canonical_sha256` -/
def canonicalSha256 (d : Json.Digest) (value : Json) : String :=
  "sha256:" ++ d.sha256 (Json.dumps d.unicode value)

/-! ## Events as texts -/

structure WatchFields where
  eventType : String
  podUid : String
  nodeName : String
  currentContainerId : String
  restartCount : String
  currentTerminatedContainerId : String
  currentExit : String
  currentReason : String
  currentSignal : String
  currentMessage : String
  currentStartedAt : String
  currentFinishedAt : String
  lastTerminatedContainerId : String
  lastExit : String
  lastReason : String
  lastSignal : String
  lastMessage : String
  lastStartedAt : String
  lastFinishedAt : String
  resourceVersion : String
  deriving DecidableEq, Repr

/-- The order in which the fields are joined. -/
def WatchFields.toList (f : WatchFields) : List String :=
  [f.eventType, f.podUid, f.nodeName, f.currentContainerId, f.restartCount,
    f.currentTerminatedContainerId, f.currentExit, f.currentReason, f.currentSignal,
    f.currentMessage, f.currentStartedAt, f.currentFinishedAt, f.lastTerminatedContainerId,
    f.lastExit, f.lastReason, f.lastSignal, f.lastMessage, f.lastStartedAt, f.lastFinishedAt,
    f.resourceVersion]

/-- `"\t".join(fields)` -/
def joinTabs (fields : List String) : String :=
  String.ofList (['\t'].intercalate (fields.map String.toList))

/-- `value.split("\t")` -/
def splitTabs (value : String) : List String := (value.toList.splitOn '\t').map String.ofList

/-- The message of an event that cannot be read. -/
def malformed (member : String) : CtlError :=
  .runtimeError ("malformed Pod watch event for " ++ member)

variable (cfg : WatchSettings)

/-- `str(raw)` -/
def valueText : Json → String
  | .string s => s
  | .integer n => String.ofList (Json.integerText n)
  | .bool b => if b then "True" else "False"
  | v => cfg.toText v

/-- The local function `field`. -/
def fieldText (source : JsonObject) (name : String) : String :=
  match source.lookup name with
  | none => ""
  | some .null => ""
  | some v => valueText cfg v

/-- `source.get(name, {})`, which has to be an object. -/
def objectIn (member : String) (source : JsonObject) (name : String) : Except CtlError JsonObject :=
  match source.lookup name with
  | none => .ok []
  | some (.object fields) => .ok fields
  | some _ => .error (malformed member)

def isWorker : Json → Option JsonObject
  | .object item =>
    match item.lookup "name" with
    | some (.string "worker") => some item
    | _ => none
  | _ => none

/-- The status of the container `worker`, empty when there is none. -/
def workerStatus (member : String) (status : JsonObject) : Except CtlError JsonObject :=
  let workers : Except CtlError (List JsonObject) :=
    match status.lookup "containerStatuses" with
    | none => .ok []
    | some (.array items) => .ok (items.filterMap isWorker)
    | some _ => .error (malformed member)
  match workers with
  | .error e => .error e
  | .ok [] => .ok []
  | .ok [worker] => .ok worker
  | .ok _ => .error (.runtimeError ("ambiguous worker status for " ++ member))

/-- The fields of an event about a pod. -/
def extractFields (member eventType : String) (pod : JsonObject) : Except CtlError WatchFields := do
  let metadata ← objectIn member pod "metadata"
  let spec ← objectIn member pod "spec"
  let status ← objectIn member pod "status"
  let worker ← workerStatus member status
  let currentState ← objectIn member worker "state"
  let lastState ← objectIn member worker "lastState"
  let current ← objectIn member currentState "terminated"
  let previous ← objectIn member lastState "terminated"
  return {
    eventType := eventType
    podUid := fieldText cfg metadata "uid"
    nodeName := fieldText cfg spec "nodeName"
    currentContainerId := fieldText cfg worker "containerID"
    restartCount := fieldText cfg worker "restartCount"
    currentTerminatedContainerId := fieldText cfg current "containerID"
    currentExit := fieldText cfg current "exitCode"
    currentReason := fieldText cfg current "reason"
    currentSignal := fieldText cfg current "signal"
    currentMessage := fieldText cfg current "message"
    currentStartedAt := fieldText cfg current "startedAt"
    currentFinishedAt := fieldText cfg current "finishedAt"
    lastTerminatedContainerId := fieldText cfg previous "containerID"
    lastExit := fieldText cfg previous "exitCode"
    lastReason := fieldText cfg previous "reason"
    lastSignal := fieldText cfg previous "signal"
    lastMessage := fieldText cfg previous "message"
    lastStartedAt := fieldText cfg previous "startedAt"
    lastFinishedAt := fieldText cfg previous "finishedAt"
    resourceVersion := fieldText cfg metadata "resourceVersion" }

/-- What is read off an event: nothing of an error event. -/
def watchedFields (value member : String) : Except CtlError (Option WatchFields) :=
  match cfg.loads value with
  | some (.object event) =>
    match event.lookup "type", event.lookup "object" with
    | some (.string eventType), some (.object pod) =>
      if eventType = "ERROR" then .ok none
      else (extractFields cfg member eventType pod).map some
    | _, _ => .error (malformed member)
  | _ => .error (malformed member)

/-- `_normalize_raw_watch_event` -/
def normalizeRawWatchEvent (value member : String) : Except CtlError String := do
  match ← watchedFields cfg value member with
  | none => return joinTabs ("ERROR" :: List.replicate 19 "")
  | some fields => return joinTabs fields.toList

/-- `_parse_watch_event`, with the two shapes of old fixtures. -/
def parseWatchEvent (value member : String) : Except CtlError WatchFields :=
  match splitTabs value with
  | [eventType, podUid, nodeName, containerId, rawExit, resource] =>
    .ok {
      eventType := eventType
      podUid := podUid
      nodeName := nodeName
      currentContainerId := containerId
      restartCount := ""
      currentTerminatedContainerId := if rawExit = "" then "" else containerId
      currentExit := rawExit
      currentReason := ""
      currentSignal := ""
      currentMessage := ""
      currentStartedAt := ""
      currentFinishedAt := ""
      lastTerminatedContainerId := ""
      lastExit := ""
      lastReason := ""
      lastSignal := ""
      lastMessage := ""
      lastStartedAt := ""
      lastFinishedAt := ""
      resourceVersion := resource }
  | [eventType, podUid, nodeName, currentContainerId, currentTerminatedContainerId, currentExit,
      currentReason, currentMessage, currentFinishedAt, lastTerminatedContainerId, lastExit,
      lastReason, lastMessage, lastFinishedAt, resource] =>
      .ok {
        eventType := eventType
        podUid := podUid
        nodeName := nodeName
        currentContainerId := currentContainerId
        restartCount := ""
        currentTerminatedContainerId := currentTerminatedContainerId
        currentExit := currentExit
        currentReason := currentReason
        currentSignal := ""
        currentMessage := currentMessage
        currentStartedAt := ""
        currentFinishedAt := currentFinishedAt
        lastTerminatedContainerId := lastTerminatedContainerId
        lastExit := lastExit
        lastReason := lastReason
        lastSignal := ""
        lastMessage := lastMessage
        lastStartedAt := ""
        lastFinishedAt := lastFinishedAt
        resourceVersion := resource }
  | [eventType, podUid, nodeName, currentContainerId, restartCount, currentTerminatedContainerId,
      currentExit, currentReason, currentSignal, currentMessage, currentStartedAt,
      currentFinishedAt, lastTerminatedContainerId, lastExit, lastReason, lastSignal, lastMessage,
      lastStartedAt, lastFinishedAt, resource] =>
      .ok ⟨eventType, podUid, nodeName, currentContainerId, restartCount,
        currentTerminatedContainerId, currentExit, currentReason, currentSignal, currentMessage,
        currentStartedAt, currentFinishedAt, lastTerminatedContainerId, lastExit, lastReason,
        lastSignal, lastMessage, lastStartedAt, lastFinishedAt, resource⟩
  | _ => .error (malformed member)

/-! ## Terminations in events -/

/-- Where a container is reported as terminated. -/
structure ReportedState where
  source : String
  rawExit : String
  reason : String
  rawSignal : String
  message : String
  startedAt : String
  finishedAt : String
  deriving DecidableEq, Repr

def WatchFields.currentReport (f : WatchFields) : ReportedState :=
  ⟨"state.terminated", f.currentExit, f.currentReason, f.currentSignal, f.currentMessage,
    f.currentStartedAt, f.currentFinishedAt⟩

def WatchFields.lastReport (f : WatchFields) : ReportedState :=
  ⟨"lastState.terminated", f.lastExit, f.lastReason, f.lastSignal, f.lastMessage,
    f.lastStartedAt, f.lastFinishedAt⟩

/-- `int(raw)`, which raises the given message for anything else. -/
def readInt (raw message : String) : Except CtlError Int :=
  match cfg.parseInt raw with
  | some n => .ok n
  | none => .error (.runtimeError message)

/-- The signal of a reported state, if it has one. -/
def readSignal (raw message : String) : Except CtlError (Option Int) :=
  if raw = "" then .ok none else (readInt cfg raw message).map some

/-- The restart count of an event; when it has none, the one that the state would need. -/
def observedRestarts (f : WatchFields) (expected : ProcessIdentity)
    (last : Bool) : Except CtlError Int :=
  if f.restartCount = "" then .ok (expected.restartCount + if last then 1 else 0)
  else do
    let n ← readInt cfg f.restartCount ("invalid restartCount for " ++ expected.member)
    if n < 0 then throw (.runtimeError ("invalid restartCount for " ++ expected.member))
    else return n

/-- The container that runs next to the terminated one, after the checks of its state. -/
def adjacentContainer (f : WatchFields) (expected : ProcessIdentity) (last : Bool)
    (restarts : Int) : Except CtlError (Option String) :=
  if last then
    if restarts ≠ expected.restartCount + 1 then
      .error (.runtimeError "lastState.terminated restartCount did not increase exactly once")
    else if f.currentContainerId = "" ∨ f.currentContainerId = expected.containerId then
      .error (.runtimeError "lastState.terminated lacks a distinct adjacent current container")
    else .ok (some f.currentContainerId)
  else if f.currentContainerId ≠ expected.containerId then
    .error (.runtimeError "state.terminated does not bind the captured container")
  else if restarts ≠ expected.restartCount then
    .error (.runtimeError "state.terminated restartCount does not match capture")
  else .ok none

/-- The proof that a reported state makes. -/
def terminationCandidate (f : WatchFields) (expected : ProcessIdentity)
    (last : Bool) : Except CtlError TerminationProof := do
  let report := if last then f.lastReport else f.currentReport
  let exitCode ← readInt cfg report.rawExit
    ("invalid termination exit code for " ++ expected.member)
  let signal ← readSignal cfg report.rawSignal
    ("invalid termination signal for " ++ expected.member)
  let restarts ← observedRestarts cfg f expected last
  let adjacent ← adjacentContainer f expected last restarts
  return {
    member := expected.member
    podUid := expected.podUid
    nodeUid := expected.nodeUid
    containerId := expected.containerId
    processGeneration := expected.processGeneration
    exitCode := exitCode
    containerTerminated := true
    podDeleted := false
    terminationReason := report.reason
    terminationMessage := report.message
    finishedAt := report.finishedAt
    topologyGeneration := expected.topologyGeneration
    containerName := expected.containerName
    watchStartResourceVersion := expected.resourceVersion
    observedResourceVersion := f.resourceVersion
    restartCountBefore := expected.restartCount
    restartCountObserved := restarts
    terminationSource := report.source
    terminationEventType := f.eventType
    signal := signal
    startedAt := report.startedAt
    adjacentCurrentContainerId := adjacent }

/-- `_event_termination` -/
def eventTermination (f : WatchFields) (expected : ProcessIdentity) :
    Except CtlError (Option TerminationProof) :=
  let currentMatches :=
    decide (f.currentTerminatedContainerId = expected.containerId) && decide (f.currentExit ≠ "")
  let lastMatches :=
    decide (f.lastTerminatedContainerId = expected.containerId) && decide (f.lastExit ≠ "")
  match currentMatches, lastMatches with
  | true, true => .error (.runtimeError ("ambiguous termination state for " ++ expected.member))
  | false, false => .ok none
  | true, false => (terminationCandidate cfg f expected false).map some
  | false, true => (terminationCandidate cfg f expected true).map some

/-- The candidate with where and when it was seen taken from the frozen one. -/
def comparable (candidate frozen : TerminationProof) : TerminationProof :=
  { candidate with
    observedResourceVersion := frozen.observedResourceVersion
    restartCountObserved := frozen.restartCountObserved
    terminationSource := frozen.terminationSource
    terminationEventType := frozen.terminationEventType
    adjacentCurrentContainerId := frozen.adjacentCurrentContainerId
    terminationRawPodJsonSha256 := frozen.terminationRawPodJsonSha256
    terminationRawObservationSequence := frozen.terminationRawObservationSequence }

/-- The candidate is in the same place as the frozen termination. -/
def sameProjection (candidate frozen : TerminationProof) : Bool :=
  decide (candidate.terminationSource = frozen.terminationSource) &&
    decide (candidate.restartCountObserved = frozen.restartCountObserved) &&
    decide (candidate.adjacentCurrentContainerId = frozen.adjacentCurrentContainerId)

/-- The terminated container has moved from the current state to the last one. -/
def advancedToLastState (candidate frozen : TerminationProof) : Bool :=
  decide (frozen.terminationSource = "state.terminated") &&
    decide (frozen.restartCountObserved = frozen.restartCountBefore) &&
    frozen.adjacentCurrentContainerId.isNone &&
    decide (candidate.terminationSource = "lastState.terminated") &&
    decide (candidate.restartCountObserved = frozen.restartCountBefore + 1) &&
    candidate.adjacentCurrentContainerId.any fun c => decide (c ≠ frozen.containerId)

/-- `_matches_frozen_termination` -/
def matchesFrozenTermination (candidate frozen : TerminationProof) : Bool :=
  (sameProjection candidate frozen || advancedToLastState candidate frozen) &&
    decide (comparable candidate frozen = frozen)

/-! ## The loop -/

structure KubernetesWatchEvent where
  rawText : String
  rawSha256 : String

structure DecodedWatchEvent where
  normalized : String
  rawObject : JsonObject
  rawText : String
  rawSha256 : String
  resourceVersion : String
  rawObservationSequence : Option Int

/-- The raw event that an observation or an error carries. -/
structure RawFields where
  rawWatchEvent : Option Json := none
  rawWatchEventText : String := ""
  rawWatchEventSha256 : String := ""
  resourceVersion : String := ""
  rawObservationSequence : Option Int := none

structure Observation where
  proof : TerminationProof
  raw : RawFields

structure ObservationError where
  message : String
  raw : RawFields
  partialObservation : Option Observation := none

inductive WatchError
  | runtimeError (message : String)
  | observationError (e : ObservationError)
  /-- What the sink raised. -/
  | sinkError (e : CtlError)

/-- An item of the queue that is an event; a raw one comes with the answer of the sink. -/
inductive WatchItem
  | raw (event : KubernetesWatchEvent) (reply : Except CtlError (Int × String))
  | line (normalized : String)

/-- What the loop gets from the queue. -/
inductive Polled
  /-- Nothing; when the process has ended, what it wrote to its error output. -/
  | empty (ended : Option String)
  /-- An exception of the reader; one of the observation errors comes with its data. -/
  | failed (e : Option ObservationError)
  | item (i : WatchItem)

structure Round where
  /-- What `_assert_node_available` raises. -/
  nodeError : Option String
  polled : Polled

/-- An event as the loop sees it. -/
structure SeenEvent where
  fields : WatchFields
  raw : Option DecodedWatchEvent

structure WatchState where
  observed : Option TerminationProof
  observedEvent : Option DecodedWatchEvent := none
  lastRawEvent : Option DecodedWatchEvent := none

def rawFields : Option DecodedWatchEvent → RawFields
  | none => {}
  | some e => ⟨some (.object e.rawObject), e.rawText, e.rawSha256, e.resourceVersion,
      e.rawObservationSequence⟩

/-- `_termination_observation` -/
def terminationObservation (proof : TerminationProof) (event : Option DecodedWatchEvent) :
    Observation := ⟨proof, rawFields event⟩

namespace WatchState

def partialObservation (st : WatchState) : Option Observation :=
  st.observed.map fun proof => terminationObservation proof st.observedEvent

/-- `_observation_error` with what was observed so far. -/
def fail (st : WatchState) (message : String) (event : Option DecodedWatchEvent) : WatchError :=
  .observationError ⟨message, rawFields event, st.partialObservation⟩

end WatchState

section Loop

variable (sink : Bool) (expected : ProcessIdentity)

/-- `str(metadata.get("resourceVersion") or "")` of the pod of an event. -/
def podResourceVersion (event : JsonObject) : String :=
  match event.lookup "object" with
  | some (.object pod) =>
    match pod.lookup "metadata" with
    | some (.object metadata) =>
      match metadata.lookup "resourceVersion" with
      | some v => if v.falsy then "" else valueText cfg v
      | none => ""
    | _ => ""
  | _ => ""

/-- `_decode_observed_watch_event` -/
def decodeObservedWatchEvent (event : KubernetesWatchEvent) (sequence : Option Int) :
    Except ObservationError DecodedWatchEvent :=
  let refuse (raw : Option Json) (resourceVersion message : String) : ObservationError :=
    ⟨message, ⟨raw, event.rawText, event.rawSha256, resourceVersion, sequence⟩, none⟩
  match cfg.loads event.rawText with
  | none => .error (refuse none "" ("malformed Pod watch event for " ++ expected.member))
  | some (.object decoded) =>
    let resourceVersion := podResourceVersion cfg decoded
    match normalizeRawWatchEvent cfg event.rawText expected.member with
    | .ok normalized =>
      .ok ⟨normalized, decoded, event.rawText, event.rawSha256, resourceVersion, sequence⟩
    | .error (.runtimeError message) =>
      .error (refuse (some (.object decoded)) resourceVersion message)
    | .error _ => .error (refuse (some (.object decoded)) resourceVersion "")
  | some v => .error (refuse (some v) "" ("malformed Pod watch event for " ++ expected.member))

/-- Journal a raw event, if there is a sink. -/
def journalRaw (event : KubernetesWatchEvent) (reply : Except CtlError (Int × String)) :
    Except WatchError (Option Int) :=
  if sink then
    match reply with
    | .error e => .error (.sinkError e)
    | .ok (sequence, digest) =>
      if digest ≠ event.rawSha256 then
        .error (.runtimeError "raw observation sink digest mismatch")
      else .ok (some sequence)
  else .ok none

/-- Journal and decode a raw event. -/
def readRaw (st : WatchState) (event : KubernetesWatchEvent)
    (reply : Except CtlError (Int × String)) : Except WatchError DecodedWatchEvent := do
  let sequence ← journalRaw sink event reply
  match decodeObservedWatchEvent cfg expected event sequence with
  | .ok raw => return raw
  | .error e => throw (.observationError { e with partialObservation := st.partialObservation })

/-- The text of an exception. -/
def errorText : CtlError → String
  | .valueError message => message
  | .runtimeError message => message
  | .keyError missing => quoted missing
  | .timeoutError message => message
  | .backendError message => message

/-- Raise what a computation raises, as an observation error. -/
def orFail {α : Type} (st : WatchState) (event : Option DecodedWatchEvent)
    (x : Except CtlError α) : Except WatchError α :=
  match x with
  | .ok a => .ok a
  | .error e => .error (st.fail (errorText e) event)

/-- Parse an item of the queue. -/
def readItem (st : WatchState) : WatchItem → Except WatchError SeenEvent
  | .raw event reply => do
      let raw ← readRaw cfg sink expected st event reply
      let fields ← orFail st (some raw) (parseWatchEvent raw.normalized expected.member)
      return ⟨fields, some raw⟩
  | .line normalized => do
      let fields ← orFail st none (parseWatchEvent normalized expected.member)
      return ⟨fields, none⟩

/-- The event is about the captured pod. -/
def checkSeen (st : WatchState) (e : SeenEvent) : Except WatchError Unit :=
  if e.fields.eventType = "ERROR" then
    .error (st.fail ("Kubernetes watch error for " ++ expected.member) e.raw)
  else if e.raw.isSome ∧ e.fields.resourceVersion = "" then
    .error (st.fail ("Kubernetes watch event lacks resourceVersion for " ++ expected.member) e.raw)
  else if e.fields.podUid ≠ expected.podUid then
    .error (st.fail ("Pod uid drifted for " ++ expected.member) e.raw)
  else if e.fields.nodeName ≠ expected.nodeName then
    .error (st.fail ("node assignment drifted for " ++ expected.member) e.raw)
  else .ok ()

/-- The pod of a raw event. -/
def podOf (raw : DecodedWatchEvent) : Option JsonObject :=
  match raw.rawObject.lookup "object" with
  | some (.object pod) => some pod
  | _ => none

/-- A candidate with the digest and the number of the raw event that it was seen in. -/
def journaledCandidate (st : WatchState) (e : SeenEvent) (candidate : TerminationProof) :
    Except WatchError TerminationProof :=
  match e.raw with
  | none => .ok candidate
  | some raw =>
    match podOf raw with
    | none => .error (st.fail "termination raw event lacks Pod object" e.raw)
    | some pod =>
      match raw.rawObservationSequence with
      | none => .error (st.fail "termination raw event was not durably journaled" e.raw)
      | some n =>
        .ok { candidate with
          terminationRawPodJsonSha256 := canonicalSha256 cfg.digest (.object pod)
          terminationRawObservationSequence := some n }

/-- What a termination candidate does to the state. -/
def freeze (st : WatchState) (e : SeenEvent) (candidate : TerminationProof) :
    Except WatchError WatchState :=
  match decide (e.fields.eventType = "DELETED"), st.observed with
  | true, some frozen =>
    if matchesFrozenTermination candidate frozen then .ok st
    else .error (st.fail ("termination proof changed for " ++ expected.member ++ " at deletion")
      e.raw)
  | _, _ =>
    if e.fields.eventType ≠ "MODIFIED" then
      .error (st.fail ("termination for " ++ expected.member ++
        " was not frozen in a MODIFIED transition before deletion") e.raw)
    else do
      let journaled ← journaledCandidate cfg st e candidate
      match st.observed with
      | some frozen =>
        if matchesFrozenTermination journaled frozen then return st
        else throw (st.fail ("termination proof changed for " ++ expected.member) e.raw)
      | none => return { st with observed := some journaled, observedEvent := e.raw }

/-- The deletion fields of the proof. -/
def withDeletion (frozen : TerminationProof) (resourceVersion sha256 : String) (sequence : Int) :
    TerminationProof :=
  { frozen with
    podDeleted := true
    deletionResourceVersion := resourceVersion
    deletionEventType := "DELETED"
    deletionRawPodJsonSha256 := sha256
    deletionRawObservationSequence := some sequence }

/-- A raw event that was journaled and has a pod. -/
def journaledPod (raw : Option DecodedWatchEvent) : Option (JsonObject × Int) :=
  raw.bind fun r => (podOf r).bind fun pod => r.rawObservationSequence.map fun n => (pod, n)

/-- The pod was deleted. -/
def finish (st : WatchState) (e : SeenEvent) : Except WatchError Observation :=
  match st.observed with
  | none =>
    .error (st.fail ("old Pod " ++ expected.member ++
      " was deleted without exact container state.terminated") e.raw)
  | some frozen =>
    match journaledPod e.raw with
    | none =>
      .error (st.fail ("old Pod " ++ expected.member ++
        " deletion raw transition was not durably journaled") e.raw)
    | some (pod, n) =>
      if frozen.terminationEventType ≠ "MODIFIED" ∨
          frozen.terminationRawObservationSequence = none then
        .error (st.fail ("old Pod " ++ expected.member ++
          " deletion is not linked to a frozen MODIFIED termination") e.raw)
      else
        .ok (terminationObservation
          (withDeletion frozen e.fields.resourceVersion
            (canonicalSha256 cfg.digest (.object pod)) n) e.raw)

/-- The event may have a candidate. -/
def absorb (st : WatchState) (e : SeenEvent) : Except WatchError WatchState := do
  match ← orFail st e.raw (eventTermination cfg e.fields expected) with
  | none => return st
  | some candidate => freeze cfg expected st e candidate

/-- One event of the captured pod. -/
def consumeEvent (requireDeleted : Bool) (st : WatchState) (e : SeenEvent) :
    Except WatchError (Observation ⊕ WatchState) := do
  checkSeen expected st e
  let st ← absorb cfg expected st e
  if e.fields.currentContainerId ≠ "" ∧ e.fields.currentContainerId ≠ expected.containerId ∧
      st.observed = none then
    throw (st.fail ("worker container id drifted for " ++ expected.member) e.raw)
  else
    match st.observed, requireDeleted with
    | some frozen, false => return .inl (terminationObservation frozen st.observedEvent)
    | _, _ =>
      if e.fields.eventType = "DELETED" then do
        let observation ← finish cfg expected st e
        return .inl observation
      else return .inr st

/-- One round of the loop. -/
def watchRound (requireDeleted : Bool) (st : WatchState) (r : Round) :
    Except WatchError (Observation ⊕ WatchState) :=
  match r.nodeError with
  | some message => .error (st.fail message st.lastRawEvent)
  | none =>
    match r.polled with
    | .empty none => .ok (.inr st)
    | .empty (some stderr) =>
      .error (st.fail ("exact Pod watch ended before proof for " ++ expected.member ++ ": " ++
        stderr) st.lastRawEvent)
    | .failed (some e) =>
      .error (.observationError { e with
        partialObservation := e.partialObservation.or st.partialObservation })
    | .failed none =>
      .error (st.fail ("exact Pod watch failed for " ++ expected.member) st.lastRawEvent)
    | .item i => do
        let e ← readItem cfg sink expected st i
        consumeEvent cfg expected requireDeleted
          { st with lastRawEvent := e.raw.or st.lastRawEvent } e

def watchRounds (requireDeleted : Bool) : List Round → WatchState → Except WatchError Observation
  | [], st =>
    .error (st.fail ("timed out proving termination for " ++ expected.member) st.lastRawEvent)
  | r :: rest, st => do
      match ← watchRound cfg sink expected requireDeleted st r with
      | .inl observation => return observation
      | .inr st => watchRounds requireDeleted rest st

/-- `_consume_termination_observation`; `watched` is the identity the watch was started for. -/
def consumeTerminationObservation (watched : ProcessIdentity) (prior : Option TerminationProof)
    (requireDeleted : Bool) (rounds : List Round) : Except WatchError Observation :=
  if watched ≠ expected then .error (.runtimeError "termination watch identity changed")
  else watchRounds cfg sink expected requireDeleted rounds { observed := prior }

end Loop

end PrismServe.Worldctl.Watch
