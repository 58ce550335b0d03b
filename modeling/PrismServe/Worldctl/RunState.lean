import PrismServe.Worldctl.Termination

/-!
# The run state of a restart

The actuator keeps one file for a restart run: the phase and the checkpoint it has
reached, the old world as it was captured, the journal of everything that was
observed, the termination proofs, the startup permit and the evidence.  This
module has the documents and the checks that the actuator makes on them.
-/

namespace PrismServe.Worldctl

open Lib

/-- `sorted(set(values))` -/
def sortedSet (values : List String) : List String := values.dedup.insertionSort (· ≤ ·)

/-- Raise a `RuntimeError` unless the condition holds. -/
def insist (holds : Bool) (message : String) : Except CtlError Unit :=
  ensure holds (.runtimeError message)

/-- Equal dictionaries, in whatever order. -/
def sameEntries (a b : Dict String String) : Bool := a.entries.isPerm b.entries

/-! ## Startup permits -/

structure StartupPermit where
  schemaVersion : String
  issuanceMode : String
  permitId : String
  topologyGeneration : String
  members : Dict String String
  canonicalDigest : String

/-- What the digest of a permit is taken of. -/
structure UnsignedPermit where
  schemaVersion : String
  issuanceMode : String
  permitId : String
  topologyGeneration : String
  members : List (String × String)
  deriving DecidableEq, Repr

namespace StartupPermit

def unsigned (p : StartupPermit) : UnsignedPermit :=
  ⟨p.schemaVersion, p.issuanceMode, p.permitId, p.topologyGeneration,
    p.members.entries.insertionSort (fun a b => a.1 ≤ b.1)⟩

/-- Equal documents. -/
def same (p q : StartupPermit) : Bool :=
  p.schemaVersion = q.schemaVersion ∧ p.issuanceMode = q.issuanceMode ∧
    p.permitId = q.permitId ∧ p.topologyGeneration = q.topologyGeneration ∧
    sameEntries p.members q.members ∧ p.canonicalDigest = q.canonicalDigest

end StartupPermit

def startupPermitSchema : String := "prism.week12.worker-startup-permit/v1"

def validateStartupPermit (sha : UnsignedPermit → String)
    (expectedGeneration expectedMode : Option String) (p : StartupPermit) :
    Except CtlError Unit := do
  require (p.schemaVersion = startupPermitSchema) "startup permit schema_version mismatch"
  require (p.issuanceMode = "INIT" ∨ p.issuanceMode = "RESTART")
    "startup permit issuance_mode is invalid"
  require (p.permitId ≠ "") "startup permit permit_id must be a string"
  require (p.topologyGeneration ≠ "") "startup permit topology_generation must be a string"
  require (expectedGeneration.all fun g => p.topologyGeneration = g)
    "startup permit topology_generation mismatch"
  require (expectedMode.all fun m => p.issuanceMode = m) "startup permit issuance_mode mismatch"
  require ((∀ m ∈ p.members.keys, m ∈ members) ∧ ∀ m ∈ members, m ∈ p.members.keys)
    "startup permit requires exact four members"
  require (∀ uid ∈ p.members.values, uid ≠ "")
    "startup permit Pod UIDs must be non-empty strings"
  require (p.members.values.dedup.length = 4) "startup permit Pod UIDs must be unique"
  require (p.canonicalDigest = sha p.unsigned) "startup permit canonical_digest mismatch"

def buildStartupPermit (sha : UnsignedPermit → String) (topologyGeneration : String)
    (uids : Dict String String) (issuanceMode permitId : String) :
    Except CtlError StartupPermit := do
  let blank : StartupPermit :=
    ⟨startupPermitSchema, issuanceMode, permitId, topologyGeneration, uids, ""⟩
  let permit := { blank with canonicalDigest := sha blank.unsigned }
  validateStartupPermit sha (some topologyGeneration) (some issuanceMode) permit
  return permit

/-! ## Evidence of the fresh world -/

/-- A process of the fresh world; a field that is not a string is missing. -/
structure FreshIdentity where
  instanceId : Option String
  podUid : Option String
  processGeneration : Option String
  topologyGeneration : Option String
  deriving DecidableEq, Repr

structure Evidence where
  terminationRecords : Option (List TerminationRecord)
  newTopologyGeneration : Option String
  restartRunId : Option String
  identities : Option (List FreshIdentity)
  deriving DecidableEq, Repr

/-- The loop of `_validate_permitted_identities`. -/
def observeIdentities (generation : String) :
    List FreshIdentity → Dict String String → Except CtlError (Dict String String)
  | [], observed => .ok observed
  | i :: rest, observed =>
    match i.instanceId, i.podUid, i.processGeneration with
    | some member, some podUid, some processGeneration =>
      if member ∉ members ∨ observed.contains member ∨ podUid = "" ∨ processGeneration = "" ∨
          i.topologyGeneration ≠ some generation then
        .error (.runtimeError "fresh evidence identity does not match startup permit")
      else observeIdentities generation rest (observed.set member podUid)
    | _, _, _ => .error (.runtimeError "fresh evidence identity does not match startup permit")

def validatePermittedIdentities (sha : UnsignedPermit → String) (e : Evidence)
    (p : StartupPermit) : Except CtlError Unit := do
  validateStartupPermit sha none none p
  match e.identities with
  | none =>
    .error (.runtimeError "fresh evidence does not contain four startup permit identities")
  | some identities => do
      insist (identities.length = 4)
        "fresh evidence does not contain four startup permit identities"
      let observed ← observeIdentities p.topologyGeneration identities .empty
      insist (sameEntries observed p.members)
        "fresh evidence Pod UIDs do not match startup permit"

/-! ## The pods of the fresh world -/

/-- A pod of a list; one without the label of a member is not ours. -/
structure Pod where
  member : Option String
  deleting : Bool
  topologyGeneration : Option String
  uid : Option String
  deriving DecidableEq, Repr

/-- One look at the pods; it may fail, and then it is repeated. -/
inductive PodPoll
  | failed
  | items (pods : List Pod)

def observePods (generation : String) :
    List Pod → Dict String String → Except CtlError (Dict String String)
  | [], observed => .ok observed
  | pod :: rest, observed =>
    match pod.member with
    | none => observePods generation rest observed
    | some member =>
      if member ∉ members then
        .error (.runtimeError "unexpected fixed-topology worker member")
      else if pod.deleting then observePods generation rest observed
      else if pod.topologyGeneration ≠ some generation then
        .error (.runtimeError ("fresh Pod generation mismatch for " ++ member))
      else
        match pod.uid with
        | none => .error (.runtimeError ("fresh Pod UID unavailable for " ++ member))
        | some uid =>
          if uid = "" then
            .error (.runtimeError ("fresh Pod UID unavailable for " ++ member))
          else if observed.contains member then
            .error (.runtimeError ("multiple live fresh Pods observed for " ++ member))
          else observePods generation rest (observed.set member uid)

/-- `{member: observed[member] for member in MEMBERS}` -/
def inMemberOrder (observed : Dict String String) : Dict String String :=
  members.foldl (fun d m => d.set m ((observed.get? m).getD "")) .empty

/-- `_wait_worker_pod_uids`, for the polls that are made before the deadline. -/
def waitWorkerPodUids (generation : String) (forbidden : List String) :
    List PodPoll → Except CtlError (Dict String String)
  | [] => .error (.timeoutError "timed out waiting for exact four fresh worker Pods")
  | .failed :: rest => waitWorkerPodUids generation forbidden rest
  | .items pods :: rest =>
    match observePods generation pods .empty with
    | .error e => .error e
    | .ok observed =>
      if (∀ m ∈ observed.keys, m ∈ members) ∧ ∀ m ∈ members, m ∈ observed.keys then
        if observed.values.dedup.length ≠ 4 then
          .error (.runtimeError "fresh Pod UIDs must be unique")
        else if ∃ uid ∈ observed.values, uid ∈ forbidden then
          .error (.runtimeError "fresh Pod UID reuses an old-world Pod")
        else .ok (inMemberOrder observed)
      else waitWorkerPodUids generation forbidden rest

/-! ## The journal -/

inductive Stage
  | wholeWorldTermination
  | workerCrashInjection
  | workerCrashInjectionAmbiguous
  | ncclWatchdog
  deriving DecidableEq, Repr

/-- A raw watch event as it is handed to the sink. -/
structure RawWatchEvent where
  rawSha256 : String
  /-- The digest is the one of the text. -/
  digestMatches : Bool
  rawPodJsonSha256 : Option String
  resourceVersion : Option String
  eventType : Option String
  deriving DecidableEq, Repr

/-- The raw event that comes with an observation, as far as it is checked. -/
inductive RawEvidence
  | absent
  /-- It contradicts itself: the message of the check that fails. -/
  | inconsistent (message : String)
  | event (sha256 : String)
  deriving DecidableEq, Repr

/-- `observed.raw_watch_event_sha256` -/
def RawEvidence.sha256 : RawEvidence → String
  | .event s => s
  | _ => ""

structure TerminationObservation where
  proof : TerminationProof
  raw : RawEvidence := .absent
  rawObservationSequence : Option Int := none
  deriving DecidableEq, Repr

/-- Entries of the journal; the sequence number of an entry is its position. -/
inductive JournalEntry
  | rawWatchEvent (stage : Stage) (event : RawWatchEvent)
  | terminationObserved (stage : Stage) (proof : TerminationProof) (proofSha256 : String)
      (status : Option String)
  | observationIncomplete (stage : Stage) (error : CtlError)
  | semanticValidation (stage : Stage) (proofSha256 : String) (pass : Bool)
  | faultInjectionAttempt (identity : ProcessIdentity)
  | faultInjectionIncomplete (attempt : Nat) (error : CtlError)
  | faultInjectionResult (attempt : Nat)
  deriving DecidableEq, Repr

abbrev Journal := List JournalEntry

/-- `journal[sequence - 1]`, when the sequence is one of the journal. -/
def entryAt (journal : Journal) (sequence : Int) : Option JournalEntry :=
  if 1 ≤ sequence ∧ sequence ≤ journal.length then journal[(sequence - 1).toNat]? else none

/-- The entry is a raw event with the digest. -/
def checkJournalReference (journal : Journal) (sequence : Int) (sha256 : String) :
    Except CtlError Unit :=
  match entryAt journal sequence with
  | none => .error (.runtimeError "raw observation journal sequence is invalid")
  | some (.rawWatchEvent _ event) =>
    insist (event.rawSha256 = sha256) "raw observation journal reference mismatch"
  | some _ => .error (.runtimeError "raw observation journal reference mismatch")

/-- The raw event of an observation is consistent, and is the one of the journal it refers to. -/
def TerminationObservation.check (o : TerminationObservation) (journal : Journal) :
    Except CtlError Unit :=
  match o.raw, o.rawObservationSequence with
  | .inconsistent message, _ => .error (.runtimeError message)
  | _, none => .ok ()
  | _, some n => checkJournalReference journal n o.raw.sha256

/-- The verdicts of a stage. -/
def verdicts (journal : Journal) (stage : Stage) (pass : Bool) : List String :=
  journal.filterMap fun
    | .semanticValidation st sha p => if st = stage ∧ p = pass then some sha else none
    | _ => none

/-- The observed proofs of a stage that have passed, with the digest of their entries. -/
def passedProofs (journal : Journal) (stage : Stage) : List (TerminationProof × String) :=
  journal.filterMap fun
    | .terminationObserved st proof sha _ =>
      if st = stage ∧ sha ∈ verdicts journal stage true then some (proof, sha) else none
    | _ => none

/-- One proof of the loop of `_validated_journal_proofs`. -/
def collectProof (sha : TerminationProof → String) (proofs : Dict String TerminationProof)
    (entry : TerminationProof × String) : Except CtlError (Dict String TerminationProof) := do
  insist (entry.2 = sha entry.1) "durable termination proof digest mismatch"
  insist ((proofs.get? entry.1.member).all fun prior => prior = entry.1)
    "durable termination proof changed across resume"
  return proofs.set entry.1.member entry.1

def validatedJournalProofs (sha : TerminationProof → String) (journal : Journal) (stage : Stage) :
    Except CtlError (Dict String TerminationProof) := do
  insist (∀ s ∈ verdicts journal stage true, s ∉ verdicts journal stage false)
    "durable termination semantic verdict changed for one proof"
  (passedProofs journal stage).foldlM (collectProof sha) .empty

/-- The references of a proof to raw events of the journal. -/
def checkRawReference (journal : Journal) (sequence : Option Int) (podDigest version : String)
    (eventType : String) : Except CtlError Unit :=
  match sequence.bind (entryAt journal) with
  | none => .error (.runtimeError "termination raw observation journal reference is invalid")
  | some (.rawWatchEvent _ event) =>
    insist (event.rawPodJsonSha256 = some podDigest ∧ event.resourceVersion = some version ∧
        event.eventType = some eventType)
      "termination raw observation journal reference mismatch"
  | some _ => .error (.runtimeError "termination raw observation journal reference mismatch")

def validateDurableTerminationRecord (sha : TerminationPayload → String) (journal : Journal)
    (p : TerminationProof) : Except CtlError Unit := do
  let _ ← terminationAuthorityRecord sha p
  checkRawReference journal p.terminationRawObservationSequence p.terminationRawPodJsonSha256
    p.observedResourceVersion "MODIFIED"
  checkRawReference journal p.deletionRawObservationSequence p.deletionRawPodJsonSha256
    p.deletionResourceVersion "DELETED"

/-! ## Faults -/

/-- What the helper that kills a process says it has killed. -/
structure ProcessSelection where
  component : Option String
  instanceId : Option String
  podUid : Option String
  processGeneration : Option String
  instanceEpoch : Option String
  appPid : Option Int
  processStartTicks : Option Int
  pidfd : Bool
  signal : Option Int
  deriving DecidableEq, Repr

structure InjectionResult where
  execReturnCode : Option Int
  /-- The selection, wherever it was found in the result. -/
  selection : Option ProcessSelection
  deriving DecidableEq, Repr

def ProcessIdentity.epoch (i : ProcessIdentity) : String := i.podUid ++ ":" ++ i.processGeneration

def validateFaultInjectionResult (result : Option InjectionResult) (expected : ProcessIdentity) :
    Except CtlError Unit :=
  match result with
  | none => .error (.runtimeError "worker crash injection lacks exact process selection evidence")
  | some r => do
      insist (r.execReturnCode = some 0 ∨ r.execReturnCode = some 137)
        ("worker crash injection helper exited " ++ (r.execReturnCode.map toString).getD "None")
      match r.selection with
      | none =>
        .error (.runtimeError
          "worker crash injection did not return process selection evidence")
      | some s =>
        insist (s.component = some "worker" ∧ s.instanceId = some expected.member ∧
            s.podUid = some expected.podUid ∧
            s.processGeneration = some expected.processGeneration ∧
            s.instanceEpoch = some expected.epoch ∧ (s.appPid.any fun n => 1 < n) ∧
            (s.processStartTicks.any fun n => 0 < n) ∧ s.pidfd ∧ s.signal = some 9)
          "worker crash process selection does not bind captured identity"

def validateObservedProcessIdentity (p : TerminationProof) (expected : ProcessIdentity) :
    Except CtlError Unit :=
  insist (p.member = expected.member ∧ p.physical = expected.physical ∧ p.containerTerminated)
    "termination observation does not bind the captured old process"

def validateWorkerCrashTermination (p : TerminationProof) (expected : ProcessIdentity) :
    Except CtlError Unit := do
  validateObservedProcessIdentity p expected
  insist (p.exitCode = 137) "worker_crash proof requires the injected container to exit 137"

/-- The endpoint reference in the message of the watchdog. -/
structure WatchdogRef where
  targetInstance : Option String
  targetWorkerEpoch : Option String
  topologyGeneration : Option String
  ownerGeneration : String
  operationSeq : Option Int
  payloadDigest : String
  operationId : Option String
  deriving DecidableEq, Repr

structure WatchdogMessage where
  schemaVersion : Option Int
  kind : Option String
  instanceId : Option String
  podUid : Option String
  processGeneration : Option String
  instanceEpoch : Option String
  topologyGeneration : Option String
  expectedExitCode : Option Int
  endpointRef : Option WatchdogRef
  operationId : Option String
  /-- `str(message.get("pair_id") or "").split("--")` -/
  pairMembers : List String
  reason : String
  deriving DecidableEq, Repr

inductive MessageText
  | notJson
  | notObject
  | message (m : WatchdogMessage)
  deriving DecidableEq, Repr

def WatchdogRef.Binds (r : WatchdogRef) (expected : ProcessIdentity) (generation : String)
    (operationId : Option String) : Bool :=
  r.targetInstance = some expected.member ∧ r.targetWorkerEpoch = some expected.epoch ∧
    r.topologyGeneration = some generation ∧ r.ownerGeneration ≠ "" ∧
    (r.operationSeq.any fun n => 0 < n) ∧ r.payloadDigest ≠ "" ∧ r.operationId = operationId

def WatchdogMessage.Binds (m : WatchdogMessage) (expected : ProcessIdentity) (generation : String)
    (operationIds : List String) : Bool :=
  m.schemaVersion = some 1 ∧ m.kind = some "nccl_watchdog_timeout" ∧
    m.instanceId = some expected.member ∧ m.podUid = some expected.podUid ∧
    m.processGeneration = some expected.processGeneration ∧
    m.instanceEpoch = some expected.epoch ∧ m.topologyGeneration = some generation ∧
    m.expectedExitCode = some 70 ∧
    (m.endpointRef.any fun r => r.Binds expected generation m.operationId) ∧
    (m.operationId.any fun i => i ∈ operationIds) ∧ m.pairMembers.length = 2 ∧
    expected.member ∈ m.pairMembers ∧ (∀ x ∈ m.pairMembers, x ∈ members) ∧ m.reason ≠ ""

def validateWatchdogTermination (parse : String → MessageText) (p : TerminationProof)
    (expected : ProcessIdentity) (generation : String) (operationIds : List String) :
    Except CtlError Unit := do
  validateObservedProcessIdentity p expected
  insist (p.exitCode = 70) "NCCL watchdog process must exit 70"
  match parse p.terminationMessage with
  | .notJson => .error (.runtimeError "NCCL watchdog termination message is not JSON")
  | .notObject => .error (.runtimeError "NCCL watchdog termination message must be an object")
  | .message m =>
    insist (m.Binds expected generation operationIds)
      "NCCL watchdog termination message identity mismatch"

/-! ## The run state -/

inductive Phase
  | created
  | stopping
  | evidenceReady
  | accepted
  deriving DecidableEq, Repr

inductive Checkpoint
  | created
  | captured
  | terminated
  | generationPatched
  | started
  | permitReady
  | permitPublished
  | evidenceReady
  | accepted
  deriving DecidableEq, Repr

/-- The position in `RESTART_CHECKPOINTS`. -/
def Checkpoint.rank : Checkpoint → Nat
  | .created => 0
  | .captured => 1
  | .terminated => 2
  | .generationPatched => 3
  | .started => 4
  | .permitReady => 5
  | .permitPublished => 6
  | .evidenceReady => 7
  | .accepted => 8

/-- The checkpoints that a phase allows. -/
def Phase.allows : Phase → Checkpoint → Bool
  | .created, c => c = .created
  | .stopping, c => 1 ≤ c.rank ∧ c.rank ≤ 6
  | .evidenceReady, c => c = .evidenceReady
  | .accepted, c => c = .accepted

structure RestartArguments where
  release : String
  kubeNamespace : String
  chart : String
  oldGeneration : String
  newGeneration : String
  faultMember : Option String
  watchdogMember : Option String
  expectedOperationIds : List String
  requiredOldOperationIds : List String
  deriving DecidableEq, Repr

/-- The command that a run state belongs to. -/
structure RunIdentity where
  release : String
  kubeNamespace : String
  chart : String
  oldGeneration : String
  newGeneration : String
  faultMember : String
  watchdogMember : String
  expectedOperationIds : List String
  requiredOldOperationIds : List String
  deriving DecidableEq, Repr

def RestartArguments.identity (a : RestartArguments) : RunIdentity :=
  ⟨a.release, a.kubeNamespace, a.chart, a.oldGeneration, a.newGeneration,
    a.faultMember.getD "", a.watchdogMember.getD "", sortedSet a.expectedOperationIds,
    sortedSet a.requiredOldOperationIds⟩

/-- An event of the protocol, by its name. -/
structure ProtocolEvent where
  name : String
  sequence : Nat
  producerEpoch : String
  deriving DecidableEq, Repr

structure Fault where
  kind : String
  member : String
  deriving DecidableEq, Repr

structure AcceptedResponse where
  accepted : Bool
  deriving DecidableEq, Repr

structure RunState where
  identity : RunIdentity
  restartRunId : String
  phase : Phase
  checkpoint : Checkpoint
  evidence : Option Evidence
  startupPermit : Option StartupPermit
  acceptedResponse : Option AcceptedResponse
  protocolEvents : List ProtocolEvent
  observationJournal : Journal
  terminationProofs : Dict String TerminationProof
  capturedIdentities : Option (List ProcessIdentity)
  capturedOperationIds : Option (List String)
  capturedResourceIds : Option (List String)
  fault : Option Fault
  freshPodUids : Option (Dict String String)

namespace RunState

/-- A run that was just created. -/
def new (identity : RunIdentity) (restartRunId : String) : RunState where
  identity := identity
  restartRunId := restartRunId
  phase := .created
  checkpoint := .created
  evidence := none
  startupPermit := none
  acceptedResponse := none
  protocolEvents := []
  observationJournal := []
  terminationProofs := .empty
  capturedIdentities := none
  capturedOperationIds := none
  capturedResourceIds := none
  fault := none
  freshPodUids := none

/-- The checks that are made on a run state that exists. -/
def check (identity : RunIdentity) (r : RunState) : Except CtlError Unit := do
  insist (r.identity = identity) "pd-worldctl run state does not match this command"
  insist (r.phase.allows r.checkpoint) "pd-worldctl run state phase/checkpoint is invalid"
  insist (r.restartRunId ≠ "") "pd-worldctl run state id is invalid"

/-- `_record_protocol_event` -/
def recordProtocolEvent (name : String) (r : RunState) : Except CtlError RunState := do
  insist (∀ e ∈ r.protocolEvents, e.name ≠ name)
    ("pd-worldctl protocol event repeated: " ++ name)
  return { r with protocolEvents :=
    r.protocolEvents ++ [⟨name, r.protocolEvents.length + 1, r.restartRunId⟩] }

def append (entry : JournalEntry) (r : RunState) : RunState :=
  { r with observationJournal := r.observationJournal ++ [entry] }

/-- `_append_observation`, up to the write. -/
def appendObservation (sha : TerminationProof → String) (stage : Stage)
    (o : TerminationObservation) (status : Option String) (r : RunState) :
    Except CtlError RunState := do
  o.check r.observationJournal
  return r.append (.terminationObserved stage o.proof (sha o.proof) status)

/-- `_restore_captured_world` -/
def restoreCapturedWorld (expectedGeneration : String) (r : RunState) :
    Except CtlError (Dict String ProcessIdentity) := do
  match r.capturedIdentities with
  | none => .error (.runtimeError "STOPPING run state lacks the exact captured old world")
  | some values => do
      insist (values.length = 4) "STOPPING run state lacks the exact captured old world"
      let restored ← values.foldlM (fun (d : Dict String ProcessIdentity) i => do
        insist (i.member ∈ members ∧ ¬ d.contains i.member ∧
            i.topologyGeneration = expectedGeneration)
          "captured old process identity changed across resume"
        return d.set i.member i) .empty
      insist ((∀ m ∈ restored.keys, m ∈ members) ∧ ∀ m ∈ members, m ∈ restored.keys)
        "captured old world is incomplete"
      return restored

/-- The proofs of the checkpoint and of the journal, which must agree. -/
def durableProofs (sha : TerminationProof → String) (r : RunState) :
    Except CtlError (Dict String TerminationProof) := do
  insist (∀ m ∈ r.terminationProofs.keys, m ∈ members)
    "termination proof checkpoint has unknown member"
  let journaled ← validatedJournalProofs sha r.observationJournal .wholeWorldTermination
  journaled.entries.foldlM (fun (d : Dict String TerminationProof) e => do
    insist ((d.get? e.1).all fun prior => prior = e.2)
      "termination proof checkpoint disagrees with journal"
    return d.set e.1 e.2) r.terminationProofs

/-- `_checkpoint_termination_proof`, up to the write. -/
def checkpointProof (p : TerminationProof) (r : RunState) : Except CtlError RunState := do
  insist ((r.terminationProofs.get? p.member).all fun prior => prior = p)
    "termination proof checkpoint changed for member"
  return { r with terminationProofs := r.terminationProofs.set p.member p }

end RunState

end PrismServe.Worldctl
