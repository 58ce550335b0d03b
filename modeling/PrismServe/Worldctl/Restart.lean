import PrismServe.Lib.Coroutine
import PrismServe.Worldctl.RunState

/-!
# Restarting the world

`restart` stops the four old processes, waits for the proof that each of them is
gone, patches the generation, starts the members again, publishes a startup
permit for the fresh pods and has the gateway accept the evidence.  It may be
killed at any time and is then invoked again: what it has done so far is in the
run state, which is written to a file before every step that cannot be undone.

Calls of the backend are awaited, and so is every write of the file, since the
process may die before it.  The file is replaced as a whole.  The log of calls
and writes is for the record.
-/

namespace PrismServe.Worldctl

open Lib

inductive RestartCall
  /-- The run state is written. -/
  | write
  | captureWorld (expectedGeneration : String)
  | includeRequiredOldOperationIds (ids : List String)
  | includeRequiredOldResourceIds (ids : List String)
  | startTerminationWatch (identity : ProcessIdentity)
  | closeTerminationWatch (member : String)
  | injectProcessFault (identity : ProcessIdentity)
  | observeInjectedProcessTermination (identity : ProcessIdentity)
  | observeNaturalWatchdogTermination (identity : ProcessIdentity)
  | observeTermination (identity : ProcessIdentity) (prior : Option TerminationProof)
  | stopMember (member : String)
  | patchGeneration (generation : String)
  | startMember (member : String)
  /-- The polls of the pods of the fresh world. -/
  | listPods (generation : String) (forbidden : List String)
  | publishStartupPermit (permit : StartupPermit)
  | waitAcceptanceEvidence
  | acceptTopology (evidence : Evidence)
  | persistStartedWorld (permit : StartupPermit)

/-- What an exception of an observation says about a raw event. -/
inductive RawReference
  | absent
  | sequence (n : Int) (sha256 : String)
  | text (digestMatches : Bool)

/-- An observation that failed. -/
structure ObservationFailure where
  error : CtlError
  partialObservation : Option TerminationObservation := none
  rawReference : RawReference := .absent

inductive RestartReply
  | done
  | raised (e : CtlError)
  | world (old : Dict String ProcessIdentity) (operationIds resourceIds : List String)
  | injected (result : Option InjectionResult)
  /-- The raw events that were handed to the sink, and how the observation ended. -/
  | observed (raws : List RawWatchEvent)
      (outcome : Except ObservationFailure TerminationObservation)
  | pods (polls : List PodPoll)
  | permit (value : StartupPermit)
  | evidence (value : Evidence)
  | accepted (value : AcceptedResponse)

/-- What a run did, for the record. -/
inductive RestartMoment
  /-- A call, with the file of that time. -/
  | called (c : RestartCall) (file : Option RunState)
  | wrote (r : RunState)

structure RestartState where
  file : Option RunState := none
  /-- The proofs that the guard of this process has accepted. -/
  guard : Guard := .empty
  /-- The members whose termination this process watches. -/
  watches : List String := []
  /-- How many identifiers were drawn. -/
  drawn : Nat := 0
  /-- For the record, newest first. -/
  log : List RestartMoment := []

/-- A new process finds the file, and nothing else. -/
def RestartState.boot (s : RestartState) : RestartState :=
  { s with guard := .empty, watches := [] }

/-- What is not computed here. -/
structure RestartSettings where
  payloadSha : TerminationPayload → String
  proofSha : TerminationProof → String
  permitSha : UnsignedPermit → String
  parseMessage : String → MessageText
  uuid : Nat → String
  /-- `raw_observation_sink_supported` -/
  sink : Bool

abbrev Restart (α : Type) := Prog RestartState RestartCall RestartReply CtlError Empty α

namespace Restart

variable {α : Type}

/-- What a check returns or raises. -/
def lift (x : Except CtlError α) : Restart α :=
  match x with
  | .ok a => .ret a
  | .error e => .raise e

def call (c : RestartCall) : Restart RestartReply :=
  .sync (fun s => { s with log := .called c s.file :: s.log }) fun _ => .await c .ret

/-- A reply that is not of the kind of the call. -/
def unexpected : RestartReply → CtlError
  | .raised e => e
  | _ => .backendError "unexpected reply"

/-- A call that returns nothing. -/
def perform (c : RestartCall) : Restart Unit :=
  (call c).bind fun
    | .done => .ret ()
    | reply => .raise (unexpected reply)

/-- `_atomic_write_json` -/
def save (r : RunState) : Restart Unit :=
  .await .write fun _ =>
    .sync (fun s => { s with file := some r, log := .wrote r :: s.log }) fun _ => .ret ()

/-- Read the run state. -/
def withRun (f : RunState → Restart α) : Restart α :=
  .sync id fun s =>
    match s.file with
    | some r => f r
    | none => .raise (.runtimeError "no run state")

/-- Change the run state and write it. -/
def update (f : RunState → Except CtlError RunState) : Restart Unit :=
  withRun fun r => (lift (f r)).bind save

/-- `try … finally …` -/
def ensuring (p : Restart α) (final : Restart Unit) : Restart α :=
  (p.rescue fun e => some (final.bind fun _ => .raise e)).bind fun a => final.bind fun _ => .ret a

end Restart

open Restart

variable {α : Type}

/-! ## Observations -/

def appendRawWatchObservation (stage : Stage) (event : RawWatchEvent) : Restart Unit :=
  update fun r => do
    insist event.digestMatches "raw Kubernetes watch event digest mismatch"
    return r.append (.rawWatchEvent stage event)

/-- The reference of a failure to a raw event is one of the journal. -/
def RawReference.check (reference : RawReference) (journal : Journal) : Except CtlError Unit :=
  match reference with
  | .absent => .ok ()
  | .text digestMatches => insist digestMatches "raw Kubernetes watch event digest mismatch"
  | .sequence n sha256 => checkJournalReference journal n sha256

variable (cfg : RestartSettings) (a : RestartArguments) (old : Dict String ProcessIdentity)

def appendIncompleteObservation (stage : Stage) (f : ObservationFailure) : Restart Unit := do
  match f.partialObservation with
  | none => .ret ()
  | some o => update (RunState.appendObservation cfg.proofSha stage o (some "PARTIAL"))
  update fun r => do
    f.rawReference.check r.observationJournal
    return r.append (.observationIncomplete stage f.error)

/-- The failure is journalled, and raised again. -/
def failObservation (stage : Stage) (f : ObservationFailure) : Restart α :=
  (appendIncompleteObservation cfg stage f).bind fun _ => .raise f.error

/-- `_observe_or_persist_incomplete`: the raw events reach the sink before the observation ends. -/
def observe (stage : Stage) (c : RestartCall) : Restart TerminationObservation :=
  (call c).bind fun
    | .observed raws outcome =>
      ((Prog.forEach (if cfg.sink then raws else [])
          (appendRawWatchObservation stage)).rescue fun e =>
            some (failObservation cfg stage { error := e })).bind fun _ =>
        match outcome with
        | .ok o => .ret o
        | .error f => failObservation cfg stage f
    | reply => failObservation cfg stage { error := unexpected reply }

/-- `_append_observation` -/
def appendObservation (stage : Stage) (o : TerminationObservation)
    (status : Option String) : Restart Unit :=
  update (RunState.appendObservation cfg.proofSha stage o status)

/-- `_validate_and_record_semantics`; the validator also tells what the guard accepts. -/
def validateAndRecordSemantics (stage : Stage) (proofSha256 : String)
    (validator : RestartState → Except CtlError Guard) : Restart Unit :=
  .sync id fun s =>
    match validator s with
    | .error e =>
      (update fun r => .ok (r.append (.semanticValidation stage proofSha256 false))).bind
        fun _ => .raise e
    | .ok guard =>
      .sync (fun s => { s with guard := guard }) fun _ =>
        update fun r => .ok (r.append (.semanticValidation stage proofSha256 true))

/-- `_checkpoint_termination_proof` -/
def checkpointTerminationProof (p : TerminationProof) : Restart Unit :=
  update (RunState.checkpointProof p)

/-- A protocol event is recorded and written. -/
def recordEvent (name : String) : Restart Unit :=
  update (RunState.recordProtocolEvent name)

/-! ## Faults -/

/-- `_capture_ambiguous_injection_evidence`: what the observation raises is swallowed. -/
def captureAmbiguousInjectionEvidence (identity : ProcessIdentity) : Restart Unit :=
  (((observe cfg .workerCrashInjectionAmbiguous (.observeTermination identity none)).bind
      fun o => .ret (some o)).rescue fun _ => some (.ret none)).bind fun
    | none => .ret ()
    | some o => appendObservation cfg .workerCrashInjectionAmbiguous o (some "INCOMPLETE")

/-- An attempt whose outcome is not known. -/
def abandonInjection (identity : ProcessIdentity) (attempt : Nat) (e : CtlError) : Restart α := do
  update fun r => .ok (r.append (.faultInjectionIncomplete attempt e))
  captureAmbiguousInjectionEvidence cfg identity
  .raise e

/-- The observation of a fault: it is written, judged, and noted as an event. -/
def observeFault (stage : Stage) (c : RestartCall) (eventName : String)
    (validate : TerminationProof → Except CtlError Unit) : Restart TerminationProof := do
  let o ← observe cfg stage c
  update fun r => do
    insist r.fault.isSome "fault observation lacks durable fault state"
    r.appendObservation cfg.proofSha stage o none
  validateAndRecordSemantics stage (cfg.proofSha o.proof) fun s =>
    (validate o.proof).map fun _ => s.guard
  recordEvent eventName
  return o.proof

def injectWorkerCrash (identity : ProcessIdentity) : Restart TerminationProof :=
  withRun fun r => do
    let attempt := r.observationJournal.length + 1
    save (r.append (.faultInjectionAttempt identity))
    let reply ← call (.injectProcessFault identity)
    match reply with
    | .injected result =>
      match validateFaultInjectionResult result identity with
      | .error e => abandonInjection cfg identity attempt e
      | .ok _ => do
          update fun r => .ok (r.append (.faultInjectionResult attempt))
          -- the selection is added to the fault and written once more
          update .ok
          observeFault cfg .workerCrashInjection (.observeInjectedProcessTermination identity)
            "injected_process_exited" fun p => validateWorkerCrashTermination p identity
    | reply => abandonInjection cfg identity attempt (unexpected reply)

/-- The old process of a member. -/
def oldProcess (member : String) : Restart ProcessIdentity :=
  match old.get? member with
  | some i => .ret i
  | none => .raise (.keyError member)

/-- The termination of a fault that was journalled in an earlier attempt, or that is provoked or
awaited now. -/
def faultTermination (stage : Stage) (member : String)
    (validate : TerminationProof → Except CtlError Unit) (provoke : Restart TerminationProof) :
    Restart (Option TerminationProof) :=
  withRun fun r => do
    let proofs ← lift (validatedJournalProofs cfg.proofSha r.observationJournal stage)
    match proofs.get? member with
    | some p => do
        lift (validate p)
        return some p
    | none =>
      .sync id fun s =>
        if s.guard.contains member then .ret none else provoke.bind fun p => .ret (some p)

/-- The crash that is injected, when there is to be one. -/
def injectedTermination : Restart (Option TerminationProof) :=
  match a.faultMember with
  | none => .ret none
  | some member => do
      let identity ← oldProcess old member
      faultTermination cfg .workerCrashInjection member
        (fun p => validateWorkerCrashTermination p identity) (injectWorkerCrash cfg identity)

/-- The exit of the watchdog, when one is expected. -/
def naturalTermination : Restart (Option TerminationProof) :=
  match a.watchdogMember with
  | none => .ret none
  | some member => do
      let identity ← oldProcess old member
      let validate := fun p => validateWatchdogTermination cfg.parseMessage p identity
        a.oldGeneration (sortedSet a.expectedOperationIds)
      faultTermination cfg .ncclWatchdog member validate
        (observeFault cfg .ncclWatchdog (.observeNaturalWatchdogTermination identity)
          "watchdog_process_exited" validate)

/-! ## Stopping the old world -/

/-- The canonical record of an observed termination, with its references when there is a sink. -/
def validateObserved (journal : Journal) (p : TerminationProof) : Except CtlError Unit :=
  if cfg.sink then validateDurableTerminationRecord cfg.payloadSha journal p
  else (terminationAuthorityRecord cfg.payloadSha p).map fun _ => ()

/-- The validator of an observed termination. -/
def acceptProof (p : TerminationProof) (s : RestartState) : Except CtlError Guard := do
  validateObserved cfg ((s.file.map RunState.observationJournal).getD []) p
  recordTermination cfg.payloadSha old p s.guard

/-- Wait for the end of one member, unless it is proven. -/
def awaitTermination (prior : String → Option TerminationProof) (member : String) : Restart Unit :=
  .sync id fun s =>
    if s.guard.contains member then .ret ()
    else do
      let identity ← oldProcess old member
      let o ← observe cfg .wholeWorldTermination (.observeTermination identity (prior member))
      appendObservation cfg .wholeWorldTermination o none
      validateAndRecordSemantics .wholeWorldTermination (cfg.proofSha o.proof)
        (acceptProof cfg old o.proof)
      checkpointTerminationProof o.proof

/-- The members in the order in which they are stopped. -/
def stopOrder : List String :=
  match a.faultMember.or a.watchdogMember with
  | some first => first :: members.filter (· ≠ first)
  | none => members

/-- Raise unless every member has a proof that the guard accepted. -/
def guardedProofs (guard : Guard) : Except CtlError (List TerminationProof) :=
  members.mapM fun m =>
    match guard.get? m with
    | some p => .ok p
    | none => .error (.keyError m)

/-- The checks that end the stopping of the old world. -/
def checkTerminations : Restart Unit :=
  .sync id fun s => do
    match a.faultMember with
    | none => .ret ()
    | some member =>
      match s.guard.get? member with
      | none => .raise (.keyError member)
      | some p => lift (insist (p.exitCode = 137)
          "worker_crash proof requires the injected container to exit 137")
    lift (insist (hasFourTerminationProofs s.guard)
      "four durable termination proofs are required before resume")

/-- What is done when the mode expects an exit of the watchdog. -/
def whenWatchdog (p : Restart Unit) : Restart Unit :=
  if a.watchdogMember.isSome then p else .ret ()

/-- From the captured world to four proofs. -/
def terminateOldWorld : Restart Unit := do
  let injected ← injectedTermination cfg a old
  let natural ← naturalTermination cfg a old
  whenWatchdog a (recordEvent "whole_world_scale_down_started")
  Prog.forEach (stopOrder a) fun m => perform (.stopMember m)
  Prog.forEach members (awaitTermination cfg old fun m =>
    if some m = a.faultMember then injected
    else if some m = a.watchdogMember then natural
    else none)
  whenWatchdog a <| .sync id fun s => do
    let _ ← lift (guardedProofs s.guard)
    recordEvent "four_old_processes_terminated"
  checkTerminations a
  update fun r => .ok { r with checkpoint := .terminated }

/-! ## From the proofs to the accepted world -/

/-- `accept_topology` and what follows it. -/
def acceptEvidence (evidence : Evidence) (permit : StartupPermit) : Restart AcceptedResponse := do
  let reply ← call (.acceptTopology evidence)
  match reply with
  | .accepted response => do
      lift (insist response.accepted "Gateway rejected replacement topology")
      withRun fun r => do
        let noted ← lift (if a.watchdogMember.isSome then
          r.recordProtocolEvent "topology_accept_succeeded" else .ok r)
        perform (.persistStartedWorld permit)
        save { noted with
          phase := .accepted
          checkpoint := .accepted
          acceptedResponse := some response }
        return response
  | reply => .raise (unexpected reply)

/-- The captured pod UIDs of the old world. -/
def oldPodUids : List String :=
  members.filterMap fun m => (old.get? m).map ProcessIdentity.podUid

def waitFreshPodUids : Restart (Dict String String) :=
  (call (.listPods a.newGeneration (oldPodUids old))).bind fun
    | .pods polls => lift (waitWorkerPodUids a.newGeneration (oldPodUids old) polls)
    | reply => .raise (unexpected reply)

/-- The permit that the run state has for the fresh pods. -/
def durablePermit (r : RunState) : Except CtlError StartupPermit :=
  match r.freshPodUids with
  | none => .error (.runtimeError "durable fresh Pod UID checkpoint is invalid")
  | some fresh => do
      insist ((∀ m ∈ fresh.keys, m ∈ members) ∧ (∀ m ∈ members, m ∈ fresh.keys) ∧
          (∀ uid ∈ fresh.values, uid ≠ "") ∧ fresh.values.dedup.length = 4)
        "durable fresh Pod UID checkpoint is invalid"
      match r.startupPermit with
      | none => .error (.valueError "startup permit fields are not exact")
      | some permit => do
          validateStartupPermit cfg.permitSha (some a.newGeneration) (some "RESTART") permit
          insist (sameEntries permit.members fresh)
            "startup permit changed fresh Pod identity checkpoint"
          return permit

def patchGeneration : Restart Unit :=
  withRun fun r =>
    if r.checkpoint = .terminated then do
      perform (.patchGeneration a.newGeneration)
      save { r with checkpoint := .generationPatched }
    else .ret ()

def startMembers : Restart Unit :=
  withRun fun r =>
    if r.checkpoint = .generationPatched then do
      Prog.forEach members fun m => perform (.startMember m)
      save { r with checkpoint := .started }
    else .ret ()

/-- The startup permit, built and written now or in an earlier attempt. -/
def preparePermit : Restart StartupPermit :=
  withRun fun r =>
    if r.checkpoint = .started then do
      let fresh ← waitFreshPodUids a old
      .sync (fun s => { s with drawn := s.drawn + 1 }) fun s => do
        let permit ← lift (buildStartupPermit cfg.permitSha a.newGeneration fresh "RESTART"
          (cfg.uuid s.drawn))
        save { r with
          freshPodUids := some fresh
          startupPermit := some permit
          checkpoint := .permitReady }
        return permit
    else lift (durablePermit cfg a r)

/-- An attempt that starts with a permit in the file finds the fresh pods it was written for. -/
def confirmFreshPods (entry : Checkpoint) (fresh : Dict String String) : Restart Unit :=
  if entry = .permitReady then do
    let observed ← waitFreshPodUids a old
    lift (insist (sameEntries observed fresh)
      "fresh Pod UIDs changed after startup permit intent")
  else .ret ()

/-- The permit is published, and comes back unchanged. -/
def announcePermit (permit : StartupPermit) (r : RunState) : Restart Unit := do
  let reply ← call (.publishStartupPermit permit)
  match reply with
  | .permit published => do
      lift (validateStartupPermit cfg.permitSha (some a.newGeneration) (some "RESTART") published)
      lift (insist (published.same permit) "published startup permit changed exact payload")
      save { r with checkpoint := .permitPublished }
  | reply => .raise (unexpected reply)

def publishPermit (entry : Checkpoint) (permit : StartupPermit) : Restart Unit :=
  withRun fun r =>
    if r.checkpoint = .permitReady then do
      confirmFreshPods a old entry (r.freshPodUids.getD .empty)
      announcePermit cfg a permit r
    else .ret ()

/-- The checks on the evidence of the fresh world; the canonical records are put in. -/
def checkEvidence (r : RunState) (guard : Guard)
    (permit : StartupPermit) (e : Evidence) : Except CtlError Evidence := do
  let proofs ← guardedProofs guard
  let records ← proofs.mapM (terminationAuthorityRecord cfg.payloadSha)
  insist (e.terminationRecords.all fun found => found = records)
    "acceptance evidence changed canonical termination records"
  validateMemberRecords cfg.payloadSha a.oldGeneration records
  insist (e.newTopologyGeneration = some a.newGeneration)
    "fresh evidence does not bind requested generation"
  insist (e.restartRunId = some r.restartRunId)
    "fresh evidence changed the durable restart run id"
  validatePermittedIdentities cfg.permitSha e permit
  return { e with terminationRecords := some records }

def gatherEvidence (permit : StartupPermit) : Restart Evidence :=
  .sync id fun s => do
    let _ ← lift (guardedProofs s.guard)
    let reply ← call .waitAcceptanceEvidence
    match reply with
    | .evidence found =>
      withRun fun r => do
        let evidence ← lift (checkEvidence cfg a r s.guard permit found)
        let noted ← lift (if a.watchdogMember.isSome then
          (r.recordProtocolEvent "four_fresh_reports_observed").bind
            (RunState.recordProtocolEvent "topology_accept_started") else .ok r)
        save { noted with
          phase := .evidenceReady
          checkpoint := .evidenceReady
          evidence := some evidence }
        return evidence
    | reply => .raise (unexpected reply)

/-- `_continue_after_termination` -/
def continueAfterTermination : Restart AcceptedResponse :=
  withRun fun r => do
    lift (insist (2 ≤ r.checkpoint.rank ∧ r.checkpoint.rank ≤ 6)
      "restart continuation checkpoint is not resumable")
    .sync id fun s => do
      lift (insist (hasFourTerminationProofs s.guard)
        "four durable termination proofs are required before scale-up")
      patchGeneration a
      startMembers
      let permit ← preparePermit cfg a old
      publishPermit cfg a old r.checkpoint permit
      let evidence ← gatherEvidence cfg a permit
      acceptEvidence a evidence permit

/-! ## The whole command -/

/-- The old world, and the operations and resources that it held. -/
structure OldWorld where
  processes : Dict String ProcessIdentity
  operationIds : List String
  resourceIds : List String

def captureOldWorld : Restart OldWorld := do
  let reply ← call (.captureWorld a.oldGeneration)
  match reply with
  | .world old operationIds resourceIds => do
      lift (insist ((∀ m ∈ old.keys, m ∈ members) ∧ ∀ m ∈ members, m ∈ old.keys)
        "capture must return exactly four old processes")
      lift (insist (∀ i ∈ a.expectedOperationIds, i ∈ operationIds)
        "live old-world resource reports omit expected fault operations")
      return ⟨old, operationIds ++ a.requiredOldOperationIds, resourceIds⟩
  | reply => .raise (unexpected reply)

def restoreOldWorld (r : RunState) : Except CtlError OldWorld := do
  let old ← r.restoreCapturedWorld a.oldGeneration
  match r.capturedOperationIds, r.capturedResourceIds with
  | some operationIds, some resourceIds => do
      insist (operationIds.Nodup ∧ resourceIds.Nodup)
        "captured old resource identity checkpoint is invalid"
      insist (∀ i ∈ a.expectedOperationIds, i ∈ operationIds)
        "durable old-world checkpoint omits expected fault operations"
      return ⟨old, operationIds, resourceIds⟩
  | _, _ => .error (.runtimeError "captured old resource identity checkpoint is invalid")

/-- The proofs of earlier attempts are given to the guard, and to the checkpoint. -/
def restoreProofs : Restart Unit :=
  withRun fun r => do
    let durable ← lift (r.durableProofs cfg.proofSha)
    Prog.forEach durable.values fun p =>
      .sync id fun s => do
        let guard ← lift (recordTermination cfg.payloadSha old p s.guard)
        .sync (fun s => { s with guard := guard }) fun _ => checkpointTerminationProof p

def startWatch (member : String) : Restart Unit := do
  let identity ← oldProcess old member
  perform (.startTerminationWatch identity)
  .modify fun s => { s with watches := s.watches ++ [member] }

def closeWatches : Restart Unit :=
  .sync id fun s => Prog.forEach s.watches fun m => perform (.closeTerminationWatch m)

/-- The members whose end is to be watched. -/
def watchMembers (r : RunState) (guard : Guard) : List String :=
  match r.checkpoint with
  | .created => members
  | .captured => members.filter fun m => !guard.contains m
  | _ => []

/-- The fault that a run is about. -/
def RestartArguments.fault : Option Fault :=
  match a.faultMember, a.watchdogMember with
  | some member, _ => some ⟨"worker_crash", member⟩
  | none, some member => some ⟨"nccl_watchdog_timeout", member⟩
  | none, none => none

/-- The run state with the old world in it. -/
def withOldWorld (world : OldWorld) (r : RunState) : RunState :=
  { r with
    phase := .stopping
    checkpoint := .captured
    capturedIdentities := some (members.filterMap world.processes.get?)
    capturedOperationIds := some (sortedSet world.operationIds)
    capturedResourceIds := some (sortedSet world.resourceIds)
    terminationProofs := .empty
    fault := a.fault.or r.fault }

/-- The captured world is written, before anything is stopped. -/
def captureState (world : OldWorld) (r : RunState) : Except CtlError RunState :=
  if a.faultMember.isNone ∧ a.watchdogMember.isSome then
    (withOldWorld a world r).recordProtocolEvent "all_termination_watches_established"
  else .ok (withOldWorld a world r)

def captureOnce (world : OldWorld) (r : RunState) : Restart Unit :=
  if r.checkpoint = .created then update (captureState a world) else .ret ()

/-- The part of `restart` under `try`; without a result when the old world has just been
terminated. -/
def stopOldWorld (world : OldWorld) : Restart (Option AcceptedResponse) :=
  withRun fun r =>
    .sync id fun s => do
      Prog.forEach (watchMembers r s.guard) (startWatch world.processes)
      captureOnce a world r
      withRun fun r =>
        if r.checkpoint = .captured then
          (terminateOldWorld cfg a world.processes).bind fun _ => .ret none
        else (continueAfterTermination cfg a world.processes).bind fun x => .ret (some x)

/-- What is left when the old world is known. -/
def restartFrom (world : OldWorld) : Restart AcceptedResponse := do
  perform (.includeRequiredOldOperationIds (sortedSet world.operationIds))
  perform (.includeRequiredOldResourceIds (sortedSet world.resourceIds))
  lift (checkOldWorld a.oldGeneration a.newGeneration world.processes)
  restoreProofs cfg world.processes
  let result ← ensuring (stopOldWorld cfg a world) closeWatches
  match result with
  | some response => .ret response
  | none => continueAfterTermination cfg a world.processes

/-- An attempt that finds the evidence ready. -/
def resumeEvidence (r : RunState) : Restart AcceptedResponse :=
  match r.evidence, r.startupPermit with
  | none, _ => .raise (.runtimeError "evidence is not an object")
  | some _, none => .raise (.valueError "startup permit fields are not exact")
  | some evidence, some permit => do
      lift (validateStartupPermit cfg.permitSha (some a.newGeneration) (some "RESTART") permit)
      lift (validatePermittedIdentities cfg.permitSha evidence permit)
      match evidence.terminationRecords with
      | none => .raise (.runtimeError "durable acceptance evidence lacks termination records")
      | some records => do
          lift (validateMemberRecords cfg.payloadSha a.oldGeneration records)
          acceptEvidence a evidence permit

def checkArguments : Except CtlError Unit := do
  require (a.faultMember.all fun m => m ∈ members) "fault_member must be one of p0, p1, d0, d1"
  require (a.watchdogMember.all fun m => m ∈ members)
    "watchdog_member must be one of p0, p1, d0, d1"
  require (a.faultMember.isNone ∨ a.watchdogMember.isNone)
    "worker crash and NCCL watchdog modes are exclusive"
  require (a.watchdogMember.isNone ∨ a.expectedOperationIds ≠ [])
    "NCCL watchdog mode requires an exact expected operation id"

/-- `_load_or_create_run_state` -/
def loadOrCreateRunState : Restart Unit :=
  .sync id fun s =>
    match s.file with
    | some r => lift (r.check a.identity)
    | none =>
      .sync (fun s => { s with drawn := s.drawn + 1 }) fun s =>
        save (.new a.identity (cfg.uuid s.drawn))

def restart : Restart AcceptedResponse := do
  lift (checkArguments a)
  loadOrCreateRunState cfg a
  withRun fun r =>
    match r.phase with
    | .accepted =>
      match r.acceptedResponse with
      | some response => .ret response
      | none => .raise (.runtimeError "accepted_response is not an object")
    | .evidenceReady => resumeEvidence cfg a r
    | .created => (captureOldWorld a).bind (restartFrom cfg a)
    | .stopping => (lift (restoreOldWorld a r)).bind (restartFrom cfg a)

end PrismServe.Worldctl
