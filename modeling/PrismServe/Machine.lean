import PrismServe.Gateway.Chat
import PrismServe.Scheduler.MainLoop

/-!
# The serving process as a machine

The scheduling loop is the main task.  Next to it run the loads, recoveries and
source releases of the coordinator, the transfers, the handlers of the chat
endpoint, the completions that a legacy client calls back and the scrapes of
the usage collector.  Between segments the clock advances, messages arrive, and
the registry and the operators change what the scheduler knows.
-/

namespace PrismServe

open Lib

/-- What happens outside of the tasks. -/
inductive Event
  | elapse (d : Nat)
  | deliver (subject : Subject) (msg : Message)
  | refresh (view : RegistryView)
  | register (instanceId : String) (role : Role) (maxSlots : Int) (instanceEpoch : String)
      (activeRequestIds : List String)
  | reconcile (instanceId : String) (r : PDScheduler.Reconciliation)
  deriving DecidableEq, Repr

namespace Event

/-- A scheduler method called by an operator endpoint, which answers its errors. -/
def onScheduler (w : World) (r : Except Exc PDScheduler) : World :=
  match r with
  | .ok s => { w with scheduler := s }
  | .error _ => w

/-- Legacy registration is disabled where the worker registry is the authority. -/
def apply (cfg : Settings) : Event → World → World
  | .elapse d, w => { w with now := w.now + d }
  | .deliver subject msg, w =>
    { w with inbox := Function.update w.inbox subject (w.inbox subject ++ [msg]) }
  | .refresh view, w =>
    { w with scheduler :=
        { w.scheduler with workerRegistry := w.scheduler.workerRegistry.map fun _ => view } }
  | .register instanceId role maxSlots epoch active, w =>
    if cfg.network then w
    else onScheduler w (w.scheduler.registerInstance instanceId role maxSlots epoch active)
  | .reconcile instanceId r, w => onScheduler w (w.scheduler.reconcileInstance instanceId r)

end Event

namespace Loop

/-- The registry entry of a recovery goes with its task. -/
def forgetRecovery (operationId : String) : Loop Unit :=
  onCoordinator fun c =>
    { c with recoveryTasks := c.recoveryTasks.filter fun op => op ≠ operationId }

def forgetSourceRelease (operationId : String) : Loop Unit :=
  onCoordinator fun c =>
    { c with sourceReleaseTasks := c.sourceReleaseTasks.filter fun op => op ≠ operationId }

def body (cfg : Settings) : Task → Loop Unit
  | .load reqId operationId decision => runLoad cfg reqId operationId decision
  | .recover reqId operationId =>
    finallyDo (recoverUntilProven cfg reqId operationId cfg.rounds)
      (forgetRecovery operationId)
  | .releaseSource operationId =>
    finallyDo (releaseSourceUntilProven operationId cfg.rounds)
      (forgetSourceRelease operationId)
  | .transfer task => runNormalTransfer cfg task
  | .legacyCompletion task => when (!cfg.network) (onComplete cfg task)
  | .chat request => chatCompletions cfg request
  | .scrape => scrapeUsage cfg

end Loop

namespace Task

/-- Tasks that are started from outside of the process. -/
def external : Task → Bool
  | .legacyCompletion _ => true
  | .chat _ => true
  | .scrape => true
  | _ => false

end Task

def machine (cfg : Settings) : Machine World Call Reply Exc Task Event where
  body := Loop.body cfg
  entry := .entry
  external := Task.external
  event := Event.apply cfg

abbrev State := Config World Call Reply Exc Task

abbrev Decision := Choice Reply Task Event

/-- The process before its first segment. -/
def boot (cfg : Settings) (w : World) : State where
  sys := ⟨w, []⟩
  main := some (.entry, fun _ => Loop.scheduleLoop cfg cfg.rounds)
  crash := none
  pool := []

/-- The state after a list of decisions of the environment. -/
def runFrom (cfg : Settings) (w : World) (choices : List Decision) : State :=
  (machine cfg).run (boot cfg w) choices

/-- The state in which the process starts: instances are registered, nothing is in use. -/
structure World.Initial (w : World) : Prop where
  tracker : w.tracker = RequestTracker.empty
  outputs : w.output.states = Dict.empty
  coordinator : w.coordinator = {}
  leases : w.scheduler.slotLeases = Dict.empty
  quarantined : w.scheduler.quarantinedInstances = Dict.empty
  idle : ∀ p load, w.scheduler.prefillLoad.get? p = some load → load = 0
  epoch : ∀ p e, w.scheduler.instanceEpochs.get? p = some e → e ≠ ""
  clients : w.clients = fun _ => {}
  clientCount : w.clientCount = 0
  contributors : w.contributors = fun _ => []
  history : w.history = []

/-! ## A small deployment -/

/-- Identifiers that differ in their length. -/
def unaryId (n : Nat) : String := String.ofList (List.replicate (n + 1) 'u')

theorem unaryId_injective : Function.Injective unaryId := by
  intro a b h
  simpa [unaryId] using congrArg String.length h

theorem unaryId_ne_empty (n : Nat) : unaryId n ≠ "" := by
  intro h
  simpa [unaryId] using congrArg String.length h

/-- Default timeouts, and the same routing decisions for every request. -/
def smallSettings (network affinityEnabled : Bool) (routes : List CachedPrefixDecision) :
    Settings where
  rounds := 6
  network := network
  affinityEnabled := affinityEnabled
  ownerId := "gateway"
  uuid := unaryId
  uuid_injective := unaryId_injective
  uuid_ne_empty := unaryId_ne_empty
  routes _ := routes
  transferResult _ := .accepted

/-- One prefill instance `p0` and one decode instance `d0` with two slots. -/
def smallWorld (network : Bool) : World where
  scheduler :=
    { workerRegistry := if network then some ⟨true, ["p0", "d0"]⟩ else none
      kvUsageStaleAfter := 1000
      prefillLoad := Dict.empty.set "p0" 0
      decodeSlots := Dict.empty.set "d0" ⟨2, 2⟩
      kvUsage := Dict.empty.set "d0" ⟨0, "f1", 0⟩
      instanceEpochs := (Dict.empty.set "p0" "e1").set "d0" "f1" }
  control := { workerEpochs := (Dict.empty.set "p0" "e1").set "d0" "f1" }

theorem smallWorld_initial (network : Bool) : (smallWorld network).Initial where
  tracker := rfl
  outputs := rfl
  coordinator := rfl
  leases := rfl
  quarantined := rfl
  idle p load h := by
    simp only [smallWorld, Dict.get?_set] at h
    split at h
    · exact (Option.some.inj h).symm
    · cases h
  epoch p e h := by
    simp only [smallWorld, Dict.get?_set] at h
    split at h
    · cases h
      decide
    split at h
    · cases h
      decide
    · cases h
  clients := rfl
  clientCount := rfl
  contributors := rfl
  history := rfl

/-- A legacy request is prefilled, and its decode worker may report. -/
def decodeStarts : List Decision :=
  [.launch (.chat { requestId := "r1" }), .task 0 .ok,
    .main .ok, .main .ok,
    .event (.deliver .prefillDone
      { origin := 0, reqId := some "r1", instanceEpoch := some "e1", firstToken := .integer 7 }),
    .main .ok]

end PrismServe
