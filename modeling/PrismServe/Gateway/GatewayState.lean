import PrismServe.Scheduler.ReplacementRelease

/-!
# The application state of a multinode gateway

What the acceptance of a topology, the refresh of the worker world and the
supervisors of the control tasks share.  Registries and schedulers are objects
that are compared with `is`; a reference is a position in the list of all of
them.  A task that is registered as the running acceptance is running: it takes
its name back however it ends.

The prefix reconciler is present in a gateway with affinity routing only.
-/

namespace PrismServe

open Lib

/-- A long-running control task. -/
inductive ControlTask
  | running
  | cancelled
  /-- It returned or raised by itself. -/
  | ended
  deriving DecidableEq, Repr

namespace ControlTask

def done : ControlTask → Bool
  | running => false
  | _ => true

/-- The task was cancelled and joined. -/
def stop : ControlTask → ControlTask
  | running => cancelled
  | t => t

end ControlTask

/-- Epochs under the names of their instances. -/
abbrev Epochs := List (String × String)

def sameEpochs (a b : Epochs) : Bool := a.all (b.contains ·) && b.all (a.contains ·)

def epochsOf (r : WorkerRegistry) : Epochs :=
  r.members.entries.map fun e => (e.1, e.2.instanceEpoch)

/-- The prefix reconciler: the owners of its directory and the world it has published. -/
structure PrefixReconciler where
  owners : Epochs := []
  worldPublication : Option Epochs := none
  deriving DecidableEq, Repr

def PrefixReconciler.worldReady (expected : Epochs) (p : PrefixReconciler) : Bool :=
  sameEpochs p.owners expected && p.worldPublication.any (sameEpochs · expected)

/-- What the acceptance reads of a request of the tracker. -/
structure RunningRequest where
  reqId : String
  activeOperationId : String := ""
  transferOperationId : String := ""
  /-- The operation ids of the endpoint references it holds. -/
  refOperationIds : List String := []
  deriving DecidableEq, Repr

/-- Every operation id that a request stands for. -/
def RunningRequest.operations (r : RunningRequest) : List String :=
  r.reqId :: ((r.activeOperationId :: r.transferOperationId :: r.refOperationIds).filter
    fun op => decide (op ≠ ""))

/-- A scheduler object. -/
abbrev SchedulerRef := Nat

structure AppState where
  affinityEnabled : Bool := false
  now : Nat := 0
  registries : Registries := []
  workerRegistry : RegistryRef := 0
  topologyAdmin : TopologyLedger := { registry := 0 }
  replacementStore : Host := {}
  schedulers : List PDScheduler := []
  scheduler : SchedulerRef := 0
  /-- The scheduler of the release evaluator. -/
  resourceReleaseEvaluator : SchedulerRef := 0
  tracker : List RunningRequest := []
  loopTask : ControlTask := .running
  reconcilerTask : Option ControlTask := none
  resourceRefreshTask : ControlTask := .running
  topologyAcceptanceTask : Option Nat := none
  reconcilerReplacementTask : Option Nat := none
  prefixReconciler : Option PrefixReconciler := none
  prefixWorldPublication : Option Epochs := none
  accepting : Bool := false
  topologyAcceptanceRequired : Bool := false
  pendingTopologyGeneration : Option String := none
  controlPlaneFailed : Bool := false
  workerRpcReady : Bool := false
  /-- Which of the next statements that may fail do fail. -/
  faults : List Bool := []

namespace AppState

def generationOf (a : AppState) (ref : RegistryRef) : Option String :=
  TopologyLedger.generation a.registries ref

def worldFresh (a : AppState) (ref : RegistryRef) : Bool :=
  a.registries[ref]?.any (·.worldFresh a.now)

def setRegistry (ref : RegistryRef) (r : WorkerRegistry) (a : AppState) : AppState :=
  { a with registries := a.registries.set ref r }

def setScheduler (ref : SchedulerRef) (s : PDScheduler) (a : AppState) : AppState :=
  { a with schedulers := a.schedulers.set ref s }

/-! ## Admission -/

def replacementStoreAllowsAdmission (limits : StoreLimits) (a : AppState) : Bool :=
  a.replacementStore.store.ready limits && a.replacementStore.store.transitionClosed

def topologyAcceptanceAllowsAdmission (a : AppState) : Bool := !a.topologyAcceptanceRequired

def backgroundControlPlaneTasksHealthy (a : AppState) : Bool :=
  !a.controlPlaneFailed && !a.resourceRefreshTask.done &&
    (!a.affinityEnabled || a.reconcilerTask.any fun t => !t.done)

def prefixWorldAllowsAdmission (a : AppState) : Bool :=
  if a.affinityEnabled = false then true
  else
    match a.registries[a.workerRegistry]?, a.prefixReconciler, a.reconcilerTask with
    | some registry, some reconciler, some task =>
      match reconciler.worldPublication.orElse fun _ => a.prefixWorldPublication with
      | none => false
      | some publication =>
        !task.done && sameNames registry.members.keys memberNames &&
          sameEpochs publication (epochsOf registry) &&
          reconciler.worldReady (epochsOf registry)
    | _, _, _ => false

/-- The last statement of the start: whether the gateway accepts requests from now on. -/
def openAdmission (limits : StoreLimits) (a : AppState) : AppState :=
  { a with accepting :=
      a.backgroundControlPlaneTasksHealthy && a.worldFresh a.workerRegistry &&
        a.replacementStoreAllowsAdmission limits && a.topologyAcceptanceAllowsAdmission &&
        a.prefixWorldAllowsAdmission }

/-- `_on_control_plane_task_done`, for a task that was not cancelled. -/
def onControlPlaneTaskDone (invalidatePrefix : Bool) (a : AppState) : AppState :=
  { a with
    accepting := false
    controlPlaneFailed := true
    prefixWorldPublication := if invalidatePrefix then none else a.prefixWorldPublication
    prefixReconciler :=
      if invalidatePrefix then a.prefixReconciler.map ({ · with worldPublication := none })
      else a.prefixReconciler }

/-! ## The transaction -/

def beginTopologyAcceptance (generation : String) (a : AppState) : Except AcceptError AppState :=
  if generation = "" then
    .error (.value "pending topology generation must be non-empty")
  else if a.topologyAcceptanceRequired = true ∧
      a.pendingTopologyGeneration ≠ some generation then
    .error (.value "another topology generation is already pending acceptance")
  else
    .ok { a with
      topologyAcceptanceRequired := true
      pendingTopologyGeneration := some generation
      accepting := false }

def completeTopologyAcceptance (generation : String) (a : AppState) :
    Except AcceptError AppState :=
  if a.topologyAcceptanceRequired = true ∧ a.pendingTopologyGeneration ≠ some generation then
    .error (.value "accepted generation does not match pending topology")
  else .ok { a with topologyAcceptanceRequired := false, pendingTopologyGeneration := none }

/-- The checks of `_finalize_topology_acceptance`, in its order. -/
def checkFinal (limits : StoreLimits) (generation : String) (a : AppState) :
    Except AcceptError Unit :=
  if a.topologyAcceptanceRequired = false then
    .error (.value "topology acceptance is not pending")
  else if a.pendingTopologyGeneration ≠ some generation then
    .error (.value "pending topology generation does not match candidate")
  else if a.generationOf a.workerRegistry ≠ some generation then
    .error (.value "topology acceptance candidate generation mismatch")
  else if a.topologyAdmin.registry ≠ a.workerRegistry then
    .error (.value "topology acceptance candidate is not the committed ledger registry")
  else if a.worldFresh a.workerRegistry = false then
    .error (.value "replacement worker world is not fresh before topology acceptance")
  else if a.replacementStoreAllowsAdmission limits = false then
    .error (.runtime "replacement store is not sealed before topology acceptance")
  else if a.prefixWorldAllowsAdmission = false then
    .error (.runtime "prefix world is not ready before topology acceptance")
  else if a.controlPlaneFailed = true ∨ a.loopTask.done = true then
    .error (.runtime "control plane failed before topology acceptance")
  else if a.backgroundControlPlaneTasksHealthy = false then
    .error (.runtime "background control plane task failed before topology acceptance")
  else .ok ()

def finalizeTopologyAcceptance (limits : StoreLimits) (generation : String) (a : AppState) :
    Except AcceptError AppState := do
  a.checkFinal limits generation
  let a ← a.completeTopologyAcceptance generation
  return { a with accepting := true }

/-- `_begin_expected_reconciler_replacement`, for the reconciler task of the application. -/
def beginExpectedReconcilerReplacement (task : Nat) (a : AppState) :
    Except AcceptError AppState :=
  if a.reconcilerTask.any (·.done) then
    .error (.runtime "prefix reconciler stopped before topology replacement")
  else if a.topologyAcceptanceTask ≠ some task then
    .error (.runtime "reconciler replacement requires the active topology acceptance")
  else if a.reconcilerReplacementTask.any fun other => decide (other ≠ task) then
    .error (.runtime "another topology acceptance is replacing the prefix reconciler")
  else .ok { a with reconcilerReplacementTask := some task }

def finishExpectedReconcilerReplacement (task : Nat) (a : AppState) : AppState :=
  if a.reconcilerReplacementTask = some task then { a with reconcilerReplacementTask := none }
  else a

end AppState

end PrismServe
