import PrismServe.Lib.Dict
import PrismServe.Runtime

/-!
# The instance scheduler

The slot view of the prefill and decode instances: registration, quarantine
and reconciliation, selection of instances, decode slot leases, and the
feedback that gives capacity back.  Every method is a function from the state
to its result and the next state; a method that raises leaves the state as it
was.

The dictionaries of free and of maximal decode slots are written and popped
together by every method, so one dictionary holds both numbers.  The draws of
`secrets` are numbered: each draw is a new value.
-/

namespace PrismServe

open Lib

/-- The first element that no later one beats, as `min` and `max` with a key pick it. -/
def firstBest {α : Type} (better : α → α → Bool) : List α → Option α
  | [] => none
  | x :: rest => some (rest.foldl (fun b y => if better y b then y else b) x)

theorem foldl_better_mem {α : Type} (better : α → α → Bool) :
    ∀ (l : List α) (x : α),
      l.foldl (fun b y => if better y b then y else b) x ∈ x :: l
  | [], x => by simp
  | y :: l, x => by
      rw [List.foldl_cons]
      cases better y x with
      | true =>
        exact List.mem_cons_of_mem _ (foldl_better_mem better l y)
      | false =>
        rcases List.mem_cons.mp (foldl_better_mem better l x) with h | h
        · exact List.mem_cons.mpr (Or.inl h)
        · exact List.mem_cons_of_mem _ (List.mem_cons_of_mem _ h)

theorem firstBest_mem {α : Type} {better : α → α → Bool} {l : List α} {x : α}
    (h : firstBest better l = some x) : x ∈ l := by
  cases l with
  | nil =>
    simp [firstBest] at h
  | cons y l =>
    simp only [firstBest, Option.some.injEq] at h
    rw [← h]
    exact foldl_better_mem better l y

inductive Role
  | prefill
  | decode
  /-- No instance is registered with another name. -/
  | other (name : String)
  deriving DecidableEq, Repr

namespace Role

/-- The role of a record whose instance was not registered. -/
def unknown : Role := .other "unknown"

def text : Role → String
  | prefill => "prefill"
  | decode => "decode"
  | other name => name

end Role

/-- The pair of identifiers and epochs that names an uncertain remote operation. -/
abbrev UncertainRef := String × String × String × String

structure QuarantineRecord where
  instanceId : String
  instanceEpoch : String
  role : Role
  reconciliationToken : Nat
  quarantinedAt : Time
  uncertainTransferOperations : List UncertainRef := []
  uncertainDispatchCommands : List UncertainRef := []
  deriving DecidableEq, Repr

structure KVUsageSample where
  ratio : Rat
  instanceEpoch : String
  sampledAt : Time
  deriving DecidableEq, Repr

inductive LeaseState
  | reserved
  | active
  | quarantined
  | released
  deriving DecidableEq, Repr

structure DecodeSlotLease where
  leaseId : Nat
  operationId : String
  reqId : String
  instanceId : String
  state : LeaseState
  reservedAt : Time
  releaseCleanupId : Option String := none
  deriving DecidableEq, Repr

/-- Free and maximal decode slots of one instance. -/
structure SlotCount where
  free : Int
  max : Int
  deriving DecidableEq, Repr

/-- What the scheduler reads of the worker registry. -/
structure RegistryView where
  worldFresh : Bool
  routable : List String
  deriving DecidableEq, Repr

structure PDScheduler where
  highWatermark : Rat := 85 / 100
  kvUsageStaleAfter : Time := 10
  workerRegistry : Option RegistryView := none
  prefillLoad : Dict String Int := Dict.empty
  decodeSlots : Dict String SlotCount := Dict.empty
  slotLeases : Dict String DecodeSlotLease := Dict.empty
  kvUsage : Dict String KVUsageSample := Dict.empty
  instanceEpochs : Dict String String := Dict.empty
  instanceRoles : Dict String Role := Dict.empty
  quarantinedInstances : Dict String QuarantineRecord := Dict.empty
  secrets : Nat := 0

namespace PDScheduler

/-! ## Registration -/

/-- The reported epoch; an instance without one is registered under a legacy epoch. -/
def registrationEpoch (instanceId instanceEpoch : String) : String :=
  if instanceEpoch = "" then "legacy:" ++ instanceId else instanceEpoch

def registerInstance (instanceId : String) (role : Role) (maxSlots : Int)
    (instanceEpoch : String) (activeRequestIds : List String) (s : PDScheduler) :
    Except Exc PDScheduler :=
  if s.quarantinedInstances.contains instanceId then
    .error (.quarantined instanceId)
  else if activeRequestIds ≠ [] then
    .error (.value ("instance still owns active requests: " ++ quotedList activeRequestIds))
  else
    let epoch := registrationEpoch instanceId instanceEpoch
    match s.instanceEpochs.get? instanceId with
    | some existing =>
      if existing ≠ epoch then
        .error (.value ("instance epoch changed without reconciliation: instance_id=" ++
          quoted instanceId ++ " existing_epoch=" ++ quoted existing ++
          " epoch=" ++ quoted epoch))
      else .ok s
    | none =>
      match role with
      | .prefill =>
        .ok { s with
          prefillLoad := s.prefillLoad.set instanceId 0
          instanceEpochs := s.instanceEpochs.set instanceId epoch
          instanceRoles := s.instanceRoles.set instanceId role }
      | .decode =>
        if 0 < maxSlots then
          .ok { s with
            decodeSlots := s.decodeSlots.set instanceId ⟨maxSlots, maxSlots⟩
            instanceEpochs := s.instanceEpochs.set instanceId epoch
            instanceRoles := s.instanceRoles.set instanceId role }
        else .error (.assertion
          ("decode instance must specify max_slots > 0, got max_slots=" ++
            toString maxSlots))
      | .other name =>
        .error (.value ("unknown role " ++ quoted name ++ "; expected 'prefill' or 'decode'"))

/-- Remove an instance that is going offline; a quarantine of it stays. -/
def deregisterInstance (instanceId : String) (s : PDScheduler) : PDScheduler :=
  { s with
    prefillLoad := s.prefillLoad.erase instanceId
    decodeSlots := s.decodeSlots.erase instanceId
    kvUsage := s.kvUsage.erase instanceId
    instanceEpochs := s.instanceEpochs.erase instanceId
    instanceRoles := s.instanceRoles.erase instanceId }

/-- The record of an instance that is quarantined already, extended. -/
def extendRecord (existing : QuarantineRecord)
    (uncertainTransfer uncertainDispatch : Option UncertainRef) : QuarantineRecord :=
  { existing with
    uncertainTransferOperations :=
      match uncertainTransfer with
      | none => existing.uncertainTransferOperations
      | some op =>
        if op ∈ existing.uncertainTransferOperations then
          existing.uncertainTransferOperations
        else existing.uncertainTransferOperations ++ [op]
    uncertainDispatchCommands :=
      match uncertainDispatch with
      | none => existing.uncertainDispatchCommands
      | some op =>
        if op ∈ existing.uncertainDispatchCommands then
          existing.uncertainDispatchCommands
        else existing.uncertainDispatchCommands ++ [op] }

def quarantineInstance (now : Time) (instanceId : String)
    (uncertainTransfer uncertainDispatch : Option UncertainRef) (s : PDScheduler) :
    PDScheduler :=
  match s.quarantinedInstances.get? instanceId with
  | some existing =>
    { s with
      quarantinedInstances := s.quarantinedInstances.set instanceId
        (extendRecord existing uncertainTransfer uncertainDispatch) }
  | none =>
    let record : QuarantineRecord :=
      { instanceId := instanceId
        instanceEpoch := (s.instanceEpochs.get? instanceId).getD "unknown"
        role := (s.instanceRoles.get? instanceId).getD .unknown
        reconciliationToken := s.secrets
        quarantinedAt := now
        uncertainTransferOperations := uncertainTransfer.toList
        uncertainDispatchCommands := uncertainDispatch.toList }
    { s with
      prefillLoad := s.prefillLoad.erase instanceId
      decodeSlots := s.decodeSlots.erase instanceId
      kvUsage := s.kvUsage.erase instanceId
      quarantinedInstances := s.quarantinedInstances.set instanceId record
      secrets := s.secrets + 1 }

/-- What an instance reports when it asks for its quarantine to end. -/
structure Reconciliation where
  instanceEpoch : String
  reconciliationToken : Nat
  role : Role
  maxSlots : Int
  activeRequestIds : List String
  activeTransferOperationIds : List String
  pendingDispatchCommandIds : List String
  deriving DecidableEq, Repr

/-- The checks of `reconcile_instance`, in its order. -/
def reconcileChecks (record : QuarantineRecord) (r : Reconciliation) : Except Exc Unit :=
  if r.reconciliationToken ≠ record.reconciliationToken then
    .error (.value "reconciliation token mismatch")
  else if r.activeRequestIds ≠ [] then
    .error (.value ("instance still has active requests: " ++ quotedList r.activeRequestIds))
  else if r.activeTransferOperationIds ≠ [] then
    .error (.value ("instance still has active transfers: " ++
      quotedList r.activeTransferOperationIds))
  else if r.pendingDispatchCommandIds ≠ [] then
    .error (.value ("instance still has pending dispatches: " ++
      quotedList r.pendingDispatchCommandIds))
  else if r.instanceEpoch = "" then
    .error (.value "instance_epoch must not be empty")
  else if r.role ≠ .prefill ∧ r.role ≠ .decode then
    .error (.value ("unknown role " ++ quoted r.role.text))
  else if record.role ≠ .unknown ∧ r.role ≠ record.role then
    .error (.value ("reconciliation role changed: expected=" ++ quoted record.role.text ++
      ", got=" ++ quoted r.role.text))
  else if r.role = .decode ∧ r.maxSlots ≤ 0 then
    .error (.value ("decode instance must specify max_slots > 0, got max_slots=" ++
      toString r.maxSlots))
  else .ok ()

/-- Capacity restored once every check has passed. -/
def restoreCapacity (instanceId : String) (r : Reconciliation) (s : PDScheduler) :
    PDScheduler :=
  { s with
    prefillLoad :=
      if r.role = .prefill then s.prefillLoad.set instanceId 0 else s.prefillLoad
    decodeSlots :=
      if r.role = .prefill then s.decodeSlots
      else s.decodeSlots.set instanceId ⟨r.maxSlots, r.maxSlots⟩
    instanceEpochs := s.instanceEpochs.set instanceId r.instanceEpoch
    instanceRoles := s.instanceRoles.set instanceId r.role
    quarantinedInstances := s.quarantinedInstances.erase instanceId }

def reconcileInstance (instanceId : String) (r : Reconciliation) (s : PDScheduler) :
    Except Exc PDScheduler :=
  match s.quarantinedInstances.get? instanceId with
  | none => .error (.value ("instance " ++ quoted instanceId ++ " is not quarantined"))
  | some record =>
    match reconcileChecks record r with
    | .error e => .error e
    | .ok () => .ok (restoreCapacity instanceId r s)

/-! ## Selection -/

def admissionReady (s : PDScheduler) : Bool :=
  match s.workerRegistry with
  | none => true
  | some view => view.worldFresh

def registryAllows (s : PDScheduler) (instanceId : String) : Bool :=
  match s.workerRegistry with
  | none => true
  | some view => decide (instanceId ∈ view.routable)

def sampleIsFresh (s : PDScheduler) (now : Time) (instanceId : String) : Bool :=
  match s.kvUsage.get? instanceId with
  | none => false
  | some sample =>
    decide (s.instanceEpochs.get? instanceId = some sample.instanceEpoch) &&
      decide (now - sample.sampledAt ≤ s.kvUsageStaleAfter)

def usageBelowWatermark (s : PDScheduler) (instanceId : String) : Bool :=
  match s.kvUsage.get? instanceId with
  | none => false
  | some sample => decide (sample.ratio < s.highWatermark)

def requirementMet (required : Option String) (instanceId : String) : Bool :=
  match required with
  | none => true
  | some r => decide (instanceId = r)

def prefillCandidates (s : PDScheduler) (required : Option String) : List (String × Int) :=
  s.prefillLoad.entries.filter fun e =>
    s.registryAllows e.1 && requirementMet required e.1

/-- Shortest queue; the first of equally loaded instances. -/
def pickPrefillInstance (required : Option String) (s : PDScheduler) :
    Option String × PDScheduler :=
  match firstBest (fun a b => decide (a.2 < b.2)) (s.prefillCandidates required) with
  | none => (none, s)
  | some (best, load) =>
    (some best, { s with prefillLoad := s.prefillLoad.set best (load + 1) })

def decodeCandidates (s : PDScheduler) (now : Time) (required : Option String) :
    List (String × SlotCount) :=
  s.decodeSlots.entries.filter fun e =>
    decide (0 < e.2.free) && s.registryAllows e.1 && s.sampleIsFresh now e.1 &&
      s.usageBelowWatermark e.1 && requirementMet required e.1

/-- Most free slots; the first of equally free instances. -/
def pickDecodeInstance (now : Time) (required : Option String) (s : PDScheduler) :
    Option String × PDScheduler :=
  match firstBest (fun a b => decide (b.2.free < a.2.free)) (s.decodeCandidates now required) with
  | none => (none, s)
  | some (best, slots) =>
    (some best, { s with
      decodeSlots := s.decodeSlots.set best { slots with free := slots.free - 1 } })

/-! ## Decode slot leases -/

def newLease (now : Time) (instanceId reqId operationId : String) (s : PDScheduler) :
    DecodeSlotLease :=
  { leaseId := s.secrets
    operationId := operationId
    reqId := reqId
    instanceId := instanceId
    state := .reserved
    reservedAt := now }

def reserveDecodeSlot (now : Time) (instanceId reqId operationId : String)
    (s : PDScheduler) : Except Exc (Option DecodeSlotLease × PDScheduler) :=
  if operationId = "" then
    .error (.assertion "decode slot reservation requires operation_id")
  else
    match s.slotLeases.get? operationId with
    | some existing =>
      .ok (if existing.state = .released then none else some existing, s)
    | none =>
      match s.decodeSlots.get? instanceId with
      | none => .ok (none, s)
      | some slots =>
        if s.registryAllows instanceId = false ∨ slots.free ≤ 0 then .ok (none, s)
        else
          let lease := newLease now instanceId reqId operationId s
          .ok (some lease, { s with
            decodeSlots :=
              s.decodeSlots.set instanceId { slots with free := slots.free - 1 }
            slotLeases := s.slotLeases.set operationId lease
            secrets := s.secrets + 1 })

def adoptPickedDecodeSlot (now : Time) (instanceId reqId operationId : String)
    (s : PDScheduler) : Except Exc (DecodeSlotLease × PDScheduler) :=
  if operationId = "" then
    .error (.assertion "decode slot adoption requires operation_id")
  else if s.slotLeases.contains operationId then
    .error (.value "decode operation already has a slot lease")
  else if s.decodeSlots.contains instanceId then
    let lease := newLease now instanceId reqId operationId s
    .ok (lease, { s with
      slotLeases := s.slotLeases.set operationId lease
      secrets := s.secrets + 1 })
  else .error (.value "unknown decode instance")

/-- Overwrite the state of a lease. -/
def markLease (operationId : String) (lease : DecodeSlotLease) (state : LeaseState)
    (s : PDScheduler) : PDScheduler :=
  { s with slotLeases := s.slotLeases.set operationId { lease with state := state } }

/-- One slot returned, capped at the maximum. -/
def creditSlot (instanceId : String) (s : PDScheduler) : PDScheduler :=
  match s.decodeSlots.get? instanceId with
  | none => s
  | some slots =>
    { s with decodeSlots :=
        s.decodeSlots.set instanceId { slots with free := min slots.max (slots.free + 1) } }

def commitDecodeSlot (operationId : String) (s : PDScheduler) : Except Exc PDScheduler :=
  match s.slotLeases.get? operationId with
  | none => .error (.key operationId)
  | some lease =>
    .ok (if lease.state = .reserved then markLease operationId lease .active s else s)

def releaseDecodeSlot (operationId : String) (s : PDScheduler) :
    Except Exc (Bool × PDScheduler) :=
  match s.slotLeases.get? operationId with
  | none => .ok (false, s)
  | some lease =>
    match lease.state with
    | .released => .ok (false, s)
    | .quarantined => .ok (false, s)
    | .active => .error (.value "cannot rollback an active decode slot")
    | .reserved =>
      .ok (true, creditSlot lease.instanceId (markLease operationId lease .released s))

def quarantineDecodeSlot (operationId : String) (s : PDScheduler) : Except Exc PDScheduler :=
  match s.slotLeases.get? operationId with
  | none => .error (.key operationId)
  | some lease =>
    if lease.state = .released then
      .error (.value "cannot quarantine a released decode slot")
    else .ok (markLease operationId lease .quarantined s)

/-- A lease id was given and it is not the lease's. -/
def leaseIdMismatch (leaseId : Option Nat) (lease : DecodeSlotLease) : Bool :=
  match leaseId with
  | none => false
  | some id => decide (lease.leaseId ≠ id)

def releaseQuarantinedDecodeSlot (operationId : String) (leaseId : Option Nat)
    (cleanupId : Option String) (s : PDScheduler) : Except Exc (Bool × PDScheduler) :=
  match s.slotLeases.get? operationId with
  | none => .ok (false, s)
  | some lease =>
    if leaseIdMismatch leaseId lease then
      .error (.value "decode slot lease id mismatch")
    else if lease.state = .released then
      if cleanupId.isSome ∧ lease.releaseCleanupId ≠ cleanupId then
        .error (.value "released slot replay changed cleanup id")
      else .ok (false, s)
    else if lease.state = .quarantined then
      let marked := { lease with releaseCleanupId := cleanupId }
      .ok (true, creditSlot lease.instanceId (markLease operationId marked .released s))
    else .ok (false, s)

/-- One slot taken back, if the instance still has slots. -/
def debitSlot (instanceId : String) (s : PDScheduler) : PDScheduler :=
  match s.decodeSlots.get? instanceId with
  | none => s
  | some slots =>
    { s with decodeSlots :=
        s.decodeSlots.set instanceId { slots with free := max 0 (slots.free - 1) } }

/-- The lease of a staged release in the state it had before. -/
def unreleaseLease (operationId : String) (lease : DecodeSlotLease) (state : LeaseState)
    (s : PDScheduler) : PDScheduler :=
  { s with slotLeases :=
      s.slotLeases.set operationId { lease with state := state, releaseCleanupId := none } }

/-- Roll back the release of a quarantined slot. -/
def restoreQuarantinedDecodeSlot (operationId : String) (leaseId : Nat) (cleanupId : String)
    (s : PDScheduler) : Except Exc PDScheduler :=
  match s.slotLeases.get? operationId with
  | none => .error (.key operationId)
  | some lease =>
    if lease.leaseId ≠ leaseId then
      .error (.value "decode slot lease id mismatch")
    else if lease.state ≠ .released ∨ lease.releaseCleanupId ≠ some cleanupId then
      .error (.value "decode slot was not released by this cleanup")
    else .ok (debitSlot lease.instanceId (unreleaseLease operationId lease .quarantined s))

/-- Roll back a staged release of the whole world to the state of the frozen lease. -/
def restoreReplacedDecodeSlot (operationId : String) (leaseId : Nat) (cleanupId : String)
    (previousState : LeaseState) (s : PDScheduler) : Except Exc PDScheduler :=
  if previousState = .released then
    .error (.value "invalid replacement lease state")
  else
    match s.slotLeases.get? operationId with
    | none => .error (.key operationId)
    | some lease =>
      if lease.leaseId ≠ leaseId then
        .error (.value "decode slot lease id mismatch")
      else if lease.state = .released then
        if lease.releaseCleanupId ≠ some cleanupId then
          .error (.value "decode slot was not released by this cleanup")
        else .ok (debitSlot lease.instanceId (unreleaseLease operationId lease previousState s))
      else if lease.state ≠ .quarantined then
        .error (.value "replacement rollback requires quarantined/released slot")
      else .ok (unreleaseLease operationId lease previousState s)

/-! ## Feedback from the workers -/

def instanceEpoch (s : PDScheduler) (instanceId : String) : String :=
  (s.instanceEpochs.get? instanceId).getD "unknown"

def epochMatches (s : PDScheduler) (instanceId assignedEpoch : String) : Bool :=
  decide (assignedEpoch ≠ "") && decide (s.instanceEpochs.get? instanceId = some assignedEpoch)

/-- The epoch check of the two feedback methods. -/
def epochAdmits (s : PDScheduler) (instanceId : String) (assignedEpoch : Option String) :
    Bool :=
  match assignedEpoch with
  | none => true
  | some epoch => s.epochMatches instanceId epoch

def onPrefillDone (instanceId : String) (assignedEpoch : Option String) (s : PDScheduler) :
    Bool × PDScheduler :=
  if s.epochAdmits instanceId assignedEpoch = false then (false, s)
  else
    match s.prefillLoad.get? instanceId with
    | none => (false, s)
    | some load =>
      (true, { s with prefillLoad := s.prefillLoad.set instanceId (max 0 (load - 1)) })

/-- One slot returned, refused when the instance is already full. -/
def creditFinished (instanceId : String) (s : PDScheduler) : Bool × PDScheduler :=
  match s.decodeSlots.get? instanceId with
  | none => (false, s)
  | some slots =>
    if slots.max ≤ slots.free then (false, s)
    else (true, { s with
      decodeSlots := s.decodeSlots.set instanceId { slots with free := slots.free + 1 } })

/-- The operation of a call; an empty id counts as none. -/
def namedOperation (operationId : Option String) : Option String :=
  match operationId with
  | none => none
  | some op => if op = "" then none else some op

def onDecodeFinished (instanceId : String) (assignedEpoch operationId : Option String)
    (s : PDScheduler) : Bool × PDScheduler :=
  if s.epochAdmits instanceId assignedEpoch = false then (false, s)
  else
    match namedOperation operationId with
    | none => creditFinished instanceId s
    | some op =>
      match s.slotLeases.get? op with
      | none => (false, s)
      | some lease =>
        if lease.instanceId ≠ instanceId ∨ lease.state = .released ∨
            lease.state = .quarantined then (false, s)
        else creditFinished instanceId (markLease op lease .released s)

def updateKvUsage (instanceId : String) (sample : Option KVUsageSample) (s : PDScheduler) :
    PDScheduler :=
  match sample with
  | none => { s with kvUsage := s.kvUsage.erase instanceId }
  | some x =>
    let clamped : KVUsageSample := { x with ratio := max 0 (min 1 x.ratio) }
    { s with kvUsage := s.kvUsage.set instanceId clamped }

/-! ## What each method does to the capacity it manages -/

section Specs

variable {s t : PDScheduler} {now : Time} {instanceId operationId : String}

theorem registerInstance_ok {role : Role} {maxSlots : Int} {epoch : String}
    {active : List String}
    (h : s.registerInstance instanceId role maxSlots epoch active = .ok t) :
    (t = s ∧ s.instanceEpochs.contains instanceId = true) ∨
      (s.instanceEpochs.get? instanceId = none ∧
        s.quarantinedInstances.get? instanceId = none ∧
        t.slotLeases = s.slotLeases ∧
        t.quarantinedInstances = s.quarantinedInstances ∧
        (∃ e, t.instanceEpochs = s.instanceEpochs.set instanceId e) ∧
        (t.decodeSlots = s.decodeSlots ∨
          0 < maxSlots ∧
            t.decodeSlots = s.decodeSlots.set instanceId ⟨maxSlots, maxSlots⟩)) := by
  unfold registerInstance at h
  by_cases hq : s.quarantinedInstances.contains instanceId = true
  · simp [hq] at h
  have hqn : s.quarantinedInstances.get? instanceId = none := by
    simpa [Dict.contains] using hq
  by_cases ha : active = []
  · rw [if_neg hq, if_neg (not_not.mpr ha)] at h
    cases he : s.instanceEpochs.get? instanceId with
    | some existing =>
      simp only [he] at h
      split at h
      · cases h
      · cases h
        exact Or.inl ⟨rfl, by simp [he]⟩
    | none =>
      simp only [he] at h
      cases role with
      | prefill =>
        cases h
        exact Or.inr ⟨rfl, hqn, rfl, rfl, ⟨_, rfl⟩, Or.inl rfl⟩
      | decode =>
        simp only at h
        split at h
        · rename_i hpos
          cases h
          exact Or.inr ⟨rfl, hqn, rfl, rfl, ⟨_, rfl⟩, Or.inr ⟨hpos, rfl⟩⟩
        · cases h
      | other name =>
        cases h
  · simp [hq, ha] at h

theorem reconcileChecks_ok {record : QuarantineRecord} {r : Reconciliation}
    (h : reconcileChecks record r = .ok ()) :
    (r.role = .prefill ∨ r.role = .decode) ∧ (r.role = .decode → 0 < r.maxSlots) := by
  unfold reconcileChecks at h
  split_ifs at h with h₁ h₂ h₃ h₄ h₅ h₆ h₇ h₈
  refine ⟨or_iff_not_and_not.mpr h₆, fun hr => ?_⟩
  by_contra hm
  exact h₈ ⟨hr, not_lt.mp hm⟩

theorem reconcileInstance_ok {r : Reconciliation}
    (h : s.reconcileInstance instanceId r = .ok t) :
    t = restoreCapacity instanceId r s ∧
      s.quarantinedInstances.get? instanceId ≠ none ∧
      (r.role = .prefill ∨ r.role = .decode) ∧ (r.role = .decode → 0 < r.maxSlots) := by
  unfold reconcileInstance at h
  cases hq : s.quarantinedInstances.get? instanceId with
  | none =>
    simp [hq] at h
  | some record =>
    simp only [hq] at h
    cases hr : reconcileChecks record r with
    | error e =>
      simp [hr] at h
    | ok u =>
      simp only [hr, Except.ok.injEq] at h
      exact ⟨h.symm, by simp, reconcileChecks_ok hr⟩

theorem pickDecodeInstance_none {required : Option String}
    (h : s.pickDecodeInstance now required = (none, t)) : t = s := by
  unfold pickDecodeInstance at h
  split at h <;> simp_all

theorem pickDecodeInstance_some {required : Option String}
    (h : s.pickDecodeInstance now required = (some instanceId, t)) :
    ∃ slots, s.decodeSlots.get? instanceId = some slots ∧ 0 < slots.free ∧
      t = { s with
        decodeSlots := s.decodeSlots.set instanceId { slots with free := slots.free - 1 } } := by
  unfold pickDecodeInstance at h
  split at h
  · simp at h
  rename_i best slots hb
  simp only [Prod.mk.injEq, Option.some.injEq] at h
  obtain ⟨rfl, rfl⟩ := h
  obtain ⟨hm, hp⟩ := List.mem_filter.mp (firstBest_mem hb)
  simp only [Bool.and_eq_true, decide_eq_true_eq] at hp
  exact ⟨slots, (Dict.mem_entries_iff _ _ _).mp hm, hp.1.1.1.1, rfl⟩

theorem reserveDecodeSlot_ok {reqId : String} {result : Option DecodeSlotLease}
    (h : s.reserveDecodeSlot now instanceId reqId operationId = .ok (result, t)) :
    t = s ∧ (result ≠ none → s.slotLeases.contains operationId = true) ∨
      ∃ slots, s.slotLeases.get? operationId = none ∧
        s.decodeSlots.get? instanceId = some slots ∧ 0 < slots.free ∧
        result = some (newLease now instanceId reqId operationId s) ∧
        t = { s with
          decodeSlots := s.decodeSlots.set instanceId { slots with free := slots.free - 1 }
          slotLeases := s.slotLeases.set operationId (newLease now instanceId reqId operationId s)
          secrets := s.secrets + 1 } := by
  unfold reserveDecodeSlot at h
  split_ifs at h with hop
  cases hl : s.slotLeases.get? operationId with
  | some existing =>
    simp only [hl, Except.ok.injEq, Prod.mk.injEq] at h
    exact Or.inl ⟨h.2.symm, fun _ => by simp [hl]⟩
  | none =>
    cases hd : s.decodeSlots.get? instanceId with
    | none =>
      simp only [hl, hd, Except.ok.injEq, Prod.mk.injEq] at h
      exact Or.inl ⟨h.2.symm, fun hn => absurd h.1.symm hn⟩
    | some slots =>
      simp only [hl, hd] at h
      split_ifs at h with hfull
      · simp only [Except.ok.injEq, Prod.mk.injEq] at h
        exact Or.inl ⟨h.2.symm, fun hn => absurd h.1.symm hn⟩
      · simp only [Except.ok.injEq, Prod.mk.injEq] at h
        push Not at hfull
        exact Or.inr ⟨slots, rfl, rfl, hfull.2, h.1.symm, h.2.symm⟩

theorem adoptPickedDecodeSlot_ok {reqId : String} {lease : DecodeSlotLease}
    (h : s.adoptPickedDecodeSlot now instanceId reqId operationId = .ok (lease, t)) :
    s.slotLeases.get? operationId = none ∧
      lease = newLease now instanceId reqId operationId s ∧
      t = { s with
        slotLeases := s.slotLeases.set operationId lease
        secrets := s.secrets + 1 } := by
  unfold adoptPickedDecodeSlot at h
  split_ifs at h with hop hl hd
  simp only [Except.ok.injEq, Prod.mk.injEq] at h
  obtain ⟨rfl, rfl⟩ := h
  exact ⟨by simpa [Dict.contains] using hl, rfl, rfl⟩

end Specs

end PDScheduler

theorem onPrefillDone_leases (s : PDScheduler) (instanceId : String) (epoch : Option String) :
    (s.onPrefillDone instanceId epoch).2.slotLeases = s.slotLeases := by
  unfold PDScheduler.onPrefillDone
  split
  · rfl
  · split <;> rfl

end PrismServe
