import PrismServe.Scheduler.PDScheduler

/-!
# Quarantined instances

An instance whose state is uncertain is taken out of service until it reports
that nothing of the past is left on it.  Over any sequence of calls of the
scheduler's methods, from the quarantine of an instance to the reconciliation
that ends it, no call grants capacity on it, and its record only grows.

The two methods that admit an instance are also written as the statements of
the source, with the state as an exception leaves it: a failing call changes
nothing.
-/

namespace PrismServe

open Lib

namespace PDScheduler

/-! ## Registration and reconciliation, statement by statement -/

/-- A method as a sequence of statements; an exception keeps the state it finds. -/
abbrev Statements := EStateM Exc PDScheduler

def registerStatements (instanceId : String) (role : Role) (maxSlots : Int)
    (instanceEpoch : String) (activeRequestIds : List String) : Statements Unit := do
  if (← get).quarantinedInstances.contains instanceId then
    throw (.quarantined instanceId)
  if activeRequestIds ≠ [] then
    throw (.value ("instance still owns active requests: " ++ quotedList activeRequestIds))
  let epoch := registrationEpoch instanceId instanceEpoch
  match (← get).instanceEpochs.get? instanceId with
  | some existing =>
    if existing ≠ epoch then
      throw (.value ("instance epoch changed without reconciliation: instance_id=" ++
        quoted instanceId ++ " existing_epoch=" ++ quoted existing ++
        " epoch=" ++ quoted epoch))
  | none => do
      match role with
      | .prefill =>
        modify fun s => { s with prefillLoad := s.prefillLoad.set instanceId 0 }
      | .decode => do
          if ¬ 0 < maxSlots then
            throw (.assertion ("decode instance must specify max_slots > 0, got max_slots=" ++
              toString maxSlots))
          modify fun s =>
            { s with decodeSlots := s.decodeSlots.set instanceId ⟨maxSlots, maxSlots⟩ }
      | .other name =>
        throw (.value ("unknown role " ++ quoted name ++ "; expected 'prefill' or 'decode'"))
      modify fun s => { s with instanceEpochs := s.instanceEpochs.set instanceId epoch }
      modify fun s => { s with instanceRoles := s.instanceRoles.set instanceId role }

def reconcileStatements (instanceId : String) (r : Reconciliation) : Statements Unit := do
  match (← get).quarantinedInstances.get? instanceId with
  | none => throw (.value ("instance " ++ quoted instanceId ++ " is not quarantined"))
  | some record => do
      match reconcileChecks record r with
      | .error e => throw e
      | .ok () => do
          if r.role = .prefill then
            modify fun s => { s with prefillLoad := s.prefillLoad.set instanceId 0 }
          else
            modify fun s => { s with
              decodeSlots := s.decodeSlots.set instanceId ⟨r.maxSlots, r.maxSlots⟩ }
          modify fun s => { s with
            instanceEpochs := s.instanceEpochs.set instanceId r.instanceEpoch }
          modify fun s => { s with instanceRoles := s.instanceRoles.set instanceId r.role }
          modify fun s => { s with
            quarantinedInstances := s.quarantinedInstances.erase instanceId }

/-- How a method that changes nothing when it fails runs as statements. -/
def outcome (r : Except Exc PDScheduler) (s : PDScheduler) : EStateM.Result Exc PDScheduler Unit :=
  match r with
  | .ok t => .ok () t
  | .error e => .error e s

theorem registerStatements_run (instanceId : String) (role : Role) (maxSlots : Int)
    (epoch : String) (active : List String) (s : PDScheduler) :
    (registerStatements instanceId role maxSlots epoch active).run s =
      outcome (s.registerInstance instanceId role maxSlots epoch active) s := by
  unfold registerStatements registerInstance
  by_cases hq : s.quarantinedInstances.contains instanceId = true
  · simp [hq, outcome]
  by_cases ha : active = []
  · cases he : s.instanceEpochs.get? instanceId with
    | some existing =>
      by_cases hsame : existing = registrationEpoch instanceId epoch
      · simp [hq, ha, he, hsame, outcome]
      · simp [hq, ha, he, hsame, outcome]
    | none =>
      cases role with
      | decode =>
        by_cases hm : 0 < maxSlots
        · simp [hq, ha, he, hm, outcome]
        · simp [hq, ha, he, hm, outcome]
      | _ =>
        simp [hq, ha, he, outcome]
  · simp [hq, ha, outcome]

theorem reconcileStatements_run (instanceId : String) (r : Reconciliation) (s : PDScheduler) :
    (reconcileStatements instanceId r).run s = outcome (s.reconcileInstance instanceId r) s := by
  unfold reconcileStatements reconcileInstance
  cases hq : s.quarantinedInstances.get? instanceId with
  | none =>
    simp [hq, outcome]
  | some record =>
    cases hc : reconcileChecks record r with
    | error e =>
      simp [hq, hc, outcome]
    | ok _ =>
      by_cases hrole : r.role = .prefill
      · simp [hq, hc, hrole, outcome, restoreCapacity]
      · simp [hq, hc, hrole, outcome, restoreCapacity]

/-- A failing registration changes nothing. -/
theorem registerStatements_error {instanceId : String} {role : Role} {maxSlots : Int}
    {epoch : String} {active : List String} {s t : PDScheduler} {e : Exc}
    (h : (registerStatements instanceId role maxSlots epoch active).run s = .error e t) :
    t = s := by
  rw [registerStatements_run] at h
  unfold outcome at h
  split at h <;> cases h
  rfl

/-- A failing reconciliation changes nothing. -/
theorem reconcileStatements_error {instanceId : String} {r : Reconciliation} {s t : PDScheduler}
    {e : Exc} (h : (reconcileStatements instanceId r).run s = .error e t) : t = s := by
  rw [reconcileStatements_run] at h
  unfold outcome at h
  split at h <;> cases h
  rfl

end PDScheduler

/-- The methods of the scheduler that change its state, with their arguments. -/
inductive SchedulerCall
  | setRegistry (view : Option RegistryView)
  | updateKvUsage (instanceId : String) (sample : Option KVUsageSample)
  | register (instanceId : String) (role : Role) (maxSlots : Int) (epoch : String)
      (activeRequestIds : List String)
  | deregister (instanceId : String)
  | quarantineInstance (now : Time) (instanceId : String)
      (uncertainTransfer uncertainDispatch : Option UncertainRef)
  | reconcile (instanceId : String) (report : PDScheduler.Reconciliation)
  | pickPrefill (required : Option String)
  | pickDecode (now : Time) (required : Option String)
  | reserve (now : Time) (instanceId reqId operationId : String)
  | adopt (now : Time) (instanceId reqId operationId : String)
  | commit (operationId : String)
  | release (operationId : String)
  | quarantineSlot (operationId : String)
  | releaseQuarantined (operationId : String) (leaseId : Option Nat)
      (cleanupId : Option String)
  | restoreQuarantined (operationId : String) (leaseId : Nat) (cleanupId : String)
  | restoreReplaced (operationId : String) (leaseId : Nat) (cleanupId : String)
      (previousState : LeaseState)
  | prefillDone (instanceId : String) (epoch : Option String)
  | decodeFinished (instanceId : String) (epoch operationId : Option String)
  deriving DecidableEq, Repr

namespace PDScheduler

/-- The state after a method that changes nothing when it fails. -/
def orSelf (s : PDScheduler) (r : Except Exc PDScheduler) : PDScheduler :=
  match r with
  | .ok t => t
  | .error _ => s

/-- The same for a method that also returns something. -/
def orSelfWith {α : Type} (s : PDScheduler) (r : Except Exc (α × PDScheduler)) : PDScheduler :=
  match r with
  | .ok (_, t) => t
  | .error _ => s

/-- The state after a call. -/
def after (s : PDScheduler) : SchedulerCall → PDScheduler
  | .setRegistry view => { s with workerRegistry := view }
  | .updateKvUsage i sample => s.updateKvUsage i sample
  | .register i role m epoch active => s.orSelf (s.registerInstance i role m epoch active)
  | .deregister i => s.deregisterInstance i
  | .quarantineInstance now i transfer dispatch => s.quarantineInstance now i transfer dispatch
  | .reconcile i r => s.orSelf (s.reconcileInstance i r)
  | .pickPrefill required => (s.pickPrefillInstance required).2
  | .pickDecode now required => (s.pickDecodeInstance now required).2
  | .reserve now i reqId op => s.orSelfWith (s.reserveDecodeSlot now i reqId op)
  | .adopt now i reqId op => s.orSelfWith (s.adoptPickedDecodeSlot now i reqId op)
  | .commit op => s.orSelf (s.commitDecodeSlot op)
  | .release op => s.orSelfWith (s.releaseDecodeSlot op)
  | .quarantineSlot op => s.orSelf (s.quarantineDecodeSlot op)
  | .releaseQuarantined op leaseId cleanupId =>
    s.orSelfWith (s.releaseQuarantinedDecodeSlot op leaseId cleanupId)
  | .restoreQuarantined op leaseId cleanupId =>
    s.orSelf (s.restoreQuarantinedDecodeSlot op leaseId cleanupId)
  | .restoreReplaced op leaseId cleanupId previous =>
    s.orSelf (s.restoreReplacedDecodeSlot op leaseId cleanupId previous)
  | .prefillDone i epoch => (s.onPrefillDone i epoch).2
  | .decodeFinished i epoch op => (s.onDecodeFinished i epoch op).2

/-- The state after a sequence of calls. -/
def afterAll (s : PDScheduler) (calls : List SchedulerCall) : PDScheduler :=
  calls.foldl after s

/-- The instance on which a call grants prefill load or a decode slot. -/
def granted (s : PDScheduler) : SchedulerCall → Option String
  | .pickPrefill required => (s.pickPrefillInstance required).1
  | .pickDecode now required => (s.pickDecodeInstance now required).1
  | .reserve now i reqId op =>
    match s.slotLeases.get? op, s.reserveDecodeSlot now i reqId op with
    | none, .ok (some lease, _) => some lease.instanceId
    | _, _ => none
  | .adopt now i reqId op =>
    match s.adoptPickedDecodeSlot now i reqId op with
    | .ok (lease, _) => some lease.instanceId
    | .error _ => none
  | _ => none

/-! ## What a call does to the capacity -/

/-- No instance gains capacity, and the quarantines stay. -/
structure Contained (s t : PDScheduler) : Prop where
  prefill : ∀ j, s.prefillLoad.get? j = none → t.prefillLoad.get? j = none
  decode : ∀ j, s.decodeSlots.get? j = none → t.decodeSlots.get? j = none
  quarantined : t.quarantinedInstances = s.quarantinedInstances

namespace Contained

variable {s t u : PDScheduler}

theorem refl (s : PDScheduler) : Contained s s := ⟨fun _ h => h, fun _ h => h, rfl⟩

theorem trans (h : Contained s t) (h' : Contained t u) : Contained s u :=
  ⟨fun j hj => h'.prefill j (h.prefill j hj), fun j hj => h'.decode j (h.decode j hj),
    h'.quarantined.trans h.quarantined⟩

/-- Changes that leave both tables and the quarantines alone. -/
theorem of_eq (hp : t.prefillLoad = s.prefillLoad) (hd : t.decodeSlots = s.decodeSlots)
    (hq : t.quarantinedInstances = s.quarantinedInstances) : Contained s t :=
  ⟨fun j h => by rw [hp, h], fun j h => by rw [hd, h], hq⟩

theorem setSlots {i : String} {slots : SlotCount} (h : s.decodeSlots.get? i = some slots)
    (slots' : SlotCount) : Contained s { s with decodeSlots := s.decodeSlots.set i slots' } := by
  refine ⟨fun _ h => h, fun j hj => ?_, rfl⟩
  rw [Dict.get?_set_of_ne _ _ (by rintro rfl; rw [h] at hj; cases hj), hj]

theorem setLoad {i : String} {load : Int} (h : s.prefillLoad.get? i = some load) (load' : Int) :
    Contained s { s with prefillLoad := s.prefillLoad.set i load' } := by
  refine ⟨fun j hj => ?_, fun _ h => h, rfl⟩
  rw [Dict.get?_set_of_ne _ _ (by rintro rfl; rw [h] at hj; cases hj), hj]

theorem creditSlot (i : String) (s : PDScheduler) : Contained s (s.creditSlot i) := by
  unfold PDScheduler.creditSlot
  split
  · exact refl s
  · rename_i slots h
    exact setSlots h _

theorem debitSlot (i : String) (s : PDScheduler) : Contained s (s.debitSlot i) := by
  unfold PDScheduler.debitSlot
  split
  · exact refl s
  · rename_i slots h
    exact setSlots h _

theorem creditFinished (i : String) (s : PDScheduler) : Contained s (s.creditFinished i).2 := by
  unfold PDScheduler.creditFinished
  split
  · exact refl s
  rename_i slots h
  split
  · exact refl s
  · exact setSlots h _

theorem markLease (op : String) (lease : DecodeSlotLease) (state : LeaseState)
    (s : PDScheduler) : Contained s (s.markLease op lease state) := of_eq rfl rfl rfl

theorem unreleaseLease (op : String) (lease : DecodeSlotLease) (state : LeaseState)
    (s : PDScheduler) : Contained s (s.unreleaseLease op lease state) := of_eq rfl rfl rfl

end Contained

section Calls

variable {s t : PDScheduler} {i : String} {record : QuarantineRecord}

theorem orSelf_rule {P : PDScheduler → Prop} {r : Except Exc PDScheduler} (hs : P s)
    (h : ∀ t, r = .ok t → P t) : P (s.orSelf r) := by
  cases r with
  | error e =>
    exact hs
  | ok t =>
    exact h t rfl

theorem orSelfWith_rule {P : PDScheduler → Prop} {α : Type} {r : Except Exc (α × PDScheduler)}
    (hs : P s) (h : ∀ a t, r = .ok (a, t) → P t) : P (s.orSelfWith r) := by
  cases r with
  | error e =>
    exact hs
  | ok r =>
    exact h r.1 r.2 rfl

theorem pickPrefillInstance_spec (required : Option String) :
    Contained s (s.pickPrefillInstance required).2 ∧
      ∀ j, (s.pickPrefillInstance required).1 = some j → s.prefillLoad.get? j ≠ none := by
  unfold pickPrefillInstance
  split
  · exact ⟨.refl s, by simp⟩
  rename_i best load hbest
  have hload : s.prefillLoad.get? best = some load :=
    (Dict.mem_entries_iff _ _ _).mp (List.mem_filter.mp (firstBest_mem hbest)).1
  refine ⟨.setLoad hload _, ?_⟩
  rintro j ⟨⟩
  simp [hload]

theorem pickDecodeInstance_spec (now : Time) (required : Option String) :
    Contained s (s.pickDecodeInstance now required).2 ∧
      ∀ j, (s.pickDecodeInstance now required).1 = some j → s.decodeSlots.get? j ≠ none := by
  unfold pickDecodeInstance
  split
  · exact ⟨.refl s, by simp⟩
  rename_i best slots hbest
  have hslots : s.decodeSlots.get? best = some slots :=
    (Dict.mem_entries_iff _ _ _).mp (List.mem_filter.mp (firstBest_mem hbest)).1
  refine ⟨.setSlots hslots _, ?_⟩
  rintro j ⟨⟩
  simp [hslots]

theorem reserveDecodeSlot_contained {now : Time} {reqId op : String}
    {a : Option DecodeSlotLease} (h : s.reserveDecodeSlot now i reqId op = .ok (a, t)) :
    Contained s t := by
  rcases reserveDecodeSlot_ok h with ⟨rfl, -⟩ | ⟨slots, -, hslots, -, -, rfl⟩
  · exact .refl t
  · exact (Contained.setSlots hslots _).trans (.of_eq rfl rfl rfl)

/-- A call that neither admits an instance nor takes one out of service. -/
def isOrdinary : SchedulerCall → Bool
  | .register .. => false
  | .quarantineInstance .. => false
  | .reconcile .. => false
  | _ => true

/-- An ordinary call gives capacity to no instance that has none. -/
theorem contained_after (c : SchedulerCall) (hc : isOrdinary c = true) :
    Contained s (s.after c) := by
  cases c with
  | setRegistry view =>
    exact .of_eq rfl rfl rfl
  | updateKvUsage i sample =>
    cases sample <;> exact .of_eq rfl rfl rfl
  | deregister i =>
    refine ⟨fun j hj => ?_, fun j hj => ?_, rfl⟩
    · simp only [after, deregisterInstance, Dict.get?_erase, hj, ite_self]
    · simp only [after, deregisterInstance, Dict.get?_erase, hj, ite_self]
  | pickPrefill required =>
    exact (pickPrefillInstance_spec required).1
  | pickDecode now required =>
    exact (pickDecodeInstance_spec now required).1
  | reserve now i reqId op =>
    exact orSelfWith_rule (.refl s) fun _ _ h => reserveDecodeSlot_contained h
  | adopt now i reqId op =>
    refine orSelfWith_rule (.refl s) fun lease t h => ?_
    obtain ⟨-, -, rfl⟩ := adoptPickedDecodeSlot_ok h
    exact .of_eq rfl rfl rfl
  | commit op =>
    refine orSelf_rule (.refl s) fun t h => ?_
    unfold commitDecodeSlot at h
    split at h
    · cases h
    cases h
    split
    · exact .markLease _ _ _ _
    · exact .refl s
  | release op =>
    refine orSelfWith_rule (.refl s) fun b t h => ?_
    unfold releaseDecodeSlot at h
    split at h
    · cases h
      exact .refl s
    split at h <;> cases h
    · exact .refl s
    · exact .refl s
    · exact (Contained.markLease _ _ _ _).trans (.creditSlot _ _)
  | quarantineSlot op =>
    refine orSelf_rule (.refl s) fun t h => ?_
    unfold quarantineDecodeSlot at h
    split at h
    · cases h
    · split_ifs at h
      cases h
      exact .markLease _ _ _ _
  | releaseQuarantined op leaseId cleanupId =>
    refine orSelfWith_rule (.refl s) fun b t h => ?_
    unfold releaseQuarantinedDecodeSlot at h
    split at h
    · cases h
      exact .refl s
    split_ifs at h <;> cases h
    · exact .refl s
    · exact (Contained.markLease _ _ _ _).trans (.creditSlot _ _)
    · exact .refl s
  | restoreQuarantined op leaseId cleanupId =>
    refine orSelf_rule (.refl s) fun t h => ?_
    unfold restoreQuarantinedDecodeSlot at h
    split at h
    · cases h
    · split_ifs at h
      cases h
      exact (Contained.unreleaseLease _ _ _ _).trans (.debitSlot _ _)
  | restoreReplaced op leaseId cleanupId previous =>
    refine orSelf_rule (.refl s) fun t h => ?_
    unfold restoreReplacedDecodeSlot at h
    split_ifs at h
    split at h
    · cases h
    · split_ifs at h <;> cases h
      · exact (Contained.unreleaseLease _ _ _ _).trans (.debitSlot _ _)
      · exact .unreleaseLease _ _ _ _
  | prefillDone i epoch =>
    change Contained s (s.onPrefillDone i epoch).2
    unfold onPrefillDone
    split_ifs
    · exact .refl s
    · split
      · exact .refl s
      · rename_i load hload
        exact .setLoad hload _
  | decodeFinished i epoch op =>
    change Contained s (s.onDecodeFinished i epoch op).2
    unfold onDecodeFinished
    split_ifs
    · exact .refl s
    · split
      · exact .creditFinished _ _
      split
      · exact .refl s
      · split_ifs
        · exact .refl s
        · exact (Contained.markLease _ _ _ _).trans (.creditFinished _ _)
  | _ =>
    cases hc

/-! ## Exclusion -/

/-- A quarantined instance has no entry in the tables of capacity. -/
def Excludes (s : PDScheduler) : Prop :=
  ∀ i record, s.quarantinedInstances.get? i = some record →
    s.prefillLoad.get? i = none ∧ s.decodeSlots.get? i = none

theorem Excludes.contained (h : Excludes s) (hst : Contained s t) : Excludes t := by
  intro i record hi
  rw [hst.quarantined] at hi
  exact ⟨hst.prefill i (h i record hi).1, hst.decode i (h i record hi).2⟩

/-- A registration that succeeds is one of an instance that is not quarantined. -/
theorem registerInstance_cases {role : Role} {m : Int} {epoch : String} {active : List String}
    (h : s.registerInstance i role m epoch active = .ok t) :
    s.quarantinedInstances.get? i = none ∧
      t.quarantinedInstances = s.quarantinedInstances ∧
      ∀ j, j ≠ i → t.prefillLoad.get? j = s.prefillLoad.get? j ∧
        t.decodeSlots.get? j = s.decodeSlots.get? j := by
  unfold registerInstance at h
  by_cases hq : s.quarantinedInstances.contains i = true
  · rw [if_pos hq] at h
    cases h
  have hnone : s.quarantinedInstances.get? i = none := by simpa [Dict.contains] using hq
  refine ⟨hnone, ?_⟩
  rw [if_neg hq] at h
  by_cases ha : active ≠ []
  · rw [if_pos ha] at h
    cases h
  rw [if_neg ha] at h
  dsimp only at h
  split at h
  · split_ifs at h
    cases h
    exact ⟨rfl, fun j _ => ⟨rfl, rfl⟩⟩
  · cases role with
    | prefill =>
      cases h
      exact ⟨rfl, fun j hj => ⟨Dict.get?_set_of_ne _ _ hj, rfl⟩⟩
    | decode =>
      dsimp only at h
      split_ifs at h
      cases h
      exact ⟨rfl, fun j hj => ⟨rfl, Dict.get?_set_of_ne _ _ hj⟩⟩
    | other name =>
      cases h

theorem Excludes.register (h : Excludes s) (role : Role) (m : Int) (epoch : String)
    (active : List String) : Excludes (s.after (.register i role m epoch active)) := by
  refine orSelf_rule h fun t hr => ?_
  obtain ⟨hnone, hq, hother⟩ := registerInstance_cases hr
  intro j record hj
  rw [hq] at hj
  have hne : j ≠ i := by
    rintro rfl
    rw [hnone] at hj
    cases hj
  rw [(hother j hne).1, (hother j hne).2]
  exact h j record hj

theorem Excludes.quarantine (h : Excludes s) (now : Time)
    (transfer dispatch : Option UncertainRef) :
    Excludes (s.quarantineInstance now i transfer dispatch) := by
  intro j record hj
  unfold quarantineInstance at hj ⊢
  split
  · rename_i existing hexisting
    simp only [hexisting, Dict.get?_set] at hj
    split at hj
    · rename_i hji
      subst hji
      exact h j existing hexisting
    · exact h j record hj
  · rename_i hnone
    simp only [hnone, Dict.get?_set] at hj
    by_cases hji : j = i
    · subst hji
      simp
    · simp only [Dict.get?_erase, if_neg hji]
      exact h j record (by simpa [hji] using hj)

theorem Excludes.reconcile (h : Excludes s) (r : Reconciliation) :
    Excludes (s.after (.reconcile i r)) := by
  refine orSelf_rule h fun t hr => ?_
  unfold reconcileInstance at hr
  split at hr
  · cases hr
  split at hr <;> cases hr
  intro j record hj
  simp only [restoreCapacity, Dict.get?_erase] at hj
  split at hj
  · cases hj
  rename_i hne
  have hj' := h j record hj
  simp only [restoreCapacity]
  split_ifs <;> simp [Dict.get?_set_of_ne _ _ hne, hj']

theorem Excludes.after (h : Excludes s) (c : SchedulerCall) : Excludes (s.after c) := by
  cases hc : isOrdinary c with
  | true =>
    exact h.contained (contained_after c hc)
  | false =>
    cases c with
    | register i role m epoch active =>
      exact h.register role m epoch active
    | quarantineInstance now i transfer dispatch =>
      exact h.quarantine now transfer dispatch
    | reconcile i r =>
      exact h.reconcile r
    | _ =>
      cases hc

theorem Excludes.afterAll (h : Excludes s) (calls : List SchedulerCall) :
    Excludes (s.afterAll calls) := by
  induction calls generalizing s with
  | nil =>
    exact h
  | cons c rest ih =>
    exact ih (h.after c)

/-- Nothing is granted on an instance without capacity. -/
theorem granted_ne (hp : s.prefillLoad.get? i = none) (hd : s.decodeSlots.get? i = none)
    (c : SchedulerCall) : s.granted c ≠ some i := by
  cases c with
  | pickPrefill required =>
    exact fun h => (pickPrefillInstance_spec required).2 i h hp
  | pickDecode now required =>
    exact fun h => (pickDecodeInstance_spec now required).2 i h hd
  | reserve now j reqId op =>
    intro h
    simp only [granted] at h
    split at h
    · rename_i lease t hnone hr
      rcases reserveDecodeSlot_ok hr with ⟨-, hheld⟩ | ⟨slots, -, hslots, -, hlease, -⟩
      · simp [Dict.contains, hnone] at hheld
      cases hlease
      obtain rfl : j = i := Option.some.inj h
      rw [hd] at hslots
      cases hslots
    · cases h
  | adopt now j reqId op =>
    intro h
    simp only [granted] at h
    split at h
    · rename_i lease t hr
      obtain ⟨-, rfl, -⟩ := adoptPickedDecodeSlot_ok hr
      obtain rfl : j = i := Option.some.inj h
      unfold adoptPickedDecodeSlot at hr
      split_ifs at hr with hop hl hslots
      simp [Dict.contains, hd] at hslots
    · cases h
  | _ =>
    exact fun h => by cases h

end Calls

/-! ## The record of a quarantine -/

/-- A later record of the same quarantine: what was uncertain stays on record. -/
structure Continues (old new : QuarantineRecord) : Prop where
  token : new.reconciliationToken = old.reconciliationToken
  role : new.role = old.role
  transfers : old.uncertainTransferOperations ⊆ new.uncertainTransferOperations
  dispatches : old.uncertainDispatchCommands ⊆ new.uncertainDispatchCommands

/-- What a call finds uncertain about an instance is on its record. -/
def OnRecord (i : String) (record : QuarantineRecord) : SchedulerCall → Prop
  | .quarantineInstance _ j transfer dispatch => j = i →
      transfer.toList ⊆ record.uncertainTransferOperations ∧
        dispatch.toList ⊆ record.uncertainDispatchCommands
  | _ => True

/-- The call does not end the quarantine of an instance. -/
def KeepsQuarantine (i : String) (s : PDScheduler) (c : SchedulerCall) : Prop :=
  ∀ r t, c = .reconcile i r → s.reconcileInstance i r ≠ .ok t

/-- No call of a sequence ends the quarantine of an instance. -/
def Unreconciled (i : String) : PDScheduler → List SchedulerCall → Prop
  | _, [] => True
  | s, c :: rest => KeepsQuarantine i s c ∧ Unreconciled i (s.after c) rest

section Record

variable {s t : PDScheduler} {i : String} {record new : QuarantineRecord}

theorem Continues.refl (record : QuarantineRecord) : Continues record record :=
  ⟨rfl, rfl, List.Subset.refl _, List.Subset.refl _⟩

theorem Continues.trans {last : QuarantineRecord} (h : Continues record new)
    (h' : Continues new last) : Continues record last :=
  ⟨h'.token.trans h.token, h'.role.trans h.role, List.Subset.trans h.transfers h'.transfers,
    List.Subset.trans h.dispatches h'.dispatches⟩

theorem OnRecord.mono {c : SchedulerCall} (h : OnRecord i record c) (hc : Continues record new) :
    OnRecord i new c := by
  cases c with
  | quarantineInstance now j transfer dispatch =>
    exact fun hj =>
      ⟨List.Subset.trans (h hj).1 hc.transfers, List.Subset.trans (h hj).2 hc.dispatches⟩
  | _ =>
    trivial

/-- A reference is added to a list unless it is there. -/
theorem subset_extended (l : List UncertainRef) (x : Option UncertainRef) :
    let extended := match x with
      | none => l
      | some op => if op ∈ l then l else l ++ [op]
    l ⊆ extended ∧ x.toList ⊆ extended := by
  cases x with
  | none =>
    simp
  | some op =>
    dsimp only
    split_ifs with h
    · simp [h]
    · simp

theorem extendRecord_continues (record : QuarantineRecord)
    (transfer dispatch : Option UncertainRef) :
    Continues record (extendRecord record transfer dispatch) :=
  ⟨rfl, rfl, (subset_extended _ _).1, (subset_extended _ _).1⟩

/-- A call that does not end a quarantine continues its record. -/
theorem quarantined_after (h : s.quarantinedInstances.get? i = some record) (c : SchedulerCall)
    (hc : KeepsQuarantine i s c) :
    ∃ new, (s.after c).quarantinedInstances.get? i = some new ∧ Continues record new ∧
      OnRecord i new c := by
  cases hord : isOrdinary c with
  | true =>
    refine ⟨record, ?_, .refl record, ?_⟩
    · rw [(contained_after c hord).quarantined, h]
    · cases c <;> trivial
  | false =>
    cases c with
    | register j role m epoch active =>
      refine ⟨record, ?_, .refl record, trivial⟩
      refine orSelf_rule (P := fun t => t.quarantinedInstances.get? i = some record) h
        fun t hr => ?_
      rw [(registerInstance_cases hr).2.1, h]
    | quarantineInstance now j transfer dispatch =>
      change ∃ new, (s.quarantineInstance now j transfer dispatch).quarantinedInstances.get? i =
        some new ∧ _
      unfold quarantineInstance
      by_cases hji : i = j
      · subst hji
        rw [h]
        refine ⟨_, Dict.get?_set_self _ _ _, extendRecord_continues _ _ _, ?_⟩
        exact fun _ => ⟨(subset_extended _ _).2, (subset_extended _ _).2⟩
      · refine ⟨record, ?_, .refl record, fun hj => absurd hj.symm hji⟩
        split
        · rw [← h]
          exact Dict.get?_set_of_ne _ _ hji
        · rw [← h]
          exact Dict.get?_set_of_ne _ _ hji
    | reconcile j r =>
      refine ⟨record, ?_, .refl record, trivial⟩
      refine orSelf_rule (P := fun t => t.quarantinedInstances.get? i = some record) h
        fun t hr => ?_
      have hji : i ≠ j := by
        rintro rfl
        exact hc r t rfl hr
      unfold reconcileInstance at hr
      split at hr
      · cases hr
      · split at hr <;> cases hr
        rw [← h]
        exact Dict.get?_erase_of_ne _ hji
    | _ =>
      cases hord

theorem quarantined_afterAll :
    ∀ {calls : List SchedulerCall} {s : PDScheduler} {record : QuarantineRecord},
      s.quarantinedInstances.get? i = some record → Unreconciled i s calls →
      ∃ new, (s.afterAll calls).quarantinedInstances.get? i = some new ∧ Continues record new ∧
        ∀ c ∈ calls, OnRecord i new c
  | [], s, record, h, _ => ⟨record, h, .refl record, by simp⟩
  | c :: rest, s, record, h, hcalls => by
      obtain ⟨mid, hmid, hcont, hon⟩ := quarantined_after h c hcalls.1
      obtain ⟨new, hnew, hcont', hrest⟩ := quarantined_afterAll hmid hcalls.2
      refine ⟨new, hnew, hcont.trans hcont', fun c' hc' => ?_⟩
      rcases List.mem_cons.mp hc' with rfl | hc'
      · exact hon.mono hcont'
      · exact hrest c' hc'

theorem reconcileInstance_requires {r : Reconciliation}
    (hq : s.quarantinedInstances.get? i = some record) (h : s.reconcileInstance i r = .ok t) :
    r.reconciliationToken = record.reconciliationToken ∧
      (record.role ≠ .unknown → r.role = record.role) ∧ r.activeRequestIds = [] ∧
      r.activeTransferOperationIds = [] ∧ r.pendingDispatchCommandIds = [] := by
  unfold reconcileInstance at h
  rw [hq] at h
  dsimp only at h
  split at h
  · cases h
  rename_i hchecks
  unfold reconcileChecks at hchecks
  split_ifs at hchecks with h1 h2 h3 h4 h5 h6 h7
  push Not at h1 h2 h3 h4 h7
  exact ⟨h1, h7, h2, h3, h4⟩

end Record

/-- The scheduler of a new process. -/
def initial (highWatermark : Rat) (kvUsageStaleAfter : Time) (view : Option RegistryView) :
    PDScheduler :=
  { highWatermark := highWatermark, kvUsageStaleAfter := kvUsageStaleAfter, workerRegistry := view }

theorem initial_excludes (highWatermark : Rat) (kvUsageStaleAfter : Time)
    (view : Option RegistryView) : Excludes (initial highWatermark kvUsageStaleAfter view) := by
  intro i record h
  cases h

/--
From the quarantine of an instance to the reconciliation that ends it, over any
calls: the record continues and keeps all that was found uncertain, nothing is
granted on the instance, it cannot be registered, and it is reconciled only
with the token, the role and empty reports.  In any state, a failing registration
or reconciliation of any instance changes nothing.
-/
theorem quarantine_excludes (highWatermark : Rat) (kvUsageStaleAfter : Time)
    (view : Option RegistryView) (before calls : List SchedulerCall) (i : String)
    (record : QuarantineRecord)
    (hquarantined : ((initial highWatermark kvUsageStaleAfter view).afterAll
      before).quarantinedInstances.get? i = some record)
    (hcalls : Unreconciled i ((initial highWatermark kvUsageStaleAfter view).afterAll before)
      calls) :
    let s := ((initial highWatermark kvUsageStaleAfter view).afterAll before).afterAll calls
    (∃ new, s.quarantinedInstances.get? i = some new ∧ Continues record new ∧
      ∀ c ∈ calls, OnRecord i new c) ∧
    (∀ c, s.granted c ≠ some i) ∧
    (∀ role m epoch active, s.registerInstance i role m epoch active = .error (.quarantined i)) ∧
    (∀ r t, s.reconcileInstance i r = .ok t →
      r.reconciliationToken = record.reconciliationToken ∧
        (record.role ≠ .unknown → r.role = record.role) ∧ r.activeRequestIds = [] ∧
        r.activeTransferOperationIds = [] ∧ r.pendingDispatchCommandIds = []) ∧
    (∀ j role m epoch active found e t,
      (registerStatements j role m epoch active).run found = .error e t → t = found) ∧
    ∀ j r found e t, (reconcileStatements j r).run found = .error e t → t = found := by
  intro s
  obtain ⟨new, hnew, hcont, hon⟩ := quarantined_afterAll hquarantined hcalls
  have hexcludes : Excludes s :=
    ((initial_excludes highWatermark kvUsageStaleAfter view).afterAll before).afterAll calls
  obtain ⟨hp, hd⟩ := hexcludes i new hnew
  refine ⟨⟨new, hnew, hcont, hon⟩, granted_ne hp hd, fun role m epoch active => ?_,
    fun r t hr => ?_, fun _ _ _ _ _ _ _ _ => registerStatements_error,
    fun _ _ _ _ _ => reconcileStatements_error⟩
  · have hcontains : s.quarantinedInstances.contains i = true := by simp [s, hnew]
    unfold registerInstance
    rw [if_pos hcontains]
  · obtain ⟨htoken, hrole, hreports⟩ := reconcileInstance_requires hnew hr
    refine ⟨htoken.trans hcont.token, fun hknown => ?_, hreports⟩
    rw [← hcont.role] at hknown ⊢
    exact hrole hknown

/-- An instance with one slot, quarantined once and once more. -/
def quarantinedTwice : List SchedulerCall :=
  [.register "d0" .decode 1 "f1" [], .quarantineInstance 5 "d0" none none]

theorem quarantinedTwice_excluded :
    (((initial 1 10 none).afterAll quarantinedTwice).afterAll
      [.quarantineInstance 6 "d0" (some ("gateway", "r1", "op1", "f1")) none,
        .pickDecode 6 none]).granted (.pickDecode 7 none) ≠ some "d0" :=
  (quarantine_excludes 1 10 none quarantinedTwice
    [.quarantineInstance 6 "d0" (some ("gateway", "r1", "op1", "f1")) none, .pickDecode 6 none]
    "d0" _ rfl ⟨(fun _ _ h => nomatch h), (fun _ _ h => nomatch h), trivial⟩).2.1 _

end PDScheduler

end PrismServe
