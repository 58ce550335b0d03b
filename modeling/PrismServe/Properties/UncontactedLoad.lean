import PrismServe.Properties.CompensationEvidence
import PrismServe.Machine

/-!
# Loads that contact nobody

With network control a load may end before any of its references is attempted:
the epoch of its source has changed, or the capacity for operations is
exhausted.  Its cleanup has nothing to query then, makes a plan without
predicates, and the release evaluator takes such a plan for incomplete.  The
lease stays quarantined, however often the cleanup is repeated.
-/

namespace PrismServe

open Lib Lib.Prog

/-- The cleanup id of a cached-prefix load. -/
def prefixCleanupId (operationId : String) : String := "prefix-cleanup:" ++ operationId

/-! ## The surroundings -/

/-- Whether a reply answers a call of a load with network control, or is its failure. -/
def Call.networkAnswer : Call → Reply → Bool
  | _, .raised _ => true
  | .resolvePrefix _ _, .resolved _ => true
  | .preparePrefix _ _, .flag _ => true
  | .ncclGate _, .ok => true
  | .prepareReceive _, .ok => true
  | .startTransfer _, .ok => true
  | .transferTerminal _, .ok => true
  | .endpointStatus _, .status _ => true
  | .commitPrefix _ _, .ok => true
  | _, _ => false

/-- Others leave the lease of the operation and what is recorded of its cleanup alone. -/
structure SparedCleanup (operationId : String) (s t : Process) : Prop where
  lease : leaseIn t operationId = leaseIn s operationId
  refs : t.shared.control.cleanupRefs operationId = s.shared.control.cleanupRefs operationId
  plan : t.shared.control.cleanupPlans.get? (prefixCleanupId operationId) =
    s.shared.control.cleanupPlans.get? (prefixCleanupId operationId)
  completion : t.shared.control.completedEndpoint.get? (prefixCleanupId operationId) =
    s.shared.control.completedEndpoint.get? (prefixCleanupId operationId)

/-- The workers answer or fail in any way; the other tasks spare the operation. -/
def SparesCleanup (operationId : String) : Surroundings := fun c s x t =>
  c.networkAnswer x = true ∧ SparedCleanup operationId s t

section Loading

variable {operationId : String} {held : Option DecodeSlotLease} {s t : Process} {α : Type}

/-! ## What a load leaves alone -/

/-- The lease is as it was, and no cleanup of the operation was planned or completed. -/
structure Unplanned (operationId : String) (held : Option DecodeSlotLease) (s : Process) :
    Prop where
  lease : leaseIn s operationId = held
  plan : s.shared.control.cleanupPlans.get? (prefixCleanupId operationId) = none
  completion : s.shared.control.completedEndpoint.get? (prefixCleanupId operationId) = none

theorem Unplanned.spared (h : Unplanned operationId held s)
    (hspared : SparedCleanup operationId s t) :
    Unplanned operationId held t :=
  ⟨hspared.lease.trans h.lease, hspared.plan.trans h.plan, hspared.completion.trans h.completion⟩

variable {R : Surroundings} {c : Call}

theorem unplanned_call {answer : Reply → Option α}
    (hfit : ∀ y, (∀ e, y ≠ .raised e) → c.networkAnswer y = true → ∃ a, answer y = some a) :
    Upholds (SparesCleanup operationId) (Unplanned operationId held)
      (Loop.timedCall c answer) := by
  change Upholds _ _ (Loop.callIn true c answer)
  refine upholds_callIn ?_ (fun s x t hs hx => hs.spared hx.2) fun s hs =>
    ⟨hs.lease, hs.plan, hs.completion⟩
  intro s x t hx
  by_cases hraised : ∃ e, x = .raised e
  · obtain ⟨e, rfl⟩ := hraised
    exact .inl ⟨e, rfl, by simp⟩
  · have hne : ∀ e, x ≠ .raised e := fun e he => hraised ⟨e, he⟩
    exact .inr ⟨hne, hfit x hne hx.1⟩

/-- A method of the network client that neither plans nor completes a cleanup. -/
theorem unplanned_onControl {f : NetworkControl → Except Exc (α × NetworkControl)}
    (hf : ∀ c a c', f c = .ok (a, c') →
      c'.cleanupPlans = c.cleanupPlans ∧ c'.completedEndpoint = c.completedEndpoint) :
    Upholds R (Unplanned operationId held) (Loop.onControl f) := by
  intro s hs
  cases hc : f s.shared.control with
  | error e =>
    exact (leads_onControl_error hc).mpr ⟨by simp, hs⟩
  | ok r =>
    obtain ⟨hplans, hcompleted⟩ := hf _ _ _ hc
    refine (leads_onControl_ok hc).mpr ⟨by simp, hs.lease, ?_, ?_⟩
    · simpa [hplans] using hs.plan
    · simpa [hcompleted] using hs.completion

theorem unplanned_allocate (kind : RefKind) (instanceId : String) :
    Upholds R (Unplanned operationId held)
      (Loop.onControl (NetworkControl.allocate kind instanceId operationId)) := by
  refine unplanned_onControl fun c a c' h => ?_
  unfold NetworkControl.allocate at h
  split at h
  · cases h
  split at h
  · cases h
  · cases h
    exact ⟨rfl, rfl⟩

theorem unplanned_markAttempted (ref : EndpointRef) :
    Upholds R (Unplanned operationId held) (Loop.markAttempted ref) :=
  unplanned_onControl fun c a c' h => by
    cases h
    exact ⟨rfl, rfl⟩

theorem unplanned_onLoad (f : PrefixLoadContext → PrefixLoadContext) :
    Upholds R (Unplanned operationId held) (Loop.onLoad operationId f) :=
  fun _ hs => ⟨by simp, hs.lease, hs.plan, hs.completion⟩

theorem unplanned_transferMutation (ref : EndpointRef)
    (hfit : ∀ y, (∀ e, y ≠ .raised e) → c.networkAnswer y = true → y = .ok) :
    Upholds (SparesCleanup operationId) (Unplanned operationId held)
      (Loop.transferMutation true c ref) := by
  unfold Loop.transferMutation
  refine Upholds.bind (unplanned_markAttempted ref) fun _ => Upholds.rescue ?_ ?_
  · exact unplanned_call fun y hne hy => ⟨(), by rw [hfit y hne hy]; rfl⟩
  · intro e q hq
    split at hq
    · cases hq
      refine Upholds.bind (unplanned_call ?_) fun status => ?_
      · intro y hne hy
        cases y <;> simp_all [Call.networkAnswer, Reply.statusOnly]
      · split
        · exact Upholds.raise _
        · exact Upholds.ret ()
    · cases hq

theorem unplanned_done (hfit : ∀ y, (∀ e, y ≠ .raised e) → c.networkAnswer y = true → y = .ok) :
    Upholds (SparesCleanup operationId) (Unplanned operationId held)
      (Loop.timedCall c Reply.okOnly) :=
  unplanned_call fun y hne hy => ⟨(), by rw [hfit y hne hy]; rfl⟩

theorem unplanned_runNcclPair (sourceRef targetRef : EndpointRef) :
    Upholds (SparesCleanup operationId) (Unplanned operationId held)
      (Loop.runNcclPair true operationId sourceRef targetRef) := by
  unfold Loop.runNcclPair
  refine Upholds.bind (unplanned_done ?_) fun _ => Upholds.bind Upholds.read fun w => ?_
  · intro y hne hy
    cases y <;> simp_all [Call.networkAnswer]
  split
  · exact Upholds.raise _
  refine Upholds.rescue (Upholds.bind (unplanned_transferMutation _ ?_) fun _ =>
    Upholds.bind (unplanned_transferMutation _ ?_) fun _ => unplanned_done ?_) ?_
  · intro y hne hy
    cases y <;> simp_all [Call.networkAnswer]
  · intro y hne hy
    cases y <;> simp_all [Call.networkAnswer]
  · intro y hne hy
    cases y <;> simp_all [Call.networkAnswer]
  · intro e q hq
    cases hq
    refine Upholds.bind (unplanned_onControl fun c a c' h => ?_) fun _ => Upholds.raise _
    cases h
    exact ⟨rfl, rfl⟩

theorem unplanned_prefixMutation {answer : Reply → Option α} (side : String) (kind : RefKind)
    (instanceId epoch : String)
    (hfit : ∀ y, (∀ e, y ≠ .raised e) → c.networkAnswer y = true → ∃ a, answer y = some a) :
    Upholds (SparesCleanup operationId) (Unplanned operationId held)
      (Loop.prefixMutation side kind instanceId epoch operationId c answer) := by
  unfold Loop.prefixMutation
  refine Upholds.bind Upholds.read fun w => ?_
  split
  · exact Upholds.raise _
  split
  · exact Upholds.raise _
  · exact Upholds.bind (unplanned_allocate kind instanceId) fun ref =>
      Upholds.bind (unplanned_markAttempted ref) fun _ => unplanned_call hfit

theorem unplanned_transferStage {decision : CachedPrefixDecision} :
    Upholds (SparesCleanup operationId) (Unplanned operationId held)
      (Loop.transferStage true operationId decision) := by
  unfold Loop.transferStage Loop.transferCachedPrefix
  split
  · exact Upholds.ret ()
  refine Upholds.bind (unplanned_onLoad _) fun _ => Upholds.bind ?_ fun transfer => ?_
  · refine Upholds.bind (unplanned_allocate _ _) fun targetRef =>
      Upholds.bind (unplanned_allocate _ _) fun sourceRef => Upholds.rescue
        (Upholds.bind (unplanned_runNcclPair _ _) fun _ => Upholds.ret _) ?_
    intro e q hq
    split at hq
    · cases hq
      exact Upholds.ret _
    · cases hq
  · split
    · exact Upholds.raise _
    · exact Upholds.ret ()

theorem unplanned_commitCachedPrefix (target : String) (localReuse : Bool) :
    Upholds (SparesCleanup operationId) (Unplanned operationId held)
      (Loop.commitCachedPrefix true target operationId localReuse) := by
  unfold Loop.commitCachedPrefix
  refine Upholds.bind Upholds.read fun w => ?_
  split
  · exact Upholds.raise _
  refine Upholds.bind (unplanned_allocate _ _) fun ref =>
    Upholds.bind (unplanned_markAttempted ref) fun _ => unplanned_done ?_
  intro y hne hy
  cases y <;> simp_all [Call.networkAnswer]

theorem unplanned_load {decision : CachedPrefixDecision} {epoch : String} :
    Upholds (SparesCleanup operationId) (Unplanned operationId held)
      (Loop.waitFor (Loop.loadCachedPrefix true operationId epoch decision)) := by
  unfold Loop.waitFor Loop.loadCachedPrefix
  refine Upholds.rescue (Upholds.bind (unplanned_onLoad _) fun _ => Upholds.bind
    (unplanned_prefixMutation _ _ _ _ ?_) fun resolved => ?_) ?_
  · intro y hne hy
    cases y <;> simp_all [Call.networkAnswer, Reply.resolvedOnly]
  · split
    · exact Upholds.raise _
    refine Upholds.bind (unplanned_onLoad _) fun _ => Upholds.bind
      (unplanned_prefixMutation _ _ _ _ ?_) fun prepared => ?_
    · intro y hne hy
      cases y <;> simp_all [Call.networkAnswer, Reply.flagOnly]
    · split
      · exact Upholds.raise _
      exact Upholds.bind (unplanned_onLoad _) fun _ =>
        Upholds.bind unplanned_transferStage fun _ => Upholds.bind (unplanned_onLoad _) fun _ =>
        Upholds.bind (unplanned_commitCachedPrefix _ _) fun _ => unplanned_onLoad _
  · intro e q hq
    split at hq
    · cases hq
      exact Upholds.raise _
    · cases hq

/-! ## Cleanups without references -/

/-- No reference of the operation was attempted, and what was planned has no predicates. -/
structure Uncontacted (operationId : String) (s : Process) : Prop where
  refs : s.shared.control.cleanupRefs operationId = []
  plan : ∀ plan, s.shared.control.cleanupPlans.get? (prefixCleanupId operationId) = some plan →
    plan.cleanupId = prefixCleanupId operationId ∧ plan.predicates = []
  completion : s.shared.control.completedEndpoint.get? (prefixCleanupId operationId) = none

theorem Uncontacted.spared (h : Uncontacted operationId s)
    (hspared : SparedCleanup operationId s t) : Uncontacted operationId t := by
  refine ⟨hspared.refs.trans h.refs, ?_, hspared.completion.trans h.completion⟩
  rw [hspared.plan]
  exact h.plan

/-- What the cleanup of such a load comes to: it raises when there is no lease to quarantine, and
otherwise leaves the lease quarantined. -/
inductive CleanedInVain (operationId : String) (s : Process) :
    List Trip → Except Exc CleanupAction → Process → Prop
  | refused {e : Exc}
      (hstate : leaseIn s operationId = none ∨
        ∃ lease, leaseIn s operationId = some lease ∧ lease.state = .released) :
      CleanedInVain operationId s [] (.error e) s
  | quarantined {lease : DecodeSlotLease} {t : Process}
      (hlease : leaseIn s operationId = some lease) (hstate : lease.state ≠ .released)
      (hafter : leaseIn t operationId = some { lease with state := .quarantined })
      (hslots : slotsIn t.shared = slotsIn s.shared) (hcontrol : Uncontacted operationId t) :
      CleanedInVain operationId s [] (.ok .quarantined) t

/-- A plan without predicates releases nothing. -/
theorem leads_release_empty {plan : CleanupPlan}
    {Φ : List Trip → Except Exc (Option (List FinalizeSnapshot)) → Process → Prop}
    (hplan : plan.predicates = [])
    (hopen : s.shared.control.completedEndpoint.get? plan.cleanupId = none)
    (h : Φ [] (.ok none) s) :
    Leads R (Loop.releaseEndpointTerminal true plan) s Φ := by
  unfold Loop.releaseEndpointTerminal
  refine leads_bind.mpr ?_
  simp only [leads_read, After, hopen, CleanupPlan.incomplete, hplan, List.isEmpty_nil,
    Bool.true_or, if_true, List.nil_append]
  exact h

/-- A plan without predicates is planned: it, or the one that was planned before. -/
theorem Uncontacted.remember (h : Uncontacted operationId s) {fresh : CleanupPlan}
    (hid : fresh.cleanupId = prefixCleanupId operationId) (hfresh : fresh.predicates = []) :
    ((planIn s.shared.control fresh).cleanupId = prefixCleanupId operationId ∧
      (planIn s.shared.control fresh).predicates = []) ∧
    Uncontacted operationId (s.update (rememberPlan fresh)) := by
  cases hplan : s.shared.control.cleanupPlans.get? fresh.cleanupId with
  | some plan =>
    have hsame : s.update (rememberPlan fresh) = s := by
      simp [Sys.update, rememberPlan, hplan]
    rw [hsame]
    refine ⟨?_, h⟩
    simp only [planIn, hplan, Option.getD_some]
    rw [hid] at hplan
    exact h.plan plan hplan
  | none =>
    refine ⟨?_, ?_⟩
    · simp only [planIn, hplan, Option.getD_none]
      exact ⟨hid, hfresh⟩
    · simp only [rememberPlan, hplan, Sys.update]
      refine ⟨h.refs, fun plan hget => ?_, h.completion⟩
      simp only [hid, Dict.get?_set_self, Option.some.injEq] at hget
      subst hget
      exact ⟨hid, hfresh⟩

theorem leaseIn_remember (fresh : CleanupPlan) :
    leaseIn (s.update (rememberPlan fresh)) operationId = leaseIn s operationId := by
  unfold leaseIn rememberPlan
  simp only [Sys.update_shared]
  split <;> rfl

theorem slotsIn_remember (fresh : CleanupPlan) :
    slotsIn (s.update (rememberPlan fresh)).shared = slotsIn s.shared := by
  unfold slotsIn rememberPlan
  simp only [Sys.update_shared]
  split <;> rfl

/-- The cleanup once the lease is quarantined. -/
theorem leads_cleanup_quarantined {lease : DecodeSlotLease} {u : Process}
    (h : Uncontacted operationId u) (hlease : leaseIn s operationId = some lease)
    (hstate : lease.state ≠ .released)
    (hafter : leaseIn u operationId = some { lease with state := .quarantined })
    (hslots : slotsIn u.shared = slotsIn s.shared) :
    Leads R
      (do
        let w ← Prog.read
        let candidates := w.control.cleanupRefs operationId
        Loop.abortRefs true candidates
        match ← Loop.queryTerminal true candidates with
        | none => return .quarantined
        | some snapshots => do
            let plan ← Loop.cleanupPlan snapshots (CleanupPlan.ofSnapshots false
              ("prefix-cleanup:" ++ operationId) operationId lease.leaseId snapshots)
            match ← Loop.releaseEndpointTerminal true plan with
            | none => return .quarantined
            | some _ => do
                Loop.onControl (NetworkControl.retireOperation operationId)
                return .aborted : Loop CleanupAction) u (CleanedInVain operationId s) := by
  refine leads_bind.mpr ?_
  simp only [leads_read, After, h.refs, List.nil_append]
  refine leads_bind.mpr ?_
  simp only [Loop.abortRefs, forEach, leads_ret, After, List.nil_append]
  refine leads_bind.mpr ?_
  simp only [Loop.queryTerminal, leads_ret, After, List.nil_append]
  refine leads_bind.mpr (leads_cleanupPlan ?_ fun hread => absurd rfl hread)
  let fresh := CleanupPlan.ofSnapshots false ("prefix-cleanup:" ++ operationId) operationId
    lease.leaseId []
  have hid : fresh.cleanupId = prefixCleanupId operationId := rfl
  have hfresh : fresh.predicates = [] := rfl
  obtain ⟨⟨hplanned, hempty⟩, hremembered⟩ := h.remember hid hfresh
  refine leads_bind.mpr (leads_release_empty hempty ?_ ?_)
  · rw [hplanned]
    exact hremembered.completion
  · refine .quarantined hlease hstate ?_ ?_ hremembered
    · rw [leaseIn_remember, hafter]
    · rw [slotsIn_remember, hslots]

theorem leads_cleanup_uncontacted (h : Uncontacted operationId s) :
    Leads R (Loop.cleanupPrefixContext operationId) s (CleanedInVain operationId s) := by
  unfold Loop.cleanupPrefixContext
  refine leads_bind.mpr ?_
  cases hlease : leaseIn s operationId with
  | none =>
    have hget : s.shared.scheduler.slotLeases.get? operationId = none := hlease
    simp only [leads_read, After, hget]
    exact .refused (.inl hlease)
  | some lease =>
    have hget : s.shared.scheduler.slotLeases.get? operationId = some lease := hlease
    simp only [leads_read, After, hget, List.nil_append]
    refine leads_bind.mpr ?_
    unfold Loop.when
    split
    · refine leads_quarantineSlot hlease ?_ ?_
      · intro t ht hslots hcontrol hstate
        refine leads_cleanup_quarantined ?_ hlease hstate ht hslots
        refine ⟨?_, ?_, ?_⟩
        · rw [hcontrol]
          exact h.refs
        · rw [hcontrol]
          exact h.plan
        · rw [hcontrol]
          exact h.completion
      · intro e hstate
        exact .refused (.inr ⟨lease, hlease, hstate⟩)
    · rename_i hquarantined
      have hstate : lease.state = .quarantined := by simpa using hquarantined
      refine leads_cleanup_quarantined h hlease (by simp [hstate]) ?_ rfl
      rw [hlease, ← hstate]

theorem CleanedInVain.uncontacted {l : List Trip} {r : Except Exc CleanupAction}
    (h : CleanedInVain operationId s l r t) (hs : Uncontacted operationId s) :
    Uncontacted operationId t := by
  cases h with
  | refused =>
    exact hs
  | quarantined _ _ _ _ hcontrol =>
    exact hcontrol

end Loading

/-! ## Histories -/

/-- One call of the cleanup. -/
abbrev PrefixCleanup := Run World Call Reply Exc Task CleanupAction

/-- A load with a reserved slot ends before any reference of its operation was attempted, and its
cleanup is called again and again.  A call that completes leaves the lease released exactly when
there is no lease, or a released one, before it: it does not complete then.  Every other call
completes and leaves the lease quarantined, and the slots as they are. -/
theorem uncontacted_lease_released_iff {decision : CachedPrefixDecision}
    {operationId epoch : String} {lease : DecodeSlotLease} {s u t : Process}
    {answers : List (Reply × (Process → Process))} {l : List Trip} {r : Except Exc Unit}
    {calls : List PrefixCleanup} (hnew : Unplanned operationId (some lease) s)
    (hload : (Loop.waitFor (Loop.loadCachedPrefix true operationId epoch decision)).drive s
      answers = some (l, r, u))
    (hspares : ∀ v ∈ l, SparesCleanup operationId v.call v.left v.reply v.back)
    (hnone : u.shared.control.cleanupRefs operationId = [])
    (hcalls : Series (SparedCleanup operationId) (SparesCleanup operationId)
      (Loop.cleanupPrefixContext operationId) u calls t) :
    ∀ a ∈ calls,
      ((∀ action, a.result = .ok action → stateIn a.after operationId = some .released) ↔
        stateIn a.before operationId = none ∨ stateIn a.before operationId = some .released) ∧
      (stateIn a.before operationId ≠ none → stateIn a.before operationId ≠ some .released →
        a.result = .ok .quarantined ∧ stateIn a.after operationId = some .quarantined ∧
          slotsIn a.after.shared = slotsIn a.before.shared) := by
  have hended : Unplanned operationId (some lease) u :=
    ((unplanned_load s hnew).drive hload hspares).2
  have hu : Uncontacted operationId u :=
    ⟨hnone, by simp [hended.plan], hended.completion⟩
  have hall := hcalls.all (fun _ _ h hspared => h.spared hspared)
    (fun a hrun hbefore => (hrun.leads (leads_cleanup_uncontacted hbefore)).uncontacted hbefore) hu
  intro a ha
  obtain ⟨hrun, hbefore⟩ := hall a ha
  have hvain := hrun.leads (leads_cleanup_uncontacted hbefore)
  obtain ⟨before, visits, result, after⟩ := a
  cases hvain with
  | refused hstate =>
    have hgone : stateIn before operationId = none ∨
        stateIn before operationId = some .released := by
      rcases hstate with h | ⟨lease', h, hreleased⟩
      · exact .inl (by simp [stateIn, h])
      · exact .inr (by simp [stateIn, h, hreleased])
    exact ⟨⟨fun _ => hgone, fun _ _ h => by cases h⟩, fun h h' => (hgone.elim h h').elim⟩
  | quarantined hlease hstate hafter hslots hcontrol =>
    have hlast : stateIn after operationId = some .quarantined := by
      simp [stateIn, hafter]
    refine ⟨⟨fun h => ?_, fun h => ?_⟩, fun _ _ => ⟨rfl, hlast, hslots⟩⟩
    · have hreleased := h .quarantined rfl
      rw [hlast] at hreleased
      cases hreleased
    · simp [stateIn, hlease, hstate] at h

/-- A load of a prefix whose source has a new epoch. -/
def outdatedLoad : Process :=
  ⟨{ smallWorld true with
      scheduler := { (smallWorld true).scheduler with
        decodeSlots := Dict.empty.set "d0" ⟨1, 2⟩
        slotLeases := Dict.empty.set "op"
          { leaseId := 0, operationId := "op", reqId := "r", instanceId := "d0"
            state := .reserved, reservedAt := 0 } }
      coordinator := Loop.openContext "r" "op" ⟨"p0", "e0", "d0", 1⟩
        (smallWorld true).coordinator }, []⟩

/-- The load has ended, without a call. -/
def endedLoad : Process :=
  (((Loop.waitFor (Loop.loadCachedPrefix true "op" "f1" ⟨"p0", "e0", "d0", 1⟩)).drive outdatedLoad
    []).map (·.2.2)).getD outdatedLoad

/-- The cleanup of that load. -/
def vainCleanup : PrefixCleanup where
  before := endedLoad
  visits := []
  result := .ok .quarantined
  after := (((Loop.cleanupPrefixContext "op").drive endedLoad []).map (·.2.2)).getD endedLoad

theorem uncontacted_lease_quarantined :
    stateIn endedLoad "op" = some .reserved ∧ vainCleanup.result = .ok .quarantined ∧
      stateIn vainCleanup.after "op" = some .quarantined := by
  have hstate : stateIn endedLoad "op" = some .reserved := by decide +kernel
  have hall := @uncontacted_lease_released_iff ⟨"p0", "e0", "d0", 1⟩ "op" "f1" _ outdatedLoad
    endedLoad vainCleanup.after [] [] _ [vainCleanup] ⟨rfl, rfl, rfl⟩ rfl (by simp)
    (by decide +kernel) (.cons ⟨rfl, rfl, rfl, rfl⟩ ⟨⟨[], rfl⟩, by simp [vainCleanup]⟩
      (.nil ⟨rfl, rfl, rfl, rfl⟩))
  obtain ⟨hresult, hafter, -⟩ := (hall vainCleanup (by simp)).2
    (by rw [vainCleanup, hstate]; simp) (by rw [vainCleanup, hstate]; simp)
  exact ⟨hstate, hresult, hafter⟩

/-- The source epoch of a prefix has changed: the load raises before any reference is attempted,
its cleanup completes twice, and the lease stays quarantined with its slot in use. -/
theorem uncontacted_slot_is_lost :
    (smallWorld true).Initial ∧
      ((Loop.waitFor (Loop.loadCachedPrefix true "op" "f1" ⟨"p0", "e0", "d0", 1⟩)).drive
        outdatedLoad []).map (fun o => (o.2.1, o.2.2.shared.control.attemptedRefs)) =
        some (.error (.value "source worker epoch changed"), []) ∧
      ((Loop.cleanupPrefixContext "op").drive endedLoad []).map
        (fun o => (o.2.1, stateIn o.2.2 "op", (slotsIn o.2.2.shared).get? "d0")) =
        some (.ok .quarantined, some .quarantined, some ⟨1, 2⟩) ∧
      ((Loop.cleanupPrefixContext "op").drive vainCleanup.after []).map
        (fun o => (o.2.1, stateIn o.2.2 "op", (slotsIn o.2.2.shared).get? "d0")) =
        some (.ok .quarantined, some .quarantined, some ⟨1, 2⟩) :=
  ⟨smallWorld_initial true, by decide +kernel, by decide +kernel, by decide +kernel⟩

end PrismServe
