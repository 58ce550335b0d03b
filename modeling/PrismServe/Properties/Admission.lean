import PrismServe.Frame.Acceptance
import PrismServe.Properties.StoreReopening
import PrismServe.Properties.TopologyEvidence

/-!
# Admission stays closed while a topology is pending

Topology acceptances of every kind, refresh cycles and the supervisors of the
control tasks write the admission flag and the flag of a pending topology.  The
log tells when a topology became pending and, with the state of that moment,
when it was completed.

Every segment keeps three facts: a gateway that accepts has nothing pending, the
flag is what the log says, and every completion met the conditions of admission.
-/

namespace PrismServe

open Lib Prog

/-- Whether the log says that a topology is pending. -/
def pendingAfter (initial : Bool) (log : List GatewayMoment) : Bool :=
  log.foldl (fun pending m =>
    match m with
    | .opened => true
    | .cleared _ => false
    | _ => pending) initial

/-- The conditions under which a pending topology may be completed. -/
structure AcceptanceReady (limits : StoreLimits) (a : AppState) : Prop where
  pending : a.topologyAcceptanceRequired = true
  generation : ∃ g, a.pendingTopologyGeneration = some g ∧ a.generationOf a.workerRegistry = some g
  committed : a.topologyAdmin.registry = a.workerRegistry
  fresh : a.worldFresh a.workerRegistry = true
  storeHealthy : a.replacementStore.store.fatalError = none ∧
    a.replacementStore.store.records.size < limits.maxRecordsPerRun
  storeSealed : a.replacementStore.store.activeRun = none
  prefixWorld : a.prefixWorldAllowsAdmission = true
  controlPlane : a.controlPlaneFailed = false
  loop : a.loopTask = .running
  refresh : a.resourceRefreshTask = .running
  reconciler : a.affinityEnabled = true → a.reconcilerTask = some .running

/-- What every segment keeps, for a gateway that was started with a flag. -/
structure AdmissionInv (limits : StoreLimits) (initial : Bool) (g : Gateway) : Prop where
  closed : g.app.accepting = true → g.app.topologyAcceptanceRequired = false
  flag : g.app.topologyAcceptanceRequired = pendingAfter initial g.log
  cleared : ∀ a, .cleared a ∈ g.log → AcceptanceReady limits a

/-- A moment that says nothing about a pending topology. -/
def GatewayMoment.Silent : GatewayMoment → Prop
  | .opened => False
  | .cleared _ => False
  | _ => True

theorem GatewayMoment.Plain.silent {m : GatewayMoment} (h : m.Plain) : m.Silent := by
  cases m with
  | opened =>
    exact h
  | cleared a =>
    exact h
  | _ =>
    trivial

theorem pendingAfter_append_silent {initial : Bool} {log moments : List GatewayMoment}
    (h : ∀ m ∈ moments, m.Silent) :
    pendingAfter initial (log ++ moments) = pendingAfter initial log := by
  induction moments generalizing log with
  | nil =>
    rw [List.append_nil]
  | cons m rest ih =>
    have hm := h m List.mem_cons_self
    rw [List.append_cons, ih fun x hx => h x (List.mem_cons_of_mem m hx)]
    simp only [pendingAfter, List.foldl_append]
    cases m with
    | opened =>
      exact hm.elim
    | cleared a =>
      exact hm.elim
    | _ =>
      rfl

theorem ControlTask.eq_running {t : ControlTask} (h : t.done = false) : t = .running := by
  cases t with
  | running =>
    rfl
  | _ =>
    cases h

namespace AppState

/-- The flags of admission are the same. -/
def SameFlags (a b : AppState) : Prop :=
  b.accepting = a.accepting ∧ b.topologyAcceptanceRequired = a.topologyAcceptanceRequired

theorem SameFlags.refl (a : AppState) : SameFlags a a := ⟨rfl, rfl⟩

variable {generation : String} {a b : AppState}

theorem checkFinal_ok {limits : StoreLimits} {a : AppState}
    (h : a.checkFinal limits generation = .ok ()) : AcceptanceReady limits a := by
  simp only [checkFinal] at h
  split at h
  · cases h
  rename_i hpending
  split at h
  · cases h
  rename_i hgeneration
  split at h
  · cases h
  rename_i hregistry
  split at h
  · cases h
  rename_i hcommitted
  split at h
  · cases h
  rename_i hfresh
  split at h
  · cases h
  rename_i hstore
  split at h
  · cases h
  rename_i hbegins
  split at h
  · cases h
  rename_i hcontrol
  split at h
  · cases h
  rename_i htasks
  simp only [replacementStoreAllowsAdmission, ReplacementDecisionStore.ready,
    ReplacementDecisionStore.transitionClosed, Bool.not_eq_false, Bool.and_eq_true,
    Option.isNone_iff_eq_none, decide_eq_true_eq] at hstore
  push Not at hcontrol
  simp only [backgroundControlPlaneTasksHealthy, Bool.not_eq_false, Bool.and_eq_true,
    Bool.not_eq_true', Bool.or_eq_true, Option.any_eq_true] at htasks
  refine ⟨by simpa using hpending,
    ⟨generation, by simpa using hgeneration, by simpa using hregistry⟩,
    by simpa using hcommitted, by simpa using hfresh, hstore.1, hstore.2.2, by simpa using hbegins,
    by simpa using hcontrol.1, ControlTask.eq_running (by simpa using hcontrol.2),
    ControlTask.eq_running htasks.1.2, fun haffinity => ?_⟩
  rcases htasks.2 with h | ⟨task, htask, hdone⟩
  · rw [h] at haffinity
    cases haffinity
  · rw [htask, ControlTask.eq_running hdone]

theorem finalizeTopologyAcceptance_ok {limits : StoreLimits}
    (h : a.finalizeTopologyAcceptance limits generation = .ok b) :
    AcceptanceReady limits a ∧ b.topologyAcceptanceRequired = false := by
  obtain ⟨_, hcheck, h⟩ := bind_eq_ok.mp h
  obtain ⟨c, hcomplete, h⟩ := bind_eq_ok.mp h
  refine ⟨checkFinal_ok hcheck, ?_⟩
  cases h
  simp only [completeTopologyAcceptance] at hcomplete
  split at hcomplete
  · cases hcomplete
  · cases hcomplete
    rfl

theorem beginTopologyAcceptance_ok (h : a.beginTopologyAcceptance generation = .ok b) :
    b.accepting = false ∧ b.topologyAcceptanceRequired = true := by
  simp only [beginTopologyAcceptance] at h
  split at h
  · cases h
  split at h
  · cases h
  · cases h
    exact ⟨rfl, rfl⟩

theorem Aside.sameFlags (h : Aside a b) : SameFlags a b :=
  ⟨h.accepting, h.required⟩

end AppState

namespace Accept

open AppState

variable {limits : StoreLimits} {initial : Bool} {α β : Type}

/-- A program that keeps the facts about admission. -/
abbrev Guards (limits : StoreLimits) (initial : Bool) (p : Accept α) : Prop :=
  Preserves (AdmissionInv limits initial) p

theorem AdmissionInv.sameFlags {g : Gateway} (h : AdmissionInv limits initial g) {a : AppState}
    (ha : SameFlags g.app a) : AdmissionInv limits initial { g with app := a } where
  closed haccepting := by
    have hclosed := h.closed (ha.1.symm.trans haccepting)
    exact ha.2.trans hclosed
  flag := ha.2.trans h.flag
  cleared := h.cleared

theorem AdmissionInv.noted {g : Gateway} (h : AdmissionInv limits initial g)
    {moments : List GatewayMoment} (hm : ∀ m ∈ moments, m.Silent) :
    AdmissionInv limits initial { g with log := g.log ++ moments } where
  closed := h.closed
  flag := h.flag.trans (pendingAfter_append_silent hm).symm
  cleared a ha := by
    rcases List.mem_append.mp ha with ha | ha
    · exact h.cleared a ha
    · exact (hm _ ha).elim

/-- Steps that pass by leave the flags alone and say nothing about a pending topology. -/
theorem patient_admission :
    Patient (Contract.invariant GatewayCall (AdmissionInv limits initial))
      fun _ s => AdmissionInv limits initial s.shared where
  passing s₀ s t h hpass := by
    obtain ⟨moments, hlog, hplain⟩ := hpass.log
    have hnoted := AdmissionInv.noted (AdmissionInv.sameFlags h hpass.app.sameFlags)
      fun m hm => (hplain m hm).silent
    simp only [← hlog] at hnoted
    exact hnoted
  carried := ⟨fun _ _ h _ => h, fun _ _ _ h hs => hs h⟩
  note _ _ := trivial

theorem guards_attempt {f : AppState → Except AcceptError AppState}
    (hf : ∀ a b, f a = .ok b → SameFlags a b) : Guards limits initial (attempt f) := by
  refine Keeps.attempt fun _ s _ w h hok => ?_
  split at hok
  · rename_i a ha
    cases hok
    exact AdmissionInv.sameFlags h (hf _ _ ha)
  · cases hok

theorem guards_attemptWith {f : AppState → Except AcceptError α × AppState}
    (hf : ∀ a, SameFlags a (f a).2) : Guards limits initial (attemptWith f) :=
  Keeps.attemptWith fun _ s h => AdmissionInv.sameFlags h (hf s.shared.app)

theorem guards_note {m : GatewayMoment} (hm : m.Silent) : Guards limits initial (note m) :=
  Keeps.modify fun _ _ h => AdmissionInv.noted h fun x hx => by
    rw [List.mem_singleton.mp hx]
    exact hm

/-! ## The parts of an acceptance -/

theorem guards_begin (generation : String) :
    Guards limits initial (beginTopologyAcceptance generation) := by
  intro s₀ s h
  refine (wp_bind _ _ _ _).mpr (wp_attempt _ _ _ (fun _ w hok => ?_) fun _ _ => h)
  split at hok
  · rename_i a ha
    cases hok
    obtain ⟨haccepting, hpending⟩ := beginTopologyAcceptance_ok ha
    refine ⟨fun haccepts => ?_, ?_, fun b hb => ?_⟩
    · exact absurd (haccepting.symm.trans haccepts) (by simp)
    · simp [pendingAfter, Gateway.note, hpending]
    · exact h.cleared b (by simpa [Gateway.note] using hb)
  · cases hok

variable (cfg : GatewayConfig)

theorem guards_finalize (generation : String) :
    Guards cfg.limits initial (finalizeTopologyAcceptance cfg generation) := by
  refine Keeps.attempt fun _ s _ w h hok => ?_
  split at hok
  · rename_i a ha
    cases hok
    obtain ⟨hready, hcleared⟩ := finalizeTopologyAcceptance_ok ha
    refine ⟨fun _ => hcleared, ?_, fun b hb => ?_⟩
    · simp [pendingAfter, hcleared]
    · rcases List.mem_append.mp hb with hb | hb
      · exact h.cleared b hb
      · cases List.mem_singleton.mp hb
        exact hready
  · cases hok

theorem guards_seal (ref : SchedulerRef) (evidence : ReplacementEvidence) :
    Guards limits initial (sealReplacement cfg ref evidence) := by
  refine Keeps.attemptWith fun _ s h =>
    AdmissionInv.noted (AdmissionInv.sameFlags h ?_) fun m hm => ?_
  · unfold sealRunOf
    split
    · exact .refl _
    · exact ⟨rfl, rfl⟩
  · obtain ⟨runSeal, _, rfl⟩ := List.mem_map.mp hm
    exact trivial

theorem guards_recoverSealed (body : AcceptBody) :
    Guards cfg.limits initial (recoverSealedReplacement cfg body) :=
  have hI := patient_admission
  keeps_app fun _ => Keeps.bind (keeps_check hI.passing _) fun _ =>
    Keeps.bind (keeps_pull hI _ _ _) fun _ =>
      Keeps.bind (keeps_recoverCommittedRun hI.passing _) fun _ =>
      Keeps.bind (guards_finalize cfg _) fun _ => Keeps.ret _

theorem guards_recoverUnsealed (body : AcceptBody) :
    Guards cfg.limits initial (recoverUnsealedReplacement cfg body) :=
  have hI := patient_admission
  keeps_app fun _ => Keeps.bind (keeps_check hI.passing _) fun _ =>
    Keeps.bind (keeps_pull hI _ _ _) fun _ => Keeps.bind (keeps_check hI.passing _) fun _ =>
      keeps_app fun _ => Keeps.bind (guards_seal cfg _ _) fun _ =>
        Keeps.bind (keeps_recoverCommittedRun hI.passing _) fun _ =>
          Keeps.bind (guards_finalize cfg _) fun _ => Keeps.ret _

theorem guards_recoverCold (body : AcceptBody) :
    Guards cfg.limits initial (recoverColdReplacement cfg body) :=
  have hI := patient_admission
  keeps_app fun _ => Keeps.bind (keeps_check hI.passing _) fun _ =>
    Keeps.bind (keeps_installColdReports hI.passing body) fun _ =>
      Keeps.bind (keeps_pull hI _ _ _) fun _ =>
        Keeps.bind (guards_attemptWith fun _ => ⟨rfl, rfl⟩) fun _ => keeps_app fun _ =>
          Keeps.bind (guards_seal cfg _ _) fun _ =>
            Keeps.bind (keeps_recoverCommittedRun hI.passing _) fun _ =>
              Keeps.bind (guards_finalize cfg _) fun _ => Keeps.ret _

theorem guards_onScheduler (ref : SchedulerRef)
    (f : PDScheduler → Except AcceptError α × PDScheduler) :
    Guards limits initial (attemptWith (onScheduler ref f)) := by
  refine guards_attemptWith fun a => ?_
  unfold onScheduler
  split
  · exact .refl a
  · exact ⟨rfl, rfl⟩

theorem guards_buildScheduler (candidate : RegistryRef) :
    Guards limits initial (attempt (buildScheduler cfg candidate)) := by
  refine guards_attempt fun a b h => ?_
  unfold buildScheduler at h
  split at h
  · cases h
  split at h
  · cases h
    exact ⟨rfl, rfl⟩
  · cases h

theorem guards_persist (ref : SchedulerRef) (leases : List DecodeSlotLease)
    (evidence : ReplacementEvidence) : Guards limits initial (persist cfg ref leases evidence) := by
  refine Keeps.rescue (guards_attemptWith fun a => ?_) fun e q hq => ?_
  · unfold persistFrozen
    split
    · exact .refl a
    · exact ⟨rfl, rfl⟩
  · cases hq
    exact keeps_app fun _ => Keeps.bind (guards_note trivial) fun _ => Keeps.raise e

theorem guards_release (ref : SchedulerRef) (records : List ReplacementReleaseRecord) :
    Guards limits initial (releasePersistedReplacementBatch cfg ref records) := by
  refine Keeps.forEach fun record _ => keeps_app fun _ => Keeps.bind
    (guards_attempt fun a b h => ?_) fun _ => guards_note trivial
  unfold releaseRecordOf at h
  split at h
  · cases h
  split at h
  · cases h
    exact ⟨rfl, rfl⟩
  · cases h

theorem guards_settleLeases (ref : SchedulerRef)
    (staged : TopologyLedger.Staged) (leases : List DecodeSlotLease) (evaluator : SchedulerRef)
    (evidence : ReplacementEvidence) :
    Guards limits initial (settleLeases cfg ref staged leases evaluator evidence) :=
  have hI := patient_admission.passing
  Keeps.bind (keeps_reach hI _) fun _ => Keeps.bind (guards_onScheduler _ _) fun _ =>
    Keeps.bind (keeps_mayRaise hI) fun _ => Keeps.bind (guards_persist cfg _ _ _) fun _ =>
      Keeps.bind (keeps_reach hI _) fun _ => Keeps.bind (keeps_mayRaise hI) fun _ =>
        Keeps.bind (keeps_commit hI _ _) fun _ => Keeps.bind (keeps_reach hI _) fun _ =>
          Keeps.bind (guards_release cfg _ _) fun _ => keeps_mayRaise hI

theorem guards_publish (task : Nat) (candidate : RegistryRef) (scheduler : SchedulerRef)
    (reconciler : Option PrefixReconciler) :
    Guards limits initial (update (publish task candidate scheduler reconciler)) :=
  Keeps.modify fun _ _ h => AdmissionInv.sameFlags h (finishExpected_aside task _).sameFlags

theorem guards_sealAndOpen (body : AcceptBody)
    (staged : TopologyLedger.Staged) (evaluator : SchedulerRef) :
    Guards cfg.limits initial (sealAndOpen cfg body staged evaluator) :=
  have hI := patient_admission
  Keeps.bind (keeps_reach hI.passing _) fun _ => Keeps.bind (keeps_pull hI _ _ _) fun _ =>
    Keeps.bind (keeps_reach hI.passing _) fun _ => Keeps.bind (guards_seal cfg _ _) fun _ =>
      Keeps.bind (keeps_reach hI.passing _) fun _ => Keeps.bind (keeps_pull hI _ _ _) fun _ =>
        Keeps.bind (keeps_reach hI.passing _) fun _ => Keeps.bind (guards_finalize cfg _) fun _ =>
          Keeps.ret _

theorem guards_replaceWorld (task : Nat) (body : AcceptBody) (staged : TopologyLedger.Staged) :
    Guards cfg.limits initial (replaceWorld cfg task body staged) :=
  have hI := patient_admission
  have hreach := keeps_reach hI.passing
  keeps_app fun old => Keeps.bind (hreach _) fun _ =>
    Keeps.bind (keeps_stopOldWorld hI task old) fun _ => Keeps.bind (hreach _) fun _ =>
    Keeps.bind (keeps_freeze _ _) fun _ => Keeps.bind (hreach _) fun _ =>
    keeps_app fun _ => Keeps.bind (keeps_call hI _) fun _ => Keeps.bind (hreach _) fun _ =>
    Keeps.bind (keeps_pull hI _ _ _) fun _ => Keeps.bind (hreach _) fun _ =>
    Keeps.bind (Keeps.forEach fun r _ => keeps_failFrozen hI r) fun _ =>
    Keeps.bind (hreach _) fun _ => keeps_app fun _ =>
    Keeps.bind (guards_buildScheduler cfg _) fun _ =>
    Keeps.bind (keeps_mayRaise hI.passing) fun _ =>
    Keeps.bind (guards_settleLeases cfg _ _ _ _ _) fun _ => Keeps.bind (hreach _) fun _ =>
    Keeps.bind (keeps_renewReconciler hI old _) fun _ =>
    Keeps.bind (guards_publish task _ _ _) fun _ => Keeps.bind (guards_note trivial) fun _ =>
    guards_sealAndOpen cfg _ _ _

theorem guards_acceptStaged (task : Nat) (body : AcceptBody) (staged : TopologyLedger.Staged) :
    Guards cfg.limits initial (acceptStaged cfg task body staged) := by
  refine keeps_app fun a => ?_
  split
  · exact Keeps.bind (guards_finalize cfg _) fun _ => Keeps.ret _
  · exact guards_replaceWorld cfg task body staged

theorem guards_impl (task : Nat) (body : AcceptBody) :
    Guards cfg.limits initial (acceptReplacementTopologyImpl cfg task body) := by
  refine keeps_app fun a => ?_
  split
  · exact Keeps.raise _
  · exact Keeps.bind (guards_begin _) fun _ => guards_recoverSealed cfg body
  · exact Keeps.bind (guards_begin _) fun _ => guards_recoverCold cfg body
  · exact Keeps.bind (guards_begin _) fun _ => guards_recoverUnsealed cfg body
  · exact Keeps.bind (keeps_stage patient_admission.passing cfg body) fun _ =>
      Keeps.bind (guards_begin _) fun _ => guards_acceptStaged cfg task body _

/-! ## A refresh cycle -/

/-- A cycle opens admission only when nothing is pending at that moment. -/
theorem guards_closeSweep (limits' : StoreLimits) (ref : RegistryRef) (complete drift : Bool) :
    Guards limits initial (update (closeSweep limits' ref complete drift)) := by
  refine Keeps.modify fun _ s h => ⟨fun haccepting => ?_, h.flag, h.cleared⟩
  simp only [Sys.update_shared, Gateway.onApp, closeSweep, topologyAcceptanceAllowsAdmission,
    Bool.and_eq_true, Bool.not_eq_true'] at haccepting
  exact haccepting.1.1.2

theorem guards_refresh : Guards limits initial (refreshWorkerWorldOnce cfg) :=
  have hI := patient_admission
  keeps_app fun _ => Keeps.bind (keeps_sweepWorkers hI _ _ _ _) fun _ =>
    Keeps.bind (keeps_onRegistry hI.passing _ _ _) fun _ => guards_closeSweep _ _ _ _

end Accept

/-! ## Every interleaving -/

theorem happening_flags (e : GatewayHappening) (g : Gateway) :
    ((e.apply g).accepting = true → g.app.accepting = true) ∧
      (e.apply g).topologyAcceptanceRequired = g.app.topologyAcceptanceRequired := by
  cases e with
  | schedulerCall ref c =>
    simp only [GatewayHappening.apply]
    split
    · exact ⟨id, rfl⟩
    · split
      · exact ⟨id, rfl⟩
      · exact ⟨id, rfl⟩
  | taskEnds task =>
    cases task with
    | _ =>
      exact ⟨id, rfl⟩
  | taskDone task =>
    exact ⟨fun h => absurd h (by simp [GatewayHappening.apply, AppState.onControlPlaneTaskDone]),
      rfl⟩
  | _ =>
    exact ⟨id, rfl⟩

theorem AdmissionInv.happening {limits : StoreLimits} {initial : Bool} {g : Gateway}
    (h : AdmissionInv limits initial g) (e : GatewayHappening) :
    AdmissionInv limits initial { g with app := e.apply g } := by
  obtain ⟨haccepting, hpending⟩ := happening_flags e g
  exact ⟨fun ha => hpending.trans (h.closed (haccepting ha)), hpending.trans h.flag, h.cleared⟩

theorem admissionInv_initial (limits : StoreLimits) (a : AppState) :
    AdmissionInv limits a.topologyAcceptanceRequired ⟨a.openAdmission limits, []⟩ where
  closed h := by
    simp only [AppState.openAdmission, AppState.topologyAcceptanceAllowsAdmission,
      Bool.and_eq_true, Bool.not_eq_true'] at h
    exact h.1.2
  flag := rfl
  cleared _ h := absurd h (by simp)

/-- Whatever acceptances, refresh cycles and failures of control tasks interleave after the start
of a gateway: it accepts no request while a topology is pending, the flag of a pending topology is
set and cleared as the log says, and it is cleared under the conditions of admission only. -/
theorem admission_closed_while_pending (cfg : GatewayConfig) (a : AppState)
    (turns : List (Turn GatewayReply GatewayTask GatewayHappening)) :
    let g := ((gatewayCrew cfg).run (Crew.idle ⟨a.openAdmission cfg.limits, []⟩) turns).shared
    (g.app.topologyAcceptanceRequired = true → g.app.accepting = false) ∧
      g.app.topologyAcceptanceRequired = pendingAfter a.topologyAcceptanceRequired g.log ∧
      ∀ b, .cleared b ∈ g.log → AcceptanceReady cfg.limits b := by
  intro g
  have h : AdmissionInv cfg.limits a.topologyAcceptanceRequired g := by
    refine run_preserves (fun t r => ?_) (fun e g hg => hg.happening e)
      (admissionInv_initial cfg.limits a) turns
    simp only [gatewayCrew]
    split
    · exact Keeps.raise _
    · exact Keeps.bind (Accept.keeps_accept Accept.patient_admission (Accept.guards_impl cfg _ _))
        fun _ => Keeps.ret _
    · exact Accept.guards_refresh cfg
  refine ⟨fun hpending => ?_, h.flag, h.cleared⟩
  by_contra haccepting
  have hclosed := h.closed (by simpa using haccepting)
  rw [hpending] at hclosed
  cases hclosed

/-! ## A replacement -/

/-- A gateway whose digests tell what matters. -/
def plainGateway : GatewayConfig where
  digests := TopologyLedger.plainDigests
  hashing := ReplacementDecisionStore.plainHashing
  limits := { retention_pos := Nat.zero_lt_two }
  exclusion _ _ := "sha256:excluded"
  leaseText _ := "lease"
  exclusion_ne_empty _ _ := by decide

/-- A gateway of a first world whose members have all reported. -/
def servingGateway : AppState where
  registries := [(membersOf "a" "g0").foldl (fun r i =>
    (r.updateResourceReport 0 i.instanceId { instanceEpoch := i.instanceEpoch } none).2)
      (TopologyLedger.worldOf "a" "g0")]
  schedulers := [{ highWatermark := 1, kvUsageStaleAfter := 10 }]

def replacement : GatewayTask := .accept 0 (TopologyLedger.requestOf "run" "a" "g0" "b" "g1")

def freshReports : GatewayReply :=
  .reports (["d0", "d1", "p0", "p1"].map fun name =>
    (some { instanceEpoch := "b-" ++ name ++ ":1" }, 0))

def replacementTurns : List (Turn GatewayReply GatewayTask GatewayHappening) :=
  .start replacement :: (List.replicate 5 GatewayReply.ok ++ List.replicate 3 freshReports).map
    (.resume replacement)

/-- Whether a gateway accepts and whether a topology is pending, after the first turns. -/
def flagsAfter (turns : Nat) : Bool × Bool :=
  let g := ((gatewayCrew plainGateway).run
    (Crew.idle ⟨servingGateway.openAdmission plainGateway.limits, []⟩)
    (replacementTurns.take turns)).shared
  (g.app.accepting, g.app.topologyAcceptanceRequired)

-- the gateway accepts up to the first statement of the replacement, and again after its last
example : flagsAfter 1 = (true, false) ∧ flagsAfter 2 = (false, true) ∧
    flagsAfter 8 = (false, true) ∧ flagsAfter 9 = (true, false) := by
  decide +kernel

end PrismServe
