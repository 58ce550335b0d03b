import PrismServe.Gateway.Acceptance

/-!
# Steps of the gateway that pass by

Most statements of an acceptance and of a refresh cycle touch neither the flags
of admission, nor a scheduler, nor the store.  `Patient C I` says that such
steps do not disturb the assertion `I`, and that a task under the contract `C`
can carry it through its suspensions; the lemmas show which parts keep every
such assertion.
-/

namespace PrismServe

open Lib Prog

/-- Every record of the ledger is kept under the id of its run. -/
def TopologyLedger.Filed (L : TopologyLedger) : Prop :=
  ∀ run record, L.records.get? run = some record → record.restartRunId = run

/-- The flags of admission, the schedulers and the store are the same. -/
structure AppState.Aside (a b : AppState) : Prop where
  accepting : b.accepting = a.accepting
  required : b.topologyAcceptanceRequired = a.topologyAcceptanceRequired
  schedulers : b.schedulers = a.schedulers
  scheduler : b.scheduler = a.scheduler
  evaluator : b.resourceReleaseEvaluator = a.resourceReleaseEvaluator
  store : b.replacementStore = a.replacementStore
  ledger : a.topologyAdmin.Filed → b.topologyAdmin.Filed

/-- A moment that only tells how far a task has come. -/
def GatewayMoment.Plain : GatewayMoment → Prop
  | .joined _ => True
  | .reached _ => True
  | _ => False

structure Gateway.Passes (g g' : Gateway) : Prop where
  app : g.app.Aside g'.app
  log : ∃ moments, g'.log = g.log ++ moments ∧ ∀ m ∈ moments, m.Plain

namespace TopologyLedger

theorem Filed.moveToEnd {L : TopologyLedger} (h : L.Filed) (run : String) :
    Filed { L with records := L.records.moveToEnd run } := by
  intro run' record hget
  rw [Dict.get?_moveToEnd] at hget
  exact h run' record hget

theorem Filed.keepRecord {L : TopologyLedger} (h : L.Filed) (record : RestartRunRecord) :
    (L.keepRecord record).Filed := by
  intro run other hget
  have hmem := Dict.keepNewest_subset _ _ ((Dict.mem_entries_iff _ _ _).mpr hget)
  rw [Dict.mem_entries_iff, Dict.get?_moveToEnd, Dict.get?_set] at hmem
  split at hmem
  · rename_i hrun
    cases hmem
    exact hrun.symm
  · exact h run other hmem

theorem Filed.commit {L L' : TopologyLedger} (hL : L.Filed) {record : RestartRunRecord}
    {candidate : RegistryRef} {heap : Registries} (h : L.commit record candidate heap = .ok L') :
    L'.Filed := by
  unfold TopologyLedger.commit at h
  split at h
  · split at h
    · cases h
    · cases h
      exact hL
  · split at h
    · cases h
    split at h
    · cases h
    · cases h
      exact hL.keepRecord record

theorem Filed.recoverCommittedRun {L L' : TopologyLedger} (hL : L.Filed) {record : RestartRunRecord}
    {heap : Registries} (h : L.recoverCommittedRun record heap = .ok L') : L'.Filed := by
  unfold TopologyLedger.recoverCommittedRun at h
  split at h
  · split at h
    · cases h
    · cases h
      exact hL.moveToEnd _
  · split at h
    · cases h
    split at h
    · cases h
    · cases h
      exact hL.keepRecord record

/-- A staged record is that of the run of the request. -/
theorem Filed.stage {L L' : TopologyLedger} (hL : L.Filed) {D : Digests} {now : Nat}
    {body : AcceptBody} {heap heap' : Registries} {staged : Staged}
    (h : L.stage D now body heap = .ok (staged, heap', L')) :
    L'.Filed ∧ staged.record.restartRunId = body.restartRunId := by
  unfold TopologyLedger.stage at h
  split at h
  · rename_i existing hget
    split at h
    · cases h
    · cases h
      exact ⟨hL.moveToEnd _, hL _ _ hget⟩
  · split at h
    · cases h
    · obtain ⟨candidate, _, h⟩ := bind_eq_ok.mp h
      cases h
      exact ⟨hL, rfl⟩

end TopologyLedger

namespace AppState

theorem Aside.refl (a : AppState) : Aside a a := ⟨rfl, rfl, rfl, rfl, rfl, rfl, id⟩

theorem setRegistry_aside (ref : RegistryRef) (r : WorkerRegistry) (a : AppState) :
    Aside a (a.setRegistry ref r) :=
  ⟨rfl, rfl, rfl, rfl, rfl, rfl, id⟩

theorem beginExpected_aside {task : Nat} {a b : AppState}
    (h : a.beginExpectedReconcilerReplacement task = .ok b) : Aside a b := by
  simp only [beginExpectedReconcilerReplacement] at h
  split at h
  · cases h
  split at h
  · cases h
  split at h
  · cases h
  · cases h
    exact ⟨rfl, rfl, rfl, rfl, rfl, rfl, id⟩

theorem finishExpected_aside (task : Nat) (a : AppState) :
    Aside a (a.finishExpectedReconcilerReplacement task) := by
  unfold finishExpectedReconcilerReplacement
  split
  · exact ⟨rfl, rfl, rfl, rfl, rfl, rfl, id⟩
  · exact .refl a

end AppState

theorem Gateway.Passes.of_aside {g : Gateway} {a : AppState} (h : g.app.Aside a) :
    Gateway.Passes g { g with app := a } :=
  ⟨h, [], by simp, by simp⟩

/-- A step that passes by. -/
def Passing (s t : Sys Gateway Empty) : Prop := s.shared.Passes t.shared

structure Patient (C : Contract Gateway GatewayCall Empty)
    (I : Sys Gateway Empty → Sys Gateway Empty → Prop) : Prop where
  passing : Respects I Passing
  carried : Carried C I
  note : ∀ c s, C.note c s

namespace Accept

open AppState

variable {C : Contract Gateway GatewayCall Empty}
variable {I : Sys Gateway Empty → Sys Gateway Empty → Prop} {α β : Type}

theorem keeps_app {f : AppState → Accept β} (hf : ∀ a, Keeps C I (f a)) :
    Keeps C I (app.bind f) :=
  fun s₀ s h => hf s.shared.app s₀ s h

/-! ## Single steps -/

section Steps

variable (hI : Respects I Passing)

include hI

theorem keeps_update {f : AppState → AppState} (hf : ∀ a, Aside a (f a)) :
    Keeps C I (update f) :=
  Keeps.modify fun s₀ s h => hI s₀ s _ h (Gateway.Passes.of_aside (hf s.shared.app))

theorem keeps_attempt {f : AppState → Except AcceptError AppState}
    (hf : ∀ a b, f a = .ok b → Aside a b) : Keeps C I (attempt f) := by
  refine Keeps.attempt fun s₀ s _ w h hok => ?_
  split at hok
  · rename_i a ha
    cases hok
    exact hI s₀ s _ h (Gateway.Passes.of_aside (hf _ _ ha))
  · cases hok

theorem keeps_attemptWith {f : AppState → Except AcceptError α × AppState}
    (hf : ∀ a, Aside a (f a).2) : Keeps C I (attemptWith f) :=
  Keeps.attemptWith fun s₀ s h => hI s₀ s _ h (Gateway.Passes.of_aside (hf s.shared.app))

theorem keeps_note {m : GatewayMoment} (hm : m.Plain) : Keeps C I (note m) := by
  refine Keeps.modify fun s₀ s h => hI s₀ s _ h ⟨.refl _, [m], rfl, fun x hx => ?_⟩
  rw [List.mem_singleton.mp hx]
  exact hm

theorem keeps_reach (point : AcceptPoint) : Keeps C I (reach point) := keeps_note hI trivial

theorem keeps_mayRaise : Keeps C I mayRaise := by
  refine keeps_attemptWith hI fun a => ?_
  split
  · exact ⟨rfl, rfl, rfl, rfl, rfl, rfl, id⟩
  · exact ⟨rfl, rfl, rfl, rfl, rfl, rfl, id⟩
  · exact .refl a

theorem keeps_check (f : AppState → Except AcceptError Unit) : Keeps C I (check f) := by
  refine keeps_attempt hI fun a b h => ?_
  obtain ⟨_, _, h⟩ := bind_eq_ok.mp h
  cases h
  exact .refl a

theorem keeps_changeLedger {f : Registries → TopologyLedger → Except Exc TopologyLedger}
    (hf : ∀ heap L L', f heap L = .ok L' → L.Filed → L'.Filed) :
    Keeps C I (attempt (changeLedger f)) := by
  refine keeps_attempt hI fun a b h => ?_
  unfold changeLedger at h
  split at h
  · rename_i ledger hledger
    cases h
    exact ⟨rfl, rfl, rfl, rfl, rfl, rfl, hf _ _ _ hledger⟩
  · cases h

theorem keeps_commit (record : RestartRunRecord) (candidate : RegistryRef) :
    Keeps C I (attempt (changeLedger fun heap L => L.commit record candidate heap)) :=
  keeps_changeLedger hI fun _ _ _ h hL => hL.commit h

theorem keeps_recoverCommittedRun (record : RestartRunRecord) :
    Keeps C I (attempt (changeLedger fun heap L => L.recoverCommittedRun record heap)) :=
  keeps_changeLedger hI fun _ _ _ h hL => hL.recoverCommittedRun h

theorem keeps_installSamples (ref : RegistryRef) (operations resources : List String)
    (samples : List (String × Option ResourceReport × Nat)) :
    Keeps C I (attemptWith (installSamples ref operations resources samples)) := by
  refine keeps_attemptWith hI fun a => ?_
  unfold installSamples
  split
  · exact .refl a
  split
  · exact setRegistry_aside _ _ a
  · split
    · exact setRegistry_aside _ _ a
    · exact setRegistry_aside _ _ a

theorem keeps_installColdReports (body : AcceptBody) :
    Keeps C I (attemptWith (installColdReports body)) := by
  refine keeps_attemptWith hI fun a => ?_
  unfold installColdReports
  split
  · exact .refl a
  · exact setRegistry_aside _ _ a

theorem keeps_onRegistry (ref : RegistryRef) (otherwise : α)
    (f : AppState → WorkerRegistry → α × WorkerRegistry) :
    Keeps C I (onRegistry ref otherwise f) := by
  refine keeps_attemptWith hI fun a => ?_
  split
  · exact .refl a
  · exact setRegistry_aside _ _ a

theorem keeps_stage (cfg : GatewayConfig) (body : AcceptBody) : Keeps C I (stage cfg body) := by
  refine Keeps.attempt fun s₀ s _ w h hok => ?_
  split at hok
  · rename_i hstage
    cases hok
    exact hI s₀ s _ h (Gateway.Passes.of_aside
      ⟨rfl, rfl, rfl, rfl, rfl, rfl, fun hL => (hL.stage hstage).1⟩)
  · cases hok

theorem keeps_finishAcceptance (task : Nat) : Keeps C I (update (finishAcceptance task)) := by
  refine keeps_update hI fun a => ?_
  have h := finishExpected_aside task a
  unfold finishAcceptance
  split
  · exact ⟨h.accepting, h.required, h.schedulers, h.scheduler, h.evaluator, h.store,
      h.ledger⟩
  · exact h

omit hI in
theorem keeps_freeze (ref : SchedulerRef) (body : AcceptBody) : Keeps C I (freeze ref body) := by
  refine keeps_app fun a => ?_
  dsimp only
  split
  · exact Keeps.raise _
  · exact Keeps.ret _

end Steps

/-! ## Parts with suspensions -/

section Parts

variable (hI : Patient C I)

include hI

theorem keeps_await {c : GatewayCall} {k : GatewayReply → Accept α}
    (hk : ∀ r, Keeps C I (k r)) : Keeps C I (.await c k) :=
  Keeps.await hI.carried (fun _ s _ => hI.note c s) hk

theorem keeps_call (c : GatewayCall) : Keeps C I (call c) := by
  refine keeps_await hI fun r => ?_
  split
  · exact Keeps.ret _
  · exact Keeps.raise _
  · exact Keeps.raise _

theorem keeps_join {c : GatewayCall} {stop : AppState → AppState}
    (hstop : ∀ a, Aside a (stop a)) : Keeps C I (join c stop) := by
  refine keeps_await hI fun r => Keeps.bind (keeps_update hI.passing hstop) fun _ => ?_
  split
  · exact Keeps.ret _
  · exact Keeps.raise _
  · exact Keeps.raise _

theorem keeps_pull (ref : RegistryRef) (operations resources : List String) :
    Keeps C I (pullReplacementResourceReports ref operations resources) := by
  refine keeps_app fun a => keeps_await hI fun r => ?_
  split
  · exact keeps_installSamples hI.passing _ _ _ _
  · exact Keeps.raise _
  · exact Keeps.raise _

theorem keeps_stopCoordinator (old : AppState) : Keeps C I (stopCoordinator old) := by
  unfold stopCoordinator
  split
  · exact keeps_call hI _
  · exact Keeps.ret _

theorem keeps_stopReconciler (task : Nat) (old : AppState) :
    Keeps C I (stopReconciler task old) := by
  unfold stopReconciler
  split
  · exact Keeps.bind (keeps_attempt hI.passing fun _ _ => beginExpected_aside) fun _ =>
      keeps_join hI fun _ => ⟨rfl, rfl, rfl, rfl, rfl, rfl, id⟩
  · exact Keeps.ret _

/-- The mutators, up to the note that they were joined. -/
theorem keeps_stopMutators (old : AppState) {f : Unit → Accept α} (hf : ∀ u, Keeps C I (f u)) :
    Keeps C I ((join .joinLoop fun a => { a with loopTask := a.loopTask.stop }).bind fun _ =>
      (call .quiesceNetwork).bind fun _ => (stopCoordinator old).bind fun _ =>
        (call .quiesceCleanup).bind f) :=
  Keeps.bind (keeps_join hI fun _ => ⟨rfl, rfl, rfl, rfl, rfl, rfl, id⟩) fun _ =>
    Keeps.bind (keeps_call hI _) fun _ => Keeps.bind (keeps_stopCoordinator hI old) fun _ =>
      Keeps.bind (keeps_call hI _) hf

theorem keeps_stopOldWorld (task : Nat) (old : AppState) : Keeps C I (stopOldWorld task old) :=
  keeps_stopMutators hI old fun _ => Keeps.bind (keeps_note hI.passing trivial) fun _ =>
    keeps_stopReconciler hI task old

theorem keeps_failFrozen (r : RunningRequest) : Keeps C I (failFrozen r) :=
  Keeps.bind (keeps_call hI _) fun _ =>
    keeps_update hI.passing fun _ => ⟨rfl, rfl, rfl, rfl, rfl, rfl, id⟩

theorem keeps_rebuildWorld (candidate : RegistryRef) : Keeps C I (rebuildWorld candidate) := by
  refine keeps_app fun a => ?_
  dsimp only
  split
  · exact Keeps.raise _
  refine keeps_await hI fun r => ?_
  split
  · split
    · exact Keeps.ret _
    · exact Keeps.raise _
  · exact Keeps.raise _
  · exact Keeps.raise _

theorem keeps_renewReconciler (old : AppState) (candidate : RegistryRef) :
    Keeps C I (renewReconciler old candidate) := by
  unfold renewReconciler
  split
  · exact Keeps.bind (keeps_rebuildWorld hI _) fun _ => Keeps.ret _
  · exact Keeps.ret _

theorem keeps_sweepWorkers (ref : RegistryRef) (expected : Dict String PairCapability) :
    ∀ names sweep, Keeps C I (sweepWorkers ref expected names sweep) := by
  intro names
  induction names with
  | nil =>
    exact fun sweep => Keeps.ret sweep
  | cons name rest ih =>
    refine fun sweep => keeps_await hI fun r => ?_
    split
    · exact Keeps.raise _
    · exact Keeps.bind (keeps_onRegistry hI.passing ref sweep _) ih
    · exact ih _

/-- The names that the request takes and gives back do not matter. -/
theorem keeps_accept {cfg : GatewayConfig} {task : Nat} {body : AcceptBody}
    (himpl : Keeps C I (acceptReplacementTopologyImpl cfg task body)) :
    Keeps C I (acceptReplacementTopology cfg task body) := by
  refine keeps_app fun a => ?_
  split
  · exact Keeps.raise _
  refine Keeps.bind (keeps_update hI.passing fun _ => ⟨rfl, rfl, rfl, rfl, rfl, rfl, id⟩) fun _ =>
    Keeps.bind ?_ fun _ => Keeps.bind (keeps_finishAcceptance hI.passing task) fun _ => Keeps.ret _
  refine Keeps.rescue himpl fun e q hq => ?_
  cases hq
  exact Keeps.bind (keeps_finishAcceptance hI.passing task) fun _ => Keeps.raise e

end Parts

end Accept

end PrismServe
