import PrismServe.Scheduler.StoreCommits

/-!
# The replacement store across crashes and restarts

A world is a directory and, unless it has crashed, the process that has the
store open.  Events are calls of the store and constructions of a new one, each
with what comes of its writes.

Whatever happens, the file holds contents that are consistent and either settled
or sealed and not yet collected; a store that has not failed holds exactly what
the file does.
-/

namespace PrismServe

open Lib

namespace ReplacementDecisionStore

/-! ## Worlds and events -/

structure StoreProcess where
  limits : StoreLimits
  store : ReplacementDecisionStore

structure StoreWorld where
  directory : Directory Envelope := {}
  process : Option StoreProcess := none

inductive StoreEvent
  | construct (limits : StoreLimits) (writes : List WriteOutcome)
  | call (request : StoreCall) (writes : List WriteOutcome)

/-- The world that a method leaves behind. -/
def settle {α : Type} (limits : StoreLimits) : EStateM.Result StoreStop Host α → StoreWorld
  | .ok _ h => ⟨h.directory, some ⟨limits, h.store⟩⟩
  | .error (.raised _) h => ⟨h.directory, some ⟨limits, h.store⟩⟩
  | .error .crashed h => ⟨h.directory, none⟩

def StoreEvent.apply (H : Hashing) (w : StoreWorld) : StoreEvent → StoreWorld
  | .construct limits writes =>
    settle limits ((openStore H limits).run { directory := w.directory, writes := writes })
  | .call request writes =>
    match w.process with
    | none => w
    | some p => settle p.limits
        ((runCall H p.limits request).run ⟨p.store, w.directory, writes⟩)

def runEvents (H : Hashing) (w : StoreWorld) (events : List StoreEvent) : StoreWorld :=
  events.foldl (fun w event => event.apply H w) w

/-- No field of the records and no new generation is empty. -/
def StoreCall.filled : StoreCall → Prop
  | .persistRecord record _ => record.complete = true
  | .persistRecords records _ _ _ => ∀ r ∈ records, r.complete = true
  | .sealRun _ _ new _ => new ≠ ""
  | _ => True

def StoreEvent.filled : StoreEvent → Prop
  | .construct _ _ => True
  | .call request _ => request.filled

/-- The file of a directory holds given contents; no file stands for the empty ones. -/
def Holds (H : Hashing) (d : Directory Envelope) (c : StoreContents) : Prop :=
  d.main = some (envelopeOf H c) ∨ (d.main = none ∧ c = {})

variable {c : StoreContents} {limits : StoreLimits} {H : Hashing} {d : Directory Envelope}
  {cs : List StoreContents} {w : StoreWorld} {s : ReplacementDecisionStore} {full : Prop}
  {error : String} {f : StoreContents} {p : StoreProcess}

theorem Holds.fileSeals_eq (h : Holds H d c) : fileSeals d = c.seals := by
  rcases h with h | ⟨h, rfl⟩
  · simp [fileSeals, h, envelopeOf, payloadOf]
  · simp [fileSeals, h]

theorem Holds.mem_fileRecords (h : Holds H d c) {r : ReplacementReleaseRecord} :
    r ∈ fileRecords d ↔ ∃ k, c.records.get? k = some r := by
  rcases h with h | ⟨h, rfl⟩
  · simp only [fileRecords, h, envelopeOf, payloadOf, Option.map_some, Option.getD_some,
      mem_sortedRecords, Dict.mem_values_iff]
  · simp [fileRecords, h]

/-! ## What is committed -/

theorem withSeal_seals (limits : StoreLimits) (runSeal : ReplacementRunSeal) (c : StoreContents) :
    (withSeal limits runSeal c).seals =
      c.seals.drop (c.seals.length + 1 - limits.sealRetention) ++ [runSeal] := by
  have := limits.retention_pos
  unfold withSeal newest
  rw [List.length_append, List.length_singleton, List.drop_append_of_le_length (by omega)]

theorem mem_withSeal_seals {runSeal x : ReplacementRunSeal}
    (h : x ∈ (withSeal limits runSeal c).seals) : x ∈ c.seals ∨ x = runSeal := by
  rw [withSeal_seals] at h
  rcases List.mem_append.mp h with h | h
  · exact .inl (List.mem_of_mem_drop h)
  · exact .inr (List.mem_singleton.mp h)

theorem sealForRun_withSeal {runSeal : ReplacementRunSeal}
    (h : sealForRun c runSeal.restartRunId = none) :
    sealForRun (withSeal limits runSeal c) runSeal.restartRunId = some runSeal := by
  have hdrop : (c.seals.drop (c.seals.length + 1 - limits.sealRetention)).find?
      (fun x => decide (x.restartRunId = runSeal.restartRunId)) = none := by
    rw [List.find?_eq_none]
    intro x hx
    simpa using sealForRun_eq_none.mp h x (List.mem_of_mem_drop hx)
  unfold sealForRun
  rw [withSeal_seals, List.find?_append, hdrop]
  simp

theorem withSeal_consistent (hc : Consistent limits c) {runSeal : ReplacementRunSeal}
    (hnumber : runSeal.sealSequence = c.nextSealSequence)
    (hunsealed : sealForRun c runSeal.restartRunId = none) :
    Consistent limits (withSeal limits runSeal c) where
  keyed := hc.keyed
  segment := hc.segment
  leases := hc.leases
  capacity := hc.capacity
  rising := by
    rw [withSeal_seals, List.pairwise_append]
    refine ⟨hc.rising.sublist (List.drop_sublist _ _), List.pairwise_singleton _ _, ?_⟩
    intro a ha b hb
    rw [List.mem_singleton.mp hb, hnumber]
    exact hc.next a (List.mem_of_mem_drop ha)
  distinct := by
    rw [withSeal_seals, List.map_append, List.nodup_append]
    refine ⟨hc.distinct.sublist ((List.drop_sublist _ _).map _), by simp, ?_⟩
    intro a ha b hb
    obtain ⟨x, hx, rfl⟩ := List.mem_map.mp ha
    obtain ⟨y, hy, rfl⟩ := List.mem_map.mp hb
    rw [List.mem_singleton.mp hy]
    exact sealForRun_eq_none.mp hunsealed x (List.mem_of_mem_drop hx)
  retained := by
    have := limits.retention_pos
    rw [withSeal_seals, List.length_append, List.length_drop, List.length_singleton]
    omega
  next := by
    intro x hx
    change x.sealSequence < runSeal.sealSequence + 1
    rcases mem_withSeal_seals hx with hx | rfl
    · have := hc.next x hx
      omega
    · omega

theorem collected_consistent (hc : Consistent limits c) : Consistent limits (collected c) :=
  ⟨by simp [collected], by simp [collected], by simp [collected], Nat.zero_le _, hc.rising,
    hc.distinct, hc.retained, hc.next⟩

theorem collected_settled (c : StoreContents) : Settled (collected c) := by
  intro run h
  cases h

theorem collected_complete (hc : Complete c) : Complete (collected c) :=
  ⟨by simp [collected], by simp [collected], hc.seals, hc.next⟩

/-- What the file holds at any moment of a plan. -/
structure OnFile (H : Hashing) (limits : StoreLimits) (c : StoreContents) : Prop where
  consistent : Consistent limits c
  collectable : Settled c ∨ Uncollected H c

theorem Commits.onFile (h : Commits H limits c cs) (hc : Consistent limits c) :
    ∀ c' ∈ cs, OnFile H limits c' := by
  cases h with
  | nothing =>
    simp
  | segment run records continued unsealed kept consistent =>
    intro c' hc'
    cases List.mem_singleton.mp hc'
    refine ⟨consistent, .inl ?_⟩
    intro run' hrun
    cases hrun
    exact unsealed
  | seals run runSeal active unsealed sealsRun number vouched =>
    have hmarked := withSeal_consistent hc number (sealsRun ▸ unsealed)
    intro c' hc'
    rcases List.mem_cons.mp hc' with rfl | hc'
    · refine ⟨hmarked, .inr ⟨run, runSeal, active, ?_, vouched⟩⟩
      rw [← sealsRun]
      exact sealForRun_withSeal (sealsRun ▸ unsealed)
    · cases List.mem_singleton.mp hc'
      exact ⟨collected_consistent hmarked, .inl (collected_settled _)⟩

theorem Commits.settled (h : Commits H limits c cs) (hc : Settled c) : Settled (cs.getLastD c) := by
  cases h with
  | nothing =>
    exact hc
  | segment run records continued unsealed kept consistent =>
    intro run' hrun
    cases hrun
    exact unsealed
  | seals run runSeal active unsealed sealsRun number vouched =>
    exact collected_settled _

/-- Numbers of seals only rise: a seal that was not there before has a new number. -/
structure Advances (c c' : StoreContents) : Prop where
  next : c.nextSealSequence ≤ c'.nextSealSequence
  seals : ∀ runSeal ∈ c'.seals, runSeal ∈ c.seals ∨ c.nextSealSequence ≤ runSeal.sealSequence

theorem Advances.refl (c : StoreContents) : Advances c c := ⟨le_rfl, fun _ h => .inl h⟩

theorem Commits.advances (h : Commits H limits c cs) : ∀ c' ∈ cs, Advances c c' := by
  cases h with
  | nothing =>
    simp
  | segment run records continued unsealed kept consistent =>
    intro c' hc'
    cases List.mem_singleton.mp hc'
    exact ⟨le_rfl, fun _ h => .inl h⟩
  | seals run runSeal active unsealed sealsRun number vouched =>
    have hmarked : Advances c (withSeal limits runSeal c) := by
      refine ⟨?_, fun x hx => ?_⟩
      · change c.nextSealSequence ≤ runSeal.sealSequence + 1
        omega
      · rcases mem_withSeal_seals hx with hx | rfl
        · exact .inl hx
        · exact .inr number.ge
    intro c' hc'
    rcases List.mem_cons.mp hc' with rfl | hc'
    · exact hmarked
    · cases List.mem_singleton.mp hc'
      exact ⟨hmarked.next, hmarked.seals⟩

theorem plan_complete (hc : Consistent limits s.toStoreContents)
    (hcomplete : Complete s.toStoreContents) {call : StoreCall} (hfilled : call.filled)
    {a : StoreAnswer} (h : plan H limits call s = .ok (a, cs)) : ∀ c' ∈ cs, Complete c' := by
  cases call with
  | persistRecord record old =>
    obtain ⟨found, hl, h⟩ := bind_eq_ok.mp h
    cases found with
    | some existing =>
      cases h
      simp
    | none =>
      simp only at h
      split at h
      · cases h
      split at h
      · cases h
      cases h
      intro c' hc'
      cases List.mem_singleton.mp hc'
      have hrecord : record.complete = true := hfilled
      refine ⟨?_, ?_, hcomplete.seals, hcomplete.next⟩
      · intro k r hget
        simp only [withRecord, Dict.get?_set] at hget
        split at hget
        · cases hget
          exact hrecord
        · exact hcomplete.records k r hget
      · intro run hrun
        cases hactive : s.activeRun with
        | some active =>
          simp only [withRecord, hactive, Option.getD_some, Option.some.injEq] at hrun
          exact hrun ▸ hcomplete.run active hactive
        | none =>
          simp only [withRecord, hactive, Option.getD_none, Option.some.injEq] at hrun
          subst hrun
          simp only [ReplacementReleaseRecord.complete, Bool.and_eq_true,
            decide_eq_true_eq] at hrecord
          exact hrecord.2
  | persistRecords records run old decision =>
    obtain ⟨b, hb, h⟩ := bind_eq_ok.mp h
    simp only [return_eq_ok, Except.ok.injEq, Prod.mk.injEq] at h
    obtain ⟨_, rfl⟩ := h
    have haccepted := validateBatch_ok hc hb
    split
    · intro c' hc'
      cases List.mem_singleton.mp hc'
      refine ⟨?_, ?_, hcomplete.seals, hcomplete.next⟩
      · intro k r hget
        rcases haccepted.batched.origin k r hget with hbase | ⟨hmem, _⟩
        · exact hcomplete.records k r hbase
        · exact hfilled r hmem
      · intro run' hrun
        cases hrun
        exact haccepted.decision_ne
    · simp
  | sealRun run old new decision =>
    obtain ⟨found, hv, h⟩ := bind_eq_ok.mp h
    cases found with
    | some existing =>
      cases h
      simp
    | none =>
      cases h
      obtain ⟨hne, _, hactive⟩ := validateSeal_none hv
      have hnew : new ≠ "" := hfilled
      have hdecision : decision ≠ "" := hcomplete.run _ hactive
      have hseal : (newSeal H s.toStoreContents run old new decision).complete = true := by
        simp [ReplacementRunSeal.complete, newSeal, hne, hnew, hdecision, hcomplete.next,
          H.text_ne_empty, recordRoot, H.records_ne_empty]
      have hmarked : Complete (withSeal limits
          (newSeal H s.toStoreContents run old new decision) s.toStoreContents) := by
        refine ⟨hcomplete.records, hcomplete.run, ?_, Nat.succ_ne_zero _⟩
        intro x hx
        rcases mem_withSeal_seals hx with hx | rfl
        · exact hcomplete.seals x hx
        · exact hseal
      intro c' hc'
      rcases List.mem_cons.mp hc' with rfl | hc'
      · exact hmarked
      · cases List.mem_singleton.mp hc'
        exact collected_complete hmarked
  | _ =>
    obtain ⟨_, _, h⟩ := bind_eq_ok.mp h
    cases h
    simp

/-! ## Writes -/

/-- How one commit ends. -/
theorem commitState_cases (H : Hashing) (c : StoreContents) (h : Host) :
    ∃ rest,
      (commitState H c).run h =
        .ok () ⟨{ h.store with toStoreContents := c },
          h.directory.write (envelopeOf H c) .replaced, rest⟩ ∨
      (∃ effect error, (commitState H c).run h =
        .error (.raised (.unavailable "replacement store persistence failed closed"))
          ⟨{ h.store with fatalError := some error },
            h.directory.write (envelopeOf H c) effect, rest⟩) ∨
      (∃ effect, (commitState H c).run h =
        .error .crashed ⟨h.store, h.directory.write (envelopeOf H c) effect, rest⟩) := by
  obtain ⟨store, directory, writes⟩ := h
  cases writes with
  | nil =>
    exact ⟨[], .inl (by simp [commitState, nextWrite, onDirectory])⟩
  | cons outcome rest =>
    refine ⟨rest, ?_⟩
    cases outcome with
    | done =>
      exact .inl (by simp [commitState, nextWrite, onDirectory])
    | fails effect error =>
      exact .inr (.inl ⟨effect, error, by simp [commitState, nextWrite, onDirectory]⟩)
    | crashes effect =>
      exact .inr (.inr ⟨effect, by simp [commitState, nextWrite, onDirectory]⟩)

theorem commitState_undisturbed (H : Hashing) (c : StoreContents) (s : ReplacementDecisionStore)
    (d : Directory Envelope) :
    (commitState H c).run ⟨s, d, []⟩ =
      .ok () ⟨{ s with toStoreContents := c }, d.write (envelopeOf H c) .replaced, []⟩ := by
  simp [commitState, nextWrite, onDirectory]

/-- How the writes of a plan end: all of them are done, or one of them is cut short. -/
inductive Written (H : Hashing) (limits : StoreLimits) (c : StoreContents)
    (cs : List StoreContents) (orphan : Bool) : StoreWorld → Prop
  | done (d : Directory Envelope) (holds : Holds H d (cs.getLastD c)) (same : d.orphan = orphan) :
      Written H limits c cs orphan ⟨d, some ⟨limits, ⟨cs.getLastD c, none⟩⟩⟩
  | failed (d : Directory Envelope) (f m : StoreContents) (error : String) (holds : Holds H d f)
      (file : f ∈ c :: cs) (memory : m ∈ (c :: cs).dropLast) :
      Written H limits c cs orphan ⟨d, some ⟨limits, ⟨m, some error⟩⟩⟩
  | crashed (d : Directory Envelope) (f : StoreContents) (holds : Holds H d f)
      (file : f ∈ c :: cs) : Written H limits c cs orphan ⟨d, none⟩

theorem Holds.write (h : Holds H d c) (c' : StoreContents) (effect : WriteEffect) :
    Holds H (d.write (envelopeOf H c') effect) c ∨
      Holds H (d.write (envelopeOf H c') effect) c' := by
  rcases d.write_main (envelopeOf H c') effect with hmain | hmain
  · left
    unfold Holds
    rw [hmain]
    exact h
  · exact .inr (.inl hmain)

theorem Written.cons {c c' : StoreContents} {orphan : Bool} (h : Written H limits c' cs orphan w) :
    Written H limits c (c' :: cs) orphan w := by
  cases h with
  | done d holds same =>
    have hlast : (c' :: cs).getLastD c = cs.getLastD c' := List.getLastD_cons
    rw [← hlast] at holds ⊢
    exact .done d holds same
  | failed d f m error holds file memory =>
    exact .failed d f m error holds (List.mem_cons_of_mem _ file) (by simp [memory])
  | crashed d f holds file =>
    exact .crashed d f holds (List.mem_cons_of_mem _ file)

theorem getLastD_mem (c : StoreContents) : ∀ cs : List StoreContents, cs.getLastD c ∈ c :: cs
  | [] => by simp
  | c' :: rest => by
      rw [List.getLastD_cons]
      exact List.mem_cons_of_mem _ (getLastD_mem c' rest)

theorem commitAll_written {α : Type} (H : Hashing) (limits : StoreLimits) (a : α) :
    ∀ (cs : List StoreContents) (c : StoreContents) (d : Directory Envelope)
      (writes : List WriteOutcome), Holds H d c →
      Written H limits c cs d.orphan
        (settle limits ((do commitAll H cs; return a : StoreM α).run ⟨⟨c, none⟩, d, writes⟩))
  | [], c, d, writes, h => by
      exact .done d h rfl
  | c' :: rest, c, d, writes, h => by
      obtain ⟨left, hrun⟩ := commitState_cases H c' ⟨⟨c, none⟩, d, writes⟩
      have hfile (effect : WriteEffect) : ∃ f ∈ c :: c' :: rest,
          Holds H (d.write (envelopeOf H c') effect) f := by
        rcases h.write c' effect with h | h
        · exact ⟨c, by simp, h⟩
        · exact ⟨c', by simp, h⟩
      rcases hrun with hrun | ⟨effect, error, hrun⟩ | ⟨effect, hrun⟩
      · have ih := commitAll_written H limits a rest c' (d.write (envelopeOf H c') .replaced) left
          (.inl rfl)
        simp only [commitAll, EStateM.run_bind, hrun, bind_assoc] at ih ⊢
        exact ih.cons
      · obtain ⟨f, hmem, hf⟩ := hfile effect
        simp only [commitAll, EStateM.run_bind, hrun, bind_assoc, settle]
        exact .failed _ f c error hf hmem (by simp)
      · obtain ⟨f, hmem, hf⟩ := hfile effect
        simp only [commitAll, EStateM.run_bind, hrun, bind_assoc, settle]
        exact .crashed _ f hf hmem

/-- When all writes are done, the last contents are in memory and on file. -/
theorem commitAll_ok :
    ∀ {cs : List StoreContents} {c : StoreContents} {d : Directory Envelope}
      {writes : List WriteOutcome} {h' : Host}, Holds H d c →
      (commitAll H cs).run ⟨⟨c, none⟩, d, writes⟩ = .ok () h' →
      h'.store = ⟨cs.getLastD c, none⟩ ∧ Holds H h'.directory (cs.getLastD c)
  | [], c, d, writes, h', hd, hrun => by
      cases hrun
      exact ⟨rfl, hd⟩
  | c' :: rest, c, d, writes, h', hd, hrun => by
      have hlast : (c' :: rest).getLastD c = rest.getLastD c' := List.getLastD_cons
      rw [hlast]
      obtain ⟨left, hcases⟩ := commitState_cases H c' ⟨⟨c, none⟩, d, writes⟩
      rw [commitAll, EStateM.run_bind] at hrun
      rcases hcases with hcase | ⟨effect, error, hcase⟩ | ⟨effect, hcase⟩
      · rw [hcase] at hrun
        exact commitAll_ok (.inl rfl) hrun
      · rw [hcase] at hrun
        cases hrun
      · rw [hcase] at hrun
        cases hrun

theorem commitAll_undisturbed {α : Type} (H : Hashing) (limits : StoreLimits) (a : α) :
    ∀ (cs : List StoreContents) (c : StoreContents) (d : Directory Envelope), Holds H d c →
      ∃ d', Holds H d' (cs.getLastD c) ∧ d'.orphan = d.orphan ∧
        settle limits ((do commitAll H cs; return a : StoreM α).run ⟨⟨c, none⟩, d, []⟩) =
          ⟨d', some ⟨limits, ⟨cs.getLastD c, none⟩⟩⟩
  | [], c, d, h => ⟨d, h, rfl, rfl⟩
  | c' :: rest, c, d, h => by
      obtain ⟨d', hd', horphan, hrun⟩ :=
        commitAll_undisturbed H limits a rest c' (d.write (envelopeOf H c') .replaced) (.inl rfl)
      have hlast : (c' :: rest).getLastD c = rest.getLastD c' := List.getLastD_cons
      rw [← hlast] at hd' hrun
      refine ⟨d', hd', horphan, ?_⟩
      rw [← hrun]
      simp only [commitAll, EStateM.run_bind, commitState_undisturbed, bind_assoc]

/-! ## What an event does -/

/-- A store that failed refuses every call and stays as it is. -/
def Refuses (H : Hashing) (p : StoreProcess) : Prop :=
  ∀ (request : StoreCall) (d : Directory Envelope) (writes : List WriteOutcome),
    ∃ message, (runCall H p.limits request).run ⟨p.store, d, writes⟩ =
      .error (.raised (.unavailable message)) ⟨p.store, d, writes⟩

theorem requireIntegrity_fatal (h : s.fatalError = some error) : requireIntegrity s =
      .error (.unavailable ("replacement store is not ready: " ++ error)) := by
  unfold requireIntegrity
  rw [h]

/-- Every method looks at the integrity of the store first. -/
theorem plan_fatal (H : Hashing) (limits : StoreLimits) (h : s.fatalError = some error)
    (request : StoreCall) :
    plan H limits request s =
      .error (.unavailable ("replacement store is not ready: " ++ error)) := by
  have hfatal := requireIntegrity_fatal h
  cases request with
  | persistRecords records run old decision =>
    simp [plan, validateBatch, hfatal]
  | sealRun run old new decision =>
    simp [plan, validateSeal, hfatal]
  | exactCompletedRun run old new decision =>
    simp [plan, exactCompletedRun, hfatal]
  | validateColdRecoveryBase old =>
    simp [plan, validateColdRecoveryBase, hfatal]
  | validateActiveRun run old decision =>
    simp [plan, validateActiveRun, hfatal]
  | _ =>
    simp [plan, lookup, hfatal]

theorem refuses_of_fatal (H : Hashing) (h : p.store.fatalError = some error) : Refuses H p := by
  intro request d writes
  refine ⟨"replacement store is not ready: " ++ error, ?_⟩
  rw [runCall_eq, plan_fatal H p.limits h request]
  rfl

/-- A call of a store that has not failed commits a plan. -/
theorem call_cases (hc : Consistent limits c) (hd : Holds H d c) (request : StoreCall)
    (writes : List WriteOutcome) :
    ∃ cs, Commits H limits c cs ∧
      (request.filled → Complete c → ∀ c' ∈ cs, Complete c') ∧
      Written H limits c cs d.orphan
        ((StoreEvent.call request writes).apply H ⟨d, some ⟨limits, ⟨c, none⟩⟩⟩) ∧
      ∃ d', Holds H d' (cs.getLastD c) ∧ d'.orphan = d.orphan ∧
        (StoreEvent.call request []).apply H ⟨d, some ⟨limits, ⟨c, none⟩⟩⟩ =
          ⟨d', some ⟨limits, ⟨cs.getLastD c, none⟩⟩⟩ := by
  simp only [StoreEvent.apply, runCall_eq]
  cases hplan : plan H limits request ⟨c, none⟩ with
  | error e =>
    refine ⟨[], .nothing, by simp, ?_, d, hd, rfl, rfl⟩
    exact .done d hd rfl
  | ok planned =>
    obtain ⟨a, cs⟩ := planned
    refine ⟨cs, plan_commits (s := ⟨c, none⟩) hc hplan, ?_, ?_, ?_⟩
    · intro hfilled hcomplete
      exact plan_complete (s := ⟨c, none⟩) hc hcomplete hfilled hplan
    · exact commitAll_written H limits a cs c d writes hd
    · exact commitAll_undisturbed H limits a cs c d hd

theorem Holds.load {limits limits' : StoreLimits} {f c : StoreContents} (hd : Holds H d f)
    (hf : Consistent limits f) (h : load H limits' d = .ok c) :
    d.orphan = false ∧ Same f c ∧ Holds H d c ∧ Consistent limits' c := by
  obtain ⟨horphan, ⟨hnone, rfl⟩ | ⟨raw, hmain, hraw, hcap, hretained⟩⟩ := load_cases h
  · rcases hd with hmain | ⟨_, rfl⟩
    · rw [hnone] at hmain
      cases hmain
    · exact ⟨horphan, Same.refl _, .inr ⟨hnone, rfl⟩, consistent_empty _⟩
  · rcases hd with hd | ⟨hnone, _⟩
    · have henvelope : raw = envelopeOf H f := Option.some.inj (hmain.symm.trans hd)
      subst henvelope
      have hsame : Same f c := by
        rw [hraw]
        exact same_contentsOf hf
      have hc := hsame.consistent hf
      refine ⟨horphan, hsame, .inl (hd.trans (congrArg some (hsame.envelopeOf_eq hf H))), ?_⟩
      exact ⟨hc.keyed, hc.segment, hc.leases, hcap, hc.rising, hc.distinct, hretained, hc.next⟩
    · rw [hnone] at hmain
      cases hmain

theorem Same.uncollected {c c' : StoreContents} (h : Same c c') (hc : Consistent limits c)
    (hu : Uncollected H c) : Uncollected H c' := by
  obtain ⟨run, runSeal, hrun, hseal, hvouches⟩ := hu
  refine ⟨run, runSeal, h.activeRun ▸ hrun, ?_, ?_⟩
  · unfold sealForRun at hseal ⊢
    rwa [← h.seals]
  · unfold vouches recordRoot at hvouches ⊢
    rwa [← Dict.size_of_get?_eq h.records, ← sortedRecords_congr hc.keyed h.records]

/-- The writes of a construction: none, or the collection that was still due. -/
def dueCommits (c : StoreContents) : List StoreContents :=
  match c.activeRun with
  | none => []
  | some run => if (sealForRun c run.restartRunId).isSome then [collected c] else []

theorem dueCommits_settled (h : Settled c) : dueCommits c = [] := by
  unfold dueCommits
  cases hrun : c.activeRun with
  | none =>
    rfl
  | some run =>
    simp [h run hrun]

theorem dueCommits_uncollected (h : Uncollected H c) : dueCommits c = [collected c] := by
  obtain ⟨run, runSeal, hrun, hseal, _⟩ := h
  simp [dueCommits, hrun, hseal]

theorem openStore_refused {e : StoreError} (h : load H limits d = .error e)
    (writes : List WriteOutcome) (p : Option StoreProcess) :
    (StoreEvent.construct limits writes).apply H ⟨d, p⟩ =
      ⟨d, some ⟨limits, ⟨{}, some (e.rendered H)⟩⟩⟩ := by
  simp only [StoreEvent.apply, openStore, EStateM.run_bind, EStateM.run_modify, run_handle,
    EStateM.run_get, h]
  rfl

/-- How a construction goes on once the file is loaded. -/
theorem openStore_run (h : load H limits d = .ok c) (p : Option StoreProcess)
    (writes : List WriteOutcome) :
    (StoreEvent.construct limits writes).apply H ⟨d, p⟩ =
      settle limits (match (finishSealedGc H).run ⟨⟨c, none⟩, d, writes⟩ with
        | .ok a t => .ok a t
        | .error (.raised e) t =>
          .ok () { t with store := { t.store with fatalError := some (e.rendered H) } }
        | .error .crashed t => .error .crashed t) := by
  simp only [StoreEvent.apply, openStore, EStateM.run_bind, EStateM.run_modify, run_handle,
    EStateM.run_get, h]
  cases (finishSealedGc H).run ⟨⟨c, none⟩, d, writes⟩ with
  | ok a t =>
    rfl
  | error e t =>
    cases e with
    | raised e =>
      rfl
    | crashed =>
      rfl

theorem finishSealedGc_settled (h : Settled c) (d : Directory Envelope)
    (writes : List WriteOutcome) :
    (finishSealedGc H).run ⟨⟨c, none⟩, d, writes⟩ = .ok () ⟨⟨c, none⟩, d, writes⟩ := by
  cases hrun : c.activeRun with
  | none =>
    simp [finishSealedGc, hrun]
  | some run =>
    simp [finishSealedGc, hrun, h run hrun]

theorem finishSealedGc_uncollected (h : Uncollected H c) (d : Directory Envelope)
    (writes : List WriteOutcome) :
    (finishSealedGc H).run ⟨⟨c, none⟩, d, writes⟩ =
      (commitState H (collected c)).run ⟨⟨c, none⟩, d, writes⟩ := by
  obtain ⟨run, runSeal, hrun, hseal, hvouches⟩ := h
  simp [finishSealedGc, hrun, hseal, hvouches]

theorem openStore_loaded (h : load H limits d = .ok c) (hc : Settled c ∨ Uncollected H c)
    (hd : Holds H d c) (p : Option StoreProcess) (writes : List WriteOutcome) :
    Written H limits c (dueCommits c) d.orphan
      ((StoreEvent.construct limits writes).apply H ⟨d, p⟩) ∧
    ∃ d', Holds H d' ((dueCommits c).getLastD c) ∧ d'.orphan = d.orphan ∧
      (StoreEvent.construct limits []).apply H ⟨d, p⟩ =
        ⟨d', some ⟨limits, ⟨(dueCommits c).getLastD c, none⟩⟩⟩ := by
  rw [openStore_run h, openStore_run h]
  rcases hc with hc | hc
  · rw [dueCommits_settled hc, finishSealedGc_settled hc, finishSealedGc_settled hc]
    exact ⟨.done d hd rfl, d, hd, rfl, rfl⟩
  rw [dueCommits_uncollected hc, finishSealedGc_uncollected hc, finishSealedGc_uncollected hc,
    commitState_undisturbed]
  refine ⟨?_, d.write (envelopeOf H (collected c)) .replaced, .inl rfl, rfl, rfl⟩
  obtain ⟨left, hrun⟩ := commitState_cases H (collected c) ⟨⟨c, none⟩, d, writes⟩
  have hfile (effect : WriteEffect) : ∃ f ∈ [c, collected c],
      Holds H (d.write (envelopeOf H (collected c)) effect) f := by
    rcases hd.write (collected c) effect with h | h
    · exact ⟨c, by simp, h⟩
    · exact ⟨collected c, by simp, h⟩
  rcases hrun with hrun | ⟨effect, error, hrun⟩ | ⟨effect, hrun⟩
  · rw [hrun]
    exact .done _ (.inl rfl) rfl
  · obtain ⟨f, hmem, hf⟩ := hfile effect
    rw [hrun]
    exact .failed _ f c _ hf hmem (by simp)
  · obtain ⟨f, hmem, hf⟩ := hfile effect
    rw [hrun]
    exact .crashed _ f hf hmem

/-! ## The invariant of a world -/

/-- The file is in order, and a store that has not failed holds what the file does. -/
structure StoreInv (H : Hashing) (full : Prop) (w : StoreWorld) (f : StoreContents) : Prop where
  file : ∃ limits, OnFile H limits f
  holds : Holds H w.directory f
  complete : full → Complete f
  process : ∀ p, w.process = some p → p.store.fatalError = none →
    Consistent p.limits p.store.toStoreContents ∧ Settled p.store.toStoreContents ∧
      w.directory.orphan = false ∧ Holds H w.directory p.store.toStoreContents

/-- Two contents that one file holds agree. -/
theorem Holds.same {limits limits' : StoreLimits} {c c' : StoreContents} (h : Holds H d c)
    (h' : Holds H d c') (hc : Consistent limits c) (hc' : Consistent limits' c') : Same c c' := by
  rcases h with h | ⟨h, rfl⟩
  · rcases h' with h' | ⟨h', _⟩
    · have hpayload : payloadOf c = payloadOf c' :=
        congrArg Envelope.payload (Option.some.inj (h.symm.trans h'))
      have hs := same_contentsOf hc
      have hs' := (same_contentsOf hc').symm
      rw [hpayload] at hs
      exact ⟨hs.activeRun.trans hs'.activeRun, fun k => (hs.records k).trans (hs'.records k),
        hs.seals.trans hs'.seals, hs.nextSealSequence.trans hs'.nextSealSequence⟩
    · rw [h'] at h
      cases h
  · rcases h' with h' | ⟨_, rfl⟩
    · rw [h] at h'
      cases h'
    · exact Same.refl _

/-- From one file to a later one: seals get new numbers, and no sealed run gets records. -/
structure Follows (c c' : StoreContents) : Prop extends Advances c c' where
  closed : ∀ runSeal ∈ c.seals, ∀ k r, c'.records.get? k = some r →
    r.restartRunId = runSeal.restartRunId → c.records.get? k = some r

theorem Follows.refl (c : StoreContents) : Follows c c :=
  ⟨Advances.refl c, fun _ _ _ _ h _ => h⟩

theorem Follows.of_same {c c' c'' : StoreContents} (hsame : Same c c') (h : Follows c' c'') :
    Follows c c'' := by
  refine ⟨⟨hsame.nextSealSequence.le.trans h.next, ?_⟩, ?_⟩
  · intro x hx
    rw [hsame.seals, hsame.nextSealSequence]
    exact h.seals x hx
  · intro x hx k r hr hrun
    rw [hsame.records]
    exact h.closed x (hsame.seals ▸ hx) k r hr hrun

theorem Commits.follows (h : Commits H limits c cs) : ∀ c' ∈ c :: cs, Follows c c' := by
  intro c' hc'
  rcases List.mem_cons.mp hc' with rfl | hc'
  · exact Follows.refl _
  refine ⟨h.advances c' hc', ?_⟩
  cases h with
  | nothing =>
    cases hc'
  | segment run records continued unsealed kept consistent =>
    cases List.mem_singleton.mp hc'
    intro runSeal hseal k r hr hrun
    obtain ⟨run', hactive, hsame, _⟩ := consistent.segment k r hr
    cases hactive
    exact absurd (hrun.symm.trans hsame) (sealForRun_eq_none.mp unsealed runSeal hseal)
  | seals run runSeal active unsealed sealsRun number vouched =>
    rcases List.mem_cons.mp hc' with rfl | hc'
    · intro _ _ k r hr _
      exact hr
    · cases List.mem_singleton.mp hc'
      intro _ _ k r hr _
      simp [collected] at hr

theorem dueCommits_follows (c : StoreContents) : ∀ c' ∈ c :: dueCommits c, Follows c c' := by
  have hcollected : Follows c (collected c) := by
    refine ⟨⟨le_rfl, fun _ h => .inl h⟩, ?_⟩
    intro _ _ k r hr _
    simp [collected] at hr
  intro c' hc'
  rcases List.mem_cons.mp hc' with rfl | hc'
  · exact Follows.refl _
  unfold dueCommits at hc'
  split at hc'
  · cases hc'
  split at hc'
  · cases List.mem_singleton.mp hc'
    exact hcollected
  · cases hc'

/-- Whatever comes of the writes, the world they leave is in order. -/
theorem Written.inv (h : Written H limits c cs false w) (hfile : ∀ c' ∈ c :: cs, OnFile H limits c')
    (hcomplete : full → ∀ c' ∈ c :: cs, Complete c') (hlast : Settled (cs.getLastD c)) :
    ∃ f ∈ c :: cs, StoreInv H full w f := by
  cases h with
  | done d holds same =>
    have hmem := getLastD_mem c cs
    refine ⟨_, hmem, ⟨limits, hfile _ hmem⟩, holds, fun hf => hcomplete hf _ hmem, ?_⟩
    intro p hp _
    cases hp
    exact ⟨(hfile _ hmem).consistent, hlast, same, holds⟩
  | failed d f m error holds file memory =>
    refine ⟨f, file, ⟨limits, hfile _ file⟩, holds, fun hf => hcomplete hf _ file, ?_⟩
    intro p hp hnone
    cases hp
    cases hnone
  | crashed d f holds file =>
    refine ⟨f, file, ⟨limits, hfile _ file⟩, holds, fun hf => hcomplete hf _ file, ?_⟩
    intro p hp
    cases hp

theorem storeInv_initial (H : Hashing) (full : Prop) : StoreInv H full {} {} where
  file := ⟨{}, consistent_empty _, .inl settled_empty⟩
  holds := .inr ⟨rfl, rfl⟩
  complete _ := complete_empty
  process := by simp

/-- The world of a call on a store that has not failed. -/
theorem StoreInv.call (h : StoreInv H full w f) (hp : w.process = some p)
    (hok : p.store.fatalError = none) {request : StoreCall} (hfilled : full → request.filled)
    (writes : List WriteOutcome) :
    ∃ f', StoreInv H full ((StoreEvent.call request writes).apply H w) f' ∧ Follows f f' := by
  obtain ⟨hc, hsettled, horphan, hd⟩ := h.process p hp hok
  obtain ⟨limits₀, hfile⟩ := h.file
  have hsame := h.holds.same hd hfile.consistent hc
  obtain ⟨d, process⟩ := w
  obtain ⟨limits, ⟨c, fatal⟩⟩ := p
  cases hp
  cases hok
  obtain ⟨cs, hcommits, hcomplete, hwritten, _⟩ := call_cases hc hd request writes
  rw [show d.orphan = false from horphan] at hwritten
  have hc' : full → Complete c := fun hf => hsame.complete (h.complete hf)
  obtain ⟨f', hmem, hinv⟩ := hwritten.inv
    (List.forall_mem_cons.mpr ⟨⟨hc, .inl hsettled⟩, hcommits.onFile hc⟩)
    (fun hf => List.forall_mem_cons.mpr ⟨hc' hf, hcomplete (hfilled hf) (hc' hf)⟩)
    (hcommits.settled hsettled)
  exact ⟨f', hinv, (hcommits.follows f' hmem).of_same hsame⟩

theorem dueCommits_onFile (hc : OnFile H limits c) :
    (∀ c' ∈ c :: dueCommits c, OnFile H limits c') ∧ Settled ((dueCommits c).getLastD c) := by
  rcases hc.collectable with h | h
  · rw [dueCommits_settled h]
    exact ⟨by simpa using hc, h⟩
  rw [dueCommits_uncollected h]
  refine ⟨List.forall_mem_cons.mpr ⟨hc, ?_⟩, collected_settled c⟩
  intro c' hc'
  cases List.mem_singleton.mp hc'
  exact ⟨collected_consistent hc.consistent, .inl (collected_settled c)⟩

theorem dueCommits_complete (hc : Complete c) : ∀ c' ∈ c :: dueCommits c, Complete c' := by
  refine List.forall_mem_cons.mpr ⟨hc, fun c' hc' => ?_⟩
  unfold dueCommits at hc'
  split at hc'
  · cases hc'
  split at hc'
  · cases List.mem_singleton.mp hc'
    exact collected_complete hc
  · cases hc'

theorem StoreInv.construct (h : StoreInv H full w f) (limits : StoreLimits)
    (writes : List WriteOutcome) :
    ∃ f', StoreInv H full ((StoreEvent.construct limits writes).apply H w) f' ∧ Follows f f' := by
  obtain ⟨limits₀, hfile⟩ := h.file
  obtain ⟨d, process⟩ := w
  cases hload : load H limits d with
  | error e =>
    rw [openStore_refused hload]
    refine ⟨f, ⟨⟨limits₀, hfile⟩, h.holds, h.complete, ?_⟩, Follows.refl f⟩
    intro p hp hnone
    cases hp
    cases hnone
  | ok c =>
    obtain ⟨horphan, hsame, hd, hc⟩ := h.holds.load hfile.consistent hload
    have hcollectable : Settled c ∨ Uncollected H c :=
      hfile.collectable.imp hsame.settled (hsame.uncollected hfile.consistent)
    obtain ⟨hwritten, _⟩ := openStore_loaded hload hcollectable hd process writes
    rw [horphan] at hwritten
    obtain ⟨honFile, hlast⟩ := dueCommits_onFile ⟨hc, hcollectable⟩
    obtain ⟨f', hmem, hinv⟩ := hwritten.inv honFile
      (fun hf => dueCommits_complete (hsame.complete (h.complete hf))) hlast
    exact ⟨f', hinv, (dueCommits_follows c f' hmem).of_same hsame⟩

theorem apply_refused (hp : w.process = some p) (h : p.store.fatalError = some error)
    (request : StoreCall) (writes : List WriteOutcome) :
    (StoreEvent.call request writes).apply H w = w := by
  obtain ⟨d, process⟩ := w
  cases hp
  obtain ⟨message, hrun⟩ := refuses_of_fatal H h request d writes
  simp only [StoreEvent.apply, hrun]
  rfl

/-- What one event preserves. -/
theorem StoreInv.step (h : StoreInv H full w f) (event : StoreEvent)
    (hfilled : full → event.filled) :
    ∃ f', StoreInv H full (event.apply H w) f' ∧ Follows f f' := by
  cases event with
  | construct limits writes =>
    exact h.construct limits writes
  | call request writes =>
    cases hp : w.process with
    | none =>
      have hsame : (StoreEvent.call request writes).apply H w = w := by
        simp only [StoreEvent.apply, hp]
      rw [hsame]
      exact ⟨f, h, Follows.refl f⟩
    | some p =>
      cases hok : p.store.fatalError with
      | some error =>
        rw [apply_refused hp hok]
        exact ⟨f, h, Follows.refl f⟩
      | none =>
        exact h.call hp hok hfilled writes

/-- What a whole run preserves. -/
theorem StoreInv.run :
    ∀ (events : List StoreEvent) {w : StoreWorld} {f : StoreContents}, StoreInv H full w f →
      (full → ∀ event ∈ events, event.filled) → ∃ f', StoreInv H full (runEvents H w events) f'
  | [], w, f, h, _ => ⟨f, h⟩
  | event :: rest, w, f, h, hfilled => by
      obtain ⟨f', h', _⟩ := h.step event fun hf => hfilled hf event (by simp)
      exact h'.run rest fun hf e he => hfilled hf e (by simp [he])

end ReplacementDecisionStore

end PrismServe
