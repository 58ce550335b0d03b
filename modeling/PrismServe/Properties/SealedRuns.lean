import PrismServe.Properties.StoreReopening

/-!
# Sealed replacement runs

Once a run is sealed, and as long as its seal is retained, nothing is added to
it, across crashes, restarts and failed writes; the seals that are issued carry
rising numbers.
-/

namespace PrismServe

open Lib

namespace ReplacementDecisionStore

/-! ## Sealed runs -/

/-- The seals that appear on file in the course of a run. -/
def issued (H : Hashing) : StoreWorld → List StoreEvent → List ReplacementRunSeal
  | _, [] => []
  | w, event :: rest =>
    (fileSeals (event.apply H w).directory).filter
        (fun runSeal => decide (runSeal ∉ fileSeals w.directory)) ++
      issued H (event.apply H w) rest

/-- From a world on, the seals that are issued are numbered upwards from the number on file. -/
theorem issued_rising (H : Hashing) :
    ∀ (events : List StoreEvent) {w : StoreWorld} {f : StoreContents}, StoreInv H False w f →
      (issued H w events).Pairwise (fun a b => a.sealSequence < b.sealSequence) ∧
      ∀ runSeal ∈ issued H w events, f.nextSealSequence ≤ runSeal.sealSequence
  | [], w, f, _ => by simp [issued]
  | event :: rest, w, f, h => by
      obtain ⟨f', h', hfollows⟩ := h.step event False.elim
      obtain ⟨limits, hfile'⟩ := h'.file
      obtain ⟨hrising, hlater⟩ := issued_rising H rest h'
      have hnew : ∀ x ∈ (fileSeals (event.apply H w).directory).filter
          (fun runSeal => decide (runSeal ∉ fileSeals w.directory)),
          x ∈ f'.seals ∧ f.nextSealSequence ≤ x.sealSequence := by
        intro x hx
        obtain ⟨hmem, hfresh⟩ := List.mem_filter.mp hx
        rw [h'.holds.fileSeals_eq] at hmem
        rw [h.holds.fileSeals_eq] at hfresh
        exact ⟨hmem, (hfollows.seals x hmem).resolve_left (of_decide_eq_true hfresh)⟩
      constructor
      · rw [issued, List.pairwise_append]
        refine ⟨?_, hrising, ?_⟩
        · rw [h'.holds.fileSeals_eq]
          exact hfile'.consistent.rising.sublist List.filter_sublist
        · intro a ha b hb
          exact (hfile'.consistent.next a (hnew a ha).1).trans_le (hlater b hb)
      · intro x hx
        rcases List.mem_append.mp hx with hx | hx
        · exact (hnew x hx).2
        · exact hfollows.next.trans (hlater x hx)

/-- How the calls about a sealed run end, in a store that has not failed. -/
structure Closed (H : Hashing) (limits : StoreLimits) (h : Host)
    (runSeal : ReplacementRunSeal) : Prop where
  lookup : ∀ record old, record.restartRunId = runSeal.restartRunId →
    (runCall H limits (.lookup record old)).run h = .error (.raised (.retired runSeal)) h
  persistRecord : ∀ record old, record.restartRunId = runSeal.restartRunId →
    (runCall H limits (.persistRecord record old)).run h = .error (.raised (.retired runSeal)) h
  persistRecords : ∀ records old decision,
    (runCall H limits (.persistRecords records runSeal.restartRunId old decision)).run h =
      .error (.raised (.retired runSeal)) h
  sealAgain : ∀ old new decision, runSeal.oldTopologyGenerationDigest = H.text old →
    runSeal.newTopologyGeneration = new → runSeal.decisionDigest = decision →
    (runCall H limits (.sealRun runSeal.restartRunId old new decision)).run h =
      .ok (.sealed runSeal) h
  sealOtherwise : ∀ old new decision, ¬ (runSeal.oldTopologyGenerationDigest = H.text old ∧
      runSeal.newTopologyGeneration = new ∧ runSeal.decisionDigest = decision) →
    (runCall H limits (.sealRun runSeal.restartRunId old new decision)).run h =
      .error (.raised (.conflict "sealed replacement run reused with different evidence")) h

variable {runSeal : ReplacementRunSeal} {H : Hashing}

theorem closed_of_sealed {limits : StoreLimits} {c : StoreContents} (hc : Consistent limits c)
    (hsettled : Settled c) (hmem : runSeal ∈ c.seals) (d : Directory Envelope)
    (writes : List WriteOutcome) : Closed H limits ⟨⟨c, none⟩, d, writes⟩ runSeal := by
  have hfind := sealForRun_of_mem hc hmem
  have hintegrity : requireIntegrity ⟨c, none⟩ = .ok () := rfl
  have hlookup (record : ReplacementReleaseRecord) (old : String)
      (hrun : record.restartRunId = runSeal.restartRunId) :
      lookup H record old ⟨c, none⟩ = .error (.retired runSeal) := by
    have hnone : c.records.get? record.key = none := by
      cases hget : c.records.get? record.key with
      | none =>
        rfl
      | some r =>
        obtain ⟨run, hactive, hsame, _⟩ := hc.segment _ r hget
        have hkey := hc.keyed _ r hget
        have hrecord : r.restartRunId = record.restartRunId :=
          congrArg (fun k : RecordKey => k.2.1) hkey
        have hunsealed := hsettled run hactive
        rw [← hsame, hrecord, hrun, hfind] at hunsealed
        cases hunsealed
    simp [lookup, hintegrity, hnone, hrun, hfind]
  refine ⟨?_, ?_, ?_, ?_, ?_⟩
  · intro record old hrun
    simp [runCall_eq, plan, follow, hlookup record old hrun]
  · intro record old hrun
    simp [runCall_eq, plan, follow, hlookup record old hrun]
  · intro records old decision
    simp [runCall_eq, plan, follow, validateBatch, hintegrity, hfind]
  · intro old new decision hold hnew hdecision
    simp [runCall_eq, plan, follow, validateSeal, hintegrity, hfind, hold, hnew, hdecision,
      commitAll]
  · intro old new decision hother
    have hdifferent : runSeal.oldTopologyGenerationDigest ≠ H.text old ∨
        runSeal.newTopologyGeneration ≠ new ∨ runSeal.decisionDigest ≠ decision := by
      tauto
    simp [runCall_eq, plan, follow, validateSeal, hintegrity, hfind, hdifferent]

theorem validateSeal_some {run old new decision : String} {s : ReplacementDecisionStore}
    (h : validateSeal H run old new decision s = .ok (some runSeal)) : runSeal ∈ s.seals := by
  unfold validateSeal at h
  obtain ⟨_, _, h⟩ := bind_eq_ok.mp h
  split at h
  · rename_i existing hfind
    split at h
    · cases h
    · cases h
      exact List.mem_of_find?_eq_some hfind
  · obtain ⟨_, _, h⟩ := bind_eq_ok.mp h
    split at h
    · cases h
    · cases h

/-- The seal that a call answers with is on file. -/
theorem sealed_answer_on_file {limits : StoreLimits} {c : StoreContents} {d : Directory Envelope}
    (hd : Holds H d c) {h' : Host} {run old new decision : String} {writes : List WriteOutcome}
    (hrun : (runCall H limits (.sealRun run old new decision)).run ⟨⟨c, none⟩, d, writes⟩ =
      .ok (.sealed runSeal) h') :
    runSeal ∈ fileSeals h'.directory := by
  rw [runCall_eq] at hrun
  cases hv : validateSeal H run old new decision ⟨c, none⟩ with
  | error e =>
    simp [plan, hv, follow] at hrun
  | ok found =>
    cases found with
    | some existing =>
      simp only [plan, hv, follow, ok_bind, return_eq_ok, commitAll] at hrun
      cases hrun
      rw [hd.fileSeals_eq]
      exact validateSeal_some hv
    | none =>
      simp only [plan, hv, follow, ok_bind, return_eq_ok, EStateM.run_bind] at hrun
      split at hrun
      · rename_i u t hcommit
        cases hrun
        rw [(commitAll_ok hd hcommit).2.fileSeals_eq]
        change _ ∈ (withSeal limits _ c).seals
        rw [withSeal_seals]
        simp
      · cases hrun

/-- In every run a sealed run stays closed while its seal is retained, at most one run is not
sealed, and the seals carry rising numbers; a store that has failed refuses every call. -/
theorem sealed_runs_stay_closed (H : Hashing) (events : List StoreEvent) :
    (issued H {} events).Pairwise (fun a b => a.sealSequence < b.sealSequence) ∧
    (∀ event : StoreEvent, ∀ runSeal ∈ fileSeals (runEvents H {} events).directory,
      ∀ r ∈ fileRecords (event.apply H (runEvents H {} events)).directory,
      r.restartRunId = runSeal.restartRunId →
      r ∈ fileRecords (runEvents H {} events).directory) ∧
    (∀ r ∈ fileRecords (runEvents H {} events).directory,
      ∀ r' ∈ fileRecords (runEvents H {} events).directory, r.restartRunId = r'.restartRunId) ∧
    ∀ p, (runEvents H {} events).process = some p →
      (p.store.fatalError ≠ none → Refuses H p) ∧
      (p.store.fatalError = none →
        p.store.seals = fileSeals (runEvents H {} events).directory ∧
        (∀ k r, p.store.records.get? k = some r →
          p.store.activeRun.map (·.restartRunId) = some r.restartRunId) ∧
        (∀ runSeal ∈ p.store.seals, ∀ run, p.store.activeRun = some run →
          run.restartRunId ≠ runSeal.restartRunId) ∧
        ∀ writes, (∀ runSeal ∈ p.store.seals,
          Closed H p.limits ⟨p.store, (runEvents H {} events).directory, writes⟩ runSeal) ∧
        ∀ run old new decision runSeal h',
          (runCall H p.limits (.sealRun run old new decision)).run
            ⟨p.store, (runEvents H {} events).directory, writes⟩ = .ok (.sealed runSeal) h' →
          runSeal ∈ fileSeals h'.directory) := by
  have hinitial := storeInv_initial H False
  obtain ⟨f, hinv⟩ := hinitial.run events False.elim
  obtain ⟨limits, hfile⟩ := hinv.file
  refine ⟨(issued_rising H events hinitial).1, ?_, ?_, ?_⟩
  · intro event runSeal hseal r hr hrun
    obtain ⟨f', hinv', hfollows⟩ := hinv.step event False.elim
    rw [hinv.holds.fileSeals_eq] at hseal
    obtain ⟨k, hk⟩ := hinv'.holds.mem_fileRecords.mp hr
    exact hinv.holds.mem_fileRecords.mpr ⟨k, hfollows.closed runSeal hseal k r hk hrun⟩
  · intro r hr r' hr'
    obtain ⟨k, hk⟩ := hinv.holds.mem_fileRecords.mp hr
    obtain ⟨k', hk'⟩ := hinv.holds.mem_fileRecords.mp hr'
    obtain ⟨run, hactive, hsame, _⟩ := hfile.consistent.segment k r hk
    obtain ⟨run', hactive', hsame', _⟩ := hfile.consistent.segment k' r' hk'
    cases hactive.symm.trans hactive'
    rw [hsame, hsame']
  · intro p hp
    constructor
    · intro hfatal
      obtain ⟨error, herror⟩ := Option.ne_none_iff_exists'.mp hfatal
      exact refuses_of_fatal H herror
    · intro hok
      obtain ⟨hc, hsettled, _, hd⟩ := hinv.process p hp hok
      obtain ⟨plimits, ⟨c, fatal⟩⟩ := p
      cases hok
      refine ⟨hd.fileSeals_eq.symm, ?_, ?_, ?_⟩
      · intro k r hk
        obtain ⟨run, hactive, hsame, _⟩ := hc.segment k r hk
        rw [hactive, hsame]
        rfl
      · intro runSeal hseal run hactive hsame
        exact sealForRun_eq_none.mp (hsettled run hactive) runSeal hseal hsame.symm
      · intro writes
        refine ⟨fun runSeal hseal => closed_of_sealed hc hsettled hseal _ _, ?_⟩
        intro run old new decision runSeal h' hrun
        exact sealed_answer_on_file hd hrun

/-- A crash during a later call leaves a temporary file, and the store that is opened next refuses
to look up a record of the sealed run as it refuses everything: not as retired. -/
theorem sealed_run_refused_unretired :
    (let w := runEvents plainHashing {}
      (recordedOnce ++ [.call sealFirst [],
        .call (.persistRecord (releaseOf "run 2") "new") [.crashes .orphaned], .construct {} []])
     (fileSeals w.directory).map (·.restartRunId) = ["run 1"] ∧
     lookup plainHashing (releaseOf "run 1") "old" (storeIn w).store =
       .error (.unavailable ("replacement store is not ready: ReplacementStoreError: " ++
         "orphan replacement-store temp file requires operator review"))) := by
  decide +kernel

end ReplacementDecisionStore

end PrismServe
