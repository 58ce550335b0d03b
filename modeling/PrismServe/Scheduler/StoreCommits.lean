import PrismServe.Lib.Methods
import PrismServe.Scheduler.ReplacementStore

/-!
# What the methods of the replacement store commit

Every method of the store first decides, from the contents it finds, what to
answer and which contents to write, and then writes them one after another.
`plan` is that decision; `runCall_eq` says that the methods follow it.

`Consistent` is the invariant of the contents, and `Commits` lists what a plan
can write.  Contents that are also `Complete` are read back from their own file.
-/

namespace PrismServe

open Lib

namespace ReplacementDecisionStore

/-! ## Calls and their plans -/

inductive StoreCall
  | lookup (record : ReplacementReleaseRecord) (oldTopologyGeneration : String)
  | persistRecord (record : ReplacementReleaseRecord) (oldTopologyGeneration : String)
  | persistRecords (records : List ReplacementReleaseRecord)
      (restartRunId oldTopologyGeneration : String) (decisionDigest : Option String)
  | sealRun (restartRunId oldTopologyGeneration newTopologyGeneration decisionDigest : String)
  | exactCompletedRun (restartRunId oldTopologyGeneration newTopologyGeneration
      decisionDigest : String)
  | validateColdRecoveryBase (oldTopologyGeneration : String)
  | validateActiveRun (restartRunId oldTopologyGeneration decisionDigest : String)

inductive StoreAnswer
  | found (record : Option ReplacementReleaseRecord)
  | persisted (record : ReplacementReleaseRecord) (isNew : Bool)
  | batch (records : List ReplacementReleaseRecord)
  | sealed (runSeal : ReplacementRunSeal)
  | completed (runSeal : Option ReplacementRunSeal)
  | valid
  deriving DecidableEq

variable (H : Hashing)

def runCall (limits : StoreLimits) : StoreCall → StoreM StoreAnswer
  | .lookup record old => do return .found (← check (lookup H record old))
  | .persistRecord record old => do
      let (r, isNew) ← persistRecord H limits record old
      return .persisted r isNew
  | .persistRecords records run old decision => do
      return .batch (← persistRecords H limits records run old decision)
  | .sealRun run old new decision => do return .sealed (← sealRun H limits run old new decision)
  | .exactCompletedRun run old new decision => do
      return .completed (← check (exactCompletedRun H run old new decision))
  | .validateColdRecoveryBase old => do
      check (validateColdRecoveryBase old)
      return .valid
  | .validateActiveRun run old decision => do
      check (validateActiveRun H run old decision)
      return .valid

/-- The contents that a new record leads to. -/
def withRecord (c : StoreContents) (record : ReplacementReleaseRecord)
    (oldTopologyGeneration : String) : StoreContents :=
  { c with
    activeRun := some (c.activeRun.getD
      (newRun H record.restartRunId oldTopologyGeneration record.decisionDigest))
    records := c.records.set record.key record }

/-- The contents that a batch leads to. -/
def withBatch (c : StoreContents) (b : Batch)
    (restartRunId oldTopologyGeneration decision : String) : StoreContents :=
  { c with
    activeRun := some (newRun H restartRunId oldTopologyGeneration decision)
    records := b.candidate }

/-- What a call answers and which contents it writes before. -/
def plan (limits : StoreLimits) (call : StoreCall) (s : ReplacementDecisionStore) :
    Except StoreError (StoreAnswer × List StoreContents) :=
  match call with
  | .lookup record old => do return (.found (← lookup H record old s), [])
  | .persistRecord record old => do
      match ← lookup H record old s with
      | some existing => return (.persisted existing false, [])
      | none =>
        if limits.maxRecordsPerRun ≤ s.records.size then
          throw (.capacity "replacement record capacity exhausted")
        else if leaseTaken s.toStoreContents record then
          throw (.conflict "replacement lease already has a different decision key")
        else return (.persisted record true, [withRecord H s.toStoreContents record old])
  | .persistRecords records run old decision => do
      let b ← validateBatch H limits records run old decision s
      return (.batch (records.filterMap fun r => b.candidate.get? r.key),
        if b.changed || s.activeRun.isNone then
          [withBatch H s.toStoreContents b run old (requestedDecision records decision)]
        else [])
  | .sealRun run old new decision => do
      match ← validateSeal H run old new decision s with
      | some existing => return (.sealed existing, [])
      | none =>
        let runSeal := newSeal H s.toStoreContents run old new decision
        let marked := withSeal limits runSeal s.toStoreContents
        return (.sealed runSeal, [marked, collected marked])
  | .exactCompletedRun run old new decision => do
      return (.completed (← exactCompletedRun H run old new decision s), [])
  | .validateColdRecoveryBase old => do
      validateColdRecoveryBase old s
      return (.valid, [])
  | .validateActiveRun run old decision => do
      validateActiveRun H run old decision s
      return (.valid, [])

/-- Write several contents, one after another. -/
def commitAll (H : Hashing) : List StoreContents → StoreM Unit
  | [] => return ()
  | c :: rest => do
      commitState H c
      commitAll H rest

/-- How a planned call runs. -/
def follow (p : Except StoreError (StoreAnswer × List StoreContents)) : StoreM StoreAnswer :=
  match p with
  | .error e => throw (.raised e)
  | .ok (a, cs) => do
      commitAll H cs
      return a

theorem check_run {α : Type} (f : ReplacementDecisionStore → Except StoreError α) (h : Host) :
    (check f).run h = match f h.store with
      | .ok a => .ok a h
      | .error e => .error (.raised e) h := by
  cases hf : f h.store with
  | ok a =>
    simp [check, hf]
  | error e =>
    simp [check, hf]

theorem runCall_eq (limits : StoreLimits) (call : StoreCall) (h : Host) :
    (runCall H limits call).run h = (follow H (plan H limits call h.store)).run h := by
  cases call with
  | lookup record old =>
    cases hl : lookup H record old h.store with
    | error e =>
      simp [runCall, plan, follow, check_run, hl]
    | ok r =>
      simp [runCall, plan, follow, check_run, hl, commitAll]
  | persistRecord record old =>
    cases hl : lookup H record old h.store with
    | error e =>
      simp [runCall, persistRecord, plan, follow, check_run, hl]
    | ok r =>
      cases r with
      | some existing =>
        simp [runCall, persistRecord, plan, follow, check_run, hl, commitAll]
      | none =>
        by_cases hcap : limits.maxRecordsPerRun ≤ h.store.records.size
        · simp [runCall, persistRecord, plan, follow, check_run, hl, hcap]
        by_cases hlease : leaseTaken h.store.toStoreContents record = true
        · simp [runCall, persistRecord, plan, follow, check_run, hl, hcap, hlease]
        · simp [runCall, persistRecord, plan, follow, check_run, hl, hcap, hlease,
            commitAll, withRecord]
  | persistRecords records run old decision =>
    cases hb : validateBatch H limits records run old decision h.store with
    | error e =>
      simp [runCall, persistRecords, plan, follow, check_run, hb]
    | ok b =>
      by_cases hc : b.changed = true ∨ h.store.activeRun = none
      · simp only [runCall, persistRecords, plan, follow, check_run, hb, hc, withBatch,
          EStateM.run_bind, EStateM.run_get, Bool.or_eq_true, Option.isNone_iff_eq_none,
          if_true, commitAll, ok_bind, return_eq_ok]
        cases (commitState H _).run h <;> rfl
      · simp [runCall, persistRecords, plan, follow, check_run, hb, hc, commitAll]
  | sealRun run old new decision =>
    cases hv : validateSeal H run old new decision h.store with
    | error e =>
      simp [runCall, sealRun, plan, follow, check_run, hv]
    | ok r =>
      cases r with
      | some existing =>
        simp [runCall, sealRun, plan, follow, check_run, hv, commitAll]
      | none =>
        simp [runCall, sealRun, plan, follow, check_run, hv, commitAll]
  | exactCompletedRun run old new decision =>
    cases hv : exactCompletedRun H run old new decision h.store with
    | error e =>
      simp [runCall, plan, follow, check_run, hv]
    | ok r =>
      simp [runCall, plan, follow, check_run, hv, commitAll]
  | validateColdRecoveryBase old =>
    cases hv : validateColdRecoveryBase old h.store with
    | error e =>
      simp [runCall, plan, follow, check_run, hv]
    | ok r =>
      simp [runCall, plan, follow, check_run, hv, commitAll]
  | validateActiveRun run old decision =>
    cases hv : validateActiveRun H run old decision h.store with
    | error e =>
      simp [runCall, plan, follow, check_run, hv]
    | ok r =>
      simp [runCall, plan, follow, check_run, hv, commitAll]

/-! ## The invariant of the contents -/

structure Consistent (limits : StoreLimits) (c : StoreContents) : Prop where
  keyed : ∀ k r, c.records.get? k = some r → r.key = k
  segment : ∀ k r, c.records.get? k = some r → ∃ run, c.activeRun = some run ∧
    r.restartRunId = run.restartRunId ∧ r.decisionDigest = run.decisionDigest
  leases : ∀ k k' r r', c.records.get? k = some r → c.records.get? k' = some r' →
    r.leaseKey = r'.leaseKey → k = k'
  capacity : c.records.size ≤ limits.maxRecordsPerRun
  rising : c.seals.Pairwise fun a b => a.sealSequence < b.sealSequence
  distinct : (c.seals.map (·.restartRunId)).Nodup
  retained : c.seals.length ≤ limits.sealRetention
  next : ∀ runSeal ∈ c.seals, runSeal.sealSequence < c.nextSealSequence

/-- No field is empty that the loader wants filled. -/
structure Complete (c : StoreContents) : Prop where
  records : ∀ k r, c.records.get? k = some r → r.complete = true
  run : ∀ run, c.activeRun = some run → run.decisionDigest ≠ ""
  seals : ∀ runSeal ∈ c.seals, runSeal.complete = true
  next : c.nextSealSequence ≠ 0

/-- The active run is not among the sealed ones. -/
def Settled (c : StoreContents) : Prop :=
  ∀ run, c.activeRun = some run → sealForRun c run.restartRunId = none

/-- The active run was sealed, and its seal vouches for the records that are still there. -/
def Uncollected (c : StoreContents) : Prop :=
  ∃ run runSeal, c.activeRun = some run ∧ sealForRun c run.restartRunId = some runSeal ∧
    vouches H runSeal run c.records = true

theorem consistent_empty (limits : StoreLimits) : Consistent limits {} where
  keyed := by simp
  segment := by simp
  leases := by simp
  capacity := Nat.zero_le _
  rising := List.Pairwise.nil
  distinct := List.nodup_nil
  retained := Nat.zero_le _
  next := by simp

theorem complete_empty : Complete {} where
  records := by simp
  run := by simp
  seals := by simp
  next := Nat.one_ne_zero

theorem settled_empty : Settled {} := by
  intro run h
  cases h

variable {limits : StoreLimits} {c : StoreContents} {s : ReplacementDecisionStore}
  {r : ReplacementReleaseRecord} {base : Dict RecordKey ReplacementReleaseRecord} {H : Hashing}
  {record : ReplacementReleaseRecord} {b : Batch} {run old new decision : String}

theorem sealForRun_eq_none :
    sealForRun c run = none ↔ ∀ runSeal ∈ c.seals, runSeal.restartRunId ≠ run := by
  simp [sealForRun]

/-- A retained seal is the one that is found. -/
theorem sealForRun_of_mem (hc : Consistent limits c) {runSeal : ReplacementRunSeal}
    (h : runSeal ∈ c.seals) : sealForRun c runSeal.restartRunId = some runSeal := by
  cases hf : sealForRun c runSeal.restartRunId with
  | none =>
    exact absurd rfl (sealForRun_eq_none.mp hf runSeal h)
  | some found =>
    have hmem := List.mem_of_find?_eq_some hf
    have hrun : found.restartRunId = runSeal.restartRunId := by
      simpa using List.find?_some hf
    rw [List.inj_on_of_nodup_map hc.distinct hmem h hrun]

/-! ## Contents up to the order of their records -/

structure Same (c c' : StoreContents) : Prop where
  activeRun : c.activeRun = c'.activeRun
  records : ∀ k, c.records.get? k = c'.records.get? k
  seals : c.seals = c'.seals
  nextSealSequence : c.nextSealSequence = c'.nextSealSequence

theorem Same.refl (c : StoreContents) : Same c c := ⟨rfl, fun _ => rfl, rfl, rfl⟩

variable {c c' : StoreContents}

theorem Same.symm (h : Same c c') : Same c' c :=
  ⟨h.activeRun.symm, fun k => (h.records k).symm, h.seals.symm, h.nextSealSequence.symm⟩

theorem Same.consistent (h : Same c c') (hc : Consistent limits c) :
    Consistent limits c' where
  keyed k r := by simpa only [h.records] using hc.keyed k r
  segment k r := by simpa only [h.records, h.activeRun] using hc.segment k r
  leases k k' r r' := by simpa only [h.records] using hc.leases k k' r r'
  capacity := Dict.size_of_get?_eq h.records ▸ hc.capacity
  rising := h.seals ▸ hc.rising
  distinct := h.seals ▸ hc.distinct
  retained := h.seals ▸ hc.retained
  next := by simpa only [h.seals, h.nextSealSequence] using hc.next

theorem Same.complete (h : Same c c') (hc : Complete c) : Complete c' where
  records k r := by simpa only [h.records] using hc.records k r
  run := by simpa only [h.activeRun] using hc.run
  seals := by simpa only [h.seals] using hc.seals
  next := by simpa only [h.nextSealSequence] using hc.next

theorem Same.settled (h : Same c c') (hc : Settled c) : Settled c' := by
  unfold Settled sealForRun at hc ⊢
  simpa only [h.activeRun, h.seals] using hc

instance : Std.Total keyLe := ⟨fun _ _ => le_total _ _⟩

instance : IsTrans ReplacementReleaseRecord keyLe := ⟨fun _ _ _ => le_trans⟩

theorem key_eq_of_keyLe {a b : ReplacementReleaseRecord} (h : keyLe a b) (h' : keyLe b a) :
    a.key = b.key := by
  have := le_antisymm h h'
  simp only [EmbeddingLike.apply_eq_iff_eq, Prod.mk.injEq] at this
  exact Prod.ext this.1 this.2

/-- A record that is listed is the one under its key. -/
theorem get?_of_mem_values {records : Dict RecordKey ReplacementReleaseRecord}
    (hkeyed : ∀ k r, records.get? k = some r → r.key = k) (h : r ∈ records.values) :
    records.get? r.key = some r := by
  obtain ⟨k, hk⟩ := (Dict.mem_values_iff _ _).mp h
  rwa [hkeyed k r hk]

theorem mem_sortedRecords {records : Dict RecordKey ReplacementReleaseRecord} :
    r ∈ sortedRecords records ↔ r ∈ records.values :=
  List.mem_insertionSort _

/-- The listing of the records does not depend on the order of their insertion. -/
theorem sortedRecords_congr {d d' : Dict RecordKey ReplacementReleaseRecord}
    (hkeyed : ∀ k r, d.get? k = some r → r.key = k) (h : ∀ k, d.get? k = d'.get? k) :
    sortedRecords d = sortedRecords d' := by
  refine List.Perm.eq_of_pairwise ?_ (List.pairwise_insertionSort _ _)
    (List.pairwise_insertionSort _ _) ?_
  · intro a b ha hb hab hba
    have hkeyed' : ∀ k r, d'.get? k = some r → r.key = k := by simpa only [h] using hkeyed
    have hga := get?_of_mem_values hkeyed (mem_sortedRecords.mp ha)
    have hgb := get?_of_mem_values hkeyed' (mem_sortedRecords.mp hb)
    rw [← h, ← key_eq_of_keyLe hab hba, hga] at hgb
    exact Option.some.inj hgb
  · exact ((List.perm_insertionSort _ _).trans (Dict.values_perm_of_get?_eq h)).trans
      (List.perm_insertionSort _ _).symm

theorem Same.envelopeOf_eq (h : Same c c') (hc : Consistent limits c) (H : Hashing) :
    envelopeOf H c = envelopeOf H c' := by
  have : payloadOf c = payloadOf c' := by
    unfold payloadOf
    rw [h.activeRun, h.seals, h.nextSealSequence, sortedRecords_congr hc.keyed h.records]
  unfold envelopeOf
  rw [this]

/-! ## Reading a file back -/

/-- The contents as the loader builds them from a payload. -/
def contentsOf (p : Payload) : StoreContents where
  activeRun := p.activeRun
  records := p.records.foldl (fun d r => d.set r.key r) Dict.empty
  seals := p.seals
  nextSealSequence := p.nextSealSequence

theorem same_contentsOf (hc : Consistent limits c) : Same c (contentsOf (payloadOf c)) := by
  refine ⟨rfl, fun k => ?_, rfl, rfl⟩
  change _ = ((sortedRecords c.records).foldl (fun d r => d.set r.key (id r)) Dict.empty).get? k
  cases hk : c.records.get? k with
  | some r =>
    have hkey := hc.keyed k r hk
    subst hkey
    have hmem : r ∈ sortedRecords c.records :=
      mem_sortedRecords.mpr ((Dict.mem_values_iff _ _).mpr ⟨_, hk⟩)
    have hagree : ∀ y ∈ sortedRecords c.records, y.key = r.key → id y = id r := by
      intro y hy hsame
      have hget := get?_of_mem_values hc.keyed (mem_sortedRecords.mp hy)
      rw [hsame, hk] at hget
      exact (Option.some.inj hget).symm
    exact (Dict.get?_foldl_set_of_mem hmem hagree _).symm
  | none =>
    rw [Dict.get?_foldl_set]
    have hnone : (sortedRecords c.records).filter (fun r => r.key = k) = [] := by
      rw [List.filter_eq_nil_iff]
      intro r hr hsame
      have hget := get?_of_mem_values hc.keyed (mem_sortedRecords.mp hr)
      rw [of_decide_eq_true hsame, hk] at hget
      cases hget
    simp [hnone]

/-- The loader inserts the records it accepts in their order. -/
theorem loadRecords_eq {l : List ReplacementReleaseRecord} :
    ∀ {records d : Dict RecordKey ReplacementReleaseRecord} {leases : List (String × String)},
      loadRecords records leases l = .ok d → d = l.foldl (fun d r => d.set r.key r) records := by
  induction l with
  | nil =>
    intro records d leases h
    exact (Except.ok.inj h).symm
  | cons r rest ih =>
    intro records d leases h
    simp only [loadRecords] at h
    split at h
    · cases h
    split at h
    · cases h
    · split at h
      · cases h
      · exact ih h

theorem loadRecords_ok {l : List ReplacementReleaseRecord} :
    ∀ {records : Dict RecordKey ReplacementReleaseRecord} {leases : List (String × String)},
      (∀ r ∈ l, r.complete = true) → (l.map (·.key)).Nodup →
      (∀ r ∈ l, records.get? r.key = none) → (l.map (·.leaseKey)).Nodup →
      (∀ r ∈ l, r.leaseKey ∉ leases) → ∃ d, loadRecords records leases l = .ok d := by
  induction l with
  | nil =>
    intro records leases _ _ _ _ _
    exact ⟨records, rfl⟩
  | cons r rest ih =>
    intro records leases hcomplete hkeys hfresh hleases hnew
    simp only [List.map_cons, List.nodup_cons, List.mem_map, not_exists, not_and] at hkeys hleases
    have hr := hcomplete r (by simp)
    have hcontains : records.contains r.key = false := by
      simp [Dict.contains, hfresh r (by simp)]
    have hlease : leases.contains r.leaseKey = false := by simpa using hnew r (by simp)
    simp only [loadRecords, hr, hcontains, hlease, Bool.true_eq_false, Bool.false_eq_true, if_false]
    refine ih (fun x hx => hcomplete x (by simp [hx])) hkeys.2 ?_ hleases.2 ?_
    · intro x hx
      rw [Dict.get?_set_of_ne _ _ (hkeys.1 x hx)]
      exact hfresh x (by simp [hx])
    · intro x hx
      simp only [List.mem_cons, not_or]
      exact ⟨hleases.1 x hx, hnew x (by simp [hx])⟩

theorem rising_of_pairwise : ∀ {l : List ReplacementRunSeal},
    l.Pairwise (fun a b => a.sealSequence < b.sealSequence) → rising l = true
  | [], _ => rfl
  | [_], _ => rfl
  | a :: b :: rest, h => by
      simp only [rising, Bool.and_eq_true, decide_eq_true_eq]
      exact ⟨(List.pairwise_cons.mp h).1 b (by simp),
        rising_of_pairwise (List.pairwise_cons.mp h).2⟩

theorem validateSeals_ok (hc : Consistent limits c) (hcomplete : Complete c) :
    validateSeals limits c.seals c.nextSealSequence = .ok () := by
  have hfields : (c.seals.any fun runSeal => !runSeal.complete) = false := by
    simpa using hcomplete.seals
  have hnext : ¬ (c.nextSealSequence = 0 ∨ (c.seals.getLast?.any fun runSeal =>
      decide (c.nextSealSequence ≤ runSeal.sealSequence)) = true) := by
    rintro (h | h)
    · exact hcomplete.next h
    · obtain ⟨runSeal, hlast, hle⟩ := Option.any_eq_true _ _ |>.mp h
      have := hc.next runSeal (List.mem_of_getLast? hlast)
      simp only [decide_eq_true_eq] at hle
      omega
  unfold validateSeals
  rw [if_neg (by simp [hfields]), if_neg (by have := hc.retained; omega),
    if_neg (by simp [rising_of_pairwise hc.rising]), if_neg (by simp [hc.distinct.dedup]),
    if_neg hnext]

theorem validateSegment_ok (hc : Consistent limits c) (hcomplete : Complete c) :
    validateSegment c.activeRun c.records = .ok () := by
  have hsegment : ∀ r ∈ c.records.values, ∃ run, c.activeRun = some run ∧
      r.restartRunId = run.restartRunId ∧ r.decisionDigest = run.decisionDigest := by
    intro r hr
    obtain ⟨k, hk⟩ := (Dict.mem_values_iff _ _).mp hr
    exact hc.segment k r hk
  unfold validateSegment
  cases hrun : c.activeRun with
  | none =>
    have hempty : c.records.values = [] := by
      refine List.eq_nil_iff_forall_not_mem.mpr fun r hr => ?_
      obtain ⟨run, h, _⟩ := hsegment r hr
      rw [hrun] at h
      cases h
    have hsize : c.records.size = 0 := by
      simpa [Dict.values, Dict.size] using congrArg List.length hempty
    simp [hsize]
  | some run =>
    have hsame : ∀ r ∈ c.records.values,
        r.restartRunId = run.restartRunId ∧ r.decisionDigest = run.decisionDigest := by
      intro r hr
      obtain ⟨run', h, hboth⟩ := hsegment r hr
      cases hrun.symm.trans h
      exact hboth
    have hruns : ¬ (c.records.values.any fun r =>
        decide (r.restartRunId ≠ run.restartRunId)) = true := by
      simpa using fun r hr => (hsame r hr).1
    have hdecisions : ¬ (run.decisionDigest = "" ∨ (c.records.values.any fun r =>
        decide (r.decisionDigest ≠ run.decisionDigest)) = true) := by
      rintro (h | h)
      · exact hcomplete.run run hrun h
      · obtain ⟨r, hr, hne⟩ := List.any_eq_true.mp h
        exact of_decide_eq_true hne (hsame r hr).2
    simp only [if_neg hruns, if_neg hdecisions]

theorem validateSegment_congr {activeRun : Option ActiveRun}
    {d d' : Dict RecordKey ReplacementReleaseRecord} (h : ∀ k, d.get? k = d'.get? k) :
    validateSegment activeRun d = validateSegment activeRun d' := by
  have hany (p : ReplacementReleaseRecord → Bool) : d.values.any p = d'.values.any p :=
    (Dict.values_perm_of_get?_eq h).any_eq
  unfold validateSegment
  simp only [Dict.size_of_get?_eq h, hany]

/-- Consistent and complete contents are read back from the file they were written to. -/
theorem load_envelopeOf (hc : Consistent limits c) (hcomplete : Complete c) (H : Hashing)
    {d : Directory Envelope} (horphan : d.orphan = false) (hmain : d.main = some (envelopeOf H c)) :
    load H limits d = .ok (contentsOf (payloadOf c)) := by
  have hsame := same_contentsOf hc
  have hmem {r : ReplacementReleaseRecord} (hr : r ∈ sortedRecords c.records) :
      c.records.get? r.key = some r := get?_of_mem_values hc.keyed (mem_sortedRecords.mp hr)
  have hnodup : (sortedRecords c.records).Nodup := by
    refine (List.perm_insertionSort _ _).nodup_iff.mpr ?_
    refine List.Nodup.of_map (·.key) ?_
    have hkeys : c.records.values.map (·.key) = c.records.keys := by
      simp only [Dict.values, Dict.keys, List.map_map]
      refine List.map_congr_left fun e he => ?_
      exact hc.keyed e.1 e.2 ((Dict.mem_entries_iff _ _ _).mp he)
    rw [hkeys]
    exact c.records.keys_nodup
  obtain ⟨records, hload⟩ : ∃ d, loadRecords Dict.empty [] (sortedRecords c.records) = .ok d := by
    refine loadRecords_ok ?_ ?_ ?_ ?_ ?_
    · intro r hr
      exact hcomplete.records _ r (hmem hr)
    · refine hnodup.map_on fun a ha b hb hkey => ?_
      exact Option.some.inj ((hmem ha).symm.trans (hkey ▸ hmem hb))
    · simp
    · refine hnodup.map_on fun a ha b hb hlease => ?_
      have hkey := hc.leases _ _ a b (hmem ha) (hmem hb) hlease
      exact Option.some.inj ((hmem ha).symm.trans (hkey ▸ hmem hb))
    · simp
  have hrecords : records = (contentsOf (payloadOf c)).records := loadRecords_eq hload
  have hsize : records.size = c.records.size := by
    rw [hrecords, Dict.size_of_get?_eq hsame.records]
  have hsegment : validateSegment c.activeRun records = .ok () := by
    rw [hrecords, ← validateSegment_congr hsame.records]
    exact validateSegment_ok hc hcomplete
  have hcap : ¬ limits.maxRecordsPerRun < records.size := by
    have := hc.capacity
    omega
  have hcontents : contentsOf (payloadOf c) =
      ⟨c.activeRun, records, c.seals, c.nextSealSequence⟩ := by
    rw [hrecords]
    rfl
  rw [hcontents]
  simp [load, horphan, hmain, envelopeOf, payloadOf, hload, hcap, hsegment,
    validateSeals_ok hc hcomplete]

theorem validateSeals_retained {seals : List ReplacementRunSeal} {n : Nat}
    (h : validateSeals limits seals n = .ok ()) : seals.length ≤ limits.sealRetention := by
  by_contra hlong
  unfold validateSeals at h
  rw [if_pos (Nat.lt_of_not_le hlong)] at h
  split at h
  · cases h
  · cases h

/-- What is loaded is what the file says, and fits the limits. -/
theorem load_cases {d : Directory Envelope} (h : load H limits d = .ok c) :
    d.orphan = false ∧ ((d.main = none ∧ c = {}) ∨ ∃ raw, d.main = some raw ∧
      c = contentsOf raw.payload ∧ c.records.size ≤ limits.maxRecordsPerRun ∧
      c.seals.length ≤ limits.sealRetention) := by
  unfold load at h
  split at h
  · cases h
  rename_i horphan
  refine ⟨by simpa using horphan, ?_⟩
  split at h
  · rename_i hmain
    exact .inl ⟨hmain, (Except.ok.inj h).symm⟩
  rename_i raw hmain
  split at h
  · cases h
  split at h
  · cases h
  obtain ⟨records, hload, h⟩ := bind_eq_ok.mp h
  split at h
  · cases h
  rename_i hcap
  obtain ⟨_, _, h⟩ := bind_eq_ok.mp h
  obtain ⟨_, hseals, h⟩ := bind_eq_ok.mp h
  cases h
  cases loadRecords_eq hload
  exact .inr ⟨raw, hmain, rfl, Nat.le_of_not_lt hcap, validateSeals_retained hseals⟩

/-! ## What a plan commits -/

/-- What a call can write over contents it finds. -/
inductive Commits (H : Hashing) (limits : StoreLimits) (c : StoreContents) :
    List StoreContents → Prop
  | nothing : Commits H limits c []
  /-- More records of the active run, or the first ones of a new run. -/
  | segment (run : ActiveRun) (records : Dict RecordKey ReplacementReleaseRecord)
      (continued : ∀ run', c.activeRun = some run' → run' = run)
      (unsealed : sealForRun c run.restartRunId = none)
      (kept : ∀ k r, c.records.get? k = some r → records.get? k = some r)
      (consistent : Consistent limits { c with activeRun := some run, records := records }) :
      Commits H limits c [{ c with activeRun := some run, records := records }]
  /-- The seal of the active run, then the contents without its records. -/
  | seals (run : ActiveRun) (runSeal : ReplacementRunSeal) (active : c.activeRun = some run)
      (unsealed : sealForRun c run.restartRunId = none)
      (sealsRun : runSeal.restartRunId = run.restartRunId)
      (number : runSeal.sealSequence = c.nextSealSequence)
      (vouched : vouches H runSeal run c.records = true) :
      Commits H limits c [withSeal limits runSeal c, collected (withSeal limits runSeal c)]

theorem validateRequestedRun_ok (h : validateRequestedRun H c run old (some decision) = .ok ()) :
    run ≠ "" ∧ ∀ active, c.activeRun = some active → active = newRun H run old decision := by
  unfold validateRequestedRun at h
  split at h
  · cases h
  rename_i hempty
  refine ⟨fun he => hempty (.inl he), ?_⟩
  rintro ⟨activeRun, activeOld, activeDecision⟩ hactive
  simp only [hactive] at h
  split at h
  · cases h
  split at h
  · cases h
  split at h
  · cases h
  rename_i hrun hold hdecision
  simp only [Option.isSome_some, true_and, ne_eq, Option.some.injEq, not_not] at *
  rw [hrun, hold, hdecision]
  rfl

/-- A record that is looked up and not found belongs to the active run, or to a new one. -/
theorem lookup_none (h : lookup H record old s = .ok none) :
    s.records.get? record.key = none ∧
      sealForRun s.toStoreContents record.restartRunId = none ∧
      validateRequestedRun H s.toStoreContents record.restartRunId old
        (some record.decisionDigest) = .ok () := by
  unfold lookup at h
  obtain ⟨_, _, h⟩ := bind_eq_ok.mp h
  split at h
  · split at h
    · cases h
    · cases h
  · rename_i hget
    split at h
    · cases h
    · rename_i hseal
      obtain ⟨_, hrun, _⟩ := bind_eq_ok.mp h
      exact ⟨hget, hseal, hrun⟩

theorem leaseTaken_eq_false (h : ¬ leaseTaken c record = true) {k : RecordKey}
    (hget : c.records.get? k = some r) (hlease : r.leaseKey = record.leaseKey) :
    r.key = record.key := by
  by_contra hne
  refine h (List.any_eq_true.mpr ⟨r, (Dict.mem_values_iff _ _).mpr ⟨k, hget⟩, ?_⟩)
  simp [hlease, hne]

theorem withRecord_commits (hc : Consistent limits s.toStoreContents)
    (hl : lookup H record old s = .ok none) (hcap : ¬ limits.maxRecordsPerRun ≤ s.records.size)
    (hlease : ¬ leaseTaken s.toStoreContents record = true) :
    Commits H limits s.toStoreContents [withRecord H s.toStoreContents record old] := by
  obtain ⟨hfresh, hseal, hrun⟩ := lookup_none hl
  obtain ⟨_, hactive⟩ := validateRequestedRun_ok hrun
  -- the run of the record is the active one, if there is one
  have hsame : s.activeRun.getD (newRun H record.restartRunId old record.decisionDigest) =
      newRun H record.restartRunId old record.decisionDigest := by
    cases h : s.activeRun with
    | none =>
      rfl
    | some run =>
      exact hactive run h
  have hget (k : RecordKey) (r : ReplacementReleaseRecord) :
      (s.records.set record.key record).get? k = some r →
        (k = record.key ∧ r = record) ∨ s.records.get? k = some r := by
    rw [Dict.get?_set]
    split
    · rename_i hk
      intro h
      exact .inl ⟨hk, (Option.some.inj h).symm⟩
    · exact .inr
  unfold withRecord
  rw [hsame]
  refine .segment _ _ hactive hseal ?_ ⟨?_, ?_, ?_, ?_, hc.rising, hc.distinct,
    hc.retained, hc.next⟩
  · intro k r h
    rw [Dict.get?_set_of_ne]
    · exact h
    · rintro rfl
      rw [hfresh] at h
      cases h
  · intro k r h
    rcases hget k r h with ⟨rfl, rfl⟩ | h
    · rfl
    · exact hc.keyed k r h
  · intro k r h
    refine ⟨_, rfl, ?_⟩
    rcases hget k r h with ⟨_, rfl⟩ | h
    · exact ⟨rfl, rfl⟩
    · obtain ⟨run, hrun, hboth⟩ := hc.segment k r h
      rw [hactive run hrun] at hboth
      exact hboth
  · intro k k' r r' h h' hsameLease
    rcases hget k r h with ⟨hk, hr⟩ | hold
    · rcases hget k' r' h' with ⟨hk', _⟩ | hold'
      · rw [hk, hk']
      · rw [hk, ← hc.keyed k' r' hold', leaseTaken_eq_false hlease hold' (hr ▸ hsameLease.symm)]
    · rcases hget k' r' h' with ⟨hk', hr'⟩ | hold'
      · rw [hk', ← hc.keyed k r hold, leaseTaken_eq_false hlease hold (hr' ▸ hsameLease)]
      · exact hc.leases k k' r r' hold hold' hsameLease
  · change (s.records.set record.key record).size ≤ _
    rw [Dict.size_set_of_fresh _ hfresh]
    omega

/-! ### Batches -/

/-- A batch in the making, over the records it started from and those added so far. -/
structure Batched (base : Dict RecordKey ReplacementReleaseRecord)
    (added : List ReplacementReleaseRecord) (b : Batch) : Prop where
  kept : ∀ k r, base.get? k = some r → b.candidate.get? k = some r
  included : ∀ r ∈ added, b.candidate.get? r.key = some r
  origin : ∀ k r, b.candidate.get? k = some r → base.get? k = some r ∨ (r ∈ added ∧ r.key = k)
  leases : ∀ k r, b.candidate.get? k = some r → b.leases.get? r.leaseKey = some k
  unchanged : b.changed = false → b.candidate = base

theorem batched_start (hc : Consistent limits c) :
    Batched c.records [] (startBatch c.records) where
  kept _ _ h := h
  included := by simp
  origin _ _ h := .inl h
  leases k r h := by
    have hkey := hc.keyed k r h
    subst hkey
    have hagree : ∀ y ∈ c.records.values, y.leaseKey = r.leaseKey → y.key = r.key := by
      intro y hy hlease
      exact hc.leases _ _ y r (get?_of_mem_values hc.keyed hy) h hlease
    exact Dict.get?_foldl_set_of_mem ((Dict.mem_values_iff _ _).mpr ⟨_, h⟩) hagree _
  unchanged _ := rfl

/-- One more record, under a key and a lease that are both free. -/
theorem Batched.insert {added : List ReplacementReleaseRecord} (h : Batched base added b)
    (hfresh : b.candidate.get? r.key = none)
    (hlease : ∀ k, b.leases.get? r.leaseKey = some k → k = r.key) :
    Batched base (added ++ [r])
      ⟨b.candidate.set r.key r, b.leases.set r.leaseKey r.key, true⟩ where
  kept k x hx := by
    have hk := h.kept k x hx
    rw [Dict.get?_set_of_ne]
    · exact hk
    · rintro rfl
      rw [hfresh] at hk
      cases hk
  included x hx := by
    rcases List.mem_append.mp hx with hx | hx
    · have hk := h.included x hx
      rw [Dict.get?_set_of_ne]
      · exact hk
      · intro hkey
        rw [hkey, hfresh] at hk
        cases hk
    · cases List.mem_singleton.mp hx
      exact Dict.get?_set_self _ _ _
  origin k x hx := by
    rw [Dict.get?_set] at hx
    split at hx
    · rename_i hk
      cases hx
      exact .inr ⟨by simp, hk.symm⟩
    · rcases h.origin k x hx with hbase | ⟨hmem, hkey⟩
      · exact .inl hbase
      · exact .inr ⟨by simp [hmem], hkey⟩
  leases k x hx := by
    rw [Dict.get?_set] at hx
    split at hx
    · rename_i hk
      cases hx
      rw [hk]
      exact Dict.get?_set_self _ _ _
    · have hx' := h.leases k x hx
      rw [Dict.get?_set_of_ne]
      · exact hx'
      · intro hsame
        rw [hsame] at hx'
        have hk := hlease k hx'
        rw [hk, hfresh] at hx
        cases hx
  unchanged hfalse := by cases hfalse

theorem Batched.add {added : List ReplacementReleaseRecord} {b b' : Batch}
    (h : Batched base added b) (hadd : addToBatch b r = .ok b') :
    Batched base (added ++ [r]) b' := by
  unfold addToBatch at hadd
  split at hadd
  · rename_i existing hget
    split at hadd
    · cases hadd
    rename_i hsame
    cases hadd
    refine ⟨h.kept, ?_, ?_, h.leases, h.unchanged⟩
    · intro x hx
      rcases List.mem_append.mp hx with hx | hx
      · exact h.included x hx
      · cases List.mem_singleton.mp hx
        rw [hget, not_not.mp hsame]
    · intro k x hx
      rcases h.origin k x hx with hbase | ⟨hmem, hkey⟩
      · exact .inl hbase
      · exact .inr ⟨by simp [hmem], hkey⟩
  · rename_i hfresh
    split at hadd
    · rename_i other hother
      split at hadd
      · cases hadd
      rename_i hsame
      cases hadd
      refine h.insert hfresh fun k hk => ?_
      rw [hother] at hk
      rw [← Option.some.inj hk]
      exact not_not.mp hsame
    · rename_i hnone
      cases hadd
      refine h.insert hfresh fun k hk => ?_
      rw [hnone] at hk
      cases hk

theorem Batched.addAll :
    ∀ {l added : List ReplacementReleaseRecord} {b b' : Batch}, Batched base added b →
      addAllToBatch b l = .ok b' → Batched base (added ++ l) b'
  | [], added, b, b', h, hall => by
      cases hall
      simpa using h
  | r :: rest, added, b, b', h, hall => by
      obtain ⟨b₁, hadd, hrest⟩ := bind_eq_ok.mp hall
      have := (h.add hadd).addAll hrest
      rwa [List.append_assoc] at this

/-- What the checks of a batch have established when they pass. -/
structure BatchAccepted (H : Hashing) (limits : StoreLimits) (c : StoreContents)
    (records : List ReplacementReleaseRecord) (run old decision : String) (b : Batch) : Prop where
  batched : Batched c.records records b
  unsealed : sealForRun c run = none
  decision_ne : decision ≠ ""
  continued : ∀ active, c.activeRun = some active → active = newRun H run old decision
  ofRun : ∀ r ∈ records, r.restartRunId = run ∧ r.decisionDigest = decision
  capacity : b.candidate.size ≤ limits.maxRecordsPerRun

theorem validateBatch_ok (hc : Consistent limits s.toStoreContents)
    {records : List ReplacementReleaseRecord} {decision : Option String}
    (h : validateBatch H limits records run old decision s = .ok b) :
    BatchAccepted H limits s.toStoreContents records run old
      (requestedDecision records decision) b := by
  unfold validateBatch at h
  obtain ⟨_, _, h⟩ := bind_eq_ok.mp h
  split at h
  · cases h
  rename_i hseal
  dsimp only at h
  split at h
  · cases h
  rename_i hdecision
  split at h
  · cases h
  rename_i hdecisions
  obtain ⟨_, hrun, h⟩ := bind_eq_ok.mp h
  split at h
  · cases h
  rename_i hruns
  obtain ⟨b', hall, h⟩ := bind_eq_ok.mp h
  split at h
  · cases h
  rename_i hcap
  cases h
  refine ⟨?_, hseal, hdecision, (validateRequestedRun_ok hrun).2, ?_,
    Nat.le_of_not_lt hcap⟩
  · simpa using (batched_start hc).addAll hall
  · simp only [List.any_eq_true, decide_eq_true_eq, not_exists, not_and, ne_eq,
      not_not] at hdecisions hruns
    exact fun r hr => ⟨hruns r hr, hdecisions r hr⟩

theorem withBatch_commits (hc : Consistent limits c) {records : List ReplacementReleaseRecord}
    (h : BatchAccepted H limits c records run old decision b) :
    Commits H limits c [withBatch H c b run old decision] := by
  refine .segment _ _ h.continued h.unsealed h.batched.kept
    ⟨?_, ?_, ?_, h.capacity, hc.rising, hc.distinct, hc.retained, hc.next⟩
  · intro k r hget
    rcases h.batched.origin k r hget with hbase | ⟨_, hkey⟩
    · exact hc.keyed k r hbase
    · exact hkey
  · intro k r hget
    refine ⟨_, rfl, ?_⟩
    rcases h.batched.origin k r hget with hbase | ⟨hmem, _⟩
    · obtain ⟨active, hactive, hboth⟩ := hc.segment k r hbase
      rw [h.continued active hactive] at hboth
      exact hboth
    · exact h.ofRun r hmem
  · intro k k' r r' hget hget' hlease
    have hk := h.batched.leases k r hget
    rw [hlease, h.batched.leases k' r' hget'] at hk
    exact (Option.some.inj hk).symm

/-! ### Seals -/

theorem validateSeal_none (h : validateSeal H run old new decision s = .ok none) :
    run ≠ "" ∧ sealForRun s.toStoreContents run = none ∧
      s.activeRun = some (newRun H run old decision) := by
  unfold validateSeal at h
  obtain ⟨_, _, h⟩ := bind_eq_ok.mp h
  split at h
  · split at h
    · cases h
    · cases h
  · rename_i hseal
    obtain ⟨_, hrun, h⟩ := bind_eq_ok.mp h
    obtain ⟨hne, hactive⟩ := validateRequestedRun_ok hrun
    split at h
    · cases h
    rename_i hsome
    obtain ⟨active, hget⟩ := Option.ne_none_iff_exists'.mp
      (fun hnone => hsome (by simp [hnone]) : s.activeRun ≠ none)
    exact ⟨hne, hseal, by rw [hget, hactive active hget]⟩

theorem newSeal_commits (h : validateSeal H run old new decision s = .ok none) :
    Commits H limits s.toStoreContents
      [withSeal limits (newSeal H s.toStoreContents run old new decision) s.toStoreContents,
        collected (withSeal limits (newSeal H s.toStoreContents run old new decision)
          s.toStoreContents)] := by
  obtain ⟨_, hseal, hactive⟩ := validateSeal_none h
  exact .seals _ _ hactive hseal rfl rfl (by simp [vouches, newSeal, newRun])

/-- Every plan is one of the three kinds. -/
theorem plan_commits (hc : Consistent limits s.toStoreContents) {call : StoreCall} {a : StoreAnswer}
    {cs : List StoreContents} (h : plan H limits call s = .ok (a, cs)) :
    Commits H limits s.toStoreContents cs := by
  cases call with
  | persistRecord record old =>
    obtain ⟨found, hl, h⟩ := bind_eq_ok.mp h
    cases found with
    | some existing =>
      cases h
      exact .nothing
    | none =>
      simp only at h
      split at h
      · cases h
      split at h
      · cases h
      · rename_i hcap hlease
        cases h
        exact withRecord_commits hc hl hcap hlease
  | persistRecords records run old decision =>
    obtain ⟨b, hb, h⟩ := bind_eq_ok.mp h
    simp only [return_eq_ok, Except.ok.injEq, Prod.mk.injEq] at h
    obtain ⟨_, rfl⟩ := h
    split
    · exact withBatch_commits hc (validateBatch_ok hc hb)
    · exact .nothing
  | sealRun run old new decision =>
    obtain ⟨found, hv, h⟩ := bind_eq_ok.mp h
    cases found with
    | some existing =>
      cases h
      exact .nothing
    | none =>
      cases h
      exact newSeal_commits hv
  | _ =>
    obtain ⟨_, _, h⟩ := bind_eq_ok.mp h
    cases h
    exact .nothing

end ReplacementDecisionStore

end PrismServe
