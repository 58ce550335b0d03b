import PrismServe.Properties.StoreReopening

/-!
# A batch of records against its records one by one

`persist_records` checks a whole batch before it writes once; `persist_record` checks
and writes a single record.  For a batch of one run and one decision both lead to the
same store and the same file, as long as the old generation is the one of the active
run.  A record that is already in the store is answered by `persist_record` before the
old generation is looked at, by `persist_records` after that.
-/

namespace PrismServe

open Lib

namespace ReplacementDecisionStore

variable {H : Hashing} {limits : StoreLimits} {c : StoreContents}
variable {run old decision : String} {r : ReplacementReleaseRecord}

/-- The records of a batch, persisted one after the other. -/
def persistEach (H : Hashing) (limits : StoreLimits) (oldTopologyGeneration : String) :
    List ReplacementReleaseRecord → StoreM (List ReplacementReleaseRecord)
  | [] => return []
  | record :: rest => do
      let (stored, _) ← persistRecord H limits record oldTopologyGeneration
      let others ← persistEach H limits oldTopologyGeneration rest
      return stored :: others

/-- The run and the old generation are named, and the active run is about this generation. -/
structure OfGeneration (H : Hashing) (c : StoreContents) (run old : String) : Prop where
  run_ne : run ≠ ""
  old_ne : old ≠ ""
  matching : ∀ active, c.activeRun = some active →
    active.oldTopologyGenerationDigest = H.text old

/-- The run can go on, or begin. -/
structure Accepts (H : Hashing) (c : StoreContents) (run old decision : String) : Prop
    extends OfGeneration H c run old where
  unsealed : sealForRun c run = none
  continued : ∀ active, c.activeRun = some active → active = newRun H run old decision

theorem validateRequestedRun_iff :
    validateRequestedRun H c run old (some decision) = .ok () ↔
      run ≠ "" ∧ old ≠ "" ∧
        ∀ active, c.activeRun = some active → active = newRun H run old decision := by
  constructor
  · intro h
    obtain ⟨hrun, hactive⟩ := validateRequestedRun_ok h
    refine ⟨hrun, ?_, hactive⟩
    rintro rfl
    simp [validateRequestedRun] at h
  · rintro ⟨hrun, hold, hactive⟩
    unfold validateRequestedRun
    rw [if_neg (by simp [hrun, hold])]
    cases hc : c.activeRun with
    | none =>
      rfl
    | some active =>
      rw [hactive active hc]
      simp [newRun]

theorem ofGeneration_of_valid
    (h : validateRequestedRun H c run old (some decision) = .ok ()) : OfGeneration H c run old := by
  obtain ⟨hrun, hold, hactive⟩ := validateRequestedRun_iff.mp h
  refine ⟨hrun, hold, fun active hc => ?_⟩
  rw [hactive active hc]
  rfl

theorem accepts_iff :
    Accepts H c run old decision ↔
      sealForRun c run = none ∧ validateRequestedRun H c run old (some decision) = .ok () := by
  constructor
  · intro h
    exact ⟨h.unsealed, validateRequestedRun_iff.mpr ⟨h.run_ne, h.old_ne, h.continued⟩⟩
  · rintro ⟨hunsealed, hvalid⟩
    exact ⟨ofGeneration_of_valid hvalid, hunsealed, (validateRequestedRun_ok hvalid).2⟩

/-- A record that is not in the store yet, in a store whose writes succeed. -/
theorem persistRecord_fresh (limits : StoreLimits) {d : Directory Envelope}
    (hl : lookup H r old ⟨c, none⟩ = .ok none) :
    (persistRecord H limits r old).run ⟨⟨c, none⟩, d, []⟩ =
      if limits.maxRecordsPerRun ≤ c.records.size then
        .error (.raised (.capacity "replacement record capacity exhausted")) ⟨⟨c, none⟩, d, []⟩
      else if leaseTaken c r then
        .error (.raised (.conflict "replacement lease already has a different decision key"))
          ⟨⟨c, none⟩, d, []⟩
      else
        .ok (r, true) ⟨⟨withRecord H c r old, none⟩,
          d.write (envelopeOf H (withRecord H c r old)) .replaced, []⟩ := by
  by_cases hcap : limits.maxRecordsPerRun ≤ c.records.size
  · simp [persistRecord, check_run, hl, hcap]
  · by_cases hlease : leaseTaken c r = true
    · simp [persistRecord, check_run, hl, hcap, hlease]
    · simp [persistRecord, check_run, hl, hcap, hlease, withRecord, commitState_undisturbed]

/-! ## The state that a batch in the making stands for -/

/-- The contents after the records that have been added. -/
def reached (H : Hashing) (c : StoreContents) (b : Batch) (run old decision : String) :
    StoreContents :=
  if b.changed then withBatch H c b run old decision else c

/-- The host after the records that have been added; nothing is written when nothing is new. -/
def reachedHost (H : Hashing) (c : StoreContents) (d : Directory Envelope) (b : Batch)
    (run old decision : String) : Host :=
  ⟨⟨reached H c b run old decision, none⟩,
    if b.changed then d.write (envelopeOf H (reached H c b run old decision)) .replaced else d, []⟩

/-- Every lease of a batch is the lease of the record under its key. -/
def LeasesHeld (b : Batch) : Prop :=
  ∀ lease k, b.leases.get? lease = some k → ∃ r, b.candidate.get? k = some r ∧ r.leaseKey = lease

theorem leasesHeld_start (hc : Consistent limits c) : LeasesHeld (startBatch c.records) := by
  intro lease k h
  rw [startBatch, Dict.get?_foldl_set] at h
  rcases Option.or_eq_some_iff.mp h with h | ⟨-, h⟩
  · obtain ⟨r, hr, rfl⟩ := Option.map_eq_some_iff.mp h
    obtain ⟨hmem, hlease⟩ := List.mem_filter.mp (List.mem_of_getLast? hr)
    exact ⟨r, get?_of_mem_values hc.keyed hmem, of_decide_eq_true hlease⟩
  · simp at h

theorem LeasesHeld.insert {b : Batch} (h : LeasesHeld b) (hfresh : b.candidate.get? r.key = none) :
    LeasesHeld ⟨b.candidate.set r.key r, b.leases.set r.leaseKey r.key, true⟩ := by
  intro lease k hk
  rw [Dict.get?_set] at hk
  split at hk
  · rename_i hlease
    cases hk
    exact ⟨r, Dict.get?_set_self _ _ _, hlease.symm⟩
  · obtain ⟨x, hx, hlease⟩ := h lease k hk
    refine ⟨x, ?_, hlease⟩
    rw [Dict.get?_set_of_ne]
    · exact hx
    · rintro rfl
      rw [hfresh] at hx
      cases hx

/-- What holds of a batch in the making, over the contents it started from. -/
structure InMaking (limits : StoreLimits) (c : StoreContents)
    (added : List ReplacementReleaseRecord) (b : Batch) : Prop where
  batched : Batched c.records added b
  held : LeasesHeld b
  keyed : ∀ k r, b.candidate.get? k = some r → r.key = k
  capacity : b.candidate.size ≤ limits.maxRecordsPerRun

theorem inMaking_start (hc : Consistent limits c) :
    InMaking limits c [] (startBatch c.records) :=
  ⟨batched_start hc, leasesHeld_start hc, hc.keyed, hc.capacity⟩

section Making

variable {b b' : Batch} {added : List ReplacementReleaseRecord} {d : Directory Envelope}

theorem reached_records (hb : Batched c.records added b) :
    (reached H c b run old decision).records = b.candidate := by
  unfold reached
  split
  case isTrue =>
    rfl
  case isFalse h =>
    exact (hb.unchanged (Bool.eq_false_iff.mpr h)).symm

theorem accepts_reached (h : Accepts H c run old decision) :
    Accepts H (reached H c b run old decision) run old decision := by
  unfold reached
  split
  case isTrue =>
    refine ⟨⟨h.run_ne, h.old_ne, ?_⟩, h.unsealed, ?_⟩
    · rintro active hactive
      cases hactive
      rfl
    · rintro active hactive
      exact (Option.some.inj hactive).symm
  case isFalse =>
    exact h

/-- One more record over the contents of a batch gives the contents of the longer batch. -/
theorem withRecord_reached (hb : Batched c.records added b) (h : Accepts H c run old decision)
    (hrun : r.restartRunId = run) (hdecision : r.decisionDigest = decision) :
    withRecord H (reached H c b run old decision) r old =
      reached H c ⟨b.candidate.set r.key r, b.leases.set r.leaseKey r.key, true⟩ run old
        decision := by
  have hactive : (reached H c b run old decision).activeRun.getD (newRun H run old decision) =
      newRun H run old decision := by
    cases ha : (reached H c b run old decision).activeRun with
    | none =>
      rfl
    | some active =>
      exact (accepts_reached h).continued active ha
  have hother : (reached H c b run old decision).seals = c.seals ∧
      (reached H c b run old decision).nextSealSequence = c.nextSealSequence := by
    unfold reached
    split <;> exact ⟨rfl, rfl⟩
  unfold withRecord
  rw [hrun, hdecision, hactive, reached_records hb, hother.1, hother.2]
  rfl

theorem leaseTaken_iff (hb : InMaking limits c added b) :
    leaseTaken (reached H c b run old decision) r = true ↔
      ∃ k, b.leases.get? r.leaseKey = some k ∧ k ≠ r.key := by
  unfold leaseTaken
  rw [reached_records hb.batched, List.any_eq_true]
  constructor
  · rintro ⟨x, hx, hsame⟩
    obtain ⟨k, hk⟩ := (Dict.mem_values_iff _ _).mp hx
    obtain ⟨hlease, hkey⟩ : x.leaseKey = r.leaseKey ∧ x.key ≠ r.key := by simpa using hsame
    refine ⟨k, ?_, ?_⟩
    · rw [← hlease]
      exact hb.batched.leases k x hk
    · rw [← hb.keyed k x hk]
      exact hkey
  · rintro ⟨k, hk, hne⟩
    obtain ⟨x, hx, hlease⟩ := hb.held _ _ hk
    refine ⟨x, (Dict.mem_values_iff _ _).mpr ⟨k, hx⟩, ?_⟩
    have hkey := hb.keyed k x hx
    simp [hlease, hkey, hne]

/-! ## One record -/

theorem InMaking.insert (hb : InMaking limits c added b) (hfresh : b.candidate.get? r.key = none)
    (hlease : ∀ k, b.leases.get? r.leaseKey = some k → k = r.key)
    (hcap : b.candidate.size < limits.maxRecordsPerRun) :
    InMaking limits c (added ++ [r])
      ⟨b.candidate.set r.key r, b.leases.set r.leaseKey r.key, true⟩ := by
  refine ⟨hb.batched.insert hfresh hlease, hb.held.insert hfresh, ?_, ?_⟩
  · intro k x hx
    rw [Dict.get?_set] at hx
    split at hx
    · rename_i hk
      cases hx
      exact hk.symm
    · exact hb.keyed k x hx
  · rw [Dict.size_set_of_fresh _ hfresh]
    exact hcap

theorem addToBatch_fresh (hfresh : b.candidate.get? r.key = none)
    (hlease : ∀ k, b.leases.get? r.leaseKey = some k → k = r.key) :
    addToBatch b r = .ok ⟨b.candidate.set r.key r, b.leases.set r.leaseKey r.key, true⟩ := by
  unfold addToBatch
  rw [hfresh]
  dsimp only
  split
  · rename_i other hother
    rw [if_neg (not_not.mpr (hlease other hother))]
  · rfl

theorem addToBatch_known (hget : b.candidate.get? r.key = some r) : addToBatch b r = .ok b := by
  simp [addToBatch, hget]

theorem size_addToBatch_fresh (hget : b.candidate.get? r.key = none)
    (hadd : addToBatch b r = .ok b') : b'.candidate.size = b.candidate.size + 1 := by
  unfold addToBatch at hadd
  rw [hget] at hadd
  dsimp only at hadd
  split at hadd
  · split at hadd
    · cases hadd
    · cases hadd
      exact Dict.size_set_of_fresh _ hget
  · cases hadd
    exact Dict.size_set_of_fresh _ hget

/-- A record is persisted exactly when it can be added to the batch and there is room for it. -/
theorem persistRecord_cases (hb : InMaking limits c added b) (h : Accepts H c run old decision)
    (hrun : r.restartRunId = run) (hdecision : r.decisionDigest = decision) :
    (∃ b' isNew, addToBatch b r = .ok b' ∧ InMaking limits c (added ++ [r]) b' ∧
      (persistRecord H limits r old).run (reachedHost H c d b run old decision) =
        .ok (r, isNew) (reachedHost H c d b' run old decision)) ∨
    ((∀ b', addToBatch b r = .ok b' → limits.maxRecordsPerRun < b'.candidate.size) ∧
      ∃ e h', (persistRecord H limits r old).run (reachedHost H c d b run old decision) =
        .error e h') := by
  have hrecords : (reached H c b run old decision).records = b.candidate :=
    reached_records hb.batched
  obtain ⟨hunsealed, hvalid⟩ := accepts_iff.mp (accepts_reached (b := b) h)
  cases hget : b.candidate.get? r.key with
  | some existing =>
    by_cases hsame : existing = r
    · -- a replay: nothing changes
      subst hsame
      have hadd := addToBatch_known hget
      refine Or.inl ⟨b, false, hadd, ⟨hb.batched.add hadd, hb.held, hb.keyed, hb.capacity⟩, ?_⟩
      simp [persistRecord, check_run, lookup, requireIntegrity, reachedHost, hrecords, hget]
    · refine Or.inr ⟨fun b' hadd => ?_, ?_⟩
      · simp [addToBatch, hget, hsame] at hadd
      · simp [persistRecord, check_run, lookup, requireIntegrity, reachedHost, hrecords, hget,
          hsame]
  | none =>
    have hlookup : lookup H r old ⟨reached H c b run old decision, none⟩ = .ok none := by
      simp [lookup, requireIntegrity, hrecords, hget, hrun, hdecision, hunsealed, hvalid]
    have hstep := persistRecord_fresh limits (d := (reachedHost H c d b run old
      decision).directory) hlookup
    rw [hrecords] at hstep
    by_cases hcap : limits.maxRecordsPerRun ≤ b.candidate.size
    · rw [if_pos hcap] at hstep
      refine Or.inr ⟨fun b' hadd => ?_, _, _, hstep⟩
      rw [size_addToBatch_fresh hget hadd]
      omega
    · rw [if_neg hcap] at hstep
      by_cases htaken : leaseTaken (reached H c b run old decision) r = true
      · rw [if_pos htaken] at hstep
        obtain ⟨k, hk, hne⟩ := (leaseTaken_iff hb).mp htaken
        refine Or.inr ⟨fun b' hadd => ?_, _, _, hstep⟩
        simp [addToBatch, hget, hk, hne] at hadd
      · rw [if_neg htaken, withRecord_reached hb.batched h hrun hdecision] at hstep
        have hlease : ∀ k, b.leases.get? r.leaseKey = some k → k = r.key := by
          intro k hk
          by_contra hne
          exact htaken ((leaseTaken_iff hb).mpr ⟨k, hk, hne⟩)
        refine Or.inl ⟨_, true, addToBatch_fresh hget hlease,
          hb.insert hget hlease (Nat.lt_of_not_le hcap), ?_⟩
        refine Eq.trans hstep ?_
        unfold reachedHost
        split <;> rfl

/-! ## All records of a batch -/

theorem size_le_addAllToBatch :
    ∀ {l : List ReplacementReleaseRecord} {b b' : Batch}, addAllToBatch b l = .ok b' →
      b.candidate.size ≤ b'.candidate.size
  | [], b, b', h => by
      cases h
      exact le_rfl
  | r :: rest, b, b', h => by
      obtain ⟨b₁, hadd, hrest⟩ := bind_eq_ok.mp h
      have hle := size_le_addAllToBatch hrest
      cases hget : b.candidate.get? r.key with
      | some existing =>
        by_cases hsame : existing = r
        · rw [addToBatch_known (hsame ▸ hget)] at hadd
          cases hadd
          exact hle
        · simp [addToBatch, hget, hsame] at hadd
      | none =>
        rw [size_addToBatch_fresh hget hadd] at hle
        omega

/-- The records are persisted one by one exactly when the batch is accepted. -/
theorem persistEach_cases (h : Accepts H c run old decision) :
    ∀ {l added : List ReplacementReleaseRecord} {b : Batch}, InMaking limits c added b →
      (∀ r ∈ l, r.restartRunId = run ∧ r.decisionDigest = decision) →
      (∃ b', addAllToBatch b l = .ok b' ∧ InMaking limits c (added ++ l) b' ∧
        (persistEach H limits old l).run (reachedHost H c d b run old decision) =
          .ok l (reachedHost H c d b' run old decision)) ∨
      ((∀ b', addAllToBatch b l = .ok b' → limits.maxRecordsPerRun < b'.candidate.size) ∧
        ∃ e h', (persistEach H limits old l).run (reachedHost H c d b run old decision) =
          .error e h')
  | [], added, b, hb, _ => by
      exact Or.inl ⟨b, rfl, by simpa using hb, rfl⟩
  | r :: rest, added, b, hb, hl => by
      obtain ⟨hrun, hdecision⟩ := hl r List.mem_cons_self
      rcases persistRecord_cases (d := d) hb h hrun hdecision with
        ⟨b₁, isNew, hadd, hb₁, hone⟩ | ⟨hfull, e, h', hone⟩
      · rcases persistEach_cases h hb₁ fun x hx => hl x (List.mem_cons_of_mem r hx) with
          ⟨b', hall, hb', hrest⟩ | ⟨hfull, e, h', hrest⟩
        · refine Or.inl ⟨b', bind_eq_ok.mpr ⟨b₁, hadd, hall⟩, ?_, ?_⟩
          · rwa [List.append_assoc] at hb'
          · simp [persistEach, hone, hrest]
        · refine Or.inr ⟨fun b' hall => ?_, e, h', by simp [persistEach, hone, hrest]⟩
          obtain ⟨b₂, hadd₂, hall⟩ := bind_eq_ok.mp hall
          cases hadd.symm.trans hadd₂
          exact hfull b' hall
      · refine Or.inr ⟨fun b' hall => ?_, e, h', by simp [persistEach, hone]⟩
        obtain ⟨b₁, hadd, hall⟩ := bind_eq_ok.mp hall
        exact (hfull b₁ hadd).trans_le (size_le_addAllToBatch hall)

/-! ## The batch -/

/-- A batch of one run and one decision, and the decision that may be given with it. -/
structure Uniform (records : List ReplacementReleaseRecord) (run decision : String)
    (given : Option String) : Prop where
  nonempty : records ≠ []
  ofRun : ∀ r ∈ records, r.restartRunId = run
  ofDecision : ∀ r ∈ records, r.decisionDigest = decision
  decision_ne : decision ≠ ""
  given : given = none ∨ given = some decision

variable {records : List ReplacementReleaseRecord} {given : Option String}

theorem Uniform.requestedDecision_eq (hu : Uniform records run decision given) :
    requestedDecision records given = decision := by
  have hhead : (records.head?.map (·.decisionDigest)).getD "" = decision := by
    cases records with
    | nil =>
      exact absurd rfl hu.nonempty
    | cons r rest =>
      exact hu.ofDecision r List.mem_cons_self
  rcases hu.given with h | h
  · rw [h]
    exact hhead
  · rw [h]
    exact if_neg hu.decision_ne

/-- The checks of a uniform batch. -/
theorem validateBatch_iff (hu : Uniform records run decision given) :
    validateBatch H limits records run old given ⟨c, none⟩ = .ok b ↔
      Accepts H c run old decision ∧ addAllToBatch (startBatch c.records) records = .ok b ∧
        b.candidate.size ≤ limits.maxRecordsPerRun := by
  have hdecisions : (records.any fun r => decide (r.decisionDigest ≠ decision)) = false := by
    simpa using hu.ofDecision
  have hruns : (records.any fun r => decide (r.restartRunId ≠ run)) = false := by
    simpa using hu.ofRun
  rw [accepts_iff]
  unfold validateBatch
  simp only [requireIntegrity, ok_bind, hu.requestedDecision_eq, hu.decision_ne, if_false,
    hdecisions, hruns, Bool.false_eq_true]
  cases hseal : sealForRun c run with
  | some runSeal =>
    constructor
    · intro h
      cases h
    · rintro ⟨⟨h, -⟩, -⟩
      cases h
  | none =>
    simp only [true_and]
    rw [bind_eq_ok]
    constructor
    · rintro ⟨⟨⟩, hvalid, h⟩
      obtain ⟨b₁, hall, h⟩ := bind_eq_ok.mp h
      split at h
      · cases h
      · rename_i hcap
        cases h
        exact ⟨hvalid, hall, Nat.le_of_not_lt hcap⟩
    · rintro ⟨hvalid, hall, hcap⟩
      refine ⟨(), hvalid, bind_eq_ok.mpr ⟨b, hall, ?_⟩⟩
      rw [if_neg (Nat.not_lt.mpr hcap)]
      rfl

/-- The records of an accepted batch are returned, and the store is the one reached by adding
them. -/
theorem persistRecords_accepted (hc : Consistent limits c)
    (hu : Uniform records run decision given)
    (hv : validateBatch H limits records run old given ⟨c, none⟩ = .ok b) :
    (persistRecords H limits records run old given).run ⟨⟨c, none⟩, d, []⟩ =
      .ok records (reachedHost H c d b run old decision) := by
  have hbatched := (validateBatch_ok hc hv).batched
  have hreturned : (records.filterMap fun r => b.candidate.get? r.key) = records := by
    rw [List.filterMap_congr (g := some) fun r hr => hbatched.included r hr, List.filterMap_some]
  by_cases hchanged : b.changed = true
  · simp [persistRecords, check_run, hv, hchanged, hreturned, commitState_undisturbed,
      hu.requestedDecision_eq, reachedHost, reached, withBatch]
  -- a batch of replays is about an active run
  have hactive : c.activeRun ≠ none := by
    obtain ⟨r, hr⟩ := List.exists_mem_of_ne_nil records hu.nonempty
    have hget := hbatched.included r hr
    rw [hbatched.unchanged (Bool.eq_false_iff.mpr hchanged)] at hget
    obtain ⟨active, hactive, -⟩ := hc.segment _ _ hget
    simp [hactive]
  simp [persistRecords, check_run, hv, hchanged, hactive, hreturned, reachedHost, reached]

theorem persistRecords_refused {e : StoreError} {h : Host}
    (hv : validateBatch H limits records run old given h.store = .error e) :
    (persistRecords H limits records run old given).run h = .error (.raised e) h := by
  simp [persistRecords, check_run, hv]

/-! ## Records one by one, whatever their run -/

theorem persistRecord_ok {h h' : Host} {x : ReplacementReleaseRecord × Bool}
    (hok : (persistRecord H limits r old).run h = .ok x h') :
    (h.store.records.get? r.key = some r ∧ h' = h) ∨ lookup H r old h.store = .ok none := by
  cases hl : lookup H r old h.store with
  | error e =>
    simp [persistRecord, check_run, hl] at hok
  | ok found =>
    cases found with
    | none =>
      exact Or.inr rfl
    | some existing =>
      simp only [persistRecord, EStateM.run_bind, check_run, hl] at hok
      cases hok
      refine Or.inl ⟨?_, rfl⟩
      unfold lookup at hl
      obtain ⟨_, _, hl⟩ := bind_eq_ok.mp hl
      split at hl
      · rename_i found hget
        split at hl
        · cases hl
        · rename_i hsame
          rw [hget, not_not.mp hsame]
      · split at hl
        · cases hl
        · obtain ⟨_, _, hl⟩ := bind_eq_ok.mp hl
          cases hl

/-- If all records are persisted, then all of them were there, or one of them is looked up without
being there. -/
theorem persistEach_ok :
    ∀ {l rs : List ReplacementReleaseRecord} {h h' : Host},
      (persistEach H limits old l).run h = .ok rs h' →
      (∀ r ∈ l, h.store.records.get? r.key = some r) ∨
        ∃ r ∈ l, lookup H r old h.store = .ok none
  | [], rs, h, h', _ => by simp
  | r :: rest, rs, h, h', hok => by
      simp only [persistEach, EStateM.run_bind] at hok
      split at hok
      case h_1 x h₁ hone =>
        split at hok
        case h_1 others h₂ hrest =>
          rcases persistRecord_ok hone with ⟨hget, rfl⟩ | hnone
          · rcases persistEach_ok hrest with hall | ⟨y, hy, hnone⟩
            · exact Or.inl (List.forall_mem_cons.mpr ⟨hget, hall⟩)
            · exact Or.inr ⟨y, List.mem_cons_of_mem r hy, hnone⟩
          · exact Or.inr ⟨r, List.mem_cons_self, hnone⟩
        case h_2 =>
          cases hok
      case h_2 =>
        cases hok

/-- Records that are persisted one by one, under the old generation of the active run, are of a run
that can go on. -/
theorem accepts_of_persistEach (hc : Consistent limits c) (hsettled : Settled c)
    (hu : Uniform records run decision given) (hold : OfGeneration H c run old)
    {rs : List ReplacementReleaseRecord} {h' : Host}
    (hok : (persistEach H limits old records).run ⟨⟨c, none⟩, d, []⟩ = .ok rs h') :
    Accepts H c run old decision := by
  rcases persistEach_ok hok with hall | ⟨r, hr, hnone⟩
  · obtain ⟨r, hr⟩ := List.exists_mem_of_ne_nil records hu.nonempty
    obtain ⟨active, hactive, hrun, hdecision⟩ := hc.segment _ _ (hall r hr)
    rw [hu.ofRun r hr] at hrun
    rw [hu.ofDecision r hr] at hdecision
    refine ⟨hold, hrun ▸ hsettled active hactive, fun other hother => ?_⟩
    have hmatching := hold.matching other hother
    cases hactive.symm.trans hother
    rw [newRun, hrun, hdecision, ← hmatching]
  · obtain ⟨-, hseal, hvalid⟩ := lookup_none hnone
    rw [hu.ofRun r hr] at hseal hvalid
    rw [hu.ofDecision r hr] at hvalid
    exact accepts_iff.mpr ⟨hseal, hvalid⟩

/-- The two ways in a store that has not failed. -/
theorem persistRecords_iff (hc : Consistent limits c) (hsettled : Settled c)
    (hu : Uniform records run decision given) {rs : List ReplacementReleaseRecord} {h' : Host} :
    (persistRecords H limits records run old given).run ⟨⟨c, none⟩, d, []⟩ = .ok rs h' ↔
      OfGeneration H c run old ∧
        (persistEach H limits old records).run ⟨⟨c, none⟩, d, []⟩ = .ok rs h' := by
  have heach (h : Accepts H c run old decision) :=
    persistEach_cases (d := d) h (inMaking_start hc)
      fun r hr => ⟨hu.ofRun r hr, hu.ofDecision r hr⟩
  constructor
  · intro hok
    cases hv : validateBatch H limits records run old given ⟨c, none⟩ with
    | error e =>
      rw [persistRecords_refused hv] at hok
      cases hok
    | ok b =>
      rw [persistRecords_accepted hc hu hv] at hok
      obtain ⟨haccepts, hall, hcap⟩ := (validateBatch_iff hu).mp hv
      rcases heach haccepts with ⟨b', hall', -, hrun⟩ | ⟨hfull, -⟩
      · cases hall.symm.trans hall'
        exact ⟨haccepts.toOfGeneration, hrun.trans hok⟩
      · exact absurd (hfull b hall) (Nat.not_lt.mpr hcap)
  · rintro ⟨hold, hok⟩
    have haccepts := accepts_of_persistEach hc hsettled hu hold hok
    rcases heach haccepts with ⟨b, hall, hb, hrun⟩ | ⟨-, e, h₁, hrun⟩
    · have hv := (validateBatch_iff hu).mpr ⟨haccepts, hall, hb.capacity⟩
      rw [persistRecords_accepted hc hu hv]
      exact hrun.symm.trans hok
    · cases hrun.symm.trans hok

end Making

/-- The first write was not done, and the store has failed closed unless the process is gone. -/
def WriteFailed (e : StoreStop) (h h' : Host) : Prop :=
  (∃ outcome rest, h.writes = outcome :: rest ∧ outcome ≠ .done) ∧
    (e = .crashed ∨ h'.store.fatalError ≠ none)

/-- A failed commit leaves the contents in memory alone. -/
theorem commitState_error {h h' : Host} {e : StoreStop}
    (herror : (commitState H c).run h = .error e h') :
    h'.store.toStoreContents = h.store.toStoreContents ∧ WriteFailed e h h' := by
  obtain ⟨store, d, writes⟩ := h
  cases writes with
  | nil =>
    rw [commitState_undisturbed] at herror
    cases herror
  | cons outcome rest =>
    cases outcome with
    | done =>
      simp [commitState, nextWrite, onDirectory] at herror
    | fails effect error =>
      simp [commitState, nextWrite, onDirectory] at herror
      obtain ⟨-, rfl⟩ := herror
      exact ⟨rfl, ⟨_, _, rfl, by simp⟩, Or.inr (by simp)⟩
    | crashes effect =>
      simp [commitState, nextWrite, onDirectory] at herror
      obtain ⟨rfl, rfl⟩ := herror
      exact ⟨rfl, ⟨_, _, rfl, by simp⟩, Or.inl rfl⟩

theorem persistRecords_error {records : List ReplacementReleaseRecord} {given : Option String}
    {h h' : Host} {e : StoreStop}
    (herror : (persistRecords H limits records run old given).run h = .error e h') :
    h'.store.toStoreContents = h.store.toStoreContents ∧ (h' = h ∨ WriteFailed e h h') := by
  cases hv : validateBatch H limits records run old given h.store with
  | error e =>
    rw [persistRecords_refused hv] at herror
    cases herror
    exact ⟨rfl, Or.inl rfl⟩
  | ok b =>
    simp only [persistRecords, EStateM.run_bind, check_run, hv, EStateM.run_get] at herror
    split at herror
    · rw [EStateM.run_bind] at herror
      split at herror
      · cases herror
      rename_i hcommit
      cases herror
      obtain ⟨hsame, hwrite⟩ := commitState_error hcommit
      exact ⟨hsame, Or.inr hwrite⟩
    · cases herror

/-- A batch of one run and one decision is persisted exactly when its records can be persisted one
by one and the old generation is that of the active run; the store, the file and the records that
are returned are then the same.  One by one, the old generation is only passed over when all
records are already there.  A batch that fails leaves everything as it was, unless its write
failed; then the contents in memory are unchanged as well, and the store has failed closed, or the
process is gone. -/
theorem batch_refines_single (H : Hashing) (events : List StoreEvent) (p : StoreProcess)
    (hp : (runEvents H {} events).process = some p)
    (records : List ReplacementReleaseRecord) (run old decision : String) (given : Option String)
    (hu : Uniform records run decision given) :
    (∀ rs h',
      (persistRecords H p.limits records run old given).run
          ⟨p.store, (runEvents H {} events).directory, []⟩ = .ok rs h' ↔
        OfGeneration H p.store.toStoreContents run old ∧
          (persistEach H p.limits old records).run
            ⟨p.store, (runEvents H {} events).directory, []⟩ = .ok rs h') ∧
    (∀ rs h',
      (persistEach H p.limits old records).run
          ⟨p.store, (runEvents H {} events).directory, []⟩ = .ok rs h' →
        OfGeneration H p.store.toStoreContents run old ∨
          ∀ r ∈ records, p.store.records.get? r.key = some r) ∧
    ∀ writes e h',
      (persistRecords H p.limits records run old given).run
          ⟨p.store, (runEvents H {} events).directory, writes⟩ = .error e h' →
        h'.store.toStoreContents = p.store.toStoreContents ∧
          (h' = ⟨p.store, (runEvents H {} events).directory, writes⟩ ∨
            (∃ outcome rest, writes = outcome :: rest ∧ outcome ≠ .done) ∧
              (e = .crashed ∨ h'.store.fatalError ≠ none)) := by
  refine ⟨fun rs h' => ?_, fun rs h' hok => ?_, fun writes e h' => persistRecords_error⟩
  · obtain ⟨f, hinv⟩ := (storeInv_initial H False).run events False.elim
    obtain ⟨plimits, ⟨c, fatal⟩⟩ := p
    cases fatal with
    | some error =>
      have hbatch : validateBatch H plimits records run old given ⟨c, some error⟩ =
          .error (.unavailable ("replacement store is not ready: " ++ error)) := rfl
      rw [persistRecords_refused hbatch]
      constructor
      · intro h
        cases h
      · rintro ⟨-, h⟩
        cases records with
        | nil =>
          exact absurd rfl hu.nonempty
        | cons r rest =>
          simp [persistEach, persistRecord, check_run, lookup, requireIntegrity] at h
    | none =>
      obtain ⟨hc, hsettled, -, -⟩ := hinv.process _ hp rfl
      exact persistRecords_iff hc hsettled hu
  · rcases persistEach_ok hok with hall | ⟨r, hr, hnone⟩
    · exact Or.inr hall
    · obtain ⟨-, -, hvalid⟩ := lookup_none hnone
      rw [hu.ofRun r hr] at hvalid
      exact Or.inl (ofGeneration_of_valid hvalid)

/-- A release is recorded, and then two more are persisted as a batch. -/
def batchOf : List ReplacementReleaseRecord :=
  [releaseOf "run 1", ⟨"cleanup 2", "run 1", "operation digest 2", "operation 2", "lease 2",
    ["decode_slot"], "decision"⟩]

theorem batchOf_uniform : Uniform batchOf "run 1" "decision" none :=
  ⟨by decide, by decide, by decide, by decide, Or.inl rfl⟩

theorem batch_refines_single_after_one :
    (∃ p, (runEvents plainHashing {} recordedOnce).process = some p ∧
      ∀ rs h',
        (persistRecords plainHashing p.limits batchOf "run 1" "old" none).run
            ⟨p.store, (runEvents plainHashing {} recordedOnce).directory, []⟩ = .ok rs h' ↔
          OfGeneration plainHashing p.store.toStoreContents "run 1" "old" ∧
            (persistEach plainHashing p.limits "old" batchOf).run
              ⟨p.store, (runEvents plainHashing {} recordedOnce).directory, []⟩ = .ok rs h') :=
  ⟨_, rfl, (batch_refines_single plainHashing recordedOnce _ rfl batchOf "run 1" "old" "decision"
    none batchOf_uniform).1⟩

/-- What a method answers, without the state it leaves. -/
def answerOf {α : Type} : EStateM.Result StoreStop Host α → Except StoreStop α
  | .ok a _ => .ok a
  | .error e _ => .error e

/-- A record that is there is persisted again under another old generation; as a batch it is
refused. -/
theorem replay_passes_old_generation :
    (let p := storeIn (runEvents plainHashing {} recordedOnce)
     let h : Host := ⟨p.store, (runEvents plainHashing {} recordedOnce).directory, []⟩
     answerOf ((persistEach plainHashing p.limits "other" [releaseOf "run 1"]).run h) =
       .ok [releaseOf "run 1"] ∧
     answerOf ((persistRecords plainHashing p.limits [releaseOf "run 1"] "run 1" "other"
       none).run h) =
         .error (.raised (.conflict "replacement run reused with different old generation"))) := by
  decide +kernel

end ReplacementDecisionStore

end PrismServe
