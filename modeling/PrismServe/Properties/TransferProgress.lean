import PrismServe.Properties.TransferLedger

/-!
# The byte budget strands no transfer

A task that only the byte budget keeps from being sent shares its pair with a task
in flight: the budget of an idle pair admits every task.  The completion of that task
is not stale, gives back bytes of the pair and flushes the queue of the destination,
so that the front of a queue never waits for bytes that nobody will give back.

A governor is drained when nothing is deferred and nothing in flight carries bytes.
-/

namespace PrismServe

open Lib

namespace TransferGovernor

variable {ids : Set String} {g g' : TransferGovernor} {task : TransferTask} {now : Time}

/-- What the registry and the usage of the destination say about a task. -/
def Admits (g : TransferGovernor) (now : Time) (task : TransferTask) : Prop :=
  g.canGovern task.dst = true ∧ g.canGovern task.src = true ∧
    g.sampleIsFresh now task.dst = true ∧
    ∃ sample, g.kvUsage.get? task.dst = some sample ∧ sample.ratio < g.highWatermark

/-- A task in flight whose completion gives back bytes that a task waits for, and flushes its
queue unless its own callback raises. -/
structure Wakes (g : TransferGovernor) (other task : TransferTask) : Prop where
  held : g.inflightTasks.get? other.reqId = some other
  frees : (g.discharge other).bytesInflightForPair task.src task.dst <
    g.bytesInflightForPair task.src task.dst
  flushes : ∀ log returned g', Runs (.onComplete other) g log returned g' →
    .callbackRaised other ∈ log ∨
      ∃ log', Runs (.flush task.dst) (g.discharge other) log' returned g'

/-- An idle pair is open to every task that its instances admit. -/
theorem bytes_of_refused (hadmits : g.Admits now task) (hsend : g.canSend now task = false) :
    g.bytesInflightForPair task.src task.dst ≠ 0 := by
  obtain ⟨hdst, hsrc, hfresh, sample, hget, hratio⟩ := hadmits
  intro hidle
  have hzero : bytesAt g.pairBytesInflight (pairId task.src task.dst) = 0 := hidle
  by_cases hlarge : g.byteCap task.priority < task.kvSize
  · simp [canSend, hdst, hsrc, hfresh, hget, hratio, hlarge, hzero] at hsend
  · have hroom : (task.kvSize : Rat) ≤ g.byteCap task.priority := not_lt.mp hlarge
    simp [canSend, hdst, hsrc, hfresh, hget, hratio, hroom, hlarge, hzero] at hsend

theorem Balanced.wakes (h : Balanced ids g) (hids : ∀ id ∈ ids, Splittable id)
    (htask : task.src ∈ ids) (hbytes : g.bytesInflightForPair task.src task.dst ≠ 0) :
    ∃ other, g.Wakes other task := by
  have hsum := h.pair hids htask task.dst
  have hsome : positiveOf (onPair task.src task.dst) g.inflightTasks.values ≠ [] :=
    fun hnil => hbytes (hsum.trans ((positiveOf_eq_nil_iff h.nonneg).mp hnil))
  obtain ⟨other, hother⟩ := List.exists_mem_of_ne_nil _ hsome
  obtain ⟨hmem, hcarries⟩ := List.mem_filter.mp hother
  simp only [onPair, Bool.and_eq_true, decide_eq_true_eq] at hcarries
  obtain ⟨⟨hsrc, hdst⟩, hpositive⟩ := hcarries
  have hheld : g.inflightTasks.get? other.reqId = some other := by
    obtain ⟨reqId, hget⟩ := (Dict.mem_values_iff _ _).mp hmem
    rwa [h.distinct.keyed reqId other hget]
  refine ⟨other, hheld, ?_, fun log returned g' hrun => ?_⟩
  · have hnonneg : 0 ≤ g.bytesInflightForPair task.src task.dst := by
      rw [hsum]
      exact bytesOf_nonneg h.nonneg
    simp only [bytesInflightForPair, discharge, bytesAt_set, hsrc, hdst, if_true]
      at hbytes hnonneg ⊢
    omega
  · cases hrun with
    | stale hgone =>
      exact absurd hheld hgone
    | callbackRaised _ =>
      exact Or.inl (by simp)
    | completed _ hflush =>
      rw [← hdst]
      exact Or.inr ⟨_, hflush⟩

theorem mem_liveTasks_of_queue {dst : String} {rest : List TransferTask}
    (h : g.queueOf dst = task :: rest) : task ∈ g.liveTasks := by
  refine List.mem_append_left _ (List.mem_flatten.mpr ⟨g.queueOf dst, ?_, by simp [h]⟩)
  unfold queueOf at h ⊢
  cases hget : g.deferred.get? dst with
  | none =>
    simp [hget] at h
  | some queue =>
    exact (Dict.mem_values_iff _ _).mpr ⟨dst, hget⟩

/-! ## Draining -/

theorem allInflightZero_iff (h : Balanced ids g) :
    g.allInflightZero = true ↔ ∀ t ∈ g.inflightTasks.values, t.kvSize = 0 := by
  have hbytes : g.allInflightZero = true ↔ ∀ dst, bytesAt g.bytesInflight dst = 0 := by
    simp only [allInflightZero, List.all_eq_true, decide_eq_true_eq, Dict.mem_values_iff,
      forall_exists_index]
    constructor
    · intro hall dst
      cases hget : g.bytesInflight.get? dst with
      | none =>
        simp [bytesAt, hget]
      | some bytes =>
        simpa [bytesAt, hget] using hall bytes dst hget
    · intro hall bytes dst hget
      simpa [bytesAt, hget] using hall dst
  rw [hbytes]
  constructor
  · intro hall t ht
    have hnone :=
      (positiveOf_eq_nil_iff h.nonneg).mpr ((h.counted.dst t.dst).symm.trans (hall t.dst))
    have hnonneg := h.nonneg t ht
    have hsize := List.filter_eq_nil_iff.mp hnone t ht
    simp only [toward, decide_true, Bool.true_and, decide_eq_true_eq] at hsize
    omega
  · intro hall dst
    rw [h.counted.dst dst]
    refine (positiveOf_eq_nil_iff h.nonneg).mp (List.filter_eq_nil_iff.mpr fun t ht => ?_)
    simp [hall t ht]

theorem isDrained_iff (h : Balanced ids g) :
    g.isDrained = true ↔
      g.deferredTasks = [] ∧ ∀ t ∈ g.inflightTasks.values, t.kvSize = 0 := by
  rw [isDrained, Bool.and_eq_true, allInflightZero_iff h, deferredTasks, List.flatten_eq_nil_iff]
  simp only [List.all_eq_true, List.isEmpty_iff]
  exact and_comm

/--
In every reachable state, the front of a queue that its instances admit is sent, unless
a task in flight wakes it; and the governor is drained exactly when nothing is deferred
and nothing in flight carries bytes.
-/
theorem no_transfer_stranded (hids : ∀ id ∈ ids, Splittable id) {g₀ : TransferGovernor}
    {log : List TransferEvent} (hunused : g₀.Unused) (hreach : Reached (Between ids) g₀ log g) :
    (∀ task rest now, g.queueOf task.dst = task :: rest → g.Admits now task →
      g.canSend now task = true ∨ ∃ other, g.Wakes other task) ∧
    (g.isDrained = true ↔ g.deferredTasks = [] ∧ ∀ t ∈ g.inflightTasks.values, t.kvSize = 0) := by
  have hbalanced : Balanced ids g := (Balanced.unused hunused).changes hreach.changes
  refine ⟨fun task rest now hqueue hadmits => ?_, isDrained_iff hbalanced⟩
  cases hsend : g.canSend now task with
  | true =>
    exact Or.inl rfl
  | false =>
    have htask := hbalanced.distinct.sound.proper task (mem_liveTasks_of_queue hqueue)
    exact Or.inr (hbalanced.wakes hids htask.1 (bytes_of_refused hadmits hsend))

/-- The small task waits until the large one completes. -/
theorem smallWaits_woken :
    smallWaits.canSend 0 smallTask = false ∧ ∃ other, smallWaits.Wakes other smallTask := by
  have hlarge : Between {"p0", "d0"} largeTask := by simp [Between, largeTask]
  have hsmall : Between {"p0", "d0"} smallTask := by simp [Between, smallTask]
  have hroom : (openTo "d0" 100).canSend 0 largeTask = true := by decide +kernel
  have hlate : largeSent.canSend 0 smallTask = false := by decide +kernel
  have hfull : smallWaits.canSend 0 smallTask = false := by decide +kernel
  have hreach : Reached (Between {"p0", "d0"}) (openTo "d0" 100) _ smallWaits :=
    (Reached.first hlarge hroom).submit ⟨hsmall, by decide +kernel⟩ (.submitDefers hlate)
  have hadmits : smallWaits.Admits 0 smallTask :=
    ⟨by decide +kernel, by decide +kernel, by decide +kernel, _, rfl, by decide +kernel⟩
  have hfront := (no_transfer_stranded splittable_names (openTo_unused "d0" 100) hreach).1
    smallTask [] 0 (by decide +kernel) hadmits
  exact ⟨hfull, hfront.resolve_left (by simp [hfull])⟩

end TransferGovernor

end PrismServe
