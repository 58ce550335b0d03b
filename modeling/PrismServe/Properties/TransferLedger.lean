import PrismServe.Properties.TransferTasks

/-!
# The byte ledger of the transfers

The counters of a pair of instances and of a destination are the sums of the
sizes of the tasks in flight there, at every moment of every sequence of calls.
A release therefore never takes away more than the counter holds.  A pair never
carries more than its cap, except for a single task that is larger than the
cap by itself.

The counters of the pairs are kept under a joined name, and two pairs can share
it: the names of the instances have to be such that it can be taken apart.
-/

namespace PrismServe

open Lib

namespace TransferGovernor

/-! ## Sums of sizes -/

/-- Bytes of the tasks that satisfy a predicate. -/
def bytesOf (p : TransferTask → Bool) (tasks : List TransferTask) : Int :=
  ((tasks.filter p).map TransferTask.kvSize).sum

@[simp] theorem bytesOf_nil (p : TransferTask → Bool) : bytesOf p [] = 0 := rfl

@[simp] theorem bytesOf_cons (p : TransferTask → Bool) (t : TransferTask)
    (tasks : List TransferTask) :
    bytesOf p (t :: tasks) = (if p t then t.kvSize else 0) + bytesOf p tasks := by
  by_cases h : p t = true <;> simp [bytesOf, h]

variable {p : TransferTask → Bool} {l : List TransferTask}

theorem bytesOf_perm {l l' : List TransferTask} (h : l.Perm l') : bytesOf p l = bytesOf p l' :=
  ((h.filter p).map _).sum_eq

theorem bytesOf_nonneg (h : ∀ t ∈ l, 0 ≤ t.kvSize) : 0 ≤ bytesOf p l := by
  induction l with
  | nil =>
    simp
  | cons t rest ih =>
    have ht := h t List.mem_cons_self
    have hrest := ih fun u hu => h u (List.mem_cons_of_mem _ hu)
    rw [bytesOf_cons]
    split <;> omega

theorem bytesOf_mono {p q : TransferTask → Bool} (h : ∀ t ∈ l, 0 ≤ t.kvSize)
    (hpq : ∀ t, p t = true → q t = true) : bytesOf p l ≤ bytesOf q l := by
  induction l with
  | nil =>
    simp
  | cons t rest ih =>
    have ht := h t List.mem_cons_self
    have hrest := ih fun u hu => h u (List.mem_cons_of_mem _ hu)
    have hq := hpq t
    rw [bytesOf_cons, bytesOf_cons]
    by_cases hp : p t = true
    · rw [if_pos hp, if_pos (hq hp)]
      omega
    · rw [if_neg hp]
      split <;> omega

/-- The tasks of a kind that carry any bytes. -/
def positiveOf (p : TransferTask → Bool) (tasks : List TransferTask) : List TransferTask :=
  tasks.filter fun t => p t && decide (0 < t.kvSize)

theorem positiveOf_perm {l l' : List TransferTask} (h : l.Perm l') :
    (positiveOf p l).Perm (positiveOf p l') :=
  h.filter _

theorem positiveOf_cons (p : TransferTask → Bool) (t : TransferTask)
    (tasks : List TransferTask) :
    positiveOf p (t :: tasks) =
      if p t && decide (0 < t.kvSize) then t :: positiveOf p tasks else positiveOf p tasks :=
  List.filter_cons

/-- No bytes, no task that carries any. -/
theorem positiveOf_eq_nil_iff (h : ∀ t ∈ l, 0 ≤ t.kvSize) :
    positiveOf p l = [] ↔ bytesOf p l = 0 := by
  induction l with
  | nil =>
    simp [positiveOf]
  | cons t rest ih =>
    have ht := h t List.mem_cons_self
    have hrest : ∀ u ∈ rest, 0 ≤ u.kvSize := fun u hu => h u (List.mem_cons_of_mem _ hu)
    have hnonneg : 0 ≤ bytesOf p rest := bytesOf_nonneg hrest
    rw [positiveOf_cons, bytesOf_cons]
    by_cases hp : p t = true
    · by_cases hpos : 0 < t.kvSize
      · simp only [hp, hpos, decide_true, Bool.and_self, if_true]
        constructor
        · intro hnil
          cases hnil
        · intro hsum
          omega
      · have hzero : t.kvSize = 0 := by omega
        simpa [hp, hzero] using ih hrest
    · simpa [hp] using ih hrest

/-! ## The counters -/

/-- Tasks in flight under the joined name of a pair. -/
def onKey (key : String) (t : TransferTask) : Bool := decide (pairId t.src t.dst = key)

def onPair (src dst : String) (t : TransferTask) : Bool :=
  decide (t.src = src ∧ t.dst = dst)

def toward (dst : String) (t : TransferTask) : Bool := decide (t.dst = dst)

/-- Bytes of the tasks in flight that satisfy a predicate. -/
def bytesOn (g : TransferGovernor) (p : TransferTask → Bool) : Int :=
  bytesOf p g.inflightTasks.values

/-- The counters are the sums over the tasks in flight. -/
structure Counted (g : TransferGovernor) : Prop where
  pair : ∀ key, bytesAt g.pairBytesInflight key = g.bytesOn (onKey key)
  dst : ∀ dst, bytesAt g.bytesInflight dst = g.bytesOn (toward dst)

theorem bytesAt_set (d : Dict String Int) (k x : String) (v : Int) :
    bytesAt (d.set k v) x = if x = k then v else bytesAt d x := by
  unfold bytesAt
  rw [Dict.get?_set]
  split <;> rfl

/-- A size is added under one key. -/
theorem bytesAt_add (d : Dict String Int) (k key : String) (size : Int) :
    bytesAt (d.set k (bytesAt d k + size)) key =
      (if decide (k = key) then size else 0) + bytesAt d key := by
  rw [bytesAt_set]
  by_cases hkey : k = key
  · subst hkey
    simp [add_comm]
  · simp [hkey, Ne.symm hkey]

/-- A size that the counter covers is taken off under one key. -/
theorem bytesAt_sub {d : Dict String Int} {k : String} {size : Int} (hle : size ≤ bytesAt d k)
    (key : String) :
    bytesAt d key = (if decide (k = key) then size else 0) +
      bytesAt (d.set k (max 0 (bytesAt d k - size))) key := by
  rw [bytesAt_set]
  by_cases hkey : k = key
  · subst hkey
    simp only [decide_true, if_true]
    omega
  · simp [hkey, Ne.symm hkey]

section Counters

variable {g : TransferGovernor} {task : TransferTask}

theorem bytesOn_charge (hfresh : g.inflightTasks.get? task.reqId = none)
    (p : TransferTask → Bool) :
    (g.charge task).bytesOn p = (if p task then task.kvSize else 0) + g.bytesOn p :=
  (bytesOf_perm (values_charge hfresh)).trans (bytesOf_cons _ _ _)

theorem bytesOn_discharge (hheld : g.inflightTasks.get? task.reqId = some task)
    (p : TransferTask → Bool) :
    g.bytesOn p = (if p task then task.kvSize else 0) + (g.discharge task).bytesOn p :=
  (bytesOf_perm (values_discharge hheld)).trans (bytesOf_cons _ _ _)

theorem Counted.charge (h : Counted g) (hfresh : g.inflightTasks.get? task.reqId = none) :
    Counted (g.charge task) := by
  refine ⟨?_, ?_⟩
  · intro key
    rw [bytesOn_charge hfresh, ← h.pair]
    exact bytesAt_add _ _ _ _
  · intro dst
    rw [bytesOn_charge hfresh, ← h.dst]
    exact bytesAt_add _ _ _ _

theorem nonneg_discharge (hsizes : ∀ t ∈ g.inflightTasks.values, 0 ≤ t.kvSize)
    (hheld : g.inflightTasks.get? task.reqId = some task) :
    ∀ t ∈ (g.discharge task).inflightTasks.values, 0 ≤ t.kvSize :=
  fun t ht => hsizes t ((values_discharge hheld).mem_iff.mpr (List.mem_cons_of_mem _ ht))

/-- A counter covers each of its tasks, so that no release is cut off at zero. -/
theorem Counted.covers (h : Counted g) (hsizes : ∀ t ∈ g.inflightTasks.values, 0 ≤ t.kvSize)
    (hheld : g.inflightTasks.get? task.reqId = some task) :
    task.kvSize ≤ bytesAt g.pairBytesInflight (pairId task.src task.dst) ∧
      task.kvSize ≤ bytesAt g.bytesInflight task.dst := by
  have hrest := nonneg_discharge hsizes hheld
  constructor
  · rw [h.pair, bytesOn_discharge hheld, if_pos (by simp [onKey])]
    have hnonneg := bytesOf_nonneg (p := onKey (pairId task.src task.dst)) hrest
    exact Int.le_add_of_nonneg_right hnonneg
  · rw [h.dst, bytesOn_discharge hheld, if_pos (by simp [toward])]
    have hnonneg := bytesOf_nonneg (p := toward task.dst) hrest
    exact Int.le_add_of_nonneg_right hnonneg

theorem Counted.discharge (h : Counted g) (hsizes : ∀ t ∈ g.inflightTasks.values, 0 ≤ t.kvSize)
    (hheld : g.inflightTasks.get? task.reqId = some task) : Counted (g.discharge task) := by
  obtain ⟨hpair, hdst⟩ := h.covers hsizes hheld
  refine ⟨?_, ?_⟩
  · intro key
    have hsum := (h.pair key).trans (bytesOn_discharge hheld (onKey key))
    exact add_left_cancel ((bytesAt_sub hpair key).symm.trans hsum)
  · intro dst
    have hsum := (h.dst dst).trans (bytesOn_discharge hheld (toward dst))
    exact add_left_cancel ((bytesAt_sub hdst dst).symm.trans hsum)

end Counters

/-! ## The ledger -/

/-- What a caller guarantees of the tasks between the instances `ids`. -/
def Between (ids : Set String) (task : TransferTask) : Prop :=
  task.src ∈ ids ∧ task.dst ∈ ids ∧ 0 ≤ task.kvSize

structure Balanced (ids : Set String) (g : TransferGovernor) : Prop where
  distinct : Distinct (Between ids) g
  counted : Counted g

section Ledger

variable {ids : Set String} {g g' : TransferGovernor} {task : TransferTask}

theorem Balanced.nonneg (h : Balanced ids g) : ∀ t ∈ g.inflightTasks.values, 0 ≤ t.kvSize :=
  fun t ht => (h.distinct.sound.proper t (List.mem_append_right _ ht)).2.2

theorem Balanced.change {new : List TransferEvent} (h : Balanced ids g)
    (hchange : Change (Between ids) g new g') : Balanced ids g' := by
  refine ⟨h.distinct.change hchange, ?_⟩
  cases hchange with
  | sentNew htask _ =>
    exact h.counted.charge (h.distinct.fresh htask.fresh)
  | @sentDeferred dst task rest now hqueue _ =>
    have hcounted : Counted (g.setQueue dst rest) := ⟨h.counted.pair, h.counted.dst⟩
    exact hcounted.charge (h.distinct.front_fresh hqueue)
  | released _ hheld =>
    exact h.counted.discharge h.nonneg hheld
  | remarked _ =>
    exact h.counted
  | retuned hsame =>
    refine ⟨?_, ?_⟩
    · intro key
      simpa [bytesOn, hsame.pairBytes, hsame.tasks] using h.counted.pair key
    · intro dst
      simpa [bytesOn, hsame.bytes, hsame.tasks] using h.counted.dst dst
  | _ =>
    exact ⟨h.counted.pair, h.counted.dst⟩

theorem Balanced.unused (h : g.Unused) : Balanced ids g := by
  refine ⟨.unused h, ⟨?_, ?_⟩⟩
  · intro key
    simp [h.pairBytes, h.tasks, bytesAt, bytesOn, Dict.values, Dict.empty, Dict.get?, lookupEntries]
  · intro dst
    simp [h.bytes, h.tasks, bytesAt, bytesOn, Dict.values, Dict.empty, Dict.get?, lookupEntries]

theorem Balanced.changes {log : List TransferEvent} (hg : Balanced ids g)
    (h : Changes (Between ids) g log g') : Balanced ids g' :=
  h.invariant (fun _ _ _ hg hchange => hg.change hchange) hg

end Ledger

/-! ## Names of pairs -/

/-- A name from which the joined name of a pair cannot be split at another place. -/
def Splittable (id : String) : Prop :=
  ¬ ['-', '-'] <:+: id.toList ∧ ¬ ['-'] <:+ id.toList

private theorem append_hyphens_inj {s s' d d' : List Char}
    (hcontains : ¬ ['-', '-'] <:+: s') (hends : ¬ ['-'] <:+ s') {rest : List Char}
    (hs' : s' = s ++ rest) (h : rest ++ ('-' :: '-' :: d') = '-' :: '-' :: d) :
    rest = [] := by
  match rest, hs', h with
  | [], _, _ => rfl
  | [c], hs', h =>
    obtain ⟨rfl, _⟩ := List.cons.inj h
    exact absurd ⟨s, hs'.symm⟩ hends
  | c :: c' :: more, hs', h =>
    simp only [List.cons_append, List.cons.injEq] at h
    obtain ⟨rfl, rfl, _⟩ := h
    exact absurd ⟨s, more, by simp [hs']⟩ hcontains

theorem pairId_inj {src src' dst dst' : String} (hsrc : Splittable src)
    (hsrc' : Splittable src') (h : pairId src dst = pairId src' dst') :
    src = src' ∧ dst = dst' := by
  have hlists : src.toList ++ ('-' :: '-' :: dst.toList) =
      src'.toList ++ ('-' :: '-' :: dst'.toList) := by
    simpa [pairId] using congrArg String.toList h
  have hsrcs : src.toList = src'.toList := by
    rcases List.append_eq_append_iff.mp hlists with ⟨rest, hrest, htail⟩ | ⟨rest, hrest, htail⟩
    · have hnil := append_hyphens_inj hsrc'.1 hsrc'.2 hrest htail.symm
      simpa [hnil] using hrest.symm
    · have hnil := append_hyphens_inj hsrc.1 hsrc.2 hrest htail.symm
      simpa [hnil] using hrest
  rw [hsrcs] at hlists
  have hdsts := List.append_cancel_left hlists
  exact ⟨String.toList_inj.mp hsrcs, String.toList_inj.mp (by simpa using hdsts)⟩

/-- Where the names can be split, the tasks under a joined name are those of the pair. -/
theorem Balanced.pair {ids : Set String} {g : TransferGovernor} (h : Balanced ids g)
    (hids : ∀ id ∈ ids, Splittable id) {src : String} (hsrc : src ∈ ids) (dst : String) :
    g.bytesInflightForPair src dst = g.bytesOn (onPair src dst) := by
  unfold bytesInflightForPair
  rw [h.counted.pair]
  unfold bytesOn bytesOf
  congr 2
  apply List.filter_congr
  intro t ht
  have htask := h.distinct.sound.proper t (List.mem_append_right _ ht)
  simp only [onKey, onPair, decide_eq_decide]
  constructor
  · exact pairId_inj (hids _ htask.1) (hids _ hsrc)
  · rintro ⟨rfl, rfl⟩
    rfl

/--
At every moment of every sequence of calls the counters of the pairs and of the
destinations are the sums over the tasks in flight there, and no release is cut
off at zero.
-/
theorem transfer_ledger_balanced {ids : Set String} (hids : ∀ id ∈ ids, Splittable id)
    {g₀ g : TransferGovernor} {log : List TransferEvent} (hunused : g₀.Unused)
    (hreach : Reached (Between ids) g₀ log g) :
    (∀ earlier m, Moment log g earlier m →
      (∀ src ∈ ids, ∀ dst ∈ ids, m.bytesInflightForPair src dst = m.bytesOn (onPair src dst)) ∧
        ∀ dst, m.bytesInflightTo dst = m.bytesOn (toward dst)) ∧
    ∀ before task reason, .released before task reason ∈ log →
      0 ≤ before.bytesInflightForPair task.src task.dst - task.kvSize ∧
        0 ≤ before.bytesInflightTo task.dst - task.kvSize := by
  constructor
  · intro earlier m hmoment
    have hbalanced := (Balanced.unused hunused).changes (hreach.changes.moment hmoment)
    exact ⟨fun src hsrc dst _ => hbalanced.pair hids hsrc dst, hbalanced.counted.dst⟩
  · intro before task reason hevent
    obtain ⟨earlier, later, hlog⟩ := List.append_of_mem hevent
    have hbalanced := (Balanced.unused hunused).changes (hreach.changes.moment (.releasing hlog))
    obtain ⟨hpair, hdst⟩ := hbalanced.counted.covers hbalanced.nonneg
      (hreach.changes.released_held hevent)
    exact ⟨Int.sub_nonneg_of_le hpair, Int.sub_nonneg_of_le hdst⟩

theorem splittable_names : ∀ id ∈ ({"p0", "d0"} : Set String), Splittable id := by
  intro id hid
  rcases hid with rfl | rfl <;> exact ⟨by decide +kernel, by decide +kernel⟩

theorem completion_keeps_ledger_balanced :
    smallSent.bytesInflightForPair "p0" "d0" = smallSent.bytesOn (onPair "p0" "d0") ∧
      smallSent.bytesInflightTo "d0" = smallSent.bytesOn (toward "d0") := by
  have hlarge : Between {"p0", "d0"} largeTask := by simp [Between, largeTask]
  have hsmall : Between {"p0", "d0"} smallTask := by simp [Between, smallTask]
  have h := (transfer_ledger_balanced splittable_names (openTo_unused "d0" 100)
    (smallSent_reached hlarge hsmall)).1 _ _ .settled
  exact ⟨h.1 "p0" (by simp) "d0" (by simp), h.2 "d0"⟩

/-- Two pairs of names without a double hyphen that share a joined name. -/
def hyphenTask : TransferTask := ⟨0, "r0", "a-", "b", 5, "op0", 1⟩

theorem joined_name_shared :
    (∀ id ∈ ({"a-", "b", "a", "-b"} : Set String), ¬ ['-', '-'] <:+: id.toList) ∧
      (openTo "b" 100).Unused ∧
      Reached (Between {"a-", "b", "a", "-b"}) (openTo "b" 100)
        [.submitted hyphenTask, .handedOff (openTo "b" 100) hyphenTask]
        ((openTo "b" 100).charge hyphenTask) ∧
      ((openTo "b" 100).charge hyphenTask).bytesInflightForPair "a" "-b" = 5 ∧
      ((openTo "b" 100).charge hyphenTask).bytesOn (onPair "a" "-b") = 0 := by
  have hsend : (openTo "b" 100).canSend 0 hyphenTask = true := by decide +kernel
  refine ⟨?_, openTo_unused _ _, ?_, by decide +kernel, by decide +kernel⟩
  · intro id hid
    rcases hid with rfl | rfl | rfl | rfl <;> decide +kernel
  · exact .first (by simp [Between, hyphenTask]) hsend

/-! ## The cap of a pair -/

section Cap

variable {ids : Set String} {g : TransferGovernor} {task : TransferTask}

/-- The caps for which the budgets of both priorities are exact enough. -/
def CapInRange (g : TransferGovernor) : Prop :=
  0 ≤ g.maxBytesInflightPerPair ∧ g.maxBytesInflightPerPair ≤ 2 ^ 52

theorem round_cap (hcap : g.CapInRange) :
    Binary64.round g.maxBytesInflightPerPair = g.maxBytesInflightPerPair := by
  obtain ⟨n, hn⟩ := Int.eq_ofNat_of_zero_le hcap.1
  have hlt : n < 2 ^ 53 := by
    have hle := hcap.2
    omega
  rw [hn]
  exact_mod_cast Binary64.round_natCast hlt

theorem le_share_of_le_byteCap (hcap : g.CapInRange) {priority : Nat} (hlow : priority < 1)
    {k : Int} (hk : (k : Rat) ≤ g.byteCap priority) : 10 * k ≤ 3 * g.maxBytesInflightPerPair := by
  have h0 : (0 : Rat) ≤ g.maxBytesInflightPerPair := by exact_mod_cast hcap.1
  have h52 : (g.maxBytesInflightPerPair : Rat) ≤ 2 ^ 52 := by exact_mod_cast hcap.2
  unfold byteCap at hk
  rw [round_cap hcap, if_neg (by omega)] at hk
  have hround := hk.trans (Binary64.round_le (mul_nonneg h0 (by norm_num [lowPriorityShare])))
  by_contra hnot
  have hint : 3 * g.maxBytesInflightPerPair + 1 ≤ 10 * k := by omega
  have hrat : 3 * (g.maxBytesInflightPerPair : Rat) + 1 ≤ 10 * k := by exact_mod_cast hint
  norm_num [lowPriorityShare] at hround h52
  linarith

theorem le_cap_of_le_byteCap (hcap : g.CapInRange) {priority : Nat} {k : Int}
    (hk : (k : Rat) ≤ g.byteCap priority) : k ≤ g.maxBytesInflightPerPair := by
  by_cases hhigh : 1 ≤ priority
  · unfold byteCap at hk
    rw [round_cap hcap, if_pos hhigh, mul_one, round_cap hcap] at hk
    exact_mod_cast hk
  · have hshare := le_share_of_le_byteCap hcap (by omega) hk
    have h0 := hcap.1
    omega

variable {cap : Int} {now : Time}

/-- A task is only sent over an idle pair, or within the budget of its priority. -/
theorem canSend_room (hsend : g.canSend now task = true) :
    bytesAt g.pairBytesInflight (pairId task.src task.dst) = 0 ∨
      ((bytesAt g.pairBytesInflight (pairId task.src task.dst) + task.kvSize : Int) : Rat) ≤
        g.byteCap task.priority := by
  simp only [canSend, Bool.and_eq_true] at hsend
  have hroom := hsend.2
  split_ifs at hroom with hlarge
  · exact Or.inl (by simpa using hroom)
  · right
    push_cast
    simpa using hroom

/-- A joined name carries at most the cap, or a single task with any bytes. -/
def Capped (g : TransferGovernor) : Prop :=
  ∀ key, g.bytesOn (onKey key) ≤ g.maxBytesInflightPerPair ∨
    (positiveOf (onKey key) g.inflightTasks.values).length = 1

theorem Capped.charge (h : Capped g) (hbalanced : Balanced ids g) (hcap : g.CapInRange)
    (hfresh : g.inflightTasks.get? task.reqId = none) (hsend : g.canSend now task = true) :
    Capped (g.charge task) := by
  intro key
  have hpositive := positiveOf_perm (p := onKey key) (values_charge hfresh)
  rw [positiveOf_cons] at hpositive
  have hbytes := bytesOn_charge hfresh (onKey key)
  by_cases hkey : onKey key task = true
  · have hname : pairId task.src task.dst = key := by simpa [onKey] using hkey
    have hroom := canSend_room hsend
    rw [hname, hbalanced.counted.pair] at hroom
    rw [if_pos hkey] at hbytes
    rcases hroom with hidle | hbudget
    · have hnone := (positiveOf_eq_nil_iff hbalanced.nonneg).mpr hidle
      by_cases hsize : 0 < task.kvSize
      · right
        rw [hpositive.length_eq]
        simp [hkey, hsize, hnone]
      · left
        have h0 := hcap.1
        change _ ≤ g.maxBytesInflightPerPair
        omega
    · left
      have hle := le_cap_of_le_byteCap hcap hbudget
      change _ ≤ g.maxBytesInflightPerPair
      omega
  · rw [if_neg hkey, zero_add] at hbytes
    rcases h key with hle | hone
    · left
      rw [hbytes]
      exact hle
    · right
      rw [hpositive.length_eq]
      simpa [hkey] using hone

theorem Capped.discharge (h : Capped g) (hbalanced : Balanced ids g) (hcap : g.CapInRange)
    (hheld : g.inflightTasks.get? task.reqId = some task) : Capped (g.discharge task) := by
  intro key
  have hpositive := positiveOf_perm (p := onKey key) (values_discharge hheld)
  rw [positiveOf_cons] at hpositive
  have hbytes := bytesOn_discharge hheld (onKey key)
  have hsize := hbalanced.nonneg task (mem_values hheld)
  rcases h key with hle | hone
  · left
    change _ ≤ g.maxBytesInflightPerPair
    split_ifs at hbytes <;> omega
  · rw [hpositive.length_eq] at hone
    split_ifs at hone with hcarried
    · -- the single task leaves, and nothing that carries any bytes stays
      left
      have hnil : positiveOf (onKey key) (g.discharge task).inflightTasks.values = [] :=
        List.eq_nil_of_length_eq_zero (by simpa using hone)
      have hzero := (positiveOf_eq_nil_iff (nonneg_discharge hbalanced.nonneg hheld)).mp hnil
      unfold bytesOn
      rw [hzero]
      exact hcap.1
    · exact Or.inr hone

/-- The state of the ledger that carries the cap along. -/
structure Governed (ids : Set String) (cap : Int) (g : TransferGovernor) : Prop where
  balanced : Balanced ids g
  capped : Capped g
  fixed : g.maxBytesInflightPerPair = cap

/-- What the hand-off of a task of low priority leaves on its pair. -/
def WithinShare (cap : Int) (event : TransferEvent) : Prop :=
  ∀ before task, event = .handedOff before task → task.priority < 1 →
    before.bytesOn (onPair task.src task.dst) = 0 ∨
      10 * (before.charge task).bytesOn (onPair task.src task.dst) ≤ 3 * cap

theorem bytesOn_pair_le (h : Balanced ids g) (src dst : String) :
    g.bytesOn (onPair src dst) ≤ g.bytesOn (onKey (pairId src dst)) := by
  refine bytesOf_mono h.nonneg ?_
  intro t ht
  simp only [onPair, onKey, decide_eq_true_eq] at ht ⊢
  rw [ht.1, ht.2]

theorem Governed.withinShare (h : Governed ids cap g) (hcap : 0 ≤ cap ∧ cap ≤ 2 ^ 52)
    (hfresh : g.inflightTasks.get? task.reqId = none) (hsend : g.canSend now task = true) :
    WithinShare cap (.handedOff g task) := by
  intro before task' heq hlow
  cases heq
  have hle := bytesOn_pair_le h.balanced task.src task.dst
  have hnonneg : 0 ≤ g.bytesOn (onPair task.src task.dst) := bytesOf_nonneg h.balanced.nonneg
  have hinRange : g.CapInRange := by
    unfold CapInRange
    rw [h.fixed]
    exact hcap
  rcases canSend_room hsend with hidle | hbudget
  · left
    rw [h.balanced.counted.pair] at hidle
    omega
  · right
    have hshare := le_share_of_le_byteCap hinRange hlow hbudget
    rw [h.balanced.counted.pair, h.fixed] at hshare
    rw [bytesOn_charge hfresh, if_pos (by simp [onPair])]
    omega

theorem Governed.change (hcap : 0 ≤ cap ∧ cap ≤ 2 ^ 52) {g' : TransferGovernor}
    {new : List TransferEvent} (h : Governed ids cap g) (hchange : Change (Between ids) g new g') :
    Governed ids cap g' ∧ ∀ event ∈ new, WithinShare cap event := by
  have hbalanced := h.balanced.change hchange
  have hinRange : g.CapInRange := by
    unfold CapInRange
    rw [h.fixed]
    exact hcap
  cases hchange with
  | deferred htask =>
    refine ⟨⟨hbalanced, h.capped, h.fixed⟩, ?_⟩
    simp [WithinShare]
  | sentNew htask hsend =>
    have hfresh := h.balanced.distinct.fresh htask.fresh
    refine ⟨⟨hbalanced, h.capped.charge h.balanced hinRange hfresh hsend, h.fixed⟩, ?_⟩
    intro event hevent
    simp only [List.mem_cons, List.not_mem_nil, or_false] at hevent
    rcases hevent with rfl | rfl
    · simp [WithinShare]
    · exact h.withinShare hcap hfresh hsend
  | @sentDeferred dst task rest now hqueue hsend =>
    have hcapped : Capped (g.setQueue dst rest) := h.capped
    have hpopped : Balanced ids (g.setQueue dst rest) :=
      ⟨h.balanced.distinct.pop hqueue, h.balanced.counted.pair, h.balanced.counted.dst⟩
    have hfresh := h.balanced.distinct.front_fresh hqueue
    have hcharged := hcapped.charge hpopped hinRange hfresh hsend
    refine ⟨⟨hbalanced, hcharged, h.fixed⟩, ?_⟩
    intro event hevent
    rw [List.mem_singleton] at hevent
    subst hevent
    exact h.withinShare hcap hfresh hsend
  | released _ hheld =>
    refine ⟨⟨hbalanced, h.capped.discharge h.balanced hinRange hheld, h.fixed⟩, ?_⟩
    simp [WithinShare]
  | dropped reqId operationId =>
    refine ⟨⟨hbalanced, h.capped, h.fixed⟩, ?_⟩
    intro event hevent
    obtain ⟨t, _, rfl⟩ := List.mem_map.mp hevent
    simp [WithinShare]
  | remarked hremark =>
    refine ⟨h, ?_⟩
    intro event hevent
    rw [List.mem_singleton] at hevent
    subst hevent
    cases hremark <;> simp [WithinShare]
  | retuned hsame =>
    refine ⟨⟨hbalanced, ?_, hsame.cap.trans h.fixed⟩, nofun⟩
    intro key
    simpa [bytesOn, hsame.cap, hsame.tasks] using h.capped key

theorem Governed.unused (h : g.Unused) (h0 : 0 ≤ cap) (hcap : g.maxBytesInflightPerPair = cap) :
    Governed ids cap g := by
  refine ⟨.unused h, ?_, hcap⟩
  intro key
  left
  simpa [bytesOn, h.tasks, Dict.values, Dict.empty, hcap] using h0

/-- What holds of a joined name holds of each pair that has it. -/
theorem Governed.pair (h : Governed ids cap g) (h0 : 0 ≤ cap) (src dst : String) :
    g.bytesOn (onPair src dst) ≤ cap ∨
      ∃ task, positiveOf (onPair src dst) g.inflightTasks.values = [task] := by
  rcases h.capped (pairId src dst) with hle | hone
  · left
    have hpair := bytesOn_pair_le h.balanced src dst
    rw [h.fixed] at hle
    omega
  · have hsub : (positiveOf (onPair src dst) g.inflightTasks.values).Sublist
        (positiveOf (onKey (pairId src dst)) g.inflightTasks.values) := by
      refine List.monotone_filter_right _ ?_
      intro t ht
      simp only [onPair, onKey, Bool.and_eq_true, decide_eq_true_eq] at ht ⊢
      exact ⟨by rw [ht.1.1, ht.1.2], ht.2⟩
    have hlength := hsub.length_le
    rw [hone] at hlength
    rcases Nat.le_one_iff_eq_zero_or_eq_one.mp hlength with hzero | hsingle
    · left
      have hnone := (positiveOf_eq_nil_iff h.balanced.nonneg).mp
        (List.eq_nil_of_length_eq_zero hzero)
      unfold bytesOn
      omega
    · exact Or.inr (List.length_eq_one_iff.mp hsingle)

/--
In every state a pair carries at most the cap, or a single task with any bytes;
and the hand-off of a task of low priority leaves at most three tenths of the
cap on its pair, unless the pair was idle.
-/
theorem pair_within_cap {g₀ : TransferGovernor} {log : List TransferEvent}
    (hcap : g₀.CapInRange) (hunused : g₀.Unused) (hreach : Reached (Between ids) g₀ log g) :
    (∀ earlier m, Moment log g earlier m → ∀ src dst,
      m.bytesOn (onPair src dst) ≤ g₀.maxBytesInflightPerPair ∨
        ∃ task, positiveOf (onPair src dst) m.inflightTasks.values = [task]) ∧
    ∀ before task, .handedOff before task ∈ log → task.priority < 1 →
      before.bytesOn (onPair task.src task.dst) = 0 ∨
        10 * (before.charge task).bytesOn (onPair task.src task.dst) ≤
          3 * g₀.maxBytesInflightPerPair := by
  have hstart : Governed ids g₀.maxBytesInflightPerPair g₀ := .unused hunused hcap.1 rfl
  constructor
  · intro earlier m hmoment src dst
    have hgoverned := (hreach.changes.moment hmoment).invariant
      (fun _ _ _ h hchange => (Governed.change hcap h hchange).1) hstart
    exact hgoverned.pair hcap.1 src dst
  · intro before task hevent hlow
    have hshare := hreach.changes.events
      (fun _ _ _ h hchange => (Governed.change hcap h hchange).1)
      (fun _ _ _ h hchange => (Governed.change hcap h hchange).2) hstart
    exact hshare _ hevent before task rfl hlow

theorem completion_keeps_pair_within_cap :
    smallSent.bytesOn (onPair "p0" "d0") ≤ 100 ∨
      ∃ task, positiveOf (onPair "p0" "d0") smallSent.inflightTasks.values = [task] := by
  have hcap : (openTo "d0" 100).CapInRange := ⟨by decide, by decide⟩
  have hlarge : Between {"p0", "d0"} largeTask := by simp [Between, largeTask]
  have hsmall : Between {"p0", "d0"} smallTask := by simp [Between, smallTask]
  exact (pair_within_cap hcap (openTo_unused "d0" 100) (smallSent_reached hlarge hsmall)).1
    _ _ .settled "p0" "d0"

def hugeCap : Int := 2 ^ 53 + 3

def hugeTask : TransferTask := ⟨0, "r0", "p0", "d0", 2 ^ 53, "op0", 1⟩

def tinyTask : TransferTask := ⟨1, "r1", "p0", "d0", 4, "op1", 1⟩

def hugeSent : TransferGovernor := (openTo "d0" hugeCap).charge hugeTask

/-- In floating point the cap is rounded up by one byte, and two tasks use it. -/
theorem huge_cap_exceeded :
    (openTo "d0" hugeCap).Unused ∧
      Reached (Between {"p0", "d0"}) (openTo "d0" hugeCap)
        [.submitted hugeTask, .handedOff (openTo "d0" hugeCap) hugeTask,
          .submitted tinyTask, .handedOff hugeSent tinyTask] (hugeSent.charge tinyTask) ∧
      hugeCap < (hugeSent.charge tinyTask).bytesOn (onPair "p0" "d0") ∧
      positiveOf (onPair "p0" "d0") (hugeSent.charge tinyTask).inflightTasks.values =
        [hugeTask, tinyTask] := by
  have hroom : (openTo "d0" hugeCap).canSend 0 hugeTask = true := by decide +kernel
  have hmore : hugeSent.canSend 0 tinyTask = true := by decide +kernel
  refine ⟨openTo_unused _ _, ?_, by decide +kernel, by decide +kernel⟩
  have hhuge : Reached (Between {"p0", "d0"}) (openTo "d0" hugeCap) _ hugeSent :=
    .first (by simp [Between, hugeTask]) hroom
  have htask : Submittable (Between {"p0", "d0"}) hugeSent tinyTask :=
    ⟨by simp [Between, tinyTask], by decide +kernel⟩
  exact hhuge.submit htask (.sent hmore)

end Cap

end TransferGovernor

end PrismServe
