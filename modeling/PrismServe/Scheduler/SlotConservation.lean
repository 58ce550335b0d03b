import PrismServe.Scheduler.PDScheduler

/-!
# Conservation of decode slots

A ledger runs beside the scheduler and records every slot grant: who owns it,
on which instance it was made, and in which generation of that instance.  A
generation begins at a registration or at a reconciliation.  The ledger never
influences the scheduler.

`credited` reads off, from the scheduler alone, the grant on whose behalf a
call adds a slot.  As long as every such grant is held in the current
generation, the free slots of an instance are its maximum minus the grants held
in that generation.
-/

namespace PrismServe

open Lib

/-- Owner of a slot grant: a lease, or a picked slot that no lease covers. -/
inductive Owner
  | lease (operationId : String)
  | legacy (serial : Nat)
  deriving DecidableEq, Repr

structure Grant where
  instanceId : String
  generation : Nat
  deriving DecidableEq, Repr

/-- The scheduler together with the record of the grants not yet given back. -/
structure Ledger where
  scheduler : PDScheduler
  generation : String → Nat := fun _ => 0
  held : Dict Owner Grant := Dict.empty
  legacyCount : Nat := 0

/-- The calls that change what the scheduler knows about decode capacity. -/
inductive SlotCall
  | setRegistry (view : Option RegistryView)
  | updateKvUsage (instanceId : String) (sample : Option KVUsageSample)
  | register (instanceId : String) (role : Role) (maxSlots : Int) (epoch : String)
      (activeRequestIds : List String)
  | quarantineInstance (now : Time) (instanceId : String)
      (uncertainTransfer uncertainDispatch : Option UncertainRef)
  | reconcile (instanceId : String) (report : PDScheduler.Reconciliation)
  | pickLegacy (now : Time) (required : Option String)
  | pickAdopt (now : Time) (required : Option String) (reqId operationId : String)
  | reserve (now : Time) (instanceId reqId operationId : String)
  | commit (operationId : String)
  | release (operationId : String)
  | quarantineSlot (operationId : String)
  | releaseQuarantined (operationId : String) (leaseId : Option Nat)
      (cleanupId : Option String)
  | finish (instanceId : String) (epoch operationId : Option String) (serial : Nat)
  deriving DecidableEq, Repr

namespace Ledger

/-- A new generation of an instance begins. -/
def renew (instanceId : String) (L : Ledger) : Ledger :=
  { L with generation := Function.update L.generation instanceId (L.generation instanceId + 1) }

def grant (owner : Owner) (instanceId : String) (L : Ledger) : Ledger :=
  { L with held := L.held.set owner ⟨instanceId, L.generation instanceId⟩ }

def grantLegacy (instanceId : String) (L : Ledger) : Ledger :=
  { L.grant (.legacy L.legacyCount) instanceId with legacyCount := L.legacyCount + 1 }

def giveBack (owner : Owner) (L : Ledger) : Ledger :=
  { L with held := L.held.erase owner }

def withScheduler (s : PDScheduler) (L : Ledger) : Ledger := { L with scheduler := s }

/-- Number of grants on an instance held in its current generation. -/
def outstanding (L : Ledger) (instanceId : String) : Nat :=
  L.held.count fun _ g => decide (g = ⟨instanceId, L.generation instanceId⟩)

def holdsOn (L : Ledger) (owner : Owner) (instanceId : String) : Bool :=
  (L.held.get? owner).any fun g => decide (g.instanceId = instanceId)

/-- The owner whose grant a call to `on_decode_finished` gives back. -/
def finishOwner (operationId : Option String) (serial : Nat) : Owner :=
  match PDScheduler.namedOperation operationId with
  | none => .legacy serial
  | some op => .lease op

/-- Whether `on_decode_finished` passes its epoch and lease checks. -/
def finishAccepted (s : PDScheduler) (instanceId : String)
    (epoch operationId : Option String) : Bool :=
  s.epochAdmits instanceId epoch &&
    match PDScheduler.namedOperation operationId with
    | none => true
    | some op =>
      match s.slotLeases.get? op with
      | none => false
      | some lease =>
        decide (lease.instanceId = instanceId) && decide (lease.state ≠ .released) &&
          decide (lease.state ≠ .quarantined)

/-- One call, with its entry in the ledger. -/
def step (L : Ledger) : SlotCall → Ledger
  | .setRegistry view => L.withScheduler { L.scheduler with workerRegistry := view }
  | .updateKvUsage instanceId sample =>
    L.withScheduler (L.scheduler.updateKvUsage instanceId sample)
  | .register instanceId role maxSlots epoch active =>
    match L.scheduler.registerInstance instanceId role maxSlots epoch active with
    | .error _ => L
    | .ok s =>
      if L.scheduler.instanceEpochs.contains instanceId then L.withScheduler s
      else (L.withScheduler s).renew instanceId
  | .quarantineInstance now instanceId transfer dispatch =>
    L.withScheduler (L.scheduler.quarantineInstance now instanceId transfer dispatch)
  | .reconcile instanceId report =>
    match L.scheduler.reconcileInstance instanceId report with
    | .error _ => L
    | .ok s => (L.withScheduler s).renew instanceId
  | .pickLegacy now required =>
    match L.scheduler.pickDecodeInstance now required with
    | (none, s) => L.withScheduler s
    | (some instanceId, s) => (L.withScheduler s).grantLegacy instanceId
  | .pickAdopt now required reqId operationId =>
    match L.scheduler.pickDecodeInstance now required with
    | (none, s) => L.withScheduler s
    | (some instanceId, s) =>
      match s.adoptPickedDecodeSlot now instanceId reqId operationId with
      | .error _ => (L.withScheduler s).grantLegacy instanceId
      | .ok (_, s') => (L.withScheduler s').grant (.lease operationId) instanceId
  | .reserve now instanceId reqId operationId =>
    match L.scheduler.reserveDecodeSlot now instanceId reqId operationId with
    | .ok (some _, s) =>
      if L.scheduler.slotLeases.contains operationId then L.withScheduler s
      else (L.withScheduler s).grant (.lease operationId) instanceId
    | _ => L
  | .commit operationId =>
    match L.scheduler.commitDecodeSlot operationId with
    | .error _ => L
    | .ok s => L.withScheduler s
  | .release operationId =>
    match L.scheduler.releaseDecodeSlot operationId with
    | .ok (true, s) => (L.withScheduler s).giveBack (.lease operationId)
    | _ => L
  | .quarantineSlot operationId =>
    match L.scheduler.quarantineDecodeSlot operationId with
    | .error _ => L
    | .ok s => L.withScheduler s
  | .releaseQuarantined operationId leaseId cleanupId =>
    match L.scheduler.releaseQuarantinedDecodeSlot operationId leaseId cleanupId with
    | .ok (true, s) => (L.withScheduler s).giveBack (.lease operationId)
    | _ => L
  | .finish instanceId epoch operationId serial =>
    let L' := L.withScheduler (L.scheduler.onDecodeFinished instanceId epoch operationId).2
    let owner := finishOwner operationId serial
    if finishAccepted L.scheduler instanceId epoch operationId &&
        L.holdsOn owner instanceId then
      L'.giveBack owner
    else L'

def run (L : Ledger) : List SlotCall → Ledger
  | [] => L
  | c :: rest => (L.step c).run rest

/-- A registered instance with a slot in use. -/
def hasRoom (s : PDScheduler) (instanceId : String) : Bool :=
  (s.decodeSlots.get? instanceId).any fun slots => decide (slots.free < slots.max)

/-- The grant on whose behalf a call adds a free slot, and the instance it adds it to. -/
def credited (s : PDScheduler) : SlotCall → Option (Owner × String)
  | .release operationId =>
    match s.slotLeases.get? operationId with
    | none => none
    | some lease =>
      if lease.state = .reserved ∧ hasRoom s lease.instanceId then
        some (.lease operationId, lease.instanceId)
      else none
  | .releaseQuarantined operationId leaseId _ =>
    match s.slotLeases.get? operationId with
    | none => none
    | some lease =>
      if PDScheduler.leaseIdMismatch leaseId lease = false ∧
          lease.state = .quarantined ∧ hasRoom s lease.instanceId then
        some (.lease operationId, lease.instanceId)
      else none
  | .finish instanceId epoch operationId serial =>
    if finishAccepted s instanceId epoch operationId ∧ hasRoom s instanceId then
      some (finishOwner operationId serial, instanceId)
    else none
  | _ => none

/--
The call adds a slot to an instance for a grant that is not held there in the
current generation: it was made before the latest reconciliation, or it has
been given back already.
-/
def StaleCredit (L : Ledger) (c : SlotCall) : Prop :=
  (credited L.scheduler c).any (fun x =>
    decide (L.held.get? x.1 ≠ some ⟨x.2, L.generation x.2⟩)) = true

instance (L : Ledger) (c : SlotCall) : Decidable (L.StaleCredit c) :=
  inferInstanceAs (Decidable (_ = true))

/-- No call of a run is a stale credit. -/
def NoStaleCredit : Ledger → List SlotCall → Prop
  | _, [] => True
  | L, c :: rest => ¬ L.StaleCredit c ∧ NoStaleCredit (L.step c) rest

def decidableNoStaleCredit : ∀ (L : Ledger) (calls : List SlotCall),
    Decidable (NoStaleCredit L calls)
  | _, [] => isTrue trivial
  | L, c :: rest =>
    have := decidableNoStaleCredit (L.step c) rest
    inferInstanceAs (Decidable (¬ L.StaleCredit c ∧ NoStaleCredit (L.step c) rest))

instance (L : Ledger) (calls : List SlotCall) : Decidable (NoStaleCredit L calls) :=
  decidableNoStaleCredit L calls

/-! ## What a call can do -/

/-- Leases are never dropped and never move to another instance. -/
def LeasesKept (s t : PDScheduler) : Prop :=
  ∀ op lease, s.slotLeases.get? op = some lease →
    ∃ lease', t.slotLeases.get? op = some lease' ∧ lease'.instanceId = lease.instanceId

/-- Decode capacity is known only of registered instances out of quarantine. -/
def Coherent (s : PDScheduler) : Prop :=
  ∀ instanceId slots, s.decodeSlots.get? instanceId = some slots →
    s.instanceEpochs.get? instanceId ≠ none ∧
      s.quarantinedInstances.get? instanceId = none

/-- The record that justifies a held grant. -/
def Justified (L : Ledger) (instanceId : String) : Owner → Prop
  | .lease op =>
    ∃ lease, L.scheduler.slotLeases.get? op = some lease ∧ lease.instanceId = instanceId
  | .legacy n => n < L.legacyCount

/-- Bookkeeping facts about the held grants. -/
structure Linked (L : Ledger) : Prop where
  coherent : Coherent L.scheduler
  generation_le : ∀ owner g, L.held.get? owner = some g →
    g.generation ≤ L.generation g.instanceId
  justified : ∀ owner g, L.held.get? owner = some g → L.Justified g.instanceId owner

/-- Effect of a call on slots, generations and held grants. -/
inductive Effect (c : SlotCall) (L L' : Ledger) : Prop
  | quiet
      (slots : L'.scheduler.decodeSlots = L.scheduler.decodeSlots)
      (generation : L'.generation = L.generation)
      (held : L'.held = L.held)
  | dropped (instanceId : String)
      (slots : L'.scheduler.decodeSlots = L.scheduler.decodeSlots.erase instanceId)
      (generation : L'.generation = L.generation)
      (held : L'.held = L.held)
  | opened (instanceId : String)
      (absent : L.scheduler.decodeSlots.get? instanceId = none)
      (slots : L'.scheduler.decodeSlots = L.scheduler.decodeSlots ∨
        ∃ m, 0 < m ∧ L'.scheduler.decodeSlots = L.scheduler.decodeSlots.set instanceId ⟨m, m⟩)
      (generation : L'.generation =
        Function.update L.generation instanceId (L.generation instanceId + 1))
      (held : L'.held = L.held)
  | taken (instanceId : String) (count : SlotCount) (owner : Owner)
      (present : L.scheduler.decodeSlots.get? instanceId = some count)
      (room : 0 < count.free)
      (fresh : L.held.get? owner = none)
      (slots : L'.scheduler.decodeSlots =
        L.scheduler.decodeSlots.set instanceId { count with free := count.free - 1 })
      (generation : L'.generation = L.generation)
      (held : L'.held = L.held.set owner ⟨instanceId, L.generation instanceId⟩)
      (justified : L'.Justified instanceId owner)
  | credited (instanceId : String) (count : SlotCount) (owner : Owner)
      (present : L.scheduler.decodeSlots.get? instanceId = some count)
      (below : count.free < count.max)
      (names : Ledger.credited L.scheduler c = some (owner, instanceId))
      (slots : L'.scheduler.decodeSlots =
        L.scheduler.decodeSlots.set instanceId { count with free := count.free + 1 })
      (generation : L'.generation = L.generation)
      (held : L'.held = L.held.erase owner ∨
        L'.held = L.held ∧ L.held.get? owner ≠ some ⟨instanceId, L.generation instanceId⟩)
  | absorbed (owner : Owner)
      (slots : L'.scheduler.decodeSlots = L.scheduler.decodeSlots)
      (generation : L'.generation = L.generation)
      (held : L'.held = L.held.erase owner)
      (full : ∀ g, L.held.get? owner = some g → hasRoom L.scheduler g.instanceId = false)

/-- What every call keeps. -/
structure Kept (L L' : Ledger) : Prop where
  leases : LeasesKept L.scheduler L'.scheduler
  coherent : Coherent L.scheduler → Coherent L'.scheduler
  legacy : L.legacyCount ≤ L'.legacyCount

/-- Free slots are the maximum minus the grants held in the current generation. -/
def Conserved (L : Ledger) : Prop :=
  ∀ instanceId slots, L.scheduler.decodeSlots.get? instanceId = some slots →
    slots.free = slots.max - L.outstanding instanceId ∧ 0 ≤ slots.free

variable {L L' : Ledger} {c : SlotCall}

variable {owner : Owner} {i : String}

theorem Justified.mono (hk : Kept L L') {instanceId : String} (h : L.Justified instanceId owner) :
    L'.Justified instanceId owner := by
  cases owner with
  | lease op =>
    obtain ⟨lease, hl, hi⟩ := h
    obtain ⟨lease', hl', hi'⟩ := hk.leases op lease hl
    exact ⟨lease', hl', hi'.trans hi⟩
  | legacy n =>
    exact Nat.lt_of_lt_of_le h hk.legacy

/-- The bookkeeping survives when no new grant is recorded. -/
theorem Linked.of_held_le (h : Linked L) (hk : Kept L L')
    (hg : ∀ i, L.generation i ≤ L'.generation i)
    (hh : ∀ owner g, L'.held.get? owner = some g → L.held.get? owner = some g) :
    Linked L' where
  coherent := hk.coherent h.coherent
  generation_le owner g hm :=
    (h.generation_le owner g (hh owner g hm)).trans (hg g.instanceId)
  justified owner g hm := (h.justified owner g (hh owner g hm)).mono hk

theorem get?_of_get?_erase {owner owner' : Owner} {g : Grant}
    (h : (L.held.erase owner).get? owner' = some g) : L.held.get? owner' = some g := by
  rw [Dict.get?_erase] at h
  split at h
  · cases h
  · exact h

theorem linked_of_effect (h : Linked L) (hk : Kept L L') (he : Effect c L L') :
    Linked L' := by
  cases he with
  | quiet _ generation held =>
    exact h.of_held_le hk (fun i => by rw [generation]) (fun _ _ hm => held ▸ hm)
  | dropped _ _ generation held =>
    exact h.of_held_le hk (fun i => by rw [generation]) (fun _ _ hm => held ▸ hm)
  | opened instanceId _ _ generation held =>
    refine h.of_held_le hk (fun i => ?_) (fun _ _ hm => held ▸ hm)
    rw [generation]
    by_cases hi : i = instanceId
    · subst hi
      simp
    · simp [hi]
  | taken instanceId count owner _ _ _ _ generation held justified =>
    refine ⟨hk.coherent h.coherent, ?_, ?_⟩
    · intro owner' g hm
      rw [held, Dict.get?_set] at hm
      rw [generation]
      split at hm
      · cases hm
        exact Nat.le_refl _
      · exact h.generation_le owner' g hm
    · intro owner' g hm
      rw [held, Dict.get?_set] at hm
      split at hm
      · rename_i hw
        cases hm
        exact hw ▸ justified
      · exact (h.justified owner' g hm).mono hk
  | credited instanceId count owner _ _ _ _ generation held =>
    refine h.of_held_le hk (fun i => by rw [generation]) (fun _ _ hm => ?_)
    rcases held with held | ⟨held, _⟩
    · exact get?_of_get?_erase (held ▸ hm)
    · exact held ▸ hm
  | absorbed owner _ generation held _ =>
    exact h.of_held_le hk (fun i => by rw [generation])
      (fun _ _ hm => get?_of_get?_erase (held ▸ hm))

/-! ## Counting the held grants -/

theorem outstanding_congr (generation : L'.generation = L.generation)
    (held : L'.held = L.held) (i : String) : L'.outstanding i = L.outstanding i := by
  simp only [outstanding, generation, held]

/-- No grant of a generation is held before that generation begins. -/
theorem outstanding_renewed (h : Linked L)
    (generation : L'.generation = Function.update L.generation i (L.generation i + 1))
    (held : L'.held = L.held) : L'.outstanding i = 0 := by
  unfold outstanding
  rw [held]
  apply Dict.count_eq_zero
  intro owner g hm
  have hle := h.generation_le owner g hm
  simp only [generation, Function.update_self, decide_eq_false_iff_not]
  rintro rfl
  simp at hle

theorem outstanding_update_of_ne {i j : String} {n : Nat}
    (generation : L'.generation = Function.update L.generation i n)
    (held : L'.held = L.held) (hj : j ≠ i) : L'.outstanding j = L.outstanding j := by
  simp only [outstanding, generation, held, Function.update_of_ne hj]

theorem outstanding_taken (fresh : L.held.get? owner = none)
    (generation : L'.generation = L.generation)
    (held : L'.held = L.held.set owner ⟨i, L.generation i⟩) (j : String) :
    L'.outstanding j = L.outstanding j + (if j = i then 1 else 0) := by
  unfold outstanding
  rw [held, generation, Dict.count_set_of_fresh _ _ fresh]
  by_cases hj : j = i
  · subst hj
    simp
  · have hij : ¬ i = j := fun h => hj h.symm
    simp [hj, hij]

theorem outstanding_erased {g : Grant} (generation : L'.generation = L.generation)
    (held : L'.held = L.held.erase owner) (hm : L.held.get? owner = some g) (j : String) :
    L'.outstanding j + (if g = ⟨j, L.generation j⟩ then 1 else 0) = L.outstanding j := by
  have hc := Dict.count_erase_of_get? L.held
    (fun _ g => decide (g = ⟨j, L.generation j⟩)) hm
  unfold outstanding
  rw [held, generation]
  simpa using hc

theorem outstanding_erased_none (generation : L'.generation = L.generation)
    (held : L'.held = L.held.erase owner) (hm : L.held.get? owner = none) (j : String) :
    L'.outstanding j = L.outstanding j := by
  rw [Dict.erase_of_get?_none _ hm] at held
  exact outstanding_congr generation held j

/-! ## Conservation -/

theorem conserved_credited (hc : Conserved L) {count : SlotCount}
    (present : L.scheduler.decodeSlots.get? i = some count)
    (slots : L'.scheduler.decodeSlots = L.scheduler.decodeSlots.set i
      { count with free := count.free + 1 })
    (generation : L'.generation = L.generation) (held : L'.held = L.held.erase owner)
    (current : L.held.get? owner = some ⟨i, L.generation i⟩) : Conserved L' := by
  intro j slots' hj
  have ho := outstanding_erased generation held current j
  rw [slots, Dict.get?_set] at hj
  split at hj
  · rename_i hji
    subst hji
    cases hj
    obtain ⟨hfree, hnonneg⟩ := hc j count present
    simp only [if_true] at ho
    simp only
    omega
  · rename_i hji
    obtain ⟨hfree, hnonneg⟩ := hc j slots' hj
    have hne : ¬ (⟨i, L.generation i⟩ : Grant) = ⟨j, L.generation j⟩ := by
      intro h
      exact hji (congrArg Grant.instanceId h).symm
    simp only [if_neg hne] at ho
    omega

/-- One effect keeps conservation unless it is a stale credit. -/
theorem conserved_of_effect (h : Linked L) (hc : Conserved L)
    (hs : ¬ L.StaleCredit c) (he : Effect c L L') : Conserved L' := by
  cases he with
  | quiet slots generation held =>
    intro j slots' hj
    rw [outstanding_congr generation held]
    exact hc j slots' (slots ▸ hj)
  | dropped i slots generation held =>
    intro j slots' hj
    rw [outstanding_congr generation held]
    rw [slots, Dict.get?_erase] at hj
    split at hj
    · cases hj
    · exact hc j slots' hj
  | opened i absent slots generation held =>
    intro j slots' hj
    by_cases hji : j = i
    · subst hji
      rw [outstanding_renewed h generation held]
      rcases slots with slots | ⟨m, hm, slots⟩
      · rw [slots, absent] at hj
        cases hj
      rw [slots, Dict.get?_set_self] at hj
      cases hj
      simp only
      omega
    · rw [outstanding_update_of_ne generation held hji]
      rcases slots with slots | ⟨m, _, slots⟩
      · exact hc j slots' (slots ▸ hj)
      · rw [slots, Dict.get?_set_of_ne _ _ hji] at hj
        exact hc j slots' hj
  | taken i count owner present room fresh slots generation held _ =>
    intro j slots' hj
    rw [outstanding_taken fresh generation held]
    rw [slots, Dict.get?_set] at hj
    split at hj
    · rename_i hji
      subst hji
      cases hj
      obtain ⟨hfree, _⟩ := hc j count present
      simp only [if_true]
      omega
    · rename_i hji
      obtain ⟨hfree, hnonneg⟩ := hc j slots' hj
      simp only [if_neg hji]
      omega
  | credited i count owner present _ names slots generation held =>
    have current : L.held.get? owner = some ⟨i, L.generation i⟩ := by
      by_contra hne
      exact hs (by simpa [StaleCredit, names] using hne)
    rcases held with held | ⟨_, hne⟩
    · exact conserved_credited hc present slots generation held current
    · exact absurd current hne
  | absorbed owner slots generation held full =>
    intro j slots' hj
    rw [slots] at hj
    obtain ⟨hfree, hnonneg⟩ := hc j slots' hj
    cases hm : L.held.get? owner with
    | none =>
      rw [outstanding_erased_none generation held hm]
      exact ⟨hfree, hnonneg⟩
    | some g =>
      have ho := outstanding_erased generation held hm j
      -- A current grant would leave the instance below its maximum.
      by_cases hg : g = ⟨j, L.generation j⟩
      · have hroom := full g hm
        subst hg
        simp only [hasRoom, hj, Option.any_some, decide_eq_false_iff_not] at hroom
        simp only [if_true] at ho
        omega
      · simp only [if_neg hg] at ho
        omega

/-! ## Every call has one of the effects -/

section Frames

variable {s t : PDScheduler}

theorem LeasesKept.of_eq (h : t.slotLeases = s.slotLeases) : LeasesKept s t :=
  fun _ lease hl => ⟨lease, h ▸ hl, rfl⟩

/-- Overwriting a lease in place keeps its instance. -/
theorem LeasesKept.of_set {op : String} {lease lease' : DecodeSlotLease}
    (h : t.slotLeases = s.slotLeases.set op lease')
    (hl : s.slotLeases.get? op = some lease)
    (hi : lease'.instanceId = lease.instanceId) : LeasesKept s t := by
  intro op' x hx
  rw [h, Dict.get?_set]
  split
  · rename_i ho
    subst ho
    rw [hl] at hx
    cases hx
    exact ⟨lease', rfl, hi⟩
  · exact ⟨x, hx, rfl⟩

theorem LeasesKept.of_fresh {op : String} {lease : DecodeSlotLease}
    (h : t.slotLeases = s.slotLeases.set op lease)
    (hn : s.slotLeases.get? op = none) : LeasesKept s t := by
  intro op' x hx
  have ho : op' ≠ op := by
    rintro rfl
    rw [hn] at hx
    cases hx
  exact ⟨x, by rw [h, Dict.get?_set_of_ne _ _ ho, hx], rfl⟩

/-- Coherence depends on the registered names only. -/
theorem Coherent.of_keys (h : Coherent s)
    (hk : ∀ i, t.decodeSlots.get? i ≠ none → s.decodeSlots.get? i ≠ none)
    (he : t.instanceEpochs = s.instanceEpochs)
    (hq : t.quarantinedInstances = s.quarantinedInstances) : Coherent t := by
  intro i slots hi
  have hs : s.decodeSlots.get? i ≠ none := hk i (by simp [hi])
  obtain ⟨slots', hs'⟩ := Option.ne_none_iff_exists'.mp hs
  rw [he, hq]
  exact h i slots' hs'

theorem keys_of_set {i : String} {count count' : SlotCount}
    (h : t.decodeSlots = s.decodeSlots.set i count')
    (hs : s.decodeSlots.get? i = some count) :
    ∀ j, t.decodeSlots.get? j ≠ none → s.decodeSlots.get? j ≠ none := by
  intro j hj
  by_cases hji : j = i
  · simp [hji, hs]
  · rwa [h, Dict.get?_set_of_ne _ _ hji] at hj

end Frames

section Calls

attribute [local simp] step

variable {i : String} {s : PDScheduler} {owner : Owner} {op : String}

/-- A change that touches neither slots, epochs nor quarantines. -/
theorem kept_quiet (hd : s.decodeSlots = L.scheduler.decodeSlots) (hl : LeasesKept L.scheduler s)
    (he : s.instanceEpochs = L.scheduler.instanceEpochs)
    (hq : s.quarantinedInstances = L.scheduler.quarantinedInstances) :
    Kept L (L.withScheduler s) ∧ Effect c L (L.withScheduler s) :=
  ⟨⟨hl, fun h => h.of_keys (fun _ hi => hd ▸ hi) he hq, Nat.le_refl _⟩,
    .quiet hd rfl rfl⟩

theorem kept_self : Kept L L ∧ Effect c L L :=
  kept_quiet (L := L) rfl (.of_eq rfl) rfl rfl

/-- A slot moves from an instance to a new owner. -/
theorem kept_taken {L' : Ledger} {count : SlotCount}
    (present : L.scheduler.decodeSlots.get? i = some count) (room : 0 < count.free)
    (fresh : L.held.get? owner = none)
    (slots : L'.scheduler.decodeSlots = L.scheduler.decodeSlots.set i
      { count with free := count.free - 1 })
    (leases : LeasesKept L.scheduler L'.scheduler)
    (epochs : L'.scheduler.instanceEpochs = L.scheduler.instanceEpochs)
    (quarantined : L'.scheduler.quarantinedInstances = L.scheduler.quarantinedInstances)
    (generation : L'.generation = L.generation)
    (held : L'.held = L.held.set owner ⟨i, L.generation i⟩)
    (legacy : L.legacyCount ≤ L'.legacyCount) (justified : L'.Justified i owner) :
    Kept L L' ∧ Effect c L L' :=
  ⟨⟨leases, fun h => h.of_keys (keys_of_set slots present) epochs quarantined, legacy⟩,
    .taken i count owner present room fresh slots generation held justified⟩

/-- A slot is given back: credited when the instance has room, absorbed when not. -/
theorem kept_returned (leases : LeasesKept L.scheduler s)
    (epochs : s.instanceEpochs = L.scheduler.instanceEpochs)
    (quarantined : s.quarantinedInstances = L.scheduler.quarantinedInstances)
    (grant : ∀ g, L.held.get? owner = some g → g.instanceId = i)
    (slots : (∃ count, L.scheduler.decodeSlots.get? i = some count ∧ count.free < count.max ∧
        s.decodeSlots = L.scheduler.decodeSlots.set i { count with free := count.free + 1 } ∧
        credited L.scheduler c = some (owner, i)) ∨
      (hasRoom L.scheduler i = false ∧ s.decodeSlots = L.scheduler.decodeSlots)) :
    Kept L ((L.withScheduler s).giveBack owner) ∧
      Effect c L ((L.withScheduler s).giveBack owner) := by
  rcases slots with ⟨count, present, below, slots, names⟩ | ⟨full, slots⟩
  · exact ⟨⟨leases, fun h => h.of_keys (keys_of_set slots present) epochs quarantined,
        Nat.le_refl _⟩,
      .credited i count owner present below names slots rfl (Or.inl rfl)⟩
  · refine ⟨⟨leases, fun h => h.of_keys (fun _ hi => slots ▸ hi) epochs quarantined,
        Nat.le_refl _⟩, .absorbed owner slots rfl rfl ?_⟩
    intro g hg
    rw [grant g hg]
    exact full

/-- What `creditSlot` does to an instance that is not above its maximum. -/
theorem creditSlot_cases (s : PDScheduler) (i : String)
    (bound : ∀ count, s.decodeSlots.get? i = some count → count.free ≤ count.max) :
    (∃ count, s.decodeSlots.get? i = some count ∧ count.free < count.max ∧
      s.creditSlot i = { s with
        decodeSlots := s.decodeSlots.set i { count with free := count.free + 1 } }) ∨
    (hasRoom s i = false ∧ s.creditSlot i = s) := by
  unfold PDScheduler.creditSlot hasRoom
  cases hd : s.decodeSlots.get? i with
  | none =>
    exact Or.inr ⟨rfl, rfl⟩
  | some count =>
    have hle := bound count hd
    by_cases hlt : count.free < count.max
    · left
      refine ⟨count, rfl, hlt, ?_⟩
      have hmin : min count.max (count.free + 1) = count.free + 1 := by omega
      simp only [hmin]
    · right
      have hmin : min count.max (count.free + 1) = count.free := by omega
      refine ⟨by simpa using hlt, ?_⟩
      simp only [hmin]
      rw [Dict.set_of_get? _ hd]

theorem Conserved.le_max (h : Conserved L) {count : SlotCount}
    (hd : L.scheduler.decodeSlots.get? i = some count) : count.free ≤ count.max := by
  have := (h i count hd).1
  omega

theorem Linked.fresh_lease (h : Linked L) (hn : L.scheduler.slotLeases.get? op = none) :
    L.held.get? (.lease op) = none := by
  by_contra hne
  obtain ⟨g, hg⟩ := Option.ne_none_iff_exists'.mp hne
  obtain ⟨lease, hl, _⟩ := h.justified _ g hg
  rw [hn] at hl
  cases hl

theorem Linked.fresh_legacy (h : Linked L) : L.held.get? (.legacy L.legacyCount) = none := by
  by_contra hne
  obtain ⟨g, hg⟩ := Option.ne_none_iff_exists'.mp hne
  exact Nat.lt_irrefl _ (h.justified _ g hg)

theorem Linked.lease_instance (h : Linked L) {lease : DecodeSlotLease}
    (hl : L.scheduler.slotLeases.get? op = some lease) :
    ∀ g, L.held.get? (.lease op) = some g → g.instanceId = lease.instanceId := by
  intro g hg
  obtain ⟨lease', hl', hi⟩ := h.justified _ g hg
  rw [hl] at hl'
  cases hl'
  exact hi.symm

theorem Linked.absent (h : Linked L)
    (hn : L.scheduler.instanceEpochs.get? i = none ∨
      L.scheduler.quarantinedInstances.get? i ≠ none) :
    L.scheduler.decodeSlots.get? i = none := by
  by_contra hne
  obtain ⟨slots, hs⟩ := Option.ne_none_iff_exists'.mp hne
  obtain ⟨he, hq⟩ := h.coherent i slots hs
  exact hn.elim he (fun h => h hq)

theorem step_register (h : Linked L) (i : String) (role : Role) (m : Int)
    (epoch : String) (active : List String) :
    Kept L (L.step (.register i role m epoch active)) ∧
      Effect c L (L.step (.register i role m epoch active)) := by
  simp only [step]
  cases hr : L.scheduler.registerInstance i role m epoch active with
  | error e =>
    exact kept_self
  | ok s =>
    rcases PDScheduler.registerInstance_ok hr with ⟨rfl, hc⟩ | ⟨hn, hq, hl, hq', ⟨e, he⟩, hd⟩
    · simp only [hc, if_true]
      exact kept_self
    have hc : L.scheduler.instanceEpochs.contains i = false := by
      simp [Dict.contains, hn]
    have absent := h.absent (Or.inl hn)
    simp only [hc]
    refine ⟨⟨.of_eq hl, ?_, Nat.le_refl _⟩, .opened i absent ?_ rfl rfl⟩
    · intro hco j slots hj
      change s.decodeSlots.get? j = some slots at hj
      change s.instanceEpochs.get? j ≠ none ∧ s.quarantinedInstances.get? j = none
      rw [he, hq', Dict.get?_set]
      by_cases hji : j = i
      · subst hji
        simp [hq]
      rcases hd with hd | ⟨_, hd⟩
      · simpa [hji] using hco j slots (hd ▸ hj)
      · rw [hd, Dict.get?_set_of_ne _ _ hji] at hj
        simpa [hji] using hco j slots hj
    · rcases hd with hd | ⟨hm, hd⟩
      · exact Or.inl hd
      · exact Or.inr ⟨m, hm, hd⟩

theorem step_quarantineInstance (now : Time) (i : String)
    (transfer dispatch : Option UncertainRef) :
    Kept L (L.step (.quarantineInstance now i transfer dispatch)) ∧
      Effect c L (L.step (.quarantineInstance now i transfer dispatch)) := by
  simp only [step, PDScheduler.quarantineInstance]
  cases hq : L.scheduler.quarantinedInstances.get? i with
  | some record =>
    refine ⟨⟨.of_eq rfl, ?_, Nat.le_refl _⟩, .quiet rfl rfl rfl⟩
    intro hco j slots hj
    obtain ⟨he, hn⟩ := hco j slots hj
    refine ⟨he, ?_⟩
    have hji : j ≠ i := by
      rintro rfl
      rw [hq] at hn
      cases hn
    exact (Dict.get?_set_of_ne _ _ hji).trans hn
  | none =>
    refine ⟨⟨.of_eq rfl, ?_, Nat.le_refl _⟩, .dropped i rfl rfl rfl⟩
    intro hco j slots hj
    change (L.scheduler.decodeSlots.erase i).get? j = some slots at hj
    rw [Dict.get?_erase] at hj
    split at hj
    · cases hj
    · rename_i hji
      obtain ⟨he, hn⟩ := hco j slots hj
      exact ⟨he, (Dict.get?_set_of_ne _ _ hji).trans hn⟩

theorem step_reconcile (h : Linked L) (i : String) (r : PDScheduler.Reconciliation) :
    Kept L (L.step (.reconcile i r)) ∧ Effect c L (L.step (.reconcile i r)) := by
  simp only [step]
  cases hr : L.scheduler.reconcileInstance i r with
  | error e =>
    exact kept_self
  | ok s =>
    obtain ⟨rfl, hq, hrole, hm⟩ := PDScheduler.reconcileInstance_ok hr
    have absent := h.absent (Or.inr hq)
    have hd : (PDScheduler.restoreCapacity i r L.scheduler).decodeSlots =
          L.scheduler.decodeSlots ∨
        0 < r.maxSlots ∧ (PDScheduler.restoreCapacity i r L.scheduler).decodeSlots =
          L.scheduler.decodeSlots.set i ⟨r.maxSlots, r.maxSlots⟩ := by
      rcases hrole with hrr | hrr
      · exact Or.inl (by simp [PDScheduler.restoreCapacity, hrr])
      · exact Or.inr ⟨hm hrr, by simp [PDScheduler.restoreCapacity, hrr]⟩
    refine ⟨⟨.of_eq rfl, ?_, Nat.le_refl _⟩, .opened i absent ?_ rfl rfl⟩
    · intro hco j slots hj
      change (PDScheduler.restoreCapacity i r L.scheduler).decodeSlots.get? j =
        some slots at hj
      change (L.scheduler.instanceEpochs.set i r.instanceEpoch).get? j ≠ none ∧
        (L.scheduler.quarantinedInstances.erase i).get? j = none
      by_cases hji : j = i
      · subst hji
        simp
      have hj' : L.scheduler.decodeSlots.get? j = some slots := by
        rcases hd with hd | ⟨_, hd⟩
        · exact hd ▸ hj
        · rwa [hd, Dict.get?_set_of_ne _ _ hji] at hj
      rw [Dict.get?_set_of_ne _ _ hji, Dict.get?_erase_of_ne _ hji]
      exact hco j slots hj'
    · rcases hd with hd | ⟨hpos, hd⟩
      · exact Or.inl hd
      · exact Or.inr ⟨_, hpos, hd⟩

theorem step_pickLegacy (h : Linked L) (now : Time) (required : Option String) :
    Kept L (L.step (.pickLegacy now required)) ∧
      Effect c L (L.step (.pickLegacy now required)) := by
  simp only [step]
  rcases hp : L.scheduler.pickDecodeInstance now required with ⟨_ | i, s⟩
  · obtain rfl := PDScheduler.pickDecodeInstance_none hp
    exact kept_self
  · obtain ⟨count, hd, hroom, rfl⟩ := PDScheduler.pickDecodeInstance_some hp
    exact kept_taken hd hroom h.fresh_legacy rfl (.of_eq rfl) rfl rfl rfl rfl
      (Nat.le_succ _) (Nat.lt_succ_self _)

theorem step_pickAdopt (h : Linked L) (now : Time) (required : Option String)
    (reqId op : String) :
    Kept L (L.step (.pickAdopt now required reqId op)) ∧
      Effect c L (L.step (.pickAdopt now required reqId op)) := by
  simp only [step]
  rcases hp : L.scheduler.pickDecodeInstance now required with ⟨_ | i, s⟩
  · obtain rfl := PDScheduler.pickDecodeInstance_none hp
    exact kept_self
  obtain ⟨count, hd, hroom, rfl⟩ := PDScheduler.pickDecodeInstance_some hp
  dsimp only
  split
  · exact kept_taken hd hroom h.fresh_legacy rfl (.of_eq rfl) rfl rfl rfl rfl
      (Nat.le_succ _) (Nat.lt_succ_self _)
  rename_i lease s' ha
  obtain ⟨hn, hlease, rfl⟩ := PDScheduler.adoptPickedDecodeSlot_ok ha
  refine kept_taken hd hroom (h.fresh_lease hn) rfl (.of_fresh rfl hn) rfl rfl rfl rfl
    (Nat.le_refl _) ⟨lease, Dict.get?_set_self _ _ _, ?_⟩
  rw [hlease]
  rfl

theorem step_reserve (h : Linked L) (now : Time) (i reqId op : String) :
    Kept L (L.step (.reserve now i reqId op)) ∧
      Effect c L (L.step (.reserve now i reqId op)) := by
  simp only [step]
  split
  · rename_i lease s hr
    rcases PDScheduler.reserveDecodeSlot_ok hr with ⟨rfl, hc⟩ | ⟨count, hn, hd, hroom, hlease, rfl⟩
    · simp only [hc (by simp), if_true]
      exact kept_self
    have hc : L.scheduler.slotLeases.contains op = false := by
      simp [Dict.contains, hn]
    simp only [hc]
    exact kept_taken hd hroom (h.fresh_lease hn) rfl (.of_fresh rfl hn) rfl rfl rfl rfl
      (Nat.le_refl _) ⟨_, Dict.get?_set_self _ _ _, rfl⟩
  · exact kept_self

theorem step_commit (op : String) :
    Kept L (L.step (.commit op)) ∧ Effect c L (L.step (.commit op)) := by
  simp only [step, PDScheduler.commitDecodeSlot]
  cases hl : L.scheduler.slotLeases.get? op with
  | none =>
    exact kept_self
  | some lease =>
    dsimp only
    split
    · exact kept_quiet rfl (.of_set rfl hl rfl) rfl rfl
    · exact kept_self

theorem step_quarantineSlot (op : String) :
    Kept L (L.step (.quarantineSlot op)) ∧ Effect c L (L.step (.quarantineSlot op)) := by
  simp only [step, PDScheduler.quarantineDecodeSlot]
  cases hl : L.scheduler.slotLeases.get? op with
  | none =>
    exact kept_self
  | some lease =>
    by_cases hs : lease.state = .released
    · simp only [hs, if_true]
      exact kept_self
    · simp only [if_neg hs]
      exact kept_quiet rfl (.of_set rfl hl rfl) rfl rfl

/-- A lease is marked released and its slot is credited. -/
theorem kept_released (h : Linked L) (hc : Conserved L) {lease lease' : DecodeSlotLease}
    (hl : L.scheduler.slotLeases.get? op = some lease) (hi : lease'.instanceId = lease.instanceId)
    (names : hasRoom L.scheduler lease.instanceId = true →
      credited L.scheduler c = some (.lease op, lease.instanceId)) :
    let s := (L.scheduler.markLease op lease' .released).creditSlot lease.instanceId
    Kept L ((L.withScheduler s).giveBack (.lease op)) ∧
      Effect c L ((L.withScheduler s).giveBack (.lease op)) := by
  intro s
  have marked : LeasesKept L.scheduler (L.scheduler.markLease op lease' .released) :=
    .of_set rfl hl hi
  rcases creditSlot_cases (L.scheduler.markLease op lease' .released) lease.instanceId
      (fun count hd => hc.le_max hd) with ⟨count, hd, hlt, hs⟩ | ⟨hfull, hs⟩
  · have hroom : hasRoom L.scheduler lease.instanceId = true := by
      have hd' : L.scheduler.decodeSlots.get? lease.instanceId = some count := hd
      simp [hasRoom, hd', hlt]
    simp only [s, hs]
    exact kept_returned marked rfl rfl (h.lease_instance hl)
      (Or.inl ⟨count, hd, hlt, rfl, names hroom⟩)
  · simp only [s, hs]
    exact kept_returned marked rfl rfl (h.lease_instance hl) (Or.inr ⟨hfull, rfl⟩)

theorem step_release (h : Linked L) (hc : Conserved L) (op : String) :
    Kept L (L.step (.release op)) ∧ Effect (.release op) L (L.step (.release op)) := by
  simp only [step, PDScheduler.releaseDecodeSlot]
  cases hl : L.scheduler.slotLeases.get? op with
  | none =>
    exact kept_self
  | some lease =>
    dsimp only
    cases hs : lease.state with
    | reserved =>
      exact kept_released h hc hl rfl
        (fun hroom => by simp [credited, hl, hs, hroom])
    | _ =>
      exact kept_self

theorem step_releaseQuarantined (h : Linked L) (hc : Conserved L) (op : String)
    (leaseId : Option Nat) (cleanupId : Option String) :
    Kept L (L.step (.releaseQuarantined op leaseId cleanupId)) ∧
      Effect (.releaseQuarantined op leaseId cleanupId) L
        (L.step (.releaseQuarantined op leaseId cleanupId)) := by
  simp only [step, PDScheduler.releaseQuarantinedDecodeSlot]
  cases hl : L.scheduler.slotLeases.get? op with
  | none =>
    exact kept_self
  | some lease =>
    by_cases hid : PDScheduler.leaseIdMismatch leaseId lease = true
    · simp only [hid, if_true]
      exact kept_self
    simp only [hid]
    cases hs : lease.state with
    | released =>
      split_ifs <;> exact kept_self
    | quarantined =>
      exact kept_released h hc hl rfl
        (fun hroom => by simp [credited, hl, hs, hroom, hid])
    | _ =>
      exact kept_self

/-- What `creditFinished` does. -/
theorem creditFinished_cases (s : PDScheduler) (i : String) :
    (∃ count, s.decodeSlots.get? i = some count ∧ count.free < count.max ∧
      (s.creditFinished i).2 = { s with
        decodeSlots := s.decodeSlots.set i { count with free := count.free + 1 } }) ∨
    (hasRoom s i = false ∧ (s.creditFinished i).2 = s) := by
  unfold PDScheduler.creditFinished hasRoom
  cases hd : s.decodeSlots.get? i with
  | none =>
    exact Or.inr ⟨rfl, rfl⟩
  | some count =>
    by_cases hle : count.max ≤ count.free
    · right
      simp [hle]
    · left
      exact ⟨count, rfl, not_le.mp hle, by simp [hle]⟩

/-- A finished decode, once its checks have passed. -/
theorem kept_finished (slots : s.decodeSlots = L.scheduler.decodeSlots)
    (leases : LeasesKept L.scheduler s) (epochs : s.instanceEpochs = L.scheduler.instanceEpochs)
    (quarantined : s.quarantinedInstances = L.scheduler.quarantinedInstances)
    (names : hasRoom L.scheduler i = true → credited L.scheduler c = some (owner, i)) :
    let L' := L.withScheduler (s.creditFinished i).2
    let L'' := if L.holdsOn owner i = true then L'.giveBack owner else L'
    Kept L L'' ∧ Effect c L L'' := by
  intro L' L''
  have credit : (∃ count, L.scheduler.decodeSlots.get? i = some count ∧
        count.free < count.max ∧ (s.creditFinished i).2 = { s with
          decodeSlots := s.decodeSlots.set i { count with free := count.free + 1 } } ∧
        credited L.scheduler c = some (owner, i)) ∨
      (hasRoom L.scheduler i = false ∧ (s.creditFinished i).2 = s) := by
    rcases creditFinished_cases s i with ⟨count, hd, hlt, hs⟩ | ⟨hfull, hs⟩
    · rw [slots] at hd
      exact Or.inl ⟨count, hd, hlt, hs, names (by simp [hasRoom, hd, hlt])⟩
    · exact Or.inr ⟨by simpa [hasRoom, slots] using hfull, hs⟩
  by_cases ho : L.holdsOn owner i = true
  · have grant : ∀ g, L.held.get? owner = some g → g.instanceId = i := by
      intro g hg
      simpa [holdsOn, hg] using ho
    simp only [L'', L', ho, if_true]
    rcases credit with ⟨count, hd, hlt, hs, hn⟩ | ⟨hfull, hs⟩
    · rw [hs]
      exact kept_returned leases epochs quarantined grant
        (Or.inl ⟨count, hd, hlt, by simp only [slots], hn⟩)
    · rw [hs]
      exact kept_returned leases epochs quarantined grant (Or.inr ⟨hfull, slots⟩)
  · have stale : L.held.get? owner ≠ some ⟨i, L.generation i⟩ := by
      intro hg
      simp [holdsOn, hg] at ho
    simp only [L'', L', if_neg ho]
    rcases credit with ⟨count, hd, hlt, hs, hn⟩ | ⟨hfull, hs⟩
    · have hset : (s.creditFinished i).2.decodeSlots =
          L.scheduler.decodeSlots.set i { count with free := count.free + 1 } := by
        rw [hs, slots]
      rw [hs] at hset ⊢
      exact ⟨⟨leases, fun h => h.of_keys (keys_of_set hset hd) epochs quarantined,
          Nat.le_refl _⟩, .credited i count owner hd hlt hn hset rfl (Or.inr ⟨rfl, stale⟩)⟩
    · rw [hs]
      exact kept_quiet slots leases epochs quarantined

theorem step_finish (i : String) (epoch operationId : Option String) (serial : Nat) :
    Kept L (L.step (.finish i epoch operationId serial)) ∧
      Effect (.finish i epoch operationId serial) L
        (L.step (.finish i epoch operationId serial)) := by
  have names (ha : finishAccepted L.scheduler i epoch operationId = true)
      (hroom : hasRoom L.scheduler i = true) :
      credited L.scheduler (.finish i epoch operationId serial) =
        some (finishOwner operationId serial, i) := by
    simp [credited, ha, hroom]
  cases ha : finishAccepted L.scheduler i epoch operationId with
  | false =>
    have hs : (L.scheduler.onDecodeFinished i epoch operationId).2 = L.scheduler := by
      unfold PDScheduler.onDecodeFinished
      unfold finishAccepted at ha
      cases he : L.scheduler.epochAdmits i epoch with
      | false =>
        rfl
      | true =>
        simp only [he, Bool.true_and] at ha
        cases ho : PDScheduler.namedOperation operationId with
        | none =>
          simp [ho] at ha
        | some op =>
          simp only [ho] at ha
          cases hl : L.scheduler.slotLeases.get? op with
          | none =>
            simp [hl]
          | some lease =>
            simp only [hl, Bool.and_eq_false_iff, decide_eq_false_iff_not,
              not_not] at ha
            simp only [Bool.true_eq_false, if_false, hl]
            rw [if_pos]
            tauto
    simp only [step, ha, hs, Bool.false_and]
    exact kept_self
  | true =>
    simp only [step, ha, Bool.true_and]
    have he : L.scheduler.epochAdmits i epoch = true := by
      simp only [finishAccepted, Bool.and_eq_true] at ha
      exact ha.1
    cases ho : PDScheduler.namedOperation operationId with
    | none =>
      have hs : (L.scheduler.onDecodeFinished i epoch operationId).2 =
          (L.scheduler.creditFinished i).2 := by
        simp [PDScheduler.onDecodeFinished, he, ho]
      rw [hs]
      exact kept_finished rfl (.of_eq rfl) rfl rfl (names ha)
    | some op =>
      simp only [finishAccepted, he, ho, Bool.true_and] at ha
      cases hl : L.scheduler.slotLeases.get? op with
      | none =>
        simp [hl] at ha
      | some lease =>
        simp only [hl, Bool.and_eq_true, decide_eq_true_eq] at ha
        obtain ⟨⟨hi, hr⟩, hq⟩ := ha
        have hs : (L.scheduler.onDecodeFinished i epoch operationId).2 =
            ((L.scheduler.markLease op lease .released).creditFinished i).2 := by
          simp [PDScheduler.onDecodeFinished, he, ho, hl, hi, hr, hq]
        rw [hs]
        exact kept_finished rfl (.of_set rfl hl rfl) rfl rfl
          (names (by simp [finishAccepted, he, ho, hl, hi, hr, hq]))

end Calls

/-- Every call keeps the bookkeeping and has one of the effects. -/
theorem step_spec (h : Linked L) (hc : Conserved L) (c : SlotCall) :
    Kept L (L.step c) ∧ Effect c L (L.step c) := by
  cases c with
  | setRegistry view =>
    exact kept_quiet rfl (.of_eq rfl) rfl rfl
  | updateKvUsage i sample =>
    cases sample with
    | none =>
      exact kept_quiet rfl (.of_eq rfl) rfl rfl
    | some x =>
      exact kept_quiet rfl (.of_eq rfl) rfl rfl
  | register i role m epoch active =>
    exact step_register h i role m epoch active
  | quarantineInstance now i transfer dispatch =>
    exact step_quarantineInstance now i transfer dispatch
  | reconcile i report =>
    exact step_reconcile h i report
  | pickLegacy now required =>
    exact step_pickLegacy h now required
  | pickAdopt now required reqId op =>
    exact step_pickAdopt h now required reqId op
  | reserve now i reqId op =>
    exact step_reserve h now i reqId op
  | commit op =>
    exact step_commit op
  | release op =>
    exact step_release h hc op
  | quarantineSlot op =>
    exact step_quarantineSlot op
  | releaseQuarantined op leaseId cleanupId =>
    exact step_releaseQuarantined h hc op leaseId cleanupId
  | finish i epoch op serial =>
    exact step_finish i epoch op serial

theorem run_conserved (calls : List SlotCall) :
    ∀ L : Ledger, Linked L → Conserved L → NoStaleCredit L calls →
      Linked (L.run calls) ∧ Conserved (L.run calls) := by
  induction calls with
  | nil =>
    exact fun L h hc _ => ⟨h, hc⟩
  | cons c rest ih =>
    rintro L h hc ⟨hs, hrest⟩
    obtain ⟨hk, he⟩ := step_spec h hc c
    exact ih (L.step c) (linked_of_effect h hk he) (conserved_of_effect h hc hs he) hrest

/-- The ledger of a new scheduler. -/
def initial (highWatermark : Rat) (kvUsageStaleAfter : Time) : Ledger :=
  { scheduler := { highWatermark := highWatermark, kvUsageStaleAfter := kvUsageStaleAfter } }

theorem initial_linked (w : Rat) (a : Time) : Linked (initial w a) where
  coherent _ _ hi := by cases hi
  generation_le _ _ hg := by cases hg
  justified _ _ hg := by cases hg

theorem initial_conserved (w : Rat) (a : Time) : Conserved (initial w a) :=
  fun _ _ hi => by cases hi

/--
Decode slot conservation: after any calls of which none is a stale credit, the
free slots of a registered instance are its maximum minus the grants made since
its latest registration or reconciliation and not given back.
-/
theorem decode_slots_conserved (highWatermark : Rat) (kvUsageStaleAfter : Time)
    (calls : List SlotCall)
    (fresh : NoStaleCredit (initial highWatermark kvUsageStaleAfter) calls) :
    let L := (initial highWatermark kvUsageStaleAfter).run calls
    ∀ instanceId slots, L.scheduler.decodeSlots.get? instanceId = some slots →
      slots.free = slots.max - L.outstanding instanceId ∧
        0 ≤ slots.free ∧ slots.free ≤ slots.max := by
  intro L i slots hi
  obtain ⟨_, hc⟩ := run_conserved calls _ (initial_linked _ _) (initial_conserved _ _) fresh
  obtain ⟨hfree, hnonneg⟩ := hc i slots hi
  exact ⟨hfree, hnonneg, hc.le_max hi⟩

/-- An instance is reconciled under a new epoch while a lease of its old life is open. -/
def reconciledDecode : PDScheduler.Reconciliation :=
  { instanceEpoch := "e2"
    reconciliationToken := 1
    role := .decode
    maxSlots := 2
    activeRequestIds := []
    activeTransferOperationIds := []
    pendingDispatchCommandIds := [] }

/-- Reserve, quarantine, reconcile and reserve again on one instance of two slots. -/
def reservedTwice : List SlotCall :=
  [.register "decode-0" .decode 2 "e1" [],
    .reserve 0 "decode-0" "r1" "op1",
    .quarantineInstance 0 "decode-0" none none,
    .reconcile "decode-0" reconciledDecode,
    .reserve 0 "decode-0" "r2" "op2"]

/-- Before the old lease is released the slots are conserved. -/
theorem reservedTwice_conserved :
    NoStaleCredit (initial (85 / 100) 10) reservedTwice ∧
      ∀ instanceId slots,
        ((initial (85 / 100) 10).run reservedTwice).scheduler.decodeSlots.get? instanceId =
            some slots →
          slots.free = slots.max -
              ((initial (85 / 100) 10).run reservedTwice).outstanding instanceId ∧
            0 ≤ slots.free ∧ slots.free ≤ slots.max :=
  ⟨by decide +kernel, decode_slots_conserved _ _ _ (by decide +kernel)⟩

/-- Releasing the lease of the old life frees a slot that the second lease holds. -/
theorem release_after_reconcile_overcredits :
    ¬ ∀ instanceId slots,
        ((initial (85 / 100) 10).run
            (reservedTwice ++ [.release "op1"])).scheduler.decodeSlots.get? instanceId =
            some slots →
          slots.free = slots.max -
              ((initial (85 / 100) 10).run
                (reservedTwice ++ [.release "op1"])).outstanding instanceId ∧
            0 ≤ slots.free ∧ slots.free ≤ slots.max := by
  intro h
  have free := (h "decode-0" ⟨2, 2⟩ (by decide +kernel)).1
  revert free
  decide +kernel

end Ledger

end PrismServe
