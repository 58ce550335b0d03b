import PrismServe.Properties.ReleaseEvidence
import PrismServe.Router.Coordinator

/-!
# Compensation of a load with the legacy client

A load that stops is compensated by querying its target, aborting what is still
prepared there and unpinning the source, in this order; a status that is unknown
quarantines the slot.  The supervisor repeats a compensation that raises, after
quarantining the slot itself.

`Compensated` says what one compensation does to the lease of its operation and
to the slots, and on which visits a release rests; `Attempted` says the same of
an attempt of the supervisor, and `Loading` what a load leaves behind that stops.
-/

namespace PrismServe

open Lib Lib.Prog

/-! ## The surroundings -/

/-- Whether a reply answers a call of a legacy load or of its compensation, or is its failure. -/
def Call.legacyAnswer : Call → Reply → Bool
  | .cleanupPause _, .ok => true
  | .cleanupPause _, .raised e => decide (e = .cancelled)
  | _, .raised _ => true
  | .resolvePrefix _ _, .resolved _ => true
  | .preparePrefix _ _, .flag _ => true
  | .transferPrefix _, .mapped _ => true
  | .commitPrefix _ _, .ok => true
  | .prefixStatus _ _, .prefixed _ => true
  | .abortMapped _, .mapped _ => true
  | .abortPrefix _ _, .ok => true
  | .unpinPrefix _ _, .ok => true
  | _, _ => false

/-- What answers the call is what its caller wants. -/
def Call.AnsweredFor {α : Type} (c : Call) (answer : Reply → Option α) : Prop :=
  ∀ y, (∀ e, y ≠ .raised e) → c.legacyAnswer y = true → ∃ a, answer y = some a

def leaseIn (s : Process) (operationId : String) : Option DecodeSlotLease :=
  s.shared.scheduler.slotLeases.get? operationId

/-- The state of the operation's lease. -/
def stateIn (s : Process) (operationId : String) : Option LeaseState :=
  (leaseIn s operationId).map (·.state)

def contextIn (s : Process) (operationId : String) : Option PrefixLoadContext :=
  s.shared.coordinator.loads.get? operationId

/-- The slots of all instances. -/
def slotsIn (w : World) : Dict String SlotCount := w.scheduler.decodeSlots

/-- Others leave the lease and the context of the operation alone. -/
structure Spared (operationId : String) (s t : Process) : Prop where
  lease : leaseIn t operationId = leaseIn s operationId
  context : contextIn t operationId = contextIn s operationId

/-- The workers answer or fail in any way; the other tasks spare the operation. -/
def SparesLoad (operationId : String) : Surroundings := fun c s x t =>
  c.legacyAnswer x = true ∧ Spared operationId s t

/-- What `commit_decode_slot` makes of a lease. -/
def DecodeSlotLease.committed (lease : DecodeSlotLease) : DecodeSlotLease :=
  if lease.state = .reserved then { lease with state := .active } else lease

/-- A status was reported as unknown. -/
def UnknownReported (l : List Trip) : Prop :=
  ∃ v ∈ l, v.reply = .prefixed .unknown ∨ v.reply = .mapped .unknown

/-- The slot of a reserved or quarantined lease is given back. -/
structure GivenBack (operationId : String) (lease : DecodeSlotLease) (u t : Process) : Prop where
  held : leaseIn u operationId = some lease
  live : lease.state = .reserved ∨ lease.state = .quarantined
  released : ∃ lease', leaseIn t operationId = some lease' ∧ lease'.state = .released
  credited : slotsIn t.shared = (u.shared.scheduler.creditSlot lease.instanceId).decodeSlots

/--
What a compensation does to a lease, and to the slots.  Every release rests on
visits that prove it.
-/
inductive Compensated (operationId : String) (lease : DecodeSlotLease) (Proves : List Trip → Prop)
    (s : Process) : List Trip → Except Exc CleanupAction → Process → Prop
  | released {l : List Trip} {u t : Process} (hleft : Leaves slotsIn s l u)
      (hback : GivenBack operationId lease u t) (hproof : Proves l)
      (hknown : ¬ UnknownReported l) :
      Compensated operationId lease Proves s l (.ok .aborted) t
  | again {l : List Trip} {t : Process} (hleft : Leaves slotsIn s l t)
      (hlease : leaseIn t operationId = some lease) (hstate : lease.state = .released)
      (hknown : ¬ UnknownReported l) :
      Compensated operationId lease Proves s l (.ok .aborted) t
  | committed {l : List Trip} {t : Process} (hleft : Leaves slotsIn s l t)
      (hlease : leaseIn t operationId = some lease.committed) (hknown : ¬ UnknownReported l) :
      Compensated operationId lease Proves s l (.ok .committed) t
  | quarantined {l : List Trip} {t : Process} (hleft : Leaves slotsIn s l t)
      (hlease : leaseIn t operationId = some { lease with state := .quarantined })
      (hstate : lease.state ≠ .released) :
      Compensated operationId lease Proves s l (.ok .quarantined) t
  | raised {l : List Trip} {t : Process} {e : Exc} (hleft : Leaves slotsIn s l t)
      (hlease : leaseIn t operationId = some lease ∨
        leaseIn t operationId = some lease.committed)
      (hunknown : UnknownReported l → lease.state = .released) :
      Compensated operationId lease Proves s l (.error e) t

section Steps

variable {R : Surroundings} {operationId : String} {lease : DecodeSlotLease} {s t u : Process}
variable {Proves Proves' : List Trip → Prop} {l l₀ : List Trip} {α : Type}
variable {context : PrefixLoadContext}

/-! ## Visits -/

theorem UnknownReported.append (h : UnknownReported (l₀ ++ l)) :
    UnknownReported l₀ ∨ UnknownReported l := by
  obtain ⟨v, hv, hunknown⟩ := h
  rcases List.mem_append.mp hv with hv | hv
  · exact .inl ⟨v, hv, hunknown⟩
  · exact .inr ⟨v, hv, hunknown⟩

theorem unknownReported_single {v : Trip} :
    UnknownReported [v] ↔ v.reply = .prefixed .unknown ∨ v.reply = .mapped .unknown := by
  simp [UnknownReported]

variable {Φ : List Trip → Except Exc Unit → Process → Prop} {answer : Reply → Option α}
  {r : Except Exc CleanupAction} {c : Call} {x : Reply}

/-- Visits before a compensation. -/
theorem Compensated.after (h : Compensated operationId lease Proves u l r t)
    (hleft : Leaves slotsIn s l₀ u) (hknown : ¬ UnknownReported l₀)
    (hproves : Proves l → Proves' (l₀ ++ l)) :
    Compensated operationId lease Proves' s (l₀ ++ l) r t := by
  have hboth (hl : ¬ UnknownReported l) : ¬ UnknownReported (l₀ ++ l) := by
    intro h
    exact h.append.elim hknown hl
  cases h with
  | released hleft' hback hproof hl =>
    exact .released (hleft.append hleft') hback (hproves hproof) (hboth hl)
  | again hleft' hlease hstate hl =>
    exact .again (hleft.append hleft') hlease hstate (hboth hl)
  | committed hleft' hlease hl =>
    exact .committed (hleft.append hleft') hlease (hboth hl)
  | quarantined hleft' hlease hstate =>
    exact .quarantined (hleft.append hleft') hlease hstate
  | raised hleft' hlease hunknown =>
    refine .raised (hleft.append hleft') hlease fun h => ?_
    exact h.append.elim (fun h => absurd h hknown) hunknown

theorem Compensated.mono (h : Compensated operationId lease Proves s l r t)
    (hproves : Proves l → Proves' l) : Compensated operationId lease Proves' s l r t :=
  have hleft : Leaves slotsIn s [] s := rfl
  have hnone : ¬ UnknownReported [] := by simp [UnknownReported]
  h.after hleft hnone hproves

/-- One call: it is answered, or it raises; nothing of the operation changes meanwhile. -/
structure Asks (operationId : String) (lease : DecodeSlotLease) (c : Call)
    (answer : Reply → Option α) (s : Process) (l : List Trip) (r : Except Exc α) (t : Process) :
    Prop where
  left : Leaves slotsIn s l t
  lease : leaseIn t operationId = some lease
  visit : ∃ v : Trip, l = [v] ∧ v.call = c ∧
    ∀ a, r = .ok a → answer v.reply = some a
  raised : ∀ e, r = .error e → ¬ UnknownReported l

theorem understood_of_legacyAnswer (hfit : c.AnsweredFor answer)
    (h : c.legacyAnswer x = true) : Understood true answer x := by
  by_cases hx : ∃ e, x = .raised e
  · obtain ⟨e, rfl⟩ := hx
    exact .inl ⟨e, rfl, by simp⟩
  · have hx' : ∀ e, x ≠ .raised e := fun e he => hx ⟨e, he⟩
    exact .inr ⟨hx', hfit x hx' h⟩

theorem leads_ask (hfit : c.AnsweredFor answer) (hlease : leaseIn s operationId = some lease) :
    Leads (SparesLoad operationId) (Loop.timedCall c answer) s
      (Asks operationId lease c answer s) := by
  change Leads _ (Loop.callIn true c answer) s _
  refine leads_callIn ?_ ?_ ?_ ?_
  · exact fun x t hx => understood_of_legacyAnswer hfit hx.1
  · intro x t a hx ha
    exact ⟨⟨rfl, rfl⟩, hx.2.lease.trans hlease, ⟨_, rfl, rfl, fun b hb => by cases hb; exact ha⟩,
      fun e he => by cases he⟩
  · intro e t hx _
    exact ⟨⟨rfl, rfl⟩, hx.2.lease.trans hlease, ⟨_, rfl, rfl, fun b hb => by cases hb⟩,
      fun _ _ => by simp [unknownReported_single]⟩
  · intro t hx
    exact ⟨⟨rfl, rfl⟩, hx.2.lease.trans hlease, ⟨_, rfl, rfl, fun b hb => by cases hb⟩,
      fun _ _ => by simp [unknownReported_single]⟩

/-! ## Own steps -/

/-- A statement that touches neither leases nor slots. -/
def Harmless (p : Loop Unit) : Prop :=
  ∀ (R : Surroundings) (s : Process) (Φ : List Trip → Except Exc Unit → Process → Prop),
    (∀ t : Process, t.shared.scheduler = s.shared.scheduler → Φ [] (.ok ()) t) → Leads R p s Φ

theorem harmless_ret : Harmless (.ret ()) := fun _ s _ h => h s rfl

theorem harmless_clearPin (operationId : String) : Harmless (Loop.clearPin operationId) :=
  fun _ _ _ h => h _ rfl

theorem Harmless.when {p : Loop Unit} (hp : Harmless p) (b : Bool) : Harmless (Loop.when b p) := by
  intro R s Φ h
  unfold Loop.when
  cases b with
  | true =>
    exact hp R s Φ h
  | false =>
    exact h s rfl

theorem leaseIn_of_scheduler (h : t.shared.scheduler = s.shared.scheduler) :
    leaseIn t operationId = leaseIn s operationId := by
  unfold leaseIn
  rw [h]

theorem slotsIn_of_scheduler (h : t.shared.scheduler = s.shared.scheduler) :
    slotsIn t.shared = slotsIn s.shared := by
  unfold slotsIn
  rw [h]

/-- The method succeeds and changes the instance scheduler, or raises and changes nothing. -/
theorem leads_onScheduler {f : Time → PDScheduler → Except Exc (α × PDScheduler)}
    {Φ : List Trip → Except Exc α → Process → Prop}
    (hok : ∀ a w, f s.shared.now s.shared.scheduler = .ok (a, w) →
      Φ [] (.ok a) (s.update fun x => { x with scheduler := w }))
    (herror : ∀ e, f s.shared.now s.shared.scheduler = .error e → Φ [] (.error e) s) :
    Leads R (Loop.onScheduler f) s Φ := by
  cases hf : f s.shared.now s.shared.scheduler with
  | error e =>
    exact (leads_onScheduler_error hf).mpr (herror e hf)
  | ok r =>
    exact (leads_onScheduler_ok hf).mpr (hok r.1 r.2 hf)

/-- A last own step that touches neither leases nor slots. -/
theorem Compensated.step (h : Compensated operationId lease Proves s l r u)
    (ht : t.shared.scheduler = u.shared.scheduler) :
    Compensated operationId lease Proves s l r t := by
  have hslots := slotsIn_of_scheduler ht
  have hsame : leaseIn t operationId = leaseIn u operationId := leaseIn_of_scheduler ht
  cases h with
  | released hleft hback hproof hknown =>
    refine .released hleft ⟨hback.held, hback.live, ?_, hslots.trans hback.credited⟩ hproof hknown
    rw [hsame]
    exact hback.released
  | again hleft hlease hstate hknown =>
    exact .again (hleft.step hslots) (hsame.trans hlease) hstate hknown
  | committed hleft hlease hknown =>
    exact .committed (hleft.step hslots) (hsame.trans hlease) hknown
  | quarantined hleft hlease hstate =>
    exact .quarantined (hleft.step hslots) (hsame.trans hlease) hstate
  | raised hleft hlease hunknown =>
    rw [← hsame] at hlease
    exact .raised (hleft.step hslots) hlease hunknown

theorem leads_commitSlot (hlease : leaseIn s operationId = some lease)
    (h : ∀ t : Process, leaseIn t operationId = some lease.committed →
      slotsIn t.shared = slotsIn s.shared → Φ [] (.ok ()) t) :
    Leads R (Loop.commitSlot operationId) s Φ := by
  have hget : s.shared.scheduler.slotLeases.get? operationId = some lease := hlease
  refine leads_onScheduler ?_ ?_
  · intro a w hw
    simp only [PDScheduler.commitDecodeSlot, hget, Except.ok.injEq, Prod.mk.injEq, true_and] at hw
    subst hw
    refine h _ ?_ ?_
    · simp only [leaseIn, Sys.update_shared, DecodeSlotLease.committed]
      split
      · simp [PDScheduler.markLease]
      · exact hget
    · simp only [slotsIn, Sys.update_shared]
      split <;> rfl
  · intro e he
    simp [PDScheduler.commitDecodeSlot, hget] at he

theorem leads_quarantineSlot (hlease : leaseIn s operationId = some lease)
    (hok : ∀ t : Process, leaseIn t operationId = some { lease with state := .quarantined } →
      slotsIn t.shared = slotsIn s.shared → t.shared.control = s.shared.control →
      lease.state ≠ .released → Φ [] (.ok ()) t)
    (herror : ∀ e, lease.state = .released → Φ [] (.error e) s) :
    Leads R (Loop.quarantineSlot operationId) s Φ := by
  have hget : s.shared.scheduler.slotLeases.get? operationId = some lease := hlease
  refine leads_onScheduler ?_ ?_
  · intro a w hw
    by_cases hstate : lease.state = .released
    · simp [PDScheduler.quarantineDecodeSlot, hget, hstate] at hw
    simp only [PDScheduler.quarantineDecodeSlot, hget, hstate, if_false, Except.ok.injEq,
      Prod.mk.injEq, true_and] at hw
    subst hw
    refine hok _ ?_ rfl rfl hstate
    simp [leaseIn, PDScheduler.markLease]
  · intro e he
    by_cases hstate : lease.state = .released
    · exact herror e hstate
    · simp [PDScheduler.quarantineDecodeSlot, hget, hstate] at he

theorem slotLeases_creditSlot (instanceId : String) (w : PDScheduler) :
    (w.creditSlot instanceId).slotLeases = w.slotLeases := by
  unfold PDScheduler.creditSlot
  split <;> rfl

theorem decodeSlots_creditSlot_congr (instanceId : String) {w w' : PDScheduler}
    (h : w'.decodeSlots = w.decodeSlots) :
    (w'.creditSlot instanceId).decodeSlots = (w.creditSlot instanceId).decodeSlots := by
  unfold PDScheduler.creditSlot
  rw [h]
  split
  · exact h
  · rfl

/-- What the release of a lease by its state comes to. -/
theorem releaseByState_cases {w w' : PDScheduler} {released : Bool}
    (hget : w.slotLeases.get? operationId = some lease)
    (h : (if (w.slotLeases.get? operationId).any fun lease =>
          decide (lease.state = .quarantined) then
        w.releaseQuarantinedDecodeSlot operationId none none
      else w.releaseDecodeSlot operationId) = .ok (released, w')) :
    (lease.state = .released ∧ w' = w) ∨
      (lease.state = .reserved ∨ lease.state = .quarantined) ∧
        ∃ marked : DecodeSlotLease, marked.state = .released ∧
          w' = PDScheduler.creditSlot lease.instanceId
            { w with slotLeases := w.slotLeases.set operationId marked } := by
  cases hstate : lease.state with
  | reserved =>
    simp only [hget, Option.any_some, hstate, reduceCtorEq, decide_false, Bool.false_eq_true,
      if_false, PDScheduler.releaseDecodeSlot, Except.ok.injEq, Prod.mk.injEq] at h
    exact .inr ⟨.inl rfl, _, rfl, h.2.symm⟩
  | quarantined =>
    simp only [hget, Option.any_some, hstate, decide_true, if_true, reduceCtorEq, if_false,
      PDScheduler.releaseQuarantinedDecodeSlot, PDScheduler.leaseIdMismatch,
      Bool.false_eq_true, Except.ok.injEq, Prod.mk.injEq] at h
    exact .inr ⟨.inr rfl, _, rfl, h.2.symm⟩
  | released =>
    simp only [hget, Option.any_some, hstate, reduceCtorEq, decide_false, Bool.false_eq_true,
      if_false, PDScheduler.releaseDecodeSlot, Except.ok.injEq, Prod.mk.injEq] at h
    exact .inl ⟨rfl, h.2.symm⟩
  | active =>
    simp [hget, hstate, PDScheduler.releaseDecodeSlot] at h

theorem leads_release (hlease : leaseIn s operationId = some lease)
    (hback : ∀ t : Process, GivenBack operationId lease s t → Φ [] (.ok ()) t)
    (hagain : ∀ t : Process, t.shared.scheduler = s.shared.scheduler → lease.state = .released →
      Φ [] (.ok ()) t)
    (herror : ∀ e, Φ [] (.error e) s) :
    Leads R (Loop.releaseReservedOrQuarantined operationId) s Φ := by
  refine Leads.bind (leads_onScheduler (fun _ w hw => ?_) fun e _ => ?_) fun l r t h => h
  · rcases releaseByState_cases hlease hw with ⟨hstate, rfl⟩ | ⟨hlive, marked, hmarked, rfl⟩
    · exact hagain _ rfl hstate
    · refine hback _ ⟨hlease, hlive, ⟨marked, ?_, hmarked⟩, ?_⟩
      · simp [leaseIn, slotLeases_creditSlot]
      · exact decodeSlots_creditSlot_congr _ rfl
  · exact herror e

/-! ## Compensations -/

/-- The source was unpinned. -/
def Unpinned (context : PrefixLoadContext) (l : List Trip) : Prop :=
  ∃ v ∈ l, v.call = .unpinPrefix context.sourceInstance context.operationId ∧ v.reply = .ok

theorem okOnly_eq_some {a : Unit} (h : Reply.okOnly x = some a) : x = .ok := by
  cases x <;> simp_all [Reply.okOnly]

theorem prefixedOnly_eq_some {a : PrefixOperationStatus} (h : Reply.prefixedOnly x = some a) :
    x = .prefixed a := by
  cases x <;> simp_all [Reply.prefixedOnly]

theorem mappedOnly_eq_some {a : MappedTransferStatus} (h : Reply.mappedOnly x = some a) :
    x = .mapped a := by
  cases x <;> simp_all [Reply.mappedOnly]

/-- A call that is answered by nothing but its completion. -/
theorem leads_done (hlease : leaseIn s operationId = some lease)
    (hfit : ∀ y, (∀ e, y ≠ .raised e) → c.legacyAnswer y = true → y = .ok) :
    Leads (SparesLoad operationId) (Loop.timedCall c Reply.okOnly) s
      (Asks operationId lease c Reply.okOnly s) :=
  leads_ask (fun y hne hy => ⟨(), by rw [hfit y hne hy]; rfl⟩) hlease

theorem Asks.compensated_of_raised {e : Exc}
    (h : Asks operationId lease c answer s l (.error e) t) :
    Compensated operationId lease Proves s l (.error e) t :=
  .raised h.left (.inl h.lease) fun hl => absurd hl (h.raised e rfl)

theorem leads_compensated (hlease : leaseIn s context.operationId = some lease)
    {unpinned : Loop Unit} (hunpinned : Harmless unpinned) :
    Leads (SparesLoad context.operationId) (Loop.compensated context unpinned) s
      (Compensated context.operationId lease (Unpinned context) s) := by
  unfold Loop.compensated
  refine Leads.bind (leads_done hlease ?_) fun l r u hu => ?_
  · intro y hne hy
    cases y <;> simp_all [Call.legacyAnswer]
  cases r with
  | error e =>
    exact hu.compensated_of_raised
  | ok a =>
    obtain ⟨v, rfl, hcall, hreply⟩ := hu.visit
    have hok : v.reply = .ok := okOnly_eq_some (hreply a rfl)
    have hknown : ¬ UnknownReported [v] := by
      simp [unknownReported_single, hok]
    refine leads_bind.mpr (hunpinned _ _ _ fun t ht => ?_)
    have hlease' : leaseIn t context.operationId = some lease :=
      (leaseIn_of_scheduler ht).trans hu.lease
    have hleft : Leaves slotsIn s [v] t := hu.left.step (slotsIn_of_scheduler ht)
    refine leads_bind.mpr (leads_release hlease' ?_ ?_ ?_)
    · intro t' hback
      exact .released hleft hback ⟨v, by simp, hcall, hok⟩ hknown
    · intro t' ht' hstate
      exact .again (hleft.step (slotsIn_of_scheduler ht'))
        ((leaseIn_of_scheduler ht').trans hlease') hstate hknown
    · intro e
      exact .raised hleft (.inl hlease') fun h => absurd h hknown

theorem leads_quarantined (hlease : leaseIn u operationId = some lease)
    (hleft : Leaves slotsIn s l₀ u) :
    Leads R (Loop.quarantined operationId) u fun l r t =>
      Compensated operationId lease Proves s (l₀ ++ l) r t := by
  unfold Loop.quarantined
  refine leads_bind.mpr (leads_quarantineSlot hlease ?_ ?_)
  · intro t ht hslots _ hstate
    refine .quarantined ?_ ht hstate
    simpa using hleft.step hslots
  · intro e hstate
    refine .raised ?_ (.inl hlease) fun _ => hstate
    simpa using hleft

/-- The target was reported aborted. -/
def TargetAborted (context : PrefixLoadContext) (l : List Trip) : Prop :=
  ∃ v ∈ l, v.call = .prefixStatus context.targetInstance context.operationId ∧
    v.reply = .prefixed .aborted

/-- The target was reported prepared and then aborted. -/
def TargetUndone (context : PrefixLoadContext) (l : List Trip) : Prop :=
  ∃ l₁ v l₂, l = l₁ ++ v :: l₂ ∧
    v.call = .prefixStatus context.targetInstance context.operationId ∧
    v.reply = .prefixed .prepared ∧
    ∃ v' ∈ l₂, v'.call = .abortPrefix context.targetInstance context.operationId ∧
      v'.reply = .ok

/-- What a release by the state of the target rests on. -/
structure TargetProof (context : PrefixLoadContext) (fenced : Bool) (l : List Trip) : Prop where
  unpinned : Unpinned context l
  gone : TargetAborted context l ∨ TargetUndone context l ∧ fenced = true

theorem Unpinned.append (h : Unpinned context l) : Unpinned context (l₀ ++ l) := by
  obtain ⟨v, hv, h⟩ := h
  exact ⟨v, List.mem_append_right l₀ hv, h⟩

theorem TargetAborted.append (h : TargetAborted context l) : TargetAborted context (l₀ ++ l) := by
  obtain ⟨v, hv, h⟩ := h
  exact ⟨v, List.mem_append_right l₀ hv, h⟩

theorem TargetUndone.append (h : TargetUndone context l) : TargetUndone context (l₀ ++ l) := by
  obtain ⟨l₁, v, l₂, rfl, h⟩ := h
  exact ⟨l₀ ++ l₁, v, l₂, (List.append_assoc l₀ l₁ (v :: l₂)).symm, h⟩

theorem leads_cleanupByTarget (hlease : leaseIn s context.operationId = some lease)
    (fenced : Bool) {unpinned : Loop Unit} (hunpinned : Harmless unpinned) :
    Leads (SparesLoad context.operationId) (Loop.cleanupByTarget context fenced unpinned) s
      (Compensated context.operationId lease (TargetProof context fenced) s) := by
  unfold Loop.cleanupByTarget
  refine Leads.bind (leads_ask ?_ hlease) fun l r u hu => ?_
  · intro y hne hy
    cases y <;> simp_all [Call.legacyAnswer, Reply.prefixedOnly]
  cases r with
  | error e =>
    exact hu.compensated_of_raised
  | ok target =>
    obtain ⟨v, rfl, hcall, hreply⟩ := hu.visit
    have hstatus : v.reply = .prefixed target := prefixedOnly_eq_some (hreply target rfl)
    have hknown : target ≠ .unknown → ¬ UnknownReported [v] := by
      intro h
      simpa [unknownReported_single, hstatus] using h
    cases target with
    | committed =>
      refine leads_bind.mpr (leads_commitSlot hu.lease fun t ht hslots => ?_)
      refine Leads.bind (leads_done ht ?_) fun l' r' u' hu' => ?_
      · intro y hne hy
        cases y <;> simp_all [Call.legacyAnswer]
      have hleft : Leaves slotsIn s ([v] ++ l') u' := (hu.left.step hslots).append hu'.left
      cases r' with
      | error e =>
        refine .raised hleft (.inr hu'.lease) fun h => ?_
        exact h.append.elim (absurd · (hknown (by simp))) (absurd · (hu'.raised e rfl))
      | ok a =>
        obtain ⟨v', rfl, -, hreply'⟩ := hu'.visit
        have hok : v'.reply = .ok := okOnly_eq_some (hreply' a rfl)
        refine leads_bind.mpr (hunpinned _ _ _ fun t' ht' => ?_)
        refine .committed (hleft.step (slotsIn_of_scheduler ht'))
          ((leaseIn_of_scheduler ht').trans hu'.lease) fun h => ?_
        refine h.append.elim (hknown (by simp)) ?_
        simp [unknownReported_single, hok]
    | unknown =>
      exact leads_quarantined hu.lease hu.left
    | prepared =>
      cases fenced with
      | false =>
        exact leads_quarantined hu.lease hu.left
      | true =>
        refine Leads.bind (leads_done hu.lease ?_) fun l' r' u' hu' => ?_
        · intro y hne hy
          cases y <;> simp_all [Call.legacyAnswer]
        cases r' with
        | error e =>
          refine .raised (hu.left.append hu'.left) (.inl hu'.lease) fun h => ?_
          exact h.append.elim (absurd · (hknown (by simp))) (absurd · (hu'.raised e rfl))
        | ok a =>
          obtain ⟨v', rfl, hcall', hreply'⟩ := hu'.visit
          have hok : v'.reply = .ok := okOnly_eq_some (hreply' a rfl)
          simp only [After]
          refine (leads_compensated hu'.lease hunpinned).mono fun l'' r'' t ht => ?_
          have hl : [v] ++ ([v'] ++ l'') = ([v] ++ [v']) ++ l'' :=
            (List.append_assoc [v] [v'] l'').symm
          rw [hl]
          refine ht.after (hu.left.append hu'.left) ?_ fun hun => ?_
          · intro h
            refine h.append.elim (hknown (by simp)) ?_
            simp [unknownReported_single, hok]
          · exact ⟨hun.append, .inr ⟨⟨[], v, v' :: l'', rfl, hcall, hstatus, v',
              List.mem_cons_self, hcall', hok⟩, rfl⟩⟩
    | aborted =>
      simp only [After]
      refine (leads_compensated hu.lease hunpinned).mono fun l' r' t ht => ?_
      refine ht.after hu.left (hknown (by simp)) fun hun => ?_
      exact ⟨hun.append, .inl ⟨v, by simp, hcall, hstatus⟩⟩

/-- The mapped transfer was reported with a status. -/
def TransferReported (context : PrefixLoadContext) (status : MappedTransferStatus)
    (l : List Trip) : Prop :=
  ∃ v ∈ l, v.call = .abortMapped context.operationId ∧ v.reply = .mapped status

/-- What a release past preparation rests on; only a remote load has a mapped transfer. -/
structure MappedProof (context : PrefixLoadContext) (localReuse : Bool) (l : List Trip) :
    Prop where
  unpinned : Unpinned context l
  gone : TargetAborted context l ∨ TargetUndone context l
  stopped : localReuse = false → ∃ status, TransferReported context status l ∧
    status ≠ .unknown ∧ (status = .fenced ∨ status = .completed ∨ TargetAborted context l)

theorem leads_cleanupMapped (hlease : leaseIn s context.operationId = some lease)
    (localReuse : Bool) :
    Leads (SparesLoad context.operationId) (Loop.cleanupMappedOperation context localReuse) s
      (Compensated context.operationId lease (MappedProof context localReuse) s) := by
  unfold Loop.cleanupMappedOperation
  cases localReuse with
  | true =>
    refine (leads_cleanupByTarget hlease true harmless_ret).mono fun l r t h => ?_
    exact h.mono fun hproof => ⟨hproof.unpinned, hproof.gone.imp_right And.left, by simp⟩
  | false =>
    refine Leads.bind (leads_ask ?_ hlease) fun l r u hu => ?_
    · intro y hne hy
      cases y <;> simp_all [Call.legacyAnswer, Reply.mappedOnly]
    cases r with
    | error e =>
      exact hu.compensated_of_raised
    | ok transfer =>
      obtain ⟨v, rfl, hcall, hreply⟩ := hu.visit
      have hstatus : v.reply = .mapped transfer := mappedOnly_eq_some (hreply transfer rfl)
      by_cases hunknown : transfer = .unknown
      · simp only [After, hunknown, if_true]
        exact leads_quarantined hu.lease hu.left
      simp only [After, hunknown, if_false]
      refine (leads_cleanupByTarget hu.lease _ harmless_ret).mono fun l' r' t h => ?_
      refine h.after hu.left ?_ fun hproof => ?_
      · simp [unknownReported_single, hstatus, hunknown]
      · refine ⟨hproof.unpinned.append, ?_, fun _ => ⟨transfer, ?_, hunknown, ?_⟩⟩
        · exact hproof.gone.imp .append fun h => h.1.append
        · exact ⟨v, by simp, hcall, hstatus⟩
        · rcases hproof.gone with hgone | ⟨-, hfenced⟩
          · exact .inr (.inr hgone.append)
          · exact (of_decide_eq_true hfenced).imp_right .inl

/-- The load has attempted to prepare its target. -/
def LoadStage.prepares : LoadStage → Bool
  | .started => false
  | .resolving => false
  | .resolved => false
  | _ => true

/-- The load has gone past the preparation of its target. -/
def LoadStage.copies : LoadStage → Bool
  | .transferring => true
  | .committing => true
  | .committed => true
  | _ => false

/-- What the release of a load rests on, by its stage and mode. -/
structure ReleaseProof (context : PrefixLoadContext) (l : List Trip) : Prop where
  unpinned : Unpinned context l
  gone : context.stage.prepares = true → TargetAborted context l ∨ TargetUndone context l
  stopped : context.stage.copies = true → context.localReuse = some false →
    ∃ status, TransferReported context status l ∧ status ≠ .unknown ∧
      (status = .fenced ∨ status = .completed ∨ TargetAborted context l)

theorem leads_cleanupLoadContext (hcontext : contextIn s context.operationId = some context)
    (hlease : leaseIn s context.operationId = some lease) :
    Leads (SparesLoad context.operationId) (Loop.cleanupLoadContext context.operationId) s
      (Compensated context.operationId lease (ReleaseProof context) s) := by
  have hget : s.shared.coordinator.loads.get? context.operationId = some context := hcontext
  have hassert : Compensated context.operationId lease (ReleaseProof context) s []
      (.error (.assertion "")) s :=
    .raised rfl (.inl hlease) (by simp [UnknownReported])
  have hearly (hstage : context.stage.prepares = false) :
      Leads (SparesLoad context.operationId) (Loop.compensated context (.ret ())) s
        (Compensated context.operationId lease (ReleaseProof context) s) := by
    have hcopies : context.stage.copies = false := by
      cases h : context.stage <;> simp_all [LoadStage.prepares, LoadStage.copies]
    refine (leads_compensated hlease harmless_ret).mono fun l r t h => ?_
    exact h.mono fun hun => ⟨hun, by simp [hstage], by simp [hcopies]⟩
  have hprepared (hstage : context.stage.copies = false) :
      Leads (SparesLoad context.operationId)
        (Loop.cleanupByTarget context true (Loop.clearPin context.operationId)) s
        (Compensated context.operationId lease (ReleaseProof context) s) := by
    refine (leads_cleanupByTarget hlease true (harmless_clearPin _)).mono fun l r t h => ?_
    exact h.mono fun hproof =>
      ⟨hproof.unpinned, fun _ => hproof.gone.imp_right And.left, by simp [hstage]⟩
  have hcopied (localReuse : Bool) (hmode : context.localReuse = some localReuse) :
      Leads (SparesLoad context.operationId)
        (do
          let action ← Loop.cleanupMappedOperation context localReuse
          Loop.when (decide (action ≠ .quarantined)) (Loop.clearPin context.operationId)
          return action : Loop CleanupAction) s
        (Compensated context.operationId lease (ReleaseProof context) s) := by
    refine Leads.bind (leads_cleanupMapped hlease localReuse) fun l r u hu => ?_
    have hproof : Compensated context.operationId lease (ReleaseProof context) s l r u := by
      refine hu.mono fun h => ⟨h.unpinned, fun _ => h.gone, fun _ hremote => ?_⟩
      rw [hmode] at hremote
      exact h.stopped (Option.some.inj hremote)
    cases r with
    | error e =>
      exact hproof
    | ok action =>
      refine leads_bind.mpr ((harmless_clearPin _).when _ _ _ _ fun t ht => ?_)
      simpa [After] using hproof.step ht
  unfold Loop.cleanupLoadContext
  refine leads_bind.mpr ?_
  simp only [leads_read, After, hget, List.nil_append]
  cases hstage : context.stage with
  | started =>
    exact hearly (by simp [hstage, LoadStage.prepares])
  | resolving =>
    exact hearly (by simp [hstage, LoadStage.prepares])
  | resolved =>
    exact hearly (by simp [hstage, LoadStage.prepares])
  | preparing =>
    cases hmode : context.localReuse with
    | none =>
      exact hassert
    | some localReuse =>
      exact hprepared (by simp [hstage, LoadStage.copies])
  | prepared =>
    cases hmode : context.localReuse with
    | none =>
      exact hassert
    | some localReuse =>
      exact hprepared (by simp [hstage, LoadStage.copies])
  | _ =>
    cases hmode : context.localReuse with
    | none =>
      exact hassert
    | some localReuse =>
      exact hcopied localReuse hmode

/-! ## Attempted attempts -/

/-- One attempt of the supervisor: the compensation returns, or it raises and the slot of a lease
that is not released is quarantined, unless the attempt is cancelled. -/
inductive Attempted (operationId : String) (lease : DecodeSlotLease) (Proves : List Trip → Prop)
    (s : Process) : List Trip → Except Exc (Option CleanupAction) → Process → Prop
  | returned {l : List Trip} {action : CleanupAction} {t : Process}
      (h : Compensated operationId lease Proves s l (.ok action) t) :
      Attempted operationId lease Proves s l (.ok (some action)) t
  | failed {l : List Trip} {t : Process} {lease' : DecodeSlotLease} (hleft : Leaves slotsIn s l t)
      (hlease : leaseIn t operationId = some lease')
      (hstate : lease' = { lease with state := .quarantined } ∧ lease.state ≠ .released ∨
        lease' = lease ∧ lease.state = .released)
      (hunknown : UnknownReported l → lease.state = .released) :
      Attempted operationId lease Proves s l (.ok none) t
  | cancelled {l : List Trip} {t : Process} {lease' : DecodeSlotLease} {e : Exc}
      (hleft : Leaves slotsIn s l t) (hlease : leaseIn t operationId = some lease')
      (hstate : lease' = { lease with state := .quarantined } ∧ lease.state ≠ .released ∨
        lease' = lease ∨ lease' = lease.committed)
      (hunknown : UnknownReported l → lease.state = .released) :
      Attempted operationId lease Proves s l (.error e) t

theorem DecodeSlotLease.committed_state (lease : DecodeSlotLease) :
    lease.committed.state = .released ↔ lease.state = .released := by
  unfold committed
  split <;> simp_all

theorem DecodeSlotLease.quarantined_committed (lease : DecodeSlotLease) :
    { lease.committed with state := .quarantined } = { lease with state := .quarantined } := by
  unfold committed
  split <;> rfl

theorem leads_cleanupPause
    (hok : ∀ v t, Spared operationId s t → v = ⟨.cleanupPause operationId, .ok, s, t⟩ →
      Φ [v] (.ok ()) t)
    (hcancel : ∀ v t, Spared operationId s t →
      v = ⟨.cleanupPause operationId, .raised .cancelled, s, t⟩ →
      Φ [v] (.error .cancelled) (t.update cancelNoted)) :
    Leads (SparesLoad operationId) (Loop.pause (.cleanupPause operationId)) s Φ := by
  intro x t hx
  cases x with
  | ok =>
    exact hok _ t hx.2 rfl
  | raised e =>
    have he : e = .cancelled := by
      simpa [Call.legacyAnswer] using hx.1
    subst he
    exact hcancel _ t hx.2 rfl
  | _ =>
    simp [SparesLoad, Call.legacyAnswer] at hx

/-- The handler of an attempt that raised, in the state that the attempt has left. -/
theorem leads_handler {lease' : DecodeSlotLease} (hlease : leaseIn u operationId = some lease')
    (hstep : lease' = lease ∨ lease' = lease.committed)
    (hleft : Leaves slotsIn s l₀ u) (hunknown : UnknownReported l₀ → lease.state = .released) :
    Leads (SparesLoad operationId)
      (do
        let w ← Prog.read
        Loop.when ((w.scheduler.slotLeases.get? operationId).any fun lease =>
            decide (lease.state ≠ .released) && decide (lease.state ≠ .quarantined))
          (Loop.quarantineSlot operationId)
        Loop.pause (.cleanupPause operationId)
        return none : Loop (Option CleanupAction)) u fun l r t =>
      Attempted operationId lease Proves s (l₀ ++ l) r t := by
  have hpause (t : Process) {lease'' : DecodeSlotLease}
      (hlease'' : leaseIn t operationId = some lease'')
      (hslots : slotsIn t.shared = slotsIn u.shared)
      (hstate : lease'' = { lease with state := .quarantined } ∧ lease.state ≠ .released ∨
        lease'' = lease ∧ lease.state = .released) :
      Leads (SparesLoad operationId) (do
        Loop.pause (.cleanupPause operationId)
        return none : Loop (Option CleanupAction)) t fun l r t =>
      Attempted operationId lease Proves s (l₀ ++ l) r t := by
    have hunknown' {v : Trip} (hv : ¬ UnknownReported [v]) :
        UnknownReported (l₀ ++ [v]) → lease.state = .released :=
      fun h => h.append.elim hunknown (absurd · hv)
    refine leads_bind.mpr (leads_cleanupPause ?_ ?_)
    · rintro v t' ht' rfl
      refine .failed ((hleft.step hslots).append ⟨rfl, rfl⟩) (ht'.lease.trans hlease'') hstate
        (hunknown' ?_)
      simp [unknownReported_single]
    · rintro v t' ht' rfl
      refine .cancelled ((hleft.step hslots).append ⟨rfl, rfl⟩) (ht'.lease.trans hlease'')
        (hstate.imp_right fun h => .inl h.1) (hunknown' ?_)
      simp [unknownReported_single]
  have hsame : lease'.state = .released ↔ lease.state = .released := by
    rcases hstep with rfl | rfl
    · rfl
    · exact lease.committed_state
  have hmarked : { lease' with state := .quarantined } =
      ({ lease with state := .quarantined } : DecodeSlotLease) := by
    rcases hstep with rfl | rfl
    · rfl
    · exact lease.quarantined_committed
  have hget : u.shared.scheduler.slotLeases.get? operationId = some lease' := hlease
  refine leads_bind.mpr ?_
  simp only [leads_read, After, hget, Option.any_some, List.nil_append]
  cases hstate : lease'.state with
  | released =>
    have hreleased := hsame.mp hstate
    have hkept : lease' = lease := by
      rcases hstep with rfl | rfl
      · rfl
      · simp [DecodeSlotLease.committed, hreleased]
    simp only [ne_eq, not_true, decide_false, Bool.false_and, Loop.when, Bool.false_eq_true,
      if_false]
    exact hpause u hlease rfl (.inr ⟨hkept, hreleased⟩)
  | quarantined =>
    simp only [ne_eq, not_true, decide_false, Bool.and_false, Loop.when, Bool.false_eq_true,
      if_false]
    refine hpause u hlease rfl (.inl ⟨?_, fun h => ?_⟩)
    · rw [← hmarked, ← hstate]
    · simp [hsame.mpr h] at hstate
  | _ =>
    refine leads_bind.mpr (leads_quarantineSlot hlease ?_ ?_)
    · intro t ht hslots _ hlive
      exact hpause t ht hslots (.inl ⟨hmarked, fun h => hlive (hsame.mpr h)⟩)
    · intro e he
      simp [hstate] at he

/-- An attempt with the legacy client. -/
theorem leads_cleanupAttempt {cfg : Settings} (hcfg : cfg.network = false)
    (hcontext : contextIn s context.operationId = some context)
    (hlease : leaseIn s context.operationId = some lease) :
    Leads (SparesLoad context.operationId) (Loop.cleanupAttempt cfg context.operationId) s
      (Attempted context.operationId lease (ReleaseProof context) s) := by
  unfold Loop.cleanupAttempt Loop.exceptException Loop.waitFor
  rw [leads_rescue]
  refine leads_bind.mpr ?_
  simp only [hcfg, Bool.false_eq_true, if_false]
  rw [leads_rescue]
  refine (leads_cleanupLoadContext hcontext hlease).mono fun l r u h => ?_
  cases r with
  | ok action =>
    simpa [Handled, After] using Attempted.returned h
  | error e =>
    cases h with
    | raised hleft hlease' hunknown =>
      obtain ⟨lease', hlease', hstep⟩ : ∃ lease', leaseIn u context.operationId = some lease' ∧
          (lease' = lease ∨ lease' = lease.committed) :=
        hlease'.elim (fun h => ⟨_, h, .inl rfl⟩) fun h => ⟨_, h, .inr rfl⟩
      have hhandled := @leads_handler _ _ s u (ReleaseProof context) l _ hlease' hstep hleft
        hunknown
      by_cases hdeadline : e = .deadline
      · simpa [Handled, After, hdeadline, Exc.isException] using hhandled
      by_cases hexception : e.isException = true
      · simpa [Handled, After, hdeadline, hexception] using hhandled
      have hend : Attempted context.operationId lease (ReleaseProof context) s l
          (.error e) u :=
        .cancelled hleft hlease' (.inr hstep) hunknown
      simpa [Handled, After, hdeadline, hexception] using hend

/-! ## The plan of a load -/

/-- The context of the operation, up to the source pin. -/
def Planned (context : PrefixLoadContext) (s : Process) : Prop :=
  ∃ pinned, contextIn s context.operationId = some { context with sourcePinned := pinned }

section Planning

variable {I : Process → Prop}

theorem upholds_timedCall {c : Call} {answer : Reply → Option α}
    (hI : ∀ s t, I s → Spared operationId s t → I t) (hnoted : ∀ s, I s → I (s.update cancelNoted))
    (hfit : c.AnsweredFor answer) :
    Upholds (SparesLoad operationId) I (Loop.timedCall c answer) := by
  change Upholds _ _ (Loop.callIn true c answer)
  refine upholds_callIn (fun _ _ _ hx => understood_of_legacyAnswer hfit hx.1) ?_ hnoted
  exact fun s x t hs hx => hI s t hs hx.2

theorem upholds_onScheduler {f : Time → PDScheduler → Except Exc (α × PDScheduler)}
    (hI : ∀ s t : Process, I s → t.shared.coordinator = s.shared.coordinator → I t) :
    Upholds R I (Loop.onScheduler f) := by
  intro s hs
  exact leads_onScheduler (fun a w _ => ⟨by simp, hI _ _ hs rfl⟩) fun e _ => ⟨by simp, hs⟩

end Planning

theorem planned_of_coordinator (s t : Process) (hs : Planned context s)
    (h : t.shared.coordinator = s.shared.coordinator) : Planned context t := by
  obtain ⟨pinned, hs⟩ := hs
  refine ⟨pinned, ?_⟩
  unfold contextIn at *
  rw [h, hs]

theorem planned_of_spared (s t : Process) (hs : Planned context s)
    (h : Spared context.operationId s t) : Planned context t := by
  obtain ⟨pinned, hs⟩ := hs
  exact ⟨pinned, h.context.trans hs⟩

theorem planned_timedCall (hfit : c.AnsweredFor answer) :
    Upholds (SparesLoad context.operationId) (Planned context) (Loop.timedCall c answer) :=
  upholds_timedCall planned_of_spared (fun s hs => planned_of_coordinator s _ hs rfl) hfit

theorem planned_done (hfit : ∀ y, (∀ e, y ≠ .raised e) → c.legacyAnswer y = true → y = .ok) :
    Upholds (SparesLoad context.operationId) (Planned context) (Loop.timedCall c Reply.okOnly) :=
  planned_timedCall fun y hne hy => ⟨(), by rw [hfit y hne hy]; rfl⟩

theorem planned_onScheduler {f : Time → PDScheduler → Except Exc (α × PDScheduler)} :
    Upholds R (Planned context) (Loop.onScheduler f) :=
  upholds_onScheduler planned_of_coordinator

theorem planned_clearPin :
    Upholds R (Planned context) (Loop.clearPin context.operationId) := by
  rintro s ⟨pinned, hs⟩
  refine ⟨by simp, false, ?_⟩
  have hget : s.shared.coordinator.loads.get? context.operationId =
      some { context with sourcePinned := pinned } := hs
  simp [contextIn, hget]

theorem planned_when {p : Loop Unit} (hp : Upholds R (Planned context) p) (b : Bool) :
    Upholds R (Planned context) (Loop.when b p) := by
  unfold Loop.when
  split
  · exact hp
  · exact Upholds.ret ()

theorem planned_unpin (source : String) :
    Upholds (SparesLoad context.operationId) (Planned context)
      (Loop.unpinPrefix source context.operationId) :=
  planned_done fun y hne hy => by cases y <;> simp_all [Call.legacyAnswer]

theorem planned_quarantineSlot :
    Upholds R (Planned context) (Loop.quarantineSlot operationId) :=
  planned_onScheduler

theorem planned_release :
    Upholds R (Planned context) (Loop.releaseReservedOrQuarantined operationId) := by
  unfold Loop.releaseReservedOrQuarantined
  exact Upholds.bind planned_onScheduler fun _ => Upholds.ret ()

theorem planned_quarantined : Upholds R (Planned context) (Loop.quarantined operationId) := by
  unfold Loop.quarantined
  exact Upholds.bind planned_quarantineSlot fun _ => Upholds.ret _

section Compensating

variable {context' : PrefixLoadContext} {unpinned : Loop Unit}

theorem planned_compensated (hop : context'.operationId = context.operationId)
    (hunpinned : Upholds (SparesLoad context.operationId) (Planned context) unpinned) :
    Upholds (SparesLoad context.operationId) (Planned context)
      (Loop.compensated context' unpinned) := by
  unfold Loop.compensated
  rw [hop]
  exact Upholds.bind (planned_unpin _) fun _ => Upholds.bind hunpinned fun _ =>
    Upholds.bind planned_release fun _ => Upholds.ret _

theorem planned_cleanupByTarget (hop : context'.operationId = context.operationId) (fenced : Bool)
    (hunpinned : Upholds (SparesLoad context.operationId) (Planned context) unpinned) :
    Upholds (SparesLoad context.operationId) (Planned context)
      (Loop.cleanupByTarget context' fenced unpinned) := by
  unfold Loop.cleanupByTarget
  refine Upholds.bind (planned_timedCall ?_) fun target => ?_
  · intro y hne hy
    cases y <;> simp_all [Call.legacyAnswer, Reply.prefixedOnly]
  cases target with
  | committed =>
    rw [hop]
    exact Upholds.bind planned_onScheduler fun _ => Upholds.bind (planned_unpin _) fun _ =>
      Upholds.bind hunpinned fun _ => Upholds.ret _
  | unknown =>
    exact planned_quarantined
  | prepared =>
    cases fenced with
    | false =>
      exact planned_quarantined
    | true =>
      refine Upholds.bind (planned_done ?_) fun _ => planned_compensated hop hunpinned
      intro y hne hy
      cases y <;> simp_all [Call.legacyAnswer]
  | aborted =>
    exact planned_compensated hop hunpinned

theorem planned_cleanupMapped (hop : context'.operationId = context.operationId)
    (localReuse : Bool) :
    Upholds (SparesLoad context.operationId) (Planned context)
      (Loop.cleanupMappedOperation context' localReuse) := by
  unfold Loop.cleanupMappedOperation
  cases localReuse with
  | true =>
    exact planned_cleanupByTarget hop true (Upholds.ret ())
  | false =>
    refine Upholds.bind (planned_timedCall ?_) fun transfer => ?_
    · intro y hne hy
      cases y <;> simp_all [Call.legacyAnswer, Reply.mappedOnly]
    split
    · exact planned_quarantined
    · exact planned_cleanupByTarget hop _ (Upholds.ret ())

end Compensating

theorem planned_cleanupLoadContext :
    Upholds (SparesLoad context.operationId) (Planned context)
      (Loop.cleanupLoadContext context.operationId) := by
  rintro s ⟨pinned, hs⟩
  have hget : s.shared.coordinator.loads.get? context.operationId =
      some { context with sourcePinned := pinned } := hs
  unfold Loop.cleanupLoadContext
  refine leads_bind.mpr ?_
  simp only [leads_read, After, hget, List.nil_append]
  have hplanned : Planned context s := ⟨pinned, hs⟩
  split
  · exact planned_compensated rfl (Upholds.ret ()) s hplanned
  · exact planned_compensated rfl (Upholds.ret ()) s hplanned
  · exact planned_compensated rfl (Upholds.ret ()) s hplanned
  · exact Upholds.raise _ s hplanned
  · exact planned_cleanupByTarget rfl true planned_clearPin s hplanned
  · exact planned_cleanupByTarget rfl true planned_clearPin s hplanned
  · exact Upholds.bind (planned_cleanupMapped rfl _) (fun _ =>
      Upholds.bind (planned_when planned_clearPin _) fun _ => Upholds.ret _) s hplanned

theorem planned_cleanupAttempt {cfg : Settings} (hcfg : cfg.network = false) :
    Upholds (SparesLoad context.operationId) (Planned context)
      (Loop.cleanupAttempt cfg context.operationId) := by
  unfold Loop.cleanupAttempt Loop.exceptException Loop.waitFor
  simp only [hcfg, Bool.false_eq_true, if_false]
  refine Upholds.rescue (Upholds.bind (Upholds.rescue planned_cleanupLoadContext ?_)
    fun _ => Upholds.ret _) ?_
  · intro e q hq
    split at hq
    · cases hq
      exact Upholds.raise _
    · cases hq
  · intro e q hq
    split at hq
    · cases hq
      refine Upholds.bind Upholds.read fun w => Upholds.bind
        (planned_when planned_quarantineSlot _) fun _ => Upholds.bind ?_ fun _ => Upholds.ret _
      intro s hs
      refine leads_cleanupPause ?_ ?_
      · rintro v t ht rfl
        exact ⟨by simpa using hs, planned_of_spared s t hs ht⟩
      · rintro v t ht rfl
        exact ⟨by simpa using hs, planned_of_coordinator t _ (planned_of_spared s t hs ht) rfl⟩
    · cases hq

/-! ## Loads -/

/-- The context of a load that follows a decision; `planned` loads know their mode. -/
structure Follows (decision : CachedPrefixDecision) (operationId : String) (planned : Bool)
    (context : PrefixLoadContext) : Prop where
  operationId : context.operationId = operationId
  source : context.sourceInstance = decision.sourceInstance
  target : context.targetInstance = decision.decodeInstance
  mode : planned = true ∨ context.stage.prepares = true →
    context.localReuse = some (decide (decision.sourceInstance = decision.decodeInstance))

/-- The load has left the lease alone, and its context follows the decision. -/
structure Loading (decision : CachedPrefixDecision) (operationId : String)
    (held : Option DecodeSlotLease) (planned : Bool) (s : Process) : Prop where
  lease : leaseIn s operationId = held
  context : ∃ context, contextIn s operationId = some context ∧
    Follows decision operationId planned context

section Loads

variable {decision : CachedPrefixDecision} {held : Option DecodeSlotLease} {planned : Bool}

theorem Follows.weaken (h : Follows decision operationId true context) :
    Follows decision operationId false context :=
  ⟨h.operationId, h.source, h.target, fun _ => h.mode (.inl rfl)⟩

theorem Loading.weaken (h : Loading decision operationId held true s) :
    Loading decision operationId held false s := by
  obtain ⟨hlease, context, hcontext, hfollows⟩ := h
  exact ⟨hlease, context, hcontext, hfollows.weaken⟩

theorem loading_of_spared (s t : Process) (h : Loading decision operationId held planned s)
    (hspared : Spared operationId s t) : Loading decision operationId held planned t := by
  obtain ⟨hlease, context, hcontext, hfollows⟩ := h
  exact ⟨hspared.lease.trans hlease, context, hspared.context.trans hcontext, hfollows⟩

theorem loading_timedCall {c : Call} {answer : Reply → Option α} (hfit : c.AnsweredFor answer) :
    Upholds (SparesLoad operationId) (Loading decision operationId held planned)
      (Loop.timedCall c answer) :=
  upholds_timedCall loading_of_spared (fun _ hs => ⟨hs.lease, hs.context⟩) hfit

/-- An assignment to the context. -/
theorem leads_onLoad (planned' : Bool) {f : PrefixLoadContext → PrefixLoadContext}
    {Φ : List Trip → Except Exc Unit → Process → Prop}
    (hs : Loading decision operationId held planned s)
    (hf : ∀ x, Follows decision operationId planned x →
      Follows decision operationId planned' (f x))
    (h : ∀ t, Loading decision operationId held planned' t → Φ [] (.ok ()) t) :
    Leads R (Loop.onLoad operationId f) s Φ := by
  obtain ⟨hlease, context, hcontext, hfollows⟩ := hs
  have hget : s.shared.coordinator.loads.get? operationId = some context := hcontext
  refine h _ ⟨hlease, f context, ?_, hf context hfollows⟩
  simp [contextIn, hget]

theorem loading_setStage (stage : LoadStage) :
    Upholds R (Loading decision operationId held true) (Loop.setStage operationId stage) := by
  intro s hs
  refine leads_onLoad true hs (fun x hx => ?_) fun t ht => ⟨by simp, ht⟩
  exact ⟨hx.operationId, hx.source, hx.target, fun _ => hx.mode (.inl rfl)⟩

theorem loading_transferStage :
    Upholds (SparesLoad operationId) (Loading decision operationId held true)
      (Loop.transferStage false operationId decision) := by
  unfold Loop.transferStage Loop.transferCachedPrefix
  split
  · exact Upholds.ret ()
  refine Upholds.bind (loading_setStage _) fun _ => Upholds.bind (loading_timedCall ?_) ?_
  · intro y hne hy
    cases y <;> simp_all [Call.legacyAnswer, Reply.mappedOnly]
  · intro transfer
    split
    · exact Upholds.raise _
    · exact Upholds.ret ()

/-- However a load stops, the lease is as it was and the context follows the decision. -/
theorem leads_load {epoch : String} (hs : Loading decision operationId held false s) :
    Leads (SparesLoad operationId) (Loop.loadCachedPrefix false operationId epoch decision) s
      fun _ _ t => Loading decision operationId held false t := by
  unfold Loop.loadCachedPrefix Loop.resolvePrefix Loop.preparePrefix Loop.commitCachedPrefix
  simp only [Bool.false_eq_true, if_false]
  refine leads_bind.mpr (leads_onLoad false hs ?_ fun t ht => ?_)
  · intro x hx
    exact ⟨hx.operationId, hx.source, hx.target, by simp [LoadStage.prepares]⟩
  refine Leads.bind (loading_timedCall ?_ t ht) fun l r u hu => ?_
  · intro y hne hy
    cases y <;> simp_all [Call.legacyAnswer, Reply.resolvedOnly]
  cases r with
  | error e =>
    exact hu.2
  | ok resolved =>
    simp only [After]
    split
    · exact hu.2
    refine leads_bind.mpr (leads_onLoad true hu.2 ?_ fun u' hu' => ?_)
    · intro x hx
      exact ⟨hx.operationId, hx.source, hx.target, fun _ => rfl⟩
    -- from here on the mode is known
    refine Leads.mono (Upholds.bind (loading_timedCall ?_) ?_ u' hu') fun _ _ _ h => h.2.weaken
    · intro y hne hy
      cases y <;> simp_all [Call.legacyAnswer, Reply.flagOnly]
    intro prepared
    split
    · exact Upholds.raise _
    refine Upholds.bind (loading_setStage _) fun _ => Upholds.bind loading_transferStage fun _ =>
      Upholds.bind (loading_setStage _) fun _ => Upholds.bind (loading_timedCall ?_) fun _ => ?_
    · intro y hne hy
      cases y <;> simp_all [Call.legacyAnswer, Reply.okOnly]
    intro v hv
    refine leads_onLoad true hv (fun x hx => ?_) fun t ht => ⟨by simp, ht⟩
    exact ⟨hx.operationId, hx.source, hx.target, fun _ => hx.mode (.inl rfl)⟩

/-- The same for a load with a deadline. -/
theorem leads_timedLoad {epoch : String} (hs : Loading decision operationId held false s) :
    Leads (SparesLoad operationId)
      (Loop.waitFor (Loop.loadCachedPrefix false operationId epoch decision)) s
      fun _ _ t => Loading decision operationId held false t := by
  unfold Loop.waitFor
  rw [leads_rescue]
  refine (leads_load hs).mono fun l r t h => ?_
  cases r with
  | ok a =>
    exact h
  | error e =>
    simp only [Handled]
    split
    · exact h
    · exact h

end Loads

end Steps

end PrismServe
