import PrismServe.Scheduler.Quarantine

/-!
# The life of a decode slot lease

A lease is issued once, under a number of its own, and is never dropped or given to
another operation.  It goes from reserved over active and quarantined to released,
possibly leaving some of these out, and back only by a rollback, which has to name the
lease and, once it is released, the cleanup that released it.
-/

namespace PrismServe

open Lib

def LeaseState.rank : LeaseState → Nat
  | .reserved => 0
  | .active => 1
  | .quarantined => 2
  | .released => 3

namespace PDScheduler

/-- The lease with another state. -/
def SameLease (old new : DecodeSlotLease) : Prop :=
  new = { old with state := new.state, releaseCleanupId := new.releaseCleanupId }

/-- The rollbacks that a lease accepts. -/
def Undoes (op : String) (lease : DecodeSlotLease) : SchedulerCall → Prop
  | .restoreQuarantined op' leaseId cleanupId =>
    op' = op ∧ leaseId = lease.leaseId ∧ lease.state = .released ∧
      lease.releaseCleanupId = some cleanupId
  | .restoreReplaced op' leaseId cleanupId _ =>
    op' = op ∧ leaseId = lease.leaseId ∧
      (lease.state = .released ∧ lease.releaseCleanupId = some cleanupId ∨
        lease.state = .quarantined)
  | _ => False

/-- The lease is as it was, or has gone on. -/
def Advanced (old new : DecodeSlotLease) : Prop :=
  new = old ∨ old.state.rank < new.state.rank

theorem Advanced.trans {l l' l'' : DecodeSlotLease} (h : Advanced l l') (h' : Advanced l' l'') :
    Advanced l l'' := by
  rcases h with rfl | h
  · exact h'
  · rcases h' with rfl | h'
    · exact Or.inr h
    · exact Or.inr (h.trans h')

/-- What a call does to the leases: nothing, a new one, or a change of one. -/
inductive Leased (c : SchedulerCall) (s t : PDScheduler) : Prop
  | kept (leases : t.slotLeases = s.slotLeases)
  | issued {op : String} {lease : DecodeSlotLease} (fresh : s.slotLeases.get? op = none)
      (leases : t.slotLeases = s.slotLeases.set op lease)
  | moved {op : String} {old new : DecodeSlotLease} (held : s.slotLeases.get? op = some old)
      (leases : t.slotLeases = s.slotLeases.set op new) (same : SameLease old new)
      (change : Advanced old new ∨ Undoes op old c)

variable {c : SchedulerCall} {s t : PDScheduler} {op : String} {lease : DecodeSlotLease}

theorem creditSlot_leases (i : String) (s : PDScheduler) :
    (s.creditSlot i).slotLeases = s.slotLeases := by
  unfold creditSlot
  split <;> rfl

theorem debitSlot_leases (i : String) (s : PDScheduler) :
    (s.debitSlot i).slotLeases = s.slotLeases := by
  unfold debitSlot
  split <;> rfl

theorem creditFinished_leases (i : String) (s : PDScheduler) :
    (s.creditFinished i).2.slotLeases = s.slotLeases := by
  unfold creditFinished
  split
  · rfl
  · split <;> rfl

/-- A lease that gives its slot back. -/
theorem leased_released (held : s.slotLeases.get? op = some lease)
    (hstate : lease.state ≠ .released) {cleanupId : Option String}
    (leases : t.slotLeases =
      s.slotLeases.set op { lease with state := .released, releaseCleanupId := cleanupId }) :
    Leased c s t := by
  refine .moved held leases rfl (Or.inl (Or.inr ?_))
  cases h : lease.state <;> simp_all [LeaseState.rank]

theorem leased_after (c : SchedulerCall) : Leased c s (s.after c) := by
  cases c with
  | updateKvUsage i sample =>
    cases sample <;> exact .kept rfl
  | register i role m epoch active =>
    refine orSelf_rule (.kept rfl) fun t h => ?_
    rcases registerInstance_ok h with ⟨rfl, -⟩ | ⟨-, -, hleases, -⟩
    · exact .kept rfl
    · exact .kept hleases
  | quarantineInstance now i transfer dispatch =>
    simp only [after, quarantineInstance]
    split <;> exact .kept rfl
  | reconcile i r =>
    refine orSelf_rule (.kept rfl) fun t h => ?_
    obtain ⟨rfl, -⟩ := reconcileInstance_ok h
    unfold restoreCapacity
    split <;> exact .kept rfl
  | pickPrefill required =>
    simp only [after, pickPrefillInstance]
    split <;> exact .kept rfl
  | pickDecode now required =>
    simp only [after, pickDecodeInstance]
    split <;> exact .kept rfl
  | reserve now i reqId op =>
    refine orSelfWith_rule (.kept rfl) fun _ t h => ?_
    rcases reserveDecodeSlot_ok h with ⟨rfl, -⟩ | ⟨slots, hfresh, -, -, -, rfl⟩
    · exact .kept rfl
    · exact .issued hfresh rfl
  | adopt now i reqId op =>
    refine orSelfWith_rule (.kept rfl) fun lease t h => ?_
    obtain ⟨hfresh, rfl, rfl⟩ := adoptPickedDecodeSlot_ok h
    exact .issued hfresh rfl
  | commit op =>
    refine orSelf_rule (.kept rfl) fun t h => ?_
    unfold commitDecodeSlot at h
    split at h
    · cases h
    rename_i lease hheld
    cases h
    split
    · rename_i hstate
      exact .moved hheld rfl rfl (Or.inl (Or.inr (by simp [hstate, LeaseState.rank])))
    · exact .kept rfl
  | release op =>
    refine orSelfWith_rule (.kept rfl) fun b t h => ?_
    unfold releaseDecodeSlot at h
    split at h
    · cases h
      exact .kept rfl
    rename_i lease hheld
    split at h <;> cases h
    · exact .kept rfl
    · exact .kept rfl
    · rename_i hstate
      exact leased_released hheld (by simp [hstate]) (creditSlot_leases _ _)
  | quarantineSlot op =>
    refine orSelf_rule (.kept rfl) fun t h => ?_
    unfold quarantineDecodeSlot at h
    split at h
    · cases h
    rename_i lease hheld
    split_ifs at h with hstate
    cases h
    refine .moved hheld rfl rfl (Or.inl ?_)
    obtain ⟨_, _, _, _, state, _, _⟩ := lease
    cases state <;> simp_all [Advanced, LeaseState.rank]
  | releaseQuarantined op leaseId cleanupId =>
    refine orSelfWith_rule (.kept rfl) fun b t h => ?_
    unfold releaseQuarantinedDecodeSlot at h
    split at h
    · cases h
      exact .kept rfl
    rename_i lease hheld
    split_ifs at h with h₁ h₂ h₃ h₄ <;> cases h
    · exact .kept rfl
    · exact leased_released hheld h₂ (creditSlot_leases _ _)
    · exact .kept rfl
  | restoreQuarantined op leaseId cleanupId =>
    refine orSelf_rule (.kept rfl) fun t h => ?_
    unfold restoreQuarantinedDecodeSlot at h
    split at h
    · cases h
    rename_i lease hheld
    split_ifs at h with hid hstate
    cases h
    push Not at hid hstate
    exact .moved hheld (debitSlot_leases _ _) rfl (Or.inr ⟨rfl, hid.symm, hstate⟩)
  | restoreReplaced op leaseId cleanupId previous =>
    refine orSelf_rule (.kept rfl) fun t h => ?_
    unfold restoreReplacedDecodeSlot at h
    split_ifs at h
    split at h
    · cases h
    rename_i lease hheld
    split_ifs at h with hid hreleased hcleanup hquarantined <;> cases h
    · push Not at hid hcleanup
      exact .moved hheld (debitSlot_leases _ _) rfl
        (Or.inr ⟨rfl, hid.symm, Or.inl ⟨hreleased, hcleanup⟩⟩)
    · push Not at hid hquarantined
      exact .moved hheld rfl rfl (Or.inr ⟨rfl, hid.symm, Or.inr hquarantined⟩)
  | prefillDone i epoch =>
    exact .kept (onPrefillDone_leases s i epoch)
  | decodeFinished i epoch op =>
    simp only [after, onDecodeFinished]
    split_ifs
    · exact .kept rfl
    · split
      · exact .kept (creditFinished_leases i s)
      split
      · exact .kept rfl
      rename_i lease hheld
      split_ifs with hdone
      · exact .kept rfl
      · push Not at hdone
        exact leased_released hheld hdone.2.1 (creditFinished_leases _ _)
  | _ =>
    exact .kept rfl

/-- A held lease stays, and is changed by the call only as it may be. -/
theorem Leased.held (h : Leased c s t) (hheld : s.slotLeases.get? op = some lease) :
    ∃ new, t.slotLeases.get? op = some new ∧ SameLease lease new ∧
      (Advanced lease new ∨ Undoes op lease c) := by
  cases h with
  | kept leases =>
    exact ⟨lease, leases ▸ hheld, rfl, Or.inl (Or.inl rfl)⟩
  | @issued op' _ fresh leases =>
    have hne : op ≠ op' := by
      rintro rfl
      rw [fresh] at hheld
      cases hheld
    exact ⟨lease, by rw [leases, Dict.get?_set_of_ne _ _ hne, hheld], rfl, Or.inl (Or.inl rfl)⟩
  | @moved op' old new held leases same change =>
    by_cases hop : op = op'
    · subst hop
      obtain rfl : old = lease := Option.some.inj (held.symm.trans hheld)
      exact ⟨new, by rw [leases, Dict.get?_set_self], same, change⟩
    · exact ⟨lease, by rw [leases, Dict.get?_set_of_ne _ _ hop, hheld], rfl, Or.inl (Or.inl rfl)⟩

/-- Over any calls a lease is never dropped and belongs to the same operation, request and instance.
It goes on from reserved to released, and a released lease stays as it is, unless a call on the way
is a rollback that the lease of that moment accepts. -/
theorem lease_lifecycle (s : PDScheduler) (calls : List SchedulerCall) (op : String)
    (lease : DecodeSlotLease) (hheld : s.slotLeases.get? op = some lease) :
    ∃ new, (s.afterAll calls).slotLeases.get? op = some new ∧ SameLease lease new ∧
      (Advanced lease new ∨ ∃ earlier c later mid, calls = earlier ++ c :: later ∧
        (s.afterAll earlier).slotLeases.get? op = some mid ∧ Undoes op mid c) := by
  induction calls generalizing s lease with
  | nil =>
    exact ⟨lease, hheld, rfl, Or.inl (Or.inl rfl)⟩
  | cons c rest ih =>
    obtain ⟨next, hnext, hsame, hchange⟩ := (leased_after c).held hheld
    obtain ⟨new, hnew, hsame', hrest⟩ := ih (s.after c) next hnext
    refine ⟨new, hnew, by rw [SameLease, hsame', hsame], ?_⟩
    rcases hrest with hrest | ⟨earlier, c', later, mid, rfl, hmid, hundoes⟩
    · rcases hchange with hchange | hundoes
      · exact Or.inl (hchange.trans hrest)
      · exact Or.inr ⟨[], c, rest, lease, rfl, hheld, hundoes⟩
    · exact Or.inr ⟨c :: earlier, c', later, mid, rfl, hmid, hundoes⟩

theorem lease_lifecycle_finished :
    let s := (initial 1 0 none).afterAll
      [.register "d0" .decode 1 "e" [], .reserve 0 "d0" "r0" "op0"]
    let calls := [.commit "op0", .decodeFinished "d0" none (some "op0"), .release "op0"]
    ∃ lease new, s.slotLeases.get? "op0" = some lease ∧ lease.state = .reserved ∧
      (s.afterAll calls).slotLeases.get? "op0" = some new ∧ SameLease lease new := by
  intro s calls
  obtain ⟨new, hnew, hsame, -⟩ := lease_lifecycle s calls "op0"
    ⟨0, "op0", "r0", "d0", .reserved, 0, none⟩ (by decide +kernel)
  exact ⟨_, new, by decide +kernel, rfl, hnew, hsame⟩

end PDScheduler

end PrismServe
