import PrismServe.Properties.CleanupEvidence

/-!
# What a network cleanup observes

The exact-reference cleanup aborts every reference, queries every reference and
finalises the endpoints of its plan.  The lemmas below relate each of these
steps to the visits it makes: which reference was observed terminal by which
answer, and which endpoint was acknowledged by which call.
-/

namespace PrismServe

open Lib Lib.Prog

/-- An answer that a program understands, or a failure it may meet. -/
def Understood {α : Type} (timed : Bool) (answer : Reply → Option α) (x : Reply) : Prop :=
  (∃ e, x = .raised e ∧ (timed = false → e ≠ .deadline)) ∨
    (∀ e, x ≠ .raised e) ∧ ∃ a, answer x = some a

variable {timed : Bool} {x : Reply}

theorem understood_raised {α : Type} {answer : Reply → Option α} {e : Exc}
    (h : (timed || decide (e ≠ .deadline)) = true) : Understood timed answer (.raised e) := by
  refine Or.inl ⟨e, rfl, fun ht => ?_⟩
  simpa [ht] using h

theorem understood_endpointAbort {kind : RefKind} {ref : EndpointRef}
    (h : (Call.endpointAbort kind ref).answeredBy timed x = true) :
    Understood timed Reply.okOnly x := by
  cases x with
  | raised e =>
    exact understood_raised h
  | ok =>
    exact Or.inr ⟨by simp, (), rfl⟩
  | _ =>
    simp [Call.answeredBy] at h

theorem understood_endpointStatus {ref : EndpointRef}
    (h : (Call.endpointStatus ref).answeredBy timed x = true) :
    Understood timed Reply.statusOnly x := by
  cases x with
  | raised e =>
    exact understood_raised h
  | status a =>
    exact Or.inr ⟨by simp, a, rfl⟩
  | _ =>
    simp [Call.answeredBy] at h

theorem understood_finalize {cleanupId operationId : String} {leaseId : Nat}
    {endpoint : EndpointFinalizePlan}
    (h : (Call.finalize cleanupId operationId leaseId endpoint).answeredBy timed x = true) :
    Understood timed Reply.finalizedOnly x := by
  cases x with
  | raised e =>
    exact understood_raised h
  | finalized a =>
    exact Or.inr ⟨by simp, a, rfl⟩
  | _ =>
    simp [Call.answeredBy] at h

/-- A cancellation is entered into the history where it is met. -/
def cancelNoted (w : World) : World := { w with history := .cancelled :: w.history }

section Calls

variable {R : Surroundings} {s : Process} {timed : Bool} {α : Type}

/-- One call: it is answered, it fails, or it is cancelled. -/
theorem leads_callIn {c : Call} {answer : Reply → Option α}
    {Φ : List Trip → Except Exc α → Process → Prop}
    (hfit : ∀ x t, R c s x t → Understood timed answer x)
    (hok : ∀ x t a, R c s x t → answer x = some a → Φ [⟨c, x, s, t⟩] (.ok a) t)
    (herr : ∀ e t, R c s (.raised e) t → e ≠ .cancelled →
      Φ [⟨c, .raised e, s, t⟩] (.error e) t)
    (hcancel : ∀ t, R c s (.raised .cancelled) t →
      Φ [⟨c, .raised .cancelled, s, t⟩] (.error .cancelled) (t.update cancelNoted)) :
    Leads R (Loop.callIn timed c answer) s Φ := by
  unfold Loop.callIn
  cases timed with
  | true =>
    intro x t hx
    rcases hfit x t hx with ⟨e, rfl, _⟩ | ⟨hne, a, ha⟩
    · cases e with
      | cancelled =>
        exact hcancel t hx
      | _ =>
        exact herr _ t hx (by simp)
    · have h := hok x t a hx ha
      cases x with
      | raised e =>
        exact absurd rfl (hne e)
      | _ =>
        simp only [ha]
        exact h
  | false =>
    intro x t hx
    rcases hfit x t hx with ⟨e, rfl, hd⟩ | ⟨hne, a, ha⟩
    · cases e with
      | cancelled =>
        exact hcancel t hx
      | deadline =>
        exact absurd rfl (hd rfl)
      | _ =>
        exact herr _ t hx (by simp)
    · have h := hok x t a hx ha
      cases x with
      | raised e =>
        exact absurd rfl (hne e)
      | _ =>
        simp only [ha]
        exact h

/-- A call that the others answer without breaking the assertion. -/
theorem upholds_callIn {I : Process → Prop} {c : Call} {answer : Reply → Option α}
    (hfit : ∀ s x t, R c s x t → Understood timed answer x)
    (hI : ∀ s x t, I s → R c s x t → I t) (hnoted : ∀ s, I s → I (s.update cancelNoted)) :
    Upholds R I (Loop.callIn timed c answer) := by
  intro s hs
  refine leads_callIn (hfit s) ?_ ?_ ?_
  · intro x t a hx _
    exact ⟨by simpa using hs, hI s x t hs hx⟩
  · intro e t hx _
    exact ⟨by simpa using hs, hI s _ t hs hx⟩
  · intro t hx
    exact ⟨by simpa using hs, hnoted t (hI s _ t hs hx)⟩

theorem upholds_exceptException {I : Process → Prop} {p : Loop α} {handler : Exc → Loop α}
    (hp : Upholds R I p) (hh : ∀ e, Upholds R I (handler e)) :
    Upholds R I (p.exceptException handler) := by
  refine hp.rescue fun e q hq => ?_
  split_ifs at hq
  cases hq
  exact hh e

end Calls

/-- A call about endpoint references, which has no deadline of its own. -/
def Call.exact : Call → Bool
  | .endpointAbort _ _ => true
  | .endpointStatus _ => true
  | .finalize _ _ _ _ => true
  | _ => false

/-- A call about references that was cut short. -/
def CutAt (e : Exc) (v : Trip) : Prop :=
  e.isException = false ∧ v.call.exact = true ∧ v.reply = .raised e

/-- Outside of a deadline only a cancellation cuts such a call short. -/
theorem CutAt.cancelled {e : Exc} {v : Trip} (h : CutAt e v)
    (hv : v.call.answeredBy false v.reply = true) : v.reply = .raised .cancelled := by
  obtain ⟨he, hcall, hreply⟩ := h
  rw [hreply] at hv ⊢
  cases e with
  | cancelled =>
    rfl
  | deadline =>
    cases hc : v.call <;> simp_all [Call.exact, Call.answeredBy]
  | _ =>
    cases he

section Cleanup

variable {R : Surroundings} {s : Process} {timed : Bool}

/-! ## Aborts and queries -/

theorem leads_abortRef (kind : RefKind) (ref : EndpointRef) (hfit : Answering timed R) :
    Leads R ((Loop.callIn timed (.endpointAbort kind ref) Reply.okOnly).exceptException
      fun _ => .ret ()) s (Concludes CutAt fun l _ u => Leaves id s l u) := by
  unfold Loop.exceptException
  rw [leads_rescue]
  refine leads_callIn (fun x t hx => understood_endpointAbort (hfit _ _ _ _ hx)) ?_ ?_ ?_
  · intro x t a _ _
    exact ⟨rfl, rfl⟩
  · intro e t _ _
    cases he : e.isException with
    | true =>
      simp only [handled_error, he, if_true, Option.getD_some]
      exact ⟨rfl, rfl⟩
    | false =>
      simp only [handled_error, he, Bool.false_eq_true, if_false, Option.getD_none]
      exact ⟨_, List.mem_singleton.mpr rfl, he, rfl, rfl⟩
  · intro t _
    exact ⟨_, List.mem_singleton.mpr rfl, rfl, rfl, rfl⟩

theorem leads_abortRefs (hfit : Answering timed R) :
    ∀ (refs : List (RefKind × EndpointRef)) (s : Process),
      Leads R (Loop.abortRefs timed refs) s (Concludes CutAt fun l _ u => Leaves id s l u)
  | [], s => rfl
  | x :: rest, s => by
      refine Leads.bind (leads_abortRef x.1 x.2 hfit) fun l r u h => ?_
      cases r with
      | error e =>
        exact h
      | ok _ =>
        refine (leads_abortRefs hfit rest u).mono fun l' r' u' h' => ?_
        cases r' with
        | error e =>
          obtain ⟨v, hv, hcut⟩ := h'
          exact ⟨v, by simp [hv], hcut⟩
        | ok _ =>
          exact Leaves.append h h'

/-- The answers that prove a list of references terminal, by exact query. -/
structure Observed (refs : List (RefKind × EndpointRef)) (l : List Trip)
    (snapshots : List (RefKind × EndpointRef × EndpointStatus)) : Prop where
  refs_eq : snapshots.map (fun x => (x.1, x.2.1)) = refs
  terminal : ∀ x ∈ snapshots, x.2.2.state.isTerminal = true
  queried : ∀ x ∈ snapshots, ∃ v ∈ l, v.call = .endpointStatus x.2.1 ∧ v.reply = .status x.2.2

theorem Observed.mono {refs : List (RefKind × EndpointRef)} {l l' : List Trip}
    {snapshots : List (RefKind × EndpointRef × EndpointStatus)} (h : Observed refs l snapshots)
    (hl : l ⊆ l') : Observed refs l' snapshots := by
  refine ⟨h.refs_eq, h.terminal, fun x hx => ?_⟩
  obtain ⟨v, hv, hquery⟩ := h.queried x hx
  exact ⟨v, hl hv, hquery⟩

/-- One exact query; a failed one counts as no answer. -/
theorem leads_queryRef (ref : EndpointRef) (hfit : Answering timed R) : Leads R ((do
      let a ← Loop.callIn timed (.endpointStatus ref) Reply.statusOnly
      return some a : Loop (Option EndpointStatus)).exceptException fun _ => .ret none) s
      (Concludes CutAt fun l a u => Leaves id s l u ∧ ∀ b, a = some b →
        ∃ v ∈ l, v.call = .endpointStatus ref ∧ v.reply = .status b) := by
  unfold Loop.exceptException
  rw [leads_rescue]
  refine leads_bind.mpr
    (leads_callIn (fun x t hx => understood_endpointStatus (hfit _ _ _ _ hx)) ?_ ?_ ?_)
  · intro x t a _ ha
    refine ⟨⟨rfl, rfl⟩, ?_⟩
    rintro b ⟨⟩
    cases x <;> simp_all [Reply.statusOnly]
  · intro e t _ _
    simp only [after_error]
    cases he : e.isException with
    | true =>
      simp only [handled_error, he, if_true, Option.getD_some]
      exact ⟨⟨rfl, rfl⟩, by simp⟩
    | false =>
      simp only [handled_error, he, Bool.false_eq_true, if_false, Option.getD_none]
      exact ⟨_, List.mem_singleton.mpr rfl, he, rfl, rfl⟩
  · intro t _
    exact ⟨_, List.mem_singleton.mpr rfl, rfl, rfl, rfl⟩

theorem leads_queryTerminal (hfit : Answering timed R) :
    ∀ (refs : List (RefKind × EndpointRef)) (s : Process),
      Leads R (Loop.queryTerminal timed refs) s
        (Concludes CutAt fun l a u => Leaves id s l u ∧
          ∀ snapshots, a = some snapshots → Observed refs l snapshots)
  | [], s => ⟨rfl, by rintro _ ⟨⟩; exact ⟨rfl, by simp, by simp⟩⟩
  | (kind, ref) :: rest, s => by
      refine Leads.bind (leads_queryRef ref hfit) fun l r u h => ?_
      cases r with
      | error e =>
        exact h
      | ok a =>
        cases a with
        | none =>
          rw [after_ok]
          exact ⟨by simpa using h.1, by simp⟩
        | some status =>
          obtain ⟨hl, hq⟩ := h
          obtain ⟨v, hv, hcall, hreply⟩ := hq status rfl
          rw [after_ok]
          cases ht : status.state.isTerminal with
          | false =>
            simp only [ht, Bool.false_eq_true, if_false]
            exact ⟨by simpa using hl, by simp⟩
          | true =>
            simp only [ht, if_true]
            refine Leads.bind (leads_queryTerminal hfit rest u) fun l' r' u' h' => ?_
            cases r' with
            | error e =>
              obtain ⟨v', hv', hcut⟩ := h'
              exact ⟨v', by simp [hv'], hcut⟩
            | ok others =>
              obtain ⟨hl', hobs⟩ := h'
              refine ⟨by simpa using hl.append hl', ?_⟩
              intro snapshots hs
              obtain ⟨known, rfl, rfl⟩ := Option.map_eq_some_iff.mp hs
              have hk := hobs known rfl
              refine ⟨by simp [hk.refs_eq], ?_, ?_⟩
              · intro x hx
                rcases List.mem_cons.mp hx with rfl | hx
                · exact ht
                · exact hk.terminal x hx
              · intro x hx
                rcases List.mem_cons.mp hx with rfl | hx
                · exact ⟨v, by simp [hv], hcall, hreply⟩
                · obtain ⟨v', hv', hc', hr'⟩ := hk.queried x hx
                  exact ⟨v', by simp [hv'], hc', hr'⟩

/-! ## Finalising and releasing -/

/-- The finalise call of a plan for one of its endpoints. -/
def finalizeCall (plan : CleanupPlan) (endpoint : EndpointFinalizePlan) : Call :=
  .finalize plan.cleanupId plan.operationId plan.leaseId endpoint

/-- The world after an endpoint has acknowledged. -/
def acknowledged (plan : CleanupPlan) (endpoint : EndpointFinalizePlan)
    (a : FinalizeSnapshot) (w : World) : World :=
  { w with control := w.control.acknowledge plan.cleanupId endpoint.instanceId a }

/-- A run of `finalizeEndpoints`: remembered and fresh acknowledgements, up to a failure. -/
inductive Finalizes (plan : CleanupPlan) : List EndpointFinalizePlan → Process → List Trip →
    Except Exc (List FinalizeSnapshot) → Process → Prop
  | nil (s : Process) : Finalizes plan [] s [] (.ok []) s
  | known {endpoint : EndpointFinalizePlan} {rest : List EndpointFinalizePlan} {s t : Process}
      {l : List Trip} {r : Except Exc (List FinalizeSnapshot)} {a : FinalizeSnapshot}
      (hack : s.shared.control.endpointAcks.get? (plan.cleanupId, endpoint.instanceId) = some a)
      (hrest : Finalizes plan rest s l r t) :
      Finalizes plan (endpoint :: rest) s l (r.map (a :: ·)) t
  | fresh {endpoint : EndpointFinalizePlan} {rest : List EndpointFinalizePlan} {s u t : Process}
      {l : List Trip} {r : Except Exc (List FinalizeSnapshot)} {a : FinalizeSnapshot}
      (hrest : Finalizes plan rest (u.update (acknowledged plan endpoint a)) l r t) :
      Finalizes plan (endpoint :: rest) s
        (⟨finalizeCall plan endpoint, .finalized a, s, u⟩ :: l) (r.map (a :: ·)) t
  | failed {endpoint : EndpointFinalizePlan} {rest : List EndpointFinalizePlan}
      {s u t : Process} {e : Exc} (ht : e ≠ .cancelled → t = u) :
      Finalizes plan (endpoint :: rest) s [⟨finalizeCall plan endpoint, .raised e, s, u⟩]
        (.error e) t

theorem leads_finalizeEndpoints (plan : CleanupPlan) (hfit : Answering timed R) :
    ∀ (endpoints : List EndpointFinalizePlan) (s : Process),
      Leads R (Loop.finalizeEndpoints timed plan endpoints) s (Finalizes plan endpoints s)
  | [], s => Finalizes.nil s
  | endpoint :: rest, s => by
      unfold Loop.finalizeEndpoints Loop.finalizeEndpoint
      refine leads_bind.mpr (leads_bind.mpr ?_)
      rw [leads_read, after_ok]
      cases hack : s.shared.control.endpointAcks.get? (plan.cleanupId, endpoint.instanceId) with
      | some a =>
        refine Leads.bind (leads_finalizeEndpoints plan hfit rest s) fun l r u h => ?_
        have hknown := Finalizes.known hack h
        cases r with
        | error e =>
          exact hknown
        | ok as =>
          simpa [Except.map] using hknown
      | none =>
        refine leads_bind.mpr
          (leads_callIn (fun x t hx => understood_finalize (hfit _ _ _ _ hx)) ?_ ?_ ?_)
        · intro x u a _ ha
          refine leads_bind.mpr ((leads_attempt_ok rfl).mpr ?_)
          refine Leads.bind
            (leads_finalizeEndpoints plan hfit rest (u.update (acknowledged plan endpoint a)))
            fun l r t h => ?_
          have hx : x = .finalized a := by
            cases x <;> simp_all [Reply.finalizedOnly]
          subst hx
          have hfresh : Finalizes plan (endpoint :: rest) s _ _ t := Finalizes.fresh h
          cases r with
          | error e =>
            exact hfresh
          | ok as =>
            simpa [Except.map, finalizeCall] using hfresh
        · intro e t _ _
          exact Finalizes.failed fun _ => rfl
        · intro t _
          exact Finalizes.failed fun h => absurd rfl h

/-- The slot release at the end of a plan. -/
def releaseOf (plan : CleanupPlan) (w : PDScheduler) : Except Exc (Bool × PDScheduler) :=
  w.releaseQuarantinedDecodeSlot plan.operationId (some plan.leaseId) (some plan.cleanupId)

/-- A run of `releaseEndpointTerminal`. -/
inductive Releases (plan : CleanupPlan) (s : Process) : List Trip →
    Except Exc (Option (List FinalizeSnapshot)) → Process → Prop
  | replayed {result : List FinalizeSnapshot}
      (h : s.shared.control.completedEndpoint.get? plan.cleanupId = some result) :
      Releases plan s [] (.ok (some result)) (s.update fun w => { w with
        control := { w.control with
          completedEndpoint := w.control.completedEndpoint.moveToEnd plan.cleanupId } })
  | incomplete (h : plan.incomplete = true) : Releases plan s [] (.ok none) s
  | uncovered :
      Releases plan s [] (.error (.value "endpoint finalize plan omits predicate refs")) s
  | refused {e : Exc} (h : s.shared.control.activatePlan plan = .error e) :
      Releases plan s [] (.error e) s
  | interrupted {c : NetworkControl} {l : List Trip} {e : Exc} {t : Process}
      (hactive : s.shared.control.activatePlan plan = .ok ((), c))
      (hrun : Finalizes plan plan.endpoints (s.update fun w => { w with control := c }) l
        (.error e) t) :
      Releases plan s l (.error e) t
  | unreleased {c : NetworkControl} {l : List Trip} {result : List FinalizeSnapshot} {e : Exc}
      {t : Process} (hactive : s.shared.control.activatePlan plan = .ok ((), c))
      (hrun : Finalizes plan plan.endpoints (s.update fun w => { w with control := c }) l
        (.ok result) t)
      (hrelease : releaseOf plan t.shared.scheduler = .error e) :
      Releases plan s l (.error e) t
  | released {c : NetworkControl} {l : List Trip} {result : List FinalizeSnapshot}
      {t : Process} {b : Bool} {w : PDScheduler}
      (hfresh : s.shared.control.completedEndpoint.get? plan.cleanupId = none)
      (hcomplete : plan.incomplete = false) (hcovers : plan.covers = true)
      (hactive : s.shared.control.activatePlan plan = .ok ((), c))
      (hrun : Finalizes plan plan.endpoints (s.update fun w => { w with control := c }) l
        (.ok result) t)
      (hrelease : releaseOf plan t.shared.scheduler = .ok (b, w)) :
      Releases plan s l (.ok (some result)) (t.update fun v => { v with
        scheduler := w
        control := v.control.completePlan plan.cleanupId result })

theorem leads_releaseEndpointTerminal (plan : CleanupPlan) (hfit : Answering timed R) :
    Leads R (Loop.releaseEndpointTerminal timed plan) s (Releases plan s) := by
  unfold Loop.releaseEndpointTerminal
  refine leads_read_bind.mpr ?_
  cases hdone : s.shared.control.completedEndpoint.get? plan.cleanupId with
  | some result =>
    refine leads_bind.mpr ((leads_attempt_ok rfl).mpr ?_)
    exact Releases.replayed hdone
  | none =>
    dsimp only
    by_cases hinc : plan.incomplete = true
    · rw [if_pos hinc]
      exact Releases.incomplete hinc
    rw [if_neg hinc]
    by_cases hcov : plan.covers = false
    · rw [if_pos hcov]
      exact Releases.uncovered
    rw [if_neg hcov]
    cases hactive : s.shared.control.activatePlan plan with
    | error e =>
      refine leads_bind.mpr ((leads_onControl_error hactive).mpr ?_)
      exact Releases.refused hactive
    | ok c =>
      refine leads_bind.mpr ((leads_onControl_ok hactive).mpr ?_)
      refine Leads.bind (leads_finalizeEndpoints plan hfit _ _) fun l r t hrun => ?_
      cases r with
      | error e =>
        exact Releases.interrupted hactive hrun
      | ok result =>
        rw [after_ok]
        cases hrelease : releaseOf plan t.shared.scheduler with
        | error e =>
          refine leads_bind.mpr ((leads_onScheduler_error hrelease).mpr ?_)
          simpa using Releases.unreleased hactive hrun hrelease
        | ok o =>
          refine leads_bind.mpr ((leads_onScheduler_ok hrelease).mpr ?_)
          refine leads_bind.mpr ((leads_onControl_ok rfl).mpr ?_)
          have hend := Releases.released hdone (by simpa using hinc)
            (by simpa using hcov) hactive hrun hrelease
          simp only [after_ok, Prog.pure_eq, leads_ret, List.append_nil]
          exact hend

/-- What a release of resources never touches: the requests and the running transfers. -/
def apart (w : World) : RequestTracker × List String := (w.tracker, w.control.normalTasks)

variable {plan : CleanupPlan} {s t : Process} {l : List Trip} {e : Exc}

theorem activatePlan_normalTasks {c c' : NetworkControl} (h : c.activatePlan plan = .ok ((), c')) :
    c'.normalTasks = c.normalTasks := by
  unfold NetworkControl.activatePlan at h
  split at h
  · split_ifs at h
    cases h
    rfl
  · split_ifs at h
    cases h
    rfl

theorem Finalizes.leaves_apart {endpoints : List EndpointFinalizePlan}
    {r : Except Exc (List FinalizeSnapshot)} (h : Finalizes plan endpoints s l r t)
    (hr : r ≠ .error .cancelled) : Leaves apart s l t := by
  induction h with
  | nil s =>
    rfl
  | known hack hrest ih =>
    refine ih fun hc => hr ?_
    rw [hc]
    rfl
  | fresh hrest ih =>
    have hleft := ih fun hc => hr (by rw [hc]; rfl)
    exact ⟨rfl, hleft.after rfl⟩
  | @failed _ _ _ _ _ e ht =>
    have he : e ≠ .cancelled := fun hc => hr (by rw [hc])
    exact ⟨rfl, by rw [ht he]; rfl⟩

theorem Releases.leaves_apart {r : Except Exc (Option (List FinalizeSnapshot))}
    (h : Releases plan s l r t) (hr : r ≠ .error .cancelled) : Leaves apart s l t := by
  cases h with
  | interrupted hactive hrun =>
    refine (hrun.leaves_apart fun hc => hr ?_).after ?_
    · cases hc
      rfl
    · simp [apart, activatePlan_normalTasks hactive]
  | unreleased hactive hrun hrelease =>
    refine (hrun.leaves_apart (by simp)).after ?_
    simp [apart, activatePlan_normalTasks hactive]
  | released hfresh hcomplete hcovers hactive hrun hrelease =>
    refine ((hrun.leaves_apart (by simp)).after ?_).step rfl
    simp [apart, activatePlan_normalTasks hactive]
  | _ =>
    rfl

theorem Finalizes.cut {endpoints : List EndpointFinalizePlan}
    {r : Except Exc (List FinalizeSnapshot)} (h : Finalizes plan endpoints s l r t)
    (hr : r = .error e) (he : e.isException = false) : ∃ v ∈ l, CutAt e v := by
  induction h with
  | nil s =>
    cases hr
  | @known _ _ _ _ _ r _ hack hrest ih =>
    cases r with
    | error e' =>
      exact ih hr
    | ok as =>
      cases hr
  | @fresh _ _ _ _ _ _ r _ hrest ih =>
    cases r with
    | error e' =>
      obtain ⟨v, hv, hcut⟩ := ih hr
      exact ⟨v, List.mem_cons_of_mem _ hv, hcut⟩
    | ok as =>
      cases hr
  | failed ht =>
    cases hr
    exact ⟨_, List.mem_singleton.mpr rfl, he, rfl, rfl⟩

theorem activatePlan_isException {c : NetworkControl} (h : c.activatePlan plan = .error e) :
    e.isException = true := by
  unfold NetworkControl.activatePlan at h
  split at h <;> split_ifs at h <;> cases h <;> rfl

theorem releaseOf_isException {w : PDScheduler} (h : releaseOf plan w = .error e) :
    e.isException = true := by
  unfold releaseOf PDScheduler.releaseQuarantinedDecodeSlot at h
  split at h
  · cases h
  · split_ifs at h <;> cases h <;> rfl

/-- A release that ends in a cancellation or deadline met it at a call. -/
theorem Releases.cut (h : Releases plan s l (.error e) t) (he : e.isException = false) :
    ∃ v ∈ l, CutAt e v := by
  cases h with
  | uncovered =>
    cases he
  | refused hactive =>
    simp [activatePlan_isException hactive] at he
  | interrupted hactive hrun =>
    exact hrun.cut rfl he
  | unreleased hactive hrun hrelease =>
    simp [releaseOf_isException hrelease] at he

theorem retireOperation_error {operationId : String} {c : NetworkControl}
    (h : c.retireOperation operationId = .error e) : operationId ∈ c.normalTasks := by
  unfold NetworkControl.retireOperation at h
  split_ifs at h with hrun
  exact hrun

/-! ## The cleanup of a request -/

/-- The references that the cleanup of a request must prove terminal. -/
def candidateRefs (w : World) (req : RequestInfo) : List (RefKind × EndpointRef) :=
  Loop.dedupRefs (req.dispatchOperationRef.toList.map (fun ref => (RefKind.requestSource, ref)) ++
    w.control.cleanupRefs (Loop.operationOf req))

/-- What the references are told apart by: an instance and a sequence number. -/
def sequenceOf (x : RefKind × EndpointRef) : String × Nat := (x.2.targetInstance, x.2.operationSeq)

/-- Of the references with one sequence number the last one is kept. -/
theorem mem_dedupRefs {refs : List (RefKind × EndpointRef)} {y : RefKind × EndpointRef} :
    y ∈ Loop.dedupRefs refs ↔
      ∃ k, (refs.filter fun x => sequenceOf x = k).getLast? = some y := by
  have hget (k : String × Nat) := Dict.get?_foldl_set sequenceOf id k refs Dict.empty
  simp only [Dict.get?_empty, Option.or_none, Option.map_id, id_eq] at hget
  simp only [← hget]
  exact Dict.mem_values_iff _ y

/-- The plan that a cleanup uses: the remembered one, or one made of its own observations. -/
def planIn (c : NetworkControl) (fresh : CleanupPlan) : CleanupPlan :=
  (c.cleanupPlans.get? fresh.cleanupId).getD fresh

/-- The world in which a plan is remembered. -/
def rememberPlan (fresh : CleanupPlan) (w : World) : World :=
  match w.control.cleanupPlans.get? fresh.cleanupId with
  | some _ => w
  | none => { w with control := { w.control with
      cleanupPlans := w.control.cleanupPlans.set fresh.cleanupId fresh } }

theorem leads_cleanupPlan {Φ : List Trip → Except Exc CleanupPlan → Process → Prop}
    {snapshots : List (RefKind × EndpointRef × EndpointStatus)} {fresh : CleanupPlan}
    (hok : Φ [] (.ok (planIn s.shared.control fresh)) (s.update (rememberPlan fresh)))
    (hunreadable : CleanupPlan.unreadable snapshots ≠ none → ∀ e, Φ [] (.error e) s) :
    Leads R (Loop.cleanupPlan snapshots fresh) s Φ := by
  unfold Loop.cleanupPlan
  cases h : s.shared.control.cleanupPlans.get? fresh.cleanupId with
  | some plan =>
    rw [leads_onControl_ok (a := plan) (c := s.shared.control) (by simp only [h])]
    simpa [planIn, h, Sys.update, rememberPlan] using hok
  | none =>
    cases hread : CleanupPlan.unreadable snapshots with
    | some typeName =>
      rw [leads_onControl_error (by simp only [h]; rfl)]
      exact hunreadable (by simp [hread]) _
    | none =>
      rw [leads_onControl_ok (a := fresh) (by simp only [h]; rfl)]
      simpa [planIn, h, Sys.update, rememberPlan] using hok

/-- The status in the answer says that resources are held, but not readably which. -/
def Reply.unreadable : Reply → Bool
  | .status s => s.resourcesHeld && !s.heldResourceKinds.isOk
  | _ => false

theorem Observed.unreadable {refs : List (RefKind × EndpointRef)} {l : List Trip}
    {snapshots : List (RefKind × EndpointRef × EndpointStatus)} (h : Observed refs l snapshots)
    (hread : CleanupPlan.unreadable snapshots ≠ none) : ∃ v ∈ l, v.reply.unreadable = true := by
  obtain ⟨typeName, hread⟩ := Option.ne_none_iff_exists'.mp hread
  obtain ⟨x, hx, hkinds⟩ := List.exists_of_findSome?_eq_some hread
  obtain ⟨hmem, hheld⟩ := List.mem_filter.mp hx
  obtain ⟨v, hv, -, hreply⟩ := h.queried x hmem
  refine ⟨v, hv, ?_⟩
  rw [hreply]
  cases hk : x.2.2.heldResourceKinds with
  | ok kinds =>
    simp [hk] at hkinds
  | error typeName =>
    simp [Reply.unreadable, hheld, hk, Except.isOk, Except.toBool]

/-- The world after the slot of a live lease was quarantined. -/
def quarantineLease (operationId : String) (lease : DecodeSlotLease) (w : World) : World :=
  if lease.state = .quarantined then w
  else { w with scheduler := w.scheduler.markLease operationId lease .quarantined }

theorem leads_quarantineLive {Φ : List Trip → Except Exc Unit → Process → Prop}
    {operationId : String} {lease : DecodeSlotLease}
    (hlease : s.shared.scheduler.slotLeases.get? operationId = some lease)
    (hlive : lease.state ≠ .released) :
    Leads R (Loop.when (decide (lease.state ≠ .quarantined)) (Loop.quarantineSlot operationId))
      s Φ ↔ Φ [] (.ok ()) (s.update (quarantineLease operationId lease)) := by
  unfold Loop.when
  by_cases hq : lease.state = .quarantined
  · simp [hq, quarantineLease, Sys.update]
  have hmark : s.shared.scheduler.quarantineDecodeSlot operationId =
      .ok (s.shared.scheduler.markLease operationId lease .quarantined) := by
    simp [PDScheduler.quarantineDecodeSlot, hlease, hlive]
  rw [if_pos (by simpa using hq), Loop.quarantineSlot,
    leads_onScheduler_ok (a := ()) (by simp only [hmark]; rfl)]
  simp [quarantineLease, hq, Sys.update]

/--
A cleanup that has released the slot: the references were observed, then the
plan was carried out.
-/
inductive CleanedUp (fresh : Nat → List (RefKind × EndpointRef × EndpointStatus) → CleanupPlan)
    (operationId : String) (refs : List (RefKind × EndpointRef)) (s : Process) :
    List Trip → Process → Prop
  | intro {lease : DecodeSlotLease} {l₁ l₂ : List Trip} {u t : Process}
      {snapshots : List (RefKind × EndpointRef × EndpointStatus)}
      {result : List FinalizeSnapshot}
      (hlease : s.shared.scheduler.slotLeases.get? operationId = some lease)
      (hquiet : Leaves id (s.update (quarantineLease operationId lease)) l₁ u)
      (hobserved : Observed refs l₁ snapshots)
      (hreleased : Releases (planIn u.shared.control (fresh lease.leaseId snapshots))
        (u.update (rememberPlan (fresh lease.leaseId snapshots))) l₂ (.ok (some result)) t) :
      CleanedUp fresh operationId refs s (l₁ ++ l₂) t

/-- How `cleanupRequest` ends. -/
inductive RequestCleanup (serial : Nat) (s : Process) :
    List Trip → Except Exc Bool → Process → Prop
  | lost (h : s.shared.scheduler.slotLeases.get? (Loop.operationOf (requestIn s serial)) = none) :
      RequestCleanup serial s [] (.error (.value "normal request lost decode slot lease")) s
  | already {lease : DecodeSlotLease}
      (hlease : s.shared.scheduler.slotLeases.get? (Loop.operationOf (requestIn s serial)) =
        some lease) (hreleased : lease.state = .released) :
      RequestCleanup serial s [] (.ok true) s
  | unproven {lease : DecodeSlotLease} {l : List Trip} {t : Process}
      (hlease : s.shared.scheduler.slotLeases.get? (Loop.operationOf (requestIn s serial)) =
        some lease) (hapart : Leaves apart s l t) :
      RequestCleanup serial s l (.ok false) t
  | released {l : List Trip} {u : Process} {c : NetworkControl}
      (hcleaned : CleanedUp (fun leaseId => CleanupPlan.ofSnapshots true
          ("normal-cleanup:" ++ Loop.operationOf (requestIn s serial))
          (Loop.operationOf (requestIn s serial)) leaseId)
        (Loop.operationOf (requestIn s serial))
        (candidateRefs s.shared (requestIn s serial)) s l u)
      (hapart : Leaves apart s l u)
      (hretire : u.shared.control.retireOperation (Loop.operationOf (requestIn s serial)) =
        .ok ((), c)) :
      RequestCleanup serial s l (.ok true) (u.update fun w => { w with control := c })
  | running {l : List Trip} {t : Process} {e : Exc} (hapart : Leaves apart s l t)
      (hidle : Loop.operationOf (requestIn s serial) ∉ s.shared.control.normalTasks)
      (hrunning : Loop.operationOf (requestIn s serial) ∈ t.shared.control.normalTasks) :
      RequestCleanup serial s l (.error e) t
  | cutShort {l : List Trip} {t : Process} {e : Exc} {v : Trip} (hv : v ∈ l) (hcut : CutAt e v) :
      RequestCleanup serial s l (.error e) t
  | unreadable {l : List Trip} {t : Process} {e : Exc} {v : Trip} (hv : v ∈ l)
      (hread : v.reply.unreadable = true) : RequestCleanup serial s l (.error e) t

@[simp] theorem control_quarantineLease (operationId : String) (lease : DecodeSlotLease)
    (w : World) : (quarantineLease operationId lease w).control = w.control := by
  unfold quarantineLease
  split <;> rfl

@[simp] theorem apart_quarantineLease (operationId : String) (lease : DecodeSlotLease) (w : World) :
    apart (quarantineLease operationId lease w) = apart w := by
  unfold quarantineLease
  split <;> rfl

@[simp] theorem apart_rememberPlan (fresh : CleanupPlan) (w : World) :
    apart (rememberPlan fresh w) = apart w := by
  unfold rememberPlan
  split <;> rfl

/-- Abort the references if asked to, then query them. -/
theorem leads_observe {γ : Type} {Φ : List Trip → Except Exc γ → Process → Prop}
    {next : Option (List (RefKind × EndpointRef × EndpointStatus)) → Loop γ}
    (abort : Bool) (refs : List (RefKind × EndpointRef)) (hfit : Answering timed R)
    (hcut : ∀ l e u, (∃ v ∈ l, CutAt e v) → Φ l (.error e) u)
    (hnone : ∀ l u, Leaves id s l u → Leads R (next none) u fun l' r t => Φ (l ++ l') r t)
    (hsome : ∀ l u snapshots, Leaves id s l u → Observed refs l snapshots →
      Leads R (next (some snapshots)) u fun l' r t => Φ (l ++ l') r t) : Leads R (do
      Loop.when abort (Loop.abortRefs timed refs)
      next (← Loop.queryTerminal timed refs)) s Φ := by
  have habort : Leads R (Loop.when abort (Loop.abortRefs timed refs)) s
      (Concludes CutAt fun l _ u => Leaves id s l u) := by
    cases abort with
    | false =>
      show Leaves id s ([] : List Trip) s
      rfl
    | true =>
      exact leads_abortRefs hfit refs s
  refine Leads.bind habort fun l r u h => ?_
  cases r with
  | error e =>
    exact hcut l e u h
  | ok _ =>
    refine Leads.bind (leads_queryTerminal hfit refs u) fun l' r' u' h' => ?_
    cases r' with
    | error e =>
      obtain ⟨v, hv, hcutv⟩ := h'
      exact hcut _ e u' ⟨v, by simp [hv], hcutv⟩
    | ok a =>
      obtain ⟨hl', hobs⟩ := h'
      have hl := Leaves.append h hl'
      rw [after_ok]
      cases a with
      | none =>
        simpa [List.append_assoc] using hnone _ u' hl
      | some snapshots =>
        have ho' : Observed refs (l ++ l') snapshots :=
          (hobs snapshots rfl).mono (List.subset_append_right _ _)
        simpa [List.append_assoc] using hsome _ u' snapshots hl ho'

theorem leads_cleanupRequest (serial : Nat) (abort : Bool) (hfit : Answering false R) :
    Leads R (Loop.cleanupRequest serial abort) s (RequestCleanup serial s) := by
  unfold Loop.cleanupRequest
  refine leads_read_bind.mpr ?_
  have hreq : s.shared.tracker.info serial = requestIn s serial := rfl
  simp only [hreq]
  cases hlease : s.shared.scheduler.slotLeases.get? (Loop.operationOf (requestIn s serial)) with
  | none =>
    exact RequestCleanup.lost hlease
  | some lease =>
    dsimp only
    by_cases hrel : lease.state = .released
    · rw [if_pos hrel]
      exact RequestCleanup.already hlease hrel
    rw [if_neg hrel]
    refine leads_bind.mpr ((leads_quarantineLive hlease hrel).mpr ?_)
    refine leads_bind.mpr ?_
    rw [leads_read, after_ok]
    simp only [Sys.update_shared, control_quarantineLease]
    change Leads R (if Loop.operationOf (requestIn s serial) ∈ s.shared.control.normalTasks
      then _ else _) _ _
    have hq : Leaves apart s ([] : List Trip)
        (s.update (quarantineLease (Loop.operationOf (requestIn s serial)) lease)) :=
      apart_quarantineLease _ _ _
    by_cases hrun : Loop.operationOf (requestIn s serial) ∈ s.shared.control.normalTasks
    · rw [if_pos hrun]
      exact RequestCleanup.unproven hlease hq
    rw [if_neg hrun]
    change Leads R (if candidateRefs s.shared (requestIn s serial) = [] then _ else _) _ _
    by_cases hnone : candidateRefs s.shared (requestIn s serial) = []
    · rw [if_pos hnone]
      exact RequestCleanup.unproven hlease hq
    rw [if_neg hnone]
    refine leads_observe abort _ hfit ?_ ?_ ?_
    · rintro l e u ⟨v, hv, hcut⟩
      exact RequestCleanup.cutShort hv hcut
    · intro l u hl
      have hapart := Leaves.append hq (Leaves.of_id apart hl)
      exact RequestCleanup.unproven hlease (by simpa using hapart)
    · intro l u snapshots hl hobs
      have hapart : Leaves apart s l u := Leaves.append hq (Leaves.of_id apart hl)
      refine leads_bind.mpr (leads_cleanupPlan ?_ fun hread e => ?_)
      swap
      · obtain ⟨v, hv, hread⟩ := hobs.unreadable hread
        exact RequestCleanup.unreadable (by simpa using hv) hread
      refine leads_bind.mpr ?_
      unfold Loop.exceptException
      rw [leads_rescue]
      refine (leads_releaseEndpointTerminal _ hfit).mono fun l' r t hrelease => ?_
      have hleft : r ≠ .error .cancelled → Leaves apart s (l ++ l') t := fun hr =>
        hapart.append ((hrelease.leaves_apart hr).after (apart_rememberPlan _ _))
      cases r with
      | error e =>
        cases he : e.isException with
        | true =>
          have hne : (Except.error e : Except Exc (Option (List FinalizeSnapshot))) ≠
              .error .cancelled := by
            rintro ⟨⟩
            cases he
          simp only [handled_error, he, if_true, Option.getD_some, leads_ret]
          exact RequestCleanup.unproven hlease (by simpa using hleft hne)
        | false =>
          obtain ⟨v, hv, hcut⟩ := hrelease.cut he
          simp only [handled_error, he, Bool.false_eq_true, if_false, Option.getD_none,
            leads_raise]
          exact RequestCleanup.cutShort (by simp [hv]) hcut
      | ok a =>
        rw [handled_ok, after_ok]
        cases a with
        | none =>
          exact RequestCleanup.unproven hlease (by simpa using hleft (by simp))
        | some result =>
          cases hretire : t.shared.control.retireOperation
              (Loop.operationOf (requestIn s serial)) with
          | error e =>
            refine leads_bind.mpr ((leads_onControl_error hretire).mpr ?_)
            have := retireOperation_error hretire
            exact RequestCleanup.running (by simpa using hleft (by simp)) hrun this
          | ok c =>
            refine leads_bind.mpr ((leads_onControl_ok hretire).mpr ?_)
            have hcleaned := CleanedUp.intro hlease hl hobs hrelease
            have hend := RequestCleanup.released hcleaned (hleft (by simp)) hretire
            simpa using hend

end Cleanup

end PrismServe
