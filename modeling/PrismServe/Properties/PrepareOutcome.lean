import PrismServe.Properties.Cleanup
import PrismServe.Router.HttpClient

/-!
# The slot of a request whose target is being prepared

A decode slot is adopted for a request before its target is prepared.  When the
call may have taken effect, the slot must stay withheld until the references of
the operation were observed terminal.  The exceptions that the scheduling loop
takes for a definitive failure include those of a success that it could not
understand; exactly there the slot is given back too early.
-/

namespace PrismServe

open Lib Lib.Prog

/-- The lease of an operation has been released. -/
def Freed (operationId : String) (u : Process) : Prop :=
  ∃ lease, u.shared.scheduler.slotLeases.get? operationId = some lease ∧ lease.state = .released

/-- The mutation of a reference of the operation was attempted. -/
def AttemptedFor (operationId : String) (u : Process) (ref : EndpointRef) : Prop :=
  ref ∈ u.shared.control.attemptedRefs ∧ ref.operationId = operationId

/-- An exact query has found the reference terminal. -/
def ObservedTerminal (ref : EndpointRef) (l : List Trip) : Prop :=
  ∃ v ∈ l, ∃ status, v.call = .endpointStatus ref ∧ v.reply = .status status ∧
    status.state.isTerminal = true

variable {l : List Trip}

theorem ObservedTerminal.append {ref : EndpointRef} (h : ObservedTerminal ref l) (l' : List Trip) :
    ObservedTerminal ref (l ++ l') := by
  obtain ⟨v, hv, hobserved⟩ := h
  exact ⟨v, List.mem_append_left _ hv, hobserved⟩

theorem ObservedTerminal.cons {ref : EndpointRef} (h : ObservedTerminal ref l) (v : Trip) :
    ObservedTerminal ref (v :: l) := by
  obtain ⟨v', hv, hobserved⟩ := h
  exact ⟨v', List.mem_cons_of_mem _ hv, hobserved⟩

theorem Observed.of_mem {refs : List (RefKind × EndpointRef)}
    {snapshots : List (RefKind × EndpointRef × EndpointStatus)} (h : Observed refs l snapshots)
    {x : RefKind × EndpointRef} (hx : x ∈ refs) : ObservedTerminal x.2 l := by
  rw [← h.refs_eq] at hx
  obtain ⟨y, hy, rfl⟩ := List.mem_map.mp hx
  obtain ⟨v, hv, hcall, hreply⟩ := h.queried y hy
  exact ⟨v, hv, y.2.2, hcall, hreply, h.terminal y hy⟩

/-! ## A cleanup withholds the slot until it has observed the references -/

section Withholding

variable {R : Surroundings} {x : String} {timed : Bool}

/-- The slot of an operation is not free again. -/
def Unfreed (x : String) (u : Process) : Prop := ¬ Freed x u

def KeepsUnfreed (x : String) (R : Surroundings) : Prop :=
  ∀ c s r t, R c s r t → Unfreed x s → Unfreed x t

theorem unfreed_of_leases {u t : Process} (h : Unfreed x u)
    (hleases : t.shared.scheduler.slotLeases.get? x = u.shared.scheduler.slotLeases.get? x) :
    Unfreed x t := by
  unfold Unfreed Freed
  rwa [hleases]

theorem upholds_onControl {α : Type} (f : NetworkControl → Except Exc (α × NetworkControl)) :
    Upholds R (Unfreed x) (Loop.onControl f) := by
  refine Upholds.attempt fun s a w hs hw => unfreed_of_leases hs ?_
  cases hf : f s.shared.control with
  | error e =>
    simp [hf] at hw
  | ok r =>
    simp only [hf, Except.ok.injEq, Prod.mk.injEq] at hw
    rw [← hw.2]

variable (hR : KeepsUnfreed x R)
  (hfit : Answering timed R)

include hR in
theorem unfreed_callIn {α : Type} {c : Call} {answer : Reply → Option α}
    (hanswer : ∀ s r t, R c s r t → Understood timed answer r) :
    Upholds R (Unfreed x) (Loop.callIn timed c answer) :=
  upholds_callIn hanswer (fun _ _ _ hs hr => hR _ _ _ _ hr hs) fun _ hs =>
    unfreed_of_leases hs rfl

include hR hfit in
theorem upholds_abortRefs :
    ∀ refs : List (RefKind × EndpointRef), Upholds R (Unfreed x) (Loop.abortRefs timed refs)
  | [] => Upholds.ret ()
  | _ :: rest =>
    (upholds_exceptException
      (unfreed_callIn hR fun _ _ _ hr => understood_endpointAbort (hfit _ _ _ _ hr))
      fun _ => Upholds.ret ()).bind fun _ => upholds_abortRefs rest

include hR hfit in
theorem upholds_queryTerminal :
    ∀ refs : List (RefKind × EndpointRef), Upholds R (Unfreed x) (Loop.queryTerminal timed refs)
  | [] => Upholds.ret _
  | (kind, ref) :: rest => by
      have hquery := unfreed_callIn (c := .endpointStatus ref) hR fun _ _ _ hr =>
        understood_endpointStatus (hfit _ _ _ _ hr)
      refine (upholds_exceptException (hquery.bind fun a => Upholds.ret (some a))
        fun _ => Upholds.ret none).bind fun status => ?_
      cases status with
      | none =>
        exact Upholds.ret none
      | some a =>
        dsimp only
        split
        · exact (upholds_queryTerminal rest).bind fun others => Upholds.ret _
        · exact Upholds.ret none

include hR hfit in
theorem upholds_finalizeEndpoints (plan : CleanupPlan) :
    ∀ endpoints : List EndpointFinalizePlan,
      Upholds R (Unfreed x) (Loop.finalizeEndpoints timed plan endpoints)
  | [] => Upholds.ret []
  | endpoint :: rest => by
      refine Upholds.bind (Upholds.read.bind fun w => ?_) fun a =>
        (upholds_finalizeEndpoints plan rest).bind fun others => Upholds.ret _
      split
      · exact Upholds.ret _
      · refine (unfreed_callIn hR fun _ _ _ hr => understood_finalize (hfit _ _ _ _ hr)).bind
          fun a => ?_
        exact (upholds_onControl _).bind fun _ => Upholds.ret _

variable {s : Process} {cfg : Settings}

include hR hfit in
/-- The slot is released after the last call of a plan. -/
theorem releaseEndpointTerminal_withholds (plan : CleanupPlan) (hs : Unfreed x s) :
    Leads R (Loop.releaseEndpointTerminal timed plan) s fun l _ _ =>
      ∀ v ∈ l, Unfreed x v.left := by
  unfold Loop.releaseEndpointTerminal
  refine leads_read_bind.mpr ?_
  cases s.shared.control.completedEndpoint.get? plan.cleanupId with
  | some result =>
    exact leads_bind.mpr ((leads_attempt_ok rfl).mpr (by simp))
  | none =>
    dsimp only
    split_ifs
    · simp
    · simp
    · refine Leads.bind (upholds_onControl _ s hs) fun l r u hu => ?_
      cases r with
      | error e =>
        exact hu.1
      | ok _ =>
        refine Leads.bind (upholds_finalizeEndpoints hR hfit plan _ u hu.2)
          fun l' r' u' hu' => ?_
        have hboth : ∀ v ∈ l ++ l', Unfreed x v.left := by
          intro v hv
          rcases List.mem_append.mp hv with hv | hv
          · exact hu.1 v hv
          · exact hu'.1 v hv
        cases r' with
        | error e =>
          exact hboth
        | ok result =>
          refine Atomic.leads ?_ fun _ _ => by simpa using hboth
          exact (Atomic.attempt _).bind fun _ => (Atomic.attempt _).bind fun _ => trivial

theorem unfreed_quarantineLease (operationId : String) (lease : DecodeSlotLease)
    (hs : Unfreed x s) :
    Unfreed x (s.update (quarantineLease operationId lease)) := by
  unfold quarantineLease
  by_cases hq : lease.state = .quarantined
  · simpa [Sys.update, hq] using hs
  rintro ⟨freed, hfreed, hstate⟩
  simp only [Sys.update_shared, if_neg hq, PDScheduler.markLease, Dict.get?_set] at hfreed
  split at hfreed
  · cases hfreed
    cases hstate
  · exact hs ⟨freed, hfreed, hstate⟩

theorem unfreed_rememberPlan {fresh : CleanupPlan} (hs : Unfreed x s) :
    Unfreed x (s.update (rememberPlan fresh)) := by
  refine unfreed_of_leases hs ?_
  simp only [Sys.update_shared, rememberPlan]
  split <;> rfl

/-- What a cleanup leads to: the slot is withheld, or the references were observed. -/
def Withholds (x : String) (refs : List (RefKind × EndpointRef)) (l : List Trip) (t : Process) :
    Prop :=
  (∀ v ∈ l, Unfreed x v.left) ∧ (Unfreed x t ∨ ∃ snapshots, Observed refs l snapshots)

/-- Carry out a plan, and retire the operation when it was released. -/
theorem releaseAndRetire_withholds {operationId : String} {plan : CleanupPlan} (hs : Unfreed x s)
    (hR : KeepsUnfreed x R) (hfit : Answering false R) : Leads R (do
      match ← (Loop.releaseEndpointTerminal false plan).exceptException fun _ => .ret none with
      | none => return false
      | some _ => do
          Loop.onControl (NetworkControl.retireOperation operationId)
          return true) s fun l _ _ => ∀ v ∈ l, Unfreed x v.left := by
  refine leads_bind.mpr (leads_rescue.mpr
    ((releaseEndpointTerminal_withholds hR hfit plan hs).mono fun l r u hl => ?_))
  have hrest (a : Option (List FinalizeSnapshot)) : Atomic (match a with
      | none => (.ret false : Loop Bool)
      | some _ => (Loop.onControl (NetworkControl.retireOperation operationId)).bind
          fun _ => .ret true) := by
    cases a with
    | none =>
      trivial
    | some result =>
      exact (Atomic.attempt _).bind fun _ => trivial
  cases r with
  | ok a =>
    exact Atomic.leads (hrest a) fun _ _ => by simpa using hl
  | error e =>
    cases he : e.isException with
    | true =>
      simp only [handled_error, he, if_true, Option.getD_some, leads_ret]
      exact Atomic.leads (hrest none) fun _ _ => by simpa using hl
    | false =>
      simpa [he] using hl

theorem cleanupRequest_withholds (serial : Nat) (abort : Bool) (hs : Unfreed x s)
    (hx : Loop.operationOf (requestIn s serial) = x) (hR : KeepsUnfreed x R)
    (hfit : Answering false R) : Leads R (Loop.cleanupRequest serial abort) s fun l _ t =>
      Withholds x (candidateRefs s.shared (requestIn s serial)) l t := by
  unfold Loop.cleanupRequest
  refine leads_read_bind.mpr ?_
  have hreq : s.shared.tracker.info serial = requestIn s serial := rfl
  simp only [hreq]
  cases hlease : s.shared.scheduler.slotLeases.get? (Loop.operationOf (requestIn s serial)) with
  | none =>
    exact ⟨by simp, Or.inl hs⟩
  | some lease =>
    have hlive : lease.state ≠ .released := fun h => hs ⟨lease, hx ▸ hlease, h⟩
    dsimp only
    rw [if_neg hlive]
    refine leads_bind.mpr ((leads_quarantineLive hlease hlive).mpr ?_)
    refine leads_bind.mpr ?_
    rw [leads_read, after_ok]
    simp only [Sys.update_shared, control_quarantineLease]
    have hq := unfreed_quarantineLease (Loop.operationOf (requestIn s serial)) lease hs
    change Leads R (if Loop.operationOf (requestIn s serial) ∈ s.shared.control.normalTasks
      then _ else _) _ _
    by_cases hrun : Loop.operationOf (requestIn s serial) ∈ s.shared.control.normalTasks
    · rw [if_pos hrun]
      exact ⟨by simp, Or.inl hq⟩
    rw [if_neg hrun]
    change Leads R (if candidateRefs s.shared (requestIn s serial) = [] then _ else _) _ _
    by_cases hnone : candidateRefs s.shared (requestIn s serial) = []
    · rw [if_pos hnone]
      exact ⟨by simp, Or.inl hq⟩
    rw [if_neg hnone]
    have habort : Upholds R (Unfreed x) (Loop.when abort
        (Loop.abortRefs false (candidateRefs s.shared (requestIn s serial)))) := by
      cases abort with
      | false =>
        exact Upholds.ret ()
      | true =>
        exact upholds_abortRefs hR hfit _
    refine Leads.bind (habort _ hq) fun l r u hu => ?_
    cases r with
    | error e =>
      exact ⟨hu.1, Or.inl hu.2⟩
    | ok _ =>
      refine Leads.bind ((leads_queryTerminal hfit _ u).and
        (upholds_queryTerminal hR hfit _ u hu.2)) fun l' r' u' h' => ?_
      have hboth : ∀ v ∈ l ++ l', Unfreed x v.left := by
        intro v hv
        rcases List.mem_append.mp hv with hv | hv
        · exact hu.1 v hv
        · exact h'.2.1 v hv
      cases r' with
      | error e =>
        exact ⟨hboth, Or.inl h'.2.2⟩
      | ok a =>
        cases a with
        | none =>
          exact ⟨by simpa using hboth, Or.inl h'.2.2⟩
        | some snapshots =>
          -- From here on the references have been observed.
          have hobserved := h'.1.2 snapshots rfl
          refine leads_bind.mpr (leads_cleanupPlan ?_ fun _ _ =>
            ⟨by simpa using hboth, Or.inl h'.2.2⟩)
          refine (releaseAndRetire_withholds (unfreed_rememberPlan h'.2.2) hR
            hfit).mono fun l'' r'' t ht => ⟨?_, Or.inr ⟨snapshots, ?_⟩⟩
          · intro v hv
            have hmem : v ∈ (l ++ l') ++ l'' := by simpa using hv
            rcases List.mem_append.mp hmem with hv | hv
            · exact hboth v hv
            · exact ht v hv
          · refine hobserved.mono fun v hv => ?_
            simp [hv]

theorem networkLeft_slotLeases (req : RequestInfo) (serial : Nat) (released : Bool) (w : World) :
    (networkLeft req serial released w).scheduler.slotLeases = w.scheduler.slotLeases := by
  unfold networkLeft retiredIn ledgerClosed
  cases released <;> simp only [Bool.false_eq_true, if_false, if_true] <;> split_ifs <;> rfl

theorem networkEntered_control (serial : Nat) (w : World) :
    (networkEntered serial w).control = w.control := by
  unfold networkEntered
  split <;> rfl

/-- Nothing is done for a request that has left the tracker. -/
theorem leads_canonicalCleanup_stale {serial : Nat}
    {Φ : List Trip → Except Exc Unit → Process → Prop}
    (hcur : s.shared.tracker.isCurrent serial = false) :
    Leads R (Loop.canonicalCleanup cfg serial) s Φ ↔ Φ [] (.ok ()) s := by
  unfold Loop.canonicalCleanup
  rw [Prog.bind_eq, leads_read_bind]
  unfold Loop.when
  rw [hcur, if_neg (by simp)]
  rfl

theorem canonicalCleanup_withholds (hnet : cfg.network = true) (serial : Nat) (hs : Unfreed x s)
    (hcur : s.shared.tracker.isCurrent serial = true)
    (hx : Loop.operationOf (requestIn s serial) = x) (hR : KeepsUnfreed x R)
    (hfit : Answering false R) : Leads R (Loop.canonicalCleanup cfg serial) s fun l _ t =>
      Withholds x (candidateRefs s.shared (requestIn s serial)) l t := by
  rw [leads_canonicalCleanup_network hnet hcur]
  have hentered : Unfreed x (s.update (networkEntered serial)) :=
    unfreed_of_leases hs (by rw [Sys.update_shared, networkEntered_slotLeases])
  have hrequest := networkEntered_request serial s
  have hrefs : candidateRefs (s.update (networkEntered serial)).shared
      (requestIn (s.update (networkEntered serial)) serial) =
      candidateRefs s.shared (requestIn s serial) := by
    rw [hrequest]
    unfold candidateRefs
    rw [Sys.update_shared, networkEntered_control]
  refine (cleanupRequest_withholds serial true hentered (by rw [hrequest, hx]) hR hfit).mono
    fun l r t ht => ?_
  rw [hrefs] at ht
  cases r with
  | error e =>
    exact ht
  | ok released =>
    refine ⟨ht.1, ht.2.imp_left fun hu => unfreed_of_leases hu ?_⟩
    rw [Sys.update_shared, networkLeft_slotLeases]

/-- The join of a cleanup: the slot is withheld until the references were observed. -/
theorem joinCanonicalCleanup_withholds (hnet : cfg.network = true) (serial : Nat) (hs : Unfreed x s)
    {Q : List Trip → Prop} (hR : KeepsUnfreed x R) (hfit : Answering false R)
    (hentry : ∀ r t, R .join s r t → t.shared.tracker.isCurrent serial = true →
      Loop.operationOf (requestIn t serial) = x ∧ ∀ l snapshots,
        Observed (candidateRefs t.shared (requestIn t serial)) l snapshots →
          Q (⟨.join, r, s, t⟩ :: l))
    (hmono : ∀ l v, Q l → Q (l ++ [v])) :
    Leads R (Loop.joinCanonicalCleanup cfg serial) s fun l _ t => Until (Unfreed x) Q l t := by
  intro r t ht
  have hstart : Unfreed x t := hR _ _ _ _ ht hs
  have hclean : Leads R (Loop.canonicalCleanup cfg serial) t fun l _ u =>
      Until (Unfreed x) Q (⟨.join, r, s, t⟩ :: l) u := by
    cases hcur : t.shared.tracker.isCurrent serial with
    | false =>
      rw [leads_canonicalCleanup_stale hcur]
      exact Until.cons hs (Until.of_visits (by simp) (Or.inl hstart))
    | true =>
      obtain ⟨hx, hobserved⟩ := hentry r t ht hcur
      refine (canonicalCleanup_withholds hnet serial hstart hcur hx hR hfit).mono
        fun l r' u hu => Until.cons hs (Until.of_visits hu.1 (hu.2.imp_right ?_))
      rintro ⟨snapshots, hsnapshots⟩
      exact hobserved l snapshots hsnapshots
  change Leads R ((Loop.canonicalCleanup cfg serial).bind fun _ => Loop.switch) t _
  refine Leads.bind hclean fun l r' u hu => ?_
  cases r' with
  | error e =>
    exact hu
  | ok _ =>
    -- the last switch, after the cleanup
    intro r'' t'' hlast
    have hsnoc := Until.snoc (v := ⟨.join, r'', u, t''⟩) hu (hR _ _ _ _ hlast) (hmono _ _)
    simpa using hsnoc

end Withholding

/-! ## The call that prepares a target -/

/-- The reference that is drawn for the preparation of a target. -/
def preparedRef (c : NetworkControl) (d dEpoch operationId : String) : EndpointRef :=
  (c.drawRef d dEpoch operationId).1

/-- The references once the preparation was attempted. -/
def prepareAttempted (d dEpoch operationId : String) (c : NetworkControl) : NetworkControl :=
  let ref := preparedRef c d dEpoch operationId
  ((c.drawRef d dEpoch operationId).2.rememberRef
    .requestPrepare d operationId ref).markRefAttempted
    ref

/-- The slot is adopted for the request and the preparation of its target is pending. -/
def prepareCalled (serial : Nat) (d dEpoch operationId : String) (w : World) : World :=
  let lease := PDScheduler.newLease w.now d operationId operationId w.scheduler
  { w with
    history := .slotAdopted serial false :: w.history
    scheduler := { w.scheduler with
      slotLeases := w.scheduler.slotLeases.set operationId lease
      secrets := w.scheduler.secrets + 1 }
    control := prepareAttempted d dEpoch operationId w.control }

/--
The operation of a request starts with the preparation of its target: the slot
can be adopted, the call is made, and no reference of it is known yet.
-/
structure Startable (serial : Nat) (d dEpoch : String) (s : Process) : Prop where
  adopts : (s.shared.scheduler.adoptPickedDecodeSlot s.shared.now d (requestIn s serial).reqId
    (requestIn s serial).reqId).toBool = true
  epoch : s.shared.control.workerEpochs.get? d = some dEpoch
  capacity : s.shared.control.ensureOperationCapacity (requestIn s serial).reqId = .ok ()
  unknown : (requestIn s serial).reqId ∉ s.shared.control.activeOperations
  untouched : ∀ ref ∈ s.shared.control.attemptedRefs,
    ref.operationId ≠ (requestIn s serial).reqId

section Preparing

variable {R : Surroundings} {cfg : Settings} {serial : Nat} {p pEpoch d dEpoch : String}
variable {s : Process}

variable {Φ : List Trip → Except Exc Unit → Process → Prop} {x : String}

theorem leads_prepareNormalRequest {Φ : List Trip → Except Exc EndpointRef → Process → Prop}
    (hepoch : s.shared.control.workerEpochs.get? d = some dEpoch)
    (hcapacity : s.shared.control.ensureOperationCapacity x = .ok ()) :
    Leads R (Loop.prepareNormalRequest d dEpoch x) s Φ ↔
      Leads R ((Loop.callIn false (.prepareRequest d x) Reply.okOnly).bind
          fun _ => .ret (preparedRef s.shared.control d dEpoch x))
        (s.update fun w => { w with control := prepareAttempted d dEpoch x w.control }) Φ := by
  unfold Loop.prepareNormalRequest
  rw [Prog.bind_eq, leads_read_bind]
  rw [hepoch]
  dsimp only
  rw [if_neg (by simp), Prog.bind_eq, leads_bind]
  have hallocate : s.shared.control.allocate .requestPrepare d x =
      .ok (preparedRef s.shared.control d dEpoch x,
        (s.shared.control.drawRef d dEpoch x).2.rememberRef .requestPrepare d x
          (preparedRef s.shared.control d dEpoch x)) := by
    simp [NetworkControl.allocate, hcapacity, hepoch, preparedRef]
  rw [leads_onControl_ok hallocate, after_ok, Prog.bind_eq, leads_bind]
  rfl

theorem leads_prepareTarget {Φ : List Trip → Except Exc Bool → Process → Prop}
    (hx : (requestIn s serial).reqId = x) (hstart : Startable serial d dEpoch s) {u : Process}
    (hu : u = s.update (prepareCalled serial d dEpoch x))
    (hfit : ∀ r t, R (.prepareRequest d x) u r t → Understood false Reply.okOnly r)
    (hok : ∀ r t, R (.prepareRequest d x) u r t → r = .ok →
      Φ [⟨.prepareRequest d x, r, u, t⟩] (.ok true) t)
    (hraised : ∀ e t, R (.prepareRequest d x) u (.raised e) t → e.isException = true →
      Leads R (Loop.prepareFailed cfg serial p pEpoch d dEpoch e) t fun l r v =>
        Φ (⟨.prepareRequest d x, .raised e, u, t⟩ :: l) (r.map fun _ => false) v)
    (hcancel : ∀ t, R (.prepareRequest d x) u (.raised .cancelled) t →
      Φ [⟨.prepareRequest d x, .raised .cancelled, u, t⟩] (.error .cancelled)
        (t.update cancelNoted)) :
    Leads R (Loop.prepareTarget cfg serial p pEpoch d dEpoch) s Φ := by
  obtain ⟨hadopts, hepoch, hcapacity, -, -⟩ := hstart
  rw [hx] at hadopts hcapacity
  cases hadopt : s.shared.scheduler.adoptPickedDecodeSlot s.shared.now d x x with
  | error e =>
    rw [hadopt] at hadopts
    cases hadopts
  | ok adopted =>
    obtain ⟨lease, w⟩ := adopted
    obtain ⟨-, rfl, rfl⟩ := PDScheduler.adoptPickedDecodeSlot_ok hadopt
    have hid : (s.shared.tracker.info serial).reqId = x := hx
    unfold Loop.prepareTarget Loop.exceptException
    refine leads_read_bind.mpr ?_
    simp only [hid, hadopt]
    refine leads_modify_bind.mpr ?_
    refine leads_bind.mpr ((leads_onScheduler_ok hadopt).mpr ?_)
    refine leads_rescue.mpr (leads_bind.mpr ?_)
    refine (leads_prepareNormalRequest (by exact hepoch) (by exact hcapacity)).mpr ?_
    change Leads R _ (s.update (prepareCalled serial d dEpoch x)) _
    rw [← hu]
    refine leads_bind.mpr (leads_callIn hfit ?_ ?_ ?_)
    · intro r t a hr ha
      cases r with
      | ok =>
        exact hok _ t hr rfl
      | _ =>
        cases ha
    · intro e t hr hne
      have hexc : e.isException = true := by
        rcases hfit _ t hr with ⟨e', he', hdeadline⟩ | ⟨hne', -⟩
        · cases he'
          have := hdeadline rfl
          cases e <;> simp_all [Exc.isException]
        · exact absurd rfl (hne' e)
      simp only [after_error, handled_error, hexc, if_true, Option.getD_some]
      refine leads_bind.mpr ((hraised e t hr hexc).mono fun l r v hv => ?_)
      cases r with
      | error e' =>
        simpa [Except.map] using hv
      | ok _ =>
        simpa [Except.map] using hv
    · intro t hr
      exact hcancel t hr

/-! ## What becomes of the slot -/

/-- The others leave the request, its lease and the references of its operation alone. -/
structure KeepsOperation (serial : Nat) (operationId : String) (s t : Process) : Prop where
  request : requestIn t serial = requestIn s serial
  tracked : t.shared.tracker.get? operationId = s.shared.tracker.get? operationId
  lease : t.shared.scheduler.slotLeases.get? operationId =
    s.shared.scheduler.slotLeases.get? operationId
  refs : t.shared.control.cleanupRefs operationId = s.shared.control.cleanupRefs operationId

/-- Surroundings in which the preparation of the target comes to the outcome `o`. -/
def PrepareEnv (parseInt : String → Option Int) (o : HttpOutcome) (serial : Nat)
    (d operationId : String) : Surroundings := fun c s r t =>
  (if c = .prepareRequest d operationId then r = o.prepareReply parseInt
    else c.answeredBy false r = true) ∧
  KeepsOperation serial operationId s t

/--
The slot stays withheld until the worker has rejected the call, or every
reference that was attempted when the call was made has been observed terminal.
-/
def SlotWithheld (o : HttpOutcome) (operationId : String) (l : List Trip) (t : Process) : Prop :=
  Until (fun u => ¬ Freed operationId u)
    (fun seen => o.explicitError = true ∨ ∃ v, seen.head? = some v ∧
      ∀ ref, AttemptedFor operationId v.left ref → ObservedTerminal ref seen) l t

theorem leads_promote
    (hok : ∀ n, s.shared.tracker.get? x = some n → Φ [] (.ok ())
      (s.update (World.shift n .prefilling (Loop.promotion cfg x p pEpoch d dEpoch))))
    (herr : ∀ e, Φ [] (.error e) s) : Leads R (Loop.promote cfg x p pEpoch d dEpoch) s Φ := by
  refine leads_attempt (fun a w hw => ?_) fun e _ => herr e
  cases htr : s.shared.tracker.transition s.shared.now x .prefilling
      (Loop.promotion cfg x p pEpoch d dEpoch) with
  | error e =>
    simp [htr] at hw
  | ok t =>
    simp only [htr, Except.ok.injEq, Prod.mk.injEq] at hw
    obtain ⟨n, hn, -, rfl⟩ := transition_ok htr
    rw [← hw.2]
    exact hok n hn

theorem mem_candidateRefs {w : World} {req : RequestInfo} {y : RefKind × EndpointRef}
    (h : w.control.cleanupRefs (Loop.operationOf req) = [y]) : y ∈ candidateRefs w req := by
  unfold candidateRefs
  rw [h, mem_dedupRefs]
  exact ⟨sequenceOf y, by simp [List.filter_append]⟩

theorem leads_prepareFailed_ambiguous :
    Leads R (Loop.prepareFailed cfg serial p pEpoch d dEpoch .ambiguous) s Φ ↔
      Leads R ((Loop.promote cfg (requestIn s serial).reqId p pEpoch d dEpoch).bind
          fun _ => Loop.joinCanonicalCleanup cfg serial)
        (s.update fun w => { w with
          history := .prepareAmbiguous serial :: w.history
          scheduler := (w.scheduler.onPrefillDone p (some pEpoch)).2 }) Φ := Iff.rfl

theorem prepareFailed_ambiguous_withholds {ref : EndpointRef} (hnet : cfg.network = true)
    (hne : x ≠ "") (hs : Unfreed x s) (hx : (requestIn s serial).reqId = x)
    (hrefs : s.shared.control.cleanupRefs x = [(.requestPrepare, ref)])
    (hR : ∀ c s r t, R c s r t → KeepsOperation serial x s t) (hfit : Answering false R) :
    Leads R (Loop.prepareFailed cfg serial p pEpoch d dEpoch .ambiguous) s fun l _ t =>
      Until (Unfreed x) (ObservedTerminal ref) l t := by
  rw [leads_prepareFailed_ambiguous, leads_bind, hx]
  have hgiven : Unfreed x (s.update fun w => { w with
      history := .prepareAmbiguous serial :: w.history
      scheduler := (w.scheduler.onPrefillDone p (some pEpoch)).2 }) :=
    unfreed_of_leases hs (by rw [Sys.update_shared, onPrefillDone_leases])
  refine leads_promote (fun n hn => ?_) fun e => Until.of_visits (by simp) (Or.inl hgiven)
  generalize hu : Sys.update _ (World.shift n .prefilling _) = u
  have hunfreed : Unfreed x u := hu ▸ unfreed_of_leases hgiven rfl
  have hrefs' : u.shared.control.cleanupRefs x = [(.requestPrepare, ref)] := hu ▸ hrefs
  have hid : (requestIn u serial).reqId = x := by
    rw [← hu, ← hx]
    exact shift_idOf _ _
  have hactive : n = serial → (requestIn u serial).activeOperationId = x := by
    rintro rfl
    rw [← hu, requestIn, Sys.update_shared, shift_info_self]
    simp [Loop.promotion, hnet]
  rw [after_ok]
  simp only [List.nil_append]
  refine joinCanonicalCleanup_withholds hnet serial hunfreed
    (fun c s r t h hu => unfreed_of_leases hu (hR c s r t h).lease) hfit ?_
    fun l v h => ObservedTerminal.append h _
  intro r t ht hcur
  obtain ⟨hrequest, htracked, -, hkept⟩ := hR _ _ _ _ ht
  -- The request that was promoted is the one that is cleaned up.
  have hn' : n = serial := by
    have hget : t.shared.tracker.get? x = some serial := by
      have := World.Tracks.isCurrent.mp hcur
      rwa [World.Tracks, World.idOf, show (t.shared.tracker.info serial).reqId = x by
        rw [← hid, ← hrequest]; rfl] at this
    rw [htracked, ← hu] at hget
    exact Option.some.inj (hn.symm.trans hget)
  have hop : Loop.operationOf (requestIn t serial) = x := by
    rw [hrequest, Loop.operationOf, hactive hn', if_neg hne]
  refine ⟨hop, fun l snapshots hobserved => ObservedTerminal.cons ?_ _⟩
  refine hobserved.of_mem (x := (.requestPrepare, ref)) (mem_candidateRefs ?_)
  rw [hop, hkept, hrefs']

/-- A definitive failure gives the slot back. -/
theorem leads_prepareFailed_definitive {e : Exc} (he : e.definitive = true) :
    Leads R (Loop.prepareFailed cfg serial p pEpoch d dEpoch e) s Φ ↔
      Leads R ((Loop.onScheduler fun _ w => w.releaseDecodeSlot (requestIn s serial).reqId).bind
          fun _ => .ret ())
        (s.update fun w => { w with
          history := .prepareRejected serial :: w.history
          scheduler := (w.scheduler.onPrefillDone p (some pEpoch)).2 }) Φ := by
  have hne : e ≠ .ambiguous := by
    simp only [Exc.definitive, Bool.and_eq_true, decide_eq_true_eq] at he
    exact he.2
  change Leads R (if e = .ambiguous then _ else _) _ Φ ↔ _
  rw [if_neg hne]
  rfl

theorem prepareFailed_definitive_frees {e : Exc} (he : e.definitive = true)
    (hx : (requestIn s serial).reqId = x) {lease : DecodeSlotLease}
    (hlease : s.shared.scheduler.slotLeases.get? x = some lease)
    (hreserved : lease.state = .reserved) :
    Leads R (Loop.prepareFailed cfg serial p pEpoch d dEpoch e) s fun l r t =>
      l = [] ∧ r = .ok () ∧ Freed x t := by
  rw [leads_prepareFailed_definitive he, hx, leads_bind]
  have hrelease : ((s.shared.scheduler.onPrefillDone p (some pEpoch)).2).releaseDecodeSlot x =
      .ok (true, ((s.shared.scheduler.onPrefillDone p (some pEpoch)).2.markLease x lease
        .released).creditSlot lease.instanceId) := by
    simp [PDScheduler.releaseDecodeSlot, onPrefillDone_leases, hlease, hreserved]
  refine (leads_onScheduler_ok (by exact hrelease)).mpr ⟨rfl, rfl, ?_⟩
  refine ⟨{ lease with state := .released }, ?_, rfl⟩
  simp only [Sys.update_shared, PDScheduler.creditSlot]
  split <;> simp [PDScheduler.markLease]

/-! The state in which the preparation is pending. -/

section Pending

variable {x : String}

theorem prepareCalled_lease (serial : Nat) (d dEpoch x : String) (w : World) :
    ∃ lease, (prepareCalled serial d dEpoch x w).scheduler.slotLeases.get? x = some lease ∧
      lease.state = .reserved :=
  ⟨_, Dict.get?_set_self _ _ _, rfl⟩

theorem prepareCalled_unfreed (s : Process) :
    Unfreed x (s.update (prepareCalled serial d dEpoch x)) := by
  rintro ⟨lease, hlease, hstate⟩
  obtain ⟨lease', hlease', hstate'⟩ :=
    prepareCalled_lease serial d dEpoch x s.shared
  cases hlease.symm.trans hlease'
  rw [hstate] at hstate'
  cases hstate'

theorem prepareCalled_attempted {ref : EndpointRef}
    (huntouched : ∀ ref ∈ s.shared.control.attemptedRefs, ref.operationId ≠ x) :
    AttemptedFor x (s.update (prepareCalled serial d dEpoch x)) ref ↔
      ref = preparedRef s.shared.control d dEpoch x := by
  constructor
  · rintro ⟨hmem, hop⟩
    rcases List.mem_cons.mp hmem with rfl | hmem
    · rfl
    · exact absurd hop (huntouched ref hmem)
  · rintro rfl
    exact ⟨List.mem_cons_self, rfl⟩

theorem prepareCalled_cleanupRefs (hunknown : x ∉ s.shared.control.activeOperations) :
    (s.update (prepareCalled serial d dEpoch x)).shared.control.cleanupRefs x =
      [(.requestPrepare, preparedRef s.shared.control d dEpoch x)] := by
  have hfresh : ∀ e ∈ s.shared.control.refs.entries, e.1.2.2 ≠ x := by
    intro e he hop
    refine hunknown (List.mem_dedup.mpr (List.mem_map.mpr ⟨e.1, ?_, hop⟩))
    exact List.mem_map_of_mem he
  have hnone : s.shared.control.refs.get? (.requestPrepare, d, x) = none := by
    cases hget : s.shared.control.refs.get? (.requestPrepare, d, x) with
    | none =>
      rfl
    | some ref =>
      exact absurd rfl (hfresh _ ((Dict.mem_entries_iff _ _ _).mpr hget))
  have hentries : (s.update (prepareCalled serial d dEpoch x)).shared.control.refs.entries =
      s.shared.control.refs.entries ++
        [((.requestPrepare, d, x), preparedRef s.shared.control d dEpoch x)] :=
    Dict.entries_set_of_fresh _ hnone
  have hattempted : (s.update (prepareCalled serial d dEpoch x)).shared.control.refRequiresCleanup
      (preparedRef s.shared.control d dEpoch x) = true :=
    decide_eq_true List.mem_cons_self
  unfold NetworkControl.cleanupRefs
  rw [hentries, List.filter_append, List.filter_eq_nil_iff.mpr fun e he => by simp [hfresh e he],
    List.filter_cons_of_pos (by rw [hattempted]; simp)]
  rfl

end Pending

/-! ## Which outcomes withhold the slot -/

section Outcomes

variable {parseInt : String → Option Int} {o : HttpOutcome}

theorem prepareEnv_understood {x : String} {s t : Process} {r : Reply}
    (h : PrepareEnv parseInt o serial d x (.prepareRequest d x) s r t) :
    Understood false Reply.okOnly r ∧ r = o.prepareReply parseInt ∧
      KeepsOperation serial x s t := by
  obtain ⟨hr, hkept⟩ := h
  rw [if_pos rfl] at hr
  refine ⟨?_, hr, hkept⟩
  have hreplied : HttpOutcome.Replied parseInt o r := by
    rw [hr]
    exact HttpOutcome.prepareReply_replied parseInt o
  cases hreplied with
  | answered =>
    exact Or.inr ⟨by simp, (), rfl⟩
  | failed hdefinitive hcause =>
    refine Or.inl ⟨_, rfl, fun _ hdeadline => ?_⟩
    rw [hdeadline] at hdefinitive
    cases hdefinitive
  | _ =>
    exact Or.inl ⟨_, rfl, by simp⟩

/-- In the surroundings of an ambiguous preparation every call is answered. -/
theorem prepareEnv_answered {x : String} (ho : o.prepareReply parseInt = .raised .ambiguous)
    {c : Call} {s t : Process} {r : Reply} (h : PrepareEnv parseInt o serial d x c s r t) :
    c.answeredBy false r = true := by
  obtain ⟨hr, -⟩ := h
  split_ifs at hr with hc
  · rw [hc, hr, ho]
    rfl
  · exact hr

theorem prepareTarget_withholds (hnet : cfg.network = true)
    (hstart : Startable serial d dEpoch s) (ho : o.undecodable parseInt = false) :
    Leads (PrepareEnv parseInt o serial d (requestIn s serial).reqId)
      (Loop.prepareTarget cfg serial p pEpoch d dEpoch) s
      fun l _ t => SlotWithheld o (requestIn s serial).reqId l t := by
  generalize hx : (requestIn s serial).reqId = x
  have hne : x ≠ "" := by
    rintro rfl
    have hadopts := hstart.adopts
    rw [hx] at hadopts
    cases hadopts
  have hcalled : Unfreed x (s.update (prepareCalled serial d dEpoch x)) := prepareCalled_unfreed s
  -- A call that leaves the slot as it is.
  have huntouched {r : Reply} {t u : Process}
      (hr : PrepareEnv parseInt o serial d x (.prepareRequest d x)
        (s.update (prepareCalled serial d dEpoch x)) r t)
      (hu : u.shared.scheduler.slotLeases.get? x = t.shared.scheduler.slotLeases.get? x) :
      SlotWithheld o x [⟨.prepareRequest d x, r, s.update (prepareCalled serial d dEpoch x), t⟩]
        u := by
    refine Until.cons hcalled (Until.of_visits (by simp) (Or.inl ?_))
    exact unfreed_of_leases hcalled (hu.trans (prepareEnv_understood hr).2.2.lease)
  refine leads_prepareTarget hx hstart rfl (fun r t hr => (prepareEnv_understood hr).1)
    (fun r t hr _ => huntouched hr rfl) ?_ fun t hr => huntouched hr rfl
  intro e t hr hexc
  obtain ⟨-, hreply, hkept⟩ := prepareEnv_understood hr
  have hreplied := HttpOutcome.prepareReply_replied parseInt o
  rw [← hreply] at hreplied
  cases hreplied with
  | ambiguous =>
    have hrequest : (requestIn t serial).reqId = x := by
      rw [hkept.request, ← hx]
      rfl
    have hunknown := hstart.unknown
    have hfresh := hstart.untouched
    rw [hx] at hunknown hfresh
    refine (prepareFailed_ambiguous_withholds hnet hne
      (unfreed_of_leases hcalled hkept.lease) hrequest
      (hkept.refs.trans (prepareCalled_cleanupRefs hunknown)) (fun c s r t h => h.2)
      (fun c s r t h => prepareEnv_answered hreply.symm h)).mono fun l r u hu => ?_
    refine Until.cons hcalled (hu.mono fun seen hseen => Or.inr ⟨_, rfl, ?_⟩)
    intro ref href
    rw [(prepareCalled_attempted hfresh).mp href]
    exact hseen.cons _
  | cancelled =>
    cases hexc
  | failed hdefinitive hcause =>
    have hexplicit : o.explicitError = true := by
      rw [ho] at hcause
      simpa using hcause
    rw [leads_prepareFailed_definitive hdefinitive]
    refine Atomic.leads ((Atomic.attempt _).bind fun _ => trivial) fun r u => ?_
    exact Until.cons hcalled fun seen w _ => Or.inr (Or.inl hexplicit)

theorem prepareTarget_frees (hstart : Startable serial d dEpoch s)
    (ho : o.undecodable parseInt = true) :
    Leads (PrepareEnv parseInt o serial d (requestIn s serial).reqId)
      (Loop.prepareTarget cfg serial p pEpoch d dEpoch) s
      fun l _ t => ¬ SlotWithheld o (requestIn s serial).reqId l t := by
  generalize hx : (requestIn s serial).reqId = x
  obtain ⟨e, hreply, hdefinitive⟩ := HttpOutcome.prepareReply_of_undecodable ho
  have hfresh := hstart.untouched
  rw [hx] at hfresh
  refine leads_prepareTarget hx hstart rfl (fun r t hr => (prepareEnv_understood hr).1) ?_ ?_ ?_
  · rintro r t hr rfl
    rw [(prepareEnv_understood hr).2.1.symm] at hreply
    cases hreply
  · intro e' t hr _
    obtain ⟨-, he', hkept⟩ := prepareEnv_understood hr
    rw [hreply] at he'
    cases he'
    obtain ⟨lease, hlease, hreserved⟩ :=
      prepareCalled_lease serial d dEpoch x s.shared
    have hrequest : (requestIn t serial).reqId = x := by
      rw [hkept.request, ← hx]
      rfl
    refine (prepareFailed_definitive_frees hdefinitive hrequest (hkept.lease.trans hlease)
      hreserved).mono fun l r u hu hwithheld => ?_
    obtain ⟨rfl, -, hfreed⟩ := hu
    -- The only call was the preparation itself.
    rcases hwithheld _ u .last with hunfreed | hexplicit | ⟨v, hv, hobserved⟩
    · exact hunfreed hfreed
    · rw [HttpOutcome.explicitError_of_undecodable ho] at hexplicit
      cases hexplicit
    · cases hv
      obtain ⟨v, hv, status, hcall, -⟩ :=
        hobserved _ ((prepareCalled_attempted hfresh).mpr rfl)
      cases List.mem_singleton.mp hv
      cases hcall
  · intro t hr
    rw [(prepareEnv_understood hr).2.1.symm] at hreply
    cases hreply
    cases hdefinitive

theorem prepareEnv_answers (x : String) (c : Call) (s : Process) :
    ∃ r t, PrepareEnv parseInt o serial d x c s r t := by
  by_cases hc : c = .prepareRequest d x
  · exact ⟨o.prepareReply parseInt, s, by rw [if_pos hc], ⟨rfl, rfl, rfl, rfl⟩⟩
  · refine ⟨.raised .other, s, ?_, ⟨rfl, rfl, rfl, rfl⟩⟩
    rw [if_neg hc]
    cases c <;> rfl

/--
The slot of a request stays withheld in every run of the preparation exactly
when a success of the call can be understood.
-/
theorem prepare_withholds_slot_iff (cfg : Settings) (hnet : cfg.network = true)
    (parseInt : String → Option Int) (o : HttpOutcome) (serial : Nat)
    (p pEpoch d dEpoch : String) (s : Process) (hstart : Startable serial d dEpoch s) :
    Leads (PrepareEnv parseInt o serial d (requestIn s serial).reqId)
        (Loop.prepareTarget cfg serial p pEpoch d dEpoch) s
        (fun l _ t => SlotWithheld o (requestIn s serial).reqId l t) ↔
      o.undecodable parseInt = false := by
  constructor
  · intro h
    by_contra ho
    have hboth := h.and (prepareTarget_frees hstart (by simpa using ho))
    obtain ⟨l, r, t, hwithheld, hfreed⟩ := hboth.run (prepareEnv_answers _)
    exact hfreed hwithheld
  · exact prepareTarget_withholds hnet hstart

/-- The first request of a small deployment can be started on `d0`. -/
theorem justAdmitted_startable : Startable 0 "d0" "f1" (justAdmitted true) where
  adopts := by decide +kernel
  epoch := by decide +kernel
  capacity := rfl
  unknown := by decide +kernel
  untouched := by decide +kernel

theorem lost_response_withholds_slot :
    Leads (PrepareEnv (fun _ => none) .transportError 0 "d0"
        (requestIn (justAdmitted true) 0).reqId)
      (Loop.prepareTarget (smallSettings true false []) 0 "p0" "e1" "d0" "f1") (justAdmitted true)
      (fun l _ t => SlotWithheld .transportError (requestIn (justAdmitted true) 0).reqId l t) :=
  (prepare_withholds_slot_iff (smallSettings true false []) rfl (fun _ => none) .transportError 0
    "p0" "e1" "d0" "f1" (justAdmitted true) justAdmitted_startable).mpr rfl

/-- The worker prepares a target and answers with a body that is no JSON document. -/
def garbledSuccess : Reply :=
  (HttpOutcome.response 200 .text false).prepareReply fun _ => none

/-- The run in which the answer to the preparation of the first target cannot be read. -/
def preparedUnread : State :=
  runFrom (smallSettings true false []) (smallWorld true)
    [.launch (.chat { requestId := "r1" }), .task 0 .ok, .main .ok, .main garbledSuccess]

/-- The slot is free again although the reference of the preparation was never queried. -/
theorem unread_success_frees_slot :
    (smallWorld true).Initial ∧
      (runFrom (smallSettings true false []) (smallWorld true)
        [.launch (.chat { requestId := "r1" }), .task 0 .ok, .main .ok]).main.map Prod.fst =
        some (.prepareRequest "d0" "r1") ∧
      (preparedUnread.sys.shared.scheduler.slotLeases.get? "r1").map DecodeSlotLease.state =
        some .released ∧
      (preparedUnread.sys.shared.scheduler.decodeSlots.get? "d0").map SlotCount.free = some 2 ∧
      preparedUnread.sys.shared.control.attemptedRefs = [⟨1, "d0", "f1", "r1"⟩] :=
  ⟨smallWorld_initial true, by decide +kernel⟩

end Outcomes

end Preparing

end PrismServe
