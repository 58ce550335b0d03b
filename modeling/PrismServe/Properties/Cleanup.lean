import PrismServe.Lib.Methods
import PrismServe.Properties.ReleaseEvidence
import PrismServe.Frame.Tracking
import PrismServe.Machine

/-!
# The canonical cleanup

The one owner of a request's terminal resource changes returns, whatever the workers
answer, exactly when the request is cleanable: with network control it needs the
lease of its slot, and in legacy mode its state has to accept the release.  The one
answer that it does not survive is a status whose held resources cannot be read.

The shutdown joins the cleanups of all tracked requests, which run side by side; it
returns exactly when every cleanup that ended in time was that of a cleanable request.
-/

namespace PrismServe

open Lib Lib.Prog

/-! ## When a cleanup returns -/

/--
Surroundings in which nothing happens to a request: workers answer or fail, the
kinds of held resources can be read, and no transfer of its operation starts or
completes.
-/
def Undisturbed (serial : Nat) : Surroundings := fun c s x t =>
  c.answeredBy false x = true ∧ x ≠ .raised .cancelled ∧
    requestIn t serial = requestIn s serial ∧
    (Loop.operationOf (requestIn s serial) ∈ t.shared.control.normalTasks →
      Loop.operationOf (requestIn s serial) ∈ s.shared.control.normalTasks) ∧
    x.unreadable = false

/-- A request past waiting names its decode instance, and a prefilling one its prefill instance. -/
def RequestInfo.Assigned (r : RequestInfo) : Prop :=
  (r.state ≠ .waiting → r.decodeInstance ≠ "") ∧
    (r.state = .prefilling → r.prefillInstance ≠ "")

/-- The states for which a cleanup proof can be valid, or an epoch that makes it unnecessary. -/
def legacyAccepts (s : Process) (req : RequestInfo) : Bool :=
  match req.state with
  | .waiting => true
  | .prefilling => true
  | .kvPending => true
  | .recomputing => true
  | .decoding => true
  | _ => !decodeCurrent s req

/-- Whether the cleanup of a request returns whatever the workers answer. -/
def cleanable (cfg : Settings) (s : Process) (serial : Nat) : Bool :=
  if cfg.network then
    s.shared.scheduler.slotLeases.contains (Loop.operationOf (requestIn s serial))
  else legacyAccepts s (requestIn s serial)

/-- The request has left the tracker, or waits in a terminal state for its release. -/
def Retired (cfg : Settings) (serial : Nat) (t : Process) : Prop :=
  t.shared.tracker.isCurrent serial = false ∨
    cfg.network = true ∧
      ((requestIn t serial).state = .aborted ∨ (requestIn t serial).state = .finished)

namespace CleanupProof

variable {proof : CleanupProof}

theorem valid_kvPending (h : proof.requestState = .kvPending) :
    proof.valid = (proof.decodeEvidence &&
      ((decide (proof.transferMode = .deferred) &&
          decide (proof.transferState = .deferredCancelled)) ||
        (decide (proof.transferMode = .inflight) &&
          (decide (proof.transferState = .fencedAck) ||
            decide (proof.transferState = .uncertain))))) := by
  simp only [valid, h]

theorem valid_decoding (h : proof.requestState = .decoding) :
    proof.valid = (proof.decodeEvidence && proof.noTransfer) := by
  simp only [valid, h]

theorem valid_recomputing (h : proof.requestState = .recomputing) :
    proof.valid = (proof.decodeEvidence && decide (proof.transferState = .fencedAck) &&
      decide (proof.transferMode = .none)) := by
  simp only [valid, h]

end CleanupProof

section Legacy

variable {cfg : Settings} {serial : Nat} {s u : Process} {l : List Trip} {e : Evidence}

/-- The request stays as it is through own steps and undisturbed visits. -/
theorem request_eq_of_leaves :
    ∀ {l : List Trip} {s : Process},
      Leaves (fun w => w.tracker.info serial) s l u →
      (∀ v ∈ l, requestIn v.back serial = requestIn v.left serial) →
      requestIn u serial = requestIn s serial
  | [], _, h, _ => h
  | v :: l, _, h, hv => by
      have hrest := request_eq_of_leaves (l := l) h.2 fun v' hv' =>
        hv v' (List.mem_cons_of_mem _ hv')
      rw [hrest, hv v List.mem_cons_self]
      exact h.1

/-- Evidence about an undisturbed request is accepted where `legacyAccepts` says so. -/
theorem accepted_of_legacyAccepts (hfound : EvidenceFound cfg serial s l e u)
    (hsame : ∀ v ∈ l, requestIn v.back serial = requestIn v.left serial)
    (hassigned : (requestIn s serial).Assigned)
    (hprefill : (requestIn s serial).state = .prefilling →
      (requestIn s serial).publishOutcome = .acked)
    (haccepts : legacyAccepts s (requestIn s serial) = true) :
    e.rejected (requestIn s serial) (requestIn u serial) = false := by
  have hu := request_eq_of_leaves hfound.leaves_request hsame
  rw [hu]
  obtain @⟨l₁, l₂, l₃, transfer, prefill, decode, u₁, u₂, u₃, h₁, h₂, h₃⟩ := hfound
  have hu₂ := request_eq_of_leaves (h₁.leaves_request.append (h₂.leaves _))
    fun v hv => hsame v (by
      rcases List.mem_append.mp hv with hv | hv
      · exact List.mem_append_left _ hv
      · exact List.mem_append_right _ (List.mem_append_left _ hv))
  by_contra hrej
  simp only [Evidence.rejected, Bool.not_eq_false, Bool.and_eq_true, Bool.not_eq_true'] at hrej
  obtain ⟨⟨⟨hp, hd⟩, hs⟩, hvalid⟩ := hrej
  rw [← Bool.not_eq_true] at hvalid
  apply hvalid
  -- A request past prefill owns no load, and its decode instance has answered.
  have past (hstate : knownToDecode (requestIn s serial).state = true) :
      (Evidence.mk transfer prefill decode |>.proof (requestIn s serial)
        (requestIn s serial)).decodeEvidence = true := by
    have hne : (requestIn s serial).state ≠ .prefilling ∧
        (requestIn s serial).state ≠ .waiting := by
      constructor <;> intro h <;> simp [h, knownToDecode] at hstate
    have howns : ownsPrefill (requestIn s serial) = false := by simp [ownsPrefill, hne.1]
    have hownd : ownsDecode (requestIn s serial) = true := by
      simp [ownsDecode, hne.2, hassigned.1]
    rw [howns] at h₂
    obtain ⟨-, -, rfl⟩ := h₂.of_unowned
    have hans := h₃.answered hs hd (by rw [hu₂]; exact hstate)
    simpa [CleanupProof.decodeEvidence, Evidence.proof, howns, hownd, hne.2] using hans
  cases hstate : (requestIn s serial).state with
  | waiting =>
    obtain ⟨rfl, rfl, rfl⟩ := h₁.of_notPending (by simp [hstate])
    have howns : ownsPrefill (requestIn s serial) = false := by simp [ownsPrefill, hstate]
    rw [howns] at h₂
    obtain ⟨rfl, rfl, rfl⟩ := h₂.of_unowned
    obtain ⟨rfl, rfl, rfl⟩ := h₃.of_unknown (by simp [hstate, knownToDecode])
    simp [CleanupProof.valid, CleanupProof.noTransfer, Evidence.proof, hstate, howns, ownsDecode]
  | prefilling =>
    obtain ⟨rfl, rfl, rfl⟩ := h₁.of_notPending (by simp [hstate])
    have howns : ownsPrefill (requestIn s serial) = true := by
      simp [ownsPrefill, hstate, hassigned.2 hstate]
    have hownd : ownsDecode (requestIn s serial) = true := by
      simp [ownsDecode, hstate, hassigned.1]
    obtain ⟨rfl, rfl, rfl⟩ := h₃.of_unknown (by simp [hu₂, hstate, knownToDecode])
    rw [howns] at h₂
    rcases h₂.answered hp with hack | hack <;>
      simp [CleanupProof.valid, CleanupProof.noTransfer, CleanupProof.prefillEvidence,
        Evidence.proof, hstate, howns, hownd, hack, hprefill hstate]
  | kvPending =>
    have htransfer := h₁.of_pending hstate (h₃.target_unchanged hd) hs
    rw [CleanupProof.valid_kvPending hstate, past (by simp [hstate, knownToDecode])]
    simpa [Evidence.proof, hstate] using htransfer
  | recomputing =>
    obtain ⟨rfl, rfl, rfl⟩ := h₁.of_notPending (by simp [hstate])
    rw [CleanupProof.valid_recomputing hstate, past (by simp [hstate, knownToDecode])]
    simp [Evidence.proof, hstate]
  | decoding =>
    obtain ⟨rfl, rfl, rfl⟩ := h₁.of_notPending (by simp [hstate])
    rw [CleanupProof.valid_decoding hstate, past (by simp [hstate, knownToDecode])]
    simp [CleanupProof.noTransfer, Evidence.proof, hstate]
  | _ =>
    -- The remaining states are accepted only because the decode epoch has changed.
    obtain ⟨rfl, rfl, rfl⟩ := h₁.of_notPending (by simp [hstate])
    have hownd : ownsDecode (requestIn s serial) = true := by
      simp [ownsDecode, hstate, hassigned.1]
    have hchanged : decodeCurrent s (requestIn s serial) = false := by
      simpa [legacyAccepts, hstate] using haccepts
    have htarget := h₃.target_unchanged hd
    simp [hownd, hchanged] at htarget

/-- Where `legacyAccepts` denies it, the evidence about a request is rejected at once. -/
theorem rejected_of_not_legacyAccepts (hfound : EvidenceFound cfg serial s l e u)
    (haccepts : legacyAccepts s (requestIn s serial) = false) :
    e.rejected (requestIn s serial) (requestIn u serial) = true := by
  obtain @⟨l₁, l₂, l₃, transfer, prefill, decode, u₁, u₂, u₃, h₁, h₂, h₃⟩ := hfound
  have hcurrent : decodeCurrent s (requestIn s serial) = true := by
    unfold legacyAccepts at haccepts
    split at haccepts <;> simp_all
  cases hstate : (requestIn s serial).state with
  | waiting =>
    simp [legacyAccepts, hstate] at haccepts
  | prefilling =>
    simp [legacyAccepts, hstate] at haccepts
  | kvPending =>
    simp [legacyAccepts, hstate] at haccepts
  | recomputing =>
    simp [legacyAccepts, hstate] at haccepts
  | decoding =>
    simp [legacyAccepts, hstate] at haccepts
  | _ =>
    obtain ⟨rfl, rfl, rfl⟩ := h₁.of_notPending (by simp [hstate])
    have howns : ownsPrefill (requestIn s serial) = false := by simp [ownsPrefill, hstate]
    rw [howns] at h₂
    obtain ⟨rfl, rfl, rfl⟩ := h₂.of_unowned
    obtain ⟨rfl, rfl, rfl⟩ := h₃.of_unknown (by simp [hstate, knownToDecode])
    simp [Evidence.rejected, Evidence.proof, CleanupProof.valid, hstate, hcurrent]

end Legacy

/-! The end of a cleanup. -/

section Retiring

variable {R : Surroundings} {s : Process}

theorem leads_transition {Φ : List Trip → Except Exc Unit → Process → Prop} {x : String}
    {n : Nat} {new : SeqState} {kw : RequestInfo → RequestInfo}
    (hx : s.shared.tracker.get? x = some n) (ha : (s.shared.stateOf n).allows new = true) :
    Leads R (Loop.transition x new kw) s Φ ↔
      Φ [] (.ok ()) (s.update (World.shift n new kw)) := by
  have hok : s.shared.tracker.transition s.shared.now x new kw = _ := transition_eq_shift hx ha
  exact leads_attempt_ok (by simp only [hok]; rfl)

/-- What `retireRequest` makes of the tracker. -/
def retiredIn (serial : Nat) (released : Bool) (w : World) : World :=
  if w.tracker.isCurrent serial then
    let aborted :=
      if w.stateOf serial = .finished ∨ w.stateOf serial = .aborted then w
      else w.shift serial .aborted id
    if released then
      { aborted with
        history := .removedSilently serial :: aborted.history
        tracker := aborted.tracker.remove (w.idOf serial) }
    else aborted
  else w

theorem leads_retireRequest {Φ : List Trip → Except Exc Unit → Process → Prop} (serial : Nat)
    (released : Bool) :
    Leads R (Loop.retireRequest serial released) s Φ ↔
      Φ [] (.ok ()) (s.update (retiredIn serial released)) := by
  unfold Loop.retireRequest
  rw [Prog.bind_eq, leads_read_bind]
  change Leads R (Loop.when (s.shared.tracker.isCurrent serial) _) s _ ↔ _
  unfold Loop.when
  cases hcur : s.shared.tracker.isCurrent serial with
  | false =>
    simp [Sys.update, retiredIn, hcur]
  | true =>
    have hget : s.shared.tracker.get? (s.shared.idOf serial) = some serial :=
      World.Tracks.isCurrent.mp hcur
    rw [if_pos rfl]
    by_cases hend : s.shared.stateOf serial = .finished ∨ s.shared.stateOf serial = .aborted
    · have hskip : (decide (s.shared.stateOf serial ≠ .finished) &&
          decide (s.shared.stateOf serial ≠ .aborted)) = false := by
        rcases hend with h | h <;> simp [h]
      change Leads R (Prog.bind (if (decide (s.shared.stateOf serial ≠ .finished) &&
        decide (s.shared.stateOf serial ≠ .aborted)) = true then _ else _) _) s _ ↔ _
      rw [hskip]
      cases released
      · simp [Sys.update, retiredIn, hcur, hend]
        rfl
      · simp [Sys.update, retiredIn, hcur, hend, Loop.observe, Loop.remove]
        rfl
    · have hgo : (decide (s.shared.stateOf serial ≠ .finished) &&
          decide (s.shared.stateOf serial ≠ .aborted)) = true := by
        simpa [not_or] using hend
      change Leads R (Prog.bind (if (decide (s.shared.stateOf serial ≠ .finished) &&
        decide (s.shared.stateOf serial ≠ .aborted)) = true then _ else _) _) s _ ↔ _
      rw [hgo, if_pos rfl, leads_bind]
      refine (leads_transition hget (by simp [SeqState.allows])).trans ?_
      cases released
      · simp [Sys.update, retiredIn, hcur, hend]
      · simp [Sys.update, retiredIn, hcur, hend, Loop.observe, Loop.remove]
        rfl

theorem retiredIn_released (serial : Nat) (w : World) :
    (retiredIn serial true w).tracker.isCurrent serial = false := by
  unfold retiredIn
  cases hcur : w.tracker.isCurrent serial with
  | false =>
    simpa using hcur
  | true =>
    rw [if_pos rfl, if_pos rfl]
    have hid : ((if w.stateOf serial = .finished ∨ w.stateOf serial = .aborted then w
        else w.shift serial .aborted id).tracker.info serial).reqId = w.idOf serial := by
      split
      · rfl
      · exact shift_idOf .aborted id
    unfold RequestTracker.isCurrent
    rw [RequestTracker.remove_info, hid]
    simp [RequestTracker.remove]

theorem retiredIn_kept (serial : Nat) (w : World) :
    (retiredIn serial false w).tracker.isCurrent serial = false ∨
      (retiredIn serial false w).stateOf serial = .aborted ∨
      (retiredIn serial false w).stateOf serial = .finished := by
  unfold retiredIn
  cases hcur : w.tracker.isCurrent serial with
  | false =>
    exact Or.inl (by simpa using hcur)
  | true =>
    rw [if_pos rfl, if_neg (by simp)]
    by_cases hend : w.stateOf serial = .finished ∨ w.stateOf serial = .aborted
    · rw [if_pos hend]
      exact Or.inr hend.symm
    · rw [if_neg hend]
      exact Or.inr (Or.inl (by simp))

end Retiring

section Returning

variable {cfg : Settings} {serial : Nat} {s : Process} {R : Surroundings}

theorem legacyRelease_returns (hR : ∀ c s x t, R c s x t → Undisturbed serial c s x t)
    (hassigned : (requestIn s serial).Assigned)
    (haccepts : legacyAccepts s (requestIn s serial) = true) :
    Leads R (Loop.legacyRelease cfg serial) s fun _ r _ => r = .ok () := by
  have hfit : Answering false R :=
    fun c s x t hx => (hR c s x t hx).1
  have hfence (hpublish : (requestIn s serial).state = .prefilling →
      (requestIn s serial).publishOutcome = .acked) :
      Leads R (Loop.legacyRelease cfg serial) s fun _ r _ => r = .ok () := by
    rw [leads_legacyRelease_fence hpublish]
    refine (leads_fence cfg serial hfit).visits.mono fun l r t h => ?_
    obtain ⟨hends, hvisits⟩ := h
    have hsame : ∀ v ∈ l, requestIn v.back serial = requestIn v.left serial :=
      fun v hv => (hR _ _ _ _ (hvisits v hv)).2.2.1
    cases r with
    | ok a =>
      rfl
    | error x =>
      rcases hends with ⟨v, hv, rfl, hraised⟩ | ⟨e, hfound, hrej⟩
      · exact absurd hraised (hR _ _ _ _ (hvisits v hv)).2.1
      · rw [accepted_of_legacyAccepts hfound hsame hassigned hpublish haccepts] at hrej
        exact absurd hrej (by simp)
  by_cases hstate : (requestIn s serial).state = .prefilling
  · cases hpublish : (requestIn s serial).publishOutcome with
    | acked =>
      exact hfence fun _ => hpublish
    | notStarted =>
      rw [leads_legacyRelease_notStarted hstate hpublish]
    | unknown =>
      refine (leads_legacyRelease_unknown hstate hpublish hfit (fun v hv hraised u => ?_) ?_ ?_)
      · exact absurd hraised (hR _ _ _ _ hv).2.1
      · exact fun _ _ _ => rfl
      · exact fun _ => rfl
  · exact hfence fun h => absurd h hstate

theorem legacyRelease_raises (hfit : Answering false R)
    (haccepts : legacyAccepts s (requestIn s serial) = false) :
    Leads R (Loop.legacyRelease cfg serial) s fun _ r _ => r ≠ .ok () := by
  have hfence : Leads R (Loop.fenceAndAbortRequest cfg serial) s fun _ r _ => r ≠ .ok () := by
    refine (leads_fence cfg serial hfit).mono fun l r t h => ?_
    cases r with
    | error e =>
      simp
    | ok a =>
      obtain ⟨e, u, hfound, hrej, -⟩ := h
      simp [rejected_of_not_legacyAccepts hfound haccepts] at hrej
  refine (leads_legacyRelease_fence fun hstate => ?_).mpr hfence
  simp [legacyAccepts, hstate] at haccepts

end Returning

section Canonical

variable {cfg : Settings} {serial : Nat} {s : Process} {R : Surroundings}
variable {Φ : List Trip → Except Exc Unit → Process → Prop}

/-- The entry of a cleanup into the history. -/
def cleanupNoted (serial : Nat) (w : World) : World :=
  let entry := Observation.cleanupEntered serial (w.tracker.info serial).state
    (decide ((w.tracker.info serial).prefillInstance ≠ ""))
  { w with history := entry :: w.history }

/-- In network mode the prefill load is given back before anything is asked. -/
def networkEntered (serial : Nat) (w : World) : World :=
  if (w.tracker.info serial).prefillInstance = "" then cleanupNoted serial w
  else { cleanupNoted serial w with
    scheduler := prefillGivenBack (w.tracker.info serial) w.scheduler }

/-- How a cleanup goes on after the slot was released or left quarantined. -/
def networkLeft (req : RequestInfo) (serial : Nat) (released : Bool) (w : World) : World :=
  retiredIn serial released (if released then ledgerClosed req w else w)

theorem leads_canonicalCleanup_network (hnet : cfg.network = true)
    (hcur : s.shared.tracker.isCurrent serial = true) :
    Leads R (Loop.canonicalCleanup cfg serial) s Φ ↔
      Leads R (Loop.cleanupRequest serial true) (s.update (networkEntered serial))
        fun l r u =>
          match r with
          | .ok released =>
            Φ l (.ok ()) (u.update (networkLeft (requestIn s serial) serial released))
          | .error e => Φ l (.error e) u := by
  unfold Loop.canonicalCleanup
  rw [Prog.bind_eq, leads_read_bind]
  unfold Loop.when
  rw [hcur, if_pos rfl, hnet]
  have hrest : ∀ u : Process,
      Leads R ((Loop.cleanupRequest serial true).bind fun released =>
        Prog.bind (if released = true then Loop.finishRequest (requestIn s serial).reqId
          else .ret ()) fun _ => Loop.retireRequest serial released) u Φ ↔
      Leads R (Loop.cleanupRequest serial true) u fun l r u =>
        match r with
        | .ok released =>
          Φ l (.ok ()) (u.update (networkLeft (requestIn s serial) serial released))
        | .error e => Φ l (.error e) u := by
    intro u
    rw [leads_bind]
    refine leads_congr fun l r t => ?_
    cases r with
    | error e =>
      rfl
    | ok released =>
      rw [after_ok, leads_bind]
      cases released with
      | false =>
        rw [if_neg (by simp), leads_ret, after_ok, leads_retireRequest]
        simp [networkLeft, Sys.update]
      | true =>
        refine leads_modify.trans ?_
        simp [leads_retireRequest, networkLeft, ledgerClosed, Sys.update]
  change Leads R (Prog.bind (if decide ((s.shared.tracker.info serial).prefillInstance ≠ "") = true
      then Loop.onPrefillDone _ _ else .ret ()) fun _ => _) (s.update (cleanupNoted serial)) Φ ↔ _
  by_cases hp : (s.shared.tracker.info serial).prefillInstance = ""
  · have hentered : s.update (networkEntered serial) = s.update (cleanupNoted serial) := by
      simp [networkEntered, Sys.update, hp]
    rw [hentered, if_neg (by simp [hp])]
    exact hrest _
  · have hentered : s.update (networkEntered serial) =
        (s.update (cleanupNoted serial)).update (fun w => { w with
          scheduler := prefillGivenBack (requestIn s serial) w.scheduler }) := by
      simp [networkEntered, Sys.update, hp]
      rfl
    rw [hentered, if_pos (by simp [hp])]
    exact hrest _

theorem leads_canonicalCleanup_legacy (hnet : cfg.network = false)
    (hcur : s.shared.tracker.isCurrent serial = true) :
    Leads R (Loop.canonicalCleanup cfg serial) s Φ ↔
      Leads R (Loop.legacyRelease cfg serial) (s.update (cleanupNoted serial))
        fun l r u =>
          match r with
          | .ok _ => Φ l (.ok ()) (u.update (retiredIn serial true))
          | .error e => Φ l (.error e) u := by
  unfold Loop.canonicalCleanup
  rw [Prog.bind_eq, leads_read_bind]
  unfold Loop.when
  rw [hcur, if_pos rfl, hnet]
  change Leads R (Prog.bind (Loop.legacyRelease cfg serial) fun _ =>
    Loop.retireRequest serial true) (s.update (cleanupNoted serial)) Φ ↔ _
  rw [leads_bind]
  refine leads_congr fun l r t => ?_
  cases r with
  | error e =>
    rfl
  | ok _ =>
    simp [leads_retireRequest]

/-! A cleanup returns exactly where `cleanable` says so. -/

theorem undisturbed_answers (serial : Nat) (c : Call) (s : Process) :
    ∃ x t, Undisturbed serial c s x t := by
  refine ⟨.raised .other, s, ?_, by simp, rfl, id, rfl⟩
  cases c <;> rfl

/-- No transfer of the operation has started in undisturbed surroundings. -/
theorem idle_of_leaves {t : Process} :
    ∀ {l : List Trip} {s : Process}, Leaves apart s l t →
      (∀ v ∈ l, Undisturbed serial v.call v.left v.reply v.back) →
      Loop.operationOf (requestIn s serial) ∉ s.shared.control.normalTasks →
      Loop.operationOf (requestIn s serial) ∉ t.shared.control.normalTasks
  | [], s, h, _, hidle => by
      have htasks : t.shared.control.normalTasks = s.shared.control.normalTasks :=
        congrArg Prod.snd h
      rwa [htasks]
  | v :: l, s, h, hv, hidle => by
      obtain ⟨-, -, hreq, htasks, -⟩ := hv v List.mem_cons_self
      have hleft : requestIn v.left serial = requestIn s serial :=
        congrArg (fun a : RequestTracker × List String => a.1.info serial) h.1
      have hidle' : v.left.shared.control.normalTasks = s.shared.control.normalTasks :=
        congrArg Prod.snd h.1
      rw [hleft] at hreq htasks
      rw [← hreq]
      refine idle_of_leaves h.2 (fun v' hv' => hv v' (List.mem_cons_of_mem _ hv')) ?_
      rw [hreq]
      exact fun hmem => hidle (hidle' ▸ htasks hmem)

theorem cleanupRequest_returns
    (hlease : s.shared.scheduler.slotLeases.contains (Loop.operationOf (requestIn s serial)) =
      true) :
    Leads (Undisturbed serial) (Loop.cleanupRequest serial true) s fun _ r _ => ∃ b, r = .ok b := by
  refine (leads_cleanupRequest serial true fun c s x t hx => hx.1).visits.mono fun l r t h => ?_
  obtain ⟨hends, hvisits⟩ := h
  cases hends with
  | lost h =>
    simp [Dict.contains, h] at hlease
  | unproven hlease hapart =>
    exact ⟨false, rfl⟩
  | running hapart hidle hrunning =>
    exact absurd hrunning (idle_of_leaves hapart hvisits hidle)
  | cutShort hv hcut =>
    obtain ⟨hfit, hlive, -⟩ := hvisits _ hv
    exact absurd (hcut.cancelled hfit) hlive
  | unreadable hv hread =>
    obtain ⟨-, -, -, -, hreadable⟩ := hvisits _ hv
    exact absurd (hread.symm.trans hreadable) (by simp)
  | _ =>
    exact ⟨true, rfl⟩

theorem cleanupRequest_raises
    (hlease : s.shared.scheduler.slotLeases.contains (Loop.operationOf (requestIn s serial)) =
      false) :
    Leads (Undisturbed serial) (Loop.cleanupRequest serial true) s fun _ r _ => ∀ b, r ≠ .ok b := by
  refine (leads_cleanupRequest serial true fun c s x t hx => hx.1).mono fun l r t h => ?_
  cases h with
  | already hsome hreleased =>
    simp [Dict.contains, hsome] at hlease
  | unproven hsome hapart =>
    simp [Dict.contains, hsome] at hlease
  | released hcleaned hapart hretire =>
    obtain ⟨hsome, -, -, -⟩ := hcleaned
    simp [Dict.contains, hsome] at hlease
  | _ =>
    simp

theorem networkEntered_request (serial : Nat) (s : Process) :
    requestIn (s.update (networkEntered serial)) serial = requestIn s serial := by
  unfold networkEntered requestIn
  simp only [Sys.update_shared]
  split <;> rfl

theorem networkEntered_slotLeases (serial : Nat) (w : World) :
    (networkEntered serial w).scheduler.slotLeases = w.scheduler.slotLeases := by
  unfold networkEntered
  split
  · rfl
  · exact onPrefillDone_leases _ _ _

theorem networkLeft_retired (hnet : cfg.network = true) (req : RequestInfo) (released : Bool)
    (t : Process) : Retired cfg serial (t.update (networkLeft req serial released)) := by
  cases released with
  | true =>
    exact Or.inl (retiredIn_released serial _)
  | false =>
    rcases retiredIn_kept serial t.shared with h | h
    · exact Or.inl h
    · exact Or.inr ⟨hnet, h⟩

theorem cleanable_network (hnet : cfg.network = true) :
    cleanable cfg s serial = (s.update (networkEntered serial)).shared.scheduler.slotLeases.contains
      (Loop.operationOf (requestIn (s.update (networkEntered serial)) serial)) := by
  rw [networkEntered_request, Sys.update_shared, networkEntered_slotLeases, cleanable, if_pos hnet]

theorem cleanable_legacy (hnet : cfg.network = false) :
    cleanable cfg s serial = legacyAccepts (s.update (cleanupNoted serial))
      (requestIn (s.update (cleanupNoted serial)) serial) :=
  if_neg (by simp [hnet])

theorem canonicalCleanup_returns (hcur : s.shared.tracker.isCurrent serial = true)
    (hassigned : (requestIn s serial).Assigned) (hclean : cleanable cfg s serial = true) :
    Leads (Undisturbed serial) (Loop.canonicalCleanup cfg serial) s fun _ r t =>
      r = .ok () ∧ Retired cfg serial t := by
  cases hnet : cfg.network with
  | true =>
    rw [cleanable_network hnet] at hclean
    rw [leads_canonicalCleanup_network hnet hcur]
    refine (cleanupRequest_returns hclean).mono fun l r t h => ?_
    obtain ⟨released, rfl⟩ := h
    exact ⟨rfl, networkLeft_retired hnet _ released t⟩
  | false =>
    rw [cleanable_legacy hnet] at hclean
    rw [leads_canonicalCleanup_legacy hnet hcur]
    have hsame : (requestIn (s.update (cleanupNoted serial)) serial).Assigned := hassigned
    refine (legacyRelease_returns (fun c s x t hx => hx) hsame hclean).mono fun l r t h => ?_
    subst h
    exact ⟨rfl, Or.inl (retiredIn_released serial _)⟩

theorem canonicalCleanup_raises (hcur : s.shared.tracker.isCurrent serial = true)
    (hclean : cleanable cfg s serial = false) :
    Leads (Undisturbed serial) (Loop.canonicalCleanup cfg serial) s fun _ r _ => r ≠ .ok () := by
  cases hnet : cfg.network with
  | true =>
    rw [cleanable_network hnet] at hclean
    rw [leads_canonicalCleanup_network hnet hcur]
    refine (cleanupRequest_raises hclean).mono fun l r t h => ?_
    cases r with
    | ok b =>
      exact absurd rfl (h b)
    | error e =>
      simp
  | false =>
    rw [cleanable_legacy hnet] at hclean
    rw [leads_canonicalCleanup_legacy hnet hcur]
    refine (legacyRelease_raises (fun c s x t hx => hx.1) hclean).mono fun l r t h => ?_
    cases r with
    | ok b =>
      exact absurd rfl h
    | error e =>
      simp

theorem canonicalCleanup_leads_iff (hcur : s.shared.tracker.isCurrent serial = true)
    (hassigned : (requestIn s serial).Assigned) :
    Leads (Undisturbed serial) (Loop.canonicalCleanup cfg serial) s
        (fun _ r t => r = .ok () ∧ Retired cfg serial t) ↔
      cleanable cfg s serial = true := by
  constructor
  · intro h
    by_contra hclean
    have hboth := h.and (canonicalCleanup_raises hcur (by simpa using hclean))
    obtain ⟨l, r, t, ⟨hr, -⟩, hne⟩ := hboth.run (undisturbed_answers serial)
    exact hne hr
  · exact canonicalCleanup_returns hcur hassigned

/-! ## The shutdown -/

/-- A cleanup task that has ended; the cleanups of other requests are part of its surroundings. -/
structure EndedCleanup (cfg : Settings) (serial : Nat)
    extends Run World Call Reply Exc Task Unit where
  ran : toRun.Of (Undisturbed serial) (Loop.canonicalCleanup cfg serial)
  tracked : before.shared.tracker.isCurrent serial = true
  assigned : (requestIn before serial).Assigned

theorem EndedCleanup.result_iff (a : EndedCleanup cfg serial) :
    a.result = .ok () ↔ cleanable cfg a.before serial = true ∧ Retired cfg serial a.after := by
  cases hclean : cleanable cfg a.before serial with
  | true =>
    obtain ⟨hresult, hretired⟩ := a.ran.leads (canonicalCleanup_returns a.tracked a.assigned hclean)
    exact iff_of_true hresult ⟨rfl, hretired⟩
  | false =>
    have hraised := a.ran.leads (canonicalCleanup_raises a.tracked hclean)
    exact iff_of_false hraised (by simp)

theorem abortRemainingRequests_eq_ok {joinTimeout : Option Time}
    (hjoin : ∀ t ∈ joinTimeout, 0 < t) {ended : List (Option (Except Exc Unit))} :
    abortRemainingRequests joinTimeout ended = .ok () ↔
      ∀ x ∈ ended, ∀ result, x = some result → result = .ok () := by
  have hpositive : (joinTimeout.any fun t => decide (t ≤ 0)) = false := by
    cases joinTimeout with
    | none =>
      rfl
    | some t =>
      simpa using hjoin t rfl
  have hitem : ∀ x : Option (Except Exc Unit),
      x.getD (.ok ()) = .ok () ↔ ∀ result, x = some result → result = .ok () := by
    intro x
    cases x <;> simp
  unfold abortRemainingRequests
  cases ended with
  | nil =>
    simp
  | cons x rest =>
    simp only [List.isEmpty_cons, Bool.false_eq_true, if_false, hpositive, forM_eq_ok, hitem]

/-- A request has been admitted and the loop has not looked at it yet. -/
def justAdmitted (network : Bool) : Process :=
  (runFrom (smallSettings network false []) (smallWorld network)
    [.launch (.chat { requestId := "r1" }), .task 0 .ok]).sys

end Canonical

end PrismServe
