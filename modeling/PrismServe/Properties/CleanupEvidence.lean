import PrismServe.Lib.Interleaving
import PrismServe.Scheduler.Cleanup

/-!
# What a legacy cleanup finds out, and when

The cleanup of a request suspends at the remote abort of its transfer, at the
abort of its prefill and at the abort of its decode.  While it is suspended the
instances may change epoch or be quarantined, and the transfer may complete.
Each piece of evidence is described here by an inductive predicate over the
suspensions on the way: which calls were made, which answers they got, and in
which state of the instance scheduler they were judged.
-/

namespace PrismServe

open Lib Lib.Prog

/-- Whether a reply is an answer of a worker to a call of a cleanup, or its failure. -/
def Call.answeredBy (timed : Bool) : Call → Reply → Bool
  | .abortRequest _ _, .flag _ => true
  | .abortRequest _ _, .raised _ => true
  | .abortTransfer _ _ _ _, .flag _ => true
  | .abortTransfer _ _ _ _, .raised _ => true
  | .endpointAbort _ _, .ok => true
  | .endpointStatus _, .status _ => true
  | .finalize _ _ _ _, .finalized _ => true
  | .join, .ok => true
  | _, .raised e => timed || decide (e ≠ .deadline)
  | _, _ => false

abbrev Trip := Visit World Call Reply Task

abbrev Surroundings := Env World Call Reply Task

/-- Whatever is asked is answered as it may be. -/
def Answering (timed : Bool) (R : Surroundings) : Prop :=
  ∀ c s x t, R c s x t → c.answeredBy timed x = true

/-- The request object with a serial number. -/
def requestIn (s : Process) (serial : Nat) : RequestInfo := s.shared.tracker.info serial

/-- What a cleanup reads of a request besides its state. -/
structure Assignment where
  reqId : String
  prefillInstance : String
  prefillInstanceEpoch : String
  decodeInstance : String
  decodeInstanceEpoch : String
  transferOperationId : String
  publishOutcome : PublishOutcome
  deriving DecidableEq

def RequestInfo.assignment (r : RequestInfo) : Assignment where
  reqId := r.reqId
  prefillInstance := r.prefillInstance
  prefillInstanceEpoch := r.prefillInstanceEpoch
  decodeInstance := r.decodeInstance
  decodeInstanceEpoch := r.decodeInstanceEpoch
  transferOperationId := r.transferOperationId
  publishOutcome := r.publishOutcome

/-- A transfer that completes meanwhile moves its request on. -/
def SeqState.MovesTo (old new : SeqState) : Prop :=
  new = old ∨ old = .kvPending ∧ (new = .decoding ∨ new = .finished)

theorem SeqState.MovesTo.trans {a b c : SeqState} (h : a.MovesTo b) (h' : b.MovesTo c) :
    a.MovesTo c := by
  rcases h with rfl | ⟨rfl, hb⟩
  · exact h'
  · rcases h' with rfl | ⟨rfl, _⟩
    · exact Or.inr ⟨rfl, hb⟩
    · simp at hb

/-- The request keeps its assignment, and at most its transfer completes. -/
structure Kept (serial : Nat) (s t : Process) : Prop where
  assignment : (requestIn t serial).assignment = (requestIn s serial).assignment
  state : (requestIn s serial).state.MovesTo (requestIn t serial).state

namespace Kept

variable {serial : Nat} {s t u : Process}

theorem trans (h : Kept serial s t) (h' : Kept serial t u) : Kept serial s u :=
  ⟨h'.assignment.trans h.assignment, h.state.trans h'.state⟩

theorem of_request (h : requestIn t serial = requestIn s serial) : Kept serial s t :=
  ⟨by rw [h], Or.inl (by rw [h])⟩

/-- Visits that keep the request, and own steps that do not touch it. -/
theorem of_leaves :
    ∀ {l : List Trip} {s : Process},
      Leaves (fun w => w.tracker.info serial) s l t →
      (∀ v ∈ l, Kept serial v.left v.back) → Kept serial s t
  | [], _, h, _ => of_request h
  | v :: l, _, h, hv =>
    ((of_request h.1).trans (hv v List.mem_cons_self)).trans
      (of_leaves (l := l) h.2 fun v' hv' => hv v' (List.mem_cons_of_mem _ hv'))

end Kept

/--
The surroundings of a cleanup: the workers answer or fail, and whatever the
other tasks do, the request is kept.
-/
def Loyal (serial : Nat) : Surroundings := fun c s x t =>
  c.answeredBy false x = true ∧ Kept serial s t

/-- Whether the prefill epoch of an assignment is the current one. -/
def prefillCurrent (s : Process) (req : RequestInfo) : Bool :=
  s.shared.scheduler.epochMatches req.prefillInstance req.prefillInstanceEpoch

/-- Whether the decode epoch of an assignment is the current one. -/
def decodeCurrent (s : Process) (req : RequestInfo) : Bool :=
  s.shared.scheduler.epochMatches req.decodeInstance req.decodeInstanceEpoch

/-- The state of the request's transfer in the governor's ledger. -/
def transferStateIn (s : Process) (req : RequestInfo) : TaskState :=
  s.shared.governor.taskState req.reqId
    (if req.transferOperationId = "" then none else some req.transferOperationId)

/-! ## Lifted methods -/

section Lifts

variable {α : Type} {R : Surroundings} {s : Process}
variable {Φ : List Trip → Except Exc α → Process → Prop}

theorem leads_onControl_ok {f : NetworkControl → Except Exc (α × NetworkControl)} {a : α}
    {c : NetworkControl} (h : f s.shared.control = .ok (a, c)) :
    Leads R (Loop.onControl f) s Φ ↔
      Φ [] (.ok a) (s.update fun w => { w with control := c }) :=
  leads_attempt_ok (by simp [h])

theorem leads_onControl_error {f : NetworkControl → Except Exc (α × NetworkControl)} {e : Exc}
    (h : f s.shared.control = .error e) :
    Leads R (Loop.onControl f) s Φ ↔ Φ [] (.error e) s :=
  leads_attempt_error (by simp [h])

theorem leads_onScheduler_ok {f : Time → PDScheduler → Except Exc (α × PDScheduler)} {a : α}
    {w : PDScheduler} (h : f s.shared.now s.shared.scheduler = .ok (a, w)) :
    Leads R (Loop.onScheduler f) s Φ ↔
      Φ [] (.ok a) (s.update fun v => { v with scheduler := w }) :=
  leads_attempt_ok (by simp [h])

theorem leads_onScheduler_error {f : Time → PDScheduler → Except Exc (α × PDScheduler)} {e : Exc}
    (h : f s.shared.now s.shared.scheduler = .error e) :
    Leads R (Loop.onScheduler f) s Φ ↔ Φ [] (.error e) s :=
  leads_attempt_error (by simp [h])

end Lifts

/-! ## The remote aborts -/

section Aborts

variable {R : Surroundings} {s : Process}

/-- One remote abort: a positive answer, or anything else. -/
theorem leads_abortRemote {c : Call} {Φ : List Trip → Except Exc Bool → Process → Prop}
    (hfit : ∀ x t, R c s x t → (∃ b, x = .flag b) ∨ ∃ e, x = .raised e)
    (hok : ∀ x t, R c s x t → x ≠ .raised .cancelled →
      Φ [⟨c, x, s, t⟩] (.ok (decide (x = .flag true))) t)
    (hcancel : ∀ t u, R c s (.raised .cancelled) t →
      Φ [⟨c, .raised .cancelled, s, t⟩] (.error .cancelled) u) :
    Leads R (Loop.abortRemote c) s Φ := by
  unfold Loop.abortRemote Loop.exceptException Loop.waitFor Loop.timedCall
  intro x t hx
  rcases hfit x t hx with ⟨b, rfl⟩ | ⟨e, rfl⟩
  · have hflag := hok _ t hx (by simp)
    cases b with
    | true =>
      exact hflag
    | false =>
      exact hflag
  · by_cases hc : e = .cancelled
    · subst hc
      exact hcancel t _ hx
    have hfail := hok _ t hx (by simpa using hc)
    cases e with
    | cancelled =>
      exact absurd rfl hc
    | _ =>
      exact hfail

end Aborts

/-- No call has been made, or one call has been answered. -/
inductive Asked (c : Call) (s : Process) : List Trip → Process → Prop
  | never : Asked c s [] s
  | once (x : Reply) (t : Process) : Asked c s [⟨c, x, s, t⟩] t

theorem Asked.leaves {c : Call} {s u : Process} {l : List Trip} {β : Type} (f : World → β)
    (h : Asked c s l u) : Leaves f s l u := by
  cases h with
  | never =>
    rfl
  | once x t =>
    exact ⟨rfl, rfl⟩

/-! ## The transfer -/

/-- The remote abort of a request's transfer. -/
def transferAbort (req : RequestInfo) : Call :=
  .abortTransfer req.prefillInstance req.decodeInstance req.reqId req.transferOperationId

/-- The scheduler after the target of an uncertain transfer was quarantined. -/
def quarantineTarget (cfg : Settings) (req : RequestInfo) (w : World) : World :=
  let uncertain := Loop.uncertainTransfer cfg req req.decodeInstanceEpoch
  { w with
    scheduler := w.scheduler.quarantineInstance w.now req.decodeInstance (some uncertain) none }

/-- The ledger after a transfer was cancelled. -/
def cancelIn (req : RequestInfo) (w : World) : World :=
  { w with governor := w.governor.cancel req.reqId (some req.transferOperationId) }

/-- What `transferEvidence` has found, after which visits and in which state. -/
inductive TransferFound (cfg : Settings) (req : RequestInfo) (changed : Bool) (s : Process) :
    List Trip → Loop.TransferEvidence → Process → Prop
  | notPending (hstate : req.state ≠ .kvPending) :
      TransferFound cfg req changed s []
        ⟨changed, false, if req.state = .recomputing then .fencedAck else .none,
          transferStateIn s req⟩ s
  | expired (hstate : req.state = .kvPending) (hchanged : changed = true) :
      TransferFound cfg req changed s [] ⟨true, false, .fencedAck, transferStateIn s req⟩ s
  | deferred (hstate : req.state = .kvPending) (hchanged : changed = false)
      (htask : transferStateIn s req = .deferred) :
      TransferFound cfg req changed s [] ⟨false, false, .deferredCancelled, .deferred⟩
        (s.update (cancelIn req))
  | missing (hstate : req.state = .kvPending) (hchanged : changed = false)
      (htask : transferStateIn s req = .none) :
      TransferFound cfg req changed s [] ⟨false, false, .uncertain, .inflight⟩ s
  | targetChanged (hstate : req.state = .kvPending) {l : List Trip} {u : Process}
      (hl : Asked (transferAbort req) s l u) (hd : decodeCurrent u req = false) :
      TransferFound cfg req changed s l ⟨true, false, .none, .inflight⟩
        (u.update (cancelIn req))
  | sourceChanged (hstate : req.state = .kvPending) {l : List Trip} {u : Process}
      (hl : Asked (transferAbort req) s l u) (hd : decodeCurrent u req = true)
      (htask : transferStateIn s req = .inflight) (hp : prefillCurrent u req = false) :
      TransferFound cfg req changed s l ⟨false, true, .uncertain, .inflight⟩
        ((u.update (quarantineTarget cfg req)).update (cancelIn req))
  | answered (hstate : req.state = .kvPending) (hchanged : changed = false)
      (x : Reply) (t : Process) (hd : decodeCurrent t req = true)
      (hleft : prefillCurrent s req = true) (hp : prefillCurrent t req = true) :
      TransferFound cfg req changed s [⟨transferAbort req, x, s, t⟩]
        ⟨false, false, if x = .flag true then .fencedAck else .uncertain, .inflight⟩ t

/-- How a part of the cleanup ends: with a result, or cut short at one of its calls. -/
def Concludes {α : Type} (cut : Exc → Trip → Prop) (P : List Trip → α → Process → Prop)
    (l : List Trip) (r : Except Exc α) (u : Process) : Prop :=
  match r with
  | .ok a => P l a u
  | .error e => ∃ v ∈ l, cut e v

/-- A call that was cancelled. -/
def CancelledAt (e : Exc) (v : Trip) : Prop := e = .cancelled ∧ v.reply = .raised .cancelled

section Transfer

variable {R : Surroundings} {s : Process} {cfg : Settings} {req : RequestInfo}

theorem classify_target {w : PDScheduler}
    (h : classifyTransferEpochs w req = .targetChanged) :
    w.epochMatches req.decodeInstance req.decodeInstanceEpoch = false := by
  unfold classifyTransferEpochs at h
  split_ifs at h with h₁
  exact h₁

theorem classify_target_current {w : PDScheduler}
    (h : classifyTransferEpochs w req ≠ .targetChanged) :
    w.epochMatches req.decodeInstance req.decodeInstanceEpoch = true := by
  by_contra hd
  apply h
  unfold classifyTransferEpochs
  rw [if_pos (by simpa using hd)]

theorem prefillCurrent_of_classify {found : TransferEpochResult}
    (h : classifyTransferEpochs s.shared.scheduler req = found) (hfound : found ≠ .targetChanged) :
    prefillCurrent s req = decide (found = .bothCurrent) := by
  subst h
  unfold classifyTransferEpochs at hfound ⊢
  rw [if_neg fun hd => hfound (if_pos hd)]
  unfold prefillCurrent
  cases s.shared.scheduler.epochMatches req.prefillInstance req.prefillInstanceEpoch <;> rfl

theorem leads_inflightTransfer (hstate : req.state = .kvPending)
    (htask : transferStateIn s req = .inflight) (hfit : Answering false R) :
    Leads R (Loop.inflightTransfer cfg req) s
      (Concludes CancelledAt (TransferFound cfg req false s)) := by
  unfold Loop.inflightTransfer
  refine leads_read_bind.mpr ?_
  cases hclass : classifyTransferEpochs s.shared.scheduler req with
  | targetChanged =>
    exact TransferFound.targetChanged hstate .never (classify_target hclass)
  | sourceChangedTargetCurrent =>
    have hd : decodeCurrent s req = true := classify_target_current (by simp [hclass])
    exact TransferFound.sourceChanged hstate .never hd htask
      (prefillCurrent_of_classify hclass nofun)
  | bothCurrent =>
    refine leads_bind.mpr (leads_abortRemote ?_ ?_ ?_)
    · intro x t hx
      have h := hfit _ _ _ _ hx
      cases x <;> simp_all [Call.answeredBy]
    · intro x t hx _
      refine leads_bind.mpr ?_
      rw [leads_read, after_ok]
      cases hafter : classifyTransferEpochs t.shared.scheduler req with
      | targetChanged =>
        exact TransferFound.targetChanged hstate (.once x t) (classify_target hafter)
      | sourceChangedTargetCurrent =>
        have hd : decodeCurrent t req = true := classify_target_current (by simp [hafter])
        exact TransferFound.sourceChanged hstate (.once x t) hd htask
          (prefillCurrent_of_classify hafter nofun)
      | bothCurrent =>
        have hd : decodeCurrent t req = true := classify_target_current (by simp [hafter])
        have hfound : TransferFound cfg req false s [⟨transferAbort req, x, s, t⟩] _ t :=
          TransferFound.answered hstate rfl x t hd (prefillCurrent_of_classify hclass nofun)
            (prefillCurrent_of_classify hafter nofun)
        by_cases hx' : x = .flag true
        · subst hx'
          exact hfound
        · simp only [hx', if_false] at hfound
          simpa [hx', Concludes, transferAbort] using hfound
    · intro t u _
      exact ⟨_, List.mem_singleton.mpr rfl, rfl, rfl⟩

theorem leads_transferEvidence (changed : Bool) (hfit : Answering false R) :
    Leads R (Loop.transferEvidence cfg req changed) s
      (Concludes CancelledAt (TransferFound cfg req changed s)) := by
  unfold Loop.transferEvidence
  refine leads_read_bind.mpr ?_
  by_cases hstate : req.state = .kvPending
  · rw [hstate]
    cases hchanged : changed with
    | true =>
      exact TransferFound.expired hstate rfl
    | false =>
      dsimp only
      rw [if_neg (by simp)]
      cases htask : s.shared.governor.taskState req.reqId
          (if req.transferOperationId = "" then none else some req.transferOperationId) with
      | deferred =>
        exact TransferFound.deferred hstate rfl htask
      | inflight =>
        exact leads_inflightTransfer hstate htask hfit
      | none =>
        exact TransferFound.missing hstate rfl htask
  · have hfound : TransferFound cfg req changed s [] _ s := TransferFound.notPending hstate
    cases hreq : req.state with
    | kvPending =>
      exact absurd hreq hstate
    | recomputing =>
      simp only [hreq, if_true] at hfound
      exact hfound
    | _ =>
      simp only [hreq] at hfound
      exact hfound

end Transfer

/-! ## The two instances -/

/-- What `prefillEvidence` has found. -/
inductive PrefillFound (req : RequestInfo) (owned changed : Bool) (s : Process) :
    List Trip → RemoteRequestState × Bool → Process → Prop
  | skipped (h : (owned && !changed) = false) :
      PrefillFound req owned changed s []
        (if owned then .neverDispatched
          else if req.state = .waiting then .notOwned else .alreadyCompleted, changed) s
  | asked (howned : owned = true) (hchanged : changed = false) (x : Reply) (t : Process) :
      PrefillFound req owned changed s [⟨.abortRequest req.prefillInstance req.reqId, x, s, t⟩]
        (if prefillCurrent t req then (if x = .flag true then .abortAck else .uncertain, false)
          else (.neverDispatched, true)) t

/-- The states in which a request may be known to its decode instance. -/
def knownToDecode (state : SeqState) : Bool :=
  decide (state = .kvPending) || decide (state = .recomputing) || decide (state = .decoding)

/-- The ledger after the transfer of a request was cancelled on a changed decode epoch. -/
def cancelNamed (req : RequestInfo) (w : World) : World :=
  let operationId := if req.transferOperationId = "" then none else some req.transferOperationId
  { w with governor := w.governor.cancel req.reqId operationId }

/-- What `decodeEvidence` has found. -/
inductive DecodeFound (serial : Nat) (evidence : Loop.TransferEvidence) (s : Process) :
    List Trip → RemoteRequestState × Bool → Process → Prop
  | skipped (h : (!evidence.targetChanged && !evidence.sourceChanged &&
        knownToDecode (requestIn s serial).state) = false) :
      DecodeFound serial evidence s [] (.neverDispatched, evidence.targetChanged) s
  | current (htarget : evidence.targetChanged = false) (hsource : evidence.sourceChanged = false)
      (hknown : knownToDecode (requestIn s serial).state = true) (x : Reply) (t : Process)
      (hd : decodeCurrent t (requestIn s serial) = true) :
      DecodeFound serial evidence s
        [⟨.abortRequest (requestIn s serial).decodeInstance (requestIn s serial).reqId, x, s, t⟩]
        (if x = .flag true then .abortAck else .uncertain, false) t
  | changed (htarget : evidence.targetChanged = false) (hsource : evidence.sourceChanged = false)
      (hknown : knownToDecode (requestIn s serial).state = true) (x : Reply) (t : Process)
      (hd : decodeCurrent t (requestIn s serial) = false) :
      DecodeFound serial evidence s
        [⟨.abortRequest (requestIn s serial).decodeInstance (requestIn s serial).reqId, x, s, t⟩]
        (.neverDispatched, true) (t.update (cancelNamed (requestIn s serial)))

section Instances

variable {R : Surroundings} {s : Process}

theorem answer_of_abortRequest {instanceId reqId : String} {x : Reply}
    (h : (Call.abortRequest instanceId reqId).answeredBy false x = true) :
    (∃ b, x = .flag b) ∨ ∃ e, x = .raised e := by
  cases x <;> simp_all [Call.answeredBy]

theorem leads_prefillEvidence (req : RequestInfo) (owned changed : Bool)
    (hfit : Answering false R) : Leads R (Loop.prefillEvidence req owned changed) s
      (Concludes CancelledAt (PrefillFound req owned changed s)) := by
  unfold Loop.prefillEvidence
  by_cases h : (owned && !changed) = true
  · rw [if_pos h]
    have howned : owned = true := by
      cases owned <;> simp_all
    have hchanged : changed = false := by
      cases changed <;> simp_all
    refine leads_bind.mpr (leads_abortRemote ?_ ?_ ?_)
    · exact fun x t hx => answer_of_abortRequest (hfit _ _ _ _ hx)
    · intro x t hx _
      have hfound : PrefillFound req owned changed s [_] _ t :=
        PrefillFound.asked howned hchanged x t
      have hshow : Concludes CancelledAt (PrefillFound req owned changed s)
          [⟨.abortRequest req.prefillInstance req.reqId, x, s, t⟩]
          (.ok (if prefillCurrent t req then
              (if decide (x = .flag true) then .abortAck else .uncertain, false)
            else (.neverDispatched, true))) t := by
        simpa [Concludes] using hfound
      exact hshow
    · intro t u _
      exact ⟨_, List.mem_singleton.mpr rfl, rfl, rfl⟩
  · rw [if_neg h]
    exact PrefillFound.skipped (by simpa using h)

theorem leads_decodeEvidence (serial : Nat) (evidence : Loop.TransferEvidence)
    (hfit : Answering false R) : Leads R (Loop.decodeEvidence serial evidence) s
      (Concludes CancelledAt (DecodeFound serial evidence s)) := by
  unfold Loop.decodeEvidence Loop.info
  refine leads_bind.mpr (leads_bind.mpr ?_)
  rw [leads_read]
  change Leads R (if (!evidence.targetChanged && !evidence.sourceChanged &&
    knownToDecode (requestIn s serial).state) = true then _ else _) s _
  by_cases h : (!evidence.targetChanged && !evidence.sourceChanged &&
      knownToDecode (requestIn s serial).state) = true
  · rw [if_pos h]
    simp only [Bool.and_eq_true, Bool.not_eq_true'] at h
    obtain ⟨⟨htarget, hsource⟩, hknown⟩ := h
    refine leads_bind.mpr (leads_abortRemote ?_ ?_ ?_)
    · exact fun x t hx => answer_of_abortRequest (hfit _ _ _ _ hx)
    · intro x t hx _
      refine leads_bind.mpr (leads_bind.mpr ?_)
      rw [leads_read]
      cases hd : decodeCurrent t (requestIn s serial) with
      | true =>
        have hfound : DecodeFound serial evidence s [_] _ t :=
          DecodeFound.current htarget hsource hknown x t hd
        change Leads R (if decodeCurrent t (requestIn s serial) = true then _ else _) t _
        rw [hd, if_pos rfl]
        simpa [Concludes, requestIn] using hfound
      | false =>
        have hfound : DecodeFound serial evidence s [_] _ _ :=
          DecodeFound.changed htarget hsource hknown x t hd
        change Leads R (if decodeCurrent t (requestIn s serial) = true then _ else _) t _
        rw [hd, if_neg (by simp)]
        exact hfound
    · intro t u _
      exact ⟨_, List.mem_singleton.mpr rfl, rfl, rfl⟩
  · rw [if_neg h]
    exact DecodeFound.skipped (by simpa using h)

end Instances

/-! ## The whole evidence and what follows from it -/

def ownsPrefill (req : RequestInfo) : Bool :=
  decide (req.state = .prefilling) && decide (req.prefillInstance ≠ "")

def ownsDecode (req : RequestInfo) : Bool :=
  decide (req.decodeInstance ≠ "") && decide (req.state ≠ .waiting)

/-- Evidence about the transfer, the prefill and the decode side. -/
structure Evidence where
  transfer : Loop.TransferEvidence
  prefill : RemoteRequestState × Bool
  decode : RemoteRequestState × Bool

/-- The three pieces are collected one after the other. -/
inductive EvidenceFound (cfg : Settings) (serial : Nat) (s : Process) :
    List Trip → Evidence → Process → Prop
  | mk {l₁ l₂ l₃ : List Trip} {transfer : Loop.TransferEvidence}
      {prefill decode : RemoteRequestState × Bool} {u₁ u₂ u₃ : Process}
      (htransfer : TransferFound cfg (requestIn s serial)
        (ownsDecode (requestIn s serial) && !decodeCurrent s (requestIn s serial)) s l₁ transfer u₁)
      (hprefill : PrefillFound (requestIn s serial) (ownsPrefill (requestIn s serial))
        (ownsPrefill (requestIn s serial) && !prefillCurrent s (requestIn s serial))
        u₁ l₂ prefill u₂)
      (hdecode : DecodeFound serial transfer u₂ l₃ decode u₃) :
      EvidenceFound cfg serial s (l₁ ++ (l₂ ++ l₃)) ⟨transfer, prefill, decode⟩ u₃

namespace Evidence

/-- The proof that the cleanup of a request builds; `req` is the request as it is by then. -/
def proof (e : Evidence) (before req : RequestInfo) : CleanupProof where
  requestState := req.state
  pRemoteRequestState := e.prefill.1
  dRemoteRequestState := e.decode.1
  transferState := e.transfer.transferState
  transferMode := if req.state = .kvPending then e.transfer.taskState else .none
  publishOutcome := req.publishOutcome
  requestOwnsPLoad := ownsPrefill before
  requestOwnsOriginalDSlot := ownsDecode before
  dEpochChanged := e.decode.2

/-- No epoch has changed, and the proof is none of the admitted combinations. -/
def rejected (e : Evidence) (before req : RequestInfo) : Bool :=
  !e.prefill.2 && !e.decode.2 && !e.transfer.sourceChanged && !(e.proof before req).valid

/-- The prefill side is settled. -/
def settlesPrefill (e : Evidence) (before : RequestInfo) : Bool :=
  ownsPrefill before && !e.prefill.2

/-- The decode side is settled. -/
def settlesDecode (e : Evidence) (before : RequestInfo) : Bool :=
  ownsDecode before && !e.decode.2 && !e.transfer.sourceChanged

/-- What settling the prefill side makes of the scheduler. -/
def afterPrefill (e : Evidence) (before req : RequestInfo) (now : Time) (s : PDScheduler) :
    PDScheduler :=
  if e.settlesPrefill before then
    if (e.proof before req).pLoadReleasable then
      (s.onPrefillDone req.prefillInstance (some req.prefillInstanceEpoch)).2
    else s.quarantineInstance now req.prefillInstance none none
  else s

/-- The uncertain transfer that is recorded with a quarantine of the decode side. -/
def uncertain (cfg : Settings) (e : Evidence) (req : RequestInfo) (s : PDScheduler) :
    Option UncertainRef :=
  if e.transfer.transferState = .uncertain then
    some (Loop.uncertainTransfer cfg req (s.instanceEpoch req.decodeInstance))
  else none

/-- What settling the decode side makes of the scheduler. -/
def afterDecode (cfg : Settings) (e : Evidence) (before req : RequestInfo) (now : Time)
    (s : PDScheduler) : PDScheduler :=
  if e.settlesDecode before then
    if (e.proof before req).dSlotReleasable then
      (s.onDecodeFinished req.decodeInstance (some req.decodeInstanceEpoch) none).2
    else s.quarantineInstance now req.decodeInstance (e.uncertain cfg req s) none
  else s

/-- The releases and quarantines that follow from accepted evidence. -/
def settled (cfg : Settings) (e : Evidence) (before req : RequestInfo) (w : World) : World :=
  { w with
    scheduler := e.afterDecode cfg before req w.now (e.afterPrefill before req w.now w.scheduler)
    governor := w.governor.finishRequest req.reqId }

section Settling

variable {R : Surroundings} {Φ : List Trip → Except Exc Unit → Process → Prop}
variable (cfg : Settings) (e : Evidence) (before req : RequestInfo) (u : Process)

theorem leads_settlePrefill :
    Leads R (Loop.when (e.settlesPrefill before)
        (Loop.settlePrefill req (e.proof before req))) u Φ ↔
      Φ [] (.ok ()) (u.update fun w =>
        { w with scheduler := e.afterPrefill before req w.now w.scheduler }) := by
  unfold Loop.when Loop.settlePrefill afterPrefill
  cases e.settlesPrefill before with
  | false =>
    rfl
  | true =>
    cases (e.proof before req).pLoadReleasable <;> rfl

theorem leads_settleDecode :
    Leads R (Loop.when (e.settlesDecode before)
        (Loop.settleDecode cfg req (e.proof before req))) u Φ ↔
      Φ [] (.ok ()) (u.update fun w =>
        { w with scheduler := e.afterDecode cfg before req w.now w.scheduler }) := by
  unfold Loop.when Loop.settleDecode afterDecode
  cases e.settlesDecode before with
  | false =>
    rfl
  | true =>
    cases (e.proof before req).dSlotReleasable <;> rfl

theorem leads_settle (h : Φ [] (.ok ()) (u.update (e.settled cfg before req))) :
    Leads R (do
      Loop.when (e.settlesPrefill before) (Loop.settlePrefill req (e.proof before req))
      Loop.when (e.settlesDecode before) (Loop.settleDecode cfg req (e.proof before req))
      Loop.finishRequest req.reqId) u Φ := by
  refine leads_bind.mpr ((leads_settlePrefill e before req u).mpr ?_)
  refine leads_bind.mpr ((leads_settleDecode cfg e before req _).mpr ?_)
  exact h

end Settling

end Evidence

/-! Inversions for the states that collect only part of the evidence. -/

section Inversions

variable {cfg : Settings} {serial : Nat} {s u : Process} {l : List Trip} {req : RequestInfo}

variable {a : RemoteRequestState × Bool} {e : Loop.TransferEvidence} {changed : Bool}

theorem TransferFound.of_notPending (h : TransferFound cfg req changed s l e u)
    (hstate : req.state ≠ .kvPending) :
    l = [] ∧ s = u ∧
      e = ⟨changed, false, if req.state = .recomputing then .fencedAck else .none,
        transferStateIn s req⟩ := by
  cases h with
  | notPending _ =>
    exact ⟨rfl, rfl, rfl⟩
  | expired h _ =>
    exact absurd h hstate
  | deferred h _ _ =>
    exact absurd h hstate
  | missing h _ _ =>
    exact absurd h hstate
  | targetChanged h _ _ =>
    exact absurd h hstate
  | sourceChanged h _ _ =>
    exact absurd h hstate
  | answered h _ _ _ _ =>
    exact absurd h hstate

theorem PrefillFound.of_unowned (h : PrefillFound req false changed s l a u) :
    l = [] ∧ s = u ∧
      a = (if req.state = .waiting then .notOwned else .alreadyCompleted, changed) := by
  cases h with
  | skipped _ =>
    exact ⟨rfl, rfl, rfl⟩
  | asked howned _ _ _ =>
    cases howned

theorem DecodeFound.of_unknown (h : DecodeFound serial e s l a u)
    (hstate : knownToDecode (requestIn s serial).state = false) :
    l = [] ∧ s = u ∧ a = (.neverDispatched, e.targetChanged) := by
  cases h with
  | skipped _ =>
    exact ⟨rfl, rfl, rfl⟩
  | current _ _ hknown _ _ _ =>
    simp [hstate] at hknown
  | changed _ _ hknown _ _ _ =>
    simp [hstate] at hknown

/-- An unchanged decode epoch comes with an answer of the decode instance. -/
theorem DecodeFound.answered (h : DecodeFound serial e s l a u) (hsource : e.sourceChanged = false)
    (ha : a.2 = false) (hknown : knownToDecode (requestIn s serial).state = true) :
    a.1 = .abortAck ∨ a.1 = .uncertain := by
  cases h with
  | skipped h =>
    simp_all
  | current _ _ _ x t _ =>
    by_cases hx : x = .flag true
    · exact Or.inl (by simp [hx])
    · exact Or.inr (by simp [hx])
  | changed _ _ _ _ _ _ =>
    cases ha

theorem DecodeFound.target_unchanged (h : DecodeFound serial e s l a u) (ha : a.2 = false) :
    e.targetChanged = false := by
  cases h with
  | skipped _ =>
    exact ha
  | current htarget _ _ _ _ _ =>
    exact htarget
  | changed htarget _ _ _ _ _ =>
    exact htarget

/-- An unchanged prefill epoch of a request that owns its load comes with an answer. -/
theorem PrefillFound.answered (h : PrefillFound req true changed s l a u) (ha : a.2 = false) :
    a.1 = .abortAck ∨ a.1 = .uncertain := by
  cases h with
  | skipped h =>
    simp_all
  | asked _ _ x _ =>
    cases hcur : prefillCurrent u req with
    | false =>
      simp [hcur] at ha
    | true =>
      by_cases hx : x = .flag true
      · exact Or.inl (by simp [hx])
      · exact Or.inr (by simp [hx])

/-- The combinations of transfer evidence that a pending request can come with. -/
theorem TransferFound.of_pending (h : TransferFound cfg req changed s l e u)
    (hstate : req.state = .kvPending) (htarget : e.targetChanged = false)
    (hsource : e.sourceChanged = false) :
    e.taskState = .deferred ∧ e.transferState = .deferredCancelled ∨
      e.taskState = .inflight ∧
        (e.transferState = .fencedAck ∨ e.transferState = .uncertain) := by
  cases h with
  | notPending h =>
    exact absurd hstate h
  | deferred _ _ _ =>
    exact Or.inl ⟨rfl, rfl⟩
  | missing _ _ _ =>
    exact Or.inr ⟨rfl, Or.inr rfl⟩
  | sourceChanged _ _ _ =>
    cases hsource
  | answered _ _ x _ _ =>
    refine Or.inr ⟨rfl, ?_⟩
    by_cases hx : x = .flag true
    · exact Or.inl (by simp [hx])
    · exact Or.inr (by simp [hx])
  | _ =>
    cases htarget

end Inversions

section Untouched

variable {cfg : Settings} {serial : Nat} {s u : Process} {l : List Trip}

theorem TransferFound.leaves_request {req : RequestInfo} {changed : Bool}
    {e : Loop.TransferEvidence} (h : TransferFound cfg req changed s l e u) :
    Leaves (fun w => w.tracker.info serial) s l u := by
  cases h with
  | targetChanged hstate hl hd =>
    exact (hl.leaves _).step rfl
  | sourceChanged hstate hl hd =>
    exact (hl.leaves _).step rfl
  | answered hstate hchanged x t hd =>
    exact ⟨rfl, rfl⟩
  | _ =>
    rfl

theorem PrefillFound.leaves {req : RequestInfo} {owned changed : Bool}
    {a : RemoteRequestState × Bool} {β : Type} (f : World → β)
    (h : PrefillFound req owned changed s l a u) : Leaves f s l u := by
  cases h with
  | skipped h =>
    rfl
  | asked howned hchanged x t =>
    exact ⟨rfl, rfl⟩

theorem DecodeFound.leaves {e : Loop.TransferEvidence} {a : RemoteRequestState × Bool}
    {β : Type} (f : World → β) (hf : ∀ w g, f { w with governor := g } = f w)
    (h : DecodeFound serial e s l a u) : Leaves f s l u := by
  cases h with
  | skipped h =>
    rfl
  | current htarget hsource hknown x t hd =>
    exact ⟨rfl, rfl⟩
  | changed htarget hsource hknown x t hd =>
    exact ⟨rfl, hf _ _⟩

theorem EvidenceFound.leaves_request {e : Evidence} (h : EvidenceFound cfg serial s l e u) :
    Leaves (fun w => w.tracker.info serial) s l u := by
  obtain ⟨h₁, h₂, h₃⟩ := h
  exact h₁.leaves_request.append ((h₂.leaves _).append (h₃.leaves _ fun _ _ => rfl))

end Untouched

/-- How `fenceAndAbortRequest` ends: settled, rejected, or cut short at a call. -/
def FenceEnds (cfg : Settings) (serial : Nat) (s : Process) (l : List Trip)
    (r : Except Exc Unit) (t : Process) : Prop :=
  match r with
  | .ok _ => ∃ e u, EvidenceFound cfg serial s l e u ∧
      e.rejected (requestIn s serial) (requestIn u serial) = false ∧
      t = u.update (e.settled cfg (requestIn s serial) (requestIn u serial))
  | .error x => (∃ v ∈ l, CancelledAt x v) ∨
      ∃ e, EvidenceFound cfg serial s l e t ∧
        e.rejected (requestIn s serial) (requestIn t serial) = true

theorem leads_fence {R : Surroundings} {s : Process} (cfg : Settings) (serial : Nat)
    (hfit : Answering false R) :
    Leads R (Loop.fenceAndAbortRequest cfg serial) s (FenceEnds cfg serial s) := by
  unfold Loop.fenceAndAbortRequest
  refine leads_read_bind.mpr ?_
  refine Leads.bind (leads_transferEvidence _ hfit) fun l₁ r₁ u₁ h₁ => ?_
  cases r₁ with
  | error x =>
    exact Or.inl h₁
  | ok transfer =>
    refine Leads.bind (leads_prefillEvidence _ _ _ hfit) fun l₂ r₂ u₂ h₂ => ?_
    cases r₂ with
    | error x =>
      obtain ⟨v, hv, hcut⟩ := h₂
      exact Or.inl ⟨v, by simp [hv], hcut⟩
    | ok prefill =>
      refine Leads.bind (leads_decodeEvidence _ _ hfit) fun l₃ r₃ u₃ h₃ => ?_
      cases r₃ with
      | error x =>
        obtain ⟨v, hv, hcut⟩ := h₃
        exact Or.inl ⟨v, by simp [hv], hcut⟩
      | ok decode =>
        have hfound := EvidenceFound.mk h₁ h₂ h₃
        let e : Evidence := ⟨transfer, prefill, decode⟩
        change Leads R (if e.rejected (requestIn s serial) (requestIn u₃ serial) = true
          then _ else _) u₃ _
        cases hrej : e.rejected (requestIn s serial) (requestIn u₃ serial) with
        | true =>
          rw [if_pos rfl]
          refine Or.inr ⟨e, ?_, hrej⟩
          simpa using hfound
        | false =>
          rw [if_neg (by simp)]
          refine Evidence.leads_settle cfg e (requestIn s serial) (requestIn u₃ serial) u₃ ?_
          refine ⟨e, u₃, ?_, hrej, rfl⟩
          simpa using hfound

/-! ## A prefill that may not have been dispatched -/

/-- The decode slot is given back. -/
def decodeGivenBack (req : RequestInfo) (s : PDScheduler) : PDScheduler :=
  (s.onDecodeFinished req.decodeInstance (some req.decodeInstanceEpoch) none).2

/-- The prefill load is given back. -/
def prefillGivenBack (req : RequestInfo) (s : PDScheduler) : PDScheduler :=
  (s.onPrefillDone req.prefillInstance (some req.prefillInstanceEpoch)).2

/-- The scheduler after the prefill instance of an unknown dispatch was quarantined. -/
def prefillUnknown (cfg : Settings) (req : RequestInfo) (now : Time) (s : PDScheduler) :
    PDScheduler :=
  s.quarantineInstance now req.prefillInstance none
    (some (cfg.ownerId, req.reqId, req.commandId, req.prefillInstanceEpoch))

/-- The abort call to the prefill instance. -/
def prefillAbort (req : RequestInfo) : Call :=
  .abortRequest req.prefillInstance req.reqId

/-- The transfer ledger forgets a request. -/
def ledgerClosed (req : RequestInfo) (w : World) : World :=
  { w with governor := w.governor.finishRequest req.reqId }

section Undispatched

variable {R : Surroundings} {s : Process} {cfg : Settings} {serial : Nat}
variable {Φ : List Trip → Except Exc Unit → Process → Prop}

theorem leads_legacyRelease_notStarted (hstate : (requestIn s serial).state = .prefilling)
    (hpublish : (requestIn s serial).publishOutcome = .notStarted) :
    Leads R (Loop.legacyRelease cfg serial) s Φ ↔
      Φ [] (.ok ()) ((s.update fun w => { w with
        scheduler := decodeGivenBack (requestIn s serial)
          (prefillGivenBack (requestIn s serial) w.scheduler) }).update
        (ledgerClosed (requestIn s serial))) := by
  unfold Loop.legacyRelease
  rw [Prog.bind_eq, leads_read_bind]
  have hstate' : (s.shared.tracker.info serial).state = .prefilling := hstate
  have hpublish' : (s.shared.tracker.info serial).publishOutcome = .notStarted := hpublish
  simp only [hstate', hpublish']
  rfl

/-- The instance of an unknown dispatch is quarantined before it is asked to abort. -/
theorem leads_legacyRelease_unknown (hstate : (requestIn s serial).state = .prefilling)
    (hpublish : (requestIn s serial).publishOutcome = .unknown) (hfit : Answering false R)
    (hcut : ∀ v : Trip, R v.call v.left v.reply v.back → v.reply = .raised .cancelled →
      ∀ u, Φ [v] (.error .cancelled) u)
    (hcurrent : prefillCurrent s (requestIn s serial) = true → ∀ x t,
      Φ [⟨prefillAbort (requestIn s serial), x, s.update fun w => { w with
          scheduler := decodeGivenBack (requestIn s serial)
            (prefillUnknown cfg (requestIn s serial) w.now w.scheduler) }, t⟩] (.ok ())
        (t.update (ledgerClosed (requestIn s serial))))
    (hchanged : prefillCurrent s (requestIn s serial) = false →
      Φ [] (.ok ()) ((s.update fun w => { w with
        scheduler := decodeGivenBack (requestIn s serial) w.scheduler }).update
          (ledgerClosed (requestIn s serial)))) :
    Leads R (Loop.legacyRelease cfg serial) s Φ := by
  unfold Loop.legacyRelease
  refine leads_read_bind.mpr ?_
  have hstate' : (s.shared.tracker.info serial).state = .prefilling := hstate
  have hpublish' : (s.shared.tracker.info serial).publishOutcome = .unknown := hpublish
  simp only [hstate', hpublish']
  cases hcur : prefillCurrent s (requestIn s serial) with
  | false =>
    have hcur' : s.shared.scheduler.epochMatches (s.shared.tracker.info serial).prefillInstance
      (s.shared.tracker.info serial).prefillInstanceEpoch = false := hcur
    simp only [hcur']
    exact hchanged hcur
  | true =>
    have hcur' : s.shared.scheduler.epochMatches (s.shared.tracker.info serial).prefillInstance
      (s.shared.tracker.info serial).prefillInstanceEpoch = true := hcur
    simp only [hcur']
    change Leads R (Prog.bind (Prog.bind
        (Loop.abortRemote (prefillAbort (requestIn s serial))) fun _ => .ret ())
        fun _ => Loop.finishRequest (requestIn s serial).reqId)
      (s.update fun w => { w with
        scheduler := decodeGivenBack (requestIn s serial)
          (prefillUnknown cfg (requestIn s serial) w.now w.scheduler) }) Φ
    refine leads_bind.mpr (leads_bind.mpr (leads_abortRemote ?_ ?_ ?_))
    · exact fun x t hx => answer_of_abortRequest (hfit _ _ _ _ hx)
    · intro x t _ _
      exact hcurrent hcur x t
    · intro t u hx
      exact hcut ⟨_, _, _, _⟩ hx rfl u

/-- In every other case the evidence decides. -/
theorem leads_legacyRelease_fence (h : (requestIn s serial).state = .prefilling →
      (requestIn s serial).publishOutcome = .acked) :
    Leads R (Loop.legacyRelease cfg serial) s Φ ↔
      Leads R (Loop.fenceAndAbortRequest cfg serial) s Φ := by
  unfold Loop.legacyRelease
  rw [Prog.bind_eq, leads_read_bind]
  dsimp only
  split
  · rename_i hstate hpublish
    have := h hstate
    simp_all [requestIn]
  · rename_i hstate hpublish
    have := h hstate
    simp_all [requestIn]
  · rfl

end Undispatched

end PrismServe
