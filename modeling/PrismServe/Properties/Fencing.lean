import PrismServe.Properties.ReleaseEvidence
import PrismServe.Machine

/-!
# Epoch fencing

Messages of a worker carry the epoch of the instance that sent them, and the
reply to an output query names the request, the operation and the epoch.  What
comes from another epoch than the assigned one, or after the assigned epoch has
passed, or with another identity than the request has by then, has no effect.
-/

namespace PrismServe

open Lib Lib.Prog

/-- The handler that the loop applies to the messages of a subject. -/
def Loop.handlerOf (cfg : Settings) : Subject → Message → Loop Unit
  | .suffixPrefillDone => Loop.suffixPrefillDone
  | .prefillDone => Loop.prefillDone cfg
  | .recomputeDone => Loop.recomputeDone
  | .firstToken => Loop.firstTokenMessage cfg
  | .decodeProgress => Loop.decodeProgress cfg
  | .decodeDone => Loop.decodeDone cfg

/-- The instance and the epoch that a message about a request must come from. -/
def Subject.sender : Subject → RequestInfo → String × String
  | .prefillDone, r => (r.prefillInstance, r.prefillInstanceEpoch)
  | _, r => (r.decodeInstance, r.decodeInstanceEpoch)

/-- The message comes from another epoch than the assigned one, or that one has passed. -/
def Outdated (subject : Subject) (w : World) (r : RequestInfo) (msg : Message) : Prop :=
  msg.instanceEpoch ≠ some (subject.sender r).2 ∨
    w.scheduler.epochMatches (subject.sender r).1 (subject.sender r).2 = false

section Messages

variable {R : Surroundings} {s : Process} {msg : Message}

/-- A handler whose fence is closed for the addressee does nothing. -/
theorem leads_fenced (fence : World → Nat → Bool) (body : World → Nat → Loop Unit)
    (h : ∀ serial, Loop.addressee s.shared msg = some serial → fence s.shared serial = false) :
    Leads R (do
      let w ← Prog.read
      match Loop.addressee w msg with
      | none => return ()
      | some serial => Loop.when (fence w serial) (body w serial)) s
      fun l r t => l = [] ∧ r = .ok () ∧ t = s := by
  refine leads_read_bind.mpr ?_
  cases haddr : Loop.addressee s.shared msg with
  | none =>
    exact ⟨rfl, rfl, rfl⟩
  | some serial =>
    simp only [h serial haddr]
    exact ⟨rfl, rfl, rfl⟩

theorem fromDecode_outdated {subject : Subject} {w : World} {req : RequestInfo}
    (hsubject : subject ≠ .prefillDone) (h : Outdated subject w req msg) :
    Loop.fromDecode w req msg = false := by
  have hsender : subject.sender req = (req.decodeInstance, req.decodeInstanceEpoch) := by
    cases subject <;> first | rfl | exact absurd rfl hsubject
  rw [Outdated, hsender] at h
  rcases h with h | h <;> simp [Loop.fromDecode, h]

theorem handlerOf_outdated (cfg : Settings) (subject : Subject)
    (h : ∀ serial, Loop.addressee s.shared msg = some serial →
      Outdated subject s.shared (requestIn s serial) msg) :
    Leads R (Loop.handlerOf cfg subject msg) s fun l r t => l = [] ∧ r = .ok () ∧ t = s := by
  have hdecode (hsubject : subject ≠ .prefillDone) (serial : Nat)
      (hserial : Loop.addressee s.shared msg = some serial) :
      Loop.fromDecode s.shared (s.shared.tracker.info serial) msg = false :=
    fromDecode_outdated hsubject (h serial hserial)
  cases subject with
  | suffixPrefillDone =>
    exact leads_fenced (fun w n => decide ((w.tracker.info n).state = .prefixPrefilling) &&
      decide (msg.operationId = some (w.tracker.info n).activeOperationId) &&
      Loop.fromDecode w (w.tracker.info n) msg) _
      fun serial hserial => by simp [hdecode (by simp) serial hserial]
  | prefillDone =>
    refine leads_fenced (fun w n => decide ((w.tracker.info n).state = .prefilling) &&
      decide (msg.instanceEpoch = some (w.tracker.info n).prefillInstanceEpoch) &&
      w.scheduler.epochMatches (w.tracker.info n).prefillInstance
        (w.tracker.info n).prefillInstanceEpoch) _ fun serial hserial => ?_
    rcases h serial hserial with hepoch | hepoch
    · have hne : msg.instanceEpoch ≠
        some (s.shared.tracker.info serial).prefillInstanceEpoch := hepoch
      simp [hne]
    · have hpassed : s.shared.scheduler.epochMatches
        (s.shared.tracker.info serial).prefillInstance
        (s.shared.tracker.info serial).prefillInstanceEpoch = false := hepoch
      simp [hpassed]
  | recomputeDone =>
    exact leads_fenced (fun w n => decide ((w.tracker.info n).state = .recomputing) &&
      Loop.fromDecode w (w.tracker.info n) msg) _
      fun serial hserial => by simp [hdecode (by simp) serial hserial]
  | _ =>
    exact leads_fenced (fun w n => Loop.outputFence cfg w (w.tracker.info n) msg) _
      fun serial hserial => by simp [Loop.outputFence, hdecode (by simp) serial hserial]

/-- The completion of a transfer whose target has restarted closes its entry of the ledger only. -/
theorem completeTask_outdated (task : TransferTask)
    (h : ∀ serial, s.shared.tracker.get? task.reqId = some serial →
      decodeCurrent s (requestIn s serial) = false) :
    Leads R (Loop.completeTask task) s fun l r t =>
      l = [] ∧ (∃ b, r = .ok b) ∧ ∃ g, t = s.update fun w => { w with governor := g } := by
  unfold Loop.completeTask
  refine leads_read_bind.mpr ?_
  by_cases hholds : s.shared.governor.holds task = true
  · rw [if_pos hholds]
    refine leads_modify_bind.mpr ?_
    refine leads_bind.mpr ?_
    have hignored : Leads R (Loop.onKvDone task.reqId task.operationId)
        (s.update fun w => { w with governor := w.governor.discharge task })
        fun l r t => l = [] ∧ r = .ok () ∧
          t = s.update fun w => { w with governor := w.governor.discharge task } := by
      unfold Loop.onKvDone
      refine leads_read_bind.mpr ?_
      change Leads R
        (match s.shared.tracker.get? task.reqId with | none => _ | some serial => _) _ _
      cases hserial : s.shared.tracker.get? task.reqId with
      | none =>
        exact ⟨rfl, rfl, rfl⟩
      | some serial =>
        have hpassed : s.shared.scheduler.epochMatches
          (s.shared.tracker.info serial).decodeInstance
          (s.shared.tracker.info serial).decodeInstanceEpoch = false := h serial hserial
        simp only [Sys.update_shared, hpassed, or_true, if_true]
        exact ⟨rfl, rfl, rfl⟩
    refine hignored.mono fun l r t hr => ?_
    obtain ⟨rfl, rfl, rfl⟩ := hr
    exact ⟨rfl, ⟨true, rfl⟩, _, rfl⟩
  · rw [if_neg hholds]
    exact ⟨rfl, ⟨false, rfl⟩, s.shared.governor, rfl⟩

end Messages

/-! ## Replies to output queries -/

/-- The decode identity under which a request id is tracked. -/
def identityOf (w : World) (reqId : String) : Option (String × String × String × String) :=
  (w.tracker.get? reqId).bind fun serial => outputQueryIdentity (w.tracker.info serial)

/-- A reply names the request, the operation and the epoch of an identity. -/
def OutputReply.names (o : OutputReply) (i : String × String × String × String) : Prop :=
  o.instanceEpoch = some i.2.1 ∧ o.reqId = some i.2.2.1 ∧ o.operationId = some i.2.2.2

/-- A reply with another identity than its request has by then. -/
def OutputReply.Foreign (o : OutputReply) (w : World) (reqId : String) : Prop :=
  ∀ i, identityOf w reqId = some i → ¬ o.names i

section Replies

variable {R : Surroundings} {s : Process}

theorem not_current_of_foreign {w : World} {q : Loop.QueryIdentity} {o : OutputReply}
    (h : o.Foreign w q.reqId) : (Loop.stillCurrent w q && Loop.answersQuery q o) = false := by
  by_contra hboth
  simp only [Bool.not_eq_false, Loop.stillCurrent, Loop.answersQuery, Bool.and_eq_true,
    decide_eq_true_eq] at hboth
  obtain ⟨⟨htracked, hidentity⟩, ⟨hreq, hepoch⟩, hop⟩ := hboth
  have hcurrent : identityOf w q.reqId =
      some (q.instanceId, q.instanceEpoch, q.reqId, q.operationId) := by
    simp [identityOf, htracked, hidentity]
  exact h _ hcurrent ⟨hepoch, hreq, hop⟩

/-- A query whose failures do nothing, and whose answer is used in one step. -/
theorem leads_query {α : Type} {c : Call} {next : OutputReply → Loop α}
    {Φ : List Trip → Except Exc α → Process → Prop}
    (hfit : ∀ c s x t, R c s x t → Understood false Reply.outputOnly x)
    (hanswer : ∀ o t, Leads R (next o) t fun l r u => Φ (⟨c, .output o, s, t⟩ :: l) r u)
    (hfail : ∀ e t u, Φ [⟨c, .raised e, s, t⟩] (.error e) u) :
    Leads R ((Loop.call c Reply.outputOnly).bind next) s Φ := by
  refine leads_bind.mpr ?_
  change Leads R (Loop.callIn false c Reply.outputOnly) s _
  refine leads_callIn (fun x t hx => hfit _ _ _ _ hx) ?_ ?_ ?_
  · intro x t o _ ho
    have hx : x = .output o := by
      cases x <;> simp_all [Reply.outputOnly]
    subst hx
    exact hanswer o t
  · intro e t _ _
    exact hfail e t t
  · intro t _
    exact hfail .cancelled t _

/-- What is claimed of a query: a foreign reply is refused and changes nothing. -/
def RefusesForeign (reqId : String) (l : List Trip) (r : Except Exc Unit) (t : Process) : Prop :=
  ∀ v ∈ l, ∀ o, v.reply = .output o → o.Foreign v.back.shared reqId → r ≠ .ok () ∧ t = v.back

theorem RefusesForeign.of_failure {reqId : String} {c : Call} {e : Exc} {t u : Process} :
    RefusesForeign reqId [⟨c, .raised e, s, t⟩] (.error e) u := by
  intro v hv o ho
  cases List.mem_singleton.mp hv
  cases ho

theorem RefusesForeign.of_reply {reqId : String} {c : Call} {o : OutputReply}
    {r : Except Exc Unit} {t u : Process} (h : o.Foreign t.shared reqId → r ≠ .ok () ∧ u = t) :
    RefusesForeign reqId [⟨c, .output o, s, t⟩] r u := by
  intro v hv o' ho hforeign
  cases List.mem_singleton.mp hv
  cases ho
  exact h hforeign

theorem repairOutputGap_foreign (q : Loop.QueryIdentity) (cursor : Nat)
    (hfit : ∀ c s x t, R c s x t → Understood false Reply.outputOnly x) :
    Leads R (Loop.repairOutputGap q cursor) s (RefusesForeign q.reqId) := by
  unfold Loop.repairOutputGap
  refine leads_query hfit (fun o t => ?_) fun e t u => RefusesForeign.of_failure
  cases hanswers : Loop.answersQuery q o with
  | false =>
    exact RefusesForeign.of_reply fun _ => ⟨by simp, rfl⟩
  | true =>
    -- A foreign reply that answers the query finds the request changed.
    have happlied (tokenIds : List Int) (seqNo : Int) :
        Leads R (Loop.applyOutput q.reqId q.serial o.origin tokenIds seqNo o.terminal o.error
          (Loop.stillCurrent t.shared q)) t fun l r u =>
            RefusesForeign q.reqId
              (⟨.requestOutput q.instanceId q.reqId cursor, .output o, s, t⟩ :: l)
              r u := by
      unfold Loop.applyOutput
      rw [leads_attemptWith]
      refine RefusesForeign.of_reply fun hforeign => ?_
      have hcurrent : Loop.stillCurrent t.shared q = false := by
        simpa [hanswers] using not_current_of_foreign hforeign
      simp [hcurrent, OutputBuffer.applyCumulative, Sys.update, Except.map]
    cases htokens : o.tokenIds with
    | none =>
      exact RefusesForeign.of_reply fun _ => ⟨by simp, rfl⟩
    | some tokenIds =>
      cases hseq : o.outputSeqNo with
      | none =>
        exact RefusesForeign.of_reply fun _ => ⟨by simp, rfl⟩
      | some seqNo =>
        exact happlied tokenIds seqNo

theorem reconcileAuthoritativeOutput_foreign (serial : Nat)
    (hfit : ∀ c s x t, R c s x t → Understood false Reply.outputOnly x) :
    Leads R (Loop.reconcileAuthoritativeOutput serial) s
      (RefusesForeign (requestIn s serial).reqId) := by
  unfold Loop.reconcileAuthoritativeOutput
  refine leads_read_bind.mpr ?_
  cases hq : Loop.queryIdentity s.shared serial with
  | none =>
    intro v hv
    simp at hv
  | some q =>
    have hid : q.reqId = (requestIn s serial).reqId := Loop.queryIdentity_reqId hq
    rw [← hid]
    unfold Loop.snapshot
    refine leads_bind.mpr (leads_attempt (fun known w hknown => ?_) fun e he => ?_)
    · refine leads_query hfit (fun o t => ?_) fun e t u => RefusesForeign.of_failure
      refine leads_bind.mpr ?_
      rw [leads_read, after_ok]
      cases hcurrent : Loop.stillCurrent t.shared q && Loop.answersQuery q o with
      | false =>
        exact RefusesForeign.of_reply fun _ => ⟨by simp, rfl⟩
      | true =>
        -- What the request's own reply does is no matter here; it takes no further call.
        rw [if_pos rfl]
        refine Atomic.leads ?_ fun r u => RefusesForeign.of_reply fun hforeign => ?_
        · exact Atomic.bind (Atomic.attemptWith _) fun _ => Atomic.bind (Atomic.attempt _) fun _ =>
            Atomic.bind (Loop.when_atomic fun _ => trivial) fun _ =>
              Loop.when_atomic (Atomic.attempt _)
        · simp [not_current_of_foreign hforeign] at hcurrent
    · intro v hv
      simp at hv

end Replies

/--
In every state: a message from another epoch than the assigned one, or of an
epoch that has passed, changes nothing; a transfer that completes after its target
has restarted changes nothing but the ledger of transfers; and a reply to an
output query is refused, and changes nothing, unless it names the identity that
its request has when it arrives.
-/
theorem outdated_reports_ignored (cfg : Settings) (R : Surroundings) (s : Process) :
    (∀ (subject : Subject) (msg : Message),
      (∀ serial, Loop.addressee s.shared msg = some serial →
        Outdated subject s.shared (requestIn s serial) msg) →
      Leads R (Loop.handlerOf cfg subject msg) s fun l r t => l = [] ∧ r = .ok () ∧ t = s) ∧
    (∀ task : TransferTask,
      (∀ serial, s.shared.tracker.get? task.reqId = some serial →
        decodeCurrent s (requestIn s serial) = false) →
      Leads R (Loop.completeTask task) s fun l r t =>
        l = [] ∧ (∃ b, r = .ok b) ∧ ∃ g, t = s.update fun w => { w with governor := g }) ∧
    ((∀ c s x t, R c s x t → Understood false Reply.outputOnly x) →
      (∀ (q : Loop.QueryIdentity) (cursor : Nat),
        Leads R (Loop.repairOutputGap q cursor) s (RefusesForeign q.reqId)) ∧
      ∀ serial : Nat, Leads R (Loop.reconcileAuthoritativeOutput serial) s
        (RefusesForeign (requestIn s serial).reqId)) :=
  ⟨fun subject _ h => handlerOf_outdated cfg subject h,
    fun task h => completeTask_outdated task h,
    fun hfit => ⟨fun q cursor => repairOutputGap_foreign q cursor hfit,
      fun serial => reconcileAuthoritativeOutput_foreign serial hfit⟩⟩

/-- A legacy request waits for its transfer. -/
def transferDeferred : Process :=
  (runFrom (smallSettings false false []) (smallWorld false) decodeStarts).sys

/-- A completion of `r1` from an earlier epoch of its decode instance. -/
def formerDecodeDone : Message :=
  { origin := 0, reqId := some "r1", instanceEpoch := some "f0", tokenIds := some [7] }

theorem completion_of_former_epoch_ignored :
    Loop.addressee transferDeferred.shared formerDecodeDone = some 0 ∧
      Leads (fun _ _ _ _ => False)
        (Loop.handlerOf (smallSettings false false []) .decodeDone formerDecodeDone)
        transferDeferred fun l r t => l = [] ∧ r = .ok () ∧ t = transferDeferred := by
  have haddr : Loop.addressee transferDeferred.shared formerDecodeDone = some 0 := by
    decide +kernel
  refine ⟨haddr, (outdated_reports_ignored _ _ transferDeferred).1 .decodeDone _ ?_⟩
  intro serial hserial
  rw [haddr] at hserial
  cases hserial
  exact Or.inl (by decide +kernel)

end PrismServe
