import PrismServe.Properties.Cleanup

/-!
# Where the capacity goes in a legacy cleanup

Without network control a cleanup asks the workers, checks the epochs on every
return and decides for each side by the evidence: the prefill load and the decode
slot of the request are given back, their instance is quarantined, or they are
left alone because the instance has restarted.  `Disposed` says which, and on
what evidence.
-/

namespace PrismServe

open Lib Lib.Prog

/-! ## Dispositions -/

/-- An epoch was found changed, at the start or on return from a call. -/
def ChangedSeen (current : Process → RequestInfo → Bool) (req : RequestInfo) (s : Process)
    (l : List Trip) : Prop :=
  current s req = false ∨ ∃ v ∈ l, current v.back req = false

/-- The source of a transfer in flight was found restarted, at the start or on return from the
abort of the transfer. -/
def SourceChangedSeen (req : RequestInfo) (s : Process) (l : List Trip) : Prop :=
  transferStateIn s req = .inflight ∧ (prefillCurrent s req = false ∨
    ∃ v ∈ l, v.call = transferAbort req ∧ prefillCurrent v.back req = false)

/-- The decode instance acknowledged the abort of the request at the assigned epoch. -/
def AbortAcked (req : RequestInfo) (l : List Trip) : Prop :=
  ∃ v ∈ l, v.call = .abortRequest req.decodeInstance req.reqId ∧ v.reply = .flag true ∧
    decodeCurrent v.back req = true

/-- The transfer was cancelled while it was deferred, or its abort was acknowledged. -/
def TransferStopped (req : RequestInfo) (s : Process) (l : List Trip) (u : Process) : Prop :=
  transferStateIn s req = .deferred ∧ Leaves World.governor (s.update (cancelIn req)) l u ∨
    ∃ v ∈ l, v.call = transferAbort req ∧ v.reply = .flag true

/-- What becomes of the prefill load; `u` is the state in which that is decided. -/
inductive PrefillDisposed (req : RequestInfo) (s : Process) (l : List Trip) (u : Process) :
    (PDScheduler → PDScheduler) → Prop
  | notOwned (h : ownsPrefill req = false) : PrefillDisposed req s l u id
  | givenBack (hcurrent : prefillCurrent u req = true) :
      PrefillDisposed req s l u (prefillGivenBack req)
  | quarantined (dispatch : Option UncertainRef) :
      PrefillDisposed req s l u
        (PDScheduler.quarantineInstance u.shared.now req.prefillInstance none dispatch)
  | changed (h : ChangedSeen prefillCurrent req s l) : PrefillDisposed req s l u id

/-- What becomes of the decode slot. -/
inductive DecodeDisposed (req : RequestInfo) (s : Process) (l : List Trip) (u : Process) :
    (PDScheduler → PDScheduler) → Prop
  | notOwned (h : ownsDecode req = false) : DecodeDisposed req s l u id
  | givenBack (hcurrent : decodeCurrent u req = true)
      (hfree : req.state = .prefilling ∨ AbortAcked req l)
      (htransfer : req.state = .kvPending → TransferStopped req s l u) :
      DecodeDisposed req s l u (decodeGivenBack req)
  | quarantined (transfer : Option UncertainRef) :
      DecodeDisposed req s l u
        (PDScheduler.quarantineInstance u.shared.now req.decodeInstance transfer none)
  | changed (h : ChangedSeen decodeCurrent req s l) : DecodeDisposed req s l u id

/-- An uncertain transfer stands in the quarantine record of its target. -/
def Recorded (cfg : Settings) (req : RequestInfo) (s : PDScheduler) : Prop :=
  ∃ record, s.quarantinedInstances.get? req.decodeInstance = some record ∧
    Loop.uncertainTransfer cfg req req.decodeInstanceEpoch ∈ record.uncertainTransferOperations

/--
The scheduler is left alone up to one moment, at which both sides are disposed
of, and again after it.  A transfer that was not stopped is recorded at its
target before the ledger is touched.
-/
inductive Disposed (cfg : Settings) (req : RequestInfo) (s : Process) (l : List Trip)
    (t : Process) : Prop
  | intro {l₁ l₂ : List Trip} {u : Process} {p d : PDScheduler → PDScheduler} (hl : l = l₁ ++ l₂)
      (hbefore : Leaves World.scheduler s l₁ u)
      (hafter : Leaves World.scheduler
        (u.update fun w => { w with scheduler := d (p w.scheduler) }) l₂ t)
      (hprefill : PrefillDisposed req s l₁ u p) (hdecode : DecodeDisposed req s l₁ u d)
      (hrecorded : req.state = .kvPending → ¬ ChangedSeen decodeCurrent req s l₁ →
        ¬ TransferStopped req s l₁ u →
          Leaves World.governor s l₁ u ∧ Recorded cfg req (d (p u.shared.scheduler)))

theorem quarantineInstance_recorded (cfg : Settings) (req : RequestInfo) (now : Time)
    (s : PDScheduler) :
    Recorded cfg req (s.quarantineInstance now req.decodeInstance
      (some (Loop.uncertainTransfer cfg req req.decodeInstanceEpoch)) none) := by
  unfold PDScheduler.quarantineInstance
  cases hq : s.quarantinedInstances.get? req.decodeInstance with
  | none =>
    exact ⟨_, Dict.get?_set_self _ _ _, by simp⟩
  | some existing =>
    refine ⟨_, Dict.get?_set_self _ _ _, ?_⟩
    by_cases hin : Loop.uncertainTransfer cfg req req.decodeInstanceEpoch ∈
        existing.uncertainTransferOperations
    · simp [PDScheduler.extendRecord, hin]
    · simp [PDScheduler.extendRecord, hin]

/-! ## The evidence disposes -/

section Settling

variable {cfg : Settings} {serial : Nat} {s u : Process} {l : List Trip} {e : Evidence}
variable {before req : RequestInfo}

/-- Requests with the same assignment settle the same instances. -/
theorem prefillGivenBack_congr (h : req.assignment = before.assignment) :
    prefillGivenBack req = prefillGivenBack before := by
  simp only [RequestInfo.assignment, Assignment.mk.injEq] at h
  unfold prefillGivenBack
  simp only [h]

theorem decodeGivenBack_congr (h : req.assignment = before.assignment) :
    decodeGivenBack req = decodeGivenBack before := by
  simp only [RequestInfo.assignment, Assignment.mk.injEq] at h
  unfold decodeGivenBack
  simp only [h]

theorem decodeCurrent_congr (h : req.assignment = before.assignment) :
    decodeCurrent u req = decodeCurrent u before := by
  simp only [RequestInfo.assignment, Assignment.mk.injEq] at h
  simp only [decodeCurrent, h]

/-- A load or slot of an epoch that has passed cannot be given back. -/
theorem decodeGivenBack_of_changed {w : PDScheduler} (req : RequestInfo)
    (h : w.epochMatches req.decodeInstance req.decodeInstanceEpoch = false) :
    decodeGivenBack req w = w := by
  simp [decodeGivenBack, PDScheduler.onDecodeFinished, PDScheduler.epochAdmits, h]

theorem prefillGivenBack_of_changed {w : PDScheduler} (req : RequestInfo)
    (h : w.epochMatches req.prefillInstance req.prefillInstanceEpoch = false) :
    prefillGivenBack req w = w := by
  simp [prefillGivenBack, PDScheduler.onPrefillDone, PDScheduler.epochAdmits, h]

theorem afterPrefill_of_settles (now : Time) (hassign : req.assignment = before.assignment)
    (hsettles : e.settlesPrefill before = true) :
    e.afterPrefill before req now =
      if (e.proof before req).pLoadReleasable then prefillGivenBack before
      else PDScheduler.quarantineInstance now before.prefillInstance none none := by
  have hp : req.prefillInstance = before.prefillInstance :=
    congrArg Assignment.prefillInstance hassign
  rw [← prefillGivenBack_congr hassign, ← hp]
  funext w
  unfold Evidence.afterPrefill
  rw [if_pos hsettles]
  split <;> rfl

theorem afterDecode_of_settles (now : Time) (w : PDScheduler)
    (hassign : req.assignment = before.assignment) (hsettles : e.settlesDecode before = true) :
    e.afterDecode cfg before req now w =
      if (e.proof before req).dSlotReleasable then decodeGivenBack before w
      else w.quarantineInstance now before.decodeInstance (e.uncertain cfg req w) none := by
  have hd : req.decodeInstance = before.decodeInstance :=
    congrArg Assignment.decodeInstance hassign
  rw [← decodeGivenBack_congr hassign, ← hd]
  unfold Evidence.afterDecode
  rw [if_pos hsettles]
  split <;> rfl

/-- An epoch that has passed at the end was found changed on the way. -/
theorem ChangedSeen.of_end {current : Process → RequestInfo → Bool}
    (hcongr : ∀ s t : Process, t.shared.scheduler = s.shared.scheduler →
      current t req = current s req) :
    ∀ {l : List Trip} {s : Process}, Leaves World.scheduler s l u → current u req = false →
      ChangedSeen current req s l
  | [], s, h, hu => Or.inl (by rw [← hcongr s u h, hu])
  | v :: l, s, h, hu => by
      rcases of_end hcongr h.2 hu with hv | ⟨v', hv', hc⟩
      · exact Or.inr ⟨v, List.mem_cons_self, hv⟩
      · exact Or.inr ⟨v', List.mem_cons_of_mem _ hv', hc⟩

theorem decodeCurrent_scheduler (s t : Process) (h : t.shared.scheduler = s.shared.scheduler) :
    decodeCurrent t req = decodeCurrent s req := by
  unfold decodeCurrent
  rw [h]

theorem ChangedSeen.of_asked {c : Call} {current : Process → RequestInfo → Bool}
    (h : Asked c s l u) (hu : current u req = false) : ChangedSeen current req s l := by
  cases h with
  | never =>
    exact Or.inl hu
  | once x t =>
    exact Or.inr ⟨_, List.mem_singleton.mpr rfl, hu⟩

/-- The uncertain transfer is recorded with the epoch of its target. -/
theorem uncertain_of_current {w : PDScheduler} (hassign : req.assignment = before.assignment)
    (huncertain : e.transfer.transferState = .uncertain)
    (hcurrent : w.epochMatches before.decodeInstance before.decodeInstanceEpoch = true) :
    e.uncertain cfg req w =
      some (Loop.uncertainTransfer cfg before before.decodeInstanceEpoch) := by
  simp only [RequestInfo.assignment, Assignment.mk.injEq] at hassign
  simp only [PDScheduler.epochMatches, Bool.and_eq_true, decide_eq_true_eq] at hcurrent
  simp [Evidence.uncertain, huncertain, Loop.uncertainTransfer, PDScheduler.instanceEpoch,
    hassign, hcurrent.2]

/-- The states in which a slot can be released, and what each of them asks for. -/
theorem dSlotReleasable_cases {proof : CleanupProof} (h : proof.dSlotReleasable = true) :
    proof.requestState = .prefilling ∨
      proof.dRemoteRequestState = .abortAck ∧
        (proof.requestState = .kvPending ∧ (proof.transferState = .deferredCancelled ∨
            proof.transferState = .fencedAck) ∨
          proof.requestState = .decoding ∧ proof.transferState = .none ∨
          proof.requestState = .recomputing) := by
  simp only [CleanupProof.dSlotReleasable, Bool.and_eq_true] at h
  obtain ⟨-, h⟩ := h
  cases hstate : proof.requestState <;> simp_all

theorem afterPrefill_instanceEpochs (now : Time) (w : PDScheduler) :
    (e.afterPrefill before req now w).instanceEpochs = w.instanceEpochs := by
  unfold Evidence.afterPrefill
  split
  · split
    · unfold PDScheduler.onPrefillDone
      split
      · rfl
      · split <;> rfl
    · unfold PDScheduler.quarantineInstance
      split <;> rfl
  · rfl

/-- A request that is pending has been pending. -/
theorem SeqState.MovesTo.pending {old new : SeqState} (h : old.MovesTo new)
    (hnew : new = .kvPending) : old = .kvPending := by
  rcases h with h | ⟨h, -⟩
  · exact h.symm.trans hnew
  · exact h

/-- An answer at the assigned epoch touches no ledger. -/
theorem DecodeFound.leaves_governor {a : RemoteRequestState × Bool}
    (h : DecodeFound serial e.transfer s l a u) (ha : a.2 = false) :
    Leaves World.governor s l u := by
  cases h with
  | skipped h =>
    rfl
  | current htarget hsource hknown x t hd =>
    exact ⟨rfl, rfl⟩
  | changed htarget hsource hknown x t hd =>
    cases ha

variable (hfound : EvidenceFound cfg serial s l e u) (hkept : ∀ v ∈ l, Kept serial v.left v.back)
variable (hstate : (requestIn s serial).state = .kvPending)

include hfound

theorem EvidenceFound.leaves_scheduler
    (hsource : e.transfer.sourceChanged = false) : Leaves World.scheduler s l u := by
  obtain @⟨l₁, l₂, l₃, transfer, prefill, decode, u₁, u₂, u₃, h₁, h₂, h₃⟩ := hfound
  have hleft : Leaves World.scheduler s l₁ u₁ := by
    cases h₁ with
    | targetChanged hstate hl hd =>
      exact (hl.leaves _).step rfl
    | sourceChanged hstate hl hd =>
      cases hsource
    | answered hstate hchanged x t hd =>
      exact ⟨rfl, rfl⟩
    | _ =>
      rfl
  exact hleft.append ((h₂.leaves _).append (h₃.leaves _ fun _ _ => rfl))

section Pending

include hstate

/-- The evidence about a request whose transfer is pending: nobody asks its prefill instance. -/
theorem EvidenceFound.of_pending : ∃ l₁ l₂ u₁, l = l₁ ++ l₂ ∧
      TransferFound cfg (requestIn s serial)
        (ownsDecode (requestIn s serial) && !decodeCurrent s (requestIn s serial)) s l₁
        e.transfer u₁ ∧
      e.prefill = (.alreadyCompleted, false) ∧ DecodeFound serial e.transfer u₁ l₂ e.decode u := by
  obtain @⟨l₁, l₂, l₃, transfer, prefill, decode, u₁, u₂, u₃, h₁, h₂, h₃⟩ := hfound
  have howns : ownsPrefill (requestIn s serial) = false := by simp [ownsPrefill, hstate]
  rw [howns] at h₂
  obtain ⟨rfl, rfl, rfl⟩ := h₂.of_unowned
  exact ⟨l₁, l₃, u₁, rfl, h₁, by simp [hstate], h₃⟩

/-- A transfer that the evidence calls cancelled or fenced was stopped. -/
theorem EvidenceFound.transfer_stopped (hchanged : e.decode.2 = false)
    (hstopped : e.transfer.transferState = .deferredCancelled ∨
      e.transfer.transferState = .fencedAck) : TransferStopped (requestIn s serial) s l u := by
  obtain ⟨l₁, l₂, u₁, rfl, h₁, -, h₂⟩ := hfound.of_pending hstate
  have htarget := h₂.target_unchanged hchanged
  have hleft := h₂.leaves_governor hchanged
  generalize e.transfer = found at h₁ htarget hstopped
  cases h₁ with
  | notPending h =>
    exact absurd hstate h
  | expired _ _ =>
    cases htarget
  | deferred _ _ htask =>
    exact Or.inl ⟨htask, hleft⟩
  | targetChanged _ _ _ =>
    cases htarget
  | answered _ _ x t _ =>
    have hx : x = .flag true := by
      by_contra hx
      simp [hx] at hstopped
    exact Or.inr ⟨⟨_, x, s, _⟩, List.mem_cons_self, rfl, hx⟩
  | _ =>
    simp at hstopped

/-- Evidence about a pending transfer that was not stopped is uncertain and touches no ledger. -/
theorem EvidenceFound.transfer_uncertain (hsource : e.transfer.sourceChanged = false)
    (hchanged : e.decode.2 = false) (hopen : ¬ TransferStopped (requestIn s serial) s l u) :
    e.transfer.transferState = .uncertain ∧ Leaves World.governor s l u := by
  obtain ⟨l₁, l₂, u₁, rfl, h₁, -, h₂⟩ := hfound.of_pending hstate
  have htarget := h₂.target_unchanged hchanged
  have huncertain : e.transfer.transferState = .uncertain := by
    rcases h₁.of_pending hstate htarget hsource with ⟨-, h⟩ | ⟨-, h | h⟩
    · exact absurd (hfound.transfer_stopped hstate hchanged (Or.inl h)) hopen
    · exact absurd (hfound.transfer_stopped hstate hchanged (Or.inr h)) hopen
    · exact h
  refine ⟨huncertain, ?_⟩
  have hleft₁ : Leaves World.governor s l₁ u₁ := by
    generalize e.transfer = found at h₁ htarget hsource huncertain
    cases h₁ with
    | deferred _ _ _ =>
      cases huncertain
    | targetChanged _ _ _ =>
      cases htarget
    | sourceChanged _ _ _ =>
      cases hsource
    | answered _ _ x t _ =>
      exact ⟨rfl, rfl⟩
    | _ =>
      rfl
  exact hleft₁.append (h₂.leaves_governor hchanged)

/-- The source of a transfer was found restarted exactly if the evidence says so, unless its target
has restarted. -/
theorem EvidenceFound.source_seen_iff (hchanged : e.decode.2 = false) :
    SourceChangedSeen (requestIn s serial) s l ↔ e.transfer.sourceChanged = true := by
  obtain ⟨l₁, l₂, u₁, rfl, h₁, -, h₂⟩ := hfound.of_pending hstate
  have htarget := h₂.target_unchanged hchanged
  -- the later visit is to the decode instance
  have hlater : ∀ v ∈ l₂, v.call ≠ transferAbort (requestIn s serial) := by
    generalize e.decode = found at h₂
    cases h₂ with
    | skipped h =>
      simp
    | _ =>
      simp [transferAbort]
  generalize e.transfer = found at h₁ htarget
  cases h₁ with
  | notPending h =>
    exact absurd hstate h
  | deferred _ _ htask =>
    simp [SourceChangedSeen, htask]
  | missing _ _ htask =>
    simp [SourceChangedSeen, htask]
  | sourceChanged _ hl _ htask hp =>
    refine iff_of_true ⟨htask, ?_⟩ rfl
    cases hl with
    | never =>
      exact Or.inl hp
    | once x t =>
      exact Or.inr ⟨_, List.mem_cons_self, rfl, hp⟩
  | answered _ _ x t _ hleft hp =>
    refine iff_of_false ?_ (by simp)
    rintro ⟨-, h | ⟨v, hv, hcall, h⟩⟩
    · simp [hleft] at h
    · rcases List.mem_cons.mp hv with rfl | hv
      · simp [hp] at h
      · exact hlater v hv hcall
  | _ =>
    cases htarget

end Pending

/-- A changed source quarantines the target at once, and nothing else is asked. -/
theorem EvidenceFound.source_disposed (hsource : e.transfer.sourceChanged = true) :
    Disposed cfg (requestIn s serial) s l
      (u.update (e.settled cfg (requestIn s serial) (requestIn u serial))) := by
  have hstate : (requestIn s serial).state = .kvPending := by
    obtain ⟨h₁, -, -⟩ := hfound
    by_contra hstate
    obtain ⟨-, -, rfl⟩ := h₁.of_notPending hstate
    cases hsource
  have howns : ownsPrefill (requestIn s serial) = false := by simp [ownsPrefill, hstate]
  obtain ⟨l₁, l₂, u₁, rfl, h₁, -, h₂⟩ := hfound.of_pending hstate
  have hskipped : l₂ = [] ∧ u₁ = u := by
    generalize e.decode = found at h₂
    cases h₂ with
    | skipped h =>
      exact ⟨rfl, rfl⟩
    | current _ h _ _ _ _ =>
      simp [hsource] at h
    | changed _ h _ _ _ _ =>
      simp [hsource] at h
  obtain ⟨rfl, rfl⟩ := hskipped
  have hp (w : PDScheduler) :
      e.afterPrefill (requestIn s serial) (requestIn u₁ serial) u₁.shared.now w = w := by
    simp [Evidence.afterPrefill, Evidence.settlesPrefill, howns]
  have hd (w : PDScheduler) :
      e.afterDecode cfg (requestIn s serial) (requestIn u₁ serial) u₁.shared.now w = w := by
    simp [Evidence.afterDecode, Evidence.settlesDecode, hsource]
  have hsettled : (u₁.update (e.settled cfg (requestIn s serial)
      (requestIn u₁ serial))).shared.scheduler = u₁.shared.scheduler := by
    change e.afterDecode _ _ _ _ (e.afterPrefill _ _ _ _) = _
    rw [hp, hd]
  generalize e.transfer = found at h₁ hsource
  cases h₁ with
  | @sourceChanged _ _ u' hl hd =>
    let uncertain := Loop.uncertainTransfer cfg (requestIn s serial)
      (requestIn s serial).decodeInstanceEpoch
    refine Disposed.intro (p := id) (d := PDScheduler.quarantineInstance u'.shared.now
      (requestIn s serial).decodeInstance (some uncertain) none) rfl (hl.leaves _) hsettled
      (.notOwned howns) (.quarantined _) ?_
    exact fun _ _ _ => ⟨hl.leaves _, quarantineInstance_recorded cfg _ _ _⟩
  | _ =>
    cases hsource

include hkept

/-- The evidence about a request in prefill: nothing but its prefill instance is asked. -/
theorem EvidenceFound.of_prefilling (hstate : (requestIn s serial).state = .prefilling) :
    PrefillFound (requestIn s serial) (ownsPrefill (requestIn s serial))
        (ownsPrefill (requestIn s serial) && !prefillCurrent s (requestIn s serial)) s l
        e.prefill u ∧
      e.transfer.transferState = .none ∧ e.transfer.sourceChanged = false ∧
      e.decode = (.neverDispatched,
        ownsDecode (requestIn s serial) && !decodeCurrent s (requestIn s serial)) := by
  obtain @⟨l₁, l₂, l₃, transfer, prefill, decode, u₁, u₂, u₃, h₁, h₂, h₃⟩ := hfound
  obtain ⟨rfl, rfl, rfl⟩ := h₁.of_notPending (by simp [hstate])
  have hkept₂ : Kept serial s u₂ :=
    Kept.of_leaves (h₂.leaves _) fun v hv => hkept v (by simp [hv])
  have hstate₂ : (requestIn u₂ serial).state = .prefilling := by
    rcases hkept₂.state with h | ⟨h, -⟩
    · exact h.trans hstate
    · simp [hstate] at h
  obtain ⟨rfl, rfl, rfl⟩ := h₃.of_unknown (by simp [hstate₂, knownToDecode])
  exact ⟨by simpa using h₂, by simp [hstate], rfl, rfl⟩

/-- The prefill side of evidence about a dispatched request. -/
theorem EvidenceFound.prefill_disposed : PrefillDisposed (requestIn s serial) s l u
      (e.afterPrefill (requestIn s serial) (requestIn u serial) u.shared.now) := by
  have hleft (h : e.settlesPrefill (requestIn s serial) = false) :
      e.afterPrefill (requestIn s serial) (requestIn u serial) u.shared.now = id := by
    funext w
    simp [Evidence.afterPrefill, h]
  cases howns : ownsPrefill (requestIn s serial) with
  | false =>
    rw [hleft (by simp [Evidence.settlesPrefill, howns])]
    exact PrefillDisposed.notOwned howns
  | true =>
    have hstate : (requestIn s serial).state = .prefilling := by
      simp only [ownsPrefill, Bool.and_eq_true, decide_eq_true_eq] at howns
      exact howns.1
    obtain ⟨hfoundp, -⟩ := hfound.of_prefilling hkept hstate
    have hassign := (Kept.of_leaves hfound.leaves_request hkept).assignment
    cases hchanged : e.prefill.2 with
    | true =>
      rw [hleft (by simp [Evidence.settlesPrefill, hchanged])]
      refine PrefillDisposed.changed ?_
      generalize e.prefill = found at hfoundp hchanged
      cases hfoundp with
      | skipped h =>
        exact Or.inl (by simpa [howns] using hchanged)
      | asked _ _ x t =>
        refine Or.inr ⟨_, List.mem_singleton.mpr rfl, ?_⟩
        cases hcur : prefillCurrent u (requestIn s serial) with
        | false =>
          rfl
        | true =>
          rw [if_pos hcur] at hchanged
          cases hchanged
    | false =>
      have hsettles : e.settlesPrefill (requestIn s serial) = true := by
        simp [Evidence.settlesPrefill, howns, hchanged]
      rw [afterPrefill_of_settles u.shared.now hassign hsettles]
      cases hrel : (e.proof (requestIn s serial) (requestIn u serial)).pLoadReleasable with
      | false =>
        exact PrefillDisposed.quarantined none
      | true =>
        refine PrefillDisposed.givenBack ?_
        generalize e.prefill = found at hfoundp hchanged
        cases hfoundp with
        | skipped h =>
          simp_all
        | asked _ _ x t =>
          cases hcur : prefillCurrent u (requestIn s serial) with
          | true =>
            rfl
          | false =>
            simp [hcur] at hchanged

/-- A decode epoch that the evidence calls changed was found changed. -/
theorem EvidenceFound.changed_seen (hchanged : e.decode.2 = true) :
    ChangedSeen decodeCurrent (requestIn s serial) s l := by
  obtain @⟨l₁, l₂, l₃, transfer, prefill, decode, u₁, u₂, u₃, h₁, h₂, h₃⟩ := hfound
  have hstart (h : (ownsDecode (requestIn s serial) &&
      !decodeCurrent s (requestIn s serial)) = true) :
      ChangedSeen decodeCurrent (requestIn s serial) s (l₁ ++ (l₂ ++ l₃)) := by
    simp only [Bool.and_eq_true, Bool.not_eq_true'] at h
    exact Or.inl h.2
  cases h₃ with
  | skipped h =>
    cases h₁ with
    | notPending hstate =>
      exact hstart hchanged
    | expired hstate hc =>
      exact hstart hc
    | targetChanged hstate hl hd =>
      rcases ChangedSeen.of_asked hl hd with h | ⟨v, hv, hc⟩
      · exact Or.inl h
      · exact Or.inr ⟨v, by simp [hv], hc⟩
    | _ =>
      cases hchanged
  | current htarget hsource hknown x t hd =>
    cases hchanged
  | changed htarget hsource hknown x t hd =>
    have hkept₂ : Kept serial s u₂ :=
      Kept.of_leaves (h₁.leaves_request.append (h₂.leaves _)) fun v hv => hkept v (by
        rcases List.mem_append.mp hv with hv | hv <;> simp [hv])
    refine Or.inr ⟨⟨_, x, u₂, t⟩, List.mem_append_right _ (List.mem_append_right _
      (List.mem_singleton.mpr rfl)), ?_⟩
    rw [← decodeCurrent_congr hkept₂.assignment]
    exact hd

/-- A decode instance that acknowledged did so at the assigned epoch. -/
theorem EvidenceFound.abort_acked (hack : e.decode.1 = .abortAck) :
    AbortAcked (requestIn s serial) l := by
  obtain @⟨l₁, l₂, l₃, transfer, prefill, decode, u₁, u₂, u₃, h₁, h₂, h₃⟩ := hfound
  have hkept₂ : Kept serial s u₂ :=
    Kept.of_leaves (h₁.leaves_request.append (h₂.leaves _)) fun v hv => hkept v (by
      rcases List.mem_append.mp hv with hv | hv <;> simp [hv])
  cases h₃ with
  | current htarget hsource hknown x t hd =>
    have hx : x = .flag true := by
      by_contra hx
      simp [hx] at hack
    have hid : (requestIn u₂ serial).decodeInstance = (requestIn s serial).decodeInstance :=
      congrArg Assignment.decodeInstance hkept₂.assignment
    have hreq : (requestIn u₂ serial).reqId = (requestIn s serial).reqId :=
      congrArg Assignment.reqId hkept₂.assignment
    refine ⟨⟨_, x, u₂, _⟩, List.mem_append_right _ (List.mem_append_right _
      (List.mem_singleton.mpr rfl)), ?_, hx, ?_⟩
    · simp only [hid, hreq]
    · rw [← decodeCurrent_congr hkept₂.assignment]
      exact hd
  | _ =>
    cases hack

theorem EvidenceFound.released_after_abort
    (hrel : (e.proof (requestIn s serial) (requestIn u serial)).dSlotReleasable = true) :
    (requestIn s serial).state = .prefilling ∨ AbortAcked (requestIn s serial) l := by
  have hkeptu := Kept.of_leaves hfound.leaves_request hkept
  rcases dSlotReleasable_cases hrel with h | ⟨hack, -⟩
  · rcases hkeptu.state with hu | ⟨-, hu⟩
    · exact Or.inl (hu.symm.trans h)
    · simp [show (requestIn u serial).state = .prefilling from h] at hu
  · exact Or.inr (hfound.abort_acked hkept hack)

theorem EvidenceFound.released_after_transfer (hsource : e.transfer.sourceChanged = false)
    (hchanged : e.decode.2 = false)
    (hrel : (e.proof (requestIn s serial) (requestIn u serial)).dSlotReleasable = true)
    (hstate : (requestIn s serial).state = .kvPending) :
    TransferStopped (requestIn s serial) s l u := by
  have hkeptu := Kept.of_leaves hfound.leaves_request hkept
  have hmoved := hkeptu.state
  rw [hstate] at hmoved
  obtain ⟨l₁, l₂, u₁, -, h₁, -, h₂⟩ := hfound.of_pending hstate
  have htransfer := h₁.of_pending hstate (h₂.target_unchanged hchanged) hsource
  rcases dSlotReleasable_cases hrel with h | ⟨-, ⟨-, h⟩ | ⟨-, h⟩ | h⟩
  · have hu : (requestIn u serial).state = .prefilling := h
    simp [SeqState.MovesTo, hu] at hmoved
  · exact hfound.transfer_stopped hstate hchanged h
  · have hnone : e.transfer.transferState = .none := h
    rcases htransfer with ⟨-, h⟩ | ⟨-, h | h⟩ <;> simp [hnone] at h
  · have hu : (requestIn u serial).state = .recomputing := h
    simp [SeqState.MovesTo, hu] at hmoved

section StillPending

include hstate

/-- Accepted evidence about a pending transfer finds the request still pending. -/
theorem EvidenceFound.still_pending (hsource : e.transfer.sourceChanged = false)
    (hchanged : e.decode.2 = false)
    (hrej : e.rejected (requestIn s serial) (requestIn u serial) = false) :
    (requestIn u serial).state = .kvPending ∧ ownsDecode (requestIn s serial) = true := by
  have hkeptu := Kept.of_leaves hfound.leaves_request hkept
  obtain ⟨l₁, l₂, u₁, -, h₁, hprefill, h₂⟩ := hfound.of_pending hstate
  have hvalid : (e.proof (requestIn s serial) (requestIn u serial)).valid = true := by
    simpa [Evidence.rejected, hprefill, hchanged, hsource] using hrej
  have htransfer := h₁.of_pending hstate (h₂.target_unchanged hchanged) hsource
  rcases hkeptu.state with hu | ⟨-, hu | hu⟩
  · refine ⟨hu.trans hstate, ?_⟩
    rw [CleanupProof.valid_kvPending (hu.trans hstate)] at hvalid
    simp only [CleanupProof.decodeEvidence, Bool.and_eq_true] at hvalid
    exact hvalid.1.1.1.2
  · rw [CleanupProof.valid_decoding hu] at hvalid
    simp only [CleanupProof.noTransfer, Evidence.proof, Bool.and_eq_true] at hvalid
    rcases htransfer with ⟨-, h⟩ | ⟨-, h | h⟩ <;> simp [h] at hvalid
  · simp [CleanupProof.valid, Evidence.proof, hu] at hvalid

/-- The decode instance of a request that is pending at the end was asked, at its epoch. -/
theorem EvidenceFound.decode_current (hsource : e.transfer.sourceChanged = false)
    (hchanged : e.decode.2 = false) (hend : (requestIn u serial).state = .kvPending) :
    decodeCurrent u (requestIn s serial) = true := by
  obtain ⟨l₁, l₂, u₁, rfl, h₁, -, h₂⟩ := hfound.of_pending hstate
  have hkept₁ : Kept serial s u₁ :=
    Kept.of_leaves h₁.leaves_request fun v hv => hkept v (by simp [hv])
  have hkept₂ : Kept serial u₁ u :=
    Kept.of_leaves (h₂.leaves _ fun _ _ => rfl) fun v hv => hkept v (by simp [hv])
  have hpending := hkept₂.state.pending hend
  have htarget := h₂.target_unchanged hchanged
  generalize e.decode = found at h₂ hchanged
  cases h₂ with
  | skipped h =>
    simp [htarget, hsource, hpending, knownToDecode] at h
  | current htarget hsource hknown x t hd =>
    rw [← decodeCurrent_congr hkept₁.assignment]
    exact hd
  | changed htarget hsource hknown x t hd =>
    cases hchanged

/-- Evidence that calls the decode epoch unchanged has not seen it change. -/
theorem EvidenceFound.unchanged_unseen
    (howns : ownsDecode (requestIn s serial) = true) (hsource : e.transfer.sourceChanged = false)
    (hchanged : e.decode.2 = false) : ¬ ChangedSeen decodeCurrent (requestIn s serial) s l := by
  obtain ⟨l₁, l₂, u₁, rfl, h₁, -, h₂⟩ := hfound.of_pending hstate
  have hkept₁ : Kept serial s u₁ :=
    Kept.of_leaves h₁.leaves_request fun v hv => hkept v (by simp [hv])
  have htarget := h₂.target_unchanged hchanged
  have hfirst : decodeCurrent s (requestIn s serial) = true ∧
      ∀ v ∈ l₁, decodeCurrent v.back (requestIn s serial) = true := by
    have hstart (h : (ownsDecode (requestIn s serial) &&
        !decodeCurrent s (requestIn s serial)) = false) :
        decodeCurrent s (requestIn s serial) = true := by
      simpa [howns] using h
    generalize e.transfer = found at h₁ htarget hsource
    cases h₁ with
    | notPending h =>
      exact absurd hstate h
    | deferred _ hc _ =>
      exact ⟨hstart hc, by simp⟩
    | missing _ hc _ =>
      exact ⟨hstart hc, by simp⟩
    | sourceChanged _ _ _ =>
      cases hsource
    | answered _ hc x t hd =>
      exact ⟨hstart hc, by simpa using hd⟩
    | _ =>
      cases htarget
  have hsecond : ∀ v ∈ l₂, decodeCurrent v.back (requestIn s serial) = true := by
    generalize e.decode = found at h₂ hchanged
    cases h₂ with
    | skipped h =>
      simp
    | current htarget hsource hknown x t hd =>
      rw [decodeCurrent_congr hkept₁.assignment] at hd
      simpa using hd
    | changed htarget hsource hknown x t hd =>
      cases hchanged
  rintro (h | ⟨v, hv, h⟩)
  · simp [hfirst.1] at h
  · rcases List.mem_append.mp hv with hv | hv
    · simp [hfirst.2 v hv] at h
    · simp [hsecond v hv] at h

/-- Evidence about a request that is pending at the end, or whose target or source restarted, is
accepted. -/
theorem EvidenceFound.pending_accepted (howns : ownsDecode (requestIn s serial) = true)
    (h : (requestIn u serial).state = .kvPending ∨
      ChangedSeen decodeCurrent (requestIn s serial) s l ∨
      SourceChangedSeen (requestIn s serial) s l) :
    e.rejected (requestIn s serial) (requestIn u serial) = false := by
  by_contra hrej
  simp only [Evidence.rejected, Bool.not_eq_false, Bool.and_eq_true, Bool.not_eq_true'] at hrej
  obtain ⟨⟨⟨hprefill, hchanged⟩, hsource⟩, hvalid⟩ := hrej
  rcases h with hend | hseen | hseen
  · obtain ⟨l₁, l₂, u₁, rfl, h₁, hp, h₂⟩ := hfound.of_pending hstate
    have hkept₂ : Kept serial u₁ u :=
      Kept.of_leaves (h₂.leaves _ fun _ _ => rfl) fun v hv => hkept v (by simp [hv])
    have hpending := hkept₂.state.pending hend
    have hans := h₂.answered hsource hchanged (by simp [hpending, knownToDecode])
    have htransfer := h₁.of_pending hstate (h₂.target_unchanged hchanged) hsource
    have hnotp : ownsPrefill (requestIn s serial) = false := by simp [ownsPrefill, hstate]
    rw [CleanupProof.valid_kvPending hend, ← Bool.not_eq_true] at hvalid
    apply hvalid
    have hdecode : (e.proof (requestIn s serial) (requestIn u serial)).decodeEvidence = true := by
      simpa [CleanupProof.decodeEvidence, Evidence.proof, hnotp, howns, hp] using hans
    rw [hdecode]
    simpa [Evidence.proof, hend] using htransfer
  · exact hfound.unchanged_unseen hkept hstate howns hsource hchanged hseen
  · simp [(hfound.source_seen_iff hstate hchanged).mp hseen] at hsource

/-- Only such evidence is accepted. -/
theorem EvidenceFound.of_accepted
    (hrej : e.rejected (requestIn s serial) (requestIn u serial) = false) :
    (requestIn u serial).state = .kvPending ∨
      ChangedSeen decodeCurrent (requestIn s serial) s l ∨
      SourceChangedSeen (requestIn s serial) s l := by
  cases hchanged : e.decode.2 with
  | true =>
    exact Or.inr (Or.inl (hfound.changed_seen hkept hchanged))
  | false =>
    cases hsource : e.transfer.sourceChanged with
    | true =>
      exact Or.inr (Or.inr ((hfound.source_seen_iff hstate hchanged).mpr hsource))
    | false =>
      exact Or.inl (hfound.still_pending hkept hstate hsource hchanged hrej).1

end StillPending

/-- The decode side of accepted evidence, unless the source of the transfer has changed. -/
theorem EvidenceFound.decode_disposed (hsource : e.transfer.sourceChanged = false)
    (hrej : e.rejected (requestIn s serial) (requestIn u serial) = false) {w : PDScheduler}
    (hw : w.instanceEpochs = u.shared.scheduler.instanceEpochs) :
    ∃ d, DecodeDisposed (requestIn s serial) s l u d ∧
      e.afterDecode cfg (requestIn s serial) (requestIn u serial) u.shared.now w = d w ∧
      ((requestIn s serial).state = .kvPending →
        ¬ ChangedSeen decodeCurrent (requestIn s serial) s l →
        ¬ TransferStopped (requestIn s serial) s l u →
        Leaves World.governor s l u ∧ Recorded cfg (requestIn s serial) (d w)) := by
  have hkeptu := Kept.of_leaves hfound.leaves_request hkept
  have hleft (h : e.settlesDecode (requestIn s serial) = false) :
      e.afterDecode cfg (requestIn s serial) (requestIn u serial) u.shared.now w = id w := by
    simp [Evidence.afterDecode, h]
  cases hchanged : e.decode.2 with
  | true =>
    have hseen := hfound.changed_seen hkept hchanged
    exact ⟨id, .changed hseen, hleft (by simp [Evidence.settlesDecode, hchanged]),
      fun _ h _ => absurd hseen h⟩
  | false =>
    cases howns : ownsDecode (requestIn s serial) with
    | false =>
      refine ⟨id, .notOwned howns, hleft (by simp [Evidence.settlesDecode, howns]), ?_⟩
      intro hstate
      have hpending := hfound.still_pending hkept hstate hsource hchanged hrej
      simp [howns] at hpending
    | true =>
      have hsettles : e.settlesDecode (requestIn s serial) = true := by
        simp [Evidence.settlesDecode, hchanged, howns, hsource]
      rw [afterDecode_of_settles u.shared.now w hkeptu.assignment hsettles]
      cases hrel : (e.proof (requestIn s serial) (requestIn u serial)).dSlotReleasable with
      | false =>
        refine ⟨_, .quarantined (e.uncertain cfg (requestIn u serial) w), rfl, ?_⟩
        intro hstate hunseen hopen
        obtain ⟨huncertain, hgovernor⟩ :=
          hfound.transfer_uncertain hstate hsource hchanged hopen
        have hend := (hfound.still_pending hkept hstate hsource hchanged hrej).1
        have hcurrent := hfound.decode_current hkept hstate hsource hchanged hend
        rw [uncertain_of_current hkeptu.assignment huncertain
          (by rw [← hcurrent]; unfold decodeCurrent PDScheduler.epochMatches; rw [hw])]
        exact ⟨hgovernor, quarantineInstance_recorded cfg _ _ _⟩
      | true =>
        cases hcurrent : decodeCurrent u (requestIn s serial) with
        | false =>
          have hseen := ChangedSeen.of_end decodeCurrent_scheduler
            (hfound.leaves_scheduler hsource) hcurrent
          refine ⟨id, .changed hseen, ?_, fun _ h _ => absurd hseen h⟩
          refine decodeGivenBack_of_changed _ ?_
          rw [← hcurrent]
          unfold decodeCurrent PDScheduler.epochMatches
          rw [hw]
        | true =>
          have htransfer := hfound.released_after_transfer hkept hsource hchanged hrel
          refine ⟨decodeGivenBack (requestIn s serial),
            .givenBack hcurrent (hfound.released_after_abort hkept hrel) htransfer, rfl, ?_⟩
          exact fun hstate _ hopen => absurd (htransfer hstate) hopen

theorem EvidenceFound.disposed
    (hrej : e.rejected (requestIn s serial) (requestIn u serial) = false) :
    Disposed cfg (requestIn s serial) s l
      (u.update (e.settled cfg (requestIn s serial) (requestIn u serial))) := by
  cases hsource : e.transfer.sourceChanged with
  | true =>
    exact hfound.source_disposed hsource
  | false =>
    obtain ⟨d, hdisposed, hd, hrecorded⟩ := hfound.decode_disposed hkept hsource hrej
      (afterPrefill_instanceEpochs u.shared.now u.shared.scheduler)
    exact Disposed.intro (List.append_nil l).symm (hfound.leaves_scheduler hsource) hd
      (hfound.prefill_disposed hkept) hdisposed hrecorded

end Settling

/-! ## The whole cleanup disposes -/

section Disposing

variable {cfg : Settings} {serial : Nat} {s : Process} {R : Surroundings}
variable {req : RequestInfo}

/-- Giving the prefill load back, or not if its epoch has passed. -/
theorem prefillGivenBack_disposed (req : RequestInfo) (s : Process) :
    ∃ p, PrefillDisposed req s [] s p ∧
      prefillGivenBack req s.shared.scheduler = p s.shared.scheduler := by
  cases hcurrent : prefillCurrent s req with
  | true =>
    exact ⟨_, .givenBack hcurrent, rfl⟩
  | false =>
    exact ⟨id, .changed (Or.inl hcurrent), prefillGivenBack_of_changed req hcurrent⟩

/-- Giving back the decode slot of a request that was not sent to it. -/
theorem decodeGivenBack_disposed (hstate : req.state = .prefilling) {w : PDScheduler}
    (hw : w.instanceEpochs = s.shared.scheduler.instanceEpochs) :
    ∃ d, DecodeDisposed req s [] s d ∧ decodeGivenBack req w = d w := by
  cases hcurrent : decodeCurrent s req with
  | true =>
    exact ⟨_, .givenBack hcurrent (Or.inl hstate) (by simp [hstate]), rfl⟩
  | false =>
    refine ⟨id, .changed (Or.inl hcurrent), decodeGivenBack_of_changed req ?_⟩
    rw [← hcurrent]
    unfold decodeCurrent PDScheduler.epochMatches
    rw [hw]

theorem prefillGivenBack_instanceEpochs (req : RequestInfo) (w : PDScheduler) :
    (prefillGivenBack req w).instanceEpochs = w.instanceEpochs := by
  unfold prefillGivenBack PDScheduler.onPrefillDone
  split
  · rfl
  · split <;> rfl

theorem prefillUnknown_instanceEpochs (cfg : Settings) (req : RequestInfo) (now : Time)
    (w : PDScheduler) :
    (prefillUnknown cfg req now w).instanceEpochs = w.instanceEpochs := by
  unfold prefillUnknown PDScheduler.quarantineInstance
  split <;> rfl

theorem legacyRelease_disposes (hR : ∀ c s x t, R c s x t → Loyal serial c s x t) :
    Leads R (Loop.legacyRelease cfg serial) s fun l r t =>
      r = .ok () → Disposed cfg (requestIn s serial) s l t := by
  have hfit : Answering false R :=
    fun c s x t hx => (hR c s x t hx).1
  have hfence (hpublish : (requestIn s serial).state = .prefilling →
      (requestIn s serial).publishOutcome = .acked) :
      Leads R (Loop.legacyRelease cfg serial) s fun l r t =>
        r = .ok () → Disposed cfg (requestIn s serial) s l t := by
    rw [leads_legacyRelease_fence hpublish]
    refine (leads_fence cfg serial hfit).visits.mono fun l r t h hr => ?_
    obtain ⟨hends, hvisits⟩ := h
    subst hr
    obtain ⟨e, u, hfound, hrej, rfl⟩ := hends
    exact hfound.disposed (fun v hv => (hR _ _ _ _ (hvisits v hv)).2) hrej
  by_cases hstate : (requestIn s serial).state = .prefilling
  · have hpending : (requestIn s serial).state ≠ .kvPending := by simp [hstate]
    cases hpublish : (requestIn s serial).publishOutcome with
    | acked =>
      exact hfence fun _ => hpublish
    | notStarted =>
      rw [leads_legacyRelease_notStarted hstate hpublish]
      intro _
      obtain ⟨p, hp, hpeq⟩ := prefillGivenBack_disposed (requestIn s serial) s
      obtain ⟨d, hd, hdeq⟩ := decodeGivenBack_disposed (s := s) hstate
        (prefillGivenBack_instanceEpochs (requestIn s serial) s.shared.scheduler)
      refine Disposed.intro (List.nil_append _).symm rfl ?_ hp hd fun h => absurd h hpending
      change decodeGivenBack _ (prefillGivenBack _ _) = d (p _)
      rw [hdeq, hpeq]
    | unknown =>
      refine leads_legacyRelease_unknown hstate hpublish hfit ?_ ?_ ?_
      · intro v _ _ u h
        cases h
      · intro _ x t _
        have hp : PrefillDisposed (requestIn s serial) s [] s
          (prefillUnknown cfg (requestIn s serial) s.shared.now) := .quarantined _
        obtain ⟨d, hd, hdeq⟩ := decodeGivenBack_disposed (s := s) hstate
          (prefillUnknown_instanceEpochs cfg (requestIn s serial) s.shared.now
            s.shared.scheduler)
        exact Disposed.intro (List.nil_append _).symm rfl ⟨hdeq, rfl⟩ hp hd
          fun h => absurd h hpending
      · intro hchanged _
        obtain ⟨d, hd, hdeq⟩ := decodeGivenBack_disposed (s := s) hstate rfl
        refine Disposed.intro (List.nil_append _).symm rfl ?_ (.changed (Or.inl hchanged)) hd
          fun h => absurd h hpending
        exact hdeq
  · exact hfence fun h => absurd h hstate

/-! Steps that touch neither the scheduler nor the ledger, before and after. -/

section Around

variable {s' t t' u : Process} {l : List Trip}

theorem ChangedSeen.after {current : Process → RequestInfo → Bool}
    (h : ChangedSeen current req s' l) (hs : current s' req = current s req) :
    ChangedSeen current req s l := by
  rcases h with h | h
  · exact Or.inl (hs ▸ h)
  · exact Or.inr h

theorem TransferStopped.after (h : TransferStopped req s' l u)
    (hs : s'.shared.governor = s.shared.governor) : TransferStopped req s l u := by
  rcases h with ⟨htask, hleft⟩ | h
  · refine Or.inl ⟨?_, hleft.after ?_⟩
    · unfold transferStateIn at htask ⊢
      rw [← hs, htask]
    · simp [cancelIn, hs]
  · exact Or.inr h

theorem PrefillDisposed.after {p : PDScheduler → PDScheduler} (h : PrefillDisposed req s' l u p)
    (hs : s'.shared.scheduler = s.shared.scheduler) : PrefillDisposed req s l u p := by
  cases h with
  | notOwned h =>
    exact .notOwned h
  | givenBack hcurrent =>
    exact .givenBack hcurrent
  | quarantined dispatch =>
    exact .quarantined dispatch
  | changed h =>
    exact .changed (h.after (by unfold prefillCurrent; rw [hs]))

theorem DecodeDisposed.after {d : PDScheduler → PDScheduler} (h : DecodeDisposed req s' l u d)
    (hs : s'.shared.scheduler = s.shared.scheduler) (hg : s'.shared.governor = s.shared.governor) :
    DecodeDisposed req s l u d := by
  cases h with
  | notOwned h =>
    exact .notOwned h
  | givenBack hcurrent hfree htransfer =>
    exact .givenBack hcurrent hfree fun hstate => (htransfer hstate).after hg
  | quarantined transfer =>
    exact .quarantined transfer
  | changed h =>
    exact .changed (h.after (decodeCurrent_scheduler s s' hs))

theorem Disposed.around (h : Disposed cfg req s' l t)
    (hs : s'.shared.scheduler = s.shared.scheduler) (hg : s'.shared.governor = s.shared.governor)
    (ht : t'.shared.scheduler = t.shared.scheduler) : Disposed cfg req s l t' := by
  obtain ⟨hl, hbefore, hafter, hprefill, hdecode, hrecorded⟩ := h
  refine Disposed.intro hl (hbefore.after hs) (hafter.step ht) (hprefill.after hs)
    (hdecode.after hs hg) fun hstate hunseen hopen => ?_
  obtain ⟨hleft, hrec⟩ := hrecorded hstate
    (fun h => hunseen (h.after (decodeCurrent_scheduler s s' hs))) (fun h => hopen (h.after hg))
  exact ⟨hleft.after hg, hrec⟩

end Around

theorem retiredIn_scheduler (serial : Nat) (released : Bool) (w : World) :
    (retiredIn serial released w).scheduler = w.scheduler := by
  unfold retiredIn
  split
  · split <;> split <;> rfl
  · rfl

/-! ## A completion during the aborts -/

/--
While a request waits for its transfer to be aborted, the transfer may complete.
The cleanup returns exactly if the request is still pending when the evidence is
complete, or the decode instance or the source of the transfer has restarted;
and whenever it returns, the slot was disposed of once.
-/
theorem completion_race_settled (cfg : Settings) (serial : Nat) (s : Process)
    (hstate : (requestIn s serial).state = .kvPending)
    (hassigned : (requestIn s serial).decodeInstance ≠ "") :
    Leads (fun c s x t => Loyal serial c s x t ∧ x ≠ .raised .cancelled)
      (Loop.fenceAndAbortRequest cfg serial) s fun l r t =>
        (r = .ok () ↔ (requestIn t serial).state = .kvPending ∨
            ChangedSeen decodeCurrent (requestIn s serial) s l ∨
            SourceChangedSeen (requestIn s serial) s l) ∧
          (r = .ok () → Disposed cfg (requestIn s serial) s l t) := by
  have howns : ownsDecode (requestIn s serial) = true := by simp [ownsDecode, hstate, hassigned]
  refine (leads_fence cfg serial fun c s x t hx => hx.1.1).visits.mono fun l r t h => ?_
  obtain ⟨hends, hvisits⟩ := h
  have hkept : ∀ v ∈ l, Kept serial v.left v.back := fun v hv => (hvisits v hv).1.2
  cases r with
  | ok _ =>
    obtain ⟨e, u, hfound, hrej, rfl⟩ := hends
    exact ⟨iff_of_true rfl (hfound.of_accepted hkept hstate hrej),
      fun _ => hfound.disposed hkept hrej⟩
  | error x =>
    refine ⟨iff_of_false (by simp) fun hcond => ?_, fun h => by cases h⟩
    rcases hends with ⟨v, hv, -, hraised⟩ | ⟨e, hfound, hrej⟩
    · exact absurd hraised (hvisits v hv).2
    · rw [hfound.pending_accepted hkept hstate howns hcond] at hrej
      cases hrej

/-- A legacy request whose transfer is in flight. -/
def transferInFlight : Process :=
  (runFrom (smallSettings false false []) (smallWorld false) (decodeStarts ++
    [.launch .scrape, .task 1 .ok, .task 1 (.usages [("d0", 0, "f1")]), .main .ok])).sys

theorem completion_race_settled_in_flight :
    (requestIn transferInFlight 0).state = .kvPending ∧
      Leads (fun c s x t => Loyal 0 c s x t ∧ x ≠ .raised .cancelled)
        (Loop.fenceAndAbortRequest (smallSettings false false []) 0) transferInFlight fun l r t =>
          (r = .ok () ↔ (requestIn t 0).state = .kvPending ∨
              ChangedSeen decodeCurrent (requestIn transferInFlight 0) transferInFlight l ∨
              SourceChangedSeen (requestIn transferInFlight 0) transferInFlight l) ∧
            (r = .ok () → Disposed (smallSettings false false []) (requestIn transferInFlight 0)
              transferInFlight l t) :=
  ⟨by decide +kernel,
    completion_race_settled _ 0 transferInFlight (by decide +kernel) (by decide +kernel)⟩

/-- The completion of the transfer in flight, as the governor's callback runs it. -/
def transferCompletes (s : Process) : Process :=
  match s.shared.governor.inflightTasks.get? "r1" with
  | none => s
  | some task =>
    (((Loop.onComplete (smallSettings false false []) task).drive s []).map fun o => o.2.2).getD s

/--
The transfer completes while its abort is awaited: the request decodes, and the
proof with a fenced transfer is none of the admitted combinations.  The cleanup
raises, and the slot is neither released nor quarantined.
-/
theorem completion_during_abort_raises :
    (smallWorld false).Initial ∧
      (requestIn transferInFlight 0).state = .kvPending ∧
      ((Loop.fenceAndAbortRequest (smallSettings false false []) 0).drive transferInFlight
        [(.flag true, transferCompletes), (.flag true, id)]).map
        (fun o => (o.2.1, o.2.2.shared.stateOf 0, o.2.2.shared.scheduler.decodeSlots.get? "d0",
          o.2.2.shared.scheduler.quarantinedInstances.get? "d0",
          decodeCurrent o.2.2 (requestIn transferInFlight 0))) =
      some (.error (.value "invalid cleanup proof ownership combination"), .decoding,
        some ⟨1, 2⟩, none, true) :=
  ⟨smallWorld_initial false, by decide +kernel⟩

/-! ## Dispositions of a cleanup, and its uniqueness -/

/--
Whenever a legacy cleanup returns, the load and the slot of its request were
disposed of, each in one way and on the evidence that it needs; and at most one
cleanup task of a request has not ended.
-/
theorem legacy_cleanup_disposes :
    (∀ (cfg : Settings) (serial : Nat) (s : Process), cfg.network = false →
      s.shared.tracker.isCurrent serial = true →
      Leads (Loyal serial) (Loop.canonicalCleanup cfg serial) s fun l r t =>
        r = .ok () → Disposed cfg (requestIn s serial) s l t) ∧
    (∀ (steps : List CleanupTasks.Step) (reqId : String) (task other : Nat),
      (CleanupTasks.run steps).live.get? task = some reqId →
      (CleanupTasks.run steps).live.get? other = some reqId → task = other) := by
  refine ⟨fun cfg serial s hnet hcur => ?_, fun steps reqId task other h h' =>
    (CleanupTasks.run steps).live_unique h h'⟩
  rw [leads_canonicalCleanup_legacy hnet hcur]
  refine (legacyRelease_disposes fun c s x t hx => hx).mono fun l r t h => ?_
  cases r with
  | error e =>
    exact fun h => by cases h
  | ok _ =>
    intro _
    have hdisposed : Disposed cfg (requestIn s serial) (s.update (cleanupNoted serial)) l t := h rfl
    exact hdisposed.around rfl rfl (retiredIn_scheduler serial true t.shared)

theorem legacy_cleanup_disposes_in_flight :
    transferInFlight.shared.tracker.isCurrent 0 = true ∧
      Leads (Loyal 0) (Loop.canonicalCleanup (smallSettings false false []) 0) transferInFlight
        fun l r t => r = .ok () → Disposed (smallSettings false false [])
          (requestIn transferInFlight 0) transferInFlight l t :=
  ⟨by decide +kernel, legacy_cleanup_disposes.1 _ 0 transferInFlight rfl (by decide +kernel)⟩

end Disposing

end PrismServe
