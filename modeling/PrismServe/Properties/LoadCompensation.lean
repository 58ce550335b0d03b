import PrismServe.Properties.CompensationEvidence
import PrismServe.Machine

/-!
# Histories of compensations

The supervisor attempts the compensation of a load until it returns, and later
again while its outcome is not proved.  Over all attempts the slot is released
once at most, and only on the evidence of the attempt that releases it.

An attempt that finds the target committed makes the reserved lease active.  An
earlier attempt that raised has quarantined it, though, and a quarantined lease
is not made active: the slot is then not given back when the request ends.
-/

namespace PrismServe

open Lib Lib.Prog

/-! ## Attempts -/

/-- One attempt of the supervisor. -/
abbrev Attempt := Run World Call Reply Exc Task (Option CleanupAction)

/-- Attempts one after the other, while the other tasks spare the operation. -/
abbrev Attempts (cfg : Settings) (operationId : String) :
    Process → List Attempt → Process → Prop :=
  Series (Spared operationId) (SparesLoad operationId) (Loop.cleanupAttempt cfg operationId)

/-- The slot of the operation is released in the attempt. -/
def releases (operationId : String) (a : Attempt) : Bool :=
  decide (stateIn a.before operationId ≠ some .released) &&
    decide (stateIn a.after operationId = some .released)

section Histories

variable {operationId : String} {lease : DecodeSlotLease} {s t u : Process}
variable {Proves : List Trip → Prop} {l : List Trip} {context : PrefixLoadContext}
variable {cfg : Settings} {a : Attempt} {attempts : List Attempt}

theorem attempted_of_run (h : a.Of (SparesLoad context.operationId)
      (Loop.cleanupAttempt cfg context.operationId)) (hcfg : cfg.network = false)
    (hcontext : contextIn a.before context.operationId = some context)
    (hlease : leaseIn a.before context.operationId = some lease) :
    Attempted context.operationId lease (ReleaseProof context) a.before a.visits a.result
      a.after :=
  h.leads (leads_cleanupAttempt hcfg hcontext hlease)

theorem stateIn_of_spared (h : Spared operationId s t) :
    stateIn t operationId = stateIn s operationId := by
  unfold stateIn
  rw [h.lease]

/-- What an attempt does, by its effect on the lease. -/
inductive Disposal (operationId : String) (lease : DecodeSlotLease) (Proves : List Trip → Prop)
    (a : Attempt) : Prop
  | released (u : Process) (hleft : Leaves slotsIn a.before a.visits u)
      (hback : GivenBack operationId lease u a.after) (hproof : Proves a.visits)
      (hresult : a.result = .ok (some .aborted)) (hknown : ¬ UnknownReported a.visits)
  | kept (lease' : DecodeSlotLease) (hleft : Leaves slotsIn a.before a.visits a.after)
      (hlease : leaseIn a.after operationId = some lease')
      (hstate : lease'.state = .released ↔ lease.state = .released)
      (hunknown : UnknownReported a.visits → lease.state ≠ .released →
        lease'.state = .quarantined)

theorem Attempted.disposal
    (h : Attempted operationId lease Proves a.before a.visits a.result a.after) :
    Disposal operationId lease Proves a := by
  obtain ⟨before, l, r, after⟩ := a
  cases h with
  | returned h =>
    cases h with
    | released hleft hback hproof hknown =>
      exact .released _ hleft hback hproof rfl hknown
    | again hleft hlease hstate hknown =>
      exact .kept _ hleft hlease Iff.rfl fun h => absurd h hknown
    | committed hleft hlease hknown =>
      exact .kept _ hleft hlease lease.committed_state fun h => absurd h hknown
    | quarantined hleft hlease hstate =>
      exact .kept _ hleft hlease (by simpa using hstate) fun _ _ => rfl
  | failed hleft hlease hstate hunknown =>
    refine .kept _ hleft hlease ?_ fun h hlive => absurd (hunknown h) hlive
    rcases hstate with ⟨rfl, hlive⟩ | ⟨rfl, -⟩
    · simp [hlive]
    · rfl
  | cancelled hleft hlease hstate hunknown =>
    refine .kept _ hleft hlease ?_ fun h hlive => absurd (hunknown h) hlive
    rcases hstate with ⟨rfl, hlive⟩ | rfl | rfl
    · simp [hlive]
    · rfl
    · exact lease.committed_state

/-- An operation with a lease and a context that follows its decision. -/
structure Tracked (decision : CachedPrefixDecision) (operationId : String) (s : Process) :
    Prop where
  lease : ∃ lease, leaseIn s operationId = some lease
  context : ∃ context, contextIn s operationId = some context ∧
    Follows decision operationId false context

variable {decision : CachedPrefixDecision}

theorem Tracked.spared (h : Tracked decision operationId s) (hspared : Spared operationId s t) :
    Tracked decision operationId t := by
  obtain ⟨⟨lease, hlease⟩, context, hcontext, hfollows⟩ := h
  exact ⟨⟨lease, hspared.lease.trans hlease⟩, context, hspared.context.trans hcontext, hfollows⟩

/-- What an attempt on a tracked operation does. -/
theorem disposal_of_run (h : a.Of (SparesLoad operationId) (Loop.cleanupAttempt cfg operationId))
    (hcfg : cfg.network = false)
    (hbefore : Tracked decision operationId a.before) :
    Tracked decision operationId a.after ∧
      ∃ context lease, contextIn a.before operationId = some context ∧
        Follows decision operationId false context ∧
        leaseIn a.before operationId = some lease ∧
        Disposal operationId lease (ReleaseProof context) a := by
  obtain ⟨⟨lease, hlease⟩, context, hcontext, hfollows⟩ := hbefore
  have hop := hfollows.operationId
  subst hop
  have hdisposal := (attempted_of_run h hcfg hcontext hlease).disposal
  refine ⟨⟨?_, ?_⟩, context, lease, hcontext, hfollows, hlease, hdisposal⟩
  · cases hdisposal with
    | released u _ hback =>
      obtain ⟨lease', hlease', -⟩ := hback.released
      exact ⟨lease', hlease'⟩
    | kept lease' _ hlease' =>
      exact ⟨lease', hlease'⟩
  · obtain ⟨-, pinned, hplanned⟩ :=
      h.leads (planned_cleanupAttempt hcfg a.before ⟨context.sourcePinned, hcontext⟩)
    exact ⟨_, hplanned, hfollows.operationId, hfollows.source, hfollows.target, hfollows.mode⟩

theorem Disposal.of_releases (h : Disposal operationId lease Proves a)
    (hlease : leaseIn a.before operationId = some lease)
    (hreleases : releases operationId a = true) :
    Proves a.visits ∧ ∃ u, Leaves slotsIn a.before a.visits u ∧
      GivenBack operationId lease u a.after := by
  cases h with
  | released u hleft hback hproof =>
    exact ⟨hproof, u, hleft, hback⟩
  | kept lease' hleft hlease' hstate =>
    simp [releases, stateIn, hlease, hlease', hstate] at hreleases

theorem Disposal.of_not_releases (h : Disposal operationId lease Proves a)
    (hlease : leaseIn a.before operationId = some lease)
    (hreleases : releases operationId a = false) :
    Leaves slotsIn a.before a.visits a.after := by
  cases h with
  | kept _ hleft =>
    exact hleft
  | released u hleft hback =>
    obtain ⟨lease', hlease', hstate'⟩ := hback.released
    rcases hback.live with hlive | hlive
    · simp [releases, stateIn, hlease, hlease', hstate', hlive] at hreleases
    · simp [releases, stateIn, hlease, hlease', hstate', hlive] at hreleases

/-- The lease is released after an attempt only if it was before, or the attempt has reported so. -/
theorem Disposal.released_after (h : Disposal operationId lease Proves a)
    (hlease : leaseIn a.before operationId = some lease)
    (hafter : stateIn a.after operationId = some .released) :
    stateIn a.before operationId = some .released ∨ a.result = .ok (some .aborted) := by
  cases h with
  | released _ _ _ _ hresult =>
    exact .inr hresult
  | kept lease' _ hlease' hstate =>
    left
    simp only [stateIn, hlease', Option.map_some, Option.some.injEq] at hafter
    simp [stateIn, hlease, hstate.mp hafter]

/-- A released lease stays released. -/
theorem Disposal.stays_released (h : Disposal operationId lease Proves a)
    (hlease : leaseIn a.before operationId = some lease)
    (hbefore : stateIn a.before operationId = some .released) :
    stateIn a.after operationId = some .released := by
  have hstate : lease.state = .released := by
    simpa [stateIn, hlease] using hbefore
  cases h with
  | released _ _ hback =>
    rcases hback.live with hlive | hlive
    · simp [hlive] at hstate
    · simp [hlive] at hstate
  | kept lease' _ hlease' hiff =>
    simp [stateIn, hlease', hiff.mpr hstate]

/-- Unless an attempt has reported it, the lease is not released. -/
theorem not_released_after (h : Attempts cfg operationId s attempts t)
    (hcfg : cfg.network = false) (hs : Tracked decision operationId s)
    (hstate : stateIn s operationId ≠ some .released)
    (hresults : ∀ a ∈ attempts, a.result ≠ .ok (some .aborted)) :
    stateIn t operationId ≠ some .released := by
  induction h with
  | nil hspared =>
    rwa [stateIn_of_spared hspared]
  | cons hspared hrun hrest ih =>
    rw [List.forall_mem_cons] at hresults
    obtain ⟨hafter, context, lease, -, -, hlease, hdisposal⟩ :=
      disposal_of_run hrun hcfg (hs.spared hspared)
    refine ih hafter (fun hreleased => ?_) hresults.2
    rcases hdisposal.released_after hlease hreleased with hbefore | hresult
    · rw [stateIn_of_spared hspared] at hbefore
      exact hstate hbefore
    · exact hresults.1 hresult

/-- At most one attempt releases the slot, and none once it is released. -/
theorem releases_once (h : Attempts cfg operationId s attempts t)
    (hcfg : cfg.network = false) (hs : Tracked decision operationId s) :
    (attempts.filter (releases operationId)).length ≤
      if stateIn s operationId = some .released then 0 else 1 := by
  induction h with
  | nil =>
    simp
  | @cons s t a rest hspared hrun hrest ih =>
    obtain ⟨hafter, context, lease, -, -, hlease, hdisposal⟩ :=
      disposal_of_run hrun hcfg (hs.spared hspared)
    have hrest := ih hafter
    rw [← stateIn_of_spared hspared, List.filter_cons]
    have hreleases : releases operationId a =
        (decide (stateIn a.before operationId ≠ some .released) &&
          decide (stateIn a.after operationId = some .released)) := rfl
    by_cases hbefore : stateIn a.before operationId = some .released
    · have hstays := hdisposal.stays_released hlease hbefore
      simpa [hreleases, hbefore, hstays] using hrest
    · by_cases hreleased : stateIn a.after operationId = some .released
      · simpa [hreleases, hbefore, hreleased] using hrest
      · simpa [hreleases, hbefore, hreleased] using hrest

/-- What the release of the slot in an attempt rests on, by the stage at which the load stopped. -/
structure Justified (decision : CachedPrefixDecision) (operationId : String)
    (context : PrefixLoadContext) (l : List Trip) : Prop where
  follows : Follows decision operationId false context
  unpinned : Unpinned context l
  gone : context.stage.prepares = true → TargetAborted context l ∨ TargetUndone context l
  stopped : context.stage.copies = true → decision.sourceInstance ≠ decision.decodeInstance →
    ∃ status, TransferReported context status l ∧ status ≠ .unknown ∧
      (status = .fenced ∨ status = .completed ∨ TargetAborted context l)

theorem LoadStage.prepares_of_copies {stage : LoadStage} (h : stage.copies = true) :
    stage.prepares = true := by
  cases stage <;> simp_all [copies, prepares]

theorem ReleaseProof.justified (h : ReleaseProof context l)
    (hfollows : Follows decision operationId false context) :
    Justified decision operationId context l := by
  refine ⟨hfollows, h.unpinned, h.gone, fun hcopies hremote => h.stopped hcopies ?_⟩
  rw [hfollows.mode (.inr (LoadStage.prepares_of_copies hcopies)), decide_eq_false hremote]

end Histories

/-- A prefix of one block, cached at `p0`, for the decode instance `d0`. -/
def remotePrefix : CachedPrefixDecision :=
  { sourceInstance := "p0", sourceEpoch := "e1", decodeInstance := "d0", cachedPrefixBlocks := 1 }

/-- A slot of `d0` is reserved for the load of a prefix, which has not begun. -/
def reservedLoad : Process :=
  ⟨{ smallWorld false with
      scheduler := { (smallWorld false).scheduler with
        decodeSlots := Dict.empty.set "d0" ⟨1, 2⟩
        slotLeases := Dict.empty.set "op"
          { leaseId := 0, operationId := "op", reqId := "r", instanceId := "d0"
            state := .reserved, reservedAt := 0 } }
      coordinator := Loop.openContext "r" "op" remotePrefix (smallWorld false).coordinator }, []⟩

/-- The load stops while it prepares its target. -/
def preparingLoad : Process :=
  (((Loop.waitFor (Loop.loadCachedPrefix false "op" "f1" remotePrefix)).drive reservedLoad
    [(.resolved (some 1), id), (.raised .deadline, id)]).map (·.2.2)).getD reservedLoad

/-- The target of that load has nothing prepared, and its source is unpinned. -/
def abortingAttempt : Attempt where
  before := preparingLoad
  visits := (((Loop.cleanupAttempt (smallSettings false true []) "op").drive preparingLoad
    [(.prefixed .aborted, id), (.ok, id)]).map (·.1)).getD []
  result := .ok (some .aborted)
  after := (((Loop.cleanupAttempt (smallSettings false true []) "op").drive preparingLoad
    [(.prefixed .aborted, id), (.ok, id)]).map (·.2.2)).getD preparingLoad

/-- A load stops somewhere, and its compensation is attempted again and again.  The slot is
released at most once, in an attempt that proves it; an attempt that is told an unknown status
leaves the lease quarantined; and an attempt that does not release leaves the slots alone. -/
theorem legacy_load_compensation {cfg : Settings} (hcfg : cfg.network = false)
    {decision : CachedPrefixDecision} {reqId operationId epoch : String} {s u t : Process}
    {lease : DecodeSlotLease} {answers : List (Reply × (Process → Process))} {l : List Trip}
    {r : Except Exc Unit} {attempts : List Attempt}
    (hlease : leaseIn s operationId = some lease) (hreserved : lease.state = .reserved)
    (hcontext : contextIn s operationId = some
      { operationId := operationId, reqId := reqId, sourceInstance := decision.sourceInstance,
        targetInstance := decision.decodeInstance })
    (hload : (Loop.waitFor (Loop.loadCachedPrefix false operationId epoch decision)).drive s
      answers = some (l, r, u))
    (hspares : ∀ v ∈ l, SparesLoad operationId v.call v.left v.reply v.back)
    (hattempts : Attempts cfg operationId u attempts t) :
    (∀ a ∈ attempts, releases operationId a = true →
      (∃ context, contextIn a.before operationId = some context ∧
        Justified decision operationId context a.visits) ∧
      ∃ lease u, Leaves slotsIn a.before a.visits u ∧ GivenBack operationId lease u a.after) ∧
    (∀ before a after, attempts = before ++ a :: after →
      (∀ b ∈ before, b.result ≠ .ok (some .aborted)) → UnknownReported a.visits →
        stateIn a.after operationId = some .quarantined) ∧
    (attempts.filter (releases operationId)).length ≤ 1 ∧
    ∀ a ∈ attempts, releases operationId a = false →
      Leaves slotsIn a.before a.visits a.after := by
  have hstart : Loading decision operationId (some lease) false s :=
    ⟨hlease, _, hcontext, rfl, rfl, rfl, by simp [LoadStage.prepares]⟩
  have hstopped : Loading decision operationId (some lease) false u :=
    (leads_timedLoad hstart).drive hload hspares
  have htracked : Tracked decision operationId u := ⟨⟨lease, hstopped.lease⟩, hstopped.context⟩
  have hlive : stateIn u operationId ≠ some .released := by
    simp [stateIn, hstopped.lease, hreserved]
  have hall := hattempts.all (fun _ _ h hspared => h.spared hspared)
    (fun a hrun hbefore => (disposal_of_run hrun hcfg hbefore).1) htracked
  refine ⟨?_, ?_, ?_, ?_⟩
  · intro a ha hreleases
    obtain ⟨hrun, hbefore⟩ := hall a ha
    obtain ⟨-, context, lease', hcontext', hfollows, hlease', hdisposal⟩ :=
      disposal_of_run hrun hcfg hbefore
    obtain ⟨hproof, hback⟩ := hdisposal.of_releases hlease' hreleases
    exact ⟨⟨context, hcontext', hproof.justified hfollows⟩, lease', hback⟩
  · intro before a after hsplit hresults hunknown
    subst hsplit
    obtain ⟨hrun, hbefore⟩ := hall a (by simp)
    have hstate := not_released_after hattempts.until_run hcfg htracked hlive hresults
    obtain ⟨-, context, lease', -, -, hlease', hdisposal⟩ := disposal_of_run hrun hcfg hbefore
    cases hdisposal with
    | released _ _ _ _ _ hknown =>
      exact absurd hunknown hknown
    | kept lease'' _ hlease'' _ hquarantined =>
      have hlive' : lease'.state ≠ .released := by
        simpa [stateIn, hlease'] using hstate
      simp [stateIn, hlease'', hquarantined hunknown hlive']
  · simpa [hlive] using releases_once hattempts hcfg htracked
  · intro a ha hreleases
    obtain ⟨hrun, hbefore⟩ := hall a ha
    obtain ⟨-, context, lease', -, -, hlease', hdisposal⟩ := disposal_of_run hrun hcfg hbefore
    exact hdisposal.of_not_releases hlease' hreleases

theorem legacy_load_compensation_preparing :
    abortingAttempt.Of (SparesLoad "op") (Loop.cleanupAttempt (smallSettings false true []) "op") ∧
      releases "op" abortingAttempt = true ∧
      ∃ context, contextIn preparingLoad "op" = some context ∧
        Justified remotePrefix "op" context abortingAttempt.visits := by
  have hruns : abortingAttempt.Of (SparesLoad "op")
      (Loop.cleanupAttempt (smallSettings false true []) "op") := by
    refine ⟨⟨[(.prefixed .aborted, id), (.ok, id)], rfl⟩, ?_⟩
    change ∀ v ∈ [_, _], _
    rw [List.forall_mem_cons, List.forall_mem_cons]
    exact ⟨⟨rfl, rfl, rfl⟩, ⟨rfl, rfl, rfl⟩, by simp⟩
  have hreleases : releases "op" abortingAttempt = true := by decide +kernel
  refine ⟨hruns, hreleases, ?_⟩
  have h := @legacy_load_compensation (smallSettings false true []) rfl remotePrefix "r" "op" "f1"
    reservedLoad preparingLoad abortingAttempt.after _
    [(.resolved (some 1), id), (.raised .deadline, id)] _ _ [abortingAttempt] rfl rfl rfl rfl ?_
    (.cons ⟨rfl, rfl⟩ hruns (.nil ⟨rfl, rfl⟩))
  · exact (h.1 abortingAttempt (by simp) hreleases).1
  · rw [List.forall_mem_cons, List.forall_mem_cons]
    exact ⟨⟨rfl, rfl, rfl⟩, ⟨rfl, rfl, rfl⟩, by simp⟩

/-! ## Supervised compensations -/

section Supervision

variable {lease : DecodeSlotLease} {s t u : Process} {l : List Trip}
variable {context : PrefixLoadContext} {cfg : Settings} {action : CleanupAction}
variable {answers : List (Reply × (Process → Process))}

/-- A supervised compensation that returns: its first attempt does, or one of the later ones. -/
theorem cleanupUntil_returns {operationId : String} {deadline : Time} {rounds : Nat}
    (h : (Loop.cleanupUntil cfg operationId deadline (rounds + 1)).drive s answers =
      some (l, .ok (some action), t)) :
    (∃ answers', (Loop.cleanupAttempt cfg operationId).drive s answers' =
      some (l, .ok (some action), t)) ∨
    ∃ l₁ u l₂ answers₁ answers₂, l = l₁ ++ l₂ ∧
      (Loop.cleanupAttempt cfg operationId).drive s answers₁ = some (l₁, .ok none, u) ∧
      (Loop.cleanupUntil cfg operationId deadline rounds).drive u answers₂ =
        some (l₂, .ok (some action), t) := by
  change Prog.drive (if s.shared.now < deadline then _ else _) (s.update id) answers = _ at h
  split at h
  · rcases drive_bind h with ⟨e, he, -⟩ | ⟨l₁, outcome, u, answers', o, hfirst, hrest, ho⟩
    · cases he
    cases outcome with
    | some action' =>
      cases hrest
      simp only [List.append_nil, Prod.mk.injEq, Except.ok.injEq, Option.some.injEq] at ho
      obtain ⟨rfl, rfl, rfl⟩ := ho
      exact .inl ⟨answers, hfirst⟩
    | none =>
      obtain ⟨l₂, r, t'⟩ := o
      simp only [Prod.mk.injEq] at ho
      obtain ⟨rfl, rfl, rfl⟩ := ho
      exact .inr ⟨l₁, u, l₂, answers, answers', rfl, hfirst, hrest⟩
  · cases h

/-- The slot of the lease is given back by the end of its request. -/
def DecodeSlotLease.Live (lease : DecodeSlotLease) : Prop :=
  lease.state = .reserved ∨ lease.state = .active

theorem DecodeSlotLease.active_iff_live (lease : DecodeSlotLease) :
    lease.committed.state = .active ↔ lease.Live := by
  unfold committed Live
  split <;> simp_all

theorem DecodeSlotLease.committed_live (lease : DecodeSlotLease) :
    lease.committed.Live ↔ lease.Live := by
  unfold committed Live
  split <;> simp_all

theorem DecodeSlotLease.committed_instanceId (lease : DecodeSlotLease) :
    lease.committed.instanceId = lease.instanceId := by
  unfold committed
  split <;> rfl

/-- What one attempt does to a lease, unless it releases it. -/
theorem attempt_ends {r : Except Exc (Option CleanupAction)} (hcfg : cfg.network = false)
    (hplanned : Planned context s) (hlease : leaseIn s context.operationId = some lease)
    (hrun : (Loop.cleanupAttempt cfg context.operationId).drive s answers = some (l, r, t))
    (hspares : ∀ v ∈ l, SparesLoad context.operationId v.call v.left v.reply v.back) :
    Planned context t ∧ (∃ Proves, Attempted context.operationId lease Proves s l r t) := by
  obtain ⟨pinned, hcontext⟩ := hplanned
  let context' : PrefixLoadContext := { context with sourcePinned := pinned }
  have hcontext' : contextIn s context'.operationId = some context' := hcontext
  refine ⟨((planned_cleanupAttempt hcfg s ⟨pinned, hcontext⟩).drive hrun hspares).2, ?_⟩
  exact ⟨_, (leads_cleanupAttempt hcfg hcontext' hlease).drive hrun hspares⟩

/-- An attempt that reports a commit. -/
theorem attempt_committed (hcfg : cfg.network = false) (hplanned : Planned context s)
    (hlease : leaseIn s context.operationId = some lease)
    (hrun : (Loop.cleanupAttempt cfg context.operationId).drive s answers =
      some (l, .ok (some .committed), t))
    (hspares : ∀ v ∈ l, SparesLoad context.operationId v.call v.left v.reply v.back) :
    leaseIn t context.operationId = some lease.committed := by
  obtain ⟨-, Proves, h⟩ := attempt_ends hcfg hplanned hlease hrun hspares
  cases h with
  | returned h =>
    cases h with
    | committed _ hlease' =>
      exact hlease'

/-- An attempt that raises leaves a lease behind that is not live. -/
theorem attempt_failed (hcfg : cfg.network = false) (hplanned : Planned context s)
    (hlease : leaseIn s context.operationId = some lease)
    (hrun : (Loop.cleanupAttempt cfg context.operationId).drive s answers =
      some (l, .ok none, t))
    (hspares : ∀ v ∈ l, SparesLoad context.operationId v.call v.left v.reply v.back) :
    Planned context t ∧ ∃ lease', leaseIn t context.operationId = some lease' ∧ ¬ lease'.Live ∧
      lease'.instanceId = lease.instanceId := by
  obtain ⟨hplanned', Proves, h⟩ := attempt_ends hcfg hplanned hlease hrun hspares
  refine ⟨hplanned', ?_⟩
  cases h with
  | failed _ hlease' hstate =>
    refine ⟨_, hlease', ?_⟩
    rcases hstate with ⟨rfl, -⟩ | ⟨rfl, hreleased⟩
    · exact ⟨by simp [DecodeSlotLease.Live], rfl⟩
    · exact ⟨by simp [DecodeSlotLease.Live, hreleased], rfl⟩

/-- A commit that is reported for a lease that is not live leaves it so. -/
theorem cleanupUntil_committed_dead {deadline : Time} (hcfg : cfg.network = false) :
    ∀ {rounds : Nat} {s : Process} {lease : DecodeSlotLease} {l : List Trip}
      {answers : List (Reply × (Process → Process))},
      Planned context s → leaseIn s context.operationId = some lease → ¬ lease.Live →
      (Loop.cleanupUntil cfg context.operationId deadline rounds).drive s answers =
        some (l, .ok (some .committed), t) →
      (∀ v ∈ l, SparesLoad context.operationId v.call v.left v.reply v.back) →
      ∃ lease', leaseIn t context.operationId = some lease' ∧ ¬ lease'.Live ∧
        lease'.instanceId = lease.instanceId
  | 0, _, _, _, _, _, _, _, hrun, _ => by cases hrun
  | rounds + 1, s, lease, l, answers, hplanned, hlease, hdead, hrun, hspares => by
      rcases cleanupUntil_returns hrun with ⟨answers', hfirst⟩ |
        ⟨l₁, u, l₂, answers₁, answers₂, rfl, hfirst, hrest⟩
      · refine ⟨_, attempt_committed hcfg hplanned hlease hfirst hspares, ?_,
          lease.committed_instanceId⟩
        rwa [lease.committed_live]
      · rw [List.forall_mem_append] at hspares
        obtain ⟨hplanned', lease', hlease', hdead', hinstance⟩ :=
          attempt_failed hcfg hplanned hlease hfirst hspares.1
        obtain ⟨lease'', hlease'', hdead'', hinstance'⟩ :=
          cleanupUntil_committed_dead hcfg hplanned' hlease' hdead' hrest hspares.2
        exact ⟨lease'', hlease'', hdead'', hinstance'.trans hinstance⟩

/-- The end of the request gives the slot back, and a second report of it does nothing. -/
structure GivesBackOnce (w : PDScheduler) (instanceId epoch operationId : String) : Prop where
  first : (w.onDecodeFinished instanceId (some epoch) (some operationId)).1 = true
  credited : (w.onDecodeFinished instanceId (some epoch) (some operationId)).2.decodeSlots =
    (w.creditSlot instanceId).decodeSlots
  second : (w.onDecodeFinished instanceId (some epoch) (some operationId)).2.onDecodeFinished
      instanceId (some epoch) (some operationId) =
    (false, (w.onDecodeFinished instanceId (some epoch) (some operationId)).2)

theorem givesBackOnce_iff {w : PDScheduler} {epoch operationId : String} {slots : SlotCount}
    (hget : w.slotLeases.get? operationId = some lease) (hname : operationId ≠ "")
    (hepoch : w.epochMatches lease.instanceId epoch = true)
    (hslots : w.decodeSlots.get? lease.instanceId = some slots) (hroom : slots.free < slots.max) :
    GivesBackOnce w lease.instanceId epoch operationId ↔ lease.Live := by
  constructor
  · intro h
    by_contra hdead
    have hstate : lease.state = .released ∨ lease.state = .quarantined := by
      cases hs : lease.state <;> simp_all [DecodeSlotLease.Live]
    have hfirst := h.first
    simp [PDScheduler.onDecodeFinished, PDScheduler.epochAdmits, hepoch,
      PDScheduler.namedOperation, hname, hget, hstate] at hfirst
  · intro hlive
    have hstate : ¬ (lease.instanceId ≠ lease.instanceId ∨ lease.state = .released ∨
        lease.state = .quarantined) := by
      rcases hlive with h | h <;> simp [h]
    have hfull : ¬ slots.max ≤ slots.free := by omega
    have heq : w.onDecodeFinished lease.instanceId (some epoch) (some operationId) =
        (true, { w with
          slotLeases := w.slotLeases.set operationId { lease with state := .released }
          decodeSlots := w.decodeSlots.set lease.instanceId
            { slots with free := slots.free + 1 } }) := by
      simp only [PDScheduler.onDecodeFinished, PDScheduler.epochAdmits, hepoch, Bool.true_eq_false,
        if_false, PDScheduler.namedOperation, hname, hget, hstate, PDScheduler.creditFinished,
        PDScheduler.markLease, hslots, hfull]
    refine ⟨by rw [heq], ?_, ?_⟩
    · rw [heq]
      have hmin : min slots.max (slots.free + 1) = slots.free + 1 := by omega
      simp [PDScheduler.creditSlot, hslots, hmin]
    · rw [heq]
      simp [PDScheduler.onDecodeFinished, PDScheduler.namedOperation, hname]

end Supervision

/-- A supervised compensation reports a commit.  The lease is active then exactly when it was
reserved or active at the start and the first attempt has returned; and exactly then does the end
of the request give the slot back, once. -/
theorem committed_lease_active_iff {cfg : Settings} (hcfg : cfg.network = false)
    {context : PrefixLoadContext} {lease : DecodeSlotLease} {s t : Process} {l : List Trip}
    {answers : List (Reply × (Process → Process))}
    (hcontext : contextIn s context.operationId = some context)
    (hlease : leaseIn s context.operationId = some lease)
    (hrun : (Loop.cleanup cfg context.operationId).drive s answers =
      some (l, .ok (some .committed), t))
    (hspares : ∀ v ∈ l, SparesLoad context.operationId v.call v.left v.reply v.back) :
    (stateIn t context.operationId = some .active ↔ lease.Live ∧
      ∃ answers', (Loop.cleanupAttempt cfg context.operationId).drive s answers' =
        some (l, .ok (some .committed), t)) ∧
    ∀ epoch slots, context.operationId ≠ "" →
      t.shared.scheduler.epochMatches lease.instanceId epoch = true →
      t.shared.scheduler.decodeSlots.get? lease.instanceId = some slots →
      slots.free < slots.max →
      (GivesBackOnce t.shared.scheduler lease.instanceId epoch context.operationId ↔
        lease.Live ∧ ∃ answers', (Loop.cleanupAttempt cfg context.operationId).drive s answers' =
          some (l, .ok (some .committed), t)) := by
  have hplanned : Planned context s := ⟨context.sourcePinned, hcontext⟩
  -- the lease in the end, by whether the first attempt has returned
  have hcases : ∃ lease', leaseIn t context.operationId = some lease' ∧
      lease'.instanceId = lease.instanceId ∧ (lease'.state = .active ↔ lease'.Live) ∧
      (lease'.Live ↔ lease.Live ∧
        ∃ answers', (Loop.cleanupAttempt cfg context.operationId).drive s answers' =
          some (l, .ok (some .committed), t)) := by
    by_cases hfirst : ∃ answers', (Loop.cleanupAttempt cfg context.operationId).drive s answers' =
        some (l, .ok (some .committed), t)
    · obtain ⟨answers', hdrive⟩ := hfirst
      refine ⟨_, attempt_committed hcfg hplanned hlease hdrive hspares,
        lease.committed_instanceId, ?_, ?_⟩
      · rw [lease.active_iff_live, lease.committed_live]
      · rw [lease.committed_live]
        exact ⟨fun h => ⟨h, answers', hdrive⟩, And.left⟩
    · have hdead : ∃ lease', leaseIn t context.operationId = some lease' ∧ ¬ lease'.Live ∧
          lease'.instanceId = lease.instanceId := by
        have hloop : (Loop.cleanupUntil cfg context.operationId
            (s.shared.now + cfg.prefixOperationWatchdog) cfg.rounds).drive s answers =
            some (l, .ok (some .committed), t) := hrun
        generalize cfg.rounds = rounds at hloop
        cases rounds with
        | zero =>
          cases hloop
        | succ rounds =>
          rcases cleanupUntil_returns hloop with hreturned |
            ⟨l₁, u, l₂, answers₁, answers₂, rfl, hfailed, hrest⟩
          · exact absurd hreturned hfirst
          rw [List.forall_mem_append] at hspares
          obtain ⟨hplanned', lease', hlease', hdead', hinstance⟩ :=
            attempt_failed hcfg hplanned hlease hfailed hspares.1
          obtain ⟨lease'', hlease'', hdead'', hinstance'⟩ :=
            cleanupUntil_committed_dead hcfg hplanned' hlease' hdead' hrest hspares.2
          exact ⟨lease'', hlease'', hdead'', hinstance'.trans hinstance⟩
      obtain ⟨lease', hlease', hdead, hinstance⟩ := hdead
      refine ⟨lease', hlease', hinstance, ?_, ?_⟩
      · simp only [hdead, iff_false]
        exact fun h => hdead (.inr h)
      · simp [hdead, hfirst]
  obtain ⟨lease', hlease', hinstance, hactive, hlive⟩ := hcases
  refine ⟨?_, ?_⟩
  · rw [← hlive, ← hactive]
    simp [stateIn, hlease']
  · intro epoch slots hname hepoch hslots hroom
    rw [← hlive, ← hinstance]
    rw [← hinstance] at hepoch hslots
    exact givesBackOnce_iff hlease' hname hepoch hslots hroom

theorem committed_lease_active_preparing :
    ∃ l t, (Loop.cleanup (smallSettings false true []) "op").drive preparingLoad
      [(.prefixed .committed, id), (.ok, id)] = some (l, .ok (some .committed), t) ∧
      stateIn t "op" = some .active := by
  let context : PrefixLoadContext :=
    { operationId := "op", reqId := "r", sourceInstance := "p0", targetInstance := "d0"
      stage := .preparing, localReuse := some false, sourcePinned := true }
  have hcontext : contextIn preparingLoad "op" = some context := by decide +kernel
  have hlease : leaseIn preparingLoad "op" = some
      { leaseId := 0, operationId := "op", reqId := "r", instanceId := "d0"
        state := .reserved, reservedAt := 0 } := by decide +kernel
  refine ⟨_, _, rfl, ?_⟩
  have h := @committed_lease_active_iff (smallSettings false true []) rfl context _
    preparingLoad _ _
    [(.prefixed .committed, id), (.ok, id)] hcontext hlease rfl ?_
  · exact h.1.mpr ⟨.inl rfl, [(.prefixed .committed, id), (.ok, id)], rfl⟩
  · rw [List.forall_mem_cons, List.forall_mem_cons]
    exact ⟨⟨rfl, rfl, rfl⟩, ⟨rfl, rfl, rfl⟩, by simp⟩

/-- One failed query before the target is found committed: the commit is reported, the lease is
quarantined, and the end of the request gives nothing back. -/
theorem committed_lease_stays_quarantined :
    (smallWorld false).Initial ∧
      stateIn preparingLoad "op" = some .reserved ∧
      ((Loop.cleanup (smallSettings false true []) "op").drive preparingLoad
        [(.raised .connection, id), (.ok, id), (.prefixed .committed, id), (.ok, id)]).map
        (fun o => (o.2.1, stateIn o.2.2 "op",
          (o.2.2.shared.scheduler.onDecodeFinished "d0" (some "f1") (some "op")).1)) =
      some (.ok (some .committed), some .quarantined, false) :=
  ⟨smallWorld_initial false, by decide +kernel⟩

end PrismServe
