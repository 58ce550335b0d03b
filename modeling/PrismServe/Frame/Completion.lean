import PrismServe.Frame.Tracking
import PrismServe.Scheduler.MainLoop

/-!
# Completions of decodes

A `decode_done` message is handled in one step.  Its cumulative output is
committed when it extends what is committed already; when it does not, a request
without any output is closed with an error, and otherwise nothing happens to the
output.
-/

namespace PrismServe

open Lib Prog World

/-- The output state that a completion leaves. -/
def completionState (o : OutputState) (tokenIds : List Int) (outputSeqNo : Int) : OutputState :=
  if outputSeqNo = tokenIds.length ∧ o.tokenIds <+: tokenIds then
    OutputBuffer.commitTo tokenIds true none o
  else if o.tokenIds = [] then
    OutputBuffer.commitTo [] true (some "invalid decode_done cursor") o
  else o

namespace OutputBuffer

variable {b b' : OutputBuffer} {x : String} {ref : Nat}

theorem applyCumulative_of_ensure (tokenIds : List Int) (outputSeqNo : Int) (terminal : Bool)
    (error : Option String) (h : b.ensure x = .ok (ref, b'))
    (hl : outputSeqNo = tokenIds.length) :
    b.applyCumulative x tokenIds outputSeqNo terminal error true =
      ((applyTo tokenIds outputSeqNo terminal error (b'.objects ref)).1,
        b'.put ref (applyTo tokenIds outputSeqNo terminal error (b'.objects ref)).2) := by
  unfold applyCumulative
  rw [h]
  simp [hl]

/-- An update that is refused for its cursor only looks the state up. -/
theorem applyCumulative_bad_cursor (tokenIds : List Int) {outputSeqNo : Int} (terminal : Bool)
    (error : Option String) (h : b.ensure x = .ok (ref, b'))
    (hl : outputSeqNo ≠ tokenIds.length) :
    b.applyCumulative x tokenIds outputSeqNo terminal error true =
      (.error (.value "output_seq_no must equal cumulative token count"), b') := by
  unfold applyCumulative
  rw [h]
  simp [hl]

theorem put_self (b : OutputBuffer) (ref : Nat) : b.put ref (b.objects ref) = b := by
  unfold put
  rw [Function.update_eq_self]

end OutputBuffer

open OutputBuffer

/-- A cumulative update that is taken, skipped as stale, or refused for its tokens. -/
theorem applyTo_cases (tokenIds : List Int) (terminal : Bool) (error : Option String)
    (o : OutputState) :
    (o.tokenIds <+: tokenIds ∧ (applyTo tokenIds tokenIds.length terminal error o).1.toBool = true ∧
        (applyTo tokenIds tokenIds.length terminal error o).2 =
          commitTo tokenIds terminal error o) ∨
      (¬ o.tokenIds <+: tokenIds ∧
        ((applyTo tokenIds tokenIds.length terminal error o).1.toBool = true ∨
          (applyTo tokenIds tokenIds.length terminal error o).1 =
            .error (.value "cumulative output changed committed prefix")) ∧
        (applyTo tokenIds tokenIds.length terminal error o).2 = o) := by
  unfold applyTo
  by_cases hlt : (tokenIds.length : Int) < o.tokenIds.length
  · have hp : ¬ o.tokenIds <+: tokenIds := by
      intro hp
      have := hp.length_le
      omega
    rw [if_pos hlt]
    exact Or.inr ⟨hp, Or.inl rfl, rfl⟩
  · rw [if_neg hlt]
    by_cases ht : tokenIds.take o.tokenIds.length = o.tokenIds
    · rw [if_neg (not_not.mpr ht)]
      refine Or.inl ⟨?_, rfl, rfl⟩
      rw [← ht]
      exact List.take_prefix _ _
    · rw [if_pos ht]
      exact Or.inr ⟨fun hp => ht (List.prefix_iff_eq_take.mp hp).symm, Or.inr rfl, rfl⟩

/-- The fallback of a completion closes an output that has no tokens. -/
theorem fallback_spec {b : OutputBuffer} {x : String} {ref : Nat}
    (hs : b.states.get? x = some ref) :
    (b.applyCumulative x [] 0 true (some "invalid decode_done cursor") true).1.toBool = true ∧
      (b.applyCumulative x [] 0 true (some "invalid decode_done cursor") true).2.stateOf x =
        some (if (b.objects ref).tokenIds = [] then
            commitTo [] true (some "invalid decode_done cursor") (b.objects ref)
          else b.objects ref) := by
  rw [applyCumulative_of_ensure [] 0 true _ (ensure_of_get? hs) rfl, put_stateOf hs]
  by_cases ht : (b.objects ref).tokenIds = []
  · simp [applyTo, ht, Except.toBool]
  · have hpos : 0 < (b.objects ref).tokenIds.length := List.length_pos_iff.mpr ht
    simp [applyTo, ht, hpos, Except.toBool]

/--
The two updates of a completion: the first is committed or skipped, or it is refused
and the second decides, or there is no room for an output state at all.
-/
theorem completion_spec (b : OutputBuffer) (x : String) (tokenIds : List Int)
    (outputSeqNo : Int) :
    ((b.states.get? x = none → b.active < b.activeOperationCap) ∧
      (((b.applyCumulative x tokenIds outputSeqNo true none true).1.toBool = true ∧
        (b.applyCumulative x tokenIds outputSeqNo true none true).2.stateOf x =
          some (completionState ((b.stateOf x).getD {}) tokenIds outputSeqNo)) ∨
      ∃ message, (b.applyCumulative x tokenIds outputSeqNo true none true).1 =
          .error (.value message) ∧
        ((b.applyCumulative x tokenIds outputSeqNo true none true).2.applyCumulative x [] 0 true
          (some "invalid decode_done cursor") true).1.toBool = true ∧
        ((b.applyCumulative x tokenIds outputSeqNo true none true).2.applyCumulative x [] 0 true
          (some "invalid decode_done cursor") true).2.stateOf x =
          some (completionState ((b.stateOf x).getD {}) tokenIds outputSeqNo))) ∨
      ((b.applyCumulative x tokenIds outputSeqNo true none true).1 = .error .outputCapacity ∧
        b.states.get? x = none ∧ (b.activeOperationCap : Int) ≤ b.active) := by
  cases he : b.ensure x with
  | error e =>
    obtain ⟨rfl, hs, hc⟩ := ensure_error he
    refine Or.inr ⟨?_, hs, hc⟩
    simp [applyCumulative, he]
  | ok r =>
    obtain ⟨ref, b'⟩ := r
    have hs := ensure_get? he
    have ho := ensure_object he
    refine Or.inl ⟨ensure_room he, ?_⟩
    by_cases hl : outputSeqNo = tokenIds.length
    · subst hl
      rw [applyCumulative_of_ensure tokenIds _ true none he rfl]
      rcases applyTo_cases tokenIds true none (b'.objects ref) with ⟨hp, hok, hst⟩ | ⟨hp, hr, hst⟩
      · refine Or.inl ⟨hok, ?_⟩
        rw [put_stateOf hs, hst, ho, completionState, if_pos ⟨rfl, ho ▸ hp⟩]
      have hne : (b'.objects ref).tokenIds ≠ [] := fun h => hp (h ▸ List.nil_prefix)
      have hcs : completionState (b'.objects ref) tokenIds tokenIds.length = b'.objects ref := by
        rw [completionState, if_neg (fun h => hp h.2), if_neg hne]
      rw [hst, put_self, ← ho, hcs]
      rcases hr with hr | hr
      · exact Or.inl ⟨hr, by simp [OutputBuffer.stateOf, hs]⟩
      · refine Or.inr ⟨_, hr, (fallback_spec hs).1, ?_⟩
        rw [(fallback_spec hs).2, if_neg hne]
    · rw [applyCumulative_bad_cursor tokenIds true none he hl]
      refine Or.inr ⟨_, rfl, (fallback_spec hs).1, ?_⟩
      rw [(fallback_spec hs).2, ← ho]
      simp only [completionState, hl, false_and, if_false]

theorem commitTo_ended (tokenIds : List Int) (error : Option String) (o : OutputState) :
    (commitTo tokenIds true error o).ended = true := by
  simp [commitTo, OutputState.ended]

/-- A flag that a commit raises. -/
theorem completionState_flag (flag : OutputState → Bool) (o : OutputState)
    (hflag : ∀ tokenIds error, flag (commitTo tokenIds true error o) = true)
    (tokenIds : List Int) (outputSeqNo : Int) :
    flag (completionState o tokenIds outputSeqNo) =
      (flag o || (decide (o.tokenIds = []) ||
        decide (outputSeqNo = tokenIds.length) && decide (o.tokenIds <+: tokenIds))) := by
  unfold completionState
  by_cases hc : outputSeqNo = tokenIds.length ∧ o.tokenIds <+: tokenIds
  · simp [hc, hflag]
  rw [if_neg hc]
  by_cases ht : o.tokenIds = []
  · simp [ht, hflag]
  have hd : (decide (outputSeqNo = tokenIds.length) && decide (o.tokenIds <+: tokenIds)) =
      false := by
    simpa using hc
  simp [ht, hd]

/-- What a completion did to the output of a request. -/
structure Completed (b : OutputBuffer) (x : String) (msg : Message) (b' : OutputBuffer) :
    Prop where
  known : (b'.stateOf x).isSome = true
  ended : (b'.stateOf x).any OutputState.ended =
    ((b.stateOf x).any OutputState.ended || Loop.completionCommits b x msg)
  terminal : (b'.stateOf x).any OutputState.terminal =
    ((b.stateOf x).any OutputState.terminal || Loop.completionCommits b x msg)

theorem Completed.of_state {b b' : OutputBuffer} {x : String} {msg : Message}
    (hroom : b.stateOf x = none → b.active < b.activeOperationCap)
    (h : b'.stateOf x = some (completionState ((b.stateOf x).getD {}) (msg.tokenIds.getD [])
      (msg.outputSeqNo.getD (msg.tokenIds.getD []).length))) : Completed b x msg b' := by
  have hc : Loop.completionCommits b x msg =
      (decide (((b.stateOf x).getD {}).tokenIds = []) ||
        decide (msg.outputSeqNo.getD (msg.tokenIds.getD []).length =
            (msg.tokenIds.getD []).length) &&
          decide (((b.stateOf x).getD {}).tokenIds <+: msg.tokenIds.getD [])) := by
    unfold Loop.completionCommits
    cases hs : b.stateOf x with
    | none =>
      simp [hroom hs]
    | some o =>
      rfl
  have hany (p : OutputState → Bool) (hp : p {} = false) :
      p ((b.stateOf x).getD {}) = (b.stateOf x).any p := by
    cases b.stateOf x with
    | none =>
      simpa using hp
    | some o =>
      rfl
  have hflag (p : OutputState → Bool) (hp : p {} = false)
      (hcommit : ∀ o tokenIds error, p (commitTo tokenIds true error o) = true) :
      (b'.stateOf x).any p = ((b.stateOf x).any p || Loop.completionCommits b x msg) := by
    rw [h, hc, Option.any_some, completionState_flag p _ (hcommit _), hany p hp]
  exact ⟨by simp [h], hflag _ rfl fun _ _ _ => commitTo_ended _ _ _,
    hflag _ rfl fun _ _ _ => by simp [commitTo]⟩

/-! ## The steps of a completion -/

section Keeping

variable {C : Contract World Call Task} {x : String} {n : Nat}

/-- A report that is offered to a current request. -/
theorem wp_applyOutput {Q : Unit → Process → Process → Prop} {E : Exc → Process → Process → Prop}
    {s₀ s : Process} (origin : Nat) (tokenIds : List Int) (outputSeqNo : Int) (terminal : Bool)
    (error : Option String)
    (hok : (s.shared.output.applyCumulative x tokenIds outputSeqNo terminal error
        true).1.toBool = true →
      Q () s₀ (s.update fun w => (w.withOutput x (w.output.applyCumulative x tokenIds outputSeqNo
        terminal error true).2).contribute x n origin))
    (herr : ∀ e, (s.shared.output.applyCumulative x tokenIds outputSeqNo terminal error
        true).1 = .error e →
      E e s₀ (s.update fun w => (w.withOutput x (w.output.applyCumulative x tokenIds outputSeqNo
        terminal error true).2).contribute x n origin)) :
    WP C Q E (Loop.applyOutput x n origin tokenIds outputSeqNo terminal error true) s₀ s := by
  apply wp_attemptWith
  · intro a ha
    refine hok ?_
    cases hr : (s.shared.output.applyCumulative x tokenIds outputSeqNo terminal error true).1 with
    | error e =>
      simp [hr, Except.map] at ha
    | ok r =>
      rfl
  · intro e he
    refine herr e ?_
    cases hr : (s.shared.output.applyCumulative x tokenIds outputSeqNo terminal error true).1 with
    | error e' =>
      simpa [hr, Except.map] using he
    | ok r =>
      simp [hr, Except.map] at he

/-- The output of a completion is committed, skipped, or there is no room for it. -/
theorem wp_commitDecodeDone (msg : Message) {s₀ s : Process} :
    WP C
      (fun _ _ t => t.shared.tracker = s.shared.tracker ∧
        Completed s.shared.output x msg t.shared.output)
      (fun _ _ _ => s.shared.output.stateOf x = none ∧
        Loop.completionCommits s.shared.output x msg = false)
      (Loop.commitDecodeDone x n msg) s₀ s := by
  have hknown {b : OutputBuffer} : b.stateOf x = none ↔ b.states.get? x = none := by
    simp [OutputBuffer.stateOf]
  refine (wp_rescue _ _ _ _).mpr ?_
  rcases completion_spec s.shared.output x (msg.tokenIds.getD [])
    (msg.outputSeqNo.getD (msg.tokenIds.getD []).length) with
    ⟨hroom, ⟨hok, hst⟩ | ⟨message, herr, hok, hst⟩⟩ | ⟨hfull, hs, hc⟩
  · refine wp_applyOutput _ _ _ _ _ (fun _ => ?_) fun e he => ?_
    · exact ⟨by simp, Completed.of_state (fun hn => hroom (hknown.mp hn)) (by simpa using hst)⟩
    · rw [he] at hok
      cases hok
  · refine wp_applyOutput _ _ _ _ _ (fun hok' => ?_) fun e he => ?_
    · rw [herr] at hok'
      cases hok'
    · rw [herr] at he
      cases he
      -- the fallback runs on what the refused update has left
      refine wp_applyOutput _ _ _ _ _ (fun _ => ?_) fun e he => ?_
      · exact ⟨by simp, Completed.of_state (fun hn => hroom (hknown.mp hn)) (by simpa using hst)⟩
      · simp only [Sys.update_shared, contribute_output, withOutput_output] at he
        rw [he] at hok
        cases hok
  · refine wp_applyOutput _ _ _ _ _ (fun hok' => ?_) fun e he => ?_
    · rw [hfull] at hok'
      cases hok'
    · rw [hfull] at he
      cases he
      refine ⟨hknown.mpr hs, ?_⟩
      simp only [Loop.completionCommits, hknown.mpr hs, decide_eq_false_iff_not, not_lt]
      exact hc

end Keeping

end PrismServe
