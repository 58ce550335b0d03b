import PrismServe.Frame.Completion

/-!
# Completions

What becomes of a `decode_done` message that passes the fence of its request.

A message that the request expects ends the output of the request exactly when
the output has ended already or one of the two updates of the completion is
committed; otherwise a legacy request cannot be freed and the error leaves the
scheduling loop.
-/

namespace PrismServe

open Lib Prog World

/-! ## The effect of one completion -/

section Ending

variable {cfg : Settings} {C : Contract World Call Task}

/-- Freeing an output that has ended keeps its state, and fails for any other state. -/
theorem markResourceFree_spec {x : String} {s₀ s : Process} {p : Prop}
    (hk : (s.shared.output.stateOf x).isSome = true)
    (he : (s.shared.output.stateOf x).any OutputState.ended = true ↔ p) :
    WP C (fun _ _ t => (t.shared.output.stateOf x).any OutputState.ended = true ↔ p)
      (fun _ _ _ => ¬ p) (Loop.markResourceFree x) s₀ s := by
  obtain ⟨ref, href⟩ : ∃ ref, s.shared.output.states.get? x = some ref := by
    simpa [OutputBuffer.stateOf, Option.isSome_iff_exists] using hk
  have hended : (s.shared.output.objects ref).ended = true ↔ p := by
    simpa [OutputBuffer.stateOf, href] using he
  apply wp_attempt
  · intro a v hv
    split at hv
    · rename_i b hb
      cases hv
      rcases OutputBuffer.markResourceFree_ok hb with ⟨hn, -⟩ | ⟨ref', hs, he', rfl⟩
      · simp [href] at hn
      rw [href] at hs
      cases hs
      have hget := OutputBuffer.evict_retain_get? (Option.ne_none_iff_exists'.mpr ⟨ref, href⟩)
      simp only [OutputBuffer.stateOf, hget, href]
      exact hended
    · cases hv
  · intro e hv hp
    rw [OutputBuffer.markResourceFree_of_ended href (hended.mpr hp)] at hv
    cases hv

/-- The request's output has ended before a completion, or its output is committed. -/
def completionEnds (b : OutputBuffer) (x : String) (msg : Message) : Bool :=
  (b.stateOf x).any OutputState.ended || Loop.completionCommits b x msg

/-- An expected completion ends the output of its request, or it raises. -/
theorem takeDecodeDone_spec (msg : Message) {x : String} {n : Nat} {s₀ s : Process} {p : Prop}
    (hx : s.shared.tracker.get? x = some n)
    (he : completionEnds s.shared.output x msg = true ↔ p) :
    WP C (fun _ _ t => (t.shared.output.stateOf x).any OutputState.ended = true ↔ p)
      (fun _ _ _ => ¬ p) (Loop.takeDecodeDone cfg n msg) s₀ s := by
  have hid : (s.shared.tracker.info n).reqId = x := idOf_of_get? hx
  show WP C _ _ ((Loop.commitDecodeDone (s.shared.tracker.info n).reqId n msg).bind _) s₀ s
  rw [hid]
  refine (wp_bind _ _ _ _).mpr (WP.mono ?_ ?_ (wp_commitDecodeDone msg))
  · rintro - s₁ t ⟨htr, hdone⟩
    have hxt : t.shared.tracker.get? x = some n := by rw [htr]; exact hx
    have hidt : (t.shared.tracker.info n).reqId = x := idOf_of_get? hxt
    have hended : (t.shared.output.stateOf x).any OutputState.ended = true ↔ p := by
      rw [hdone.ended]
      exact he
    -- what is left frees the output, whether or not the request still has to finish
    have release (u : Process) (ho : u.shared.output = t.shared.output)
        (hi : (u.shared.tracker.info n).reqId = x) :
        WP C (fun _ _ t => (t.shared.output.stateOf x).any OutputState.ended = true ↔ p)
          (fun _ _ _ => ¬ p) (Loop.when (!cfg.network) (Loop.releaseFinished n)) s₁ u := by
      refine wp_when (fun _ => ?_) fun _ => by rw [ho]; exact hended
      show WP C _ _ (Loop.markResourceFree (u.shared.tracker.info n).reqId) s₁ _
      rw [hi]
      refine markResourceFree_spec ?_ ?_
      · show (u.shared.output.stateOf x).isSome = true
        rw [ho]
        exact hdone.known
      · show (u.shared.output.stateOf x).any OutputState.ended = true ↔ _
        rw [ho]
        exact hended
    show WP C _ _ ((Loop.when (decide ((t.shared.tracker.info n).state = .decoding)) _).bind _) s₁ t
    refine (wp_bind _ _ _ _).mpr (wp_when (fun hd => ?_) fun _ => release t rfl hidt)
    rw [decide_eq_true_eq] at hd
    rw [hidt]
    refine wp_transition hxt (by rw [World.stateOf, hd]; rfl) (release _ (by simp) ?_)
    simpa [shift_info_self] using hidt
  · rintro - s₁ t ⟨hnone, hno⟩ hp
    simpa [completionEnds, hnone, hno] using he.mpr hp

theorem decodeDone_spec (msg : Message) {n : Nat} {s₀ s : Process}
    (ha : Loop.addressee s.shared msg = some n)
    (hf : Loop.outputFence cfg s.shared (s.shared.tracker.info n) msg = true)
    (hp : s.shared.stateOf n = .kvPending ∨ s.shared.stateOf n = .decoding) :
    WP C
      (fun _ _ t => (t.shared.output.stateOf (s.shared.idOf n)).any OutputState.ended = true ↔
        completionEnds s.shared.output (s.shared.idOf n) msg = true)
      (fun _ _ _ => ¬ completionEnds s.shared.output (s.shared.idOf n) msg = true)
      (Loop.decodeDone cfg msg) s₀ s := by
  obtain ⟨x, -, hx⟩ := Option.bind_eq_some_iff.mp ha
  rw [idOf_of_get? hx]
  have hp' : (decide ((s.shared.tracker.info n).state = .kvPending) ||
      decide ((s.shared.tracker.info n).state = .decoding)) = true := by
    simpa [World.stateOf] using hp
  refine (wp_bind _ _ _ _).mpr ((wp_read _ _).mpr ?_)
  rw [ha]
  refine wp_when (fun _ => ?_) fun hno => ?_
  · show WP C _ _ (Loop.finallyDo (Loop.when _ _) (Loop.noteCompletion n)) s₀ _
    rw [hp']
    refine (wp_bind _ _ _ _).mpr ((wp_rescue _ _ _ _).mpr ?_)
    exact WP.mono (fun _ _ _ h => h) (fun _ _ _ h => h) (takeDecodeDone_spec msg hx Iff.rfl)
  · rw [hf] at hno
    cases hno

theorem decodeDone_atomic (cfg : Settings) (msg : Message) :
    (Loop.decodeDone cfg msg).Atomic := by
  have apply_atomic (x : String) (n origin : Nat) (tokenIds : List Int) (outputSeqNo : Int)
      (error : Option String) :
      (Loop.applyOutput x n origin tokenIds outputSeqNo true error true).Atomic :=
    Atomic.attemptWith _
  have commit (x : String) (n : Nat) : (Loop.commitDecodeDone x n msg).Atomic := by
    refine Atomic.rescue (apply_atomic _ _ _ _ _ _) fun e q hq => ?_
    split at hq
    · cases hq
      exact apply_atomic _ _ _ _ _ _
    · cases hq
  have take (n : Nat) : (Loop.takeDecodeDone cfg n msg).Atomic := by
    refine Atomic.bind (fun _ => trivial) fun req => Atomic.bind (commit _ _) fun _ =>
      Atomic.bind (fun _ => trivial) fun req =>
        Atomic.bind (Loop.when_atomic (Atomic.attempt _)) fun _ => Loop.when_atomic ?_
    exact Atomic.bind (fun _ => trivial) fun req => Atomic.bind (fun _ => trivial) fun _ =>
      Atomic.bind (fun _ => trivial) fun _ => Atomic.bind (fun _ => trivial) fun _ =>
        Atomic.attempt _
  have note (n : Nat) : (Loop.noteCompletion n).Atomic :=
    Atomic.bind (fun _ => trivial) fun _ => fun _ => trivial
  refine Atomic.bind (fun _ => trivial) fun w => ?_
  split
  · trivial
  refine Loop.when_atomic (Atomic.bind (fun _ => trivial) fun _ => ?_)
  refine Atomic.bind (Atomic.rescue (Loop.when_atomic (take _)) fun e q hq => ?_) fun _ =>
    Atomic.bind (note _) fun _ => trivial
  cases hq
  exact Atomic.bind (note _) fun _ => trivial

/--
An expected completion is handled without an exception and ends the output of its
request exactly when the output has ended already or one of the two updates of the
completion is committed.
-/
theorem decode_done_ends_output (cfg : Settings) (s : Process) (msg : Message) (n : Nat)
    (ha : Loop.addressee s.shared msg = some n)
    (hf : Loop.outputFence cfg s.shared (s.shared.tracker.info n) msg = true)
    (hp : s.shared.stateOf n = .kvPending ∨ s.shared.stateOf n = .decoding) :
    ((exec (Loop.decodeDone cfg msg) s []).stop = .returned () ∧
        ((exec (Loop.decodeDone cfg msg) s []).sys.shared.output.stateOf
          (s.shared.idOf n)).any OutputState.ended = true) ↔
      completionEnds s.shared.output (s.shared.idOf n) msg = true := by
  have hwp : WP (Contract.carrying (fun _ : Unit => fun _ => True) (fun _ : Unit => fun _ => True)
      fun _ => none) _ _ (Loop.decodeDone cfg msg) s s := decodeDone_spec msg ha hf hp
  have hmeets := exec_meets [] hwp
  rcases (decodeDone_atomic cfg msg).exec_ends s [] with ⟨⟨⟩, hr⟩ | ⟨e, hr⟩
  · rw [hr] at hmeets
    exact ⟨fun h => hmeets.mp h.2, fun h => ⟨hr, hmeets.mpr h⟩⟩
  rw [hr] at hmeets
  refine ⟨fun h => ?_, fun h => absurd h hmeets⟩
  rw [hr] at h
  cases h.1

end Ending

/-- The decode worker of `r1` ends, with the output that it reports. -/
def decodeEnds (tokenIds : Option (List Int)) : Message :=
  { origin := 0, reqId := some "r1", instanceEpoch := some "f1", tokenIds := tokenIds }

theorem decode_done_with_output_ends_it :
    let s := (runFrom (smallSettings false false []) (smallWorld false) decodeStarts).sys
    let g := exec (Loop.decodeDone (smallSettings false false []) (decodeEnds (some [7, 8]))) s []
    g.stop = .returned () ∧
      (g.sys.shared.output.stateOf (s.shared.idOf 0)).any OutputState.ended = true :=
  (decode_done_ends_output _ _ _ 0 (by decide +kernel) (by decide +kernel)
    (Or.inl (by decide +kernel))).mpr (by decide +kernel)

/--
One token of a legacy request is committed, then its `decode_done` arrives without
output.  Both updates are skipped as stale, the output is not ended, and freeing it
raises out of the loop.
-/
theorem decode_done_without_output_raises :
    let run (rest : List Decision) := runFrom (smallSettings false false []) (smallWorld false)
      (decodeStarts ++ [.event (.deliver .decodeProgress
        { origin := 0, reqId := some "r1", instanceEpoch := some "f1",
          tokenIds := some [7], outputSeqNo := some 1 }), .main .ok] ++ rest)
    (smallWorld false).Initial ∧
      Loop.addressee (run []).sys.shared (decodeEnds none) = some 0 ∧
      Loop.outputFence (smallSettings false false []) (run []).sys.shared
        ((run []).sys.shared.tracker.info 0) (decodeEnds none) = true ∧
      (run []).sys.shared.stateOf 0 = .kvPending ∧
      (run [.event (.deliver .decodeDone (decodeEnds none)), .main .ok]).crash =
        some (.value "active output state cannot be evicted") ∧
      (run [.event (.deliver .decodeDone (decodeEnds none)), .main .ok]).sys.shared.output.stateOf
        "r1" = some { tokenIds := [7] } :=
  ⟨smallWorld_initial false, by decide +kernel⟩

end PrismServe
