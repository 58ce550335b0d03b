import PrismServe.Machine

/-!
# Steps of tracked requests

A transition of a tracked request overwrites its object and nothing else, and an
update of the output leaves the requests alone.
-/

namespace PrismServe

open Lib Prog

namespace World

/-- The world after a transition of the request object `n`. -/
def shift (n : Nat) (new : SeqState) (kwargs : RequestInfo → RequestInfo) (w : World) : World :=
  { w with tracker := w.tracker.assign n fun r => { kwargs (r.stamp w.now new) with state := new } }

/-- The state of a request object. -/
def stateOf (w : World) (n : Nat) : SeqState := (w.tracker.info n).state

def idOf (w : World) (n : Nat) : String := (w.tracker.info n).reqId

/-- The request object is the one that is tracked under its id. -/
def Tracks (w : World) (n : Nat) : Prop := w.tracker.get? (w.idOf n) = some n

end World

open World

section Tracking

variable {w v : World} {n m : Nat} {x : String}

theorem World.Tracks.isCurrent : w.tracker.isCurrent n = true ↔ w.Tracks n := by
  simp [RequestTracker.isCurrent, World.Tracks, RequestTracker.get?, World.idOf]

theorem idOf_of_get? (h : w.tracker.get? x = some n) : w.idOf n = x :=
  w.tracker.reqId_eq x n h

variable (new : SeqState) (kw : RequestInfo → RequestInfo)

@[simp] theorem shift_requests : (w.shift n new kw).tracker.requests = w.tracker.requests := rfl

@[simp] theorem shift_output : (w.shift n new kw).output = w.output := rfl

theorem shift_info_self :
    (w.shift n new kw).tracker.info n =
      { kw ((w.tracker.info n).stamp w.now new) with
        state := new
        reqId := (w.tracker.info n).reqId } := by
  simp [World.shift, RequestTracker.info, RequestTracker.assign]

theorem shift_info_of_ne (h : m ≠ n) :
    (w.shift n new kw).tracker.info m = w.tracker.info m := by
  simp [World.shift, RequestTracker.info, RequestTracker.assign, Function.update_of_ne h]

@[simp] theorem shift_idOf : (w.shift n new kw).idOf m = w.idOf m := by
  by_cases h : m = n
  · subst h
    simp [World.idOf, shift_info_self]
  · simp [World.idOf, shift_info_of_ne new kw h]

@[simp] theorem shift_stateOf_self : (w.shift n new kw).stateOf n = new := by
  simp [World.stateOf, shift_info_self]

variable {new : SeqState} {kw : RequestInfo → RequestInfo}

theorem transition_ok {t t' : RequestTracker} {now : Time}
    (h : t.transition now x new kw = .ok t') :
    ∃ n, t.get? x = some n ∧ (t.info n).state.allows new = true ∧
      t' = t.assign n fun r => { kw (r.stamp now new) with state := new } := by
  unfold RequestTracker.transition at h
  split at h
  · cases h
  rename_i n hn
  dsimp only at h
  split at h
  · rename_i ha
    cases h
    exact ⟨n, hn, ha, rfl⟩
  · cases h

/-- A legal transition of a tracked request does not raise. -/
theorem transition_eq_shift (hx : w.tracker.get? x = some n)
    (ha : (w.stateOf n).allows new = true) :
    w.tracker.transition w.now x new kw = .ok (w.shift n new kw).tracker := by
  have hx' : w.tracker.requests.get? x = some n := hx
  have ha' : (w.tracker.info n).state.allows new = true := ha
  simp [RequestTracker.transition, hx', ha', World.shift]

variable {C : Contract World Call Task} {Q : Unit → Process → Process → Prop}
variable {E : Exc → Process → Process → Prop} {s₀ s : Process}

/-- A conditional statement, by cases. -/
theorem wp_when {b : Bool} {p : Loop Unit} (ht : b = true → WP C Q E p s₀ s)
    (hf : b = false → Q () s₀ s) :
    WP C Q E (Loop.when b p) s₀ s := by
  cases b with
  | true =>
    exact ht rfl
  | false =>
    exact hf rfl

theorem wp_transition (hx : s.shared.tracker.get? x = some n)
    (ha : (s.shared.stateOf n).allows new = true) (h : Q () s₀ (s.update (World.shift n new kw))) :
    WP C Q E (Loop.transition x new kw) s₀ s := by
  have hok : s.shared.tracker.transition s.shared.now x new kw = _ :=
    transition_eq_shift hx ha
  apply wp_attempt
  · intro a v hv
    dsimp only at hv
    rw [hok] at hv
    cases hv
    exact h
  · intro e he
    dsimp only at he
    rw [hok] at he
    cases he

end Tracking

@[simp] theorem withOutput_tracker (w : World) (x : String) (b : OutputBuffer) :
    (w.withOutput x b).tracker = w.tracker := by
  unfold World.withOutput
  split <;> rfl

@[simp] theorem withOutput_output (w : World) (x : String) (b : OutputBuffer) :
    (w.withOutput x b).output = b := by
  unfold World.withOutput
  split <;> rfl

@[simp] theorem contribute_output (w : World) (x : String) (n origin : Nat) :
    (w.contribute x n origin).output = w.output := by
  unfold World.contribute
  split <;> rfl

@[simp] theorem contribute_tracker (w : World) (x : String) (n origin : Nat) :
    (w.contribute x n origin).tracker = w.tracker := by
  unfold World.contribute
  split <;> rfl

end PrismServe
