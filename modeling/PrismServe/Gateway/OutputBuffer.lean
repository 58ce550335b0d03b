import PrismServe.Lib.Dict
import PrismServe.Runtime

/-!
# Gateway projection of cumulative output

One output state per request id.  Workers report the whole output so far, so an
update replaces the committed tokens by a longer list that extends them.  A
state that is terminal and owns no resources any more may be evicted, oldest
first, once too many of them are retained.

A reader waits on the state object that it found, also when the buffer has
evicted it meanwhile, so the objects live in a heap of their own.  No coroutine
awaits anything while it holds the condition of a state; every method is
therefore one uninterrupted step.
-/

namespace PrismServe

open Lib

structure OutputState where
  tokenIds : List Int := []
  terminal : Bool := false
  error : Option String := none
  deriving DecidableEq, Repr

/-- Python's `a or b` on optional texts: the empty text counts as absent. -/
def orText (a b : Option String) : Option String :=
  match a with
  | none => b
  | some text => if text = "" then b else some text

namespace OutputState

/-- What ends a wait at a cursor. -/
def ready (cursor : Nat) (s : OutputState) : Bool :=
  decide (cursor < s.tokenIds.length) || s.terminal || (orText s.error none).isSome

/-- The condition `terminal or error` of the consumers. -/
def closed (s : OutputState) : Bool := s.terminal || (orText s.error none).isSome

/-- Terminal or failed. -/
def ended (s : OutputState) : Bool := s.terminal || s.error.isSome

/-- Terminal without an error, as the consumers see it. -/
def clean (s : OutputState) : Bool := s.terminal && (orText s.error none).isNone

end OutputState

/--
The output states by request id and the ids eligible for eviction, oldest
first.  Both caps are positive, no two ids share a state object, and every
retained id has one.
-/
structure OutputBuffer where
  activeOperationCap : Nat
  terminalSnapshotCap : Nat
  objects : Nat → OutputState
  nextRef : Nat
  states : Dict String Nat
  resourceFree : List String
  active_pos : 0 < activeOperationCap
  snapshot_pos : 0 < terminalSnapshotCap
  ref_lt : ∀ reqId ref, states.get? reqId = some ref → ref < nextRef
  ref_inj : ∀ a b ref, states.get? a = some ref → states.get? b = some ref → a = b
  free_nodup : resourceFree.Nodup
  free_known : ∀ reqId ∈ resourceFree, states.get? reqId ≠ none

namespace OutputBuffer

def empty (activeOperationCap terminalSnapshotCap : Nat) (ha : 0 < activeOperationCap)
    (hs : 0 < terminalSnapshotCap) : OutputBuffer where
  activeOperationCap := activeOperationCap
  terminalSnapshotCap := terminalSnapshotCap
  objects _ := {}
  nextRef := 0
  states := Dict.empty
  resourceFree := []
  active_pos := ha
  snapshot_pos := hs
  ref_lt _ _ h := by cases h
  ref_inj _ _ _ h := by cases h
  free_nodup := List.nodup_nil
  free_known _ h := by cases h

/-- Output states counted against the active cap. -/
def active (b : OutputBuffer) : Int := (b.states.size : Int) - b.resourceFree.length

/-- The output state of a request id. -/
def stateOf (b : OutputBuffer) (reqId : String) : Option OutputState :=
  (b.states.get? reqId).map b.objects

/-- A new, empty state under an id. -/
def create (reqId : String) (b : OutputBuffer) : OutputBuffer :=
  { b with
    objects := Function.update b.objects b.nextRef {}
    nextRef := b.nextRef + 1
    states := b.states.set reqId b.nextRef
    ref_lt := by
      intro x ref h
      rw [Dict.get?_set] at h
      split at h
      · cases h
        exact Nat.lt_succ_self _
      · exact Nat.lt_succ_of_lt (b.ref_lt x ref h)
    ref_inj := by
      intro x y ref hx hy
      rw [Dict.get?_set] at hx hy
      split at hx <;> split at hy
      · simp_all
      · cases hx
        exact absurd (b.ref_lt y _ hy) (Nat.lt_irrefl _)
      · cases hy
        exact absurd (b.ref_lt x _ hx) (Nat.lt_irrefl _)
      · exact b.ref_inj x y ref hx hy
    free_known := by
      intro x hx
      rw [Dict.get?_set]
      split
      · simp
      · exact b.free_known x hx }

def ensure (reqId : String) (b : OutputBuffer) : Except Exc (Nat × OutputBuffer) :=
  match b.states.get? reqId with
  | some ref => .ok (ref, b)
  | none =>
    if (b.activeOperationCap : Int) ≤ b.active then .error .outputCapacity
    else .ok (b.nextRef, b.create reqId)

/-- Move an id to the end of the retained ones. -/
def retain (reqId : String) (b : OutputBuffer) (h : b.states.get? reqId ≠ none) :
    OutputBuffer :=
  { b with
    resourceFree := b.resourceFree.filter (fun x => x ≠ reqId) ++ [reqId]
    free_nodup := by
      refine List.nodup_append.mpr ⟨b.free_nodup.filter _, by simp, ?_⟩
      intro x hx y hy
      simp only [List.mem_filter, decide_eq_true_eq] at hx
      simp only [List.mem_singleton] at hy
      exact hy ▸ hx.2
    free_known := by
      intro x hx
      simp only [List.mem_append, List.mem_filter, List.mem_singleton] at hx
      rcases hx with hx | rfl
      · exact b.free_known x hx.1
      · exact h }

/-- Drop the oldest retained ids beyond the cap, with their states. -/
def evict (b : OutputBuffer) : OutputBuffer :=
  let surplus := b.resourceFree.length - b.terminalSnapshotCap
  { b with
    states := b.states.eraseAll (b.resourceFree.take surplus)
    resourceFree := b.resourceFree.drop surplus
    ref_lt := by
      intro x ref h
      rw [Dict.get?_eraseAll] at h
      split at h
      · cases h
      · exact b.ref_lt x ref h
    ref_inj := by
      intro x y ref hx hy
      rw [Dict.get?_eraseAll] at hx hy
      split at hx
      · cases hx
      · split at hy
        · cases hy
        · exact b.ref_inj x y ref hx hy
    free_nodup := b.free_nodup.sublist (List.drop_sublist _ _)
    free_known := by
      intro x hx
      have hn := b.free_nodup
      rw [← List.take_append_drop surplus b.resourceFree, List.nodup_append] at hn
      have hx' : x ∉ b.resourceFree.take surplus := fun h => hn.2.2 x h x hx rfl
      rw [Dict.get?_eraseAll, if_neg hx']
      exact b.free_known x (List.mem_of_mem_drop hx) }

def markResourceFree (reqId : String) (b : OutputBuffer) : Except Exc OutputBuffer :=
  match h : b.states.get? reqId with
  | none => .ok b
  | some ref =>
    if (b.objects ref).ended then .ok (b.retain reqId (by simp [h])).evict
    else .error (.value "active output state cannot be evicted")

/-- One cumulative update of a state. -/
def commitTo (tokenIds : List Int) (terminal : Bool) (error : Option String)
    (s : OutputState) : OutputState :=
  { tokenIds := tokenIds
    terminal := s.terminal || terminal
    error := orText error s.error }

/-- The checks of `apply_cumulative` on the state it found, and its update. -/
def applyTo (tokenIds : List Int) (outputSeqNo : Int) (terminal : Bool)
    (error : Option String) (s : OutputState) : Except Exc Bool × OutputState :=
  if outputSeqNo < s.tokenIds.length then (.ok false, s)
  else if tokenIds.take s.tokenIds.length ≠ s.tokenIds then
    (.error (.value "cumulative output changed committed prefix"), s)
  else
    (.ok (decide ((s.tokenIds.length : Int) < outputSeqNo) || decide (terminal ≠ s.terminal)),
      commitTo tokenIds terminal error s)

/-- Overwrite one state object. -/
def put (ref : Nat) (s : OutputState) (b : OutputBuffer) : OutputBuffer :=
  { b with objects := Function.update b.objects ref s }

def applyCumulative (reqId : String) (tokenIds : List Int) (outputSeqNo : Int)
    (terminal : Bool) (error : Option String) (stillCurrent : Bool) (b : OutputBuffer) :
    Except Exc Bool × OutputBuffer :=
  if stillCurrent = false then (.error (.value "output query request changed"), b)
  else
    match b.ensure reqId with
    | .error e => (.error e, b)
    | .ok (ref, b') =>
      if outputSeqNo ≠ tokenIds.length then
        (.error (.value "output_seq_no must equal cumulative token count"), b')
      else
        let r := applyTo tokenIds outputSeqNo terminal error (b'.objects ref)
        (r.1, b'.put ref r.2)

/-- Tokens, terminal flag and error of a request. -/
def snapshot (reqId : String) (b : OutputBuffer) : Except Exc (OutputState × OutputBuffer) :=
  match b.ensure reqId with
  | .error e => .error e
  | .ok (ref, b') => .ok (b'.objects ref, b')

/-- A state closed by the gateway; an earlier error stays. -/
def failTo (error : String) (s : OutputState) : OutputState :=
  { s with terminal := true, error := orText s.error (some error) }

def fail (reqId error : String) (b : OutputBuffer) : Except Exc OutputBuffer :=
  match b.ensure reqId with
  | .error e => .error e
  | .ok (ref, b') => .ok (b'.put ref (failTo error (b'.objects ref)))

/-! ## What each method does -/

section Specs

variable {b b' : OutputBuffer} {reqId x : String} {ref : Nat}

theorem ensure_ok (h : b.ensure reqId = .ok (ref, b')) :
    (b.states.get? reqId = some ref ∧ b' = b) ∨
      (b.states.get? reqId = none ∧ ref = b.nextRef ∧ b' = b.create reqId) := by
  unfold ensure at h
  split at h
  · rename_i hs
    cases h
    exact Or.inl ⟨hs, rfl⟩
  · rename_i hs
    split at h
    · cases h
    · cases h
      exact Or.inr ⟨hs, rfl, rfl⟩

theorem ensure_get? (h : b.ensure reqId = .ok (ref, b')) :
    b'.states.get? reqId = some ref := by
  rcases ensure_ok h with ⟨hs, rfl⟩ | ⟨-, rfl, rfl⟩
  · exact hs
  · exact Dict.get?_set_self _ _ _

theorem ensure_of_get? (h : b.states.get? reqId = some ref) :
    b.ensure reqId = .ok (ref, b) := by
  simp [ensure, h]

/-- The object that a lookup answers: the state of the id, or a new one. -/
theorem ensure_object (h : b.ensure reqId = .ok (ref, b')) :
    b'.objects ref = (b.stateOf reqId).getD {} := by
  rcases ensure_ok h with ⟨hs, rfl⟩ | ⟨hs, rfl, rfl⟩
  · simp [stateOf, hs]
  · simp [stateOf, hs, create]

theorem ensure_error {e : Exc} (h : b.ensure reqId = .error e) :
    e = .outputCapacity ∧ b.states.get? reqId = none ∧ (b.activeOperationCap : Int) ≤ b.active := by
  unfold ensure at h
  split at h
  · cases h
  rename_i hs
  split at h
  · rename_i hc
    cases h
    exact ⟨rfl, hs, hc⟩
  · cases h

theorem ensure_room (h : b.ensure reqId = .ok (ref, b')) (hs : b.states.get? reqId = none) :
    b.active < b.activeOperationCap := by
  unfold ensure at h
  split at h
  · simp_all
  · split at h
    · cases h
    · omega

theorem put_stateOf {o : OutputState} (h : b.states.get? reqId = some ref) :
    (b.put ref o).stateOf reqId = some o := by
  simp [stateOf, put, h]

/-- Eviction keeps the id that was retained last. -/
theorem evict_retain_get? (h : b.states.get? reqId ≠ none) :
    (b.retain reqId h).evict.states.get? reqId = b.states.get? reqId := by
  have hpos := b.snapshot_pos
  simp only [evict, Dict.get?_eraseAll, retain]
  rw [if_neg]
  intro hm
  rw [List.take_append_of_le_length (by simp; omega)] at hm
  simpa using List.mem_of_mem_take hm

theorem markResourceFree_ok (h : b.markResourceFree reqId = .ok b') :
    (b.states.get? reqId = none ∧ b' = b) ∨
      ∃ ref, ∃ hs : b.states.get? reqId = some ref, (b.objects ref).ended = true ∧
        b' = (b.retain reqId (by simp [hs])).evict := by
  unfold markResourceFree at h
  split at h
  · rename_i hs
    cases h
    exact Or.inl ⟨hs, rfl⟩
  · rename_i ref hs
    split at h
    · rename_i he
      cases h
      exact Or.inr ⟨ref, hs, he, rfl⟩
    · cases h

theorem markResourceFree_of_ended (h : b.states.get? reqId = some ref)
    (he : (b.objects ref).ended = true) :
    b.markResourceFree reqId = .ok (b.retain reqId (by simp [h])).evict := by
  unfold markResourceFree
  split
  · rename_i hs
    simp [hs] at h
  rename_i ref' hs
  rw [hs] at h
  cases h
  rw [if_pos he]

end Specs

end OutputBuffer

end PrismServe
