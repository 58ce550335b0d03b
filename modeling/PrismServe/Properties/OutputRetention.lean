import PrismServe.Lib.Lists
import PrismServe.Properties.OutputHistory

/-!
# Which output states are retained

A call either leaves the ids of the buffer alone, gives a state to a new id while
there is room for it, or retains an id whose output has ended and drops the ids
beyond the cap.  Along a sequence of calls the retained ids are therefore those
freed last, each counted at the last time it was freed, and a state that is not
retained stays.
-/

namespace PrismServe

open Lib

/-- The id that a call frees: its output has ended. -/
def OutputCall.freed (b : OutputBuffer) : OutputCall → List String
  | .markResourceFree reqId => if (b.stateOf reqId).any OutputState.ended then [reqId] else []
  | _ => []

/-- The ids that a sequence of calls frees, in order. -/
def OutputBuffer.freedIn : OutputBuffer → List OutputCall → List String
  | _, [] => []
  | b, c :: rest => c.freed b ++ (b.after c).freedIn rest

namespace OutputBuffer

/-- The ids and the caps are the same. -/
structure SameIds (b b' : OutputBuffer) : Prop where
  states : b'.states = b.states
  resourceFree : b'.resourceFree = b.resourceFree
  active : b'.activeOperationCap = b.activeOperationCap
  snapshots : b'.terminalSnapshotCap = b.terminalSnapshotCap

theorem SameIds.refl (b : OutputBuffer) : SameIds b b := ⟨rfl, rfl, rfl, rfl⟩

/-- What a call does to the ids. -/
inductive Rearranged (b : OutputBuffer) : List String → OutputBuffer → Prop
  | same {b' : OutputBuffer} (h : SameIds b b') : Rearranged b [] b'
  | created {b' : OutputBuffer} {reqId : String} (hnew : b.states.get? reqId = none)
      (hroom : b.active < b.activeOperationCap) (h : SameIds (b.create reqId) b') :
      Rearranged b [] b'
  | freed {reqId : String} (hknown : b.states.get? reqId ≠ none) :
      Rearranged b [reqId] (b.retain reqId hknown).evict

variable {b b₁ b' : OutputBuffer} {reqId x : String} {ref : Nat}

/-- A lookup, and whatever is done to the state that it finds. -/
theorem Rearranged.of_ensure (h : b.ensure reqId = .ok (ref, b₁)) (hsame : SameIds b₁ b') :
    Rearranged b [] b' := by
  rcases ensure_ok h with ⟨_, rfl⟩ | ⟨hnew, _, rfl⟩
  · exact .same hsame
  · exact .created hnew (ensure_room h hnew) hsame

theorem rearranged_after (c : OutputCall) : Rearranged b (c.freed b) (b.after c) := by
  cases c with
  | applyCumulative reqId tokenIds outputSeqNo terminal error stillCurrent =>
    simp only [OutputCall.freed, after, applyCumulative]
    split
    · exact .same (.refl b)
    cases hensure : b.ensure reqId with
    | error e =>
      exact .same (.refl b)
    | ok found =>
      dsimp only
      split
      · exact .of_ensure hensure (.refl _)
      · exact .of_ensure hensure ⟨rfl, rfl, rfl, rfl⟩
  | fail reqId error =>
    simp only [OutputCall.freed, after, fail]
    cases hensure : b.ensure reqId with
    | error e =>
      exact .same (.refl b)
    | ok found =>
      exact .of_ensure hensure ⟨rfl, rfl, rfl, rfl⟩
  | snapshot reqId =>
    simp only [OutputCall.freed, after, snapshot]
    cases hensure : b.ensure reqId with
    | error e =>
      exact .same (.refl b)
    | ok found =>
      exact .of_ensure hensure (.refl _)
  | waitNext reqId =>
    simp only [OutputCall.freed, after]
    cases hensure : b.ensure reqId with
    | error e =>
      exact .same (.refl b)
    | ok found =>
      exact .of_ensure hensure (.refl _)
  | markResourceFree reqId =>
    cases hget : b.states.get? reqId with
    | none =>
      have hmark : b.after (.markResourceFree reqId) = b := by
        simp only [after, markResourceFree]
        split
        · rfl
        · simp_all
      simpa [OutputCall.freed, stateOf, hget, hmark] using .same (.refl b)
    | some ref =>
      by_cases hended : (b.objects ref).ended = true
      · have hknown : b.states.get? reqId ≠ none := by simp [hget]
        have hmark := markResourceFree_of_ended hget hended
        simpa [OutputCall.freed, stateOf, hget, hended, after, hmark, orSelf] using
          Rearranged.freed hknown
      · have hmark : b.after (.markResourceFree reqId) = b := by
          simp only [after, markResourceFree]
          split
          · rfl
          · simp_all [orSelf]
        simpa [OutputCall.freed, stateOf, hget, hended, hmark] using .same (.refl b)

/-! ## What one call keeps -/

theorem evict_active (b : OutputBuffer) : b.evict.active = b.active := by
  have hsize : (b.states.eraseAll (b.resourceFree.take _)).size + _ = b.states.size :=
    Dict.size_eraseAll
      (b.free_nodup.sublist (List.take_sublist (b.resourceFree.length - b.terminalSnapshotCap) _))
      fun k hk => b.free_known k (List.mem_of_mem_take hk)
  rw [List.length_take] at hsize
  simp only [active, evict, List.length_drop]
  omega

theorem retain_active_le (h : b.states.get? reqId ≠ none) :
    (b.retain reqId h).active ≤ b.active := by
  have hlength := length_le_filter_ne b.free_nodup reqId
  simp only [active, retain, List.length_append, List.length_singleton]
  omega

theorem evict_retain_resourceFree (h : b.states.get? reqId ≠ none) :
    (b.retain reqId h).evict.resourceFree =
      (b.resourceFree.filter (fun y => y ≠ reqId) ++ [reqId]).rtake b.terminalSnapshotCap := rfl

/-- An id that is neither retained nor freed keeps its state. -/
theorem Rearranged.get?_eq {freed : List String} (h : Rearranged b freed b')
    (hx : b.states.get? x = some ref) (hfree : x ∉ b.resourceFree) (hfreed : x ∉ freed) :
    b'.states.get? x = some ref ∧ x ∉ b'.resourceFree := by
  cases h with
  | same h =>
    rw [h.states, h.resourceFree]
    exact ⟨hx, hfree⟩
  | @created _ reqId hnew _ h =>
    rw [h.states, h.resourceFree]
    have hne : x ≠ reqId := by
      rintro rfl
      rw [hnew] at hx
      cases hx
    exact ⟨(Dict.get?_set_of_ne _ _ hne).trans hx, hfree⟩
  | @freed reqId hknown =>
    have hlist : x ∉ b.resourceFree.filter (fun y => y ≠ reqId) ++ [reqId] := by
      simpa [hfree] using hfreed
    refine ⟨?_, fun hmem => hlist (List.mem_of_mem_drop hmem)⟩
    simp only [evict, retain, Dict.get?_eraseAll]
    rw [if_neg fun hmem => hlist (List.mem_of_mem_take hmem)]
    exact hx

/-- The retained ids after those in `marks` were freed, and the room for others. -/
structure Retains (activeCap snapshotCap : Nat) (marks : List String) (b : OutputBuffer) :
    Prop where
  activeCap_eq : b.activeOperationCap = activeCap
  snapshotCap_eq : b.terminalSnapshotCap = snapshotCap
  active_le : b.active ≤ activeCap
  recent : b.resourceFree = marks.dedup.rtake snapshotCap

theorem Retains.step {activeCap snapshotCap : Nat} {marks freed : List String}
    (h : Retains activeCap snapshotCap marks b) (hstep : Rearranged b freed b') :
    Retains activeCap snapshotCap (marks ++ freed) b' := by
  obtain ⟨rfl, rfl, hactive, hrecent⟩ := h
  cases hstep with
  | same hsame =>
    refine ⟨hsame.active, hsame.snapshots, ?_, ?_⟩
    · rwa [active, hsame.states, hsame.resourceFree]
    · rw [hsame.resourceFree, List.append_nil, hrecent]
  | @created _ reqId hnew hroom hsame =>
    refine ⟨hsame.active, hsame.snapshots, ?_, ?_⟩
    · have hsize : (b.create reqId).states.size = b.states.size + 1 :=
        Dict.size_set_of_fresh b.states hnew
      have hfree : (b.create reqId).resourceFree = b.resourceFree := rfl
      rw [active] at hroom ⊢
      rw [hsame.states, hsame.resourceFree, hsize, hfree]
      omega
    · rw [hsame.resourceFree, List.append_nil]
      exact hrecent
  | @freed reqId hknown =>
    refine ⟨rfl, rfl, ?_, ?_⟩
    · rw [evict_active]
      exact (retain_active_le hknown).trans hactive
    · rw [evict_retain_resourceFree, hrecent, rtake_touch_rtake marks.nodup_dedup, dedup_concat]

theorem Retains.afterAll {activeCap snapshotCap : Nat} :
    ∀ {marks : List String} {b : OutputBuffer}, Retains activeCap snapshotCap marks b →
      ∀ calls, Retains activeCap snapshotCap (marks ++ b.freedIn calls) (b.afterAll calls)
  | _, _, h, [] => by simpa [freedIn, OutputBuffer.afterAll] using h
  | _, _, h, c :: rest => by
      have hrest := (h.step (rearranged_after c)).afterAll rest
      rwa [List.append_assoc] at hrest

/-- Along a sequence of calls that frees others only. -/
theorem get?_afterAll (hx : b.states.get? x = some ref) (hfree : x ∉ b.resourceFree) :
    ∀ {calls : List OutputCall}, x ∉ b.freedIn calls →
      (b.afterAll calls).states.get? x = some ref := by
  intro calls
  induction calls generalizing b with
  | nil =>
    exact fun _ => hx
  | cons c rest ih =>
    intro hfreed
    rw [freedIn, List.mem_append, not_or] at hfreed
    obtain ⟨hx', hfree'⟩ := (rearranged_after c).get?_eq hx hfree hfreed.1
    exact ih hx' hfree' hfreed.2

/-- The buffer never holds more active states than its cap, retains exactly the ids that were freed
last, and keeps the state of every id until it is freed. -/
theorem retention_is_recency (activeCap snapshotCap : Nat) (ha : 0 < activeCap)
    (hs : 0 < snapshotCap) (calls : List OutputCall) :
    let b := (empty activeCap snapshotCap ha hs).afterAll calls
    b.active ≤ activeCap ∧
      b.resourceFree =
        ((empty activeCap snapshotCap ha hs).freedIn calls).dedup.rtake snapshotCap ∧
      ∀ (reqId : String) (ref : Nat) (more : List OutputCall),
        b.states.get? reqId = some ref → reqId ∉ b.resourceFree → reqId ∉ b.freedIn more →
        (b.afterAll more).states.get? reqId = some ref := by
  have hstart : Retains activeCap snapshotCap [] (empty activeCap snapshotCap ha hs) :=
    ⟨rfl, rfl, by simp [active, empty, Dict.size, Dict.empty], by simp [empty]⟩
  have hend := hstart.afterAll calls
  exact ⟨hend.active_le, hend.recent, fun _ _ _ hx hfree hfreed => get?_afterAll hx hfree hfreed⟩

theorem retention_is_recency_three :
    ((empty 4 2 (by decide) (by decide)).afterAll
      (["a", "b", "a", "c"].flatMap fun x => [.fail x "gone", .markResourceFree x])).resourceFree =
        ["a", "c"] :=
  (retention_is_recency 4 2 (by decide) (by decide) _).2.1.trans (by decide +kernel)

end OutputBuffer

end PrismServe
