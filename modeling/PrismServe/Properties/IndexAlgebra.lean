import PrismServe.Lib.Methods
import PrismServe.Router.PrefixIndex

/-!
# The algebra of the prefix index

Events are applied one after the other, so that a list of events is applied like
its parts.  An event that was applied is skipped when it is delivered again.

The index keeps two maps: from keys to locations, and from owners to the keys
they have locations under.  They agree after every operation, also after one that
has raised part-way.  Removing an instance goes through the owners that have an
entry in the second map, and an owner that has only a cursor is not among them.
-/

namespace PrismServe.Directory

open Lib

namespace PrefixIndex

variable {x y : PrefixIndex} {owner o : Owner}

/-! ## Single changes -/

/-- The cursor of an owner; one that has none has seen no event. -/
def cursor (x : PrefixIndex) (owner : Owner) : Int := (x.lastSeq.get? owner).getD 0

theorem locations_store (key k : Key) (values : List CacheLocation) :
    (x.store key values).locations k = if k = key then values else x.locations k := by
  unfold store locations
  by_cases hvalues : values.isEmpty
  · have hnil : values = [] := List.isEmpty_iff.mp hvalues
    rw [if_pos hvalues, Dict.get?_erase]
    split <;> simp [hnil]
  · rw [if_neg hvalues, Dict.get?_set]
    split <;> simp

theorem locations_add (l : CacheLocation) (k : Key) :
    (x.add l).locations k =
      if k = l.key then (x.locations l.key).insert l else x.locations k := by
  unfold add locations
  rw [Dict.get?_set]
  split <;> simp

theorem forwardKeys_add (l : CacheLocation) :
    (x.add l).forwardKeys o =
      if o = l.owner then (x.forwardKeys l.owner).insert l.key else x.forwardKeys o := by
  unfold add forwardKeys
  rw [Dict.get?_set]
  split <;> simp

@[simp] theorem locations_discardUnused (key k : Key) :
    (x.discardUnused owner key).locations k = x.locations k := by
  unfold discardUnused
  split
  · rfl
  · rfl

theorem locations_removeUnder (key k : Key) :
    (x.removeUnder owner key).locations k =
      if k = key then (x.locations key).filter fun l => l.owner ≠ owner else x.locations k :=
  locations_store key k _

theorem mem_forward_of_key {key : Key} (h : key ∈ x.forwardKeys owner) :
    owner ∈ x.forward.keys := by
  refine (Dict.mem_keys_iff _ _).mpr ?_
  unfold forwardKeys at h
  cases hget : x.forward.get? owner with
  | none =>
    rw [hget] at h
    cases h
  | some keys =>
    rfl

/-! ## Lists of events -/

/-- The two maps with the cursors of another index. -/
def withCursors (d : Dict Owner Int) (x : PrefixIndex) : PrefixIndex := { x with lastSeq := d }

theorem applyFrom_append (events more : List PrefixEvent) (c : Int) (x : PrefixIndex) :
    applyFrom owner (events ++ more) c x =
      match applyFrom owner events c x with
      | (.ok c', y) => applyFrom owner more c' y
      | (.error e, y) => (.error e, y) := by
  induction events generalizing c x with
  | nil =>
    rfl
  | cons event rest ih =>
    simp only [List.cons_append, applyFrom]
    split
    · rfl
    split
    · exact ih c x
    split
    · rfl
    cases event.kind with
    | unsupported kind =>
      rfl
    | _ =>
      exact ih _ _

theorem discardUnused_withCursors (d : Dict Owner Int) (key : Key) :
    (x.withCursors d).discardUnused owner key = (x.discardUnused owner key).withCursors d := by
  unfold discardUnused
  change (if (x.locations key).any _ then _ else _) = _
  split
  · rfl
  · rfl

theorem removeBlock_withCursors (d : Dict Owner Int) (key : Key) (block : Int) :
    (x.withCursors d).removeBlock key owner block =
      (x.removeBlock key owner block).withCursors d :=
  discardUnused_withCursors (x := x.store key ((x.locations key).filter
    fun l => l.owner ≠ owner ∨ l.blockId ≠ block)) d key

/-- The loop does not look at the stored cursors. -/
theorem applyFrom_withCursors (d : Dict Owner Int) (events : List PrefixEvent) (c : Int)
    (x : PrefixIndex) :
    applyFrom owner events c (x.withCursors d) =
      ((applyFrom owner events c x).1, (applyFrom owner events c x).2.withCursors d) := by
  induction events generalizing c x with
  | nil =>
    rfl
  | cons event rest ih =>
    simp only [applyFrom]
    split
    · rfl
    split
    · exact ih c x
    split
    · rfl
    cases event.kind with
    | hashAdded =>
      exact ih event.seqNo (x.add event.location)
    | evicted =>
      simp only [removeBlock_withCursors]
      exact ih _ _
    | unsupported kind =>
      rfl

theorem lastSeq_applyFrom (events : List PrefixEvent) (c : Int) (x : PrefixIndex) :
    (applyFrom owner events c x).2.lastSeq = x.lastSeq := by
  have h : applyFrom owner events c (x.withCursors x.lastSeq) = _ :=
    applyFrom_withCursors x.lastSeq events c x
  exact congrArg (fun r => r.2.lastSeq) h

variable {events : List PrefixEvent} {c : Int}

theorem applyEvents_ok_iff :
    applyEvents owner events x = (.ok c, y) ↔
      ∃ z, applyFrom owner events (x.cursor owner) x = (.ok c, z) ∧
        y = z.withCursors (x.lastSeq.set owner c) := by
  unfold applyEvents cursor
  have hseq : (applyFrom owner events ((x.lastSeq.get? owner).getD 0) x).2.lastSeq = x.lastSeq :=
    lastSeq_applyFrom events _ x
  cases hrun : applyFrom owner events ((x.lastSeq.get? owner).getD 0) x with
  | mk r z =>
    rw [hrun] at hseq
    cases r with
    | error e =>
      simp
    | ok c' =>
      dsimp only at hseq ⊢
      rw [hseq]
      constructor
      · intro h
        cases h
        exact ⟨z, rfl, rfl⟩
      · rintro ⟨z', hz', rfl⟩
        cases hz'
        rfl

theorem applyEvents_append {events more : List PrefixEvent} :
    applyEvents owner (events ++ more) x = (.ok c, y) ↔
      ∃ c' z, applyEvents owner events x = (.ok c', z) ∧
        applyEvents owner more z = (.ok c, y) := by
  simp only [applyEvents_ok_iff, applyFrom_append]
  constructor
  · rintro ⟨z, hz, rfl⟩
    cases hrun : applyFrom owner events (x.cursor owner) x with
    | mk r z₁ =>
      rw [hrun] at hz
      cases r with
      | error e =>
        cases hz
      | ok c' =>
        refine ⟨c', _, ⟨z₁, rfl, rfl⟩, z.withCursors (x.lastSeq.set owner c'), ?_, ?_⟩
        · have hcursor : (z₁.withCursors (x.lastSeq.set owner c')).cursor owner = c' := by
            simp [cursor, withCursors]
          rw [hcursor, applyFrom_withCursors]
          have hz : applyFrom owner more c' z₁ = (.ok c, z) := hz
          rw [hz]
        · simp [withCursors]
  · rintro ⟨c', z₂, ⟨z₁, hrun, rfl⟩, z, hz, rfl⟩
    have hcursor : (z₁.withCursors (x.lastSeq.set owner c')).cursor owner = c' := by
      simp [cursor, withCursors]
    rw [hcursor, applyFrom_withCursors] at hz
    obtain ⟨h₁, h₂⟩ := Prod.mk.inj hz
    refine ⟨(applyFrom owner more c' z₁).2, ?_, ?_⟩
    · rw [hrun]
      exact Prod.ext h₁ rfl
    · rw [← h₂]
      simp [withCursors]

/-- Events that are applied belong to the owner and end at the cursor. -/
theorem applied_le {c c' : Int} (h : applyFrom owner events c x = (.ok c', y)) :
    c ≤ c' ∧ ∀ e ∈ events, e.location.owner = owner ∧ e.seqNo ≤ c' := by
  induction events generalizing c x with
  | nil =>
    cases h
    simp
  | cons event rest ih =>
    simp only [applyFrom] at h
    split at h
    · cases h
    case isFalse howner =>
      have howner : event.location.owner = owner := not_not.mp howner
      split at h
      case isTrue hold =>
        obtain ⟨hle, hrest⟩ := ih h
        exact ⟨hle, List.forall_mem_cons.mpr ⟨⟨howner, hold.trans hle⟩, hrest⟩⟩
      case isFalse hnew =>
        split at h
        · cases h
        have hstep : ∀ {z}, applyFrom owner rest event.seqNo z = (.ok c', y) →
            c ≤ c' ∧ ∀ e ∈ event :: rest, e.location.owner = owner ∧ e.seqNo ≤ c' := by
          intro z hz
          obtain ⟨hle, hrest⟩ := ih hz
          exact ⟨by omega, List.forall_mem_cons.mpr ⟨⟨howner, hle⟩, hrest⟩⟩
        cases hkind : event.kind with
        | unsupported kind =>
          rw [hkind] at h
          cases h
        | _ =>
          rw [hkind] at h
          exact hstep h

/-- Events up to the cursor are skipped. -/
theorem applyFrom_skips (h : ∀ e ∈ events, e.location.owner = owner ∧ e.seqNo ≤ c) :
    applyFrom owner events c x = (.ok c, x) := by
  induction events with
  | nil =>
    rfl
  | cons event rest ih =>
    obtain ⟨⟨howner, hle⟩, hrest⟩ := List.forall_mem_cons.mp h
    simp only [applyFrom]
    rw [if_neg (not_not.mpr howner), if_pos hle]
    exact ih hrest

theorem redelivered {c c' : Int} (h : applyEvents owner events x = (.ok c, y)) {z : PrefixIndex}
    (hz : z.lastSeq.get? owner = some c') (hle : c ≤ c') {again : List PrefixEvent}
    (hagain : again <+: events) : applyEvents owner again z = (.ok c', z) := by
  obtain ⟨y', hrun, -⟩ := applyEvents_ok_iff.mp h
  obtain ⟨-, hall⟩ := applied_le hrun
  have hcursor : z.cursor owner = c' := by simp [cursor, hz]
  refine applyEvents_ok_iff.mpr ⟨z, ?_, ?_⟩
  · rw [hcursor]
    refine applyFrom_skips fun e he => ?_
    obtain ⟨howner, hseq⟩ := hall e (hagain.subset he)
    exact ⟨howner, hseq.trans hle⟩
  · rw [Dict.set_of_get? _ hz]
    rfl

/-! ## The two maps -/

/-- The two maps agree, and no entry is empty. -/
structure Consistent (x : PrefixIndex) : Prop where
  agree : ∀ owner key, key ∈ x.forwardKeys owner ↔ ∃ l ∈ x.locations key, l.owner = owner
  inhabited : ∀ key ls, x.index.get? key = some ls → ls ≠ []

theorem consistent_empty : Consistent empty where
  agree owner key := by simp [forwardKeys, locations, empty]
  inhabited key ls h := by cases h

theorem Consistent.withCursors (h : Consistent x) (d : Dict Owner Int) :
    Consistent (x.withCursors d) :=
  ⟨h.agree, h.inhabited⟩

theorem mem_forwardKeys_add (l : CacheLocation) (key : Key) :
    key ∈ (x.add l).forwardKeys owner ↔
      key ∈ x.forwardKeys owner ∨ (owner = l.owner ∧ key = l.key) := by
  rw [forwardKeys_add]
  by_cases ho : owner = l.owner
  · subst ho
    rw [if_pos rfl, List.mem_insert_iff]
    constructor
    · rintro (rfl | hmem)
      · exact Or.inr ⟨rfl, rfl⟩
      · exact Or.inl hmem
    · rintro (hmem | ⟨-, rfl⟩)
      · exact Or.inr hmem
      · exact Or.inl rfl
  · simp [ho]

theorem mem_locations_add (l m : CacheLocation) (key : Key) :
    m ∈ (x.add l).locations key ↔ m ∈ x.locations key ∨ (m = l ∧ key = l.key) := by
  rw [locations_add]
  by_cases hk : key = l.key
  · subst hk
    rw [if_pos rfl, List.mem_insert_iff]
    constructor
    · rintro (rfl | hmem)
      · exact Or.inr ⟨rfl, rfl⟩
      · exact Or.inl hmem
    · rintro (hmem | ⟨rfl, -⟩)
      · exact Or.inr hmem
      · exact Or.inl rfl
  · simp [hk]

theorem Consistent.add (h : Consistent x) (l : CacheLocation) : Consistent (x.add l) where
  agree owner key := by
    rw [mem_forwardKeys_add, h.agree]
    constructor
    · rintro (⟨m, hm, ho⟩ | ⟨rfl, rfl⟩)
      · exact ⟨m, (mem_locations_add l m key).mpr (Or.inl hm), ho⟩
      · exact ⟨l, (mem_locations_add l l _).mpr (Or.inr ⟨rfl, rfl⟩), rfl⟩
    · rintro ⟨m, hm, ho⟩
      rcases (mem_locations_add l m key).mp hm with hm | ⟨rfl, rfl⟩
      · exact Or.inl ⟨m, hm, ho⟩
      · exact Or.inr ⟨ho.symm, rfl⟩
  inhabited key ls hget := by
    unfold PrefixIndex.add at hget
    rw [Dict.get?_set] at hget
    split at hget
    · cases hget
      exact List.ne_nil_of_mem (List.mem_insert_self)
    · exact h.inhabited key ls hget

/-- Replacing the locations under a key leaves no empty entry. -/
theorem inhabited_store (h : ∀ key ls, x.index.get? key = some ls → ls ≠ []) (key : Key)
    (values : List CacheLocation) :
    ∀ k ls, (x.store key values).index.get? k = some ls → ls ≠ [] := by
  intro k ls hget
  unfold store at hget
  by_cases hvalues : values.isEmpty
  · rw [if_pos hvalues, Dict.get?_erase] at hget
    split at hget
    · cases hget
    · exact h k ls hget
  · rw [if_neg hvalues, Dict.get?_set] at hget
    split at hget
    · cases hget
      exact fun hnil => hvalues (by simp [hnil])
    · exact h k ls hget

theorem forwardKeys_discard (key : Key) :
    (x.discard owner key).forwardKeys o =
      if o = owner then (x.forwardKeys owner).filter (· ≠ key) else x.forwardKeys o := by
  unfold discard forwardKeys
  rw [Dict.get?_set]
  split <;> simp

/-- Under the key the owner is looked up, elsewhere nothing has changed. -/
theorem mem_forwardKeys_discardUnused (key k : Key) :
    k ∈ (x.discardUnused owner key).forwardKeys o ↔
      k ∈ x.forwardKeys o ∧ (o = owner → k = key → ∃ l ∈ x.locations key, l.owner = owner) := by
  unfold discardUnused
  split
  case isTrue hany =>
    have hfound : ∃ l ∈ x.locations key, l.owner = owner := by simpa using hany
    exact ⟨fun hk => ⟨hk, fun _ _ => hfound⟩, fun hk => hk.1⟩
  case isFalse hnone =>
    have hnone : ¬ ∃ l ∈ x.locations key, l.owner = owner := by simpa using hnone
    rw [forwardKeys_discard]
    by_cases ho : o = owner
    · subst ho
      simp [hnone]
    · simp [ho]

theorem Consistent.removeBlock (h : Consistent x) (key : Key) (owner : Owner) (block : Int) :
    Consistent (x.removeBlock key owner block) where
  agree o k := by
    rw [PrefixIndex.removeBlock, mem_forwardKeys_discardUnused, locations_discardUnused]
    change k ∈ x.forwardKeys o ∧ _ ↔ _
    rw [h.agree]
    simp only [locations_store]
    by_cases hk : k = key
    · subst hk
      simp only [if_true, List.mem_filter, decide_eq_true_eq]
      constructor
      · rintro ⟨⟨l, hl, rfl⟩, hfound⟩
        by_cases ho : l.owner = owner
        · obtain ⟨m, hm, hmo⟩ := hfound ho trivial
          exact ⟨m, hm, hmo.trans ho.symm⟩
        · exact ⟨l, ⟨hl, Or.inl ho⟩, rfl⟩
      · rintro ⟨l, ⟨hl, hkept⟩, rfl⟩
        exact ⟨⟨l, hl, rfl⟩, fun ho _ => ⟨l, ⟨hl, hkept⟩, ho⟩⟩
    · simp [hk]
  inhabited k ls hget := by
    have hindex : (x.removeBlock key owner block).index =
        (x.store key ((x.locations key).filter
          fun l => l.owner ≠ owner ∨ l.blockId ≠ block)).index := by
      unfold PrefixIndex.removeBlock discardUnused
      split <;> rfl
    rw [hindex] at hget
    exact inhabited_store h.inhabited key _ k ls hget

/-! ## Removing owners -/

/-- Sweeping an owner under some keys. -/
theorem locations_sweep (owner : Owner) (keys : List Key) (x : PrefixIndex) (k : Key) :
    (keys.foldl (fun y key => y.removeUnder owner key) x).locations k =
      if k ∈ keys then (x.locations k).filter fun l => l.owner ≠ owner else x.locations k := by
  induction keys generalizing x with
  | nil =>
    simp
  | cons key rest ih =>
    rw [List.foldl_cons, ih, locations_removeUnder]
    by_cases hk : k = key
    · subst hk
      simp only [if_true, List.mem_cons, true_or, List.filter_filter, Bool.and_self]
      split <;> rfl
    · simp [hk]

theorem kept_sweep (owner : Owner) (keys : List Key) (x : PrefixIndex) :
    (keys.foldl (fun y key => y.removeUnder owner key) x).forward = x.forward ∧
      (keys.foldl (fun y key => y.removeUnder owner key) x).lastSeq = x.lastSeq := by
  induction keys generalizing x with
  | nil =>
    exact ⟨rfl, rfl⟩
  | cons key rest ih =>
    exact ih (x.removeUnder owner key)

theorem inhabited_sweep (owner : Owner) (keys : List Key) (x : PrefixIndex)
    (h : ∀ key ls, x.index.get? key = some ls → ls ≠ []) :
    ∀ key ls, (keys.foldl (fun y key => y.removeUnder owner key) x).index.get? key = some ls →
      ls ≠ [] := by
  induction keys generalizing x with
  | nil =>
    exact h
  | cons key rest ih =>
    exact ih _ (inhabited_store h key _)

/-- All locations of the owner are gone, since its keys are known. -/
theorem Consistent.locations_removeOwner (h : Consistent x) (owner : Owner) (k : Key) :
    (x.removeOwner owner).locations k = (x.locations k).filter fun l => l.owner ≠ owner := by
  change (List.foldl _ x (x.forwardKeys owner)).locations k = _
  rw [locations_sweep]
  split
  · rfl
  case isFalse hk =>
    refine (List.filter_eq_self.mpr fun l hl => ?_).symm
    have hne : l.owner ≠ owner := fun ho => hk ((h.agree owner k).mpr ⟨l, hl, ho⟩)
    simpa using hne

theorem forward_removeOwner (owner o : Owner) (x : PrefixIndex) :
    (x.removeOwner owner).forward.get? o = if o = owner then none else x.forward.get? o := by
  simp only [removeOwner, (kept_sweep owner (x.forwardKeys owner) x).1]
  exact Dict.get?_erase _ _ _

theorem cursors_removeOwner (owner o : Owner) (x : PrefixIndex) :
    (x.removeOwner owner).lastSeq.get? o = if o = owner then none else x.lastSeq.get? o := by
  simp only [removeOwner, (kept_sweep owner (x.forwardKeys owner) x).2]
  exact Dict.get?_erase _ _ _

theorem Consistent.removeOwner (h : Consistent x) (owner : Owner) :
    Consistent (x.removeOwner owner) where
  agree o k := by
    rw [h.locations_removeOwner, forwardKeys, forward_removeOwner]
    by_cases ho : o = owner
    · subst ho
      simp
    rw [if_neg ho]
    change k ∈ x.forwardKeys o ↔ _
    rw [h.agree]
    simp only [List.mem_filter, decide_eq_true_eq]
    constructor
    · rintro ⟨l, hl, rfl⟩
      exact ⟨l, ⟨hl, ho⟩, rfl⟩
    · rintro ⟨l, ⟨hl, -⟩, rfl⟩
      exact ⟨l, hl, rfl⟩
  inhabited := inhabited_sweep owner (x.forwardKeys owner) x h.inhabited

/-- What is left when the owners of a list are removed. -/
structure Without (owners : List Owner) (x y : PrefixIndex) : Prop where
  consistent : Consistent y
  locations : ∀ k, y.locations k = (x.locations k).filter fun l => l.owner ∉ owners
  forward : ∀ o, y.forward.get? o = if o ∈ owners then none else x.forward.get? o
  cursors : ∀ o, y.lastSeq.get? o = if o ∈ owners then none else x.lastSeq.get? o

theorem Consistent.removeOwners (h : Consistent x) (owners : List Owner) :
    Without owners x (owners.foldl (fun y owner => y.removeOwner owner) x) := by
  induction owners generalizing x with
  | nil =>
    exact ⟨h, by simp, by simp, by simp⟩
  | cons owner rest ih =>
    obtain ⟨hconsistent, hlocations, hforward, hcursors⟩ := ih (h.removeOwner owner)
    refine ⟨hconsistent, fun k => ?_, fun o => ?_, fun o => ?_⟩
    · rw [List.foldl_cons, hlocations, h.locations_removeOwner, List.filter_filter]
      simp only [List.mem_cons, not_or, Bool.decide_and, Bool.and_comm, decide_not]
    · rw [List.foldl_cons, hforward, forward_removeOwner]
      by_cases ho : o = owner <;> simp [ho]
    · rw [List.foldl_cons, hcursors, cursors_removeOwner]
      by_cases ho : o = owner <;> simp [ho]

theorem Consistent.removeInstance (h : Consistent x) (instanceId : String) :
    Without (x.forward.keys.filter fun owner => owner.1 = instanceId) x
      (x.removeInstance instanceId) :=
  h.removeOwners _

/-! ## Every operation -/

theorem Consistent.applyFrom (events : List PrefixEvent) (c : Int) (h : Consistent x) :
    Consistent (applyFrom owner events c x).2 := by
  induction events generalizing c x with
  | nil =>
    exact h
  | cons event rest ih =>
    simp only [PrefixIndex.applyFrom]
    split
    · exact h
    split
    · exact ih c h
    split
    · exact h
    cases event.kind with
    | hashAdded =>
      exact ih _ (h.add _)
    | evicted =>
      exact ih _ (h.removeBlock _ _ _)
    | unsupported kind =>
      exact h

theorem Consistent.applyEvents (h : Consistent x) (owner : Owner) (events : List PrefixEvent) :
    Consistent (applyEvents owner events x).2 := by
  have hrun : Consistent (PrefixIndex.applyFrom owner events ((x.lastSeq.get? owner).getD 0) x).2 :=
    h.applyFrom events _
  unfold PrefixIndex.applyEvents
  split
  case h_1 heq =>
    rw [heq] at hrun
    exact hrun
  case h_2 heq =>
    rw [heq] at hrun
    exact hrun.withCursors _

theorem Consistent.addReported (locations : List CacheLocation) (h : Consistent x) :
    Consistent (addReported owner locations x).2 := by
  induction locations generalizing x with
  | nil =>
    exact h
  | cons l rest ih =>
    simp only [PrefixIndex.addReported]
    split
    · exact h
    · exact ih (h.add l)

theorem Consistent.installFullReport (h : Consistent x) (owner : Owner) (seq : Int)
    (locations : List CacheLocation) : Consistent (installFullReport owner seq locations x).2 := by
  have hadded : Consistent (PrefixIndex.addReported owner locations (x.removeOwner owner)).2 :=
    (h.removeOwner owner).addReported locations
  unfold PrefixIndex.installFullReport
  split
  case h_1 heq =>
    rw [heq] at hadded
    exact hadded
  case h_2 heq =>
    rw [heq] at hadded
    exact hadded.withCursors _

theorem Consistent.touch (h : Consistent x) (owner : Owner) : Consistent (x.touch owner) where
  agree o key := by
    have hsame : (x.touch owner).forwardKeys o = x.forwardKeys o := by
      unfold PrefixIndex.touch forwardKeys
      rw [Dict.get?_set]
      split
      case isTrue ho =>
        subst ho
        rfl
      case isFalse =>
        rfl
    rw [hsame]
    exact h.agree o key
  inhabited := h.inhabited

theorem Consistent.stage {r : PrefixReport} (h : Consistent x) (hy : stage x r = .ok y) :
    Consistent y := by
  have hadded : Consistent (PrefixIndex.addReported r.owner r.locations (x.touch r.owner)).2 :=
    (h.touch r.owner).addReported r.locations
  unfold PrefixIndex.stage at hy
  split at hy
  · cases hy
  split at hy
  · cases hy
  split at hy
  · cases hy
  case h_2 heq =>
    cases hy
    rw [heq] at hadded
    exact hadded.withCursors _

theorem consistent_installWorld {reports : List PrefixReport} {expected : List Owner}
    (h : installWorldFullReports reports expected = .ok y) : Consistent y := by
  unfold installWorldFullReports at h
  obtain ⟨staged, hstaged, h⟩ := bind_eq_ok.mp h
  split at h
  case isTrue =>
    cases h
    have hfold : ∀ (reports : List PrefixReport) (x : PrefixIndex), Consistent x →
        ∀ z, reports.foldlM PrefixIndex.stage x = .ok z → Consistent z := by
      intro reports
      induction reports with
      | nil =>
        intro x hx z hz
        cases hz
        exact hx
      | cons r rest ih =>
        intro x hx z hz
        obtain ⟨x', hx', hz⟩ := bind_eq_ok.mp hz
        exact ih x' (hx.stage hx') z hz
    exact hfold reports empty consistent_empty _ hstaged
  case isFalse =>
    cases h

/-- The operations of the index. -/
inductive Operation
  | applyEvents (owner : Owner) (events : List PrefixEvent)
  | installFullReport (owner : Owner) (snapshotSeqNo : Int) (locations : List CacheLocation)
  | installWorldFullReports (reports : List PrefixReport) (expectedOwners : List Owner)
  | removeInstance (instanceId : String)
  | removeOwner (owner : Owner)
  | clear

/-- The index after an operation, whether it has raised or not. -/
def after (x : PrefixIndex) : Operation → PrefixIndex
  | .applyEvents owner events => (x.applyEvents owner events).2
  | .installFullReport owner seq locations => (x.installFullReport owner seq locations).2
  | .installWorldFullReports reports expected =>
    match PrefixIndex.installWorldFullReports reports expected with
    | .ok y => y
    | .error _ => x
  | .removeInstance instanceId => x.removeInstance instanceId
  | .removeOwner owner => x.removeOwner owner
  | .clear => empty

theorem Consistent.after (h : Consistent x) (op : Operation) : Consistent (x.after op) := by
  cases op with
  | applyEvents owner events =>
    exact h.applyEvents owner events
  | installFullReport owner seq locations =>
    exact h.installFullReport owner seq locations
  | installWorldFullReports reports expected =>
    simp only [PrefixIndex.after]
    split
    case h_1 heq =>
      exact consistent_installWorld heq
    case h_2 =>
      exact h
  | removeInstance instanceId =>
    exact (h.removeInstance instanceId).consistent
  | removeOwner owner =>
    exact h.removeOwner owner
  | clear =>
    exact consistent_empty

/-- The index after some operations. -/
def afterAll (ops : List Operation) : PrefixIndex := ops.foldl PrefixIndex.after empty

theorem consistent_afterAll (ops : List Operation) : Consistent (afterAll ops) := by
  have h : ∀ x, Consistent x → Consistent (ops.foldl PrefixIndex.after x) := by
    induction ops with
    | nil =>
      exact fun x hx => hx
    | cons op rest ih =>
      exact fun x hx => ih _ (hx.after op)
  exact h empty consistent_empty

/-! ## The results -/

/-- A list of events is applied like its parts; events that were applied are skipped when they are
delivered again, whatever has come after them; and after any operations, also after some that have
raised, the two maps agree. -/
theorem index_event_algebra :
    (∀ (x y : PrefixIndex) (owner : Owner) (events more : List PrefixEvent) (c : Int),
      applyEvents owner (events ++ more) x = (.ok c, y) ↔
        ∃ c' z, applyEvents owner events x = (.ok c', z) ∧
          applyEvents owner more z = (.ok c, y)) ∧
    (∀ (x y z : PrefixIndex) (owner : Owner) (events again : List PrefixEvent) (c c' : Int),
      applyEvents owner events x = (.ok c, y) → again <+: events →
        z.lastSeq.get? owner = some c' → c ≤ c' → applyEvents owner again z = (.ok c', z)) ∧
    ∀ ops : List Operation, Consistent (afterAll ops) :=
  ⟨fun _ _ _ _ _ _ => applyEvents_append,
    fun _ _ _ _ _ _ _ _ h hagain hz hle => redelivered h hz hle hagain, consistent_afterAll⟩

/-- Nothing of the instance is left. -/
structure Erased (instanceId : String) (y : PrefixIndex) : Prop where
  locations : ∀ key, ∀ l ∈ y.locations key, l.instanceId ≠ instanceId
  forward : ∀ epoch, y.forward.get? (instanceId, epoch) = none
  cursors : ∀ epoch, y.lastSeq.get? (instanceId, epoch) = none

/-- Everything of the other instances is as it was. -/
structure OthersKept (instanceId : String) (x y : PrefixIndex) : Prop where
  locations : ∀ key, (y.locations key).filter (fun l => l.instanceId ≠ instanceId) =
    (x.locations key).filter fun l => l.instanceId ≠ instanceId
  forward : ∀ o : Owner, o.1 ≠ instanceId → y.forward.get? o = x.forward.get? o
  cursors : ∀ o : Owner, o.1 ≠ instanceId → y.lastSeq.get? o = x.lastSeq.get? o

/-- Every owner of the instance that has a cursor has an entry in the map of keys. -/
def CursorsOwned (instanceId : String) (x : PrefixIndex) : Prop :=
  ∀ o ∈ x.lastSeq.keys, o.1 = instanceId → o ∈ x.forward.keys

theorem mem_removed {instanceId : String} {o : Owner} :
    o ∈ x.forward.keys.filter (fun owner => owner.1 = instanceId) ↔
      o ∈ x.forward.keys ∧ o.1 = instanceId := by
  simp [List.mem_filter]

theorem Consistent.othersKept (h : Consistent x) (instanceId : String) :
    OthersKept instanceId x (x.removeInstance instanceId) := by
  have hw := h.removeInstance instanceId
  refine ⟨fun key => ?_, fun o ho => ?_, fun o ho => ?_⟩
  · rw [hw.locations, List.filter_filter]
    refine List.filter_congr fun l _ => ?_
    by_cases hl : l.instanceId = instanceId
    · simp [hl]
    · have hnot : l.owner ∉ x.forward.keys.filter fun owner => owner.1 = instanceId :=
        fun hmem => hl (mem_removed.mp hmem).2
      simp [hl, hnot]
  · rw [hw.forward, if_neg fun hmem => ho (mem_removed.mp hmem).2]
  · rw [hw.cursors, if_neg fun hmem => ho (mem_removed.mp hmem).2]

theorem Consistent.erased_iff (h : Consistent x) (instanceId : String) :
    Erased instanceId (x.removeInstance instanceId) ↔ CursorsOwned instanceId x := by
  have hw := h.removeInstance instanceId
  constructor
  · rintro herased ⟨i, epoch⟩ hcursor rfl
    by_contra hnot
    have hkept := hw.cursors (i, epoch)
    rw [if_neg fun hmem => hnot (mem_removed.mp hmem).1, herased.cursors epoch] at hkept
    rw [Dict.mem_keys_iff, ← hkept] at hcursor
    cases hcursor
  · intro howned
    refine ⟨fun key l hl => ?_, fun epoch => ?_, fun epoch => ?_⟩
    · rw [hw.locations] at hl
      obtain ⟨hl, hkept⟩ := List.mem_filter.mp hl
      intro hinstance
      have hkey : key ∈ x.forwardKeys l.owner := (h.agree l.owner key).mpr ⟨l, hl, rfl⟩
      have hmem := mem_removed.mpr ⟨mem_forward_of_key hkey, hinstance⟩
      simp [hmem] at hkept
    · rw [hw.forward]
      split
      · rfl
      case isFalse hnot =>
        cases hget : x.forward.get? (instanceId, epoch) with
        | none =>
          rfl
        | some keys =>
          have hkey : (instanceId, epoch) ∈ x.forward.keys :=
            (Dict.mem_keys_iff _ _).mpr (by rw [hget]; rfl)
          exact absurd (mem_removed.mpr ⟨hkey, rfl⟩) hnot
    · rw [hw.cursors]
      split
      · rfl
      case isFalse hnot =>
        cases hget : x.lastSeq.get? (instanceId, epoch) with
        | none =>
          rfl
        | some c =>
          have hcursor : (instanceId, epoch) ∈ x.lastSeq.keys :=
            (Dict.mem_keys_iff _ _).mpr (by rw [hget]; rfl)
          exact absurd (mem_removed.mpr ⟨howned _ hcursor rfl, rfl⟩) hnot

/-- Removing an instance always leaves the others alone.  It leaves nothing of the instance
exactly when each of its owners that has a cursor has an entry in the map of keys. -/
theorem instance_removed_exactly (ops : List Operation) (instanceId : String) :
    (Erased instanceId ((afterAll ops).removeInstance instanceId) ∧
      OthersKept instanceId (afterAll ops) ((afterAll ops).removeInstance instanceId)) ↔
    CursorsOwned instanceId (afterAll ops) := by
  have h := consistent_afterAll ops
  rw [← h.erased_iff instanceId]
  exact ⟨fun hboth => hboth.1, fun herased => ⟨herased, h.othersKept instanceId⟩⟩

/-- A full report without locations leaves a cursor and no entry, and the cursor stays. -/
theorem empty_report_keeps_cursor :
    ((afterAll [.installFullReport ("w0", "e0") 5 []]).removeInstance "w0").lastSeq.get?
      ("w0", "e0") = some 5 := by
  decide +kernel

end PrefixIndex

end PrismServe.Directory
