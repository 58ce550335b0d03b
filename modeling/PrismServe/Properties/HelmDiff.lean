import Mathlib.Data.Set.Card
import PrismServe.Worldctl.HelmValues

/-!
# What the reported difference of two values says

A position in a document is the list of the steps that lead to it.  `DiffersAt`
says, without any walk, where two documents differ: at an entry that one of them
lacks, or at two values that are not containers of one kind and are unequal.

The walk is a sequence of events: it compares two values, or reports a position.
With a limit it is a fold over these events (`walk_eq_foldl`), which lists the
first positions up to the limit and counts as cut when an event follows the one
that reached it.  So every listed path is a difference, a walk that was not cut
listed them all, and a walk that was cut listed them all exactly when it ends with
values that it no longer compares and that are equal.
-/

namespace PrismServe.Worldctl.Helm

open Lib

/-! ## Positions -/

/-- A step from a container to one of its entries. -/
inductive Step
  | key (k : String)
  | index (i : Nat)
  deriving DecidableEq

abbrev Position := List Step

/-- The entry of a container. -/
def child? : Json → Step → Option Json
  | .object fields, .key k => fields.lookup k
  | .array items, .index i => items[i]?
  | _, _ => none

/-- Both are objects, or both are arrays. -/
def SameKind : Json → Json → Prop
  | .object _, .object _ => True
  | .array _, .array _ => True
  | _, _ => False

instance (v w : Json) : Decidable (SameKind v w) := by
  unfold SameKind
  split <;> infer_instance

/-- The documents differ at the position. -/
inductive DiffersAt : Json → Json → Position → Prop
  | unequal {v w : Json} (hkind : ¬ SameKind v w) (hne : v ≠ w) : DiffersAt v w []
  | missing {v w : Json} {s : Step} (hkind : SameKind v w)
      (h : (child? v s).isSome ≠ (child? w s).isSome) : DiffersAt v w [s]
  | inside {v w v' w' : Json} {s : Step} {pos : Position} (hv : child? v s = some v')
      (hw : child? w s = some w') (h : DiffersAt v' w' pos) : DiffersAt v w (s :: pos)

/-- The text of a step. -/
def Step.text : Step → String
  | key k => k
  | index i => indexText i

/-- The path that leads to a position, empty at the root. -/
def pathOf (pos : Position) : String := pos.foldl (fun path s => child path s.text) ""

/-- The path as it is listed. -/
def pathText (pos : Position) : String := if pathOf pos = "" then "/" else pathOf pos

/-- The steps that the walk takes from two containers, in its order. -/
def steps : Json → Json → List Step
  | .object left, .object right => (unionKeys left right).map .key
  | .array left, .array right => (List.range (max left.length right.length)).map .index
  | _, _ => []

/-! ## Events -/

/-- An event of a walk. -/
inductive Event
  | compare
  | report (pos : Position)

/-- The event seen from the container. -/
def Event.under (s : Step) : Event → Event
  | compare => compare
  | report pos => report (s :: pos)

section Events

mutual

/-- The events of a walk without a limit. -/
def events : Json → Json → List Event
  | .object left, right =>
    match right with
    | .object right =>
      .compare :: (unionKeys left right).flatMap fun key =>
        match (fieldEvents left).lookup key, right.lookup key with
        | some below, some value => (below value).map (Event.under (.key key))
        | _, _ => [.report [.key key]]
    | _ => [.compare, .report []]
  | .array left, right =>
    match right with
    | .array right =>
      .compare :: (List.range (max left.length right.length)).flatMap fun index =>
        match (itemEvents left)[index]?, right[index]? with
        | some below, some value => (below value).map (Event.under (.index index))
        | _, _ => [.report [.index index]]
    | _ => [.compare, .report []]
  | left, right => if leafEqual left right then [.compare] else [.compare, .report []]

def fieldEvents : JsonObject → List (String × (Json → List Event))
  | [] => []
  | (key, value) :: rest => (key, events value) :: fieldEvents rest

def itemEvents : List Json → List (Json → List Event)
  | [] => []
  | value :: rest => events value :: itemEvents rest

end

end Events

theorem fieldEvents_eq_map (fields : JsonObject) :
    fieldEvents fields = fields.map fun e => (e.1, events e.2) := by
  induction fields with
  | nil =>
    rfl
  | cons e rest ih =>
    rw [fieldEvents, ih, List.map_cons]

theorem itemEvents_eq_map (items : List Json) : itemEvents items = items.map events := by
  induction items with
  | nil =>
    rfl
  | cons v rest ih =>
    rw [itemEvents, ih, List.map_cons]

/-- The events below one step. -/
def below (v w : Json) (s : Step) : List Event :=
  match child? v s, child? w s with
  | some v', some w' => (events v' w').map (Event.under s)
  | _, _ => [.report [s]]

/-- The events of containers and of other values. -/
theorem events_eq (v w : Json) :
    events v w =
      if SameKind v w then .compare :: (steps v w).flatMap (below v w)
      else if leafEqual v w then [.compare] else [.compare, .report []] := by
  cases v with
  | object left =>
    cases w with
    | object right =>
      rw [if_pos (show SameKind (.object left) (.object right) from trivial), events, steps,
        List.flatMap_map]
      simp only [fieldEvents_eq_map, Json.lookup_map]
      congr 1
      refine List.flatMap_congr fun key _ => ?_
      simp only [below, child?]
      cases left.lookup key <;> cases right.lookup key <;> rfl
    | _ =>
      rfl
  | array left =>
    cases w with
    | array right =>
      rw [if_pos (show SameKind (.array left) (.array right) from trivial), events, steps,
        List.flatMap_map]
      simp only [itemEvents_eq_map, List.getElem?_map]
      congr 1
      refine List.flatMap_congr fun index _ => ?_
      simp only [below, child?]
      cases left[index]? <;> cases right[index]? <;> rfl
    | _ =>
      rfl
  | _ =>
    cases w <;> rfl

/-! ## The walk follows the events -/

section Walks

variable {limit : Nat}

theorem fieldWalks_eq_map (fields : JsonObject) :
    fieldWalks limit fields = fields.map fun e => (e.1, walk limit e.2) := by
  induction fields with
  | nil =>
    rfl
  | cons e rest ih =>
    rw [fieldWalks, ih, List.map_cons]

theorem itemWalks_eq_map (items : List Json) :
    itemWalks limit items = items.map (walk limit) := by
  induction items with
  | nil =>
    rfl
  | cons v rest ih =>
    rw [itemWalks, ih, List.map_cons]

/-- What the walk does at one step. -/
def walkStep (limit : Nat) (v w : Json) (path : String) (d : Diff) (s : Step) : Diff :=
  match child? v s, child? w s with
  | some v', some w' => walk limit v' w' (child path s.text) d
  | _, _ => append limit (child path s.text) d

theorem walkKeys_eq_foldl (left right : JsonObject) (path : String) (keys : List String)
    (d : Diff) :
    walkKeys limit (fieldWalks limit left) right path keys d =
      (keys.map Step.key).foldl (walkStep limit (.object left) (.object right) path) d := by
  induction keys generalizing d with
  | nil =>
    rfl
  | cons key rest ih =>
    rw [walkKeys, ih, List.map_cons, List.foldl_cons]
    congr 1
    simp only [fieldWalks_eq_map, Json.lookup_map, walkStep, child?, Step.text]
    cases left.lookup key <;> cases right.lookup key <;> rfl

theorem walkIndices_eq_foldl (left right : List Json) (path : String) (indices : List Nat)
    (d : Diff) :
    walkIndices limit (itemWalks limit left) right path indices d =
      (indices.map Step.index).foldl (walkStep limit (.array left) (.array right) path) d := by
  induction indices generalizing d with
  | nil =>
    rfl
  | cons index rest ih =>
    rw [walkIndices, ih, List.map_cons, List.foldl_cons]
    congr 1
    simp only [itemWalks_eq_map, List.getElem?_map, walkStep, child?, Step.text]
    cases left[index]? <;> cases right[index]? <;> rfl

/-- The walk from containers and from other values. -/
theorem walk_eq (v w : Json) (path : String) (d : Diff) :
    walk limit v w path d =
      unlessFull limit d
        (if SameKind v w then (steps v w).foldl (walkStep limit v w path) d
        else if leafEqual v w then d else append limit path d) := by
  cases v with
  | object left =>
    cases w with
    | object right =>
      rw [if_pos (show SameKind (.object left) (.object right) from trivial), walk, steps,
        ← walkKeys_eq_foldl]
    | _ =>
      rfl
  | array left =>
    cases w with
    | array right =>
      rw [if_pos (show SameKind (.array left) (.array right) from trivial), walk, steps,
        ← walkIndices_eq_foldl]
    | _ =>
      rfl
  | _ =>
    cases w <;> rfl

/-- What an event does, when it is met below a position. -/
def follow (limit : Nat) (base : Position) (d : Diff) : Event → Diff
  | .compare => unlessFull limit d d
  | .report pos => append limit (pathOf (base ++ pos)) d

theorem pathOf_append_singleton (base : Position) (s : Step) :
    pathOf (base ++ [s]) = child (pathOf base) s.text := by
  simp [pathOf]

theorem follow_under (base : Position) (s : Step) (d : Diff) (e : Event) :
    follow limit base d (e.under s) = follow limit (base ++ [s]) d e := by
  cases e with
  | compare =>
    rfl
  | report pos =>
    simp [follow, Event.under]

/-- The limit is reached, and this was noted. -/
def Cut (limit : Nat) (d : Diff) : Prop := limit ≤ d.paths.length ∧ d.truncated = true

theorem follow_of_cut {base : Position} {d : Diff} (h : Cut limit d) (e : Event) :
    follow limit base d e = d := by
  have hsame : { d with truncated := true } = d := by
    rw [← h.2]
  cases e with
  | compare =>
    rw [follow, unlessFull, if_pos h.1, hsame]
  | report pos =>
    rw [follow, append, if_pos h.1, hsame]

theorem foldl_of_cut {base : Position} {d : Diff} (h : Cut limit d) (es : List Event) :
    es.foldl (follow limit base) d = d := by
  induction es with
  | nil =>
    rfl
  | cons e es ih =>
    rw [List.foldl_cons, follow_of_cut h, ih]

/-- The induction over the entries of a proper document. -/
theorem induct_entries {P : Json → Prop}
    (h : ∀ v, v.Proper → (∀ s v', child? v s = some v' → v'.Proper ∧ P v') → P v) {v : Json}
    (hv : v.Proper) : P v := by
  induction hv with
  | array hitems ih =>
    refine h _ (.array hitems) fun s v' hs => ?_
    cases s with
    | key k =>
      cases hs
    | index i =>
      have hmem := List.mem_of_getElem? hs
      exact ⟨hitems v' hmem, ih v' hmem⟩
  | object hkeys hvalues ih =>
    refine h _ (.object hkeys hvalues) fun s v' hs => ?_
    cases s with
    | key k =>
      have hmem := (Json.mem_iff_lookup hkeys k v').mpr hs
      exact ⟨hvalues _ hmem, ih _ hmem⟩
    | index i =>
      cases hs
  | null =>
    exact h _ .null fun s v' hs => by cases hs
  | bool b =>
    exact h _ (.bool b) fun s v' hs => by cases hs
  | integer n =>
    exact h _ (.integer n) fun s v' hs => by cases hs
  | string t =>
    exact h _ (.string t) fun s v' hs => by cases hs

theorem walk_eq_foldl {v : Json} (hv : v.Proper) (w : Json) (base : Position) (d : Diff) :
    walk limit v w (pathOf base) d = (events v w).foldl (follow limit base) d := by
  revert w base d
  refine induct_entries (P := fun v => ∀ w base d, walk limit v w (pathOf base) d =
    (events v w).foldl (follow limit base) d) ?_ hv
  intro v hv ih w base d
  have hcompare : follow limit base d .compare = unlessFull limit d d := rfl
  rw [walk_eq, events_eq]
  by_cases hfull : limit ≤ d.paths.length
  · -- the walk stops here, and the events below change nothing any more
    have hcut : Cut limit { d with truncated := true } := ⟨hfull, rfl⟩
    have hstop : follow limit base d .compare = { d with truncated := true } := by
      rw [hcompare, unlessFull, if_pos hfull]
    rw [unlessFull, if_pos hfull]
    split_ifs <;> rw [List.foldl_cons, hstop, foldl_of_cut hcut]
  · have hgo : follow limit base d .compare = d := by
      rw [hcompare, unlessFull, if_neg hfull]
    rw [unlessFull, if_neg hfull]
    split_ifs
    · rw [List.foldl_cons, hgo, List.foldl_flatMap]
      refine List.foldl_ext _ _ _ fun d s _ => ?_
      unfold walkStep below
      rw [← pathOf_append_singleton]
      split
      · rename_i v' w' hv' hw'
        rw [(ih s v' hv').2, List.foldl_map]
        refine List.foldl_ext _ _ _ fun d e _ => ?_
        rw [follow_under]
      · rfl
    · rw [List.foldl_cons, hgo, List.foldl_nil]
    · rw [List.foldl_cons, hgo, List.foldl_cons, List.foldl_nil, follow, List.append_nil]

end Walks

/-! ## What a fold over events lists -/

/-- The positions that are reported. -/
def reports (es : List Event) : List Position :=
  es.filterMap fun e =>
    match e with
    | .compare => none
    | .report pos => some pos

@[simp] theorem reports_nil : reports [] = [] := rfl

@[simp] theorem reports_compare (es : List Event) : reports (.compare :: es) = reports es := rfl

@[simp] theorem reports_report (pos : Position) (es : List Event) :
    reports (.report pos :: es) = pos :: reports es := rfl

@[simp] theorem reports_append (es es' : List Event) :
    reports (es ++ es') = reports es ++ reports es' := List.filterMap_append

theorem reports_under (s : Step) (es : List Event) :
    reports (es.map (Event.under s)) = (reports es).map (s :: ·) := by
  induction es with
  | nil =>
    rfl
  | cons e es ih =>
    cases e with
    | compare =>
      simpa [Event.under] using ih
    | report pos =>
      simpa [Event.under] using ih

theorem reports_flatMap {ι : Type} (f : ι → List Event) (l : List ι) :
    reports (l.flatMap f) = l.flatMap fun i => reports (f i) := by
  induction l with
  | nil =>
    rfl
  | cons i l ih =>
    rw [List.flatMap_cons, List.flatMap_cons, reports_append, ih]

section Listing

variable {limit : Nat}

/-- The first positions are listed, up to the limit; the walk counts as cut when an event follows
the one that reached the limit. -/
theorem foldl_follow (hlimit : 1 ≤ limit) (es : List Event) :
    (es.foldl (follow limit []) {}).paths = ((reports es).take limit).map pathText ∧
      ((es.foldl (follow limit []) {}).truncated = true ↔
        limit ≤ (reports es.dropLast).length) := by
  induction es using List.reverseRecOn with
  | nil =>
    exact ⟨by simp, by simp; omega⟩
  | append_singleton es e ih =>
    obtain ⟨hpaths, htruncated⟩ := ih
    rw [List.foldl_append, List.foldl_cons, List.foldl_nil, List.dropLast_concat]
    set d := es.foldl (follow limit []) {} with hd
    have hlength : d.paths.length = min limit (reports es).length := by
      rw [hpaths, List.length_map, List.length_take]
    have hfull : limit ≤ d.paths.length ↔ limit ≤ (reports es).length := by
      rw [hlength]
      omega
    have hbefore : (reports es.dropLast).length ≤ (reports es).length :=
      ((List.dropLast_sublist es).filterMap _).length_le
    cases e with
    | compare =>
      rw [follow, unlessFull, reports_append, reports_compare, reports_nil, List.append_nil]
      split_ifs with h
      · exact ⟨hpaths, iff_of_true rfl (hfull.mp h)⟩
      · refine ⟨hpaths, htruncated.trans ?_⟩
        rw [hfull] at h
        exact iff_of_false (by omega) h
    | report pos =>
      rw [follow, append, reports_append, reports_report, reports_nil, List.nil_append]
      by_cases h : limit ≤ d.paths.length
      · rw [if_pos h]
        refine ⟨?_, iff_of_true rfl (hfull.mp h)⟩
        rw [List.take_append_of_le_length (hfull.mp h)]
        exact hpaths
      · rw [if_neg h]
        rw [hfull] at h
        refine ⟨?_, htruncated.trans (iff_of_false (by omega) h)⟩
        rw [List.take_of_length_le (by rw [List.length_append, List.length_singleton]; omega),
          List.map_append, hpaths, List.take_of_length_le (by omega)]
        rfl

end Listing

/-! ## The positions that are reported -/

/-- Where the walk finds differences. -/
def diffs (v w : Json) : List Position := reports (events v w)

variable {v w : Json} {pos pos' : Position} {s : Step}

theorem leafEqual_iff (hv : v.Proper) (hkind : ¬ SameKind v w) : leafEqual v w = true ↔ v = w := by
  cases hv with
  | array hitems =>
    cases w <;> simp_all [leafEqual, SameKind]
  | object hkeys hvalues =>
    cases w <;> simp_all [leafEqual, SameKind]
  | _ =>
    cases w <;> simp [leafEqual]

theorem mem_unionKeys (left right : JsonObject) (key : String) :
    key ∈ unionKeys left right ↔ key ∈ left.map Prod.fst ∨ key ∈ right.map Prod.fst := by
  rw [unionKeys, List.mem_insertionSort, List.mem_dedup, List.mem_append]

/-- The walk takes every step that leads to an entry of one of the two. -/
theorem mem_steps (hkind : SameKind v w) (s : Step) :
    s ∈ steps v w ↔ (child? v s).isSome ∨ (child? w s).isSome := by
  cases v with
  | object left =>
    cases w with
    | object right =>
      cases s with
      | key k =>
        simp only [steps, child?, Json.isSome_lookup, ← mem_unionKeys]
        exact List.mem_map_of_injective fun _ _ h => by injection h
      | index i =>
        simp [steps, child?]
    | _ =>
      exact hkind.elim
  | array left =>
    cases w with
    | array right =>
      cases s with
      | key k =>
        simp [steps, child?]
      | index i =>
        simp [steps, child?]
    | _ =>
      exact hkind.elim
  | _ =>
    exact hkind.elim

theorem nodup_steps (v w : Json) : (steps v w).Nodup := by
  unfold steps
  split
  · refine List.Nodup.map (fun _ _ h => by injection h) ?_
    exact ((List.perm_insertionSort _ _).nodup_iff).mpr (List.nodup_dedup _)
  · exact List.Nodup.map (fun _ _ h => by injection h) List.nodup_range
  · exact List.nodup_nil

variable {v w v' w' : Json} {pos : Position}

theorem sameKind_of_entry (hv : child? v s = some v') (hw : child? w s = some w') :
    SameKind v w := by
  cases v <;> cases w <;> cases s <;> simp_all [child?, SameKind]

theorem reports_below_of_some (hv : child? v s = some v') (hw : child? w s = some w') :
    reports (below v w s) = (diffs v' w').map (s :: ·) := by
  rw [below, hv, hw]
  exact reports_under s _

theorem reports_below_of_none (h : child? v s = none ∨ child? w s = none) :
    reports (below v w s) = [[s]] := by
  unfold below
  split
  · rename_i hv hw
    rcases h with h | h
    · rw [h] at hv
      cases hv
    · rw [h] at hw
      cases hw
  · rfl

/-- Both have the entry, or one of them lacks it. -/
theorem entry_cases (v w : Json) (s : Step) :
    (∃ v' w', child? v s = some v' ∧ child? w s = some w') ∨
      (child? v s = none ∨ child? w s = none) := by
  cases hv : child? v s <;> cases hw : child? w s <;> simp

theorem diffs_of_sameKind (h : SameKind v w) :
    diffs v w = (steps v w).flatMap fun s => reports (below v w s) := by
  rw [diffs, events_eq, if_pos h, reports_compare, reports_flatMap]

theorem diffs_of_not_sameKind (h : ¬ SameKind v w) :
    diffs v w = if leafEqual v w then [] else [[]] := by
  rw [diffs, events_eq, if_neg h]
  split_ifs <;> rfl

/-- The positions at which the documents differ, and no others, are reported. -/
theorem mem_diffs {v : Json} (hv : v.Proper) (w : Json) (pos : Position) :
    pos ∈ diffs v w ↔ DiffersAt v w pos := by
  revert w pos
  refine induct_entries (P := fun v => ∀ w pos, pos ∈ diffs v w ↔ DiffersAt v w pos) ?_ hv
  intro v hv ih w pos
  by_cases hkind : SameKind v w
  · rw [diffs_of_sameKind hkind]
    simp only [List.mem_flatMap, mem_steps hkind]
    constructor
    · rintro ⟨s, hs, hpos⟩
      rcases entry_cases v w s with ⟨v', w', hv', hw'⟩ | hnone
      · rw [reports_below_of_some hv' hw'] at hpos
        obtain ⟨pos', hpos', rfl⟩ := List.mem_map.mp hpos
        exact .inside hv' hw' (((ih s v' hv').2 w' pos').mp hpos')
      · rw [reports_below_of_none hnone] at hpos
        obtain rfl := List.mem_singleton.mp hpos
        refine .missing hkind fun heq => ?_
        rcases hnone with hnone | hnone <;> simp_all
    · intro h
      cases h with
      | unequal hnot =>
        exact absurd hkind hnot
      | @missing _ _ s _ hs =>
        have hnone : child? v s = none ∨ child? w s = none := by
          rcases entry_cases v w s with ⟨v', w', hv', hw'⟩ | hnone
          · simp [hv', hw'] at hs
          · exact hnone
        refine ⟨s, ?_, by rw [reports_below_of_none hnone]; exact List.mem_singleton.mpr rfl⟩
        by_contra hnot
        rw [not_or, Bool.not_eq_true, Bool.not_eq_true] at hnot
        exact hs (hnot.1.trans hnot.2.symm)
      | @inside _ _ v' w' s pos' hv' hw' h =>
        refine ⟨s, .inl (by rw [hv']; rfl), ?_⟩
        rw [reports_below_of_some hv' hw']
        exact List.mem_map_of_mem (((ih s v' hv').2 w' pos').mpr h)
  · rw [diffs_of_not_sameKind hkind]
    have hequal := leafEqual_iff hv hkind
    constructor
    · intro hpos
      split_ifs at hpos with hleaf
      · cases hpos
      · obtain rfl := List.mem_singleton.mp hpos
        exact .unequal hkind fun heq => hleaf (hequal.mpr heq)
    · intro h
      cases h with
      | unequal _ hne =>
        rw [if_neg fun hleaf => hne (hequal.mp hleaf)]
        exact List.mem_singleton.mpr rfl
      | missing hsame =>
        exact absurd hsame hkind
      | inside hv' hw' =>
        exact absurd (sameKind_of_entry hv' hw') hkind

/-- No position is reported twice. -/
theorem nodup_diffs {v : Json} (hv : v.Proper) (w : Json) : (diffs v w).Nodup := by
  revert w
  refine induct_entries (P := fun v => ∀ w, (diffs v w).Nodup) ?_ hv
  intro v hv ih w
  by_cases hkind : SameKind v w
  · -- the positions below different steps start differently
    have hstart : ∀ s, ∀ pos ∈ reports (below v w s), pos.head? = some s := by
      intro s pos hpos
      rcases entry_cases v w s with ⟨v', w', hv', hw'⟩ | hnone
      · rw [reports_below_of_some hv' hw'] at hpos
        obtain ⟨pos', -, rfl⟩ := List.mem_map.mp hpos
        rfl
      · rw [reports_below_of_none hnone] at hpos
        obtain rfl := List.mem_singleton.mp hpos
        rfl
    rw [diffs_of_sameKind hkind, List.nodup_flatMap]
    refine ⟨fun s _ => ?_, (nodup_steps v w).imp_of_mem fun _ _ hne pos hpos hpos' => ?_⟩
    · rcases entry_cases v w s with ⟨v', w', hv', hw'⟩ | hnone
      · rw [reports_below_of_some hv' hw']
        exact ((ih s v' hv').2 w').map (List.cons_injective)
      · rw [reports_below_of_none hnone]
        exact List.nodup_singleton _
    · exact hne (Option.some.inj ((hstart _ _ hpos).symm.trans (hstart _ _ hpos')))
  · rw [diffs_of_not_sameKind hkind]
    split_ifs <;> simp

/-! ## Equal documents -/

/-- Containers of one kind are the same when their entries are. -/
theorem sortKeys_eq_iff_entries (hv : v.Proper) (hw : w.Proper) (hkind : SameKind v w) :
    v.sortKeys = w.sortKeys ↔
      ∀ s, (child? v s).map Json.sortKeys = (child? w s).map Json.sortKeys := by
  cases hv with
  | object hkeys hvalues =>
    cases hw with
    | object hkeys' hvalues' =>
      rw [Json.sortKeys_object_eq_iff hkeys hkeys']
      constructor
      · intro h s
        cases s with
        | key k =>
          exact h k
        | index i =>
          rfl
      · intro h k
        exact h (.key k)
    | _ =>
      exact hkind.elim
  | array hitems =>
    cases hw with
    | array hitems' =>
      rw [Json.sortKeys_array, Json.sortKeys_array, Json.array.injEq]
      constructor
      · intro h s
        cases s with
        | key k =>
          rfl
        | index i =>
          simpa [child?] using congrArg (fun l => l[i]?) h
      · intro h
        refine List.ext_getElem? fun i => ?_
        simpa [child?] using h (.index i)
    | _ =>
      exact hkind.elim
  | _ =>
    exact hkind.elim

/-- Other values are the same when they are equal. -/
theorem sortKeys_eq_iff_eq (hv : v.Proper) (hw : w.Proper) (hkind : ¬ SameKind v w) :
    v.sortKeys = w.sortKeys ↔ v = w := by
  refine ⟨fun h => ?_, fun h => by rw [h]⟩
  cases hv <;> cases hw <;> simp_all [SameKind, Json.sortKeys]

/-- Nothing is reported exactly when the documents are the same up to the order of fields. -/
theorem diffs_eq_nil_iff (hv : v.Proper) (hw : w.Proper) :
    diffs v w = [] ↔ v.sortKeys = w.sortKeys := by
  refine induct_entries (P := fun v => ∀ w, w.Proper → (diffs v w = [] ↔ v.sortKeys = w.sortKeys))
    ?_ hv w hw
  intro v hv ih w hw
  by_cases hkind : SameKind v w
  · rw [diffs_of_sameKind hkind, List.flatMap_eq_nil_iff, sortKeys_eq_iff_entries hv hw hkind]
    have hentry : ∀ s v', child? w s = some v' → v'.Proper := by
      intro s v' hs
      exact (induct_entries (P := fun w => ∀ s v', child? w s = some v' → v'.Proper)
        (fun w _ h s v' hs => (h s v' hs).1) hw) s v' hs
    refine forall_congr' fun s => ?_
    rcases entry_cases v w s with ⟨v', w', hv', hw'⟩ | hnone
    · have hmem : s ∈ steps v w := (mem_steps hkind s).mpr (.inl (by rw [hv']; rfl))
      rw [reports_below_of_some hv' hw', List.map_eq_nil_iff, hv', hw',
        (ih s v' hv').2 w' (hentry s w' hw')]
      simp [hmem]
    · rw [reports_below_of_none hnone]
      simp only [mem_steps hkind]
      rcases hnone with hnone | hnone
      · cases hs : child? w s <;> simp [hnone]
      · cases hs : child? v s <;> simp [hnone]
  · rw [diffs_of_not_sameKind hkind, sortKeys_eq_iff_eq hv hw hkind, ← leafEqual_iff hv hkind]
    split_ifs with h <;> simp [h]

/-! ## Paths -/

/-- A step in the text of a path. -/
def escaped (s : Step) : List Char := s.text.toList.flatMap escapeChar

theorem toList_pathOf (pos : Position) :
    (pathOf pos).toList = pos.flatMap fun s => '/' :: escaped s := by
  suffices h : ∀ path : String, (pos.foldl (fun path s => child path s.text) path).toList =
      path.toList ++ pos.flatMap fun s => '/' :: escaped s from h ""
  induction pos with
  | nil =>
    simp
  | cons s pos ih =>
    intro path
    rw [List.foldl_cons, ih, List.flatMap_cons, child]
    simp [escaped]

theorem escapeChar_append {c d : Char} {r r' : List Char}
    (h : escapeChar c ++ r = escapeChar d ++ r') : c = d ∧ r = r' := by
  unfold escapeChar at h
  split_ifs at h <;> simp_all [eq_comm]

theorem escapeChar_ne_nil (c : Char) : escapeChar c ≠ [] := by
  unfold escapeChar
  split_ifs <;> simp

theorem flatMap_escapeChar_injective {l l' : List Char}
    (h : l.flatMap escapeChar = l'.flatMap escapeChar) : l = l' := by
  induction l generalizing l' with
  | nil =>
    cases l' with
    | nil =>
      rfl
    | cons d l' =>
      simp only [List.flatMap_nil, List.flatMap_cons] at h
      exact absurd (List.append_eq_nil_iff.mp h.symm).1 (escapeChar_ne_nil d)
  | cons c l ih =>
    cases l' with
    | nil =>
      simp only [List.flatMap_nil, List.flatMap_cons] at h
      exact absurd (List.append_eq_nil_iff.mp h).1 (escapeChar_ne_nil c)
    | cons d l' =>
      rw [List.flatMap_cons, List.flatMap_cons] at h
      obtain ⟨rfl, hrest⟩ := escapeChar_append h
      rw [ih hrest]

theorem slash_not_mem_escaped (s : Step) : '/' ∉ escaped s := by
  intro h
  obtain ⟨c, -, hc⟩ := List.mem_flatMap.mp h
  unfold escapeChar at hc
  split_ifs at hc <;> simp_all [eq_comm]

theorem indexText_injective {i j : Nat} (h : indexText i = indexText j) : i = j := by
  have hdigits := String.ofList_injective h
  rw [← Nat.ofDigitChars_ten_toDigits (n := i), hdigits, Nat.ofDigitChars_ten_toDigits]

/-- The text of the first step ends where the next one starts. -/
theorem takeWhile_escaped (s : Step) (pos : Position) :
    (escaped s ++ pos.flatMap fun s => '/' :: escaped s).takeWhile (· ≠ '/') = escaped s := by
  have hall : ∀ c ∈ escaped s, decide (c ≠ '/') = true := by
    intro c hc
    simpa using fun heq : c = '/' => slash_not_mem_escaped s (heq ▸ hc)
  rw [List.takeWhile_append_of_pos hall]
  cases pos with
  | nil =>
    simp
  | cons t pos =>
    simp

theorem map_text_of_flatMap
    (h : (pos.flatMap fun s => '/' :: escaped s) = pos'.flatMap fun s => '/' :: escaped s) :
    pos.map Step.text = pos'.map Step.text := by
  induction pos generalizing pos' with
  | nil =>
    cases pos' with
    | nil =>
      rfl
    | cons t pos' =>
      simp at h
  | cons s pos ih =>
    cases pos' with
    | nil =>
      simp at h
    | cons t pos' =>
      rw [List.flatMap_cons, List.flatMap_cons, List.cons_append, List.cons_append,
        List.cons.injEq] at h
      have hescaped : escaped s = escaped t := by
        rw [← takeWhile_escaped s pos, h.2, takeWhile_escaped]
      have htext : s.text = t.text :=
        String.toList_injective (flatMap_escapeChar_injective hescaped)
      rw [List.map_cons, List.map_cons, htext,
        ih (List.append_cancel_left (hescaped ▸ h.2))]

theorem pathOf_eq_empty : pathOf pos = "" ↔ pos = [] := by
  rw [← String.toList_inj, toList_pathOf]
  cases pos with
  | nil =>
    simp
  | cons s pos =>
    simp

/-- A step from a container of a kind is told by its text. -/
theorem step_eq_of_text {s t : Step} (hkind : SameKind v w) (hs : s ∈ steps v w)
    (ht : t ∈ steps v w) (h : s.text = t.text) : s = t := by
  cases v with
  | object left =>
    cases w with
    | object right =>
      obtain ⟨k, -, rfl⟩ := List.mem_map.mp hs
      obtain ⟨k', -, rfl⟩ := List.mem_map.mp ht
      exact congrArg Step.key h
    | _ =>
      exact hkind.elim
  | array left =>
    cases w with
    | array right =>
      obtain ⟨i, -, rfl⟩ := List.mem_map.mp hs
      obtain ⟨j, -, rfl⟩ := List.mem_map.mp ht
      exact congrArg Step.index (indexText_injective h)
    | _ =>
      exact hkind.elim
  | _ =>
    exact hkind.elim

theorem DiffersAt.nil_iff (h : DiffersAt v w pos) : pos = [] ↔ ¬ SameKind v w := by
  cases h with
  | unequal hkind _ =>
    exact iff_of_true rfl hkind
  | missing hkind _ =>
    exact iff_of_false (by simp) (not_not.mpr hkind)
  | inside hv hw _ =>
    exact iff_of_false (by simp) (not_not.mpr (sameKind_of_entry hv hw))

theorem DiffersAt.mem_steps_head (h : DiffersAt v w (s :: pos)) : SameKind v w ∧ s ∈ steps v w := by
  cases h with
  | missing hkind hs =>
    refine ⟨hkind, (mem_steps hkind s).mpr ?_⟩
    by_contra hnot
    rw [not_or, Bool.not_eq_true, Bool.not_eq_true] at hnot
    exact hs (hnot.1.trans hnot.2.symm)
  | inside hv hw _ =>
    have hkind := sameKind_of_entry hv hw
    exact ⟨hkind, (mem_steps hkind s).mpr (.inl (by rw [hv]; rfl))⟩

theorem eq_of_map_text (h : DiffersAt v w pos) (h' : DiffersAt v w pos')
    (htext : pos.map Step.text = pos'.map Step.text) : pos = pos' := by
  induction pos generalizing v w pos' with
  | nil =>
    simpa [eq_comm] using htext
  | cons s pos ih =>
    cases pos' with
    | nil =>
      simp at htext
    | cons t pos' =>
      rw [List.map_cons, List.map_cons, List.cons.injEq] at htext
      obtain ⟨hkind, hs⟩ := h.mem_steps_head
      obtain rfl := step_eq_of_text hkind hs h'.mem_steps_head.2 htext.1
      cases h with
      | missing _ _ =>
        rw [List.map_eq_nil_iff.mp htext.2.symm]
      | inside hv hw h =>
        cases h' with
        | missing _ hone =>
          simp [hv, hw] at hone
        | inside hv' hw' h' =>
          rw [hv] at hv'
          rw [hw] at hw'
          cases hv'
          cases hw'
          rw [ih h h' htext.2]

/-- Positions of one difference have different paths. -/
theorem pathText_injective (h : DiffersAt v w pos) (h' : DiffersAt v w pos')
    (htext : pathText pos = pathText pos') : pos = pos' := by
  by_cases hkind : SameKind v w
  · have hpos : pos ≠ [] := fun hnil => h.nil_iff.mp hnil hkind
    have hpos' : pos' ≠ [] := fun hnil => h'.nil_iff.mp hnil hkind
    rw [pathText, if_neg (mt pathOf_eq_empty.mp hpos), pathText,
      if_neg (mt pathOf_eq_empty.mp hpos'), ← String.toList_inj, toList_pathOf,
      toList_pathOf] at htext
    exact eq_of_map_text h h' (map_text_of_flatMap htext)
  · rw [h.nil_iff.mpr hkind, h'.nil_iff.mpr hkind]

/-! ## Where the walk ends -/

/-- The last values that the walk compares are equal, or containers without entries. -/
inductive EndsEqual : Json → Json → Prop
  | leaf {v w : Json} (hkind : ¬ SameKind v w) (h : v = w) : EndsEqual v w
  | empty {v w : Json} (hkind : SameKind v w) (h : steps v w = []) : EndsEqual v w
  | inside {v w v' w' : Json} {s : Step} (hlast : (steps v w).getLast? = some s)
      (hv : child? v s = some v') (hw : child? w s = some w') (h : EndsEqual v' w') :
      EndsEqual v w

theorem events_ne_nil (v w : Json) : events v w ≠ [] := by
  rw [events_eq]
  split_ifs <;> simp

theorem below_ne_nil (v w : Json) (s : Step) : below v w s ≠ [] := by
  unfold below
  split
  · simpa using events_ne_nil _ _
  · simp

theorem getLast?_flatMap_below (v w : Json) (l : List Step) :
    (l.flatMap (below v w)).getLast? = l.getLast?.bind fun s => (below v w s).getLast? := by
  cases l using List.reverseRecOn with
  | nil =>
    rfl
  | append_singleton l s =>
    rw [List.flatMap_append, List.flatMap_singleton, List.getLast?_concat,
      List.getLast?_append_of_ne_nil _ (below_ne_nil v w s)]
    rfl

theorem getLast?_below_of_some (hv : child? v s = some v') (hw : child? w s = some w') :
    (below v w s).getLast? = some .compare ↔ (events v' w').getLast? = some .compare := by
  rw [below, hv, hw]
  simp only [List.getLast?_map, Option.map_eq_some_iff]
  constructor
  · rintro ⟨e, he, hunder⟩
    cases e with
    | compare =>
      exact he
    | report pos =>
      cases hunder
  · exact fun h => ⟨.compare, h, rfl⟩

theorem getLast?_below_of_none (h : child? v s = none ∨ child? w s = none) :
    (below v w s).getLast? ≠ some .compare := by
  unfold below
  split
  · simp_all
  · simp

/-- The last event is a comparison exactly when the walk ends so. -/
theorem getLast?_events {v : Json} (hv : v.Proper) (w : Json) :
    (events v w).getLast? = some .compare ↔ EndsEqual v w := by
  revert w
  refine induct_entries
    (P := fun v => ∀ w, (events v w).getLast? = some .compare ↔ EndsEqual v w) ?_ hv
  intro v hv ih w
  rw [events_eq]
  by_cases hkind : SameKind v w
  · rw [if_pos hkind]
    cases hlast : (steps v w).getLast? with
    | none =>
      have hnil := List.getLast?_eq_none_iff.mp hlast
      exact iff_of_true (by rw [hnil]; rfl) (.empty hkind hnil)
    | some s =>
      have hevents : (Event.compare :: (steps v w).flatMap (below v w)).getLast? =
          (below v w s).getLast? := by
        have hsome : ((steps v w).flatMap (below v w)).getLast? = (below v w s).getLast? := by
          rw [getLast?_flatMap_below, hlast]
          rfl
        rw [List.getLast?_cons, hsome]
        cases hbelow : (below v w s).getLast? with
        | none =>
          exact absurd (List.getLast?_eq_none_iff.mp hbelow) (below_ne_nil v w s)
        | some e =>
          rfl
      rw [hevents]
      rcases entry_cases v w s with ⟨v', w', hv', hw'⟩ | hnone
      · rw [getLast?_below_of_some hv' hw', (ih s v' hv').2 w']
        refine ⟨fun h => .inside hlast hv' hw' h, fun h => ?_⟩
        cases h with
        | leaf hnot _ =>
          exact absurd hkind hnot
        | empty _ hnil =>
          rw [hnil] at hlast
          cases hlast
        | inside hlast' hv'' hw'' h =>
          rw [hlast] at hlast'
          cases hlast'
          rw [hv'] at hv''
          rw [hw'] at hw''
          cases hv''
          cases hw''
          exact h
      · refine iff_of_false (getLast?_below_of_none hnone) fun h => ?_
        cases h with
        | leaf hnot _ =>
          exact hnot hkind
        | empty _ hnil =>
          rw [hnil] at hlast
          cases hlast
        | inside hlast' hv'' hw'' _ =>
          rw [hlast] at hlast'
          cases hlast'
          simp [hv'', hw''] at hnone
  · have hequal := leafEqual_iff hv hkind
    rw [if_neg hkind]
    split_ifs with hleaf
    · exact iff_of_true rfl (.leaf hkind (hequal.mp hleaf))
    · refine iff_of_false (by simp) fun h => ?_
      cases h with
      | leaf _ heq =>
        exact hleaf (hequal.mpr heq)
      | empty hsame _ =>
        exact hkind hsame
      | inside _ hv' hw' _ =>
        exact hkind (sameKind_of_entry hv' hw')

/-- How many positions are reported before the last event. -/
theorem le_reports_dropLast_iff {es : List Event} (hne : es ≠ []) (limit : Nat) :
    limit ≤ (reports es.dropLast).length ↔
      limit < (reports es).length ∨
        ((reports es).length = limit ∧ es.getLast? = some .compare) := by
  cases es using List.reverseRecOn with
  | nil =>
    exact absurd rfl hne
  | append_singleton es e =>
    rw [List.dropLast_concat, List.getLast?_concat, reports_append, List.length_append]
    cases e with
    | compare =>
      simp
      omega
    | report pos =>
      simp

/-! ## The difference that is listed -/

theorem helmValueDiffPaths_eq {limit : Nat} {v : Json} (hv : v.Proper) (w : Json) :
    helmValueDiffPaths limit v w = (events v w).foldl (follow limit []) {} :=
  walk_eq_foldl hv w [] {}

theorem ncard_differsAt {v : Json} (hv : v.Proper) (w : Json) :
    {pos | DiffersAt v w pos}.ncard = (diffs v w).length := by
  have hset : {pos | DiffersAt v w pos} = ((diffs v w).toFinset : Set Position) := by
    ext pos
    simp [mem_diffs hv]
  rw [hset, Set.ncard_coe_finset, List.toFinset_card_of_nodup (nodup_diffs hv w)]

/-- For documents without floats and a limit of at least one, the list is empty exactly when the
values are canonically equal, every path is that of a position at which they differ, the paths of
distinct positions are distinct and there are at most as many as the limit.  The walk counts as
cut when more positions differ than are listed, and also when the limit is met exactly and the
last values of the walk, which it no longer compares, are equal. -/
theorem helmValueDiffPaths_sound (d : Json.Digest) (limit : Nat) (hlimit : 1 ≤ limit) (v w : Json)
    (hv : v.Proper) (hw : w.Proper) :
    ((helmValueDiffPaths limit v w).paths = [] ↔ valuesEqual d v w = true) ∧
      (∀ path ∈ (helmValueDiffPaths limit v w).paths, ∃ pos, DiffersAt v w pos ∧
        path = pathText pos) ∧
      (∀ pos pos', DiffersAt v w pos → DiffersAt v w pos' → pathText pos = pathText pos' →
        pos = pos') ∧
      (helmValueDiffPaths limit v w).paths.Nodup ∧
      (helmValueDiffPaths limit v w).paths.length ≤ limit ∧
      ((helmValueDiffPaths limit v w).truncated = true ↔
        (helmValueDiffPaths limit v w).paths.length < {pos | DiffersAt v w pos}.ncard ∨
          ({pos | DiffersAt v w pos}.ncard = limit ∧ EndsEqual v w)) := by
  obtain ⟨hpaths, htruncated⟩ := foldl_follow hlimit (events v w)
  rw [← helmValueDiffPaths_eq hv w] at hpaths htruncated
  have hmem : ∀ pos ∈ (diffs v w).take limit, DiffersAt v w pos := fun pos hpos =>
    (mem_diffs hv w pos).mp (List.mem_of_mem_take hpos)
  have hlength : (helmValueDiffPaths limit v w).paths.length = min limit (diffs v w).length := by
    rw [hpaths, List.length_map, List.length_take]
    rfl
  refine ⟨?_, ?_, fun pos pos' => pathText_injective, ?_, ?_, ?_⟩
  · rw [valuesEqual, decide_eq_true_iff, Json.dumps_eq_iff hv hw, ← diffs_eq_nil_iff hv hw,
      ← List.length_eq_zero_iff, hlength, ← List.length_eq_zero_iff]
    omega
  · intro path hpath
    rw [hpaths] at hpath
    obtain ⟨pos, hpos, rfl⟩ := List.mem_map.mp hpath
    exact ⟨pos, hmem pos hpos, rfl⟩
  · rw [hpaths]
    refine List.Nodup.map_on ?_ ((nodup_diffs hv w).sublist (List.take_sublist limit _))
    intro pos hpos pos' hpos' htext
    exact pathText_injective (hmem pos hpos) (hmem pos' hpos') htext
  · rw [hlength]
    omega
  · rw [htruncated, le_reports_dropLast_iff (events_ne_nil v w), getLast?_events hv,
      ncard_differsAt hv, hlength]
    change limit < (diffs v w).length ∨ ((diffs v w).length = limit ∧ EndsEqual v w) ↔ _
    refine or_congr ?_ Iff.rfl
    omega

theorem proper_pair (a b : Int) : (Json.array [.integer a, .integer b]).Proper := by
  refine .array fun v hv => ?_
  simp only [List.mem_cons, List.not_mem_nil, or_false] at hv
  rcases hv with rfl | rfl
  · exact .integer a
  · exact .integer b

/-- The theorem at two lists of which one path is listed, so that they are not equal. -/
theorem helmValueDiffPaths_sound_pair :
    (1 ≤ 1 ∧ (Json.array [.integer 1, .integer 2]).Proper ∧
        (Json.array [.integer 9, .integer 2]).Proper) ∧
      valuesEqual ⟨id, fun _ => []⟩ (.array [.integer 1, .integer 2])
        (.array [.integer 9, .integer 2]) ≠ true := by
  refine ⟨⟨le_rfl, proper_pair 1 2, proper_pair 9 2⟩, fun hequal => ?_⟩
  have hpaths := (helmValueDiffPaths_sound ⟨id, fun _ => []⟩ 1 le_rfl _ _ (proper_pair 1 2)
    (proper_pair 9 2)).1.mpr hequal
  revert hpaths
  decide +kernel

/-- The second items are equal, and the walk that listed the only difference still counts as
cut. -/
theorem truncated_without_more_differences :
    (helmValueDiffPaths 1 (.array [.integer 1, .integer 2]) (.array [.integer 9, .integer 2])) =
        { paths := ["/0"], truncated := true } ∧
      {pos | DiffersAt (.array [.integer 1, .integer 2]) (.array [.integer 9, .integer 2])
        pos}.ncard = 1 := by
  refine ⟨by decide +kernel, ?_⟩
  rw [ncard_differsAt (proper_pair 1 2)]
  rfl

end PrismServe.Worldctl.Helm
