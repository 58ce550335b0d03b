import Mathlib.Data.List.Dedup
import Mathlib.Data.List.DropRight
import Mathlib.Data.List.Perm.Basic
import Mathlib.Data.List.Sort
import Mathlib.Tactic

/-!
# Lists up to order

Lists that are compared after sorting them by a key, after mapping their items, or
after relating them item by item; how many items of a kind there are, if each of
them is met only after few others; and the items that were added last.
-/

namespace PrismServe.Lib

/-! ## Sorting by a key -/

/-- Lists have the same sorted form exactly when they are permutations of each other, if only
equal items have equal keys. -/
theorem insertionSort_key_eq_iff {α β : Type*} [LinearOrder β] {key : α → β} {l l' : List α}
    (hkey : ∀ a ∈ l, ∀ b ∈ l, key a = key b → a = b) :
    l.insertionSort (fun a b => key a ≤ key b) = l'.insertionSort (fun a b => key a ≤ key b) ↔
      l.Perm l' := by
  have hsort := fun l : List α => List.perm_insertionSort (fun a b => key a ≤ key b) l
  constructor
  · intro h
    exact ((hsort l).symm.trans (h ▸ List.Perm.refl _)).trans (hsort l')
  · intro h
    have hsorted := fun l : List α => List.pairwise_insertionSort (fun a b => key a ≤ key b) l
    refine List.Perm.eq_of_pairwise ?_ (hsorted l) (hsorted l')
      (((hsort l).trans h).trans (hsort l').symm)
    intro a b ha hb hab hba
    have hb' : b ∈ l := h.mem_iff.mpr ((hsort l').mem_iff.mp hb)
    exact hkey a ((hsort l).mem_iff.mp ha) b hb' (le_antisymm hab hba)

/-- Lists are the same under a function, up to order, when one of them can be reordered to agree
with the other item by item. -/
theorem map_perm_map_iff {α β : Type*} {f : α → β} {l l' : List α} :
    (l.map f).Perm (l'.map f) ↔ ∃ mid : List α, l.map f = mid.map f ∧ mid.Perm l' := by
  have h := congrFun (congrFun (List.eq_map_comp_perm f) (l.map f)) l'
  exact iff_of_eq h.symm

/-- Functions that identify the same items compare lists in the same way. -/
theorem map_eq_map_congr {α β γ : Type*} {f : α → β} {g : α → γ}
    (hsame : ∀ a b, f a = f b ↔ g a = g b) (l l' : List α) :
    l.map f = l'.map f ↔ l.map g = l'.map g := by
  simp only [← List.forall₂_eq_eq_eq, List.forall₂_map_left_iff, List.forall₂_map_right_iff, hsame]

theorem map_perm_map_congr {α β γ : Type*} {f : α → β} {g : α → γ}
    (hsame : ∀ a b, f a = f b ↔ g a = g b) (l l' : List α) :
    (l.map f).Perm (l'.map f) ↔ (l.map g).Perm (l'.map g) := by
  rw [map_perm_map_iff, map_perm_map_iff]
  exact exists_congr fun mid => and_congr_left' (map_eq_map_congr hsame l mid)

/-! ## Relations item by item -/

/-- Relations between lists are composed item by item. -/
theorem forall₂_compose {α β γ : Type*} {R : α → β → Prop} {S : β → γ → Prop} {T : α → γ → Prop}
    (hcomp : ∀ x y z, R x y → S y z → T x z) {l : List α} {m : List β} {n : List γ}
    (h : List.Forall₂ R l m) (h' : List.Forall₂ S m n) : List.Forall₂ T l n := by
  induction h generalizing n with
  | nil =>
    cases h'
    exact .nil
  | cons hxy _ ih =>
    cases h' with
    | cons hyz hrest =>
      exact .cons (hcomp _ _ _ hxy hyz) (ih hrest)

/-- Lists that are parsed item by item are the same up to order, and up to what the parser
ignores, exactly when the results are permutations of each other. -/
theorem exists_perm_forall₂_iff {α β : Type*} {P P' : α → β → Prop} {R : α → α → Prop}
    (hR : ∀ x y a b, P x a → P' y b → (R x y ↔ a = b)) {l l' : List α} {m m' : List β}
    (h : List.Forall₂ P l m) (h' : List.Forall₂ P' l' m') :
    (∃ mid, l.Perm mid ∧ List.Forall₂ R mid l') ↔ m.Perm m' := by
  constructor
  · rintro ⟨mid, hperm, hmid⟩
    obtain ⟨m₂, hm₂, hperm'⟩ := List.perm_comp_forall₂ hperm.symm h
    have hparsed : List.Forall₂ (fun a y => ∃ x, P x a ∧ R x y) m₂ l' :=
      forall₂_compose (fun a x y ha hxy => ⟨x, ha, hxy⟩) hm₂.flip hmid
    have hsame : List.Forall₂ (· = ·) m₂ m' := by
      refine forall₂_compose ?_ hparsed h'
      rintro a y b ⟨x, ha, hxy⟩ hb
      exact (hR x y a b ha hb).mp hxy
    rw [List.forall₂_eq_eq_eq] at hsame
    exact hsame ▸ hperm'.symm
  · intro hperm
    obtain ⟨mid, hmid, hperm'⟩ := List.perm_comp_forall₂ hperm.symm h.flip
    refine ⟨mid, hperm'.symm, ?_⟩
    refine forall₂_compose ?_ hmid.flip h'.flip
    intro x b y hx hy
    exact (hR x y b b hx hy).mpr rfl

/-! ## Counting -/

/-- If an item is met only after fewer than `n` others of its kind, there are at most `n`. -/
theorem countP_le_of_forall_before {α : Type*} {p : α → Bool} {n : Nat} {l : List α}
    (h : ∀ before x after, l = before ++ x :: after → p x = true → before.countP p < n) :
    l.countP p ≤ n := by
  induction l using List.reverseRecOn with
  | nil =>
    exact Nat.zero_le n
  | append_singleton l x ih =>
    have hl : l.countP p ≤ n := ih fun before y after heq hy =>
      h before y (after ++ [x]) (by rw [heq, List.append_assoc, List.cons_append]) hy
    rw [List.countP_append, List.countP_singleton]
    split_ifs with hx
    · exact h l x [] rfl hx
    · exact hl

theorem nodup_of_dedup_length {α : Type*} [DecidableEq α] {l : List α}
    (h : l.dedup.length = l.length) : l.Nodup :=
  List.dedup_eq_self.mp ((List.dedup_sublist l).eq_of_length h)

/-- A list of one distinct element repeats it. -/
theorem constant_of_dedup_length {α : Type*} [DecidableEq α] {l : List α}
    (h : l.dedup.length = 1) : ∃ x, ∀ y ∈ l, y = x := by
  obtain ⟨x, hx⟩ := List.length_eq_one_iff.mp h
  refine ⟨x, fun y hy => ?_⟩
  have hmem : y ∈ l.dedup := List.mem_dedup.mpr hy
  rw [hx] at hmem
  exact List.mem_singleton.mp hmem

/-! ## The most recent items -/

section Recent

variable {α : Type*}

theorem rtake_append_of_le {l l' : List α} {n : Nat} (h : n ≤ l'.length) :
    (l ++ l').rtake n = l'.rtake n := by
  have hlength : (l ++ l').length - n = l.length + (l'.length - n) := by
    rw [List.length_append]
    omega
  rw [List.rtake, List.rtake, hlength, List.drop_append]
  simp

variable [DecidableEq α]

/-- The distinct items in the order of their last occurrence, when one more occurs. -/
theorem dedup_concat (l : List α) (x : α) :
    (l ++ [x]).dedup = l.dedup.filter (fun y => y ≠ x) ++ [x] := by
  induction l with
  | nil =>
    rfl
  | cons a l ih =>
    rw [List.cons_append]
    by_cases hmem : a ∈ l ++ [x]
    · rw [List.dedup_cons_of_mem hmem, ih]
      by_cases hl : a ∈ l
      · rw [List.dedup_cons_of_mem hl]
      · have hax : a = x := by simpa [hl] using hmem
        rw [List.dedup_cons_of_notMem hl, List.filter_cons_of_neg (by simp [hax])]
    · have hne : a ∉ l ∧ a ≠ x := by simpa using hmem
      rw [List.dedup_cons_of_notMem hmem, ih, List.dedup_cons_of_notMem hne.1,
        List.filter_cons_of_pos (by simp [hne.2]), List.cons_append]

theorem length_le_filter_ne {l : List α} (h : l.Nodup) (x : α) :
    l.length ≤ (l.filter fun y => y ≠ x).length + 1 := by
  have herase : l.erase x = l.filter fun y => y ≠ x := by
    rw [h.erase_eq_filter]
    exact List.filter_congr fun y _ => by rw [Bool.eq_iff_iff]; simp
  have hlength := List.length_erase (a := x) (l := l)
  rw [herase] at hlength
  split at hlength <;> omega

/-- Keeping only the most recent items changes nothing of the most recent ones to come. -/
theorem rtake_touch_rtake {l : List α} (h : l.Nodup) (x : α) (n : Nat) :
    ((l.rtake n).filter (fun y => y ≠ x) ++ [x]).rtake n =
      (l.filter (fun y => y ≠ x) ++ [x]).rtake n := by
  have hsplit : l.filter (fun y => y ≠ x) ++ [x] =
      (l.rdrop n).filter (fun y => y ≠ x) ++ ((l.rtake n).filter (fun y => y ≠ x) ++ [x]) := by
    rw [← List.append_assoc, ← List.filter_append, List.rdrop, List.rtake, List.take_append_drop]
  by_cases hlong : n ≤ l.length
  · rw [hsplit]
    refine (rtake_append_of_le ?_).symm
    have hkept := length_le_filter_ne (h.sublist (List.drop_sublist (l.length - n) l)) x
    rw [List.length_drop] at hkept
    rw [List.length_append, List.length_singleton, List.rtake]
    omega
  · have hall : l.rtake n = l := by
      rw [List.rtake, Nat.sub_eq_zero_of_le (by omega), List.drop_zero]
    rw [hall]

end Recent

end PrismServe.Lib
