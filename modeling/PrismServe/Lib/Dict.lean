import Mathlib.Data.List.Nodup
import Mathlib.Data.List.Count
import Mathlib.Tactic

/-!
# Insertion-ordered dictionaries

A dictionary is a list of key/value pairs with pairwise distinct keys, kept in
the order in which the keys were first inserted.  Writing to a present key
replaces its value in place; writing to an absent key appends; erasing removes
the pair.  The distinctness of the keys is a field of the structure, so every
operation below carries its proof.

The second half counts the entries that satisfy a predicate and says how each
operation changes the count.
-/

namespace PrismServe.Lib

universe u v

section Entries

variable {κ : Type u} {ν : Type v} [DecidableEq κ]

/-- Value stored under a key in a list of entries. -/
def lookupEntries (k : κ) : List (κ × ν) → Option ν
  | [] => none
  | e :: rest => if e.1 = k then some e.2 else lookupEntries k rest

/-- Replace in place, or append at the end. -/
def writeEntries (k : κ) (v : ν) : List (κ × ν) → List (κ × ν)
  | [] => [(k, v)]
  | e :: rest => if e.1 = k then (k, v) :: rest else e :: writeEntries k v rest

/-- Remove the entry of a key. -/
def eraseEntries (k : κ) : List (κ × ν) → List (κ × ν)
  | [] => []
  | e :: rest => if e.1 = k then rest else e :: eraseEntries k rest

theorem mem_keys_writeEntries (k x : κ) (v : ν) :
    ∀ l : List (κ × ν),
      x ∈ (writeEntries k v l).map Prod.fst ↔ x = k ∨ x ∈ l.map Prod.fst
  | [] => by simp [writeEntries]
  | e :: rest => by
      have ih := mem_keys_writeEntries k x v rest
      by_cases h : e.1 = k
      · simp [writeEntries, h]
      · simp only [writeEntries, if_neg h, List.map_cons, List.mem_cons, ih]
        tauto

theorem nodup_writeEntries (k : κ) (v : ν) :
    ∀ l : List (κ × ν), (l.map Prod.fst).Nodup →
      ((writeEntries k v l).map Prod.fst).Nodup
  | [], _ => by simp [writeEntries]
  | e :: rest, h => by
      simp only [List.map_cons, List.nodup_cons] at h
      by_cases hk : e.1 = k
      · simp only [writeEntries, if_pos hk, List.map_cons, List.nodup_cons]
        exact ⟨hk ▸ h.1, h.2⟩
      have ih := nodup_writeEntries k v rest h.2
      simp only [writeEntries, if_neg hk, List.map_cons, List.nodup_cons]
      refine ⟨?_, ih⟩
      rw [mem_keys_writeEntries]
      rintro (hx | hx)
      · exact hk hx
      · exact h.1 hx

theorem eraseEntries_sublist (k : κ) :
    ∀ l : List (κ × ν), (eraseEntries k l).Sublist l
  | [] => by simp [eraseEntries]
  | e :: rest => by
      by_cases h : e.1 = k
      · simp [eraseEntries, h]
      · simpa [eraseEntries, h] using eraseEntries_sublist k rest

theorem lookupEntries_eq_none (k : κ) :
    ∀ l : List (κ × ν), lookupEntries k l = none ↔ k ∉ l.map Prod.fst
  | [] => by simp [lookupEntries]
  | e :: rest => by
      by_cases h : e.1 = k
      · simp [lookupEntries, h]
      · have hk : ¬ k = e.1 := fun hx => h hx.symm
        simp only [lookupEntries, if_neg h, List.map_cons, List.mem_cons, hk, false_or]
        exact lookupEntries_eq_none k rest

theorem mem_of_lookupEntries {k : κ} {v : ν} :
    ∀ {l : List (κ × ν)}, lookupEntries k l = some v → (k, v) ∈ l
  | [], h => by simp [lookupEntries] at h
  | e :: rest, h => by
      by_cases hk : e.1 = k
      · simp only [lookupEntries, if_pos hk, Option.some.injEq] at h
        subst hk
        subst h
        exact List.mem_cons_self
      · simp only [lookupEntries, if_neg hk] at h
        exact List.mem_cons_of_mem _ (mem_of_lookupEntries h)

theorem lookupEntries_of_mem {k : κ} {v : ν} :
    ∀ {l : List (κ × ν)}, (l.map Prod.fst).Nodup → (k, v) ∈ l →
      lookupEntries k l = some v
  | e :: rest, hn, hm => by
      simp only [List.map_cons, List.nodup_cons] at hn
      rcases List.mem_cons.mp hm with rfl | hm
      · simp [lookupEntries]
      have hk : ¬ e.1 = k := by
        rintro rfl
        exact hn.1 (List.mem_map.mpr ⟨_, hm, rfl⟩)
      simpa [lookupEntries, hk] using lookupEntries_of_mem hn.2 hm

theorem lookupEntries_writeEntries (k x : κ) (v : ν) :
    ∀ l : List (κ × ν),
      lookupEntries x (writeEntries k v l) =
        if x = k then some v else lookupEntries x l
  | [] => by
      by_cases h : x = k
      · simp [writeEntries, lookupEntries, h]
      · have hk : ¬ k = x := fun hx => h hx.symm
        simp [writeEntries, lookupEntries, h, hk]
  | e :: rest => by
      have ih := lookupEntries_writeEntries k x v rest
      by_cases h : e.1 = k
      · by_cases hx : x = k
        · simp [writeEntries, lookupEntries, h, hx]
        · have hk : ¬ k = x := fun hy => hx hy.symm
          simp [writeEntries, lookupEntries, h, hx, hk]
      · by_cases hx : e.1 = x
        · have hxk : ¬ x = k := fun hy => h (hx.trans hy)
          simp [writeEntries, lookupEntries, hx, hxk]
        · simp [writeEntries, lookupEntries, h, hx, ih]

theorem lookupEntries_eraseEntries (k x : κ) :
    ∀ l : List (κ × ν), (l.map Prod.fst).Nodup →
      lookupEntries x (eraseEntries k l) =
        if x = k then none else lookupEntries x l
  | [], _ => by simp [eraseEntries, lookupEntries]
  | e :: rest, hn => by
      simp only [List.map_cons, List.nodup_cons] at hn
      have ih := lookupEntries_eraseEntries k x rest hn.2
      by_cases h : e.1 = k
      · by_cases hx : x = k
        · have : lookupEntries k rest = none :=
            (lookupEntries_eq_none k rest).mpr (h ▸ hn.1)
          simp [eraseEntries, h, hx, this]
        · have hk : ¬ k = x := fun hy => hx hy.symm
          simp [eraseEntries, lookupEntries, h, hx, hk]
      · by_cases hx : e.1 = x
        · have hxk : ¬ x = k := fun hy => h (hx.trans hy)
          simp [eraseEntries, lookupEntries, hx, hxk]
        · simp [eraseEntries, lookupEntries, h, hx, ih]

end Entries

/-- A dictionary with pairwise distinct keys in insertion order. -/
structure Dict (κ : Type u) (ν : Type v) where
  entries : List (κ × ν)
  nodup : (entries.map Prod.fst).Nodup

namespace Dict

variable {κ : Type u} {ν : Type v}

/-- The empty dictionary. -/
def empty : Dict κ ν := ⟨[], by simp⟩

def keys (d : Dict κ ν) : List κ := d.entries.map Prod.fst

def values (d : Dict κ ν) : List ν := d.entries.map Prod.snd

def size (d : Dict κ ν) : Nat := d.entries.length

/-- Keep the entries that satisfy a predicate. -/
def filter (d : Dict κ ν) (p : κ → ν → Bool) : Dict κ ν :=
  ⟨d.entries.filter (fun e => p e.1 e.2),
    d.nodup.sublist (List.filter_sublist.map Prod.fst)⟩

/-- Keep the newest entries, as many as the cap allows. -/
def keepNewest (d : Dict κ ν) (cap : Nat) : Dict κ ν :=
  ⟨d.entries.drop (d.entries.length - cap),
    d.nodup.sublist ((List.drop_sublist _ _).map Prod.fst)⟩

/-- Change every value. -/
def map (d : Dict κ ν) (f : ν → ν) : Dict κ ν :=
  ⟨d.entries.map (fun e => (e.1, f e.2)), by simpa [Function.comp_def] using d.nodup⟩

theorem keys_nodup (d : Dict κ ν) : d.keys.Nodup := d.nodup

@[simp] theorem keys_length (d : Dict κ ν) : d.keys.length = d.size := by
  simp [keys, size]

variable [DecidableEq κ]

def get? (d : Dict κ ν) (k : κ) : Option ν := lookupEntries k d.entries

def contains (d : Dict κ ν) (k : κ) : Bool := (d.get? k).isSome

def set (d : Dict κ ν) (k : κ) (v : ν) : Dict κ ν :=
  ⟨writeEntries k v d.entries, nodup_writeEntries k v _ d.nodup⟩

def erase (d : Dict κ ν) (k : κ) : Dict κ ν :=
  ⟨eraseEntries k d.entries,
    d.nodup.sublist ((eraseEntries_sublist k d.entries).map Prod.fst)⟩

@[simp] theorem get?_empty (k : κ) : (empty : Dict κ ν).get? k = none := by
  rfl

theorem get?_set (d : Dict κ ν) (k x : κ) (v : ν) :
    (d.set k v).get? x = if x = k then some v else d.get? x :=
  lookupEntries_writeEntries k x v d.entries

@[simp] theorem get?_set_self (d : Dict κ ν) (k : κ) (v : ν) :
    (d.set k v).get? k = some v := by
  simp [get?_set]

theorem get?_set_of_ne (d : Dict κ ν) {k x : κ} (v : ν) (h : x ≠ k) :
    (d.set k v).get? x = d.get? x := by
  simp [get?_set, h]

theorem get?_erase (d : Dict κ ν) (k x : κ) :
    (d.erase k).get? x = if x = k then none else d.get? x :=
  lookupEntries_eraseEntries k x d.entries d.nodup

@[simp] theorem get?_erase_self (d : Dict κ ν) (k : κ) :
    (d.erase k).get? k = none := by
  simp [get?_erase]

theorem get?_erase_of_ne (d : Dict κ ν) {k x : κ} (h : x ≠ k) :
    (d.erase k).get? x = d.get? x := by
  simp [get?_erase, h]

/-- Make the entry of a key the newest one. -/
def moveToEnd (d : Dict κ ν) (k : κ) : Dict κ ν :=
  match d.get? k with
  | none => d
  | some v => (d.erase k).set k v

theorem get?_moveToEnd (d : Dict κ ν) (k x : κ) : (d.moveToEnd k).get? x = d.get? x := by
  unfold moveToEnd
  cases hk : d.get? k with
  | none =>
    rfl
  | some v =>
    by_cases hx : x = k
    · subst hx
      simp [hk]
    · rw [get?_set_of_ne _ _ hx, get?_erase_of_ne _ hx]

/-- Erase several keys, in order. -/
def eraseAll (d : Dict κ ν) : List κ → Dict κ ν
  | [] => d
  | k :: rest => (d.erase k).eraseAll rest

theorem get?_eraseAll (x : κ) :
    ∀ (ks : List κ) (d : Dict κ ν),
      (d.eraseAll ks).get? x = if x ∈ ks then none else d.get? x
  | [], d => by simp [eraseAll]
  | k :: rest, d => by
      rw [eraseAll, get?_eraseAll x rest, get?_erase]
      by_cases hx : x ∈ rest
      · simp [hx]
      · by_cases hk : x = k
        · simp [hk]
        · simp [hx, hk]

theorem mem_entries_iff (d : Dict κ ν) (k : κ) (v : ν) :
    (k, v) ∈ d.entries ↔ d.get? k = some v :=
  ⟨lookupEntries_of_mem d.nodup, mem_of_lookupEntries⟩

omit [DecidableEq κ] in
theorem keepNewest_subset (d : Dict κ ν) (cap : Nat) : (d.keepNewest cap).entries ⊆ d.entries :=
  List.drop_subset _ _

theorem mem_values_iff (d : Dict κ ν) (v : ν) : v ∈ d.values ↔ ∃ k, d.get? k = some v := by
  simp only [values, List.mem_map, Prod.exists, exists_eq_right, mem_entries_iff]

theorem mem_keys_iff (d : Dict κ ν) (k : κ) :
    k ∈ d.keys ↔ (d.get? k).isSome := by
  unfold keys get?
  cases h : lookupEntries k d.entries with
  | none =>
    simpa using (lookupEntries_eq_none k d.entries).mp h
  | some v =>
    simpa using ⟨v, mem_of_lookupEntries h⟩

@[simp] theorem contains_iff (d : Dict κ ν) (k : κ) :
    d.contains k = true ↔ ∃ v, d.get? k = some v := by
  simp [contains, Option.isSome_iff_exists]

theorem get?_map (d : Dict κ ν) (f : ν → ν) (k : κ) : (d.map f).get? k = (d.get? k).map f := by
  change lookupEntries k (d.entries.map fun e => (e.1, f e.2)) = (lookupEntries k d.entries).map f
  induction d.entries with
  | nil =>
    rfl
  | cons e rest ih =>
    by_cases hk : e.1 = k
    · simp [lookupEntries, hk]
    · simpa [lookupEntries, hk] using ih

variable {k : κ} {v : ν} {d d' : Dict κ ν} {ι : Type*}

/-- Of the items that are written under one key, the last one stays. -/
theorem get?_foldl_set (key : ι → κ) (val : ι → ν) (k : κ) :
    ∀ (l : List ι) (d : Dict κ ν), (l.foldl (fun d x => d.set (key x) (val x)) d).get? k =
      ((l.filter fun x => key x = k).getLast?.map val).or (d.get? k)
  | [], d => by simp
  | x :: l, d => by
      rw [List.foldl_cons, get?_foldl_set key val k l, get?_set]
      by_cases hx : key x = k
      · subst hx
        rw [List.filter_cons_of_pos (by simp), if_pos rfl, List.getLast?_cons]
        cases (l.filter fun y => key y = key x).getLast? <;> rfl
      · rw [List.filter_cons_of_neg (by simpa using hx), if_neg (Ne.symm hx)]

/-- The items of a list that agree on each key are all found. -/
theorem get?_foldl_set_of_mem {key : ι → κ} {val : ι → ν} {l : List ι} {x : ι} (hx : x ∈ l)
    (hagree : ∀ y ∈ l, key y = key x → val y = val x) (d : Dict κ ν) :
    (l.foldl (fun d x => d.set (key x) (val x)) d).get? (key x) = some (val x) := by
  rw [get?_foldl_set]
  have hmem : x ∈ l.filter fun y => key y = key x := List.mem_filter.mpr ⟨hx, by simp⟩
  cases hlast : (l.filter fun y => key y = key x).getLast? with
  | none =>
    rw [List.getLast?_eq_none_iff.mp hlast] at hmem
    exact absurd hmem (by simp)
  | some y =>
    obtain ⟨hy, hkey⟩ := List.mem_filter.mp (List.mem_of_getLast? hlast)
    simpa using hagree y hy (by simpa using hkey)

/-- Dictionaries that agree on every key have the same entries. -/
theorem entries_perm_of_get?_eq (h : ∀ k, d.get? k = d'.get? k) : d.entries.Perm d'.entries := by
  refine (List.perm_ext_iff_of_nodup (List.Nodup.of_map _ d.nodup)
    (List.Nodup.of_map _ d'.nodup)).mpr ?_
  rintro ⟨k, v⟩
  rw [mem_entries_iff, mem_entries_iff, h]

theorem values_perm_of_get?_eq (h : ∀ k, d.get? k = d'.get? k) : d.values.Perm d'.values :=
  (entries_perm_of_get?_eq h).map _

theorem size_of_get?_eq (h : ∀ k, d.get? k = d'.get? k) : d.size = d'.size :=
  (entries_perm_of_get?_eq h).length_eq

/-- Number of entries that satisfy a predicate. -/
def count (d : Dict κ ν) (p : κ → ν → Bool) : Nat :=
  d.entries.countP (fun e => p e.1 e.2)

theorem count_eq_zero (d : Dict κ ν) {p : κ → ν → Bool}
    (h : ∀ k v, d.get? k = some v → p k v = false) :
    d.count p = 0 := by
  unfold count
  rw [List.countP_eq_zero]
  rintro ⟨k, v⟩ hm
  simp [h k v ((mem_entries_iff d k v).mp hm)]

private theorem writeEntries_perm (k : κ) (v : ν) :
    ∀ l : List (κ × ν), (writeEntries k v l).Perm ((k, v) :: eraseEntries k l)
  | [] => List.Perm.refl _
  | e :: rest => by
      by_cases hk : e.1 = k
      · simp [writeEntries, eraseEntries, hk]
      · simp only [writeEntries, eraseEntries, if_neg hk]
        exact ((writeEntries_perm k v rest).cons e).trans (List.Perm.swap _ _ _)

private theorem perm_eraseEntries :
    ∀ {l : List (κ × ν)}, lookupEntries k l = some v → l.Perm ((k, v) :: eraseEntries k l)
  | [], h => by simp [lookupEntries] at h
  | e :: rest, h => by
      by_cases hk : e.1 = k
      · simp only [lookupEntries, if_pos hk, Option.some.injEq] at h
        obtain ⟨x, y⟩ := e
        obtain rfl : x = k := hk
        obtain rfl : y = v := h
        simp [eraseEntries]
      · simp only [lookupEntries, if_neg hk] at h
        simp only [eraseEntries, if_neg hk]
        exact ((perm_eraseEntries h).cons e).trans (List.Perm.swap _ _ _)

private theorem eraseEntries_of_none :
    ∀ {l : List (κ × ν)}, lookupEntries k l = none → eraseEntries k l = l
  | [], _ => rfl
  | e :: rest, h => by
      by_cases hk : e.1 = k
      · simp [lookupEntries, hk] at h
      · simp only [lookupEntries, if_neg hk] at h
        simp [eraseEntries, hk, eraseEntries_of_none h]

/-- Up to order, writing replaces whatever stood under the key. -/
theorem values_set_perm (d : Dict κ ν) (k : κ) (v : ν) :
    (d.set k v).values.Perm (v :: (d.erase k).values) :=
  (writeEntries_perm k v d.entries).map Prod.snd

/-- Up to order, a present value stands in front of the rest. -/
theorem values_perm_erase (d : Dict κ ν) (h : d.get? k = some v) :
    d.values.Perm (v :: (d.erase k).values) :=
  (perm_eraseEntries h).map Prod.snd

/-- Erasing takes the entry's contribution away. -/
theorem count_erase_of_get? (d : Dict κ ν) (p : κ → ν → Bool) {w : ν} (h : d.get? k = some w) :
    (d.erase k).count p + (if p k w then 1 else 0) = d.count p := by
  have hperm := (perm_eraseEntries h).countP_eq fun e => p e.1 e.2
  rw [List.countP_cons] at hperm
  exact hperm.symm

private theorem count_set (d : Dict κ ν) (p : κ → ν → Bool) (k : κ) (v : ν) :
    (d.set k v).count p = (d.erase k).count p + (if p k v then 1 else 0) := by
  have hperm := (writeEntries_perm k v d.entries).countP_eq fun e => p e.1 e.2
  rw [List.countP_cons] at hperm
  exact hperm

theorem erase_of_get?_none (d : Dict κ ν) (h : d.get? k = none) : d.erase k = d := by
  cases d with
  | mk entries nodup =>
    unfold erase
    congr 1
    exact eraseEntries_of_none h

/-- A fresh key adds its own contribution. -/
theorem count_set_of_fresh (d : Dict κ ν) (p : κ → ν → Bool) (h : d.get? k = none) :
    (d.set k v).count p = d.count p + (if p k v then 1 else 0) := by
  rw [count_set, erase_of_get?_none d h]

private theorem writeEntries_of_none :
    ∀ {l : List (κ × ν)}, lookupEntries k l = none → writeEntries k v l = l ++ [(k, v)]
  | [], _ => rfl
  | e :: rest, h => by
      by_cases hk : e.1 = k
      · simp [lookupEntries, hk] at h
      · simp only [lookupEntries, if_neg hk] at h
        simp [writeEntries, hk, writeEntries_of_none h]

/-- A fresh key comes last. -/
theorem entries_set_of_fresh (d : Dict κ ν) (h : d.get? k = none) :
    (d.set k v).entries = d.entries ++ [(k, v)] :=
  writeEntries_of_none h

theorem size_erase_of_get? (d : Dict κ ν) (h : d.get? k = some v) :
    (d.erase k).size + 1 = d.size := by
  simpa [values, size] using (d.values_perm_erase h).length_eq.symm

theorem size_set_of_get? (d : Dict κ ν) {v w : ν} (h : d.get? k = some w) :
    (d.set k v).size = d.size := by
  rw [← d.size_erase_of_get? h]
  simpa [values, size] using (d.values_set_perm k v).length_eq

theorem size_set_of_fresh (d : Dict κ ν) (h : d.get? k = none) : (d.set k v).size = d.size + 1 := by
  simp [size, d.entries_set_of_fresh h]

theorem size_erase_le (d : Dict κ ν) (k : κ) : (d.erase k).size ≤ d.size :=
  (eraseEntries_sublist k d.entries).length_le

theorem size_eraseAll : ∀ {ks : List κ} {d : Dict κ ν}, ks.Nodup → (∀ k ∈ ks, d.get? k ≠ none) →
    (d.eraseAll ks).size + ks.length = d.size
  | [], _, _, _ => rfl
  | k :: rest, d, hnodup, hknown => by
      obtain ⟨hk, hrest⟩ := List.nodup_cons.mp hnodup
      obtain ⟨v, hv⟩ := Option.ne_none_iff_exists'.mp (hknown k (by simp))
      have hsize := size_erase_of_get? d hv
      have hafter : (d.erase k).size = ((d.erase k).eraseAll rest).size + rest.length := by
        refine (size_eraseAll hrest fun x hx => ?_).symm
        rw [get?_erase_of_ne d (by rintro rfl; exact hk hx)]
        exact hknown x (by simp [hx])
      rw [eraseAll, List.length_cons]
      omega

/-- Items under distinct fresh keys are written in their order. -/
theorem entries_foldl_set {key : ι → κ} {val : ι → ν} :
    ∀ {l : List ι} {d : Dict κ ν}, (l.map key).Nodup → (∀ x ∈ l, d.get? (key x) = none) →
      (l.foldl (fun d x => d.set (key x) (val x)) d).entries =
        d.entries ++ l.map fun x => (key x, val x)
  | [], d, _, _ => by simp
  | x :: l, d, hnodup, hfresh => by
      rw [List.map_cons, List.nodup_cons] at hnodup
      have hrest : ∀ y ∈ l, (d.set (key x) (val x)).get? (key y) = none := by
        intro y hy
        rw [get?_set_of_ne]
        · exact hfresh y (List.mem_cons_of_mem x hy)
        · intro heq
          exact hnodup.1 (heq ▸ List.mem_map_of_mem hy)
      rw [List.foldl_cons, entries_foldl_set hnodup.2 hrest,
        entries_set_of_fresh d (hfresh x List.mem_cons_self)]
      simp

private theorem writeEntries_of_some :
    ∀ {l : List (κ × ν)}, lookupEntries k l = some v → writeEntries k v l = l
  | e :: rest, h => by
      by_cases hk : e.1 = k
      · simp only [lookupEntries, if_pos hk, Option.some.injEq] at h
        obtain ⟨x, y⟩ := e
        obtain rfl : x = k := hk
        obtain rfl : y = v := h
        simp [writeEntries]
      · simp only [lookupEntries, if_neg hk] at h
        simp [writeEntries, hk, writeEntries_of_some h]

theorem set_of_get? (d : Dict κ ν) (h : d.get? k = some v) : d.set k v = d := by
  cases d with
  | mk entries nodup =>
    unfold set
    congr 1
    exact writeEntries_of_some h

private theorem writeEntries_writeEntries (k : κ) (v w : ν) :
    ∀ l : List (κ × ν), writeEntries k w (writeEntries k v l) = writeEntries k w l
  | [] => by simp [writeEntries]
  | e :: rest => by
      by_cases hk : e.1 = k
      · simp [writeEntries, hk]
      · simp [writeEntries, hk, writeEntries_writeEntries k v w rest]

@[simp] theorem set_set (d : Dict κ ν) (k : κ) (v w : ν) : (d.set k v).set k w = d.set k w := by
  cases d with
  | mk entries nodup =>
    unfold set
    congr 1
    exact writeEntries_writeEntries k v w entries

end Dict

end PrismServe.Lib
