import PrismServe.Router.Fingerprint

/-!
# Chain hashes identify prefixes

The `i`-th byte string that is hashed holds the bytes of the `i`-th block, after the
digest of the string before it when there is one.  When no two of the strings that
are hashed for two prompts collide, a hash tells how many blocks it stands for and
which tokens are in them: the first string is eight bytes shorter than all others,
and a later one can be cut into the digest before it and its block.
-/

namespace PrismServe.Directory

open Lib

variable {hash : List UInt8 → UInt64} {n : Nat} {s t : List Int}

/-- The tokens of a block. -/
def block (n : Nat) (s : List Int) (i : Nat) : List Int := (s.drop (i * n)).take n

/-- The `i`-th byte string that is hashed. -/
def chainInput (hash : List UInt8 → UInt64) (n : Nat) (s : List Int) : Nat → List UInt8
  | 0 => (block n s 0).flatMap tokenBytes
  | i + 1 => digestBytes (hash (chainInput hash n s i)) ++ (block n s (i + 1)).flatMap tokenBytes

/-- All byte strings that are hashed for a prompt. -/
def hashed (hash : List UInt8 → UInt64) (n : Nat) (s : List Int) : List (List UInt8) :=
  (List.range (s.length / n)).map (chainInput hash n s)

/-- No two of the byte strings that are hashed for the two prompts collide. -/
def CollisionFree (hash : List UInt8 → UInt64) (n : Nat) (s t : List Int) : Prop :=
  ∀ b ∈ hashed hash n s ++ hashed hash n t, ∀ b' ∈ hashed hash n s ++ hashed hash n t,
    hash b = hash b' → b = b'

instance : Decidable (CollisionFree hash n s t) :=
  inferInstanceAs (Decidable (∀ b ∈ _, ∀ b' ∈ _, hash b = hash b' → b = b'))

/-! ## Packing -/

theorem tokenBytes_injective {x y : Int} (hx : Fits x) (hy : Fits y)
    (h : tokenBytes x = tokenBytes y) : x = y := by
  obtain ⟨hx₁, hx₂⟩ := hx
  obtain ⟨hy₁, hy₂⟩ := hy
  have hsame := littleEndian_injective (k := 8) (by omega) (by omega) h
  omega

theorem digestBytes_injective {x y : UInt64} (h : digestBytes x = digestBytes y) : x = y := by
  have hsame := littleEndian_injective (k := 8) (by simpa using x.toNat_lt)
    (by simpa using y.toNat_lt) h
  exact UInt64.toNat_inj.mp hsame

theorem flatMap_tokenBytes_injective {l l' : List Int} (hlength : l.length = l'.length)
    (hl : ∀ x ∈ l, Fits x) (hl' : ∀ x ∈ l', Fits x)
    (h : l.flatMap tokenBytes = l'.flatMap tokenBytes) : l = l' :=
  flatMap_injective_on (fun _ => length_littleEndian _ _)
    (fun _ _ hx hy => tokenBytes_injective hx hy) hlength hl hl' h

theorem length_flatMap_tokenBytes (l : List Int) :
    (l.flatMap tokenBytes).length = 8 * l.length := by
  induction l with
  | nil =>
    rfl
  | cons x rest ih =>
    simp only [List.flatMap_cons, List.length_append, List.length_cons, ih]
    simp only [tokenBytes, length_littleEndian]
    omega

/-! ## Blocks -/

theorem block_complete {i : Nat} (hi : i < s.length / n) : (i + 1) * n ≤ s.length :=
  (Nat.mul_le_mul_right n hi).trans (Nat.div_mul_le_self s.length n)

theorem length_block {i : Nat} (hi : i < s.length / n) : (block n s i).length = n := by
  have hle := block_complete hi
  rw [Nat.succ_mul] at hle
  simp only [block, List.length_take, List.length_drop]
  omega

theorem fits_block (hs : ∀ x ∈ s, Fits x) (i : Nat) : ∀ x ∈ block n s i, Fits x :=
  fun x hx => hs x (List.mem_of_mem_drop (List.mem_of_mem_take hx))

/-- A prefix and the block after it. -/
theorem take_succ_mul (n : Nat) (s : List Int) (i : Nat) :
    s.take ((i + 1) * n) = s.take (i * n) ++ block n s i := by
  rw [Nat.succ_mul, List.take_add]
  rfl

/-- A block is in every longer prefix. -/
theorem block_of_take {i k : Nat} (hik : i < k) (h : s.take (k * n) = t.take (k * n)) :
    block n s i = block n t i := by
  have hcut : ∀ l : List Int, block n l i = ((l.take (k * n)).drop (i * n)).take n := by
    intro l
    have hle : i * n + n ≤ k * n := by
      rw [← Nat.succ_mul]
      exact Nat.mul_le_mul_right n hik
    rw [block, List.drop_take, List.take_take]
    congr 1
    omega
  rw [hcut s, hcut t, h]

/-- The byte strings depend on the prefix only. -/
theorem chainInput_of_take {i k : Nat} (hik : i < k) (h : s.take (k * n) = t.take (k * n)) :
    chainInput hash n s i = chainInput hash n t i := by
  induction i with
  | zero =>
    rw [chainInput, chainInput, block_of_take hik h]
  | succ i ih =>
    rw [chainInput, chainInput, ih (by omega), block_of_take hik h]

/-! ## What is computed -/

theorem length_blockStarts (hn : 0 < n) (length : Nat) :
    (length + 1 - n + (n - 1)) / n = length / n := by
  by_cases hlt : length < n
  · rw [Nat.div_eq_of_lt hlt, Nat.div_eq_of_lt (by omega)]
  · congr 1
    omega

theorem pack_block (hs : ∀ x ∈ s, Fits x) (i : Nat) :
    pack (block n s i) = .ok ((block n s i).flatMap tokenBytes) :=
  if_pos (fits_block hs i)

/-- The loop hashes the byte strings in turn. -/
theorem chainFrom_eq (hs : ∀ x ∈ s, Fits x) :
    ∀ (count i : Nat) (previous : Option UInt64),
      (previous.map digestBytes).getD [] ++ (block n s i).flatMap tokenBytes =
        chainInput hash n s i →
      chainFrom hash s n ((List.range' i count).map (· * n)) previous =
        .ok ((List.range' i count).map fun j => hash (chainInput hash n s j))
  | 0, _, _, _ => rfl
  | count + 1, i, previous, hprevious => by
      have hrest := chainFrom_eq hs count (i + 1) (some (hash (chainInput hash n s i))) rfl
      simp only [List.range'_succ, List.map_cons, chainFrom]
      rw [show (s.drop (i * n)).take n = block n s i from rfl, pack_block hs]
      change (Except.bind (chainFrom hash s n _ (some (hash (_ ++ _)))) _) = _
      rw [hprevious, hrest]
      rfl

theorem computeChainHashes_eq (hn : 0 < n) (hs : ∀ x ∈ s, Fits x) :
    computeChainHashes hash s n = .ok ((hashed hash n s).map hash) := by
  unfold computeChainHashes blockStarts
  rw [if_pos (by exact_mod_cast hn), Int.toNat_natCast, length_blockStarts hn, List.range_eq_range',
    chainFrom_eq hs _ 0 none rfl]
  simp [hashed, List.range_eq_range']

/-- What is hashed for a prompt is hashed first for a longer one. -/
theorem hashed_append (more : List Int) : hashed hash n s <+: hashed hash n (s ++ more) := by
  have hle : s.length / n ≤ (s ++ more).length / n := by
    rw [List.length_append]
    exact Nat.div_le_div_right (Nat.le_add_right _ _)
  have htake : hashed hash n s = (hashed hash n (s ++ more)).take (s.length / n) := by
    simp only [hashed, ← List.map_take, List.take_range, Nat.min_eq_left hle]
    refine List.map_congr_left fun i hi => ?_
    refine chainInput_of_take (Nat.lt_succ_self i) ?_
    have hcomplete := block_complete (List.mem_range.mp hi)
    rw [List.take_append_of_le_length hcomplete]
  rw [htake]
  exact List.take_prefix _ _

/-! ## Equal hashes -/

/-- Equal byte strings stand for equal prefixes. -/
theorem prefix_of_chainInput (hs : ∀ x ∈ s, Fits x) (ht : ∀ x ∈ t, Fits x)
    (hcollision : CollisionFree hash n s t) {j k : Nat} (hj : j < s.length / n)
    (hk : k < t.length / n) (h : chainInput hash n s j = chainInput hash n t k) :
    j = k ∧ s.take ((k + 1) * n) = t.take ((k + 1) * n) := by
  have hblocks : ∀ {j k}, j < s.length / n → k < t.length / n →
      (block n s j).flatMap tokenBytes = (block n t k).flatMap tokenBytes →
      block n s j = block n t k := fun hj hk =>
    flatMap_tokenBytes_injective ((length_block hj).trans (length_block hk).symm)
      (fits_block hs _) (fits_block ht _)
  -- along both chains at once; the first string is told by its length
  induction j generalizing k with
  | zero =>
    cases k with
    | zero =>
      refine ⟨rfl, ?_⟩
      simpa [block] using hblocks hj hk h
    | succ k =>
      have hlength := congrArg List.length h
      simp only [chainInput, List.length_append, length_flatMap_tokenBytes, length_block hj,
        length_block hk, digestBytes, length_littleEndian] at hlength
      omega
  | succ j ih =>
    cases k with
    | zero =>
      have hlength := congrArg List.length h
      simp only [chainInput, List.length_append, length_flatMap_tokenBytes, length_block hj,
        length_block hk, digestBytes, length_littleEndian] at hlength
      omega
    | succ k =>
      obtain ⟨hdigest, hblock⟩ := List.append_inj h
        ((length_littleEndian _ _).trans (length_littleEndian _ _).symm)
      have hsame := hcollision _
        (List.mem_append_left _ (List.mem_map.mpr ⟨j, List.mem_range.mpr (by omega), rfl⟩)) _
        (List.mem_append_right _ (List.mem_map.mpr ⟨k, List.mem_range.mpr (by omega), rfl⟩))
        (digestBytes_injective hdigest)
      obtain ⟨rfl, htake⟩ := ih (by omega) (by omega) hsame
      refine ⟨rfl, ?_⟩
      rw [take_succ_mul, take_succ_mul n t, htake, hblocks hj hk hblock]

/-- A hash at position `k` stands for the first `k + 1` blocks and for nothing else; there is one
for every complete block, and tokens that are added leave the hashes before them alone. -/
theorem chain_hashes_identify (hash : List UInt8 → UInt64) (n : Nat) (s t : List Int) (hn : 0 < n)
    (hs : ∀ x ∈ s, Fits x) (ht : ∀ x ∈ t, Fits x) (hcollision : CollisionFree hash n s t) :
    ∃ hashes hashes', computeChainHashes hash s n = .ok hashes ∧
      computeChainHashes hash t n = .ok hashes' ∧
      hashes.length = s.length / n ∧
      (∀ j k, j < hashes.length → k < hashes'.length →
        (hashes[j]? = hashes'[k]? ↔ j = k ∧ s.take ((k + 1) * n) = t.take ((k + 1) * n))) ∧
      ∀ more : List Int, (∀ x ∈ more, Fits x) →
        ∃ longer, computeChainHashes hash (s ++ more) n = .ok longer ∧ hashes <+: longer := by
  refine ⟨_, _, computeChainHashes_eq hn hs, computeChainHashes_eq hn ht, by simp [hashed],
    fun j k hj hk => ?_, fun more hmore => ?_⟩
  · simp only [hashed, List.length_map, List.length_range] at hj hk
    simp only [hashed, List.map_map, List.getElem?_map, List.getElem?_range hj,
      List.getElem?_range hk, Option.map_some, Option.some.injEq, Function.comp]
    constructor
    · intro h
      refine prefix_of_chainInput hs ht hcollision hj hk (hcollision _ ?_ _ ?_ h)
      · exact List.mem_append_left _ (List.mem_map.mpr ⟨j, List.mem_range.mpr hj, rfl⟩)
      · exact List.mem_append_right _ (List.mem_map.mpr ⟨k, List.mem_range.mpr hk, rfl⟩)
    · rintro ⟨rfl, htake⟩
      rw [chainInput_of_take (Nat.lt_succ_self j) htake]
  · have hall : ∀ x ∈ s ++ more, Fits x := by
      intro x hx
      exact (List.mem_append.mp hx).elim (hs x) (hmore x)
    exact ⟨_, computeChainHashes_eq hn hall, (hashed_append more).map hash⟩

/-- Two blocks of one token, and a second prompt that differs in the second. -/
theorem chain_hashes_identify_two :
    let hash : List UInt8 → UInt64 := fun b => b.foldl (fun d x => d * 257 + x.toUInt64 + 1) 0
    CollisionFree hash 1 [1, 2] [1, 3] ∧
      ∃ hashes hashes', computeChainHashes hash [1, 2] 1 = .ok hashes ∧
        computeChainHashes hash [1, 3] 1 = .ok hashes' ∧ hashes[0]? = hashes'[0]? ∧
        hashes[1]? ≠ hashes'[1]? := by
  intro hash
  have hcollision : CollisionFree hash 1 [1, 2] [1, 3] := by decide +kernel
  obtain ⟨hashes, hashes', hs, ht, hlength, hiff, -⟩ :=
    chain_hashes_identify hash 1 [1, 2] [1, 3] (by decide) (by decide) (by decide) hcollision
  have hlength' : hashes'.length = 2 := by
    rw [computeChainHashes_eq (by decide) (by decide)] at ht
    cases ht
    rfl
  refine ⟨hcollision, hashes, hashes', hs, ht, ?_, ?_⟩
  · exact (hiff 0 0 (by simp [hlength]) (by simp [hlength'])).mpr (by decide)
  · exact fun h => by simpa using ((hiff 1 1 (by simp [hlength]) (by simp [hlength'])).mp h).2

end PrismServe.Directory
