import PrismServe.Router.AffinityRouter

/-!
# The longest executable prefix

A pair of a location and a target is executable at a number of blocks when the
location is fresh and of a current epoch, the pair is what is required, and, unless
something is required, it gains more than the margin.  The router returns all pairs
that are executable at the largest number of blocks for which there is one, those
with more gain first.
-/

namespace PrismServe.Directory

open Lib

variable {K : Type} [Field K] [LinearOrder K]
variable {router : AffinityRouter K} {q : RouteQuery K} {now : Time}

namespace AffinityRouter

/-! ## Executable pairs -/

/-- The pair passes the filters, and is worth it. -/
def Passes (router : AffinityRouter K) (q : RouteQuery K) (blocks : Nat)
    (pair : CacheLocation × String) : Prop :=
  (∀ b ∈ q.requiredCachedPrefixBlocks, b = blocks) ∧
    (∀ s ∈ q.requiredSource, s = pair.1.instanceId) ∧
    q.sourceEpochIsCurrent pair.1.instanceId pair.1.instanceEpoch = true ∧
    (∀ t ∈ q.requiredTarget, t = pair.2) ∧
    (q.forced = true ∨
      (router.safetyMarginMs : WithBot K) <
        (router.decision q blocks pair.1 pair.2).estimatedGainMs)

instance (blocks : Nat) (pair : CacheLocation × String) :
    Decidable (router.Passes q blocks pair) :=
  inferInstanceAs (Decidable (_ ∧ _))

/-- The executable pairs at a number of blocks. -/
def executableAt (router : AffinityRouter K) (q : RouteQuery K) (now : Time) (blocks : Nat) :
    List (CacheLocation × String) :=
  (router.index.freshUnder router.maxAge now q.fingerprint blocks ×ˢ q.decodeCandidates).filter
    (router.Passes q blocks)

/-! ## One match -/

theorem all_eq_true_iff {α : Type} [DecidableEq α] {o : Option α} {x : α} :
    (o.all fun y => decide (y = x)) = true ↔ ∀ y ∈ o, y = x := by
  cases o <;> simp

/-- The inner loop keeps the targets that pass. -/
theorem decisionsFor_eq {blocks : Nat} {l : CacheLocation}
    (hblocks : ∀ b ∈ q.requiredCachedPrefixBlocks, b = blocks)
    (hsource : ∀ s ∈ q.requiredSource, s = l.instanceId)
    (hepoch : q.sourceEpochIsCurrent l.instanceId l.instanceEpoch = true) :
    router.decisionsFor q blocks l =
      ((q.decodeCandidates.map (Prod.mk l)).filter (router.Passes q blocks)).map
        fun pair => router.decision q blocks pair.1 pair.2 := by
  unfold decisionsFor
  induction q.decodeCandidates with
  | nil =>
    rfl
  | cons target rest ih =>
    rw [List.filterMap_cons, List.map_cons, List.filter_cons, ih]
    have hpasses : router.Passes q blocks (l, target) ↔
        (q.requiredTarget.all fun t => decide (t = target)) = true ∧
          ¬ (¬ q.forced = true ∧ (router.decision q blocks l target).estimatedGainMs ≤
            (router.safetyMarginMs : WithBot K)) := by
      rw [all_eq_true_iff, not_and_or, not_not, not_le]
      exact ⟨fun h => ⟨h.2.2.2.1, h.2.2.2.2⟩, fun h => ⟨hblocks, hsource, hepoch, h.1, h.2⟩⟩
    by_cases htarget : (q.requiredTarget.all fun t => decide (t = target)) = true
    · by_cases hgain : ¬ q.forced = true ∧ (router.decision q blocks l target).estimatedGainMs ≤
          (router.safetyMarginMs : WithBot K)
      · have hnot : ¬ router.Passes q blocks (l, target) := fun h => (hpasses.mp h).2 hgain
        simp [htarget, hgain, hnot]
      · have hpass := hpasses.mpr ⟨htarget, hgain⟩
        simp only [htarget, not_true_eq_false, if_false, if_neg hgain, hpass, decide_true, if_true,
          List.map_cons]
    · have hnot : ¬ router.Passes q blocks (l, target) := fun h => htarget (hpasses.mp h).1
      simp [htarget, hnot]

/-- A location that is not to be used has no executable pair. -/
theorem filter_of_refused {blocks : Nat} {l : CacheLocation}
    (h : ∀ target, ¬ router.Passes q blocks (l, target)) :
    (q.decodeCandidates.map (Prod.mk l)).filter (router.Passes q blocks) = [] := by
  refine List.filter_eq_nil_iff.mpr fun pair hpair => ?_
  obtain ⟨target, -, rfl⟩ := List.mem_map.mp hpair
  simpa using h target

theorem decisionsAt_eq {blocks : Nat} (locations : List CacheLocation)
    (hblocks : ∀ b ∈ q.requiredCachedPrefixBlocks, b = blocks) :
    router.decisionsAt q blocks locations =
      ((locations ×ˢ q.decodeCandidates).filter (router.Passes q blocks)).map
        fun pair => router.decision q blocks pair.1 pair.2 := by
  induction locations with
  | nil =>
    rfl
  | cons l rest ih =>
    rw [List.product_cons, List.filter_append, List.map_append, ← ih]
    unfold decisionsAt
    rw [List.flatMap_cons]
    congr 1
    by_cases hsource : (q.requiredSource.all fun s => decide (s = l.instanceId)) = true
    · by_cases hepoch : q.sourceEpochIsCurrent l.instanceId l.instanceEpoch = true
      · rw [if_neg (not_not.mpr hsource), if_neg (not_not.mpr hepoch)]
        exact decisionsFor_eq hblocks (all_eq_true_iff.mp hsource) hepoch
      · rw [if_neg (not_not.mpr hsource), if_pos hepoch,
          filter_of_refused fun _ h => hepoch h.2.2.1]
        rfl
    · rw [if_pos hsource, filter_of_refused fun _ h => hsource (all_eq_true_iff.mpr h.2.1)]
      rfl

/-! ## The search -/

theorem mem_tried {f : PromptFingerprint} {b : Nat} :
    b ∈ f.tried ↔ 1 ≤ b ∧ b ≤ f.maxReusableBlocks := by
  simp only [PromptFingerprint.tried, List.mem_map, List.mem_reverse, List.mem_range]
  constructor
  · rintro ⟨i, hi, rfl⟩
    omega
  · rintro ⟨h₁, h₂⟩
    exact ⟨b - 1, by omega, by omega⟩

theorem tried_descending (f : PromptFingerprint) : f.tried.Pairwise fun b b' => b' < b := by
  refine List.Pairwise.map _ (fun i j h => ?_) (List.pairwise_reverse.mpr List.pairwise_lt_range)
  exact Nat.succ_lt_succ h

/-- The matches among some numbers of blocks. -/
def matchesAmong (router : AffinityRouter K) (q : RouteQuery K) (now : Time) (todo : List Nat) :
    List (Nat × List CacheLocation) :=
  (todo.map fun blocks =>
    (blocks, router.index.freshUnder router.maxAge now q.fingerprint blocks)).filter
      fun m => !m.2.isEmpty

/-- A number of blocks decides the search, or nothing is executable at it. -/
theorem search_cons (router : AffinityRouter K) (q : RouteQuery K) (now : Time) (b : Nat)
    (rest : List Nat) :
    (router.executableAt q now b = [] ∧
      router.search q (router.matchesAmong q now (b :: rest)) =
        router.search q (router.matchesAmong q now rest)) ∨
    (router.executableAt q now b ≠ [] ∧
      router.search q (router.matchesAmong q now (b :: rest)) =
        (router.executableAt q now b).map fun pair => router.decision q b pair.1 pair.2) := by
  unfold matchesAmong
  rw [List.map_cons, List.filter_cons]
  by_cases hfresh : (router.index.freshUnder router.maxAge now q.fingerprint b).isEmpty = true
  · refine Or.inl ⟨?_, by simp [hfresh]⟩
    simp [executableAt, List.isEmpty_iff.mp hfresh]
  simp only [hfresh, Bool.not_false, if_true, search]
  by_cases hblocks : (q.requiredCachedPrefixBlocks.all fun r => decide (r = (b : Int))) = true
  · rw [if_neg (not_not.mpr hblocks), decisionsAt_eq _ (all_eq_true_iff.mp hblocks)]
    by_cases hnone : router.executableAt q now b = []
    · refine Or.inl ⟨hnone, ?_⟩
      rw [executableAt] at hnone
      rw [hnone]
      rfl
    · refine Or.inr ⟨hnone, if_neg ?_⟩
      rw [executableAt] at hnone
      simpa using hnone
  · refine Or.inl ⟨List.filter_eq_nil_iff.mpr fun pair _ => ?_, if_pos hblocks⟩
    simpa using fun h : router.Passes q b pair => hblocks (all_eq_true_iff.mpr h.1)

/-- The search takes the first number of blocks with an executable pair. -/
theorem search_spec (router : AffinityRouter K) (q : RouteQuery K) (now : Time) (todo : List Nat)
    (hdescending : todo.Pairwise fun b b' => b' < b) :
    (router.search q (router.matchesAmong q now todo) = [] ∧
      ∀ b ∈ todo, router.executableAt q now b = []) ∨
    ∃ b ∈ todo, router.executableAt q now b ≠ [] ∧
      (∀ b' ∈ todo, b < b' → router.executableAt q now b' = []) ∧
      router.search q (router.matchesAmong q now todo) =
        (router.executableAt q now b).map fun pair => router.decision q b pair.1 pair.2 := by
  induction todo with
  | nil =>
    exact Or.inl ⟨rfl, by simp⟩
  | cons b rest ih =>
    obtain ⟨hbelow, hrest⟩ := List.pairwise_cons.mp hdescending
    rcases search_cons router q now b rest with ⟨hnone, hskip⟩ | ⟨hsome, hfound⟩
    · rw [hskip]
      rcases ih hrest with ⟨hempty, hall⟩ | ⟨c, hc, hsome, hlarger, hfound⟩
      · exact Or.inl ⟨hempty, List.forall_mem_cons.mpr ⟨hnone, hall⟩⟩
      · refine Or.inr ⟨c, List.mem_cons_of_mem b hc, hsome, ?_, hfound⟩
        exact List.forall_mem_cons.mpr ⟨fun _ => hnone, hlarger⟩
    · refine Or.inr ⟨b, List.mem_cons_self, hsome, ?_, hfound⟩
      refine List.forall_mem_cons.mpr ⟨fun h => absurd h (lt_irrefl b), fun b' hb' h => ?_⟩
      exact absurd (hbelow b' hb') (not_lt.mpr h.le)

/-! ## The decisions -/

/-- A reusable prefix leaves a token of the prompt. -/
theorem suffix_left {f : PromptFingerprint} {b : Nat} (hb : b ≤ f.maxReusableBlocks)
    (hpos : 1 ≤ b) :
    b * f.blockSize < f.tokenIds.length := by
  have hle : b ≤ f.tokenIds.length / f.blockSize -
      if f.tokenIds.length % f.blockSize = 0 then 1 else 0 :=
    hb.trans (min_le_right _ _)
  have hmod := Nat.div_add_mod f.tokenIds.length f.blockSize
  split at hle
  case isTrue hzero =>
    have hlt : b * f.blockSize < f.tokenIds.length / f.blockSize * f.blockSize :=
      Nat.mul_lt_mul_of_pos_right (by omega) f.blockSize_pos
    rw [Nat.mul_comm (f.tokenIds.length / f.blockSize)] at hlt
    omega
  case isFalse hrest =>
    have hle' : b * f.blockSize ≤ f.tokenIds.length / f.blockSize * f.blockSize :=
      Nat.mul_le_mul_right _ (by omega)
    rw [Nat.mul_comm (f.tokenIds.length / f.blockSize)] at hle'
    omega

/-- Bytes are transferred exactly between different instances. -/
theorem transferBytes_eq_zero {blocks : Nat} (hpos : 1 ≤ blocks) (l : CacheLocation)
    (target : String) :
    (router.decision q blocks l target).transferBytes = 0 ↔
      (router.decision q blocks l target).sourceInstance =
        (router.decision q blocks l target).decodeInstance := by
  have hbytes := router.blockBytes_pos
  simp only [decision]
  split
  case isTrue h =>
    simp [h]
  case isFalse h =>
    have hne : blocks * router.blockBytes ≠ 0 := Nat.mul_ne_zero (by omega) (by omega)
    simp [hne, Ne.symm h]

instance : Std.Total (before (K := K)) where
  total d d' := by
    unfold before
    rcases lt_trichotomy d.cachedPrefixBlocks d'.cachedPrefixBlocks with h | h | h
    · exact Or.inr (Or.inl h)
    · rcases le_total d.estimatedGainMs d'.estimatedGainMs with hg | hg
      · exact Or.inr (Or.inr ⟨h.symm, hg⟩)
      · exact Or.inl (Or.inr ⟨h, hg⟩)
    · exact Or.inl (Or.inl h)

instance : IsTrans (CachedPrefixDecision K) before where
  trans d d' d'' h h' := by
    unfold before at *
    rcases h with h | ⟨h, hg⟩
    · rcases h' with h' | ⟨h', -⟩
      · exact Or.inl (h'.trans h)
      · exact Or.inl (h' ▸ h)
    · rcases h' with h' | ⟨h', hg'⟩
      · exact Or.inl (h ▸ h')
      · exact Or.inr ⟨h.trans h', hg'.trans hg⟩

/-- The decisions are those of the executable pairs at the largest number of blocks for which there
is one, with more gain first; there are none when no pair is executable at any number of blocks.
Each of them leaves a token of the prompt to compute. -/
theorem longest_executable_prefix (router : AffinityRouter K) (q : RouteQuery K) (now : Time) :
    (router.iterDecisions q now = [] ∧
      ∀ b, 1 ≤ b → b ≤ q.fingerprint.maxReusableBlocks → router.executableAt q now b = []) ∨
    ∃ b, 1 ≤ b ∧ b ≤ q.fingerprint.maxReusableBlocks ∧ router.executableAt q now b ≠ [] ∧
      (∀ b', b < b' → b' ≤ q.fingerprint.maxReusableBlocks →
        router.executableAt q now b' = []) ∧
      (router.iterDecisions q now).Perm
        ((router.executableAt q now b).map fun pair => router.decision q b pair.1 pair.2) ∧
      (router.iterDecisions q now).Pairwise
        (fun d d' => d'.estimatedGainMs ≤ d.estimatedGainMs) ∧
      ∀ d ∈ router.iterDecisions q now, d.cachedPrefixBlocks = b ∧
        d.cachedPrefixTokens = b * q.fingerprint.blockSize ∧
        1 ≤ q.fingerprint.tokenIds.length - d.cachedPrefixTokens ∧
        (d.transferBytes = 0 ↔ d.sourceInstance = d.decodeInstance) := by
  have hperm : (router.iterDecisions q now).Perm
      (router.search q (router.matchesAmong q now q.fingerprint.tried)) :=
    List.perm_insertionSort _ _
  rcases search_spec router q now _ (tried_descending q.fingerprint) with
    ⟨hempty, hall⟩ | ⟨b, hb, hsome, hlarger, hfound⟩
  · rw [hempty] at hperm
    exact Or.inl ⟨hperm.eq_nil, fun b h₁ h₂ => hall b (mem_tried.mpr ⟨h₁, h₂⟩)⟩
  obtain ⟨hpos, hle⟩ := mem_tried.mp hb
  rw [hfound] at hperm
  have hfields : ∀ d ∈ router.iterDecisions q now, d.cachedPrefixBlocks = b ∧
      d.cachedPrefixTokens = b * q.fingerprint.blockSize ∧
      1 ≤ q.fingerprint.tokenIds.length - d.cachedPrefixTokens ∧
      (d.transferBytes = 0 ↔ d.sourceInstance = d.decodeInstance) := by
    intro d hd
    obtain ⟨pair, -, rfl⟩ := List.mem_map.mp (hperm.mem_iff.mp hd)
    have hleft := suffix_left hle hpos
    exact ⟨rfl, rfl, Nat.sub_pos_of_lt hleft, transferBytes_eq_zero hpos _ _⟩
  refine Or.inr ⟨b, hpos, hle, hsome, fun b' hlt hle' => ?_, hperm, ?_, hfields⟩
  · exact hlarger b' (mem_tried.mpr ⟨by omega, hle'⟩) hlt
  · have hsorted : (router.iterDecisions q now).Pairwise before :=
      List.pairwise_insertionSort _ _
    refine hsorted.imp_of_mem fun hd hd' h => ?_
    rcases h with h | ⟨-, hgain⟩
    · rw [(hfields _ hd).1, (hfields _ hd').1] at h
      exact absurd h (lt_irrefl b)
    · exact hgain

end AffinityRouter

end PrismServe.Directory
