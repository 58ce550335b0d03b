import PrismServe.Properties.IndexAlgebra
import PrismServe.Properties.ChainHashes
import PrismServe.Properties.LongestPrefix

/-!
# What is reused is what was cached

The router never sees the tokens that a worker has cached, only the hashes the
worker has reported.  When the reports are honest and hashes do not collide, the
tokens behind every decision are the first tokens of the prompt, whatever events,
reports and removals the index has been through, and since it was reported the
location was neither evicted nor removed with its owner.
-/

namespace PrismServe.Directory

open Lib

namespace PrefixIndex

variable {x y : PrefixIndex} {l : CacheLocation} {key : Key} {owner : Owner}

/-! ## Where locations come from -/

/-- The locations that an operation may add. -/
def Operation.reported : Operation → List CacheLocation
  | .applyEvents _ events => (events.filter (·.kind = .hashAdded)).map (·.location)
  | .installFullReport _ _ locations => locations
  | .installWorldFullReports reports _ => reports.flatMap (·.locations)
  | .removeInstance _ | .removeOwner _ | .clear => []

/-- The events that `applyFrom` applies: the others were seen before or come after a failure. -/
def applied (owner : Owner) : List PrefixEvent → Int → List PrefixEvent
  | [], _ => []
  | event :: rest, cursor =>
    if event.location.owner ≠ owner then []
    else if event.seqNo ≤ cursor then applied owner rest cursor
    else if event.seqNo ≠ cursor + 1 then []
    else
      match event.kind with
      | .unsupported _ => []
      | _ => event :: applied owner rest event.seqNo

/-- The event evicts the block of the location. -/
def Evicts (l : CacheLocation) (event : PrefixEvent) : Prop :=
  event.kind = .evicted ∧ event.location.key = l.key ∧ event.location.owner = l.owner ∧
    event.location.blockId = l.blockId

/-- The operation takes the location out, unless it reports it again. -/
def Operation.Drops (x : PrefixIndex) (l : CacheLocation) : Operation → Prop
  | .applyEvents owner events =>
    ∃ event ∈ applied owner events ((x.lastSeq.get? owner).getD 0), Evicts l event
  | .installFullReport owner _ _ => owner = l.owner
  | .installWorldFullReports reports expected =>
    ∃ y, PrefixIndex.installWorldFullReports reports expected = .ok y
  | .removeInstance instanceId => instanceId = l.instanceId
  | .removeOwner owner => owner = l.owner
  | .clear => True

/-- No operation of a run takes the location out. -/
def Survives (l : CacheLocation) : PrefixIndex → List Operation → Prop
  | _, [] => True
  | x, op :: rest => ¬ op.Drops x l ∧ Survives l (x.after op) rest

theorem survives_concat (ops : List Operation) (op : Operation) (x : PrefixIndex) :
    Survives l x (ops ++ [op]) ↔ Survives l x ops ∧ ¬ op.Drops (ops.foldl after x) l := by
  induction ops generalizing x with
  | nil =>
    simp [Survives]
  | cons first rest ih =>
    simp only [List.cons_append, Survives, ih, List.foldl_cons, and_assoc]

/-- A location that is not new was there before. -/
def Grown (reported : List CacheLocation) (x y : PrefixIndex) : Prop :=
  ∀ key, ∀ l ∈ y.locations key, l ∈ x.locations key ∨ (l ∈ reported ∧ l.key = key)

theorem Grown.refl (reported : List CacheLocation) (x : PrefixIndex) : Grown reported x x :=
  fun _ _ hl => Or.inl hl

theorem Grown.trans {z : PrefixIndex} {reported more : List CacheLocation}
    (h : Grown reported x y) (h' : Grown more y z) : Grown (reported ++ more) x z := by
  intro key l hl
  rcases h' key l hl with hl | ⟨hmem, hkey⟩
  · rcases h key l hl with hl | ⟨hmem, hkey⟩
    · exact Or.inl hl
    · exact Or.inr ⟨List.mem_append_left _ hmem, hkey⟩
  · exact Or.inr ⟨List.mem_append_right _ hmem, hkey⟩

theorem grown_add (x : PrefixIndex) (l : CacheLocation) : Grown [l] x (x.add l) := by
  intro key m hm
  rcases (mem_locations_add l m key).mp hm with hm | ⟨rfl, rfl⟩
  · exact Or.inl hm
  · exact Or.inr ⟨List.mem_singleton_self _, rfl⟩

theorem mem_locations_removeBlock {k : Key} {block : Int}
    (hl : l ∈ (x.removeBlock k owner block).locations key) :
    l ∈ x.locations key ∧ (k = key → owner = l.owner → block ≠ l.blockId) := by
  rw [removeBlock, locations_discardUnused, locations_store] at hl
  split at hl
  case isTrue hkey =>
    subst hkey
    obtain ⟨hl, hkept⟩ := List.mem_filter.mp hl
    simp only [decide_eq_true_eq] at hkept
    exact ⟨hl, fun _ howner hblock => hkept.elim (· howner.symm) (· hblock.symm)⟩
  case isFalse hkey =>
    exact ⟨hl, fun h => absurd h.symm hkey⟩

/-- A location after some events was added by one of them, or none of them has evicted it. -/
theorem mem_locations_applyFrom (events : List PrefixEvent) (c : Int) (x : PrefixIndex)
    (hl : l ∈ (applyFrom owner events c x).2.locations key) :
    (l ∈ (events.filter (·.kind = .hashAdded)).map (·.location) ∧ l.key = key) ∨
      (l ∈ x.locations key ∧ (l.key = key → ∀ e ∈ applied owner events c, ¬ Evicts l e)) := by
  have later : ∀ {event : PrefixEvent} {rest : List PrefixEvent},
      l ∈ (rest.filter (·.kind = .hashAdded)).map (·.location) ∧ l.key = key →
        l ∈ ((event :: rest).filter (·.kind = .hashAdded)).map (·.location) ∧ l.key = key :=
    fun h => h.imp_left fun h => (((List.sublist_cons_self _ _).filter _).map _).subset h
  fun_induction applyFrom owner events c x with
  | case1 c x =>
    exact Or.inr ⟨hl, by simp [applied]⟩
  | case2 event rest c x howner =>
    exact Or.inr ⟨hl, by simp [applied, howner]⟩
  | case3 event rest c x howner hseen ih =>
    simp only [applied, if_neg howner, if_pos hseen]
    exact (ih hl).imp_left later
  | case4 event rest c x howner hseen hgap =>
    exact Or.inr ⟨hl, by simp [applied, howner, hseen, hgap]⟩
  | case5 event rest c x howner hseen hgap hkind ih =>
    simp only [applied, if_neg howner, if_neg hseen, if_neg hgap, hkind]
    rcases ih hl with hnew | ⟨hl, hkept⟩
    · exact Or.inl (later hnew)
    rcases (mem_locations_add event.location l key).mp hl with hl | ⟨rfl, rfl⟩
    · refine Or.inr ⟨hl, fun hkey => List.forall_mem_cons.mpr ⟨?_, hkept hkey⟩⟩
      rintro ⟨hevicted, -⟩
      cases hkind.symm.trans hevicted
    · exact Or.inl ⟨by simp [hkind], rfl⟩
  | case6 event rest c x howner hseen hgap hkind ih =>
    simp only [applied, if_neg howner, if_neg hseen, if_neg hgap, hkind]
    rcases ih hl with hnew | ⟨hl, hkept⟩
    · exact Or.inl (later hnew)
    obtain ⟨hl, hblock⟩ := mem_locations_removeBlock hl
    refine Or.inr ⟨hl, fun hkey => List.forall_mem_cons.mpr ⟨?_, hkept hkey⟩⟩
    rintro ⟨-, hsame, hmine, hid⟩
    exact hblock (hsame.trans hkey) ((not_not.mp howner).symm.trans hmine) hid
  | case7 event rest c x howner hseen hgap kind hkind =>
    exact Or.inr ⟨hl, by simp [applied, howner, hseen, hgap, hkind]⟩

theorem grown_addReported (owner : Owner) (reported : List CacheLocation) (x : PrefixIndex) :
    Grown reported x (addReported owner reported x).2 := by
  induction reported generalizing x with
  | nil =>
    exact Grown.refl _ x
  | cons l rest ih =>
    simp only [addReported]
    split
    · exact Grown.refl _ x
    · exact (grown_add x l).trans (ih _)

theorem grown_stage {r : PrefixReport} (h : stage x r = .ok y) : Grown r.locations x y := by
  have hadded := grown_addReported r.owner r.locations (x.touch r.owner)
  unfold stage at h
  split at h
  · cases h
  split at h
  · cases h
  split at h
  · cases h
  case h_2 heq =>
    cases h
    rw [heq] at hadded
    exact hadded

theorem grown_stages {reports : List PrefixReport} (h : reports.foldlM stage x = .ok y) :
    Grown (reports.flatMap (·.locations)) x y := by
  induction reports generalizing x with
  | nil =>
    cases h
    exact Grown.refl _ y
  | cons r rest ih =>
    obtain ⟨x', hx', h⟩ := bind_eq_ok.mp h
    exact (grown_stage hx').trans (ih h)

/-! Setting the cursor leaves the locations alone. -/

theorem locations_applyEvents (owner : Owner) (events : List PrefixEvent) (x : PrefixIndex) :
    (x.applyEvents owner events).2.locations =
      (applyFrom owner events ((x.lastSeq.get? owner).getD 0) x).2.locations := by
  unfold applyEvents
  split
  case h_1 heq =>
    rw [heq]
  case h_2 heq =>
    rw [heq]
    rfl

theorem locations_installFullReport (owner : Owner) (seq : Int) (reported : List CacheLocation)
    (x : PrefixIndex) : (x.installFullReport owner seq reported).2.locations =
      (addReported owner reported (x.removeOwner owner)).2.locations := by
  unfold installFullReport
  split
  case h_1 heq =>
    rw [heq]
  case h_2 heq =>
    rw [heq]
    rfl

theorem Consistent.mem_locations_removeOwner (h : Consistent x) :
    l ∈ (x.removeOwner owner).locations key ↔ l ∈ x.locations key ∧ owner ≠ l.owner := by
  rw [h.locations_removeOwner, List.mem_filter, decide_eq_true_eq, ne_comm]

/-- After an operation a location was reported by it, or was there and is not dropped. -/
theorem mem_locations_after (h : Consistent x) {op : Operation}
    (hl : l ∈ (x.after op).locations key) :
    (l ∈ op.reported ∧ l.key = key) ∨
      (l ∈ x.locations key ∧ (l.key = key → ¬ op.Drops x l)) := by
  cases op with
  | applyEvents owner events =>
    rw [after, locations_applyEvents] at hl
    rcases mem_locations_applyFrom events _ x hl with hnew | ⟨hl, hkept⟩
    · exact Or.inl hnew
    · refine Or.inr ⟨hl, fun hkey => ?_⟩
      rintro ⟨event, hevent, hevicts⟩
      exact hkept hkey event hevent hevicts
  | installFullReport owner seq locations =>
    have hgrown := grown_addReported owner locations (x.removeOwner owner)
    rw [after, locations_installFullReport] at hl
    rcases hgrown key l hl with hl | hnew
    · exact Or.inr ((h.mem_locations_removeOwner.mp hl).imp_right fun hkept _ => hkept)
    · exact Or.inl hnew
  | installWorldFullReports reports expected =>
    simp only [after] at hl
    split at hl
    case h_1 y heq =>
      unfold PrefixIndex.installWorldFullReports at heq
      obtain ⟨staged, hstaged, heq⟩ := bind_eq_ok.mp heq
      split at heq
      · cases heq
        rcases grown_stages hstaged key l hl with hl | hnew
        · cases hl
        · exact Or.inl hnew
      · cases heq
    case h_2 e heq =>
      refine Or.inr ⟨hl, fun _ => ?_⟩
      rintro ⟨y, hy⟩
      rw [heq] at hy
      cases hy
  | removeInstance instanceId =>
    have hl : l ∈ (x.removeInstance instanceId).locations key := hl
    rw [(h.removeInstance instanceId).locations] at hl
    obtain ⟨hl, hkept⟩ := List.mem_filter.mp hl
    refine Or.inr ⟨hl, fun _ hsame => ?_⟩
    have hkey : key ∈ x.forwardKeys l.owner := (h.agree l.owner key).mpr ⟨l, hl, rfl⟩
    have hmem := mem_removed.mpr ⟨mem_forward_of_key hkey, hsame.symm⟩
    simp [hmem] at hkept
  | removeOwner owner =>
    exact Or.inr ((h.mem_locations_removeOwner.mp hl).imp_right fun hkept _ => hkept)
  | clear =>
    cases hl

/-- A location in the index was reported, and no later operation drops it. -/
theorem reported_since (ops : List Operation) (hl : l ∈ (afterAll ops).locations key) :
    l.key = key ∧ ∃ earlier op later, ops = earlier ++ op :: later ∧ l ∈ op.reported ∧
      Survives l (afterAll (earlier ++ [op])) later := by
  induction ops using List.reverseRecOn with
  | nil =>
    cases hl
  | append_singleton ops op ih =>
    rw [afterAll, List.foldl_append] at hl
    rcases mem_locations_after (consistent_afterAll ops) hl with ⟨hreported, hkey⟩ | ⟨hl, hkept⟩
    · exact ⟨hkey, ops, op, [], rfl, hreported, trivial⟩
    obtain ⟨hkey, earlier, op', later, rfl, hreported, hlater⟩ := ih hl
    refine ⟨hkey, earlier, op', later ++ [op], by simp, hreported, ?_⟩
    refine (survives_concat later op _).mpr ⟨hlater, ?_⟩
    have hkept := hkept hkey
    simpa [afterAll] using hkept

end PrefixIndex

/-! ## Honest reports -/

/-- The hash of the location is that of its block in the tokens the worker has cached. -/
structure Holds (hash : List UInt8 → UInt64) (n : Nat) (cached : List Int) (l : CacheLocation) :
    Prop where
  fits : ∀ x ∈ cached, Fits x
  chained : ∃ hashes i h, computeChainHashes hash cached n = .ok hashes ∧ l.blockIndex = (i : Nat) ∧
    hashes[i]? = some h ∧ l.chainHash = h.toNat

section Prefixes

variable {hash : List UInt8 → UInt64} {n : Nat} {s t : List Int}

theorem getElem?_hashes {i : Nat} {h : UInt64} :
    ((hashed hash n s).map hash)[i]? = some h ↔
      i < s.length / n ∧ hash (chainInput hash n s i) = h := by
  simp only [hashed, List.map_map, List.getElem?_map, Option.map_eq_some_iff,
    List.getElem?_eq_some_iff, List.length_range, List.getElem_range]
  constructor
  · rintro ⟨j, ⟨hj, rfl⟩, rfl⟩
    exact ⟨hj, rfl⟩
  · rintro ⟨hi, rfl⟩
    exact ⟨i, ⟨hi, rfl⟩, rfl⟩

/-- A location with a hash of the prompt holds the prefix of that hash. -/
theorem Holds.prefix_eq {l : CacheLocation} (h : Holds hash n s l) (hn : 0 < n)
    (ht : ∀ x ∈ t, Fits x) (hcollision : CollisionFree hash n s t) {k : Nat} {d : UInt64}
    (hd : ((hashed hash n t).map hash)[k]? = some d) (hl : l.chainHash = d.toNat) :
    l.blockIndex = k ∧ (k + 1) * n ≤ s.length ∧ s.take ((k + 1) * n) = t.take ((k + 1) * n) := by
  obtain ⟨hashes, i, d', hhashes, hindex, hd', hchain⟩ := h.chained
  rw [computeChainHashes_eq hn h.fits] at hhashes
  cases hhashes
  have hsame : d' = d := UInt64.toNat_inj.mp (by omega)
  subst hsame
  obtain ⟨hi, hdigest⟩ := getElem?_hashes.mp hd'
  obtain ⟨hk, hdigest'⟩ := getElem?_hashes.mp hd
  have hinput := hcollision _
    (List.mem_append_left _ (List.mem_map.mpr ⟨i, List.mem_range.mpr hi, rfl⟩)) _
    (List.mem_append_right _ (List.mem_map.mpr ⟨k, List.mem_range.mpr hk, rfl⟩))
    (hdigest.trans hdigest'.symm)
  obtain ⟨rfl, htake⟩ := prefix_of_chainInput h.fits ht hcollision hi hk hinput
  exact ⟨hindex, block_complete hi, htake⟩

end Prefixes

/-! ## Decisions -/

namespace AffinityRouter

variable {K : Type} [Field K] [LinearOrder K]

theorem mem_iterDecisions {router : AffinityRouter K} {q : RouteQuery K} {now : Time}
    {d : CachedPrefixDecision K} (hd : d ∈ router.iterDecisions q now) :
    ∃ b l target, 1 ≤ b ∧ b ≤ q.fingerprint.maxReusableBlocks ∧
      l ∈ router.index.freshUnder router.maxAge now q.fingerprint b ∧
      d = router.decision q b l target := by
  have hfound := (List.perm_insertionSort before _).mem_iff.mp hd
  change d ∈ router.search q (router.matchesAmong q now q.fingerprint.tried) at hfound
  rcases search_spec router q now _ (tried_descending q.fingerprint) with
    ⟨hempty, -⟩ | ⟨b, hb, -, -, hsearch⟩
  · rw [hempty] at hfound
    cases hfound
  rw [hsearch] at hfound
  obtain ⟨pair, hpair, rfl⟩ := List.mem_map.mp hfound
  obtain ⟨hpos, hle⟩ := mem_tried.mp hb
  exact ⟨b, pair.1, pair.2, hpos, hle,
    (List.mem_product.mp (List.mem_filter.mp hpair).1).1, rfl⟩

/-- Every decision is to send the first tokens of the prompt: the source has reported a location
whose cached tokens begin with them, and nothing after that report has evicted or removed it. -/
theorem reused_prefix_is_cached (hash : List UInt8 → UInt64) (cached : CacheLocation → List Int)
    (ops : List PrefixIndex.Operation) (router : AffinityRouter K) (q : RouteQuery K) (now : Time)
    (hindex : router.index = PrefixIndex.afterAll ops)
    (hprompt : PromptFingerprint.create hash q.fingerprint.cacheNamespace
      q.fingerprint.kvCompatibilityId q.fingerprint.requestContextDigest q.fingerprint.tokenIds
      q.fingerprint.blockSize = .ok q.fingerprint)
    (hfits : ∀ x ∈ q.fingerprint.tokenIds, Fits x)
    (hhonest : ∀ op ∈ ops, ∀ l ∈ op.reported, Holds hash q.fingerprint.blockSize (cached l) l ∧
      CollisionFree hash q.fingerprint.blockSize (cached l) q.fingerprint.tokenIds) :
    ∀ d ∈ router.iterDecisions q now, ∃ earlier op later l,
      ops = earlier ++ op :: later ∧ l ∈ op.reported ∧
      PrefixIndex.Survives l (PrefixIndex.afterAll (earlier ++ [op])) later ∧
      l.owner = (d.sourceInstance, d.sourceEpoch) ∧
      l.cacheNamespace = q.fingerprint.cacheNamespace ∧
      l.kvCompatibilityId = q.fingerprint.kvCompatibilityId ∧
      l.requestContextDigest = q.fingerprint.requestContextDigest ∧
      l.blockIndex + 1 = (d.cachedPrefixBlocks : Int) ∧
      0 < d.cachedPrefixTokens ∧ d.cachedPrefixTokens < q.fingerprint.tokenIds.length ∧
      q.fingerprint.tokenIds.take d.cachedPrefixTokens <+: cached l := by
  intro d hd
  obtain ⟨b, l, target, hpos, hle, hl, rfl⟩ := mem_iterDecisions hd
  have hn := q.fingerprint.blockSize_pos
  -- the hashes of the fingerprint are those of its tokens
  have hhashes : q.fingerprint.chainHashes =
      (hashed hash q.fingerprint.blockSize q.fingerprint.tokenIds).map hash := by
    rw [PromptFingerprint.create, computeChainHashes_eq hn hfits] at hprompt
    simp only [dif_pos hn, Except.ok.injEq] at hprompt
    rw [← hprompt]
  unfold PrefixIndex.freshUnder at hl
  split at hl
  · cases hl
  case h_2 digest hdigest =>
    obtain ⟨hl, -⟩ := List.mem_filter.mp hl
    rw [hindex] at hl
    obtain ⟨hkey, earlier, op, later, hops, hreported, hlater⟩ := PrefixIndex.reported_since ops hl
    obtain ⟨hspace, hkv, hcontext, hchain⟩ :
        l.cacheNamespace = q.fingerprint.cacheNamespace ∧
          l.kvCompatibilityId = q.fingerprint.kvCompatibilityId ∧
          l.requestContextDigest = q.fingerprint.requestContextDigest ∧
          l.chainHash = digest.toNat := by
      simpa [CacheLocation.key] using hkey
    obtain ⟨hholds, hcollision⟩ := hhonest op (by simp [hops]) l hreported
    rw [hhashes] at hdigest
    obtain ⟨hblock, hlength, htake⟩ := hholds.prefix_eq hn hfits hcollision hdigest hchain
    have hb : b - 1 + 1 = b := Nat.sub_add_cancel hpos
    rw [hb] at hlength htake
    refine ⟨earlier, op, later, l, hops, hreported, hlater, rfl, hspace, hkv, hcontext, ?_,
      Nat.mul_pos hpos hn, suffix_left hle hpos, ?_⟩
    · change l.blockIndex + 1 = (b : Int)
      omega
    · change q.fingerprint.tokenIds.take (b * q.fingerprint.blockSize) <+: cached l
      rw [← htake]
      exact List.take_prefix _ _

/-- A worker has cached the first two tokens; they are sent for a prompt of three. -/
theorem reused_prefix_is_cached_two :
    let hash : List UInt8 → UInt64 := fun b => b.foldl (fun d x => d * 3 + x.toUInt64) 0
    let l : CacheLocation := ⟨"p0", "e", "ns", "kv", "ctx", 2032766199, 1, 7, 2, 0⟩
    let ops := [.installFullReport ("p0", "e") 4 [l]]
    let f : PromptFingerprint :=
      ⟨"ns", "kv", "ctx", [1, 2, 3], [2187, 2032766199, 4343473854], 1, Nat.one_pos⟩
    let router : AffinityRouter ℚ := ⟨PrefixIndex.afterAll ops, 600, .empty, 8, Nat.succ_pos 7, 0⟩
    let q : RouteQuery ℚ := ⟨f, ["p0"], fun _ _ => true, 9, 1, none, none, none⟩
    Holds hash 1 [1, 2] l ∧ (router.iterDecisions q 5).map (·.cachedPrefixTokens) = [2] ∧
      ∀ d ∈ router.iterDecisions q 5, f.tokenIds.take d.cachedPrefixTokens <+: [1, 2] := by
  intro hash l ops f router q
  have hholds : Holds hash 1 [1, 2] l :=
    ⟨by decide, [2187, 2032766199], 1, 2032766199, by decide +kernel, rfl, rfl, rfl⟩
  refine ⟨hholds, by decide +kernel, fun d hd => ?_⟩
  have hhonest : ∀ op ∈ ops, ∀ l' ∈ PrefixIndex.Operation.reported op,
      Holds hash 1 [1, 2] l' ∧ CollisionFree hash 1 [1, 2] [1, 2, 3] := by
    intro op hop l' hl'
    rw [List.mem_singleton.mp hop] at hl'
    rw [List.mem_singleton.mp hl']
    exact ⟨hholds, by decide +kernel⟩
  have hhashes : computeChainHashes hash [1, 2, 3] (1 : Nat) = .ok f.chainHashes := by
    decide +kernel
  have hprompt : PromptFingerprint.create hash "ns" "kv" "ctx" [1, 2, 3] 1 = .ok f := by
    rw [PromptFingerprint.create, hhashes]
    rfl
  obtain ⟨_, _, _, _, -, -, -, -, -, -, -, -, -, -, hcached⟩ :=
    reused_prefix_is_cached hash (fun _ => [1, 2]) ops router q 5 rfl hprompt (by decide) hhonest
      d hd
  exact hcached

end AffinityRouter

end PrismServe.Directory
