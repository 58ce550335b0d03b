import PrismServe.Router.PrefixIndex
import PrismServe.Router.Fingerprint

/-!
# Routing to the longest cached prefix

`iterDecisions` looks for cached prefixes of a prompt, from the longest to the
shortest, and takes all pairs of a source and a target at the first length at which
there is one that is worth it.  Costs are taken in an ordered field: a transfer over
a link that is not known costs infinitely much, and the gain is then minus infinity.
-/

namespace PrismServe.Directory

open Lib

/-! ## Costs of transfers -/

structure LinkInfo (K : Type) where
  kind : String
  measuredGbps : K
  fixedOverheadMs : K

/-- The links, by their source and target. -/
abbrev TopologyMatrix (K : Type) := Dict (String × String) (LinkInfo K)

section Costs

variable {K : Type} [Field K] [LinearOrder K]

def TopologyMatrix.transferCostMs (topology : TopologyMatrix K) (source target : String)
    (sizeBytes : Nat) : WithTop K :=
  if source = target then 0
  else
    match topology.get? (source, target) with
    | none => ⊤
    | some link =>
      if link.measuredGbps ≤ 0 then ⊤
      else
        let bytesPerMs := link.measuredGbps * 1000000000 / 8 / 1000
        ((link.fixedOverheadMs + sizeBytes / bytesPerMs : K) : WithTop K)

/-- `full_prefill_ms - cost` -/
def gainMs (fullPrefillMs : K) : WithTop K → WithBot K
  | none => ⊥
  | some cost => ((fullPrefillMs - cost : K) : WithBot K)

end Costs

/-! ## Matches -/

/-- The fresh locations of the prefix of some blocks. -/
def PrefixIndex.freshUnder (index : PrefixIndex) (maxAge now : Time)
    (fingerprint : PromptFingerprint) (blocks : Nat) : List CacheLocation :=
  match fingerprint.chainHashes[blocks - 1]? with
  -- there is a hash for every block that can be reused
  | none => []
  | some chainHash =>
    (index.locations (fingerprint.cacheNamespace, fingerprint.kvCompatibilityId,
      fingerprint.requestContextDigest, (chainHash.toNat : Int))).filter
      fun l => now - l.lastUpdated ≤ maxAge

/-- `range(fingerprint.max_reusable_blocks(), 0, -1)` -/
def PromptFingerprint.tried (fingerprint : PromptFingerprint) : List Nat :=
  (List.range fingerprint.maxReusableBlocks).reverse.map (· + 1)

/-- `iter_matches`: the prefixes with fresh locations, from the longest. -/
def PrefixIndex.iterMatches (index : PrefixIndex) (maxAge now : Time)
    (fingerprint : PromptFingerprint) : List (Nat × List CacheLocation) :=
  (fingerprint.tried.map fun blocks =>
    (blocks, index.freshUnder maxAge now fingerprint blocks)).filter fun m => !m.2.isEmpty

/-! ## Decisions -/

structure CachedPrefixDecision (K : Type) where
  sourceInstance : String
  sourceEpoch : String
  decodeInstance : String
  cachedPrefixBlocks : Nat
  cachedPrefixTokens : Nat
  transferBytes : Nat
  estimatedGainMs : WithBot K

/-- The router; a block has at least one byte. -/
structure AffinityRouter (K : Type) where
  index : PrefixIndex
  maxAge : Time
  topology : TopologyMatrix K
  blockBytes : Nat
  blockBytes_pos : 0 < blockBytes
  safetyMarginMs : K

/-- The arguments of `iter_decisions`. -/
structure RouteQuery (K : Type) where
  fingerprint : PromptFingerprint
  decodeCandidates : List String
  sourceEpochIsCurrent : String → String → Bool
  fullPrefillMs : K
  suffixPrefillMsPerToken : K
  requiredSource : Option String
  requiredTarget : Option String
  requiredCachedPrefixBlocks : Option Int

section Decisions

variable {K : Type} [Field K] [LinearOrder K]

variable (router : AffinityRouter K) (q : RouteQuery K)

def RouteQuery.forced : Bool :=
  q.requiredSource.isSome ∨ q.requiredTarget.isSome ∨ q.requiredCachedPrefixBlocks.isSome

namespace AffinityRouter

/-- What is appended for a location and a target. -/
def decision (blocks : Nat) (l : CacheLocation) (target : String) : CachedPrefixDecision K :=
  let prefixTokens := blocks * q.fingerprint.blockSize
  let suffixTokens := q.fingerprint.tokenIds.length - prefixTokens
  let transferBytes := if target = l.instanceId then 0 else blocks * router.blockBytes
  let transferMs := router.topology.transferCostMs l.instanceId target transferBytes
  let cost := transferMs + ((suffixTokens * q.suffixPrefillMsPerToken : K) : WithTop K)
  ⟨l.instanceId, l.instanceEpoch, target, blocks, prefixTokens, transferBytes,
    gainMs q.fullPrefillMs cost⟩

/-- The inner loop, over the targets. -/
def decisionsFor (blocks : Nat) (l : CacheLocation) : List (CachedPrefixDecision K) :=
  q.decodeCandidates.filterMap fun target =>
    if ¬ (q.requiredTarget.all fun t => t = target) then none
    else
      let d := router.decision q blocks l target
      if ¬ q.forced ∧ d.estimatedGainMs ≤ (router.safetyMarginMs : WithBot K) then none
      else some d

/-- The loop over the locations of one match. -/
def decisionsAt (blocks : Nat) (locations : List CacheLocation) : List (CachedPrefixDecision K) :=
  locations.flatMap fun l =>
    if ¬ (q.requiredSource.all fun s => s = l.instanceId) then []
    else if ¬ q.sourceEpochIsCurrent l.instanceId l.instanceEpoch then []
    else router.decisionsFor q blocks l

/-- The outer loop; it ends with the first match for which there are decisions. -/
def search : List (Nat × List CacheLocation) → List (CachedPrefixDecision K)
  | [] => []
  | (blocks, locations) :: rest =>
    if ¬ (q.requiredCachedPrefixBlocks.all fun b => b = (blocks : Int)) then search rest
    else if (router.decisionsAt q blocks locations).isEmpty then search rest
    else router.decisionsAt q blocks locations

/-- More blocks first, and then more gain. -/
def before (d d' : CachedPrefixDecision K) : Prop :=
  d'.cachedPrefixBlocks < d.cachedPrefixBlocks ∨
    (d.cachedPrefixBlocks = d'.cachedPrefixBlocks ∧ d'.estimatedGainMs ≤ d.estimatedGainMs)

instance : DecidableRel (before (K := K)) := fun _ _ =>
  inferInstanceAs (Decidable (_ ∨ (_ ∧ _)))

def iterDecisions (now : Time) : List (CachedPrefixDecision K) :=
  (router.search q (router.index.iterMatches router.maxAge now q.fingerprint)).insertionSort before

end AffinityRouter

end Decisions

end PrismServe.Directory
