import PrismServe.Gateway.PromptAdmission
import PrismServe.Properties.ChainHashes

/-!
# Which harness prompts can be fingerprinted

The checks of the two harnesses admit unsigned 64-bit tokens, the fingerprint packs
the tokens of the complete blocks as signed ones, and a `struct.error` is not among
what the handler catches.  So a prompt that has passed its checks is admitted when
all tokens of its complete blocks are below `2 ^ 63`, and makes the handler fail
otherwise.  The tokens behind the last complete block are never packed.
-/

namespace PrismServe
namespace Directory

open Lib

variable {hash : List UInt8 → UInt64} {n : Nat} {s : List Int}

/-! ## Fingerprints -/

/-- The loop ends well when it can pack every block, and raises `struct.error` otherwise. -/
theorem chainFrom_cases (hash : List UInt8 → UInt64) (s : List Int) (n : Nat) (starts : List Nat)
    (previous : Option UInt64) :
    ((∃ hashes, chainFrom hash s n starts previous = .ok hashes) ∧
        ∀ start ∈ starts, ∀ x ∈ (s.drop start).take n, Fits x) ∨
      (chainFrom hash s n starts previous = .error .structError ∧
        ¬ ∀ start ∈ starts, ∀ x ∈ (s.drop start).take n, Fits x) := by
  induction starts generalizing previous with
  | nil =>
    exact .inl ⟨⟨[], rfl⟩, by simp⟩
  | cons start rest ih =>
    simp only [List.forall_mem_cons, chainFrom, pack]
    by_cases hfits : ∀ x ∈ (s.drop start).take n, Fits x
    · rw [if_pos hfits, ok_bind]
      rcases ih (some (hash ((previous.map digestBytes).getD [] ++
        ((s.drop start).take n).flatMap tokenBytes))) with ⟨⟨hashes, hrest⟩, hall⟩ | ⟨hrest, hnot⟩
      · rw [hrest]
        exact .inl ⟨⟨_, rfl⟩, hfits, hall⟩
      · rw [hrest]
        exact .inr ⟨rfl, fun h => hnot h.2⟩
    · rw [if_neg hfits]
      exact .inr ⟨rfl, fun h => hfits h.1⟩

/-- The complete blocks are the prefix up to the end of the last one. -/
theorem forall_blocks_iff (P : Int → Prop) (n : Nat) (s : List Int) (k : Nat) :
    (∀ i < k, ∀ x ∈ block n s i, P x) ↔ ∀ x ∈ s.take (k * n), P x := by
  induction k with
  | zero =>
    simp
  | succ k ih =>
    rw [take_succ_mul]
    simp only [List.forall_mem_append, ← ih, Nat.forall_lt_succ_right]

theorem computeChainHashes_cases (hash : List UInt8 → UInt64) (s : List Int) (hn : 0 < n) :
    ((∃ hashes, computeChainHashes hash s n = .ok hashes) ∧
        ∀ x ∈ s.take (s.length / n * n), Fits x) ∨
      (computeChainHashes hash s n = .error .structError ∧
        ¬ ∀ x ∈ s.take (s.length / n * n), Fits x) := by
  have hblocks : (∀ start ∈ blockStarts s.length n, ∀ x ∈ (s.drop start).take n, Fits x) ↔
      ∀ x ∈ s.take (s.length / n * n), Fits x := by
    rw [← forall_blocks_iff]
    simp [blockStarts, length_blockStarts hn, block]
  unfold computeChainHashes
  rw [if_pos (by exact_mod_cast hn), Int.toNat_natCast, ← hblocks]
  exact chainFrom_cases hash s n _ none

end Directory

namespace Performance

open Lib Directory

variable {s : ChatSettings} {body : JsonObject} {p : HarnessPrompt}

/-- The tokens of the complete blocks. -/
def HarnessPrompt.packed (p : HarnessPrompt) : List Int :=
  p.tokenIds.take (p.tokenIds.length / p.tokenizer.blockSize * p.tokenizer.blockSize)

theorem createFingerprint_cases (s : ChatSettings) (p : HarnessPrompt) :
    ((∃ f, createFingerprint s p.tokenizer p.tokenIds = .ok f) ∧ ∀ x ∈ p.packed, Fits x) ∨
      (createFingerprint s p.tokenizer p.tokenIds = .error .other ∧ ¬ ∀ x ∈ p.packed, Fits x) := by
  have hpos := p.tokenizer.blockSize_pos
  rcases computeChainHashes_cases s.hash p.tokenIds hpos with ⟨⟨hashes, h⟩, hfits⟩ | ⟨h, hnot⟩
  · refine .inl ⟨?_, hfits⟩
    simp only [createFingerprint, PromptFingerprint.create, h, dif_pos hpos]
    exact ⟨_, rfl⟩
  · refine .inr ⟨?_, hnot⟩
    simp only [createFingerprint, PromptFingerprint.create, h, fingerprintExc]

/-! ## What the checks admit -/

theorem uint64Tokens_spec {values : List Json} {message : String} {tokens : List Int}
    (h : uint64Tokens values message = .ok tokens) : ∀ x ∈ tokens, isUint64 x = true := by
  have hall := mapM_eq_ok.mp h
  clear h
  induction hall with
  | nil =>
    simp
  | cons hvalue _ ih =>
    exact List.forall_mem_cons.mpr ⟨(uint64Token_eq_ok.mp hvalue).2, ih⟩

theorem correctnessTokens_spec {tokens : List Int} (h : correctnessTokens body = .ok tokens) :
    ∀ x ∈ tokens, isUint64 x = true := by
  simp only [correctnessTokens, bind_eq_ok] at h
  obtain ⟨-, -, values, -, -, -, hvalues⟩ := h
  exact uint64Tokens_spec hvalues

theorem parsePerformanceRequest_spec {d : Json.Digest} {encode : String → Except Exc (List Int)}
    {model : String} {profile : JsonObject} {request : PerformanceRequest}
    (h : parsePerformanceRequest d encode model profile body = .ok request) :
    ∀ x ∈ request.inputTokenIds, isUint64 x = true := by
  simp only [parsePerformanceRequest, bind_eq_ok, requireValue_eq_ok, exists_const, return_eq_ok,
    Except.ok.injEq, Bool.and_eq_true, List.all_eq_true] at h
  obtain ⟨_, _, _, _, _, _, _, _, _, _, _, _, _, _, _, _, _, _, tokens, _, _,
    ⟨_, htokens⟩, rfl⟩ := h
  exact htokens

/-- A harness prompt that has passed its checks consists of unsigned 64-bit tokens. -/
theorem harnessPrompt_uint64 (h : harnessPrompt s body = some (.ok (.inr p))) :
    ∀ x ∈ p.tokenIds, isUint64 x = true := by
  unfold harnessPrompt at h
  split at h
  · cases h
  · have h := Option.some.inj h
    obtain ⟨denied, -, h⟩ := bind_eq_ok.mp h
    split at h
    · cases h
    simp only [bind_eq_ok] at h
    obtain ⟨-, -, route, -, h⟩ := h
    split at h
    · cases h
    · simp only [bind_eq_ok, return_eq_ok, Except.ok.injEq, Sum.inr.injEq] at h
      obtain ⟨-, -, tokens, htokens, rfl⟩ := h
      exact correctnessTokens_spec htokens
  · have h := Option.some.inj h
    obtain ⟨denied, -, h⟩ := bind_eq_ok.mp h
    split at h
    · cases h
    · simp only [bind_eq_ok, return_eq_ok, Except.ok.injEq, Sum.inr.injEq] at h
      obtain ⟨_, _, request, hrequest, rfl⟩ := h
      exact parsePerformanceRequest_spec hrequest
  · cases h

/-- An unsigned 64-bit token can be packed when it is below half of the range. -/
theorem fits_iff {x : Int} (h : isUint64 x = true) : Fits x ↔ x < 2 ^ 63 := by
  simp only [isUint64, Bool.and_eq_true, decide_eq_true_eq] at h
  unfold Fits
  omega

/-! ## The handler -/

/-- The prompt of the request has passed the checks of its harness. -/
def Accepted (s : ChatSettings) (document : Except Exc Json) (p : HarnessPrompt) : Prop :=
  ∃ body, checkedBody s document = .ok body ∧ harnessPrompt s body = some (.ok (.inr p))

/-- The handler goes on with the prompt, or answers that the request is invalid. -/
def Handled (r : Except Exc PromptOutcome) : Prop :=
  (∃ prompt, r = .ok (.admitted prompt)) ∨ ∃ detail, r = .ok (.response (invalidRequest detail))

theorem readPrompt_of_accepted {document : Except Exc Json} (h : Accepted s document p) :
    readPrompt s document = fingerprintHarness s p := by
  obtain ⟨body, hbody, hp⟩ := h
  simp only [readPrompt, hbody, ok_bind, hp]

/-- A prompt that has passed the checks of its harness is handled exactly when the tokens of its
complete blocks are below `2 ^ 63`. -/
theorem harness_prompt_handled_iff (s : ChatSettings) (document : Except Exc Json)
    (p : HarnessPrompt) (h : Accepted s document p) :
    Handled (chatPrompt s document) ↔
      ∀ token ∈ p.tokenIds.take (p.tokenIds.length / p.tokenizer.blockSize * p.tokenizer.blockSize),
        token < 2 ^ 63 := by
  have huint : ∀ x ∈ p.tokenIds, isUint64 x = true := by
    obtain ⟨body, -, hp⟩ := h
    exact harnessPrompt_uint64 hp
  have hfits : (∀ x ∈ p.packed, Fits x) ↔ ∀ token ∈ p.packed, token < 2 ^ 63 :=
    forall₂_congr fun x hx => fits_iff (huint x (List.mem_of_mem_take hx))
  change _ ↔ ∀ token ∈ p.packed, token < 2 ^ 63
  rw [← hfits, chatPrompt, readPrompt_of_accepted h, fingerprintHarness]
  rcases createFingerprint_cases s p with ⟨⟨f, hf⟩, hall⟩ | ⟨hf, hnot⟩
  · rw [hf]
    exact iff_of_true (.inl ⟨_, rfl⟩) hall
  rw [hf]
  refine iff_of_false ?_ hnot
  rintro (⟨prompt, hok⟩ | ⟨detail, hok⟩)
  · cases hok
  · cases hok

/-- A gateway with both harnesses, whose tokenizer has blocks of the given size. -/
def harnessSettings (blockSize : Nat) (hpos : 0 < blockSize) : ChatSettings where
  runtimeModel := "model"
  correctnessHarnessEnabled := true
  routeParityHarnessEnabled := false
  performanceHarnessEnabled := false
  affinityEnabled := true
  configuredSecret := "secret"
  suppliedSecret := "secret"
  expectedModelProfile := []
  tokenizer := some ⟨"namespace", "kv", blockSize, hpos, fun _ _ => .ok []⟩
  digest := ⟨id, fun _ => []⟩
  hash := fun _ => 0
  toText := fun _ => ""

/-- A request of the correctness harness. -/
def correctnessRequest (tokens : List Int) : Except Exc Json :=
  .ok (.object [("model", .string "model"),
    ("week12_correctness", .object [("path", .string "cold")]),
    ("input_token_ids", .array (tokens.map .integer))])

/-- With blocks of two tokens the third token is never packed. -/
theorem harness_prompt_handled_incomplete_block :
    Handled (chatPrompt (harnessSettings 2 (by decide)) (correctnessRequest [1, 2, 2 ^ 63])) := by
  have haccepted : Accepted (harnessSettings 2 (by decide)) (correctnessRequest [1, 2, 2 ^ 63])
      ⟨⟨"namespace", "kv", 2, by decide, fun _ _ => .ok []⟩, [1, 2, 2 ^ 63],
        some ⟨.cold, "p0", "d1", 0, true⟩, none⟩ := ⟨_, rfl, rfl⟩
  exact (harness_prompt_handled_iff _ _ _ haccepted).mpr (by decide)

/-- The least token above the signed range passes the checks, and the handler raises. -/
theorem unsigned_token_unhandled :
    (∃ p, Accepted (harnessSettings 1 (by decide)) (correctnessRequest [2 ^ 63]) p ∧
        p.tokenIds = [2 ^ 63]) ∧
      chatPrompt (harnessSettings 1 (by decide)) (correctnessRequest [2 ^ 63]) = .error .other := by
  refine ⟨⟨⟨⟨"namespace", "kv", 1, by decide, fun _ _ => .ok []⟩, [2 ^ 63],
    some ⟨.cold, "p0", "d1", 0, true⟩, none⟩, ⟨_, rfl, rfl⟩, rfl⟩, ?_⟩
  rfl

end Performance
end PrismServe
