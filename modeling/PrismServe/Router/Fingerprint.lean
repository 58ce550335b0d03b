import PrismServe.Lib.Bytes

/-!
# Fingerprints of prompts

A prompt is cut into complete blocks of tokens, and every block is hashed together
with the hash of the block before it.  The tokens are packed as signed 64-bit
integers; the hash is the 64-bit digest of a byte string, and is a parameter here.
-/

namespace PrismServe.Directory

open Lib

inductive FingerprintError
  | assertionError (message : String)
  /-- `struct.error`: a token does not fit into 64 bits. -/
  | structError
  deriving DecidableEq, Repr

/-- A token that fits into a signed 64-bit integer. -/
def Fits (token : Int) : Prop := -2 ^ 63 ≤ token ∧ token < 2 ^ 63

instance (token : Int) : Decidable (Fits token) := inferInstanceAs (Decidable (_ ∧ _))

/-- The eight bytes of a token, in two's complement. -/
def tokenBytes (token : Int) : List UInt8 := littleEndian 8 (token % 2 ^ 64).toNat

/-- `struct.pack(f"<{len(block)}q", *block)` -/
def pack (block : List Int) : Except FingerprintError (List UInt8) :=
  if ∀ token ∈ block, Fits token then .ok (block.flatMap tokenBytes) else .error .structError

/-- `previous.to_bytes(8, "little")` -/
def digestBytes (digest : UInt64) : List UInt8 := littleEndian 8 digest.toNat

/-- `range(0, len(token_ids) - block_size + 1, block_size)` -/
def blockStarts (length blockSize : Nat) : List Nat :=
  (List.range ((length + 1 - blockSize + (blockSize - 1)) / blockSize)).map (· * blockSize)

/-- The loop of `compute_chain_hashes`; there is no digest before the first block. -/
def chainFrom (hash : List UInt8 → UInt64) (tokenIds : List Int) (blockSize : Nat) :
    List Nat → Option UInt64 → Except FingerprintError (List UInt64)
  | [], _ => .ok []
  | start :: rest, previous => do
      let packed ← pack ((tokenIds.drop start).take blockSize)
      let digest := hash ((previous.map digestBytes).getD [] ++ packed)
      let hashes ← chainFrom hash tokenIds blockSize rest (some digest)
      return digest :: hashes

def computeChainHashes (hash : List UInt8 → UInt64) (tokenIds : List Int) (blockSize : Int) :
    Except FingerprintError (List UInt64) :=
  if 0 < blockSize then
    chainFrom hash tokenIds blockSize.toNat (blockStarts tokenIds.length blockSize.toNat) none
  else .error (.assertionError s!"invalid block size: block_size={blockSize}")

/-- A fingerprint; its block size is not zero, since it comes from `create`. -/
structure PromptFingerprint where
  cacheNamespace : String
  kvCompatibilityId : String
  requestContextDigest : String
  tokenIds : List Int
  chainHashes : List UInt64
  blockSize : Nat
  blockSize_pos : 0 < blockSize

namespace PromptFingerprint

def create (hash : List UInt8 → UInt64)
    (cacheNamespace kvCompatibilityId requestContextDigest : String)
    (tokenIds : List Int) (blockSize : Nat) : Except FingerprintError PromptFingerprint :=
  match computeChainHashes hash tokenIds blockSize with
  | .error e => .error e
  | .ok chainHashes =>
    if h : 0 < blockSize then
      .ok ⟨cacheNamespace, kvCompatibilityId, requestContextDigest, tokenIds, chainHashes,
        blockSize, h⟩
    else .error (.assertionError s!"invalid block size: block_size={blockSize}")

/-- A prompt of complete blocks keeps its last one, so that a token is left to compute. -/
def maxReusableBlocks (f : PromptFingerprint) : Nat :=
  let complete := f.tokenIds.length / f.blockSize
  let keepLastComplete := if f.tokenIds.length % f.blockSize = 0 then 1 else 0
  min f.chainHashes.length (complete - keepLastComplete)

end PromptFingerprint

end PrismServe.Directory
