import Mathlib.Data.List.Basic
import Mathlib.Tactic

/-!
# Numbers as bytes

`littleEndian k n` is the last `k` bytes of `n`, the least significant one first.
A number below `256 ^ k` can be read back from them.
-/

namespace PrismServe.Lib

/-- The `k` least significant bytes. -/
def littleEndian : Nat → Nat → List UInt8
  | 0, _ => []
  | k + 1, n => UInt8.ofNat (n % 256) :: littleEndian k (n / 256)

@[simp] theorem length_littleEndian (k n : Nat) : (littleEndian k n).length = k := by
  induction k generalizing n with
  | zero =>
    rfl
  | succ k ih =>
    simp [littleEndian, ih]

theorem littleEndian_injective {k m n : Nat} (hm : m < 256 ^ k) (hn : n < 256 ^ k)
    (h : littleEndian k m = littleEndian k n) : m = n := by
  induction k generalizing m n with
  | zero =>
    simp at hm hn
    omega
  | succ k ih =>
    obtain ⟨hbyte, hrest⟩ := List.cons.inj h
    have hbyte : m % 256 = n % 256 := by
      have htoNat := congrArg UInt8.toNat hbyte
      simpa using htoNat
    rw [pow_succ] at hm hn
    have hdiv : m / 256 = n / 256 :=
      ih (Nat.div_lt_of_lt_mul (by omega)) (Nat.div_lt_of_lt_mul (by omega)) hrest
    omega

/-- Blocks of one length are told apart in a sequence of them. -/
theorem flatMap_injective_on {α β : Type} {f : α → List β} {k : Nat} {P : α → Prop}
    (hlength : ∀ a, (f a).length = k) (hf : ∀ a b, P a → P b → f a = f b → a = b) :
    ∀ {l l' : List α}, l.length = l'.length → (∀ a ∈ l, P a) → (∀ a ∈ l', P a) →
      l.flatMap f = l'.flatMap f → l = l'
  | [], [], _, _, _, _ => rfl
  | a :: l, b :: l', hlen, hl, hl', h => by
      obtain ⟨hhead, hrest⟩ := List.append_inj h ((hlength a).trans (hlength b).symm)
      obtain ⟨ha, hl⟩ := List.forall_mem_cons.mp hl
      obtain ⟨hb, hl'⟩ := List.forall_mem_cons.mp hl'
      rw [hf a b ha hb hhead,
        flatMap_injective_on hlength hf (Nat.succ.inj hlen) hl hl' hrest]

end PrismServe.Lib
