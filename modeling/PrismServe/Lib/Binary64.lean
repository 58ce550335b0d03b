import Mathlib.Tactic

/-!
# Rounding to double precision

A product of doubles is its exact value rounded to 53 significant bits, ties to
the even significand.  `round` computes it on the rationals; the range of the
exponent is left unbounded.  Two facts are used of it: integers below `2 ^ 53` are
kept, and the relative error upwards is at most `2 ^ -53`.
-/

namespace PrismServe.Lib.Binary64

/-- The exponent of the leading bit. -/
def exponent (x : Rat) : Int :=
  let e := (Nat.log2 x.num.natAbs : Int) - Nat.log2 x.den
  if |x| < 2 ^ e then e - 1 else e

/-- The nearest integer, the even one of two. -/
def nearestEven (q : Rat) : Int :=
  if q - q.floor < 1 / 2 then q.floor
  else if 1 / 2 < q - q.floor then q.floor + 1
  else if q.floor % 2 = 0 then q.floor
  else q.floor + 1

def round (x : Rat) : Rat :=
  if x = 0 then 0
  else
    let unit : Rat := 2 ^ (exponent x - 52)
    nearestEven (x / unit) * unit

theorem nearestEven_le (q : Rat) : (nearestEven q : Rat) ≤ q + 1 / 2 := by
  have hfloor : (q.floor : Rat) ≤ q := Rat.floor_le q
  unfold nearestEven
  split_ifs with h₁ h₂ h₃
  · linarith
  · push_cast
    linarith
  · linarith
  · push_cast
    linarith

/-- The leading bit is not above the number. -/
theorem two_pow_exponent_le {x : Rat} (hx : 0 < x) : (2 : Rat) ^ exponent x ≤ x := by
  have hnum : 0 < x.num := Rat.num_pos.mpr hx
  set a := x.num.natAbs with ha
  have ha0 : a ≠ 0 := by
    rw [ha]
    omega
  have hxa : x * x.den = a := by
    have hcast : (x.num : Rat) = (a : Rat) := by
      have hint : x.num = (a : Int) := by omega
      rw [hint]
      simp
    rw [← hcast, Rat.mul_den_eq_num]
  have hlow : (2 : Rat) ^ a.log2 ≤ a := by exact_mod_cast Nat.log2_self_le ha0
  have hhigh : (x.den : Rat) < 2 ^ (x.den.log2 + 1) := by exact_mod_cast Nat.lt_log2_self
  unfold exponent
  simp only [abs_of_pos hx, ← ha]
  split_ifs with h
  · have hsplit : (2 : Rat) ^ ((a.log2 : Int) - x.den.log2 - 1) =
        2 ^ a.log2 / 2 ^ (x.den.log2 + 1) := by
      rw [sub_sub, zpow_sub₀ two_ne_zero, zpow_natCast]
      norm_cast
    rw [hsplit, div_le_iff₀ (by positivity)]
    calc (2 : Rat) ^ a.log2 ≤ a := hlow
      _ = x * x.den := hxa.symm
      _ ≤ x * 2 ^ (x.den.log2 + 1) := mul_le_mul_of_nonneg_left hhigh.le hx.le
  · exact not_lt.mp h

/-- Rounding up adds at most half a unit in the last place. -/
theorem round_le {x : Rat} (hx : 0 ≤ x) : round x ≤ x + x / 2 ^ 53 := by
  unfold round
  split_ifs with h
  · simp [h]
  · have hpos : 0 < x := lt_of_le_of_ne hx (Ne.symm h)
    have hlead := two_pow_exponent_le hpos
    set unit : Rat := 2 ^ (exponent x - 52) with hunit
    have hunit0 : 0 < unit := by positivity
    have hsmall : unit * 2 ^ 52 ≤ x := by
      have hsplit : unit * 2 ^ 52 = 2 ^ exponent x := by
        rw [hunit, zpow_sub₀ two_ne_zero]
        norm_num
      rw [hsplit]
      exact hlead
    calc (nearestEven (x / unit) : Rat) * unit
        ≤ (x / unit + 1 / 2) * unit :=
          mul_le_mul_of_nonneg_right (nearestEven_le _) hunit0.le
      _ = x + unit / 2 := by field_simp
      _ ≤ x + x / 2 ^ 53 := by
          have : unit / 2 ≤ x / 2 ^ 53 := by
            rw [le_div_iff₀ (by positivity)]
            calc unit / 2 * 2 ^ 53 = unit * 2 ^ 52 := by ring
              _ ≤ x := hsmall
          linarith

theorem nearestEven_intCast (k : Int) : nearestEven (k : Rat) = k := by
  unfold nearestEven
  rw [Rat.floor_intCast, sub_self, if_pos (by norm_num)]

theorem exponent_natCast {n : Nat} (hn : n ≠ 0) : exponent (n : Rat) = Nat.log2 n := by
  have hlow : (2 : Rat) ^ n.log2 ≤ n := by exact_mod_cast Nat.log2_self_le hn
  have hone : Nat.log2 1 = 0 := by decide
  unfold exponent
  simp [hone, hlow]

/-- An integer that fits the significand is a double. -/
theorem round_natCast {n : Nat} (hn : n < 2 ^ 53) : round (n : Rat) = n := by
  unfold round
  split_ifs with h
  · exact h.symm
  · have hn0 : n ≠ 0 := by exact_mod_cast h
    have hlog : n.log2 ≤ 52 := by
      have hlt := (Nat.log2_lt hn0).mpr hn
      omega
    have hunit : (2 : Rat) ^ (exponent (n : Rat) - 52) = 1 / 2 ^ (52 - n.log2) := by
      rw [exponent_natCast hn0, one_div, ← zpow_natCast, ← zpow_neg]
      congr 1
      omega
    have hscaled : (n : Rat) / (1 / 2 ^ (52 - n.log2)) =
        ((n * 2 ^ (52 - n.log2) : Nat) : Int) := by
      push_cast
      field_simp
    simp only [hunit, hscaled, nearestEven_intCast]
    push_cast
    field_simp

end PrismServe.Lib.Binary64
