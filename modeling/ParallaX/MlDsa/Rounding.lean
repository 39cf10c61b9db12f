import Mathlib.Tactic.IntervalCases
import ParallaX.MlDsa.Arithmetic

/-!
# ML-DSA-87: rounding

`power2round`, `decompose`, `make_hint` and `use_hint` on single coefficients,
as the branchless arithmetic of the source computes them, and what they mean:
a hint made for a sum of high and low part lets the high part be recovered.
-/

namespace ParallaX.MlDsa

/-- `(a1, a0)`. -/
def power2round (a : Int) : Int × Int :=
  let a1 := wrap32 (a + (2 ^ (D - 1) - 1)) >>> D
  (a1, wrap32 (a - wrap32 (a1 * 2 ^ D)))

/-- `(a1, a0)`. -/
def decompose (a : Int) : Int × Int :=
  let b := wrap32 (a + 127) >>> (7 : Nat)
  let c := wrap32 (wrap32 (b * 1025) + 2 ^ 21) >>> (22 : Nat)
  let a1 := Int.land c 15
  let a0 := wrap32 (a - wrap32 (wrap32 (a1 * 2) * GAMMA2))
  let mask := Int.land (wrap32 ((Q - 1) / 2 - a0) >>> (31 : Nat)) Q
  (a1, wrap32 (a0 - mask))

def makeHint (a0 a1 : Int) : Int :=
  let below := wrap32 (a0 + GAMMA2)
  let gt := Int.land (wrap32 (GAMMA2 - a0) >>> (31 : Nat)) 1
  let lt := Int.land (below >>> (31 : Nat)) 1
  let eqNegGamma2 := wrap32 ((Int.lor below (wrap32 (-below))) >>> (31 : Nat) + 1)
  let a1Nonzero := Int.land ((Int.lor a1 (wrap32 (-a1))) >>> (31 : Nat)) 1
  Int.lor (Int.lor gt lt) (Int.land eqNegGamma2 a1Nonzero)

def useHint (a hint : Int) : Int :=
  let parts := decompose a
  if hint = 0 then parts.1
  else if 0 < parts.2 then Int.land (parts.1 + 1) 15
  else Int.land (parts.1 - 1) 15

variable {x a : Int}

theorem land_fifteen (lower : -1 ≤ x) (upper : x ≤ 16) : Int.land x 15 = x % 16 := by
  interval_cases x <;> decide +kernel

theorem sign_bit (lower : -2 ^ 31 ≤ x) (upper : x < 2 ^ 31) :
    Int.land (x >>> (31 : Nat)) 1 = if x < 0 then 1 else 0 := by
  rw [shiftRight_sign lower upper]
  split
  · exact negOne_land 1
  · exact zero_land 1

theorem ldiff_lt {m n k : Nat} (small : m < 2 ^ k) : Nat.ldiff m n < 2 ^ k := by
  apply Nat.lt_pow_two_of_testBit
  intro _ above
  rw [Nat.testBit_ldiff, Nat.testBit_lt_two_pow
    (small.trans_le (Nat.pow_le_pow_right (by decide) above)), Bool.false_and]

theorem lor_neg_sign (lower : -2 ^ 31 < x) (upper : x < 2 ^ 31) :
    (Int.lor x (-x)) >>> (31 : Nat) = if x = 0 then 0 else -1 := by
  have sign (n : Nat) : n < 2 ^ 31 → (Int.negSucc n) >>> (31 : Nat) = -1 := by
    intro _
    rw [shiftRight_sign (by omega) (by omega), if_pos (by omega)]
  cases x with
  | ofNat n =>
    cases n with
    | zero => decide
    | succ n =>
      have value : Int.ofNat (n + 1) = (n : Int) + 1 := rfl
      exact sign _ (ldiff_lt (by omega))
  | negSucc n => exact sign _ (ldiff_lt (by omega))

/-! ## Specifications -/

/-- The parts of a coefficient that need not be reduced: `t1` fits ten bits and
`t0` thirteen. -/
theorem power2round_spec (lower : -4095 ≤ a) (upper : a ≤ 8384512) :
    a = (power2round a).1 * 2 ^ D + (power2round a).2 ∧
      (0 ≤ (power2round a).1 ∧ (power2round a).1 < 2 ^ 10) ∧
      -2 ^ (D - 1) < (power2round a).2 ∧ (power2round a).2 ≤ 2 ^ (D - 1) := by
  have bits : D = 13 := rfl
  simp only [power2round, bits, Nat.reduceSub]
  rw [Int.shiftRight_eq_div_pow,
    wrap32_of_range (show -2 ^ 31 ≤ a + (2 ^ 12 - 1) by omega) (by omega)]
  have high : (a + (2 ^ 12 - 1)) / ((2 ^ 13 : Nat) : Int) = (a + 4095) / 8192 := by norm_num
  rw [high, wrap32_of_range (x := (a + 4095) / 8192 * 2 ^ 13) (by omega)
    (by omega), wrap32_of_range (by omega) (by omega)]
  omega

/-- High and low part of a standard representative. At the top the high part
wraps to zero and the low part is negative. -/
inductive Decomposed (a a1 a0 : Int) : Prop
  | inner (split : a = a1 * (2 * GAMMA2) + a0) (lower : -GAMMA2 < a0)
      (upper : a0 ≤ GAMMA2) (high : 0 ≤ a1) (bounded : a1 ≤ 15)
  | top (split : a = Q + a0) (zero : a1 = 0) (lower : -GAMMA2 ≤ a0) (negative : a0 < 0)

/-- The multiplication by 1025 divides by `2 * GAMMA2`, rounding to the nearest
with ties down. -/
theorem decompose_high (lower : 0 ≤ a) (upper : a < Q) :
    ∃ c, 0 ≤ c ∧ c ≤ 16 ∧ c * 523776 - 261888 < a ∧ a ≤ c * 523776 + 261888 ∧
      wrap32 (wrap32 ((wrap32 (a + 127) >>> (7 : Nat)) * 1025) + 2 ^ 21) >>> (22 : Nat) = c := by
  have modulus : Q = 8380417 := rfl
  have first : wrap32 (a + 127) >>> (7 : Nat) = (a + 127) / 128 := by
    rw [wrap32_of_range (by omega) (by omega), Int.shiftRight_eq_div_pow]
    rfl
  have product : wrap32 ((a + 127) / 128 * 1025) = (a + 127) / 128 * 1025 :=
    wrap32_of_range (by omega) (by omega)
  have second : wrap32 ((a + 127) / 128 * 1025 + 2 ^ 21) >>> (22 : Nat) =
      ((a + 127) / 128 * 1025 + 2097152) / 4194304 := by
    rw [wrap32_of_range (by omega) (by omega), Int.shiftRight_eq_div_pow]
    rfl
  rw [first, product, second]
  refine ⟨_, ?_, ?_, ?_, ?_, rfl⟩ <;> omega

theorem decomposed_decompose (lower : 0 ≤ a) (upper : a < Q) :
    Decomposed a (decompose a).1 (decompose a).2 := by
  have modulus : Q = 8380417 := rfl
  have gamma : GAMMA2 = 261888 := by decide
  obtain ⟨c, _, _, _, _, high⟩ := decompose_high lower upper
  have wrapped : Int.land c 15 = c % 16 := land_fifteen (by omega) (by omega)
  have center (x : Int) (least : -261888 < x) (bounded : x < Q) :
      Int.land (wrap32 ((Q - 1) / 2 - x) >>> (31 : Nat)) Q = if (Q - 1) / 2 < x then Q else 0 := by
    rw [wrap32_of_range (by omega) (by omega), shiftRight_sign (by omega) (by omega)]
    by_cases large : (Q - 1) / 2 < x
    · rw [if_pos (by omega), if_pos large, negOne_land]
    · rw [if_neg (by omega), if_neg large, zero_land]
  simp only [decompose, high, wrapped, gamma]
  rw [wrap32_of_range (x := c % 16 * 2) (by omega) (by omega),
    wrap32_of_range (x := c % 16 * 2 * 261888) (by omega) (by omega),
    wrap32_of_range (x := a - c % 16 * 2 * 261888) (by omega) (by omega)]
  by_cases isTop : c = 16
  · have remainder : c % 16 = 0 := by omega
    rw [remainder, center _ (by omega) (by omega), if_pos (by omega),
      wrap32_of_range (by omega) (by omega)]
    apply Decomposed.top <;> omega
  · have remainder : c % 16 = c := by omega
    rw [remainder, center _ (by omega) (by omega), if_neg (by omega),
      wrap32_of_range (by omega) (by omega)]
    exact .inner (by rw [gamma]; omega) (by omega) (by omega) (by omega) (by omega)

theorem makeHint_eq {a0 a1 : Int} (lower : -(2 * GAMMA2) < a0)
    (upper : a0 < 2 * GAMMA2) (high : 0 ≤ a1) (bounded : a1 ≤ 15) :
    makeHint a0 a1 = if GAMMA2 < a0 ∨ a0 < -GAMMA2 ∨ (a0 = -GAMMA2 ∧ a1 ≠ 0) then 1 else 0 := by
  have gamma : GAMMA2 = 261888 := by decide
  simp only [makeHint]
  rw [wrap32_of_range (x := a0 + GAMMA2) (by omega) (by omega),
    wrap32_of_range (x := GAMMA2 - a0) (by omega) (by omega),
    wrap32_of_range (x := -(a0 + GAMMA2)) (by omega) (by omega),
    wrap32_of_range (x := -a1) (by omega) (by omega),
    sign_bit (by omega) (by omega), sign_bit (by omega) (by omega),
    lor_neg_sign (by omega) (by omega), lor_neg_sign (by omega) (by omega)]
  split_ifs <;> first | omega | decide +kernel

/-- Integers that agree in the ring differ by a multiple of `Q`. -/
theorem eq_of_cast_eq {b : Int} (same : (a : Zq) = b) : ∃ k : Int, a = b + k * Q := by
  have divides := (ZMod.intCast_eq_intCast_iff_dvd_sub b a 8380417).mp same.symm
  obtain ⟨k, difference⟩ := divides
  exact ⟨k, by rw [Q]; push_cast at difference; omega⟩

/-- The high part is recovered from any representative of the sum. -/
theorem useHint_makeHint {r a0 a1 : Int} (standard : 0 ≤ r ∧ r < Q)
    (lower : -(2 * GAMMA2) < a0) (upper : a0 < 2 * GAMMA2) (high : 0 ≤ a1) (bounded : a1 ≤ 15)
    (congruent : (r : Zq) = ((a1 * (2 * GAMMA2) + a0 : Int) : Zq)) :
    useHint r (makeHint a0 a1) = a1 := by
  have modulus : Q = 8380417 := rfl
  have gamma : GAMMA2 = 261888 := by decide
  obtain ⟨standardLower, standardUpper⟩ := standard
  obtain ⟨k, value⟩ := eq_of_cast_eq congruent
  rw [modulus, gamma] at value
  have parts := decomposed_decompose standardLower standardUpper
  rw [makeHint_eq lower upper high bounded]
  simp only [useHint]
  generalize decompose r = split at *
  obtain ⟨r1, _⟩ := split
  have range : -1 ≤ r1 - 1 ∧ r1 + 1 ≤ 16 := by
    rcases parts with ⟨_, _, _, nonneg, most⟩ | ⟨_, zero, _, _⟩ <;> omega
  rw [land_fifteen (by omega) range.2, land_fifteen range.1 (by omega)]
  -- A negative sum wraps to the top.
  have wraps : k = 0 ∨ k = 1 := by omega
  rcases parts with ⟨sum, least, greatest, _, _⟩ | ⟨sum, _, least, _⟩
  · rw [gamma] at sum least greatest
    rcases wraps with rfl | rfl
    · have neighbours : r1 = a1 - 1 ∨ r1 = a1 ∨ r1 = a1 + 1 := by omega
      rcases neighbours with rfl | rfl | rfl <;> split_ifs <;> omega
    · have bottom : a1 = 0 := by omega
      have last : r1 = 15 := by omega
      split_ifs <;> omega
  · rw [gamma] at least
    rcases wraps with rfl | rfl
    · have last : a1 = 15 := by omega
      split_ifs <;> omega
    · have bottom : a1 = 0 := by omega
      split_ifs <;> omega

end ParallaX.MlDsa
