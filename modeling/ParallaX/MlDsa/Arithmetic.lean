import Mathlib.Data.Int.Bitwise
import Mathlib.Data.ZMod.Basic
import Mathlib.Tactic.LinearCombination

/-!
# ML-DSA-87: parameters and reductions

The integer arithmetic of the scheme. `i32` values are integers, and the
operations that wrap in the source wrap explicitly.
-/

namespace ParallaX.MlDsa

def N : Nat := 256

def Q : Int := 8380417

def D : Nat := 13

def K : Nat := 8

def L : Nat := 7

def ETA : Int := 2

def TAU : Nat := 60

def BETA : Int := 120

def GAMMA1 : Int := 2 ^ 19

def GAMMA2 : Int := (Q - 1) / 32

def OMEGA : Nat := 75

def GAMMA1_MINUS_BETA : Int := GAMMA1 - BETA

def GAMMA2_MINUS_BETA : Int := GAMMA2 - BETA

/-- The ring the coefficients stand for. -/
abbrev Zq : Type := ZMod 8380417

/-- Truncation to an `i32`, as `wrapping_*` and `as i32` do it. -/
def wrap32 (x : Int) : Int := x.bmod (2 ^ 32)

theorem wrap32_of_range {x : Int} (lower : -2 ^ 31 ≤ x) (upper : x < 2 ^ 31) : wrap32 x = x :=
  Int.bmod_eq_of_le (by omega) (by omega)

variable {a : Int} (x : Int)

theorem wrap32_range : -2 ^ 31 ≤ wrap32 x ∧ wrap32 x < 2 ^ 31 := by
  have lower := Int.le_bmod (x := x) (m := 2 ^ 32) (by decide)
  have upper := Int.bmod_lt (x := x) (m := 2 ^ 32) (by decide)
  unfold wrap32
  omega

theorem wrap32_emod : wrap32 x % 2 ^ 32 = x % 2 ^ 32 := Int.bmod_emod

theorem negOne_land : Int.land (-1) x = x := by
  cases x with
  | ofNat n =>
    change Int.ofNat (Nat.ldiff n 0) = _
    congr 1
    exact Nat.eq_of_testBit_eq fun i => by simp [Nat.testBit_ldiff]
  | negSucc n =>
    change Int.negSucc (0 ||| n) = _
    rw [Nat.zero_or]

theorem zero_land : Int.land 0 x = 0 := by
  cases x with
  | ofNat n =>
    change Int.ofNat (0 &&& n) = _
    rw [Nat.zero_and]
    rfl
  | negSucc n =>
    change Int.ofNat (Nat.ldiff 0 n) = _
    rw [show Nat.ldiff 0 n = 0 from
      Nat.eq_of_testBit_eq fun i => by simp [Nat.testBit_ldiff]]
    rfl

theorem shiftRight_sign {x : Int} (lower : -2 ^ 31 ≤ x) (upper : x < 2 ^ 31) :
    x >>> (31 : Nat) = if x < 0 then -1 else 0 := by
  rw [Int.shiftRight_eq_div_pow]
  split <;> omega

/-! ## Reductions -/

def QINV : Int := 58728449

/-- `a` is a product of two `i32` values, so the `i64` operations are exact. -/
def montgomeryReduce (a : Int) : Int :=
  let t := wrap32 (a * QINV)
  wrap32 ((a - t * Q) >>> (32 : Nat))

def reduce32 (a : Int) : Int :=
  let t := wrap32 (a + 2 ^ 22) >>> (23 : Nat)
  wrap32 (a - wrap32 (t * Q))

def caddq (a : Int) : Int := wrap32 (a + Int.land (a >>> (31 : Nat)) Q)

/-- The arguments for which `montgomery_reduce` is specified. -/
def MontgomeryRange (a : Int) : Prop := -(2 ^ 31 * Q) ≤ a ∧ a < 2 ^ 31 * Q

/-- A coefficient between `-bound` and `bound`, both excluded. -/
def Below (bound a : Int) : Prop := -bound < a ∧ a < bound

variable {bound other b : Int}

theorem Below.mono {larger : Int} (below : Below bound a) (le : bound ≤ larger) : Below larger a :=
  ⟨by have := below.1; omega, by have := below.2; omega⟩

theorem Below.add (first : Below bound a)
    (second : Below other b) : Below (bound + other) (a + b) := by
  obtain ⟨_, _⟩ := first
  obtain ⟨_, _⟩ := second
  exact ⟨by omega, by omega⟩

theorem Below.sub (first : Below bound a)
    (second : Below other b) : Below (bound + other) (a - b) := by
  obtain ⟨_, _⟩ := first
  obtain ⟨_, _⟩ := second
  exact ⟨by omega, by omega⟩

theorem Below.mul (first : Below bound a)
    (second : Below other b) : Below (bound * other) (a * b) := by
  obtain ⟨lower, upper⟩ := first
  obtain ⟨lower', upper'⟩ := second
  have absolute : |a * b| < bound * other := by
    rw [abs_mul]
    exact mul_lt_mul'' (abs_lt.mpr ⟨lower, upper⟩) (abs_lt.mpr ⟨lower', upper'⟩)
      (abs_nonneg a) (abs_nonneg b)
  exact abs_lt.mp absolute

theorem Below.montgomeryRange (below : Below (2 ^ 31 * Q) a) : MontgomeryRange a :=
  ⟨below.1.le, below.2⟩

/-- What wraps is divisible: the Montgomery word cancels the low half. -/
theorem montgomeryReduce_eq (range : MontgomeryRange a) :
    montgomeryReduce a * 2 ^ 32 = a - wrap32 (a * QINV) * Q ∧ Below Q (montgomeryReduce a) := by
  obtain ⟨_, _⟩ := range
  have word := wrap32_emod (a * QINV)
  obtain ⟨_, _⟩ := wrap32_range (a * QINV)
  unfold montgomeryReduce
  dsimp only
  rw [Int.shiftRight_eq_div_pow]
  generalize wrap32 (a * QINV) = t at *
  unfold QINV at word
  unfold Q at *
  have small : -8380417 < (a - t * 8380417) / ((2 ^ 32 : Nat) : Int) ∧
      (a - t * 8380417) / ((2 ^ 32 : Nat) : Int) < 8380417 := by
    constructor <;> omega
  rw [wrap32_of_range (by omega) (by omega)]
  exact ⟨by omega, small⟩

theorem below_montgomeryReduce (range : MontgomeryRange a) : Below Q (montgomeryReduce a) :=
  (montgomeryReduce_eq range).2

def MONT_INV : Zq := 8265825

theorem mont_inv : (2 ^ 32 : Zq) * MONT_INV = 1 := by
  decide

theorem cast_Q : ((Q : Int) : Zq) = 0 := by
  decide

/-- In the ring, a Montgomery reduction divides by `2 ^ 32`. -/
theorem cast_montgomeryReduce (range : MontgomeryRange a) :
    ((montgomeryReduce a : Int) : Zq) = MONT_INV * (a : Zq) := by
  have integers := (montgomeryReduce_eq range).1
  have ring := congrArg (Int.cast : Int → Zq) integers
  push_cast at ring
  rw [cast_Q, mul_zero, sub_zero] at ring
  linear_combination (MONT_INV : Zq) * ring - ((montgomeryReduce a : Int) : Zq) * mont_inv

/-- Within its range, `reduce32` is exact and centred. -/
theorem reduce32_eq (lower : -2 ^ 31 ≤ a) (upper : a < 2 ^ 31 - 2 ^ 22) :
    reduce32 a = a - (a + 2 ^ 22) / 2 ^ 23 * Q ∧ -6283009 ≤ reduce32 a ∧ reduce32 a ≤ 6283008 := by
  unfold reduce32
  dsimp only
  rw [Int.shiftRight_eq_div_pow, wrap32_of_range (x := a + 2 ^ 22) (by omega) (by omega)]
  unfold Q
  rw [wrap32_of_range (x := (a + 2 ^ 22) / ((2 ^ 23 : Nat) : Int) * 8380417)
    (by omega) (by omega), wrap32_of_range (by omega) (by omega)]
  omega

theorem cast_reduce32 (lower : -2 ^ 31 ≤ a)
    (upper : a < 2 ^ 31 - 2 ^ 22) : ((reduce32 a : Int) : Zq) = a := by
  rw [(reduce32_eq lower upper).1]
  push_cast
  rw [cast_Q, mul_zero, sub_zero]

theorem caddq_eq (below : Below (2 * Q) a) : caddq a = if a < 0 then a + Q else a := by
  obtain ⟨_, _⟩ := below
  have modulus : Q = 8380417 := rfl
  unfold caddq
  rw [shiftRight_sign (by omega) (by omega)]
  split
  · rw [negOne_land, wrap32_of_range (by omega) (by omega)]
  · rw [zero_land, wrap32_of_range (by omega) (by omega), add_zero]

theorem caddq_range (below : Below Q a) : 0 ≤ caddq a ∧ caddq a < Q := by
  rw [caddq_eq (below.mono (by decide))]
  obtain ⟨_, _⟩ := below
  split <;> omega

theorem cast_caddq (below : Below (2 * Q) a) : ((caddq a : Int) : Zq) = a := by
  rw [caddq_eq below]
  split
  · push_cast
    rw [cast_Q, add_zero]
  · rfl

end ParallaX.MlDsa
