import ParallaX.MlDsa.Hints
import ParallaX.MlDsa.Rounding

/-!
# ML-DSA-87: polynomials and vectors

The operations of `poly.rs` and `polyvec.rs` on coefficients, and products of
polynomials in the transform domain: there the ring is a product of fields, and
every operation of the scheme is pointwise.
-/

namespace ParallaX.MlDsa

open Transform

namespace Poly

def reduce (a : Poly) : Poly := fun i => reduce32 (a i)

def caddq (a : Poly) : Poly := fun i => MlDsa.caddq (a i)

def add (a b : Poly) : Poly := fun i => wrap32 (a i + b i)

def sub (a b : Poly) : Poly := fun i => wrap32 (a i - b i)

def shiftl (a : Poly) : Poly := fun i => wrap32 (a i * 2 ^ D)

def high (split : Int → Int × Int) (a : Poly) : Poly := fun i => (split (a i)).1

def low (split : Int → Int × Int) (a : Poly) : Poly := fun i => (split (a i)).2

def makeHint (a0 a1 : Poly) : Poly := fun i => MlDsa.makeHint (a0 i) (a1 i)

def bits (h : Poly) : Nat := ((List.finRange N).map fun i => (h i).toNat).sum

def useHint (a h : Poly) : Poly := fun i => MlDsa.useHint (a i) (h i)

/-- Some coefficient is `b` or more in absolute value. -/
def chknorm (a : Poly) (b : Int) : Bool :=
  if (Q - 1) / 8 < b then true
  else
    (List.finRange N).any fun i =>
      let t := a i >>> (31 : Nat)
      decide (b ≤ wrap32 (a i - Int.land t (wrap32 (a i * 2))))

end Poly

/-- Some polynomial violates the bound. -/
def chknormVec {dim : Nat} (v : Fin dim → Poly) (b : Int) : Bool :=
  (List.finRange dim).any fun i => (v i).chknorm b

/-- The first product and `count` more. -/
def accumulate (u v : Polyvecl) (count : Nat) : Poly :=
  (List.range' 1 count).foldl
    (fun w i => w.add (pointwiseMontgomery (u (Fin.ofNat L i)) (v (Fin.ofNat L i))))
    (pointwiseMontgomery (u 0) (v 0))

/-- The inner product of two vectors in the transform domain. -/
def pointwiseAccMontgomery (u v : Polyvecl) : Poly := accumulate u v (L - 1)

def matrixPointwiseMontgomery (mat : Fin K → Polyvecl) (v : Polyvecl) : Polyveck :=
  fun i => pointwiseAccMontgomery (mat i) v

/-! ## Bounds and residues -/

def Bounded (bound : Int) (a : Poly) : Prop := ∀ i, Below bound (a i)

variable {a : Poly} {i : Nat}

theorem Bounded.mono {bound larger : Int} (bounded : Bounded bound a)
    (le : bound ≤ larger) : Bounded larger a :=
  fun i => (bounded i).mono le

variable {b c : Poly}

theorem reading_add {bound other : Int} (first : Bounded bound a)
    (second : Bounded other b) (fits : bound + other ≤ 2 ^ 31) :
    Bounded (bound + other) (a.add b) ∧ ∀ i, reading (a.add b) i = reading a i + reading b i := by
  have exact (i : Fin N) : a.add b i = a i + b i :=
    wrap32_of_fits (fitsI32_of_below ((first i).add (second i)) fits)
  refine ⟨fun i => ?_, fun i => ?_⟩
  · rw [exact]
    exact (first i).add (second i)
  · simp only [reading, exact]
    push_cast
    rfl

theorem reading_sub {bound other : Int} (first : Bounded bound a)
    (second : Bounded other b) (fits : bound + other ≤ 2 ^ 31) :
    Bounded (bound + other) (a.sub b) ∧ ∀ i, reading (a.sub b) i = reading a i - reading b i := by
  have exact (i : Fin N) : a.sub b i = a i - b i :=
    wrap32_of_fits (fitsI32_of_below ((first i).sub (second i)) fits)
  refine ⟨fun i => ?_, fun i => ?_⟩
  · rw [exact]
    exact (first i).sub (second i)
  · simp only [reading, exact]
    push_cast
    rfl

theorem reading_reduce (bounded : Bounded (2 ^ 31 - 2 ^ 22) a) :
    Bounded Q a.reduce ∧ ∀ i, reading a.reduce i = reading a i := by
  have modulus : Q = 8380417 := rfl
  refine ⟨fun i => ?_, fun i => ?_⟩
  · obtain ⟨lower, upper⟩ := bounded i
    obtain ⟨-, _, _⟩ := reduce32_eq (by omega) upper
    exact ⟨by rw [modulus, Poly.reduce]; omega, by rw [modulus, Poly.reduce]; omega⟩
  · obtain ⟨_, upper⟩ := bounded (Fin.ofNat N i)
    exact cast_reduce32 (by omega) upper

theorem reading_caddq (bounded : Bounded Q a) :
    (∀ i, 0 ≤ a.caddq i ∧ a.caddq i < Q) ∧ ∀ i, reading a.caddq i = reading a i :=
  ⟨fun i => caddq_range (bounded i), fun _ => cast_caddq ((bounded _).mono (by decide))⟩

theorem bounded_of_chknorm {b : Int} (small : Bounded (2 ^ 30) a) (passes : a.chknorm b = false) :
    Bounded b a := by
  intro i
  unfold Poly.chknorm at passes
  split at passes
  · cases passes
  · have entry := List.any_eq_false.mp passes i (List.mem_finRange i)
    obtain ⟨_, _⟩ := small i
    simp only [decide_eq_true_eq] at entry
    rw [shiftRight_sign (by omega) (by omega),
      wrap32_of_range (x := a i * 2) (by omega) (by omega)] at entry
    by_cases negative : a i < 0
    · rw [if_pos negative, negOne_land, wrap32_of_range (by omega) (by omega)] at entry
      exact ⟨by omega, by omega⟩
    · rw [if_neg negative, zero_land, wrap32_of_range (by omega) (by omega)] at entry
      exact ⟨by omega, by omega⟩

theorem bounded_of_chknormVec {dim : Nat} {v : Fin dim → Poly} {b : Int}
    (small : ∀ i, Bounded (2 ^ 30) (v i)) (passes : chknormVec v b = false)
    (i : Fin dim) : Bounded b (v i) := by
  have entry := List.any_eq_false.mp passes i (List.mem_finRange i)
  exact bounded_of_chknorm (small i) (by simpa using entry)

/-! ## The transform domain -/

def hat (a : Poly) (i : Nat) : Zq := forward 8 zetaq 8 (reading a) i

theorem reading_ntt (bounded : Bounded Q a) (inside : i < N) : reading (ntt a) i = hat a i :=
  (ntt_spec bounded).2.2 i inside

theorem hat_sum (a b : Poly) (i : Nat) :
    forward 8 zetaq 8 (fun k => reading a k + reading b k) i = hat a i + hat b i :=
  congrFun (forward_add 8 (reading a) (reading b)) i

theorem reading_add_add {d : Poly}
    (same : ∀ i < N, hat a i + hat b i = hat c i + hat d i) (inside : i < N) :
    reading a i + reading b i = reading c i + reading d i := by
  have sums i (inside : i < N) : forward 8 zetaq 8 (fun k => reading a k + reading b k) i =
        forward 8 zetaq 8 (fun k => reading c k + reading d k) i := by
    rw [hat_sum, hat_sum]
    exact same i inside
  -- The residues are recovered from their transforms.
  have back := backward_congr (w := invZetaq) (le_refl 8) sums i inside
  rw [backward_forward invZetaq_mul_zetaq _ (le_refl 8) i inside,
    backward_forward invZetaq_mul_zetaq _ (le_refl 8) i inside] at back
  linear_combination (MONT_INV * (F : Zq) * MONT_INV) * back +
    (reading c i + reading d i - reading a i - reading b i) * scale_eq_one

/-- Transforming back multiplies by `2 ^ 32`. -/
theorem hat_invntt (bounded : Bounded Q a) (inside : i < N) :
    hat (invnttTomont a) i = 2 ^ 32 * reading a i := by
  have inverse := (invntt_spec bounded).2.2
  have scaled := forward_congr (z := zetaq) inverse (le_refl 8) i inside
  rw [forward_mul] at scaled
  dsimp only at scaled
  rw [forward_backward invZetaq_mul_zetaq _ (le_refl 8) i inside] at scaled
  refine scaled.trans ?_
  linear_combination (2 ^ 32 * reading a i) * scale_eq_one -
    (MONT_INV * (F : Zq) * 2 ^ 8 * reading a i) * mont_inv

theorem reading_pointwise (first : Bounded (9 * Q) a) (second : Bounded (9 * Q) b) :
    Bounded Q (pointwiseMontgomery a b) ∧
      ∀ i, reading (pointwiseMontgomery a b) i = MONT_INV * (reading a i * reading b i) :=
  (pointwise_spec first second).2

theorem hat_product (boundedC : Bounded Q c) (boundedA : Bounded Q a) :
    Bounded Q (invnttTomont (pointwiseMontgomery (ntt c) (ntt a))) ∧
      ∀ i < N, hat (invnttTomont (pointwiseMontgomery (ntt c) (ntt a))) i = hat c i * hat a i := by
  obtain ⟨bounded, value⟩ := reading_pointwise (ntt_spec boundedC).2.1 (ntt_spec boundedA).2.1
  refine ⟨(invntt_spec bounded).2.1, fun i inside => ?_⟩
  rw [hat_invntt bounded inside, value, reading_ntt boundedC inside, reading_ntt boundedA inside]
  linear_combination (hat c i * hat a i) * mont_inv

theorem accumulate_succ (u v : Polyvecl) (count : Nat) :
    accumulate u v (count + 1) =
      (accumulate u v count).add (pointwiseMontgomery
        (u (Fin.ofNat L (1 + count))) (v (Fin.ofNat L (1 + count)))) := by
  simp [accumulate, List.range'_1_concat]

section InnerProduct

variable {u v : Polyvecl} (row : ∀ j, Bounded Q (u j))
variable (column : ∀ j, Bounded (9 * Q) (v j))

include row column in
theorem reading_accumulate {count : Nat} (few : count ≤ 6) :
    Bounded ((count + 1) * Q) (accumulate u v count) ∧
      ∀ i, reading (accumulate u v count) i =
        MONT_INV * ∑ j ∈ Finset.range (count + 1),
          reading (u (Fin.ofNat L j)) i * reading (v (Fin.ofNat L j)) i := by
  have modulus : Q = 8380417 := rfl
  have term (j : Fin L) := reading_pointwise ((row j).mono (show Q ≤ 9 * Q by decide)) (column j)
  induction count with
  | zero =>
    refine ⟨(term 0).1.mono (by decide), fun i => ?_⟩
    rw [Finset.sum_range_one]
    exact (term 0).2 i
  | succ count ih =>
    obtain ⟨bounded, value⟩ := ih (by omega)
    obtain ⟨boundedSum, sum⟩ := reading_add bounded
      (term (Fin.ofNat L (1 + count))).1 (by rw [modulus]; omega)
    rw [accumulate_succ]
    refine ⟨boundedSum.mono (by push_cast; linarith), fun i => ?_⟩
    rw [sum, value, (term _).2, Finset.sum_range_succ _ (count + 1), Nat.add_comm 1 count]
    ring

include row column in
theorem reading_pointwiseAcc :
    Bounded (7 * Q) (pointwiseAccMontgomery u v) ∧
      ∀ i, reading (pointwiseAccMontgomery u v) i =
        MONT_INV * ∑ j, reading (u j) i * reading (v j) i := by
  obtain ⟨bounded, value⟩ := reading_accumulate row column le_rfl
  refine ⟨bounded, fun i => (value i).trans ?_⟩
  rfl

end InnerProduct

theorem hat_row {row v : Polyvecl} (boundedRow : ∀ j, Bounded Q (row j))
    (boundedV : ∀ j, Bounded Q (v j)) :
    let w := (pointwiseAccMontgomery row fun j => ntt (v j)).reduce
    Bounded Q (invnttTomont w) ∧
      ∀ i < N, hat (invnttTomont w) i = ∑ j, reading (row j) i * hat (v j) i := by
  obtain ⟨bounded, value⟩ := reading_pointwiseAcc boundedRow
    fun j => (ntt_spec (boundedV j)).2.1
  obtain ⟨reduced, same⟩ := reading_reduce (bounded.mono (by decide))
  refine ⟨(invntt_spec reduced).2.1, fun i inside => ?_⟩
  rw [hat_invntt reduced inside, same, value]
  have terms : ∑ j, reading (row j) i * reading (ntt (v j)) i =
      ∑ j, reading (row j) i * hat (v j) i :=
    Finset.sum_congr rfl fun j _ => by rw [reading_ntt (boundedV j) inside]
  rw [terms]
  linear_combination (∑ j, reading (row j) i * hat (v j) i) * mont_inv

theorem hat_row_sub_product {row v : Polyvecl} {t : Poly}
    (boundedRow : ∀ j, Bounded Q (row j)) (boundedV : ∀ j, Bounded Q (v j))
    (boundedC : Bounded Q c) (boundedT : Bounded Q t) :
    let w := ((pointwiseAccMontgomery row fun j => ntt (v j)).sub
      (pointwiseMontgomery (ntt c) (ntt t))).reduce
    Bounded Q (invnttTomont w) ∧
      ∀ i < N, hat (invnttTomont w) i =
        ∑ j, reading (row j) i * hat (v j) i - hat c i * hat t i := by
  obtain ⟨boundedRows, rows⟩ := reading_pointwiseAcc boundedRow
    fun j => (ntt_spec (boundedV j)).2.1
  obtain ⟨boundedProduct, product⟩ := reading_pointwise
    (ntt_spec boundedC).2.1 (ntt_spec boundedT).2.1
  obtain ⟨bounded, difference⟩ := reading_sub boundedRows boundedProduct (by decide)
  obtain ⟨reduced, same⟩ := reading_reduce (bounded.mono (by decide))
  refine ⟨(invntt_spec reduced).2.1, fun i inside => ?_⟩
  rw [hat_invntt reduced inside, same, difference, rows, product,
    reading_ntt boundedC inside, reading_ntt boundedT inside]
  have terms : ∑ j, reading (row j) i * reading (ntt (v j)) i =
      ∑ j, reading (row j) i * hat (v j) i :=
    Finset.sum_congr rfl fun j _ => by rw [reading_ntt (boundedV j) inside]
  rw [terms]
  linear_combination (∑ j, reading (row j) i * hat (v j) i - hat c i * hat t i) * mont_inv

end ParallaX.MlDsa
