import Mathlib.Algebra.Polynomial.Div
import Mathlib.Tactic.LinearCombination

/-!
# Butterfly transforms over a commutative ring

A sequence of `2 ^ n` ring elements is split in halves `n` times. Blocks are
numbered as the nodes of a binary tree: the root is `1` and the children of `k`
are `2 * k` and `2 * k + 1`. Node `k` has a twiddle factor `z k`, whose square
is the root of the node; the roots of its children are `z k` and `-z k`. The
transform of a sequence then is its evaluation at the roots of the leaves, and
joining the halves again undoes it up to a power of two.
-/

namespace ParallaX.Transform

open Finset

variable {R : Type*} [CommRing R]

/-! ## One layer -/

/-- Cooley–Tukey butterflies on blocks of `2 * len` elements. -/
def split (len : ℕ) (twiddle : ℕ → R) (a : ℕ → R) (i : ℕ) : R :=
  if i % (2 * len) < len then a i + twiddle (i / (2 * len)) * a (i + len)
  else a (i - len) - twiddle (i / (2 * len)) * a i

/-- Gentleman–Sande butterflies on blocks of `2 * len` elements. -/
def join (len : ℕ) (twiddle : ℕ → R) (a : ℕ → R) (i : ℕ) : R :=
  if i % (2 * len) < len then a i + a (i + len)
  else twiddle (i / (2 * len)) * (a (i - len) - a i)

section Positions

variable {len : ℕ} (b : ℕ) {r : ℕ}

theorem position (within : r < 2 * len) :
    (2 * len * b + r) % (2 * len) = r ∧ (2 * len * b + r) / (2 * len) = b := by
  refine ⟨?_, ?_⟩
  · rw [Nat.mul_add_mod, Nat.mod_eq_of_lt within]
  · rw [Nat.mul_add_div (by omega), Nat.div_eq_of_lt within, Nat.add_zero]

theorem position_cases (pos : 0 < len) (i : ℕ) :
    ∃ b r, r < len ∧ (i = 2 * len * b + r ∨ i = 2 * len * b + (len + r)) := by
  have decomposed := Nat.div_add_mod i (2 * len)
  have within := Nat.mod_lt i (show 0 < 2 * len by omega)
  by_cases low : i % (2 * len) < len
  · exact ⟨i / (2 * len), i % (2 * len), low, .inl decomposed.symm⟩
  · refine ⟨i / (2 * len), i % (2 * len) - len, by omega, .inr ?_⟩
    rw [Nat.add_sub_cancel' (by omega), decomposed]

/-- A position of `count` blocks and the one it is paired with lie in one of them. -/
theorem position_block {i count : ℕ} (pos : 0 < len) (within : i < 2 * len * count) :
    ∃ b < count, ∃ r < len, (i = 2 * len * b + r ∨ i = 2 * len * b + (len + r)) ∧
      2 * len * b + 2 * len ≤ 2 * len * count := by
  obtain ⟨b, r, low, isPosition⟩ := position_cases pos i
  have starts : 2 * len * b < 2 * len * count := by omega
  have block : b < count := lt_of_mul_lt_mul_left starts (Nat.zero_le _)
  refine ⟨b, block, r, low, isPosition, ?_⟩
  calc 2 * len * b + 2 * len = 2 * len * (b + 1) := by ring
    _ ≤ 2 * len * count := Nat.mul_le_mul_left _ block

end Positions

section Layer

variable {len : ℕ} (z w : ℕ → R) (a : ℕ → R) (b : ℕ) {r : ℕ}

theorem split_low (low : r < len) :
    split len z a (2 * len * b + r) = a (2 * len * b + r) + z b * a (2 * len * b + (len + r)) := by
  obtain ⟨rest, block⟩ := position b (show r < 2 * len by omega)
  unfold split
  rw [rest, block, if_pos low, add_assoc, add_comm r len]

theorem split_high (low : r < len) :
    split len z a (2 * len * b + (len + r)) =
      a (2 * len * b + r) - z b * a (2 * len * b + (len + r)) := by
  obtain ⟨rest, block⟩ := position b (show len + r < 2 * len by omega)
  have back : 2 * len * b + (len + r) - len = 2 * len * b + r := by omega
  unfold split
  rw [rest, block, if_neg (by omega), back]

theorem join_low (low : r < len) :
    join len w a (2 * len * b + r) = a (2 * len * b + r) + a (2 * len * b + (len + r)) := by
  obtain ⟨rest, -⟩ := position b (show r < 2 * len by omega)
  unfold join
  rw [rest, if_pos low, add_assoc, add_comm r len]

theorem join_high (low : r < len) :
    join len w a (2 * len * b + (len + r)) =
      w b * (a (2 * len * b + r) - a (2 * len * b + (len + r))) := by
  obtain ⟨rest, block⟩ := position b (show len + r < 2 * len by omega)
  have back : 2 * len * b + (len + r) - len = 2 * len * b + r := by omega
  unfold join
  rw [rest, block, if_neg (by omega), back]

theorem join_split (pos : 0 < len) {i : ℕ}
    (inverse : w (i / (2 * len)) * z (i / (2 * len)) = 1) :
    join len w (split len z a) i = 2 * a i := by
  obtain ⟨b, r, low, rfl | rfl⟩ := position_cases pos i
  · rw [join_low _ _ b low, split_low z a b low, split_high z a b low]
    ring
  · rw [(position b (show len + r < 2 * len by omega)).2] at inverse
    rw [join_high _ _ b low, split_low z a b low, split_high z a b low]
    linear_combination 2 * a (2 * len * b + (len + r)) * inverse

theorem split_join (pos : 0 < len) {i : ℕ}
    (inverse : w (i / (2 * len)) * z (i / (2 * len)) = 1) :
    split len z (join len w a) i = 2 * a i := by
  obtain ⟨b, r, low, rfl | rfl⟩ := position_cases pos i
  · rw [(position b (show r < 2 * len by omega)).2] at inverse
    rw [split_low _ _ b low, join_low w a b low, join_high w a b low]
    linear_combination (a (2 * len * b + r) - a (2 * len * b + (len + r))) * inverse
  · rw [(position b (show len + r < 2 * len by omega)).2] at inverse
    rw [split_high _ _ b low, join_low w a b low, join_high w a b low]
    linear_combination -(a (2 * len * b + r) - a (2 * len * b + (len + r))) * inverse

theorem split_mul (factor : R) (i : ℕ) :
    split len z (fun j => factor * a j) i = factor * split len z a i := by
  unfold split
  split <;> ring

end Layer

section Congruence

variable {len count : ℕ} {z w a other : ℕ → R}

/-- A layer on `count` blocks reads no position beyond them. -/
theorem split_congr (pos : 0 < len) (same : ∀ i < 2 * len * count, a i = other i) :
    ∀ i < 2 * len * count, split len z a i = split len z other i := by
  intro i within
  obtain ⟨b, -, r, low, isPosition, _⟩ := position_block pos within
  have lower := same (2 * len * b + r) (by omega)
  have upper := same (2 * len * b + (len + r)) (by omega)
  rcases isPosition with rfl | rfl
  · rw [split_low z a b low, split_low z other b low, lower, upper]
  · rw [split_high z a b low, split_high z other b low, lower, upper]

theorem join_congr (pos : 0 < len) (same : ∀ i < 2 * len * count, a i = other i) :
    ∀ i < 2 * len * count, join len w a i = join len w other i := by
  intro i within
  obtain ⟨b, -, r, low, isPosition, _⟩ := position_block pos within
  have lower := same (2 * len * b + r) (by omega)
  have upper := same (2 * len * b + (len + r)) (by omega)
  rcases isPosition with rfl | rfl
  · rw [join_low w a b low, join_low w other b low, lower, upper]
  · rw [join_high w a b low, join_high w other b low, lower, upper]

end Congruence

/-- The polynomial in block `b` of `len` coefficients, evaluated at `x`. -/
def blockEval (len : ℕ) (a : ℕ → R) (x : R) (b : ℕ) : R :=
  ∑ j ∈ Finset.range len, a (len * b + j) * x ^ j

theorem blockEval_double (len : ℕ) (a : ℕ → R) (x : R) (b : ℕ) :
    blockEval (2 * len) a x b =
      ∑ j ∈ Finset.range len,
        (a (2 * len * b + j) + x ^ len * a (2 * len * b + (len + j))) * x ^ j := by
  unfold blockEval
  rw [two_mul, sum_range_add, ← sum_add_distrib]
  apply sum_congr rfl
  intro _ _
  ring

theorem blockEval_split_low {len : ℕ} {z : ℕ → R} (a : ℕ → R) {x : R} {b : ℕ}
    (root : x ^ len = z b) :
    blockEval len (split len z a) x (2 * b) = blockEval (2 * len) a x b := by
  rw [blockEval_double]
  apply sum_congr rfl
  intro j member
  have position : len * (2 * b) + j = 2 * len * b + j := by ring
  rw [position, split_low z a b (mem_range.mp member), root]

theorem blockEval_split_high {len : ℕ} {z : ℕ → R} (a : ℕ → R) {x : R} {b : ℕ}
    (root : x ^ len = -z b) :
    blockEval len (split len z a) x (2 * b + 1) = blockEval (2 * len) a x b := by
  rw [blockEval_double]
  apply sum_congr rfl
  intro j member
  have position : len * (2 * b + 1) + j = 2 * len * b + (len + j) := by ring
  rw [position, split_high z a b (mem_range.mp member), root]
  ring

/-! ## All layers -/

section Layers

variable (n : ℕ) (z w : ℕ → R)

/-- The first layers of the transform, from the whole sequence down. -/
def forward : ℕ → (ℕ → R) → ℕ → R
  | 0, a => a
  | level + 1, a => split (2 ^ (n - 1 - level)) (fun b => z (2 ^ level + b)) (forward level a)

/-- The same layers joined again, from the single elements up. -/
def backward : ℕ → (ℕ → R) → ℕ → R
  | 0, a => a
  | level + 1, a => backward level (join (2 ^ (n - 1 - level)) (fun b => w (2 ^ level + b)) a)

variable {n z w} {level : ℕ}

theorem size_eq (bounded : level < n) : 2 * 2 ^ (n - 1 - level) * 2 ^ level = 2 ^ n := by
  rw [← pow_succ', ← pow_add]
  congr 1
  omega

theorem forward_add (level : ℕ) (a other : ℕ → R) :
    forward n z level (fun i => a i + other i) =
      fun i => forward n z level a i + forward n z level other i := by
  induction level with
  | zero => rfl
  | succ _ ih =>
    funext i
    simp only [forward, ih, split]
    split <;> ring

theorem forward_mul (level : ℕ) (factor : R) (a : ℕ → R) :
    forward n z level (fun i => factor * a i) = fun i => factor * forward n z level a i := by
  induction level with
  | zero => rfl
  | succ _ ih =>
    funext i
    rw [forward, ih, split_mul]
    rfl

theorem forward_congr {a other : ℕ → R} (same : ∀ i < 2 ^ n, a i = other i) (bounded : level ≤ n) :
    ∀ i < 2 ^ n, forward n z level a i = forward n z level other i := by
  induction level with
  | zero => exact same
  | succ _ ih =>
    have earlier := ih (by omega)
    rw [← size_eq bounded] at earlier ⊢
    exact split_congr (Nat.two_pow_pos _) earlier

theorem backward_congr (bounded : level ≤ n) {a other : ℕ → R} (same : ∀ i < 2 ^ n, a i = other i) :
    ∀ i < 2 ^ n, backward n w level a i = backward n w level other i := by
  induction level generalizing a other with
  | zero => exact same
  | succ _ ih =>
    apply ih (by omega)
    rw [← size_eq bounded] at same ⊢
    exact join_congr (Nat.two_pow_pos _) same

theorem backward_mul (level : ℕ) (factor : R) (a : ℕ → R) :
    backward n w level (fun i => factor * a i) = fun i => factor * backward n w level a i := by
  induction level generalizing a with
  | zero => rfl
  | succ level ih =>
    have joined : join (2 ^ (n - 1 - level)) (fun b => w (2 ^ level + b)) (fun i => factor * a i) =
        fun i => factor * join (2 ^ (n - 1 - level)) (fun b => w (2 ^ level + b)) a i := by
      funext i
      unfold join
      split <;> ring
    rw [backward, joined, ih]
    rfl

theorem layer_inverse (inverse : ∀ k, 1 ≤ k → k < 2 ^ n → w k * z k = 1) (bounded : level < n)
    {i : ℕ} (within : i < 2 ^ n) :
    w (2 ^ level + i / (2 * 2 ^ (n - 1 - level))) *
      z (2 ^ level + i / (2 * 2 ^ (n - 1 - level))) = 1 := by
  have block : i / (2 * 2 ^ (n - 1 - level)) < 2 ^ level := by
    apply Nat.div_lt_of_lt_mul
    rwa [size_eq bounded]
  apply inverse
  · exact (Nat.two_pow_pos level).trans_le (Nat.le_add_right _ _)
  · calc 2 ^ level + i / (2 * 2 ^ (n - 1 - level)) < 2 ^ level + 2 ^ level := by omega
      _ = 2 ^ (level + 1) := by ring
      _ ≤ 2 ^ n := Nat.pow_le_pow_right (by omega) bounded

/-- Joining undoes the transform up to a factor of two a layer. -/
theorem backward_forward (inverse : ∀ k, 1 ≤ k → k < 2 ^ n → w k * z k = 1) (a : ℕ → R)
    (bounded : level ≤ n) :
    ∀ i < 2 ^ n, backward n w level (forward n z level a) i = 2 ^ level * a i := by
  induction level with
  | zero =>
    intro i _
    rw [pow_zero, one_mul]
    rfl
  | succ level ih =>
    intro i within
    have undone j (inside : j < 2 ^ n) : join (2 ^ (n - 1 - level)) (fun b => w (2 ^ level + b))
          (forward n z (level + 1) a) j = 2 * forward n z level a j :=
      join_split _ _ _ (Nat.two_pow_pos _) (layer_inverse inverse bounded inside)
    rw [backward, backward_congr (by omega) undone i within, backward_mul]
    dsimp only
    rw [ih (by omega) i within, pow_succ]
    ring

/-- The transform undoes joining up to a factor of two a layer. -/
theorem forward_backward (inverse : ∀ k, 1 ≤ k → k < 2 ^ n → w k * z k = 1) (a : ℕ → R)
    (bounded : level ≤ n) :
    ∀ i < 2 ^ n, forward n z level (backward n w level a) i = 2 ^ level * a i := by
  induction level generalizing a with
  | zero =>
    intro i _
    rw [pow_zero, one_mul]
    rfl
  | succ level ih =>
    intro i within
    have earlier := ih (join (2 ^ (n - 1 - level)) (fun b => w (2 ^ level + b)) a) (by omega)
    rw [← size_eq bounded] at earlier
    have layer := split_congr (z := fun b => z (2 ^ level + b))
      (Nat.two_pow_pos _) earlier i (by rwa [size_eq bounded])
    rw [forward, backward, layer, split_mul,
      split_join _ _ _ (Nat.two_pow_pos _) (layer_inverse inverse bounded within)]
    ring

end Layers

/-! ## The transform as evaluation -/

section Roots

variable (z : ℕ → R) (k : ℕ)

/-- The root of a node below node one. -/
def root : R :=
  if k % 2 = 0 then z (k / 2) else -z (k / 2)

theorem root_even : root z (2 * k) = z k := by
  unfold root
  rw [if_pos (by omega), Nat.mul_div_cancel_left k (by omega)]

theorem root_odd : root z (2 * k + 1) = -z k := by
  unfold root
  rw [if_neg (by omega), Nat.mul_add_div (by omega), Nat.add_zero]

structure Twiddles (n : ℕ) : Prop where
  top : z 1 ^ 2 = -1
  square : ∀ k, 2 ≤ k → k < 2 ^ n → z k ^ 2 = root z k

variable {z} {n : ℕ}

theorem Twiddles.root_sq (twiddles : Twiddles z n) {k : ℕ} (deep : 4 ≤ k)
    (bounded : k / 2 < 2 ^ n) : root z k ^ 2 = root z (k / 2) := by
  have parent := twiddles.square (k / 2) (by omega) bounded
  unfold root at parent ⊢
  by_cases even : k % 2 = 0
  · rw [if_pos even]
    exact parent
  · rw [if_neg even, neg_sq]
    exact parent

variable {i : ℕ}

theorem Twiddles.leaf_pow (twiddles : Twiddles z n) (leaf : i < 2 ^ n)
    {height : ℕ} (below : height < n) :
    root z (2 ^ n + i) ^ 2 ^ height = root z ((2 ^ n + i) / 2 ^ height) := by
  induction height with
  | zero => rw [pow_zero, pow_one, Nat.div_one]
  | succ height ih =>
    have halved : (2 ^ n + i) / 2 ^ (height + 1) = (2 ^ n + i) / 2 ^ height / 2 := by
      rw [pow_succ, Nat.div_div_eq_div_mul]
    have large : 2 ^ (n - height) ≤ (2 ^ n + i) / 2 ^ height := by
      rw [Nat.le_div_iff_mul_le (Nat.two_pow_pos _), ← pow_add, Nat.sub_add_cancel (by omega)]
      omega
    have four : 4 ≤ 2 ^ (n - height) := by
      calc 4 = 2 ^ 2 := rfl
        _ ≤ 2 ^ (n - height) := Nat.pow_le_pow_right (by omega) (by omega)
    have bounded : (2 ^ n + i) / 2 ^ height / 2 < 2 ^ n := by
      have smaller : (2 ^ n + i) / 2 ^ height ≤ 2 ^ n + i := Nat.div_le_self _ _
      omega
    rw [halved, pow_succ, pow_mul, ih (by omega), twiddles.root_sq (by omega) bounded]

theorem Twiddles.leaf_pow_size (twiddles : Twiddles z n) (pos : 0 < n)
    (leaf : i < 2 ^ n) : root z (2 ^ n + i) ^ 2 ^ n = -1 := by
  obtain ⟨m, rfl⟩ := Nat.exists_eq_succ_of_ne_zero pos.ne'
  have child := twiddles.leaf_pow leaf (Nat.lt_succ_self m)
  have halved : (2 ^ (m + 1) + i) / 2 ^ m / 2 = 1 := by
    rw [Nat.div_div_eq_div_mul, ← pow_succ]
    exact Nat.div_eq_of_lt_le (by omega) (by omega)
  have doubled := pow_succ 2 m
  rw [show root z (2 ^ m.succ + i) ^ 2 ^ m.succ =
    (root z (2 ^ m.succ + i) ^ 2 ^ m) ^ 2 by rw [← pow_mul, ← doubled], child]
  unfold root
  rw [halved]
  split
  · exact twiddles.top
  · rw [neg_sq]
    exact twiddles.top

/-- After each layer, the block of a leaf still evaluates the whole sequence at
the point of the leaf. -/
theorem Twiddles.blockEval_forward (twiddles : Twiddles z n) (a : ℕ → R)
    (leaf : i < 2 ^ n) {level : ℕ} (bounded : level ≤ n) :
    blockEval (2 ^ (n - level)) (forward n z level a) (root z (2 ^ n + i))
      (i / 2 ^ (n - level)) = blockEval (2 ^ n) a (root z (2 ^ n + i)) 0 := by
  induction level with
  | zero =>
    rw [Nat.sub_zero, Nat.div_eq_of_lt leaf]
    rfl
  | succ level ih =>
    have earlier := ih (by omega)
    have height : n - level = n - 1 - level + 1 := by omega
    have doubled : 2 ^ (n - level) = 2 * 2 ^ (n - 1 - level) := by rw [height, pow_succ']
    have child := twiddles.leaf_pow leaf (show n - 1 - level < n by omega)
    have node : (2 ^ n + i) / 2 ^ (n - 1 - level) = 2 * 2 ^ level + i / 2 ^ (n - 1 - level) := by
      have whole : 2 ^ n = 2 ^ (n - 1 - level) * (2 * 2 ^ level) := by
        rw [← size_eq bounded]
        ring
      rw [whole, Nat.mul_add_div (Nat.two_pow_pos _)]
    have parent : i / 2 ^ (n - level) = i / 2 ^ (n - 1 - level) / 2 := by
      rw [height, pow_succ, Nat.div_div_eq_div_mul]
    have shorter : n - (level + 1) = n - 1 - level := by omega
    rw [← earlier, parent, doubled, shorter, forward]
    rcases Nat.even_or_odd' (i / 2 ^ (n - 1 - level)) with
      ⟨block, even | odd⟩
    · rw [node, even, ← Nat.mul_add, root_even] at child
      rw [even, Nat.mul_div_cancel_left block (by omega)]
      exact blockEval_split_low _ child
    · rw [node, odd, ← Nat.add_assoc, ← Nat.mul_add, root_odd] at child
      rw [odd, Nat.mul_add_div (by omega), Nat.add_zero]
      exact blockEval_split_high _ child

/-- The transform evaluates a sequence at the points of the leaves. -/
theorem Twiddles.forward_eq_eval (twiddles : Twiddles z n) (a : ℕ → R) (leaf : i < 2 ^ n) :
    forward n z n a i = ∑ j ∈ Finset.range (2 ^ n), a j * root z (2 ^ n + i) ^ j := by
  have evaluated := twiddles.blockEval_forward a leaf le_rfl
  simpa [blockEval] using evaluated

end Roots

section Negacyclic

open Polynomial

variable {size : ℕ} (pos : size ≠ 0)

include pos in
theorem monic_X_pow_add_one : (X ^ size + 1 : R[X]).Monic := by
  have monic := monic_X_pow_add_C (1 : R) pos
  rwa [C_1] at monic

include pos in
theorem natDegree_remainder_lt [Nontrivial R] (p : R[X]) :
    (p %ₘ (X ^ size + 1)).natDegree < size := by
  have degree : (X ^ size + 1 : R[X]).natDegree = size := by
    have withConstant := natDegree_X_pow_add_C (n := size) (r := (1 : R))
    rwa [C_1] at withConstant
  have smaller := natDegree_modByMonic_lt p (monic_X_pow_add_one pos) (by
    intro isOne
    rw [isOne, natDegree_one] at degree
    exact pos degree.symm)
  rwa [degree] at smaller

/-- A root of the modulus does not see the quotient. -/
theorem eval_remainder (p : R[X]) {x : R} (isRoot : x ^ size = -1) :
    (p %ₘ (X ^ size + 1)).eval x = p.eval x := by
  have vanishes : (X ^ size + 1 : R[X]).eval x = 0 := by
    rw [eval_add, eval_pow, eval_X, eval_one, isRoot, neg_add_cancel]
  rw [modByMonic_eq_sub_mul_div, eval_sub, eval_mul, vanishes, zero_mul, sub_zero]

end Negacyclic

end ParallaX.Transform
