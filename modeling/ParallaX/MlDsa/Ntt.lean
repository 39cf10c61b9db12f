import ParallaX.MlDsa.Arithmetic
import ParallaX.Transform.PairSteps

/-!
# ML-DSA-87: the number-theoretic transform

The transform of the source as its loops run it. Coefficients grow by less
than `Q` a layer forward and at most double a layer backward, so nothing wraps;
in the ring, the layers are those of the butterfly transform.
-/

namespace ParallaX.MlDsa

open Transform Transform.PairStep List

instance : NeZero N := ⟨by decide⟩

/-- The coefficients of a polynomial, each an `i32`. -/
abbrev Poly : Type := Fin N → Int

/-! ## The transform -/

/-- Roots of unity in Montgomery form and bit-reversed order. -/
def ZETAS : List Int :=
  [0, 25847, -2608894, -518909, 237124, -777960, -876248, 466468, 1826347,
    2353451, -359251, -2091905, 3119733, -2884855, 3111497, 2680103, 2725464,
    1024112, -1079900, 3585928, -549488, -1119584, 2619752, -2108549, -2118186,
    -3859737, -1399561, -3277672, 1757237, -19422, 4010497, 280005, 2706023,
    95776, 3077325, 3530437, -1661693, -3592148, -2537516, 3915439, -3861115,
    -3043716, 3574422, -2867647, 3539968, -300467, 2348700, -539299, -1699267,
    -1643818, 3505694, -3821735, 3507263, -2140649, -1600420, 3699596, 811944,
    531354, 954230, 3881043, 3900724, -2556880, 2071892, -2797779, -3930395,
    -1528703, -3677745, -3041255, -1452451, 3475950, 2176455, -1585221,
    -1257611, 1939314, -4083598, -1000202, -3190144, -3157330, -3632928, 126922,
    3412210, -983419, 2147896, 2715295, -2967645, -3693493, -411027, -2477047,
    -671102, -1228525, -22981, -1308169, -381987, 1349076, 1852771, -1430430,
    -3343383, 264944, 508951, 3097992, 44288, -1100098, 904516, 3958618,
    -3724342, -8578, 1653064, -3249728, 2389356, -210977, 759969, -1316856,
    189548, -3553272, 3159746, -1851402, -2409325, -177440, 1315589, 1341330,
    1285669, -1584928, -812732, -1439742, -3019102, -3881060, -3628969, 3839961,
    2091667, 3407706, 2316500, 3817976, -3342478, 2244091, -2446433, -3562462,
    266997, 2434439, -1235728, 3513181, -3520352, -3759364, -1197226, -3193378,
    900702, 1859098, 909542, 819034, 495491, -1613174, -43260, -522500, -655327,
    -3122442, 2031748, 3207046, -3556995, -525098, -768622, -3595838, 342297,
    286988, -2437823, 4108315, 3437287, -3342277, 1735879, 203044, 2842341,
    2691481, -2590150, 1265009, 4055324, 1247620, 2486353, 1595974, -3767016,
    1250494, 2635921, -3548272, -2994039, 1869119, 1903435, -1050970, -1333058,
    1237275, -3318210, -1430225, -451100, 1312455, 3306115, -1962642, -1279661,
    1917081, -2546312, -1374803, 1500165, 777191, 2235880, 3406031, -542412,
    -2831860, -1671176, -1846953, -2584293, -3724270, 594136, -3776993,
    -2013608, 2432395, 2454455, -164721, 1957272, 3369112, 185531, -1207385,
    -3183426, 162844, 1616392, 3014001, 810149, 1652634, -3694233, -1799107,
    -3038916, 3523897, 3866901, 269760, 2213111, -975884, 1717735, 472078,
    -426683, 1723600, -1803090, 1910376, -1667432, -1104333, -260646, -3833893,
    -2939036, -2235985, -420899, -2286327, 183443, -976891, 1612842, -3545687,
    -554416, 3919660, -48306, -1362209, 3937738, 1400424, -846154, 1976782]

def zeta (k : Nat) : Int := ZETAS.getD k 0

def F : Int := 41978

/-- `wrapping_add` and `wrapping_sub` do not wrap on this result. -/
def FitsI32 (x : Int) : Prop := -2 ^ 31 ≤ x ∧ x < 2 ^ 31

def forwardKernel (zeta : Int) : Kernel Int where
  act lo hi :=
    let t := montgomeryReduce (zeta * hi)
    (wrap32 (lo + t), wrap32 (lo - t))
  safe lo hi :=
    let t := montgomeryReduce (zeta * hi)
    MontgomeryRange (zeta * hi) ∧ FitsI32 (lo - t) ∧ FitsI32 (lo + t)

def inverseKernel (zeta : Int) : Kernel Int where
  act lo hi := (wrap32 (lo + hi), montgomeryReduce (zeta * wrap32 (lo - hi)))
  safe lo hi := FitsI32 (lo + hi) ∧ FitsI32 (lo - hi) ∧ MontgomeryRange (zeta * wrap32 (lo - hi))

/-- The pairs `(len, start)` of the two outer loops, in order: `start` advances
by `2 * len` up to `N`. -/
def blocks (lens : List Nat) : List (Nat × Nat) :=
  lens.flatMap fun len =>
    (List.range (N / (2 * len))).map fun b => (len, 2 * len * b)

def blockSteps (kernel : Kernel Int) (block : Nat × Nat) : List (PairStep (Fin N) Int) :=
  (List.range block.1).map fun i =>
    butterfly N kernel block.1 (block.2 + i)

/-- The table is read at `++k`, from `k = 0` on. -/
def nttSteps : List (PairStep (Fin N) Int) :=
  ((blocks [128, 64, 32, 16, 8, 4, 2, 1]).zipIdx 1).flatMap fun item =>
    blockSteps (forwardKernel (zeta item.2)) item.1

def ntt (a : Poly) : Poly := run nttSteps a

/-- The table is read at `--k`, from `k = 256` on. -/
def invnttSteps : List (PairStep (Fin N) Int) :=
  ((blocks [1, 2, 4, 8, 16, 32, 64, 128]).zipIdx 1).flatMap fun item =>
    blockSteps (inverseKernel (-zeta (256 - item.2))) item.1

def invnttTomont (a : Poly) : Poly := fun i =>
  montgomeryReduce (F * run invnttSteps a i)

def pointwiseMontgomery (a b : Poly) : Poly := fun i =>
  montgomeryReduce (a i * b i)

def NttSafe (a : Poly) : Prop := Safe nttSteps a

def InvnttSafe (a : Poly) : Prop :=
  Safe invnttSteps a ∧ ∀ i, MontgomeryRange (F * run invnttSteps a i)

def PointwiseSafe (a b : Poly) : Prop := ∀ i, MontgomeryRange (a i * b i)

def forwardLayer (level : Nat) : List (PairStep (Fin N) Int) :=
  layer N (2 ^ (7 - level)) (2 ^ level) fun b =>
    forwardKernel (zeta (2 ^ level + b))

/-- On the way back the table is read from the end of a layer. -/
def inverseLayer (level : Nat) : List (PairStep (Fin N) Int) :=
  layer N (2 ^ (7 - level)) (2 ^ level) fun b =>
    inverseKernel (-zeta (2 * 2 ^ level - 1 - b))

theorem blocks_numbered :
    (blocks [128, 64, 32, 16, 8, 4, 2, 1]).zipIdx 1 =
        ((List.range 8).flatMap fun level =>
          (List.range (2 ^ level)).map fun b =>
            ((2 ^ (7 - level), 2 * 2 ^ (7 - level) * b), 2 ^ level + b)) ∧
      (blocks [1, 2, 4, 8, 16, 32, 64, 128]).zipIdx 1 =
        (List.range 8).flatMap fun round =>
          (List.range (2 ^ (7 - round))).map fun b =>
            ((2 ^ (7 - (7 - round)), 2 * 2 ^ (7 - (7 - round)) * b),
              256 - (2 * 2 ^ (7 - round) - 1 - b)) := by
  decide +kernel

theorem nttSteps_eq : nttSteps = (List.range 8).flatMap forwardLayer := by
  unfold nttSteps
  rw [blocks_numbered.1, flatMap_assoc]
  apply flatMap_congr
  intro _ _
  rw [flatMap_map]
  rfl

theorem invnttSteps_eq :
    invnttSteps = (List.range 8).flatMap fun round => inverseLayer (7 - round) := by
  unfold invnttSteps
  rw [blocks_numbered.2, flatMap_assoc]
  apply flatMap_congr
  intro round _
  rw [flatMap_map]
  apply flatMap_congr
  intro b _
  have small : 2 ^ (7 - round) ≤ 2 ^ 7 := Nat.pow_le_pow_right (by decide) (by omega)
  have index : 256 - (256 - (2 * 2 ^ (7 - round) - 1 - b)) = 2 * 2 ^ (7 - round) - 1 - b := by omega
  rw [index]
  rfl

def zetaq (k : Nat) : Zq := MONT_INV * (zeta k : Zq)

/-- The factor of the way back at the same node. -/
def invZetaq (k : Nat) : Zq := -zetaq (3 * 2 ^ Nat.log2 k - 1 - k)

variable {level : Nat} {a : Poly}

theorem invZetaq_layer {b : Nat} (block : b < 2 ^ level) :
    invZetaq (2 ^ level + b) = MONT_INV * ((-zeta (2 * 2 ^ level - 1 - b) : Int) : Zq) := by
  have log : Nat.log2 (2 ^ level + b) = level := by
    rw [Nat.log2_eq_iff (by have := Nat.two_pow_pos level; omega)]
    omega
  have index : 3 * 2 ^ level - 1 - (2 ^ level + b) = 2 * 2 ^ level - 1 - b := by omega
  unfold invZetaq zetaq
  rw [log, index]
  push_cast
  ring

theorem zetas_table :
    (zetaq 1 ^ 2 = -1 ∧ ∀ k : Fin 256, 2 ≤ k.val → zetaq k.val ^ 2 = root zetaq k.val) ∧
      (∀ k : Fin 256, 1 ≤ k.val → invZetaq k.val * zetaq k.val = 1) ∧
      MONT_INV * (F : Zq) * MONT_INV * 2 ^ 8 = 1 ∧
      ∀ z ∈ ZETAS, -Q < z ∧ z < Q := by
  decide +kernel

theorem twiddles_zetaq : Twiddles zetaq 8 where
  top := zetas_table.1.1
  square k deep bounded := zetas_table.1.2 ⟨k, bounded⟩ deep

variable {bound x : Int} (k : Nat)

theorem invZetaq_mul_zetaq (positive : 1 ≤ k) (bounded : k < 2 ^ 8) : invZetaq k * zetaq k = 1 :=
  zetas_table.2.1 ⟨k, bounded⟩ positive

/-- The final scale removes the factor of the layers and one of two Montgomery
factors. -/
theorem scale_eq_one : MONT_INV * (F : Zq) * MONT_INV * 2 ^ 8 = 1 := zetas_table.2.2.1

theorem below_zeta : Below Q (zeta k) := by
  unfold zeta
  rw [getD_eq_getElem?_getD]
  cases entry : ZETAS[k]? with
  | none => exact ⟨by decide, by decide⟩
  | some z => exact zetas_table.2.2.2 z (mem_of_getElem? entry)

/-! ## The forward transform -/

theorem fitsI32_of_below (below : Below bound x) (small : bound ≤ 2 ^ 31) : FitsI32 x := by
  obtain ⟨_, _⟩ := below
  exact ⟨by omega, by omega⟩

theorem wrap32_of_fits (fits : FitsI32 x) : wrap32 x = x := wrap32_of_range fits.1 fits.2

/-- One butterfly adds less than `Q` to a coefficient. -/
theorem forwardKernel_spec {z lo hi : Int} (belowZ : Below Q z) (belowLo : Below bound lo)
    (belowHi : Below bound hi) (small : bound + Q ≤ 2 ^ 31) :
    (forwardKernel z).safe lo hi ∧
      (Below (bound + Q) ((forwardKernel z).act lo hi).1 ∧
        Below (bound + Q) ((forwardKernel z).act lo hi).2) ∧
      (((forwardKernel z).act lo hi).1 : Zq) = lo + MONT_INV * (z : Zq) * hi ∧
      (((forwardKernel z).act lo hi).2 : Zq) = lo - MONT_INV * (z : Zq) * hi := by
  have modulus : Q = 8380417 := rfl
  have range : MontgomeryRange (z * hi) := by
    have product := (belowZ.mul belowHi).mono
      (show Q * bound ≤ 2 ^ 31 * Q by rw [modulus] at small ⊢; omega)
    exact product.montgomeryRange
  have belowT := below_montgomeryReduce range
  have fitsSub := fitsI32_of_below (belowLo.sub belowT) small
  have fitsAdd := fitsI32_of_below (belowLo.add belowT) small
  have cast := cast_montgomeryReduce range
  push_cast at cast
  dsimp only [forwardKernel]
  rw [wrap32_of_fits fitsSub, wrap32_of_fits fitsAdd]
  refine ⟨⟨range, fitsSub, fitsAdd⟩, ⟨belowLo.add belowT, belowLo.sub belowT⟩, ?_, ?_⟩
  · push_cast
    rw [cast]
    ring
  · push_cast
    rw [cast]
    ring

def reading (a : Poly) (i : Nat) : Zq := (a (Fin.ofNat N i) : Zq)

theorem whole_layer (bounded : level < 8) : 2 * 2 ^ (7 - level) * 2 ^ level = N :=
  size_eq (n := 8) bounded

theorem forwardLayer_spec (bounded : level < 8) (below : ∀ i, Below ((level + 1) * Q) (a i)) :
    Safe (forwardLayer level) a ∧
      ∀ i < N, Below ((level + 1) * Q + Q) (run (forwardLayer level) a (Fin.ofNat N i)) ∧
          reading (run (forwardLayer level) a) i =
            split (2 ^ (7 - level)) (fun b => zetaq (2 ^ level + b)) (reading a) i := by
  have modulus : Q = 8380417 := rfl
  have small : ((level : Int) + 1) * Q + Q ≤ 2 ^ 31 := by
    rw [modulus]
    omega
  have whole := whole_layer bounded
  constructor
  · apply safe_layer whole
    intro b _ r _
    exact (forwardKernel_spec (below_zeta _) (below _) (below _) small).1
  · apply forall_run_layer whole (Nat.two_pow_pos _)
      (p := fun i x => Below ((level + 1) * Q + Q) x ∧
        (x : Zq) = split (2 ^ (7 - level)) (fun b => zetaq (2 ^ level + b)) (reading a) i)
    intro b _ r low
    obtain ⟨-, ⟨belowFst, belowSnd⟩, castFst, castSnd⟩ :=
      forwardKernel_spec (below_zeta (2 ^ level + b))
        (below (Fin.ofNat N (2 * 2 ^ (7 - level) * b + r)))
        (below (Fin.ofNat N (2 * 2 ^ (7 - level) * b + (2 ^ (7 - level) + r))))
        small
    refine ⟨⟨belowFst, ?_⟩, belowSnd, ?_⟩
    · rw [split_low _ _ b low]
      exact castFst
    · rw [split_high _ _ b low]
      exact castSnd

def forwardLayers (levels : Nat) : List (PairStep (Fin N) Int) :=
  (List.range levels).flatMap forwardLayer

theorem forwardLayers_spec (below : ∀ i, Below Q (a i)) {levels : Nat} (bounded : levels ≤ 8) :
    Safe (forwardLayers levels) a ∧
      (∀ i, Below ((levels + 1) * Q) (run (forwardLayers levels) a i)) ∧
      ∀ i < N, reading (run (forwardLayers levels) a) i = forward 8 zetaq levels (reading a) i := by
  induction levels with
  | zero =>
    refine ⟨trivial, fun i => ?_, fun i _ => rfl⟩
    exact (below i).mono (by omega)
  | succ level ih =>
    obtain ⟨safe, bound, value⟩ := ih (by omega)
    obtain ⟨safeLayer, layer⟩ := forwardLayer_spec (by omega) bound
    have steps : forwardLayers (level + 1) = forwardLayers level ++ forwardLayer level := by
      unfold forwardLayers
      rw [range_succ, flatMap_append, flatMap_singleton]
    rw [steps, run_append, safe_append]
    refine ⟨⟨safe, safeLayer⟩, fun i => ?_, fun i inside => ?_⟩
    · have entry := (layer i.val i.isLt).1
      rw [Fin.ofNat_val_eq_self] at entry
      apply entry.mono
      push_cast
      linarith
    · rw [(layer i inside).2]
      have whole := whole_layer (show level < 8 by omega)
      have agree j (within : j < 2 * 2 ^ (7 - level) * 2 ^ level) :
          reading (run (forwardLayers level) a) j = forward 8 zetaq level (reading a) j :=
        value j (by omega)
      exact split_congr (Nat.two_pow_pos _) agree i (by omega)

/-- The transform stays in range and is the butterfly transform. -/
theorem ntt_spec (below : ∀ i, Below Q (a i)) :
    NttSafe a ∧ (∀ i, Below (9 * Q) (ntt a i)) ∧
      ∀ i < N, reading (ntt a) i = forward 8 zetaq 8 (reading a) i := by
  unfold NttSafe ntt
  rw [nttSteps_eq]
  exact forwardLayers_spec below le_rfl

/-! ## The inverse transform -/

/-- A butterfly on the way back at most doubles the bound. -/
theorem inverseKernel_spec {z lo hi : Int} (belowZ : Below Q z) (belowLo : Below bound lo)
    (belowHi : Below bound hi) (least : Q ≤ 2 * bound) (small : bound + bound ≤ 2 ^ 31) :
    (inverseKernel z).safe lo hi ∧
      (Below (bound + bound) ((inverseKernel z).act lo hi).1 ∧
        Below (bound + bound) ((inverseKernel z).act lo hi).2) ∧
      (((inverseKernel z).act lo hi).1 : Zq) = lo + hi ∧
      (((inverseKernel z).act lo hi).2 : Zq) = MONT_INV * (z : Zq) * (lo - hi) := by
  have modulus : Q = 8380417 := rfl
  have fitsAdd := fitsI32_of_below (belowLo.add belowHi) small
  have fitsSub := fitsI32_of_below (belowLo.sub belowHi) small
  have range : MontgomeryRange (z * (lo - hi)) := by
    have product := (belowZ.mul (belowLo.sub belowHi)).mono
      (show Q * (bound + bound) ≤ 2 ^ 31 * Q by
        rw [modulus] at least ⊢; omega)
    exact product.montgomeryRange
  have cast := cast_montgomeryReduce range
  push_cast at cast
  dsimp only [inverseKernel]
  rw [wrap32_of_fits fitsSub, wrap32_of_fits fitsAdd]
  refine ⟨⟨fitsAdd, fitsSub, range⟩, ⟨belowLo.add belowHi, ?_⟩, ?_, ?_⟩
  · exact (below_montgomeryReduce range).mono (by omega)
  · push_cast
    rfl
  · rw [cast]
    ring

theorem below_neg (below : Below bound x) : Below bound (-x) := by
  obtain ⟨_, _⟩ := below
  exact ⟨by omega, by omega⟩

theorem inverseLayer_spec (bounded : level < 8) (below : ∀ i, Below (2 ^ (7 - level) * Q) (a i)) :
    Safe (inverseLayer level) a ∧
      ∀ i < N, Below (2 ^ (7 - level) * Q + 2 ^ (7 - level) * Q)
            (run (inverseLayer level) a (Fin.ofNat N i)) ∧
          reading (run (inverseLayer level) a) i =
            join (2 ^ (7 - level)) (fun b => invZetaq (2 ^ level + b)) (reading a) i := by
  have modulus : Q = 8380417 := rfl
  have power : (2 : Int) ^ (7 - level) ≤ 2 ^ 7 := pow_le_pow_right₀ (by decide) (by omega)
  have positive : (0 : Int) < 2 ^ (7 - level) := Int.pow_pos (by decide)
  have least : Q ≤ 2 * (2 ^ (7 - level) * Q) := by
    rw [modulus]
    omega
  have small : (2 : Int) ^ (7 - level) * Q + 2 ^ (7 - level) * Q ≤ 2 ^ 31 := by
    rw [modulus]
    omega
  have whole := whole_layer bounded
  constructor
  · apply safe_layer whole
    intro b _ r _
    exact (inverseKernel_spec (below_neg (below_zeta _)) (below _) (below _) least small).1
  · apply forall_run_layer whole (Nat.two_pow_pos _)
      (p := fun i x => Below (2 ^ (7 - level) * Q + 2 ^ (7 - level) * Q) x ∧
        (x : Zq) = join (2 ^ (7 - level)) (fun b => invZetaq (2 ^ level + b)) (reading a) i)
    intro b block r low
    obtain ⟨-, ⟨belowFst, belowSnd⟩, castFst, castSnd⟩ :=
      inverseKernel_spec (below_neg (below_zeta (2 * 2 ^ level - 1 - b)))
        (below (Fin.ofNat N (2 * 2 ^ (7 - level) * b + r)))
        (below (Fin.ofNat N (2 * 2 ^ (7 - level) * b + (2 ^ (7 - level) + r))))
        least small
    refine ⟨⟨belowFst, ?_⟩, belowSnd, ?_⟩
    · rw [join_low _ _ b low]
      exact castFst
    · rw [join_high _ _ b low, invZetaq_layer block]
      exact castSnd

def inverseLayers (rounds : Nat) : List (PairStep (Fin N) Int) :=
  (List.range rounds).flatMap fun round => inverseLayer (7 - round)

theorem inverseLayers_spec (below : ∀ i, Below Q (a i)) {rounds : Nat} (bounded : rounds ≤ 8) :
    Safe (inverseLayers rounds) a ∧ (∀ i, Below (2 ^ rounds * Q) (run (inverseLayers rounds) a i)) ∧
      ∀ i < N, backward 8 invZetaq (8 - rounds) (reading (run (inverseLayers rounds) a)) i =
          backward 8 invZetaq 8 (reading a) i := by
  induction rounds with
  | zero =>
    refine ⟨trivial, fun i => ?_, fun i _ => rfl⟩
    exact (below i).mono (by omega)
  | succ round ih =>
    obtain ⟨safe, bound, value⟩ := ih (by omega)
    have height : 7 - (7 - round) = round := by omega
    have boundHeight : ∀ i, Below (2 ^ (7 - (7 - round)) * Q) (run (inverseLayers round) a i) := by
      rw [height]
      exact bound
    obtain ⟨safeLayer, layer⟩ := inverseLayer_spec (show 7 - round < 8 by omega) boundHeight
    have steps : inverseLayers (round + 1) = inverseLayers round ++ inverseLayer (7 - round) := by
      unfold inverseLayers
      rw [range_succ, flatMap_append, flatMap_singleton]
    rw [steps, run_append, safe_append]
    refine ⟨⟨safe, safeLayer⟩, fun i => ?_, fun i inside => ?_⟩
    · have entry := (layer i.val i.isLt).1
      rw [Fin.ofNat_val_eq_self, height] at entry
      apply entry.mono
      rw [pow_succ]
      linarith
    · -- The layer is the next one that `backward` takes off.
      have next : 8 - round = 7 - round + 1 := by omega
      have joined := value i inside
      rw [next] at joined
      have agree j (within : j < 2 ^ 8) :
          reading (run (inverseLayer (7 - round)) (run (inverseLayers round) a)) j =
          join (2 ^ (8 - 1 - (7 - round))) (fun b => invZetaq (2 ^ (7 - round) + b))
            (reading (run (inverseLayers round) a)) j :=
        (layer j within).2
      have rounds : 8 - (round + 1) = 7 - round := by omega
      rw [rounds, backward_congr (by omega) agree i inside]
      exact joined

/-- The inverse transform stays in range and undoes the layers. -/
theorem invntt_spec (below : ∀ i, Below Q (a i)) :
    InvnttSafe a ∧ (∀ i, Below Q (invnttTomont a i)) ∧
      ∀ i < N, reading (invnttTomont a) i =
        MONT_INV * (F : Zq) * backward 8 invZetaq 8 (reading a) i := by
  obtain ⟨safe, bound, value⟩ := inverseLayers_spec below le_rfl
  have range i : MontgomeryRange (F * run (inverseLayers 8) a i) := by
    have belowF : Below 41979 F := ⟨by decide, by decide⟩
    exact ((belowF.mul (bound i)).mono (by decide)).montgomeryRange
  unfold InvnttSafe invnttTomont
  rw [invnttSteps_eq]
  refine ⟨⟨safe, range⟩, fun i => below_montgomeryReduce (range i), ?_⟩
  intro i inside
  rw [← value i inside]
  unfold reading
  have cast := cast_montgomeryReduce (range (Fin.ofNat N i))
  push_cast at cast
  refine cast.trans ?_
  rw [Nat.sub_self, backward]
  ring

/-! ## Multiplication in the ring -/

section Product

open Polynomial

noncomputable def toPolynomial (a : Poly) : Zq[X] := ∑ i ∈ Finset.range N, C (reading a i) * X ^ i

theorem eval_toPolynomial (a : Poly) (x : Zq) :
    (toPolynomial a).eval x = ∑ i ∈ Finset.range N, reading a i * x ^ i := by
  unfold toPolynomial
  rw [eval_finsetSum]
  simp [eval_mul, eval_C, eval_pow, eval_X]

instance : Nontrivial Zq := ZMod.nontrivial_iff.mpr (by decide)

variable {i : Nat}

theorem leaf_isRoot (leaf : i < N) : root zetaq (2 ^ 8 + i) ^ N = -1 :=
  twiddles_zetaq.leaf_pow_size (by decide) leaf

/-- The transform evaluates at the leaves. -/
theorem forward_eq_eval (a : Poly) (leaf : i < N) :
    forward 8 zetaq 8 (reading a) i = (toPolynomial a).eval (root zetaq (2 ^ 8 + i)) := by
  rw [eval_toPolynomial]
  exact twiddles_zetaq.forward_eq_eval (reading a) leaf

variable {p : Zq[X]}

theorem forward_coeff (small : p.natDegree < N) (leaf : i < N) :
    forward 8 zetaq 8 p.coeff i = p.eval (root zetaq (2 ^ 8 + i)) := by
  rw [eval_eq_sum_range' small]
  exact twiddles_zetaq.forward_eq_eval p.coeff leaf

/-- The pointwise product is the transform of the product of the ring, with
one Montgomery factor. -/
theorem forward_product (a b : Poly) (leaf : i < N) :
    forward 8 zetaq 8 ((toPolynomial a * toPolynomial b) %ₘ (X ^ N + 1)).coeff i =
      forward 8 zetaq 8 (reading a) i * forward 8 zetaq 8 (reading b) i := by
  rw [forward_coeff (natDegree_remainder_lt (by decide) _) leaf,
    eval_remainder _ (leaf_isRoot leaf), eval_mul, forward_eq_eval a leaf, forward_eq_eval b leaf]

theorem toPolynomial_eq_of_coeff {a : Poly}
    (small : p.natDegree < N) (same : ∀ i < N, reading a i = p.coeff i) : toPolynomial a = p := by
  rw [as_sum_range' p N small]
  apply Finset.sum_congr rfl
  intro i member
  rw [same i (Finset.mem_range.mp member), C_mul_X_pow_eq_monomial]

theorem pointwise_spec {a b : Poly} (belowA : ∀ i, Below (9 * Q) (a i))
    (belowB : ∀ i, Below (9 * Q) (b i)) :
    PointwiseSafe a b ∧ (∀ i, Below Q (pointwiseMontgomery a b i)) ∧
      ∀ i, reading (pointwiseMontgomery a b) i = MONT_INV * (reading a i * reading b i) := by
  have range : PointwiseSafe a b := fun i =>
    (((belowA i).mul (belowB i)).mono (by decide)).montgomeryRange
  refine ⟨range, fun i => below_montgomeryReduce (range i), fun i => ?_⟩
  have cast := cast_montgomeryReduce (range (Fin.ofNat N i))
  push_cast at cast
  exact cast

/-- Multiplication through the transform is exact, and none of its operations
leaves its range. -/
theorem ntt_multiplication_exact
    (a b : Poly) (belowA : ∀ i, Below Q (a i)) (belowB : ∀ i, Below Q (b i)) :
    let c := invnttTomont (pointwiseMontgomery (ntt a) (ntt b))
    toPolynomial c = (toPolynomial a * toPolynomial b) %ₘ (X ^ N + 1) ∧
      (∀ i, Below Q (c i)) ∧
      NttSafe a ∧ NttSafe b ∧ PointwiseSafe (ntt a) (ntt b) ∧
      InvnttSafe (pointwiseMontgomery (ntt a) (ntt b)) := by
  obtain ⟨safeA, boundA, valueA⟩ := ntt_spec belowA
  obtain ⟨safeB, boundB, valueB⟩ := ntt_spec belowB
  obtain ⟨safeProduct, boundProduct, valueProduct⟩ := pointwise_spec boundA boundB
  obtain ⟨safeInverse, bound, value⟩ := invntt_spec boundProduct
  refine ⟨?_, bound, safeA, safeB, safeProduct, safeInverse⟩
  let product := (toPolynomial a * toPolynomial b) %ₘ (X ^ N + 1)
  have transformed i (leaf : i < 2 ^ 8) : reading (pointwiseMontgomery (ntt a) (ntt b)) i =
        MONT_INV * forward 8 zetaq 8 product.coeff i := by
    rw [valueProduct, valueA i leaf, valueB i leaf, forward_product a b leaf]
  apply toPolynomial_eq_of_coeff (natDegree_remainder_lt (by decide) _)
  intro i inside
  rw [value i inside, backward_congr le_rfl transformed i inside, backward_mul]
  dsimp only
  rw [backward_forward invZetaq_mul_zetaq _ le_rfl i inside]
  linear_combination product.coeff i * scale_eq_one

/-- `X ^ 255` times `X` wraps around. -/
theorem ntt_multiplication_exact_wraps : let a : Poly := Pi.single 255 1
    let b : Poly := Pi.single 1 1
    toPolynomial (invnttTomont (pointwiseMontgomery (ntt a) (ntt b))) =
      (toPolynomial a * toPolynomial b) %ₘ (X ^ N + 1) := by
  intro a b
  have below (k i : Fin N) : Below Q ((Pi.single k 1 : Poly) i) := by
    by_cases same : i = k
    · rw [same, Pi.single_eq_same]
      exact ⟨by decide, by decide⟩
    · rw [Pi.single_eq_of_ne same]
      exact ⟨by decide, by decide⟩
  exact (ntt_multiplication_exact a b (below 255) (below 1)).1

end Product

end ParallaX.MlDsa
