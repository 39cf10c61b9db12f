import ParallaX.Transform.Butterfly

/-!
# In-place loops over disjoint pairs

A loop that replaces two entries of an array in each round computes what one
simultaneous update does, as long as no entry is replaced twice: each round
sees the two entries as they were at the start.
-/

namespace ParallaX.Transform

open List Function

variable {ι α : Type*} [DecidableEq ι]

/-- A round of the loop: the entries at `fst` and `snd` are replaced. `safe`
is what its operations ask of the two entries. -/
structure PairStep (ι α : Type*) where
  fst : ι
  snd : ι
  act : α → α → α × α
  safe : α → α → Prop

namespace PairStep

/-- The second entry is written first. -/
def apply (step : PairStep ι α) (a : ι → α) : ι → α :=
  Function.update (Function.update a step.snd (step.act (a step.fst) (a step.snd)).2)
    step.fst (step.act (a step.fst) (a step.snd)).1

def run (steps : List (PairStep ι α)) (a : ι → α) : ι → α :=
  steps.foldl (fun a step => step.apply a) a

/-- Every round is safe on the entries it sees. -/
def Safe : List (PairStep ι α) → (ι → α) → Prop
  | [], _ => True
  | step :: rest, a => step.safe (a step.fst) (a step.snd) ∧ Safe rest (step.apply a)

def Avoids (step : PairStep ι α) (i : ι) : Prop := step.fst ≠ i ∧ step.snd ≠ i

def Disjoint (step other : PairStep ι α) : Prop := step.Avoids other.fst ∧ step.Avoids other.snd

variable {step other : PairStep ι α} {steps : List (PairStep ι α)}

theorem apply_fst (a : ι → α) : step.apply a step.fst = (step.act (a step.fst) (a step.snd)).1 :=
  update_self ..

theorem apply_snd (distinct : step.fst ≠ step.snd) (a : ι → α) :
    step.apply a step.snd = (step.act (a step.fst) (a step.snd)).2 := by
  unfold apply
  rw [update_of_ne distinct.symm, update_self]

variable {i : ι}

theorem apply_of_avoids (avoids : step.Avoids i) (a : ι → α) : step.apply a i = a i := by
  unfold apply
  rw [update_of_ne avoids.1.symm, update_of_ne avoids.2.symm]

theorem run_append (first second : List (PairStep ι α)) (a : ι → α) :
    run (first ++ second) a = run second (run first a) :=
  foldl_append ..

/-- Rounds that keep a pair of equal entries keep a constant vector. -/
theorem run_const {value : α} (fixed : ∀ step ∈ steps, step.act value value = (value, value)) :
    run steps (fun _ => value) = fun _ => value := by
  induction steps with
  | nil => rfl
  | cons step _ ih =>
    have applied : step.apply (fun _ => value) = fun _ => value := by
      simp [apply, fixed step mem_cons_self]
    rw [run, foldl_cons, applied]
    exact ih fun other member =>
      fixed other (mem_cons_of_mem _ member)

theorem safe_append {first second : List (PairStep ι α)} {a : ι → α} :
    Safe (first ++ second) a ↔ Safe first a ∧ Safe second (run first a) := by
  induction first generalizing a with
  | nil => exact ⟨fun all => ⟨trivial, all⟩, fun both => both.2⟩
  | cons _ _ ih =>
    rw [cons_append, Safe, Safe, ih]
    exact and_assoc.symm

theorem run_of_avoids (avoids : ∀ step ∈ steps, step.Avoids i)
    (a : ι → α) : run steps a i = a i := by
  induction steps generalizing a with
  | nil => rfl
  | cons step _ ih =>
    have later := ih (fun other member => avoids other (mem_cons_of_mem _ member))
      (step.apply a)
    exact later.trans (apply_of_avoids (avoids step mem_cons_self) a)

theorem run_of_disjoint (distinct : ∀ step ∈ steps, step.fst ≠ step.snd)
    (disjoint : steps.Pairwise Disjoint) (member : step ∈ steps) (a : ι → α) :
    run steps a step.fst = (step.act (a step.fst) (a step.snd)).1 ∧
      run steps a step.snd = (step.act (a step.fst) (a step.snd)).2 := by
  induction steps generalizing a with
  | nil => cases member
  | cons first rest ih =>
    obtain ⟨fromFirst, amongRest⟩ := pairwise_cons.mp disjoint
    change run rest (first.apply a) step.fst = _ ∧ run rest (first.apply a) step.snd = _
    rcases mem_cons.mp member with rfl | later
    · -- Later steps leave the entries of the first alone.
      have avoidsFst other (inRest : other ∈ rest) : other.Avoids step.fst := by
        have apart := fromFirst other inRest
        exact ⟨apart.1.1.symm, apart.2.1.symm⟩
      have avoidsSnd other (inRest : other ∈ rest) : other.Avoids step.snd := by
        have apart := fromFirst other inRest
        exact ⟨apart.1.2.symm, apart.2.2.symm⟩
      rw [run_of_avoids avoidsFst, run_of_avoids avoidsSnd, apply_fst,
        apply_snd (distinct step mem_cons_self)]
      exact ⟨rfl, rfl⟩
    · obtain ⟨avoidsFst, avoidsSnd⟩ := fromFirst step later
      have acted := ih (fun other inRest => distinct other (mem_cons_of_mem _ inRest))
        amongRest later (first.apply a)
      rw [apply_of_avoids avoidsFst, apply_of_avoids avoidsSnd] at acted
      exact acted

theorem safe_of_disjoint (disjoint : steps.Pairwise Disjoint) {a : ι → α}
    (all : ∀ step ∈ steps, step.safe (a step.fst) (a step.snd)) : Safe steps a := by
  suffices general : ∀ b : ι → α,
      (∀ step ∈ steps, b step.fst = a step.fst ∧ b step.snd = a step.snd) →
      Safe steps b from general a fun _ _ => ⟨rfl, rfl⟩
  induction steps with
  | nil => exact fun _ _ => trivial
  | cons first _ ih =>
    intro _ agrees
    obtain ⟨fromFirst, amongRest⟩ := pairwise_cons.mp disjoint
    refine ⟨?_, ?_⟩
    · obtain ⟨sameFst, sameSnd⟩ := agrees first mem_cons_self
      rw [sameFst, sameSnd]
      exact all first mem_cons_self
    · apply ih amongRest (fun step inRest => all step (mem_cons_of_mem _ inRest))
      intro step inRest
      obtain ⟨avoidsFst, avoidsSnd⟩ := fromFirst step inRest
      rw [apply_of_avoids avoidsFst, apply_of_avoids avoidsSnd]
      exact agrees step (mem_cons_of_mem _ inRest)

/-! ## Layers of butterflies -/

section Layers

/-- What a round does to its two entries. -/
structure Kernel (α : Type*) where
  act : α → α → α × α
  safe : α → α → Prop

variable {size : ℕ} [NeZero size] {len count : ℕ} {kernel : ℕ → Kernel α}

def butterfly (size : ℕ) [NeZero size] (kernel : Kernel α) (len j : ℕ) : PairStep (Fin size) α :=
  { fst := Fin.ofNat size j
    snd := Fin.ofNat size (j + len)
    act := kernel.act
    safe := kernel.safe }

def layer (size : ℕ) [NeZero size] (len count : ℕ) (kernel : ℕ → Kernel α) :
    List (PairStep (Fin size) α) :=
  (List.range count).flatMap fun b =>
    (List.range len).map fun i =>
      butterfly size (kernel b) len (2 * len * b + i)

theorem layer_eq_map :
    layer size len count kernel =
      (List.product (List.range count) (List.range len)).map fun item =>
        butterfly size (kernel item.1) len (2 * len * item.1 + item.2) := by
  unfold layer List.product
  rw [map_flatMap]
  simp only [map_map, comp_def]

theorem mem_layer {step : PairStep (Fin size) α} :
    step ∈ layer size len count kernel ↔
      ∃ b < count, ∃ r < len, step = butterfly size (kernel b) len (2 * len * b + r) := by
  unfold layer
  simp only [mem_flatMap, mem_range, mem_map]
  constructor
  · rintro ⟨b, block, r, low, rfl⟩
    exact ⟨b, block, r, low, rfl⟩
  · rintro ⟨b, block, r, low, rfl⟩
    exact ⟨b, block, r, low, rfl⟩

omit [NeZero size] in
theorem high_lt (whole : 2 * len * count = size) {b r : ℕ} (block : b < count)
    (low : r < len) : 2 * len * b + (len + r) < size := by
  have starts : 2 * len * b < 2 * len * count := Nat.mul_lt_mul_of_pos_left block (by omega)
  have ends : 2 * len * (b + 1) ≤ 2 * len * count := Nat.mul_le_mul_left _ block
  rw [Nat.mul_succ] at ends
  omega

theorem ofNat_inj {i j : ℕ} (first : i < size) (second : j < size)
    (same : Fin.ofNat size i = Fin.ofNat size j) : i = j := by
  have values := congrArg Fin.val same
  rwa [Fin.val_ofNat, Fin.val_ofNat, Nat.mod_eq_of_lt first, Nat.mod_eq_of_lt second] at values

/-- A position says which block it is in and where. -/
theorem position_inj {b b' r r' : ℕ} (within : r < 2 * len) (within' : r' < 2 * len)
    (same : 2 * len * b + r = 2 * len * b' + r') : b = b' ∧ r = r' := by
  obtain ⟨rest, block⟩ := position b within
  obtain ⟨rest', block'⟩ := position b' within'
  rw [same] at rest block
  exact ⟨block.symm.trans block', rest.symm.trans rest'⟩

theorem distinct_layer (whole : 2 * len * count = size) :
    ∀ step ∈ layer size len count kernel, step.fst ≠ step.snd := by
  intro _ member
  obtain ⟨_, block, _, low, rfl⟩ := mem_layer.mp member
  intro same
  have inside := high_lt whole block low
  have positions := ofNat_inj (by omega) (by omega) same
  omega

theorem disjoint_layer (whole : 2 * len * count = size) :
    (layer size len count kernel).Pairwise Disjoint := by
  rw [layer_eq_map, pairwise_map]
  have nodup := List.Nodup.product (nodup_range (n := count)) (nodup_range (n := len))
  apply nodup.pairwise_of_forall_ne
  rintro ⟨b, r⟩ member ⟨b', r'⟩ member' differ
  obtain ⟨block, low⟩ := pair_mem_product.mp member
  obtain ⟨block', low'⟩ := pair_mem_product.mp member'
  rw [mem_range] at block low block' low'
  have inside := high_lt whole block low
  have inside' := high_lt whole block' low'
  have apart : ¬(b = b' ∧ r = r') := by
    rintro ⟨rfl, rfl⟩
    exact differ rfl
  -- Equal entries are equal positions, as both lie in the array.
  have entries {s s' : ℕ} (within : s ≤ len + r) (within' : s' ≤ len + r')
      (differ : ¬(b = b' ∧ s = s')) :
      Fin.ofNat size (2 * len * b + s) ≠ Fin.ofNat size (2 * len * b' + s') := by
    intro same
    have position := ofNat_inj (by omega) (by omega) same
    exact differ (position_inj (by omega) (by omega) position)
  dsimp only [Disjoint, Avoids, butterfly]
  rw [Nat.add_assoc, Nat.add_assoc]
  exact ⟨⟨entries (by omega) (by omega) apart, entries (by omega) (by omega) (by omega)⟩,
    entries (by omega) (by omega) (by omega), entries (by omega) (by omega) (by omega)⟩

theorem run_layer (whole : 2 * len * count = size) (a : Fin size → α)
    {b r : ℕ} (block : b < count) (low : r < len) :
    run (layer size len count kernel) a (Fin.ofNat size (2 * len * b + r)) =
        ((kernel b).act (a (Fin.ofNat size (2 * len * b + r)))
          (a (Fin.ofNat size (2 * len * b + (len + r))))).1 ∧
      run (layer size len count kernel) a (Fin.ofNat size (2 * len * b + (len + r))) =
        ((kernel b).act (a (Fin.ofNat size (2 * len * b + r)))
          (a (Fin.ofNat size (2 * len * b + (len + r))))).2 := by
  have member : butterfly size (kernel b) len (2 * len * b + r) ∈ layer size len count kernel :=
    mem_layer.mpr ⟨b, block, r, low, rfl⟩
  have acted := run_of_disjoint (distinct_layer whole) (disjoint_layer whole) member a
  have position : 2 * len * b + (len + r) = 2 * len * b + r + len := by omega
  rw [position]
  exact acted

variable {a : Fin size → α}

/-- What the kernels give at the halves of each block holds everywhere. -/
theorem forall_run_layer (whole : 2 * len * count = size) (positive : 0 < len)
    {p : ℕ → α → Prop}
    (all : ∀ b < count, ∀ r < len, p (2 * len * b + r)
          ((kernel b).act (a (Fin.ofNat size (2 * len * b + r)))
            (a (Fin.ofNat size (2 * len * b + (len + r))))).1 ∧
        p (2 * len * b + (len + r))
          ((kernel b).act (a (Fin.ofNat size (2 * len * b + r)))
            (a (Fin.ofNat size (2 * len * b + (len + r))))).2) :
    ∀ i < size, p i (run (layer size len count kernel) a (Fin.ofNat size i)) := by
  intro i within
  rw [← whole] at within
  obtain ⟨b, block, r, low, isPosition, -⟩ := position_block positive within
  obtain ⟨lower, upper⟩ := run_layer whole a block low
  obtain ⟨atLower, atUpper⟩ := all b block r low
  rcases isPosition with rfl | rfl
  · rw [lower]
    exact atLower
  · rw [upper]
    exact atUpper

theorem safe_layer (whole : 2 * len * count = size)
    (all : ∀ b < count, ∀ r < len, (kernel b).safe (a (Fin.ofNat size (2 * len * b + r)))
        (a (Fin.ofNat size (2 * len * b + (len + r))))) : Safe (layer size len count kernel) a := by
  apply safe_of_disjoint (disjoint_layer whole)
  intro _ member
  obtain ⟨b, block, r, low, rfl⟩ := mem_layer.mp member
  have safe := all b block r low
  have position : 2 * len * b + (len + r) = 2 * len * b + r + len := by omega
  rw [position] at safe
  exact safe

end Layers

end PairStep

end ParallaX.Transform
