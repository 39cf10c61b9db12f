import ParallaX.MlDsa.Packing

/-!
# ML-DSA-87: the hint region of a signature

The indices of the nonzero coefficients, one polynomial after another, then the
running counts. The three checks of the decoder leave one encoding for each
hint vector.
-/

namespace ParallaX.MlDsa

open Codec Function List Option

instance : NeZero K := ⟨by decide⟩

instance : NeZero L := ⟨by decide⟩

abbrev Polyveck : Type := Fin K → Poly

abbrev Polyvecl : Type := Fin L → Poly

/-- The region being written and the number of indices emitted. -/
abbrev HintState : Type := (Nat → UInt8) × Nat

def emitIndex (state : HintState) (j : Fin N) : HintState :=
  (update state.1 state.2 (UInt8.ofNat j), state.2 + 1)

def emitPoly (h : Poly) (state : HintState) : HintState :=
  (List.finRange N).foldl (fun state j => if h j ≠ 0 then emitIndex state j else state) state

def packHintStep (h : Polyveck) (state : HintState) (i : Nat) : HintState :=
  let emitted := emitPoly (h (Fin.ofNat K i)) state
  (update emitted.1 (OMEGA + i) (UInt8.ofNat emitted.2), emitted.2)

/-- The region before it is cut to `OMEGA + K` bytes. The source panics on an
index beyond them, which needs more than `OMEGA` nonzero coefficients. -/
def writeHint (h : Polyveck) (polys : Nat) : HintState :=
  (List.range polys).foldl (packHintStep h) (fun _ => 0, 0)

def packHint (h : Polyveck) : List UInt8 := (List.range (OMEGA + K)).map (writeHint h K).1

/-- `hint[j] as usize`, as an index of the coefficients. -/
def index (byte : UInt8) : Fin N := ⟨byte.toNat, byte.toNat_lt⟩

/-- A round of the inner loop: indices must ascend. -/
def unpackIndex (hint : Nat → UInt8) (k : Nat) (h : Poly) (j : Nat) : Option Poly :=
  if k < j ∧ hint j ≤ hint (j - 1) then none
  else some (update h (index (hint j)) 1)

def unpackRun (hint : Nat → UInt8) (k cnt : Nat) : Option Poly :=
  (List.range' k (cnt - k)).foldlM (unpackIndex hint k) fun _ => 0

def unpackHintStep (hint : Nat → UInt8) (state : Nat × Polyveck) (i : Nat) :
    Option (Nat × Polyveck) :=
  let cnt := (hint (OMEGA + i)).toNat
  if cnt < state.1 ∨ OMEGA < cnt then none
  else
    (unpackRun hint state.1 cnt).map fun run =>
      (cnt, update state.2 (Fin.ofNat K i) run)

def readHint (hint : Nat → UInt8) (polys : Nat) : Option (Nat × Polyveck) :=
  (List.range polys).foldlM (unpackHintStep hint) (0, fun _ _ => 0)

/-- Unused index bytes must be zero. -/
def unpackHint (hint : Nat → UInt8) : Option Polyveck :=
  (readHint hint K).bind fun state =>
    if ∀ j ∈ List.range' state.1 (OMEGA - state.1), hint j = 0 then
      some state.2
    else none

/-! ## Runs of indices -/

def Binary (h : Poly) : Prop := ∀ j, h j = 0 ∨ h j = 1

/-- The indices of the nonzero coefficients, in order. -/
def positions (h : Poly) : List (Fin N) := (List.finRange N).filter fun j => h j ≠ 0

/-- The polynomial with ones at some indices. -/
def mark (run : List (Fin N)) : Poly := fun j => if j ∈ run then 1 else 0

theorem mem_positions {h : Poly} {j : Fin N} : j ∈ positions h ↔ h j ≠ 0 := by
  simp [positions]

theorem pairwise_positions (h : Poly) : (positions h).Pairwise (· < ·) :=
  (pairwise_lt_finRange N).filter _

theorem mark_positions {h : Poly} (binary : Binary h) : mark (positions h) = h := by
  funext j
  rcases binary j with isZero | isOne
  · simp [mark, mem_positions, isZero]
  · simp [mark, mem_positions, isOne]

theorem positions_mark {run : List (Fin N)} (ascends : run.Pairwise (· < ·)) :
    positions (mark run) = run := by
  apply (pairwise_positions _).eq_of_mem_iff ascends
  simp [mem_positions, mark]

variable {hint other : Nat → UInt8} {j polys : Nat} {h : Polyveck}
  (run : List (Fin N)) (state : HintState)

theorem binary_mark : Binary (mark run) := by
  intro j
  by_cases member : j ∈ run
  · exact .inr (if_pos member)
  · exact .inl (if_neg member)

theorem index_ofNat (j : Fin N) : index (UInt8.ofNat j) = j := by
  apply Fin.ext
  change (UInt8.ofNat j.val).toNat = j.val
  rw [UInt8.toNat_ofNat', Nat.mod_eq_of_lt (show j.val < 2 ^ 8 from j.isLt)]

theorem index_inj {a b : UInt8} (same : index a = index b) : a = b :=
  UInt8.toNat_inj.mp (congrArg Fin.val same)

def indices (hint : Nat → UInt8) (start len : Nat) : List (Fin N) :=
  (List.range' start len).map fun j => index (hint j)

theorem indices_succ (hint : Nat → UInt8) (start len : Nat) :
    indices hint start (len + 1) = indices hint start len ++ [index (hint (start + len))] := by
  simp [indices, List.range'_1_concat]

theorem indices_add (hint : Nat → UInt8) (start len more : Nat) :
    indices hint start (len + more) =
      indices hint start len ++ indices hint (start + len) more := by
  simp only [indices, ← map_append]
  congr 1
  simp

theorem length_indices (hint : Nat → UInt8) (start len : Nat) :
    (indices hint start len).length = len := by
  simp [indices]

variable {len k more : Nat}

theorem indices_congr {start : Nat} (same : ∀ j, start ≤ j → j < start + len → hint j = other j) :
    indices hint start len = indices other start len := by
  apply map_congr_left
  intro j member
  obtain ⟨lower, upper⟩ := mem_range'_1.mp member
  rw [same j lower upper]

theorem mark_concat (j : Fin N) : mark (run ++ [j]) = update (mark run) j 1 := by
  funext i
  by_cases same : i = j
  · simp [mark, same]
  · simp [mark, same]

theorem unpackIndex_eq_some {run : Poly} :
    unpackIndex hint k (mark (indices hint k len)) (k + len) = some run ↔
      (∀ last ∈ (indices hint k len).getLast?, last < index (hint (k + len))) ∧
        run = mark (indices hint k (len + 1)) := by
  rw [indices_succ, mark_concat, unpackIndex]
  rcases eq_zero_or_pos len with rfl | _
  · rw [if_neg (by omega)]
    simp [indices, eq_comm]
  · have last : (indices hint k len).getLast? = some (index (hint (k + len - 1))) := by
      rw [indices, List.getLast?_map, List.getLast?_range', if_neg (by omega)]
      rfl
    have order : index (hint (k + len - 1)) < index (hint (k + len)) ↔
        ¬hint (k + len) ≤ hint (k + len - 1) :=
      UInt8.not_le.symm
    have later : k < k + len := by omega
    simp only [last, mem_some_iff, forall_eq', order, later, true_and]
    by_cases stops : hint (k + len) ≤ hint (k + len - 1)
    · simp [stops]
    · simp [stops, eq_comm]

theorem foldlM_concat {α β : Type} (f : β → α → Option β) (init : β) (list : List α) (last : α) :
    (list ++ [last]).foldlM f init = (list.foldlM f init).bind fun before => f before last := by
  simp [foldlM_append]

theorem unpackRun_eq_some {run : Poly} :
    unpackRun hint k (k + len) = some run ↔
      (indices hint k len).Pairwise (· < ·) ∧ run = mark (indices hint k len) := by
  rw [← isChain_iff_pairwise]
  unfold unpackRun
  rw [Nat.add_sub_cancel_left]
  induction len generalizing run with
  | zero =>
    have nothing : mark [] = fun _ => 0 := by simp [mark, funext_iff]
    simp [indices, nothing, eq_comm]
  | succ len ih =>
    rw [List.range'_1_concat, foldlM_concat, bind_eq_some_iff]
    constructor
    · rintro ⟨_, loop, next⟩
      obtain ⟨ascends, rfl⟩ := ih.mp loop
      obtain ⟨above, rfl⟩ := unpackIndex_eq_some.mp next
      refine ⟨?_, rfl⟩
      rw [indices_succ, isChain_append]
      refine ⟨ascends, isChain_singleton _, ?_⟩
      simpa using above
    · rintro ⟨ascends, rfl⟩
      rw [indices_succ, isChain_append] at ascends
      refine ⟨mark (indices hint k len), ih.mpr ⟨ascends.1, rfl⟩, ?_⟩
      refine unpackIndex_eq_some.mpr ⟨?_, rfl⟩
      simpa using ascends.2.2

/-! ## The whole region -/

/-- The indices of the first polynomials. -/
def emitted (h : Polyveck) (polys : Nat) : List (Fin N) :=
  concat polys fun i => positions (h (Fin.ofNat K i))

theorem emitted_succ (h : Polyveck) (polys : Nat) :
    emitted h (polys + 1) = emitted h polys ++ positions (h (Fin.ofNat K polys)) :=
  concat_succ _ _

theorem length_emitted_succ (h : Polyveck) (polys : Nat) :
    (emitted h (polys + 1)).length =
      (emitted h polys).length + (positions (h (Fin.ofNat K polys))).length := by
  rw [emitted_succ, length_append]

theorem length_emitted_mono (h : Polyveck) (le : polys ≤ more) :
    (emitted h polys).length ≤ (emitted h more).length := by
  induction more, le using Nat.le_induction with
  | base => exact le_rfl
  | succ =>
    rw [length_emitted_succ]
    omega

/-- The region after the first polynomials: their indices, zeros, and their
running counts. -/
structure Encodes (hint : Nat → UInt8) (h : Polyveck) (polys : Nat) : Prop where
  fits : (emitted h polys).length ≤ OMEGA
  run : indices hint 0 (emitted h polys).length = emitted h polys
  counts : ∀ i < polys, (hint (OMEGA + i)).toNat = (emitted h (i + 1)).length

/-- Bytes of the region that no index uses. -/
def Cleared (hint : Nat → UInt8) (used : Nat) : Prop := ∀ j, used ≤ j → j < OMEGA → hint j = 0

theorem Encodes.unique (encodes : Encodes hint h K) (cleared : Cleared hint (emitted h K).length)
    (otherEncodes : Encodes other h K) (otherCleared : Cleared other (emitted h K).length)
    (inside : j < OMEGA + K) : hint j = other j := by
  by_cases isCount : OMEGA ≤ j
  · obtain ⟨i, rfl⟩ := Nat.exists_eq_add_of_le isCount
    have first := encodes.counts i (by omega)
    have second := otherEncodes.counts i (by omega)
    exact UInt8.toNat_inj.mp (first.trans second.symm)
  · by_cases used : j < (emitted h K).length
    · have same := encodes.run.trans otherEncodes.run.symm
      exact index_inj (map_inj_left.mp same j (mem_range'_1.mpr ⟨Nat.zero_le j, by omega⟩))
    · rw [cleared j (by omega) (by omega), otherCleared j (by omega) (by omega)]

/-! ## What the encoder writes -/

theorem emitPoly_eq (h : Poly) (state : HintState) :
    emitPoly h state = (positions h).foldl emitIndex state := by
  rw [positions, foldl_filter]
  simp [emitPoly]

theorem emitAll_snd : (run.foldl emitIndex state).2 = state.2 + run.length := by
  induction run generalizing state with
  | nil => rfl
  | cons _ _ ih =>
    rw [foldl_cons, ih, length_cons]
    simp only [emitIndex]
    omega

theorem emitAll_outside (outside : j < state.2 ∨ state.2 + run.length ≤ j) :
    (run.foldl emitIndex state).1 j = state.1 j := by
  induction run generalizing state with
  | nil => rfl
  | cons first _ ih =>
    rw [length_cons] at outside
    have later := ih (emitIndex state first) (by simp only [emitIndex]; omega)
    rw [foldl_cons, later]
    exact update_of_ne (by omega) _ _

theorem indices_emitAll : indices (run.foldl emitIndex state).1 state.2 run.length = run := by
  induction run generalizing state with
  | nil => rfl
  | cons first rest ih =>
    have written : (rest.foldl emitIndex (emitIndex state first)).1 state.2 =
        UInt8.ofNat first := by
      rw [emitAll_outside rest _ (.inl (Nat.lt_succ_self _))]
      exact update_self ..
    have later := ih (emitIndex state first)
    rw [foldl_cons, length_cons, add_comm, indices_add]
    rw [show indices _ state.2 1 = [first] by
      simp [indices, written, index_ofNat]]
    exact congrArg (first :: ·) later

theorem writeHint_succ (h : Polyveck) (polys : Nat) :
    writeHint h (polys + 1) = packHintStep h (writeHint h polys) polys := by
  simp [writeHint, range_succ]

/-- The region after the first polynomials. -/
structure Written (state : HintState) (h : Polyveck) (polys : Nat) : Prop where
  used : state.2 = (emitted h polys).length
  encodes : Encodes state.1 h polys
  cleared : Cleared state.1 (emitted h polys).length

theorem Written.step {state : HintState} (written : Written state h polys)
    (fits : (emitted h (polys + 1)).length ≤ OMEGA) :
    Written (packHintStep h state polys) h (polys + 1) := by
  obtain ⟨run, isRun⟩ : ∃ run, positions (h (Fin.ofNat K polys)) = run := ⟨_, rfl⟩
  have total := length_emitted_succ h polys
  have appended := emitted_succ h polys
  rw [isRun] at total appended
  obtain ⟨wrote, isWrote⟩ : ∃ wrote, run.foldl emitIndex state = wrote := ⟨_, rfl⟩
  have count : wrote.2 = (emitted h (polys + 1)).length := by
    rw [← isWrote, emitAll_snd, written.used, total]
  have stepped : packHintStep h state polys =
      (update wrote.1 (OMEGA + polys) (UInt8.ofNat wrote.2), wrote.2) := by
    rw [packHintStep, emitPoly_eq, isRun, isWrote]
  -- The count is written beyond the indices and the earlier counts.
  have below j (before : j < OMEGA + polys) : (packHintStep h state polys).1 j = wrote.1 j := by
    rw [stepped]
    exact update_of_ne (by omega) _ _
  have outside j : j < (emitted h polys).length ∨
      (emitted h (polys + 1)).length ≤ j → wrote.1 j = state.1 j := by
    intro _
    rw [← isWrote]
    exact emitAll_outside run state (by rw [written.used]; omega)
  refine ⟨by rw [stepped]; exact count, ⟨fits, ?_, ?_⟩, ?_⟩
  · rw [total, indices_add, appended, zero_add]
    have earlier : indices (packHintStep h state polys).1 0
        (emitted h polys).length = emitted h polys := by
      refine Eq.trans (indices_congr ?_) written.encodes.run
      intro j _ before
      rw [below j (by omega), outside j (.inl (by omega))]
    have added : indices (packHintStep h state polys).1
        (emitted h polys).length run.length = run := by
      have emission := indices_emitAll run state
      rw [isWrote, written.used] at emission
      refine Eq.trans (indices_congr ?_) emission
      intro j _ _
      exact below j (by omega)
    rw [earlier, added]
  · intro i inside
    by_cases last : i = polys
    · subst last
      have small : wrote.2 < 2 ^ 8 := by
        have limit : OMEGA = 75 := rfl
        omega
      rw [stepped]
      dsimp only
      rw [update_self, UInt8.toNat_ofNat', Nat.mod_eq_of_lt small, count]
    · rw [below _ (by omega), outside _ (.inr (by omega))]
      exact written.encodes.counts i (by omega)
  · intro j unused inside
    rw [below j (by omega), outside j (.inr unused)]
    exact written.cleared j (by omega) inside

theorem written_writeHint (fits : (emitted h polys).length ≤ OMEGA) :
    Written (writeHint h polys) h polys := by
  induction polys with
  | zero => exact ⟨rfl, ⟨fits, rfl, fun i before => by omega⟩, fun _ _ _ => rfl⟩
  | succ polys ih =>
    have total := length_emitted_succ h polys
    rw [writeHint_succ]
    exact (ih (by omega)).step fits

/-! ## What the decoder accepts -/

theorem readHint_succ (hint : Nat → UInt8) (polys : Nat) :
    readHint hint (polys + 1) =
      (readHint hint polys).bind fun state =>
        unpackHintStep hint state polys := by
  rw [readHint, range_succ, foldlM_concat]
  rfl

theorem ofNat_ne {i : Nat} (first : i < K) (second : j < K) (differ : i ≠ j) :
    Fin.ofNat K i ≠ Fin.ofNat K j := by
  intro same
  have values := congrArg Fin.val same
  rw [Fin.val_ofNat, Fin.val_ofNat, Nat.mod_eq_of_lt first, Nat.mod_eq_of_lt second] at values
  exact differ values

theorem unpackHintStep_eq_some {next : Nat × Polyveck} :
    unpackHintStep hint (k, h) polys = some next ↔
      ∃ len, (hint (OMEGA + polys)).toNat = k + len ∧ k + len ≤ OMEGA ∧
        (indices hint k len).Pairwise (· < ·) ∧
        next = (k + len, update h (Fin.ofNat K polys) (mark (indices hint k len))) := by
  unfold unpackHintStep
  dsimp only
  constructor
  · intro ok
    split at ok
    · cases ok
    next bounded =>
      obtain ⟨_, ran, rfl⟩ := map_eq_some_iff.mp ok
      obtain ⟨len, total⟩ := Nat.exists_eq_add_of_le
        (show k ≤ (hint (OMEGA + polys)).toNat by omega)
      rw [total] at ran
      obtain ⟨ascends, rfl⟩ := unpackRun_eq_some.mp ran
      exact ⟨len, total, by omega, ascends, by rw [total]⟩
  · rintro ⟨_, total, _, ascends, rfl⟩
    rw [total, if_neg (by omega), unpackRun_eq_some.mpr ⟨ascends, rfl⟩]
    rfl

theorem readHint_eq_some (within : polys ≤ K) (read : readHint hint polys = some (k, h)) :
    k = (emitted h polys).length ∧ Encodes hint h polys ∧ (∀ i, Binary (h i)) := by
  induction polys generalizing k h with
  | zero =>
    cases read
    exact ⟨rfl, ⟨Nat.zero_le _, rfl, fun i before => by omega⟩, fun _ _ => .inl rfl⟩
  | succ polys ih =>
    rw [readHint_succ, bind_eq_some_iff] at read
    obtain ⟨⟨_, g⟩, readBefore, step⟩ := read
    obtain ⟨rfl, encodes, binary⟩ := ih (by omega) readBefore
    obtain ⟨len, total, bounded, ascends, next⟩ := unpackHintStep_eq_some.mp step
    cases next
    let run := indices hint (emitted g polys).length len
    let h := update g (Fin.ofNat K polys) (mark run)
    have unchanged upTo (_ : upTo ≤ polys) : emitted h upTo = emitted g upTo := by
      refine concat_congr fun i inside => congrArg positions ?_
      exact update_of_ne (ofNat_ne (by omega) (by omega) (by omega)) _ _
    have added : emitted h (polys + 1) = emitted g polys ++ run := by
      rw [emitted_succ, unchanged polys le_rfl]
      have marked : h (Fin.ofNat K polys) = mark run := update_self ..
      rw [marked, positions_mark ascends]
    have length : (emitted h (polys + 1)).length = (emitted g polys).length + len := by
      rw [added, length_append, length_indices]
    refine ⟨length.symm, ⟨by rw [length]; exact bounded, ?_, ?_⟩, ?_⟩
    · rw [length, added, indices_add, encodes.run, zero_add]
    · intro i _
      by_cases last : i = polys
      · subst last
        rw [length, total]
      · rw [unchanged (i + 1) (by omega)]
        exact encodes.counts i (by omega)
    · intro i
      by_cases last : i = Fin.ofNat K polys
      · subst last
        rw [update_self]
        exact binary_mark _
      · rw [update_of_ne last]
        exact binary i

def firstPolys (h : Polyveck) (polys : Nat) : Polyveck := fun i =>
  if i.val < polys then h i else fun _ => 0

theorem firstPolys_succ (h : Polyveck) (inside : polys < K) :
    firstPolys h (polys + 1) =
      update (firstPolys h polys) (Fin.ofNat K polys) (h (Fin.ofNat K polys)) := by
  have position : (Fin.ofNat K polys).val = polys := by rw [Fin.val_ofNat, Nat.mod_eq_of_lt inside]
  funext i
  by_cases last : i = Fin.ofNat K polys
  · subst last
    rw [update_self]
    exact if_pos (by omega)
  · rw [update_of_ne last]
    simp only [firstPolys]
    by_cases earlier : i.val < polys
    · rw [if_pos (by omega), if_pos earlier]
    · rw [if_neg (by omega), if_neg earlier]

theorem emitted_eq_append (h : Polyveck)
    (le : polys ≤ more) : ∃ rest, emitted h more = emitted h polys ++ rest := by
  induction more, le using Nat.le_induction with
  | base => exact ⟨[], (append_nil _).symm⟩
  | succ _ _ ih =>
    obtain ⟨_, split⟩ := ih
    exact ⟨_, by rw [emitted_succ, split, append_assoc]⟩

/-- The region holds the run of every polynomial. -/
theorem Encodes.held (encodes : Encodes hint h K) (inside : polys + 1 ≤ K) :
    indices hint (emitted h polys).length (positions (h (Fin.ofNat K polys))).length =
      positions (h (Fin.ofNat K polys)) := by
  obtain ⟨_, split⟩ := emitted_eq_append h inside
  have all := encodes.run
  rw [split, length_append, indices_add, emitted_succ, length_append, indices_add] at all
  have upTo := (append_inj all (by simp [length_indices])).1
  have second := (append_inj upTo (by simp [length_indices])).2
  rwa [zero_add] at second

theorem readHint_of_encodes (encodes : Encodes hint h K) (binary : ∀ i, Binary (h i))
    (within : polys ≤ K) :
    readHint hint polys = some ((emitted h polys).length, firstPolys h polys) := by
  induction polys with
  | zero => rfl
  | succ polys ih =>
    rw [readHint_succ, ih (by omega), bind_some]
    rw [unpackHintStep_eq_some]
    have total := length_emitted_succ h polys
    have whole := length_emitted_mono h (show polys + 1 ≤ K from within)
    have held := encodes.held within
    refine ⟨(positions (h (Fin.ofNat K polys))).length, ?_, ?_, ?_, ?_⟩
    · rw [encodes.counts polys (by omega), total]
    · have fits := encodes.fits
      omega
    · rw [held]
      exact pairwise_positions _
    · rw [held, mark_positions (binary _), total, firstPolys_succ h (by omega)]

theorem firstPolys_all (h : Polyveck) : firstPolys h K = h := funext fun i => if_pos i.isLt

def weight (h : Polyveck) : Nat := (emitted h K).length

theorem unpackHint_eq_some :
    unpackHint hint = some h ↔ Encodes hint h K ∧ Cleared hint (weight h) ∧ ∀ i, Binary (h i) := by
  have checked (used : Nat) :
      (∀ j ∈ List.range' used (OMEGA - used), hint j = 0) ↔ Cleared hint used := by
    constructor
    · intro all j lower upper
      exact all j (mem_range'_1.mpr ⟨lower, by omega⟩)
    · intro cleared j member
      obtain ⟨lower, _⟩ := mem_range'_1.mp member
      exact cleared j lower (by omega)
  unfold unpackHint
  constructor
  · intro ok
    obtain ⟨⟨_, _⟩, read, rest⟩ := bind_eq_some_iff.mp ok
    obtain ⟨rfl, encodes, binary⟩ := readHint_eq_some le_rfl read
    split at rest
    next zeros =>
      cases rest
      exact ⟨encodes, (checked _).mp zeros, binary⟩
    · cases rest
  · rintro ⟨encodes, cleared, binary⟩
    rw [readHint_of_encodes encodes binary le_rfl, firstPolys_all, bind_some]
    exact if_pos ((checked _).mpr cleared)

theorem length_packHint (h : Polyveck) : (packHint h).length = OMEGA + K := by
  simp [packHint]

theorem getD_packHint (h : Polyveck) (inside : j < OMEGA + K) :
    (packHint h).getD j 0 = (writeHint h K).1 j := by
  simp [packHint, inside]

theorem unpackHint_congr (same : ∀ j < OMEGA + K, hint j = other j)
    (ok : unpackHint hint = some h) : unpackHint other = some h := by
  rw [unpackHint_eq_some] at ok ⊢
  obtain ⟨encodes, cleared, binary⟩ := ok
  have fits := encodes.fits
  refine ⟨⟨fits, ?_, ?_⟩, ?_, binary⟩
  · rw [← encodes.run, length_indices]
    exact indices_congr fun j _ before => (same j (by omega)).symm
  · intro i inside
    rw [← same _ (by omega)]
    exact encodes.counts i inside
  · intro j unused inside
    rw [← same j (by omega)]
    exact cleared j unused inside

theorem unpackHint_packHint (binary : ∀ i, Binary (h i)) (light : weight h ≤ OMEGA) :
    unpackHint (fun j => (packHint h).getD j 0) = some h := by
  have written := written_writeHint light
  have ok := unpackHint_eq_some.mpr ⟨written.encodes, written.cleared, binary⟩
  exact unpackHint_congr (fun j inside => (getD_packHint h inside).symm) ok

/-- An accepted region is the encoding of what it decodes to. -/
theorem packHint_of_unpackHint {bytes : List UInt8} (length : bytes.length = OMEGA + K)
    (ok : unpackHint (fun j => bytes.getD j 0) = some h) : packHint h = bytes := by
  obtain ⟨encodes, cleared, _⟩ := unpackHint_eq_some.mp ok
  have written := written_writeHint encodes.fits
  apply ext_getElem
  · rw [length_packHint, length]
  · intro _ left _
    rw [← getD_eq_getElem _ 0, ← getD_eq_getElem _ 0, getD_packHint h left]
    exact written.encodes.unique written.cleared encodes cleared left

end ParallaX.MlDsa
