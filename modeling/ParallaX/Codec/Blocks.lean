import Mathlib.Algebra.Group.Int.Defs
import Mathlib.Algebra.GroupWithZero.Nat
import Mathlib.Data.List.GetD
import Mathlib.Data.List.OfFn
import Mathlib.Data.List.Basic

/-!
# Byte strings made of equal blocks

Cutting a byte string in blocks of one length, and codecs that pack a fixed
number of values in each block. A block codec that is exact on single blocks
is exact on sequences of blocks.
-/

namespace ParallaX.Codec

open List

variable {α β : Type*} (list : List α)

def slice (start len : ℕ) : List α := (list.drop start).take len

theorem length_slice {list : List α} {start len : ℕ} (inside : start + len ≤ list.length) :
    (slice list start len).length = len := by
  unfold slice
  rw [length_take, length_drop]
  omega

theorem getD_slice (start : ℕ) {len j : ℕ} (inside : j < len) (default : α) :
    (slice list start len).getD j default = list.getD (start + j) default := by
  unfold slice
  rw [getD_eq_getElem?_getD, getD_eq_getElem?_getD,
    List.getElem?_take_of_lt inside, List.getElem?_drop]

theorem slice_append_left {list rest : List α} {start len : ℕ}
    (inside : start + len ≤ list.length) :
    slice (list ++ rest) start len = slice list start len := by
  unfold slice
  rw [drop_append_of_le_length (by omega), take_append_of_le_length (by rw [length_drop]; omega)]

theorem slice_append_right {list rest : List α} {start len : ℕ} (after : list.length ≤ start) :
    slice (list ++ rest) start len = slice rest (start - list.length) len := by
  unfold slice
  rw [drop_append, drop_eq_nil_of_le after, nil_append]

theorem slice_append_drop (start len : ℕ) :
    slice list start len ++ list.drop (start + len) = list.drop start := by
  rw [← drop_drop]
  exact take_append_drop len (list.drop start)

/-! ## Equal blocks -/

section EqualBlocks

variable {len count : ℕ} {block : ℕ → List α}

def concat (count : ℕ) (block : ℕ → List α) : List α := (List.range count).flatMap block

theorem concat_succ (count : ℕ) (block : ℕ → List α) :
    concat (count + 1) block = concat count block ++ block count := by
  unfold concat
  rw [range_succ, flatMap_append, flatMap_singleton]

theorem concat_congr {other : ℕ → List α} (same : ∀ i < count, block i = other i) :
    concat count block = concat count other :=
  flatMap_congr fun i member => same i (mem_range.mp member)

theorem length_concat (lengths : ∀ i < count, (block i).length = len) :
    (concat count block).length = len * count := by
  induction count with
  | zero => rfl
  | succ count ih =>
    rw [concat_succ, length_append, lengths count (by omega),
      ih fun i before => lengths i (by omega), Nat.mul_succ]

theorem slice_concat (lengths : ∀ i < count, (block i).length = len) {i : ℕ}
    (inside : i < count) : slice (concat count block) (len * i) len = block i := by
  induction count with
  | zero => omega
  | succ count ih =>
    have before i (before : i < count) : (block i).length = len := lengths i (by omega)
    have total := length_concat before
    rw [concat_succ]
    by_cases last : i = count
    · subst last
      rw [slice_append_right (by omega), total, Nat.sub_self]
      unfold slice
      rw [drop_zero, ← lengths i (by omega), take_length]
    · have earlier : i + 1 ≤ count := by omega
      have fits : len * i + len ≤ len * count := by exact Nat.mul_le_mul_left len earlier
      rw [slice_append_left (by omega)]
      exact ih before (by omega)

theorem concat_slice {list : List α} (length : list.length = len * count) :
    concat count (fun i => slice list (len * i) len) = list := by
  suffices partially : ∀ done ≤ count,
      concat done (fun i => slice list (len * i) len) = list.take (len * done) by
    rw [partially count le_rfl, ← length, take_length]
  intro done _
  induction done with
  | zero => rfl
  | succ _ ih =>
    rw [concat_succ, ih (by omega), Nat.mul_succ, take_add]
    rfl

end EqualBlocks

/-! ## Block codecs -/

structure BlockCodec (k m : ℕ) (α : Type*) where
  pack : (Fin k → α) → Fin m → UInt8
  unpack : (Fin m → UInt8) → Fin k → α

namespace BlockCodec

variable {k m : ℕ}

structure Exact (codec : BlockCodec k m α) (valid : α → Prop) : Prop where
  unpack_pack : ∀ values, (∀ i, valid (values i)) → codec.unpack (codec.pack values) = values
  pack_unpack : ∀ bytes, codec.pack (codec.unpack bytes) = bytes
  valid_unpack : ∀ bytes i, valid (codec.unpack bytes i)

def recode (codec : BlockCodec k m β) (enc : α → β) (dec : β → α) : BlockCodec k m α where
  pack values := codec.pack fun i => enc (values i)
  unpack bytes := fun i => dec (codec.unpack bytes i)

theorem Exact.recode {codec : BlockCodec k m β} {valid : β → Prop}
    (exact : codec.Exact valid) {enc : α → β} {dec : β → α} {plain : α → Prop}
    (encoded : ∀ value, plain value → valid (enc value) ∧ dec (enc value) = value)
    (decoded : ∀ value, valid value → plain (dec value) ∧ enc (dec value) = value) :
    (codec.recode enc dec).Exact plain where
  unpack_pack := by
    intro values allPlain
    funext i
    have inner := exact.unpack_pack (fun i => enc (values i))
      fun i => (encoded _ (allPlain i)).1
    exact (congrArg (fun word => dec (word i)) inner).trans (encoded _ (allPlain i)).2
  pack_unpack := by
    intro bytes
    have same : (fun i => enc (dec (codec.unpack bytes i))) = codec.unpack bytes :=
      funext fun i => (decoded _ (exact.valid_unpack bytes i)).2
    exact (congrArg codec.pack same).trans (exact.pack_unpack bytes)
  valid_unpack bytes i := (decoded _ (exact.valid_unpack bytes i)).1

section Sequences

variable [NeZero k] (codec : BlockCodec k m α) (blocks : ℕ)

def packBlock (values : ℕ → α) (i : ℕ) : List UInt8 :=
  List.ofFn (codec.pack fun j => values (k * i + j))

def packAll (values : ℕ → α) : List UInt8 := concat blocks (codec.packBlock values)

/-- The value at a position, from the block it is in. -/
def unpackAll (bytes : List UInt8) (p : ℕ) : α :=
  codec.unpack (fun j => bytes.getD (m * (p / k) + j) 0) (Fin.ofNat k p)

variable {codec blocks} {valid : α → Prop}

omit [NeZero k] in
theorem length_packAll (values : ℕ → α) : (codec.packAll blocks values).length = m * blocks :=
  length_concat fun _ _ => length_ofFn

omit [NeZero k] in
theorem getD_packAll (values : ℕ → α) {i : ℕ} (inside : i < blocks) (j : Fin m) :
    (codec.packAll blocks values).getD (m * i + j) 0 =
      codec.pack (fun r => values (k * i + r)) j := by
  have lengths i (_ : i < blocks) : (codec.packBlock values i).length = m := length_ofFn
  rw [← getD_slice _ _ j.isLt]
  unfold packAll
  rw [slice_concat lengths inside, packBlock, getD_eq_getElem?_getD, List.getElem?_ofFn,
    dif_pos j.isLt]
  rfl

theorem Exact.unpackAll_packAll (exact : codec.Exact valid) {values : ℕ → α}
    (allValid : ∀ p < k * blocks, valid (values p)) {p : ℕ} (inside : p < k * blocks) :
    codec.unpackAll (codec.packAll blocks values) p = values p := by
  have block := Nat.div_lt_of_lt_mul inside
  have starts : k * (p / k) + k ≤ k * blocks := by exact Nat.mul_le_mul_left k block
  have bytes : (fun j : Fin m =>
      (codec.packAll blocks values).getD (m * (p / k) + j) 0) =
        codec.pack fun r => values (k * (p / k) + r) :=
    funext fun j => getD_packAll values block j
  unfold unpackAll
  rw [bytes, exact.unpack_pack _ fun i => allValid _ (by omega)]
  dsimp only
  rw [Fin.val_ofNat, Nat.div_add_mod]

theorem Exact.packAll_unpackAll (exact : codec.Exact valid)
    {bytes : List UInt8} (length : bytes.length = m * blocks) :
    codec.packAll blocks (codec.unpackAll bytes) = bytes := by
  have block i (inside : i < blocks) :
      codec.packBlock (codec.unpackAll bytes) i = slice bytes (m * i) m := by
    have fits : m * i + m ≤ bytes.length := by
      rw [length, ← Nat.mul_succ]
      exact Nat.mul_le_mul_left m inside
    have values : (fun j : Fin k => codec.unpackAll bytes (k * i + j)) =
        codec.unpack fun j => bytes.getD (m * i + j) 0 := by
      funext j
      have quotient : (k * i + j) / k = i := by
        rw [Nat.mul_add_div (Nat.pos_of_neZero k), Nat.div_eq_of_lt j.isLt, Nat.add_zero]
      have remainder : Fin.ofNat k (k * i + j) = j := by
        apply Fin.ext
        rw [Fin.val_ofNat, Nat.mul_add_mod, Nat.mod_eq_of_lt j.isLt]
      unfold unpackAll
      rw [quotient, remainder]
    unfold packBlock
    rw [values, exact.pack_unpack]
    apply ext_getElem
    · rw [length_ofFn, length_slice fits]
    · intro j left right
      have inBlock : j < m := by rwa [length_ofFn] at left
      rw [List.getElem_ofFn, ← List.getD_eq_getElem _ 0 right, getD_slice _ _ inBlock]
  unfold packAll
  rw [concat_congr block, concat_slice length]

theorem Exact.valid_unpackAll (exact : codec.Exact valid) (bytes : List UInt8)
    (p : ℕ) : valid (codec.unpackAll bytes p) :=
  exact.valid_unpack _ _

end Sequences

end BlockCodec

/-- Windows of a word that do not overlap add up. -/
theorem or_shiftLeft {x y k : ℕ} (low : x < 2 ^ k) : x ||| (y <<< k) = x + y * 2 ^ k := by
  have sum := Nat.shiftLeft_add_eq_or_of_lt low y
  rw [Nat.or_comm, ← sum, Nat.shiftLeft_eq, Nat.add_comm]

theorem or_shiftLeft_mod {x y k w : ℕ} (low : x < 2 ^ k) (within : k ≤ w) :
    x ||| y <<< k % 2 ^ w = (x + y * 2 ^ k) % 2 ^ w := by
  have inWord : x < 2 ^ w := low.trans_le (Nat.pow_le_pow_right (by decide) within)
  rw [← or_shiftLeft low, Nat.or_mod_two_pow, Nat.mod_eq_of_lt inWord]

theorem mod_word_byte (x : ℕ) : x % 2 ^ 32 % 2 ^ 8 = x % 2 ^ 8 := by
  omega

theorem toNat_ofInt8 (x : Int) : ((UInt8.ofInt x).toNat : Int) = x % 2 ^ 8 := by
  unfold UInt8.ofInt
  rw [UInt8.toNat_ofNat']
  omega

theorem toNat_ofInt32 (x : Int) : ((UInt32.ofInt x).toNat : Int) = x % 2 ^ 32 := by
  unfold UInt32.ofInt
  rw [UInt32.toNat_ofNat']
  omega

end ParallaX.Codec
