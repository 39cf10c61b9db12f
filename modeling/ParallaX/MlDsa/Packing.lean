import ParallaX.Codec.Blocks
import ParallaX.MlDsa.Ntt

/-!
# ML-DSA-87: bit packing

The packers of single polynomials. Each stores a fixed number of bits for a
coefficient, so that a block of coefficients fills a whole number of bytes; the
unpackers accept every byte string.
-/

namespace ParallaX.MlDsa

open Codec

def SEEDBYTES : Nat := 32

def CRHBYTES : Nat := 64

def TRBYTES : Nat := 64

def RNDBYTES : Nat := 32

def CTILDEBYTES : Nat := 64

def POLYT1_PACKEDBYTES : Nat := 320

def POLYT0_PACKEDBYTES : Nat := 416

def POLYZ_PACKEDBYTES : Nat := 640

def POLYETA_PACKEDBYTES : Nat := 96

def packPoly {k m : Nat} (codec : BlockCodec k m Int) (a : Poly) : List UInt8 :=
  codec.packAll (N / k) fun p => a (Fin.ofNat N p)

def unpackPoly {k m : Nat} [NeZero k] (codec : BlockCodec k m Int) (bytes : List UInt8) : Poly :=
  fun p => codec.unpackAll bytes p

section PackPoly

variable {k m : Nat} [NeZero k] {codec : BlockCodec k m Int}
variable {valid : Int → Prop}

omit [NeZero k] in
theorem length_packPoly (a : Poly) : (packPoly codec a).length = m * (N / k) :=
  BlockCodec.length_packAll _

theorem unpackPoly_packPoly (exact : codec.Exact valid)
    (whole : k * (N / k) = N) {a : Poly} (allValid : ∀ i, valid (a i)) :
    unpackPoly codec (packPoly codec a) = a := by
  funext p
  have value := exact.unpackAll_packAll (fun p _ => allValid (Fin.ofNat N p))
    (show p.val < k * (N / k) by rw [whole]; exact p.isLt)
  exact value.trans (congrArg a (Fin.ofNat_val_eq_self p))

theorem packPoly_unpackPoly (exact : codec.Exact valid)
    (whole : k * (N / k) = N) {bytes : List UInt8} (length : bytes.length = m * (N / k)) :
    packPoly codec (unpackPoly codec bytes) = bytes := by
  have packed := exact.packAll_unpackAll length
  refine Eq.trans (concat_congr ?_) packed
  intro i block
  have values : (fun j : Fin k =>
      unpackPoly codec bytes (Fin.ofNat N (k * i + j))) =
        fun j : Fin k => codec.unpackAll bytes (k * i + j) := by
    funext j
    have fits : k * i + k ≤ k * (N / k) := by exact Nat.mul_le_mul_left k block
    have position : (Fin.ofNat N (k * i + j)).val = k * i + j := by
      rw [Fin.val_ofNat, Nat.mod_eq_of_lt (by omega)]
    exact congrArg (codec.unpackAll bytes) position
  exact congrArg (fun t => List.ofFn (codec.pack t)) values

theorem bijOn_packPoly (exact : codec.Exact valid) (whole : k * (N / k) = N) :
    Set.BijOn (packPoly codec) {a | ∀ i, valid (a i)}
        {bytes | bytes.length = m * (N / k)} ∧
      Set.InvOn (unpackPoly codec) (packPoly codec) {a | ∀ i, valid (a i)}
        {bytes | bytes.length = m * (N / k)} := by
  have inverse : Set.InvOn (unpackPoly codec) (packPoly codec)
      {a | ∀ i, valid (a i)} {bytes | bytes.length = m * (N / k)} :=
    ⟨fun _ allValid => unpackPoly_packPoly exact whole allValid,
      fun _ length => packPoly_unpackPoly exact whole length⟩
  refine ⟨inverse.bijOn ?_ ?_, inverse⟩
  · exact fun a _ => length_packPoly a
  · exact fun bytes _ i => exact.valid_unpackAll bytes i

end PackPoly

/-! ## Machine words -/

/-- Eight values of three bits in three bytes. -/
def etaWords : BlockCodec 8 3 UInt8 where
  pack t :=
    ![t 0 ||| (t 1 <<< 3) ||| (t 2 <<< 6),
      (t 2 >>> 2) ||| (t 3 <<< 1) ||| (t 4 <<< 4) ||| (t 5 <<< 7),
      (t 5 >>> 1) ||| (t 6 <<< 2) ||| (t 7 <<< 5)]
  unpack a :=
    ![a 0 &&& 7, (a 0 >>> 3) &&& 7, ((a 0 >>> 6) ||| (a 1 <<< 2)) &&& 7,
      (a 1 >>> 1) &&& 7, (a 1 >>> 4) &&& 7,
      ((a 1 >>> 7) ||| (a 2 <<< 1)) &&& 7, (a 2 >>> 2) &&& 7,
      (a 2 >>> 5) &&& 7]

/-- Four values of ten bits in five bytes. -/
def t1Words : BlockCodec 4 5 UInt32 where
  pack t :=
    ![(t 0).toUInt8, ((t 0 >>> 8) ||| (t 1 <<< 2)).toUInt8, ((t 1 >>> 6) ||| (t 2 <<< 4)).toUInt8,
      ((t 2 >>> 4) ||| (t 3 <<< 6)).toUInt8, (t 3 >>> 2).toUInt8]
  unpack a :=
    ![((a 0).toUInt32 ||| ((a 1).toUInt32 <<< 8)) &&& 0x3FF,
      ((a 1).toUInt32 >>> 2 ||| ((a 2).toUInt32 <<< 6)) &&& 0x3FF,
      ((a 2).toUInt32 >>> 4 ||| ((a 3).toUInt32 <<< 4)) &&& 0x3FF,
      ((a 3).toUInt32 >>> 6 ||| ((a 4).toUInt32 <<< 2)) &&& 0x3FF]

/-- Eight values of thirteen bits in thirteen bytes. -/
def t0Words : BlockCodec 8 13 UInt32 where
  pack t :=
    ![(t 0).toUInt8, (t 0 >>> 8).toUInt8 ||| (t 1 <<< 5).toUInt8,
      (t 1 >>> 3).toUInt8, (t 1 >>> 11).toUInt8 ||| (t 2 <<< 2).toUInt8,
      (t 2 >>> 6).toUInt8 ||| (t 3 <<< 7).toUInt8, (t 3 >>> 1).toUInt8,
      (t 3 >>> 9).toUInt8 ||| (t 4 <<< 4).toUInt8, (t 4 >>> 4).toUInt8,
      (t 4 >>> 12).toUInt8 ||| (t 5 <<< 1).toUInt8,
      (t 5 >>> 7).toUInt8 ||| (t 6 <<< 6).toUInt8, (t 6 >>> 2).toUInt8,
      (t 6 >>> 10).toUInt8 ||| (t 7 <<< 3).toUInt8, (t 7 >>> 5).toUInt8]
  unpack a :=
    ![((a 0).toUInt32 ||| ((a 1).toUInt32 <<< 8)) &&& 0x1FFF,
      ((a 1).toUInt32 >>> 5 ||| ((a 2).toUInt32 <<< 3) ||| ((a 3).toUInt32 <<< 11)) &&& 0x1FFF,
      ((a 3).toUInt32 >>> 2 ||| ((a 4).toUInt32 <<< 6)) &&& 0x1FFF,
      ((a 4).toUInt32 >>> 7 ||| ((a 5).toUInt32 <<< 1) ||| ((a 6).toUInt32 <<< 9)) &&& 0x1FFF,
      ((a 6).toUInt32 >>> 4 ||| ((a 7).toUInt32 <<< 4) ||| ((a 8).toUInt32 <<< 12)) &&& 0x1FFF,
      ((a 8).toUInt32 >>> 1 ||| ((a 9).toUInt32 <<< 7)) &&& 0x1FFF,
      ((a 9).toUInt32 >>> 6 ||| ((a 10).toUInt32 <<< 2) ||| ((a 11).toUInt32 <<< 10)) &&& 0x1FFF,
      ((a 11).toUInt32 >>> 3 ||| ((a 12).toUInt32 <<< 5)) &&& 0x1FFF]

/-- Two values of twenty bits in five bytes. -/
def zWords : BlockCodec 2 5 UInt32 where
  pack t :=
    ![(t 0).toUInt8, (t 0 >>> 8).toUInt8,
      (t 0 >>> 16).toUInt8 ||| (t 1 <<< 4).toUInt8, (t 1 >>> 4).toUInt8,
      (t 1 >>> 12).toUInt8]
  unpack a :=
    ![((a 0).toUInt32 ||| ((a 1).toUInt32 <<< 8) |||
        ((a 2).toUInt32 <<< 16)) &&& 0xFFFFF,
      (a 2).toUInt32 >>> 4 ||| ((a 3).toUInt32 <<< 4) ||| ((a 4).toUInt32 <<< 12)]

variable (x : Nat)

private theorem and_three_bits : x &&& 7 = x % 2 ^ 3 := Nat.and_two_pow_sub_one_eq_mod x 3

private theorem and_ten_bits : x &&& 1023 = x % 2 ^ 10 := Nat.and_two_pow_sub_one_eq_mod x 10

private theorem and_thirteen_bits : x &&& 8191 = x % 2 ^ 13 := Nat.and_two_pow_sub_one_eq_mod x 13

private theorem and_twenty_bits : x &&& 1048575 = x % 2 ^ 20 := Nat.and_two_pow_sub_one_eq_mod x 20

/-- Exactness of a codec of machine words, on the numbers that the words and
the bytes stand for. -/
theorem exact_of_toNat {W : Type} {toNat : W → Nat} {k m bound : Nat}
    {codec : BlockCodec k m W} (injective : Function.Injective toNat)
    (unpacked : ∀ t, (∀ i, toNat (t i) < bound) →
      ∀ i, toNat (codec.unpack (codec.pack t) i) = toNat (t i))
    (packed : ∀ a, (∀ i, (a i).toNat < 2 ^ 8) →
      (∀ i, (codec.pack (codec.unpack a) i).toNat = (a i).toNat) ∧
      ∀ i, toNat (codec.unpack a i) < bound) : codec.Exact fun t => toNat t < bound where
  unpack_pack t small := funext fun i => injective (unpacked t small i)
  pack_unpack a := funext fun i =>
    UInt8.toNat_inj.mp ((packed a fun i => (a i).toNat_lt).1 i)
  valid_unpack a := (packed a fun i => (a i).toNat_lt).2

/-- Each codec keeps the words of its width. Written out on numbers, the shifts
and masks are divisions and remainders by powers of two. -/
theorem exact_words :
    (etaWords.Exact fun t => t.toNat < 2 ^ 3) ∧ (t1Words.Exact fun t => t.toNat < 2 ^ 10) ∧
      zWords.Exact fun t => t.toNat < 2 ^ 20 := by
  refine ⟨exact_of_toNat (fun _ _ => UInt8.toNat_inj.mp) ?_ ?_,
    exact_of_toNat (fun _ _ => UInt32.toNat_inj.mp) ?_ ?_,
    exact_of_toNat (fun _ _ => UInt32.toNat_inj.mp) ?_ ?_⟩
  all_goals
    intro _ small
    simp only [Fin.forall_fin_succ, Fin.reduceSucc, IsEmpty.forall_iff, and_true] at small ⊢
    simp only [etaWords, t1Words, zWords, Matrix.cons_val, UInt8.toNat_or, UInt8.toNat_and,
      UInt8.toNat_shiftLeft, UInt8.toNat_shiftRight, UInt32.toNat_or, UInt32.toNat_and,
      UInt32.toNat_shiftLeft, UInt32.toNat_shiftRight, UInt32.toNat_toUInt8,
      UInt8.toNat_toUInt32, UInt8.reduceToNat, UInt32.reduceToNat, Nat.reduceMod]
    simp (disch := omega) only [or_shiftLeft_mod, mod_word_byte, and_three_bits, and_ten_bits,
      and_twenty_bits, Nat.shiftRight_eq_div_pow]
    and_intros <;> omega

theorem exact_t0Words : t0Words.Exact fun t => t.toNat < 2 ^ 13 := by
  apply exact_of_toNat fun _ _ => UInt32.toNat_inj.mp
  all_goals
    intro _ small
    simp only [Fin.forall_fin_succ, Fin.reduceSucc, IsEmpty.forall_iff, and_true] at small ⊢
    simp only [t0Words, Matrix.cons_val, UInt8.toNat_or, UInt32.toNat_or,
      UInt32.toNat_and, UInt32.toNat_shiftLeft, UInt32.toNat_shiftRight,
      UInt32.toNat_toUInt8, UInt8.toNat_toUInt32, UInt32.reduceToNat,
      Nat.reduceMod]
    simp (disch := omega) only [or_shiftLeft_mod, mod_word_byte,
      and_thirteen_bits, Nat.shiftRight_eq_div_pow]
    and_intros <;> omega

/-! ## Coefficients -/

def HALF : Int := 2 ^ (D - 1)

def etaCodec : BlockCodec 8 3 Int :=
  etaWords.recode (fun c => UInt8.ofInt (ETA - c)) fun t => ETA - t.toNat

/-- A byte keeps no bit of a signed word above those that a shift of an
unsigned word leaves there. -/
def t1Codec : BlockCodec 4 5 Int := t1Words.recode (fun c => UInt32.ofInt c) fun t => t.toNat

def t0Codec : BlockCodec 8 13 Int :=
  t0Words.recode (fun c => UInt32.ofInt (HALF - c)) fun t => HALF - t.toNat

def zCodec : BlockCodec 2 5 Int :=
  zWords.recode (fun c => UInt32.ofInt (GAMMA1 - c)) fun t => GAMMA1 - t.toNat

def polyetaPack (a : Poly) : List UInt8 := packPoly etaCodec a

variable (bytes : List UInt8)

def polyetaUnpack : Poly := unpackPoly etaCodec bytes

def polyt1Pack (a : Poly) : List UInt8 := packPoly t1Codec a

def polyt1Unpack : Poly := unpackPoly t1Codec bytes

def polyt0Pack (a : Poly) : List UInt8 := packPoly t0Codec a

def polyt0Unpack : Poly := unpackPoly t0Codec bytes

def polyzPack (a : Poly) : List UInt8 := packPoly zCodec a

def polyzUnpack : Poly := unpackPoly zCodec bytes

def polyw1Pack (a : Poly) : List UInt8 :=
  (List.range (N / 2)).map fun i =>
    (UInt32.ofInt (a (Fin.ofNat N (2 * i))) |||
      (UInt32.ofInt (a (Fin.ofNat N (2 * i + 1))) <<< 4)).toUInt8

/-- What three bits can hold, which is more than `[-ETA, ETA]`. -/
def EtaRange (c : Int) : Prop := ETA - 2 ^ 3 < c ∧ c ≤ ETA

def T1Range (c : Int) : Prop := 0 ≤ c ∧ c < 2 ^ 10

def T0Range (c : Int) : Prop := -2 ^ (D - 1) < c ∧ c ≤ 2 ^ (D - 1)

def ZRange (c : Int) : Prop := -(GAMMA1 - 1) ≤ c ∧ c ≤ GAMMA1

theorem exact_etaCodec : etaCodec.Exact EtaRange := by
  apply exact_words.1.recode
  · intro c range
    have word := toNat_ofInt8 (ETA - c)
    obtain ⟨_, _⟩ := range
    refine ⟨?_, ?_⟩ <;> omega
  · intro t _
    have word := toNat_ofInt8 (ETA - (ETA - t.toNat))
    refine ⟨⟨?_, ?_⟩, ?_⟩
    · omega
    · omega
    · rw [← UInt8.toNat_inj]
      omega

theorem exact_t1Codec : t1Codec.Exact T1Range := by
  apply exact_words.2.1.recode
  · intro c range
    have word := toNat_ofInt32 c
    obtain ⟨_, _⟩ := range
    refine ⟨?_, ?_⟩ <;> omega
  · intro t _
    have word := toNat_ofInt32 t.toNat
    refine ⟨⟨?_, ?_⟩, ?_⟩
    · omega
    · omega
    · rw [← UInt32.toNat_inj]
      omega

theorem exact_offset {k m w : Nat} {words : BlockCodec k m UInt32}
    (exact : words.Exact fun t => t.toNat < 2 ^ w) (fits : w < 32) (bound : Int) :
    (words.recode (fun c => UInt32.ofInt (bound - c)) fun t => bound - t.toNat).Exact
      fun c => bound - 2 ^ w < c ∧ c ≤ bound := by
  have power : 2 ^ w < 2 ^ 32 := Nat.pow_lt_pow_right (by decide) fits
  have casted : ((2 ^ w : Nat) : Int) = 2 ^ w := by push_cast; rfl
  apply exact.recode
  · intro c _
    have word := toNat_ofInt32 (bound - c)
    refine ⟨?_, ?_⟩ <;> omega
  · intro t _
    have word := toNat_ofInt32 (bound - (bound - t.toNat))
    refine ⟨⟨?_, ?_⟩, ?_⟩
    · omega
    · omega
    · rw [← UInt32.toNat_inj]
      omega

theorem exact_t0Codec : t0Codec.Exact T0Range := exact_offset exact_t0Words (by decide) HALF

theorem exact_zCodec : zCodec.Exact ZRange := by
  exact exact_offset exact_words.2.2 (by decide) GAMMA1

variable (a : Poly)

theorem length_polyetaPack : (polyetaPack a).length = POLYETA_PACKEDBYTES := length_packPoly a

theorem length_polyt1Pack : (polyt1Pack a).length = POLYT1_PACKEDBYTES := length_packPoly a

theorem length_polyt0Pack : (polyt0Pack a).length = POLYT0_PACKEDBYTES := length_packPoly a

theorem length_polyzPack : (polyzPack a).length = POLYZ_PACKEDBYTES := length_packPoly a

variable {a}

theorem polyetaUnpack_polyetaPack (range : ∀ i, -ETA ≤ a i ∧ a i ≤ ETA) :
    polyetaUnpack (polyetaPack a) = a := by
  have bound : ETA = 2 := rfl
  apply unpackPoly_packPoly exact_etaCodec (by decide)
  intro i
  exact ⟨by have := range i; omega, (range i).2⟩

theorem polyt1Unpack_polyt1Pack (range : ∀ i, T1Range (a i)) : polyt1Unpack (polyt1Pack a) = a :=
  unpackPoly_packPoly exact_t1Codec (by decide) range

theorem polyt0Unpack_polyt0Pack (range : ∀ i, T0Range (a i)) : polyt0Unpack (polyt0Pack a) = a :=
  unpackPoly_packPoly exact_t0Codec (by decide) range

theorem polyzUnpack_polyzPack (range : ∀ i, ZRange (a i)) : polyzUnpack (polyzPack a) = a :=
  unpackPoly_packPoly exact_zCodec (by decide) range

theorem polyzPack_polyzUnpack {bytes : List UInt8} (length : bytes.length = POLYZ_PACKEDBYTES) :
    polyzPack (polyzUnpack bytes) = bytes :=
  packPoly_unpackPoly exact_zCodec (by decide) length

end ParallaX.MlDsa
