import ParallaX.MlDsa.Sampling

/-!
# ML-DSA-87: key generation, signing and verification

The scheme assembled from the lower layers. What a signer returns under a
generated key is accepted: the verifier's vector agrees in the ring with the
signer's up to the parts that the hints correct.
-/

namespace ParallaX.MlDsa

open Codec Transform PairStep Option

/-- `A * v` outside the transform domain. -/
def matrixProduct (mat : Fin K → Polyvecl) (v : Polyvecl) : Polyveck := fun i =>
  invnttTomont (matrixPointwiseMontgomery mat (fun j => ntt (v j)) i).reduce

def keyVector (mat : Fin K → Polyvecl) (s1 : Polyvecl) (s2 : Polyveck) :
    Polyveck := fun i => (Poly.add (matrixProduct mat s1 i) (s2 i)).caddq

/-- The fields a key pair is packed from. -/
structure KeyParts where
  rho : List UInt8
  key : List UInt8
  s1 : Polyvecl
  s2 : Polyveck
  t1 : Polyveck
  t0 : Polyveck

variable (shake : Shake) (fuel : Nat)

def expandKey (xi : List UInt8) : Option KeyParts := do
  let seedbuf := shake.hash256 (xi ++ [UInt8.ofNat K, UInt8.ofNat L]) (2 * SEEDBYTES + CRHBYTES)
  let rho := slice seedbuf 0 SEEDBYTES
  let rhoprime := slice seedbuf SEEDBYTES CRHBYTES
  let key := slice seedbuf (SEEDBYTES + CRHBYTES) SEEDBYTES
  let mat ← matrixExpand shake fuel rho
  let s1 ← uniformEtaVec shake fuel rhoprime 0 L
  let s2 ← uniformEtaVec shake fuel rhoprime L K
  let t := keyVector mat s1 s2
  some
    { rho := rho
      key := key
      s1 := s1
      s2 := s2
      t1 i := (t i).high power2round
      t0 i := (t i).low power2round }

def keygenInternal (xi : List UInt8) : Option (List UInt8 × List UInt8) :=
  (expandKey shake fuel xi).map fun parts =>
    let pk := packPk parts.rho parts.t1
    let tr := shake.hash256 pk TRBYTES
    let sk : SecretKey :=
      { rho := parts.rho
        key := parts.key
        tr := tr
        s1 := parts.s1
        s2 := parts.s2
        t0 := parts.t0 }
    (pk, packSk sk)

/-! ## Signing -/

inductive SignatureCtxError
  | contextTooLong
  deriving Repr, DecidableEq

/-- The representative of the message: `tr || 0 || ctxlen || ctx || m`. -/
def messageHash (tr m ctx : List UInt8) : List UInt8 :=
  shake.hash256 (tr ++ ([0, UInt8.ofNat ctx.length] ++ (ctx ++ m))) CRHBYTES

def challengeSeed (mu : List UInt8) (w1 : Polyveck) : List UInt8 :=
  shake.hash256 (mu ++ packVec polyw1Pack w1) CTILDEBYTES

def challengeProduct (cp a : Poly) : Poly := invnttTomont (pointwiseMontgomery cp a)

def hintBits (h : Polyveck) : Nat := ((List.range K).map fun i => (h (Fin.ofNat K i)).bits).sum

/-- What a round of the signing loop works on: the vectors are transformed. -/
structure SigningKey where
  mat : Fin K → Polyvecl
  s1 : Polyvecl
  s2 : Polyveck
  t0 : Polyveck
  mu : List UInt8
  rhoprime : List UInt8

section Round

variable (sk : SigningKey) (y : Polyvecl) (c : Poly)

def commitment : Polyveck := fun i => (matrixProduct sk.mat y i).caddq

def commitmentHigh : Polyveck := fun i => (commitment sk y i).high decompose

def response : Polyvecl := fun i =>
  ((challengeProduct (ntt c) (sk.s1 i)).add (y i)).reduce

def lowPart : Polyveck := fun i =>
  (((commitment sk y i).low decompose).sub (challengeProduct (ntt c) (sk.s2 i))).reduce

def hintPart : Polyveck := fun i => (challengeProduct (ntt c) (sk.t0 i)).reduce

def hints : Polyveck := fun i =>
  Poly.makeHint ((lowPart sk y c i).add (hintPart sk c i)) (commitmentHigh sk y i)

/-- A round is rejected if `z` or the low part reveal the secret, or if the
hints cannot be encoded. -/
def rejects : Bool :=
  chknormVec (response sk y c) GAMMA1_MINUS_BETA || chknormVec (lowPart sk y c) GAMMA2_MINUS_BETA ||
    chknormVec (hintPart sk c) GAMMA2 || decide (OMEGA < hintBits (hints sk y c))

end Round

/-- One round of the loop. `none` is a sampler without fuel, `some none` a
rejection. -/
def signRound (sk : SigningKey) (nonce : Nat) : Option (Option (List UInt8)) :=
  let y := uniformGamma1Vec shake sk.rhoprime nonce
  let ctilde := challengeSeed shake sk.mu (commitmentHigh sk y)
  (polyChallenge shake fuel ctilde).map fun c =>
    if rejects sk y c then none
    else some (packSig ctilde (response sk y c) (hints sk y c))

/-- The loop, with a bound on its rounds. The nonce is 16-bit and wraps. -/
def signLoop (shake : Shake) (fuel : Nat) (sk : SigningKey) :
    Nat → Nat → Option (List UInt8)
  | 0, _ => none
  | rounds + 1, nonce =>
    match signRound shake fuel sk nonce with
    | none => none
    | some (some sig) => some sig
    | some none => signLoop shake fuel sk rounds ((nonce + 1) % 2 ^ 16)

def signatureCtx (sk m ctx rnd : List UInt8) : Option (Except SignatureCtxError (List UInt8)) :=
  if 255 < ctx.length then some (.error .contextTooLong)
  else
    let sk := unpackSk sk
    let mu := messageHash shake sk.tr m ctx
    let rhoprime := shake.hash256 (sk.key ++ (rnd ++ mu)) CRHBYTES
    (matrixExpand shake fuel sk.rho).bind fun mat =>
      let signing : SigningKey :=
        { mat := mat
          s1 i := ntt (sk.s1 i)
          s2 i := ntt (sk.s2 i)
          t0 i := ntt (sk.t0 i)
          mu := mu
          rhoprime := rhoprime }
      (signLoop shake fuel signing fuel 0).map .ok

/-- The verifier's commitment: `A * z - c * 2 ^ D * t1`, corrected by hints. -/
def recoverW1 (mat : Fin K → Polyvecl) (c : Poly) (z : Polyvecl)
    (t1 h : Polyveck) : Polyveck := fun i =>
  let product := pointwiseMontgomery (ntt c) (ntt (t1 i).shiftl)
  let w := (matrixPointwiseMontgomery mat (fun j => ntt (z j)) i).sub product
  Poly.useHint (invnttTomont w.reduce).caddq (h i)

def verifyCtx (pk sig m ctx : List UInt8) : Option (Except Unit Unit) :=
  if 255 < ctx.length then some (.error ())
  else
    let key := unpackPk pk
    match unpackSig sig with
    | none => some (.error ())
    | some (c, z, h) =>
      if chknormVec z GAMMA1_MINUS_BETA then some (.error ())
      else
        let mu := messageHash shake (shake.hash256 pk TRBYTES) m ctx
        (polyChallenge shake fuel c).bind fun cp =>
          (matrixExpand shake fuel key.1).map fun mat =>
            if c = challengeSeed shake mu (recoverW1 mat cp z key.2 h) then
              .ok ()
            else .error ()

/-! ## Keys -/

theorem bounded_of_small {a : Poly} (small : Small a) : Bounded 3 a := by
  have bound : ETA = 2 := rfl
  exact fun i => ⟨by have := (small i).1; omega, by have := (small i).2; omega⟩

structure KeyParts.Sound (parts : KeyParts) (mat : Fin K → Polyvecl) : Prop where
  rhoLength : parts.rho.length = SEEDBYTES
  keyLength : parts.key.length = SEEDBYTES
  matrix : ∀ i j, Bounded Q (mat i j)
  s1 : ∀ i, Small (parts.s1 i)
  s2 : ∀ i, Small (parts.s2 i)
  t1 : ∀ i j, T1Range (parts.t1 i j)
  t0 : ∀ i j, T0Range (parts.t0 i j)
  equation : ∀ i, ∀ k < N, hat (parts.t1 i).shiftl k + hat (parts.t0 i) k =
      ∑ j, reading (mat i j) k * hat (parts.s1 j) k + hat (parts.s2 i) k

theorem bounded_shiftl {t1 : Poly} (range : ∀ j, T1Range (t1 j)) :
    Bounded Q t1.shiftl ∧ ∀ j, t1.shiftl j = t1 j * 2 ^ D := by
  have modulus : Q = 8380417 := rfl
  have bits : D = 13 := rfl
  have exact (j : Fin N) : t1.shiftl j = t1 j * 2 ^ D := by
    obtain ⟨lower, upper⟩ := range j
    exact wrap32_of_range (by rw [bits]; omega) (by rw [bits]; omega)
  refine ⟨fun j => ?_, exact⟩
  obtain ⟨_, _⟩ := range j
  rw [exact, bits]
  exact ⟨by omega, by omega⟩

theorem power2round_key {a s2 t : Poly} (bounded : Bounded Q a)
    (small : Small s2) (isSum : t = (a.add s2).caddq) :
    (∀ j, T1Range (t.high power2round j)) ∧ (∀ j, T0Range (t.low power2round j)) ∧
      ∀ k, reading (t.high power2round).shiftl k +
          reading (t.low power2round) k = reading a k + reading s2 k := by
  have modulus : Q = 8380417 := rfl
  obtain ⟨boundedSum, sum⟩ := reading_add bounded (bounded_of_small small) (by decide)
  have range (j : Fin N) : -4095 ≤ t j ∧ t j ≤ 8384512 := by
    have value : t j = MlDsa.caddq (a.add s2 j) := by rw [isSum, Poly.caddq]
    rw [caddq_eq ((boundedSum j).mono (by decide))] at value
    obtain ⟨_, _⟩ := boundedSum j
    rw [value]
    split <;> omega
  have spec (j : Fin N) := power2round_spec (range j).1 (range j).2
  have t1Range (j : Fin N) : T1Range (t.high power2round j) := (spec j).2.1
  refine ⟨t1Range, fun j => (spec j).2.2, fun k => ?_⟩
  have whole : t (Fin.ofNat N k) =
      (t.high power2round).shiftl (Fin.ofNat N k) + t.low power2round (Fin.ofNat N k) := by
    rw [(bounded_shiftl t1Range).2]
    exact (spec _).1
  have casted := congrArg (Int.cast : Int → Zq) whole
  push_cast at casted
  rw [← sum]
  refine casted.symm.trans ?_
  rw [isSum]
  exact cast_caddq ((boundedSum _).mono (by decide))

theorem hat_matrixProduct {mat : Fin K → Polyvecl} {v : Polyvecl}
    (matrix : ∀ i j, Bounded Q (mat i j)) (bounded : ∀ j, Bounded Q (v j)) (i : Fin K) :
    Bounded Q (matrixProduct mat v i) ∧
      ∀ k < N, hat (matrixProduct mat v i) k = ∑ j, reading (mat i j) k * hat (v j) k :=
  hat_row (matrix i) bounded

variable {shake}

theorem expandKey_sound {fuel : Nat} {xi : List UInt8}
    {parts : KeyParts} (expanded : expandKey shake fuel xi = some parts) :
    ∃ mat, matrixExpand shake fuel parts.rho = some mat ∧ parts.Sound mat := by
  simp only [expandKey, bind_eq_bind, bind_eq_some_iff] at expanded
  obtain ⟨mat, matrix, s1, sampled1, s2, sampled2, fields⟩ := expanded
  cases fields
  have small1 (i : Fin L) := polyUniformEta_range (sequence_eq_some.mp sampled1 i)
  have small2 (i : Fin K) := polyUniformEta_range (sequence_eq_some.mp sampled2 i)
  have row (i : Fin K) := hat_matrixProduct (matrixExpand_range matrix)
    (fun j => (bounded_of_small (small1 j)).mono (by decide)) i
  have split (i : Fin K) := power2round_key (row i).1 (small2 i)
    (show keyVector mat s1 s2 i = _ from rfl)
  refine ⟨mat, matrix, ?_⟩
  constructor
  case rhoLength =>
    exact length_slice (by rw [Shake.hash256, length_read]; decide)
  case keyLength =>
    exact length_slice (by rw [Shake.hash256, length_read]; decide)
  case matrix =>
    exact matrixExpand_range matrix
  case s1 =>
    exact small1
  case s2 =>
    exact small2
  case t1 =>
    intro i
    exact (split i).1
  case t0 =>
    intro i
    dsimp only
    exact (split i).2.1
  case equation =>
    intro i k inside
    dsimp only
    rw [← (row i).2 k inside]
    rw [← hat_sum, ← hat_sum]
    exact forward_congr (fun k _ => (split i).2.2 k) le_rfl k inside

/-! ## The verifier's vector -/

section Agreement

variable {mat : Fin K → Polyvecl} {parts : KeyParts} (sound : parts.Sound mat)
variable {c : Poly} (boundedC : Bounded 2 c)
variable {y z : Polyvecl} (boundedY : ∀ j, Bounded Q (y j))
variable (boundedZ : ∀ j, Bounded Q (z j))
variable (response : ∀ j, ∀ k < N, reading (z j) k =
  reading (challengeProduct (ntt c) (ntt (parts.s1 j))) k + reading (y j) k)

theorem hat_challengeProduct {a : Poly} (boundedC : Bounded 2 c) (boundedA : Bounded Q a) :
    Bounded Q (challengeProduct (ntt c) (ntt a)) ∧
      ∀ k < N, hat (challengeProduct (ntt c) (ntt a)) k = hat c k * hat a k :=
  hat_product (boundedC.mono (by decide)) boundedA

theorem bounded_t0 {t0 : Poly} (range : ∀ j, T0Range (t0 j)) : Bounded Q t0 := by
  have modulus : Q = 8380417 := rfl
  have bits : (2 : Int) ^ (D - 1) = 4096 := by decide
  intro j
  obtain ⟨_, _⟩ := range j
  exact ⟨by omega, by omega⟩

/-- The verifier's `A * z - c * t1 * 2 ^ D`, before hints. -/
def approximation (mat : Fin K → Polyvecl) (c : Poly) (z : Polyvecl)
    (t1 : Polyveck) (i : Fin K) : Poly :=
  invnttTomont (Poly.sub (matrixPointwiseMontgomery mat (fun j => ntt (z j)) i)
    (pointwiseMontgomery (ntt c) (ntt (t1 i).shiftl))).reduce

include sound boundedC boundedY boundedZ response in
theorem approximation_eq (i : Fin K) :
    Bounded Q (approximation mat c z parts.t1 i) ∧
      ∀ k < N, reading (approximation mat c z parts.t1 i) k +
            reading (challengeProduct (ntt c) (ntt (parts.s2 i))) k =
          reading (matrixProduct mat y i) k +
            reading (challengeProduct (ntt c) (ntt (parts.t0 i))) k := by
  have boundedS1 (j : Fin L) : Bounded Q (parts.s1 j) :=
    (bounded_of_small (sound.s1 j)).mono (by decide)
  have boundedS2 : Bounded Q (parts.s2 i) := (bounded_of_small (sound.s2 i)).mono (by decide)
  obtain ⟨bounded, value⟩ := hat_row_sub_product (sound.matrix i) boundedZ
    (boundedC.mono (show 2 ≤ Q by decide)) (bounded_shiftl (sound.t1 i)).1
  refine ⟨bounded, fun k inside => ?_⟩
  apply reading_add_add _ inside
  intro k inside
  have products (j : Fin L) := hat_challengeProduct boundedC (boundedS1 j)
  have zs (j : Fin L) : hat (z j) k = hat c k * hat (parts.s1 j) k + hat (y j) k := by
    rw [← (products j).2 k inside]
    exact (forward_congr (response j) le_rfl k inside).trans (hat_sum ..)
  have key := sound.equation i k inside
  have signer := (hat_matrixProduct sound.matrix boundedY i).2 k inside
  have cs2 := (hat_challengeProduct boundedC boundedS2).2 k inside
  have ct0 := (hat_challengeProduct boundedC (bounded_t0 (sound.t0 i))).2 k inside
  have verifier : hat (approximation mat c z parts.t1 i) k = _ := value k inside
  have expanded : ∑ j, reading (mat i j) k * hat (z j) k =
      hat c k * ∑ j, reading (mat i j) k * hat (parts.s1 j) k +
        ∑ j, reading (mat i j) k * hat (y j) k := by
    rw [Finset.mul_sum, ← Finset.sum_add_distrib]
    apply Finset.sum_congr rfl
    intro j _
    rw [zs j]
    ring
  rw [verifier, cs2, signer, ct0, expanded]
  linear_combination -(hat c k) * key

end Agreement

theorem cast_decompose {a : Int} (standard : 0 ≤ a ∧ a < Q) :
    (a : Zq) = (((decompose a).1 * (2 * GAMMA2) + (decompose a).2 : Int) : Zq) ∧
      Below (2 * GAMMA2) (decompose a).2 ∧
      0 ≤ (decompose a).1 ∧ (decompose a).1 ≤ 15 := by
  rcases decomposed_decompose standard.1 standard.2 with
    ⟨sum, _, _, nonneg, most⟩ | ⟨sum, zero, _, _⟩
  · exact ⟨congrArg Int.cast sum, ⟨by omega, by omega⟩, nonneg, most⟩
  · refine ⟨?_, ⟨by omega, by omega⟩, by omega, by omega⟩
    have casted := congrArg (Int.cast : Int → Zq) sum
    push_cast at casted
    rw [cast_Q, zero_add] at casted
    rw [zero, zero_mul, zero_add]
    exact casted

theorem weight_eq_hintBits {h : Polyveck} (binary : ∀ i, Binary (h i)) : weight h = hintBits h := by
  have poly (p : Poly) (isBinary : Binary p) : (positions p).length = p.bits := by
    unfold positions Poly.bits
    induction List.finRange N with
    | nil => rfl
    | cons j _ ih =>
      rw [List.map_cons, List.sum_cons, ← ih]
      rcases isBinary j with isZero | isOne
      · simp [isZero]
      · simp [isOne, Nat.add_comm]
  unfold weight emitted hintBits concat
  rw [List.length_flatMap]
  exact congrArg List.sum (List.map_congr_left fun i _ => poly _ (binary _))

/-! ## An accepted round -/

/-- The signer works on the transformed vectors of the key. -/
structure SigningKey.Of (sk : SigningKey) (parts : KeyParts) (mat : Fin K → Polyvecl) : Prop where
  mat : sk.mat = mat
  s1 : sk.s1 = fun i => ntt (parts.s1 i)
  s2 : sk.s2 = fun i => ntt (parts.s2 i)
  t0 : sk.t0 = fun i => ntt (parts.t0 i)

theorem reading_fin (a : Poly) (p : Fin N) : reading a p = (a p : Zq) := by
  rw [reading, Fin.ofNat_eq_cast, Fin.cast_val_eq_self]

theorem bounded_mask {a : Poly} (range : ∀ i, ZRange (a i)) : Bounded (2 ^ 20) a := by
  have bound : GAMMA1 = 2 ^ 19 := rfl
  intro i
  obtain ⟨_, _⟩ := range i
  exact ⟨by omega, by omega⟩

/-- A round of the signer that is not rejected. -/
structure Accepted (sk : SigningKey) (parts : KeyParts) (mat : Fin K → Polyvecl) (y : Polyvecl)
    (c : Poly) : Prop where
  sound : parts.Sound mat
  ofKey : sk.Of parts mat
  challenge : Bounded 2 c
  mask : ∀ j i, ZRange (y j i)
  passes : rejects sk y c = false

namespace Accepted

variable {sk : SigningKey} {parts : KeyParts} {mat : Fin K → Polyvecl} {y : Polyvecl} {c : Poly}
  (round : Accepted sk parts mat y c)

include round

theorem checks :
    chknormVec (response sk y c) GAMMA1_MINUS_BETA = false ∧
      chknormVec (lowPart sk y c) GAMMA2_MINUS_BETA = false ∧
      chknormVec (hintPart sk c) GAMMA2 = false ∧
      hintBits (hints sk y c) ≤ OMEGA := by
  have passes := round.passes
  simp only [rejects, Bool.or_eq_false_iff, decide_eq_false_iff_not] at passes
  obtain ⟨⟨⟨first, second⟩, third⟩, _⟩ := passes
  exact ⟨first, second, third, by omega⟩

theorem reading_response (j : Fin L) :
    Bounded Q (response sk y c j) ∧
      ∀ k, reading (response sk y c j) k =
        reading (challengeProduct (ntt c) (ntt (parts.s1 j))) k + reading (y j) k := by
  have product := (hat_challengeProduct round.challenge
    ((bounded_of_small (round.sound.s1 j)).mono (show 3 ≤ Q by decide))).1
  obtain ⟨bounded, sum⟩ := reading_add product (bounded_mask (round.mask j)) (by decide)
  obtain ⟨reduced, same⟩ := reading_reduce (bounded.mono (by decide))
  simp only [response, round.ofKey.s1]
  exact ⟨reduced, fun k => (same k).trans (sum k)⟩

theorem standard_commitment (i : Fin K) :
    (∀ p, 0 ≤ commitment sk y i p ∧ commitment sk y i p < Q) ∧
      ∀ k, reading (commitment sk y i) k = reading (matrixProduct mat y i) k := by
  have product := (hat_matrixProduct round.sound.matrix
    (fun j => (bounded_mask (round.mask j)).mono (show 2 ^ 20 ≤ Q by decide))
    i).1
  simp only [commitment, round.ofKey.mat]
  exact reading_caddq product

theorem reading_lowPart (i : Fin K) :
    Bounded Q (lowPart sk y c i) ∧
      ∀ k, reading (lowPart sk y c i) k =
        reading ((commitment sk y i).low decompose) k -
          reading (challengeProduct (ntt c) (ntt (parts.s2 i))) k := by
  have product := (hat_challengeProduct round.challenge
    ((bounded_of_small (round.sound.s2 i)).mono (show 3 ≤ Q by decide))).1
  have standard := (round.standard_commitment i).1
  have low : Bounded (2 * GAMMA2) ((commitment sk y i).low decompose) :=
    fun p => (cast_decompose (standard p)).2.1
  obtain ⟨bounded, difference⟩ := reading_sub low product (by decide)
  obtain ⟨reduced, same⟩ := reading_reduce (bounded.mono (by decide))
  simp only [lowPart, round.ofKey.s2]
  exact ⟨reduced, fun k => (same k).trans (difference k)⟩

theorem reading_hintPart (i : Fin K) :
    Bounded Q (hintPart sk c i) ∧
      ∀ k, reading (hintPart sk c i) k =
        reading (challengeProduct (ntt c) (ntt (parts.t0 i))) k := by
  have product := (hat_challengeProduct round.challenge (bounded_t0 (round.sound.t0 i))).1
  simp only [hintPart, round.ofKey.t0]
  exact reading_reduce (product.mono (by decide))

theorem reading_hintSum (i : Fin K) :
    Bounded (2 * GAMMA2) ((lowPart sk y c i).add (hintPart sk c i)) ∧
      ∀ k, reading ((lowPart sk y c i).add (hintPart sk c i)) k =
        reading (lowPart sk y c i) k + reading (hintPart sk c i) k := by
  obtain ⟨-, lowPasses, hintPasses, -⟩ := round.checks
  have low := bounded_of_chknormVec
    (fun i => (round.reading_lowPart i).1.mono (by decide)) lowPasses i
  have hint := bounded_of_chknormVec
    (fun i => (round.reading_hintPart i).1.mono (by decide))
    hintPasses i
  obtain ⟨bounded, sum⟩ := reading_add low hint (by decide)
  exact ⟨bounded.mono (by decide), sum⟩

theorem commitmentHigh_range (i : Fin K) (p : Fin N) :
    0 ≤ commitmentHigh sk y i p ∧ commitmentHigh sk y i p ≤ 15 :=
  (cast_decompose ((round.standard_commitment i).1 p)).2.2

theorem binary_hints (i : Fin K) : Binary (hints sk y c i) := by
  intro p
  have sum := (round.reading_hintSum i).1 p
  have high := round.commitmentHigh_range i p
  simp only [hints, Poly.makeHint]
  rw [makeHint_eq sum.1 sum.2 high.1 high.2]
  exact (ite_eq_or_eq ..).symm

theorem response_range (j : Fin L) (p : Fin N) : ZRange (response sk y c j p) := by
  have bound : GAMMA1_MINUS_BETA = 2 ^ 19 - 120 := by decide
  have gamma : GAMMA1 = 2 ^ 19 := rfl
  obtain ⟨_, _⟩ := bounded_of_chknormVec
    (fun j => (round.reading_response j).1.mono (by decide)) round.checks.1 j p
  exact ⟨by omega, by omega⟩

/-- The hints turn the verifier's vector into the signer's commitment. -/
theorem recoverW1_eq :
    recoverW1 mat c (response sk y c) parts.t1 (hints sk y c) = commitmentHigh sk y := by
  funext i p
  have boundedY (j : Fin L) : Bounded Q (y j) := (bounded_mask (round.mask j)).mono (by decide)
  have responses := round.reading_response
  obtain ⟨bounded, value⟩ := approximation_eq round.sound round.challenge boundedY
    (fun j => (responses j).1) (fun j k _ => (responses j).2 k) i
  obtain ⟨standard, same⟩ := reading_caddq bounded
  obtain ⟨signer, commits⟩ := round.standard_commitment i
  obtain ⟨sumBounded, sum⟩ := round.reading_hintSum i
  obtain ⟨highLower, highUpper⟩ := round.commitmentHigh_range i p
  have split := (cast_decompose (signer p)).1
  have low := (round.reading_lowPart i).2 p
  have hint := (round.reading_hintPart i).2 p
  have agrees := value p p.isLt
  have total := sum p
  rw [← same, ← commits, ← hint] at agrees
  rw [low] at total
  simp only [reading_fin] at agrees total
  push_cast at split
  have congruent :
      ((approximation mat c (response sk y c) parts.t1 i).caddq p : Zq) =
        ((commitmentHigh sk y i p * (2 * GAMMA2) +
          (lowPart sk y c i).add (hintPart sk c i) p : Int) : Zq) := by
    push_cast
    simp only [commitmentHigh, Poly.high]
    rw [total]
    simp only [Poly.low]
    linear_combination agrees + split
  simp only [recoverW1, Poly.useHint, hints, Poly.makeHint]
  exact useHint_makeHint (standard p) (sumBounded p).1 (sumBounded p).2
    highLower highUpper congruent

theorem unpackSig_accepted {ctilde : List UInt8} (length : ctilde.length = CTILDEBYTES) :
    unpackSig (packSig ctilde (response sk y c) (hints sk y c)) =
      some (ctilde, response sk y c, hints sk y c) := by
  have binary := round.binary_hints
  refine unpackSig_packSig length (round.response_range) binary ?_
  rw [weight_eq_hintBits binary]
  exact round.checks.2.2.2

end Accepted

/-! ## Signatures verify -/

theorem signLoop_accepts {fuel rounds nonce : Nat}
    {sk : SigningKey} {sig : List UInt8}
    (returned : signLoop shake fuel sk rounds nonce = some sig) :
    ∃ last, signRound shake fuel sk last = some (some sig) := by
  induction rounds generalizing nonce with
  | zero => cases returned
  | succ _ ih =>
    rw [signLoop] at returned
    split at returned
    · cases returned
    next found ok =>
      cases returned
      exact ⟨nonce, ok⟩
    · exact ih returned

theorem keygenInternal_unpacks {fuel : Nat}
    {xi pk sk : List UInt8} (generated : keygenInternal shake fuel xi = some (pk, sk)) :
    ∃ (parts : KeyParts) (mat : Fin K → Polyvecl), expandKey shake fuel xi = some parts ∧
      matrixExpand shake fuel parts.rho = some mat ∧ parts.Sound mat ∧
      unpackPk pk = (parts.rho, parts.t1) ∧
      unpackSk sk =
        { rho := parts.rho
          key := parts.key
          tr := shake.hash256 pk TRBYTES
          s1 := parts.s1
          s2 := parts.s2
          t0 := parts.t0 } := by
  obtain ⟨parts, expanded, packed⟩ := map_eq_some_iff.mp generated
  obtain ⟨mat, matrix, sound⟩ := expandKey_sound expanded
  cases packed
  refine ⟨parts, mat, expanded, matrix, sound, unpackPk_packPk sound.rhoLength sound.t1, ?_⟩
  apply unpackSk_packSk
  constructor
  case rho =>
    exact sound.rhoLength
  case key =>
    exact sound.keyLength
  case tr =>
    exact length_read ..
  case s1 =>
    exact sound.s1
  case s2 =>
    exact sound.s2
  case t0 =>
    exact sound.t0

theorem verifyCtx_of_signRound {mat : Fin K → Polyvecl}
    {parts : KeyParts} (sound : parts.Sound mat) {sk : SigningKey}
    (ofKey : sk.Of parts mat) {pk m ctx sig : List UInt8} {signFuel fuel nonce : Nat}
    (mu : sk.mu = messageHash shake (shake.hash256 pk TRBYTES) m ctx)
    (publicKey : unpackPk pk = (parts.rho, parts.t1))
    (matrix : matrixExpand shake fuel parts.rho = some mat)
    (short : ¬255 < ctx.length) (enough : signFuel ≤ fuel)
    (ok : signRound shake signFuel sk nonce = some (some sig)) :
    verifyCtx shake fuel pk sig m ctx = some (.ok ()) := by
  obtain ⟨c, sampled, outcome⟩ := map_eq_some_iff.mp ok
  split at outcome
  · cases outcome
  rename_i passes
  cases outcome
  have mask (j : Fin L) i : ZRange (uniformGamma1Vec shake sk.rhoprime nonce j i) :=
    exact_zCodec.valid_unpackAll _ _
  have round : Accepted sk parts mat _ c :=
    ⟨sound, ofKey, polyChallenge_range sampled, mask, eq_false_of_ne_true passes⟩
  have recovered := round.recoverW1_eq
  have unpacked := round.unpackSig_accepted
    (show (challengeSeed shake sk.mu (commitmentHigh sk
      (uniformGamma1Vec shake sk.rhoprime nonce))).length = CTILDEBYTES from
        length_read ..)
  have small := round.checks.1
  have challenge := settles_polyChallenge shake _ signFuel fuel c enough sampled
  generalize uniformGamma1Vec shake sk.rhoprime nonce = y at *
  rw [verifyCtx, if_neg short]
  simp [unpacked, publicKey, small, ← mu, challenge, matrix, recovered]

/-- A signature made with a generated key verifies under its public key. The
extendable-output functions are arbitrary; fuel stands for the termination of
the samplers, and any fuel that the signer got by with is enough for the
verifier. -/
theorem signatures_verify (shake : Shake) (keyFuel signFuel : Nat)
    (xi pk sk m ctx rnd sig : List UInt8)
    (generated : keygenInternal shake keyFuel xi = some (pk, sk))
    (signed : signatureCtx shake signFuel sk m ctx rnd = some (.ok sig)) :
    ∀ fuel, signFuel ≤ fuel → verifyCtx shake fuel pk sig m ctx = some (.ok ()) := by
  intro fuel enough
  obtain ⟨parts, keyMat, -, keyMatrix, sound, publicKey, secretKey⟩ :=
    keygenInternal_unpacks generated
  rw [signatureCtx] at signed
  split at signed
  · cases signed
  rename_i short
  rw [secretKey] at signed
  obtain ⟨mat, matrix, looped⟩ := bind_eq_some_iff.mp signed
  -- Both parties expand the same matrix.
  have sameMatrix : keyMat = mat := by
    have first := settles_matrixExpand shake parts.rho keyFuel
      (max keyFuel signFuel) keyMat (Nat.le_max_left _ _) keyMatrix
    have second := settles_matrixExpand shake parts.rho signFuel
      (max keyFuel signFuel) mat (Nat.le_max_right _ _) matrix
    exact Option.some.inj (first.symm.trans second)
  rw [sameMatrix] at sound
  obtain ⟨_, returned, isSig⟩ := map_eq_some_iff.mp looped
  cases isSig
  obtain ⟨_, accepted⟩ := signLoop_accepts returned
  have expanded := settles_matrixExpand shake _ signFuel fuel mat enough matrix
  refine verifyCtx_of_signRound sound ?_ rfl publicKey expanded short enough accepted
  constructor <;> dsimp only

/-! A signature under constant streams: the matrix and the secrets are zero, and
the first round is accepted. -/

section Constant

private def constantShake : Shake where
  shake128 _ _ := 0
  shake256 _ _ := 0x22

private theorem ntt_zero : ntt (fun _ => 0) = fun _ => 0 := by
  apply run_const
  intro _ member
  rw [nttSteps_eq] at member
  obtain ⟨_, -, inLayer⟩ := List.mem_flatMap.mp member
  obtain ⟨_, -, _, -, rfl⟩ := mem_layer.mp inLayer
  simp only [butterfly, forwardKernel, mul_zero]
  decide

private theorem invnttTomont_zero : invnttTomont (fun _ => 0) = fun _ => 0 := by
  have steps : run invnttSteps (fun _ => 0) = fun _ => 0 := by
    apply run_const
    intro _ member
    rw [invnttSteps_eq] at member
    obtain ⟨_, -, inLayer⟩ := List.mem_flatMap.mp member
    obtain ⟨_, -, _, -, rfl⟩ := mem_layer.mp inLayer
    have difference : wrap32 (0 - 0) = 0 := by decide
    simp only [butterfly, inverseKernel, difference, mul_zero]
    decide
  funext i
  simp only [invnttTomont, steps, mul_zero]
  decide

private theorem samples_constant :
    refillLoop (uniformRefill fun _ => 0) 1 (rejUniform N (read (fun _ => 0) 0 (5 * SHAKE128_RATE)))
        (read (fun _ => 0) 0 (5 * SHAKE128_RATE), 5 * SHAKE128_RATE) = some (List.replicate N 0) ∧
      refillLoop (etaRefill fun _ => 0x22) 1
        (rejEta N (read (fun _ => 0x22) 0 SHAKE256_RATE)) SHAKE256_RATE =
          some (List.replicate N 0) ∧
      ∀ i : Fin 2, zCodec.unpack (fun _ => 0x22) i = 384478 := by
  decide +kernel

variable (seed : List UInt8) (nonce : Nat)

private theorem polyUniform_constant :
    polyUniform constantShake 1 seed nonce = some fun _ => 0 := by
  simp only [polyUniform, constantShake]
  rw [samples_constant.1, map_some]
  exact congrArg some (funext fun i => by simp [ofCoeffs])

private theorem polyUniformEta_constant :
    polyUniformEta constantShake 1 seed nonce = some fun _ => 0 := by
  simp only [polyUniformEta, constantShake]
  rw [samples_constant.2.1, map_some]
  exact congrArg some (funext fun i => by simp [ofCoeffs])

private theorem polyUniformGamma1_constant :
    polyUniformGamma1 constantShake seed nonce = fun _ => 384478 := by
  funext p
  have block : (fun j : Fin 5 => (read (fun _ => 0x22) 0
      (5 * SHAKE256_RATE)).getD (5 * (p.val / 2) + j.val) 0) = fun _ => 0x22 := by
    funext j
    have covered : 5 * (p.val / 2) + j.val < 5 * SHAKE256_RATE := by
      have rate : SHAKE256_RATE = 136 := rfl
      have inside : p.val < 256 := p.isLt
      omega
    simp [read, List.getD_eq_getElem?_getD, covered]
  change zCodec.unpack (fun j => (read (fun _ => 0x22) 0
    (5 * SHAKE256_RATE)).getD (5 * (p.val / 2) + j.val) 0) _ = _
  rw [block]
  exact samples_constant.2.2 _

private theorem polyChallenge_constant : (polyChallenge constantShake 1 seed).isSome = true := by
  have sampled : (polyChallenge constantShake 1 []).isSome = true := by decide
  exact sampled

private theorem matrixProduct_constant (v : Polyvecl) :
    matrixProduct (fun _ _ _ => 0) v = fun _ _ => 0 := by
  have terms (b : Poly) : pointwiseMontgomery (fun _ => 0) b = fun _ => 0 := by
    funext i
    simp only [pointwiseMontgomery, zero_mul]
    decide
  have sum (v : Polyvecl) (count : Nat) : accumulate (fun _ _ => 0) v count = fun _ => 0 := by
    induction count with
    | zero => exact terms _
    | succ _ ih =>
      rw [accumulate_succ, ih, terms]
      rfl
  have reduced : Poly.reduce (fun _ => 0) = fun _ => 0 := rfl
  funext i
  rw [matrixProduct, matrixPointwiseMontgomery, pointwiseAccMontgomery, sum,
    reduced, invnttTomont_zero]

private theorem challengeProduct_constant (c : Poly) :
    challengeProduct c (fun _ => 0) = fun _ => 0 := by
  have term : pointwiseMontgomery c (fun _ => 0) = fun _ => 0 := by
    funext i
    simp only [pointwiseMontgomery, mul_zero]
    decide
  rw [challengeProduct, term, invnttTomont_zero]

private theorem matrixExpand_constant (rho : List UInt8) :
    matrixExpand constantShake 1 rho = some fun _ _ _ => 0 := by
  refine sequence_eq_some.mpr fun i => sequence_eq_some.mpr fun j => ?_
  exact polyUniform_constant _ _

private theorem uniformEtaVec_constant (dim : Nat) :
    uniformEtaVec constantShake 1 seed nonce dim = some fun _ _ => 0 :=
  sequence_eq_some.mpr fun _ => polyUniformEta_constant _ _

private theorem rejects_constant {sk : SigningKey} (c : Poly)
    (mat : sk.mat = fun _ _ _ => 0) (s1 : sk.s1 = fun _ _ => 0)
    (s2 : sk.s2 = fun _ _ => 0) (t0 : sk.t0 = fun _ _ => 0) :
    rejects sk (fun _ _ => 384478) c = false := by
  have commits : commitment sk (fun _ _ => 384478) = fun _ _ => 0 := by
    funext i p
    simp only [commitment, mat, matrixProduct_constant, Poly.caddq]
    decide
  have responds : response sk (fun _ _ => 384478) c = fun _ _ => 384478 := by
    funext i p
    simp only [response, s1, challengeProduct_constant, Poly.add, Poly.reduce]
    decide
  have low : lowPart sk (fun _ _ => 384478) c = fun _ _ => 0 := by
    funext i p
    simp only [lowPart, s2, challengeProduct_constant, commits, Poly.sub, Poly.low, Poly.reduce]
    decide
  have hint : hintPart sk c = fun _ _ => 0 := by
    funext i p
    simp only [hintPart, t0, challengeProduct_constant, Poly.reduce]
    decide
  have none : hints sk (fun _ _ => 384478) c = fun _ _ => 0 := by
    funext i p
    simp only [hints, low, hint, commitmentHigh, commits, Poly.add, Poly.high, Poly.makeHint]
    decide +kernel
  rw [rejects, responds, low, hint, none]
  decide +kernel

private theorem signLoop_constant {sk : SigningKey}
    (mat : sk.mat = fun _ _ _ => 0) (s1 : sk.s1 = fun _ _ => 0)
    (s2 : sk.s2 = fun _ _ => 0) (t0 : sk.t0 = fun _ _ => 0) :
    ∃ sig, signLoop constantShake 1 sk 1 0 = some sig := by
  have mask : uniformGamma1Vec constantShake sk.rhoprime 0 = fun _ _ => 384478 :=
    funext fun _ => polyUniformGamma1_constant _ _
  obtain ⟨c, sampled⟩ := isSome_iff_exists.mp (polyChallenge_constant
    (challengeSeed constantShake sk.mu (commitmentHigh sk fun _ _ => 384478)))
  have ok : ∃ sig, signRound constantShake 1 sk 0 = some (some sig) := by
    rw [signRound, mask, sampled, map_some, rejects_constant c mat s1 s2 t0]
    exact ⟨_, rfl⟩
  obtain ⟨sig, round⟩ := ok
  exact ⟨sig, by rw [signLoop, round]⟩

private theorem expandKey_constant (xi : List UInt8) :
    ∃ parts, expandKey constantShake 1 xi = some parts ∧
      parts.s1 = (fun _ _ => 0) ∧ parts.s2 = (fun _ _ => 0) ∧
      parts.t0 = fun _ _ => 0 := by
  simp only [expandKey, matrixExpand_constant, uniformEtaVec_constant, bind_eq_bind, bind_some]
  refine ⟨_, rfl, rfl, rfl, ?_⟩
  funext i p
  simp only [keyVector, matrixProduct_constant, Poly.low, Poly.add, Poly.caddq]
  decide

theorem signatures_verify_constant :
    let xi := List.replicate SEEDBYTES 3
    let rnd := List.replicate RNDBYTES 4
    ∃ pk sk sig, keygenInternal constantShake 1 xi = some (pk, sk) ∧
        signatureCtx constantShake 1 sk [1] [2] rnd = some (.ok sig) ∧
        verifyCtx constantShake 1 pk sig [1] [2] = some (.ok ()) := by
  intro xi rnd
  obtain ⟨_, expanded, s1, s2, t0⟩ := expandKey_constant xi
  obtain ⟨⟨pk, sk⟩, generated⟩ : ∃ pair, keygenInternal constantShake 1 xi = some pair :=
    ⟨_, by rw [keygenInternal, expanded, map_some]⟩
  obtain ⟨_, _, again, -, -, -, secretKey⟩ := keygenInternal_unpacks generated
  cases expanded.symm.trans again
  have signed : ∃ sig, signatureCtx constantShake 1 sk [1] [2] rnd = some (.ok sig) := by
    rw [signatureCtx, if_neg (by decide), secretKey]
    dsimp only
    rw [matrixExpand_constant, bind_some]
    have zero {dim : Nat} {v : Fin dim → Poly} (isZero : v = fun _ _ => 0) :
        (fun i => ntt (v i)) = fun _ _ => 0 := by
      rw [isZero]
      exact funext fun _ => ntt_zero
    rw [zero s1, zero s2, zero t0]
    obtain ⟨sig, looped⟩ := @signLoop_constant
      ⟨fun _ _ _ => 0, fun _ _ => 0, fun _ _ => 0, fun _ _ => 0, _, _⟩
      rfl rfl rfl rfl
    exact ⟨sig, by rw [looped, map_some]⟩
  obtain ⟨sig, signed⟩ := signed
  exact ⟨pk, sk, sig, generated, signed,
    signatures_verify _ _ _ _ _ _ _ _ _ _ generated signed 1 le_rfl⟩

end Constant

end ParallaX.MlDsa
