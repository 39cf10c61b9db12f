import ParallaX.MlDsa.Hints

/-!
# ML-DSA-87: keys and signatures as byte strings

The layouts of `packing.rs`: fields one after another, vectors as the packings
of their polynomials.
-/

namespace ParallaX.MlDsa

open Codec List

def POLYVECH_PACKEDBYTES : Nat := OMEGA + K

def SIGNBYTES : Nat := CTILDEBYTES + L * POLYZ_PACKEDBYTES + POLYVECH_PACKEDBYTES

/-! ## Vectors -/

section Vectors

variable {dim : Nat} [NeZero dim]

/-- The packings of the polynomials of a vector, one after another. -/
def packVec (pack : Poly → List UInt8) (v : Fin dim → Poly) : List UInt8 :=
  concat dim fun i => pack (v (Fin.ofNat dim i))

def unpackVec (unpack : List UInt8 → Poly) (bytes : List UInt8) (off len : Nat) : Fin dim → Poly :=
  fun i => unpack (slice bytes (off + i * len) len)

variable {pack : Poly → List UInt8} {unpack : List UInt8 → Poly} {len : Nat}

theorem length_packVec (lengths : ∀ a, (pack a).length = len)
    (v : Fin dim → Poly) : (packVec pack v).length = len * dim :=
  length_concat fun _ _ => lengths _

/-- A vector is read back from where it was written. -/
theorem unpackVec_append (lengths : ∀ a, (pack a).length = len)
    {v : Fin dim → Poly} (inverse : ∀ i, unpack (pack (v i)) = v i)
    {front : List UInt8} {off : Nat} (atFront : front.length = off) (rest : List UInt8) :
    unpackVec unpack (front ++ (packVec pack v ++ rest)) off len = v := by
  subst atFront
  funext i
  have total := length_packVec lengths v
  have inside : len * i + len ≤ len * dim := by exact Nat.mul_le_mul_left len i.isLt
  have block : slice (packVec pack v) (len * i) len = pack (v i) := by
    have chunk := slice_concat (fun j (_ : j < dim) => lengths (v (Fin.ofNat dim j))) i.isLt
    rw [Fin.ofNat_val_eq_self] at chunk
    exact chunk
  unfold unpackVec
  rw [slice_append_right (by omega), Nat.add_sub_cancel_left, mul_comm,
    slice_append_left (by omega), block]
  exact inverse i

theorem packVec_unpackVec (bytes : List UInt8) (off : Nat)
    (inverse : ∀ block : List UInt8, block.length = len → pack (unpack block) = block)
    (inside : off + len * dim ≤ bytes.length) :
    packVec pack (unpackVec unpack bytes off len : Fin dim → Poly) =
      slice bytes off (len * dim) := by
  have total := length_slice inside
  rw [← concat_slice total]
  apply concat_congr
  intro i before
  have fits : len * i + len ≤ len * dim := by exact Nat.mul_le_mul_left len before
  have position : (Fin.ofNat dim i).val = i := by rw [Fin.val_ofNat, Nat.mod_eq_of_lt before]
  unfold unpackVec
  rw [position, inverse _ (length_slice (by rw [mul_comm i]; omega)), mul_comm i]
  unfold slice
  rw [drop_take, drop_drop, take_take, Nat.min_eq_left (by omega)]

end Vectors

def packPk (rho : List UInt8) (t1 : Polyveck) : List UInt8 := rho ++ packVec polyt1Pack t1

def unpackPk (pk : List UInt8) : List UInt8 × Polyveck :=
  (slice pk 0 SEEDBYTES, unpackVec polyt1Unpack pk SEEDBYTES POLYT1_PACKEDBYTES)

structure SecretKey where
  rho : List UInt8
  key : List UInt8
  tr : List UInt8
  s1 : Polyvecl
  s2 : Polyveck
  t0 : Polyveck

def packSk (sk : SecretKey) : List UInt8 :=
  sk.rho ++ (sk.key ++ (sk.tr ++ (packVec polyetaPack sk.s1 ++
    (packVec polyetaPack sk.s2 ++ packVec polyt0Pack sk.t0))))

def unpackSk (sk : List UInt8) : SecretKey :=
  let offS1 := SEEDBYTES + SEEDBYTES + TRBYTES
  let offS2 := offS1 + L * POLYETA_PACKEDBYTES
  let offT0 := offS2 + K * POLYETA_PACKEDBYTES
  { rho := slice sk 0 SEEDBYTES
    key := slice sk SEEDBYTES SEEDBYTES
    tr := slice sk (SEEDBYTES + SEEDBYTES) TRBYTES
    s1 := unpackVec polyetaUnpack sk offS1 POLYETA_PACKEDBYTES
    s2 := unpackVec polyetaUnpack sk offS2 POLYETA_PACKEDBYTES
    t0 := unpackVec polyt0Unpack sk offT0 POLYT0_PACKEDBYTES }

def packSig (c : List UInt8) (z : Polyvecl) (h : Polyveck) : List UInt8 :=
  c ++ (packVec polyzPack z ++ packHint h)

/-- `None` is the unit error of the source. -/
def unpackSig (sig : List UInt8) : Option (List UInt8 × Polyvecl × Polyveck) :=
  let c := slice sig 0 CTILDEBYTES
  let z : Polyvecl := unpackVec polyzUnpack sig CTILDEBYTES POLYZ_PACKEDBYTES
  let hint := sig.drop (CTILDEBYTES + L * POLYZ_PACKEDBYTES)
  (unpackHint fun j => hint.getD j 0).map fun h => (c, z, h)

/-! ## Round trips -/

theorem slice_front {list rest : List UInt8} {len : Nat}
    (length : list.length = len) : slice (list ++ rest) 0 len = list := by
  subst length
  simp [slice]

theorem slice_after {front list rest : List UInt8} {start len : Nat}
    (before : front.length = start) (length : list.length = len) :
    slice (front ++ (list ++ rest)) start len = list := by
  subst before
  rw [slice_append_right le_rfl, Nat.sub_self, slice_front length]

theorem unpackPk_packPk {rho : List UInt8} {t1 : Polyveck}
    (length : rho.length = SEEDBYTES) (range : ∀ i j, T1Range (t1 i j)) :
    unpackPk (packPk rho t1) = (rho, t1) := by
  have vector := unpackVec_append length_polyt1Pack
    (fun i => polyt1Unpack_polyt1Pack (range i)) length []
  rw [append_nil] at vector
  unfold unpackPk packPk
  rw [slice_front length, vector]

structure SecretKey.Valid (sk : SecretKey) : Prop where
  rho : sk.rho.length = SEEDBYTES
  key : sk.key.length = SEEDBYTES
  tr : sk.tr.length = TRBYTES
  s1 : ∀ i j, -ETA ≤ sk.s1 i j ∧ sk.s1 i j ≤ ETA
  s2 : ∀ i j, -ETA ≤ sk.s2 i j ∧ sk.s2 i j ≤ ETA
  t0 : ∀ i j, T0Range (sk.t0 i j)

theorem unpackSk_packSk {sk : SecretKey} (valid : sk.Valid) : unpackSk (packSk sk) = sk := by
  obtain ⟨rhoLength, keyLength, trLength, s1Range, s2Range, t0Range⟩ := valid
  have s1Length := length_packVec length_polyetaPack sk.s1
  have s2Length := length_packVec length_polyetaPack sk.s2
  have rho : slice (packSk sk) 0 SEEDBYTES = sk.rho := slice_front rhoLength
  have key : slice (packSk sk) SEEDBYTES SEEDBYTES = sk.key := slice_after rhoLength keyLength
  have tr : slice (packSk sk) (SEEDBYTES + SEEDBYTES) TRBYTES = sk.tr := by
    have front : (sk.rho ++ sk.key).length = SEEDBYTES + SEEDBYTES := by
      rw [length_append, rhoLength, keyLength]
    rw [packSk, ← append_assoc]
    exact slice_after front trLength
  -- The vectors, each behind the fields before it.
  have frontS1 : (sk.rho ++ (sk.key ++ sk.tr)).length = SEEDBYTES + SEEDBYTES + TRBYTES := by
    simp only [length_append, rhoLength, keyLength, trLength]
    rfl
  have frontS2 : (sk.rho ++ (sk.key ++ sk.tr) ++
      packVec polyetaPack sk.s1).length =
        SEEDBYTES + SEEDBYTES + TRBYTES + L * POLYETA_PACKEDBYTES := by
    rw [length_append, frontS1, s1Length, mul_comm L]
  have frontT0 : (sk.rho ++ (sk.key ++ sk.tr) ++ packVec polyetaPack sk.s1 ++
      packVec polyetaPack sk.s2).length =
        SEEDBYTES + SEEDBYTES + TRBYTES + L * POLYETA_PACKEDBYTES + K * POLYETA_PACKEDBYTES := by
    rw [length_append, frontS2, s2Length, mul_comm K]
  have s1 := unpackVec_append length_polyetaPack
    (fun i => polyetaUnpack_polyetaPack (s1Range i)) frontS1
    (packVec polyetaPack sk.s2 ++ packVec polyt0Pack sk.t0)
  have s2 := unpackVec_append length_polyetaPack
    (fun i => polyetaUnpack_polyetaPack (s2Range i)) frontS2 (packVec polyt0Pack sk.t0)
  have t0 := unpackVec_append length_polyt0Pack
    (fun i => polyt0Unpack_polyt0Pack (t0Range i)) frontT0 []
  simp only [append_assoc, append_nil] at s1 s2 t0
  unfold unpackSk
  dsimp only
  rw [rho, key, tr, packSk, s1, s2, t0]

variable {c : List UInt8} {z : Polyvecl} {h : Polyveck}

theorem unpackSig_packSig (length : c.length = CTILDEBYTES) (range : ∀ i j, ZRange (z i j))
    (binary : ∀ i, Binary (h i)) (light : weight h ≤ OMEGA) :
    unpackSig (packSig c z h) = some (c, z, h) := by
  have vector := unpackVec_append length_polyzPack
    (fun i => polyzUnpack_polyzPack (range i)) length (packHint h)
  have hint : (packSig c z h).drop (CTILDEBYTES + L * POLYZ_PACKEDBYTES) = packHint h := by
    have total := length_packVec length_polyzPack z
    unfold packSig
    rw [← append_assoc]
    exact drop_left' (by rw [length_append, total, length, mul_comm])
  unfold unpackSig
  dsimp only
  rw [hint, unpackHint_packHint binary light]
  unfold packSig
  rw [slice_front length, vector]
  rfl

theorem packSig_of_unpackSig {sig : List UInt8} (length : sig.length = SIGNBYTES)
    (ok : unpackSig sig = some (c, z, h)) : packSig c z h = sig := by
  have sizes : SIGNBYTES = CTILDEBYTES + L * POLYZ_PACKEDBYTES + (OMEGA + K) := rfl
  obtain ⟨_, read, fields⟩ := Option.map_eq_some_iff.mp ok
  cases fields
  have swapped : POLYZ_PACKEDBYTES * L = L * POLYZ_PACKEDBYTES := mul_comm _ _
  have vector := packVec_unpackVec sig CTILDEBYTES (fun _ => polyzPack_polyzUnpack)
    (show CTILDEBYTES + POLYZ_PACKEDBYTES * L ≤ sig.length by omega)
  have hint := packHint_of_unpackHint (by rw [length_drop, length]; omega) read
  unfold packSig
  rw [vector, hint, swapped, slice_append_drop]
  have whole := slice_append_drop sig 0 CTILDEBYTES
  rwa [zero_add, drop_zero] at whole

theorem length_packSig (length : c.length = CTILDEBYTES)
    (z : Polyvecl) (h : Polyveck) : (packSig c z h).length = SIGNBYTES := by
  have vector := length_packVec length_polyzPack z
  unfold packSig
  rw [length_append, length_append, length, vector, length_packHint]
  rfl

/-! ## Canonical encodings -/

/-- Packing is a bijection between the polynomials with coefficients in a range
and the byte strings of a length, and unpacking is its inverse. -/
def Bijection (pack : Poly → List UInt8) (unpack : List UInt8 → Poly)
    (range : Int → Prop) (len : Nat) : Prop :=
  Set.BijOn pack {a | ∀ i, range (a i)} {bytes | bytes.length = len} ∧
    Set.InvOn unpack pack {a | ∀ i, range (a i)} {bytes | bytes.length = len}

/-- The coefficients of the secret vectors. -/
def Small (a : Poly) : Prop := ∀ i, -ETA ≤ a i ∧ a i ≤ ETA

/-- Three bits hold eight values and `[-ETA, ETA]` has five: the unpacker takes
every byte string, and some stand for coefficients out of that range. -/
theorem polyetaPack_not_onto : let bytes := List.replicate POLYETA_PACKEDBYTES (0xFF : UInt8)
    polyetaUnpack bytes 0 = -5 ∧ ∀ a : Poly, Small a → polyetaPack a ≠ bytes := by
  have decoded : polyetaUnpack (List.replicate POLYETA_PACKEDBYTES (0xFF : UInt8)) 0 = -5 := by
    decide
  refine ⟨decoded, ?_⟩
  intro _ small packed
  have back := polyetaUnpack_polyetaPack small
  have coefficient := congrFun back 0
  have lower := (small 0).1
  have bound : ETA = 2 := rfl
  rw [packed, decoded] at coefficient
  omega

/-- Signatures have one encoding each, and the packings of polynomials are
bijections with the byte strings their unpackers take: for `eta`, from the
range of three bits. -/
theorem signature_encoding_canonical :
    (∀ c z h, c.length = CTILDEBYTES → (∀ i j, ZRange (z i j)) →
      (∀ i, Binary (h i)) → weight h ≤ OMEGA →
        (packSig c z h).length = SIGNBYTES ∧ unpackSig (packSig c z h) = some (c, z, h)) ∧
    (∀ sig c z h, sig.length = SIGNBYTES → unpackSig sig = some (c, z, h) → packSig c z h = sig) ∧
    (∀ sig other triple, sig.length = SIGNBYTES → other.length = SIGNBYTES →
      unpackSig sig = some triple → unpackSig other = some triple → sig = other) ∧
    Bijection polyt1Pack polyt1Unpack T1Range POLYT1_PACKEDBYTES ∧
    Bijection polyt0Pack polyt0Unpack T0Range POLYT0_PACKEDBYTES ∧
    Bijection polyzPack polyzUnpack ZRange POLYZ_PACKEDBYTES ∧
    Bijection polyetaPack polyetaUnpack EtaRange POLYETA_PACKEDBYTES ∧
    (∀ a, Small a → polyetaUnpack (polyetaPack a) = a) ∧
    (∀ bytes, bytes.length = POLYETA_PACKEDBYTES →
      ((∃ a, Small a ∧ polyetaPack a = bytes) ↔ Small (polyetaUnpack bytes))) := by
  refine ⟨?_, ?_, ?_, ?_, ?_, ?_, ?_, ?_, ?_⟩
  · intro c z h length range binary light
    exact ⟨length_packSig length z h, unpackSig_packSig length range binary light⟩
  · intro sig c z h length accepted
    exact packSig_of_unpackSig length accepted
  · rintro _ _ ⟨_, _, _⟩ length otherLength accepted otherAccepted
    rw [← packSig_of_unpackSig length accepted, packSig_of_unpackSig otherLength otherAccepted]
  · exact bijOn_packPoly exact_t1Codec (by decide)
  · exact bijOn_packPoly exact_t0Codec (by decide)
  · exact bijOn_packPoly exact_zCodec (by decide)
  · exact bijOn_packPoly exact_etaCodec (by decide)
  · intro _ small
    exact polyetaUnpack_polyetaPack small
  · refine fun _ length => ⟨?_, fun small =>
      ⟨_, small, packPoly_unpackPoly exact_etaCodec (by decide) length⟩⟩
    rintro ⟨_, small, rfl⟩
    rw [polyetaUnpack_polyetaPack small]
    exact small

/-- Coefficients up to both ends of their range. -/
def exampleZ : Polyvecl := fun i j =>
  if j = 0 then GAMMA1 else if j = 255 then -(GAMMA1 - 1) else i.val - j.val

/-- Ones in three of the polynomials. -/
def exampleHints : Polyveck := fun i =>
  mark (if i = 0 then [3, 200] else if i = 2 then [0] else if i = 7 then [255] else [])

theorem signature_encoding_canonical_example :
    weight exampleHints = 4 ∧
      unpackSig (packSig (List.replicate CTILDEBYTES 0x5a) exampleZ exampleHints) =
        some (List.replicate CTILDEBYTES 0x5a, exampleZ, exampleHints) := by
  have four : weight exampleHints = 4 := by decide +kernel
  have range (i : Fin L) (j : Fin N) : ZRange (exampleZ i j) := by
    have row : i.val < 7 := i.isLt
    have column : j.val < 256 := j.isLt
    unfold ZRange exampleZ GAMMA1
    split
    · omega
    · split <;> omega
  exact ⟨four, (signature_encoding_canonical.1 _ _ _ length_replicate range
    (fun _ => binary_mark _) (four.trans_le (by decide))).2⟩

end ParallaX.MlDsa
