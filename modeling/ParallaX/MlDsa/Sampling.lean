import ParallaX.MlDsa.Encoding
import ParallaX.MlDsa.Vectors

/-!
# ML-DSA-87: samplers

SHAKE is a parameter: a stream of bytes for each message. The samplers that
reject take fuel; what they return has its coefficients in range, and more fuel
does not change it.
-/

namespace ParallaX.MlDsa

open Codec List Option Function

/-- The output streams of the two functions of the `sha3` crate. -/
structure Shake where
  shake128 : List UInt8 → Nat → UInt8
  shake256 : List UInt8 → Nat → UInt8

def SHAKE128_RATE : Nat := 168

def SHAKE256_RATE : Nat := 136

def read (stream : Nat → UInt8) (start len : Nat) : List UInt8 := (List.range' start len).map stream

variable {shake : Shake} {fuel : Nat} {seed : List UInt8} (stream : Nat → UInt8)

theorem length_read (start len : Nat) : (read stream start len).length = len := by
  simp [read]

def Shake.hash256 (shake : Shake) (input : List UInt8) (len : Nat) : List UInt8 :=
  read (shake.shake256 input) 0 len

def nonceBytes (nonce : Nat) : List UInt8 := [UInt8.ofNat nonce, UInt8.ofNat (nonce / 256)]

/-- A function of a fuel whose results are final. -/
def Settles {α : Type} (f : Nat → Option α) : Prop :=
  ∀ fuel more result, fuel ≤ more → f fuel = some result → f more = some result

/-! ## Rejection -/

section Rejection

variable {σ : Type} (refill : σ → Nat → List Int × σ)

/-- The loop of the samplers: while coefficients are missing, a refill adds
some. The state is what the reader of the stream remembers. -/
def refillLoop : Nat → List Int → σ → Option (List Int)
  | 0, coeffs, _ => if N ≤ coeffs.length then some coeffs else none
  | fuel + 1, coeffs, state =>
    if N ≤ coeffs.length then some coeffs
    else
      let added := refill state (N - coeffs.length)
      refillLoop fuel (coeffs ++ added.1) added.2

variable {refill}

theorem refillLoop_rule {p : Int → Prop}
    (refills : ∀ state missing, ∀ c ∈ (refill state missing).1, p c)
    {fuel : Nat} {coeffs result : List Int} {state : σ} (all : ∀ c ∈ coeffs, p c)
    (ran : refillLoop refill fuel coeffs state = some result) : ∀ c ∈ result, p c := by
  induction fuel generalizing coeffs state with
  | zero =>
    rw [refillLoop] at ran
    split at ran
    · cases ran
      exact all
    · cases ran
  | succ _ ih =>
    rw [refillLoop] at ran
    split at ran
    · cases ran
      exact all
    · refine ih ?_ ran
      exact forall_mem_append.mpr ⟨all, refills _ _⟩

theorem settles_refillLoop (coeffs : List Int) (state : σ) :
    Settles fun fuel => refillLoop refill fuel coeffs state := by
  intro fuel more _ _ ran
  dsimp only at ran ⊢
  induction fuel generalizing more coeffs state with
  | zero =>
    rw [refillLoop] at ran
    split at ran
    next full =>
      cases more with
      | zero | succ =>
        rw [refillLoop, if_pos full]
        exact ran
    · cases ran
  | succ _ ih =>
    obtain ⟨more, rfl⟩ : ∃ less, more = less + 1 := ⟨more - 1, by omega⟩
    rw [refillLoop] at ran ⊢
    split at ran
    next full =>
      rw [if_pos full]
      exact ran
    next short =>
      rw [if_neg short]
      exact ih _ _ _ (by omega) ran

end Rejection

def ofCoeffs (coeffs : List Int) : Poly := fun i => coeffs.getD i 0

theorem ofCoeffs_rule {p : Int → Prop} {coeffs : List Int} (zero : p 0)
    (all : ∀ c ∈ coeffs, p c) (i : Fin N) : p (ofCoeffs coeffs i) := by
  rw [ofCoeffs, getD_eq_getElem?_getD]
  cases entry : coeffs[i.val]? with
  | none => exact zero
  | some c => exact all c (mem_of_getElem? entry)

theorem Settles.map {α β : Type} {f : Nat → Option α} (settles : Settles f)
    (g : α → β) : Settles fun fuel => (f fuel).map g := by
  intro _ _ _ le ran
  obtain ⟨value, found, rfl⟩ := map_eq_some_iff.mp ran
  exact map_eq_some_iff.mpr ⟨value, settles _ _ _ le found, rfl⟩

/-- Up to `len` coefficients from words of three bytes. -/
def rejUniform : Nat → List UInt8 → List Int
  | len, b0 :: b1 :: b2 :: rest =>
    if len = 0 then []
    else
      let t := (b0.toUInt32 ||| (b1.toUInt32 <<< 8) ||| (b2.toUInt32 <<< 16)) &&& 0x7FFFFF
      if (t.toNat : Int) < Q then t.toNat :: rejUniform (len - 1) rest
      else rejUniform len rest
  | _, _ => []

/-- The bytes of an incomplete word are carried over. -/
def uniformRefill (stream : Nat → UInt8) (state : List UInt8 × Nat)
    (missing : Nat) : List Int × List UInt8 × Nat :=
  let off := state.1.length % 3
  let buf := state.1.drop (state.1.length - off) ++ read stream state.2 SHAKE128_RATE
  (rejUniform missing buf, buf, state.2 + SHAKE128_RATE)

def polyUniform (shake : Shake) (fuel : Nat) (seed : List UInt8) (nonce : Nat) : Option Poly :=
  let stream := shake.shake128 (seed ++ nonceBytes nonce)
  let buf := read stream 0 (5 * SHAKE128_RATE)
  (refillLoop (uniformRefill stream) fuel (rejUniform N buf) (buf, 5 * SHAKE128_RATE)).map ofCoeffs

variable {nonce dim : Nat} {a : Poly} (len : Nat) (buf : List UInt8)

theorem rejUniform_range : ∀ c ∈ rejUniform len buf, 0 ≤ c ∧ c < Q := by
  fun_induction rejUniform len buf with
  | case1 => simp
  | case2 len b0 b1 b2 rest positive t ok ih => exact forall_mem_cons.mpr ⟨⟨by omega, ok⟩, ih⟩
  | case3 len b0 b1 b2 rest positive t rejected ih => exact ih
  | case4 => simp

theorem polyUniform_range (sampled : polyUniform shake fuel seed nonce = some a) : Bounded Q a := by
  obtain ⟨_, ran, rfl⟩ := map_eq_some_iff.mp sampled
  have range := refillLoop_rule (fun _ _ => rejUniform_range _ _) (rejUniform_range _ _) ran
  intro i
  refine ofCoeffs_rule ⟨by decide, by decide⟩ (fun c member => ?_) i
  exact ⟨by have := (range c member).1; have : Q = 8380417 := rfl; omega, (range c member).2⟩

/-! ## Small coefficients -/

/-- A nibble below 15 as a coefficient: `t mod 5` without a division. -/
def etaCoeff (t : Nat) : Int := 2 - ((t - ((205 * t) >>> 10) * 5 : Nat) : Int)

/-- Up to `len` coefficients from nibbles. -/
def rejEta : Nat → List UInt8 → List Int
  | _, [] => []
  | len, byte :: rest =>
    if len = 0 then []
    else
      let t0 := (byte &&& 0x0F).toNat
      let t1 := (byte >>> 4).toNat
      let low := if t0 < 15 then [etaCoeff t0] else []
      let high :=
        if t1 < 15 ∧ low.length < len then [etaCoeff t1] else []
      low ++ high ++ rejEta (len - (low.length + high.length)) rest

def etaRefill (stream : Nat → UInt8) (pos missing : Nat) : List Int × Nat :=
  (rejEta missing (read stream pos SHAKE256_RATE), pos + SHAKE256_RATE)

def polyUniformEta (shake : Shake) (fuel : Nat) (seed : List UInt8) (nonce : Nat) : Option Poly :=
  let stream := shake.shake256 (seed ++ nonceBytes nonce)
  (refillLoop (etaRefill stream) fuel (rejEta N (read stream 0 SHAKE256_RATE))
    SHAKE256_RATE).map ofCoeffs

theorem etaCoeff_range {t : Nat} (small : t < 15) : -ETA ≤ etaCoeff t ∧ etaCoeff t ≤ ETA := by
  have table : ∀ t : Fin 15, -ETA ≤ etaCoeff t ∧ etaCoeff t ≤ ETA := by decide
  exact table ⟨t, small⟩

theorem rejEta_range : ∀ c ∈ rejEta len buf, -ETA ≤ c ∧ c ≤ ETA := by
  induction buf generalizing len with
  | nil => simp [rejEta]
  | cons _ _ ih =>
    intro c member
    rw [rejEta] at member
    split at member
    · cases member
    · have nibble {accept : Prop} [Decidable accept] {t : Nat} (small : accept → t < 15)
          (taken : c ∈ if accept then [etaCoeff t] else []) : -ETA ≤ c ∧ c ≤ ETA := by
        split at taken
        next ok =>
          rw [mem_singleton.mp taken]
          exact etaCoeff_range (small ok)
        · cases taken
      rcases mem_append.mp member with here | later
      · rcases mem_append.mp here with low | high
        · exact nibble id low
        · exact nibble And.left high
      · exact ih _ c later

theorem polyUniformEta_range
    (sampled : polyUniformEta shake fuel seed nonce = some a) : Small a := by
  obtain ⟨_, ran, rfl⟩ := map_eq_some_iff.mp sampled
  exact ofCoeffs_rule (p := fun c => -ETA ≤ c ∧ c ≤ ETA) ⟨by decide, by decide⟩
    (refillLoop_rule (fun _ _ => rejEta_range _ _) (rejEta_range _ _) ran)

/-- Five blocks are read and the first `POLYZ_PACKEDBYTES` of them unpacked. -/
def polyUniformGamma1 (shake : Shake) (seed : List UInt8) (nonce : Nat) : Poly :=
  polyzUnpack (read (shake.shake256 (seed ++ nonceBytes nonce)) 0 (5 * SHAKE256_RATE))

/-! ## Challenges -/

/-- The next byte that is at most `i`, and the position behind it. -/
def candidate (stream : Nat → UInt8) (i : Nat) : Nat → Nat → Option (Nat × Nat)
  | 0, _ => none
  | fuel + 1, pos =>
    let cand := (stream pos).toNat
    if cand ≤ i then some (cand, pos + 1) else candidate stream i fuel (pos + 1)

structure ChallengeState where
  coeffs : Poly
  signs : Nat
  pos : Nat

def challengeStep (stream : Nat → UInt8) (fuel : Nat) (state : ChallengeState)
    (i : Nat) : Option ChallengeState :=
  (candidate stream i fuel state.pos).map fun found =>
    let b := Fin.ofNat N found.1
    let moved := Function.update state.coeffs (Fin.ofNat N i) (state.coeffs b)
    { coeffs := Function.update moved b (1 - 2 * (state.signs % 2 : Nat))
      signs := state.signs / 2
      pos := found.2 }

/-- The buffer is refilled when it is used up, so the candidates are the bytes
of the stream behind the signs. -/
def polyChallenge (shake : Shake) (fuel : Nat) (seed : List UInt8) : Option Poly :=
  let stream := shake.shake256 seed
  let signs := ((List.range 8).map fun i =>
    (stream i).toNat * 2 ^ (8 * i)).sum
  ((List.range' (N - TAU) TAU).foldlM (challengeStep stream fuel)
    { coeffs _ := 0, signs := signs, pos := 8 }).map (·.coeffs)

theorem foldlM_rule {α β : Type} {f : β → α → Option β} {p : β → Prop}
    (step : ∀ before a after, p before → f before a = some after → p after)
    {list : List α} {init result : β} (start : p init)
    (ran : list.foldlM f init = some result) : p result := by
  induction list generalizing init with
  | nil =>
    cases ran
    exact start
  | cons a _ ih =>
    rw [foldlM_cons, bind_eq_bind, bind_eq_some_iff] at ran
    obtain ⟨next, stepped, continued⟩ := ran
    exact ih (step init a next start stepped) continued

theorem polyChallenge_range
    {c : Poly} (sampled : polyChallenge shake fuel seed = some c) : Bounded 2 c := by
  obtain ⟨state, ran, rfl⟩ := map_eq_some_iff.mp sampled
  refine foldlM_rule (p := fun state => Bounded 2 state.coeffs) ?_
    (fun _ => ⟨by norm_num, by norm_num⟩) ran
  intro _ i _ bounded stepped
  obtain ⟨⟨b, _⟩, -, rfl⟩ := map_eq_some_iff.mp stepped
  intro j
  dsimp only
  by_cases atB : j = Fin.ofNat N b
  · subst atB
    rw [update_self]
    exact ⟨by omega, by omega⟩
  · rw [update_of_ne atB]
    by_cases atI : j = Fin.ofNat N i
    · subst atI
      rw [update_self]
      exact bounded _
    · rw [update_of_ne atI]
      exact bounded j

theorem settles_candidate (i pos : Nat) : Settles fun fuel => candidate stream i fuel pos := by
  intro fuel more _ _ ran
  induction fuel generalizing more pos with
  | zero => cases ran
  | succ _ ih =>
    obtain ⟨more, rfl⟩ : ∃ less, more = less + 1 := ⟨more - 1, by omega⟩
    simp only [candidate] at ran ⊢
    split at ran
    next ok =>
      rw [if_pos ok]
      exact ran
    next rejected =>
      rw [if_neg rejected]
      exact ih _ _ (by omega) ran

theorem settles_foldlM {α β : Type} {f : Nat → β → α → Option β}
    (steps : ∀ before a, Settles fun fuel => f fuel before a) (list : List α)
    (init : β) : Settles fun fuel => list.foldlM (f fuel) init := by
  intro fuel more _ le ran
  induction list generalizing init with
  | nil => exact ran
  | cons a _ ih =>
    dsimp only at ran ⊢
    rw [foldlM_cons, bind_eq_bind, bind_eq_some_iff] at ran ⊢
    obtain ⟨next, stepped, continued⟩ := ran
    exact ⟨next, steps init a fuel more next le stepped, ih next continued⟩

theorem settles_polyChallenge (shake : Shake) (seed : List UInt8) :
    Settles fun fuel => polyChallenge shake fuel seed :=
  (settles_foldlM (fun _ _ => (settles_candidate _ _ _).map _) _ _).map _

/-! ## Vectors and the matrix -/

/-- The results of all samplings, if all return. -/
def sequence {dim : Nat} {α : Type} (f : Fin dim → Option α) : Option (Fin dim → α) :=
  if all : ∀ i, (f i).isSome then some fun i => (f i).get (all i) else none

theorem sequence_eq_some {α : Type} {f : Fin dim → Option α}
    {v : Fin dim → α} : sequence f = some v ↔ ∀ i, f i = some (v i) := by
  unfold sequence
  constructor
  · intro sampled i
    split at sampled
    · cases sampled
      exact (some_get _).symm
    · cases sampled
  · intro each
    have all i : (f i).isSome := by rw [each i]; rfl
    rw [dif_pos all]
    congr 1
    funext i
    exact some_injective _ ((some_get _).trans (each i))

theorem settles_sequence {α : Type} {f : Nat → Fin dim → Option α}
    (each : ∀ i, Settles fun fuel => f fuel i) : Settles fun fuel => sequence (f fuel) := by
  intro fuel more _ le sampled
  rw [sequence_eq_some] at sampled ⊢
  exact fun i => each i fuel more _ le (sampled i)

def uniformEtaVec (shake : Shake) (fuel : Nat) (seed : List UInt8)
    (nonce dim : Nat) : Option (Fin dim → Poly) :=
  sequence fun i => polyUniformEta shake fuel seed ((nonce + i) % 2 ^ 16)

def uniformGamma1Vec (shake : Shake) (seed : List UInt8) (nonce : Nat) : Polyvecl :=
  fun i => polyUniformGamma1 shake seed ((L * nonce + i) % 2 ^ 16)

def matrixExpand (shake : Shake) (fuel : Nat) (rho : List UInt8) : Option (Fin K → Polyvecl) :=
  sequence fun i => sequence fun j =>
    polyUniform shake fuel rho (i * 256 + j)

theorem matrixExpand_range {rho : List UInt8}
    {mat : Fin K → Polyvecl} (expanded : matrixExpand shake fuel rho = some mat)
    (i : Fin K) (j : Fin L) : Bounded Q (mat i j) :=
  polyUniform_range (sequence_eq_some.mp (sequence_eq_some.mp expanded i) j)

theorem settles_matrixExpand (shake : Shake) (rho : List UInt8) :
    Settles fun fuel => matrixExpand shake fuel rho :=
  settles_sequence fun _ => settles_sequence fun _ => (settles_refillLoop _ _).map _

end ParallaX.MlDsa
