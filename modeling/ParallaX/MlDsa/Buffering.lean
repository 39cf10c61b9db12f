import ParallaX.MlDsa.Sampling

/-!
# ML-DSA-87: samplers and their buffers

The reader of an XOF hands out its stream in pieces of any size, and what a
sampler returns is a function of the stream: it does not show where a buffer was
filled again.
-/

namespace ParallaX.MlDsa

open Codec List Option Function

/-! ## The reader -/

/-- The block of the core that is being handed out; `core` counts the blocks. -/
structure WipingReader where
  core : Nat
  block : List UInt8
  offset : Nat

namespace WipingReader

def new (rate : Nat) : WipingReader := { core := 0, block := List.replicate rate 0, offset := rate }

/-- What is handed out is overwritten. -/
def readCachedPrefix (reader : WipingReader) (out : Nat) : List UInt8 × WipingReader :=
  let count := min (reader.block.length - reader.offset) out
  let stop := reader.offset + count
  ((reader.block.drop reader.offset).take count,
    { reader with
      block := reader.block.take reader.offset ++ List.replicate count 0 ++ reader.block.drop stop
      offset := stop })

variable (stream : Nat → UInt8) (rate : Nat)

def refill (reader : WipingReader) : WipingReader :=
  if reader.offset = reader.block.length then
    { core := reader.core + 1, block := MlDsa.read stream (reader.core * rate) rate, offset := 0 }
  else reader

/-- The loop of `read`. -/
def readLoop : Nat → WipingReader → Nat → List UInt8 × WipingReader
  | 0, reader, _ => ([], reader)
  | fuel + 1, reader, out =>
    if out = 0 then ([], reader)
    else
      let got := (reader.refill stream rate).readCachedPrefix out
      let rest := readLoop fuel got.2 (out - got.1.length)
      (got.1 ++ rest.1, rest.2)

/-- Every turn of the loop fills a byte. -/
def read (reader : WipingReader) (out : Nat) : List UInt8 × WipingReader :=
  readLoop stream rate out reader out

/-- The outputs of reads of the given sizes, one after the other. -/
def reads : WipingReader → List Nat → List (List UInt8)
  | _, [] => []
  | reader, size :: sizes =>
    let got := reader.read stream rate size
    got.1 :: reads got.2 sizes

structure At (reader : WipingReader) (pos : Nat) : Prop where
  length : reader.block.length = rate
  offset : reader.offset ≤ rate
  reached : pos + (rate - reader.offset) = reader.core * rate
  rest : reader.block.drop reader.offset = MlDsa.read stream pos (rate - reader.offset)

variable {stream rate} {reader : WipingReader} {pos : Nat}

theorem at_new : (new rate).At stream rate 0 :=
  ⟨length_replicate .., le_rfl, by simp [new], by simp [new, MlDsa.read]⟩

theorem At.refill (here : reader.At stream rate pos) (positive : 0 < rate) :
    (reader.refill stream rate).At stream rate pos ∧ (reader.refill stream rate).offset < rate := by
  unfold WipingReader.refill
  split
  next used =>
    have start : pos = reader.core * rate := by
      have := here.reached
      rw [used, here.length, Nat.sub_self] at this
      exact this
    subst start
    exact ⟨⟨length_read .., Nat.zero_le _, by simp [Nat.succ_mul], rfl⟩, positive⟩
  next unused =>
    rw [here.length] at unused
    exact ⟨here, lt_of_le_of_ne here.offset unused⟩

theorem read_add (start first second : Nat) :
    MlDsa.read stream start (first + second) =
      MlDsa.read stream start first ++ MlDsa.read stream (start + first) second := by
  rw [MlDsa.read, ← List.range'_append_1, map_append]
  rfl

theorem At.readCachedPrefix (here : reader.At stream rate pos) (out : Nat) :
    let count := min (rate - reader.offset) out
    (reader.readCachedPrefix out).1 = MlDsa.read stream pos count ∧
      (reader.readCachedPrefix out).2.At stream rate (pos + count) := by
  intro count
  have within : count ≤ rate - reader.offset := min_le_left ..
  have counted : min (reader.block.length - reader.offset) out = count := by rw [here.length]
  have shown := here.rest
  rw [← Nat.add_sub_of_le within, read_add] at shown
  have bound := here.offset
  have sized := here.length
  have reached := here.reached
  simp only [WipingReader.readCachedPrefix, counted]
  refine ⟨?_, ?_, ?_, ?_, ?_⟩
  · rw [shown]
    exact take_left' (length_read ..)
  · simp only [length_append, length_take, length_replicate, length_drop]
    omega
  · dsimp only
    omega
  · dsimp only
    omega
  · have wiped : (reader.block.take reader.offset ++ List.replicate count 0).length =
        reader.offset + count := by
      simp only [length_append, length_take, length_replicate]
      omega
    rw [drop_left' wiped, ← drop_drop, shown, drop_left' (length_read ..), Nat.sub_add_eq]

theorem At.readLoop (positive : 0 < rate) {fuel out : Nat} (here : reader.At stream rate pos)
    (enough : out ≤ fuel) :
    (readLoop stream rate fuel reader out).1 = MlDsa.read stream pos out ∧
      (readLoop stream rate fuel reader out).2.At stream rate (pos + out) := by
  induction fuel generalizing reader pos out with
  | zero =>
    rw [Nat.le_zero.mp enough]
    exact ⟨rfl, here⟩
  | succ fuel ih =>
    rw [WipingReader.readLoop]
    split
    next nothing =>
      subst nothing
      exact ⟨rfl, here⟩
    · obtain ⟨filled, unread⟩ := here.refill positive
      obtain ⟨got, next⟩ := filled.readCachedPrefix out
      dsimp only
      rw [got, length_read]
      -- at least one byte was handed out, so the rest needs less fuel
      have less : out - min (rate - (reader.refill stream rate).offset) out ≤ fuel := by omega
      obtain ⟨later, after⟩ := ih next less
      rw [later, ← read_add]
      rw [add_assoc] at after
      rw [Nat.add_sub_of_le (min_le_right ..)] at after ⊢
      exact ⟨rfl, after⟩

theorem At.reads (positive : 0 < rate) (here : reader.At stream rate pos) (sizes : List Nat) :
    (reads stream rate reader sizes).map List.length = sizes ∧
      (reads stream rate reader sizes).flatten = MlDsa.read stream pos sizes.sum := by
  induction sizes generalizing reader pos with
  | nil => exact ⟨rfl, rfl⟩
  | cons size sizes ih =>
    obtain ⟨got, next⟩ := here.readLoop positive (le_refl size)
    obtain ⟨lengths, bytes⟩ := ih next
    rw [WipingReader.reads, WipingReader.read, map_cons, flatten_cons, lengths, bytes,
      got, length_read, sum_cons, read_add]
    exact ⟨rfl, rfl⟩

end WipingReader

/-- A function of a fuel that returns, whatever more fuel it gets. -/
def Returns {α : Type} (f : Nat → Option α) (result : α) : Prop :=
  ∃ fuel, ∀ more, fuel ≤ more → f more = some result

theorem Settles.returns {α : Type} {f : Nat → Option α} {result : α} (settles : Settles f)
    {fuel : Nat} (ran : f fuel = some result) : Returns f result :=
  ⟨fuel, fun more le => settles fuel more result le ran⟩

/-! ## Rejection from a stream -/

section Rejection

variable {σ : Type} {refill : σ → Nat → List Int × σ} {values : Nat → Nat → List Int}
  {size : Nat} {good : Nat → σ → Prop}

/-- A refill takes `size` units of a stream; `values start count` are the values accepted
from `count` units. -/
structure Draws (refill : σ → Nat → List Int × σ) (values : Nat → Nat → List Int) (size : Nat)
    (good : Nat → σ → Prop) : Prop where
  positive : 0 < size
  add : ∀ start first second,
    values start (first + second) = values start first ++ values (start + first) second
  refills : ∀ p state missing, good p state →
    (refill state missing).1 = (values p size).take missing ∧
      good (p + size) (refill state missing).2

theorem Draws.run (draws : Draws refill values size good) (count : Nat) {p : Nat} {state : σ}
    (here : good p state) (enough : N ≤ (values 0 (p + size * count)).length) :
    ∃ fuel, refillLoop refill fuel ((values 0 p).take N) state =
      some ((values 0 (p + size * count)).take N) := by
  induction count generalizing p state with
  | zero =>
    rw [mul_zero, add_zero] at enough ⊢
    refine ⟨0, ?_⟩
    rw [refillLoop, if_pos (length_take_of_le enough).ge]
  | succ count ih =>
    by_cases full : N ≤ (values 0 p).length
    · refine ⟨0, ?_⟩
      rw [refillLoop, if_pos (length_take_of_le full).ge, draws.add, take_append_of_le_length full]
    · obtain ⟨added, next⟩ := draws.refills p state (N - (values 0 p).length) here
      have further : p + size * (count + 1) = p + size + size * count := by
        rw [Nat.mul_succ]
        omega
      rw [further] at enough ⊢
      obtain ⟨fuel, ran⟩ := ih next enough
      refine ⟨fuel + 1, ?_⟩
      have short : (values 0 p).take N = values 0 p := take_of_length_le (by omega)
      rw [refillLoop, short, if_neg full]
      rw [draws.add 0 p size, zero_add, take_append, short, ← added] at ran
      exact ran

theorem Draws.first (draws : Draws refill values size good) {p total : Nat} {state : σ}
    (here : good p state) (enough : N ≤ (values 0 total).length) :
    Returns (fun fuel => (refillLoop refill fuel ((values 0 p).take N) state).map ofCoeffs)
      (ofCoeffs ((values 0 total).take N)) := by
  obtain ⟨later, sum⟩ := Nat.exists_eq_add_of_le
    ((Nat.le_mul_of_pos_left total draws.positive).trans (Nat.le_add_left _ p))
  have run := draws.run total here
  rw [sum, draws.add, take_append_of_le_length enough, length_append] at run
  obtain ⟨_, ran⟩ := run (by omega)
  exact ((settles_refillLoop _ _).map _).returns (congrArg (Option.map ofCoeffs) ran)

end Rejection

/-! ## Uniform coefficients -/

/-- The words of three bytes, little-endian, masked to 23 bits. -/
def uniformWord (stream : Nat → UInt8) (k : Nat) : Nat :=
  ((stream (3 * k)).toNat + 2 ^ 8 * (stream (3 * k + 1)).toNat +
    2 ^ 16 * (stream (3 * k + 2)).toNat) % 2 ^ 23

def uniformValues (stream : Nat → UInt8) (start count : Nat) : List Int :=
  ((List.range' start count).map fun k => (uniformWord stream k : Int)).filter (· < Q)

variable (stream : Nat → UInt8)

theorem toNat_word (b0 b1 b2 : UInt8) :
    ((b0.toUInt32 ||| (b1.toUInt32 <<< 8) ||| (b2.toUInt32 <<< 16)) &&& 0x7FFFFF).toNat =
      (b0.toNat + 2 ^ 8 * b1.toNat + 2 ^ 16 * b2.toNat) % 2 ^ 23 := by
  have masked (x : Nat) := Nat.and_two_pow_sub_one_eq_mod x 23
  have low := b0.toNat_lt
  have middle := b1.toNat_lt
  simp only [UInt32.toNat_and, UInt32.toNat_or, UInt32.toNat_shiftLeft, UInt8.toNat_toUInt32,
    UInt32.reduceToNat, Nat.reduceMod, masked]
  simp (disch := omega) only [or_shiftLeft_mod]
  omega

theorem rejUniform_read (len k count : Nat) :
    rejUniform len (read stream (3 * k) (3 * count)) = (uniformValues stream k count).take len := by
  induction count generalizing len k with
  | zero => simp [read, rejUniform, uniformValues]
  | succ count ih =>
    have bytes : read stream (3 * k) (3 * (count + 1)) =
        stream (3 * k) :: stream (3 * k + 1) :: stream (3 * k + 2) ::
          read stream (3 * (k + 1)) (3 * count) := by
      simp only [read, Nat.mul_succ, List.range'_succ, map_cons]
    have values : uniformValues stream k (count + 1) =
        if (uniformWord stream k : Int) < Q then
          (uniformWord stream k : Int) :: uniformValues stream (k + 1) count
        else uniformValues stream (k + 1) count := by
      simp only [uniformValues, List.range'_succ, map_cons, filter_cons, decide_eq_true_eq]
    rw [bytes, values, rejUniform]
    cases len with
    | zero => simp
    | succ len =>
      rw [if_neg (Nat.succ_ne_zero len)]
      dsimp only
      rw [toNat_word, ← uniformWord]
      split
      · rw [take_succ_cons, ih, Nat.add_sub_cancel]
      · exact ih _ _

/-- A block is a whole number of words, so no bytes are carried over. -/
theorem draws_uniform : Draws (uniformRefill stream) (uniformValues stream) 56
    fun p state => state.1.length % 3 = 0 ∧ state.2 = 3 * p where
  positive := by decide
  add start first second := by simp [uniformValues, ← List.range'_append_1]
  refills p state missing here := by
    simp only [uniformRefill, here, Nat.sub_zero, drop_length, nil_append]
    exact ⟨rejUniform_read stream missing p 56, by rw [length_read]; rfl,
      by rw [SHAKE128_RATE]; omega⟩

/-! ## Small coefficients -/

/-- The accepted nibbles of `count` bytes, the lower one of a byte first. -/
def etaValues (stream : Nat → UInt8) (start count : Nat) : List Int :=
  (((List.range' start count).flatMap fun k =>
    [(stream k).toNat % 16, (stream k).toNat / 16]).filter (· < 15)).map
      fun n => 2 - (n % 5 : Nat)

theorem etaValues_add (start first second : Nat) :
    etaValues stream start (first + second) =
      etaValues stream start first ++ etaValues stream (start + first) second := by
  simp [etaValues, ← List.range'_append_1]

theorem etaCoeff_eq {t : Nat} (small : t < 15) : etaCoeff t = 2 - (t % 5 : Nat) := by
  have table : ∀ t : Fin 15, etaCoeff t = 2 - (t.val % 5 : Nat) := by decide
  exact table ⟨t, small⟩

theorem rejEta_read (len start count : Nat) :
    rejEta len (read stream start count) = (etaValues stream start count).take len := by
  induction count generalizing len start with
  | zero => simp [read, rejEta, etaValues]
  | succ count ih =>
    have bytes : read stream start (count + 1) = stream start :: read stream (start + 1) count := by
      simp [read, List.range'_succ]
    have low : (stream start &&& 0x0F).toNat = (stream start).toNat % 16 :=
      Nat.and_two_pow_sub_one_eq_mod _ 4
    have high : (stream start >>> 4).toNat = (stream start).toNat / 16 :=
      Nat.shiftRight_eq_div_pow _ 4
    rw [bytes, add_comm count, etaValues_add, rejEta, low, high]
    cases len with
    | zero => simp
    | succ len =>
      dsimp only
      rw [ih]
      by_cases first : (stream start).toNat % 16 < 15 <;>
        by_cases second : (stream start).toNat / 16 < 15 <;> cases len <;>
        simp [etaValues, first, second, etaCoeff_eq]

theorem draws_eta : Draws (etaRefill stream) (etaValues stream) SHAKE256_RATE Eq where
  positive := by decide
  add := etaValues_add stream
  refills p _ missing here := by
    subst here
    exact ⟨rejEta_read stream missing p SHAKE256_RATE, rfl⟩

/-! ## Challenges -/

/-- The block that the challenge draws its bytes from, and where the next one starts. -/
structure ChallengeBuffer where
  buf : List UInt8
  pos : Nat
  next : Nat

def ChallengeBuffer.byte (stream : Nat → UInt8) (buffer : ChallengeBuffer) :
    UInt8 × ChallengeBuffer :=
  let buffer :=
    if SHAKE256_RATE ≤ buffer.pos then
      { buf := read stream buffer.next SHAKE256_RATE, pos := 0
        next := buffer.next + SHAKE256_RATE }
    else buffer
  (buffer.buf.getD buffer.pos 0, { buffer with pos := buffer.pos + 1 })

def ChallengeBuffer.after (stream : Nat → UInt8) : Nat → ChallengeBuffer
  | 0 => { buf := read stream 0 SHAKE256_RATE, pos := 0, next := SHAKE256_RATE }
  | k + 1 => ((after stream k).byte stream).2

/-- `poly_challenge` takes its bytes one after the other from the buffer, those of the
signs first. -/
def bufferedChallenge (shake : Shake) (fuel : Nat) (seed : List UInt8) : Option Poly :=
  let stream := shake.shake256
  polyChallenge { shake with
    shake256 input k := ((ChallengeBuffer.after (stream input) k).byte (stream input)).1 }
    fuel seed

def ChallengeBuffer.At (stream : Nat → UInt8) (buffer : ChallengeBuffer) (pos : Nat) : Prop :=
  ∃ base, buffer.buf = read stream base SHAKE256_RATE ∧ buffer.next = base + SHAKE256_RATE ∧
    buffer.pos ≤ SHAKE256_RATE ∧ pos = base + buffer.pos

variable {stream} {fuel i pos : Nat} {buffer : ChallengeBuffer}

theorem getD_read {start len j : Nat} (inside : j < len) :
    (read stream start len).getD j 0 = stream (start + j) := by
  simp [read, inside]

theorem ChallengeBuffer.At.byte (here : buffer.At stream pos) :
    (buffer.byte stream).1 = stream pos ∧ (buffer.byte stream).2.At stream (pos + 1) := by
  obtain ⟨base, filled, next, within, rfl⟩ := here
  rw [ChallengeBuffer.byte]
  by_cases used : SHAKE256_RATE ≤ buffer.pos
  · rw [if_pos used, within.antisymm used, ← next]
    have first : 0 < SHAKE256_RATE := by decide
    exact ⟨getD_read first, buffer.next, rfl, rfl, first, rfl⟩
  · rw [if_neg used]
    rw [filled]
    exact ⟨getD_read (not_le.mp used), base, rfl, next, not_le.mp used, rfl⟩

theorem at_after (stream : Nat → UInt8) (k : Nat) :
    (ChallengeBuffer.after stream k).At stream k := by
  induction k with
  | zero => exact ⟨0, rfl, (zero_add _).symm, Nat.zero_le _, rfl⟩
  | succ k ih => exact ih.byte.2

theorem bufferedChallenge_eq (shake : Shake) (fuel : Nat) (seed : List UInt8) :
    bufferedChallenge shake fuel seed = polyChallenge shake fuel seed := by
  have same (stream : Nat → UInt8) (k : Nat) := (at_after stream k).byte.1
  simp [bufferedChallenge, same]

/-- The sum of the magnitudes. -/
def magnitude (a : Poly) : Int := ∑ j, (abs ∘ a) j

theorem magnitude_update (a : Poly) (j : Fin N) (value : Int) :
    magnitude (Function.update a j value) = magnitude a - |a j| + |value| := by
  rw [magnitude, comp_update, Finset.sum_update_of_mem (Finset.mem_univ j), magnitude,
    Finset.sum_eq_add_sum_sdiff_singleton_of_mem (Finset.mem_univ j)]
  simp only [comp_apply]
  ring

theorem candidate_le {found : Nat × Nat} (drawn : candidate stream i fuel pos = some found) :
    found.1 ≤ i := by
  induction fuel generalizing pos with
  | zero => cases drawn
  | succ fuel ih =>
    rw [candidate] at drawn
    split at drawn
    next ok =>
      cases drawn
      exact ok
    · exact ih drawn

theorem challengeStep_magnitude {state next : ChallengeState} (inside : i < N)
    (zeros : ∀ j : Fin N, i ≤ j → state.coeffs j = 0)
    (stepped : challengeStep stream fuel state i = some next) :
    magnitude next.coeffs = magnitude state.coeffs + 1 ∧
      ∀ j : Fin N, i + 1 ≤ j → next.coeffs j = 0 := by
  obtain ⟨found, drawn, rfl⟩ := map_eq_some_iff.mp stepped
  have below := candidate_le drawn
  have atI : (Fin.ofNat N i).val = i := Nat.mod_eq_of_lt inside
  have atB : (Fin.ofNat N found.1).val = found.1 := Nat.mod_eq_of_lt (below.trans_lt inside)
  constructor
  · have kept : Function.update state.coeffs (Fin.ofNat N i) (state.coeffs (Fin.ofNat N found.1))
        (Fin.ofNat N found.1) = state.coeffs (Fin.ofNat N found.1) := by
      rw [update_apply]
      split <;> rfl
    have unit : |1 - 2 * ((state.signs % 2 : Nat) : Int)| = 1 := by
      rcases Nat.mod_two_eq_zero_or_one state.signs with even | odd
      · rw [even]; rfl
      · rw [odd]; rfl
    rw [magnitude_update, magnitude_update, kept, zeros _ atI.ge, unit, abs_zero]
    ring
  · intro j above
    dsimp only
    rw [update_of_ne fun same => ?_, update_of_ne fun same => ?_]
    · exact zeros j (by omega)
    all_goals
      omega

theorem challenge_magnitude {count : Nat} {state result : ChallengeState} (inside : i + count ≤ N)
    (zeros : ∀ j : Fin N, i ≤ j → state.coeffs j = 0)
    (ran : (List.range' i count).foldlM (challengeStep stream fuel) state = some result) :
    magnitude result.coeffs = magnitude state.coeffs + count := by
  induction count generalizing i state with
  | zero =>
    cases ran
    exact (add_zero _).symm
  | succ count ih =>
    rw [List.range'_succ, foldlM_cons, bind_eq_bind, bind_eq_some_iff] at ran
    obtain ⟨next, stepped, continued⟩ := ran
    obtain ⟨heavier, above⟩ := challengeStep_magnitude (by omega) zeros stepped
    rw [ih (by omega) above continued, heavier]
    push_cast
    ring

/-- Exactly `TAU` coefficients are 1 or -1, and all others are 0. -/
def IsChallenge (c : Poly) : Prop :=
  (Finset.univ.filter fun j => c j = 1 ∨ c j = -1).card = TAU ∧ ∀ j, c j = 1 ∨ c j = -1 ∨ c j = 0

theorem isChallenge_polyChallenge {shake : Shake} {seed : List UInt8} {c : Poly}
    (sampled : polyChallenge shake fuel seed = some c) : IsChallenge c := by
  have bounded := polyChallenge_range sampled
  obtain ⟨state, ran, rfl⟩ := map_eq_some_iff.mp sampled
  have total := challenge_magnitude (by decide) (fun _ _ => rfl) ran
  have units (j : Fin N) : state.coeffs j = 1 ∨ state.coeffs j = -1 ∨ state.coeffs j = 0 := by
    obtain ⟨low, high⟩ := bounded j
    omega
  refine ⟨?_, units⟩
  have counted : magnitude state.coeffs =
      ((Finset.univ.filter fun j => state.coeffs j = 1 ∨ state.coeffs j = -1).card : Int) := by
    rw [Finset.card_filter, Nat.cast_sum, magnitude]
    refine Finset.sum_congr rfl fun j _ => ?_
    rcases units j with one | minus | zero
    · simp [one]
    · simp [minus]
    · simp [zero]
  rw [counted] at total
  simpa [magnitude] using total

/-! ## Enough accepted bytes -/

/-- The stream has, behind the signs, a byte for each place in turn. -/
structure Supplies (stream : Nat → UInt8) (places : Nat → Nat) : Prop where
  first : 8 ≤ places (N - TAU)
  increasing : StrictMono places
  accepted : ∀ i, N - TAU ≤ i → i < N → (stream (places i)).toNat ≤ i

theorem candidate_of_place {place : Nat} (ok : (stream place).toNat ≤ i) (ahead : pos ≤ place)
    (enough : place < pos + fuel) :
    ∃ found, candidate stream i fuel pos = some found ∧ found.2 ≤ place + 1 := by
  induction fuel generalizing pos with
  | zero => omega
  | succ fuel ih =>
    rw [candidate]
    split
    · exact ⟨_, rfl, Nat.succ_le_succ ahead⟩
    next rejected =>
      have other : pos ≠ place := fun same => rejected (same ▸ ok)
      exact ih (by omega) (by omega)

theorem Supplies.run {places : Nat → Nat} (supplies : Supplies stream places) (count : Nat)
    {state : ChallengeState} (started : N - TAU ≤ i) (inside : i + count ≤ N)
    (ahead : state.pos ≤ places i) :
    ∃ result, (List.range' i count).foldlM (challengeStep stream (places N + 1)) state =
      some result := by
  induction count generalizing i state with
  | zero => exact ⟨state, rfl⟩
  | succ count ih =>
    have last : places i < state.pos + (places N + 1) := by
      have := supplies.increasing.monotone (show i ≤ N by omega)
      omega
    obtain ⟨found, drawn, behind⟩ :=
      candidate_of_place (supplies.accepted i started (by omega)) ahead last
    rw [List.range'_succ, foldlM_cons, challengeStep, drawn]
    exact ih (by omega) (by omega) (behind.trans (supplies.increasing (Nat.lt_succ_self i)))

theorem Supplies.returns {shake : Shake} {seed : List UInt8} {places : Nat → Nat}
    (supplies : Supplies (shake.shake256 seed) places) :
    ∃ c, Returns (bufferedChallenge shake · seed) c ∧ IsChallenge c := by
  have start (signs : Nat) := supplies.run TAU le_rfl (by decide)
    (show (ChallengeState.mk (fun _ => 0) signs 8).pos ≤ _ from supplies.first)
  obtain ⟨result, ran⟩ := start _
  have sampled := congrArg (Option.map (·.coeffs)) ran
  refine ⟨result.coeffs, ?_, isChallenge_polyChallenge sampled⟩
  simp only [bufferedChallenge_eq]
  exact (settles_polyChallenge shake seed).returns sampled

/-! ## All samplers -/

/-- What a reader hands out is its stream, whatever the sizes of the reads, and what a
sampler returns is given by its stream alone, if that has enough accepted values. -/
theorem samplers_independent_of_buffering (shake : Shake) (seed : List UInt8) (nonce : Nat) :
    (∀ (stream : Nat → UInt8) (rate : Nat) (sizes : List Nat), 0 < rate →
      let outputs := WipingReader.reads stream rate (.new rate) sizes
      outputs.map List.length = sizes ∧ outputs.flatten = read stream 0 sizes.sum) ∧
    (∀ words, let values := uniformValues (shake.shake128 (seed ++ nonceBytes nonce)) 0 words
      N ≤ values.length → Returns (polyUniform shake · seed nonce) (ofCoeffs (values.take N))) ∧
    (∀ bytes, let values := etaValues (shake.shake256 (seed ++ nonceBytes nonce)) 0 bytes
      N ≤ values.length → Returns (polyUniformEta shake · seed nonce) (ofCoeffs (values.take N))) ∧
    (∀ fuel, bufferedChallenge shake fuel seed = polyChallenge shake fuel seed) ∧
    ∀ places, Supplies (shake.shake256 seed) places →
      ∃ c, Returns (bufferedChallenge shake · seed) c ∧ IsChallenge c := by
  refine ⟨fun _ _ sizes positive => WipingReader.at_new.reads positive sizes,
    fun _ enough => ?_, fun _ enough => ?_,
    fun fuel => bufferedChallenge_eq shake fuel seed, fun _ supplies => supplies.returns⟩
  · have first (buf : List UInt8) (whole : buf.length % 3 = 0) :=
      (draws_uniform _).first (p := 280) ⟨whole, (rfl : (buf, 5 * SHAKE128_RATE).2 = _)⟩ enough
    rw [← rejUniform_read] at first
    exact first _ (by rw [length_read]; rfl)
  · have first := (draws_eta _).first (p := SHAKE256_RATE) rfl enough
    rw [← rejEta_read] at first
    exact first

/-- The samplers reject everything before position 300 and nothing behind it. -/
def exampleStream (pos : Nat) : UInt8 := if pos < 300 then 0xff else UInt8.ofNat (pos % 64)

/-- The first buffers do not hold enough accepted values, so every sampler reads
on. -/
theorem samplers_refill :
    let shake : Shake := ⟨fun _ => exampleStream, fun _ => exampleStream⟩
    (WipingReader.reads UInt8.ofNat 2 (WipingReader.new 2) [3, 1]).flatten = [0, 1, 2, 3] ∧
    ((uniformValues exampleStream 0 280).length = 180 ∧
      Returns (polyUniform shake · [] 0)
        (ofCoeffs ((uniformValues exampleStream 0 356).take N))) ∧
    ((etaValues exampleStream 0 SHAKE256_RATE).length = 0 ∧
      Returns (polyUniformEta shake · [] 0) (ofCoeffs ((etaValues exampleStream 0 440).take N))) ∧
    ∃ c, Returns (bufferedChallenge shake · []) c ∧ IsChallenge c := by
  intro shake
  obtain ⟨reader, uniform, eta, -, challenge⟩ := samplers_independent_of_buffering shake [] 0
  refine ⟨(reader UInt8.ofNat 2 [3, 1] (by decide)).2,
    ⟨by decide +kernel, uniform 356 (by decide +kernel)⟩,
    ⟨by decide +kernel, eta 440 (by decide +kernel)⟩, ?_⟩
  refine challenge (· + 300)
    ⟨by decide, fun _ _ less => Nat.add_lt_add_right less 300, fun i started _ => ?_⟩
  have large : 196 ≤ i := started
  change (exampleStream (i + 300)).toNat ≤ i
  rw [exampleStream, if_neg (by omega), UInt8.toNat_ofNat']
  omega

end ParallaX.MlDsa
