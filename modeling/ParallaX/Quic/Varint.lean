import Mathlib.Tactic.Ring

/-!
# QUIC variable-length integers

The two most significant bits of the first byte select a width of one, two,
four or eight bytes; the remaining bits carry the value in big-endian order.
A `u64` is a `Nat` here. Every value below `2 ^ 62` is representable, and the
encoder is only meaningful for those.
-/

namespace ParallaX.Quic.Varint

open List

def MAX : Nat := 2 ^ 62 - 1

def size (value : Nat) : Nat :=
  if value < 0x40 then 1
  else if value < 0x4000 then 2
  else if value < 0x40000000 then 4
  else 8

/-- The `width` low-order bytes of `value`, most significant first. -/
def toBeBytes : Nat → Nat → List UInt8
  | 0, _ => []
  | width + 1, value => UInt8.ofNat (value / 256 ^ width) :: toBeBytes width value

def ofBeBytes (start : Nat) (bytes : List UInt8) : Nat :=
  bytes.foldl (fun value byte => (value <<< 8) ||| byte.toNat) start

def encode (value : Nat) : List UInt8 :=
  if value < 0x40 then [UInt8.ofNat value]
  else if value < 0x4000 then toBeBytes 2 (value ||| 0x4000)
  else if value < 0x40000000 then toBeBytes 4 (value ||| 0x80000000)
  else toBeBytes 8 (value ||| 0xc000000000000000)

/-- Decode one varint from the front of `buf`, with the number of bytes it
occupies. Non-minimal encodings are accepted. -/
def decode (buf : List UInt8) : Option (Nat × Nat) :=
  match buf with
  | [] => none
  | first :: tail =>
    let len := 1 <<< (first.toNat >>> 6)
    if buf.length < len then none
    else some (ofBeBytes (first.toNat &&& 0x3f) (tail.take (len - 1)), len)

@[simp]
theorem length_toBeBytes (width value : Nat) : (toBeBytes width value).length = width := by
  induction width with
  | zero => rfl
  | succ _ ih => simp [toBeBytes, ih]

@[simp]
theorem length_encode (value : Nat) : (encode value).length = size value := by
  unfold encode size
  split_ifs <;> simp

private theorem shiftLeft_or_byte (value : Nat) (byte : UInt8) :
    (value <<< 8) ||| byte.toNat = value * 256 + byte.toNat := by
  rw [← Nat.shiftLeft_add_eq_or_of_lt byte.toNat_lt, Nat.shiftLeft_eq]

theorem ofBeBytes_toBeBytes (width start value : Nat) :
    ofBeBytes start (toBeBytes width value) = start * 256 ^ width + value % 256 ^ width := by
  induction width generalizing start with
  | zero => simp [toBeBytes, ofBeBytes, Nat.mod_one]
  | succ width ih =>
    have headByte : (UInt8.ofNat (value / 256 ^ width)).toNat = value / 256 ^ width % 256 := by
      simp [UInt8.toNat_ofNat']
    have unfolded :
        ofBeBytes start (toBeBytes (width + 1) value) =
          ofBeBytes (start * 256 + value / 256 ^ width % 256) (toBeBytes width value) := by
      simp [toBeBytes, ofBeBytes, shiftLeft_or_byte, headByte]
    have splitRemainder :
        value % 256 ^ (width + 1) =
          value / 256 ^ width % 256 * 256 ^ width + value % 256 ^ width := by
      rw [pow_succ, Nat.mod_mul, add_comm, Nat.mul_comm]
    rw [unfolded, ih, splitRemainder]
    ring

variable {value : Nat}

/-- A tagged big-endian field: `tag` occupies the two top bits of a field of
`width + 1` bytes and `value` the rest. -/
private theorem decode_tagged (width tag : Nat) (suffix : List UInt8)
    (valueBound : value < 64 * 256 ^ width) (tagBound : tag < 4)
    (widthOfTag : 2 ^ tag = width + 1) :
    decode (toBeBytes (width + 1) (value + tag * 64 * 256 ^ width) ++ suffix) =
      some (value, width + 1) := by
  have powerPositive : 0 < 256 ^ width := Nat.pow_pos (by decide)
  have quotientBound := (Nat.div_lt_iff_lt_mul powerPositive).mpr valueBound
  have topQuotient := Nat.add_mul_div_right value (tag * 64) powerPositive
  have firstByte :
      (UInt8.ofNat ((value + tag * 64 * 256 ^ width) / 256 ^ width)).toNat =
        value / 256 ^ width + tag * 64 := by
    rw [topQuotient, UInt8.toNat_ofNat', Nat.mod_eq_of_lt (by omega)]
  have shifted : (value / 256 ^ width + tag * 64) >>> 6 = tag := by
    rw [Nat.shiftRight_eq_div_pow, Nat.add_mul_div_right _ tag (by decide),
      Nat.div_eq_of_lt quotientBound, Nat.zero_add]
  have masked : (value / 256 ^ width + tag * 64) &&& 0x3f = value / 256 ^ width := by
    rw [show (0x3f : Nat) = 2 ^ 6 - 1 by decide,
      Nat.and_two_pow_sub_one_eq_mod, Nat.add_mul_mod_self_right,
      Nat.mod_eq_of_lt quotientBound]
  have remainder := Nat.add_mul_mod_self_right value (tag * 64) (256 ^ width)
  have widthValue : 1 <<< tag = width + 1 := by rw [Nat.one_shiftLeft, widthOfTag]
  simp only [toBeBytes, cons_append, decode, firstByte, shifted,
    masked, widthValue, length_cons, length_append,
    length_toBeBytes, Nat.add_sub_cancel]
  rw [if_neg (by omega), take_left' (length_toBeBytes width _),
    ofBeBytes_toBeBytes, remainder, Nat.mul_comm, Nat.div_add_mod]

private theorem or_tag (bound tag : Nat) (valueBound : value < 2 ^ bound) :
    value ||| (tag * 2 ^ bound) = value + tag * 2 ^ bound := by
  rw [Nat.or_comm, mul_comm, ← Nat.two_pow_add_eq_or_of_lt valueBound, add_comm]

/-- Decoding undoes encoding and leaves whatever follows untouched. -/
theorem decode_encode_append (representable : value < 2 ^ 62) (suffix : List UInt8) :
    decode (encode value ++ suffix) = some (value, size value) := by
  unfold encode size
  split_ifs with oneByte twoBytes fourBytes
  · simpa [toBeBytes] using
      decode_tagged 0 0 suffix (by simpa using oneByte) (by decide) (by decide)
  · have tagged : value ||| 0x4000 = value + 1 * 64 * 256 ^ 1 := or_tag 14 1 twoBytes
    rw [tagged]
    exact decode_tagged _ _ suffix (by omega) (by decide) (by decide)
  · have tagged : value ||| 0x80000000 = value + 2 * 64 * 256 ^ 3 := or_tag 30 2 fourBytes
    rw [tagged]
    exact decode_tagged _ _ suffix (by omega) (by decide) (by decide)
  · have tagged : value ||| 0xc000000000000000 = value + 3 * 64 * 256 ^ 7 :=
      or_tag 62 3 representable
    rw [tagged]
    exact decode_tagged _ _ suffix (by omega) (by decide) (by decide)

/-- A varint is read from the bytes it occupies alone. -/
theorem decode_take_append {buf : List UInt8} {n : Nat}
    (decoded : decode buf = some (value, n)) (suffix : List UInt8) :
    0 < n ∧ n ≤ buf.length ∧ decode (buf.take n ++ suffix) = some (value, n) := by
  cases buf with
  | nil => cases decoded
  | cons first tail =>
    unfold decode at decoded
    dsimp only at decoded
    split at decoded
    next => cases decoded
    next long =>
      cases decoded
      have positive : 0 < 1 <<< (first.toNat >>> 6) := by
        rw [Nat.one_shiftLeft]
        exact Nat.two_pow_pos _
      refine ⟨positive, not_lt.mp long, ?_⟩
      obtain ⟨width, eq⟩ := Nat.exists_eq_add_one_of_ne_zero positive.ne'
      rw [length_cons, eq, Nat.add_lt_add_iff_right, Nat.not_lt] at long
      have taken : (tail.take width).length = width := by simp [long]
      simp only [eq, take_succ_cons, cons_append, decode,
        length_cons, length_append, taken, Nat.add_sub_cancel,
        take_left' taken]
      rw [if_neg (by omega)]

theorem encode_of_lt (small : value < 0x40) : encode value = [UInt8.ofNat value] := by
  simp [encode, small]

end ParallaX.Quic.Varint
