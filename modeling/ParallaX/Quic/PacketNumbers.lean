import Mathlib.Tactic.IntervalCases
import ParallaX.Quic.Packet

/-!
# Truncated packet numbers

The sender writes the low bytes of a packet number, the receiver completes them
from the largest number it has seen. The machine arithmetic of the receiver is
modelled with its overflow checks and compared with the number-theoretic form
that the connection uses.
-/

namespace ParallaX.Quic

open Option UInt64

/-- The four bytes of the buffer and how many of them are sent. -/
def encodePacketNumberBytes (fullPn : UInt64) (largestAcked : Option UInt64) : List UInt8 × Nat :=
  let len := encodePacketNumber fullPn.toNat (largestAcked.map UInt64.toNat)
  (Varint.toBeBytes len fullPn.toNat ++ List.replicate (4 - len) 0, len)

def checkedAdd (left right : UInt64) : Option UInt64 :=
  if left.toNat + right.toNat < 2 ^ 64 then some (left + right) else none

def checkedSub (left right : UInt64) : Option UInt64 :=
  if right.toNat ≤ left.toNat then some (left - right) else none

def saturatingAdd (left right : UInt64) : UInt64 :=
  if left.toNat + right.toNat < 2 ^ 64 then left + right
  else UInt64.ofNat (2 ^ 64 - 1)

def readPn (bytes : List UInt8) : UInt64 := UInt64.ofNat (Varint.ofBeBytes 0 bytes)

/-- `decode_packet_number`, or nothing where its arithmetic overflows. -/
def decodePacketNumberChecked (largestPn truncated : UInt64) (pnLen : Nat) : Option UInt64 := do
  let pnLen := min (max pnLen 1) 4
  let pnNbits := pnLen * 8
  let expected := largestPn + 1
  let pnWin : UInt64 := UInt64.ofNat (2 ^ pnNbits)
  let pnHwin := pnWin / 2
  let pnMask ← checkedSub pnWin 1
  let candidate := (expected &&& ~~~pnMask) ||| truncated
  let ceiling ← checkedSub (UInt64.ofNat (2 ^ 62)) pnWin
  if saturatingAdd candidate pnHwin ≤ expected ∧ candidate < ceiling then
    checkedAdd candidate pnWin
  else if saturatingAdd expected pnHwin < candidate ∧ pnWin ≤ candidate then
    checkedSub candidate pnWin
  else
    some candidate

/-- The truncated number is completed to the one number within half a window of
the expected one. -/
theorem decodePacketNumber_near
    {largestPn fullPn pnLen : Nat} (pos : 1 ≤ pnLen) (atMost : pnLen ≤ 4)
    (inRange : fullPn < 2 ^ 62) (notBehind : fullPn < largestPn + 1 + 2 ^ (8 * pnLen - 1))
    (notAhead : largestPn + 1 < fullPn + 2 ^ (8 * pnLen - 1)) :
    decodePacketNumber largestPn (fullPn % 2 ^ (8 * pnLen)) pnLen = fullPn := by
  interval_cases pnLen
  all_goals
    simp only [decodePacketNumber]
    norm_num at notBehind notAhead ⊢
    split_ifs <;> omega

theorem encodePacketNumber_bounds (fullPn : Nat) (largest : Option Nat) :
    1 ≤ encodePacketNumber fullPn largest ∧ encodePacketNumber fullPn largest ≤ 4 := by
  simp only [encodePacketNumber]
  split_ifs <;> decide

/-- The length leaves more than half of its window for the numbers that are not
acknowledged. -/
theorem unacked_le_half_window {fullPn : Nat} {largest : Option Nat}
    (few : largest.elim (fullPn + 1) (fullPn - ·) ≤ 2 ^ 31) :
    largest.elim (fullPn + 1) (fullPn - ·) ≤ 2 ^ (8 * encodePacketNumber fullPn largest - 1) := by
  simp only [encodePacketNumber]
  split_ifs <;> norm_num <;> omega

/-! ## The machine arithmetic -/

theorem and_clear_low_bits {value width : Nat} (small : value < 2 ^ 64) (narrow : width ≤ 64) :
    value &&& (2 ^ 64 - 1 - (2 ^ width - 1)) = 2 ^ width * (value / 2 ^ width) := by
  have maskSmall : 2 ^ width - 1 < 2 ^ 64 := by
    have monotone := Nat.pow_le_pow_right (show 0 < 2 by decide) narrow
    omega
  have complement : 2 ^ 64 - 1 - (2 ^ width - 1) = 2 ^ 64 - ((2 ^ width - 1) + 1) := by omega
  apply Nat.eq_of_testBit_eq
  intro bit
  rw [complement, Nat.testBit_and, Nat.testBit_two_pow_sub_succ maskSmall,
    Nat.testBit_two_pow_sub_one, Nat.testBit_two_pow_mul,
    Nat.testBit_div_two_pow]
  by_cases high : width ≤ bit
  · have same : bit - width + width = bit := by omega
    by_cases inside : bit < 64
    · simp [high, inside, Nat.not_lt.mpr high]
    · have zero : value.testBit bit = false :=
        Nat.testBit_lt_two_pow (lt_of_lt_of_le small (Nat.pow_le_pow_right (by decide) (by omega)))
      simp [high, inside, same, zero]
  · have low := Nat.lt_of_not_le high
    simp [high, low]

variable {left right : UInt64}

theorem toNat_saturatingAdd_of_lt (fits : left.toNat + right.toNat < 2 ^ 64) :
    (saturatingAdd left right).toNat = left.toNat + right.toNat := by
  rw [saturatingAdd, if_pos fits, UInt64.toNat_add, Nat.mod_eq_of_lt fits]

theorem checkedAdd_of_lt (fits : left.toNat + right.toNat < 2 ^ 64) :
    (checkedAdd left right).map UInt64.toNat = some (left.toNat + right.toNat) := by
  rw [checkedAdd, if_pos fits, map_some, UInt64.toNat_add, Nat.mod_eq_of_lt fits]

theorem checkedSub_of_le (ordered : right.toNat ≤ left.toNat) :
    checkedSub left right = some (left - right) ∧ (left - right).toNat = left.toNat - right.toNat :=
  ⟨if_pos ordered, UInt64.toNat_sub_of_le _ _ (le_iff_toNat_le.mpr ordered)⟩

/-- Where the expected number is far from the end of the 64-bit range, nothing
overflows and the code computes the number-theoretic form. -/
theorem decodePacketNumberChecked_eq {largestPn truncated : UInt64} {pnLen : Nat}
    (pos : 1 ≤ pnLen) (atMost : pnLen ≤ 4) (roomy : largestPn.toNat + 1 < 2 ^ 63)
    (short : truncated.toNat < 2 ^ (8 * pnLen)) :
    (decodePacketNumberChecked largestPn truncated pnLen).map UInt64.toNat =
      some (decodePacketNumber largestPn.toNat truncated.toNat pnLen) := by
  have clamped : min (max pnLen 1) 4 = pnLen := by omega
  have width : pnLen * 8 = 8 * pnLen := Nat.mul_comm _ _
  have windowLe : 2 ^ (8 * pnLen) ≤ 2 ^ 32 := Nat.pow_le_pow_right (by decide) (by omega)
  have windowGe : 2 ≤ 2 ^ (8 * pnLen) :=
    le_trans (by decide) (Nat.pow_le_pow_right (show 0 < 2 by decide) (show 8 ≤ 8 * pnLen by omega))
  have wrapped : (largestPn.toNat + 1) % 2 ^ 64 = largestPn.toNat + 1 := Nat.mod_eq_of_lt (by omega)
  -- the values of the intermediate results as numbers
  obtain ⟨span, spanIs⟩ : ∃ span, UInt64.ofNat (2 ^ (8 * pnLen)) = span := ⟨_, rfl⟩
  have window : span.toNat = 2 ^ (8 * pnLen) := by
    rw [← spanIs, toNat_ofNat', Nat.mod_eq_of_lt (by omega)]
  have expected : (largestPn + 1).toNat = largestPn.toNat + 1 := by
    rw [UInt64.toNat_add, toNat_one]
    exact wrapped
  have half : (span / 2).toNat = 2 ^ (8 * pnLen) / 2 := by
    rw [UInt64.toNat_div, window]
    rfl
  obtain ⟨maskDefined, mask⟩ := checkedSub_of_le
    (show (1 : UInt64).toNat ≤ span.toNat by rw [window]; exact Nat.one_le_of_lt windowGe)
  obtain ⟨ceilingDefined, ceiling⟩ := checkedSub_of_le
    (show span.toNat ≤ (UInt64.ofNat (2 ^ 62)).toNat by
      rw [window]; exact le_trans windowLe (by decide))
  obtain ⟨near, nearIs⟩ : ∃ near, ((largestPn + 1) &&& ~~~(span - 1)) ||| truncated = near :=
    ⟨_, rfl⟩
  have candidate : near.toNat =
      (largestPn.toNat + 1) / 2 ^ (8 * pnLen) * 2 ^ (8 * pnLen) + truncated.toNat := by
    rw [← nearIs, UInt64.toNat_or, UInt64.toNat_and, UInt64.toNat_not, mask, expected, window,
      toNat_one, show UInt64.size = 2 ^ 64 from rfl, and_clear_low_bits (by omega) (by omega),
      ← Nat.two_pow_add_eq_or_of_lt short, Nat.mul_comm]
  have below := Nat.div_mul_le_self (largestPn.toNat + 1) (2 ^ (8 * pnLen))
  have nearHalf := toNat_saturatingAdd_of_lt
    (show near.toNat + (span / 2).toNat < 2 ^ 64 by rw [candidate, half]; omega)
  have expectedHalf := toNat_saturatingAdd_of_lt
    (show (largestPn + 1).toNat + (span / 2).toNat < 2 ^ 64 by rw [expected, half]; omega)
  have top : (UInt64.ofNat (2 ^ 62)).toNat = 2 ^ 62 := rfl
  simp only [decodePacketNumberChecked, decodePacketNumber, clamped, width, spanIs,
    maskDefined, ceilingDefined, bind, Option.bind, wrapped, nearIs,
    UInt64.le_iff_toNat_le, UInt64.lt_iff_toNat_lt, nearHalf, expectedHalf,
    candidate, expected, half, ceiling, window, top]
  split_ifs with tooLow tooHigh
  · rw [checkedAdd_of_lt (by rw [candidate, window]; omega), candidate, window]
  · obtain ⟨defined, value⟩ := checkedSub_of_le
      (show span.toNat ≤ near.toNat by rw [candidate, window]; exact tooHigh.2)
    rw [defined, map_some, value, candidate, window]
  · rw [map_some, candidate]

/-! ## Round trip -/

theorem toNat_readPn_encodePacketNumberBytes (fullPn : UInt64) (largest : Option UInt64) :
    (readPn ((encodePacketNumberBytes fullPn largest).1.take
      (encodePacketNumberBytes fullPn largest).2)).toNat =
      fullPn.toNat % 2 ^ (8 * (encodePacketNumberBytes fullPn largest).2) := by
  have base width : 256 ^ width = 2 ^ (8 * width) := by rw [Nat.pow_mul]
  have fits width : fullPn.toNat % 2 ^ (8 * width) < 2 ^ 64 := by
    exact lt_of_le_of_lt (Nat.mod_le _ _) fullPn.toNat_lt
  simp only [encodePacketNumberBytes, readPn]
  rw [List.take_left' (Varint.length_toBeBytes _ _), Varint.ofBeBytes_toBeBytes,
    Nat.zero_mul, Nat.zero_add, base, toNat_ofNat',
    Nat.mod_eq_of_lt (fits _)]

/-- A receiver that has seen what the sender knows to be acknowledged, and
nothing half a window ahead, recovers the full packet number, and its arithmetic
does not overflow. -/
theorem decode_encode_packet_number (fullPn largestPn : UInt64) (largestAcked : Option UInt64)
    (inRange : fullPn.toNat < 2 ^ 62)
    (seen : ∀ acked, largestAcked = some acked → acked ≤ largestPn)
    (few : (match largestAcked with
      | some acked => fullPn.toNat - acked.toNat
      | none => fullPn.toNat + 1) ≤ 2 ^ 31)
    (notAhead : largestPn.toNat + 1 < fullPn.toNat +
      2 ^ (8 * (encodePacketNumberBytes fullPn largestAcked).2 - 1)) :
    decodePacketNumberChecked largestPn
        (readPn ((encodePacketNumberBytes fullPn largestAcked).1.take
          (encodePacketNumberBytes fullPn largestAcked).2))
        (encodePacketNumberBytes fullPn largestAcked).2 = some fullPn := by
  have bounds := encodePacketNumber_bounds fullPn.toNat (largestAcked.map UInt64.toNat)
  have unacked : (largestAcked.map UInt64.toNat).elim (fullPn.toNat + 1) (fullPn.toNat - ·) ≤
      2 ^ (8 * encodePacketNumber fullPn.toNat (largestAcked.map UInt64.toNat) - 1) := by
    refine unacked_le_half_window ?_
    cases largestAcked with
    | none => exact few
    | some => exact few
  have truncated := toNat_readPn_encodePacketNumberBytes fullPn largestAcked
  change largestPn.toNat + 1 < _ + 2 ^ (8 * encodePacketNumber fullPn.toNat _ - 1) at notAhead
  change _ = fullPn.toNat % 2 ^ (8 * encodePacketNumber fullPn.toNat _) at truncated
  change decodePacketNumberChecked _ _ (encodePacketNumber fullPn.toNat _) = _
  generalize encodePacketNumber fullPn.toNat (largestAcked.map UInt64.toNat) = pnLen at *
  have notBehind : fullPn.toNat < largestPn.toNat + 1 + 2 ^ (8 * pnLen - 1) := by
    cases known : largestAcked with
    | none =>
      rw [known, map_none, elim_none] at unacked
      omega
    | some acked =>
      have order := le_iff_toNat_le.mp (seen acked known)
      rw [known, map_some, elim_some] at unacked
      omega
  have window : 2 ^ (8 * pnLen - 1) ≤ 2 ^ 31 := Nat.pow_le_pow_right (by decide) (by omega)
  have decoded := decodePacketNumberChecked_eq bounds.1 bounds.2
    (show largestPn.toNat + 1 < 2 ^ 63 by omega)
    (truncated.trans_lt (Nat.mod_lt _ (Nat.two_pow_pos _)))
  rw [truncated, decodePacketNumber_near bounds.1 bounds.2 inRange notBehind notAhead] at decoded
  obtain ⟨_, found, same⟩ := map_eq_some_iff.mp decoded
  rw [UInt64.toNat_inj.mp same] at found
  exact found

/-- A packet that arrives behind the two largest ones, at the end of the
range. -/
theorem decode_encode_packet_number_reordered :
    decodePacketNumberChecked (UInt64.ofNat (2 ^ 62 - 1))
        (readPn ((encodePacketNumberBytes (UInt64.ofNat (2 ^ 62 - 3))
          (some (UInt64.ofNat (2 ^ 62 - 5)))).1.take
          (encodePacketNumberBytes (UInt64.ofNat (2 ^ 62 - 3))
            (some (UInt64.ofNat (2 ^ 62 - 5)))).2))
        (encodePacketNumberBytes (UInt64.ofNat (2 ^ 62 - 3)) (some (UInt64.ofNat (2 ^ 62 - 5)))).2 =
      some (UInt64.ofNat (2 ^ 62 - 3)) := by
  refine decode_encode_packet_number _ _ _ (by decide) ?_ (by decide) (by decide)
  intro _ known
  cases known
  decide

end ParallaX.Quic
