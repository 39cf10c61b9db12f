import ParallaX.Quic.InFlight

/-!
# ACK frames

What the encoder subtracts without a check is what the decoder checks: the
ranges descend with at least one number between two of them.
-/

namespace ParallaX.Quic

open Codec List Reader ReceivedPackets

/-! ## Encoding -/

/-- A subtraction of unsigned integers that panics below zero. -/
def subtract (left right : Nat) : Option Nat :=
  if right ≤ left then some (left - right) else none

/-- The range fields with the subtractions of the source. -/
def encodeAckRangesChecked : Nat → List (Nat × Nat) → Option (List UInt8)
  | _, [] => some []
  | prevSmallest, (low, high) :: more => do
    let above ← subtract prevSmallest high
    let gap ← subtract above 2
    let len ← subtract high low
    let rest ← encodeAckRangesChecked low more
    pure (Varint.encode gap ++ (Varint.encode len ++ rest))

/-- `encodeAck`, with `none` where a subtraction of the source underflows. -/
def encodeAckChecked (ack : Ack) : Option (List UInt8) :=
  match ack.ranges with
  | [] => some []
  | (firstLow, firstHigh) :: more => do
    let firstRange ← subtract firstHigh firstLow
    let rest ← encodeAckRangesChecked firstLow more
    pure (Varint.encode (if ack.ecn.isSome then FT_ACK_ECN else FT_ACK) ++
      (Varint.encode firstHigh ++
        (Varint.encode ack.delay ++
          (Varint.encode (ack.ranges.length - 1) ++
            (Varint.encode firstRange ++ (rest ++ encodeEcn ack.ecn))))))

/-- The ranges lie below `smallest`, each at least two numbers below the one
before it. -/
def Descends : Nat → List (Nat × Nat) → Prop
  | _, [] => True
  | smallest, (low, high) :: more => low ≤ high ∧ high + 2 ≤ smallest ∧ Descends low more

theorem subtract_of_le {left right : Nat} (le : right ≤ left) :
    subtract left right = some (left - right) :=
  if_pos le

variable {smallest : Nat} {ranges : List (Nat × Nat)}
  {cursor later : Cursor UInt8}

theorem encodeAckRangesChecked_eq (descends : Descends smallest ranges) :
    encodeAckRangesChecked smallest ranges = some (encodeAckRanges smallest ranges) := by
  induction ranges generalizing smallest with
  | nil => rfl
  | cons range _ ih =>
    obtain ⟨_, high⟩ := range
    obtain ⟨ordered, _, rest⟩ := descends
    simp [encodeAckRangesChecked, encodeAckRanges, ih rest,
      subtract_of_le ordered, subtract_of_le (show high ≤ smallest by omega),
      subtract_of_le (show 2 ≤ smallest - high by omega)]

theorem descends_of_isChain {low high : Nat} {more : List (Nat × Nat)}
    (ordered : ∀ range ∈ (low, high) :: more, range.1 ≤ range.2)
    (chain : ((low, high) :: more).IsChain fun upper lower =>
      lower.2 + 1 < upper.1) : Descends low more := by
  induction more generalizing low high with
  | nil => trivial
  | cons next _ ih =>
    obtain ⟨gap, rest⟩ := isChain_cons_cons.mp chain
    exact ⟨ordered next (by simp), gap, ih
      (fun range member => ordered range (mem_cons_of_mem _ member))
      rest⟩

theorem Ack.WellFormed.encodeAckChecked_eq {ack : Ack} (wf : ack.WellFormed) :
    encodeAckChecked ack = some (encodeAck ack) := by
  unfold encodeAckChecked encodeAck
  cases shape : ack.ranges with
  | nil => rfl
  | cons first =>
    obtain ⟨low, high⟩ := first
    have ordered := wf.low_le_high
    have chain := wf.descending
    rw [shape] at ordered chain
    simp [subtract_of_le (ordered (low, high) (by simp)),
      encodeAckRangesChecked_eq (descends_of_isChain ordered chain)]

/-! ## Decoding -/

theorem pos_lt_of_readVarint {value : Nat} (run : readVarint cursor = (.ok value, later)) :
    cursor.pos < later.pos := by
  unfold readVarint at run
  split at run
  · cases run
  · unfold Varint.decode at run
    cases bytes : cursor.rest with
    | nil => simp [bytes] at run
    | cons first =>
      have width : 0 < 1 <<< (first.toNat >>> 6) := by
        rw [Nat.one_shiftLeft]
        exact Nat.two_pow_pos _
      simp only [bytes] at run
      split_ifs at run
      · cases run
      · rw [← (Prod.mk.inj run).2, Cursor.advance_pos]
        omega

theorem parseAckRanges_ok {count : Nat}
    (run : parseAckRanges count smallest cursor = (.ok ranges, later)) :
    Descends smallest ranges ∧ cursor.pos + 2 * ranges.length ≤ later.pos := by
  induction count generalizing smallest cursor ranges later with
  | zero =>
    obtain ⟨same, rfl⟩ := Prod.mk.inj run
    cases same
    exact ⟨trivial, le_rfl⟩
  | succ _ ih =>
    obtain ⟨_, _, gapRun, run⟩ := exists_of_bind_ok run
    obtain ⟨_, _, lenRun, run⟩ := exists_of_bind_ok run
    have gapByte := pos_lt_of_readVarint gapRun
    have lenByte := pos_lt_of_readVarint lenRun
    split_ifs at run with gapTooLarge lenTooLarge
    · cases run
    · cases run
    · obtain ⟨_, _, moreRun, run⟩ := exists_of_bind_ok run
      obtain ⟨descends, _⟩ := ih moreRun
      obtain ⟨same, rfl⟩ := Prod.mk.inj run
      cases same
      refine ⟨⟨by omega, by omega, descends⟩, ?_⟩
      rw [length_cons]
      omega

variable {hasEcn : Bool}

theorem parseEcn_ok {ecn : Option EcnCounts} (run : parseEcn hasEcn cursor = (.ok ecn, later)) :
    cursor.pos ≤ later.pos := by
  cases hasEcn with
  | false => rw [← (Prod.mk.inj run).2]
  | true =>
    obtain ⟨_, _, firstRun, run⟩ := exists_of_bind_ok run
    obtain ⟨_, _, secondRun, run⟩ := exists_of_bind_ok run
    obtain ⟨_, _, thirdRun, run⟩ := exists_of_bind_ok run
    have firstByte := pos_lt_of_readVarint firstRun
    have secondByte := pos_lt_of_readVarint secondRun
    have thirdByte := pos_lt_of_readVarint thirdRun
    rw [← (Prod.mk.inj run).2]
    omega

/-- An accepted ACK has the range of its largest number first and descends from
there, and every range took two bytes. -/
theorem parseAck_ok {frame : Frame} (run : parseAck hasEcn cursor = (.ok frame, later)) :
    ∃ ack low more, frame = .ack ack ∧ ack.ranges = (low, ack.largest) :: more ∧ low ≤ ack.largest ∧
      Descends low more ∧ cursor.pos + 2 * ack.ranges.length ≤ later.pos := by
  obtain ⟨_, _, largestRun, run⟩ := exists_of_bind_ok run
  obtain ⟨_, _, delayRun, run⟩ := exists_of_bind_ok run
  obtain ⟨_, _, countRun, run⟩ := exists_of_bind_ok run
  obtain ⟨_, _, firstRun, run⟩ := exists_of_bind_ok run
  have largestByte := pos_lt_of_readVarint largestRun
  have delayByte := pos_lt_of_readVarint delayRun
  have countByte := pos_lt_of_readVarint countRun
  have firstByte := pos_lt_of_readVarint firstRun
  split_ifs at run with tooLarge
  · cases run
  · obtain ⟨more, _, moreRun, run⟩ := exists_of_bind_ok run
    obtain ⟨_, _, ecnRun, run⟩ := exists_of_bind_ok run
    obtain ⟨descends, _⟩ := parseAckRanges_ok moreRun
    have ecnBytes := parseEcn_ok ecnRun
    obtain ⟨same, rfl⟩ := Prod.mk.inj run
    cases same
    refine ⟨_, _, more, rfl, rfl, Nat.sub_le _ _, descends, ?_⟩
    simp only [length_cons]
    omega

/-! ## Acknowledged numbers -/

theorem Descends.lt (descends : Descends smallest ranges) {range : Nat × Nat}
    (member : range ∈ ranges) : range.2 < smallest := by
  induction ranges generalizing smallest with
  | nil => cases member
  | cons _ _ ih =>
    obtain ⟨_, _, rest⟩ := descends
    rcases mem_cons.mp member with rfl | later
    · omega
    · have bound := ih rest later
      omega

theorem SentPackets.mem_onAck {sent : SentPackets} {largest pn : Nat}
    (member : pn ∈ (sent.onAck largest ranges).2.map Prod.fst) :
    ∃ range ∈ ranges, pn ≤ range.2 := by
  rw [onAck, mem_removeAll] at member
  obtain ⟨range, inRanges, inside⟩ := mem_flatMap.mp member.1
  have bounds := (mem_filter.mp inside).2
  simp only [Bool.and_eq_true, decide_eq_true_eq] at bounds
  exact ⟨range, inRanges, bounds.2⟩

/-- ACK frames in both directions: the ACK of a record of packet numbers is
encoded without underflow and decoded back, and an ACK that the decoder accepts
is well formed, so that one whose largest number was sent touches numbers that
were sent and no others. -/
theorem ack_frames_wellFormed :
    (∀ packets delay ack, (∀ pn ∈ packets, pn < 2 ^ 62) → delay < 2 ^ 62 →
      (ReceivedPackets.new.insertAll packets).toAck delay = some ack →
        encodeAckChecked ack = some (encodeAck ack) ∧
          (Iter.new (encodeAck ack)).Yields [.ack ack]) ∧
      ∀ hasEcn cursor frame later, parseAck hasEcn cursor = (.ok frame, later) →
          ∃ ack low more, frame = .ack ack ∧
            ack.ranges = (low, ack.largest) :: more ∧ low ≤ ack.largest ∧
            Descends low more ∧
            2 * ack.ranges.length ≤ later.pos - cursor.pos ∧
            ∀ (sent : SentPackets) (next : Nat), ack.largest < next →
              (∀ entry ∈ (sent.onAck ack.largest ack.ranges).2, entry.1 < next) ∧
              ∀ pn, next ≤ pn →
                (sent.onAck ack.largest ack.ranges).1.packets[pn]? = sent.packets[pn]? := by
  refine ⟨?_, ?_⟩
  · intro packets _ ack bounded delayLt built
    have wellFormed := toAck_wellFormed
      (records_new.insertAll packets).invariant
      (fun _ member => insertAll_lt bounded member) delayLt
      built
    refine ⟨wellFormed.encodeAckChecked_eq, ?_⟩
    have yields := iter_yields_encodeFrames [.ack ack]
      (by simpa [Frame.WellFormed] using wellFormed) (isChain_singleton _)
    simpa [encodeFrames, Frame.encode] using yields
  · intro _ _ _ later run
    obtain ⟨ack, low, more, isAck, shape, ordered, descends, _⟩ := parseAck_ok run
    refine ⟨ack, low, more, isAck, shape, ordered, descends, by omega, ?_⟩
    intro sent next below
    have bounded pn (member : pn ∈ (sent.onAck ack.largest ack.ranges).2.map Prod.fst) :
        pn < next := by
      obtain ⟨_, inRanges, upper⟩ := SentPackets.mem_onAck member
      rw [shape] at inRanges
      rcases mem_cons.mp inRanges with rfl | later
      · exact Nat.lt_of_le_of_lt upper below
      · have bound := descends.lt later
        omega
    refine ⟨fun entry member => bounded _ (mem_map_of_mem member), ?_⟩
    intro pn unsent
    rw [(SentPackets.removes_onAck sent ack.largest ack.ranges).lookup,
      if_neg fun removed => Nat.not_lt.mpr unsent (bounded pn removed)]

/-- Two ranges, encoded and decoded back. -/
theorem ack_frames_wellFormed_gap :
    (Iter.new (encodeAck ⟨9, 3, [(9, 9), (4, 5)], none⟩)).Yields
      [.ack ⟨9, 3, [(9, 9), (4, 5)], none⟩] :=
  (ack_frames_wellFormed.1 [4, 9, 5] 3 _ (by decide) (by decide) rfl).2

/-- A number of 63 bits, which no packet has, comes back as another one. -/
theorem large_number_not_restored :
    (ReceivedPackets.new.insertAll [2 ^ 62]).toAck 0 = some ⟨2 ^ 62, 0, [(2 ^ 62, 2 ^ 62)], none⟩ ∧
      (Iter.new (encodeAck ⟨2 ^ 62, 0, [(2 ^ 62, 2 ^ 62)], none⟩)).next.map
        Prod.fst = some (.ok (.ack ⟨0, 0, [(0, 0)], none⟩)) := by
  decide

end ParallaX.Quic
