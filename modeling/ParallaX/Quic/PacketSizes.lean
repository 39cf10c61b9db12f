import ParallaX.Quic.Transmit

/-!
# The sizes of packets

How long each frame, header and packet is at most. Connection ids have at most
20 bytes, packet numbers at most four, and varints at most eight.
-/

namespace ParallaX.Quic

open List Header

theorem Varint.size_le_eight (value : Nat) : Varint.size value ≤ 8 := by
  unfold Varint.size
  split_ifs <;> decide

theorem Varint.size_le_two {value : Nat} (small : value < 2 ^ 14) : Varint.size value ≤ 2 := by
  unfold Varint.size
  split_ifs <;> omega

theorem encodePacketNumber_le (pn : Nat) (largestAcked : Option Nat) :
    encodePacketNumber pn largestAcked ≤ 4 := by
  unfold encodePacketNumber
  dsimp only
  split_ifs <;> decide

/-! ## Headers -/

namespace Header

def Placed : Header → Prop
  | .long _ _ _ _ _ length _ _ => length = 1200
  | .short _ _ _ _ _ => True

variable (header : Header)

theorem length_encode : header.encode.length = header.pnOffset + header.pnLen := by
  unfold encode pnOffset
  rw [length_append, Varint.length_toBeBytes]

theorem pnLen_withLength (length : Nat) : (header.withLength length).pnLen = header.pnLen := by
  cases header <;> rfl

theorem pnOffset_short (spin keyPhase : Bool) (dcid : ConnectionId) (pn pnLen : Nat) :
    (Header.short spin keyPhase dcid pn pnLen).pnOffset = 1 + dcid.len := by
  simp [pnOffset, encodeToPn, ConnectionId.len, Nat.add_comm]

theorem pnOffset_long (ty : LongType) (version : Nat) (dcid scid : ConnectionId)
    (length pn pnLen : Nat) :
    (Header.long ty version dcid scid [] length pn pnLen).pnOffset =
      7 + dcid.len + scid.len + (if ty = .initial then 1 else 0) + Varint.size length := by
  unfold pnOffset encodeToPn
  by_cases initial : ty = .initial
  · have token : Varint.size 0 = 1 := rfl
    simp only [if_pos initial, length_cons, length_append,
      Varint.length_toBeBytes, Varint.length_encode, length_nil,
      ConnectionId.len, cons_append]
    omega
  · simp only [if_neg initial, length_cons, length_append,
      Varint.length_toBeBytes, Varint.length_encode, length_nil,
      ConnectionId.len, cons_append]
    omega

/-- The Length field of a datagram takes no more room than its
placeholder. -/
theorem pnOffset_withLength_le
    {header : Header} (placed : header.Placed) {length : Nat} (small : length < 2 ^ 14) :
    (header.withLength length).pnOffset ≤ header.pnOffset := by
  cases header with
  | long _ _ _ _ _ placeholder =>
    obtain rfl : placeholder = 1200 := placed
    have room : Varint.size length ≤ Varint.size 1200 := Varint.size_le_two small
    simp only [withLength, pnOffset, encodeToPn, length_cons, length_append, Varint.length_encode]
    omega
  | short => exact le_rfl

end Header

variable {frames : List Frame} {bound : Nat}

theorem len_sealPacket_le {key : PacketKey} {header : Header} (placed : header.Placed)
    (fits : header.pnOffset + header.pnLen + (encodeFrames frames).length + key.tagLen ≤ bound)
    (small : bound < 2 ^ 14) : (sealPacket key header frames).len ≤ bound := by
  have offset :
      (header.withLength (header.pnLen + (encodeFrames frames).length +
        key.tagLen)).pnOffset ≤ header.pnOffset :=
    pnOffset_withLength_le placed (by omega)
  unfold sealPacket Packet.len
  dsimp only
  rw [length_encode, pnLen_withLength]
  omega

/-! ## Frames -/

theorem length_encodeFrames_nil : (encodeFrames []).length = 0 := rfl

theorem length_encodeFrames_cons (frame : Frame) (frames : List Frame) :
    (encodeFrames (frame :: frames)).length =
      frame.encode.length + (encodeFrames frames).length := by
  simp [encodeFrames]

theorem length_encodeFrames_append (left right : List Frame) :
    (encodeFrames (left ++ right)).length =
      (encodeFrames left).length + (encodeFrames right).length := by
  simp [encodeFrames]

theorem length_encodeFrames_le (each : ∀ frame ∈ frames, frame.encode.length ≤ bound) :
    (encodeFrames frames).length ≤ frames.length * bound := by
  induction frames with
  | nil => exact Nat.zero_le _
  | cons frame _ ih =>
    have first := each frame mem_cons_self
    have rest := ih fun other member =>
      each other (mem_cons_of_mem _ member)
    rw [length_encodeFrames_cons, length_cons, Nat.succ_mul]
    omega

namespace Frame

theorem length_encode_padding (count : Nat) : (Frame.padding count).encode.length = count :=
  length_replicate ..

variable (id offset limit : Nat)

theorem length_encode_maxData : (Frame.maxData limit).encode.length ≤ 9 := by
  have value := Varint.size_le_eight limit
  simp only [encode, length_append, Varint.length_encode]
  have type : Varint.size FT_MAX_DATA = 1 := rfl
  omega

theorem length_encode_maxStreams (dir : Dir) (limit : Nat) :
    (Frame.maxStreams dir limit).encode.length ≤ 9 := by
  have value := Varint.size_le_eight limit
  cases dir
  · have type : Varint.size FT_MAX_STREAMS_BIDI = 1 := rfl
    simp only [encode, length_append, Varint.length_encode]
    omega
  · have type : Varint.size FT_MAX_STREAMS_UNI = 1 := rfl
    simp only [encode, length_append, Varint.length_encode]
    omega

theorem length_encode_maxStreamData : (Frame.maxStreamData id limit).encode.length ≤ 17 := by
  have value := Varint.size_le_eight limit
  have stream := Varint.size_le_eight id
  have type : Varint.size FT_MAX_STREAM_DATA = 1 := rfl
  simp only [encode, length_append, Varint.length_encode]
  omega

theorem length_encode_resetStream (errorCode finalSize : Nat) :
    (Frame.resetStream id errorCode finalSize).encode.length ≤ 25 := by
  have stream := Varint.size_le_eight id
  have code := Varint.size_le_eight errorCode
  have size := Varint.size_le_eight finalSize
  have type : Varint.size FT_RESET_STREAM = 1 := rfl
  simp only [encode, length_append, Varint.length_encode]
  omega

theorem length_encode_stopSending (errorCode : Nat) :
    (Frame.stopSending id errorCode).encode.length ≤ 17 := by
  have stream := Varint.size_le_eight id
  have code := Varint.size_le_eight errorCode
  have type : Varint.size FT_STOP_SENDING = 1 := rfl
  simp only [encode, length_append, Varint.length_encode]
  omega

theorem length_encode_crypto (data : List UInt8) :
    (Frame.crypto offset data).encode.length =
      1 + Varint.size offset + Varint.size data.length + data.length := by
  have type : Varint.size FT_CRYPTO = 1 := rfl
  simp only [encode, length_append, Varint.length_encode]
  omega

theorem length_encode_stream (fin : Bool) (data : List UInt8) :
    (Frame.stream id offset fin data).encode.length ≤
      1 + Varint.size id + Varint.size offset + Varint.size data.length + data.length := by
  have type : Varint.size (streamType offset fin) = 1 := by
    unfold streamType
    split_ifs <;> rfl
  by_cases zero : offset = 0
  · simp only [encode, zero, ne_eq, not_true_eq_false, if_false,
      length_append, length_nil, Varint.length_encode]
    rw [zero] at type
    omega
  · simp only [encode, if_pos zero, ne_eq, length_append, Varint.length_encode]
    omega

theorem length_encodeAckRanges (smallest : Nat) (ranges : List (Nat × Nat)) :
    (encodeAckRanges smallest ranges).length ≤ 16 * ranges.length := by
  induction ranges generalizing smallest with
  | nil => exact le_rfl
  | cons range _ ih =>
    obtain ⟨low, high⟩ := range
    have rest := ih low
    have gap := Varint.size_le_eight (smallest - high - 2)
    have length := Varint.size_le_eight (high - low)
    simp only [encodeAckRanges, length_append, Varint.length_encode, length_cons]
    omega

theorem length_encodeEcn (ecn : Option EcnCounts) : (encodeEcn ecn).length ≤ 24 := by
  cases ecn with
  | none => exact Nat.zero_le _
  | some counts =>
    have first := Varint.size_le_eight counts.ect0
    have second := Varint.size_le_eight counts.ect1
    have third := Varint.size_le_eight counts.ce
    simp only [encodeEcn, length_append, Varint.length_encode]
    omega

/-- An ACK takes at most 57 bytes and 16 for each range. -/
theorem length_encode_ack (ack : Ack) :
    (Frame.ack ack).encode.length ≤ 57 + 16 * ack.ranges.length := by
  change (encodeAck ack).length ≤ _
  unfold encodeAck
  split
  · exact Nat.zero_le _
  next low high more shape =>
    have ranges := length_encodeAckRanges low more
    have counts := length_encodeEcn ack.ecn
    have largest := Varint.size_le_eight high
    have delay := Varint.size_le_eight ack.delay
    have number := Varint.size_le_eight (ack.ranges.length - 1)
    have first := Varint.size_le_eight (high - low)
    have type : Varint.size (if ack.ecn.isSome then FT_ACK_ECN else FT_ACK) = 1 := by
      split_ifs <;> rfl
    have more_le : more.length ≤ ack.ranges.length := by
      rw [shape]
      exact Nat.le_succ _
    simp only [length_append, Varint.length_encode]
    omega

end Frame

namespace Connection

variable {T C : Type} (conn : Connection T C) (space : SpaceId) (pn pnLen : Nat)

theorem placed_makeHeader : (conn.makeHeader space pn pnLen).Placed := by
  cases space
  · rfl
  · rfl
  · trivial

theorem pnLen_makeHeader : (conn.makeHeader space pn pnLen).pnLen = pnLen := by
  cases space <;> rfl

theorem pnLen_makeZeroRttHeader : (conn.makeZeroRttHeader pn pnLen).pnLen = pnLen := rfl

/-- Long headers take at most 50 bytes before the packet number. -/
theorem pnOffset_makeHeader_le : (conn.makeHeader space pn pnLen).pnOffset ≤ 50 := by
  have destination : conn.dcid.len ≤ 20 := conn.dcid.length_le
  have source : conn.scid.len ≤ 20 := conn.scid.length_le
  have field : Varint.size MIN_INITIAL_DATAGRAM = 2 := rfl
  cases space
  · rw [makeHeader, pnOffset_long, if_pos rfl]
    omega
  · rw [makeHeader, pnOffset_long, if_neg nofun]
    omega
  · rw [makeHeader, pnOffset_short]
    omega

theorem pnOffset_makeHeader_data_le : (conn.makeHeader .data pn pnLen).pnOffset ≤ 21 := by
  have destination : conn.dcid.len ≤ 20 := conn.dcid.length_le
  rw [makeHeader, pnOffset_short]
  omega

theorem pnOffset_makeZeroRttHeader_le : (conn.makeZeroRttHeader pn pnLen).pnOffset ≤ 49 := by
  have destination : conn.dcid.len ≤ 20 := conn.dcid.length_le
  have source : conn.scid.len ≤ 20 := conn.scid.length_le
  have field : Varint.size MIN_INITIAL_DATAGRAM = 2 := rfl
  rw [makeZeroRttHeader, pnOffset_long, if_neg nofun]
  omega

end Connection

end ParallaX.Quic
