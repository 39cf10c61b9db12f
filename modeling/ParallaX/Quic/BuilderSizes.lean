import ParallaX.Quic.PacketSizes
import ParallaX.Quic.SizeInvariants

/-!
# The sizes of the packets a connection builds

A bound for each builder. Fresh bytes are cut to a datagram; CRYPTO bytes that
are sent again, stream bytes that are sent again in 0-RTT, and flow-control
updates are not.
-/

namespace ParallaX.Quic.Connection

open Quic.Core List Option Quic.Frame

variable {T C : Type}

/-- What is sent again without being cut fits a datagram up to this length. -/
def UNCUT_MAX : Nat := 1164

/-- That many streams can be updated in one datagram. -/
def UPDATES_MAX : Nat := 69

/-- All packets of a connection have the tag of every cipher suite. -/
structure Tags (conn : Connection T C) : Prop where
  spaces : ∀ space keys, (conn.spaces space).keys = some keys → keys.localKey.tagLen = TAG_LEN
  early : ∀ keys, conn.zeroRttKeys = some keys → keys.localKey.tagLen = TAG_LEN

theorem tags_of_tagged {conn : Connection T C} (tagged : conn.core.sealing.Tagged) : conn.Tags := by
  refine ⟨fun space keys isKeys => ?_, fun keys isKeys => ?_⟩
  · apply tagged.spaces space
    exact congrArg (Option.map Keys.localKey) isKeys
  · apply tagged.early
    exact congrArg (Option.map Keys.localKey) isKeys

variable {space : SpaceId} {next : Connection T C} {now : Nat} {packet : Packet} {data : List UInt8}
  {conn : Connection T C} (table : Streams) (stream : Stream) (budget : Nat)
  {alloc : Connection T C}

theorem allocated_kept {α : Type} (view : Space → α)
    (kept : ∀ sp send, view { sp with send := send } = view sp) {pn : Nat}
    (given : conn.allocatePacketNumber space = some (alloc, pn)) (other : SpaceId) :
    view (alloc.spaces other) = view (conn.spaces other) := by
  obtain ⟨_, rfl⟩ := allocated_space given
  rw [spaces_modifySpace]
  split
  next same => rw [kept, same]
  · rfl

variable {other : SpaceId} {id : Nat} {buffer : SendBuffer}

theorem allocated_keys {pn : Nat}
    (given : conn.allocatePacketNumber space = some (alloc, pn)) :
    (alloc.spaces other).keys = (conn.spaces other).keys :=
  allocated_kept (fun sp => sp.keys) (fun _ _ => rfl) given other

theorem allocated_tags {pn : Nat} (tags : conn.Tags)
    (given : conn.allocatePacketNumber space = some (alloc, pn)) : alloc.Tags := by
  refine ⟨fun other keys isKeys => ?_, ?_⟩
  · rw [allocated_keys given] at isKeys
    exact tags.spaces other keys isKeys
  · obtain ⟨_, rfl⟩ := allocated_space given
    exact tags.early

variable [Controller C]

/-! ## Control packets -/

theorem len_sealDataPacket_le {frames : List Frame} {eliciting : Bool}
    {content : SentContent} {bound : Nat} (tags : conn.Tags)
    (fits : (encodeFrames frames).length + 41 ≤ bound) (small : bound < 2 ^ 14)
    (built : conn.sealDataPacket frames eliciting content now = some (next, packet)) :
    packet.len ≤ bound := by
  simp only [sealDataPacket, bind_eq_bind, bind_eq_some_iff] at built
  obtain ⟨⟨alloc, pn⟩, given, keys, found, same⟩ := built
  dsimp only at given found same
  cases same
  have tag : keys.localKey.tagLen = 16 := (allocated_tags tags given).spaces .data keys found
  have offset := alloc.pnOffset_makeHeader_data_le pn (encodePacketNumber pn none)
  have number := encodePacketNumber_le pn none
  refine len_sealPacket_le (placed_makeHeader ..) ?_ small
  rw [pnLen_makeHeader]
  omega

theorem len_buildPingPacket_le (tags : conn.Tags)
    (built : conn.buildPingPacket now = some (next, packet)) : packet.len ≤ BASE_MTU := by
  have frames : (encodeFrames [.ping, .padding 3]).length = 4 := rfl
  have same : Tags { conn with pingPending := false } := ⟨tags.spaces, tags.early⟩
  exact len_sealDataPacket_le same (by rw [frames]; decide) (by decide) built

theorem len_buildResetPacket_le (tags : conn.Tags)
    (built : conn.buildResetPacket id now = some (next, packet)) : packet.len ≤ BASE_MTU := by
  obtain ⟨stream, _, sealing⟩ := bind_eq_some_iff.mp built
  have same : Tags (conn.mapStreams (·.markResetSent id)) := ⟨tags.spaces, tags.early⟩
  refine len_sealDataPacket_le same ?_ (by decide) sealing
  have base : BASE_MTU = 1252 := rfl
  have reset := length_encode_resetStream id (stream.reset.getD 0) stream.sendOff
  have stop := length_encode_stopSending id (stream.reset.getD 0)
  split
  · rw [length_encodeFrames_cons, length_encodeFrames_cons, length_encodeFrames_nil]
    omega
  · rw [length_encodeFrames_cons, length_encodeFrames_cons,
      length_encodeFrames_nil, length_encode_padding]
    omega

theorem length_padded (frames : List Frame) :
    (encodeFrames
      (if (encodeFrames frames).length < 4 then
        frames ++ [.padding (4 - (encodeFrames frames).length)]
      else frames)).length = max 4 (encodeFrames frames).length := by
  split
  · rw [length_encodeFrames_append, length_encodeFrames_cons,
      length_encodeFrames_nil, length_encode_padding]
    omega
  · omega

theorem length_flowUpdateFrames_le :
    (encodeFrames (flowUpdateFrames table)).length ≤ 27 + table.grownStreams.length * 17 := by
  have limits (kind : Dir) :
      (encodeFrames
        (if table.needMaxStreams kind then
          [Frame.maxStreams kind (table.recvMaxStreams kind)]
        else [])).length ≤ 9 := by
    split
    · rw [length_encodeFrames_cons, length_encodeFrames_nil]
      exact length_encode_maxStreams ..
    · exact Nat.zero_le _
  have window :
      (encodeFrames (if table.needMaxData then [Frame.maxData table.recvMaxData]
        else [])).length ≤ 9 := by
    split
    · rw [length_encodeFrames_cons, length_encodeFrames_nil]
      exact length_encode_maxData _
    · exact Nat.zero_le _
  have streams :
      (encodeFrames (table.grownStreams.map fun grown =>
        .maxStreamData grown.1 grown.2)).length ≤ table.grownStreams.length * 17 := by
    rw [← length_map fun grown : Nat × Nat =>
      Frame.maxStreamData grown.1 grown.2]
    apply length_encodeFrames_le
    intro _ member
    obtain ⟨_, -, rfl⟩ := mem_map.mp member
    exact length_encode_maxStreamData ..
  have bidi := limits .bidi
  have uni := limits .uni
  unfold flowUpdateFrames
  dsimp only
  rw [length_padded, length_encodeFrames_append, length_encodeFrames_append,
    length_encodeFrames_append]
  omega

theorem len_buildFlowUpdatePacket_le (tags : conn.Tags)
    (few : conn.grownStreams.length ≤ UPDATES_MAX)
    (built : conn.buildFlowUpdatePacket now = some (next, packet)) : packet.len ≤ BASE_MTU := by
  obtain ⟨⟨_, _⟩, sealing, same⟩ := bind_eq_some_iff.mp built
  cases same
  refine len_sealDataPacket_le tags ?_ (by decide) sealing
  have frames := length_flowUpdateFrames_le conn.toStreams
  have base : BASE_MTU = 1252 := rfl
  have most : UPDATES_MAX = 69 := rfl
  omega

omit [Controller C] in
theorem length_ackFrame {ack : Ack}
    (framed : conn.ackFrame space now = some ack) :
    ack.ranges.length = (conn.spaces space).recv.ranges.length := by
  obtain ⟨_, acked, rfl⟩ := map_eq_some_iff.mp framed
  unfold ReceivedPackets.toAck at acked
  split at acked
  · cases acked
  · cases acked
    split <;> exact length_reverse

theorem len_buildAckPacket_le (tags : conn.Tags)
    (capped : (conn.spaces space).recv.ranges.length ≤ MAX_ACK_RANGES)
    (built : conn.buildAckPacket space now = some (next, packet)) : packet.len ≤ BASE_MTU := by
  simp only [buildAckPacket, bind_eq_bind, bind_eq_some_iff] at built
  obtain ⟨⟨alloc, pn⟩, given, ack, framed, keys, found, same⟩ := built
  dsimp only at given framed found same
  cases same
  have tag : keys.localKey.tagLen = 16 := (allocated_tags tags given).spaces space keys found
  have kept : (alloc.spaces space).recv = (conn.spaces space).recv :=
    allocated_kept (fun sp => sp.recv) (fun _ _ => rfl) given space
  have ranges := length_ackFrame framed
  rw [kept] at ranges
  have size := length_encode_ack ack
  have most : MAX_ACK_RANGES = 32 := rfl
  have base : BASE_MTU = 1252 := rfl
  have least : MIN_INITIAL_DATAGRAM = 1200 := rfl
  have offset := alloc.pnOffset_makeHeader_le space pn (encodePacketNumber pn none)
  have number := encodePacketNumber_le pn none
  refine len_sealPacket_le (placed_makeHeader ..) ?_ (by decide)
  rw [pnLen_makeHeader]
  split
  · rw [length_encodeFrames_cons, length_encodeFrames_cons,
      length_encodeFrames_nil, length_encode_padding]
    omega
  · rw [length_encodeFrames_cons, length_encodeFrames_nil]
    omega

/-! ## CRYPTO packets -/

omit [Controller C] in
theorem length_cryptoSlice {range : CryptoRange}
    (sliced : conn.cryptoSlice? space range = some data) :
    data.length = range.finish - range.offset := by
  unfold cryptoSlice? at sliced
  dsimp only at sliced
  split at sliced
  next within =>
    cases sliced
    rw [length_take, length_drop]
    omega
  · cases sliced

omit [Controller C] in
theorem length_cryptoRange_le {overhead : Nat}
    (short : ∀ range ∈ (conn.spaces space).retransmitCrypto, range.2 ≤ UNCUT_MAX)
    (header : overhead ≤ 70)
    (sliced : conn.cryptoSlice? space (conn.cryptoRange space overhead) = some data) :
    overhead + (Frame.crypto (conn.cryptoRange space overhead).offset
      data).encode.length ≤ BASE_MTU := by
  have length := length_cryptoSlice sliced
  have uncut : UNCUT_MAX = 1164 := rfl
  have base : BASE_MTU = 1252 := rfl
  rw [length_encode_crypto]
  have offset := Varint.size_le_eight (conn.cryptoRange space overhead).offset
  suffices within : data.length < 2 ^ 14 ∧
      overhead + (1 + Varint.size (conn.cryptoRange space overhead).offset + 2 +
        data.length) ≤ BASE_MTU by
    have field := Varint.size_le_two within.1
    omega
  unfold cryptoRange at length offset ⊢
  dsimp only at length offset ⊢
  cases queued : (conn.spaces space).retransmitCrypto with
  | cons first =>
    obtain ⟨start, len⟩ := first
    rw [queued] at short length offset
    have bounded := short (start, len) mem_cons_self
    dsimp only at length offset ⊢
    omega
  | nil =>
    rw [queued] at length offset
    dsimp only at length offset ⊢
    have cap : (if space = .initial then MIN_INITIAL_DATAGRAM
        else MAX_DATAGRAM) ≤ 1252 := by
      split <;> decide
    generalize (if space = .initial then MIN_INITIAL_DATAGRAM
      else MAX_DATAGRAM) = limit at cap length
    have room : data.length ≤ max (limit - (overhead +
        (1 + Varint.size (conn.spaces space).cryptoSendOff + 2))) 1 := by
      rw [length, Nat.add_sub_cancel_left]
      refine (min_le_right _ _).trans (max_le_max_right 1 ?_)
      split
      · exact min_le_left _ _
      · exact le_rfl
    omega

theorem len_buildCryptoPacket_le (tags : conn.Tags)
    (short : ∀ range ∈ (conn.spaces space).retransmitCrypto, range.2 ≤ UNCUT_MAX)
    (built : conn.buildCryptoPacket space now = some (next, packet)) : packet.len ≤ BASE_MTU := by
  simp only [buildCryptoPacket, bind_eq_bind, bind_eq_some_iff] at built
  obtain ⟨⟨alloc, pn⟩, given, keys, found, _, sliced, same⟩ := built
  dsimp only at given found sliced same
  cases same
  have tag : keys.localKey.tagLen = 16 := (allocated_tags tags given).spaces space keys found
  have kept : (alloc.spaces space).retransmitCrypto = (conn.spaces space).retransmitCrypto :=
    allocated_kept (fun sp => sp.retransmitCrypto) (fun _ _ => rfl) given space
  rw [← kept] at short
  have offset := alloc.pnOffset_makeHeader_le space pn (encodePacketNumber pn none)
  have number := encodePacketNumber_le pn none
  rw [pnLen_makeHeader] at sliced
  have size := length_cryptoRange_le short (by omega) sliced
  have base : BASE_MTU = 1252 := rfl
  have least : MIN_INITIAL_DATAGRAM = 1200 := rfl
  refine len_sealPacket_le (placed_makeHeader ..) ?_ (by decide)
  rw [pnLen_makeHeader]
  split
  · rw [length_encodeFrames_cons, length_encodeFrames_cons,
      length_encodeFrames_nil, length_encode_padding]
    omega
  · rw [length_encodeFrames_cons, length_encodeFrames_nil]
    omega

/-! ## STREAM packets -/

theorem length_slice {start finish : Nat} (sliced : buffer.slice? start finish = some data) :
    data.length = finish - start := by
  unfold SendBuffer.slice? at sliced
  split at sliced
  next within =>
    cases sliced
    rw [length_take, length_drop]
    unfold SendBuffer.bufferedEnd at within
    omega
  · cases sliced

theorem length_streamFrame_le (id : Nat) {chunk : Streams.Chunk}
    (sliced : buffer.slice? chunk.offset chunk.finish = some data) (short : chunk.len < 2 ^ 14) :
    (Frame.stream id chunk.offset chunk.fin data).encode.length ≤
      streamFrameHeader id chunk.offset + chunk.len := by
  have length : data.length = chunk.len := by
    rw [length_slice sliced, Streams.Chunk.finish, Nat.add_sub_cancel_left]
  have size := length_encode_stream id chunk.offset chunk.fin data
  have field := Varint.size_le_two (length ▸ short)
  unfold streamFrameHeader
  omega

theorem streamFrameHeader_le (id offset : Nat) : streamFrameHeader id offset ≤ 19 := by
  have idField := Varint.size_le_eight id
  have offsetField := Varint.size_le_eight offset
  unfold streamFrameHeader
  omega

theorem freshChunk_len_le : (table.freshChunk stream budget).len ≤ max budget 1 :=
  (min_le_left _ _).trans (min_le_right _ _)

theorem streamChunk_len_le : (table.streamChunk stream budget).len ≤ max budget 1 := by
  unfold Streams.streamChunk
  split
  · exact min_le_right _ _
  · exact freshChunk_len_le table stream budget

theorem streamChunk_offset :
    (table.streamChunk stream budget).offset = Streams.nextOffset stream := by
  unfold Streams.streamChunk Streams.nextOffset
  split
  next queued =>
    rw [queued]
    rfl
  next queued =>
    rw [queued]
    rfl

theorem len_buildStreamPacket_le (tags : conn.Tags) (within : conn.pmtud.Within)
    (built : conn.buildStreamPacket id now = some (next, packet)) :
    packet.len ≤ conn.pmtud.currentMtu := by
  simp only [buildStreamPacket, bind_eq_bind, bind_eq_some_iff] at built
  obtain ⟨⟨alloc, pn⟩, given, keys, present, stream, found, data, sliced, same⟩ := built
  dsimp only at given present found sliced same
  cases same
  have tag : keys.localKey.tagLen = 16 := (allocated_tags tags given).spaces .data keys present
  have path : alloc.pmtud.currentMtu = conn.pmtud.currentMtu := by
    obtain ⟨_, rfl⟩ := allocated_space given
    rfl
  have least : 1252 ≤ conn.pmtud.currentMtu := within.base
  have most : conn.pmtud.currentMtu ≤ 1452 := within.current
  have offset := alloc.pnOffset_makeHeader_data_le pn (encodePacketNumber pn none)
  have number := encodePacketNumber_le pn none
  have header := streamFrameHeader_le id (Streams.nextOffset stream)
  rw [pnLen_makeHeader, tag, path] at sliced ⊢
  have cut := streamChunk_len_le alloc.toStreams stream
    (conn.pmtud.currentMtu - ((alloc.makeHeader .data pn
      (encodePacketNumber pn none)).pnOffset + encodePacketNumber pn none +
      16 + streamFrameHeader id (Streams.nextOffset stream)))
  have frame := length_streamFrame_le id sliced (by omega)
  rw [streamChunk_offset] at frame
  refine len_sealPacket_le (placed_makeHeader ..) ?_ (by omega)
  rw [pnLen_makeHeader, length_encodeFrames_cons, length_encodeFrames_nil, streamChunk_offset]
  omega

theorem len_buildZeroRttStreamPacket_le (tags : conn.Tags) (within : conn.pmtud.Within)
    (short : ∀ stream, conn.streams[id]? = some stream →
      ∀ range ∈ stream.retransmit, range.len ≤ UNCUT_MAX)
    (built : conn.buildZeroRttStreamPacket id now = some (next, packet)) :
    packet.len ≤ conn.pmtud.currentMtu := by
  simp only [buildZeroRttStreamPacket, bind_eq_bind, bind_eq_some_iff] at built
  obtain ⟨⟨alloc, pn⟩, given, keys, present, stream, found, _, sliced, same⟩ := built
  dsimp only at given present found sliced same
  cases same
  have tag : keys.localKey.tagLen = 16 := (allocated_tags tags given).early keys present
  have path : alloc.pmtud.currentMtu = conn.pmtud.currentMtu := by
    obtain ⟨send, rfl⟩ := allocated_space given
    rfl
  have table : alloc.streams = conn.streams := by
    obtain ⟨_, rfl⟩ := allocated_space given
    rfl
  rw [table] at found
  have least : 1252 ≤ conn.pmtud.currentMtu := within.base
  have most : conn.pmtud.currentMtu ≤ 1452 := within.current
  have uncut : UNCUT_MAX = 1164 := rfl
  have offset := alloc.pnOffset_makeZeroRttHeader_le pn (encodePacketNumber pn none)
  have number := encodePacketNumber_le pn none
  refine len_sealPacket_le rfl ?_ (by omega)
  rw [pnLen_makeZeroRttHeader, tag, path] at sliced ⊢
  rw [length_encodeFrames_cons, length_encodeFrames_nil]
  cases queued : stream.retransmit with
  | cons range =>
    have bounded := short stream found range (queued ▸ mem_cons_self)
    have again : ∀ budget, alloc.toStreams.zeroRttChunk stream budget =
        { range with isRetransmit := true } := by
      intro budget
      unfold Streams.zeroRttChunk
      rw [queued]
    rw [again] at sliced ⊢
    have frame := length_streamFrame_le id sliced (show range.len < 2 ^ 14 by omega)
    have header := streamFrameHeader_le id range.offset
    dsimp only at frame ⊢
    omega
  | nil =>
    have fresh budget : alloc.toStreams.zeroRttChunk stream budget =
        alloc.toStreams.freshChunk stream budget := by
      unfold Streams.zeroRttChunk
      rw [queued]
    rw [fresh] at sliced ⊢
    have header := streamFrameHeader_le id stream.sendOff
    have cut := freshChunk_len_le alloc.toStreams stream
      (conn.pmtud.currentMtu - ((alloc.makeZeroRttHeader pn
        (encodePacketNumber pn none)).pnOffset + encodePacketNumber pn none +
        16 + streamFrameHeader id stream.sendOff))
    have frame := length_streamFrame_le id sliced (by omega)
    rw [show (alloc.toStreams.freshChunk stream _).offset = stream.sendOff from rfl] at frame ⊢
    omega

/-! ## CONNECTION_CLOSE packets -/

variable (conn)

omit [Controller C] in
theorem length_makeHeader (space : SpaceId) (pn pnLen : Nat) :
    (conn.makeHeader space pn pnLen).encode.length =
      (conn.makeHeader space pn pnLen).pnOffset + pnLen := by
  rw [Header.length_encode, pnLen_makeHeader]

def closeView (conn : Connection T C) (space : SpaceId) :
    Space × ConnectionId × ConnectionId × Pmtud :=
  (conn.spaces space, conn.dcid, conn.scid, conn.pmtud)

variable {pending : PendingClose}

omit [Controller C] in
theorem closePacketSize_congr {first second : Connection T C}
    (same : second.closeView space = first.closeView space) (pending : PendingClose) :
    second.closePacketSize space pending = first.closePacketSize space pending := by
  simp only [closeView, Prod.mk.injEq] at same
  obtain ⟨sameSpace, destination, source, path⟩ := same
  unfold closePacketSize
  dsimp only
  rw [length_makeHeader, length_makeHeader, sameSpace, path]
  -- a header has the same length in either key phase
  cases space <;>
    simp [makeHeader, Header.pnOffset_short, Header.pnOffset_long, destination, source]

omit [Controller C] in
theorem closeView_modifySpace (differs : other ≠ space) (change : Space → Space) :
    (conn.modifySpace space change).closeView other = conn.closeView other := by
  unfold closeView
  rw [spaces_modifySpace, if_neg differs]
  rfl

theorem recordSent_bare (space : SpaceId) (pn size now : Nat) :
    ∃ change data early phase log, conn.recordSent space pn size false .empty now =
      { conn.modifySpace space change with
        dataPacketsSealed := data, zeroRttPacketsSealed := early, keyPhase := phase,
        sealedPackets := log, lastSendTime := some now } := by
  unfold recordSent countSealed noteSealed
  simp only [Bool.false_eq_true, false_and, if_false]
  split_ifs <;> split <;> exact ⟨_, _, _, _, _, rfl⟩

variable {conn}

/-- A close that was sealed fitted a datagram, and neither limit was
reached. -/
theorem buildClosePacketInSpace_inv
    (built : conn.buildClosePacketInSpace space now = some (next, some packet)) :
    ∃ pending alloc pn keys, conn.closePending = some pending ∧
      conn.closePacketSize space pending ≤ conn.pmtud.currentMtu ∧
      conn.allocatePacketNumber space = some (alloc, pn) ∧
      (alloc.spaces space).keys = some keys ∧
      packet = sealPacket keys.localKey (alloc.makeHeader space pn (encodePacketNumber pn none))
        [.close (closeFrame space pending), .padding 3] ∧
      next = alloc.recordSent space pn packet.len false .empty now := by
  unfold buildClosePacketInSpace at built
  dsimp only at built
  split at built
  · cases built
  rename_i pending isPending
  have alive := congrArg Option.isSome isPending
  rw [(enforceLimits_open rfl (.inr alive)).1] at isPending built
  split at built
  · cases built
  rename_i allowed
  simp only [bind_eq_bind, bind_eq_some_iff] at built
  obtain ⟨⟨alloc, pn⟩, given, keys, found, same⟩ := built
  obtain ⟨isNext, isPacket⟩ := Prod.mk.inj (Option.some.inj same)
  cases isPacket
  push Not at allowed
  exact ⟨pending, alloc, pn, keys, isPending, allowed.2.2.2.2, given, found, rfl, isNext.symm⟩

theorem len_buildClosePacketInSpace_le (within : conn.pmtud.Within)
    (isPending : conn.closePending = some pending)
    (built : conn.buildClosePacketInSpace space now = some (next, some packet)) :
    packet.len ≤ conn.closePacketSize space pending := by
  obtain ⟨carried, alloc, pn, _, isCarried, fits, given, found, rfl,
    -⟩ := buildClosePacketInSpace_inv built
  obtain rfl : pending = carried := Option.some.inj (isPending.symm.trans isCarried)
  have most : conn.pmtud.currentMtu ≤ 1452 := within.current
  have number : pn = (conn.spaces space).send.next := (core_allocatePacketNumber given).1
  rw [allocated_keys given] at found
  have header : alloc.makeHeader space pn (encodePacketNumber pn none) =
      conn.makeHeader space pn (encodePacketNumber pn none) := by
    obtain ⟨_, rfl⟩ := allocated_space given
    cases space <;> rfl
  rw [header]
  refine len_sealPacket_le (placed_makeHeader ..) ?_ (by omega)
  unfold closePacketSize at fits ⊢
  dsimp only at fits ⊢
  split
  next long =>
    rw [if_pos long] at fits
    omega
  · rw [Header.length_encode, number, found, length_encodeFrames_cons,
      length_encodeFrames_cons, length_encodeFrames_nil,
      length_encode_padding]
    dsimp only [elim_some]
    omega

theorem buildClosePacketInSpace_kept
    (built : conn.buildClosePacketInSpace space now = some (next, some packet)) :
    next.closePending = conn.closePending ∧ next.pmtud = conn.pmtud ∧
      ∀ other ≠ space, next.closeView other = conn.closeView other := by
  obtain ⟨_, alloc, pn, _, -, -, given, -, -, rfl⟩ := buildClosePacketInSpace_inv built
  obtain ⟨_, _, _, _, _, recorded⟩ := alloc.recordSent_bare space pn packet.len now
  obtain ⟨_, rfl⟩ := allocated_space given
  rw [recorded]
  refine ⟨rfl, rfl, fun other differs => ?_⟩
  exact (closeView_modifySpace _ differs _).trans (closeView_modifySpace conn differs _)

variable (conn)

theorem datagramLen_buildCloseBatch_le {spaces : List SpaceId} :
    ∀ {conn next : Connection T C} {packets : List Packet}, spaces.Nodup → conn.pmtud.Within →
      conn.closePending = some pending →
      conn.buildCloseBatch now spaces = some (next, some packets) →
      datagramLen packets ≤ conn.closeBatchSize spaces pending := by
  induction spaces with
  | nil =>
    intro conn next packets _ _ _ built
    obtain ⟨-, isPackets⟩ := Prod.mk.inj (Option.some.inj built)
    cases isPackets
    exact Nat.zero_le _
  | cons _ spaces ih =>
    intro conn _ _ distinct within isPending built
    obtain ⟨⟨first, sealed⟩, building, rest⟩ := bind_eq_some_iff.mp built
    cases sealed with
    | none => cases rest
    | some =>
      obtain ⟨⟨_, _⟩, batch, same⟩ := bind_eq_some_iff.mp rest
      obtain ⟨-, mapped⟩ := Prod.mk.inj (Option.some.inj same)
      obtain ⟨_, rfl, rfl⟩ := map_eq_some_iff.mp mapped
      obtain ⟨fresh, distinctRest⟩ := nodup_cons.mp distinct
      have head := len_buildClosePacketInSpace_le within isPending building
      obtain ⟨keptPending, keptPath, keptViews⟩ := buildClosePacketInSpace_kept building
      have sizes := ih distinctRest (keptPath ▸ within) (keptPending.trans isPending) batch
      have same : first.closeBatchSize spaces pending = conn.closeBatchSize spaces pending := by
        unfold closeBatchSize
        congr 1
        apply map_congr_left
        intro other member
        apply closePacketSize_congr
        exact keptViews other (fun equal => fresh (equal ▸ member))
      rw [same] at sizes
      exact Nat.add_le_add head sizes

omit [Controller C] in
theorem nodup_closeSpaces : conn.closeSpaces.Nodup := by
  unfold closeSpaces mandatoryCloseSpaces
  dsimp only
  split_ifs <;> decide

variable (pending)

omit [Controller C] in
theorem nodup_closePlan : (conn.closePlan pending).1.Nodup := by
  unfold closePlan
  dsimp only
  split
  · exact conn.nodup_closeSpaces.sublist (take_sublist _ _)
  · exact conn.nodup_closeSpaces

variable {conn}

/-- A datagram that closes fits the path. -/
theorem datagramLen_buildClosePacket_le {packets : List Packet} (within : conn.pmtud.Within)
    (built : conn.buildClosePacket now = some (next, some packets)) :
    datagramLen packets ≤ conn.pmtud.currentMtu := by
  unfold buildClosePacket at built
  dsimp only at built
  split at built
  · cases built
  rename_i pending isPending
  have alive := congrArg Option.isSome isPending
  rw [(enforceLimits_open rfl (.inr alive)).1] at isPending built
  split at built
  · cases built
  split at built
  · cases built
  split at built
  · cases built
  rename_i fits
  split at built
  · cases built
  let closing : Connection T C := { conn with closePending := some (conn.closePlan pending).2 }
  have kept : closing.pmtud.Within := within
  have planned := datagramLen_buildCloseBatch_le (conn.nodup_closePlan pending) kept rfl built
  exact planned.trans (Nat.le_of_not_lt fits)

end ParallaX.Quic.Connection
