import ParallaX.Quic.Connection

/-!
# Transmission

The packets a connection builds, and the order in which `poll_transmit` picks
them. A builder returns `none` where an assertion of the source fails.
-/

namespace ParallaX.Quic.Connection

variable {T C : Type}

/-! ## Packet numbers, headers and records -/

variable (conn : Connection T C) (space : SpaceId)

def sealBudget : Nat × Nat :=
  if space = .data then
    match (conn.spaces .data).keys, conn.zeroRttKeys with
    | some keys, _ => (conn.dataPacketsSealed, keys.localKey.confidentialityLimit)
    | none, some keys => (conn.zeroRttPacketsSealed, keys.localKey.confidentialityLimit)
    | none, none => (0, 0)
  else
    (0, 2 ^ 64 - 1)

def allocatePacketNumber : Option (Connection T C × Nat) :=
  let budget := conn.sealBudget space
  match (conn.spaces space).send.allocateProtected budget.1 budget.2 with
  | none => none
  | some (pn, send) => some (conn.modifySpace space fun sp => { sp with send := send }, pn)

variable (pn : Nat)

def makeHeader (pnLen : Nat) : Header :=
  match space with
  | .initial => .long .initial conn.version conn.dcid conn.scid [] MIN_INITIAL_DATAGRAM pn pnLen
  | .handshake => .long .handshake conn.version conn.dcid conn.scid [] MIN_INITIAL_DATAGRAM pn pnLen
  | .data => .short false (phaseOf conn.keyPhase.tx) conn.dcid pn pnLen

def makeZeroRttHeader (pnLen : Nat) : Header :=
  .long .zeroRtt conn.version conn.dcid conn.scid [] MIN_INITIAL_DATAGRAM pn pnLen

/-- Only stream packets advance the pacer. -/
def paceSent [Controller C] (conn : Connection T C) (size now : Nat) : Connection T C :=
  let rate := Controller.pacingRate conn.cc
  { conn with
    pacer := conn.pacer.onSent now (Controller.transferTime C size rate) rate
      (conn.bytesInFlight - size) }

def storeContent (content : SentContent) (now : Nat) : Connection T C :=
  let indexed :=
    if space = .data then conn.mapStreams (·.indexSentStreamRanges content)
    else conn
  indexed.modifySpace space fun sp =>
    { sp with sentContent := sp.sentContent.insert pn content, lastAckEliciting := some now }

def countSealed : Connection T C :=
  if (conn.spaces .data).keys.isSome then
    { conn with
      dataPacketsSealed := saturatingSucc conn.dataPacketsSealed
      keyPhase := conn.keyPhase.noteSent pn }
  else
    { conn with zeroRttPacketsSealed := saturatingSucc conn.zeroRttPacketsSealed }

def trackSent (packet : SentPacket) : Connection T C :=
  conn.modifySpace space fun sp => { sp with sent := sp.sent.onSent pn packet }

/-- The key a space seals with. Until there are 1-RTT keys their space seals
with the 0-RTT keys. -/
def sealingKey : Option PacketKey :=
  match (conn.spaces space).keys with
  | some keys => some keys.localKey
  | none => if space = .data then conn.zeroRttKeys.map Keys.localKey else none

def noteSealed : Connection T C :=
  match conn.sealingKey space with
  | none => conn
  | some key => { conn with sealedPackets := conn.sealedPackets ++ [⟨space, key, pn⟩] }

def recordSent [Controller C] (conn : Connection T C) (space : SpaceId)
    (pn size : Nat) (ackEliciting : Bool) (content : SentContent) (now : Nat) : Connection T C :=
  let tracked := conn.trackSent space pn
    { timeSent := now
      size := size
      ackEliciting := ackEliciting
      delivered := conn.delivered }
  let paced :=
    if ackEliciting ∧ space = .data ∧ content.stream ≠ [] then tracked.paceSent size now
    else tracked
  let stored :=
    if ackEliciting then paced.storeContent space pn content now else paced
  let counted := if space = .data then stored.countSealed pn else stored
  { counted.noteSealed space pn with lastSendTime := some now }

section Builders

variable [Controller C]

def encodedAckDelay (elapsed : Nat) : Nat :=
  min (elapsed / 1000 / 2 ^ ACK_DELAY_EXPONENT) (2 ^ 62 - 1)

variable (conn : Connection T C) (space : SpaceId)

/-- The delay an ACK reports; only the 1-RTT space delays its ACKs. -/
def ackDelayRaw (now : Nat) : Nat :=
  if space = .data then
    (conn.spaces space).largestRecvTime.elim 0 fun received =>
      encodedAckDelay (now - received)
  else
    0

def ackFrame (now : Nat) : Option Ack :=
  ((conn.spaces space).recv.toAck (conn.ackDelayRaw space now)).map fun ack =>
    if (conn.spaces space).recvEcn.any then { ack with ecn := some (conn.spaces space).recvEcn }
    else ack

def ackSent : Connection T C :=
  let cleared := conn.modifySpace space fun sp =>
    { sp with ackPending := false, ackElicitingCount := 0, ackDeadline := none }
  if space = .data then
    { cleared with keyPhase := { cleared.keyPhase with updateAckPending := false } }
  else
    cleared

def buildAckPacket (now : Nat) : Option (Connection T C × Packet) := do
  let (allocated, pn) ← conn.allocatePacketNumber space
  let ack ← allocated.ackFrame space now
  let keys ← (allocated.spaces space).keys
  let header := allocated.makeHeader space pn (encodePacketNumber pn none)
  let pad := MIN_INITIAL_DATAGRAM -
    (header.pnOffset + header.pnLen + (Frame.ack ack).encode.length + keys.localKey.tagLen)
  let frames :=
    if space = .initial ∧ allocated.side = .client then [.ack ack, .padding pad]
    else [.ack ack]
  let packet := sealPacket keys.localKey header frames
  some ((allocated.ackSent space).recordSent space pn packet.len false .empty now, packet)

/-! ## CONNECTION_CLOSE packets -/

variable (pending : PendingClose)

def closeFrame : Close :=
  match pending.frameType with
  | some frameType => ⟨false, pending.errorCode, frameType, pending.reason⟩
  | none =>
    if space = .data then ⟨true, pending.errorCode, 0, pending.reason⟩
    else ⟨false, APPLICATION_ERROR, 0, []⟩

def closePacketSize : Nat :=
  let pn := (conn.spaces space).send.next
  let header := conn.makeHeader space pn (encodePacketNumber pn none)
  let close := closeFrame space pending
  if conn.pmtud.currentMtu < close.reason.length then
    conn.pmtud.currentMtu + 1
  else
    header.encode.length + (Frame.close close).encode.length + 3 +
      (conn.spaces space).keys.elim 0 fun keys => keys.localKey.tagLen

def closeAvailable : Bool := !(conn.spaces space).discarded && (conn.spaces space).keys.isSome

/-- The spaces a close must use before the handshake is confirmed. -/
def mandatoryCloseSpaces : List SpaceId :=
  if conn.handshakeConfirmed then []
  else
    (if conn.side = .server ∧ conn.closeAvailable .initial then
        [.initial]
      else []) ++
      if conn.closeAvailable .handshake then [.handshake] else []

def closeSpaces : List SpaceId :=
  let mandatory := conn.mandatoryCloseSpaces
  if conn.closeAvailable .data then mandatory ++ [.data]
  else if mandatory.isEmpty && !conn.handshakeConfirmed && conn.closeAvailable .initial then
    [.initial]
  else mandatory

def closeBatchSize (spaces : List SpaceId) (pending : PendingClose) : Nat :=
  (spaces.map fun space => conn.closePacketSize space pending).sum

def buildClosePacketInSpace (now : Nat) : Option (Connection T C × Option Packet) :=
  let conn := conn.enforceAeadConfidentialityLimit.enforceAeadIntegrityLimit
  match conn.closePending with
  | none => some (conn, none)
  | some pending =>
    if (conn.spaces space).discarded ∨ (conn.spaces space).keys.isNone ∨
        (conn.handshakeConfirmed ∧ space ≠ .data) ∨
        !(conn.spaces space).send.canAllocate ∨
        conn.pmtud.currentMtu < conn.closePacketSize space pending then
      some ({ conn with closePending := none }, none)
    else do
      let (allocated, pn) ← conn.allocatePacketNumber space
      let keys ← (allocated.spaces space).keys
      let header := allocated.makeHeader space pn (encodePacketNumber pn none)
      let packet := sealPacket keys.localKey header [.close (closeFrame space pending), .padding 3]
      some (allocated.recordSent space pn packet.len false .empty now, some packet)

/-- Seal a close in each space in turn; one that cannot be sealed ends the
batch. -/
def buildCloseBatch (conn : Connection T C) (now : Nat) :
    List SpaceId → Option (Connection T C × Option (List Packet))
  | [] => some ({ conn with closeSent := true }, some [])
  | space :: spaces => do
    let (built, packet) ← conn.buildClosePacketInSpace space now
    match packet with
    | none => some (built, none)
    | some packet =>
      let (finished, packets) ← built.buildCloseBatch now spaces
      some (finished, packets.map (packet :: ·))

/-- The spaces that fit a datagram and the close they carry. The two early
spaces may have to do without the reason text. -/
def closePlan : List SpaceId × PendingClose :=
  let mandatory := max conn.mandatoryCloseSpaces.length 1
  let all := conn.closeSpaces
  let mtu := conn.pmtud.currentMtu
  let spaces :=
    if mtu < conn.closeBatchSize all pending ∧ mandatory < all.length
    then all.take mandatory
    else all
  let shorten :=
    decide (mtu < conn.closeBatchSize spaces pending) &&
      pending.frameType.isSome && decide (spaces = [.initial, .handshake])
  (spaces, if shorten then { pending with reason := [] } else pending)

/-- Coalesce the closes that the peer may be able to read. -/
def buildClosePacket (now : Nat) : Option (Connection T C × Option (List Packet)) :=
  let conn := conn.enforceAeadConfidentialityLimit.enforceAeadIntegrityLimit
  match conn.closePending with
  | none => some (conn, none)
  | some pending =>
    if conn.closeSpaces.isEmpty then
      some (conn, none)
    else if conn.closeSpaces.any fun space =>
        !(conn.spaces space).send.canAllocate then
      some ({ conn with closePending := none }, none)
    else
      let plan := conn.closePlan pending
      let size := conn.closeBatchSize plan.1 plan.2
      if conn.pmtud.currentMtu < size then
        some ({ conn with closePending := none }, none)
      else if !conn.peerAddrValidated ∧
          conn.antiAmpRecv * 3 < conn.antiAmpSent + size then
        some (conn, none)
      else
        { conn with closePending := some plan.2 }.buildCloseBatch now plan.1

/-! ## 1-RTT control packets -/

def sealDataPacket (frames : List Frame) (ackEliciting : Bool) (content : SentContent) (now : Nat) :
    Option (Connection T C × Packet) := do
  let (allocated, pn) ← conn.allocatePacketNumber .data
  let keys ← (allocated.spaces .data).keys
  let header := allocated.makeHeader .data pn (encodePacketNumber pn none)
  let packet := sealPacket keys.localKey header frames
  some (allocated.recordSent .data pn packet.len ackEliciting content now, packet)

def buildHandshakeDonePacket (now : Nat) : Option (Connection T C × Packet) :=
  { conn with handshakeDonePending := false }.sealDataPacket [.handshakeDone, .padding 3] true
    { SentContent.empty with handshakeDone := true } now

def buildPingPacket (now : Nat) : Option (Connection T C × Packet) :=
  { conn with pingPending := false }.sealDataPacket [.ping, .padding 3] true .empty now

/-- The payload of a probe fills its datagram up to the probed size. -/
def buildMtuProbePacket (probeSize now : Nat) : Option (Connection T C × Packet) := do
  let (allocated, pn) ← conn.allocatePacketNumber .data
  let keys ← (allocated.spaces .data).keys
  let header := allocated.makeHeader .data pn (encodePacketNumber pn none)
  let overhead := header.pnOffset + header.pnLen + keys.localKey.tagLen
  let payloadLen := max (probeSize - overhead) 4
  let packet := sealPacket keys.localKey header [.ping, .padding (payloadLen - 1)]
  some ({ allocated.recordSent .data pn packet.len true .empty now with
    mtuProbePn := some pn }, packet)

def flowUpdateFrames (table : Streams) : List Frame :=
  let maxStreams (kind : Dir) : List Frame :=
    if table.needMaxStreams kind then
      [.maxStreams kind (table.recvMaxStreams kind)]
    else []
  let frames :=
    (if table.needMaxData then [.maxData table.recvMaxData] else []) ++
      maxStreams .bidi ++ maxStreams .uni ++
      table.grownStreams.map fun grown => .maxStreamData grown.1 grown.2
  let probeLen := (encodeFrames frames).length
  if probeLen < 4 then frames ++ [.padding (4 - probeLen)] else frames

def flowUpdateContent (table : Streams) : SentContent :=
  { SentContent.empty with
    maxData := table.needMaxData
    maxStreams := table.needMaxStreams
    maxStreamData := table.grownStreams.map Prod.fst }

def buildFlowUpdatePacket (now : Nat) : Option (Connection T C × Packet) := do
  let (recorded, packet) ← conn.sealDataPacket (flowUpdateFrames conn.toStreams) true
      (flowUpdateContent conn.toStreams) now
  some (recorded.mapStreams (·.flowUpdateSent), packet)

def buildResetPacket (id now : Nat) : Option (Connection T C × Packet) := do
  let stream ← conn.streams[id]?
  let errorCode := stream.reset.getD 0
  let reset := Frame.resetStream id errorCode stream.sendOff
  let frames :=
    if stream.stopSending then [.stopSending id errorCode, reset]
    else [reset, .padding 3]
  (conn.mapStreams (·.markResetSent id)).sealDataPacket frames true
    { SentContent.empty with reset := [id] } now

/-! ## CRYPTO packets -/

/-- A range of CRYPTO bytes to send, and whether it is a resend. -/
structure CryptoRange where
  offset : Nat
  finish : Nat
  isRetransmit : Bool

def cryptoRange (overhead : Nat) : CryptoRange :=
  let sp := conn.spaces space
  match sp.retransmitCrypto with
  | (offset, len) :: _ => ⟨offset, offset + len, true⟩
  | [] =>
    let offset := sp.cryptoSendOff
    let cap :=
      if space = .initial then MIN_INITIAL_DATAGRAM else MAX_DATAGRAM
    let room := cap - (overhead + (1 + Varint.size offset + 2))
    let budget :=
      if space = .initial ∧ conn.side = .client then
        min room SAFARI_INITIAL_CRYPTO_CHUNK
      else room
    let remaining := sp.cryptoSend.length - offset
    ⟨offset, offset + min remaining (max budget 1), false⟩

/-- The bytes of a range; `none` when they are not all there, where the source
panics. -/
def cryptoSlice? (range : CryptoRange) : Option (List UInt8) :=
  let sent := (conn.spaces space).cryptoSend
  if range.offset ≤ range.finish ∧ range.finish ≤ sent.length then
    some ((sent.drop range.offset).take (range.finish - range.offset))
  else
    none

/-- The resend left the queue, or the fresh bytes are packetized. -/
def cryptoSent (range : CryptoRange) : Connection T C :=
  conn.modifySpace space fun sp =>
    if range.isRetransmit then { sp with retransmitCrypto := sp.retransmitCrypto.tail }
    else { sp with cryptoSendOff := range.finish }

def buildCryptoPacket (now : Nat) : Option (Connection T C × Packet) := do
  let (allocated, pn) ← conn.allocatePacketNumber space
  let keys ← (allocated.spaces space).keys
  let header := allocated.makeHeader space pn (encodePacketNumber pn none)
  let overhead := header.pnOffset + header.pnLen + keys.localKey.tagLen
  let range := allocated.cryptoRange space overhead
  let data ← allocated.cryptoSlice? space range
  let crypto := Frame.crypto range.offset data
  let pad := MIN_INITIAL_DATAGRAM - (overhead + crypto.encode.length)
  let frames :=
    if space = .initial ∧ 0 < pad then [crypto, .padding pad] else [crypto]
  let packet := sealPacket keys.localKey header frames
  let content := { SentContent.empty with crypto := [(range.offset, range.finish - range.offset)] }
  let recorded := allocated.recordSent space pn packet.len true content now
  some (recorded.cryptoSent space range, packet)

def streamFrameHeader (id offset : Nat) : Nat := 1 + Varint.size id + Varint.size offset + 2

def buildStreamPacket (id now : Nat) : Option (Connection T C × Packet) := do
  let (allocated, pn) ← conn.allocatePacketNumber .data
  let keys ← (allocated.spaces .data).keys
  let header := allocated.makeHeader .data pn (encodePacketNumber pn none)
  let stream ← allocated.streams[id]?
  let budget := allocated.pmtud.currentMtu -
    (header.pnOffset + header.pnLen + keys.localKey.tagLen +
      streamFrameHeader id (Streams.nextOffset stream))
  let chunk := allocated.toStreams.streamChunk stream budget
  let data ← stream.slice? chunk.offset chunk.finish
  let packet := sealPacket keys.localKey header [.stream id chunk.offset chunk.fin data]
  let content := { SentContent.empty with stream := [(id, chunk.toStreamRange)] }
  let recorded := allocated.recordSent .data pn packet.len true content now
  some (recorded.mapStreams (·.chunkSent id chunk), packet)

def buildZeroRttStreamPacket (id now : Nat) : Option (Connection T C × Packet) := do
  let (allocated, pn) ← conn.allocatePacketNumber .data
  let keys ← allocated.zeroRttKeys
  let header := allocated.makeZeroRttHeader pn (encodePacketNumber pn none)
  let stream ← allocated.streams[id]?
  let budget := allocated.pmtud.currentMtu -
    (header.pnOffset + header.pnLen + keys.localKey.tagLen + streamFrameHeader id stream.sendOff)
  let chunk := allocated.toStreams.zeroRttChunk stream budget
  let data ← stream.slice? chunk.offset chunk.finish
  let packet := sealPacket keys.localKey header [.stream id chunk.offset chunk.fin data]
  let content := { SentContent.empty with stream := [(id, chunk.toStreamRange)] }
  let recorded := allocated.recordSent .data pn packet.len true content now
  some (recorded.mapStreams (·.zeroRttChunkSent id chunk), packet)

end Builders

/-! ## The dispatcher -/

/-- Rotate the sending key while its budget lasts, and close on an exhausted
key or packet-number space. -/
def prepareTransmit (now : Nat) : Connection T C :=
  let rotated :=
    if conn.closed.isNone then conn.maybeUpdateSendKey now else conn
  let limited := rotated.enforceAeadConfidentialityLimit.enforceAeadIntegrityLimit
  if SpaceId.all.any fun space =>
      !(limited.spaces space).discarded && !(limited.spaces space).send.canAllocate then
    limited.retireDataConnection "packet-number space exhausted"
  else
    limited

/-- The first space whose ACK is to be sent now. A client holds its Initial
ACK until the ServerHello is complete. -/
def nextAckSpace (now : Nat) : Option SpaceId :=
  SpaceId.all.find? fun space =>
    (conn.spaces space).keys.isSome && conn.ackReadyForSpace space now &&
      !(decide (space = .initial) && decide (conn.side = .client) &&
        (conn.spaces .handshake).keys.isNone)

section Dispatcher

variable [Controller C] (conn : Connection T C)

/-- Ack-eliciting data fits the congestion window, or a probe is due. -/
def congestionOk : Bool :=
  decide (0 < conn.probePending) ||
    decide (conn.bytesInFlight + conn.pmtud.currentMtu ≤ Controller.window conn.cc)

variable (now : Nat)

def pacingOk : Bool := decide (0 < conn.probePending) || conn.pacer.canSend now

def nextCryptoSpace : Option SpaceId :=
  SpaceId.all.find? fun space =>
    let sp := conn.spaces space
    sp.keys.isSome &&
      (!sp.retransmitCrypto.isEmpty || decide (sp.cryptoSendOff < sp.cryptoSend.length))

/-- An ack-eliciting packet to build. -/
inductive Work where
  | crypto (space : SpaceId)
  | zeroRttStream (id : Nat)
  | handshakeDone
  | flowUpdate
  | reset (id : Nat)
  | stream (id : Nat)
  | mtuProbe (size : Nat)
  | ping
deriving DecidableEq, Repr

def hasDataKeys : Bool := (conn.spaces .data).keys.isSome

/-- The next ack-eliciting packet in order of priority, short of a path-MTU
probe or a PING. -/
def nextWork : Option Work :=
  match conn.nextCryptoSpace with
  | some space => some (.crypto space)
  | none =>
    if conn.hasDataKeys then
      if conn.handshakeDonePending then some .handshakeDone
      else if conn.flowUpdatePending then some .flowUpdate
      else
        match conn.nextStreamToReset with
        | some id => some (.reset id)
        | none =>
          if conn.pacingOk now then
            conn.nextStreamToSend.map .stream
          else none
    else if conn.pacingOk now ∧ conn.zeroRttKeys.isSome then
      conn.nextStreamToSend.map .zeroRttStream
    else none

def buildWork :
    Work → Option (Connection T C × Packet)
  | .crypto space => conn.buildCryptoPacket space now
  | .zeroRttStream id => conn.buildZeroRttStreamPacket id now
  | .handshakeDone => conn.buildHandshakeDonePacket now
  | .flowUpdate => conn.buildFlowUpdatePacket now
  | .reset id => conn.buildResetPacket id now
  | .stream id => conn.buildStreamPacket id now
  | .mtuProbe size => conn.buildMtuProbePacket size now
  | .ping => conn.buildPingPacket now

def sendWork (work : Work) : Option (Connection T C × Option (List Packet)) := do
  let (built, packet) ← conn.buildWork now work
  some ({ built with probePending := built.probePending - 1 }, some [packet])

def nextIdleWork : Connection T C × Option Work :=
  let search :=
    if conn.hasDataKeys ∧ conn.handshakeConfirmed ∧ conn.mtuProbePn.isNone then
      conn.pmtud.nextProbeSize
    else
      (conn.pmtud, none)
  let probing := { conn with pmtud := search.1 }
  match search.2 with
  | some size => (probing, some (.mtuProbe size))
  | none =>
    (probing,
      if conn.hasDataKeys ∧ conn.pingPending then some .ping else none)

/-- A closed connection sends its close once and is silent otherwise. -/
def pollClosed : Option (Connection T C × Option (List Packet)) :=
  let quiet := { conn.clearAckSchedules with closeTime := conn.closeTime.or (some now) }
  if quiet.closePending.isSome && !quiet.closeSent then quiet.buildClosePacket now
  else some (quiet, none)

/-- Send the ACK of a space; the Initial space may have waited for it to be
discarded. -/
def sendAck (space : SpaceId) (now : Nat) : Option (Connection T C × Option (List Packet)) := do
  let (built, packet) ← conn.buildAckPacket space now
  let final :=
    if space = .initial ∧ built.discardInitialAfterAck then
      { built with discardInitialAfterAck := false }.discardSpace .initial
    else
      built
  some (final, some [packet])

def pollTransmitInner : Option (Connection T C × Option (List Packet)) :=
  let ready := conn.prepareTransmit now
  if ready.closed.isSome then
    ready.pollClosed now
  else if ready.amplificationBlocked then
    some (ready, none)
  else
    match ready.nextAckSpace now with
    | some space => ready.sendAck space now
    | none =>
      if !ready.congestionOk then
        some (ready, none)
      else
        match ready.nextWork now with
        | some work => ready.sendWork now work
        | none =>
          match ready.nextIdleWork with
          | (idle, some work) => idle.sendWork now work
          | (idle, none) => some (idle, none)

def datagramLen (packets : List Packet) : Nat := (packets.map Packet.len).sum

/-- The next datagram to send, if any. While the peer is unvalidated its bytes
draw down the amplification budget. -/
def pollTransmit : Option (Connection T C × Option (List Packet)) := do
  let (polled, datagram) ← conn.pollTransmitInner now
  match datagram with
  | none => some (polled, none)
  | some packets =>
    if polled.peerAddrValidated then
      some (polled, some packets)
    else
      some
        ({ polled with antiAmpSent := polled.antiAmpSent + datagramLen packets },
          some packets)

end Dispatcher

end ParallaX.Quic.Connection
