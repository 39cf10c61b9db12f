import ParallaX.Quic.Loss
import ParallaX.Quic.Transmit

/-!
# Received datagrams

How a connection opens the packets of a datagram and applies their frames.
-/

namespace ParallaX.Quic

/-- The decoded frames of a payload with their wire types, up to and including
the first decoding error. Every frame takes a byte, so the length of the
payload bounds the rounds. -/
def Iter.collect : Nat → Iter → List (Nat × Except FrameError Frame)
  | 0, _ => []
  | rounds + 1, iter =>
    match iter.next with
    | none => []
    | some (.error failure, later) => [(later.lastFrameType, .error failure)]
    | some (.ok frame, later) => (later.lastFrameType, .ok frame) :: collect rounds later

def decodeFrames (payload : List UInt8) : List (Nat × Except FrameError Frame) :=
  (Iter.new payload).collect payload.length

def FrameError.debug : FrameError → String
  | .truncated => "Truncated"
  | .unknownFrame ty => "UnknownFrame(" ++ toString ty ++ ")"
  | .malformed => "Malformed"

def framePermitted (space : PacketSpace) (side : Side) (frameType : Nat) : Bool :=
  if side = .server ∧ frameType ∈ [0x07, 0x1e] then
    false
  else
    match space with
    | .initial | .handshake => decide (frameType ∈ [0x00, 0x01, 0x02, 0x03, 0x06, 0x1c])
    | .zeroRtt => decide (frameType ∉ [0x02, 0x03, 0x06, 0x07, 0x19, 0x1b, 0x1e])
    | .oneRtt => true

def withFrameType (failure : QuicTlsError) (frameType : Nat) : QuicTlsError :=
  match failure with
  | .transport errorCode _ reason => .transport errorCode frameType reason
  | .protocol reason => .transport 0x0a frameType reason
  | .crypto reason => .transport 0x01 frameType reason
  | other => other

namespace Connection

variable {T C : Type} [TlsSession T] [Controller C]

/-- Reassemble a CRYPTO fragment, and return the bytes that are now in
order. -/
def reassembleCrypto (sp : Space) (offset : Nat) (data : List UInt8) :
    Space × Except QuicTlsError (List UInt8) :=
  if sp.cryptoRecvOff < offset then
    if MAX_CRYPTO_REASSEMBLY < offset - sp.cryptoRecvOff ∨
        MAX_CRYPTO_REASSEMBLY < bufferedBytes sp.cryptoPending + data.length ∨
        MAX_CRYPTO_PENDING_FRAGMENTS ≤ sp.cryptoPending.length then
      (sp, .error (.transport 0x0d 0x06 "CRYPTO reassembly window exceeded"))
    else
      ({ sp with cryptoPending := sp.cryptoPending ++ [(offset, data)] }, .ok [])
  else
    let drain := drainContiguous sp.cryptoPending sp.cryptoRecvOff offset data []
    ({ sp with cryptoPending := drain.pending, cryptoRecvOff := drain.recvOff },
      .ok drain.sink)

variable (conn : Connection T C) (space : SpaceId)

/-- Receive a CRYPTO frame, and feed the TLS engine what is in order. -/
def recvCrypto (offset : Nat) (data : List UInt8) : Connection T C × Except QuicTlsError Unit :=
  if data.isEmpty then
    (conn, .ok ())
  else
    let result := reassembleCrypto (conn.spaces space) offset data
    let stored := conn.modifySpace space fun _ => result.1
    match result.2 with
    | .error failure => (stored, .error failure)
    | .ok [] => (stored, .ok ())
    | .ok (byte :: bytes) =>
      let read := TlsSession.readHandshake stored.tls (byte :: bytes)
      ({ stored with tls := read.1 }, read.2)

/-! ## Frames -/

def onStreams (operation : Streams → Streams × Except QuicTlsError Unit) :
    Connection T C × Except QuicTlsError Unit :=
  let result := operation conn.toStreams
  ({ conn with toStreams := result.1 }, result.2)

def recvStopSending (id errorCode frameType : Nat) : Connection T C × Except QuicTlsError Unit :=
  if isUni id && conn.isPeerInitiated id then
    (conn, .error (.transport 0x05 0x05 "STOP_SENDING on a receive-only stream"))
  else if conn.streamRetired id then
    (conn, .ok ())
  else if !conn.isPeerInitiated id && !conn.streams.contains id then
    (conn, .error (.transport 0x05 0x05 "STOP_SENDING on an unopened locally-initiated stream"))
  else
    let params := conn.peerParams
    conn.onStreams fun table =>
      match table.ensureStream id frameType with
      | (ensured, .error failure) => (ensured, .error failure)
      | (ensured, .ok ()) => (ensured.resetStream params id errorCode, .ok ())

def recvMaxStreamsFrame (dir : Dir) (limit : Nat) : Connection T C × Except QuicTlsError Unit :=
  if 2 ^ 60 < limit then
    (conn, .error (.transport 0x07 (if dir = .uni then 0x13 else 0x12) "MAX_STREAMS exceeds 2^60"))
  else
    (conn.mapStreams fun table =>
        { table with
          sendMaxStreams :=
            Function.update table.sendMaxStreams dir (max (table.sendMaxStreams dir) limit) },
      .ok ())

def recvHandshakeDone : Connection T C :=
  if conn.side = .client then { conn with handshakeConfirmed := true }.discardSpace .handshake
  else conn

def recvClose (close : Close) (now : Nat) : Connection T C :=
  if conn.closed.isSome then
    conn
  else
    { conn with
      closed := some
        (if close.application then .peerApp close.errorCode close.reason
          else
            .peerTransport close.errorCode close.frameType close.reason)
      closeTime := some now }

/-- What the handling of a frame depends on besides the connection. -/
structure FrameContext where
  space : SpaceId
  /-- The generation a 1-RTT packet was received under. -/
  receiveGeneration : Option Nat
  now : Nat

/-- A frame other than ACK, PADDING and CONNECTION_CLOSE elicits an ACK. -/
def isAckEliciting : Frame → Bool
  | .ack _ | .padding _ | .close _ => false
  | _ => true

def withType (frameType : Nat) (result : Connection T C × Except QuicTlsError Unit) :
    Connection T C × Except QuicTlsError Unit :=
  (result.1, result.2.mapError (withFrameType · frameType))

def processFrame (context : FrameContext)
    (frameType : Nat) : Frame → Connection T C × Except QuicTlsError Unit
  | .crypto offset data => withType frameType (conn.recvCrypto context.space offset data)
  | .stream id offset fin data =>
    withType frameType (conn.onStreams (·.recvStream id offset fin data))
  | .resetStream id errorCode finalSize => conn.onStreams (·.recvResetStream id errorCode finalSize)
  | .stopSending id errorCode => conn.recvStopSending id errorCode frameType
  | .maxData limit =>
    (conn.mapStreams fun table =>
        { table with sendMaxData := max table.sendMaxData limit },
      .ok ())
  | .maxStreamData id limit =>
    (conn.mapStreams (·.modifyStream id fun stream =>
        { stream with sendMax := max stream.sendMax limit }),
      .ok ())
  | .maxStreams dir limit => conn.recvMaxStreamsFrame dir limit
  | .ack ack =>
    withType frameType (conn.recvAck context.space ack context.receiveGeneration context.now)
  | .handshakeDone => (conn.recvHandshakeDone, .ok ())
  | .close close => (conn.recvClose close context.now, .ok ())
  | _ => (conn, .ok ())

/-- Apply the frames of a payload in order until one fails. The result tells
whether the packet elicits an ACK. -/
def processFrames (conn : Connection T C) (context : FrameContext) (level : PacketSpace) :
    List (Nat × Except FrameError Frame) → Bool → Connection T C × Except QuicTlsError Bool
  | [], ackEliciting => (conn, .ok ackEliciting)
  | (frameType, .error failure) :: _, _ =>
    (conn, .error (.transport 0x07 frameType ("frame decode failed: " ++ failure.debug)))
  | (frameType, .ok frame) :: frames, ackEliciting =>
    if !framePermitted level conn.side frameType then
      (conn.closeTransport 0x0a frameType (reasonBytes "frame not permitted"),
        .error (.transport 0x0a frameType "frame not permitted"))
    else
      match conn.processFrame context frameType frame with
      | (failed, .error failure) => (failed, .error failure)
      | (applied, .ok ()) =>
        applied.processFrames context level frames (ackEliciting || isAckEliciting frame)

/-! ## Packets -/

/-- A packet that opened: its payload, the generation it was read under if it
is a 1-RTT packet, and the Initial keys it established. -/
structure Opened where
  payload : List UInt8
  generation : Option ReadGeneration
  pendingInitial : Option (ConnectionId × Keys)

variable (level : PacketSpace)

/-- The keys a long-header packet opens with. A server derives its Initial
keys from the first Initial. -/
def longKeys (longCids : Option (ConnectionId × ConnectionId)) :
    Option (Keys × Option (ConnectionId × Keys)) :=
  match level, longCids with
  | .zeroRtt, _ => conn.zeroRttKeys.map fun keys => (keys, none)
  | .initial, some (dcid, _) =>
    if conn.side = .server ∧ (conn.spaces .initial).keys.isNone then
      let keys := TlsSession.initialKeys (T := T) dcid .server
      some (keys, some (dcid, keys))
    else
      (conn.spaces .initial).keys.map fun keys => (keys, none)
  | level, _ => (conn.spaces (spaceIndex level)).keys.map fun keys => (keys, none)

variable (packet : WirePacket)

/-- The level of a packet that is to be opened; any other packet is
dropped. -/
def admittedLevel : Option PacketSpace :=
  match packet.level with
  | none => none
  | some level =>
    if conn.side = .client ∧ level = .zeroRtt then none
    else if conn.closed.isSome then none
    else if level = .oneRtt ∧ TlsSession.isHandshaking conn.tls then none
    else if (conn.spaces (spaceIndex level)).discarded then none
    else if level ∈ [.initial, .handshake] ∧ packet.longCids.isNone then none
    else some level

/-- The attempt to open an admitted packet. `none` means that there is no key
for it; the inner `none` that it did not open. -/
def openPacket (now : Nat) : Option (Option Opened) :=
  let largest := (conn.spaces (spaceIndex level)).recv.largest
  if level = .oneRtt then
    some ((conn.openDataPacket packet largest now).map fun opened =>
      ⟨opened.1, some opened.2, none⟩)
  else
    (conn.longKeys level packet.longCids).map fun keys =>
      (packet.openPayload keys.1.remoteKey largest).map fun payload =>
        ⟨payload, none, keys.2⟩

def noteOpenFailed : Connection T C :=
  if level = .oneRtt then
    { conn with
      dataPacketsOpenFailed :=
        saturatingSucc conn.dataPacketsOpenFailed }.enforceAeadIntegrityLimit
  else
    conn

/-- Commit a new packet to its key generation. The result is the generation
it counts for. -/
def commitGeneration (generation : Option ReadGeneration) (pn now : Nat) :
    Connection T C × Except QuicTlsError (Option Nat) :=
  match generation with
  | none => (conn, .ok none)
  | some generation =>
    match conn.commitDataGeneration generation pn now with
    | (failed, .error failure) => (failed, .error failure)
    | (committed, .ok ()) =>
      (committed,
        .ok (some
          (if generation = .previous then committed.keyPhase.rx - 1
            else committed.keyPhase.rx)))

def adoptIds (pendingInitial : Option (ConnectionId × Keys))
    (longCids : Option (ConnectionId × ConnectionId)) : Connection T C :=
  let keyed :=
    match pendingInitial with
    | none => conn
    | some (dcid, keys) =>
      { conn.modifySpace .initial fun sp => { sp with keys := some keys } with initialDcid := dcid }
  match longCids with
  | none => keyed
  | some (_, scid) =>
    if keyed.peerCidAdopted then keyed
    else { keyed with dcid := scid, peerCidAdopted := true }

/-- A Handshake packet proves the peer's address and ends the Initial space. -/
def noteHandshakePacket : Connection T C :=
  if space = .handshake then
    let discarded :=
      if (conn.spaces .initial).keys.isSome then
        if conn.side = .client ∧ (conn.spaces .initial).ackPending then
          { conn with discardInitialAfterAck := true }
        else
          conn.discardSpace .initial
      else
        conn
    { discarded with peerAddrValidated := true }
  else
    conn

/-- What an authenticated new packet establishes before its frames are read. -/
def acceptPacket (pendingInitial : Option (ConnectionId × Keys))
    (ecn : EcnCodepoint) (now : Nat) : Connection T C :=
  let space := spaceIndex level
  let longCids :=
    if level ∈ [.initial, .handshake] then packet.longCids else none
  let adopted := { conn with lastRecvTime := some now }.adoptIds pendingInitial longCids
  let counted := adopted.modifySpace space fun sp =>
    { sp with recvEcn := sp.recvEcn.record ecn }
  counted.noteHandshakePacket space

def stampLargest (pn now : Nat) : Connection T C :=
  if (conn.spaces space).recv.largest = some pn then
    conn.modifySpace space fun sp => { sp with largestRecvTime := some now }
  else
    conn

/-- What follows once all frames of a packet were applied. -/
def finishPacket (pn : Nat) (ackEliciting immediate : Bool) (now : Nat) :
    Connection T C × Except QuicTlsError Unit :=
  let scheduled := (conn.stampLargest space pn now).scheduleAck space ackEliciting immediate now
  match scheduled.prevalidatePeerTransportParams with
  | (failed, .error failure) => (failed, .error failure)
  | (validated, .ok ()) =>
    match validated.pumpWrite.applyAuthenticatedPeerAckParams with
    | (failed, .error failure) => (failed, .error failure)
    | (applied, .ok ()) => (applied.maybeQueueHandshakeDone, .ok ())

def processOpened (opened : Opened) (ecn : EcnCodepoint)
    (now : Nat) : Connection T C × Except QuicTlsError Unit :=
  let space := spaceIndex level
  let pn := packet.packetNumber
  let largest := (conn.spaces space).recv.largest
  if opened.generation.any fun generation =>
      !conn.keyPhase.validReceive generation pn then
    (conn, .error (.transport 0x0e 0 "invalid key phase packet-number ordering"))
  else
    let received := (conn.spaces space).recv.insert pn
    if !received.2 then
      (conn, .ok ())
    else
      let inserted := conn.modifySpace space fun sp =>
        { sp with recv := received.1 }
      match inserted.commitGeneration opened.generation pn now with
      | (failed, .error failure) => (failed, .error failure)
      | (committed, .ok receiveGeneration) =>
        let immediate :=
          decide (level ≠ .oneRtt) || !committed.handshakeConfirmed ||
            decide (opened.generation = some .next) ||
            largest.any (fun largest => pn ≠ largest + 1) || decide (ecn = .ce)
        let accepted := committed.acceptPacket level packet opened.pendingInitial ecn now
        match accepted.processFrames ⟨space, receiveGeneration, now⟩ level
            (decodeFrames opened.payload) false with
        | (failed, .error failure) => (failed, .error failure)
        | (applied, .ok ackEliciting) => applied.finishPacket space pn ackEliciting immediate now

def processPacket (ecn : EcnCodepoint) (now : Nat) : Connection T C × Except QuicTlsError Unit :=
  match conn.admittedLevel packet with
  | none => (conn, .ok ())
  | some level =>
    match conn.openPacket level packet now with
    | none => (conn, .ok ())
    | some none => (conn.noteOpenFailed level, .ok ())
    | some (some opened) => conn.processOpened level packet opened ecn now

/-- Process the packets of a datagram until one fails or does not say where
it ends. -/
def processPackets (conn : Connection T C) (ecn : EcnCodepoint) (now : Nat) :
    List WirePacket → Connection T C × Except QuicTlsError Unit
  | [] => (conn, .ok ())
  | packet :: packets =>
    match conn.processPacket packet ecn now with
    | (failed, .error failure) => (failed, .error failure)
    | (processed, .ok ()) =>
      if packet.delimited then processed.processPackets ecn now packets
      else (processed, .ok ())

def handleDatagram (datagram : Datagram) (ecn : EcnCodepoint) (now : Nat) :
    Connection T C × Except QuicTlsError Unit :=
  let counted :=
    if conn.peerAddrValidated then conn
    else { conn with antiAmpRecv := conn.antiAmpRecv + datagram.len }
  counted.processPackets ecn now datagram.packets

end Connection

end ParallaX.Quic
