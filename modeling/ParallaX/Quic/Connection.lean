import ParallaX.Quic.Congestion
import ParallaX.Quic.KeyPhase
import ParallaX.Quic.Pmtud
import ParallaX.Quic.Spaces
import ParallaX.Quic.StreamRecv
import ParallaX.Quic.StreamSend

/-!
# The connection

The state of a connection, and the operations on its keys, its lifecycle and
its acknowledgement schedule. The fields of the source's `Connection` are
grouped by what they are about. The TLS session and the congestion controller
are the traits of the source.
-/

namespace ParallaX.Quic

inductive KeyChange where
  | zeroRtt (keys : Keys)
  | handshake (keys : Keys)
  | oneRtt (keys : Keys)
deriving DecidableEq, Repr

/-- The operations of a TLS session that the connection uses. -/
class TlsSession (T : Type) where
  readHandshake : T → List UInt8 → T × Except QuicTlsError Unit
  writeHandshake : T → T × List UInt8 × Option KeyChange
  /-- How many calls of `writeHandshake` may still return something. -/
  backlog : T → Nat
  next1rttKeys : T → T × Except QuicTlsError (PacketKey × PacketKey)
  isHandshaking : T → Bool
  /-- The parameters of the peer, once available, as far as they parse. -/
  peerTransportParameters : T → Option (Except String TransportParameters)
  initialKeys : ConnectionId → Side → Keys

def MIN_INITIAL_DATAGRAM : Nat := 1200

def MAX_DATAGRAM : Nat := 1252

def SAFARI_INITIAL_CRYPTO_CHUNK : Nat := 999

def MAX_CRYPTO_REASSEMBLY : Nat := 64 * 1024

def MAX_CRYPTO_PENDING_FRAGMENTS : Nat := 256

def ACK_DELAY_EXPONENT : Nat := 3

def MAX_ACK_DELAY : Nat := fromMillis 25

def MAX_PTO_BACKOFF : Nat := 8

def KEEP_ALIVE_MIN : Nat := fromSecs 10

def IDLE_TIMEOUT : Nat := fromSecs 30

def APPLICATION_ERROR : Nat := 0x0c

def QUIC_VERSION_V1 : Nat := 1

/-! ## State -/

inductive CloseReason where
  | localApp (errorCode : Nat) (reason : List UInt8)
  | localTransport (errorCode frameType : Nat) (reason : List UInt8)
  | peerApp (errorCode : Nat) (reason : List UInt8)
  | peerTransport (errorCode frameType : Nat) (reason : List UInt8)
  | idleTimeout
deriving DecidableEq, Repr

/-- The CONNECTION_CLOSE to send; an application close has no frame type. -/
structure PendingClose where
  errorCode : Nat
  frameType : Option Nat
  reason : List UInt8
deriving DecidableEq, Repr

inductive EcnCodepoint where
  | notEct
  | ect0
  | ect1
  | ce
deriving DecidableEq, Repr

def EcnCounts.record (counts : EcnCounts) : EcnCodepoint → EcnCounts
  | .ect0 => { counts with ect0 := counts.ect0 + 1 }
  | .ect1 => { counts with ect1 := counts.ect1 + 1 }
  | .ce => { counts with ce := counts.ce + 1 }
  | .notEct => counts

def EcnCounts.any (counts : EcnCounts) : Bool :=
  counts.ect0 != 0 || counts.ect1 != 0 || counts.ce != 0

inductive SpaceId where
  | initial
  | handshake
  | data
deriving DecidableEq, Repr

def SpaceId.all : List SpaceId := [.initial, .handshake, .data]

def spaceIndex : PacketSpace → SpaceId
  | .initial => .initial
  | .handshake => .handshake
  | .zeroRtt | .oneRtt => .data

structure SentRecord where
  send : PacketNumberSpace
  sent : SentPackets
  /-- What the ack-eliciting packets in `sent` carried. -/
  sentContent : BTreeMap SentContent

/-- The part of a space that its timers and its ACK schedule leave alone. -/
structure SpaceCore extends SentRecord where
  keys : Option Keys
  discarded : Bool
  recv : ReceivedPackets
  retransmitCrypto : List (Nat × Nat)
  cryptoSend : List UInt8
  cryptoSendOff : Nat
  cryptoRecvOff : Nat
  cryptoPending : List (Fragment UInt8)

structure Space extends SpaceCore where
  recvEcn : EcnCounts
  ackPending : Bool
  ackElicitingCount : Nat
  ackDeadline : Option Nat
  largestRecvTime : Option Nat
  lossTime : Option Nat
  lastAckEliciting : Option Nat

def Space.new : Space :=
  { keys := none
    discarded := false
    send := .new
    recv := .new
    sent := .new
    sentContent := ∅
    recvEcn := ⟨0, 0, 0⟩
    ackPending := false
    ackElicitingCount := 0
    ackDeadline := none
    largestRecvTime := none
    retransmitCrypto := []
    lossTime := none
    lastAckEliciting := none
    cryptoSend := []
    cryptoSendOff := 0
    cryptoRecvOff := 0
    cryptoPending := [] }

structure Identity where
  version : Nat
  initialDcid : ConnectionId
  dcid : ConnectionId
  scid : ConnectionId
  peerCidAdopted : Bool

/-- The recovery state that all spaces share. -/
structure PathState (C : Type) where
  rtt : RttEstimator
  cc : C
  pacer : Pacer
  pmtud : Pmtud
  mtuProbePn : Option Nat
  peerEcnCe : Nat
  delivered : Nat
  ptoCount : Nat
  probePending : Nat

structure Sealed where
  space : SpaceId
  key : PacketKey
  pn : Nat
deriving DecidableEq, Repr

structure KeyState where
  /-- History that only proofs read: the packets sealed so far. -/
  sealedPackets : List Sealed
  dataPacketsSealed : Nat
  zeroRttPacketsSealed : Nat
  keyPhase : KeyPhaseState
  nextPacketKeys : Option NextPacketKeys
  previousReadKey : Option PreviousReadKey
  nextUpdateAt : Option Nat
  dataPacketsOpenFailed : Nat
  zeroRttKeys : Option Keys

structure HandshakeState where
  handshakeDonePending : Bool
  handshakeConfirmed : Bool
  peerAckDelayExponent : Nat
  peerMaxAckDelay : Nat
  peerAckParamsApplied : Bool
  peerTransportParamsPrevalidated : Bool
  discardInitialAfterAck : Bool
  peerAddrValidated : Bool
  antiAmpRecv : Nat
  antiAmpSent : Nat
  writeLevel : SpaceId

structure Lifecycle where
  closed : Option CloseReason
  closePending : Option PendingClose
  closeSent : Bool
  closeTime : Option Nat
  drained : Bool

structure TimerState where
  lastSendTime : Option Nat
  keepaliveInterval : Nat
  pingPending : Bool
  lastRecvTime : Option Nat
  createdAt : Nat

structure Connection (T C : Type) extends
    Identity, Streams, PathState C, KeyState, HandshakeState, Lifecycle, TimerState where
  tls : T
  spaces : SpaceId → Space

def reasonBytes (text : String) : List UInt8 := text.toUTF8.toList

def saturatingSucc (value : Nat) : Nat := min (value + 1) (2 ^ 64 - 1)

namespace Connection

variable {T C : Type}

/-- The connection with role-independent fields at their initial values. -/
def new (side : Side) (tls : T) (cc : C)
    (initialDcid dcid scid : ConnectionId) (nextBidi nextUni : Nat)
    (recvMaxStreamsSent : Dir → Nat) (keepaliveInterval createdAt : Nat) : Connection T C :=
  { version := QUIC_VERSION_V1
    initialDcid := initialDcid
    dcid := dcid
    scid := scid
    peerCidAdopted := false
    toStreams := Streams.new side nextBidi nextUni recvMaxStreamsSent
    rtt := .new
    cc := cc
    pacer := .new
    pmtud := .new
    mtuProbePn := none
    peerEcnCe := 0
    delivered := 0
    ptoCount := 0
    probePending := 0
    sealedPackets := []
    dataPacketsSealed := 0
    zeroRttPacketsSealed := 0
    keyPhase := .new
    nextPacketKeys := none
    previousReadKey := none
    nextUpdateAt := none
    dataPacketsOpenFailed := 0
    zeroRttKeys := none
    handshakeDonePending := false
    handshakeConfirmed := false
    peerAckDelayExponent := ACK_DELAY_EXPONENT
    peerMaxAckDelay := MAX_ACK_DELAY
    peerAckParamsApplied := false
    peerTransportParamsPrevalidated := false
    discardInitialAfterAck := false
    peerAddrValidated := decide (side = .client)
    antiAmpRecv := 0
    antiAmpSent := 0
    writeLevel := .initial
    closed := none
    closePending := none
    closeSent := false
    closeTime := none
    drained := false
    lastSendTime := none
    keepaliveInterval := keepaliveInterval
    pingPending := false
    lastRecvTime := none
    createdAt := createdAt
    tls := tls
    spaces _ := Space.new }

variable (conn : Connection T C) (space : SpaceId)

def modifySpace (change : Space → Space) : Connection T C :=
  { conn with spaces := Function.update conn.spaces space (change (conn.spaces space)) }

def mapStreams (change : Streams → Streams) : Connection T C :=
  { conn with toStreams := change conn.toStreams }

def clearAckSchedules : Connection T C :=
  { conn with
    spaces space :=
      { conn.spaces space with ackPending := false, ackElicitingCount := 0, ackDeadline := none } }

def close (errorCode : Nat) (reason : List UInt8) : Connection T C :=
  if conn.closed.isSome then
    conn
  else
    clearAckSchedules
      { conn with
        closed := some (.localApp errorCode reason)
        closePending := some ⟨errorCode, none, reason⟩ }

def closeTransport (errorCode frameType : Nat) (reason : List UInt8) : Connection T C :=
  if conn.closed.isSome then
    conn
  else
    clearAckSchedules
      { conn with
        closed := some (.localTransport errorCode frameType reason)
        closePending := some ⟨errorCode, some frameType, reason⟩ }

/-- Close without another encrypted packet. -/
def retireDataConnection (reason : String) : Connection T C :=
  clearAckSchedules
    { conn with
      closed := conn.closed.or (some (.localApp 0 (reasonBytes reason)))
      closePending := none }

def closeOnExhaustedDataKey (sealed limit : Nat) : Connection T C :=
  if sealed < limit then
    conn
  else
    { conn with
      closed := conn.closed.or
        (some (.localApp 0 (reasonBytes "AEAD confidentiality limit reached")))
      closePending := none }

def ptoSpaceEligible (confirmed : Bool) : Bool := decide (space ≠ .data) || confirmed

def peerAckDelayForPto (confirmed : Bool) (peerMax : Nat) : Nat :=
  if space = .data ∧ confirmed then peerMax else 0

def bytesInFlight : Nat :=
  (conn.spaces .initial).sent.inFlight + (conn.spaces .handshake).sent.inFlight +
    (conn.spaces .data).sent.inFlight

def ptoDuration : Nat :=
  (conn.rtt.ptoBase + peerAckDelayForPto space conn.handshakeConfirmed conn.peerMaxAckDelay) *
    2 ^ min conn.ptoCount MAX_PTO_BACKOFF

def drainDuration : Nat :=
  3 * (conn.rtt.ptoBase + peerAckDelayForPto .data conn.handshakeConfirmed conn.peerMaxAckDelay)

def ackCountAfterPacket (count : Nat) (ackEliciting immediate : Bool) : Nat :=
  if !ackEliciting then count
  else if immediate then 2
  else min (count + 1) 2

def ackCountDue (count : Nat) (expired : Bool) : Bool :=
  decide (2 ≤ count) || (decide (count ≠ 0) && expired)

def scheduleAck (ackEliciting immediate : Bool) (now : Nat) : Connection T C :=
  if conn.closed.isSome then
    conn.clearAckSchedules
  else if !ackEliciting then
    conn
  else
    conn.modifySpace space fun sp =>
      let count := ackCountAfterPacket sp.ackElicitingCount ackEliciting immediate
      let deadline := if 2 ≤ count then now else now + MAX_ACK_DELAY
      { sp with
        ackPending := true
        ackElicitingCount := count
        ackDeadline := some (sp.ackDeadline.elim deadline (min · deadline)) }

variable (now : Nat)

def ackReadyForSpace : Bool :=
  let sp := conn.spaces space
  sp.ackPending &&
    (decide (space ≠ .data) || !conn.handshakeConfirmed ||
      ackCountDue sp.ackElicitingCount (sp.ackDeadline.any (· ≤ now)))

/-- The budget of an unvalidated peer does not cover another datagram. -/
def amplificationBlocked : Bool :=
  !conn.peerAddrValidated && decide (conn.antiAmpRecv * 3 < conn.antiAmpSent + MAX_DATAGRAM)

def discardSpace : Connection T C :=
  conn.modifySpace space fun _ => { Space.new with discarded := true }

/-! ## Key updates -/

section Keys

variable [TlsSession T]

def cacheNextPacketKeys (conn : Connection T C) : Connection T C × Except QuicTlsError Unit :=
  if conn.nextPacketKeys.any fun next =>
      next.localKey.isSome || next.remoteKey.isSome then
    (conn, .ok ())
  else
    match checkedSucc (max conn.keyPhase.tx conn.keyPhase.rx) with
    | none => (conn, .error (.crypto "key generation exhausted"))
    | some generation =>
      match TlsSession.next1rttKeys conn.tls with
      | (tls, .error failure) => ({ conn with tls := tls }, .error failure)
      | (tls, .ok (localKey, remoteKey)) =>
        ({ conn with
            tls := tls
            nextPacketKeys :=
              some ⟨generation, some localKey, some remoteKey⟩ },
          .ok ())

end Keys

def setLocalDataKey (key : PacketKey) : Connection T C :=
  conn.modifySpace .data fun sp =>
    { sp with keys := sp.keys.map fun keys => { keys with localKey := key } }

def setRemoteDataKey (key : PacketKey) : Connection T C :=
  conn.modifySpace .data fun sp =>
    { sp with keys := sp.keys.map fun keys => { keys with remoteKey := key } }

/-- Switch the sending direction to the cached generation. -/
def installSendKey (generation : Nat) : Connection T C × Except QuicTlsError Unit :=
  match conn.nextPacketKeys with
  | none => (conn, .error (.crypto "missing next sending generation"))
  | some next =>
    if next.generation ≠ generation then
      (conn, .error (.crypto "missing next sending generation"))
    else
      match next.localKey with
      | none => (conn, .error (.crypto "sending generation already consumed"))
      | some key =>
        let consumed := { conn with nextPacketKeys := some { next with localKey := none } }
        if (conn.spaces .data).keys.isNone then
          (consumed, .error (.panic "1-RTT keys present"))
        else
          ({ consumed.setLocalDataKey key with
              keyPhase := conn.keyPhase.installTx generation
              dataPacketsSealed := 0
              nextUpdateAt := none },
            .ok ())

/-- Start a key update when one is allowed. The flag tells whether one was
started. -/
def initiateKeyUpdate : Connection T C × Except QuicTlsError Bool :=
  if conn.closed.isSome || conn.nextUpdateAt.any (now < ·) then
    (conn, .ok false)
  else
    match conn.keyPhase.activeSuccessor conn.handshakeConfirmed with
    | none => (conn, .ok false)
    | some generation =>
      match conn.installSendKey generation with
      | (installed, .error failure) => (installed, .error failure)
      | (installed, .ok ()) => (installed, .ok true)

/-- Rotate the sending key once half its budget is spent. -/
def maybeUpdateSendKey : Connection T C :=
  match (conn.spaces .data).keys with
  | none => conn
  | some keys =>
    let limit := keys.localKey.confidentialityLimit
    if conn.dataPacketsSealed < limit ∧
        limit / 2 ≤ conn.dataPacketsSealed then
      match conn.initiateKeyUpdate now with
      | (updated, .ok _) => updated
      | (updated, .error _) =>
        updated.retireDataConnection "key update derivation failed"
    else
      conn

def retirePreviousReadKey : Connection T C :=
  if conn.previousReadKey.any (·.retireAt ≤ now) then { conn with previousReadKey := none }
  else conn

def readKey (keys : Keys) (generation : ReadGeneration) (now : Nat) : Option PacketKey :=
  match generation with
  | .current => some keys.remoteKey
  | .previous =>
    match conn.previousReadKey with
    | none => none
    | some previous =>
      if now < previous.retireAt then some previous.key else none
  | .next =>
    match conn.nextPacketKeys with
    | none => none
    | some next =>
      if checkedSucc conn.keyPhase.rx = some next.generation then
        next.remoteKey
      else none
  | .unavailable => none

/-- Open a 1-RTT packet with one attempt. Without a key for its generation
the attempt is made with the current key and the generation is unavailable. -/
def openDataPacket (packet : WirePacket) (largest : Option Nat) (now : Nat) :
    Option (List UInt8 × ReadGeneration) :=
  match (conn.spaces .data).keys with
  | none => none
  | some keys =>
    let claimed := conn.keyPhase.select packet.keyPhase (packet.reconstructedPn largest)
    let selected := conn.readKey keys claimed now
    let generation := if selected.isSome then claimed else .unavailable
    (packet.openPayload (selected.getD keys.remoteKey) largest).map
      fun payload => (payload, generation)

section Keys

variable [TlsSession T] (conn : Connection T C)

/-- Take the cached opening key into use, and keep the old one for a while. -/
def switchReadKey (next : NextPacketKeys)
    (keys : Keys) (readKey : PacketKey) (now : Nat) : Connection T C :=
  { ({ conn with
        nextPacketKeys :=
          some { next with remoteKey := none } }).setRemoteDataKey readKey with
    previousReadKey := some ⟨keys.remoteKey, now + conn.drainDuration⟩ }

/-- Answer a key update of the peer with the next sending generation. -/
def answerUpdate : Connection T C × Except QuicTlsError Unit :=
  if conn.keyPhase.tx < conn.keyPhase.rx then conn.installSendKey conn.keyPhase.rx
  else (conn, .ok ())

/-- Move to the next receiving generation: switch the opening key, answer with
the next sending generation, and cache another one. -/
def adoptNextGeneration (now : Nat) : Connection T C × Except QuicTlsError Unit :=
  match conn.nextPacketKeys, (conn.spaces .data).keys with
  | some next, some keys =>
    match next.remoteKey with
    | none => (conn, .error (.panic "authenticated cached next key"))
    | some readKey =>
      match (conn.switchReadKey next keys readKey now).answerUpdate with
      | (installed, .error failure) =>
        (installed.retireDataConnection "key update installation failed", .error failure)
      | (installed, .ok ()) =>
        match installed.cacheNextPacketKeys with
        | (cached, .error failure) =>
          (cached.retireDataConnection "key update derivation failed", .error failure)
        | (cached, .ok ()) => (cached, .ok ())
  | _, _ => (conn, .error (.panic "cached next keys"))

/-- Commit an authenticated new packet to its generation. -/
def commitDataGeneration (generation : ReadGeneration) (pn now : Nat) :
    Connection T C × Except QuicTlsError Unit :=
  match conn.keyPhase.commitReceive generation pn true true with
  | (_, false) => (conn, .error (.panic "commit_receive"))
  | (keyPhase, true) =>
    let committed := { conn with keyPhase := keyPhase }
    if generation = .next then committed.adoptNextGeneration now
    else (committed, .ok ())

/-! ## The TLS engine -/

def appendCrypto (bytes : List UInt8) : Connection T C :=
  conn.modifySpace conn.writeLevel fun sp =>
    { sp with cryptoSend := sp.cryptoSend ++ bytes }

def installHandshakeKeys (keys : Keys) : Connection T C :=
  { conn.modifySpace .handshake fun sp => { sp with keys := some keys } with
    writeLevel := .handshake }

/-- Install the 1-RTT keys; a client stops sending 0-RTT. -/
def installDataKeys (keys : Keys) : Connection T C :=
  { conn.modifySpace .data fun sp => { sp with keys := some keys } with
    writeLevel := .data
    zeroRttKeys := if conn.side = Side.client then none else conn.zeroRttKeys }

/-- Drain the TLS engine, and install keys as it hands them over. -/
def pumpWriteLoop : Nat → Connection T C → Connection T C
  | 0, conn => conn
  | rounds + 1, conn =>
    let output := TlsSession.writeHandshake conn.tls
    let written := { conn with tls := output.1 }.appendCrypto output.2.1
    match output.2.2 with
    | some (.zeroRtt keys) => pumpWriteLoop rounds { written with zeroRttKeys := some keys }
    | some (.handshake keys) => pumpWriteLoop rounds (written.installHandshakeKeys keys)
    | some (.oneRtt keys) =>
      match (written.installDataKeys keys).cacheNextPacketKeys with
      | (cached, .error _) =>
        cached.retireDataConnection "key update derivation failed"
      | (cached, .ok ()) => pumpWriteLoop rounds cached
    | none =>
      if output.2.1.isEmpty then written else pumpWriteLoop rounds written

def pumpWrite : Connection T C := pumpWriteLoop (TlsSession.backlog conn.tls + 1) conn

def peerParams : Option TransportParameters :=
  match TlsSession.peerTransportParameters conn.tls with
  | some (.ok params) => some params
  | _ => none

def prevalidatePeerTransportParams : Connection T C × Except QuicTlsError Unit :=
  if conn.peerTransportParamsPrevalidated then
    (conn, .ok ())
  else
    match TlsSession.peerTransportParameters conn.tls with
    | none => (conn, .ok ())
    | some (.error failure) =>
      (conn.closeTransport 0x08 0x06 (reasonBytes "invalid peer transport parameters"),
        .error (.transport 0x08 0x06 ("invalid peer transport parameters: " ++ failure)))
    | some (.ok _) => ({ conn with peerTransportParamsPrevalidated := true }, .ok ())

def ALERT_MISSING_EXTENSION : Nat := 109

def applyAuthenticatedPeerAckParams : Connection T C × Except QuicTlsError Unit :=
  if conn.peerAckParamsApplied || TlsSession.isHandshaking conn.tls then
    (conn, .ok ())
  else
    match TlsSession.peerTransportParameters conn.tls with
    | none =>
      (conn, .error (.alert ALERT_MISSING_EXTENSION
        "missing authenticated peer transport parameters"))
    | some (.error failure) =>
      (conn, .error (.transport 0x08 0x06 ("invalid peer transport parameters: " ++ failure)))
    | some (.ok params) =>
      ({ conn with
          peerAckDelayExponent := params.ackDelayExponent
          peerMaxAckDelay := fromMillis params.maxAckDelayMs
          peerAckParamsApplied := true },
        .ok ())

/-- A server whose handshake completed owes HANDSHAKE_DONE once. -/
def maybeQueueHandshakeDone : Connection T C :=
  if conn.side = .server ∧ !conn.handshakeConfirmed ∧
      !TlsSession.isHandshaking conn.tls ∧ (conn.spaces .data).keys.isSome then
    { conn with handshakeDonePending := true, handshakeConfirmed := true }.discardSpace .handshake
  else
    conn

/-- A client connection; `ticket` holds the parameters a resumption
remembers, if they parse. -/
def newClient (tls : T) (cc : C) (dcid scid : ConnectionId)
    (recvMaxStreamsSent : Dir → Nat) (ticket : Option TransportParameters)
    (keepaliveInterval createdAt : Nat) : Connection T C :=
  let fresh := new .client tls cc dcid dcid scid 0 2 recvMaxStreamsSent keepaliveInterval createdAt
  let keyed := fresh.modifySpace .initial fun sp =>
    { sp with keys := some (TlsSession.initialKeys (T := T) dcid .client) }
  let seeded := ticket.elim keyed fun params =>
    keyed.mapStreams (·.applyRememberedTransportParams params)
  seeded.pumpWrite

/-- A server connection; it learns its ids from the first Initial. -/
def newServer (tls : T) (cc : C) (scid : ConnectionId)
    (recvMaxStreamsSent : Dir → Nat) (keepaliveInterval createdAt : Nat) : Connection T C :=
  new .server tls cc .empty .empty scid 1 3 recvMaxStreamsSent keepaliveInterval createdAt

end Keys

/-- Close once the sending key in use has no budget left. -/
def enforceAeadConfidentialityLimit : Connection T C :=
  let early :=
    match (conn.spaces .data).keys, conn.zeroRttKeys with
    | none, some keys =>
      conn.closeOnExhaustedDataKey conn.zeroRttPacketsSealed keys.localKey.confidentialityLimit
    | _, _ => conn
  match (conn.spaces .data).keys with
  | none => early
  | some keys =>
    early.closeOnExhaustedDataKey conn.dataPacketsSealed keys.localKey.confidentialityLimit

/-- Close once too many packets failed to open. -/
def enforceAeadIntegrityLimit : Connection T C :=
  match (conn.spaces .data).keys with
  | none => conn
  | some keys =>
    if keys.remoteKey.integrityLimit ≤ conn.dataPacketsOpenFailed then
      conn.retireDataConnection "AEAD integrity limit reached"
    else
      conn

end Connection

end ParallaX.Quic
