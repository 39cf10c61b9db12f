import ParallaX.Quic.Connection

/-!
# Acknowledgements, losses and timers

What an ACK frame, a declared loss and an elapsed timer do to a connection, and
the deadline its driver arms.
-/

namespace ParallaX.Quic.Connection

variable {T C : Type}

/-! ## Lost content -/

def requeue (conn : Connection T C) (space : SpaceId) (content : SentContent) : Connection T C :=
  let resent := conn.modifySpace space fun sp =>
    { sp with retransmitCrypto := sp.retransmitCrypto ++ content.crypto }
  { resent.mapStreams (·.requeue content) with
    handshakeDonePending :=
      conn.handshakeDonePending || content.handshakeDone }

variable (conn : Connection T C) (space : SpaceId) (pn : Nat)

/-- Forget the content of a packet; in the 1-RTT space its ranges leave the
index too. -/
def takeContent (content : SentContent) : Connection T C :=
  let removed := conn.modifySpace space fun sp =>
    { sp with sentContent := sp.sentContent.erase pn }
  if space = .data then removed.mapStreams (·.unindexSentStreamRanges content)
  else removed

/-- One lost packet. A lost path-MTU probe is not a congestion signal, and
the flag tells whether this packet is one. -/
def loseOne : Connection T C × Bool :=
  if space = .data ∧ conn.mtuProbePn = some pn then
    let lowered := { conn with mtuProbePn := none, pmtud := conn.pmtud.onProbeLost }
    match (conn.spaces space).sentContent[pn]? with
    | none => (lowered, false)
    | some content => (lowered.takeContent space pn content, false)
  else
    match (conn.spaces space).sentContent[pn]? with
    | none => (conn, false)
    | some content =>
      let taken := conn.takeContent space pn content
      let noted :=
        if space = .data then { taken with pmtud := taken.pmtud.onFullSizeLoss.1 }
        else taken
      (noted.requeue space content, true)

/-- Requeue what lost packets carried. The flag tells a congestion signal. -/
def processLostPackets (conn : Connection T C) (space : SpaceId) :
    List Nat → Connection T C × Bool
  | [] => (conn, false)
  | pn :: pns =>
    let lost := conn.loseOne space pn
    let rest := lost.1.processLostPackets space pns
    (rest.1, lost.2 || rest.2)

def detectSpaceLosses (lossDelay now : Nat) : Connection T C × Bool :=
  let found := (conn.spaces space).sent.detectLost lossDelay now
  let detected := conn.modifySpace space fun sp =>
    { sp with sent := found.1, lossTime := found.2.2 }
  detected.processLostPackets space (found.2.1.map Prod.fst)

/-! ## Acknowledgements -/

/-- Confirm the sending generation by the ranges of an ACK. An ACK under an
old key must not cover a packet of a newer one. -/
def confirmRanges (keyPhase : KeyPhaseState) (generation : Nat) :
    List (Nat × Nat) → KeyPhaseState × Except QuicTlsError Unit
  | [] => (keyPhase, .ok ())
  | (low, high) :: ranges =>
    if generation < keyPhase.tx ∧ keyPhase.txFirst.any (· ≤ high) then
      (keyPhase, .error (.transport 0x0e 0 "old-key ACK for updated packet"))
    else
      confirmRanges (keyPhase.confirm generation low high).1 generation ranges

/-- The key-phase part of an ACK that arrived in a 1-RTT packet. -/
def confirmKeys (ranges : List (Nat × Nat))
    (generation now : Nat) : Connection T C × Except QuicTlsError Unit :=
  match confirmRanges conn.keyPhase generation ranges with
  | (keyPhase, .error failure) => ({ conn with keyPhase := keyPhase }, .error failure)
  | (keyPhase, .ok ()) =>
    let confirmed := { conn with keyPhase := keyPhase }
    if !conn.keyPhase.txAcked && keyPhase.txAcked && decide (0 < keyPhase.tx) then
      ({ confirmed with nextUpdateAt := some (now + conn.drainDuration) }, .ok ())
    else
      (confirmed, .ok ())

/-- Check an ACK against the key generations; only a 1-RTT packet has one. -/
def checkAckKeys (ack : Ack) (receiveGeneration : Option Nat) (now : Nat) :
    Connection T C × Except QuicTlsError Unit :=
  match receiveGeneration with
  | none => (conn, .ok ())
  | some generation => conn.confirmKeys ack.ranges generation now

def ackOne : Connection T C :=
  match (conn.spaces space).sentContent[pn]? with
  | none => conn
  | some content => (conn.takeContent space pn content).mapStreams (·.markAcked content)

/-- The streams with newly acknowledged content, in order of first sight. -/
def ackedStreams (newly : List Nat) : List Nat :=
  (newly.flatMap fun pn =>
    (conn.spaces space).sentContent[pn]?.elim [] SentContent.streamIds).foldl
    (fun ids id => if id ∈ ids then ids else ids ++ [id]) []

def noteProbe (newly : List Nat) : Connection T C :=
  if space = .data then
    if newly.any fun pn => conn.mtuProbePn = some pn then
      { conn with mtuProbePn := none, pmtud := conn.pmtud.onProbeAcked }
    else
      { conn with pmtud := conn.pmtud.onFullSizeAcked }
  else
    conn

def decodedAckDelay (raw exponent : Nat) : Nat := raw * 2 ^ exponent * 1000

/-- The delay of the peer that an RTT sample subtracts. -/
def ackDelayForRecovery (raw exponent : Nat) (space : SpaceId)
    (confirmed : Bool) (peerMax : Nat) : Nat :=
  if space ≠ .data then 0
  else if confirmed then min (decodedAckDelay raw exponent) peerMax
  else decodedAckDelay raw exponent

/-- Fold in an RTT sample when the largest number is newly acknowledged and
some newly acknowledged packet is ack-eliciting. -/
def sampleRtt (ack : Ack) (newly : List (Nat × SentPacket)) (now : Nat) : Connection T C :=
  match newly.find? fun entry => entry.1 == ack.largest with
  | none => conn
  | some (_, packet) =>
    if newly.any fun entry => entry.2.ackEliciting then
      let delay := ackDelayForRecovery ack.delay conn.peerAckDelayExponent
        space conn.handshakeConfirmed conn.peerMaxAckDelay
      { conn with rtt := conn.rtt.update delay (now - packet.timeSent) }
    else
      conn

def ackedBytes (newly : List (Nat × SentPacket)) : Nat :=
  ((newly.filter fun entry => entry.2.ackEliciting).map
    fun entry => entry.2.size).sum

section Controlled

variable [Controller C] (conn : Connection T C)

def feedController (ack : Ack) (newly : List (Nat × SentPacket)) (now : Nat) : Connection T C :=
  if ackedBytes newly = 0 then
    conn
  else
    let delivered := conn.delivered + ackedBytes newly
    let rate :=
      match newly.find? fun entry => entry.1 == ack.largest with
      | none => 0
      | some (_, packet) =>
        if 0 < now - packet.timeSent then
          Controller.deliveryRate C (delivered - packet.delivered) (now - packet.timeSent)
        else
          0
    let info : AckInfo :=
      { now := now
        bytesAcked := ackedBytes newly
        rtt := conn.rtt.latest
        deliveryRate := rate
        inFlight := conn.bytesInFlight
        delivered := delivered
        appLimited :=
          conn.nextStreamToSend.isNone && decide (conn.bytesInFlight < Controller.window conn.cc) }
    { conn with delivered := delivered, cc := Controller.onAck conn.cc info }

def congestionEvent (signal : Bool) (now : Nat) : Connection T C :=
  if signal then { conn with cc := Controller.onCongestionEvent conn.cc now }
  else conn

def reactToEcn (space : SpaceId) (ack : Ack) (now : Nat) : Connection T C :=
  match ack.ecn with
  | none => conn
  | some counts =>
    if space = .data ∧ conn.peerEcnCe < counts.ce then
      { conn with peerEcnCe := counts.ce, cc := Controller.onCongestionEvent conn.cc now }
    else
      conn

/-- The part of an ACK after its packets have left the sent record. -/
def settleAcked (space : SpaceId) (ack : Ack)
    (newly : List (Nat × SentPacket)) (now : Nat) : Connection T C :=
  let pns := newly.map Prod.fst
  let ids := conn.ackedStreams space pns
  let acked := pns.foldl (fun conn pn => conn.ackOne space pn)
    { conn with ptoCount := 0 }
  let sampled := (acked.noteProbe space pns).sampleRtt space ack newly now
  let fed := sampled.feedController ack newly now
  let detected := fed.detectSpaceLosses space fed.rtt.lossDelay now
  let reacted := (detected.1.congestionEvent detected.2 now).reactToEcn space ack now
  ids.foldl
    (fun conn id =>
      conn.mapStreams fun table =>
        (table.compactSendBuffer id).retireStream id)
    reacted

def recvAck (space : SpaceId) (ack : Ack) (receiveGeneration : Option Nat) (now : Nat) :
    Connection T C × Except QuicTlsError Unit :=
  if (conn.spaces space).send.next ≤ ack.largest then
    (conn, .error (.protocol "ACK acknowledges a packet number that was never sent"))
  else
    match conn.checkAckKeys ack receiveGeneration now with
    | (confirmed, .error failure) => (confirmed, .error failure)
    | (confirmed, .ok ()) =>
      let acked := (confirmed.spaces space).sent.onAck ack.largest ack.ranges
      let removed := confirmed.modifySpace space fun sp =>
        { sp with sent := acked.1 }
      if acked.2.isEmpty then (removed, .ok ())
      else (removed.settleAcked space ack acked.2 now, .ok ())

/-! ## Timers -/

/-- The space whose oldest packet a probe timeout takes, and that packet. -/
def probeVictim : Option (SpaceId × Nat × SentContent) :=
  SpaceId.all.findSome? fun space =>
    if ptoSpaceEligible space conn.handshakeConfirmed ∧
        0 < (conn.spaces space).sent.inFlight then
      (conn.spaces space).sentContent.toList.head?.map fun oldest =>
        (space, oldest.1, oldest.2)
    else
      none

/-- Queue a probe: resend what the oldest packet carried. -/
def queueProbe : Connection T C :=
  match conn.probeVictim with
  | none => conn
  | some (space, pn, content) =>
    let taken := (conn.takeContent space pn content).modifySpace space
      fun sp => { sp with sent := (sp.sent.discard pn).1 }
    let pinging :=
      { taken with
        pingPending :=
          taken.pingPending ||
            (content.crypto.isEmpty && content.stream.isEmpty && !content.handshakeDone) }
    let requeued := pinging.requeue space content
    { requeued with probePending := min (requeued.probePending + 1) 255 }

/-- The probe timer of a space, when it is armed. -/
def ptoDeadline (space : SpaceId) : Option Nat :=
  if ptoSpaceEligible space conn.handshakeConfirmed ∧
      0 < (conn.spaces space).sent.inFlight then
    (conn.spaces space).lastAckEliciting.map (· + conn.ptoDuration space)
  else
    none

variable (now : Nat)

def ptoElapsed : Bool := SpaceId.all.any fun space => (conn.ptoDeadline space).any (· ≤ now)

def idleDeadline : Nat := conn.lastRecvTime.getD conn.createdAt + IDLE_TIMEOUT

/-- The keep-alive deadline of a confirmed connection. -/
def keepaliveDeadline : Option Nat :=
  if conn.handshakeConfirmed then conn.lastSendTime.map (· + conn.keepaliveInterval)
  else none

/-- Losses by time in every space whose loss timer elapsed. -/
def detectTimedLosses (conn : Connection T C) (lossDelay now : Nat) :
    List SpaceId → Connection T C × Bool
  | [] => (conn, false)
  | space :: spaces =>
    if (conn.spaces space).lossTime.any (· ≤ now) then
      let detected := conn.detectSpaceLosses space lossDelay now
      let rest := detected.1.detectTimedLosses lossDelay now spaces
      (rest.1, detected.2 || rest.2)
    else
      conn.detectTimedLosses lossDelay now spaces

def handleClosedTimeout : Connection T C :=
  let closing := { conn with closeTime := conn.closeTime.or (some now) }
  { closing with
    drained :=
      closing.drained || closing.closeTime.any fun start => start + closing.drainDuration ≤ now }

def probeOnTimeout : Connection T C :=
  if conn.ptoElapsed now then
    { conn with ptoCount := min (conn.ptoCount + 1) MAX_PTO_BACKOFF }.queueProbe
  else
    conn

/-- Queue a keep-alive PING and draw the next interval. -/
def keepaliveOnTimeout (interval : Nat) : Connection T C :=
  if conn.keepaliveDeadline.any (· ≤ now) then
    { conn with pingPending := true, keepaliveInterval := interval }
  else
    conn

/-- Drive the timers at `now`. `interval` is the keep-alive interval drawn if
one is needed. -/
def handleTimeout (interval : Nat) : Connection T C :=
  let conn := conn.retirePreviousReadKey now
  if conn.closed.isSome then
    conn.handleClosedTimeout now
  else if conn.idleDeadline ≤ now then
    { { conn with closed := some .idleTimeout }.clearAckSchedules with closeTime := some now }
  else
    let detected := conn.detectTimedLosses conn.rtt.lossDelay now SpaceId.all
    let signalled := detected.1.congestionEvent detected.2 now
    let probed :=
      if detected.2 then signalled else signalled.probeOnTimeout now
    probed.keepaliveOnTimeout now interval

end Controlled

end ParallaX.Quic.Connection
