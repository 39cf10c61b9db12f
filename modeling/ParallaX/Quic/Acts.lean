import ParallaX.Quic.Core

/-!
# What a connection can do

The single acts that change the core of a connection, each with what the code
has checked before it. Every event of a connection is a sequence of them, so
that an invariant is one case for each act.
-/

namespace ParallaX.Quic.Core

variable {T : Type}

structure MaySeal (core : Core T) (space : SpaceId) (key : PacketKey) : Prop where
  keyed : core.sealingKey space = some key
  number : core.nextPn space ≤ MAX_PACKET_NUMBER
  budget : (core.sealBudget space).1 < (core.sealBudget space).2

/-- The datagram that fresh CRYPTO bytes are cut for. -/
def cryptoCap (space : SpaceId) : Nat :=
  if space = .initial then MIN_INITIAL_DATAGRAM else MAX_DATAGRAM

/-- The range of a CRYPTO packet: the oldest one to resend, or fresh bytes cut
to the room that the header leaves. -/
structure CryptoCut (core : Core T) (space : SpaceId) (key : PacketKey)
    (range : Connection.CryptoRange) : Prop where
  resend : range.isRetransmit = true →
    ∃ rest, (core.spaces space).retransmitCrypto =
      (range.offset, range.finish - range.offset) :: rest
  fresh : range.isRetransmit = false →
    range.offset = (core.spaces space).cryptoSendOff ∧
      range.finish - range.offset ≤
        max (cryptoCap space - (core.overhead space key + (1 + Varint.size range.offset + 2))) 1
  buffered : range.offset ≤ range.finish ∧ range.finish ≤ (core.spaces space).cryptoSend.length

def cryptoContent (range : Connection.CryptoRange) : SentContent :=
  { SentContent.empty with crypto := [(range.offset, range.finish - range.offset)] }

variable (core : Core T)

def appendCrypto (bytes : List UInt8) : Core T :=
  core.mapSpace core.writeLevel fun sp =>
    { sp with cryptoSend := sp.cryptoSend ++ bytes }

def installKeys : Option KeyChange → Core T
  | none => core
  | some (.zeroRtt keys) => { core with zeroRttKeys := some keys }
  | some (.handshake keys) =>
    { core.mapSpace .handshake fun sp =>
        { sp with keys := some keys } with
      writeLevel := .handshake }
  | some (.oneRtt keys) =>
    { core.mapSpace .data fun sp => { sp with keys := some keys } with
      writeLevel := .data
      zeroRttKeys :=
        if core.side = Side.client then none else core.zeroRttKeys }

def writeRound [TlsSession T] (core : Core T) : Core T :=
  let output := TlsSession.writeHandshake core.tls
  ({ core with tls := output.1 }.appendCrypto output.2.1).installKeys output.2.2

def setLocalDataKey (key : PacketKey) : Core T :=
  core.mapSpace .data fun sp =>
    { sp with keys := sp.keys.map fun keys => { keys with localKey := key } }

def setRemoteDataKey (key : PacketKey) : Core T :=
  core.mapSpace .data fun sp =>
    { sp with keys := sp.keys.map fun keys => { keys with remoteKey := key } }

def installSendKey (next : NextPacketKeys) (key : PacketKey) : Core T :=
  { core.setLocalDataKey key with
    nextPacketKeys := some { next with localKey := none }
    keyPhase := core.keyPhase.installTx next.generation
    dataPacketsSealed := 0
    nextUpdateAt := none }

/-- Open with the next generation from now on, and keep the key before it for
a while. -/
def switchReadKey (next : NextPacketKeys) (keys : Keys)
    (key : PacketKey) (retireAt : Nat) : Core T :=
  { core.setRemoteDataKey key with
    nextPacketKeys := some { next with remoteKey := none }
    previousReadKey := some ⟨keys.remoteKey, retireAt⟩ }

def holdCrypto (space : SpaceId) (offset : Nat) (data : List UInt8) : Core T :=
  core.mapSpace space fun sp =>
    { sp with cryptoPending := sp.cryptoPending ++ [(offset, data)] }

/-- The reassembly of a CRYPTO fragment that is in order. -/
def cryptoDrain (space : SpaceId) (offset : Nat) (data : List UInt8) : Drain UInt8 :=
  drainContiguous (core.spaces space).cryptoPending (core.spaces space).cryptoRecvOff offset data []

def absorbCrypto (space : SpaceId) (drain : Drain UInt8) : Core T :=
  core.mapSpace space fun sp =>
    { sp with cryptoPending := drain.pending, cryptoRecvOff := drain.recvOff }

def feedTls [TlsSession T] (core : Core T) (bytes : List UInt8) : Core T :=
  if bytes.isEmpty then core
  else { core with tls := (TlsSession.readHandshake core.tls bytes).1 }

/-- The core of a connection that did nothing yet. -/
def blank (side : Side) (tls : T) (initialDcid dcid scid : ConnectionId)
    (table : Streams) : Core T :=
  { version := QUIC_VERSION_V1
    initialDcid := initialDcid
    dcid := dcid
    scid := scid
    peerCidAdopted := false
    toStreams := table
    sealedPackets := []
    dataPacketsSealed := 0
    zeroRttPacketsSealed := 0
    keyPhase := .new
    nextPacketKeys := none
    previousReadKey := none
    nextUpdateAt := none
    dataPacketsOpenFailed := 0
    zeroRttKeys := none
    pmtud := .new
    mtuProbePn := none
    handshakeConfirmed := false
    peerAddrValidated := decide (side = .client)
    antiAmpRecv := 0
    antiAmpSent := 0
    writeLevel := .initial
    tls := tls
    spaces _ := Space.new.toSpaceCore }

/-- The stream table of a connection that did nothing yet; `ticket` holds the
parameters that a resumption remembers. -/
def freshTable (side : Side) (recvMaxStreamsSent : Dir → Nat)
    (ticket : Option TransportParameters) : Streams :=
  let table := Streams.new side (Streams.firstBidi side) (Streams.firstUni side) recvMaxStreamsSent
  ticket.elim table fun params => table.applyRememberedTransportParams params

/-! ## Acts -/

section Acts

variable [TlsSession T]

/-- The cores that connections start with, by the stream limits that their
parameters advertise. -/
inductive Fresh (recvMaxStreamsSent : Dir → Nat) : Core T → Prop
  | client (tls : T) (dcid scid : ConnectionId) (ticket : Option TransportParameters) :
      Fresh recvMaxStreamsSent
        ((blank .client tls dcid dcid scid
          (freshTable .client recvMaxStreamsSent ticket)).mapSpace .initial
            fun sp =>
              { sp with keys := some (TlsSession.initialKeys (T := T) dcid .client) })
  | server (tls : T) (scid : ConnectionId) :
      Fresh recvMaxStreamsSent
        (blank .server tls .empty .empty scid (freshTable .server recvMaxStreamsSent none))

inductive Act : Core T → Core T → Prop
  | streams {core : Core T} {table : Streams} (changed : Streams.Op core.toStreams table) :
      Act core { core with toStreams := table }
  -- packets
  | answered (core : Core T) (space : SpaceId) :
      Act core (core.noteAckSent space)
  | bare {core : Core T} {space : SpaceId} {key : PacketKey}
      (packet : SentPacket) (quiet : packet.ackEliciting = false)
      (ready : core.MaySeal space key) :
      Act core (core.emit space packet none)
  | control {core : Core T} {key : PacketKey} (packet : SentPacket)
      (content : SentContent) (eliciting : packet.ackEliciting = true)
      (plain : content.stream = []) (dry : content.crypto = [])
      (resets : ∀ id ∈ content.reset,
        ∃ buffer, core.toStreams.buffer id = some buffer ∧ buffer.reset.isSome = true)
      (ready : core.MaySeal .data key) :
      Act core (core.emit .data packet (some content))
  | crypto {core : Core T} {space : SpaceId} {key : PacketKey}
      (packet : SentPacket) (range : Connection.CryptoRange)
      (eliciting : packet.ackEliciting = true)
      (cut : core.CryptoCut space key range)
      (ready : core.MaySeal space key) :
      Act core ((core.emit space packet (some (cryptoContent range))).cryptoSent space range)
  | stream {core : Core T} {key : PacketKey} (packet : SentPacket)
      (id budget : Nat) (stream : Stream)
      (eliciting : packet.ackEliciting = true)
      (present : core.streams[id]? = some stream)
      (allowed : core.toStreams.streamCanSend id = true)
      (sends : stream.reset = none) (ready : core.MaySeal .data key) :
      Act core
        ((core.emit .data packet
          (some (Delivery.chunkContent id (core.toStreams.streamChunk stream budget)))).mapTable
          (·.chunkSent id (core.toStreams.streamChunk stream budget)))
  | zeroRttStream {core : Core T} {key : PacketKey} (packet : SentPacket)
      (id budget : Nat) (stream : Stream)
      (eliciting : packet.ackEliciting = true)
      (early : (core.spaces .data).keys = none)
      (present : core.streams[id]? = some stream)
      (allowed : core.toStreams.streamCanSend id = true)
      (sends : stream.reset = none) (ready : core.MaySeal .data key) :
      Act core
        ((core.emit .data packet
          (some (Delivery.chunkContent id (core.toStreams.zeroRttChunk stream budget)))).mapTable
          (·.zeroRttChunkSent id (core.toStreams.zeroRttChunk stream budget)))
  | probe {core : Core T} {key : PacketKey} (packet : SentPacket)
      (size : Nat) (eliciting : packet.ackEliciting = true)
      (due : core.pmtud.nextProbeSize.2 = some size)
      (idle : core.mtuProbePn = none)
      (confirmed : core.handshakeConfirmed = true)
      (ready : core.MaySeal .data key) :
      Act core
        { { core with pmtud := core.pmtud.nextProbeSize.1 }.emit .data packet (some .empty) with
          mtuProbePn := some (core.nextPn .data) }
  | searchEnds {core : Core T} (none : core.pmtud.nextProbeSize.2 = none)
      (confirmed : core.handshakeConfirmed = true) :
      Act core { core with pmtud := core.pmtud.nextProbeSize.1 }
  -- acknowledgements, losses and timeouts
  | acks {core : Core T} (space : SpaceId) (largest : Nat)
      (ranges : List (Nat × Nat)) (sent : largest < core.nextPn space)
      (keyed : space = .data → (core.spaces .data).keys.isSome = true) :
      Act core (core.ackPackets space largest ranges)
  | losses (core : Core T) (space : SpaceId) (lossDelay now : Nat) :
      Act core (core.losePackets space lossDelay now)
  | probeTimeout {core : Core T} {space : SpaceId} {pn : Nat}
      {content : SentContent}
      (oldest : (core.spaces space).sentContent.toList.head? = some (pn, content))
      (eligible : space = .data → core.handshakeConfirmed = true) :
      Act core (core.takeProbe space pn content)
  -- keys
  | write (core : Core T) : Act core core.writeRound
  | cacheNext {core : Core T} {generation : Nat} {tls : T}
      {localKey remoteKey : PacketKey}
      (spent : (core.nextPacketKeys.any fun next =>
        next.localKey.isSome || next.remoteKey.isSome) = false)
      (next : checkedSucc (max core.keyPhase.tx core.keyPhase.rx) = some generation)
      (derived : TlsSession.next1rttKeys core.tls = (tls, .ok (localKey, remoteKey))) :
      Act core
        { core with tls := tls, nextPacketKeys := some ⟨generation, some localKey, some remoteKey⟩ }
  | cacheFails {core : Core T} {tls : T} {failure : QuicTlsError}
      (failed : TlsSession.next1rttKeys core.tls = (tls, .error failure)) :
      Act core { core with tls := tls }
  | installSend {core : Core T} {next : NextPacketKeys} {key : PacketKey}
      (cached : core.nextPacketKeys = some next)
      (unused : next.localKey = some key)
      (newer : core.keyPhase.tx < next.generation)
      (keyed : (core.spaces .data).keys.isSome = true) :
      Act core (core.installSendKey next key)
  | spendSend {core : Core T} {next : NextPacketKeys} (cached : core.nextPacketKeys = some next)
      (keyless : (core.spaces .data).keys = none) :
      Act core
        { core with nextPacketKeys := some { next with localKey := none } }
  | commit {core : Core T} {generation : ReadGeneration} {pn : Nat}
      {keyPhase : KeyPhaseState}
      (committed : core.keyPhase.commitReceive generation pn true true = (keyPhase, true)) :
      Act core { core with keyPhase := keyPhase }
  | switchRead {core : Core T} {next : NextPacketKeys} {keys : Keys}
      {key : PacketKey} (retireAt : Nat)
      (cached : core.nextPacketKeys = some next)
      (unused : next.remoteKey = some key)
      (keyed : (core.spaces .data).keys = some keys) :
      Act core (core.switchReadKey next keys key retireAt)
  | retirePrevious (core : Core T) : Act core { core with previousReadKey := none }
  | confirmAcked (core : Core T) (generation low high : Nat) :
      Act core
        { core with keyPhase := (core.keyPhase.confirm generation low high).1 }
  | holdUpdate (core : Core T) (until_ : Nat) : Act core { core with nextUpdateAt := some until_ }
  | openFailed (core : Core T) (failures : Nat) :
      Act core { core with dataPacketsOpenFailed := failures }
  -- the handshake
  | confirmHandshake {core : Core T} (keyed : (core.spaces .data).keys.isSome = true) :
      Act core { core with handshakeConfirmed := true }
  | discard {core : Core T} {space : SpaceId} (early : space ≠ .data)
      (atEnd : space = .handshake → (core.spaces .data).keys.isSome = true) :
      Act core (core.discard space)
  | holdCrypto {core : Core T} {space : SpaceId} {offset : Nat}
      {data : List UInt8}
      (ahead : (core.spaces space).cryptoRecvOff < offset)
      (room : bufferedBytes (core.spaces space).cryptoPending + data.length ≤ MAX_CRYPTO_REASSEMBLY)
      (few : (core.spaces space).cryptoPending.length < MAX_CRYPTO_PENDING_FRAGMENTS) :
      Act core (core.holdCrypto space offset data)
  | drainCrypto {core : Core T} {space : SpaceId} {offset : Nat}
      {data : List UInt8}
      (due : offset ≤ (core.spaces space).cryptoRecvOff) :
      Act core
        ((core.absorbCrypto space (core.cryptoDrain space offset data)).feedTls
          (core.cryptoDrain space offset data).sink)
  -- received packets
  | receive (core : Core T) (space : SpaceId) (pn : Nat) :
      Act core
        (core.mapSpace space fun sp =>
          { sp with recv := (sp.recv.insert pn).1 })
  | learnKeys {core : Core T} {dcid : ConnectionId} (serving : core.side = .server)
      (keyless : (core.spaces .initial).keys = none)
      (alive : (core.spaces .initial).discarded = false) :
      Act core
        { core.mapSpace .initial fun sp =>
            { sp with keys := some (TlsSession.initialKeys (T := T) dcid .server) } with
          initialDcid := dcid }
  | adoptCid {core : Core T} (scid : ConnectionId) (unadopted : core.peerCidAdopted = false) :
      Act core { core with dcid := scid, peerCidAdopted := true }
  | validate (core : Core T) : Act core { core with peerAddrValidated := true }
  | credit {core : Core T} (len : Nat) (unvalidated : core.peerAddrValidated = false) :
      Act core { core with antiAmpRecv := core.antiAmpRecv + len }
  | charge {core : Core T} (len : Nat) (unvalidated : core.peerAddrValidated = false) :
      Act core { core with antiAmpSent := core.antiAmpSent + len }

def Acts : Core T → Core T → Prop := Relation.ReflTransGen Act

namespace Acts

variable {first second third : Core T}

theorem refl : Acts core core := Relation.ReflTransGen.refl

theorem of_eq (same : second = first) : Acts first second := by
  rw [same]
  exact refl first

theorem single (act : Act first second) : Acts first second := Relation.ReflTransGen.single act

theorem trans (acts : Acts first second) (more : Acts second third) : Acts first third :=
  Relation.ReflTransGen.trans acts more

theorem rule {motive : Core T → Prop}
    (kept : ∀ first second, Act first second → motive first → motive second)
    (acts : Acts first second) (holds : motive first) : motive second := by
  induction acts with
  | refl => exact holds
  | tail _ act ih => exact kept _ _ act ih

end Acts

/-! ## What acts do to the spaces -/

structure Keyed (first second : SpaceKeep) : Prop where
  stays : first.keys.isSome = true → second.keys.isSome = true
  rest : second = { first with keys := second.keys, cryptoSend := second.cryptoSend }

theorem Keyed.refl (keep : SpaceKeep) : Keyed keep keep := ⟨id, rfl⟩

theorem Keyed.trans {first second third : SpaceKeep}
    (keyed : Keyed first second) (more : Keyed second third) : Keyed first third := by
  refine ⟨fun some => more.stays (keyed.stays some), ?_⟩
  rw [more.rest, keyed.rest]

/-- What an act does to what sending leaves alone in a space. -/
inductive Rework (space : SpaceId) (keep : SpaceKeep) : SpaceKeep → Prop
  | keyed {next : SpaceKeep} (keyed : Keyed keep next) :
      Rework space keep next
  | received (pn : Nat) : Rework space keep { keep with recv := (keep.recv.insert pn).1 }
  | held (offset : Nat) (data : List UInt8)
      (room : bufferedBytes keep.cryptoPending + data.length ≤ MAX_CRYPTO_REASSEMBLY)
      (few : keep.cryptoPending.length < MAX_CRYPTO_PENDING_FRAGMENTS) :
      Rework space keep
        { keep with cryptoPending := keep.cryptoPending ++ [(offset, data)] }
  | drained (offset : Nat) (data : List UInt8) :
      Rework space keep
        { keep with
          cryptoPending := (drainContiguous keep.cryptoPending
            keep.cryptoRecvOff offset data []).pending
          cryptoRecvOff := (drainContiguous keep.cryptoPending
            keep.cryptoRecvOff offset data []).recvOff }
  | discarded (early : space ≠ .data) :
      Rework space keep
        { Space.new.toSpaceCore with discarded := true }.keep

def Reworks (first second : Core T) : Prop :=
  (first.handshakeConfirmed = true → second.handshakeConfirmed = true) ∧
    ∀ space, Rework space (first.spaces space).keep (second.spaces space).keep

omit [TlsSession T] in
theorem keep_mapSpace {related : SpaceId → SpaceKeep → SpaceKeep → Prop}
    (refl : ∀ space keep, related space keep keep) (core : Core T)
    {space : SpaceId} {change : SpaceCore → SpaceCore}
    (changed : related space (core.spaces space).keep
      (change (core.spaces space)).keep) (other : SpaceId) :
    related other (core.spaces other).keep ((core.mapSpace space change).spaces other).keep := by
  by_cases same : other = space
  · subst same
    rw [spaces_mapSpace_self]
    exact changed
  · rw [spaces_mapSpace_of_ne same]
    exact refl _ _

omit [TlsSession T] in
theorem reworks_mapSpace {space : SpaceId}
    {change : SpaceCore → SpaceCore}
    (changed : Rework space (core.spaces space).keep (change (core.spaces space)).keep) :
    Reworks core (core.mapSpace space change) :=
  ⟨id, keep_mapSpace (fun _ keep => .keyed (.refl keep)) core changed⟩

omit [TlsSession T] in
theorem keyed_installKeys (change : Option KeyChange) (space : SpaceId) :
    Keyed (core.spaces space).keep ((core.installKeys change).spaces space).keep := by
  have added (level : SpaceId) (keys : Keys) :
      Keyed (core.spaces space).keep
        ((core.mapSpace level fun sp =>
          { sp with keys := some keys }).spaces space).keep :=
    keep_mapSpace (fun _ => Keyed.refl) core ⟨fun _ => rfl, rfl⟩ space
  match change with
  | none => exact .refl _
  | some (.zeroRtt keys) => exact .refl _
  | some (.handshake keys) => exact added .handshake keys
  | some (.oneRtt keys) => exact added .data keys

theorem keyed_writeRound (space : SpaceId) :
    Keyed (core.spaces space).keep (core.writeRound.spaces space).keep :=
  .trans (keep_mapSpace (fun _ => Keyed.refl)
    { core with tls := (TlsSession.writeHandshake core.tls).1 } ⟨id, rfl⟩ space)
    (keyed_installKeys _ _ space)

theorem Act.reworks {first second : Core T} (act : Act first second) : Reworks first second := by
  have steady {core : Core T} (same : core.steady = first.steady) : Reworks first core := by
    refine ⟨(congrArg Steady.handshakeConfirmed same).trans, fun space => ?_⟩
    have keep : (core.spaces space).keep = (first.spaces space).keep :=
      congrArg (fun steady => steady.spaces space) same
    rw [keep]
    exact .keyed (.refl _)
  have rekeyed (change : Keys → Keys) : Reworks first
      (first.mapSpace .data fun sp => { sp with keys := sp.keys.map change }) :=
    reworks_mapSpace first (.keyed ⟨Option.isSome_map.trans, rfl⟩)
  cases act with
  | answered =>
    unfold noteAckSent
    split <;> exact steady rfl
  | bare | control => exact steady (steady_emit ..)
  | crypto => exact steady ((steady_cryptoSent ..).trans (steady_emit ..))
  | stream packet id budget stream =>
    exact steady (steady_emit first .data packet
      (some (Delivery.chunkContent id (first.toStreams.streamChunk stream budget))))
  | zeroRttStream packet id budget stream =>
    exact steady (steady_emit first .data packet
      (some (Delivery.chunkContent id (first.toStreams.zeroRttChunk stream budget))))
  | probe packet =>
    exact steady (steady_emit { first with pmtud := first.pmtud.nextProbeSize.1 } .data packet
      (some .empty))
  | acks => exact steady (Aside.ackPackets ..).steady
  | losses => exact steady (Aside.losePackets ..).steady
  | probeTimeout => exact steady (Aside.takeProbe ..).steady
  | write =>
    refine ⟨?_, fun space => .keyed (keyed_writeRound first space)⟩
    unfold writeRound installKeys
    dsimp only
    split <;> exact id
  | installSend | switchRead => exact rekeyed _
  | confirmHandshake => exact ⟨fun _ => rfl, (steady rfl).2⟩
  | discard early => exact reworks_mapSpace first (.discarded early)
  | @holdCrypto _ offset data _ room few =>
    exact reworks_mapSpace first (.held offset data room few)
  | @drainCrypto space offset data =>
    have absorbed : Reworks first
        (first.absorbCrypto space (first.cryptoDrain space offset data)) :=
      reworks_mapSpace first (.drained offset data)
    unfold feedTls
    split <;> exact absorbed
  | receive _ pn => exact reworks_mapSpace first (.received pn)
  | @learnKeys dcid =>
    have keyed : Reworks first (first.mapSpace .initial fun sp =>
        { sp with keys := some (TlsSession.initialKeys (T := T) dcid .server) }) :=
      reworks_mapSpace first (.keyed ⟨fun _ => rfl, rfl⟩)
    exact keyed
  | _ => exact ⟨id, (steady rfl).2⟩

theorem Act.dataKeys {first second : Core T} (act : Act first second)
    (keyed : (first.spaces .data).keys.isSome = true) :
    (second.spaces .data).keys.isSome = true := by
  have kept {keep next : SpaceKeep} (rework : Rework .data keep next)
      (keyed : keep.keys.isSome = true) : next.keys.isSome = true := by
    cases rework with
    | keyed added => exact added.stays keyed
    | discarded early => exact absurd rfl early
    | _ => exact keyed
  exact kept (act.reworks.2 .data) keyed

theorem Acts.dataKeys {first second : Core T} (acts : Acts first second)
    (keyed : (first.spaces .data).keys.isSome = true) : (second.spaces .data).keys.isSome = true :=
  acts.rule (fun _ _ act => act.dataKeys) keyed

end Acts

end ParallaX.Quic.Core
