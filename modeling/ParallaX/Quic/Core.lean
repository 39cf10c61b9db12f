import ParallaX.Quic.Delivery

/-!
# The core of a connection

The state of a connection without its timers, its congestion control and its
lifecycle, and what the functions of a connection do to it.
-/

namespace ParallaX.Quic

open Function

/-- The part of a space that its outgoing packets do not touch. -/
structure SpaceKeep where
  keys : Option Keys
  discarded : Bool
  recv : ReceivedPackets
  cryptoSend : List UInt8
  cryptoRecvOff : Nat
  cryptoPending : List (Fragment UInt8)

def SpaceCore.keep (space : SpaceCore) : SpaceKeep :=
  { keys := space.keys
    discarded := space.discarded
    recv := space.recv
    cryptoSend := space.cryptoSend
    cryptoRecvOff := space.cryptoRecvOff
    cryptoPending := space.cryptoPending }

/-- What the keys, the packets and the streams of a connection work on. -/
structure Core (T : Type) extends Identity, Streams, KeyState where
  pmtud : Pmtud
  mtuProbePn : Option Nat
  handshakeConfirmed : Bool
  peerAddrValidated : Bool
  antiAmpRecv : Nat
  antiAmpSent : Nat
  writeLevel : SpaceId
  tls : T
  spaces : SpaceId → SpaceCore

namespace Core

variable {T : Type}

/-- What is sent and what is on its way. -/
def delivery (core : Core T) : Delivery :=
  { table := core.toStreams
    contents space := (core.spaces space).sentContent
    next := (core.spaces .data).send.next
    probe := core.mtuProbePn }

def mapTable (core : Core T) (change : Streams → Streams) : Core T :=
  { core with toStreams := change core.toStreams }

def mapSpace (core : Core T) (space : SpaceId) (change : SpaceCore → SpaceCore) : Core T :=
  { core with spaces := Function.update core.spaces space (change (core.spaces space)) }

variable {change : SpaceCore → SpaceCore} (core : Core T) (space : SpaceId)
  (pn : Nat) (content : SentContent)

theorem spaces_mapSpace_self (change : SpaceCore → SpaceCore) :
    (core.mapSpace space change).spaces space = change (core.spaces space) :=
  update_self ..

theorem spaces_mapSpace_of_ne {core : Core T} {space other : SpaceId} (different : other ≠ space) :
    (core.mapSpace space change).spaces other = core.spaces other :=
  update_of_ne different ..

variable {α : Type}

theorem spaces_mapSpace_kept (view : SpaceCore → α) {core : Core T} {space : SpaceId}
    (kept : view (change (core.spaces space)) = view (core.spaces space)) (other : SpaceId) :
    view ((core.mapSpace space change).spaces other) = view (core.spaces other) := by
  by_cases same : other = space
  · subst same
    rw [spaces_mapSpace_self, kept]
  · rw [spaces_mapSpace_of_ne same]

theorem view_mapSpace (view : SpaceCore → α) (core : Core T) (space : SpaceId)
    (change : SpaceCore → SpaceCore) :
    (fun other => view ((core.mapSpace space change).spaces other)) =
      Function.update (fun other => view (core.spaces other)) space
        (view (change (core.spaces space))) := by
  funext other
  by_cases same : other = space
  · subst same
    rw [spaces_mapSpace_self, update_self]
  · rw [spaces_mapSpace_of_ne same, update_of_ne same]

/-! ## Sending -/

/-- The packets sealed under a key, and how many it may seal. -/
def sealBudget (core : Core T) (space : SpaceId) : Nat × Nat :=
  if space = .data then
    match (core.spaces .data).keys, core.zeroRttKeys with
    | some keys, _ => (core.dataPacketsSealed, keys.localKey.confidentialityLimit)
    | none, some keys => (core.zeroRttPacketsSealed, keys.localKey.confidentialityLimit)
    | none, none => (0, 0)
  else
    (0, 2 ^ 64 - 1)

/-- The key that a packet of the space is sealed under. -/
def sealingKey (core : Core T) (space : SpaceId) : Option PacketKey :=
  match (core.spaces space).keys with
  | some keys => some keys.localKey
  | none => if space = .data then core.zeroRttKeys.map Keys.localKey else none

def nextPn (core : Core T) (space : SpaceId) : Nat := (core.spaces space).send.next

def allocate (core : Core T) (space : SpaceId) : Core T :=
  core.mapSpace space fun sp => { sp with send := ⟨sp.send.next + 1⟩ }

/-- A packet is in flight. -/
def track (core : Core T) (space : SpaceId) (pn : Nat) (packet : SentPacket) : Core T :=
  core.mapSpace space fun sp => { sp with sent := sp.sent.onSent pn packet }

/-- The ranges of a packet are indexed by their streams. -/
def index (core : Core T) (space : SpaceId) (content : SentContent) : Core T :=
  if space = .data then core.mapTable (·.indexSentStreamRanges content)
  else core

def store (core : Core T) (space : SpaceId) (pn : Nat) (content : SentContent) : Core T :=
  (core.index space content).mapSpace space fun sp =>
    { sp with sentContent := sp.sentContent.insert pn content }

/-- A packet counts against the limit of its key. -/
def count (core : Core T) (space : SpaceId) (pn : Nat) : Core T :=
  if space = .data then
    if (core.spaces .data).keys.isSome then
      { core with
        dataPacketsSealed := saturatingSucc core.dataPacketsSealed
        keyPhase := core.keyPhase.noteSent pn }
    else
      { core with zeroRttPacketsSealed := saturatingSucc core.zeroRttPacketsSealed }
  else
    core

/-- The log of all packets that were sealed. -/
def noteSealed (core : Core T) (space : SpaceId) (pn : Nat) : Core T :=
  match core.sealingKey space with
  | none => core
  | some key => { core with sealedPackets := core.sealedPackets ++ [⟨space, key, pn⟩] }

def record (core : Core T) (space : SpaceId) (pn : Nat)
    (packet : SentPacket) (content : Option SentContent) : Core T :=
  let tracked := core.track space pn packet
  let stored := content.elim tracked (tracked.store space pn)
  (stored.count space pn).noteSealed space pn

/-- A packet with the next number is sealed and recorded. -/
def emit (core : Core T) (space : SpaceId) (packet : SentPacket)
    (content : Option SentContent) : Core T :=
  (core.allocate space).record space (core.nextPn space) packet content

def noteAckSent (core : Core T) (space : SpaceId) : Core T :=
  if space = .data then { core with keyPhase := { core.keyPhase with updateAckPending := false } }
  else core

def makeHeader (core : Core T) (space : SpaceId) (pn pnLen : Nat) : Header :=
  match space with
  | .initial => .long .initial core.version core.dcid core.scid [] MIN_INITIAL_DATAGRAM pn pnLen
  | .handshake => .long .handshake core.version core.dcid core.scid [] MIN_INITIAL_DATAGRAM pn pnLen
  | .data => .short false (phaseOf core.keyPhase.tx) core.dcid pn pnLen

/-- The bytes of a packet around its frames. -/
def overhead (core : Core T) (space : SpaceId) (key : PacketKey) : Nat :=
  let pn := core.nextPn space
  let header := core.makeHeader space pn (encodePacketNumber pn none)
  header.pnOffset + header.pnLen + key.tagLen

def cryptoSent (core : Core T) (space : SpaceId) (range : Connection.CryptoRange) : Core T :=
  core.mapSpace space fun sp =>
    if range.isRetransmit then { sp with retransmitCrypto := sp.retransmitCrypto.tail }
    else { sp with cryptoSendOff := range.finish }

/-! ## Acknowledgements and losses -/

def unindex (core : Core T) (space : SpaceId) (content : SentContent) : Core T :=
  if space = .data then core.mapTable (·.unindexSentStreamRanges content)
  else core

/-- Content leaves the packet that carried it. -/
def take (core : Core T) (space : SpaceId) (pn : Nat) (content : SentContent) : Core T :=
  (core.mapSpace space fun sp =>
    { sp with sentContent := sp.sentContent.erase pn }).unindex space content

/-- Content that was lost waits to be sent again. -/
def requeue (core : Core T) (space : SpaceId) (content : SentContent) : Core T :=
  (core.mapSpace space fun sp =>
    { sp with
      retransmitCrypto :=
        sp.retransmitCrypto ++ content.crypto }).mapTable (·.requeue content)

def withSent (core : Core T) (space : SpaceId) (sent : SentPackets) : Core T :=
  core.mapSpace space fun sp => { sp with sent := sent }

def ackOne (core : Core T) (space : SpaceId) (pn : Nat) : Core T :=
  match (core.spaces space).sentContent[pn]? with
  | none => core
  | some content => (core.take space pn content).mapTable (·.markAcked content)

def noteProbe (core : Core T) (space : SpaceId) (newly : List Nat) : Core T :=
  if space = .data then
    if newly.any fun pn => core.mtuProbePn = some pn then
      { core with mtuProbePn := none, pmtud := core.pmtud.onProbeAcked }
    else
      { core with pmtud := core.pmtud.onFullSizeAcked }
  else
    core

/-- What an acknowledgement does to the packets it names. -/
def ackPackets (core : Core T) (space : SpaceId) (largest : Nat)
    (ranges : List (Nat × Nat)) : Core T :=
  let acked := (core.spaces space).sent.onAck largest ranges
  let pns := acked.2.map Prod.fst
  let removed := core.withSent space acked.1
  if acked.2.isEmpty then removed
  else (pns.foldl (fun core pn => core.ackOne space pn) removed).noteProbe space pns

/-- A lost packet gives its content back. -/
def loseOne (core : Core T) (space : SpaceId) (pn : Nat) : Core T :=
  if space = .data ∧ core.mtuProbePn = some pn then
    let lowered := { core with mtuProbePn := none, pmtud := core.pmtud.onProbeLost }
    match (core.spaces space).sentContent[pn]? with
    | none => lowered
    | some content => lowered.take space pn content
  else
    match (core.spaces space).sentContent[pn]? with
    | none => core
    | some content =>
      let taken := core.take space pn content
      let noted :=
        if space = .data then { taken with pmtud := taken.pmtud.onFullSizeLoss.1 }
        else taken
      noted.requeue space content

/-- Packets are lost by time or by the ones acknowledged after them. -/
def losePackets (core : Core T) (space : SpaceId) (lossDelay now : Nat) : Core T :=
  let found := (core.spaces space).sent.detectLost lossDelay now
  (found.2.1.map Prod.fst).foldl (fun core pn => core.loseOne space pn)
    (core.withSent space found.1)

/-- A probe timeout takes a packet out of flight and resends what it
carried. -/
def takeProbe (core : Core T) (space : SpaceId) (pn : Nat) (content : SentContent) : Core T :=
  let taken := core.take space pn content
  (taken.withSent space ((taken.spaces space).sent.discard pn).1).requeue space content

/-- A space is discarded with its keys and all it holds. -/
def discard (core : Core T) (space : SpaceId) : Core T :=
  core.mapSpace space fun _ => { Space.new.toSpaceCore with discarded := true }

/-! ## What sending and loss recovery leave alone -/

/-- What sending, acknowledgements and losses leave alone. -/
structure Steady (T : Type) extends Identity where
  nextPacketKeys : Option NextPacketKeys
  previousReadKey : Option PreviousReadKey
  zeroRttKeys : Option Keys
  handshakeConfirmed : Bool
  peerAddrValidated : Bool
  antiAmpRecv : Nat
  antiAmpSent : Nat
  writeLevel : SpaceId
  tls : T
  spaces : SpaceId → SpaceKeep

/-- The part that sending and losing packets leaves alone. -/
def steady (core : Core T) : Steady T :=
  { toIdentity := core.toIdentity
    nextPacketKeys := core.nextPacketKeys
    previousReadKey := core.previousReadKey
    zeroRttKeys := core.zeroRttKeys
    handshakeConfirmed := core.handshakeConfirmed
    peerAddrValidated := core.peerAddrValidated
    antiAmpRecv := core.antiAmpRecv
    antiAmpSent := core.antiAmpSent
    writeLevel := core.writeLevel
    tls := core.tls
    spaces space := (core.spaces space).keep }

theorem steady_mapSpace {core : Core T} {space : SpaceId}
    (kept : (change (core.spaces space)).keep = (core.spaces space).keep) :
    (core.mapSpace space change).steady = core.steady := by
  have spaces : (core.mapSpace space change).steady.spaces = core.steady.spaces :=
    funext fun other => spaces_mapSpace_kept SpaceCore.keep kept other
  calc
    (core.mapSpace space change).steady
        = { core.steady with spaces := (core.mapSpace space change).steady.spaces } := rfl
    _ = core.steady := by rw [spaces]

/-- A view that does not read the table. -/
theorem view_index (view : Core T → α)
    (kept : ∀ core table, view { core with toStreams := table } = view core) :
    view (core.index space content) = view core := by
  unfold index
  split
  · exact kept core _
  · rfl

/-- A view that reads neither the counters nor the log. -/
theorem view_sealed (view : Core T → α)
    (kept : ∀ core phase data early log, view { core with
      keyPhase := phase, dataPacketsSealed := data, zeroRttPacketsSealed := early,
      sealedPackets := log } = view core) :
    view ((core.count space pn).noteSealed space pn) = view core := by
  have counted : view (core.count space pn) = view core := by
    unfold count
    split
    · split <;> exact kept core ..
    · rfl
  unfold noteSealed
  split
  · exact counted
  · exact (kept (core.count space pn) ..).trans counted

theorem steady_store : (core.store space pn content).steady = core.steady :=
  (steady_mapSpace rfl).trans (view_index core space content steady fun _ _ => rfl)

theorem steady_emit (packet : SentPacket) (content : Option SentContent) :
    (core.emit space packet content).steady = core.steady := by
  have alloc : (core.allocate space).steady = core.steady := steady_mapSpace rfl
  have tracked : ((core.allocate space).track space (core.nextPn space)
      packet).steady = (core.allocate space).steady :=
    steady_mapSpace rfl
  unfold emit record
  rw [view_sealed _ space _ steady fun _ _ _ _ _ => rfl]
  cases content with
  | none => exact tracked.trans alloc
  | some content => exact (steady_store _ space _ content).trans (tracked.trans alloc)

theorem steady_cryptoSent (range : Connection.CryptoRange) :
    (core.cryptoSent space range).steady = core.steady := by
  apply steady_mapSpace
  split <;> rfl

/-! ## What acknowledgements and losses leave alone -/

/-- The second core is the first one but for the streams, the path-MTU search
and what each space has in flight or to resend. -/
structure Aside (first second : Core T) : Prop where
  core : second =
    { first with
      toStreams := second.toStreams
      pmtud := second.pmtud
      mtuProbePn := second.mtuProbePn
      spaces := second.spaces }
  spaces : ∀ space, second.spaces space =
    { first.spaces space with
      sent := (second.spaces space).sent
      sentContent := (second.spaces space).sentContent
      retransmitCrypto := (second.spaces space).retransmitCrypto }

namespace Aside

variable {first second third : Core T}

theorem refl (core : Core T) : Aside core core := ⟨rfl, fun _ => rfl⟩

theorem trans (aside : Aside first second) (more : Aside second third) : Aside first third where
  core := by rw [more.core, aside.core]
  spaces space := by rw [more.spaces, aside.spaces]

theorem steady (aside : Aside first second) : second.steady = first.steady := by
  have spaces : (fun space => (second.spaces space).keep) =
      fun space => (first.spaces space).keep :=
    funext fun space =>
      (congrArg SpaceCore.keep (aside.spaces space)).trans rfl
  rw [aside.core]
  unfold Core.steady
  rw [spaces]

theorem mapSpace {core : Core T} {space : SpaceId}
    (flight : change (core.spaces space) =
      { core.spaces space with
        sent := (change (core.spaces space)).sent
        sentContent := (change (core.spaces space)).sentContent
        retransmitCrypto :=
          (change (core.spaces space)).retransmitCrypto }) :
    Aside core (core.mapSpace space change) where
  core := rfl
  spaces := by
    intro other
    by_cases same : other = space
    · subst same
      rw [spaces_mapSpace_self]
      exact flight
    · rw [spaces_mapSpace_of_ne same]

theorem withSent (sent : SentPackets) : Aside core (core.withSent space sent) := mapSpace rfl

theorem take : Aside core (core.take space pn content) := by
  have erased : Aside core (core.mapSpace space fun sp =>
      { sp with sentContent := sp.sentContent.erase pn }) := mapSpace rfl
  unfold Core.take unindex
  split
  · exact erased.trans ⟨rfl, fun _ => rfl⟩
  · exact erased

theorem requeue : Aside core (core.requeue space content) := by
  have queued : Aside core (core.mapSpace space fun sp =>
      { sp with retransmitCrypto := sp.retransmitCrypto ++ content.crypto }) :=
    mapSpace rfl
  exact queued.trans ⟨rfl, fun _ => rfl⟩

theorem foldl {change : Core T → α → Core T}
    (kept : ∀ core entry, Aside core (change core entry)) (entries : List α) (core : Core T) :
    Aside core (entries.foldl change core) := by
  induction entries generalizing core with
  | nil => exact refl core
  | cons entry _ ih => exact (kept core entry).trans (ih _)

theorem ackOne : Aside core (core.ackOne space pn) := by
  unfold Core.ackOne
  split
  · exact refl core
  · exact (take core space pn _).trans ⟨rfl, fun _ => rfl⟩

theorem ackPackets (largest : Nat) (ranges : List (Nat × Nat)) :
    Aside core (core.ackPackets space largest ranges) := by
  have noted (core : Core T) (pns : List Nat) : Aside core (core.noteProbe space pns) := by
    unfold noteProbe
    split
    · split <;> exact ⟨rfl, fun _ => rfl⟩
    · exact refl core
  unfold Core.ackPackets
  dsimp only
  split
  · exact withSent core space _
  · exact ((withSent core space _).trans
      (foldl (fun core pn => ackOne core space pn) _ _)).trans (noted _ _)

theorem loseOne : Aside core (core.loseOne space pn) := by
  unfold Core.loseOne
  split
  · have lowered : Aside core
        { core with mtuProbePn := none, pmtud := core.pmtud.onProbeLost } := ⟨rfl, fun _ => rfl⟩
    split
    · exact lowered
    · exact lowered.trans (take _ space pn _)
  · split
    · exact refl core
    next content _ =>
      refine ((take core space pn content).trans ?_).trans (requeue _ space _)
      split
      · exact ⟨rfl, fun _ => rfl⟩
      · exact refl _

theorem losePackets (lossDelay now : Nat) : Aside core (core.losePackets space lossDelay now) :=
  (withSent core space _).trans (foldl (fun core pn => loseOne core space pn) _ _)

theorem takeProbe : Aside core (core.takeProbe space pn content) :=
  ((take core space pn content).trans (withSent _ space _)).trans (requeue _ space content)

end Aside

end Core

namespace Connection

variable {T C : Type}

/-- Of a connection, what its safety rests on. -/
def core (conn : Connection T C) : Core T :=
  { toIdentity := conn.toIdentity
    toStreams := conn.toStreams
    toKeyState := conn.toKeyState
    pmtud := conn.pmtud
    mtuProbePn := conn.mtuProbePn
    handshakeConfirmed := conn.handshakeConfirmed
    peerAddrValidated := conn.peerAddrValidated
    antiAmpRecv := conn.antiAmpRecv
    antiAmpSent := conn.antiAmpSent
    writeLevel := conn.writeLevel
    tls := conn.tls
    spaces space := (conn.spaces space).toSpaceCore }

variable (conn : Connection T C) (space : SpaceId) (pn : Nat) (content : SentContent)

theorem spaces_modifySpace (other : SpaceId) (change : Space → Space) :
    (conn.modifySpace space change).spaces other = if other = space then change (conn.spaces space)
      else conn.spaces other := by
  change Function.update conn.spaces space _ other = _
  rw [update_apply]

variable {conn}

/-- A change to a space, where the core sees it. -/
theorem core_mapSpace {space : SpaceId} {change : Space → Space}
    {effect : SpaceCore → SpaceCore}
    (agrees : (change (conn.spaces space)).toSpaceCore = effect (conn.spaces space).toSpaceCore) :
    (conn.modifySpace space change).core = conn.core.mapSpace space effect := by
  have spaces :
      (fun other =>
          ((conn.modifySpace space change).spaces other).toSpaceCore) =
        Function.update (fun other => (conn.spaces other).toSpaceCore) space
          (effect (conn.spaces space).toSpaceCore) := by
    funext other
    rw [spaces_modifySpace, update_apply]
    by_cases same : other = space
    · rw [if_pos same, if_pos same, agrees]
    · rw [if_neg same, if_neg same]
  unfold core Core.mapSpace
  rw [spaces]
  rfl

/-- A change to a space that the core does not see. -/
theorem core_modifySpace {space : SpaceId} (change : Space → Space)
    (kept : (change (conn.spaces space)).toSpaceCore = (conn.spaces space).toSpaceCore) :
    (conn.modifySpace space change).core = conn.core := by
  have mapped : (conn.modifySpace space change).core = conn.core.mapSpace space fun sp => sp :=
    core_mapSpace kept
  rw [mapped]
  unfold Core.mapSpace
  rw [update_eq_self]

/-! ## What leaves the core alone -/

variable (errorCode : Nat) (pns : List Nat) (now : Nat)

variable (conn)

@[simp]
theorem core_close (reason : List UInt8) : (conn.close errorCode reason).core = conn.core := by
  unfold close
  split <;> rfl

@[simp]
theorem core_closeTransport (frameType : Nat) (reason : List UInt8) :
    (conn.closeTransport errorCode frameType reason).core = conn.core := by
  unfold closeTransport
  split <;> rfl

@[simp]
theorem core_closeOnExhaustedDataKey (sealed limit : Nat) :
    (conn.closeOnExhaustedDataKey sealed limit).core = conn.core := by
  unfold closeOnExhaustedDataKey
  split <;> rfl

@[simp]
theorem core_enforceAeadConfidentialityLimit :
    conn.enforceAeadConfidentialityLimit.core = conn.core := by
  unfold enforceAeadConfidentialityLimit
  cases (conn.spaces .data).keys with
  | some => simp
  | none =>
    cases conn.zeroRttKeys with
    | none => rfl
    | some => simp

@[simp]
theorem core_enforceAeadIntegrityLimit : conn.enforceAeadIntegrityLimit.core = conn.core := by
  unfold enforceAeadIntegrityLimit
  cases (conn.spaces .data).keys with
  | none => rfl
  | some =>
    dsimp only
    split <;> rfl

@[simp]
theorem core_scheduleAck (ackEliciting immediate : Bool) (now : Nat) :
    (conn.scheduleAck space ackEliciting immediate now).core = conn.core := by
  unfold scheduleAck
  split
  · rfl
  split
  · rfl
  · exact core_modifySpace _ rfl

@[simp]
theorem core_stampLargest : (conn.stampLargest space pn now).core = conn.core := by
  unfold stampLargest
  split
  · exact core_modifySpace _ rfl
  · rfl

@[simp]
theorem core_recvClose (close : Close) (now : Nat) :
    (conn.recvClose close now).core = conn.core := by
  unfold recvClose
  split <;> rfl

@[simp]
theorem core_sampleRtt (ack : Ack) (newly : List (Nat × SentPacket)) (now : Nat) :
    (conn.sampleRtt space ack newly now).core = conn.core := by
  unfold sampleRtt
  split
  · rfl
  · split <;> rfl

@[simp]
theorem core_keepaliveOnTimeout (interval : Nat) :
    (conn.keepaliveOnTimeout now interval).core = conn.core := by
  unfold keepaliveOnTimeout
  split <;> rfl

section Tls

variable [TlsSession T] (conn : Connection T C)

@[simp]
theorem core_prevalidatePeerTransportParams :
    conn.prevalidatePeerTransportParams.1.core = conn.core := by
  unfold prevalidatePeerTransportParams
  split
  · rfl
  split
  · rfl
  · exact core_closeTransport conn ..
  · rfl

@[simp]
theorem core_applyAuthenticatedPeerAckParams :
    conn.applyAuthenticatedPeerAckParams.1.core = conn.core := by
  unfold applyAuthenticatedPeerAckParams
  split
  · rfl
  split <;> rfl

end Tls

section Controlled

variable [Controller C] (conn : Connection T C)

@[simp]
theorem core_feedController (ack : Ack) (newly : List (Nat × SentPacket)) (now : Nat) :
    (conn.feedController ack newly now).core = conn.core := by
  unfold feedController
  split <;> rfl

@[simp]
theorem core_congestionEvent (signal : Bool) (now : Nat) :
    (conn.congestionEvent signal now).core = conn.core := by
  unfold congestionEvent
  split <;> rfl

@[simp]
theorem core_reactToEcn (space : SpaceId) (ack : Ack) (now : Nat) :
    (conn.reactToEcn space ack now).core = conn.core := by
  unfold reactToEcn
  split
  · rfl
  · split <;> rfl

end Controlled

/-! ## What sending does to the core -/

theorem core_mapStreams (change : Streams → Streams) :
    (conn.mapStreams change).core = conn.core.mapTable change :=
  rfl

/-- Numbers are given out in order. -/
theorem core_allocatePacketNumber {conn alloc : Connection T C} {space : SpaceId} {pn : Nat}
    (given : conn.allocatePacketNumber space = some (alloc, pn)) :
    pn = conn.core.nextPn space ∧ alloc.core = conn.core.allocate space ∧ pn ≤ MAX_PACKET_NUMBER ∧
      (conn.core.sealBudget space).1 < (conn.core.sealBudget space).2 := by
  unfold allocatePacketNumber at given
  dsimp only at given
  split at given
  · cases given
  next number send taken =>
    cases given
    unfold PacketNumberSpace.allocateProtected at taken
    split at taken
    · cases taken
    next budgets =>
      obtain ⟨number_eq, bounded, after⟩ := PacketNumberSpace.allocate_eq_some.mp taken
      have advanced : send = ⟨(conn.spaces space).send.next + 1⟩ := by
        rw [number_eq] at after
        exact congrArg PacketNumberSpace.mk after
      refine ⟨number_eq, core_mapSpace ?_, bounded, ?_⟩
      · rw [advanced]
      · exact Nat.lt_of_not_le fun spent => budgets (.inl spent)

theorem core_trackSent (packet : SentPacket) :
    (conn.trackSent space pn packet).core = conn.core.track space pn packet :=
  core_mapSpace rfl

theorem core_storeContent :
    (conn.storeContent space pn content now).core = conn.core.store space pn content := by
  have stored : ∀ indexed : Connection T C,
      (indexed.modifySpace space fun sp =>
        { sp with
          sentContent := sp.sentContent.insert pn content
          lastAckEliciting := some now }).core =
      indexed.core.mapSpace space fun sp =>
        { sp with sentContent := sp.sentContent.insert pn content } :=
    fun _ => core_mapSpace rfl
  unfold storeContent Core.store Core.index
  rw [stored]
  by_cases data : space = .data
  · rw [if_pos data, if_pos data]
    rfl
  · rw [if_neg data, if_neg data]

theorem core_countSealed :
    (if space = .data then conn.countSealed pn else conn).core = conn.core.count space pn := by
  unfold Core.count countSealed
  by_cases data : space = .data
  · rw [if_pos data, if_pos data]
    exact apply_ite core ..
  · rw [if_neg data, if_neg data]

theorem core_noteSealed : (conn.noteSealed space pn).core = conn.core.noteSealed space pn := by
  have same : conn.core.sealingKey space = conn.sealingKey space := rfl
  unfold noteSealed Core.noteSealed
  rw [same]
  cases conn.sealingKey space with
  | none => rfl
  | some => rfl

/-- Every packet that is sent is recorded here. -/
theorem core_recordSent [Controller C] (size : Nat)
    (ackEliciting : Bool) (content : SentContent) (now : Nat) :
    (conn.recordSent space pn size ackEliciting content now).core =
      conn.core.record space pn ⟨now, size, ackEliciting, conn.delivered⟩
        (if ackEliciting then some content else none) := by
  have paced (next : Connection T C) : (if ackEliciting ∧ space = .data ∧ content.stream ≠ [] then
        next.paceSent size now else next).core = next.core := by
    split <;> rfl
  refine (core_noteSealed _ space pn).trans ?_
  rw [core_countSealed]
  cases ackEliciting with
  | true =>
    rw [if_pos rfl, core_storeContent, paced, core_trackSent]
    rfl
  | false =>
    rw [if_neg Bool.false_ne_true, paced, core_trackSent]
    rfl

theorem core_ackSent : (conn.ackSent space).core = conn.core.noteAckSent space := by
  have cleared : (conn.modifySpace space fun sp =>
      { sp with
        ackPending := false
        ackElicitingCount := 0
        ackDeadline := none }).core = conn.core :=
    core_modifySpace _ rfl
  unfold ackSent Core.noteAckSent
  rw [← cleared]
  by_cases data : space = .data
  · rw [if_pos data, if_pos data]
    rfl
  · rw [if_neg data, if_neg data]

theorem core_cryptoSent (range : CryptoRange) :
    (conn.cryptoSent space range).core = conn.core.cryptoSent space range := by
  apply core_mapSpace
  exact apply_ite Space.toSpaceCore ..

/-! ## What acknowledgements and losses do to the core -/

theorem core_takeContent :
    (conn.takeContent space pn content).core = conn.core.take space pn content := by
  have removed :
      (conn.modifySpace space fun sp =>
        { sp with sentContent := sp.sentContent.erase pn }).core =
      conn.core.mapSpace space fun sp =>
        { sp with sentContent := sp.sentContent.erase pn } :=
    core_mapSpace rfl
  unfold takeContent Core.take Core.unindex
  rw [← removed]
  exact apply_ite core ..

theorem core_requeue : (conn.requeue space content).core = conn.core.requeue space content := by
  have resent :
      (conn.modifySpace space fun sp =>
        { sp with retransmitCrypto := sp.retransmitCrypto ++ content.crypto }).core =
      conn.core.mapSpace space fun sp =>
        { sp with retransmitCrypto := sp.retransmitCrypto ++ content.crypto } :=
    core_mapSpace rfl
  unfold Core.requeue
  rw [← resent]
  rfl

theorem core_ackOne : (conn.ackOne space pn).core = conn.core.ackOne space pn := by
  have same : (conn.core.spaces space).sentContent[pn]? =
      (conn.spaces space).sentContent[pn]? := rfl
  unfold ackOne Core.ackOne
  rw [same]
  cases (conn.spaces space).sentContent[pn]? with
  | none => rfl
  | some => rw [core_mapStreams, core_takeContent]

theorem core_foldl_ackOne :
    (pns.foldl (fun conn pn => conn.ackOne space pn) conn).core =
      pns.foldl (fun core pn => core.ackOne space pn) conn.core := by
  induction pns generalizing conn with
  | nil => rfl
  | cons _ _ ih => rw [List.foldl_cons, List.foldl_cons, ih, core_ackOne]

theorem core_noteProbe (newly : List Nat) :
    (conn.noteProbe space newly).core = conn.core.noteProbe space newly := by
  unfold noteProbe Core.noteProbe
  by_cases data : space = .data
  · rw [if_pos data, if_pos data]
    exact apply_ite core ..
  · rw [if_neg data, if_neg data]

/-- The losses of the connection are those of the core. -/
theorem core_loseOne : (conn.loseOne space pn).1.core = conn.core.loseOne space pn := by
  have same : (conn.core.spaces space).sentContent[pn]? =
      (conn.spaces space).sentContent[pn]? := rfl
  unfold loseOne Core.loseOne
  by_cases aimed : space = .data ∧ conn.mtuProbePn = some pn
  · have coreAimed : space = .data ∧ conn.core.mtuProbePn = some pn := aimed
    rw [if_pos aimed, if_pos coreAimed]
    rw [same]
    cases (conn.spaces space).sentContent[pn]? with
    | none => rfl
    | some content => exact core_takeContent _ space pn content
  · have coreAimed : ¬(space = .data ∧ conn.core.mtuProbePn = some pn) := aimed
    rw [if_neg aimed, if_neg coreAimed, same]
    cases (conn.spaces space).sentContent[pn]? with
    | none => rfl
    | some =>
      dsimp only
      rw [core_requeue, ← core_takeContent]
      congr 1
      exact apply_ite core ..

theorem core_processLostPackets :
    (conn.processLostPackets space pns).1.core =
      pns.foldl (fun core pn => core.loseOne space pn) conn.core := by
  induction pns generalizing conn with
  | nil => rfl
  | cons _ _ ih =>
    rw [List.foldl_cons, ← core_loseOne]
    exact ih _

theorem core_detectSpaceLosses (lossDelay now : Nat) :
    (conn.detectSpaceLosses space lossDelay now).1.core =
      conn.core.losePackets space lossDelay now := by
  have detected :
      (conn.modifySpace space fun sp =>
        { sp with
          sent := ((conn.spaces space).sent.detectLost lossDelay now).1
          lossTime :=
            ((conn.spaces space).sent.detectLost lossDelay now).2.2 }).core =
      conn.core.withSent space ((conn.spaces space).sent.detectLost lossDelay now).1 :=
    core_mapSpace rfl
  unfold detectSpaceLosses Core.losePackets
  rw [core_processLostPackets, detected]
  rfl

/-- A probe takes the content of the oldest packet. -/
theorem core_queueProbe [Controller C]
    {conn : Connection T C} {space : SpaceId} {pn : Nat} {content : SentContent}
    (victim : conn.probeVictim = some (space, pn, content)) :
    conn.queueProbe.core = conn.core.takeProbe space pn content := by
  have forgotten : ∀ taken : Connection T C,
      (taken.modifySpace space fun sp =>
        { sp with sent := (sp.sent.discard pn).1 }).core =
      taken.core.withSent space ((taken.core.spaces space).sent.discard pn).1 :=
    fun _ => core_mapSpace rfl
  have requeued : ∀ pinging : Connection T C,
      ({ pinging.requeue space content with
        probePending :=
          min ((pinging.requeue space content).probePending + 1) 255 } : Connection T C).core =
      pinging.core.requeue space content :=
    fun pinging => core_requeue pinging space content
  unfold queueProbe Core.takeProbe
  rw [victim]
  dsimp only
  rw [requeued, ← core_takeContent, ← forgotten]
  rfl

theorem core_discardSpace : (conn.discardSpace space).core = conn.core.discard space :=
  core_mapSpace rfl

end Connection

end ParallaX.Quic
