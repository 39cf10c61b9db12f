import ParallaX.Quic.Receive

/-!
# Runs of a connection

The calls and inputs of a connection as one step function, and the connections
that a run can reach.
-/

namespace ParallaX.Quic

/-- The stream is in the table, was retired, or may be opened by this
endpoint. -/
def Streams.known (table : Streams) (id : Nat) : Bool :=
  table.streams.contains id || table.streamRetired id || !table.isPeerInitiated id

namespace Connection

/-- What can happen to a connection. The stream operations that frames and
acknowledgements run are events of their own too. -/
inductive Event where
  | openBi
  | openUni
  | acceptBi
  | acceptUni
  | sendStream (id : Nat) (data : List UInt8)
  | finishStream (id : Nat)
  | resetStream (id errorCode : Nat)
  | cancelStream (id errorCode : Nat)
  | readStream (id : Nat)
  | discardStreamRecv (id : Nat)
  | recvStream (id offset : Nat) (fin : Bool) (data : List UInt8)
  | recvResetStream (id errorCode finalSize : Nat)
  | retireStream (id : Nat)
  | close (errorCode : Nat) (reason : List UInt8)
  | closeTransport (errorCode frameType : Nat) (reason : List UInt8)
  | initiateKeyUpdate (now : Nat)
  | pollTransmit (now : Nat)
  | handleTimeout (now interval : Nat)
  | handleDatagram (datagram : Datagram) (ecn : EcnCodepoint) (now : Nat)

variable {T C : Type}

/-- The application passes ids it opened or accepted to the calls that create
a stream on demand. -/
def Event.Known (conn : Connection T C) : Event → Prop
  | .sendStream id _ | .resetStream id _ | .cancelStream id _ => conn.toStreams.known id = true
  | _ => True

variable [TlsSession T] [Controller C]

/-- The connection after an event; `none` where the source panics. -/
def step (conn : Connection T C) : Event → Option (Connection T C)
  | .openBi =>
    some (conn.mapStreams fun table =>
      table.createLocalStream conn.peerParams table.nextBidi)
  | .openUni =>
    some (conn.mapStreams fun table =>
      table.createLocalStream conn.peerParams table.nextUni)
  | .acceptBi => some (conn.mapStreams (·.acceptBi.1))
  | .acceptUni => some (conn.mapStreams (·.takeAcceptUni.1))
  | .sendStream id data => some (conn.mapStreams (·.sendStream conn.peerParams id data))
  | .finishStream id => some (conn.mapStreams (·.finishStream id))
  | .resetStream id errorCode => some (conn.mapStreams (·.resetStream conn.peerParams id errorCode))
  | .cancelStream id errorCode =>
    some (conn.mapStreams (·.cancelStream conn.peerParams id errorCode))
  | .readStream id => some (conn.mapStreams fun table => (table.readStream id).1)
  | .discardStreamRecv id => some (conn.mapStreams (·.discardStreamRecv id))
  | .recvStream id offset fin data =>
    some (conn.mapStreams fun table =>
      (table.recvStream id offset fin data).1)
  | .recvResetStream id errorCode finalSize =>
    some (conn.mapStreams fun table =>
      (table.recvResetStream id errorCode finalSize).1)
  | .retireStream id => some (conn.mapStreams (·.retireStream id))
  | .close errorCode reason => some (conn.close errorCode reason)
  | .closeTransport errorCode frameType reason =>
    some (conn.closeTransport errorCode frameType reason)
  | .initiateKeyUpdate now => some (conn.initiateKeyUpdate now).1
  | .pollTransmit now => (conn.pollTransmit now).map Prod.fst
  | .handleTimeout now interval => some (conn.handleTimeout now interval)
  | .handleDatagram datagram ecn now => some (conn.handleDatagram datagram ecn now).1

/-- The connections that a run can reach. -/
inductive Reachable : Connection T C → Prop
  | client (tls : T) (cc : C) (dcid scid : ConnectionId)
      (recvMaxStreamsSent : Dir → Nat) (ticket : Option TransportParameters)
      (keepaliveInterval createdAt : Nat) :
      Reachable (newClient tls cc dcid scid recvMaxStreamsSent ticket keepaliveInterval createdAt)
  | server (tls : T) (cc : C) (scid : ConnectionId)
      (recvMaxStreamsSent : Dir → Nat) (keepaliveInterval createdAt : Nat) :
      Reachable (newServer tls cc scid recvMaxStreamsSent keepaliveInterval createdAt)
  | step {conn next : Connection T C} {event : Event}
      (reachable : Reachable conn) (known : event.Known conn)
      (taken : conn.step event = some next) : Reachable next

/-- A fresh connection whose parameters advertise these stream limits. -/
inductive Starts (recvMaxStreamsSent : Dir → Nat) : Connection T C → Prop
  | client (tls : T) (cc : C) (dcid scid : ConnectionId) (ticket : Option TransportParameters)
      (keepaliveInterval createdAt : Nat) :
      Starts recvMaxStreamsSent
        (newClient tls cc dcid scid recvMaxStreamsSent ticket keepaliveInterval createdAt)
  | server (tls : T) (cc : C) (scid : ConnectionId) (keepaliveInterval createdAt : Nat) :
      Starts recvMaxStreamsSent
        (newServer tls cc scid recvMaxStreamsSent keepaliveInterval createdAt)

def Taken (conn next : Connection T C) : Prop :=
  ∃ event : Event, event.Known conn ∧ conn.step event = some next

def Runs : Connection T C → Connection T C → Prop := Relation.ReflTransGen Taken

instance (conn : Connection T C) (event : Event) : Decidable (event.Known conn) :=
  match event with
  | .sendStream id _ | .resetStream id _ | .cancelStream id _ =>
    inferInstanceAs (Decidable (conn.toStreams.known id = true))
  | .openBi | .openUni | .acceptBi | .acceptUni | .finishStream _
  | .readStream _ | .discardStreamRecv _ | .recvStream .. | .recvResetStream ..
  | .retireStream _ | .close .. | .closeTransport .. | .initiateKeyUpdate _
  | .pollTransmit _ | .handleTimeout .. | .handleDatagram .. => inferInstanceAs (Decidable True)

def play (conn : Connection T C) : List Event → Option (Connection T C)
  | [] => some conn
  | event :: rest =>
    if event.Known conn then (conn.step event).bind fun next => next.play rest
    else none

theorem runs_of_play {events : List Event} {conn last : Connection T C}
    (played : conn.play events = some last) : Runs conn last := by
  induction events generalizing conn with
  | nil =>
    cases played
    exact .refl
  | cons event _ ih =>
    unfold play at played
    split at played
    next known =>
      obtain ⟨_, taken, onward⟩ := Option.bind_eq_some_iff.mp played
      exact .head ⟨event, known, taken⟩ (ih onward)
    · cases played

theorem reachable_runs {conn : Connection T C} (reachable : Reachable conn) :
    ∃ maxSent start, Starts maxSent start ∧ Runs start conn := by
  induction reachable with
  | client tls cc dcid scid maxSent ticket keepalive createdAt =>
    exact ⟨maxSent, _, .client tls cc dcid scid ticket keepalive createdAt, .refl⟩
  | server tls cc scid maxSent keepalive createdAt =>
    exact ⟨maxSent, _, .server tls cc scid keepalive createdAt, .refl⟩
  | step _ known taken ih =>
    obtain ⟨maxSent, start, starts, runs⟩ := ih
    exact ⟨maxSent, start, starts, runs.tail ⟨_, known, taken⟩⟩

end Connection

/-! ## Scripted sessions -/

/-- A TLS session that follows a script: what it writes, and the parameters of
its peer. -/
structure ScriptedTls where
  side : Side
  outputs : List (List UInt8 × Option KeyChange)
  handshaking : Bool
  params : Option TransportParameters
  /-- The generation of the 1-RTT keys it derived last. -/
  generation : Nat

namespace ScriptedTls

def dataKey (side : Side) (generation : Nat) : PacketKey :=
  { secret := 2 * generation + if side = .client then 0 else 1
    tagLen := 16
    confidentialityLimit := 2 ^ 23
    integrityLimit := 2 ^ 36 }

def peerOf : Side → Side
  | .client => .server
  | .server => .client

def dataKeys (side : Side) (generation : Nat) : Keys :=
  { localKey := dataKey side generation
    remoteKey := dataKey (peerOf side) generation }

instance : TlsSession ScriptedTls where
  readHandshake tls _ := ({ tls with handshaking := false }, .ok ())
  writeHandshake tls :=
    match tls.outputs with
    | [] => (tls, [], none)
    | output :: rest => ({ tls with outputs := rest }, output)
  backlog tls := tls.outputs.length
  next1rttKeys tls :=
    let keys := dataKeys tls.side (tls.generation + 1)
    ({ tls with generation := tls.generation + 1 }, .ok (keys.localKey, keys.remoteKey))
  isHandshaking tls := tls.handshaking
  peerTransportParameters tls := tls.params.map Except.ok
  initialKeys _ side := dataKeys side 0

def ready (side : Side) (params : TransportParameters) : ScriptedTls :=
  { side := side
    outputs := [([], some (.oneRtt (dataKeys side 0)))]
    handshaking := false
    params := some params
    generation := 0 }

end ScriptedTls

/-- A controller with a fixed window that does not pace. -/
structure FixedWindow where
  window : Nat

instance : Controller FixedWindow where
  onAck cc _ := cc
  onCongestionEvent cc _ := cc
  window := FixedWindow.window
  pacingRate _ := UNPACED_RATE
  transferTime size rate := size * 1000000000 / rate
  deliveryRate bytes elapsed := bytes * 1000000000 / elapsed

end ParallaX.Quic
