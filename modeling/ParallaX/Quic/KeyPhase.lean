import ParallaX.Quic.Packet

/-!
# Key phases

The generations of the 1-RTT keys of one endpoint. A generation is a number
and the wire carries only its parity, so the packet-number frontiers decide
which generation a packet belongs to.
-/

namespace ParallaX.Quic

inductive ReadGeneration where
  | previous
  | current
  | next
  | unavailable
deriving DecidableEq, Repr

def checkedSucc (value : Nat) : Option Nat :=
  if value + 1 < 2 ^ 64 then some (value + 1) else none

/-- The parity of a generation, as the key-phase bit carries it. -/
def phaseOf (generation : Nat) : Bool := decide (generation % 2 = 1)

structure KeyPhaseState where
  tx : Nat
  rx : Nat
  txFirst : Option Nat
  txLast : Option Nat
  txAcked : Bool
  rxMin : Option Nat
  rxMax : Option Nat
  previousMax : Option Nat
  updateAckPending : Bool
deriving DecidableEq, Repr

namespace KeyPhaseState

def new : KeyPhaseState :=
  { tx := 0
    rx := 0
    txFirst := none
    txLast := none
    txAcked := false
    rxMin := none
    rxMax := none
    previousMax := none
    updateAckPending := false }

variable (state : KeyPhaseState)

/-- The generation a packet claims to be of. -/
def select (phase : Bool) (pn : Nat) : ReadGeneration :=
  if phase = phaseOf state.rx then .current
  else if state.rxMin.any (pn < ·) then .previous
  else if state.rxMax.all (· < pn) then .next
  else .unavailable

def validReceive (generation : ReadGeneration) (pn : Nat) : Bool :=
  match generation with
  | .current => state.previousMax.all (· < pn)
  | .previous => decide (0 < state.rx) && state.rxMin.any (pn < ·)
  | .next =>
    (checkedSucc state.rx).isSome &&
      (!state.updateAckPending || decide (checkedSucc state.rx = some state.tx)) &&
      state.rxMax.all (· < pn)
  | .unavailable => false

/-- Commit a received packet. The flag is `false` when it is refused, which
changes nothing. -/
def commitReceive (generation : ReadGeneration)
    (pn : Nat) (authenticated fresh : Bool) : KeyPhaseState × Bool :=
  if !authenticated || !fresh || !state.validReceive generation pn then
    (state, false)
  else
    match generation with
    | .next =>
      ({ state with
          rx := state.rx + 1
          previousMax := state.rxMax
          rxMin := some pn
          rxMax := some pn
          updateAckPending := true },
        true)
    | .current =>
      ({ state with
          rxMin := some (state.rxMin.elim pn (min · pn))
          rxMax := some (state.rxMax.elim pn (max · pn)) },
        true)
    | .previous =>
      ({ state with previousMax := some (state.previousMax.elim pn (max · pn)) },
        true)
    | .unavailable => (state, false)

/-- The generation an update would install, when one is allowed. -/
def activeSuccessor (confirmed : Bool) : Option Nat :=
  if confirmed ∧ state.tx = state.rx ∧ state.txAcked then checkedSucc state.tx
  else none

/-- Note that the peer acknowledged a packet of the current sending
generation. -/
def confirm (receiveGeneration low high : Nat) : KeyPhaseState × Bool :=
  let covered :=
    match state.txFirst, state.txLast with
    | some first, some last => decide (low ≤ high) && decide (low ≤ last) && decide (first ≤ high)
    | _, _ => false
  if receiveGeneration < state.tx ∨ !covered then (state, false)
  else ({ state with txAcked := true }, true)

def noteSent (pn : Nat) : KeyPhaseState :=
  { state with txFirst := some (state.txFirst.getD pn), txLast := some pn }

def installTx (generation : Nat) : KeyPhaseState :=
  { state with tx := generation, txFirst := none, txLast := none, txAcked := false }

end KeyPhaseState

/-- The cached keys of the next generation; each direction consumes its half
once. -/
structure NextPacketKeys where
  generation : Nat
  localKey : Option PacketKey
  remoteKey : Option PacketKey
deriving DecidableEq, Repr

structure PreviousReadKey where
  key : PacketKey
  retireAt : Nat
deriving DecidableEq, Repr

end ParallaX.Quic
