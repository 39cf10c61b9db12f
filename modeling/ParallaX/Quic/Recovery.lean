import ParallaX.Data.TreeMaps

/-!
# Loss recovery

The RTT estimator, and the sent packets of one packet-number space with the
packet-threshold and time-threshold loss detection. Instants and durations are
nanoseconds, and every `u64` is a `Nat`.
-/

namespace ParallaX.Quic

open ParallaX.Data

/-- The ordered map of the source, keyed by a `u64`. -/
abbrev BTreeMap (β : Type) := Std.TreeMap Nat β

def fromMillis (millis : Nat) : Nat := millis * 1000000

def fromSecs (secs : Nat) : Nat := secs * 1000000000

def TIMER_GRANULARITY : Nat := fromMillis 1

def INITIAL_RTT : Nat := fromMillis 333

structure RttEstimator where
  latest : Nat
  smoothed : Option Nat
  rttvar : Nat
  min : Nat
deriving DecidableEq, Repr

namespace RttEstimator

def new : RttEstimator :=
  { latest := INITIAL_RTT
    smoothed := none
    rttvar := INITIAL_RTT / 2
    min := 0 }

variable (rtt : RttEstimator)

/-- Fold in one sample. The delay the peer reports is subtracted only when
the sample stays at or above the minimum. -/
def update (ackDelay rttSample : Nat) : RttEstimator :=
  match rtt.smoothed with
  | none =>
    { latest := rttSample
      smoothed := some rttSample
      rttvar := rttSample / 2
      min := rttSample }
  | some smoothed =>
    let least := Nat.min rtt.min rttSample
    let adjusted :=
      if least + ackDelay ≤ rttSample then rttSample - ackDelay
      else rttSample
    let varSample :=
      if adjusted < smoothed then smoothed - adjusted
      else adjusted - smoothed
    { latest := rttSample
      smoothed := some ((smoothed * 7 + adjusted) / 8)
      rttvar := (rtt.rttvar * 3 + varSample) / 4
      min := least }

def smoothedRtt : Nat := rtt.smoothed.getD INITIAL_RTT

def ptoBase : Nat := rtt.smoothedRtt + max (rtt.rttvar * 4) TIMER_GRANULARITY

def lossDelay : Nat := max (max rtt.smoothedRtt rtt.latest * 9 / 8) TIMER_GRANULARITY

end RttEstimator

/-! ## Sent packets -/

/-- A packet is lost once one numbered this much higher is acknowledged. -/
def PACKET_THRESHOLD : Nat := 3

/-- The largest number of pure-ACK packets kept. -/
def MAX_NON_ACK_ELICITING_TRACKED : Nat := 256

structure SentPacket where
  timeSent : Nat
  size : Nat
  ackEliciting : Bool
  /-- The delivered bytes of the connection when the packet was sent. -/
  delivered : Nat
deriving DecidableEq, Repr

/-- The sent packets of one space. `nonAckEliciting` holds the numbers of the
tracked pure-ACK packets in send order. -/
structure SentPackets where
  packets : BTreeMap SentPacket
  nonAckEliciting : List Nat
  largestAcked : Option Nat
  inFlight : Nat

namespace SentPackets

def new : SentPackets :=
  { packets := ∅, nonAckEliciting := [], largestAcked := none, inFlight := 0 }

variable (sent : SentPackets)

/-- Record an outgoing packet. Only ack-eliciting packets are in flight, and
the oldest pure-ACK packets beyond the bound are forgotten. -/
def onSent (pn : Nat) (packet : SentPacket) : SentPackets :=
  if packet.ackEliciting then
    { sent with packets := sent.packets.insert pn packet, inFlight := sent.inFlight + packet.size }
  else
    let queue := sent.nonAckEliciting ++ [pn]
    let excess := queue.length - MAX_NON_ACK_ELICITING_TRACKED
    let kept := (queue.take excess).foldl Std.TreeMap.erase sent.packets
    { sent with packets := kept.insert pn packet, nonAckEliciting := queue.drop excess }

def discard (pn : Nat) : SentPackets × Option SentPacket :=
  match sent.packets[pn]? with
  | none => (sent, none)
  | some packet =>
    ({ sent with
        packets := sent.packets.erase pn
        inFlight :=
          if packet.ackEliciting then sent.inFlight - packet.size
          else sent.inFlight },
      some packet)

/-- Drop several packets, and return those that were tracked. -/
def removeAll (sent : SentPackets) :
    List Nat → SentPackets × List (Nat × SentPacket)
  | [] => (sent, [])
  | pn :: pns =>
    match sent.discard pn with
    | (smaller, none) => smaller.removeAll pns
    | (smaller, some packet) =>
      ((smaller.removeAll pns).1, (pn, packet) :: (smaller.removeAll pns).2)

/-- The tracked packet numbers that the inclusive ranges contain, range by
range. -/
def ackedKeys (ranges : List (Nat × Nat)) : List Nat :=
  ranges.flatMap fun range =>
    sent.packets.keys.filter fun pn => range.1 ≤ pn && pn ≤ range.2

variable (largest : Nat)

/-- Apply an ACK, and return the newly acknowledged packets. -/
def onAck (ranges : List (Nat × Nat)) : SentPackets × List (Nat × SentPacket) :=
  let marked := { sent with largestAcked := some (sent.largestAcked.elim largest (max · largest)) }
  marked.removeAll (sent.ackedKeys ranges)

/-- A tracked packet below the largest acknowledged number is lost when that
number is far enough above it, or when it was sent long enough ago. -/
def isLost (lossDelay now pn : Nat) (packet : SentPacket) : Bool :=
  decide (pn + PACKET_THRESHOLD ≤ largest) || decide (packet.timeSent + lossDelay ≤ now)

def candidates : List (Nat × SentPacket) :=
  sent.packets.toList.filter fun entry => entry.1 < largest

/-- Remove the lost packets, and return them with the earliest deadline at
which a remaining candidate is lost by time. -/
def detectLost (lossDelay : Nat) (now : Nat) : SentPackets × List (Nat × SentPacket) × Option Nat :=
  match sent.largestAcked with
  | none => (sent, [], none)
  | some largest =>
    let judged := (sent.candidates largest).partition
      fun entry => isLost largest lossDelay now entry.1 entry.2
    let removed := sent.removeAll (judged.1.map Prod.fst)
    (removed.1, removed.2, (judged.2.map fun entry => entry.2.timeSent + lossDelay).min?)

end SentPackets

end ParallaX.Quic
