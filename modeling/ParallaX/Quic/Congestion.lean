import Mathlib.Algebra.Group.Nat.Defs
import Mathlib.Tactic.Common

/-!
# Congestion control and pacing

The seam between the connection and its congestion controller, and the pacer
that spreads stream packets at the rate of the controller. The two float
divisions of the source, of a size by a rate and of delivered bytes by a time,
are operations of the seam.
-/

namespace ParallaX.Quic

def UNPACED_RATE : Nat := 2 ^ 64 - 1

structure AckInfo where
  now : Nat
  bytesAcked : Nat
  rtt : Nat
  deliveryRate : Nat
  inFlight : Nat
  delivered : Nat
  appLimited : Bool
deriving DecidableEq, Repr

class Controller (C : Type) where
  onAck : C → AckInfo → C
  onCongestionEvent : C → Nat → C
  window : C → Nat
  pacingRate : C → Nat
  /-- The time `size` bytes take at `rate` bytes a second. -/
  transferTime : (size rate : Nat) → Nat
  /-- The rate in bytes a second of `bytes` over `elapsed` nanoseconds. -/
  deliveryRate : (bytes elapsed : Nat) → Nat

/-- Unpaced packets allowed back to back when leaving quiescence. -/
def PACING_BURST_PACKETS : Nat := 10

/-- Below this rate nothing is paced. -/
def PACING_MIN_RATE_BYTES_PER_SEC : Nat := 150000

structure Pacer where
  nextSendTime : Option Nat
  burstTokens : Nat
deriving DecidableEq, Repr

namespace Pacer

def new : Pacer := { nextSendTime := none, burstTokens := PACING_BURST_PACKETS }

variable (pacer : Pacer)

def canSend (now : Nat) : Bool :=
  decide (0 < pacer.burstTokens) || pacer.nextSendTime.all fun release => release ≤ now

/-- The deadline after a packet whose transfer takes `transfer`, from the
later of now and the prior deadline. -/
def armedDeadline (now transfer pacingRate : Nat) : Option Nat :=
  if pacingRate = UNPACED_RATE ∨ pacingRate < PACING_MIN_RATE_BYTES_PER_SEC then none
  else some (pacer.nextSendTime.elim now (max · now) + transfer)

/-- Account for one sent packet. An empty pipe refills the burst, and the
last burst token arms the deadline. -/
def onSent (now transfer pacingRate inFlightBefore : Nat) : Pacer :=
  let tokens :=
    if inFlightBefore = 0 then PACING_BURST_PACKETS else pacer.burstTokens
  if 0 < tokens then
    { nextSendTime :=
        if tokens - 1 = 0 then pacer.armedDeadline now transfer pacingRate
        else none
      burstTokens := tokens - 1 }
  else
    { nextSendTime := pacer.armedDeadline now transfer pacingRate
      burstTokens := tokens }

end Pacer

end ParallaX.Quic
