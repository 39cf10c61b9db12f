import Mathlib.Tactic.Common

/-!
# Path MTU discovery

The search for the largest datagram the path carries: a binary search between
the validated size and a ceiling, one probe at a time, and a reset to the base
size when full-size packets keep getting lost.
-/

namespace ParallaX.Quic

/-- The validated size every connection starts with and resets to. -/
def BASE_MTU : Nat := 1252

def MAX_MTU : Nat := 1452

/-- The probes spent on one size before the ceiling is lowered. -/
def MAX_PROBES : Nat := 3

/-- A narrower search window ends the search. -/
def SEARCH_STEP : Nat := 16

/-- The full-size losses in a row that condemn the current size. -/
def BLACKHOLE_LOSS_THRESHOLD : Nat := 4

namespace Pmtud

inductive State where
  | base
  | searching
  | complete
deriving DecidableEq, Repr

end Pmtud

structure Pmtud where
  state : Pmtud.State
  current : Nat
  low : Nat
  high : Nat
  probeSize : Option Nat
  probesAtSize : Nat
  blackholeLosses : Nat
deriving DecidableEq, Repr

namespace Pmtud

def new : Pmtud :=
  { state := .base
    current := BASE_MTU
    low := BASE_MTU
    high := MAX_MTU
    probeSize := none
    probesAtSize := 0
    blackholeLosses := 0 }

variable (pmtud : Pmtud)

def currentMtu : Nat := pmtud.current

def midpoint : Nat :=
  let mid := pmtud.low + (pmtud.high - pmtud.low + 1) / 2
  min (max mid (pmtud.low + 1)) pmtud.high

def nextProbeSize : Pmtud × Option Nat :=
  if pmtud.probeSize.isSome then
    (pmtud, none)
  else
    match pmtud.state with
    | .complete => (pmtud, none)
    | .base =>
      if pmtud.high - pmtud.low < SEARCH_STEP then
        ({ pmtud with state := .complete }, none)
      else
        ({ pmtud with state := .searching, probeSize := some pmtud.midpoint, probesAtSize := 0 },
          some pmtud.midpoint)
    | .searching =>
      if pmtud.high - pmtud.low < SEARCH_STEP then ({ pmtud with state := .complete }, none)
      else ({ pmtud with probeSize := some pmtud.midpoint }, some pmtud.midpoint)

/-- The search goes on while its window is wide enough. -/
def searchState (low high : Nat) : State :=
  if high - low < SEARCH_STEP then .complete else .searching

/-- The probe in flight was acknowledged: its size is validated. -/
def onProbeAcked : Pmtud :=
  match pmtud.probeSize with
  | none => pmtud
  | some size =>
    let low := max pmtud.low size
    { pmtud with
      state := searchState low pmtud.high
      current := if pmtud.current < size then size else pmtud.current
      low := low
      probeSize := none
      probesAtSize := 0
      blackholeLosses := 0 }

/-- The probe in flight was lost: retry its size, or lower the ceiling. -/
def onProbeLost : Pmtud :=
  match pmtud.probeSize with
  | none => pmtud
  | some size =>
    if pmtud.probesAtSize + 1 < MAX_PROBES then
      { pmtud with probeSize := none, probesAtSize := pmtud.probesAtSize + 1 }
    else
      let high := max (size - 1) pmtud.low
      { pmtud with
        state := searchState pmtud.low high
        high := high
        probeSize := none
        probesAtSize := 0 }

/-- A full-size packet was lost. The flag tells a reset. -/
def onFullSizeLoss : Pmtud × Bool :=
  if pmtud.current ≤ BASE_MTU then
    (pmtud, false)
  else if BLACKHOLE_LOSS_THRESHOLD ≤ pmtud.blackholeLosses + 1 then (new, true)
  else ({ pmtud with blackholeLosses := pmtud.blackholeLosses + 1 }, false)

def onFullSizeAcked : Pmtud := { pmtud with blackholeLosses := 0 }

end Pmtud

end ParallaX.Quic
