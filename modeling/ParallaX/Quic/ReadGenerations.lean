import ParallaX.Quic.KeyPhase

/-!
# The order of the receive generations

What the key-phase frontiers guarantee over a whole run of accepted packets.
The state remembers the current generation and the one before it. A log next
to the state remembers every accepted packet with the generation whose key
opened it, and the highest packet number of the generations that the state has
forgotten.
-/

namespace ParallaX.Quic

open List

/-- What an endpoint does to the state between two received packets. -/
inductive KeyPhaseState.Upkeep : KeyPhaseState → KeyPhaseState → Prop where
  | sealPacket (state : KeyPhaseState) (pn : Nat) :
      Upkeep state (state.noteSent pn)
  | sendAck (state : KeyPhaseState) : Upkeep state { state with updateAckPending := false }
  | confirm (state : KeyPhaseState) (receiveGeneration low high : Nat) :
      Upkeep state (state.confirm receiveGeneration low high).1
  | updateSendKey (state : KeyPhaseState) (generation : Nat) :
      Upkeep state (state.installTx generation)

theorem KeyPhaseState.confirm_cases (state : KeyPhaseState) (receiveGeneration low high : Nat) :
    (state.confirm receiveGeneration low high).1 = state ∨
      (state.confirm receiveGeneration low high).1 = { state with txAcked := true } := by
  simp only [KeyPhaseState.confirm, apply_ite Prod.fst]
  exact ite_eq_or_eq ..

def KeyPhaseState.numberOf (state : KeyPhaseState) :
    ReadGeneration → Nat
  | .previous => state.rx - 1
  | .current => state.rx
  | .next => state.rx + 1
  | .unavailable => state.rx

/-- The state with the packets accepted so far, and `previousMax` as it stood
when the last update of the keys replaced it. -/
structure ReadLog where
  state : KeyPhaseState
  accepted : List (Nat × Nat)
  older : Option Nat

namespace ReadLog

def new : ReadLog := { state := .new, accepted := [], older := none }

def accept (log : ReadLog) (next : KeyPhaseState)
    (generation : ReadGeneration) (pn : Nat) : ReadLog :=
  { state := next
    accepted := (pn, log.state.numberOf generation) :: log.accepted
    older :=
      if generation = .next then log.state.previousMax else log.older }

/-- The logs of all runs in which every accepted packet meets a condition. -/
inductive Run (allowed : ReadLog → ReadGeneration → Nat → Prop) : ReadLog → Prop where
  | start : Run allowed .new
  | upkeep {log : ReadLog} {next : KeyPhaseState}
      (run : Run allowed log) (kept : log.state.Upkeep next) :
      Run allowed { log with state := next }
  | receive {log : ReadLog} {next : KeyPhaseState} (phase : Bool) (pn : Nat) (run : Run allowed log)
      (meets : allowed log (log.state.select phase pn) pn)
      (committed :
        log.state.commitReceive (log.state.select phase pn) pn true true = (next, true)) :
      Run allowed (log.accept next (log.state.select phase pn) pn)

/-- A packet read under the previous key lies above every packet of the
generations before that key. -/
def AboveOlder (log : ReadLog) (generation : ReadGeneration) (pn : Nat) : Prop :=
  generation = .previous → log.older.all (· < pn) = true

instance (log : ReadLog) (generation : ReadGeneration) (pn : Nat) :
    Decidable (log.AboveOlder generation pn) :=
  inferInstanceAs (Decidable (generation = .previous → log.older.all (· < pn) = true))

/-! ## The frontiers -/

/-- The packet numbers a state remembers are ordered as its generations. -/
structure Frontiers (older previousMax rxMin rxMax : Option Nat) : Prop where
  older : ∀ high, older = some high → ∃ top, previousMax = some top ∧ high < top
  previous : ∀ top, previousMax = some top → ∃ low, rxMin = some low ∧ top < low
  current : ∀ low, rxMin = some low → ∃ high, rxMax = some high ∧ low ≤ high

/-- Every accepted packet lies between the frontiers of its generation. -/
structure Ordered (log : ReadLog) : Prop where
  frontiers : Frontiers log.older log.state.previousMax log.state.rxMin log.state.rxMax
  notAbove : ∀ entry ∈ log.accepted, entry.2 ≤ log.state.rx
  current : ∀ entry ∈ log.accepted, entry.2 = log.state.rx →
    ∃ low high, log.state.rxMin = some low ∧ log.state.rxMax = some high ∧
      low ≤ entry.1 ∧ entry.1 ≤ high
  previous : ∀ entry ∈ log.accepted, entry.2 + 1 = log.state.rx →
    (∃ top, log.state.previousMax = some top ∧ entry.1 ≤ top) ∧
      ∀ high, log.older = some high → high < entry.1
  oldest : ∀ entry ∈ log.accepted, entry.2 + 2 ≤ log.state.rx →
    ∃ high, log.older = some high ∧ entry.1 ≤ high
  monotone : ∀ first ∈ log.accepted, ∀ second ∈ log.accepted,
    first.2 < second.2 → first.1 < second.1

namespace Ordered

theorem start : Ordered .new :=
  { frontiers :=
      { older := nofun
        previous := nofun
        current := nofun }
    notAbove := forall_mem_nil _
    current := forall_mem_nil _
    previous := forall_mem_nil _
    oldest := forall_mem_nil _
    monotone := forall_mem_nil _ }

variable {log : ReadLog} {next : KeyPhaseState} {known : Option Nat}
  {pn : Nat}

theorem of_frontiers (inv : Ordered log) (rx : next.rx = log.state.rx)
    (previousMax : next.previousMax = log.state.previousMax) (rxMin : next.rxMin = log.state.rxMin)
    (rxMax : next.rxMax = log.state.rxMax) : Ordered { log with state := next } := by
  constructor
  · rw [previousMax, rxMin, rxMax]
    exact inv.frontiers
  · rw [rx]
    exact inv.notAbove
  · rw [rx, rxMin, rxMax]
    exact inv.current
  · rw [rx, previousMax]
    exact inv.previous
  · rw [rx]
    exact inv.oldest
  · exact inv.monotone

theorem upkeep (inv : Ordered log) (kept : log.state.Upkeep next) :
    Ordered { log with state := next } := by
  cases kept with
  | sealPacket | sendAck | updateSendKey => exact inv.of_frontiers rfl rfl rfl rfl
  | confirm receiveGeneration low high =>
    rcases log.state.confirm_cases receiveGeneration low high with same | acked
    · rw [same]
      exact inv
    · rw [acked]
      exact inv.of_frontiers rfl rfl rfl rfl

variable {entry : Nat × Nat} {bound : Nat}

theorem earlier_le (inv : Ordered log) (ok : entry ∈ log.accepted)
    (earlier : entry.2 < log.state.rx) :
    ∃ top, log.state.previousMax = some top ∧ entry.1 ≤ top := by
  by_cases adjacent : entry.2 + 1 = log.state.rx
  · exact (inv.previous entry ok adjacent).1
  · obtain ⟨high, isOlder, _⟩ := inv.oldest entry ok (by omega)
    obtain ⟨top, prev, _⟩ := inv.frontiers.older high isOlder
    exact ⟨top, prev, by omega⟩

theorem all_le (inv : Ordered log) (ok : entry ∈ log.accepted) :
    ∃ high, log.state.rxMax = some high ∧ entry.1 ≤ high := by
  by_cases latest : entry.2 = log.state.rx
  · obtain ⟨low, high, -, isMax, -, below⟩ := inv.current entry ok latest
    exact ⟨high, isMax, below⟩
  · have notAbove := inv.notAbove entry ok
    obtain ⟨top, prev, _⟩ := inv.earlier_le ok (by omega)
    obtain ⟨low, isMin, _⟩ := inv.frontiers.previous top prev
    obtain ⟨high, isMax, _⟩ := inv.frontiers.current low isMin
    exact ⟨high, isMax, by omega⟩

/-- The order of all pairs, from the order of the new packet and each one
before it. -/
theorem monotone_cons {ok : List (Nat × Nat)} {added : Nat × Nat}
    (monotone : ∀ first ∈ ok, ∀ second ∈ ok, first.2 < second.2 → first.1 < second.1)
    (before : ∀ entry ∈ ok, entry.2 < added.2 → entry.1 < added.1)
    (after : ∀ entry ∈ ok, added.2 < entry.2 → added.1 < entry.1) :
    ∀ first ∈ added :: ok, ∀ second ∈ added :: ok, first.2 < second.2 → first.1 < second.1 := by
  intro first firstIn second secondIn less
  rcases mem_cons.mp firstIn with firstNew | firstOld
  · rcases mem_cons.mp secondIn with secondNew | secondOld
    · rw [firstNew, secondNew] at less
      omega
    · rw [firstNew] at less ⊢
      exact after second secondOld less
  · rcases mem_cons.mp secondIn with secondNew | secondOld
    · rw [secondNew] at less ⊢
      exact before first firstOld less
    · exact monotone first firstOld second secondOld less

/-! ## One accepted packet -/

theorem elim_min_le (known : Option Nat) (pn : Nat) :
    known.elim pn (min · pn) ≤ pn ∧ ∀ low, known = some low → known.elim pn (min · pn) ≤ low := by
  cases known with
  | none => exact ⟨le_refl pn, nofun⟩
  | some least =>
    refine ⟨min_le_right least pn, ?_⟩
    rintro _ ⟨⟩
    exact min_le_left least pn

theorem lt_elim_min (below : bound < pn) (all : ∀ low, known = some low → bound < low) :
    bound < known.elim pn (min · pn) := by
  cases known with
  | none => exact below
  | some least => exact Nat.lt_min.mpr ⟨all least rfl, below⟩

theorem le_elim_max (known : Option Nat) (pn : Nat) :
    pn ≤ known.elim pn (max · pn) ∧
      ∀ high, known = some high → high ≤ known.elim pn (max · pn) := by
  cases known with
  | none => exact ⟨le_refl pn, nofun⟩
  | some most =>
    refine ⟨le_max_right most pn, ?_⟩
    rintro _ ⟨⟩
    exact le_max_left most pn

theorem elim_max_lt (above : pn < bound) (all : ∀ high, known = some high → high < bound) :
    known.elim pn (max · pn) < bound := by
  cases known with
  | none => exact above
  | some most => exact Nat.max_lt.mpr ⟨all most rfl, above⟩

theorem receiveCurrent (inv : Ordered log)
    (above : ∀ top, log.state.previousMax = some top → top < pn) :
    Ordered
      { log with
        state :=
          { log.state with
            rxMin := some (log.state.rxMin.elim pn (min · pn))
            rxMax := some (log.state.rxMax.elim pn (max · pn)) }
        accepted := (pn, log.state.rx) :: log.accepted } := by
  obtain ⟨minLe, minLeAll⟩ := elim_min_le log.state.rxMin pn
  obtain ⟨leMax, allLeMax⟩ := le_elim_max log.state.rxMax pn
  constructor
  case frontiers =>
    refine ⟨inv.frontiers.older, ?_, ?_⟩
    · intro top prev
      refine ⟨_, rfl, lt_elim_min (above top prev) ?_⟩
      intro low isMin
      obtain ⟨_, isMin', less⟩ := inv.frontiers.previous top prev
      rw [isMin] at isMin'
      cases isMin'
      exact less
    · rintro low ⟨⟩
      exact ⟨_, rfl, le_trans minLe leMax⟩
  case notAbove =>
    exact forall_mem_cons.mpr ⟨le_rfl, inv.notAbove⟩
  case current =>
    refine forall_mem_cons.mpr ⟨fun _ => ⟨_, _, rfl, rfl, minLe, leMax⟩, ?_⟩
    intro entry accepted latest
    obtain ⟨low, high, isMin, isMax, atLeast, atMost⟩ := inv.current entry accepted latest
    exact ⟨_, _, rfl, rfl, le_trans (minLeAll low isMin) atLeast,
      le_trans atMost (allLeMax high isMax)⟩
  case previous =>
    refine forall_mem_cons.mpr ⟨?_, inv.previous⟩
    intro impossible
    exact absurd impossible (Nat.succ_ne_self _)
  case oldest =>
    refine forall_mem_cons.mpr ⟨?_, inv.oldest⟩
    intro (impossible : log.state.rx + 2 ≤ log.state.rx)
    omega
  case monotone =>
    refine monotone_cons inv.monotone ?_ ?_
    · intro entry accepted earlier
      obtain ⟨top, prev, atMost⟩ := inv.earlier_le accepted earlier
      exact Nat.lt_of_le_of_lt atMost (above top prev)
    · intro entry accepted later
      exact absurd later (Nat.not_lt.mpr (inv.notAbove entry accepted))

theorem receivePrevious (inv : Ordered log)
    {low : Nat} (updated : 0 < log.state.rx) (isMin : log.state.rxMin = some low) (below : pn < low)
    (aboveOlder : ∀ high, log.older = some high → high < pn) :
    Ordered
      { log with
        state := { log.state with previousMax := some (log.state.previousMax.elim pn (max · pn)) }
        accepted := (pn, log.state.rx - 1) :: log.accepted } := by
  obtain ⟨leMax, allLeMax⟩ := le_elim_max log.state.previousMax pn
  constructor
  case frontiers =>
    refine ⟨?_, ?_, inv.frontiers.current⟩
    · intro high isOlder
      exact ⟨_, rfl, lt_of_lt_of_le (aboveOlder high isOlder) leMax⟩
    · rintro top ⟨⟩
      refine ⟨low, isMin, elim_max_lt below ?_⟩
      intro most prev
      obtain ⟨low', isMin', less⟩ := inv.frontiers.previous most prev
      rw [isMin] at isMin'
      cases isMin'
      exact less
  case notAbove =>
    exact forall_mem_cons.mpr ⟨Nat.sub_le _ _, inv.notAbove⟩
  case current =>
    refine forall_mem_cons.mpr ⟨?_, inv.current⟩
    intro (impossible : log.state.rx - 1 = log.state.rx)
    omega
  case previous =>
    refine forall_mem_cons.mpr ⟨fun _ => ⟨⟨_, rfl, leMax⟩, aboveOlder⟩, ?_⟩
    intro entry accepted adjacent
    obtain ⟨⟨top, prev, atMost⟩, afterOlder⟩ := inv.previous entry accepted adjacent
    exact ⟨⟨_, rfl, le_trans atMost (allLeMax top prev)⟩, afterOlder⟩
  case oldest =>
    refine forall_mem_cons.mpr ⟨?_, inv.oldest⟩
    intro (impossible : log.state.rx - 1 + 2 ≤ log.state.rx)
    omega
  case monotone =>
    refine monotone_cons inv.monotone ?_ ?_
    · intro entry accepted (earlier : entry.2 < log.state.rx - 1)
      obtain ⟨high, isOlder, atMost⟩ := inv.oldest entry accepted (by omega)
      exact lt_of_le_of_lt atMost (aboveOlder high isOlder)
    · intro entry accepted (later : log.state.rx - 1 < entry.2)
      have notAbove := inv.notAbove entry accepted
      obtain ⟨_, _, isMin', -, atLeast, -⟩ := inv.current entry accepted (by omega)
      rw [isMin] at isMin'
      cases isMin'
      exact Nat.lt_of_lt_of_le below atLeast

theorem receiveNext (inv : Ordered log)
    (above : ∀ high, log.state.rxMax = some high → high < pn) :
    Ordered
      { state :=
          { log.state with
            rx := log.state.rx + 1
            previousMax := log.state.rxMax
            rxMin := some pn
            rxMax := some pn
            updateAckPending := true }
        accepted := (pn, log.state.rx + 1) :: log.accepted
        older := log.state.previousMax } := by
  constructor
  case frontiers =>
    refine ⟨?_, ?_, ?_⟩
    · intro top prev
      obtain ⟨low, isMin, less⟩ := inv.frontiers.previous top prev
      obtain ⟨high, isMax, atMost⟩ := inv.frontiers.current low isMin
      exact ⟨high, isMax, lt_of_lt_of_le less atMost⟩
    · intro high isMax
      exact ⟨pn, rfl, above high isMax⟩
    · rintro low ⟨⟩
      exact ⟨pn, rfl, le_refl pn⟩
  case notAbove =>
    refine forall_mem_cons.mpr ⟨le_rfl, ?_⟩
    intro entry accepted
    exact Nat.le_succ_of_le (inv.notAbove entry accepted)
  case current =>
    refine forall_mem_cons.mpr
      ⟨fun _ => ⟨pn, pn, rfl, rfl, le_refl pn, Nat.le_refl pn⟩, ?_⟩
    intro entry accepted (latest : entry.2 = log.state.rx + 1)
    have notAbove := inv.notAbove entry accepted
    omega
  case previous =>
    refine forall_mem_cons.mpr ⟨?_, ?_⟩
    · intro impossible
      exact absurd impossible (Nat.succ_ne_self _)
    · intro entry accepted adjacent
      obtain ⟨_, high, isMin, isMax, atLeast, atMost⟩ :=
        inv.current entry accepted (Nat.succ.inj adjacent)
      refine ⟨⟨high, isMax, atMost⟩, ?_⟩
      intro top prev
      obtain ⟨_, isMin', less⟩ := inv.frontiers.previous top prev
      rw [isMin] at isMin'
      cases isMin'
      exact Nat.lt_of_lt_of_le less atLeast
  case oldest =>
    refine forall_mem_cons.mpr ⟨?_, ?_⟩
    · intro (impossible : log.state.rx + 1 + 2 ≤ log.state.rx + 1)
      omega
    · intro entry accepted (early : entry.2 + 2 ≤ log.state.rx + 1)
      exact inv.earlier_le accepted (by omega)
  case monotone =>
    refine monotone_cons inv.monotone ?_ ?_
    · intro entry accepted _
      obtain ⟨high, isMax, atMost⟩ := inv.all_le accepted
      exact Nat.lt_of_le_of_lt atMost (above high isMax)
    · intro entry accepted (later : log.state.rx + 1 < entry.2)
      have notAbove := inv.notAbove entry accepted
      omega

theorem all_lt_iff : known.all (· < pn) = true ↔ ∀ high, known = some high → high < pn := by
  cases known with
  | none => exact ⟨fun _ => nofun, fun _ => rfl⟩
  | some => simp

/-- Every packet that the frontiers admit keeps the order, except a late one
below the generations before the previous key. -/
theorem receive {gen : ReadGeneration} (inv : Ordered log)
    (aboveOlder : log.AboveOlder gen pn)
    (committed : log.state.commitReceive gen pn true true = (next, true)) :
    Ordered (log.accept next gen pn) := by
  by_cases valid : log.state.validReceive gen pn = true
  · simp only [KeyPhaseState.commitReceive, valid, Bool.not_true,
      Bool.or_self, Bool.false_eq_true, if_false] at committed
    cases gen with
    | previous =>
      cases committed
      simp only [KeyPhaseState.validReceive, Bool.and_eq_true,
        decide_eq_true_eq, Option.any_eq_true] at valid
      obtain ⟨updated, _, isMin, below⟩ := valid
      exact inv.receivePrevious updated isMin below (all_lt_iff.mp (aboveOlder rfl))
    | current =>
      cases committed
      exact inv.receiveCurrent (all_lt_iff.mp valid)
    | next =>
      cases committed
      simp only [KeyPhaseState.validReceive, Bool.and_eq_true] at valid
      exact inv.receiveNext (all_lt_iff.mp valid.2)
    | unavailable => cases valid
  · simp only [KeyPhaseState.commitReceive, valid, Bool.not_false,
      Bool.or_true, if_true] at committed
    cases committed

/-! ## Runs -/

theorem run (reached : Run AboveOlder log) : Ordered log := by
  induction reached with
  | start => exact start
  | upkeep _ kept inv => exact inv.upkeep kept
  | receive _ _ _ aboveOlder committed inv => exact inv.receive aboveOlder committed

end Ordered

/-- In a run whose late packets all lie above the generations before the
previous key, a later generation has only higher packet numbers. -/
theorem generation_lt_imp_pn_lt {log : ReadLog}
    (reached : Run AboveOlder log) {first second : Nat × Nat}
    (firstIn : first ∈ log.accepted) (secondIn : second ∈ log.accepted)
    (earlier : first.2 < second.2) : first.1 < second.1 :=
  (Ordered.run reached).monotone first firstIn second secondIn earlier

/-- A run with two updates and a late packet above the oldest generation. -/
theorem generation_lt_imp_pn_lt_late :
    ∃ log, Run AboveOlder log ∧ (10, 0) ∈ log.accepted ∧ (15, 1) ∈ log.accepted ∧ 10 < 15 := by
  have oldest : Run AboveOlder _ := .receive false 10 .start (by decide) rfl
  have updated : Run AboveOlder _ := .upkeep (.receive true 20 oldest (by decide) rfl) (.sendAck _)
  have updatedTwice : Run AboveOlder _ := .receive false 30 updated (by decide) rfl
  have late : Run AboveOlder _ := .receive true 15 updatedTwice (by decide) rfl
  exact ⟨_, late, by decide, by decide, generation_lt_imp_pn_lt late (show (10, 0) ∈ _ by decide)
      (show (15, 1) ∈ _ by decide) (by decide)⟩

/-- The state forgets where the generations before the previous key ended.
After two updates it admits packet 5 under generation 1, though packet 10 was
read under generation 0. -/
theorem late_packet_breaks_order :
    ∃ log, Run (fun _ _ _ => True) log ∧ (10, 0) ∈ log.accepted ∧ (5, 1) ∈ log.accepted := by
  have oldest : Run (fun _ _ _ => True) _ := .receive false 10 .start trivial rfl
  have updated : Run (fun _ _ _ => True) _ :=
    .upkeep (.receive true 20 oldest trivial rfl) (.sendAck _)
  have updatedTwice : Run (fun _ _ _ => True) _ := .receive false 30 updated trivial rfl
  have late : Run (fun _ _ _ => True) _ := .receive true 5 updatedTwice trivial rfl
  exact ⟨_, late, by decide, by decide⟩

end ReadLog
end ParallaX.Quic
