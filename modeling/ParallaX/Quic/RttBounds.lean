import ParallaX.Quic.Loss

/-!
# Bounds of the RTT estimator

An operation on a `Duration` panics when its result does not fit. Here it
returns `none`, and runs of the estimator return nothing after that.
-/

namespace ParallaX.Quic

open Option

/-! ## Checked durations -/

/-- One more than the nanoseconds of the longest `Duration`. -/
def DURATION_LIMIT : Nat := fromSecs (2 ^ 64)

def fitDuration (nanos : Nat) : Option Nat :=
  if nanos < DURATION_LIMIT then some nanos else none

def subDuration (left right : Nat) : Option Nat :=
  if right ≤ left then some (left - right) else none

def Connection.decodedAckDelayCast (raw exponent : Nat) : Nat :=
  let micros := raw <<< exponent
  fromSecs (micros / 1000000 % 2 ^ 64) + micros % 1000000 * 1000 % 2 ^ 32

namespace RttEstimator

/-- The sample without the delay, unless that falls below the least one. -/
def adjustChecked (least ackDelay rttSample : Nat) : Option Nat := do
  let floor ← fitDuration (least + ackDelay)
  if floor ≤ rttSample then subDuration rttSample ackDelay
  else some rttSample

def distanceChecked (smoothed adjusted : Nat) : Option Nat :=
  if adjusted < smoothed then subDuration smoothed adjusted
  else subDuration adjusted smoothed

/-- `update` with the checks of its arithmetic. Divisions round down to
nanoseconds and always fit. -/
def updateChecked (rtt : RttEstimator) (ackDelay rttSample : Nat) : Option RttEstimator :=
  match rtt.smoothed with
  | none => some (rtt.update ackDelay rttSample)
  | some smoothed => do
    let least := Nat.min rtt.min rttSample
    let adjusted ← adjustChecked least ackDelay rttSample
    let varSample ← distanceChecked smoothed adjusted
    let tripled ← fitDuration (rtt.rttvar * 3)
    let varSum ← fitDuration (tripled + varSample)
    let sevenfold ← fitDuration (smoothed * 7)
    let sum ← fitDuration (sevenfold + adjusted)
    some
      { latest := rttSample
        smoothed := some (sum / 8)
        rttvar := varSum / 4
        min := least }

def ptoBaseChecked (rtt : RttEstimator) : Option Nat := do
  let spread ← fitDuration (rtt.rttvar * 4)
  fitDuration (rtt.smoothedRtt + max spread TIMER_GRANULARITY)

def lossDelayChecked (rtt : RttEstimator) : Option Nat := do
  let scaled ← fitDuration (max rtt.smoothedRtt rtt.latest * 9)
  some (max (scaled / 8) TIMER_GRANULARITY)

def updateAll (rtt : RttEstimator) (updates : List (Nat × Nat)) : Option RttEstimator :=
  updates.foldlM (fun rtt call => rtt.updateChecked call.1 call.2) rtt

end RttEstimator

/-! ## One update -/

variable {rtt next : RttEstimator}
  {ackDelay sample low high : Nat}

theorem fitDuration_eq_some {nanos fitted : Nat} :
    fitDuration nanos = some fitted ↔ nanos < DURATION_LIMIT ∧ nanos = fitted := by
  simp [fitDuration]

theorem adjustChecked_eq (least ackDelay sample : Nat) :
    RttEstimator.adjustChecked least ackDelay sample =
      (fitDuration (least + ackDelay)).map fun floor =>
        if floor ≤ sample then sample - ackDelay else sample := by
  unfold RttEstimator.adjustChecked fitDuration
  split
  · by_cases early : least + ackDelay ≤ sample
    · simp [early, subDuration, Nat.le_of_add_left_le early]
    · simp [early]
  · rfl

theorem distanceChecked_eq (smoothed adjusted : Nat) :
    RttEstimator.distanceChecked smoothed adjusted =
      some (if adjusted < smoothed then smoothed - adjusted
        else adjusted - smoothed) := by
  unfold RttEstimator.distanceChecked subDuration
  split_ifs <;> first | rfl | omega

theorem update_of_checked (checked : rtt.updateChecked ackDelay sample = some next) :
    rtt.update ackDelay sample = next := by
  unfold RttEstimator.updateChecked at checked
  split at checked
  · exact Option.some.inj checked
  next smoothed isSmoothed =>
    simp only [adjustChecked_eq, distanceChecked_eq, bind_eq_bind,
      bind_eq_some_iff, map_eq_some_iff, fitDuration_eq_some,
      Option.some.injEq] at checked
    obtain ⟨_, ⟨_, ⟨-, rfl⟩, rfl⟩, _, rfl, _, ⟨-, rfl⟩, _, ⟨-, rfl⟩, _,
      ⟨-, rfl⟩, _, ⟨-, rfl⟩, rfl⟩ := checked
    simp [RttEstimator.update, isSmoothed]

/-- The estimates lie between the least and the greatest sample. -/
structure SampleBounds (rtt : RttEstimator) (low high : Nat) : Prop where
  least : rtt.min = low
  smoothed : ∃ smoothed, rtt.smoothed = some smoothed ∧ low ≤ smoothed ∧ smoothed ≤ high
  rttvar : rtt.rttvar ≤ high
  latest : rtt.latest ≤ high

theorem sampleBounds_first : SampleBounds (RttEstimator.new.update ackDelay sample) sample sample :=
  ⟨rfl, ⟨sample, rfl, le_rfl, le_rfl⟩, Nat.div_le_self _ _, le_rfl⟩

theorem SampleBounds.update (bounds : SampleBounds rtt low high) (ackDelay sample : Nat) :
    SampleBounds (rtt.update ackDelay sample) (min low sample) (max high sample) := by
  obtain ⟨rfl, ⟨_, isSmoothed, _, _⟩, _, _⟩ := bounds
  have least : Nat.min rtt.min sample = min rtt.min sample := rfl
  simp only [RttEstimator.update, isSmoothed, least]
  refine ⟨rfl, ⟨_, rfl, ?_, ?_⟩, ?_, le_max_right _ _⟩
  · split_ifs <;> omega
  · split_ifs <;> omega
  · dsimp only
    split_ifs <;> omega

/-- A delay that `ack_delay_for_recovery` returns for a delay and an exponent
that the wire allows. -/
def ReportedDelay (delay : Nat) : Prop :=
  ∃ raw exponent space confirmed peerMax, raw < 2 ^ 62 ∧ exponent ≤ 20 ∧
    delay = Connection.ackDelayForRecovery raw exponent space confirmed peerMax

theorem decodedAckDelay_lt {raw exponent : Nat} (rawLt : raw < 2 ^ 62) (small : exponent ≤ 20) :
    Connection.decodedAckDelay raw exponent < fromSecs (2 ^ 63) ∧
      Connection.decodedAckDelayCast raw exponent = Connection.decodedAckDelay raw exponent := by
  have scaled :=
    Nat.mul_lt_mul_of_lt_of_le rawLt (Nat.pow_le_pow_right (by decide) small) (Nat.two_pow_pos _)
  simp only [Connection.decodedAckDelayCast, Connection.decodedAckDelay, Nat.shiftLeft_eq, fromSecs]
  generalize raw * 2 ^ exponent = micros at scaled ⊢
  have seconds : micros / 1000000 < 2 ^ 64 := by omega
  have nanos : micros % 1000000 * 1000 < 2 ^ 32 := by omega
  rw [Nat.mod_eq_of_lt seconds, Nat.mod_eq_of_lt nanos]
  omega

theorem ReportedDelay.lt (reported : ReportedDelay ackDelay) : ackDelay < fromSecs (2 ^ 63) := by
  obtain ⟨_, _, _, _, _, rawLt, small, rfl⟩ := reported
  have decoded := (decodedAckDelay_lt rawLt small).1
  unfold Connection.ackDelayForRecovery
  split_ifs
  · decide
  · exact Nat.lt_of_le_of_lt (Nat.min_le_left _ _) decoded
  · exact decoded

theorem fitDuration_of_lt {nanos : Nat}
    (small : nanos < 2 ^ 64 * 1000000000) : fitDuration nanos = some nanos :=
  if_pos small

theorem SampleBounds.checked (bounds : SampleBounds rtt low high) (short : high < fromSecs (2 ^ 56))
    (shortSample : sample < fromSecs (2 ^ 56)) (reported : ReportedDelay ackDelay) :
    rtt.updateChecked ackDelay sample = some (rtt.update ackDelay sample) := by
  obtain ⟨rfl, ⟨smoothed, isSmoothed, _, _⟩, _, _⟩ := bounds
  have delay := reported.lt
  have least : Nat.min rtt.min sample ≤ sample := Nat.min_le_right _ _
  simp only [fromSecs] at short shortSample delay
  have floor : fitDuration (Nat.min rtt.min sample + ackDelay) = _ := fitDuration_of_lt (by omega)
  obtain ⟨adjusted, _, adjusts⟩ : ∃ adjusted ≤ sample,
      RttEstimator.adjustChecked (Nat.min rtt.min sample) ackDelay
        sample = some adjusted := by
    rw [adjustChecked_eq, floor]
    refine ⟨_, ?_, rfl⟩
    dsimp only
    split_ifs <;> omega
  obtain ⟨distance, _, measures⟩ : ∃ distance ≤ smoothed + sample,
      RttEstimator.distanceChecked smoothed adjusted = some distance := by
    rw [distanceChecked_eq]
    refine ⟨_, ?_, rfl⟩
    split_ifs <;> omega
  obtain ⟨next, checked⟩ : ∃ next, rtt.updateChecked ackDelay sample = some next := by
    simp only [RttEstimator.updateChecked, isSmoothed, adjusts, measures, bind_eq_bind, bind_some]
    rw [fitDuration_of_lt (by omega), bind_some, fitDuration_of_lt (by omega), bind_some,
      fitDuration_of_lt (by omega), bind_some,
      fitDuration_of_lt (by omega), bind_some]
    exact ⟨_, rfl⟩
  rw [checked, update_of_checked checked]

/-- Neither does a timer that is derived from the estimates. -/
theorem SampleBounds.timers (bounds : SampleBounds rtt low high)
    (short : high < fromSecs (2 ^ 56)) :
    rtt.ptoBaseChecked = some rtt.ptoBase ∧ rtt.lossDelayChecked = some rtt.lossDelay := by
  obtain ⟨-, ⟨_, isSmoothed, -, _⟩, _, _⟩ := bounds
  simp only [fromSecs] at short
  have granularity : TIMER_GRANULARITY = 1000000 := rfl
  simp only [RttEstimator.ptoBaseChecked, RttEstimator.lossDelayChecked,
    RttEstimator.ptoBase, RttEstimator.lossDelay, RttEstimator.smoothedRtt,
    isSmoothed, getD_some, bind_eq_bind]
  rw [fitDuration_of_lt (by omega), bind_some,
    fitDuration_of_lt (by omega), fitDuration_of_lt (by omega),
    bind_some]
  exact ⟨rfl, rfl⟩

/-! ## All updates -/

theorem SampleBounds.updateAll {updates : List (Nat × Nat)} (bounds : SampleBounds rtt low high)
    (updated : rtt.updateAll updates = some next) :
    SampleBounds next ((updates.map (·.2)).foldl min low) ((updates.map (·.2)).foldl max high) ∧
      next = updates.foldl (fun rtt call => rtt.update call.1 call.2) rtt := by
  induction updates generalizing rtt low high with
  | nil =>
    cases updated
    exact ⟨bounds, rfl⟩
  | cons call updates ih =>
    obtain ⟨_, checked, rest⟩ := bind_eq_some_iff.mp updated
    obtain rfl := update_of_checked checked
    exact ih (bounds.update call.1 call.2) rest

theorem SampleBounds.updateAll_some {updates : List (Nat × Nat)}
    (bounds : SampleBounds rtt low high) (short : high < fromSecs (2 ^ 56))
    (reported : ∀ call ∈ updates, ReportedDelay call.1)
    (shortSamples : ∀ call ∈ updates, call.2 < fromSecs (2 ^ 56)) :
    ∃ next, rtt.updateAll updates = some next ∧ next.ptoBaseChecked = some next.ptoBase ∧
      next.lossDelayChecked = some next.lossDelay := by
  induction updates generalizing rtt low high with
  | nil => exact ⟨rtt, rfl, bounds.timers short⟩
  | cons call updates ih =>
    rw [List.forall_mem_cons] at reported shortSamples
    obtain ⟨next, rest, timers⟩ := ih (bounds.update call.1 call.2)
      (Nat.max_lt.mpr ⟨short, shortSamples.1⟩) reported.2 shortSamples.2
    refine ⟨next, ?_, timers⟩
    rw [RttEstimator.updateAll, List.foldlM_cons, bounds.checked short shortSamples.1 reported.1]
    exact rest

/-- Whatever is sampled, the estimates lie between the least and the greatest
sample; and no arithmetic overflows for samples below `2 ^ 56` seconds. -/
theorem rtt_updates_bounded {updates : List (Nat × Nat)} (sampled : updates ≠ [])
    (reported : ∀ call ∈ updates, ReportedDelay call.1) :
    ((∀ call ∈ updates, call.2 < fromSecs (2 ^ 56)) →
      ∃ rtt, RttEstimator.new.updateAll updates = some rtt ∧
        rtt.ptoBaseChecked = some rtt.ptoBase ∧
        rtt.lossDelayChecked = some rtt.lossDelay) ∧
    (∀ raw exponent, raw < 2 ^ 62 → exponent ≤ 20 →
      Connection.decodedAckDelayCast raw exponent = Connection.decodedAckDelay raw exponent) ∧
    ∀ rtt, RttEstimator.new.updateAll updates = some rtt →
      rtt = updates.foldl (fun rtt call => rtt.update call.1 call.2) .new ∧
      (updates.map (·.2)).min? = some rtt.min ∧
      ∃ smoothed greatest, rtt.smoothed = some smoothed ∧
        (updates.map (·.2)).max? = some greatest ∧
        rtt.min ≤ smoothed ∧ smoothed ≤ greatest ∧ rtt.rttvar ≤ greatest := by
  obtain ⟨_, _, rfl⟩ := List.exists_cons_of_ne_nil sampled
  refine ⟨?_, fun _ _ rawLt small => (decodedAckDelay_lt rawLt small).2, ?_⟩
  · intro short
    rw [List.forall_mem_cons] at reported short
    exact sampleBounds_first.updateAll_some short.1 reported.2 short.2
  · intro _ updated
    obtain ⟨bounds, same⟩ := sampleBounds_first.updateAll updated
    obtain ⟨least, ⟨smoothed, isSmoothed, above, below⟩, rttvar, -⟩ := bounds
    refine ⟨same, ?_, smoothed, _, isSmoothed, rfl, ?_, below, rttvar⟩
    · rw [least]
      rfl
    · rw [least]
      exact above

/-- Two samples, the second with a delay. -/
theorem rtt_updates_bounded_two :
    ∃ rtt, RttEstimator.new.updateAll [(0, 100000), (8000, 120000)] = some rtt ∧
      rtt.min = 100000 ∧ rtt.smoothed = some 101500 := by
  have reported : ∀ call ∈ [(0, 100000), (8000, 120000)], ReportedDelay call.1 := by
    intro call _
    refine ⟨call.1 / 8000, 3, .data, false, 0, ?_⟩
    revert call
    decide
  obtain ⟨rtt, updated, -⟩ := (rtt_updates_bounded (by simp) reported).1 (by decide)
  obtain ⟨same, -⟩ := (rtt_updates_bounded (by simp) reported).2.2 rtt updated
  exact ⟨rtt, updated, by rw [same]; decide, by rw [same]; decide⟩

end ParallaX.Quic
