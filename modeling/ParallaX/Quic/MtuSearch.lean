import Mathlib.Data.List.Basic
import ParallaX.Quic.Pmtud

/-!
# Runs of the path MTU search

Any sequence of calls on the search, watched since the last black-hole reset:
which sizes were acknowledged and lost, and how many probes were issued. The
search has given up a size when its ceiling is below it.
-/

namespace ParallaX.Quic.Pmtud

open List Option

inductive Call where
  | nextProbeSize
  | onProbeAcked
  | onProbeLost
  | onFullSizeLoss
  | onFullSizeAcked
deriving DecidableEq, Repr

/-- The search with what happened since its last reset, which only proofs
read. -/
structure Watched where
  pmtud : Pmtud
  acked : List Nat
  lost : List Nat
  issued : Nat
deriving DecidableEq, Repr

namespace Watched

def new : Watched := ⟨Pmtud.new, [], [], 0⟩

def call (watched : Watched) : Call → Watched
  | .nextProbeSize =>
    { watched with
      pmtud := watched.pmtud.nextProbeSize.1
      issued := watched.issued + watched.pmtud.nextProbeSize.2.toList.length }
  | .onProbeAcked =>
    { watched with
      pmtud := watched.pmtud.onProbeAcked
      acked := watched.pmtud.probeSize.toList ++ watched.acked }
  | .onProbeLost =>
    { watched with
      pmtud := watched.pmtud.onProbeLost
      lost := watched.pmtud.probeSize.toList ++ watched.lost }
  | .onFullSizeLoss =>
    if watched.pmtud.onFullSizeLoss.2 then { new with pmtud := watched.pmtud.onFullSizeLoss.1 }
    else { watched with pmtud := watched.pmtud.onFullSizeLoss.1 }
  | .onFullSizeAcked => { watched with pmtud := watched.pmtud.onFullSizeAcked }

def run (calls : List Call) : Watched := calls.foldl call new

def settled (watched : Watched) : Nat := watched.acked.length + watched.lost.length

/-- A probe is requested, and the one outstanding then is delivered or not. -/
def settle (watched : Watched) (delivered : Bool) : Watched :=
  (watched.call .nextProbeSize).call (if delivered then .onProbeAcked else .onProbeLost)

end Watched

/-! ## The window -/

/-- The probes that a window of this width can still need: every size takes at
most `MAX_PROBES` of them and halves the window. -/
def probesLeft (window : Nat) : Nat :=
  if window < SEARCH_STEP then 0
  else if window < 2 * SEARCH_STEP then MAX_PROBES
  else if window < 4 * SEARCH_STEP then 2 * MAX_PROBES
  else if window < 8 * SEARCH_STEP then 3 * MAX_PROBES
  else 4 * MAX_PROBES

theorem probesLeft_half {window half : Nat} (wide : SEARCH_STEP ≤ window)
    (narrow : window < 16 * SEARCH_STEP) (halved : half ≤ window / 2) :
    probesLeft half + MAX_PROBES ≤ probesLeft window := by
  rw [SEARCH_STEP] at wide narrow
  simp only [probesLeft, SEARCH_STEP, MAX_PROBES]
  grind

theorem probesLeft_le (window : Nat) : probesLeft window ≤ 4 * MAX_PROBES := by
  simp only [probesLeft, MAX_PROBES]
  grind

theorem le_probesLeft {window : Nat} (wide : SEARCH_STEP ≤ window) :
    MAX_PROBES ≤ probesLeft window := by
  rw [SEARCH_STEP] at wide
  simp only [probesLeft, SEARCH_STEP, MAX_PROBES]
  grind

structure Searches (pmtud : Pmtud) : Prop where
  base_le : BASE_MTU ≤ pmtud.low
  current_eq : pmtud.current = pmtud.low
  low_le : pmtud.low ≤ pmtud.high
  high_le : pmtud.high ≤ MAX_MTU
  complete_iff : pmtud.state = .complete ↔ pmtud.high - pmtud.low < SEARCH_STEP
  outstanding :
    ∀ size, pmtud.probeSize = some size → size = pmtud.midpoint ∧ pmtud.state = .searching
  retries : pmtud.probesAtSize < MAX_PROBES
  noRetries : pmtud.state ≠ .searching → pmtud.probesAtSize = 0

namespace Searches

variable {pmtud : Pmtud}

variable (inv : pmtud.Searches)
include inv

theorem wide (unfinished : pmtud.state ≠ .complete) : SEARCH_STEP ≤ pmtud.high - pmtud.low :=
  Nat.not_lt.mp (mt inv.complete_iff.mpr unfinished)

theorem midpoint_bounds (unfinished : pmtud.state ≠ .complete) :
    pmtud.low < pmtud.midpoint ∧ pmtud.midpoint ≤ pmtud.high ∧
      pmtud.high - pmtud.midpoint ≤ (pmtud.high - pmtud.low) / 2 ∧
      pmtud.midpoint - 1 - pmtud.low ≤ (pmtud.high - pmtud.low) / 2 := by
  have wide := inv.wide unfinished
  simp only [midpoint, SEARCH_STEP] at *
  omega

theorem narrow : pmtud.high - pmtud.low < 16 * SEARCH_STEP := by
  have base := inv.base_le
  have ceiling := inv.high_le
  simp only [BASE_MTU, MAX_MTU, SEARCH_STEP] at *
  omega

/-! ## What a call does -/

/-- No probe is due, or one of the middle of the window is issued. -/
theorem nextProbeSize_cases :
    (pmtud.nextProbeSize = (pmtud, none) ∧ (pmtud.probeSize.isSome ∨ pmtud.state = .complete)) ∨
      (pmtud.probeSize = none ∧ pmtud.state ≠ .complete ∧
        pmtud.nextProbeSize =
          ({ pmtud with state := .searching, probeSize := some pmtud.midpoint },
            some pmtud.midpoint)) := by
  cases outstanding : pmtud.probeSize with
  | some =>
    refine .inl ⟨?_, .inl rfl⟩
    rw [nextProbeSize, outstanding]
    rfl
  | none =>
    have idle : ¬pmtud.probeSize.isSome = true := by simp [outstanding]
    cases state : pmtud.state with
    | complete =>
      refine .inl ⟨?_, .inr rfl⟩
      simp only [nextProbeSize, if_neg idle, state]
    | base =>
      have unfinished : pmtud.state ≠ .complete := by simp [state]
      have fresh := inv.noRetries (by simp [state])
      have goesOn := Nat.not_lt.mpr (inv.wide unfinished)
      refine .inr ⟨rfl, by simp, ?_⟩
      simp only [nextProbeSize, if_neg idle, state, if_neg goesOn]
      rw [← fresh]
    | searching =>
      have unfinished : pmtud.state ≠ .complete := by simp [state]
      have goesOn := Nat.not_lt.mpr (inv.wide unfinished)
      refine .inr ⟨rfl, by simp, ?_⟩
      simp [nextProbeSize, if_neg idle, state, if_neg goesOn]

theorem onProbeAcked_some (outstanding : pmtud.probeSize.isSome) :
    pmtud.probeSize = some pmtud.midpoint ∧ pmtud.state = .searching ∧
      pmtud.onProbeAcked =
        { pmtud with
          state := searchState pmtud.midpoint pmtud.high
          current := pmtud.midpoint
          low := pmtud.midpoint
          probeSize := none
          probesAtSize := 0
          blackholeLosses := 0 } := by
  obtain ⟨size, found⟩ := isSome_iff_exists.mp outstanding
  obtain ⟨rfl, searching⟩ := inv.outstanding size found
  have bounds := inv.midpoint_bounds (by simp [searching])
  have raised : max pmtud.low pmtud.midpoint = pmtud.midpoint := by omega
  have grown : pmtud.current < pmtud.midpoint := by
    rw [inv.current_eq]
    exact bounds.1
  refine ⟨found, searching, ?_⟩
  simp [onProbeAcked, found, raised, if_pos grown]

theorem onProbeLost_some (outstanding : pmtud.probeSize.isSome) :
    pmtud.probeSize = some pmtud.midpoint ∧ pmtud.state = .searching ∧
      ((pmtud.probesAtSize + 1 < MAX_PROBES ∧
        pmtud.onProbeLost =
          { pmtud with probeSize := none, probesAtSize := pmtud.probesAtSize + 1 }) ∨
      (pmtud.probesAtSize + 1 = MAX_PROBES ∧
        pmtud.onProbeLost =
          { pmtud with
            state := searchState pmtud.low (pmtud.midpoint - 1)
            high := pmtud.midpoint - 1
            probeSize := none
            probesAtSize := 0 })) := by
  obtain ⟨size, found⟩ := isSome_iff_exists.mp outstanding
  obtain ⟨rfl, searching⟩ := inv.outstanding size found
  have bounds := inv.midpoint_bounds (by simp [searching])
  refine ⟨found, searching, ?_⟩
  by_cases again : pmtud.probesAtSize + 1 < MAX_PROBES
  · refine .inl ⟨again, ?_⟩
    simp [onProbeLost, found, if_pos again]
  · have lowered : max (pmtud.midpoint - 1) pmtud.low = pmtud.midpoint - 1 := by omega
    have retries := inv.retries
    refine .inr ⟨by omega, ?_⟩
    simp [onProbeLost, found, if_neg again, lowered]

/-- A delivered probe raises the floor; a lost one is sent again or given up. -/
theorem outcomes {size : Nat} (found : pmtud.probeSize = some size) :
    (pmtud.onProbeAcked.current = size ∧ pmtud.onProbeAcked.high = pmtud.high) ∧
      (pmtud.onProbeLost.current = pmtud.current ∧
        (pmtud.onProbeLost.nextProbeSize.2 = some size ∨ pmtud.onProbeLost.high + 1 = size)) := by
  have outstanding : pmtud.probeSize.isSome := by simp [found]
  obtain ⟨rfl, searching⟩ := inv.outstanding size found
  have unfinished : pmtud.state ≠ .complete := by simp [searching]
  obtain ⟨_, _, acked⟩ := inv.onProbeAcked_some outstanding
  refine ⟨by rw [acked]; exact ⟨rfl, rfl⟩, ?_⟩
  obtain ⟨_, _, ⟨_, kept⟩ | ⟨_, lowered⟩⟩ := inv.onProbeLost_some outstanding
  · have goesOn := Nat.not_lt.mpr (inv.wide unfinished)
    refine ⟨by rw [kept], .inl ?_⟩
    rw [kept]
    simp [nextProbeSize, searching, goesOn, midpoint]
  · have bounds := inv.midpoint_bounds unfinished
    rw [lowered]
    exact ⟨rfl, .inr (by simp only; omega)⟩

end Searches

theorem onFullSizeLoss_cases (pmtud : Pmtud) :
    (pmtud.onFullSizeLoss.2 = true ∧ pmtud.onFullSizeLoss.1 = new) ∨
      (pmtud.onFullSizeLoss.2 = false ∧ ∃ losses,
        pmtud.onFullSizeLoss.1 = { pmtud with blackholeLosses := losses }) := by
  rw [onFullSizeLoss]
  split
  · exact .inr ⟨rfl, pmtud.blackholeLosses, rfl⟩
  · split
    · exact .inl ⟨rfl, rfl⟩
    · exact .inr ⟨rfl, _, rfl⟩

/-! ## What is watched -/

theorem searchState_eq_complete (low high : Nat) :
    searchState low high = .complete ↔ high - low < SEARCH_STEP := by
  rw [searchState]
  split <;> simp [*]

theorem searches_new : Searches new := by
  refine ⟨Nat.le_refl _, rfl, ?_, Nat.le_refl _, ?_, ?_, ?_, fun _ => rfl⟩
  · simp [new, BASE_MTU, MAX_MTU]
  · simp [new, BASE_MTU, MAX_MTU, SEARCH_STEP]
  · intro _ absent
    cases absent
  · simp [new, MAX_PROBES]

structure Watched.Sound (watched : Watched) : Prop where
  searches : watched.pmtud.Searches
  acked : watched.pmtud.current = BASE_MTU ∨ watched.pmtud.current ∈ watched.acked
  retried : watched.pmtud.probesAtSize ≤ watched.lost.count watched.pmtud.midpoint
  abandoned : watched.pmtud.high < MAX_MTU →
    MAX_PROBES ≤ watched.lost.count (watched.pmtud.high + 1)
  settled : watched.issued = watched.settled + watched.pmtud.probeSize.toList.length
  issued : watched.issued + probesLeft (watched.pmtud.high - watched.pmtud.low) ≤
    4 * MAX_PROBES + watched.pmtud.probesAtSize + watched.pmtud.probeSize.toList.length

namespace Watched

variable {watched : Watched}

theorem sound_new : new.Sound := by
  refine ⟨searches_new, .inl rfl, Nat.zero_le _, ?_, rfl, ?_⟩
  · intro lowered
    exact absurd lowered (Nat.lt_irrefl _)
  · have bound := probesLeft_le (new.pmtud.high - new.pmtud.low)
    simp only [new, Pmtud.new, toList_none, length_nil] at bound ⊢
    omega

section

variable (sound : watched.Sound)
include sound

theorem Sound.nextProbeSize : (watched.call .nextProbeSize).Sound := by
  have inv := sound.searches
  rcases inv.nextProbeSize_cases with ⟨same, _⟩ | ⟨idle, unfinished, probe⟩
  · simp only [call, same]
    exact ⟨inv, sound.acked, sound.retried, sound.abandoned, sound.settled, sound.issued⟩
  · simp only [call, probe]
    refine ⟨⟨inv.base_le, inv.current_eq, inv.low_le,
      inv.high_le, ?_, ?_, inv.retries, ?_⟩, sound.acked,
      sound.retried, sound.abandoned, ?_, ?_⟩
    · have wide := inv.wide unfinished
      simp only [reduceCtorEq, false_iff]
      omega
    · intro _ found
      exact ⟨(Option.some.inj found).symm, rfl⟩
    · intro elsewhere
      exact absurd rfl elsewhere
    · have settled := sound.settled
      rw [idle] at settled
      simp only [Watched.settled, toList_some, length_singleton, toList_none, length_nil]
        at settled ⊢
      omega
    · have issued := sound.issued
      rw [idle] at issued
      simp only [toList_some, length_singleton, toList_none, length_nil] at issued ⊢
      omega

theorem Sound.onProbeAcked : (watched.call .onProbeAcked).Sound := by
  have inv := sound.searches
  cases outstanding : watched.pmtud.probeSize.isSome with
  | false =>
    have idle := isSome_eq_false_iff.mp outstanding
    have none := isNone_iff_eq_none.mp idle
    have same : watched.call .onProbeAcked = watched := by simp [call, Pmtud.onProbeAcked, none]
    rwa [same]
  | true =>
    obtain ⟨found, searching, acked⟩ := inv.onProbeAcked_some outstanding
    have unfinished : watched.pmtud.state ≠ .complete := by simp [searching]
    have bounds := inv.midpoint_bounds unfinished
    have floor := inv.base_le
    have retries := inv.retries
    simp only [call, acked, found]
    refine ⟨⟨Nat.le_trans floor (Nat.le_of_lt bounds.1), rfl, bounds.2.1,
      inv.high_le, searchState_eq_complete _ _, ?_, ?_, fun _ => rfl⟩, .inr ?_,
      Nat.zero_le _, sound.abandoned, ?_, ?_⟩
    · intro _ absent
      cases absent
    · exact Nat.zero_lt_succ _
    · simp
    · have settled := sound.settled
      rw [found] at settled
      simp only [Watched.settled, toList_some, singleton_append, length_cons, length_nil,
        toList_none] at settled ⊢
      omega
    · have half := probesLeft_half (inv.wide unfinished) inv.narrow bounds.2.2.1
      have issued := sound.issued
      rw [found] at issued
      simp only [toList_some, length_singleton, toList_none, length_nil] at issued ⊢
      omega

theorem Sound.onProbeLost : (watched.call .onProbeLost).Sound := by
  have inv := sound.searches
  cases outstanding : watched.pmtud.probeSize.isSome with
  | false =>
    have idle := isSome_eq_false_iff.mp outstanding
    have none := isNone_iff_eq_none.mp idle
    have same : watched.call .onProbeLost = watched := by simp [call, Pmtud.onProbeLost, none]
    rwa [same]
  | true =>
    obtain ⟨found, searching, outcome⟩ := inv.onProbeLost_some outstanding
    have unfinished : watched.pmtud.state ≠ .complete := by simp [searching]
    have bounds := inv.midpoint_bounds unfinished
    have issued := sound.issued
    have settled := sound.settled
    rw [found] at issued settled
    have retried : watched.pmtud.probesAtSize + 1 ≤
        (watched.pmtud.midpoint :: watched.lost).count watched.pmtud.midpoint := by
      rw [count_cons_self]
      exact Nat.succ_le_succ sound.retried
    simp only [Watched.settled, toList_some, length_singleton] at issued settled
    rcases outcome with ⟨again, kept⟩ | ⟨spent, lowered⟩
    · simp only [call, kept, found, toList_some, singleton_append]
      refine ⟨⟨inv.base_le, inv.current_eq, inv.low_le,
        inv.high_le, inv.complete_iff, ?_, again, ?_⟩, sound.acked, retried, ?_, ?_, ?_⟩
      · intro size absent
        cases absent
      · intro elsewhere
        exact absurd searching elsewhere
      · intro below
        exact Nat.le_trans (sound.abandoned below) count_le_count_cons
      · simp only [Watched.settled, length_cons, toList_none, length_nil]
        omega
      · simp only [toList_none, length_nil]
        omega
    · have half := probesLeft_half (inv.wide unfinished) inv.narrow bounds.2.2.2
      have floor : watched.pmtud.low ≤ watched.pmtud.midpoint - 1 := by omega
      have justBelow : watched.pmtud.midpoint - 1 + 1 = watched.pmtud.midpoint := by omega
      have ceiling := inv.high_le
      simp only [call, lowered, found, toList_some, singleton_append]
      refine ⟨⟨inv.base_le, inv.current_eq, floor,
        Nat.le_trans (Nat.le_trans (Nat.sub_le _ _) bounds.2.1) ceiling,
        searchState_eq_complete _ _, ?_, ?_, fun _ => rfl⟩, sound.acked,
        Nat.zero_le _, ?_, ?_, ?_⟩
      · intro size absent
        cases absent
      · exact Nat.zero_lt_succ _
      · intro _
        simp only [justBelow]
        rw [← spent]
        exact retried
      · simp only [Watched.settled, length_cons, toList_none, length_nil]
        omega
      · simp only [toList_none, length_nil]
        omega

/-- The search does not read the counter of full-size losses. -/
theorem Sound.withLosses (losses : Nat) :
    Sound { watched with pmtud := { watched.pmtud with blackholeLosses := losses } } := by
  obtain ⟨⟨floor, current, ordered, ceiling, complete, outstanding, retries,
    noRetries⟩, acked, retried, abandoned, settled, issued⟩ := sound
  exact ⟨⟨floor, current, ordered, ceiling, complete, outstanding, retries,
    noRetries⟩, acked, retried, abandoned, settled, issued⟩

theorem Sound.onFullSizeLoss : (watched.call .onFullSizeLoss).Sound := by
  rcases watched.pmtud.onFullSizeLoss_cases with
    ⟨reset, fresh⟩ | ⟨kept, losses, counted⟩
  · simp only [call, reset, if_true, fresh]
    exact sound_new
  · simp only [call, kept, Bool.false_eq_true, if_false, counted]
    exact sound.withLosses losses

theorem Sound.onFullSizeAcked : (watched.call .onFullSizeAcked).Sound := sound.withLosses 0

theorem Sound.call (call : Call) : (watched.call call).Sound := by
  cases call with
  | nextProbeSize => exact sound.nextProbeSize
  | onProbeAcked => exact sound.onProbeAcked
  | onProbeLost => exact sound.onProbeLost
  | onFullSizeLoss => exact sound.onFullSizeLoss
  | onFullSizeAcked => exact sound.onFullSizeAcked

/-- A window that is still searched has enough probes left for the one that is
outstanding and those that were lost. -/
theorem Sound.issued_le : watched.issued ≤ 4 * MAX_PROBES := by
  have inv := sound.searches
  have issued := sound.issued
  have retries := inv.retries
  cases outstanding : watched.pmtud.probeSize with
  | some size =>
    obtain ⟨_, searching⟩ := inv.outstanding size outstanding
    have left := le_probesLeft (inv.wide (by simp [searching]))
    rw [outstanding] at issued
    simp only [toList_some, length_singleton] at issued
    omega
  | none =>
    rw [outstanding] at issued
    simp only [toList_none, length_nil] at issued
    by_cases searching : watched.pmtud.state = .searching
    · have left := le_probesLeft (inv.wide (by simp [searching]))
      omega
    · have fresh := inv.noRetries searching
      omega

theorem Sound.foldl (calls : List Call) : (calls.foldl Watched.call watched).Sound := by
  induction calls generalizing watched with
  | nil => exact sound
  | cons first _ ih => exact ih (sound.call first)

/-! ## Settled probes -/

theorem Sound.idle_of_complete (complete : watched.pmtud.state = .complete) :
    watched.pmtud.probeSize = none := by
  by_contra busy
  obtain ⟨size, found⟩ := ne_none_iff_exists'.mp busy
  have searching := (sound.searches.outstanding size found).2
  rw [complete] at searching
  cases searching

/-- Every size takes at most `MAX_PROBES` probes, and four sizes are enough. -/
theorem Sound.complete_of_settled (enough : 4 * MAX_PROBES ≤ watched.settled) :
    watched.pmtud.state = .complete := by
  by_contra unfinished
  have left := le_probesLeft (sound.searches.wide unfinished)
  have retries := sound.searches.retries
  have issued := sound.issued
  have settled := sound.settled
  omega

theorem Sound.settle (delivered : Bool) : (watched.settle delivered).Sound :=
  (sound.call .nextProbeSize).call _

/-- A search that is not complete has a probe outstanding after a request. -/
theorem Sound.busy_of_unfinished (unfinished : watched.pmtud.state ≠ .complete) :
    watched.pmtud.nextProbeSize.1.probeSize.isSome := by
  rcases sound.searches.nextProbeSize_cases with ⟨same, busy | done⟩ | ⟨_, _, probe⟩
  · rw [same]
    exact busy
  · exact absurd done unfinished
  · rw [probe]
    rfl

theorem Sound.settled_settle (unfinished : watched.pmtud.state ≠ .complete) (delivered : Bool) :
    (watched.settle delivered).settled = watched.settled + 1 := by
  obtain ⟨size, found⟩ := isSome_iff_exists.mp (sound.busy_of_unfinished unfinished)
  cases delivered with
  | true =>
    simp only [Watched.settle, Watched.call, if_true, Watched.settled, found, toList_some,
      singleton_append, length_cons]
    omega
  | false =>
    simp only [Watched.settle, Watched.call, Bool.false_eq_true, if_false, Watched.settled, found,
      toList_some, singleton_append, length_cons]
    omega

theorem Sound.complete_settle (complete : watched.pmtud.state = .complete) (delivered : Bool) :
    (watched.settle delivered).pmtud.state = .complete := by
  have idle := sound.idle_of_complete complete
  have same : watched.pmtud.nextProbeSize = (watched.pmtud, none) := by
    simp [Pmtud.nextProbeSize, idle, complete]
  cases delivered with
  | true => simp [Watched.settle, Watched.call, same, Pmtud.onProbeAcked, idle, complete]
  | false => simp [Watched.settle, Watched.call, same, Pmtud.onProbeLost, idle, complete]

-- Until it is complete, the search counts every outcome.
theorem Sound.foldl_settle (outcomes : List Bool) :
    (outcomes.foldl Watched.settle watched).pmtud.state = .complete ∨
      watched.settled + outcomes.length ≤ (outcomes.foldl Watched.settle watched).settled := by
  induction outcomes generalizing watched with
  | nil => exact .inr (Nat.le_refl _)
  | cons delivered later ih =>
    rw [foldl_cons, length_cons]
    by_cases complete : watched.pmtud.state = .complete
    · refine .inl (foldlRecOn later Watched.settle (motive := fun reached =>
        reached.Sound ∧ reached.pmtud.state = .complete)
        ⟨sound.settle delivered, sound.complete_settle complete delivered⟩ ?_).2
      intro reached kept outcome _
      exact ⟨kept.1.settle outcome, kept.1.complete_settle kept.2 outcome⟩
    · have counted := sound.settled_settle complete delivered
      rcases ih (sound.settle delivered) with done | more
      · exact .inl done
      · refine .inr (Nat.le_trans ?_ more)
        omega

theorem Sound.complete_foldl_settle (outcomes : List Bool)
    (enough : 4 * MAX_PROBES ≤ outcomes.length) :
    (outcomes.foldl Watched.settle watched).pmtud.state = .complete := by
  have kept : (outcomes.foldl Watched.settle watched).Sound :=
    foldlRecOn outcomes Watched.settle (motive := Sound) sound
      (fun _ reached outcome _ => reached.settle outcome)
  rcases sound.foldl_settle outcomes with done | counted
  · exact done
  · exact kept.complete_of_settled (by omega)

end

/-- In every state of the search, after any calls: the window is ordered and
within the limits, a probe that is issued lies above the floor and not above the
ceiling, the size in use is the base size or was acknowledged, and a ceiling
below the limit is just below a size that was lost `MAX_PROBES` times. A
delivered probe puts its size in use; a lost one is issued again or, at the last
retry, puts the ceiling just below its size. At most `4 * MAX_PROBES` probes
were issued since the last reset. The search is complete exactly when the window
is narrow; until then a request leaves a probe outstanding, and any
`4 * MAX_PROBES` outcomes complete the search. -/
theorem run_searches_window (calls : List Call) : let watched := run calls
    let pmtud := watched.pmtud
    (BASE_MTU ≤ pmtud.current ∧ pmtud.current = pmtud.low ∧
        pmtud.low ≤ pmtud.high ∧ pmtud.high ≤ MAX_MTU) ∧
      (∀ size, pmtud.nextProbeSize.2 = some size → pmtud.low < size ∧ size ≤ pmtud.high) ∧
      (pmtud.current = BASE_MTU ∨ pmtud.current ∈ watched.acked) ∧
      (pmtud.high < MAX_MTU → MAX_PROBES ≤ watched.lost.count (pmtud.high + 1)) ∧
      (∀ size, pmtud.probeSize = some size →
        (pmtud.onProbeAcked.current = size ∧ pmtud.onProbeAcked.high = pmtud.high) ∧
        (pmtud.onProbeLost.current = pmtud.current ∧
          (pmtud.onProbeLost.nextProbeSize.2 = some size ∨
            pmtud.onProbeLost.high + 1 = size))) ∧
      watched.issued ≤ 4 * MAX_PROBES ∧
      (pmtud.state = .complete ↔ pmtud.high - pmtud.low < SEARCH_STEP) ∧
      (pmtud.state ≠ .complete → pmtud.nextProbeSize.1.probeSize.isSome) ∧
      ∀ outcomes : List Bool, 4 * MAX_PROBES ≤ outcomes.length →
        (outcomes.foldl settle watched).pmtud.state = .complete := by
  intro watched pmtud
  have sound : watched.Sound := sound_new.foldl calls
  have searches : pmtud.Searches := sound.searches
  refine ⟨⟨?_, searches.current_eq, searches.low_le, searches.high_le⟩, ?_,
    sound.acked, sound.abandoned, ?_, sound.issued_le, searches.complete_iff,
    sound.busy_of_unfinished, sound.complete_foldl_settle⟩
  · rw [searches.current_eq]
    exact searches.base_le
  · intro _ due
    rcases searches.nextProbeSize_cases with ⟨same, _⟩ | ⟨_, unfinished, probe⟩
    · rw [same] at due
      cases due
    · rw [probe] at due
      cases due
      exact ⟨(searches.midpoint_bounds unfinished).1, (searches.midpoint_bounds unfinished).2.1⟩
  · intro size found
    exact searches.outcomes found

/-- One delivered probe, then one size that is lost until it is given up. -/
def lossyExample : List Call :=
  [.nextProbeSize, .onProbeAcked, .nextProbeSize, .onProbeLost, .nextProbeSize, .onProbeLost,
    .nextProbeSize, .onProbeLost, .nextProbeSize]

theorem run_searches_window_lossy : let watched := run lossyExample
    (watched.acked = [1352] ∧ watched.lost = [1402, 1402, 1402] ∧
      watched.pmtud.probeSize = some 1377) ∧
      (watched.pmtud.high < MAX_MTU ∧ MAX_PROBES ≤ watched.lost.count (watched.pmtud.high + 1)) ∧
      ∀ outcomes : List Bool, 4 * MAX_PROBES ≤ outcomes.length →
        (outcomes.foldl settle watched).pmtud.state = .complete := by
  obtain ⟨_, _, _, abandoned, _, _, _, _, completes⟩ := run_searches_window lossyExample
  exact ⟨by decide, ⟨by decide, abandoned (by decide)⟩, completes⟩

end Watched

end ParallaX.Quic.Pmtud
