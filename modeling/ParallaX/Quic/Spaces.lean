import Mathlib.Data.List.TakeWhile
import ParallaX.Data.Intervals
import ParallaX.Quic.FrameRoundTrip

/-!
# Packet-number spaces

The send-side packet-number allocator of one space, and the receive-side record
of packet numbers as a coalesced interval set. The record deduplicates
replayed packets and produces the ranges of the ACK frames.
-/

namespace ParallaX.Quic

open ParallaX.Data List

def MAX_PACKET_NUMBER : Nat := 2 ^ 62 - 1

def MAX_ACK_RANGES : Nat := 32

structure PacketNumberSpace where
  next : Nat
deriving DecidableEq, Repr

variable {pn : Nat}

namespace PacketNumberSpace

def new : PacketNumberSpace := ⟨0⟩

variable (space : PacketNumberSpace)

def canAllocate : Bool := space.next ≤ MAX_PACKET_NUMBER

/-- The next packet number and the advanced space. The source asserts
`canAllocate`, so a failed assertion is `none`. -/
def allocate : Option (Nat × PacketNumberSpace) :=
  if space.canAllocate then some (space.next, ⟨space.next + 1⟩) else none

/-- Reserve a number only while the key budget and the number space permit. -/
def allocateProtected (sealed limit : Nat) : Option (Nat × PacketNumberSpace) :=
  if limit ≤ sealed ∨ !space.canAllocate then none else space.allocate

theorem allocate_eq_some {space after : PacketNumberSpace} :
    space.allocate = some (pn, after) ↔
      pn = space.next ∧ pn ≤ MAX_PACKET_NUMBER ∧ after.next = pn + 1 := by
  obtain ⟨next⟩ := after
  unfold allocate canAllocate
  by_cases room : space.next ≤ MAX_PACKET_NUMBER
  · simp only [room, decide_true, if_true, Option.some.injEq, Prod.mk.injEq,
      PacketNumberSpace.mk.injEq]
    constructor
    · rintro ⟨rfl, rfl⟩
      exact ⟨rfl, room, rfl⟩
    · rintro ⟨rfl, _, rfl⟩
      exact ⟨rfl, rfl⟩
  · simp only [room, decide_false, Bool.false_eq_true, if_false, reduceCtorEq, false_iff]
    rintro ⟨rfl, bounded, _⟩
    exact room bounded

end PacketNumberSpace

/-! ## Receive side -/

/-- Received packet numbers: inclusive ranges, and the mark at or below which
every packet number counts as received. -/
structure ReceivedPackets where
  ranges : List (Nat × Nat)
  lowWater : Option Nat
deriving DecidableEq, Repr

namespace ReceivedPackets

def new : ReceivedPackets := ⟨[], none⟩

def belowLowWater (received : ReceivedPackets) (pn : Nat) : Bool := received.lowWater.any (pn ≤ ·)

def contains (received : ReceivedPackets) (pn : Nat) : Bool :=
  received.belowLowWater pn || received.ranges.any fun range => range.1 ≤ pn && pn ≤ range.2

def largest (received : ReceivedPackets) : Option Nat := received.ranges.getLast?.map Prod.snd

/-- Drop the lowest range once there are too many, and raise the mark to its
upper end. -/
def enforceCap (received : ReceivedPackets) : ReceivedPackets :=
  if MAX_ACK_RANGES < received.ranges.length then
    match received.ranges with
    | [] => received
    | (_, hi) :: rest =>
      { ranges := rest
        lowWater := some (received.lowWater.elim hi (max · hi)) }
  else
    received

/-- The ranges from the one that ended just below `pn` on, now ending at `pn`
or, when the next range starts right above `pn`, merged with it. -/
def extendUp (lo pn : Nat) : List (Nat × Nat) → List (Nat × Nat)
  | [] => [(lo, pn)]
  | (nextLo, nextHi) :: rest =>
    if nextLo = pn + 1 then (lo, nextHi) :: rest
    else (lo, pn) :: (nextLo, nextHi) :: rest

/-- Record `pn`. The flag is `false` on a duplicate, which changes nothing.
The scan of the source stops at the first range that `pn` can touch. -/
def insert (received : ReceivedPackets) (pn : Nat) : ReceivedPackets × Bool :=
  if received.belowLowWater pn then
    (received, false)
  else
    let before := received.ranges.takeWhile fun range => range.2 + 1 < pn
    match received.ranges.dropWhile fun range => range.2 + 1 < pn with
    | [] =>
      (enforceCap
        { received with ranges := received.ranges ++ [(pn, pn)] }, true)
    | (lo, hi) :: after =>
      if lo ≤ pn ∧ pn ≤ hi then
        (received, false)
      else if pn + 1 = lo then
        ({ received with ranges := before ++ (pn, hi) :: after }, true)
      else if hi + 1 = pn then
        ({ received with ranges := before ++ extendUp lo pn after }, true)
      else
        (enforceCap
          { received with ranges := before ++ (pn, pn) :: (lo, hi) :: after }, true)

/-- The ACK of everything recorded, its ranges in descending order. -/
def toAck (received : ReceivedPackets) (ackDelay : Nat) : Option Ack :=
  match received.ranges.getLast? with
  | none => none
  | some (_, largest) =>
    some
      { largest := largest
        delay := ackDelay
        ranges := received.ranges.reverse
        ecn := none }

def insertAll (received : ReceivedPackets) (packets : List Nat) : ReceivedPackets :=
  packets.foldl (fun current pn => (current.insert pn).1) received

/-- The packet numbers of the sequence whose insertion returned `true`. -/
def accepted (received : ReceivedPackets) : List Nat → List Nat
  | [] => []
  | pn :: packets =>
    if (received.insert pn).2 then pn :: accepted (received.insert pn).1 packets
    else accepted (received.insert pn).1 packets

theorem contains_iff (received : ReceivedPackets) (pn : Nat) :
    received.contains pn = true ↔ received.belowLowWater pn = true ∨ Covers received.ranges pn := by
  simp [contains, Covers]

/-- The shape every reachable record has. -/
structure Invariant (received : ReceivedPackets) : Prop where
  separated : Separated received.ranges
  capped : received.ranges.length ≤ MAX_ACK_RANGES
  above : ∀ range ∈ received.ranges, received.belowLowWater range.1 = false

theorem invariant_new : Invariant new := ⟨.nil, Nat.zero_le _, by simp [new]⟩

variable {received : ReceivedPackets} {log : List Nat}

theorem not_belowLowWater_mono {low : Nat}
    (above : received.belowLowWater low = false) (le : low ≤ pn) :
    received.belowLowWater pn = false := by
  unfold belowLowWater at above ⊢
  cases mark : received.lowWater with
  | none => rfl
  | some =>
    simp only [mark, Option.any_some, decide_eq_false_iff_not] at above ⊢
    omega

/-! ### One insertion -/

/-- A record that grew to at most one range above the cap, before the cap is
enforced. -/
structure Grown (received : ReceivedPackets) : Prop where
  separated : Separated received.ranges
  length_le : received.ranges.length ≤ MAX_ACK_RANGES + 1
  above : ∀ range ∈ received.ranges, received.belowLowWater range.1 = false

theorem enforceCap_of_capped (capped : received.ranges.length ≤ MAX_ACK_RANGES) :
    received.enforceCap = received := by
  unfold enforceCap
  rw [if_neg (Nat.not_lt.mpr capped)]

/-- The raised mark covers what the old one covered and the dropped range. -/
theorem belowLowWater_raised (received : ReceivedPackets) (rest : List (Nat × Nat)) (hi pn : Nat) :
    belowLowWater
        { ranges := rest
          lowWater := some (received.lowWater.elim hi (max · hi)) } pn = true ↔
      received.belowLowWater pn = true ∨ pn ≤ hi := by
  unfold belowLowWater
  cases received.lowWater with
  | none => simp
  | some => simp

/-- Enforcing the cap restores the invariant, keeps every recorded number
recorded, and removes from the ranges exactly what the mark passed. -/
theorem Grown.enforceCap (grown : Grown received) :
    Invariant received.enforceCap ∧
      (∀ n, received.belowLowWater n = true → received.enforceCap.belowLowWater n = true) ∧
      ∀ n, Covers received.enforceCap.ranges n ↔
        Covers received.ranges n ∧ received.enforceCap.belowLowWater n = false := by
  obtain ⟨separated, lengthLe, above⟩ := grown
  by_cases capped : received.ranges.length ≤ MAX_ACK_RANGES
  · rw [enforceCap_of_capped capped]
    refine ⟨⟨separated, capped, above⟩, fun n below => below, ?_⟩
    intro n
    constructor
    · rintro ⟨range, member, lowLe, leHigh⟩
      exact ⟨⟨range, member, lowLe, leHigh⟩, not_belowLowWater_mono (above range member) lowLe⟩
    · exact And.left
  · have full : MAX_ACK_RANGES < received.ranges.length := by omega
    cases shape : received.ranges with
    | nil =>
      rw [shape] at full
      exact absurd full (Nat.not_lt_zero _)
    | cons lowest rest =>
      rw [ReceivedPackets.enforceCap, if_pos full]
      simp only [shape]
      rw [shape] at separated lengthLe above
      have gap n : Covers rest n → lowest.2 + 1 < n := separated.lt_of_covers_after
      obtain ⟨restSeparated, _, distance⟩ := separated_cons.mp separated
      have stillAbove :
          ∀ n, received.belowLowWater n = false → lowest.2 < n →
            belowLowWater
              { ranges := rest
                lowWater :=
                  some (received.lowWater.elim lowest.2 (max · lowest.2)) }
              n = false := by
        intro n notBelow beyond
        rw [← Bool.not_eq_true, belowLowWater_raised]
        rintro (below | _)
        · rw [notBelow] at below
          cases below
        · omega
      refine ⟨⟨restSeparated, ?_, ?_⟩, ?_, ?_⟩
      · simpa using lengthLe
      · intro range member
        have beyond := distance range member
        exact stillAbove range.1 (above range (by simp [member])) (by omega)
      · intro n below
        exact (belowLowWater_raised received rest lowest.2 n).mpr (.inl below)
      · intro n
        rw [covers_cons]
        constructor
        · intro covered
          have beyond := gap n covered
          obtain ⟨range, member, lowLe, leHigh⟩ := covered
          have notBelow := not_belowLowWater_mono (above range (by simp [member])) lowLe
          exact ⟨.inr ⟨range, member, lowLe, leHigh⟩, stillAbove n notBelow (by omega)⟩
        · rintro ⟨inLowest | inRest, notBelow⟩
          · rw [← Bool.not_eq_true, belowLowWater_raised] at notBelow
            exact absurd (.inr inLowest.2) notBelow
          · exact inRest

theorem scan_split (ranges : List (Nat × Nat)) (pn : Nat) :
    ∃ before touching, ranges.takeWhile (fun range => range.2 + 1 < pn) = before ∧
      ranges.dropWhile (fun range => range.2 + 1 < pn) = touching ∧
      ranges = before ++ touching ∧
      (∀ lower ∈ before, lower.2 + 1 < pn) ∧
      ∀ range ∈ touching.head?, pn ≤ range.2 + 1 := by
  refine ⟨_, _, rfl, rfl, takeWhile_append_dropWhile.symm, ?_, ?_⟩
  · intro _ member
    simpa using mem_takeWhile_imp member
  · intro range isHead
    have stopped := List.head?_dropWhile_not (fun range : Nat × Nat => range.2 + 1 < pn) ranges
    rw [Option.mem_def.mp isHead] at stopped
    simpa using stopped

/-- The ranges of a record with one number more. -/
structure GrownBy (received : ReceivedPackets) (pn : Nat) (ranges : List (Nat × Nat)) : Prop where
  grown : Grown { received with ranges := ranges }
  covers : ∀ n, Covers ranges n ↔ n = pn ∨ Covers received.ranges n

theorem grownBy_of_splice {before touching spliced : List (Nat × Nat)}
    (invariant : Invariant received) (notBelow : received.belowLowWater pn = false)
    (split : received.ranges = before ++ touching) (separated : Separated (before ++ spliced))
    (lengthLe : spliced.length ≤ touching.length + 1)
    (covers : ∀ n, Covers spliced n ↔ n = pn ∨ Covers touching n) :
    GrownBy received pn (before ++ spliced) := by
  have coversAll n : Covers (before ++ spliced) n ↔ n = pn ∨ Covers received.ranges n := by
    rw [split, covers_append, covers_append, covers]
    tauto
  refine ⟨⟨separated, ?_, ?_⟩, coversAll⟩
  · have capped := invariant.capped
    simp only [split, length_append] at capped ⊢
    omega
  · intro range member
    have le := separated.low_le_high range member
    rcases (coversAll range.1).mp ⟨range, member, le_rfl, le⟩ with
      isPacket | recorded
    · rw [isPacket]
      exact notBelow
    · obtain ⟨old, oldMember, lowLe, _⟩ := recorded
      exact not_belowLowWater_mono (invariant.above old oldMember) lowLe

theorem separated_extendUp {before after : List (Nat × Nat)} {lo : Nat}
    (lowLe : lo ≤ pn) (below : ∀ lower ∈ before, lower.2 + 1 < lo)
    (beforeSeparated : Separated before) (afterSeparated : Separated after)
    (above : ∀ upper ∈ after, pn < upper.1) : Separated (before ++ extendUp lo pn after) := by
  cases after with
  | nil => exact separated_append_cons.mpr ⟨beforeSeparated, .nil, lowLe, below, by simp⟩
  | cons next =>
    obtain ⟨nextLo, nextHi⟩ := next
    obtain ⟨restSeparated, _, nextGap⟩ := separated_cons.mp afterSeparated
    have nextAbove := above (nextLo, nextHi) (by simp)
    by_cases adjacent : nextLo = pn + 1
    · rw [extendUp, if_pos adjacent]
      refine separated_append_cons.mpr ⟨beforeSeparated, restSeparated, ?_, below, nextGap⟩
      omega
    · rw [extendUp, if_neg adjacent]
      refine separated_append_cons.mpr ⟨beforeSeparated, afterSeparated, lowLe, below, ?_⟩
      intro upper member
      rcases mem_cons.mp member with rfl | inRest
      · simp only
        omega
      · have beyond := nextGap upper inRest
        omega

theorem length_extendUp_le (lo pn : Nat) (after : List (Nat × Nat)) :
    (extendUp lo pn after).length ≤ after.length + 1 := by
  cases after with
  | nil => exact le_rfl
  | cons next =>
    by_cases adjacent : next.1 = pn + 1
    · simp [extendUp, adjacent]
    · simp [extendUp, adjacent]

theorem covers_extendUp {after : List (Nat × Nat)} {lo hi : Nat}
    (lowLe : lo ≤ hi) (adjacent : hi + 1 = pn)
    (afterOrdered : ∀ upper ∈ after, upper.1 ≤ upper.2) (n : Nat) :
    Covers (extendUp lo pn after) n ↔ n = pn ∨ Covers ((lo, hi) :: after) n := by
  have widened : lo ≤ n ∧ n ≤ pn ↔ n = pn ∨ (lo ≤ n ∧ n ≤ hi) := by omega
  cases after with
  | nil =>
    simp only [extendUp, covers_cons, covers_nil, or_false]
    exact widened
  | cons next =>
    obtain ⟨nextLo, nextHi⟩ := next
    have nextOrdered := afterOrdered (nextLo, nextHi) (by simp)
    by_cases merges : nextLo = pn + 1
    · have joined :
          lo ≤ n ∧ n ≤ nextHi ↔ n = pn ∨ (lo ≤ n ∧ n ≤ hi) ∨ (nextLo ≤ n ∧ n ≤ nextHi) := by
        omega
      simp only [extendUp, merges, if_true, covers_cons] at joined ⊢
      rw [joined, or_assoc, or_assoc]
    · simp only [extendUp, merges, if_false, covers_cons]
      rw [widened, or_assoc]

section Insertion

variable {before after : List (Nat × Nat)} {lo hi : Nat} (invariant : Invariant received)
  (notBelow : received.belowLowWater pn = false)
include invariant notBelow

theorem grownBy_append (split : received.ranges = before)
    (below : ∀ lower ∈ before, lower.2 + 1 < pn) :
    GrownBy received pn (before ++ [(pn, pn)]) := by
  have separated := split ▸ invariant.separated
  have appended : Separated (before ++ [(pn, pn)]) :=
    separated_append_cons.mpr ⟨separated, .nil, le_rfl, below, by simp⟩
  have splitEnd : received.ranges = before ++ [] := by simpa using split
  refine grownBy_of_splice invariant notBelow splitEnd appended (by simp) fun n => ?_
  simp only [covers_cons, covers_nil, or_false]
  omega

variable (split : received.ranges = before ++ (lo, hi) :: after)
include split

/-- A number right below a range lowers the range. -/
theorem grownBy_extendDown (below : ∀ lower ∈ before, lower.2 + 1 < pn) (adjacent : pn + 1 = lo) :
    GrownBy received pn (before ++ (pn, hi) :: after) := by
  obtain ⟨beforeSeparated, afterSeparated, le, -, gapAbove⟩ :=
    separated_append_cons.mp (split ▸ invariant.separated)
  have extended : Separated (before ++ (pn, hi) :: after) :=
    separated_append_cons.mpr
      ⟨beforeSeparated, afterSeparated, by simp only at le ⊢; omega, below, gapAbove⟩
  refine grownBy_of_splice invariant notBelow split extended (by simp) fun n => ?_
  have lowered : pn ≤ n ∧ n ≤ hi ↔ n = pn ∨ (lo ≤ n ∧ n ≤ hi) := by
    simp only at le
    omega
  rw [covers_cons, covers_cons, ← or_assoc, lowered]

/-- A number right above a range extends it, and may join it with the next. -/
theorem grownBy_extendUp (adjacent : hi + 1 = pn) :
    GrownBy received pn (before ++ extendUp lo pn after) := by
  obtain ⟨beforeSeparated, afterSeparated, le, gapBelow, gapAbove⟩ :=
    separated_append_cons.mp (split ▸ invariant.separated)
  have extended : Separated (before ++ extendUp lo pn after) := by
    refine separated_extendUp ?_ gapBelow beforeSeparated afterSeparated ?_
    · simp only at le
      omega
    · intro upper member
      have apart := gapAbove upper member
      omega
  have shorter := length_extendUp_le lo pn after
  exact grownBy_of_splice invariant notBelow split extended
    (shorter.trans (by rw [length_cons]; omega))
    (covers_extendUp le adjacent afterSeparated.low_le_high)

/-- A number apart from its neighbours is a range of its own. -/
theorem grownBy_between (below : ∀ lower ∈ before, lower.2 + 1 < pn) (apart : pn + 1 < lo) :
    GrownBy received pn (before ++ (pn, pn) :: (lo, hi) :: after) := by
  obtain ⟨beforeSeparated, afterSeparated, le, -, gapAbove⟩ :=
    separated_append_cons.mp (split ▸ invariant.separated)
  have inserted : Separated (before ++ (pn, pn) :: (lo, hi) :: after) := by
    refine separated_append_cons.mpr
      ⟨beforeSeparated, separated_cons.mpr ⟨afterSeparated, le, gapAbove⟩, le_rfl, below, ?_⟩
    intro upper member
    rcases mem_cons.mp member with rfl | inAfter
    · exact apart
    · have beyond := gapAbove upper inAfter
      simp only at le
      omega
  refine grownBy_of_splice invariant notBelow split inserted (by simp) fun n => ?_
  have single : pn ≤ n ∧ n ≤ pn ↔ n = pn := by omega
  rw [covers_cons, single]

/-- Only the first range that reaches up to a number can hold it. -/
theorem contains_split_iff (below : ∀ lower ∈ before, lower.2 + 1 < pn) (reaches : pn ≤ hi + 1) :
    received.contains pn = true ↔ lo ≤ pn ∧ pn ≤ hi := by
  obtain ⟨-, -, -, -, gapAbove⟩ := separated_append_cons.mp (split ▸ invariant.separated)
  rw [contains_iff, notBelow, split, covers_append, covers_cons]
  constructor
  · rintro (marked | ⟨lower, member, -, within⟩ | covered | ⟨upper, member, within, -⟩)
    · cases marked
    · have apart := below lower member
      omega
    · exact covered
    · have apart := gapAbove upper member
      omega
  · exact fun covered => .inr (.inr (.inl covered))

end Insertion

/-- Every insertion either meets a recorded number and changes nothing, or
extends the ranges by the number and enforces the cap. -/
theorem insert_cases (invariant : Invariant received) (pn : Nat) :
    (received.contains pn = true ∧ received.insert pn = (received, false)) ∨
      (received.contains pn = false ∧ ∃ ranges, GrownBy received pn ranges ∧
        received.insert pn = (enforceCap { received with ranges := ranges }, true)) := by
  obtain ⟨before, touching, takeEq, dropEq, split, below, stopped⟩ := scan_split received.ranges pn
  by_cases mark : received.belowLowWater pn = true
  · refine .inl ⟨(received.contains_iff pn).mpr (.inl mark), ?_⟩
    unfold insert
    rw [if_pos mark]
  have notBelow : received.belowLowWater pn = false := by simpa using mark
  have sameLength (ranges : List (Nat × Nat)) (shorter : ranges.length ≤ received.ranges.length) :
      enforceCap { received with ranges := ranges } = { received with ranges := ranges } :=
    enforceCap_of_capped (shorter.trans invariant.capped)
  cases touching with
  | nil =>
    rw [append_nil] at split
    refine .inr ⟨?_, _, grownBy_append invariant notBelow split below, ?_⟩
    · rw [← Bool.not_eq_true, contains_iff, split]
      rintro (marked | ⟨lower, member, -, within⟩)
      · exact mark marked
      · have apart := below lower member
        omega
    · unfold insert
      rw [if_neg mark, dropEq]
      simp [split]
  | cons touched after =>
    obtain ⟨lo, hi⟩ := touched
    have reaches : pn ≤ hi + 1 := stopped (lo, hi) (by simp)
    have containsIff := contains_split_iff invariant notBelow split below reaches
    by_cases duplicate : lo ≤ pn ∧ pn ≤ hi
    · refine .inl ⟨containsIff.mpr duplicate, ?_⟩
      unfold insert
      rw [if_neg mark, dropEq]
      simp [if_pos duplicate]
    have fresh : received.contains pn = false := by
      rw [← Bool.not_eq_true, containsIff]
      exact duplicate
    refine .inr ⟨fresh, ?_⟩
    have unfolded :
        received.insert pn =
          if pn + 1 = lo then
            ({ received with ranges := before ++ (pn, hi) :: after }, true)
          else if hi + 1 = pn then
            ({ received with ranges := before ++ extendUp lo pn after }, true)
          else
            (enforceCap { received with ranges := before ++ (pn, pn) :: (lo, hi) :: after },
              true) := by
      unfold insert
      rw [if_neg mark, dropEq]
      simp [if_neg duplicate, takeEq]
    by_cases adjacentBelow : pn + 1 = lo
    · refine ⟨_, grownBy_extendDown invariant notBelow split below adjacentBelow, ?_⟩
      rw [unfolded, if_pos adjacentBelow, sameLength _ (by simp [split])]
    by_cases adjacentAbove : hi + 1 = pn
    · have shorter := length_extendUp_le lo pn after
      refine ⟨_, grownBy_extendUp invariant notBelow split adjacentAbove, ?_⟩
      rw [unfolded, if_neg adjacentBelow, if_pos adjacentAbove, sameLength]
      simpa [split] using shorter
    · refine ⟨_, grownBy_between invariant notBelow split below (by omega), ?_⟩
      rw [unfolded, if_neg adjacentBelow, if_neg adjacentAbove]

/-- An insertion reports a new number exactly when the number was absent. -/
theorem insert_flag (inv : Invariant received) (pn : Nat) :
    (received.insert pn).2 = !received.contains pn := by
  rcases insert_cases inv pn with
    ⟨known, result⟩ | ⟨fresh, _, _, result⟩
  · rw [result, known]
    rfl
  · rw [result, fresh]
    rfl

theorem Invariant.insert (inv : Invariant received) (pn : Nat) :
    Invariant (received.insert pn).1 := by
  rcases insert_cases inv pn with
    ⟨_, result⟩ | ⟨_, _, ⟨grown, _⟩, result⟩
  · rw [result]
    exact inv
  · rw [result]
    exact grown.enforceCap.1

variable {n : Nat}

theorem contains_insert (inv : Invariant received)
    (recorded : n = pn ∨ received.contains n = true) :
    (received.insert pn).1.contains n = true := by
  rcases insert_cases inv pn with
    ⟨known, result⟩ | ⟨_, ranges, ⟨grown, covers⟩, result⟩
  · rw [result]
    rcases recorded with rfl | recorded
    · exact known
    · exact recorded
  · obtain ⟨_, markGrows, coversIff⟩ := grown.enforceCap
    rw [result, contains_iff]
    by_cases marked : (enforceCap { received with ranges := ranges }).belowLowWater n = true
    · exact .inl marked
    · refine .inr ((coversIff n).mpr ⟨(covers n).mpr ?_, by simpa using marked⟩)
      rcases recorded with isPacket | recorded
      · exact .inl isPacket
      · rcases (received.contains_iff n).mp recorded with below | covered
        · exact absurd (markGrows n below) marked
        · exact .inr covered

/-- The record stores exactly the accepted numbers above its mark, and no
number was accepted twice. -/
structure Records (received : ReceivedPackets) (log : List Nat) : Prop where
  invariant : Invariant received
  covers_iff :
    ∀ n, Covers received.ranges n ↔ n ∈ log ∧ received.belowLowWater n = false
  nodup : log.Nodup

theorem records_new : Records new [] := ⟨invariant_new, by simp [new], nodup_nil⟩

theorem Records.contains_of_mem (records : Records received log) (member : n ∈ log) :
    received.contains n = true := by
  rw [contains_iff]
  by_cases marked : received.belowLowWater n = true
  · exact .inl marked
  · exact .inr ((records.covers_iff n).mpr ⟨member, by simpa using marked⟩)

theorem Records.insert (records : Records received log) (pn : Nat) :
    Records (received.insert pn).1 (if (received.insert pn).2 then log ++ [pn] else log) := by
  obtain ⟨inv, coversLog, nodup⟩ := records
  rcases insert_cases inv pn with
    ⟨_, result⟩ | ⟨fresh, _, ⟨grown, covers⟩, result⟩
  · rw [result]
    exact ⟨inv, coversLog, nodup⟩
  · obtain ⟨capped, markGrows, coversIff⟩ := grown.enforceCap
    rw [result]
    refine ⟨capped, ?_, ?_⟩
    · intro n
      rw [coversIff, covers, coversLog]
      simp only [if_true, mem_append, mem_singleton]
      constructor
      · rintro ⟨isPacket | ⟨member, _⟩, above⟩
        · exact ⟨.inr isPacket, above⟩
        · exact ⟨.inl member, above⟩
      · rintro ⟨member | isPacket, above⟩
        · refine ⟨.inr ⟨member, ?_⟩, above⟩
          by_contra marked
          have raised := markGrows n (Bool.not_eq_false _ ▸ marked)
          rw [raised] at above
          cases above
        · exact ⟨.inl isPacket, above⟩
    · have absent : pn ∉ log := by
        intro member
        have known := Records.contains_of_mem ⟨inv, coversLog, nodup⟩ member
        rw [known] at fresh
        cases fresh
      exact nodup_append.mpr
        ⟨nodup, by simp, by
          intro _ oldMember _ newMember same
          rw [mem_singleton] at newMember
          exact absent (newMember ▸ same ▸ oldMember)⟩

/-! ### Runs -/

theorem Records.insertAll (records : Records received log) (packets : List Nat) :
    Records (received.insertAll packets) (log ++ received.accepted packets) := by
  induction packets generalizing received log with
  | nil => simpa [ReceivedPackets.insertAll, accepted] using records
  | cons pn _ ih =>
    have rest := ih (records.insert pn)
    by_cases new : (received.insert pn).2 = true
    · simpa [ReceivedPackets.insertAll, accepted, new] using rest
    · simpa [ReceivedPackets.insertAll, accepted, new] using rest

theorem Invariant.contains_insertAll (inv : Invariant received)
    (recorded : received.contains n = true) (packets : List Nat) :
    (received.insertAll packets).contains n = true := by
  induction packets generalizing received with
  | nil => exact recorded
  | cons pn _ ih => exact ih (inv.insert pn) (contains_insert inv (.inr recorded))

theorem mem_of_mem_accepted {packets : List Nat} (member : n ∈ received.accepted packets) :
    n ∈ packets := by
  induction packets generalizing received with
  | nil => cases member
  | cons _ _ ih =>
    unfold accepted at member
    split at member
    · rcases mem_cons.mp member with rfl | later
      · exact mem_cons_self
      · exact mem_cons_of_mem _ (ih later)
    · exact mem_cons_of_mem _ (ih member)

theorem insertAll_lt {packets : List Nat} {bound : Nat}
    (bounded : ∀ pn ∈ packets, pn < bound) {range : Nat × Nat}
    (member : range ∈ (new.insertAll packets).ranges) : range.2 < bound := by
  have records := records_new.insertAll packets
  have le := records.invariant.separated.low_le_high range member
  have logged := (records.covers_iff range.2).mp ⟨range, member, le, le_rfl⟩
  exact bounded _ (mem_of_mem_accepted logged.1)

/-- Over every sequence of insertions the record is a separated, capped set of
ranges above its mark; it accepts each number at most once, exactly when it did
not hold it, and keeps it; and it covers, and acknowledges, nothing but
accepted numbers. -/
theorem insertAll_deduplicates (packets : List Nat) (bounded : ∀ pn ∈ packets, pn < 2 ^ 62) :
    Separated (new.insertAll packets).ranges ∧
      (new.insertAll packets).ranges.length ≤ MAX_ACK_RANGES ∧
      (∀ range ∈ (new.insertAll packets).ranges,
        (∀ water ∈ (new.insertAll packets).lowWater, water < range.1) ∧ range.2 < 2 ^ 62) ∧
      (new.accepted packets).Nodup ∧
      (∀ pn, ((new.insertAll packets).insert pn).2 = true ↔
        (new.insertAll packets).contains pn = false) ∧
      (∀ pn later, (new.insertAll packets).contains pn = true →
        ((new.insertAll packets).insertAll later).contains pn = true) ∧
      (∀ n, Covers (new.insertAll packets).ranges n ↔
        n ∈ new.accepted packets ∧ ∀ water ∈ (new.insertAll packets).lowWater, water < n) ∧
      ∀ ackDelay ack, (new.insertAll packets).toAck ackDelay = some ack →
        ∀ n, Covers ack.ranges n → n ∈ new.accepted packets := by
  have records : Records (new.insertAll packets) (new.accepted packets) := by
    simpa using records_new.insertAll packets
  obtain ⟨invariant, coversIff, nodup⟩ := records
  have aboveMark n : (new.insertAll packets).belowLowWater n = false ↔
        ∀ water ∈ (new.insertAll packets).lowWater, water < n := by
    unfold belowLowWater
    cases (new.insertAll packets).lowWater with
    | none => simp
    | some => simp
  refine ⟨invariant.separated, invariant.capped, ?_, nodup, ?_, ?_, ?_, ?_⟩
  · intro range member
    exact ⟨(aboveMark _).mp (invariant.above range member), insertAll_lt bounded member⟩
  · intro pn
    rw [insert_flag invariant, Bool.not_eq_true']
  · intro _ later recorded
    exact invariant.contains_insertAll recorded later
  · intro n
    rw [coversIff, aboveMark]
  · intro _ ack built _ covered
    have sameRanges : ack.ranges = (new.insertAll packets).ranges.reverse := by
      unfold toAck at built
      cases shape : (new.insertAll packets).ranges.getLast? with
      | none => simp [shape] at built
      | some =>
        simp only [shape, Option.some.injEq] at built
        rw [← built]
    rw [sameRanges, covers_reverse, coversIff] at covered
    exact covered.1

/-- A run with a duplicate, a merge and an extension of the range. -/
theorem insertAll_deduplicates_merge :
    (new.accepted [5, 3, 5, 4, 6]).Nodup ∧
      new.insertAll [5, 3, 5, 4, 6] = ⟨[(3, 6)], none⟩ ∧
      (∀ pn ∈ [5, 3, 5, 4, 6], pn < 2 ^ 62) :=
  ⟨(insertAll_deduplicates [5, 3, 5, 4, 6] (by decide)).2.2.2.1, by decide, by decide⟩

/-- The ACK of a record is a frame that survives encoding. -/
theorem toAck_wellFormed {ackDelay : Nat} {ack : Ack} (inv : Invariant received)
    (bounded : ∀ range ∈ received.ranges, range.2 < 2 ^ 62)
    (delayLt : ackDelay < 2 ^ 62) (built : received.toAck ackDelay = some ack) :
    ack.WellFormed := by
  unfold toAck at built
  cases shape : received.ranges.getLast? with
  | none => simp [shape] at built
  | some last =>
    simp only [shape, Option.some.injEq] at built
    have lastMember := mem_of_getLast? shape
    rw [← built]
    refine ⟨?_, bounded last lastMember, delayLt, ?_, ?_, by simp⟩
    · simp [List.head?_reverse, shape]
    · intro range member
      exact inv.separated.low_le_high range (by simpa using member)
    · exact (pairwise_reverse.mpr inv.separated.gapped).isChain

end ReceivedPackets

end ParallaX.Quic
