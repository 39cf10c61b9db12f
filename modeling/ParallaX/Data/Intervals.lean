import Mathlib.Data.List.Basic

/-!
# Lists of closed intervals

A set of naturals stored as an ascending list of closed intervals with at least
one absent number between consecutive ones. The rules below say when a list
that has been edited at one position is again such a list, and which numbers it
covers.
-/

namespace ParallaX.Data

open List

def Covers (ranges : List (Nat × Nat)) (n : Nat) : Prop :=
  ∃ range ∈ ranges, range.1 ≤ n ∧ n ≤ range.2

/-- The intervals are nonempty, ascending, disjoint and not adjacent. -/
structure Separated (ranges : List (Nat × Nat)) : Prop where
  low_le_high : ∀ range ∈ ranges, range.1 ≤ range.2
  gapped : ranges.Pairwise fun lower upper => lower.2 + 1 < upper.1

@[simp]
theorem covers_nil (n : Nat) : ¬ Covers [] n := by
  rintro ⟨_, member, _⟩
  cases member

@[simp]
theorem covers_cons (range : Nat × Nat) (ranges : List (Nat × Nat)) (n : Nat) :
    Covers (range :: ranges) n ↔ (range.1 ≤ n ∧ n ≤ range.2) ∨ Covers ranges n := by
  simp [Covers]

@[simp]
theorem covers_append (left right : List (Nat × Nat)) (n : Nat) :
    Covers (left ++ right) n ↔ Covers left n ∨ Covers right n := by
  induction left with
  | nil => simp
  | cons _ _ ih => simp [ih, or_assoc]

@[simp]
theorem covers_reverse (ranges : List (Nat × Nat)) (n : Nat) :
    Covers ranges.reverse n ↔ Covers ranges n := by
  simp [Covers]

theorem Separated.nil : Separated [] := ⟨by simp, List.Pairwise.nil⟩

variable {after : List (Nat × Nat)} {range : Nat × Nat}

theorem separated_append_cons {before : List (Nat × Nat)} :
    Separated (before ++ range :: after) ↔
      Separated before ∧ Separated after ∧ range.1 ≤ range.2 ∧
        (∀ lower ∈ before, lower.2 + 1 < range.1) ∧
        ∀ upper ∈ after, range.2 + 1 < upper.1 := by
  constructor
  · rintro ⟨ordered, gapped⟩
    obtain ⟨beforeGapped, restGapped, across⟩ := pairwise_append.mp gapped
    obtain ⟨above, afterGapped⟩ := pairwise_cons.mp restGapped
    refine ⟨⟨fun lower member => ordered lower (by simp [member]),
      beforeGapped⟩, ⟨fun upper member => ordered upper (by simp [member]),
      afterGapped⟩, ordered range (by simp), ?_, above⟩
    intro lower member
    exact across lower member range (by simp)
  · rintro ⟨⟨beforeOrdered, beforeGapped⟩, ⟨afterOrdered, afterGapped⟩, ordered, below, above⟩
    constructor
    · intro other member
      rcases mem_append.mp member with inBefore | inRest
      · exact beforeOrdered other inBefore
      · rcases mem_cons.mp inRest with rfl | inAfter
        · exact ordered
        · exact afterOrdered other inAfter
    · refine pairwise_append.mpr
        ⟨beforeGapped, pairwise_cons.mpr ⟨above, afterGapped⟩, ?_⟩
      intro lower inBefore upper inRest
      have lowerGap := below lower inBefore
      rcases mem_cons.mp inRest with rfl | inAfter
      · exact lowerGap
      · have upperGap := above upper inAfter
        omega

theorem separated_cons :
    Separated (range :: after) ↔
      Separated after ∧ range.1 ≤ range.2 ∧ ∀ upper ∈ after, range.2 + 1 < upper.1 := by
  have atFront : Separated ([] ++ range :: after) ↔ _ := separated_append_cons
  simpa [Separated.nil] using atFront

/-- Every number covered to the right of an interval is above its gap. -/
theorem Separated.lt_of_covers_after {n : Nat}
    (separated : Separated (range :: after)) (covered : Covers after n) : range.2 + 1 < n := by
  obtain ⟨upper, member, _, _⟩ := covered
  have gap := (separated_cons.mp separated).2.2 upper member
  omega

end ParallaX.Data
