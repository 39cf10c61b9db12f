import Mathlib.Algebra.GroupWithZero.Nat
import Mathlib.Data.List.Basic

/-!
# Reassembly of out-of-order fragments

The buffer that CRYPTO and STREAM reassembly share: fragments beyond the next
expected offset wait, and a fragment at or below it is appended to a sink with
every waiting fragment that becomes contiguous.
-/

namespace ParallaX.Quic

open List

universe u

variable {α : Type u}

/-- A waiting fragment: its offset and its bytes. -/
abbrev Fragment (α : Type u) := Nat × List α

def Fragment.finish (fragment : Fragment α) : Nat := fragment.1 + fragment.2.length

def straddles (recvOff : Nat) (fragment : Fragment α) : Bool :=
  fragment.1 ≤ recvOff && recvOff < fragment.finish

def bufferedBytes (pending : List (Fragment α)) : Nat :=
  (pending.map fun fragment => fragment.2.length).sum

/-- The waiting fragments, the next expected offset and the bytes recovered in
order. `freed` counts the bytes of fragments that no longer wait. -/
structure Drain (α : Type u) where
  pending : List (Fragment α)
  recvOff : Nat
  sink : List α
  freed : Nat

namespace Drain

variable (drain : Drain α)

/-- Append the part of a fragment from the next expected offset on. -/
def append (offset : Nat) (data : List α) : Drain α :=
  let skip := drain.recvOff - offset
  if skip < data.length then
    { drain with
      sink := drain.sink ++ data.drop skip
      recvOff := drain.recvOff + (data.length - skip) }
  else
    drain

/-- Append a fragment that straddles the next expected offset, with `pending`
the fragments that go on waiting. -/
def take (pending : List (Fragment α)) (fragment : Fragment α) : Drain α :=
  let skip := drain.recvOff - fragment.1
  { pending := pending
    recvOff := drain.recvOff + (fragment.2.length - skip)
    sink := drain.sink ++ fragment.2.drop skip
    freed := drain.freed + fragment.2.length }

/-- Take waiting fragments that straddle the next expected offset, the first
one in the buffer each time, until none does. Each round takes one fragment,
so the length of the buffer bounds the rounds. -/
def drainLoop : Nat → Drain α → Drain α
  | 0, drain => drain
  | rounds + 1, drain =>
    match drain.pending.find? (straddles drain.recvOff) with
    | none => drain
    | some fragment =>
      drainLoop rounds (drain.take (drain.pending.eraseP (straddles drain.recvOff)) fragment)

/-- Drop the fragments that lie below the next expected offset. -/
def evict : Drain α :=
  let passed := drain.pending.filter fun fragment =>
    fragment.finish ≤ drain.recvOff
  { drain with
    pending := drain.pending.filter fun fragment =>
      drain.recvOff < fragment.finish
    freed := drain.freed + bufferedBytes passed }

end Drain

/-- Reassemble a fragment whose offset is at or below the next expected one. -/
def drainContiguous
    (pending : List (Fragment α)) (recvOff offset : Nat)
    (data sink : List α) : Drain α :=
  let start : Drain α := { pending, recvOff, sink, freed := 0 }
  let appended := start.append offset data
  (Drain.drainLoop appended.pending.length appended).evict

/-! ## An induction rule for the drain -/

namespace Drain

/-- The test of `append` only avoids copying nothing. -/
theorem append_eq (drain : Drain α) (offset : Nat) (data : List α) :
    drain.append offset data =
      { drain with
        sink := drain.sink ++ data.drop (drain.recvOff - offset)
        recvOff :=
          drain.recvOff + (data.length - (drain.recvOff - offset)) } := by
  by_cases reaches : drain.recvOff - offset < data.length
  · exact if_pos reaches
  · have nothing := drop_eq_nil_of_le (Nat.le_of_not_lt reaches)
    have still : data.length - (drain.recvOff - offset) = 0 := by omega
    rw [nothing, still, append_nil]
    exact if_neg reaches

theorem find_split {pending : List (Fragment α)} {recvOff : Nat} {fragment : Fragment α}
    (found : pending.find? (straddles recvOff) = some fragment) :
    ∃ before after, pending = before ++ fragment :: after ∧
      pending.eraseP (straddles recvOff) = before ++ after ∧
      straddles recvOff fragment = true := by
  obtain ⟨reaches, before, after, split, misses⟩ := List.find?_eq_some_iff_append.mp found
  refine ⟨before, after, split, ?_, reaches⟩
  have none_before other (member : other ∈ before) : ¬straddles recvOff other = true := by
    simpa using misses other member
  rw [split, eraseP_append_right _ none_before, eraseP_cons_of_pos reaches]

theorem drainLoop_rule {motive : Drain α → Prop}
    (taken : ∀ drain before fragment after, motive drain →
      drain.pending = before ++ fragment :: after →
      straddles drain.recvOff fragment = true →
      motive (drain.take (before ++ after) fragment))
    (rounds : Nat) (drain : Drain α) (holds : motive drain) : motive (drainLoop rounds drain) := by
  induction rounds generalizing drain with
  | zero => exact holds
  | succ _ ih =>
    rw [drainLoop]
    cases found : drain.pending.find? (straddles drain.recvOff) with
    | none => exact holds
    | some fragment =>
      obtain ⟨before, after, split, erased, reaches⟩ := find_split found
      apply ih
      rw [erased]
      exact taken drain before fragment after holds split reaches

theorem drainLoop_complete
    (rounds : Nat) (drain : Drain α) (enough : drain.pending.length ≤ rounds) :
    ∀ fragment ∈ (drainLoop rounds drain).pending,
      straddles (drainLoop rounds drain).recvOff fragment = false := by
  induction rounds generalizing drain with
  | zero =>
    intro fragment member
    have empty : drain.pending = [] := by
      apply length_eq_zero_iff.mp
      omega
    rw [drainLoop, empty] at member
    cases member
  | succ rounds ih =>
    rw [drainLoop]
    cases found : drain.pending.find? (straddles drain.recvOff) with
    | none =>
      intro fragment member
      simpa using List.find?_eq_none.mp found fragment member
    | some =>
      obtain ⟨before, after, split, erased, -⟩ := find_split found
      apply ih
      have shorter : (before ++ after).length + 1 = drain.pending.length := by
        rw [split]
        simp only [length_append, length_cons]
        omega
      rw [erased]
      change (before ++ after).length ≤ rounds
      omega

end Drain

variable {recvOff : Nat}

theorem drainContiguous_rule {motive : Drain α → Prop}
    {pending : List (Fragment α)} {offset : Nat} {data sink : List α}
    (appended : motive ({ pending, recvOff, sink, freed := 0 : Drain α }.append offset data))
    (taken : ∀ drain before fragment after, motive drain →
      drain.pending = before ++ fragment :: after →
      straddles drain.recvOff fragment = true →
      motive (drain.take (before ++ after) fragment))
    (evicted : ∀ drain, motive drain → motive drain.evict) :
    motive (drainContiguous pending recvOff offset data sink) :=
  evicted _ (Drain.drainLoop_rule taken _ _ appended)

variable (pending : List (Fragment α))

/-- What still waits lies beyond the next expected offset. -/
theorem drainContiguous_beyond (recvOff offset : Nat) (data sink : List α) :
    ∀ fragment ∈ (drainContiguous pending recvOff offset data sink).pending,
      (drainContiguous pending recvOff offset data sink).recvOff < fragment.1 := by
  intro fragment member
  obtain ⟨stayed, above⟩ := mem_filter.mp member
  have misses := Drain.drainLoop_complete _ _ (Nat.le_refl _) fragment stayed
  simp only [straddles, Bool.and_eq_false_iff, decide_eq_false_iff_not,
    decide_eq_true_eq] at misses above
  change (Drain.drainLoop _ _).recvOff < fragment.1
  omega

/-! ## The account of the drain -/

/-- The bytes in the sink and the next expected offset grow together. -/
theorem drainContiguous_account (offset : Nat) (data : List α)
    {taken : Nat} {sink : List α} (account : taken + sink.length = recvOff) :
    taken + (drainContiguous pending recvOff offset data sink).sink.length =
      (drainContiguous pending recvOff offset data sink).recvOff := by
  apply drainContiguous_rule (motive := fun drain => taken + drain.sink.length = drain.recvOff)
  · rw [Drain.append_eq, length_append, length_drop]
    dsimp only
    omega
  · intro drain _ _ _ holds _ _
    rw [Drain.take, length_append, length_drop]
    dsimp only
    omega
  · intro _ holds
    exact holds

theorem drainContiguous_bounded {pending : List (Fragment α)} {offset : Nat} {data : List α}
    {high : Nat} (sink : List α) (start : recvOff ≤ high) (finish : offset + data.length ≤ high)
    (waiting : ∀ fragment ∈ pending, fragment.finish ≤ high) :
    (drainContiguous pending recvOff offset data sink).recvOff ≤ high ∧
      ∀ fragment ∈ (drainContiguous pending recvOff offset data sink).pending,
        fragment.finish ≤ high := by
  apply drainContiguous_rule
    (motive := fun drain => drain.recvOff ≤ high ∧
      ∀ fragment ∈ drain.pending, fragment.finish ≤ high)
  · rw [Drain.append_eq]
    refine ⟨?_, waiting⟩
    dsimp only
    omega
  · intro drain _ fragment _ holds split reaches
    have ends : fragment.finish ≤ high := by
      apply holds.2
      rw [split]
      exact mem_append_right _ mem_cons_self
    refine ⟨?_, ?_⟩
    · unfold Fragment.finish at ends reaches
      rw [Drain.take]
      dsimp only
      omega
    · intro _ member
      apply holds.2
      rw [split]
      rcases mem_append.mp member with left | right
      · exact mem_append_left _ left
      · exact mem_append_right _ (mem_cons_of_mem _ right)
  · intro _ holds
    exact ⟨holds.1, fun fragment member =>
      holds.2 fragment (mem_filter.mp member).1⟩

theorem bufferedBytes_append (first second : List (Fragment α)) :
    bufferedBytes (first ++ second) = bufferedBytes first + bufferedBytes second := by
  simp [bufferedBytes]

theorem bufferedBytes_filter (test : Fragment α → Bool) :
    bufferedBytes (pending.filter test) +
        bufferedBytes (pending.filter fun fragment => !test fragment) = bufferedBytes pending := by
  induction pending with
  | nil => rfl
  | cons fragment _ ih =>
    unfold bufferedBytes at ih ⊢
    cases outcome : test fragment <;> simp [outcome] <;> omega

theorem drainContiguous_freed (recvOff offset : Nat) (data sink : List α) :
    (drainContiguous pending recvOff offset data sink).freed +
        bufferedBytes (drainContiguous pending recvOff offset data sink).pending =
      bufferedBytes pending := by
  apply drainContiguous_rule
    (motive := fun drain =>
      drain.freed + bufferedBytes drain.pending = bufferedBytes pending)
  · rw [Drain.append_eq]
    exact Nat.zero_add _
  · intro drain _ fragment _ holds split _
    rw [split] at holds
    simp only [bufferedBytes_append, Drain.take] at holds ⊢
    simp only [bufferedBytes, map_cons, sum_cons] at holds ⊢
    omega
  · intro drain _
    have parts := bufferedBytes_filter drain.pending fun fragment =>
      decide (fragment.finish ≤ drain.recvOff)
    simp only [← decide_not, Nat.not_le] at parts
    unfold Drain.evict
    dsimp only
    omega

/-- Only fragments that waited go on waiting. -/
theorem drainContiguous_sublist (recvOff offset : Nat) (data sink : List α) :
    (drainContiguous pending recvOff offset data sink).pending.Sublist
      pending := by
  apply drainContiguous_rule (motive := fun drain => drain.pending.Sublist pending)
  · rw [Drain.append_eq]
  · intro drain before fragment after holds split _
    rw [split] at holds
    exact ((List.Sublist.refl before).append (sublist_cons_self fragment after)).trans holds
  · intro _ holds
    exact filter_sublist.trans holds

/-! ## What is reassembled -/

/-- The fragment is what the stream holds at its offset. -/
def Fragment.Of (stream : List α) (fragment : Fragment α) : Prop :=
  fragment.2 = (stream.drop fragment.1).take fragment.2.length

/-- From the fragments `seen` the stream is recovered up to `recvOff`, and what
reaches beyond waits. -/
structure Reassembled (stream : List α) (seen : List (Fragment α)) (bytes : List α)
    (pending : List (Fragment α)) (recvOff : Nat) : Prop where
  recovered : bytes = stream.take recvOff
  within : recvOff ≤ stream.length
  waiting : pending ⊆ seen
  kept : ∀ fragment ∈ seen, fragment.2 ≠ [] → fragment.finish ≤ recvOff ∨
    ∃ other ∈ pending, other.1 ≤ fragment.1 ∧ fragment.finish ≤ other.finish
  covered : ∀ i < recvOff, ∃ fragment ∈ seen, fragment.1 ≤ i ∧ i < fragment.finish

/-- The bytes are the longest prefix of the stream that the fragments cover. -/
def LongestPrefix (stream : List α) (fragments : List (Fragment α)) (bytes : List α) : Prop :=
  bytes = stream.take bytes.length ∧
    (∀ i < bytes.length, ∃ fragment ∈ fragments, fragment.1 ≤ i ∧ i < fragment.finish) ∧
    ∀ fragment ∈ fragments, straddles bytes.length fragment = false

namespace Reassembled

variable {stream bytes : List α} {seen pending : List (Fragment α)} {recvOff : Nat}
  (inv : Reassembled stream seen bytes pending recvOff)
include inv

theorem hold (fragment : Fragment α) :
    Reassembled stream (seen ++ [fragment]) bytes (pending ++ [fragment]) recvOff := by
  obtain ⟨recovered, within, waiting, kept, covered⟩ := inv
  refine ⟨recovered, within, ?_, ?_, ?_⟩ <;> grind

/-- A fragment with no news is dropped. -/
theorem skip {fragment : Fragment α} (known : fragment.2 ≠ [] → fragment.finish ≤ recvOff ∨
      ∃ other ∈ pending, other.1 ≤ fragment.1 ∧ fragment.finish ≤ other.finish) :
    Reassembled stream (seen ++ [fragment]) bytes pending recvOff := by
  obtain ⟨recovered, within, waiting, kept, covered⟩ := inv
  refine ⟨recovered, within, ?_, ?_, ?_⟩ <;> grind

/-- A fragment that is due is appended to the bytes. -/
theorem take {fragment : Fragment α} {rest : List (Fragment α)} (slice : fragment.Of stream)
    (member : fragment ∈ seen) (due : fragment.1 ≤ recvOff) (fewer : rest ⊆ pending)
    (others : ∀ other ∈ pending, other = fragment ∨ other ∈ rest) :
    Reassembled stream seen (bytes ++ fragment.2.drop (recvOff - fragment.1)) rest
      (recvOff + (fragment.2.length - (recvOff - fragment.1))) := by
  obtain ⟨recovered, within, waiting, kept, covered⟩ := inv
  have fits := congrArg length slice
  rw [length_take, length_drop] at fits
  refine ⟨?_, by omega, fun _ waits => waiting (fewer waits), ?_, ?_⟩
  · rw [take_add, ← recovered]
    nth_rewrite 1 [slice]
    rw [drop_take, drop_drop, Nat.add_sub_cancel' due]
  · unfold Fragment.finish at kept ⊢
    grind
  · unfold Fragment.finish at covered ⊢
    intro i below
    by_cases before : i < recvOff
    · exact covered i before
    · exact ⟨fragment, member, by omega⟩

theorem drain {offset : Nat} {data sink taken : List α} (whole : bytes = taken ++ sink)
    (slices : ∀ fragment ∈ seen, fragment.Of stream)
    (slice : Fragment.Of stream (offset, data)) (due : offset ≤ recvOff) :
    let drain := drainContiguous pending recvOff offset data sink
    Reassembled stream (seen ++ [(offset, data)]) (taken ++ drain.sink) drain.pending
      drain.recvOff := by
  apply drainContiguous_rule (motive := fun drain =>
    Reassembled stream (seen ++ [(offset, data)]) (taken ++ drain.sink) drain.pending drain.recvOff)
  · rw [Drain.append_eq, ← append_assoc, ← whole]
    exact (inv.hold (offset, data)).take slice (by simp) due (by simp) (by simp [or_comm])
  · intro drain before fragment after holds split reaches
    have known : fragment ∈ seen ++ [(offset, data)] := holds.waiting (by simp [split])
    simp only [straddles, Bool.and_eq_true, decide_eq_true_eq] at reaches
    rw [Drain.take, ← append_assoc]
    apply holds.take _ known reaches.1 <;> grind
  · intro drain ⟨recovered, within, waiting, kept, covered⟩
    refine ⟨recovered, within, ?_, ?_, covered⟩ <;> grind [Drain.evict]

/-- When nothing that waits is due, no fragment has bytes at `recvOff`. -/
theorem longest (ahead : ∀ fragment ∈ pending, recvOff < fragment.1) :
    bytes.length = recvOff ∧ ∀ fragment ∈ seen, straddles recvOff fragment = false := by
  have length : bytes.length = recvOff := by
    rw [inv.recovered, length_take, Nat.min_eq_left inv.within]
  refine ⟨length, fun fragment member => ?_⟩
  rw [Bool.eq_false_iff]
  intro reaches
  simp only [straddles, Bool.and_eq_true, decide_eq_true_eq] at reaches
  have some : fragment.2 ≠ [] := by
    intro none
    rw [Fragment.finish, none, length_nil] at reaches
    omega
  rcases inv.kept fragment member some with passed | ⟨other, waits, before, -⟩
  · omega
  · have beyond := ahead other waits
    omega

theorem longestPrefix (ahead : ∀ fragment ∈ pending, recvOff < fragment.1) :
    LongestPrefix stream seen bytes := by
  obtain ⟨length, beyond⟩ := inv.longest ahead
  unfold LongestPrefix
  rw [length]
  exact ⟨inv.recovered, inv.covered, beyond⟩

end Reassembled

end ParallaX.Quic
