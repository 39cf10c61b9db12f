import Mathlib.Data.List.TakeWhile
import ParallaX.Mux.RecordPlan

/-!
# What planning may change in a batch

Data frames may be split and merged, and an empty one next to data of its stream
disappears. Pieces that are cut from the cursor change the batch in these ways
only.
-/

namespace ParallaX.Mux

open List

/-! ## Changes -/

def dataFrame (streamId : UInt32) (payload : List UInt8) : MuxFrame := ⟨streamId, .data, payload⟩

inductive Change : List MuxFrame → List MuxFrame → Prop where
  | split (before after : List MuxFrame) (streamId : UInt32)
      {left right : List UInt8} (some : left ≠ []) (more : right ≠ []) :
      Change (before ++ dataFrame streamId (left ++ right) :: after)
        (before ++ dataFrame streamId left :: dataFrame streamId right :: after)
  | merge (before after : List MuxFrame) (streamId : UInt32)
      {left right : List UInt8} (some : left ≠ []) (more : right ≠ []) :
      Change (before ++ dataFrame streamId left :: dataFrame streamId right :: after)
        (before ++ dataFrame streamId (left ++ right) :: after)
  | absorbBefore (before after : List MuxFrame) (streamId : UInt32)
      {bytes : List UInt8} (some : bytes ≠ []) :
      Change (before ++ dataFrame streamId [] :: dataFrame streamId bytes :: after)
        (before ++ dataFrame streamId bytes :: after)
  | absorbAfter (before after : List MuxFrame) (streamId : UInt32)
      {bytes : List UInt8} (some : bytes ≠ []) :
      Change (before ++ dataFrame streamId bytes :: dataFrame streamId [] :: after)
        (before ++ dataFrame streamId bytes :: after)

/-- The second batch is the first one after any number of changes. -/
def Recut : List MuxFrame → List MuxFrame → Prop := Relation.ReflTransGen Change

namespace Recut

theorem refl (frames : List MuxFrame) : Recut frames frames := Relation.ReflTransGen.refl

variable {first second : List MuxFrame}

theorem trans {third : List MuxFrame} (one : Recut first second)
    (two : Recut second third) : Recut first third :=
  Relation.ReflTransGen.trans one two

theorem of_change (change : Change first second) : Recut first second :=
  Relation.ReflTransGen.single change

theorem append_left (recut : Recut first second)
    (before : List MuxFrame) : Recut (before ++ first) (before ++ second) := by
  induction recut with
  | refl => exact refl _
  | tail _ change ih =>
    refine ih.trans (of_change ?_)
    cases change with
    | split before' after id some more =>
      simpa only [append_assoc] using Change.split (before ++ before') after id some more
    | merge before' after id some more =>
      simpa only [append_assoc] using Change.merge (before ++ before') after id some more
    | absorbBefore before' after id some =>
      simpa only [append_assoc] using
        Change.absorbBefore (before ++ before') after id some
    | absorbAfter before' after id some =>
      simpa only [append_assoc] using
        Change.absorbAfter (before ++ before') after id some

theorem append_right (recut : Recut first second) (behind : List MuxFrame) :
    Recut (first ++ behind) (second ++ behind) := by
  induction recut with
  | refl => exact refl _
  | tail _ change ih =>
    refine ih.trans (of_change ?_)
    cases change with
    | split before after id some more =>
      simpa using Change.split before (after ++ behind) id some more
    | merge before after id some more =>
      simpa using Change.merge before (after ++ behind) id some more
    | absorbBefore before after id some =>
      simpa using Change.absorbBefore before (after ++ behind) id some
    | absorbAfter before after id some =>
      simpa using Change.absorbAfter before (after ++ behind) id some

theorem cons (recut : Recut first second)
    (frame : MuxFrame) : Recut (frame :: first) (frame :: second) :=
  recut.append_left [frame]

theorem join (id : UInt32) (left : List UInt8) {right : List UInt8}
    (more : right ≠ []) (after : List MuxFrame) :
    Recut (dataFrame id left :: dataFrame id right :: after)
      (dataFrame id (left ++ right) :: after) := by
  by_cases none : left = []
  · subst none
    exact of_change (.absorbBefore [] after id more)
  · exact of_change (.merge [] after id none more)

end Recut

inductive Content where
  | frame (frame : MuxFrame)
  | byte (streamId : UInt32) (byte : UInt8)
deriving DecidableEq, Repr

def MuxFrame.content (frame : MuxFrame) : List Content :=
  if frame.kind = .data then
    frame.payload.map fun byte => .byte frame.streamId byte
  else [.frame frame]

/-- The control frames and the data bytes of a batch in order. -/
def content (frames : List MuxFrame) : List Content := frames.flatMap MuxFrame.content

theorem content_append (first second : List MuxFrame) :
    content (first ++ second) = content first ++ content second :=
  flatMap_append

theorem Change.content {first second : List MuxFrame}
    (change : Change first second) : content first = content second := by
  cases change with
  | split | merge | absorbBefore | absorbAfter => simp [Mux.content, MuxFrame.content, dataFrame]

theorem Recut.content {first second : List MuxFrame}
    (recut : Recut first second) : content first = content second := by
  induction recut with
  | refl => rfl
  | tail _ change ih => exact ih.trans change.content

/-! ## Data runs -/

variable {id : UInt32} {frame : MuxFrame}

theorem eq_dataFrame (data : frame.isDataOf id = true) : frame = dataFrame id frame.payload := by
  obtain ⟨kind, _⟩ : frame.kind = .data ∧ frame.streamId = id := by
    simpa [MuxFrame.isDataOf] using data
  cases frame
  simp_all [dataFrame]

/-- The frames from the cursor on; the first one without the bytes before the
offset. -/
def unread : List MuxFrame → Nat → List MuxFrame
  | [], _ => []
  | frame :: rest, offset => { frame with payload := frame.payload.drop offset } :: rest

variable (frames : List MuxFrame)

theorem unread_zero : unread frames 0 = frames := by
  cases frames <;> rfl

def remaining (cursor : MuxFrameCursor) : List MuxFrame :=
  unread (frames.drop cursor.frame) cursor.offset

def dataRun (streamId : UInt32) (frames : List MuxFrame) : List MuxFrame :=
  frames.takeWhile (·.isDataOf streamId)

def payloads : List UInt8 := frames.flatMap (·.payload)

theorem dataRun_cons_of_data (data : frame.isDataOf id = true) (rest : List MuxFrame) :
    dataRun id (frame :: rest) = frame :: dataRun id rest := by
  simp [dataRun, data]

theorem dataRun_append_drop (id : UInt32) (frames : List MuxFrame) :
    dataRun id frames ++ frames.drop (dataRun id frames).length = frames := by
  have first : dataRun id frames <+: frames := takeWhile_prefix _
  rw [prefix_iff_eq_take] at first
  nth_rewrite 1 [first]
  exact take_append_drop _ frames

theorem Recut.of_run {run : List MuxFrame} (data : ∀ frame ∈ run, frame.isDataOf id = true)
    (some : payloads run ≠ []) : Recut run [dataFrame id (payloads run)] := by
  induction run with
  | nil => exact absurd rfl some
  | cons frame rest ih =>
    have first := eq_dataFrame (data frame mem_cons_self)
    have later frame (member : frame ∈ rest) : frame.isDataOf id = true :=
      data frame (mem_cons_of_mem _ member)
    have split : payloads (frame :: rest) = frame.payload ++ payloads rest := flatMap_cons
    rw [split] at some ⊢
    by_cases none : payloads rest = []
    · -- what follows is empty
      rw [none, append_nil] at some ⊢
      rw [first]
      clear ih split first data
      induction rest with
      | nil => exact .refl _
      | cons empty rest ih =>
        have cut : payloads (empty :: rest) = empty.payload ++ payloads rest := flatMap_cons
        rw [cut, append_eq_nil_iff] at none
        rw [eq_dataFrame (later empty mem_cons_self), none.1]
        exact (of_change (.absorbAfter [] rest id some)).trans
          (ih (fun frame member => later frame (mem_cons_of_mem _ member)) none.2)
    · rw [first]
      exact ((ih later none).cons _).trans (.join id _ none [])

/-! ## Copying a piece -/

def OffsetOk (offset : Nat) : Prop :=
  offset = 0 ∨ ∃ frame rest, frames = frame :: rest ∧ frame.kind = .data ∧
    offset < frame.payload.length

theorem OffsetOk.le {rest : List MuxFrame} {offset : Nat}
    (ok : OffsetOk (frame :: rest) offset) : offset ≤ frame.payload.length := by
  rcases ok with rfl | ⟨_, _, same, _, inside⟩
  · exact Nat.zero_le _
  · rw [List.cons.injEq] at same
    rw [same.1]
    exact le_of_lt inside

theorem isDataOf_drop (frame : MuxFrame) (offset : Nat) (id : UInt32) :
    ({ frame with payload := frame.payload.drop offset }).isDataOf id = frame.isDataOf id := rfl

def runBytes (streamId : UInt32) (frames : List MuxFrame) (offset : Nat) : List UInt8 :=
  payloads (dataRun streamId (unread frames offset))

theorem runBytes_cons (data : frame.isDataOf id = true) (rest : List MuxFrame)
    (offset : Nat) :
    runBytes id (frame :: rest) offset = frame.payload.drop offset ++ runBytes id rest 0 := by
  rw [runBytes, unread, dataRun_cons_of_data
    ((isDataOf_drop frame offset id).trans data), runBytes, unread_zero]
  exact flatMap_cons

theorem runBytes_of_not_data (other : frame.isDataOf id = false) (rest : List MuxFrame)
    (offset : Nat) : runBytes id (frame :: rest) offset = [] := by
  simp [runBytes, unread, dataRun, isDataOf_drop, other, payloads]

theorem copyPiece_zero (id : UInt32) (frames : List MuxFrame)
    (cursor : MuxFrameCursor) (out : List UInt8) :
    copyPiece id frames cursor 0 out = .ok (out, cursor) := by
  cases frames <;> rfl

theorem unread_cons_of_data (data : frame.isDataOf id = true) (rest : List MuxFrame)
    (offset : Nat) :
    unread (frame :: rest) offset = dataFrame id (frame.payload.drop offset) :: rest := by
  exact congrArg (· :: rest) (eq_dataFrame ((isDataOf_drop frame offset id).trans data))

section Copy

variable {id : UInt32} {frame : MuxFrame} {rest : List MuxFrame}
  {cursor : MuxFrameCursor} {count : Nat} {out : List UInt8}

theorem copyPiece_rest (data : frame.isDataOf id = true)
    (pos : 0 < count) (inside : cursor.offset ≤ frame.payload.length)
    (all : frame.payload.length ≤ cursor.offset + count) :
    copyPiece id (frame :: rest) cursor count out =
      copyPiece id rest ⟨cursor.frame + 1, 0⟩ (count - (frame.payload.length - cursor.offset))
        (out ++ frame.payload.drop cursor.offset) := by
  obtain ⟨less, rfl⟩ : ∃ less, count = less + 1 := ⟨count - 1, by omega⟩
  have take : min (less + 1) (frame.payload.length - cursor.offset) =
      frame.payload.length - cursor.offset := min_eq_right (by omega)
  simp only [copyPiece, data, if_true, take, MuxFrameCursor.advance]
  rw [if_pos (by omega), take_of_length_le (by rw [length_drop])]

end Copy

variable (id)

theorem copyPiece_spec (cursor : MuxFrameCursor) (count : Nat) (out : List UInt8)
    (ok : OffsetOk frames cursor.offset) (pos : 0 < count)
    (enough : count ≤ (runBytes id frames cursor.offset).length) :
    ∃ steps offset, copyPiece id frames cursor count out =
        .ok (out ++ (runBytes id frames cursor.offset).take count, ⟨cursor.frame + steps, offset⟩) ∧
      Recut (unread frames cursor.offset)
        (dataFrame id ((runBytes id frames cursor.offset).take count) ::
            unread (frames.drop steps) offset) ∧
      OffsetOk (frames.drop steps) offset ∧
      (0 < steps ∨ cursor.offset < offset) := by
  induction frames generalizing cursor count out with
  | nil =>
    simp only [runBytes, unread, dataRun, payloads, takeWhile_nil,
      flatMap_nil, length_nil] at enough
    omega
  | cons frame rest ih =>
    cases data : frame.isDataOf id with
    | false =>
      rw [runBytes_of_not_data data, length_nil] at enough
      omega
    | true =>
      have inside := ok.le
      have length : (frame.payload.drop cursor.offset).length =
          frame.payload.length - cursor.offset := length_drop
      rw [runBytes_cons data] at enough ⊢
      rw [unread_cons_of_data data]
      rcases lt_or_ge (cursor.offset + count) frame.payload.length with
        part | all
      · have cut : (frame.payload.drop cursor.offset ++
            runBytes id rest 0).take count = (frame.payload.drop cursor.offset).take count :=
          take_append_of_le_length (by omega)
        refine ⟨0, cursor.offset + count, ?_, ?_, ?_, .inr (by omega)⟩
        · obtain ⟨less, rfl⟩ : ∃ less, count = less + 1 := ⟨count - 1, by omega⟩
          have take : min (less + 1) (frame.payload.length - cursor.offset) = less + 1 :=
            min_eq_left (by omega)
          simp only [copyPiece, data, if_true, take, Nat.sub_self, copyPiece_zero,
            MuxFrameCursor.advance]
          rw [if_neg (by omega), cut]
          rfl
        · rw [cut, drop_zero, unread_cons_of_data data, ← drop_drop]
          have parts := take_append_drop count (frame.payload.drop cursor.offset)
          nth_rewrite 1 [← parts]
          refine .of_change (.split [] rest id ?_ ?_)
          · rw [← length_pos_iff, length_take]
            omega
          · rw [← length_pos_iff, length_drop]
            omega
        · exact .inr ⟨frame, rest, rfl, by rw [eq_dataFrame data, dataFrame], part⟩
      · have cut : (frame.payload.drop cursor.offset ++
            runBytes id rest 0).take count =
              frame.payload.drop cursor.offset ++ (runBytes id rest 0).take
                  (count - (frame.payload.length - cursor.offset)) := by
          rw [take_append, length, take_of_length_le (by omega)]
        rw [copyPiece_rest data pos inside all, cut]
        rcases eq_zero_or_pos (count - (frame.payload.length - cursor.offset)) with
          done | more
        · refine ⟨1, 0, ?_, ?_, .inl rfl, .inl Nat.one_pos⟩
          · rw [done, copyPiece_zero, take_zero, append_nil]
          · rw [done, take_zero, append_nil, unread_zero]
            exact .refl _
        · have short : count - (frame.payload.length - cursor.offset) ≤
              (runBytes id rest 0).length := by
            rw [length_append] at enough
            omega
          obtain ⟨steps, offset, copied, recut, ok', _⟩ :=
            ih ⟨cursor.frame + 1, 0⟩ _ (out ++ frame.payload.drop cursor.offset) (.inl rfl) more
              short
          refine ⟨steps + 1, offset, ?_, ?_, ok', .inl (by omega)⟩
          · rw [copied, append_assoc, Nat.add_right_comm, Nat.add_assoc]
          · rw [unread_zero] at recut
            refine (recut.cons _).trans (.join id _ ?_ _)
            rw [← length_pos_iff, length_take]
            exact Nat.lt_min.mpr ⟨more, Nat.lt_of_lt_of_le more short⟩

theorem dataRunLoop_eq (offset index bytes : Nat)
    (small : bytes + (runBytes id frames offset).length < 2 ^ 64) :
    dataRunLoop id frames offset index bytes =
      .ok (index + (dataRun id (unread frames offset)).length,
        bytes + (runBytes id frames offset).length) := by
  induction frames generalizing offset index bytes with
  | nil => simp [dataRunLoop, runBytes, unread, dataRun, payloads]
  | cons frame _ ih =>
    cases data : frame.isDataOf id with
    | false =>
      rw [runBytes_of_not_data data]
      simp [dataRunLoop, data, unread, dataRun, isDataOf_drop]
    | true =>
      rw [runBytes_cons data, length_append, length_drop] at small
      have onward := ih 0 (index + 1) (bytes + (frame.payload.length - offset)) (by omega)
      rw [unread_zero] at onward
      simp only [dataRunLoop, data, if_true]
      rw [if_neg (by omega), onward, runBytes_cons data, unread,
        dataRun_cons_of_data ((isDataOf_drop frame offset id).trans data)]
      simp only [length_cons, length_append, length_drop]
      congr 2 <;> omega

theorem recut_run (offset : Nat)
    (some : runBytes id frames offset ≠ []) :
    Recut (unread frames offset)
      (dataFrame id (runBytes id frames offset) ::
        (unread frames offset).drop (dataRun id (unread frames offset)).length) := by
  have split := dataRun_append_drop id (unread frames offset)
  nth_rewrite 1 [← split]
  exact (Recut.of_run (fun _ => mem_takeWhile_imp) some).append_right _

end ParallaX.Mux
