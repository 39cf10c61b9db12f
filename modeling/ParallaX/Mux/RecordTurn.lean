import ParallaX.Mux.Recut

/-!
# Filling one record

Every round of the loop that fills a record appends whole frames and cuts them
from the batch; a record gets at least one frame and stays within its limit.
-/

namespace ParallaX.Mux

open List

open MuxFrame (wires wire)

def MuxFrameCursor.Before (cursor next : MuxFrameCursor) : Prop :=
  cursor.frame < next.frame ∨ (cursor.frame = next.frame ∧ cursor.offset < next.offset)

theorem MuxFrameCursor.Before.trans {first second third : MuxFrameCursor}
    (one : first.Before second) (two : second.Before third) : first.Before third := by
  rcases one with one | one <;> rcases two with two | two
  · exact .inl (by omega)
  · exact .inl (by omega)
  · exact .inl (by omega)
  · exact .inr (by omega)

def MuxFrameCursor.Ok (frames : List MuxFrame) (cursor : MuxFrameCursor) : Prop :=
  OffsetOk (frames.drop cursor.frame) cursor.offset

def MuxFrame.bearsData (frame : MuxFrame) : Bool := frame.kind = .data && !frame.payload.isEmpty

theorem muxRecordDataPieceLen_bounds {remaining cap : Nat}
    (some : 0 < remaining) (room : 0 < cap) :
    0 < muxRecordDataPieceLen remaining cap ∧ muxRecordDataPieceLen remaining cap ≤ remaining ∧
      muxRecordDataPieceLen remaining cap ≤ cap := by
  rw [muxRecordDataPieceLen]
  split
  · omega
  · split <;> omega

theorem wires_append (first second : List MuxFrame) :
    wires (first ++ second) = wires first ++ wires second :=
  flatMap_append

theorem wires_singleton (frame : MuxFrame) :
    wires [frame] = wire frame.streamId frame.kind frame.payload := by
  simp [wires]

theorem length_wires_singleton (frame : MuxFrame) :
    (wires [frame]).length = MUX_FRAME_FIXED_LEN + frame.payload.length := by
  rw [wires_singleton, MuxFrame.length_wire]

/-! ## One piece -/

variable (id : UInt32)

theorem patched_header (out piece : List UInt8) :
    (out ++ wire id .data [] ++ piece).take ((out ++ wire id .data []).length - 4) ++
      toBeBytes piece.length ++
      (out ++ wire id .data [] ++ piece).drop (out ++ wire id .data []).length =
      out ++ wires [dataFrame id piece] := by
  have header : out ++ wire id .data [] =
      (out ++ MUX_FRAME_MAGIC ++ toBeBytes id.toNat ++
        [MuxFrameKind.data.toWire]) ++ toBeBytes 0 := by
    simp [wire]
  have field : (toBeBytes 0).length = 4 := rfl
  rw [drop_left, header, length_append, field, Nat.add_sub_cancel,
    append_assoc _ (toBeBytes 0) piece, take_left, wires_singleton]
  simp [wire, dataFrame]

variable {frames : List MuxFrame} {cursor : MuxFrameCursor}

theorem encodeMuxDataPiece_spec {frame : MuxFrame} {rest : List MuxFrame}
    (here : frames.drop cursor.frame = frame :: rest)
    (stream : frame.streamId ≠ 0) (ok : cursor.Ok frames) {count : Nat}
    (pos : 0 < count) (small : count < 2 ^ 32)
    (enough : count ≤ (runBytes frame.streamId (frame :: rest) cursor.offset).length)
    (out : List UInt8) :
    ∃ next, encodeMuxDataPiece out frames cursor count =
        .ok (out ++ wires [dataFrame frame.streamId
          ((runBytes frame.streamId (frame :: rest) cursor.offset).take count)],
          next) ∧
      Recut (remaining frames cursor)
        (dataFrame frame.streamId
          ((runBytes frame.streamId (frame :: rest) cursor.offset).take count) ::
            remaining frames next) ∧
      next.Ok frames ∧ cursor.Before next := by
  rw [MuxFrameCursor.Ok, here] at ok
  obtain ⟨steps, offset, copied, recut, ok', moved⟩ :=
    copyPiece_spec frame.streamId (frame :: rest) cursor count
      (out ++ wire frame.streamId .data []) ok pos enough
  generalize taken : (runBytes frame.streamId (frame :: rest) cursor.offset).take count = piece
    at copied recut ⊢
  have length : piece.length = count := by
    rw [← taken, length_take]
    omega
  have behind : frames.drop (cursor.frame + steps) = (frame :: rest).drop steps := by
    rw [← here, drop_drop]
  have header : MuxFrame.encodeBorrowedInto frame.streamId .data [] out =
      .ok (out ++ wire frame.streamId .data []) := by
    rw [MuxFrame.encodeBorrowedInto, validateMuxStream, if_pos (by simp [stream])]
    rfl
  refine ⟨⟨cursor.frame + steps, offset⟩, ?_, ?_, ?_, ?_⟩
  · have patched := patched_header frame.streamId out piece
    rw [length] at patched
    rw [encodeMuxDataPiece, here]
    simp only [header, copied, bind, Except.bind]
    rw [if_neg (not_le.mpr small), patched]
  · rw [remaining, here, remaining]
    simp only [behind]
    exact recut
  · rw [MuxFrameCursor.Ok]
    simp only [behind]
    exact ok'
  · rcases moved with later | further
    · exact .inl (by simp only; omega)
    · rcases eq_zero_or_pos steps with rfl | later
      · exact .inr ⟨rfl, further⟩
      · exact .inl (by simp only; omega)

/-! ## One round -/

structure Plannable (frames : List MuxFrame) (limit : Nat) (cursor : MuxFrameCursor) : Prop where
  streams : ∀ frame ∈ frames, frame.kind = .cover ↔ frame.streamId = 0
  addressable : (payloads frames).length < 2 ^ 64
  fits : ∀ frame ∈ frames.drop cursor.frame, frame.kind ≠ .data →
    MUX_FRAME_FIXED_LEN + frame.payload.length ≤ limit
  least : 14 ≤ limit
  most : limit < 2 ^ 16
  ok : cursor.Ok frames

structure Appended (frames : List MuxFrame) (state next : RecordState)
    (added : List MuxFrame) : Prop where
  buffer : next.plaintextBuf = state.plaintextBuf ++ wires added
  valid : ∀ frame ∈ added, frame.Valid
  recut : Recut (remaining frames state.cursor) (added ++ remaining frames next.cursor)
  data : next.hasPositiveData = (state.hasPositiveData || added.any MuxFrame.bearsData)
  ok : next.cursor.Ok frames
  moved : next.cursor = state.cursor ∨ state.cursor.Before next.cursor
  some : added ≠ [] → state.cursor.Before next.cursor

theorem Appended.refl {state : RecordState}
    (ok : state.cursor.Ok frames) : Appended frames state state [] where
  buffer := by simp [wires]
  valid := by simp
  recut := .refl _
  data := by simp
  ok := ok
  moved := .inl rfl
  some contrary := absurd rfl contrary

theorem Appended.trans {first second third : RecordState} {added more : List MuxFrame}
    (one : Appended frames first second added) (two : Appended frames second third more) :
    Appended frames first third (added ++ more) where
  buffer := by rw [two.buffer, one.buffer, wires_append, append_assoc]
  valid := by exact forall_mem_append.mpr ⟨one.valid, two.valid⟩
  recut := by
    rw [append_assoc]
    exact one.recut.trans (two.recut.append_left added)
  data := by rw [two.data, one.data, any_append, Bool.or_assoc]
  ok := two.ok
  moved := by
    rcases one.moved with same | moved
    · rw [← same]
      exact two.moved
    · rcases two.moved with same | moved'
      · rw [same]
        exact .inr moved
      · exact .inr (moved.trans moved')
  some := by
    intro either
    by_cases none : added = []
    · have more' : more ≠ [] := fun empty => either (by rw [none, empty]; rfl)
      rcases one.moved with same | moved
      · rw [← same]
        exact two.some more'
      · exact moved.trans (two.some more')
    · have moved := one.some none
      rcases two.moved with same | moved'
      · rw [same]
        exact moved
      · exact moved.trans moved'

theorem length_payloads_drop_le (frames : List MuxFrame) (count : Nat) :
    (payloads (frames.drop count)).length ≤ (payloads frames).length := by
  have whole : payloads frames = payloads (frames.take count) ++ payloads (frames.drop count) := by
    rw [payloads, payloads, payloads, ← flatMap_append, take_append_drop]
  rw [whole, length_append]
  omega

theorem length_runBytes_le (frames : List MuxFrame) (offset : Nat) :
    (runBytes id frames offset).length ≤ (payloads frames).length := by
  induction frames generalizing offset with
  | nil => simp [runBytes, unread, dataRun, payloads]
  | cons frame rest ih =>
    cases data : frame.isDataOf id with
    | false =>
      rw [runBytes_of_not_data data]
      exact Nat.zero_le _
    | true =>
      have onward := ih 0
      have cut : payloads (frame :: rest) = frame.payload ++ payloads rest := flatMap_cons
      rw [runBytes_cons data, cut, length_append, length_append, length_drop]
      omega

theorem readyMuxDataRun_eq {frame : MuxFrame} {rest : List MuxFrame}
    (here : frames.drop cursor.frame = frame :: rest)
    (addressable : (payloads frames).length < 2 ^ 64) :
    readyMuxDataRun frames cursor =
      .ok (cursor.frame + (dataRun frame.streamId (unread (frame :: rest) cursor.offset)).length,
        (runBytes frame.streamId (frame :: rest) cursor.offset).length) := by
  have small := length_runBytes_le frame.streamId (frame :: rest) cursor.offset
  have fewer := length_payloads_drop_le frames cursor.frame
  rw [here] at fewer
  rw [readyMuxDataRun, here]
  simp only
  rw [dataRunLoop_eq _ _ _ _ _ (by omega), zero_add]

section Turn

variable {frames : List MuxFrame} {limit recordStart : Nat}
  {state : RecordState} {frame : MuxFrame} {rest : List MuxFrame}

def RecordState.used (state : RecordState) (recordStart : Nat) : Nat :=
  state.plaintextBuf.length - recordStart

theorem used_append {next : RecordState} {added : List MuxFrame}
    (buffer : next.plaintextBuf = state.plaintextBuf ++ wires added)
    (started : recordStart ≤ state.plaintextBuf.length) :
    next.used recordStart = state.used recordStart + (wires added).length := by
  rw [RecordState.used, RecordState.used, buffer, length_append]
  omega

/-- The outcome of a round: it appends frames within the limit and goes on only
at a later frame, or the record has frames already. -/
structure Turned (frames : List MuxFrame) (limit recordStart : Nat)
    (state next : RecordState) (again : Bool) : Prop where
  appended : ∃ added, Appended frames state next added ∧
    (added = [] → again = false ∧ 0 < state.used recordStart)
  bound : next.used recordStart ≤ limit
  later : again = true → state.cursor.frame < next.cursor.frame

theorem wholeTurn_spec (here : frames.drop state.cursor.frame = frame :: rest) (valid : frame.Valid)
    (fits : MUX_FRAME_FIXED_LEN + frame.payload.length ≤ limit)
    (quiet : frame.bearsData = false) (offset : state.cursor.offset = 0)
    (started : recordStart ≤ state.plaintextBuf.length) (within : state.used recordStart ≤ limit) :
    ∃ next again, wholeTurn frame limit (limit - state.used recordStart) state = .ok (next, again) ∧
      Turned frames limit recordStart state next again := by
  have ok : state.cursor.Ok frames := Or.inl offset
  simp only [wholeTurn, MuxFrame.encodedLen_of_valid valid, Except.mapError,
    bind, Except.bind, MuxFrame.encodeInto_of_valid valid]
  rw [if_neg (not_lt.mpr fits)]
  split
  next full =>
    refine ⟨state, false, rfl, ⟨[], .refl ok, ?_⟩, within, by simp⟩
    intro _
    exact ⟨rfl, by omega⟩
  next room =>
    have behind : frames.drop (state.cursor.frame + 1) = rest := by
      rw [← drop_drop, here]
      rfl
    have appended : Appended frames state
        { state with
          plaintextBuf := state.plaintextBuf ++ wire frame.streamId frame.kind frame.payload
          cursor := { state.cursor with frame := state.cursor.frame + 1 } }
        [frame] := by
      refine ⟨by rw [wires_singleton], by simpa using valid, ?_, by simp [quiet],
        .inl offset, .inr (.inl (Nat.lt_succ_self _)),
        fun _ => .inl (Nat.lt_succ_self _)⟩
      rw [remaining, here, remaining, behind, offset, unread_zero, unread_zero]
      exact .refl _
    refine ⟨_, true, rfl, ⟨[frame], appended, by simp⟩, ?_, fun _ => Nat.lt_succ_self _⟩
    rw [used_append appended.buffer started, length_wires_singleton]
    omega

theorem drop_unread {count : Nat} (pos : 0 < count) (frames : List MuxFrame) (offset : Nat) :
    (unread frames offset).drop count = frames.drop count := by
  obtain ⟨less, rfl⟩ : ∃ less, count = less + 1 := ⟨count - 1, by omega⟩
  cases frames <;> rfl

theorem bearsData_dataFrame (id : UInt32) {bytes : List UInt8}
    (some : bytes ≠ []) : (dataFrame id bytes).bearsData = true := by
  simp [MuxFrame.bearsData, dataFrame, some]

theorem dataTurn_spec (here : frames.drop state.cursor.frame = frame :: rest)
    (data : frame.kind = .data) (stream : frame.streamId ≠ 0) (ok : state.cursor.Ok frames)
    (some : 0 < (runBytes frame.streamId (frame :: rest) state.cursor.offset).length)
    (least : 14 ≤ limit) (most : limit < 2 ^ 16) (started : recordStart ≤ state.plaintextBuf.length)
    (within : state.used recordStart ≤ limit) :
    ∃ next again, dataTurn frames (limit - state.used recordStart) (state.used recordStart) state
        (state.cursor.frame + (dataRun frame.streamId
          (unread (frame :: rest) state.cursor.offset)).length)
        (runBytes frame.streamId (frame :: rest) state.cursor.offset).length = .ok (next, again) ∧
      Turned frames limit recordStart state next again := by
  rw [dataTurn]
  by_cases narrow : limit - state.used recordStart ≤ MUX_FRAME_FIXED_LEN
  · have begun : 0 < state.used recordStart := by
      simp only [MUX_FRAME_FIXED_LEN] at narrow
      omega
    rw [if_pos narrow, if_neg (by omega)]
    exact ⟨state, false, rfl, ⟨⟨[], .refl ok, fun _ => ⟨rfl, begun⟩⟩, within, by simp⟩⟩
  · rw [if_neg narrow]
    generalize total : runBytes frame.streamId (frame :: rest) state.cursor.offset = bytes
      at some ⊢
    obtain ⟨pos, atMost, room⟩ := muxRecordDataPieceLen_bounds some
      (show 0 < limit - state.used recordStart - MUX_FRAME_FIXED_LEN by omega)
    generalize muxRecordDataPieceLen bytes.length
      (limit - state.used recordStart - MUX_FRAME_FIXED_LEN) = take
      at pos atMost room ⊢
    obtain ⟨cursor, encoded, recut, ok', moved⟩ :=
      encodeMuxDataPiece_spec here stream ok pos (by omega)
        (by rw [total]; exact atMost) state.plaintextBuf
    rw [total] at encoded recut
    have bears : bytes.take take ≠ [] := by
      rw [← length_pos_iff, length_take]
      omega
    have length : (wires [dataFrame frame.streamId (bytes.take take)]).length =
        MUX_FRAME_FIXED_LEN + take := by
      rw [length_wires_singleton, dataFrame, length_take]
      omega
    have valid : (dataFrame frame.streamId (bytes.take take)).Valid := by
      refine ⟨by simp [dataFrame, stream], ?_⟩
      rw [dataFrame, length_take]
      omega
    simp only [encoded, Except.mapError, bind, Except.bind]
    by_cases more : take < bytes.length
    · rw [if_pos more]
      have appended : Appended frames state
          ⟨state.plaintextBuf ++ wires [dataFrame frame.streamId (bytes.take take)], cursor, true⟩
          [dataFrame frame.streamId (bytes.take take)] :=
        ⟨rfl, by simpa using valid, recut, by simp [bearsData_dataFrame _ bears], ok', .inr moved,
          fun _ => moved⟩
      refine ⟨_, false, rfl, ⟨_, appended, by simp⟩, ?_, by simp⟩
      rw [used_append appended.buffer started, length]
      omega
    · rw [if_neg more]
      have all : bytes.take take = bytes := take_of_length_le (by omega)
      rw [all] at bears length valid ⊢
      have run : 0 < (dataRun frame.streamId
          (unread (frame :: rest) state.cursor.offset)).length := by
        rw [unread, dataRun_cons_of_data (by simp [MuxFrame.isDataOf, data])]
        exact Nat.succ_pos _
      have later : state.cursor.frame < state.cursor.frame +
          (dataRun frame.streamId (unread (frame :: rest) state.cursor.offset)).length := by
        omega
      have whole := recut_run frame.streamId (frame :: rest) state.cursor.offset (by rwa [total])
      rw [total, drop_unread run] at whole
      have appended : Appended frames state
          ⟨state.plaintextBuf ++ wires [dataFrame frame.streamId bytes],
            ⟨state.cursor.frame + (dataRun frame.streamId
              (unread (frame :: rest) state.cursor.offset)).length, 0⟩, true⟩
          [dataFrame frame.streamId bytes] := by
        refine ⟨rfl, by simpa using valid, ?_, by simp [bearsData_dataFrame _ bears], .inl rfl,
          .inr (.inl later), fun _ => .inl later⟩
        rw [remaining, here, remaining, unread_zero, ← drop_drop, here]
        exact whole
      refine ⟨_, true, rfl, ⟨_, appended, by simp⟩, ?_, fun _ => later⟩
      rw [used_append appended.buffer started, length]
      omega

/-- Every round succeeds. -/
theorem recordTurn_spec (plannable : Plannable frames limit state.cursor)
    (inside : state.cursor.frame < frames.length)
    (started : recordStart ≤ state.plaintextBuf.length) (within : state.used recordStart ≤ limit) :
    ∃ next again, recordTurn frames limit recordStart state = .ok (next, again) ∧
      Turned frames limit recordStart state next again := by
  obtain ⟨frame, rest, here⟩ : ∃ frame rest, frames.drop state.cursor.frame = frame :: rest :=
    exists_cons_of_ne_nil (by
      rw [← length_pos_iff, length_drop]
      omega)
  have member : frame ∈ frames.drop state.cursor.frame := by
    rw [here]
    exact mem_cons_self
  have stream := plannable.streams frame (mem_of_mem_drop member)
  have ok := plannable.ok
  rw [MuxFrameCursor.Ok, here] at ok
  rw [recordTurn, here]
  simp only
  by_cases data : frame.kind = .data
  · rw [if_pos data, readyMuxDataRun_eq here plannable.addressable]
    simp only [Except.mapError, bind, Except.bind]
    by_cases some : 0 < (runBytes frame.streamId (frame :: rest) state.cursor.offset).length
    · rw [if_pos some]
      exact dataTurn_spec here data (by simpa [data] using stream)
        plannable.ok some plannable.least plannable.most started within
    · rw [if_neg some]
      -- an empty run: its first frame is empty and the offset is zero
      have empty : frame.payload.drop state.cursor.offset = [] := by
        rw [runBytes_cons (by simp [MuxFrame.isDataOf, data]), length_append] at some
        exact eq_nil_of_length_eq_zero (by omega)
      have short := congrArg List.length empty
      rw [length_drop, length_nil] at short
      have start : state.cursor.offset = 0 := by
        rcases ok with zero | ⟨other, behind, same, _, beyond⟩
        · exact zero
        · rw [List.cons.injEq] at same
          rw [← same.1] at beyond
          omega
      have none : frame.payload = [] := eq_nil_of_length_eq_zero (by omega)
      have least := plannable.least
      exact wholeTurn_spec here ⟨stream, by simp [none]⟩
        (by simp only [none, MUX_FRAME_FIXED_LEN, length_nil]; omega)
        (by simp [MuxFrame.bearsData, none]) start started within
  · rw [if_neg data]
    have fits := plannable.fits frame member data
    have most := plannable.most
    have start : state.cursor.offset = 0 := by
      rcases ok with zero | ⟨other, behind, same, kind, _⟩
      · exact zero
      · rw [List.cons.injEq] at same
        exact absurd (same.1 ▸ kind) data
    exact wholeTurn_spec here ⟨stream, by omega⟩ fits
      (by simp [MuxFrame.bearsData, data]) start started within

end Turn

end ParallaX.Mux
