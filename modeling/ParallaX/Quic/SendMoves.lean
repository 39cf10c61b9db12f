import ParallaX.Quic.Delivery

/-!
# What the table does to send buffers

Every operation of the stream table, seen from the sending side, is a sequence
of small moves: a stream is opened, changed or retired.
-/

namespace ParallaX.Quic

open ParallaX.Data Function Option

/-! ## Moves -/

/-- What an operation that sends nothing can do to a send buffer. -/
inductive BufferMove : SendBuffer → SendBuffer → Prop
  | queue (buffer : SendBuffer) (data : List UInt8) (unfinished : buffer.fin = false) :
      BufferMove buffer { buffer with send := buffer.send ++ data }
  | finish (buffer : SendBuffer) : BufferMove buffer { buffer with fin := true }
  | stop (buffer : SendBuffer) (errorCode : Nat) :
      BufferMove buffer
        { buffer with reset := some errorCode, retransmit := [] }
  | cancel (buffer : SendBuffer) : BufferMove buffer { buffer with resetAcked := false }
  | compact (buffer : SendBuffer) (low : Nat)
      (above : buffer.sendBase ≤ low) (sent : low ≤ buffer.sendOff)
      (queued : ∀ range ∈ buffer.retransmit, low ≤ range.offset)
      (flying : ∀ offset count, buffer.sentRangeOffsets[offset]? = some count → low ≤ offset) :
      BufferMove buffer
        { buffer with send := buffer.send.drop (low - buffer.sendBase), sendBase := low }

namespace SendingView

def isPeerInitiated (view : SendingView) (id : Nat) : Bool :=
  id.testBit 0 != decide (view.side = .server)

/-- The least id of a kind that this endpoint has not opened. -/
def nextOf (view : SendingView) (id : Nat) : Nat :=
  if isUni id then view.nextUni else view.nextBidi

def put (view : SendingView) (id : Nat) (buffer : Option SendBuffer) : SendingView :=
  { view with buffer := update view.buffer id buffer }

def advance (view : SendingView) (id : Nat) : SendingView :=
  if isUni id then { view with nextUni := max view.nextUni (id + 4) }
  else { view with nextBidi := max view.nextBidi (id + 4) }

/-- The steps that operations of the table are made of. -/
inductive Move : SendingView → SendingView → Prop
  | change {view : SendingView} {id : Nat} {old new : SendBuffer}
      (found : view.buffer id = some old) (moved : BufferMove old new) :
      Move view (view.put id (some new))
  | openNext {view : SendingView} {id : Nat} (peer : view.isPeerInitiated id = true)
      (frontier : view.opened (kindOf id) = id / 4) :
      Move view
        { view.put id (some Stream.fresh.toSendBuffer) with
          opened := update view.opened (kindOf id) (id / 4 + 1) }
  | create {view : SendingView} {id : Nat} (own : view.isPeerInitiated id = false)
      (unopened : view.nextOf id ≤ id) (absent : view.buffer id = none) :
      Move view ((view.put id (some Stream.fresh.toSendBuffer)).advance id)
  | advance {view : SendingView} {id : Nat} {buffer : SendBuffer}
      (own : view.isPeerInitiated id = false)
      (found : view.buffer id = some buffer) :
      Move view (view.advance id)
  | retire {view : SendingView} {id : Nat} {stream : Stream}
      (found : view.buffer id = some stream.toSendBuffer)
      (done : (isUni id && view.isPeerInitiated id || stream.resetAcked || stream.finAcked) = true)
      (idle : stream.sentRangeOffsets.isEmpty = true)
      (clear : stream.retransmit = []) :
      Move view
        { view.put id none with
          history :=
            { view.history with retired := view.history.retired ++ [(id, stream)] } }

def Moves : SendingView → SendingView → Prop := Relation.ReflTransGen Move

end SendingView

namespace Streams

open SendingView

def SendMoves (first second : Streams) : Prop := SendingView.Moves first.sending second.sending

namespace SendMoves

variable {first second third : Streams}

theorem refl (table : Streams) : SendMoves table table := Relation.ReflTransGen.refl

theorem of_sending (same : second.sending = first.sending) : SendMoves first second := by
  unfold SendMoves
  rw [same]
  exact Relation.ReflTransGen.refl

theorem single (move : Move first.sending second.sending) : SendMoves first second :=
  Relation.ReflTransGen.single move

theorem trans (moves : SendMoves first second)
    (more : SendMoves second third) : SendMoves first third :=
  Relation.ReflTransGen.trans moves more

end SendMoves

variable {id : Nat} (table : Streams)

theorem buffer_update {first second : Streams} {found : Option Stream}
    (lookup : ∀ other, second.streams[other]? =
      if id = other then found else first.streams[other]?) :
    second.buffer = update first.buffer id (found.map (·.toSendBuffer)) := by
  funext other
  rw [buffer, lookup, update_apply]
  by_cases same : id = other
  · rw [if_pos same, if_pos same.symm]
  · rw [if_neg same, if_neg (Ne.symm same)]
    rfl

theorem sendMoves_modifyStream {table : Streams} {change : Stream → Stream}
    (moved : ∀ stream, table.streams[id]? = some stream →
      (change stream).toSendBuffer = stream.toSendBuffer ∨
        BufferMove stream.toSendBuffer (change stream).toSendBuffer) :
    SendMoves table (table.modifyStream id change) := by
  have target : (table.modifyStream id change).sending =
      table.sending.put id
        (table.streams[id]?.map fun stream =>
          (change stream).toSendBuffer) := by
    unfold sending put
    rw [buffer_update fun other => lookup_modifyStream table id other change, map_map]
    rfl
  cases present : table.streams[id]? with
  | none =>
    apply SendMoves.of_sending
    rw [target, present, put, map_none]
    have absent : table.buffer id = none := by
      unfold buffer
      rw [present, map_none]
    have same : update table.sending.buffer id none = table.sending.buffer := by
      rw [← absent]
      exact update_eq_self id table.buffer
    rw [same]
  | some stream =>
    rw [present, map_some] at target
    have found : table.sending.buffer id = some stream.toSendBuffer := buffer_of_lookup present
    rcases moved stream present with same | move
    · apply SendMoves.of_sending
      rw [target, put, same, ← found, update_eq_self]
    · apply SendMoves.single
      rw [target]
      exact .change found move

theorem sendMoves_retireStream (id : Nat) : SendMoves table (table.retireStream id) := by
  apply retireStream_rule _ (.refl table)
  intro second stream retires
  have found := buffer_of_lookup retires.present
  have ready := retires.ready
  simp only [retirable, Bool.and_eq_true] at ready
  obtain ⟨⟨⟨sendDone, -⟩, idle⟩, clear⟩ := ready
  have history : second.toStreamHistory = ⟨table.ackedRanges, table.retired ++ [(id, stream)]⟩ := by
    rw [← retires.retired, ← retires.ackedRanges]
  have target : second.sending =
      { table.sending.put id none with
        history :=
          { table.sending.history with
            retired := table.sending.history.retired ++ [(id, stream)] } } := by
    unfold sending put
    rw [buffer_update retires.lookup, history, retires.side, retires.opened,
      retires.nextBidi, retires.nextUni, map_none]
  apply SendMoves.single
  rw [target]
  exact .retire found sendDone idle (List.isEmpty_iff.mp clear)

/-! ## Operations -/

theorem sending_creditConnectionWindow (bytes : Nat) :
    (table.creditConnectionWindow bytes).sending = table.sending := by
  unfold creditConnectionWindow
  split <;> rfl

theorem sendMoves_openNext {table : Streams} (peer : table.isPeerInitiated id = true)
    (frontier : table.peerStreamsOpened (kindOf id) = id / 4) :
    SendMoves table (table.openNext id) := by
  have target : (table.openNext id).sending =
      { table.sending.put id (some Stream.fresh.toSendBuffer) with
        opened := update table.sending.opened (kindOf id) (id / 4 + 1) } := by
    have side : (table.openNext id).side = table.side := side_openPeerStream table id
    unfold sending put
    rw [buffer_update (lookup_openNext table id), toStreamHistory_openNext, side, openNext,
      openPeerStream_eq]
    rfl
  apply SendMoves.single
  rw [target]
  exact .openNext peer frontier

theorem sendMoves_ensureStream
    {table : Streams} (alive : table.streamRetired id = false) (ty : Nat) :
    SendMoves table (table.ensureStream id ty).1 := by
  apply ensureStream_rule _ alive (.refl table)
  intro _ _ moves peer frontier
  exact moves.trans (sendMoves_openNext peer frontier)

theorem sendMoves_discardStreamRecv (id : Nat) : SendMoves table (table.discardStreamRecv id) := by
  unfold discardStreamRecv
  cases table.streams[id]? with
  | none => exact .refl table
  | some =>
    refine .trans (.of_sending ?_) (sendMoves_retireStream _ id)
    rw [sending_creditConnectionWindow]
    have same : (table.modifyStream id .discardRecv).sending = table.sending :=
      sending_modifyStream fun _ => rfl
    exact same

theorem sendMoves_readStream (id : Nat) : SendMoves table (table.readStream id).1 := by
  unfold readStream
  cases table.streams[id]? with
  | none => exact .refl table
  | some =>
    refine .trans (.of_sending ?_) (sendMoves_retireStream _ id)
    rw [sending_creditConnectionWindow]
    exact sending_modifyStream fun _ => rfl

theorem sendMoves_acceptBiLoop (rounds : Nat) (table : Streams) :
    SendMoves table (acceptBiLoop rounds table).1 := by
  induction rounds generalizing table with
  | zero => exact .refl table
  | succ _ ih =>
    unfold acceptBiLoop
    cases table.acceptBidi with
    | nil => exact .refl table
    | cons id queue =>
      have popped : SendMoves table { table.noteTaken .bidi id with acceptBidi := queue } :=
        .of_sending rfl
      dsimp only
      split
      · exact popped.trans ((sendMoves_discardStreamRecv _ id).trans (ih _))
      · exact popped

theorem sending_chargeStream (id newHigh delta : Nat) (recvFin : Option Nat) :
    (table.chargeStream id newHigh delta recvFin).sending = table.sending := by
  have same : (table.modifyStream id (·.charge newHigh recvFin)).sending = table.sending :=
    sending_modifyStream fun _ => rfl
  exact same

theorem sendMoves_storeStream (id offset : Nat) (fin : Bool) (data : List UInt8)
    (newHigh delta : Nat) :
    SendMoves table (table.storeStream id offset fin data newHigh delta).1 := by
  unfold storeStream
  cases table.streams[id]? with
  | none => exact .refl table
  | some stream =>
    dsimp only
    split
    · exact .refl table
    have charged := sending_chargeStream table id newHigh delta
      (if fin then some (offset + data.length) else none)
    generalize table.chargeStream id newHigh delta
      (if fin then some (offset + data.length) else none) = next at charged ⊢
    split
    · refine .trans (.of_sending ?_) (sendMoves_retireStream _ id)
      rw [sending_creditConnectionWindow, ← charged]
      exact sending_modifyStream fun _ => rfl
    split
    · apply bufferFragment_rule (.of_sending charged)
      intro _
      apply SendMoves.of_sending
      have held : (next.modifyStream id (·.hold offset data)).sending = next.sending :=
        sending_modifyStream fun _ => rfl
      exact held.trans charged
    · apply SendMoves.of_sending
      have absorbed : (next.modifyStream id
          (·.absorb (drainContiguous stream.recvPending stream.recvOff offset
            data stream.recv))).sending = next.sending :=
        sending_modifyStream fun _ => rfl
      exact absorbed.trans charged

theorem sendMoves_storeReset (id code size delta : Nat) :
    SendMoves table (table.storeReset id code size delta).1 := by
  unfold storeReset
  cases table.streams[id]? with
  | none => exact .refl table
  | some =>
    have charged : (table.modifyStream id (·.resetRecv code size)).sending = table.sending :=
      sending_modifyStream fun _ => rfl
    refine .trans (.of_sending ?_) (sendMoves_retireStream _ id)
    split
    · unfold releaseReset
      rw [sending_creditConnectionWindow]
      have released (next : Streams) (credit : Nat) :
          (next.modifyStream id (·.releaseReset credit)).sending = next.sending :=
        sending_modifyStream fun _ => rfl
      exact (released _ _).trans charged
    · exact charged

theorem sendMoves_recvStream (id offset : Nat) (fin : Bool) (data : List UInt8) :
    SendMoves table (table.recvStream id offset fin data).1 := by
  rcases recvStream_cases table id offset fin data with
    ⟨_, refused⟩ | ⟨-, ignored⟩ | ⟨ensured, _, reaches, -, stored⟩
  · rw [refused]
    exact .refl table
  · rw [ignored]
    exact .refl table
  · rw [stored]
    have opened := sendMoves_ensureStream reaches.alive 0x08
    rw [reaches.accepted] at opened
    exact opened.trans (sendMoves_storeStream ensured id offset fin data _ _)

theorem sendMoves_recvResetStream (id code size : Nat) :
    SendMoves table (table.recvResetStream id code size).1 := by
  rcases recvResetStream_cases table id code size with
    ⟨_, refused⟩ | ⟨ensured, _, reaches, -, stored⟩
  · rw [refused]
    exact .refl table
  · rw [stored]
    have opened := sendMoves_ensureStream reaches.alive 0x04
    rw [reaches.accepted] at opened
    exact opened.trans (sendMoves_storeReset ensured id code size _)

theorem sending_ensurePeerFlow (params : Option TransportParameters) :
    (table.ensurePeerFlow params).sending = table.sending := by
  unfold ensurePeerFlow
  by_cases applied : table.peerFlowApplied = true
  · rw [if_pos applied]
  · rw [if_neg applied]
    cases params with
    | none => rfl
    | some => exact sending_map fun _ _ => rfl

theorem sending_advanceNext {table : Streams} (own : table.isPeerInitiated id = false) :
    (table.advanceNext id).sending = table.sending.advance id := by
  unfold advanceNext SendingView.advance
  rw [own, if_neg Bool.false_ne_true]
  by_cases uni : isUni id = true
  · rw [if_pos uni, if_pos uni]
    rfl
  · rw [if_neg uni, if_neg uni]
    rfl

theorem sending_insertFresh (id : Nat) :
    sending { table with streams := table.streams.insert id .fresh } =
      table.sending.put id (some Stream.fresh.toSendBuffer) := by
  unfold sending put
  rw [buffer_update fun _ => lookup_insert _ _ _ Stream.fresh]
  rfl

/-- Advancing past a stream that is there changes only the allocator. -/
theorem sendMoves_advanceNext {table : Streams} (present : table.streams.contains id = true) :
    SendMoves table (table.advanceNext id) := by
  cases peer : table.isPeerInitiated id with
  | true =>
    unfold advanceNext
    rw [peer, if_pos rfl]
    exact .refl table
  | false =>
    rw [contains_eq_buffer] at present
    obtain ⟨_, found⟩ := isSome_iff_exists.mp present
    apply SendMoves.single
    rw [sending_advanceNext peer]
    exact .advance peer found

theorem sendMoves_createLocalStream
    {table : Streams} (known : table.known id = true) (params : Option TransportParameters) :
    SendMoves table (table.createLocalStream params id) := by
  unfold createLocalStream
  by_cases gone : table.streamRetired id = true
  · rw [if_pos gone]
    exact .refl table
  rw [if_neg gone]
  have flowing := sending_ensurePeerFlow table params
  have peer := isPeerInitiated_of_side (congrArg SendingView.side flowing) id
  have contained : (table.ensurePeerFlow params).streams.contains id =
      table.streams.contains id := by
    rw [contains_eq_buffer, contains_eq_buffer]
    exact congrArg (fun view => (view.buffer id).isSome) flowing
  dsimp only
  generalize table.ensurePeerFlow params = ready at flowing peer contained ⊢
  have limited : ∀ (next : Streams) (limit : Nat),
      (next.modifyStream id fun stream =>
        { stream with sendMax := max stream.sendMax limit }).sending = next.sending :=
    fun _ _ => sending_modifyStream fun _ => rfl
  have raised := limited (ready.orInsertFresh id) (ready.peerSendLimit id)
  generalize ((ready.orInsertFresh id).modifyStream id fun stream =>
    { stream with sendMax := max stream.sendMax (ready.peerSendLimit id) }) = limited at raised ⊢
  unfold orInsertFresh at raised
  by_cases found : table.streams.contains id = true
  · rw [contained, if_pos found, flowing] at raised
    refine (SendMoves.of_sending raised).trans (sendMoves_advanceNext ?_)
    rw [contains_eq_buffer] at found ⊢
    rw [← found]
    exact congrArg (fun view => (view.buffer id).isSome) raised
  · rw [contained, if_neg found, sending_insertFresh, flowing] at raised
    rw [Bool.not_eq_true] at found gone
    have own : table.isPeerInitiated id = false := by
      simpa [known, Streams.known, found, gone] using known
    have unopened : table.sending.nextOf id ≤ id := by
      rw [streamRetired, found, if_neg Bool.false_ne_true, own, if_neg Bool.false_ne_true] at gone
      exact Nat.le_of_not_lt (of_decide_eq_false gone)
    have absent : table.buffer id = none := by
      rw [contains_eq_buffer] at found
      exact not_isSome_iff_eq_none.mp (by rw [found]; decide)
    have ours := (isPeerInitiated_of_side (congrArg SendingView.side raised) id).trans own
    apply SendMoves.single
    rw [sending_advanceNext ours, raised]
    exact .create own unopened absent

theorem foldl_min_le {α : Type} (size : α → Nat) (items : List α) (start : Nat) :
    items.foldl (fun low item => min low (size item)) start ≤ start ∧
      ∀ item ∈ items, items.foldl (fun low item => min low (size item)) start ≤ size item := by
  induction items generalizing start with
  | nil => exact ⟨le_rfl, nofun⟩
  | cons first _ ih =>
    obtain ⟨below, others⟩ := ih (min start (size first))
    exact ⟨below.trans (min_le_left _ _),
      List.forall_mem_cons.mpr ⟨below.trans (min_le_right _ _), others⟩⟩

theorem lowestNeeded_le (stream : Stream) :
    lowestNeeded stream ≤ stream.sendOff ∧
      (∀ range ∈ stream.retransmit, lowestNeeded stream ≤ range.offset) ∧
      ∀ offset count, stream.sentRangeOffsets[offset]? = some count →
        lowestNeeded stream ≤ offset := by
  obtain ⟨start, queued⟩ := foldl_min_le (·.offset) stream.retransmit stream.sendOff
  unfold lowestNeeded
  cases isHead : stream.sentRangeOffsets.toList.head? with
  | none =>
    refine ⟨start, queued, ?_⟩
    intro offset count found
    rw [head_eq_none isHead] at found
    cases found
  | some oldest =>
    have least := min_le_left
      (stream.retransmit.foldl (fun low range => min low range.offset) stream.sendOff) oldest.1
    refine ⟨least.trans start, ?_, ?_⟩
    · intro range member
      exact least.trans (queued range member)
    · intro _ _ found
      exact (min_le_right _ _).trans (head_le isHead found)

theorem sendMoves_compactSendBuffer (id : Nat) : SendMoves table (table.compactSendBuffer id) := by
  apply sendMoves_modifyStream
  intro stream _
  obtain ⟨sent, queued, flying⟩ := lowestNeeded_le stream
  unfold compactStream
  dsimp only
  split
  · exact .inl rfl
  next reclaims =>
    have above : stream.sendBase ≤ lowestNeeded stream := by omega
    exact .inr (.compact _ _ above sent queued flying)

theorem sendMoves_op {table other : Streams} (changed : Op table other) :
    SendMoves table other := by
  cases changed with
  | recvStream id offset fin data => exact sendMoves_recvStream table id offset fin data
  | recvResetStream id code size => exact sendMoves_recvResetStream table id code size
  | readStream id => exact sendMoves_readStream table id
  | discardStreamRecv id => exact sendMoves_discardStreamRecv table id
  | acceptBi => exact sendMoves_acceptBiLoop _ table
  | retireStream id => exact sendMoves_retireStream table id
  | ensureStream _ ty alive => exact sendMoves_ensureStream alive ty
  | createLocalStream params _ known => exact sendMoves_createLocalStream known params
  | queueData _ data =>
    apply sendMoves_modifyStream
    intro stream found
    split
    · exact .inl rfl
    next writable =>
      rw [Bool.or_eq_true, not_or, Bool.not_eq_true] at writable
      exact .inr (.queue _ data writable.1)
  | finishStream =>
    apply sendMoves_modifyStream
    intro stream found
    exact .inr (.finish _)
  | stopSend _ code =>
    apply sendMoves_modifyStream
    intro stream found
    split
    · exact .inr (.stop _ code)
    · exact .inl rfl
  | markCancelled =>
    apply sendMoves_modifyStream
    intro _ _
    split
    · exact .inl rfl
    · exact .inr (.cancel _)
  | compactSendBuffer id => exact sendMoves_compactSendBuffer table id
  | acceptUni => exact .of_sending (by unfold takeAcceptUni; split <;> rfl)
  | raiseMaxData | raiseMaxStreams => exact .of_sending rfl
  | raiseMaxStreamData | markResetSent => exact .of_sending (sending_modifyStream fun _ => rfl)
  | flowUpdateSent => exact .of_sending (sending_flowUpdateSent table)

end Streams

/-! ## Stream ids -/

namespace SendingView

def wasOpened (view : SendingView) (id : Nat) : Bool :=
  if view.isPeerInitiated id then id / 4 < view.opened (kindOf id)
  else id < view.nextOf id

/-- Stream ids are handed out in order: the ids this endpoint opens next are
its own, and every live stream was opened. -/
structure Numbered (side : Side) (view : SendingView) : Prop where
  side : view.side = side
  bidi : view.isPeerInitiated view.nextBidi = false
  uni : view.isPeerInitiated view.nextUni = false
  live : ∀ id buffer, view.buffer id = some buffer → view.wasOpened id = true

variable (view : SendingView) (id : Nat)

theorem wasOpened_iff :
    view.wasOpened id = true ↔
      (view.isPeerInitiated id = true → id / 4 < view.opened (kindOf id)) ∧
        (view.isPeerInitiated id = false → id < view.nextOf id) := by
  unfold wasOpened
  cases view.isPeerInitiated id with
  | true => simp
  | false => simp

theorem wasOpened_mono {first second : SendingView} {id : Nat} (side : second.side = first.side)
    (opened : first.opened (kindOf id) ≤ second.opened (kindOf id))
    (next : first.nextOf id ≤ second.nextOf id)
    (before : first.wasOpened id = true) : second.wasOpened id = true := by
  have peer : second.isPeerInitiated id = first.isPeerInitiated id := by
    rw [isPeerInitiated, isPeerInitiated, side]
  rw [wasOpened_iff] at before ⊢
  rw [peer]
  refine ⟨?_, ?_⟩
  · intro isPeer
    exact (before.1 isPeer).trans_le opened
  · intro own
    exact (before.2 own).trans_le next

theorem nextOf_le_advance (other : Nat) : view.nextOf other ≤ (view.advance id).nextOf other := by
  unfold advance nextOf
  by_cases uni : isUni id = true
  · rw [if_pos uni]
    by_cases otherUni : isUni other = true
    · rw [if_pos otherUni, if_pos otherUni]
      exact le_max_left _ _
    · rw [if_neg otherUni, if_neg otherUni]
  · rw [if_neg uni]
    by_cases otherUni : isUni other = true
    · rw [if_pos otherUni, if_pos otherUni]
    · rw [if_neg otherUni, if_neg otherUni]
      exact le_max_left _ _

theorem lt_nextOf_advance : id < (view.advance id).nextOf id := by
  unfold advance nextOf
  by_cases uni : isUni id = true
  · rw [if_pos uni, if_pos uni]
    exact lt_of_lt_of_le (by omega : id < id + 4) (le_max_right _ _)
  · rw [if_neg uni, if_neg uni]
    exact lt_of_lt_of_le (by omega : id < id + 4) (le_max_right _ _)

theorem side_advance : (view.advance id).side = view.side := by
  unfold advance
  split <;> rfl

theorem buffer_advance : (view.advance id).buffer = view.buffer := by
  unfold advance
  split <;> rfl

theorem opened_advance : (view.advance id).opened = view.opened := by
  unfold advance
  split <;> rfl

theorem isPeerInitiated_max_add_four {view : SendingView} {next id : Nat}
    (ours : view.isPeerInitiated next = false) (own : view.isPeerInitiated id = false) :
    view.isPeerInitiated (max next (id + 4)) = false := by
  have bit : (id + 4).testBit 0 = id.testBit 0 := by
    rw [Nat.testBit_zero, Nat.testBit_zero]
    congr 2
    omega
  rcases le_total next (id + 4) with below | above
  · rw [max_eq_right below, isPeerInitiated, bit]
    exact own
  · rw [Nat.max_eq_left above]
    exact ours

namespace Numbered

variable {side : Side} {view : SendingView} {id : Nat}

theorem new (side : Side) (maxSent : Dir → Nat) :
    Numbered side (Streams.new side (Streams.firstBidi side)
      (Streams.firstUni side) maxSent).sending := by
  have empty id buffer : (Streams.new side (Streams.firstBidi side)
      (Streams.firstUni side) maxSent).buffer id = some buffer →
        False := by
    intro found
    obtain ⟨_, present, -⟩ := map_eq_some_iff.mp found
    cases present
  cases side with
  | client =>
    have bidi : ((0 : Nat).testBit 0 != decide (Side.client = .server)) = false := by decide
    have uni : ((2 : Nat).testBit 0 != decide (Side.client = .server)) = false := by decide
    exact ⟨rfl, bidi, uni, fun id buffer found =>
      (empty id buffer found).elim⟩
  | server =>
    have bidi : ((1 : Nat).testBit 0 != decide (Side.server = .server)) = false := by decide
    have uni : ((3 : Nat).testBit 0 != decide (Side.server = .server)) = false := by decide
    exact ⟨rfl, bidi, uni, fun id buffer found =>
      (empty id buffer found).elim⟩

theorem put (inv : Numbered side view) (opened : view.wasOpened id = true)
    (buffer : Option SendBuffer) : Numbered side (view.put id buffer) := by
  refine ⟨inv.side, inv.bidi, inv.uni, ?_⟩
  intro other after found
  by_cases same : other = id
  · rw [same]
    exact opened
  · exact inv.live other after ((update_of_ne same _ _).symm.trans found)

/-- Advancing past an own id keeps the order, and that stream was opened. -/
theorem advance (inv : Numbered side view) (own : view.isPeerInitiated id = false) :
    Numbered side (view.advance id) := by
  have peer other : (view.advance id).isPeerInitiated other = view.isPeerInitiated other := by
    rw [isPeerInitiated, isPeerInitiated, side_advance]
  refine ⟨(side_advance view id).trans inv.side, ?_, ?_, ?_⟩
  · rw [peer]
    unfold SendingView.advance
    split
    · exact inv.bidi
    · exact isPeerInitiated_max_add_four inv.bidi own
  · rw [peer]
    unfold SendingView.advance
    split
    · exact isPeerInitiated_max_add_four inv.uni own
    · exact inv.uni
  · intro other buffer found
    rw [buffer_advance] at found
    apply wasOpened_mono (side_advance view id) _ _ (inv.live other buffer found)
    · rw [opened_advance]
    · exact nextOf_le_advance view id other

theorem openNext (inv : Numbered side view) (frontier : view.opened (kindOf id) = id / 4) :
    Numbered side
      { view with opened := update view.opened (kindOf id) (id / 4 + 1) } := by
  refine ⟨inv.side, inv.bidi, inv.uni, ?_⟩
  intro other buffer found
  refine wasOpened_mono ?_ ?_ ?_ (inv.live other buffer found)
  · rfl
  · dsimp only
    rw [update_apply]
    split
    next same =>
      rw [same, frontier]
      exact Nat.le_succ _
    · exact le_rfl
  · exact le_rfl

theorem move {first second : SendingView} (inv : Numbered side first)
    (move : Move first second) : Numbered side second := by
  cases move with
  | @change id old _ found => exact inv.put (inv.live id old found) _
  | @openNext id peer frontier =>
    have opened := inv.openNext frontier
    apply opened.put
    rw [wasOpened_iff]
    refine ⟨?_, ?_⟩
    · intro _
      dsimp only
      rw [update_self]
      exact Nat.lt_succ_self _
    · intro own
      have isPeer : isPeerInitiated
          { first with opened := update first.opened (kindOf id) (id / 4 + 1) } id = true := peer
      rw [isPeer] at own
      cases own
  | @create id own =>
    have swapped :
        (first.put id (some Stream.fresh.toSendBuffer)).advance id =
          (first.advance id).put id (some Stream.fresh.toSendBuffer) := by
      unfold SendingView.advance
      split <;> rfl
    rw [swapped]
    apply (inv.advance own).put
    rw [wasOpened_iff]
    refine ⟨?_, fun _ => lt_nextOf_advance first id⟩
    intro isPeer
    rw [isPeerInitiated, side_advance] at isPeer
    rw [isPeerInitiated, isPeer] at own
    cases own
  | advance own => exact inv.advance own
  | @retire id _ found =>
    have removed := inv.put (inv.live id _ found) none
    exact { removed with }

theorem moves {first second : SendingView} (moves : Moves first second)
    (inv : Numbered side first) : Numbered side second := by
  induction moves with
  | refl => exact inv
  | tail _ move ih => exact ih.move move

end Numbered

end SendingView

end ParallaX.Quic
