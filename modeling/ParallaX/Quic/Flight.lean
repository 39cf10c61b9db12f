import ParallaX.Quic.SendMoves

/-!
# What packets do to send buffers

A packet that is sent, acknowledged or lost changes the send buffer of the
stream whose range it carries.
-/

namespace ParallaX.Quic

open ParallaX.Data

namespace SendBuffer

variable (buffer : SendBuffer)

def indexed (offset : Nat) : SendBuffer :=
  { buffer with
    sentRangeOffsets :=
      buffer.sentRangeOffsets.insert offset (buffer.sentRangeOffsets[offset]?.getD 0 + 1) }

def unindexed (offset : Nat) : SendBuffer :=
  { buffer with sentRangeOffsets := Streams.unindexOffset buffer.sentRangeOffsets offset }

def advanced (chunk : Streams.Chunk) : SendBuffer :=
  { buffer with sendOff := chunk.finish, finSent := buffer.finSent || chunk.fin }

/-- The first lost range was sent again, wholly or up to where it was cut. -/
def resent (chunk : Streams.Chunk) : SendBuffer :=
  match buffer.retransmit with
  | [] => buffer
  | range :: rest =>
    if chunk.len = range.len then
      { buffer with retransmit := rest }
    else
      { buffer with
        retransmit :=
          { offset := chunk.finish
            len := range.len - chunk.len
            fin := range.fin } :: rest }

def resentWhole : SendBuffer := { buffer with retransmit := buffer.retransmit.tail }

def finAcknowledged : SendBuffer := { buffer with finAcked := true }

def resetAcknowledged : SendBuffer := { buffer with resetAcked := true }

/-- A lost range waits to be sent again unless the stream was reset. -/
def requeued (range : StreamRange) : SendBuffer :=
  if buffer.reset.isNone then { buffer with retransmit := buffer.retransmit ++ [range] }
  else buffer

end SendBuffer

/-! ## The sending side -/

namespace SendingView

def modify (view : SendingView) (id : Nat) (effect : SendBuffer → SendBuffer) : SendingView :=
  view.put id ((view.buffer id).map effect)

def index (view : SendingView) (entry : Nat × StreamRange) : SendingView :=
  view.modify entry.1 (·.indexed entry.2.offset)

def unindex (view : SendingView) (entry : Nat × StreamRange) : SendingView :=
  view.modify entry.1 (·.unindexed entry.2.offset)

def ackRange (view : SendingView) (entry : Nat × StreamRange) : SendingView :=
  if entry.2.fin then view.modify entry.1 SendBuffer.finAcknowledged else view

def ackReset (view : SendingView) (id : Nat) : SendingView :=
  view.modify id SendBuffer.resetAcknowledged

def noteAcked (view : SendingView) (ranges : List (Nat × StreamRange)) : SendingView :=
  { view with history := { view.history with ackedRanges := view.history.ackedRanges ++ ranges } }

def chunkSent (view : SendingView) (id : Nat) (chunk : Streams.Chunk) : SendingView :=
  view.modify id fun buffer =>
    if chunk.isRetransmit then buffer.resent chunk else buffer.advanced chunk

def zeroRttChunkSent (view : SendingView) (id : Nat) (chunk : Streams.Chunk) : SendingView :=
  view.modify id fun buffer =>
    if chunk.isRetransmit then buffer.resentWhole else buffer.advanced chunk

end SendingView

namespace Streams

theorem sending_modify {table : Streams} {id : Nat} {change : Stream → Stream}
    {effect : SendBuffer → SendBuffer}
    (agrees : ∀ stream, (change stream).toSendBuffer = effect stream.toSendBuffer) :
    (table.modifyStream id change).sending = table.sending.modify id effect := by
  have changed : (table.streams[id]?.map change).map (·.toSendBuffer) =
      (table.buffer id).map effect := by
    rw [buffer, Option.map_map, Option.map_map]
    exact congrArg (Option.map · _) (funext agrees)
  unfold sending SendingView.modify SendingView.put
  rw [buffer_update fun other => lookup_modifyStream table id other change, changed]
  rfl

variable (table : Streams) (content : SentContent) (entry : Nat × StreamRange)

theorem sending_indexSentStreamRanges :
    (table.indexSentStreamRanges content).sending =
      content.stream.foldl SendingView.index table.sending := by
  refine (List.foldl_hom sending ?_).symm
  intro _ _
  exact (sending_modify fun _ => rfl).symm

theorem sending_unindexSentStreamRanges :
    (table.unindexSentStreamRanges content).sending =
      content.stream.foldl SendingView.unindex table.sending := by
  refine (List.foldl_hom sending ?_).symm
  intro _ _
  exact (sending_modify fun _ => rfl).symm

theorem sending_ackRange : (table.ackRange entry).sending = table.sending.ackRange entry := by
  unfold ackRange SendingView.ackRange
  by_cases fin : entry.2.fin = true
  · rw [if_pos fin, if_pos fin]
    exact sending_modify fun _ => rfl
  · rw [if_neg fin, if_neg fin]

theorem sending_markAcked :
    (table.markAcked content).sending =
      content.reset.foldl SendingView.ackReset
        ((content.stream.foldl SendingView.ackRange table.sending).noteAcked content.stream) := by
  have marked (next : Streams) : (content.reset.foldl ackReset next).sending =
        content.reset.foldl .ackReset next.sending := by
    refine (List.foldl_hom sending ?_).symm
    intro table _
    exact (sending_modify fun _ => rfl).symm
  have finished :
      (content.stream.foldl ackRange table).sending =
        content.stream.foldl .ackRange table.sending := by
    refine (List.foldl_hom sending ?_).symm
    intro table entry
    exact (sending_ackRange table entry).symm
  have history : (content.stream.foldl ackRange table).ackedRanges = table.ackedRanges := by
    apply foldl_unseen (·.ackedRanges)
    intro table _
    unfold ackRange
    split <;> rfl
  unfold markAcked
  rw [marked, ← finished]
  generalize content.stream.foldl ackRange table = next at history ⊢
  rw [← history]
  rfl

variable (id : Nat) (chunk : Chunk)

theorem sending_advanceFresh :
    (table.advanceFresh id chunk).sending = table.sending.modify id (·.advanced chunk) := by
  have advanced :
      (table.modifyStream id fun stream =>
        { stream with sendOff := chunk.finish, finSent := stream.finSent || chunk.fin }).sending =
      table.sending.modify id (·.advanced chunk) :=
    sending_modify fun _ => rfl
  exact advanced

theorem sending_chunkSent :
    (table.chunkSent id chunk).sending = table.sending.chunkSent id chunk := by
  unfold chunkSent SendingView.chunkSent
  by_cases resend : chunk.isRetransmit = true
  · rw [if_pos resend]
    apply sending_modify
    intro stream
    rw [if_pos resend]
    unfold SendBuffer.resent
    cases stream.retransmit with
    | nil => rfl
    | cons =>
      dsimp only
      split <;> rfl
  · rw [if_neg resend]
    rw [sending_advanceFresh]
    congr 1
    funext buffer
    rw [if_neg resend]

theorem sending_zeroRttChunkSent :
    (table.zeroRttChunkSent id chunk).sending = table.sending.zeroRttChunkSent id chunk := by
  unfold zeroRttChunkSent SendingView.zeroRttChunkSent
  by_cases resend : chunk.isRetransmit = true
  · rw [if_pos resend]
    apply sending_modify
    intro _
    rw [if_pos resend]
    rfl
  · rw [if_neg resend]
    rw [sending_advanceFresh]
    congr 1
    funext buffer
    rw [if_neg resend]

/-- Of a lost packet, only its ranges matter to the sending side. -/
theorem sending_requeue :
    (table.requeue content).sending = (content.stream.foldl requeueRange table).sending := by
  have grown : ∀ next : Streams, (content.maxStreamData.foldl rearmWindow next).sending =
        next.sending := by
    apply foldl_unseen sending
    intro next id
    exact sending_modifyStream fun _ => rfl
  have rearmed : ∀ next : Streams,
      (content.reset.foldl rearmReset next).sending = next.sending := by
    apply foldl_unseen sending
    intro _ _
    apply sending_modifyStream
    intro _
    split <;> rfl
  exact (rearmed _).trans (grown _)

/-- A lost range waits again, and its stream may then be retired. -/
theorem sendMoves_requeueRange :
    SendingView.Moves (table.sending.modify entry.1 (·.requeued entry.2))
      (table.requeueRange entry).sending := by
  have queued :
      (table.modifyStream entry.1 fun stream =>
        if stream.reset.isNone then { stream with retransmit := stream.retransmit ++ [entry.2] }
        else stream).sending = table.sending.modify entry.1 (·.requeued entry.2) := by
    apply sending_modify
    intro stream
    unfold SendBuffer.requeued
    split <;> rfl
  have retired := sendMoves_retireStream
    (table.modifyStream entry.1 fun stream =>
      if stream.reset.isNone then { stream with retransmit := stream.retransmit ++ [entry.2] }
      else stream) entry.1
  unfold SendMoves at retired
  rw [queued] at retired
  exact retired

end Streams

/-! ## Stream ids along a run -/

namespace SendingView

variable {view : SendingView}

theorem Numbered.modify {side : Side} (inv : Numbered side view)
    (id : Nat) (effect : SendBuffer → SendBuffer) : Numbered side (view.modify id effect) := by
  unfold SendingView.modify
  cases found : view.buffer id with
  | none =>
    have same : view.put id (none : Option SendBuffer) = view := by
      unfold SendingView.put
      rw [← found, Function.update_eq_self]
    rw [Option.map_none, same]
    exact inv
  | some buffer => exact inv.put (inv.live id buffer found) _

theorem Numbered.foldl {side : Side} {α : Type} {change : SendingView → α → SendingView}
    (kept : ∀ view entry, Numbered side view → Numbered side (change view entry))
    (entries : List α) (inv : Numbered side view) : Numbered side (entries.foldl change view) := by
  induction entries generalizing view with
  | nil => exact inv
  | cons entry _ ih => exact ih (kept view entry inv)

end SendingView

namespace Delivery

open SendingView

variable {side : Side} {view : Delivery}

theorem numbered_store (inv : Numbered side view.table.sending)
    (space : SpaceId) (pn : Nat) (content : SentContent) :
    Numbered side (view.store space pn content).table.sending := by
  unfold store
  split
  · rw [Streams.sending_indexSentStreamRanges]
    exact .foldl (fun _ _ inv => inv.modify _ _) _ inv
  · exact inv

theorem numbered_take (inv : Numbered side view.table.sending)
    (space : SpaceId) (pn : Nat) (content : SentContent) :
    Numbered side (view.take space pn content).table.sending := by
  unfold take
  split
  · rw [Streams.sending_unindexSentStreamRanges]
    exact .foldl (fun _ _ inv => inv.modify _ _) _ inv
  · exact inv

theorem numbered_markAcked
    {table : Streams} (inv : Numbered side table.sending) (content : SentContent) :
    Numbered side (table.markAcked content).sending := by
  rw [Streams.sending_markAcked]
  apply Numbered.foldl (fun _ _ inv => inv.modify _ _)
  have finished : Numbered side (content.stream.foldl ackRange table.sending) := by
    apply Numbered.foldl _ _ inv
    intro _ _ inv
    unfold ackRange
    split
    · exact inv.modify _ _
    · exact inv
  exact { finished with }

theorem numbered_requeue
    {table : Streams} (inv : Numbered side table.sending) (content : SentContent) :
    Numbered side (table.requeue content).sending := by
  rw [Streams.sending_requeue]
  generalize content.stream = entries
  induction entries generalizing table with
  | nil => exact inv
  | cons entry _ ih =>
    exact ih (.moves (Streams.sendMoves_requeueRange table entry) (inv.modify _ _))

/-- Every step keeps the order in which stream ids are handed out. -/
theorem Step.numbered {first second : Delivery} (step : Step first second)
    (inv : Numbered side first.table.sending) : Numbered side second.table.sending := by
  cases step with
  | table changed => exact .moves (Streams.sendMoves_op changed) inv
  | skip | aim | unaim | discard => exact inv
  | control space pn content => exact numbered_store inv space pn content
  | stream =>
    rw [mapTable, Streams.sending_chunkSent]
    exact (numbered_store inv ..).modify _ _
  | zeroRttStream =>
    rw [mapTable, Streams.sending_zeroRttChunkSent]
    exact (numbered_store inv ..).modify _ _
  | acked space pn content => exact numbered_markAcked (numbered_take inv space pn content) content
  | lost space pn content => exact numbered_requeue (numbered_take inv space pn content) content
  | probeLost pn content => exact numbered_take inv .data pn content

end Delivery

end ParallaX.Quic
