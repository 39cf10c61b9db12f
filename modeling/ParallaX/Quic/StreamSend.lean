import ParallaX.Quic.Streams

/-!
# Sending stream data

Which stream sends next and how much of it, the index of ranges in flight, the
requeueing of lost content, and the compaction of acknowledged bytes.
-/

namespace ParallaX.Quic

/-- What an ack-eliciting packet carried that must be sent again if the packet
is lost. -/
structure SentContent where
  crypto : List (Nat × Nat)
  /-- Stream ids with the range the packet carried. -/
  stream : List (Nat × StreamRange)
  handshakeDone : Bool
  maxData : Bool
  maxStreamData : List Nat
  maxStreams : Dir → Bool
  reset : List Nat

def SentContent.empty : SentContent :=
  { crypto := []
    stream := []
    handshakeDone := false
    maxData := false
    maxStreamData := []
    maxStreams _ := false
    reset := [] }

/-- The ids whose data or reset a packet carried. -/
def SentContent.streamIds (content : SentContent) : List Nat :=
  content.stream.map Prod.fst ++ content.reset

namespace Streams

/-! ## What to send -/

variable (table : Streams)

def connWindow : Nat := table.sendMaxData - table.sendDataTotal

variable (id : Nat) (stream : Stream)

/-- A stream with a resend, a pending FIN, or fresh bytes within the windows. -/
def wantsToSend : Bool :=
  table.streamCanSend id && stream.reset.isNone &&
    (!stream.retransmit.isEmpty ||
      (stream.fin && !stream.finSent && decide (stream.sendOff = stream.bufferedEnd)) ||
      (decide (stream.sendOff < stream.bufferedEnd) &&
        decide (0 < stream.sendMax - stream.sendOff) && decide (0 < table.connWindow)))

def nextStreamToSend : Option Nat :=
  (table.streams.toList.find? fun entry =>
    table.wantsToSend entry.1 entry.2).map Prod.fst

def owesReset : Bool :=
  table.streamCanSend id && stream.reset.isSome && !stream.resetSent &&
    !stream.cancelAfter.any table.hasUnsentData

def nextStreamToReset : Option Nat :=
  (table.streams.toList.find? fun entry =>
    table.owesReset entry.1 entry.2).map Prod.fst

/-- A range to put in a packet, and whether it is a resend. -/
structure Chunk extends StreamRange where
  isRetransmit : Bool
deriving DecidableEq, Repr

def Chunk.finish (chunk : Chunk) : Nat := chunk.offset + chunk.len

def nextOffset : Nat := stream.retransmit.head?.elim stream.sendOff StreamRange.offset

/-- The next fresh bytes, within the budget and both windows, with the FIN when
the last buffered byte is among them. -/
def freshChunk (budget : Nat) : Chunk :=
  let remaining := stream.bufferedEnd - stream.sendOff
  let fcWindow := min (stream.sendMax - stream.sendOff) table.connWindow
  let len := min (min remaining (max budget 1)) fcWindow
  { offset := stream.sendOff
    len := len
    fin := stream.fin && !stream.finSent && decide (stream.sendOff + len = stream.bufferedEnd)
    isRetransmit := false }

/-- What a 1-RTT packet carries of a stream. A resend is cut to the budget. -/
def streamChunk (budget : Nat) : Chunk :=
  match stream.retransmit with
  | range :: _ =>
    let len := min range.len (max budget 1)
    { offset := range.offset
      len := len
      fin := range.fin && decide (len = range.len)
      isRetransmit := true }
  | [] => table.freshChunk stream budget

/-- What a 0-RTT packet carries of a stream. A resend is not cut. -/
def zeroRttChunk (budget : Nat) : Chunk :=
  match stream.retransmit with
  | range :: _ => { range with isRetransmit := true }
  | [] => table.freshChunk stream budget

/-- Fresh bytes consume connection credit and advance the stream. -/
def advanceFresh (chunk : Chunk) : Streams :=
  { table.modifyStream id fun stream =>
      { stream with sendOff := chunk.finish, finSent := stream.finSent || chunk.fin } with
    sendDataTotal := table.sendDataTotal + chunk.len }

/-- Account for a chunk of a 1-RTT packet: a resend leaves the queue, wholly or
up to where it was cut. -/
def chunkSent (chunk : Chunk) : Streams :=
  if chunk.isRetransmit then
    table.modifyStream id fun stream =>
      match stream.retransmit with
      | [] => stream
      | range :: rest =>
        if chunk.len = range.len then
          { stream with retransmit := rest }
        else
          { stream with
            retransmit :=
              { offset := chunk.finish
                len := range.len - chunk.len
                fin := range.fin } :: rest }
  else
    table.advanceFresh id chunk

def zeroRttChunkSent (chunk : Chunk) : Streams :=
  if chunk.isRetransmit then
    table.modifyStream id fun stream =>
      { stream with retransmit := stream.retransmit.tail }
  else
    table.advanceFresh id chunk

def markResetSent : Streams := table.modifyStream id fun stream => { stream with resetSent := true }

def grownStreams : List (Nat × Nat) :=
  (table.streams.toList.filter fun entry => entry.2.needMaxStreamData).map
    fun entry => (entry.1, entry.2.recvMax)

def flowUpdatePending : Bool :=
  table.needMaxData || table.needMaxStreams .bidi ||
    table.needMaxStreams .uni || !table.grownStreams.isEmpty

def flowUpdateSent : Streams :=
  { table with
    streams := table.streams.map fun _ stream =>
      if stream.needMaxStreamData then
        { stream with recvMaxSent := stream.recvMax, needMaxStreamData := false }
      else
        stream
    recvMaxStreamsSent kind :=
      if table.needMaxStreams kind then table.recvMaxStreams kind
      else table.recvMaxStreamsSent kind
    needMaxStreams _ := false
    recvMaxDataSent :=
      if table.needMaxData then table.recvMaxData else table.recvMaxDataSent
    needMaxData := false }

variable (entry : Nat × StreamRange)

/-- Count one more range in flight at an offset. -/
def indexRange : Streams :=
  table.modifyStream entry.1 fun stream =>
    { stream with
      sentRangeOffsets :=
        stream.sentRangeOffsets.insert entry.2.offset
          (stream.sentRangeOffsets[entry.2.offset]?.getD 0 + 1) }

def indexSentStreamRanges (content : SentContent) : Streams := content.stream.foldl indexRange table

/-- Count one range in flight less, and forget an offset at zero. -/
def unindexOffset (offsets : BTreeMap Nat) (offset : Nat) : BTreeMap Nat :=
  match offsets[offset]? with
  | none => offsets
  | some count =>
    if count - 1 = 0 then offsets.erase offset
    else offsets.insert offset (count - 1)

def unindexRange : Streams :=
  table.modifyStream entry.1 fun stream =>
    { stream with sentRangeOffsets := unindexOffset stream.sentRangeOffsets entry.2.offset }

def unindexSentStreamRanges (content : SentContent) : Streams :=
  content.stream.foldl unindexRange table

/-! ## Acknowledged and lost content -/

def ackRange : Streams :=
  if entry.2.fin then table.modifyStream entry.1 fun stream => { stream with finAcked := true }
  else table

def ackReset : Streams := table.modifyStream id fun stream => { stream with resetAcked := true }

/-- Note the FINs and resets that an acknowledged packet carried. -/
def markAcked (content : SentContent) : Streams :=
  let finished := content.stream.foldl ackRange table
  content.reset.foldl ackReset
    { finished with ackedRanges := table.ackedRanges ++ content.stream }

/-- Put a lost range back on the queue of its stream. -/
def requeueRange : Streams :=
  (table.modifyStream entry.1 fun stream =>
    if stream.reset.isNone then { stream with retransmit := stream.retransmit ++ [entry.2] }
    else stream).retireStream entry.1

/-- Owe the peer a new window for a stream again. -/
def rearmWindow : Streams :=
  table.modifyStream id fun stream => { stream with needMaxStreamData := true }

/-- Owe the peer a reset again unless it was acknowledged. -/
def rearmReset : Streams :=
  table.modifyStream id fun stream =>
    if stream.resetAcked then stream else { stream with resetSent := false }

/-- Put everything a lost packet carried for streams and windows back in
line. -/
def requeue (content : SentContent) : Streams :=
  let queued := content.stream.foldl requeueRange table
  let grown := content.maxStreamData.foldl rearmWindow queued
  let rearmed := content.reset.foldl rearmReset grown
  { rearmed with
    needMaxData := rearmed.needMaxData || content.maxData
    needMaxStreams kind :=
      rearmed.needMaxStreams kind || content.maxStreams kind }

def lowestNeeded : Nat :=
  let queued := stream.retransmit.foldl (fun low range => min low range.offset) stream.sendOff
  stream.sentRangeOffsets.toList.head?.elim queued fun entry =>
    min queued entry.1

/-- Drop the acknowledged front of a send buffer once it is as long as the
rest. -/
def compactStream : Stream :=
  let low := lowestNeeded stream
  let reclaim := low - stream.sendBase
  if reclaim = 0 ∨ reclaim < stream.send.length - reclaim then stream
  else { stream with send := stream.send.drop reclaim, sendBase := low }

def compactSendBuffer : Streams := table.modifyStream id compactStream

end Streams

end ParallaX.Quic
