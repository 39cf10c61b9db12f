import ParallaX.Quic.Frame
import ParallaX.Quic.Reassembly
import ParallaX.Quic.Recovery

/-!
# Streams and flow control

The stream table of a connection with its flow-control counters: opening,
reading, writing and retiring streams, the frames of the peer that touch them,
and the bookkeeping of what is in flight. `Streams` holds the fields of the
source's `Connection` that these operations use.
-/

namespace ParallaX.Quic

open ParallaX.Data

/-- An error of the source. `panic` stands for an assertion or an `expect` of
the source that does not hold. -/
inductive QuicTlsError where
  | alert (description : Nat) (reason : String)
  | crypto (reason : String)
  | protocol (reason : String)
  | transport (errorCode frameType : Nat) (reason : String)
  | certificate (reason : String)
  | panic (assertion : String)
deriving DecidableEq, Repr

inductive Side where
  | client
  | server
deriving DecidableEq, Repr

/-- The transport parameters of the peer that the connection reads. -/
structure TransportParameters where
  initialMaxData : Nat
  initialMaxStreamDataBidiLocal : Nat
  initialMaxStreamDataBidiRemote : Nat
  initialMaxStreamDataUni : Nat
  initialMaxStreamsBidi : Nat
  initialMaxStreamsUni : Nat
  ackDelayExponent : Nat
  maxAckDelayMs : Nat
deriving DecidableEq, Repr

def MAX_STREAM_REASSEMBLY : Nat := 2 * 1024 * 1024

def MAX_STREAM_PENDING_FRAGMENTS : Nat := 4096

def STREAM_RECV_WINDOW : Nat := 2 * 1024 * 1024

def CONN_RECV_WINDOW : Nat := 16 * 1024 * 1024

def MAX_CONN_REASSEMBLY : Nat := CONN_RECV_WINDOW

/-- The peer-initiated streams of each kind that may be open at once. -/
def MAX_PEER_STREAMS : Nat := 64

/-! ## One stream -/

/-- A lost or in-flight range of a stream: its offset, its length, and whether
it carries the FIN. -/
structure StreamRange where
  offset : Nat
  len : Nat
  fin : Bool
deriving DecidableEq, Repr

/-- The bytes a stream sends, and where each of them is: waiting, in flight,
queued again or acknowledged. -/
structure SendBuffer where
  send : List UInt8
  sendBase : Nat
  sendOff : Nat
  /-- Lost ranges to resend before fresh bytes. -/
  retransmit : List StreamRange
  /-- The start offsets of the ranges in flight, with their multiplicity. -/
  sentRangeOffsets : BTreeMap Nat
  fin : Bool
  finSent : Bool
  finAcked : Bool
  reset : Option Nat
  resetAcked : Bool

structure SendHalf extends SendBuffer where
  sendMax : Nat
  resetSent : Bool
  stopSending : Bool
  cancelAfter : List Nat

structure RecvAccount where
  recv : List UInt8
  recvOff : Nat
  recvPending : List (Fragment UInt8)
  /-- The highest offset received: the credit the peer has used. -/
  recvHigh : Nat
  /-- The bytes released to the connection window. -/
  recvCredited : Nat
  recvFin : Option Nat
  recvReset : Option Nat
  recvReleased : Bool

structure RecvHalf extends RecvAccount where
  recvConsumed : Nat
  recvMax : Nat
  recvMaxSent : Nat
  needMaxStreamData : Bool

structure Stream extends SendHalf, RecvHalf

/-- A stream that advertises the initial receive window. -/
def Stream.fresh : Stream :=
  { send := []
    sendBase := 0
    sendOff := 0
    sendMax := 0
    retransmit := []
    sentRangeOffsets := ∅
    fin := false
    finSent := false
    finAcked := false
    reset := none
    resetSent := false
    resetAcked := false
    stopSending := false
    cancelAfter := []
    recv := []
    recvOff := 0
    recvPending := []
    recvHigh := 0
    recvConsumed := 0
    recvCredited := 0
    recvMax := STREAM_RECV_WINDOW
    recvMaxSent := STREAM_RECV_WINDOW
    needMaxStreamData := false
    recvFin := none
    recvReset := none
    recvReleased := false }

/-- The end of the buffered bytes as an absolute offset. -/
def SendBuffer.bufferedEnd (buffer : SendBuffer) : Nat := buffer.sendBase + buffer.send.length

/-- The bytes between two absolute offsets; `none` when they are not all in
the buffer, where the source panics. -/
def SendBuffer.slice? (buffer : SendBuffer) (start finish : Nat) : Option (List UInt8) :=
  if buffer.sendBase ≤ start ∧ start ≤ finish ∧
      finish ≤ buffer.bufferedEnd then
    some ((buffer.send.drop (start - buffer.sendBase)).take (finish - start))
  else
    none

def Stream.discardRecv (stream : Stream) : Stream :=
  { stream with
    recvCredited := stream.recvHigh
    recvReleased := true
    recv := []
    recvPending := [] }

/-- A stream whose bytes were read: its window grows, and it is released when
they were the last ones. -/
def Stream.takeRecv (stream : Stream) : Stream :=
  let consumed := stream.recvConsumed + stream.recv.length
  let recvMax := consumed + STREAM_RECV_WINDOW
  { stream with
    recv := []
    recvConsumed := consumed
    recvCredited := stream.recvCredited + stream.recv.length
    recvMax := recvMax
    needMaxStreamData :=
      stream.needMaxStreamData || decide (STREAM_RECV_WINDOW / 2 ≤ recvMax - stream.recvMaxSent)
    recvReleased :=
      stream.recvReleased ||
        stream.recvReset.isNone && stream.recvFin.any fun fin => decide (fin ≤ stream.recvOff) }

/-! ## The stream table -/

/-- Bit 1 of a stream id: the stream is unidirectional. -/
def isUni (id : Nat) : Bool := id.testBit 1

def kindOf (id : Nat) : Dir := if isUni id then .uni else .bidi

/-- History that only proofs read: what happened to stream data so far. -/
structure StreamHistory where
  ackedRanges : List (Nat × StreamRange)
  retired : List (Nat × Stream)

/-- The credit the connection has granted the peer. -/
structure ConnCredit where
  recvMaxData : Nat
  recvDataTotal : Nat
  recvDataConsumed : Nat

/-- The stream table with the counters its operations use. -/
structure Streams extends StreamHistory, ConnCredit where
  side : Side
  streams : BTreeMap Stream
  nextBidi : Nat
  nextUni : Nat
  peerStreamsOpened : Dir → Nat
  recvMaxStreams : Dir → Nat
  recvMaxStreamsSent : Dir → Nat
  needMaxStreams : Dir → Bool
  sendMaxStreams : Dir → Nat
  acceptBidi : List Nat
  acceptUni : List Nat
  /-- History that only proofs read: the ids taken from the two accept queues so
  far. -/
  taken : Dir → List Nat
  sendMaxData : Nat
  sendDataTotal : Nat
  recvMaxDataSent : Nat
  recvPendingTotal : Nat
  needMaxData : Bool
  peerFlowApplied : Bool
  peerMsdBidiLocal : Nat
  peerMsdBidiRemote : Nat
  peerMsdUni : Nat

namespace Streams

def firstBidi : Side → Nat
  | .client => 0
  | .server => 1

def firstUni : Side → Nat
  | .client => 2
  | .server => 3

def new (side : Side) (nextBidi nextUni : Nat) (recvMaxStreamsSent : Dir → Nat) : Streams :=
  { ackedRanges := []
    retired := []
    side := side
    streams := ∅
    nextBidi := nextBidi
    nextUni := nextUni
    peerStreamsOpened _ := 0
    recvMaxStreams _ := MAX_PEER_STREAMS
    recvMaxStreamsSent := recvMaxStreamsSent
    needMaxStreams _ := true
    sendMaxStreams _ := 0
    acceptBidi := []
    acceptUni := []
    taken _ := []
    sendMaxData := 0
    sendDataTotal := 0
    recvMaxData := CONN_RECV_WINDOW
    recvMaxDataSent := CONN_RECV_WINDOW
    recvDataTotal := 0
    recvDataConsumed := 0
    recvPendingTotal := 0
    needMaxData := false
    peerFlowApplied := false
    peerMsdBidiLocal := 0
    peerMsdBidiRemote := 0
    peerMsdUni := 0 }

variable (table : Streams)

def modifyStream (id : Nat) (change : Stream → Stream) : Streams :=
  { table with streams := table.streams.modify id change }

/-- Bit 0 of a stream id names its initiator. -/
def isPeerInitiated (id : Nat) : Bool := id.testBit 0 != decide (table.side = .server)

/-- A missing stream below its opened frontier is finished for good. -/
def streamRetired (id : Nat) : Bool :=
  if table.streams.contains id then
    false
  else if table.isPeerInitiated id then id / 4 < table.peerStreamsOpened (kindOf id)
  else id < if isUni id then table.nextUni else table.nextBidi

def streamCanSend (id : Nat) : Bool :=
  if table.isPeerInitiated id then !isUni id
  else id / 4 < table.sendMaxStreams (kindOf id)

/-- Both halves of a stream are finished and nothing of it is in flight. -/
def retirable (id : Nat) (stream : Stream) : Bool :=
  let peer := table.isPeerInitiated id
  let sendDone := isUni id && peer || stream.resetAcked || stream.finAcked
  let recvDone :=
    isUni id && !peer ||
      stream.recvReleased && stream.recvFin.any fun fin =>
          stream.recvReset.isSome || decide (fin ≤ stream.recvOff)
  sendDone && recvDone && stream.sentRangeOffsets.isEmpty && stream.retransmit.isEmpty

/-- Remove a finished stream; a peer-initiated one frees a stream slot. -/
def retireStream (id : Nat) : Streams :=
  match table.streams[id]? with
  | none => table
  | some stream =>
    if table.retirable id stream then
      let removed :=
        { table with
          retired := table.retired ++ [(id, stream)]
          streams := table.streams.erase id
          acceptBidi := table.acceptBidi.filter (· != id)
          acceptUni := table.acceptUni.filter (· != id) }
      if table.isPeerInitiated id then
        let kind := kindOf id
        { removed with
          recvMaxStreams :=
            Function.update table.recvMaxStreams kind (min (table.recvMaxStreams kind + 1) (2 ^ 60))
          needMaxStreams :=
            Function.update table.needMaxStreams kind true }
      else
        removed
    else
      table

def peerSendLimit (id : Nat) : Nat :=
  if isUni id then table.peerMsdUni
  else if table.isPeerInitiated id then table.peerMsdBidiLocal
  else table.peerMsdBidiRemote

/-- Seed the limits from the parameters a resumption ticket remembers. -/
def applyRememberedTransportParams (params : TransportParameters) : Streams :=
  { table with
    sendMaxData := params.initialMaxData
    peerMsdBidiLocal := params.initialMaxStreamDataBidiLocal
    peerMsdBidiRemote := params.initialMaxStreamDataBidiRemote
    peerMsdUni := params.initialMaxStreamDataUni
    sendMaxStreams := fun
      | .bidi => params.initialMaxStreamsBidi
      | .uni => params.initialMaxStreamsUni }

def raiseSendMax : Streams :=
  { table with
    streams := table.streams.map fun id stream =>
      { stream with sendMax := max stream.sendMax (table.peerSendLimit id) } }

variable (params : Option TransportParameters)

/-- Apply the peer's parameters once they are known. `params` are those the
TLS session has now, if they parse. -/
def ensurePeerFlow : Streams :=
  if table.peerFlowApplied then
    table
  else
    match params with
    | none => table
    | some params =>
      raiseSendMax
        { table with
          sendMaxData := params.initialMaxData
          peerMsdBidiLocal := params.initialMaxStreamDataBidiLocal
          peerMsdBidiRemote := params.initialMaxStreamDataBidiRemote
          peerMsdUni := params.initialMaxStreamDataUni
          sendMaxStreams := fun
            | .bidi => max (table.sendMaxStreams .bidi) params.initialMaxStreamsBidi
            | .uni => max (table.sendMaxStreams .uni) params.initialMaxStreamsUni
          peerFlowApplied := true }

def orInsertFresh (id : Nat) : Streams :=
  if table.streams.contains id then table
  else { table with streams := table.streams.insert id Stream.fresh }

def advanceNext (id : Nat) : Streams :=
  if table.isPeerInitiated id then
    table
  else if isUni id then { table with nextUni := max table.nextUni (id + 4) }
  else { table with nextBidi := max table.nextBidi (id + 4) }

def createLocalStream (id : Nat) : Streams :=
  if table.streamRetired id then
    table
  else
    let flowing := table.ensurePeerFlow params
    let sendMax := flowing.peerSendLimit id
    ((flowing.orInsertFresh id).modifyStream id fun stream =>
      { stream with sendMax := max stream.sendMax sendMax }).advanceNext id

/-- Queue bytes on a stream that is neither finished nor reset. -/
def queueData (id : Nat) (data : List UInt8) : Streams :=
  table.modifyStream id fun stream =>
    if stream.fin || stream.reset.isSome then stream
    else { stream with send := stream.send ++ data }

def sendStream (id : Nat) (data : List UInt8) : Streams :=
  (table.createLocalStream params id).queueData id data

def finishStream (id : Nat) : Streams :=
  table.modifyStream id fun stream => { stream with fin := true }

def stopSend (id errorCode : Nat) : Streams :=
  table.modifyStream id fun stream =>
    if stream.reset.isNone then { stream with reset := some errorCode, retransmit := [] }
    else stream

def resetStream (id errorCode : Nat) : Streams :=
  (table.createLocalStream params id).stopSend id errorCode

def hasUnsentData (id : Nat) : Bool :=
  table.streams[id]?.any fun stream =>
    stream.reset.isNone && decide (stream.sendOff < stream.bufferedEnd)

/-! ## Releasing receive credit -/

/-- Release connection credit, and owe the peer an update once half the window
has been reclaimed. -/
def creditConnectionWindow (bytes : Nat) : Streams :=
  if bytes = 0 then
    table
  else
    let consumed := table.recvDataConsumed + bytes
    let recvMaxData := consumed + CONN_RECV_WINDOW
    { table with
      recvDataConsumed := consumed
      recvMaxData := recvMaxData
      needMaxData :=
        table.needMaxData || decide (CONN_RECV_WINDOW / 2 ≤ recvMaxData - table.recvMaxDataSent) }

/-- Abandon the receive half: release everything it still holds. -/
def discardStreamRecv (id : Nat) : Streams :=
  match table.streams[id]? with
  | none => table
  | some stream =>
    let credit := stream.recvHigh - stream.recvCredited
    let dropped :=
      { table.modifyStream id Stream.discardRecv with
        recvPendingTotal :=
          table.recvPendingTotal - bufferedBytes stream.recvPending }
    (dropped.creditConnectionWindow credit).retireStream id

/-- Ask the peer to stop sending; a RESET_STREAM that is under way goes out
again together with that. -/
def markCancelled (id : Nat) (cancelAfter : List Nat) : Streams :=
  table.modifyStream id fun stream =>
    if stream.stopSending then
      stream
    else
      { stream with
        stopSending := true
        resetSent := false
        resetAcked := false
        cancelAfter := cancelAfter }

/-- Cancel a stream in both directions, after the data already queued on other
streams. -/
def cancelStream (id errorCode : Nat) : Streams :=
  let stopped := table.resetStream params id errorCode
  let cancelAfter := stopped.streams.keys.filter fun other =>
    other != id && stopped.hasUnsentData other
  (stopped.markCancelled id cancelAfter).discardStreamRecv id

/-- Take the bytes received in order, and extend the receive windows. -/
def readStream (id : Nat) : Streams × List UInt8 :=
  match table.streams[id]? with
  | none => (table, [])
  | some stream =>
    let taken := table.modifyStream id Stream.takeRecv
    ((taken.creditConnectionWindow stream.recv.length).retireStream id, stream.recv)

/-- The peer reset the stream before it sent a byte. -/
def cancelledEmpty (id : Nat) : Bool :=
  table.streams[id]?.any fun stream =>
    stream.recvReset.isSome && decide (stream.recvHigh = 0)

def noteTaken (kind : Dir) (id : Nat) : Streams :=
  { table with taken := Function.update table.taken kind (table.taken kind ++ [id]) }

/-- Pop ids until one is worth serving. Each round pops one id, so the length
of the queue bounds the rounds. -/
def acceptBiLoop : Nat → Streams → Streams × Option Nat
  | 0, table => (table, none)
  | rounds + 1, table =>
    match table.acceptBidi with
    | [] => (table, none)
    | id :: queue =>
      let popped := { table.noteTaken .bidi id with acceptBidi := queue }
      if popped.cancelledEmpty id then acceptBiLoop rounds (popped.discardStreamRecv id)
      else (popped, some id)

def acceptBi : Streams × Option Nat := acceptBiLoop table.acceptBidi.length table

def takeAcceptUni : Streams × Option Nat :=
  match table.acceptUni with
  | [] => (table, none)
  | id :: queue => ({ table.noteTaken .uni id with acceptUni := queue }, some id)

end Streams

end ParallaX.Quic
