import ParallaX.Quic.Streams

/-!
# Receiving stream frames

The STREAM and RESET_STREAM frames of the peer: every check is made before the
stream is created, so that a rejected frame leaves no stream behind.
-/

namespace ParallaX.Quic

namespace Stream

variable (stream : Stream)

def charge (newHigh : Nat) (recvFin : Option Nat) : Stream :=
  { stream with recvHigh := newHigh, recvFin := recvFin.or stream.recvFin }

def releaseLate (newHigh delta : Nat) : Stream :=
  { stream with
    recvCredited := stream.recvCredited + delta
    recvOff :=
      if stream.recvFin.any (· ≤ newHigh) then newHigh else stream.recvOff }

def hold (offset : Nat) (data : List UInt8) : Stream :=
  { stream with recvPending := stream.recvPending ++ [(offset, data)] }

def absorb (drain : Drain UInt8) : Stream :=
  { stream with recvPending := drain.pending, recvOff := drain.recvOff, recv := drain.sink }

def resetRecv (errorCode finalSize : Nat) : Stream :=
  { stream with recvHigh := finalSize, recvFin := some finalSize, recvReset := some errorCode }

/-- Drop what waits and credit what a reset left unread. -/
def releaseReset (credit : Nat) : Stream :=
  { stream with recvPending := [], recvCredited := stream.recvCredited + credit }

end Stream

namespace Streams

def openPeerStream (table : Streams) (id : Nat) : Streams :=
  let stream := { Stream.fresh with sendMax := table.peerSendLimit id }
  let inserted := { table with streams := table.streams.insert id stream }
  if isUni id then { inserted with acceptUni := table.acceptUni ++ [id] }
  else { inserted with acceptBidi := table.acceptBidi ++ [id] }

def livePeerStreams (table : Streams) (kind : Dir) : Nat :=
  (table.streams.keys.filter fun other =>
    table.isPeerInitiated other && decide (kindOf other = kind)).length

/-- The ids that the peer opens by using an id of this kind: all ids of the
kind from the frontier on. -/
def openedIds (frontier opened bits : Nat) : List Nat :=
  (List.range' frontier (opened - frontier)).map fun ordinal =>
    ordinal * 4 + bits

/-- Create a stream on first sight, within the limits on peer streams. -/
def ensureStream (table : Streams) (id frameType : Nat) : Streams × Except QuicTlsError Unit :=
  if table.streams.contains id then
    (table, .ok ())
  else if !table.isPeerInitiated id then
    (table, .error (.transport 0x05 frameType
      "peer referenced an unopened locally-initiated stream"))
  else
    let kind := kindOf id
    let opened := id / 4 + 1
    if table.recvMaxStreamsSent kind < opened ∨
        MAX_PEER_STREAMS - table.livePeerStreams kind < opened - table.peerStreamsOpened kind then
      (table, .error (.transport 0x04 frameType "peer exceeded the stream limit"))
    else
      let ids := openedIds (table.peerStreamsOpened kind) opened (id % 4)
      ({ ids.foldl openPeerStream table with
          peerStreamsOpened :=
            Function.update table.peerStreamsOpened kind opened },
        .ok ())

/-! ## STREAM -/

/-- The receive half of a stream, or of the stream a frame would open. -/
def recvHalf (table : Streams) (id : Nat) : RecvHalf :=
  (table.streams[id]?.getD Stream.fresh).toRecvHalf

def validateStream (table : Streams) (id finish : Nat) (fin : Bool) : Except QuicTlsError Unit :=
  let current := table.recvHalf id
  let delta := max finish current.recvHigh - current.recvHigh
  if current.recvFin.any fun finalSize =>
      decide (finalSize < finish) || fin && decide (finish ≠ finalSize) then
    .error (.transport 0x06 0x08 "STREAM frame violates the stream's final size")
  else if fin ∧ finish < current.recvHigh then
    .error (.transport 0x06 0x08 "FIN final size below data already received")
  else if current.recvMax < finish then
    .error (.transport 0x03 0x08 "peer exceeded the stream receive window")
  else if 2 ^ 64 ≤ table.recvDataTotal + delta ∨
      table.recvMaxData < table.recvDataTotal + delta then
    .error (.transport 0x03 0x08 "peer exceeded the connection receive window")
  else
    .ok ()

/-- Charge `delta` bytes to both windows, and record the final size. -/
def chargeStream (table : Streams) (id newHigh delta : Nat) (recvFin : Option Nat) : Streams :=
  { table.modifyStream id (·.charge newHigh recvFin) with
    recvDataTotal := table.recvDataTotal + delta }

def releaseLate (table : Streams) (id newHigh delta : Nat) : Streams :=
  ((table.modifyStream id
    (·.releaseLate newHigh delta)).creditConnectionWindow delta).retireStream id

/-- Keep a fragment beyond the next expected offset. An empty fragment, or
one that a waiting fragment covers, is dropped. -/
def bufferFragment (table : Streams) (id : Nat) (stream : Stream)
    (offset : Nat) (data : List UInt8) : Streams × Except QuicTlsError Unit :=
  if data.isEmpty then
    (table, .ok ())
  else if stream.recvPending.any fun fragment =>
      decide (fragment.1 ≤ offset) && decide (offset + data.length ≤ fragment.finish) then
    (table, .ok ())
  else if MAX_STREAM_REASSEMBLY < bufferedBytes stream.recvPending + data.length ∨
        MAX_STREAM_PENDING_FRAGMENTS ≤ stream.recvPending.length ∨
        MAX_CONN_REASSEMBLY < table.recvPendingTotal + data.length then
    (table, .error (.transport 0x01 0x08 "stream reassembly buffer exceeded"))
  else
    ({ table.modifyStream id (·.hold offset data) with
        recvPendingTotal := table.recvPendingTotal + data.length },
      .ok ())

def absorbFragment (table : Streams) (id : Nat) (stream : Stream)
    (offset : Nat) (data : List UInt8) : Streams :=
  let drain := drainContiguous stream.recvPending stream.recvOff offset data stream.recv
  { table.modifyStream id (·.absorb drain) with
    recvPendingTotal := table.recvPendingTotal - drain.freed }

def storeStream (table : Streams) (id offset : Nat) (fin : Bool)
    (data : List UInt8) (newHigh delta : Nat) : Streams × Except QuicTlsError Unit :=
  match table.streams[id]? with
  | none => (table, .error (.panic "just ensured"))
  | some stream =>
    if stream.recvReset.isSome then
      (table, .ok ())
    else
      let charged := table.chargeStream id newHigh delta
        (if fin then some (offset + data.length) else none)
      if stream.recvReleased then
        (charged.releaseLate id newHigh delta, .ok ())
      else if stream.recvOff < offset then charged.bufferFragment id stream offset data
      else (charged.absorbFragment id stream offset data, .ok ())

def recvStream (table : Streams) (id offset : Nat) (fin : Bool)
    (data : List UInt8) : Streams × Except QuicTlsError Unit :=
  let finish := offset + data.length
  if isUni id && !table.isPeerInitiated id then
    (table, .error (.transport 0x05 0x08 "STREAM on a send-only stream"))
  else if table.streamRetired id then
    (table, .ok ())
  else if 2 ^ 64 ≤ finish then
    (table, .error (.transport 0x07 0x08 "STREAM frame offset overflows u64"))
  else
    match table.validateStream id finish fin with
    | .error failure => (table, .error failure)
    | .ok () =>
      let high := (table.recvHalf id).recvHigh
      let newHigh := max finish high
      match table.ensureStream id 0x08 with
      | (ensured, .error failure) => (ensured, .error failure)
      | (ensured, .ok ()) => ensured.storeStream id offset fin data newHigh (newHigh - high)

/-! ## RESET_STREAM -/

def validateReset (table : Streams) (id finalSize : Nat) : Except QuicTlsError Unit :=
  let current := table.recvHalf id
  let delta := finalSize - current.recvHigh
  if current.recvFin.any (· ≠ finalSize) then
    .error (.transport 0x06 0x04 "RESET_STREAM final size conflicts with a known final size")
  else if finalSize < current.recvHigh then
    .error (.transport 0x06 0x04 "RESET_STREAM final size below data already received")
  else if current.recvMax < finalSize then
    .error (.transport 0x03 0x04 "RESET_STREAM exceeded the stream receive window")
  else if 2 ^ 64 ≤ table.recvDataTotal + delta ∨
      table.recvMaxData < table.recvDataTotal + delta then
    .error (.transport 0x03 0x04 "RESET_STREAM exceeded the connection receive window")
  else
    .ok ()

def chargeReset (table : Streams) (id errorCode finalSize delta : Nat) : Streams :=
  { table.modifyStream id (·.resetRecv errorCode finalSize) with
    recvDataTotal := table.recvDataTotal + delta }

/-- Release everything of a reset stream that the application can no longer
read. -/
def releaseReset (table : Streams) (id : Nat) (stream : Stream) (finalSize : Nat) : Streams :=
  let credit := finalSize - stream.recv.length - stream.recvCredited
  let released :=
    { table.modifyStream id (·.releaseReset credit) with
      recvPendingTotal :=
        table.recvPendingTotal - bufferedBytes stream.recvPending }
  released.creditConnectionWindow credit

/-- Record a reset. Only the first one releases credit. -/
def storeReset (table : Streams) (id errorCode finalSize delta : Nat) :
    Streams × Except QuicTlsError Unit :=
  match table.streams[id]? with
  | none => (table, .error (.panic "just ensured"))
  | some stream =>
    let charged := table.chargeReset id errorCode finalSize delta
    let released :=
      if stream.recvReset.isNone then charged.releaseReset id stream finalSize
      else charged
    (released.retireStream id, .ok ())

def recvResetStream (table : Streams) (id errorCode finalSize : Nat) :
    Streams × Except QuicTlsError Unit :=
  if isUni id && !table.isPeerInitiated id then
    (table, .error (.transport 0x05 0x04 "RESET_STREAM on a send-only stream"))
  else if table.streamRetired id then
    (table, .ok ())
  else
    match table.validateReset id finalSize with
    | .error failure => (table, .error failure)
    | .ok () =>
      let delta := finalSize - (table.recvHalf id).recvHigh
      match table.ensureStream id 0x04 with
      | (ensured, .error failure) => (ensured, .error failure)
      | (ensured, .ok ()) => ensured.storeReset id errorCode finalSize delta

/-! ## Rejected frames -/

/-- The codes of the stream rules: FLOW_CONTROL, STREAM_LIMIT, STREAM_STATE and
FINAL_SIZE. -/
def STREAM_VIOLATIONS : List Nat := [0x03, 0x04, 0x05, 0x06]

variable {table : Streams} {ty code : Nat} {data : List UInt8} {reason : String} {id offset : Nat}
  {fin : Bool}

theorem ensureStream_of_error {ensured : Streams} {failure : QuicTlsError}
    (refused : table.ensureStream id ty = (ensured, .error failure)) : ensured = table := by
  unfold ensureStream at refused
  split_ifs at refused with known foreign
  · cases (Prod.mk.inj refused).2
  · exact (Prod.mk.inj refused).1.symm
  · dsimp only at refused
    split_ifs at refused with limit
    · exact (Prod.mk.inj refused).1.symm
    · cases (Prod.mk.inj refused).2

theorem bufferFragment_error_code {stream : Stream}
    (refused : (table.bufferFragment id stream offset data).2 =
      .error (.transport code ty reason)) : code = 0x01 := by
  unfold bufferFragment at refused
  split_ifs at refused with empty covered exceeded
  simp only [Except.error.injEq, QuicTlsError.transport.injEq] at refused
  exact refused.1.symm

theorem storeStream_error_code {newHigh delta : Nat}
    (refused : (table.storeStream id offset fin data newHigh delta).2 =
      .error (.transport code ty reason)) : code = 0x01 := by
  unfold storeStream at refused
  cases found : table.streams[id]? with
  | none => simp [found] at refused
  | some =>
    simp only [found] at refused
    split at refused
    · cases refused
    · split at refused
      · cases refused
      · split at refused
        · exact bufferFragment_error_code refused
        · cases refused

theorem recvStream_rejected (violation : code ∈ STREAM_VIOLATIONS)
    (rejected : (table.recvStream id offset fin data).2 = .error (.transport code ty reason)) :
    (table.recvStream id offset fin data).1 = table := by
  unfold recvStream at rejected ⊢
  dsimp only at rejected ⊢
  split_ifs at rejected ⊢ with sendOnly retired overflows
  · rfl
  · rfl
  · cases valid : table.validateStream id (offset + data.length) fin with
    | error => rfl
    | ok =>
      rw [valid] at rejected
      cases opening : table.ensureStream id 0x08 with
      | mk _ outcome =>
        rw [opening] at rejected
        cases outcome with
        | error => exact ensureStream_of_error opening
        | ok =>
          -- the stream is charged before its fragment is refused
          have budget := storeStream_error_code rejected
          subst budget
          exact absurd violation (by decide)

theorem recvResetStream_rejected {resetCode size : Nat}
    (rejected : (table.recvResetStream id resetCode size).2 = .error (.transport code ty reason)) :
    (table.recvResetStream id resetCode size).1 = table := by
  unfold recvResetStream at rejected ⊢
  split_ifs at rejected ⊢ with sendOnly retired
  · rfl
  · cases valid : table.validateReset id size with
    | error => rfl
    | ok =>
      rw [valid] at rejected
      cases opening : table.ensureStream id 0x04 with
      | mk ensured outcome =>
        rw [opening] at rejected
        cases outcome with
        | error => exact ensureStream_of_error opening
        | ok =>
          dsimp only at rejected
          unfold storeReset at rejected
          split at rejected <;> cases rejected

end Streams

end ParallaX.Quic
