import ParallaX.Mux.Frame
import ParallaX.Tls.Record

/-!
# Planning the records of a mux batch

A batch of frames is cut into the plaintexts of outer records, window by window:
data frames are split and merged to fill the records, other frames stay whole.
-/

namespace ParallaX.Mux

open ParallaX.Tls.Record (TLS_HEADER_LEN MAX_TLS_RECORD_PAYLOAD TlsRecordError)

def OUTER_TLS_RECORD_LIMIT : Nat := MAX_TLS_RECORD_PAYLOAD + 17

def AEAD_TAG_LEN : Nat := 16

def PADDING_LEN_FIELD : Nat := 2

def maxPlaintextLen (maxPadding : UInt16) : Nat :=
  OUTER_TLS_RECORD_LIMIT - (maxPadding.toNat + AEAD_TAG_LEN + PADDING_LEN_FIELD)

inductive DataRecordError where
  | tlsRecord (error : TlsRecordError)
  | invalidRecordLens
  | invalidExactPadding
deriving DecidableEq, Repr

def exactPaddedRecordCapacity (payloadLen totalPad : Nat) : Except DataRecordError Nat :=
  if 2 ^ 16 ≤ totalPad then
    .error (.tlsRecord (.payloadTooLarge totalPad))
  else
    let tlsLen := payloadLen + totalPad + (PADDING_LEN_FIELD + AEAD_TAG_LEN)
    if OUTER_TLS_RECORD_LIMIT < tlsLen then .error (.tlsRecord (.payloadTooLarge tlsLen))
    else .ok (tlsLen + TLS_HEADER_LEN)

def sumCapacities : List (Nat × Nat) → Except DataRecordError Nat
  | [] => .ok 0
  | (len, pad) :: rest => do
    let capacity ← exactPaddedRecordCapacity len pad
    let total ← sumCapacities rest
    .ok (capacity + total)

/-- The check before a window is sealed with exact padding; the result is the
length of the window on the wire. -/
def validateExactPaddedRecordLens (recordLens padLens : List Nat)
    (plaintextLen : Nat) : Except DataRecordError Nat :=
  if recordLens.sum ≠ plaintextLen then
    .error .invalidRecordLens
  else if recordLens.length ≠ padLens.length then .error .invalidExactPadding
  else sumCapacities (recordLens.zip padLens)

inductive TcpMuxRecordProfile where
  | off
  | cloudflareDynamic
deriving DecidableEq, Repr

/-- Instants are nanoseconds. -/
structure MuxRecordBudget where
  profile : TcpMuxRecordProfile
  recordsSent : Nat
  lastWrite : Option Nat
deriving DecidableEq, Repr

namespace MuxRecordBudget

def new (profile : TcpMuxRecordProfile) : MuxRecordBudget := ⟨profile, 0, none⟩

def forWrite (budget : MuxRecordBudget) (now : Nat) : MuxRecordBudget :=
  if budget.profile = .cloudflareDynamic ∧
      budget.lastWrite.any (fun last => 1000 * 1000000 < now - last) then
    { budget with recordsSent := 0 }
  else
    budget

def CODEC_OVERHEAD : Nat := 18

def plaintextLimit (budget : MuxRecordBudget) (codecMax : Nat) : Nat :=
  match budget.profile with
  | .off => codecMax
  | .cloudflareDynamic =>
    if 80 < budget.recordsSent then codecMax
    else if 40 < budget.recordsSent then min codecMax (4246 - CODEC_OVERHEAD)
    else min codecMax (1386 - CODEC_OVERHEAD)

/-- The counter is a `u64` and saturates. -/
def sentOne (budget : MuxRecordBudget) : MuxRecordBudget :=
  { budget with recordsSent := min (budget.recordsSent + 1) (2 ^ 64 - 1) }

end MuxRecordBudget

/-! ## Pieces of data -/

structure MuxFrameCursor where
  frame : Nat
  offset : Nat
deriving DecidableEq, Repr

def MuxFrameCursor.advance (cursor : MuxFrameCursor) (payloadLen take : Nat) : MuxFrameCursor :=
  if cursor.offset + take = payloadLen then ⟨cursor.frame + 1, 0⟩
  else ⟨cursor.frame, cursor.offset + take⟩

def muxRecordDataPieceLen (remaining capacity : Nat) : Nat :=
  if remaining ≤ capacity then remaining
  else if remaining - capacity ≤ capacity / 2 then (remaining + 1) / 2
  else capacity

def muxRecordPaddingPlan (profile : TcpMuxRecordProfile)
    (hasPositiveData : Bool) (plaintextLen limit : Nat) : Option (Nat × Nat) :=
  if plaintextLen = 0 ∨ limit < plaintextLen then none
  else
    let pad :=
      if profile = .cloudflareDynamic ∧ hasPositiveData then
        limit - plaintextLen
      else 0
    if 2 ^ 16 ≤ pad then none
    else
      let tlsLen := plaintextLen + pad + 18
      if OUTER_TLS_RECORD_LIMIT < tlsLen then none
      else some (pad, tlsLen + TLS_HEADER_LEN)

def MuxFrame.isDataOf (frame : MuxFrame) (streamId : UInt32) : Bool :=
  frame.kind = .data && frame.streamId = streamId

/-- The frames from `index` on; only the first one is read from an offset. -/
def dataRunLoop (streamId : UInt32) :
    List MuxFrame → Nat → Nat → Nat → Except MuxFrameError (Nat × Nat)
  | [], _, index, bytes => .ok (index, bytes)
  | frame :: rest, offset, index, bytes =>
    if frame.isDataOf streamId then
      let total := bytes + (frame.payload.length - offset)
      if 2 ^ 64 ≤ total then .error .payloadTooLong
      else dataRunLoop streamId rest 0 (index + 1) total
    else
      .ok (index, bytes)

variable (frames : List MuxFrame)

def readyMuxDataRun (cursor : MuxFrameCursor) : Except MuxFrameError (Nat × Nat) :=
  match frames.drop cursor.frame with
  -- callers have a frame at the cursor
  | [] => .ok (cursor.frame, 0)
  | frame :: rest => dataRunLoop frame.streamId (frame :: rest) cursor.offset cursor.frame 0

/-- Append the next `remaining` bytes. When a frame is not used up nothing
remains, so every round has a frame of its own. -/
def copyPiece (streamId : UInt32) :
    List MuxFrame → MuxFrameCursor → Nat → List UInt8 →
      Except MuxFrameError (List UInt8 × MuxFrameCursor)
  | _, cursor, 0, out => .ok (out, cursor)
  | [], _, _ + 1, _ => .error .invalidPayloadLength
  | frame :: rest, cursor, remaining + 1, out =>
    if frame.isDataOf streamId then
      let available := frame.payload.length - cursor.offset
      let take := min (remaining + 1) available
      copyPiece streamId rest (cursor.advance frame.payload.length take) (remaining + 1 - take)
        (out ++ (frame.payload.drop cursor.offset).take take)
    else
      .error .invalidPayloadLength

def encodeMuxDataPiece (out : List UInt8) (frames : List MuxFrame)
    (cursor : MuxFrameCursor) (remaining : Nat) :
    Except MuxFrameError (List UInt8 × MuxFrameCursor) :=
  match frames.drop cursor.frame with
  | [] => .error .invalidPayloadLength
  | frame :: rest =>
    if 2 ^ 32 ≤ remaining then .error .payloadTooLong
    else do
      let header ← MuxFrame.encodeBorrowedInto frame.streamId .data [] out
      let (copied, cursor) ← copyPiece frame.streamId (frame :: rest) cursor remaining header
      -- the last four bytes of the header carry the payload length
      .ok (copied.take (header.length - 4) ++ toBeBytes remaining ++
        copied.drop header.length, cursor)

/-! ## Windows -/

def SERVER_MUX_FAIR_BATCH_BYTES : Nat := 64 * 1024

def SERVER_MUX_FRAME_BATCH_LIMIT : Nat := 64

inductive PlanError where
  | muxFrame (error : MuxFrameError)
  | capacity (len : Nat)
deriving DecidableEq, Repr

structure RecordState where
  plaintextBuf : List UInt8
  cursor : MuxFrameCursor
  hasPositiveData : Bool
deriving DecidableEq, Repr

/-- A round for a data frame whose run has bytes; `true` when the loop goes
on. -/
def dataTurn (room used : Nat) (state : RecordState)
    (runEnd runBytes : Nat) : Except PlanError (RecordState × Bool) :=
  if room ≤ MUX_FRAME_FIXED_LEN then
    if used = 0 then .error (.capacity (MUX_FRAME_FIXED_LEN + 1))
    else .ok (state, false)
  else do
    let take := muxRecordDataPieceLen runBytes (room - MUX_FRAME_FIXED_LEN)
    let (out, cursor) ←
      (encodeMuxDataPiece state.plaintextBuf frames state.cursor take).mapError .muxFrame
    if take < runBytes then .ok (⟨out, cursor, true⟩, false)
    -- empty data frames next to the data share its frame
    else .ok (⟨out, ⟨runEnd, 0⟩, true⟩, true)

def wholeTurn (frame : MuxFrame) (limit room : Nat) (state : RecordState) :
    Except PlanError (RecordState × Bool) := do
  let frameLen ← (MuxFrame.encodedLen frame.payload.length).mapError .muxFrame
  if limit < frameLen then .error (.capacity frameLen)
  else if room < frameLen then .ok (state, false)
  else do
    let out ← (frame.encodeInto state.plaintextBuf).mapError .muxFrame
    .ok ({ state with
        plaintextBuf := out
        cursor := { state.cursor with frame := state.cursor.frame + 1 } },
      true)

def recordTurn (limit recordStart : Nat)
    (state : RecordState) : Except PlanError (RecordState × Bool) :=
  let used := state.plaintextBuf.length - recordStart
  let room := limit - used
  match frames.drop state.cursor.frame with
  | [] => .ok (state, false)
  | frame :: _ =>
    if frame.kind = .data then do
      let (runEnd, runBytes) ← (readyMuxDataRun frames state.cursor).mapError .muxFrame
      if 0 < runBytes then dataTurn frames room used state runEnd runBytes
      else wholeTurn frame limit room state
    else wholeTurn frame limit room state

/-- Every round that goes on moves the cursor to a later frame, so the frames
behind the cursor bound the rounds. -/
def fillRecord (frames : List MuxFrame) (limit recordStart : Nat) :
    Nat → RecordState → Except PlanError RecordState
  | 0, state => .ok state
  | rounds + 1, state =>
    if state.cursor.frame < frames.length then do
      let (next, again) ← recordTurn frames limit recordStart state
      if again then fillRecord frames limit recordStart rounds next
      else .ok next
    else .ok state

/-- What is staged for one write. -/
structure RelaySealScratch where
  plaintextBuf : List UInt8
  recordLens : List Nat
  exactPadLens : List Nat
deriving DecidableEq, Repr

structure PlanState where
  scratch : RelaySealScratch
  cursor : MuxFrameCursor
  budget : MuxRecordBudget
  windowWireBytes : Nat
deriving DecidableEq, Repr

def windowFull (budget : MuxRecordBudget) (limit windowWireBytes : Nat) : Except PlanError Bool :=
  if budget.profile = .cloudflareDynamic then
    match muxRecordPaddingPlan budget.profile true 1 limit with
    | none => .error (.capacity limit)
    | some (_, maximumWireLen) =>
      .ok (decide (SERVER_MUX_FAIR_BATCH_BYTES < windowWireBytes + maximumWireLen))
  else
    .ok false

def closeRecord (state : PlanState) (limit : Nat) (filled : RecordState) :
    Except PlanError PlanState :=
  let len := filled.plaintextBuf.length - state.scratch.plaintextBuf.length
  if len = 0 ∨ limit < len then .error (.capacity len)
  else
    match muxRecordPaddingPlan state.budget.profile filled.hasPositiveData len limit with
    | none => .error (.capacity len)
    | some (pad, wireLen) =>
      let recordLens := state.scratch.recordLens ++ [len]
      if state.budget.profile = .cloudflareDynamic then
        if SERVER_MUX_FAIR_BATCH_BYTES < state.windowWireBytes + wireLen then
          .error (.capacity (2 ^ 64 - 1))
        else
          .ok
            { scratch :=
                { plaintextBuf := filled.plaintextBuf
                  recordLens := recordLens
                  exactPadLens := state.scratch.exactPadLens ++ [pad] }
              cursor := filled.cursor
              budget := state.budget.sentOne
              windowWireBytes := state.windowWireBytes + wireLen }
      else
        .ok
          { state with
            scratch :=
              { state.scratch with plaintextBuf := filled.plaintextBuf, recordLens := recordLens }
            cursor := filled.cursor
            budget := state.budget.sentOne }

/-- The loop of `plan_ready_mux_records`; every round adds one record. -/
def planLoop (frames : List MuxFrame) (codecMax : Nat) :
    Nat → PlanState → Except PlanError PlanState
  | 0, state => .ok state
  | records + 1, state =>
    if state.cursor.frame < frames.length then do
      let limit := state.budget.plaintextLimit codecMax
      if ← windowFull state.budget limit state.windowWireBytes then
        .ok state
      else do
        let filled ← fillRecord frames limit state.scratch.plaintextBuf.length
          (frames.length - state.cursor.frame)
          ⟨state.scratch.plaintextBuf, state.cursor, false⟩
        let next ← closeRecord state limit filled
        planLoop frames codecMax records next
    else .ok state

def planReadyMuxRecords (cursor : MuxFrameCursor)
    (budget : MuxRecordBudget) (codecMax : Nat) : Except PlanError PlanState :=
  planLoop frames codecMax SERVER_MUX_FRAME_BATCH_LIMIT ⟨⟨[], [], []⟩, cursor, budget, 0⟩

structure Window where
  scratch : RelaySealScratch
  /-- History that only proofs read: the budget the window was planned with. -/
  budget : MuxRecordBudget
deriving DecidableEq, Repr

structure WriteState where
  cursor : MuxFrameCursor
  budget : MuxRecordBudget
  written : List Window
deriving DecidableEq, Repr

/-- One round of the loop; `clock` is read before the window is planned and
after it is written. -/
def writeWindow (codecMax : Nat) (clock : Nat × Nat)
    (state : WriteState) : Except PlanError WriteState :=
  if state.cursor.frame < frames.length then do
    let budget := state.budget.forWrite clock.1
    let planned ← planReadyMuxRecords frames state.cursor budget codecMax
    .ok
      { cursor := planned.cursor
        budget := { planned.budget with lastWrite := some clock.2 }
        written := state.written ++ [⟨planned.scratch, budget⟩] }
  else
    .ok state

/-- The write loop of `write_server_mux_frames_planned` after at most `rounds`
rounds. -/
def writeWindows (frames : List MuxFrame) (codecMax : Nat)
    (clock : Nat → Nat × Nat) (budget : MuxRecordBudget) :
    Nat → Except PlanError WriteState
  | 0 => .ok ⟨⟨0, 0⟩, budget, []⟩
  | rounds + 1 => do
    let state ← writeWindows frames codecMax clock budget rounds
    writeWindow frames codecMax (clock rounds) state

/-- The plaintexts of the records of a window. -/
def cutRecords : List Nat → List UInt8 → List (List UInt8)
  | [], _ => []
  | len :: lens, buf => buf.take len :: cutRecords lens (buf.drop len)

def RelaySealScratch.records (scratch : RelaySealScratch) : List (List UInt8) :=
  cutRecords scratch.recordLens scratch.plaintextBuf

end ParallaX.Mux
