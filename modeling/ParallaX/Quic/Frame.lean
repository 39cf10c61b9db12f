import ParallaX.Codec.Reader
import ParallaX.Quic.Varint

/-!
# QUIC frames

The frame set of the relay, the encoder of each frame, and the lazy decoder
`Iter` over a packet payload. Slices borrowed from the payload are lists of
bytes here, and every `u64` is a `Nat`.
-/

namespace ParallaX.Quic

open ParallaX.Codec

@[match_pattern] abbrev FT_PADDING : Nat := 0x00
@[match_pattern] abbrev FT_PING : Nat := 0x01
@[match_pattern] abbrev FT_ACK : Nat := 0x02
@[match_pattern] abbrev FT_ACK_ECN : Nat := 0x03
@[match_pattern] abbrev FT_RESET_STREAM : Nat := 0x04
@[match_pattern] abbrev FT_STOP_SENDING : Nat := 0x05
@[match_pattern] abbrev FT_CRYPTO : Nat := 0x06
@[match_pattern] abbrev FT_NEW_TOKEN : Nat := 0x07
abbrev FT_STREAM_BASE : Nat := 0x08
abbrev FT_STREAM_MAX : Nat := 0x0f
abbrev STREAM_FIN : Nat := 0x01
abbrev STREAM_LEN : Nat := 0x02
abbrev STREAM_OFF : Nat := 0x04
@[match_pattern] abbrev FT_MAX_DATA : Nat := 0x10
@[match_pattern] abbrev FT_MAX_STREAM_DATA : Nat := 0x11
@[match_pattern] abbrev FT_MAX_STREAMS_BIDI : Nat := 0x12
@[match_pattern] abbrev FT_MAX_STREAMS_UNI : Nat := 0x13
@[match_pattern] abbrev FT_DATA_BLOCKED : Nat := 0x14
@[match_pattern] abbrev FT_STREAM_DATA_BLOCKED : Nat := 0x15
@[match_pattern] abbrev FT_STREAMS_BLOCKED_BIDI : Nat := 0x16
@[match_pattern] abbrev FT_STREAMS_BLOCKED_UNI : Nat := 0x17
@[match_pattern] abbrev FT_NEW_CONNECTION_ID : Nat := 0x18
@[match_pattern] abbrev FT_RETIRE_CONNECTION_ID : Nat := 0x19
@[match_pattern] abbrev FT_PATH_CHALLENGE : Nat := 0x1a
@[match_pattern] abbrev FT_PATH_RESPONSE : Nat := 0x1b
@[match_pattern] abbrev FT_CONNECTION_CLOSE : Nat := 0x1c
@[match_pattern] abbrev FT_APPLICATION_CLOSE : Nat := 0x1d
@[match_pattern] abbrev FT_HANDSHAKE_DONE : Nat := 0x1e

def RESET_TOKEN_LEN : Nat := 16

/-- A NEW_CONNECTION_ID length is valid only in `1..=20`. -/
def MAX_CONNECTION_ID_LEN : Nat := 20

inductive FrameError where
  | truncated
  | unknownFrame (ty : Nat)
  | malformed
deriving DecidableEq, Repr

inductive Dir where
  | bidi
  | uni
deriving DecidableEq, Repr

structure EcnCounts where
  ect0 : Nat
  ect1 : Nat
  ce : Nat
deriving DecidableEq, Repr

/-- A decoded ACK. `ranges` are inclusive `(low, high)` pairs in descending
order, and the first of them covers `largest`. -/
structure Ack where
  largest : Nat
  delay : Nat
  ranges : List (Nat × Nat)
  ecn : Option EcnCounts
deriving DecidableEq, Repr

/-- CONNECTION_CLOSE, or APPLICATION_CLOSE when `application` is set. -/
structure Close where
  application : Bool
  errorCode : Nat
  frameType : Nat
  reason : List UInt8
deriving DecidableEq, Repr

inductive Frame where
  | padding (count : Nat)
  | ping
  | ack (ack : Ack)
  | resetStream (id errorCode finalSize : Nat)
  | stopSending (id errorCode : Nat)
  | crypto (offset : Nat) (data : List UInt8)
  | newToken (token : List UInt8)
  | stream (id offset : Nat) (fin : Bool) (data : List UInt8)
  | maxData (max : Nat)
  | maxStreamData (id max : Nat)
  | maxStreams (dir : Dir) (max : Nat)
  | dataBlocked (limit : Nat)
  | streamDataBlocked (id limit : Nat)
  | streamsBlocked (dir : Dir) (limit : Nat)
  | newConnectionId (seq retirePriorTo : Nat) (cid resetToken : List UInt8)
  | retireConnectionId (seq : Nat)
  | pathChallenge (data : Nat)
  | pathResponse (data : Nat)
  | close (close : Close)
  | handshakeDone
deriving DecidableEq, Repr

/-! ## Encoder -/

/-- The gap and length fields of the ranges below `prevSmallest`. -/
def encodeAckRanges : Nat → List (Nat × Nat) → List UInt8
  | _, [] => []
  | prevSmallest, (low, high) :: more =>
    Varint.encode (prevSmallest - high - 2) ++
      (Varint.encode (high - low) ++ encodeAckRanges low more)

def encodeEcn : Option EcnCounts → List UInt8
  | none => []
  | some counts =>
    Varint.encode counts.ect0 ++ (Varint.encode counts.ect1 ++ Varint.encode counts.ce)

/-- An ACK without ranges has no wire form and encodes to nothing. -/
def encodeAck (ack : Ack) : List UInt8 :=
  match ack.ranges with
  | [] => []
  | (firstLow, firstHigh) :: more =>
    Varint.encode (if ack.ecn.isSome then FT_ACK_ECN else FT_ACK) ++
      (Varint.encode firstHigh ++
        (Varint.encode ack.delay ++
          (Varint.encode (ack.ranges.length - 1) ++
            (Varint.encode (firstHigh - firstLow) ++
              (encodeAckRanges firstLow more ++ encodeEcn ack.ecn)))))

/-- The STREAM codepoint: the length is always explicit, the offset only when
it is not zero. -/
def streamType (offset : Nat) (fin : Bool) : Nat :=
  (FT_STREAM_BASE ||| STREAM_LEN) |||
    (if offset ≠ 0 then STREAM_OFF else 0) |||
    (if fin then STREAM_FIN else 0)

def Frame.encode : Frame → List UInt8
  | .padding count => List.replicate count 0
  | .ping => Varint.encode FT_PING
  | .ack fields => encodeAck fields
  | .resetStream id errorCode finalSize =>
    Varint.encode FT_RESET_STREAM ++
      (Varint.encode id ++ (Varint.encode errorCode ++ Varint.encode finalSize))
  | .stopSending id errorCode =>
    Varint.encode FT_STOP_SENDING ++ (Varint.encode id ++ Varint.encode errorCode)
  | .crypto offset data =>
    Varint.encode FT_CRYPTO ++ (Varint.encode offset ++ (Varint.encode data.length ++ data))
  | .newToken token => Varint.encode FT_NEW_TOKEN ++ (Varint.encode token.length ++ token)
  | .stream id offset fin data =>
    Varint.encode (streamType offset fin) ++
      (Varint.encode id ++
        ((if offset ≠ 0 then Varint.encode offset else []) ++ (Varint.encode data.length ++ data)))
  | .maxData max => Varint.encode FT_MAX_DATA ++ Varint.encode max
  | .maxStreamData id max =>
    Varint.encode FT_MAX_STREAM_DATA ++ (Varint.encode id ++ Varint.encode max)
  | .maxStreams dir max =>
    Varint.encode
        (match dir with
          | .bidi => FT_MAX_STREAMS_BIDI
          | .uni => FT_MAX_STREAMS_UNI) ++ Varint.encode max
  | .dataBlocked limit => Varint.encode FT_DATA_BLOCKED ++ Varint.encode limit
  | .streamDataBlocked id limit =>
    Varint.encode FT_STREAM_DATA_BLOCKED ++ (Varint.encode id ++ Varint.encode limit)
  | .streamsBlocked dir limit =>
    Varint.encode
        (match dir with
          | .bidi => FT_STREAMS_BLOCKED_BIDI
          | .uni => FT_STREAMS_BLOCKED_UNI) ++ Varint.encode limit
  | .newConnectionId seq retirePriorTo cid resetToken =>
    Varint.encode FT_NEW_CONNECTION_ID ++
      (Varint.encode seq ++
        (Varint.encode retirePriorTo ++ ((UInt8.ofNat cid.length :: cid) ++ resetToken)))
  | .retireConnectionId seq => Varint.encode FT_RETIRE_CONNECTION_ID ++ Varint.encode seq
  | .pathChallenge data => Varint.encode FT_PATH_CHALLENGE ++ Varint.toBeBytes 8 data
  | .pathResponse data => Varint.encode FT_PATH_RESPONSE ++ Varint.toBeBytes 8 data
  | .close fields =>
    Varint.encode
        (if fields.application then FT_APPLICATION_CLOSE
          else FT_CONNECTION_CLOSE) ++
      (Varint.encode fields.errorCode ++
        ((if fields.application then [] else Varint.encode fields.frameType) ++
          (Varint.encode fields.reason.length ++ fields.reason)))
  | .handshakeDone => Varint.encode FT_HANDSHAKE_DONE

/-- The payload `seal_packet` builds: the encodings one after another. -/
def encodeFrames (frames : List Frame) : List UInt8 := frames.flatMap Frame.encode

/-! ## Decoder -/

abbrev FrameReader := Reader UInt8 FrameError

def readVarint : FrameReader Nat := fun cursor =>
  if cursor.buf.length < cursor.pos then
    (.error .truncated, cursor)
  else
    match Varint.decode cursor.rest with
    | some (value, len) => (.ok value, cursor.advance len)
    | none => (.error .truncated, cursor)

def take (count : Nat) : FrameReader (List UInt8) := fun cursor =>
  if cursor.buf.length < cursor.pos + count then (.error .truncated, cursor)
  else (.ok (cursor.rest.take count), cursor.advance count)

/-- A length prefix. On a 64-bit target every varint fits a `usize`. -/
def readVarintLen : FrameReader Nat := readVarint

def readU64Be : FrameReader Nat := do
  let bytes ← take 8
  pure (Varint.ofBeBytes 0 bytes)

def peekByte : FrameReader Nat := fun cursor =>
  match cursor.buf[cursor.pos]? with
  | some byte => (.ok byte.toNat, cursor)
  | none => (.error .truncated, cursor)

def skip (count : Nat) : FrameReader Unit := fun cursor =>
  (.ok (), cursor.advance count)

def zeroRun : List UInt8 → Nat
  | [] => 0
  | byte :: tail => if byte = 0 then zeroRun tail + 1 else 0

/-- The rest of a PADDING run whose first byte has been read as the type. -/
def parsePadding : FrameReader Frame := fun cursor =>
  (.ok (.padding (1 + zeroRun cursor.rest)), cursor.advance (zeroRun cursor.rest))

def parseAckRanges : Nat → Nat → FrameReader (List (Nat × Nat))
  | 0, _ => pure []
  | count + 1, smallest => do
    let gap ← readVarint
    let len ← readVarint
    if smallest < gap + 2 then Reader.fail .malformed
    else if smallest - (gap + 2) < len then Reader.fail .malformed
    else
      let high := smallest - (gap + 2)
      let low := high - len
      let more ← parseAckRanges count low
      pure ((low, high) :: more)

def parseEcn : Bool → FrameReader (Option EcnCounts)
  | false => pure none
  | true => do
    let ect0 ← readVarint
    let ect1 ← readVarint
    let ce ← readVarint
    pure (some { ect0, ect1, ce })

def parseAck (hasEcn : Bool) : FrameReader Frame := do
  let largest ← readVarint
  let delay ← readVarint
  let rangeCount ← readVarint
  let firstRange ← readVarint
  if largest < firstRange then Reader.fail .malformed
  else
    let firstLow := largest - firstRange
    let more ← parseAckRanges rangeCount firstLow
    let ecn ← parseEcn hasEcn
    pure (.ack { largest, delay, ranges := (firstLow, largest) :: more, ecn })

/-- STREAM data without a length runs to the end of the packet. -/
def takeRest : FrameReader (List UInt8) := fun cursor =>
  (.ok cursor.rest, { cursor with pos := cursor.buf.length })

variable (ty : Nat)

def parseStreamOffset : FrameReader Nat :=
  if ty &&& STREAM_OFF ≠ 0 then readVarint else pure 0

def parseStreamData : FrameReader (List UInt8) :=
  if ty &&& STREAM_LEN ≠ 0 then readVarintLen >>= take else takeRest

def parseStream : FrameReader Frame := do
  let id ← readVarint
  let offset ← parseStreamOffset ty
  let data ← parseStreamData ty
  pure (.stream id offset (decide (ty &&& STREAM_FIN ≠ 0)) data)

/-- The length byte of a connection id is checked before it is stepped over. -/
def parseCid : FrameReader (List UInt8) := do
  let cidLen ← peekByte
  if 1 ≤ cidLen ∧ cidLen ≤ MAX_CONNECTION_ID_LEN then
    skip 1 >>= fun _ => take cidLen
  else Reader.fail .malformed

def parseNewConnectionId : FrameReader Frame := do
  let seq ← readVarint
  let retirePriorTo ← readVarint
  let cid ← parseCid
  let resetToken ← take RESET_TOKEN_LEN
  pure (.newConnectionId seq retirePriorTo cid resetToken)

def parseCloseFrameType (application : Bool) : FrameReader Nat :=
  if application then pure 0 else readVarint

def parseClose (application : Bool) : FrameReader Frame := do
  let errorCode ← readVarint
  let frameType ← parseCloseFrameType application
  let reason ← readVarintLen >>= take
  pure (.close { application, errorCode, frameType, reason })

def parseBody : FrameReader Frame :=
  match ty with
  | FT_PADDING => parsePadding
  | FT_PING => pure .ping
  | FT_ACK => parseAck false
  | FT_ACK_ECN => parseAck true
  | FT_RESET_STREAM => do
    let id ← readVarint
    let errorCode ← readVarint
    let finalSize ← readVarint
    pure (.resetStream id errorCode finalSize)
  | FT_STOP_SENDING => do
    let id ← readVarint
    let errorCode ← readVarint
    pure (.stopSending id errorCode)
  | FT_CRYPTO => do
    let offset ← readVarint
    let data ← readVarintLen >>= take
    pure (.crypto offset data)
  | FT_NEW_TOKEN => do
    let token ← readVarintLen >>= take
    pure (.newToken token)
  | FT_MAX_DATA => do
    let max ← readVarint
    pure (.maxData max)
  | FT_MAX_STREAM_DATA => do
    let id ← readVarint
    let max ← readVarint
    pure (.maxStreamData id max)
  | FT_MAX_STREAMS_BIDI => do
    let max ← readVarint
    pure (.maxStreams .bidi max)
  | FT_MAX_STREAMS_UNI => do
    let max ← readVarint
    pure (.maxStreams .uni max)
  | FT_DATA_BLOCKED => do
    let limit ← readVarint
    pure (.dataBlocked limit)
  | FT_STREAM_DATA_BLOCKED => do
    let id ← readVarint
    let limit ← readVarint
    pure (.streamDataBlocked id limit)
  | FT_STREAMS_BLOCKED_BIDI => do
    let limit ← readVarint
    pure (.streamsBlocked .bidi limit)
  | FT_STREAMS_BLOCKED_UNI => do
    let limit ← readVarint
    pure (.streamsBlocked .uni limit)
  | FT_NEW_CONNECTION_ID => parseNewConnectionId
  | FT_RETIRE_CONNECTION_ID => do
    let seq ← readVarint
    pure (.retireConnectionId seq)
  | FT_PATH_CHALLENGE => do
    let data ← readU64Be
    pure (.pathChallenge data)
  | FT_PATH_RESPONSE => do
    let data ← readU64Be
    pure (.pathResponse data)
  | FT_CONNECTION_CLOSE => parseClose false
  | FT_APPLICATION_CLOSE => parseClose true
  | FT_HANDSHAKE_DONE => pure .handshakeDone
  | other =>
    if FT_STREAM_BASE ≤ other ∧ other ≤ FT_STREAM_MAX then parseStream other
    else Reader.fail (.unknownFrame other)

/-- The lazy decoder over a payload, with the wire type of the last frame. -/
structure Iter extends Cursor UInt8 where
  lastFrameType : Nat
deriving DecidableEq, Repr

namespace Iter

def new (buf : List UInt8) : Iter := { buf, pos := 0, lastFrameType := 0 }

def parseOne (iter : Iter) : Except FrameError Frame × Iter :=
  match readVarint iter.toCursor with
  | (.error failure, cursor) => (.error failure, { toCursor := cursor, lastFrameType := 0 })
  | (.ok ty, cursor) =>
    let (result, later) := parseBody ty cursor
    (result, { toCursor := later, lastFrameType := ty })

/-- One call of the iterator. After an error the position is the end of the
payload, so that the next call returns `none`. -/
def next (iter : Iter) : Option (Except FrameError Frame × Iter) :=
  if iter.buf.length ≤ iter.pos then none
  else
    match iter.parseOne with
    | (.ok frame, later) => some (.ok frame, later)
    | (.error failure, later) => some (.error failure, { later with pos := later.buf.length })

/-- Successive calls return exactly these frames and then `none`. -/
def Yields : Iter → List Frame → Prop
  | iter, [] => iter.next = none
  | iter, frame :: frames => ∃ later, iter.next = some (.ok frame, later) ∧ later.Yields frames

end Iter

end ParallaX.Quic
