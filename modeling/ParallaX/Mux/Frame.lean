import Mathlib.Tactic.NormNum

/-!
# Mux frames

The frames that the substreams of a connection are multiplexed with, and their
wire format.
-/

namespace ParallaX.Mux

open List

inductive MuxFrameKind where
  | «open»
  | data
  | fin
  | reset
  | cover
deriving DecidableEq, Repr

structure MuxFrame where
  streamId : UInt32
  kind : MuxFrameKind
  payload : List UInt8
deriving DecidableEq, Repr

inductive MuxFrameError where
  | truncated
  | badMagic
  | invalidKind
  | invalidStreamId
  | payloadTooLong
  | invalidPayloadLength
deriving DecidableEq, Repr

/-- `PX1M`. -/
def MUX_FRAME_MAGIC : List UInt8 := [0x50, 0x58, 0x31, 0x4d]

def MUX_FRAME_FIXED_LEN : Nat := 4 + 4 + 1 + 4

def toBeBytes (n : Nat) : List UInt8 :=
  [UInt8.ofNat (n / 2 ^ 24), UInt8.ofNat (n / 2 ^ 16), UInt8.ofNat (n / 2 ^ 8), UInt8.ofNat n]

def fromBeBytes (b0 b1 b2 b3 : UInt8) : Nat :=
  b0.toNat * 2 ^ 24 + b1.toNat * 2 ^ 16 + b2.toNat * 2 ^ 8 + b3.toNat

namespace MuxFrameKind

def toWire : MuxFrameKind → UInt8
  | .open => 1
  | .data => 2
  | .fin => 3
  | .reset => 4
  | .cover => 5

def fromWire (value : UInt8) : Except MuxFrameError MuxFrameKind :=
  if value = 1 then .ok .open
  else if value = 2 then .ok .data
  else if value = 3 then .ok .fin
  else if value = 4 then .ok .reset
  else if value = 5 then .ok .cover
  else .error .invalidKind

theorem fromWire_toWire (kind : MuxFrameKind) : fromWire kind.toWire = .ok kind := by
  cases kind <;> rfl

end MuxFrameKind

def validateMuxStream (kind : MuxFrameKind) (streamId : UInt32) : Except MuxFrameError Unit :=
  if kind = .cover ↔ streamId = 0 then .ok () else .error .invalidStreamId

namespace MuxFrame

def encodedLen (payloadLen : Nat) : Except MuxFrameError Nat :=
  if 2 ^ 32 ≤ payloadLen then .error .payloadTooLong
  else .ok (MUX_FRAME_FIXED_LEN + payloadLen)

variable (streamId : UInt32)

/-- The bytes of a frame that the encoder accepts. -/
def wire (kind : MuxFrameKind) (payload : List UInt8) : List UInt8 :=
  MUX_FRAME_MAGIC ++ (toBeBytes streamId.toNat ++
    (kind.toWire :: (toBeBytes payload.length ++ payload)))

def encodeBorrowedInto (kind : MuxFrameKind)
    (payload out : List UInt8) : Except MuxFrameError (List UInt8) := do
  validateMuxStream kind streamId
  if 2 ^ 32 ≤ payload.length then .error .payloadTooLong
  else .ok (out ++ wire streamId kind payload)

def encodeInto (frame : MuxFrame) (out : List UInt8) : Except MuxFrameError (List UInt8) :=
  encodeBorrowedInto frame.streamId frame.kind frame.payload out

/-- The first frame of the input and the bytes it takes. -/
def decodePrefix (input : List UInt8) : Except MuxFrameError (MuxFrame × Nat) :=
  if input.length < 4 then
    .error .truncated
  else if input.take 4 ≠ MUX_FRAME_MAGIC then
    .error .badMagic
  else
    match input.drop 4 with
    | s0 :: s1 :: s2 :: s3 :: kindByte :: l0 :: l1 :: l2 :: l3 :: rest => do
      let streamId := UInt32.ofNat (fromBeBytes s0 s1 s2 s3)
      let kind ← MuxFrameKind.fromWire kindByte
      validateMuxStream kind streamId
      let len := fromBeBytes l0 l1 l2 l3
      let used ← encodedLen len
      if input.length < used then .error .invalidPayloadLength
      else .ok (⟨streamId, kind, rest.take len⟩, used)
    | _ => .error .truncated

/-- Every frame takes at least thirteen bytes, so the length of the input bounds
the rounds. -/
def decodeLoop : Nat → List UInt8 → Except MuxFrameError (List MuxFrame)
  | 0, _ => .ok []
  | rounds + 1, input =>
    if input.isEmpty then .ok []
    else do
      let (frame, used) ← decodePrefix input
      let frames ← decodeLoop rounds (input.drop used)
      .ok (frame :: frames)

def decodeAll (input : List UInt8) : Except MuxFrameError (List MuxFrame) :=
  decodeLoop input.length input

/-- The frames that can be written. -/
structure Valid (frame : MuxFrame) : Prop where
  stream : frame.kind = .cover ↔ frame.streamId = 0
  length : frame.payload.length < 2 ^ 32

/-! ## Round trip -/

theorem fromBeBytes_toBeBytes {n : Nat} (small : n < 2 ^ 32) :
    fromBeBytes (UInt8.ofNat (n / 2 ^ 24)) (UInt8.ofNat (n / 2 ^ 16))
      (UInt8.ofNat (n / 2 ^ 8)) (UInt8.ofNat n) = n := by
  simp only [fromBeBytes, UInt8.toNat_ofNat']
  omega

variable {frame : MuxFrame} {frames : List MuxFrame}

theorem Valid.validate (valid : frame.Valid) :
    validateMuxStream frame.kind frame.streamId = .ok () := by
  rw [validateMuxStream, if_pos valid.stream]

theorem encodedLen_of_valid (valid : frame.Valid) :
    encodedLen frame.payload.length = .ok (MUX_FRAME_FIXED_LEN + frame.payload.length) := by
  rw [encodedLen, if_neg (Nat.not_le.mpr valid.length)]

theorem encodeInto_of_valid (valid : frame.Valid) (out : List UInt8) :
    frame.encodeInto out = .ok (out ++ wire frame.streamId frame.kind frame.payload) := by
  rw [encodeInto, encodeBorrowedInto, valid.validate]
  exact if_neg (Nat.not_le.mpr valid.length)

theorem length_wire (kind : MuxFrameKind) (payload : List UInt8) :
    (wire streamId kind payload).length = MUX_FRAME_FIXED_LEN + payload.length := by
  simp [wire, MUX_FRAME_MAGIC, toBeBytes, MUX_FRAME_FIXED_LEN]
  omega

/-- The decoder reads back a frame wherever it stands first. -/
theorem decodePrefix_wire (valid : frame.Valid) (rest : List UInt8) :
    decodePrefix (wire frame.streamId frame.kind frame.payload ++ rest) =
      .ok (frame, MUX_FRAME_FIXED_LEN + frame.payload.length) := by
  have stream := fromBeBytes_toBeBytes frame.streamId.toNat_lt
  have length := fromBeBytes_toBeBytes valid.length
  have enough : ¬(wire frame.streamId frame.kind frame.payload ++ rest).length <
      MUX_FRAME_FIXED_LEN + frame.payload.length := by
    rw [length_append, length_wire]
    omega
  have long : ¬(wire frame.streamId frame.kind frame.payload ++ rest).length < 4 := by
    simp [wire, MUX_FRAME_MAGIC]
  have magic : (wire frame.streamId frame.kind frame.payload ++ rest).take 4 =
      MUX_FRAME_MAGIC := rfl
  have header : (wire frame.streamId frame.kind frame.payload ++ rest).drop 4 =
      toBeBytes frame.streamId.toNat ++ (frame.kind.toWire ::
        (toBeBytes frame.payload.length ++ (frame.payload ++ rest))) := by
    simp [wire, MUX_FRAME_MAGIC]
  rw [decodePrefix, if_neg long, if_neg (not_not.mpr magic), header]
  simp only [toBeBytes, cons_append, nil_append]
  rw [stream, length, UInt32.ofNat_toNat, MuxFrameKind.fromWire_toWire]
  simp only [bind, Except.bind, valid.validate, encodedLen_of_valid valid]
  rw [if_neg enough, take_left]

def wires (frames : List MuxFrame) : List UInt8 :=
  frames.flatMap fun frame => wire frame.streamId frame.kind frame.payload

theorem decodeLoop_wires (valid : ∀ frame ∈ frames, frame.Valid) {rounds : Nat}
    (enough : (wires frames).length ≤ rounds) : decodeLoop rounds (wires frames) = .ok frames := by
  induction frames generalizing rounds with
  | nil =>
    cases rounds with
    | zero => rfl
    | succ => rfl
  | cons frame frames ih =>
    have first := valid frame mem_cons_self
    have cut : wires (frame :: frames) =
        wire frame.streamId frame.kind frame.payload ++ wires frames := rfl
    have length := length_wire frame.streamId frame.kind frame.payload
    rw [cut, length_append, length] at enough
    obtain ⟨rounds, rfl⟩ : ∃ less, rounds = less + 1 :=
      ⟨rounds - 1, by simp only [MUX_FRAME_FIXED_LEN] at enough; omega⟩
    have onward := ih (fun other member => valid other (mem_cons_of_mem _ member))
      (show (wires frames).length ≤ rounds by simp only [MUX_FRAME_FIXED_LEN] at enough; omega)
    have nonempty : (wire frame.streamId frame.kind frame.payload ++
        wires frames).isEmpty = false := rfl
    rw [decodeLoop, cut, nonempty]
    simp only [Bool.false_eq_true, if_false, bind, Except.bind,
      decodePrefix_wire first, ← length, drop_left, onward]

theorem decodeAll_wires (valid : ∀ frame ∈ frames, frame.Valid) :
    decodeAll (wires frames) = .ok frames :=
  decodeLoop_wires valid le_rfl

end MuxFrame

end ParallaX.Mux
