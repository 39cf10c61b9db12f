import ParallaX.Quic.Frame

/-!
# Packets

Packet headers, packet-number truncation, and sealed packets. The AEAD and the
header protection are ideal: a sealed packet keeps its plaintext and the key it
was sealed under, and it opens under exactly that key at exactly its packet
number.
-/

namespace ParallaX.Quic

def MAX_CID_LEN : Nat := 20

structure ConnectionId where
  bytes : List UInt8
  length_le : bytes.length ≤ MAX_CID_LEN
deriving DecidableEq

namespace ConnectionId

def len (cid : ConnectionId) : Nat := cid.bytes.length

def empty : ConnectionId := ⟨[], Nat.zero_le _⟩

end ConnectionId

/-- The length in bytes of a truncated packet number. -/
def encodePacketNumber (fullPn : Nat) (largestAcked : Option Nat) : Nat :=
  let numUnacked := largestAcked.elim (fullPn + 1) (fullPn - ·)
  let twice := numUnacked * 2
  if twice < 2 ^ 8 then 1
  else if twice < 2 ^ 16 then 2
  else if twice < 2 ^ 24 then 3
  else 4

def decodePacketNumber (largestPn truncated pnLen : Nat) : Nat :=
  let pnLen := min (max pnLen 1) 4
  let expected := (largestPn + 1) % 2 ^ 64
  let pnWin := 2 ^ (8 * pnLen)
  let pnHwin := pnWin / 2
  let candidate := expected / pnWin * pnWin + truncated
  if candidate + pnHwin ≤ expected ∧ candidate < 2 ^ 62 - pnWin then
    candidate + pnWin
  else if expected + pnHwin < candidate ∧ pnWin ≤ candidate then candidate - pnWin
  else candidate

/-! ## Headers -/

inductive LongType where
  | initial
  | zeroRtt
  | handshake
  | retry
deriving DecidableEq, Repr

def LongType.typeBits : LongType → Nat
  | .initial => 0x00
  | .zeroRtt => 0x10
  | .handshake => 0x20
  | .retry => 0x30

inductive Header where
  | long (ty : LongType) (version : Nat) (dcid scid : ConnectionId)
      (token : List UInt8) (length packetNumber pnLen : Nat)
  | short (spin keyPhase : Bool) (dcid : ConnectionId) (packetNumber pnLen : Nat)
deriving DecidableEq

namespace Header

def packetNumber : Header → Nat
  | .long _ _ _ _ _ _ packetNumber _ => packetNumber
  | .short _ _ _ packetNumber _ => packetNumber

def pnLen : Header → Nat
  | .long _ _ _ _ _ _ _ pnLen => pnLen
  | .short _ _ _ _ pnLen => pnLen

def encodeToPn : Header → List UInt8
  | .long ty version dcid scid token length _ pnLen =>
    UInt8.ofNat (0x80 ||| 0x40 ||| ty.typeBits ||| (pnLen - 1)) ::
      (Varint.toBeBytes 4 version ++
        (UInt8.ofNat dcid.len :: dcid.bytes ++
          (UInt8.ofNat scid.len :: scid.bytes ++
            ((if ty = .initial then
                Varint.encode token.length ++ token
              else []) ++ Varint.encode length))))
  | .short spin keyPhase dcid _ pnLen =>
    UInt8.ofNat
        (0x40 ||| (pnLen - 1) ||| (if spin then 0x20 else 0) ||| (if keyPhase then 0x04 else 0)) ::
      dcid.bytes

variable (header : Header)

def encode : List UInt8 := header.encodeToPn ++ Varint.toBeBytes header.pnLen header.packetNumber

def pnOffset : Nat := header.encodeToPn.length

/-- The Length field of a long header is known once the payload is. -/
def withLength (length : Nat) : Header :=
  match header with
  | .long ty version dcid scid token _ packetNumber pnLen =>
    .long ty version dcid scid token length packetNumber pnLen
  | .short spin keyPhase dcid packetNumber pnLen => .short spin keyPhase dcid packetNumber pnLen

end Header

/-- The protection level of a received packet.  0-RTT shares the packet-number
space of 1-RTT, but not its keys. -/
inductive PacketSpace where
  | initial
  | zeroRtt
  | handshake
  | oneRtt
deriving DecidableEq, Repr

/-- An AEAD key: its secret, which only its identity matters of, and the
limits of its cipher. -/
structure PacketKey where
  secret : Nat
  tagLen : Nat
  confidentialityLimit : Nat
  integrityLimit : Nat
deriving DecidableEq, Repr

structure Keys where
  localKey : PacketKey
  remoteKey : PacketKey
deriving DecidableEq, Repr

/-! ## Sealed packets -/

/-- A packet as its sender sealed it. -/
structure Packet where
  header : Header
  key : PacketKey
  frames : List Frame
deriving DecidableEq

/-- Seal one packet; the Length field of a long header is computed here. -/
def sealPacket (key : PacketKey) (header : Header) (frames : List Frame) : Packet :=
  let length := header.pnLen + (encodeFrames frames).length + key.tagLen
  { header := header.withLength length, key := key, frames := frames }

namespace Packet

def len (packet : Packet) : Nat :=
  packet.header.encode.length + (encodeFrames packet.frames).length + packet.key.tagLen

end Packet

/-- One packet of a received datagram. Its bytes may be anyone's, so the key
they are sealed under may be no key at all. -/
structure WirePacket where
  /-- The level its first byte announces. -/
  level : Option PacketSpace
  longCids : Option (ConnectionId × ConnectionId)
  keyPhase : Bool
  packetNumber : Nat
  pnLen : Nat
  key : Option PacketKey
  payload : List UInt8
  /-- Its Length field ends inside the datagram, so that another packet may
  follow. -/
  delimited : Bool
deriving DecidableEq

namespace WirePacket

variable (packet : WirePacket)

def truncatedPn : Nat := packet.packetNumber % 2 ^ (8 * packet.pnLen)

def reconstructedPn (largestPn : Option Nat) : Nat :=
  decodePacketNumber (largestPn.getD 0) packet.truncatedPn packet.pnLen

/-- The payload, if `key` is the key of the packet and the reconstructed number
is the one it was sealed with. -/
def openPayload (key : PacketKey) (largestPn : Option Nat) : Option (List UInt8) :=
  if packet.key = some key ∧
      packet.reconstructedPn largestPn = packet.packetNumber then
    some packet.payload
  else
    none

end WirePacket

/-- A received datagram: its packets in order, and its length in bytes. -/
structure Datagram where
  packets : List WirePacket
  len : Nat
deriving DecidableEq

end ParallaX.Quic
