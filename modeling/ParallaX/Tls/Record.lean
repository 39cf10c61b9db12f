import Mathlib.Algebra.Group.Nat.Defs
import Mathlib.Data.List.Basic

/-!
# TLS records

Headers of records and the reader that cuts a byte stream into records.
-/

namespace ParallaX.Tls.Record

def TLS_HEADER_LEN : Nat := 5

def TLS_CONTENT_HANDSHAKE : UInt8 := 0x16

def TLS_CONTENT_APPLICATION_DATA : UInt8 := 0x17

def TLS_CONTENT_ALERT : UInt8 := 0x15

def TLS_CONTENT_CHANGE_CIPHER_SPEC : UInt8 := 0x14

def MAX_TLS_RECORD_PAYLOAD : Nat := 16 * 1024

structure TlsRecordHeader where
  contentType : UInt8
  legacyVersion : List UInt8
  payloadLen : Nat
  totalLen : Nat
deriving DecidableEq, Repr

inductive TlsRecordError where
  | incompleteHeader
  | incompletePayload
  | payloadTooLarge (len : Nat)
deriving DecidableEq, Repr

def TlsRecordError.message : TlsRecordError → String
  | .incompleteHeader => "TLS record header is incomplete"
  | .incompletePayload => "TLS record payload is incomplete"
  | .payloadTooLarge len => "TLS record payload exceeds limit: " ++ toString len

def parseHeader (buf : List UInt8) : Except TlsRecordError TlsRecordHeader :=
  match buf with
  | contentType :: major :: minor :: high :: low :: _ =>
    let payloadLen := high.toNat * 2 ^ 8 + low.toNat
    if MAX_TLS_RECORD_PAYLOAD + 256 < payloadLen then
      .error (.payloadTooLarge payloadLen)
    else
      .ok
        { contentType := contentType
          legacyVersion := [major, minor]
          payloadLen := payloadLen
          totalLen := TLS_HEADER_LEN + payloadLen }
  | _ => .error .incompleteHeader

theorem totalLen_of_parseHeader {buf : List UInt8} {header : TlsRecordHeader}
    (parsed : parseHeader buf = .ok header) :
    header.totalLen = TLS_HEADER_LEN + header.payloadLen := by
  unfold parseHeader at parsed
  split at parsed
  · dsimp only at parsed
    split at parsed
    · cases parsed
    · cases parsed
      rfl
  · cases parsed

def parseExact (buf : List UInt8) : Except TlsRecordError (TlsRecordHeader × List UInt8) := do
  let header ← parseHeader buf
  if buf.length < header.totalLen then .error .incompletePayload
  else .ok (header, (buf.take header.totalLen).drop TLS_HEADER_LEN)

inductive ReadError where
  | unexpectedEof (reason : String)
  | invalidData (reason : String)
deriving DecidableEq, Repr

/-- The next record of a stream that ends behind its last byte, and the bytes
after it. -/
def readRecord (stream : List UInt8) : Except ReadError (List UInt8 × List UInt8) :=
  if stream.length < TLS_HEADER_LEN then
    .error (.unexpectedEof "TLS record header ended early")
  else
    match parseHeader (stream.take TLS_HEADER_LEN) with
    | .error failure =>
      .error (.invalidData ("invalid TLS record header: " ++ failure.message))
    | .ok header =>
      if stream.length < header.totalLen then
        .error (.unexpectedEof "TLS record payload ended early")
      else
        .ok (stream.take header.totalLen, stream.drop header.totalLen)

end ParallaX.Tls.Record
