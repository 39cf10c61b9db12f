import ParallaX.Codec.Reader
import ParallaX.Tls.Record

/-!
# The server flight of the Safari client

How the client of the TLS-over-TCP leg reads the encrypted messages of a server
through its Finished. Ciphers, hashes, signatures and the certificate store are
parameters. What a flight keeps of the messages it accepted is what their
signature and their MAC were checked for.
-/

namespace ParallaX.Safari26

open Codec Tls.Record List

inductive ServerHelloError where
  | record (failure : TlsRecordError)
  | notHandshakeRecord
  | notServerHello
  | truncated
  | invalidLength
deriving DecidableEq, Repr

inductive Safari26TlsError where
  | io (failure : ReadError)
  | serverHello (failure : ServerHelloError)
  | missingServerHello
  | inflate
  | invalidServerName (name : String)
  | handshake (reason : String)
  | unsupported (path : String)
  | alert (level description : UInt8)
  | certificate (reason : String)
  | aead
  | hkdf
deriving DecidableEq, Repr

def MAX_DECOMPRESSED_CERT_CHAIN : Nat := 256 * 1024

def MAX_CHANGE_CIPHER_SPEC_RECORDS : Nat := 2

def MAX_ENCRYPTED_HANDSHAKE_MESSAGE : Nat := 512 * 1024

def MAX_SERVER_FLIGHT_RECORDS : Nat := 256

def MAX_SERVER_FLIGHT_DECRYPTED_BYTES : Nat := MAX_ENCRYPTED_HANDSHAKE_MESSAGE + 64 * 1024

def HANDSHAKE_ENCRYPTED_EXTENSIONS : UInt8 := 0x08

def HANDSHAKE_CERTIFICATE : UInt8 := 0x0b

def HANDSHAKE_CERTIFICATE_VERIFY : UInt8 := 0x0f

def HANDSHAKE_FINISHED : UInt8 := 0x14

def HANDSHAKE_COMPRESSED_CERTIFICATE : UInt8 := 0x19

def EXT_SERVER_NAME : Nat := 0x0000

def EXT_SUPPORTED_GROUPS : Nat := 0x000a

def EXT_ALPN : Nat := 0x0010

def CERT_COMPRESSION_ZLIB : Nat := 0x0001

def AEAD_TAG_LEN : Nat := 16

def OFFERED_ALPN : List (List UInt8) :=
  ["h2".toUTF8.toList, "http/1.1".toUTF8.toList]

abbrev TlsReader (α : Type) : Type := Reader UInt8 Safari26TlsError α

namespace TlsCursor

section

variable {E α : Type}

def remaining : Reader UInt8 E Nat := fun cursor => (.ok (cursor.buf.length - cursor.pos), cursor)

/-- The next bytes, or a failure where fewer are left. -/
def bytesOr (failure : E) (len : Nat) : Reader UInt8 E (List UInt8) := fun cursor =>
  if cursor.buf.length - cursor.pos < len then (.error failure, cursor)
  else (.ok (cursor.rest.take len), cursor.advance len)

def bigEndian (digits : List UInt8) : Nat :=
  digits.foldl (fun value digit => value * 2 ^ 8 + digit.toNat) 0

def numberOr (failure : E) (len : Nat) : Reader UInt8 E Nat := do
  pure (bigEndian (← bytesOr failure len))

def parse (reader : Reader UInt8 E α) (data : List UInt8) : Except E α := (reader ⟨data, 0⟩).1

/-- A result that was computed from bytes read before. -/
def lift (result : Except E α) : Reader UInt8 E α := fun cursor => (result, cursor)

end

def bytes (len : Nat) : TlsReader (List UInt8) := bytesOr (.handshake "TLS data truncated") len

def number (len : Nat) : TlsReader Nat := numberOr (.handshake "TLS data truncated") len

def u8 : TlsReader Nat := number 1

def u16 : TlsReader Nat := number 2

def u24 : TlsReader Nat := number 3

def vecU8 : TlsReader (List UInt8) := do bytes (← u8)

def vecU16 : TlsReader (List UInt8) := do bytes (← u16)

def vecU24 : TlsReader (List UInt8) := do bytes (← u24)

end TlsCursor

open TlsCursor

/-! ## Messages -/

/-- The first protocol of the list that the server returns. -/
def parseSelectedAlpn (data : List UInt8) : Except Safari26TlsError (List UInt8) := do
  let list ← parse vecU16 data
  parse vecU8 list

/-- Every extension takes at least four bytes, so the length of the list bounds
the rounds. -/
def extensionLoop : Nat → List Nat → Option (List UInt8) →
    TlsReader (Option (List UInt8))
  | 0, _, negotiatedAlpn => pure negotiatedAlpn
  | rounds + 1, seen, negotiatedAlpn => do
    if (← remaining) = 0 then
      pure negotiatedAlpn
    else
      let extType ← u16
      let data ← vecU16
      if extType ∈ seen then
        lift (.error (.handshake "duplicate extension in EncryptedExtensions"))
      else if extType = EXT_ALPN then
        let selected ← lift (parseSelectedAlpn data)
        if selected ∉ OFFERED_ALPN then
          lift (.error (.handshake "server selected an ALPN protocol the client did not offer"))
        else
          extensionLoop rounds (extType :: seen) (some selected)
      else if extType = EXT_SERVER_NAME ∨ extType = EXT_SUPPORTED_GROUPS then
        extensionLoop rounds (extType :: seen) negotiatedAlpn
      else
        lift (.error (.handshake "unsolicited extension in EncryptedExtensions"))

def parseEncryptedExtensions (body : List UInt8) (negotiatedAlpn : Option (List UInt8)) :
    Except Safari26TlsError (Option (List UInt8)) := do
  let extensions ← parse (do
    let extensions ← vecU16
    if (← remaining) ≠ 0 then
      lift (.error (.handshake "trailing bytes after EncryptedExtensions"))
    else
      pure extensions) body
  parse (extensionLoop extensions.length [] negotiatedAlpn) extensions

/-- Every certificate takes at least five bytes. -/
def certificateLoop : Nat → List (List UInt8) → TlsReader (List (List UInt8))
  | 0, certs => pure certs
  | rounds + 1, certs => do
    if (← remaining) = 0 then
      pure certs
    else
      let cert ← vecU24
      let _extensions ← vecU16
      certificateLoop rounds (certs ++ [cert])

def parseCertificateBody (body : List UInt8) : Except Safari26TlsError (List (List UInt8)) := do
  let list ← parse (do
    let _requestContext ← vecU8
    vecU24) body
  parse (certificateLoop list.length []) list

/-! ## Parameters -/

inductive SignatureAlgorithm where
  | ecdsaP256Sha256
  | rsaPssSha256
  | rsaPkcs1Sha256
  | ecdsaP384Sha384
  | rsaPssSha384
  | rsaPkcs1Sha384
  | rsaPssSha512
  | rsaPkcs1Sha512
deriving DecidableEq, Repr

def certificateVerifyAlgorithm (scheme : Nat) : Except Safari26TlsError SignatureAlgorithm :=
  if scheme = 0x0403 then .ok .ecdsaP256Sha256
  else if scheme = 0x0804 then .ok .rsaPssSha256
  else if scheme = 0x0401 then .ok .rsaPkcs1Sha256
  else if scheme = 0x0503 then .ok .ecdsaP384Sha384
  else if scheme = 0x0805 then .ok .rsaPssSha384
  else if scheme = 0x0501 then .ok .rsaPkcs1Sha384
  else if scheme = 0x0806 then .ok .rsaPssSha512
  else if scheme = 0x0601 then .ok .rsaPkcs1Sha512
  else .error (.unsupported "unsupported CertificateVerify signature scheme")

/-- The functions outside of this code, for the secrets, the suite and the
environment `K` of a handshake. -/
class FlightChecks (K : Type) where
  /-- Open a record of the server: its sequence number, header, ciphertext and
  tag. -/
  aeadOpen : K → Nat → List UInt8 → List UInt8 → List UInt8 → Option (List UInt8)
  digest : K → List UInt8 → List UInt8
  /-- The MAC of the server Finished over a transcript. -/
  finishedVerifyData : K → List UInt8 → Except Safari26TlsError (List UInt8)
  /-- Up to `limit` bytes of an inflated stream. -/
  inflate : K → List UInt8 → Nat → Option (List UInt8)
  /-- A parsed end-entity certificate, which holds its public key. -/
  Cert : Type
  endEntityCert : K → List UInt8 → Except String Cert
  verifySignature : K → Cert → SignatureAlgorithm → List UInt8 → List UInt8 → Except String Unit
  isServerName : K → String → Bool
  verifyIsValidForSubjectName : K → Cert → String → Except String Unit
  nativeRoots : K → Except String (List (List UInt8))
  /-- The check of the chain at the current time. -/
  verifyForUsage : K → Cert → List (List UInt8) → List (List UInt8) → Except String Unit

variable {K : Type} [FlightChecks K]

open FlightChecks

def parseCompressedCertificateBody (inputs : K) (body : List UInt8) :
    Except Safari26TlsError (List (List UInt8)) := do
  let (uncompressedLen, compressed) ← parse (do
    let algorithm ← u16
    if algorithm ≠ CERT_COMPRESSION_ZLIB then
      lift (.error (.unsupported "unsupported compressed_certificate algorithm"))
    else
      let uncompressedLen ← u24
      if MAX_DECOMPRESSED_CERT_CHAIN < uncompressedLen then
        lift (.error (.handshake "compressed_certificate uncompressed_length exceeds maximum"))
      else
        let compressed ← vecU24
        pure (uncompressedLen, compressed)) body
  match inflate inputs compressed (MAX_DECOMPRESSED_CERT_CHAIN + 1) with
  | none => .error .inflate
  | some decompressed =>
    if MAX_DECOMPRESSED_CERT_CHAIN < decompressed.length then
      .error (.handshake "compressed_certificate inflates beyond maximum")
    else if decompressed.length ≠ uncompressedLen then
      .error (.handshake "compressed_certificate length mismatch")
    else
      parseCertificateBody decompressed

/-! ## The flight -/

structure ServerFlight where
  encryptedExtensionsSeen : Bool
  certificates : List (List UInt8)
  certificateVerifySeen : Bool
  finished : Bool
deriving DecidableEq, Repr

def ServerFlight.default : ServerFlight :=
  { encryptedExtensionsSeen := false
    certificates := []
    certificateVerifySeen := false
    finished := false }

/-- A Certificate comes at most once with certificates in it, and not after the
CertificateVerify. -/
def rejectOutOfOrderCertificate (flight : ServerFlight) : Except Safari26TlsError Unit :=
  if !flight.certificates.isEmpty || flight.certificateVerifySeen then
    .error (.handshake "duplicate or out-of-order Certificate message in server flight")
  else
    .ok ()

def signedContent (inputs : K) (transcript : List UInt8) : List UInt8 :=
  List.replicate 64 0x20 ++
    ("TLS 1.3, server CertificateVerify".toUTF8.toList ++
      0 :: digest inputs transcript)

def verifyWithLeaf (inputs : K) (leaf body transcript : List UInt8) :
    Except Safari26TlsError Unit := do
  let (scheme, signature) ← parse (do
    let scheme ← u16
    let signature ← vecU16
    pure (scheme, signature)) body
  let alg ← certificateVerifyAlgorithm scheme
  let cert ← (endEntityCert inputs leaf).mapError .certificate
  (verifySignature inputs cert alg (signedContent inputs transcript)
    signature).mapError .certificate

def verifyCertificateVerify (inputs : K) (body : List UInt8)
    (flight : ServerFlight) (transcript : List UInt8) : Except Safari26TlsError Unit :=
  match flight.certificates.head? with
  | none => .error (.handshake "missing server certificate")
  | some leaf => verifyWithLeaf inputs leaf body transcript

def verifyServerCertificate (inputs : K) (sni : String)
    (flight : ServerFlight) : Except Safari26TlsError Unit :=
  match flight.certificates with
  | [] => .error (.certificate "missing server certificate")
  | leaf :: intermediates => do
    let cert ← (endEntityCert inputs leaf).mapError .certificate
    if isServerName inputs sni then
      (verifyIsValidForSubjectName inputs cert sni).mapError .certificate
      let roots ← (nativeRoots inputs).mapError .certificate
      (verifyForUsage inputs cert roots intermediates).mapError .certificate
    else
      .error (.invalidServerName sni)

/-- What the messages of the flight have built up. -/
structure Progress where
  flight : ServerFlight
  transcript : List UInt8
  negotiatedAlpn : Option (List UInt8)
deriving DecidableEq, Repr

def Progress.push (progress : Progress) (message : List UInt8) : Progress :=
  { progress with transcript := progress.transcript ++ message }

def Progress.setCertificates (progress : Progress) (certificates : List (List UInt8)) : Progress :=
  { progress with flight := { progress.flight with certificates := certificates } }

def messageCertificates (inputs : K) (message : List UInt8) :
    Except Safari26TlsError (List (List UInt8)) :=
  if message.headD 0 = HANDSHAKE_CERTIFICATE then parseCertificateBody (message.drop 4)
  else parseCompressedCertificateBody inputs (message.drop 4)

def processMessage (inputs : K) (progress : Progress) (message : List UInt8) :
    Except Safari26TlsError Progress :=
  let body := message.drop 4
  let flight := progress.flight
  let msgType := message.headD 0
  if msgType = HANDSHAKE_ENCRYPTED_EXTENSIONS then
    if flight.encryptedExtensionsSeen then
      .error (.handshake "duplicate EncryptedExtensions in server flight")
    else do
      let alpn ← parseEncryptedExtensions body progress.negotiatedAlpn
      .ok
        ({ progress with
          negotiatedAlpn := alpn
          flight := { flight with encryptedExtensionsSeen := true } }.push message)
  else if msgType = HANDSHAKE_CERTIFICATE ∨
      msgType = HANDSHAKE_COMPRESSED_CERTIFICATE then do
    rejectOutOfOrderCertificate flight
    let certificates ← messageCertificates inputs message
    .ok ((progress.setCertificates certificates).push message)
  else if msgType = HANDSHAKE_CERTIFICATE_VERIFY then
    if flight.certificateVerifySeen then
      .error (.handshake "duplicate CertificateVerify in server flight")
    else do
      verifyCertificateVerify inputs body flight progress.transcript
      .ok
        ({ progress with flight := { flight with certificateVerifySeen := true } }.push message)
  else if msgType = HANDSHAKE_FINISHED then
    if !flight.encryptedExtensionsSeen || flight.certificates.isEmpty ||
        !flight.certificateVerifySeen then
      .error (.handshake "server Finished arrived before the authenticated flight")
    else do
      let expected ← finishedVerifyData inputs progress.transcript
      if body ≠ expected then
        .error (.handshake "server Finished verify_data mismatch")
      else
        .ok
          { progress.push message with flight := { flight with finished := true } }
  else
    .error (.unsupported "unexpected encrypted TLS handshake message")

/-- The length that a message declares for its body. -/
def declaredLen (buf : List UInt8) : Nat :=
  (buf.getD 1 0).toNat * 2 ^ 16 + (buf.getD 2 0).toNat * 2 ^ 8 + (buf.getD 3 0).toNat

/-- Process the complete messages of the buffer through the Finished; each round
takes one message off. -/
def processServerHandshakeMessages (inputs : K) :
    Nat → List UInt8 → Progress → Except Safari26TlsError (List UInt8 × Progress)
  | 0, buf, progress => .ok (buf, progress)
  | rounds + 1, buf, progress =>
    if buf.length < 4 then
      .ok (buf, progress)
    else if MAX_ENCRYPTED_HANDSHAKE_MESSAGE < declaredLen buf then
      .error (.handshake "encrypted handshake message length exceeds maximum")
    else if buf.length < 4 + declaredLen buf then
      .ok (buf, progress)
    else
      let message := buf.take (4 + declaredLen buf)
      let rest := buf.drop (4 + declaredLen buf)
      match processMessage inputs progress message with
      | .error failure => .error failure
      | .ok next =>
        if message.headD 0 = HANDSHAKE_FINISHED then .ok (rest, next)
        else processServerHandshakeMessages inputs rounds rest next

/-! ## Records -/

structure PlainRecord where
  contentType : UInt8
  plaintext : List UInt8
deriving DecidableEq, Repr

/-- The plaintext of a record ends with its type and padding of zeros. -/
def splitInner (payload : List UInt8) : Option PlainRecord :=
  match payload.reverse.dropWhile (· = 0) with
  | [] => none
  | contentType :: plaintext => some ⟨contentType, plaintext.reverse⟩

def decryptRecord (inputs : K) (seq : Nat) (record : List UInt8) :
    Except Safari26TlsError PlainRecord := do
  let header ← (parseHeader record).mapError fun failure =>
    .handshake failure.message
  if header.contentType ≠ TLS_CONTENT_APPLICATION_DATA then
    .error (.handshake "expected encrypted TLS application record")
  else if record.length < header.totalLen ∨
      header.payloadLen ≤ AEAD_TAG_LEN then
    .error .aead
  else
    let payload := (record.take header.totalLen).drop TLS_HEADER_LEN
    let tagStart := payload.length - AEAD_TAG_LEN
    match aeadOpen inputs seq (record.take TLS_HEADER_LEN)
        (payload.take tagStart) (payload.drop tagStart) with
    | none => .error .aead
    | some opened =>
      match splitInner opened with
      | none => .error .aead
      | some plain => .ok plain

def parseAlert (record : List UInt8) : Safari26TlsError :=
  if 7 ≤ record.length then .alert (record.getD 5 0) (record.getD 6 0)
  else .alert 0 0

/-- What reading the flight keeps between two records. -/
structure FlightReader where
  stream : List UInt8
  seq : Nat
  handshakeBuf : List UInt8
  ccsRecords : Nat
  totalDecrypted : Nat
  progress : Progress

def takePlaintext (inputs : K) (reader : FlightReader) (plain : PlainRecord) :
    Except Safari26TlsError FlightReader :=
  if plain.contentType ≠ TLS_CONTENT_HANDSHAKE then
    if plain.contentType = TLS_CONTENT_ALERT ∧ 2 ≤ plain.plaintext.length then
      .error (.alert (plain.plaintext.getD 0 0) (plain.plaintext.getD 1 0))
    else
      .error (.handshake "expected encrypted handshake record")
  else
    let total := reader.totalDecrypted + plain.plaintext.length
    if MAX_SERVER_FLIGHT_DECRYPTED_BYTES < total then
      .error (.handshake "server flight exceeded maximum decrypted size")
    else
      let buf := reader.handshakeBuf ++ plain.plaintext
      match processServerHandshakeMessages inputs buf.length buf reader.progress with
      | .error failure => .error failure
      | .ok (rest, progress) =>
        .ok
          { reader with handshakeBuf := rest, totalDecrypted := total, progress := progress }

def takeRecord (inputs : K) (reader : FlightReader) (record : List UInt8) :
    Except Safari26TlsError FlightReader := do
  let header ← (parseHeader record).mapError fun failure =>
    .handshake failure.message
  if header.contentType = TLS_CONTENT_CHANGE_CIPHER_SPEC then
    if MAX_CHANGE_CIPHER_SPEC_RECORDS < reader.ccsRecords + 1 then
      .error (.handshake "too many ChangeCipherSpec records in server flight")
    else
      .ok { reader with ccsRecords := reader.ccsRecords + 1 }
  else if header.contentType = TLS_CONTENT_ALERT then
    .error (parseAlert record)
  else if header.contentType = TLS_CONTENT_APPLICATION_DATA then
    let plain ← decryptRecord inputs reader.seq record
    takePlaintext inputs
      { reader with seq := (reader.seq + 1) % 2 ^ 64 } plain
  else
    .error (.handshake ("unexpected TLS record type " ++
      toString header.contentType.toNat ++ " in server flight"))

/-- Read records until the Finished; `left` records may still be read. -/
def readRecords (inputs : K) : Nat → FlightReader →
    Except Safari26TlsError FlightReader
  | left, reader =>
    if reader.progress.flight.finished then .ok reader
    else
      match left with
      | 0 => .error (.handshake "server flight exceeded maximum record count")
      | left + 1 =>
        match readRecord reader.stream with
        | .error failure => .error (.io failure)
        | .ok (record, stream) =>
          match takeRecord inputs { reader with stream := stream } record with
          | .error failure => .error failure
          | .ok next => readRecords inputs left next

def Progress.start (transcript : List UInt8) : Progress :=
  { flight := .default
    transcript := transcript
    negotiatedAlpn := none }

def FlightReader.start (stream transcript : List UInt8) : FlightReader :=
  { stream := stream
    seq := 0
    handshakeBuf := []
    ccsRecords := 0
    totalDecrypted := 0
    progress := .start transcript }

/-- Read the flight that follows the hellos in the transcript. -/
def readEncryptedServerFlight (inputs : K) (stream transcript : List UInt8) :
    Except Safari26TlsError FlightReader :=
  readRecords inputs MAX_SERVER_FLIGHT_RECORDS (.start stream transcript)

/-! ## Accepted messages -/

def messageType (message : List UInt8) : UInt8 := message.headD 0

def IsCertificate (message : List UInt8) : Prop :=
  messageType message = HANDSHAKE_CERTIFICATE ∨
    messageType message = HANDSHAKE_COMPRESSED_CERTIFICATE

instance (message : List UInt8) : Decidable (IsCertificate message) :=
  inferInstanceAs (Decidable (_ ∨ _))

inductive Accepts (inputs : K) (progress : Progress) (message : List UInt8) :
    Progress → Prop
  | extensions (alpn : Option (List UInt8))
      (type : messageType message = HANDSHAKE_ENCRYPTED_EXTENSIONS)
      (first : progress.flight.encryptedExtensionsSeen = false) :
      Accepts inputs progress message
        ({ progress with
          negotiatedAlpn := alpn
          flight :=
            { progress.flight with encryptedExtensionsSeen := true } }.push message)
  | certificate {certificates : List (List UInt8)} (type : IsCertificate message)
      (empty : progress.flight.certificates = [])
      (unverified : progress.flight.certificateVerifySeen = false)
      (parsed : messageCertificates inputs message = .ok certificates) :
      Accepts inputs progress message ((progress.setCertificates certificates).push message)
  | verify (type : messageType message = HANDSHAKE_CERTIFICATE_VERIFY)
      (first : progress.flight.certificateVerifySeen = false)
      (valid : verifyCertificateVerify inputs (message.drop 4) progress.flight
        progress.transcript = .ok ()) :
      Accepts inputs progress message
        ({ progress with
          flight :=
            { progress.flight with certificateVerifySeen := true } }.push message)
  | finished (type : messageType message = HANDSHAKE_FINISHED)
      (extended : progress.flight.encryptedExtensionsSeen = true)
      (verified : progress.flight.certificateVerifySeen = true)
      (mac : finishedVerifyData inputs progress.transcript = .ok (message.drop 4)) :
      Accepts inputs progress message
        { progress.push message with flight := { progress.flight with finished := true } }

theorem accepts_of_processMessage {inputs : K} {progress next : Progress}
    {message : List UInt8} (ok : processMessage inputs progress message = .ok next) :
    Accepts inputs progress message next := by
  rw [processMessage] at ok
  split at ok
  next type =>
    split at ok
    · cases ok
    next first =>
      obtain ⟨alpn, -, done⟩ := exists_of_bind_eq_ok ok
      cases done
      exact .extensions alpn type (eq_false_of_ne_true first)
  split at ok
  next type =>
    obtain ⟨⟨⟩, inOrder, ok⟩ := exists_of_bind_eq_ok ok
    obtain ⟨_, parsed, done⟩ := exists_of_bind_eq_ok ok
    cases done
    rw [rejectOutOfOrderCertificate] at inOrder
    split at inOrder
    · cases inOrder
    next fresh =>
      simp only [Bool.or_eq_true, Bool.not_eq_true', not_or,
        Bool.not_eq_false, List.isEmpty_iff, Bool.not_eq_true] at fresh
      exact .certificate type fresh.1 fresh.2 parsed
  split at ok
  next type =>
    split at ok
    · cases ok
    next first =>
      obtain ⟨⟨⟩, valid, done⟩ := exists_of_bind_eq_ok ok
      cases done
      exact .verify type (eq_false_of_ne_true first) valid
  split at ok
  next type =>
    split at ok
    · cases ok
    next ready =>
      simp only [Bool.or_eq_true, Bool.not_eq_true', not_or, Bool.not_eq_false] at ready
      obtain ⟨_, computed, compared⟩ := exists_of_bind_eq_ok ok
      split at compared
      · cases compared
      next equal =>
        cases compared
        rw [ne_eq, not_not] at equal
        rw [← equal] at computed
        exact .finished type ready.1.1 ready.2 computed
  · cases ok

/-- The signature check of a list of accepted messages. -/
def Signed (inputs : K) (hello : List UInt8) (messages : List (List UInt8))
    (certificates : List (List UInt8)) : Prop :=
  ∃ before verify after leaf, messages = before ++ verify :: after ∧
      messageType verify = HANDSHAKE_CERTIFICATE_VERIFY ∧
      certificates.head? = some leaf ∧
      verifyWithLeaf inputs leaf (verify.drop 4) (hello ++ before.flatten) = .ok () ∧
      (∃ certificate ∈ before, IsCertificate certificate ∧
        messageCertificates inputs certificate = .ok certificates) ∧
      ∀ message ∈ after, ¬IsCertificate message

/-- What the flight knows about the messages accepted before its Finished. -/
structure Trace (inputs : K) (hello : List UInt8)
    (messages : List (List UInt8)) (progress : Progress) : Prop where
  transcript : progress.transcript = hello ++ messages.flatten
  unfinished : progress.flight.finished = false
  noFinished : ∀ message ∈ messages, messageType message ≠ HANDSHAKE_FINISHED
  extensions :
    messages.countP (messageType · = HANDSHAKE_ENCRYPTED_EXTENSIONS) =
      progress.flight.encryptedExtensionsSeen.toNat
  verifies :
    messages.countP (messageType · = HANDSHAKE_CERTIFICATE_VERIFY) =
      progress.flight.certificateVerifySeen.toNat
  presented : progress.flight.certificates ≠ [] →
    ∃ message ∈ messages, IsCertificate message ∧
      messageCertificates inputs message = .ok progress.flight.certificates
  signed : progress.flight.certificateVerifySeen = true →
    Signed inputs hello messages progress.flight.certificates

section Accepted

variable {inputs : K} {hello message : List UInt8}
variable {messages : List (List UInt8)} {progress next : Progress}

theorem Signed.append {certificates : List (List UInt8)}
    (signed : Signed inputs hello messages certificates) (other : ¬IsCertificate message) :
    Signed inputs hello (messages ++ [message]) certificates := by
  obtain ⟨before, verify, after, leaf, rfl, type, first, valid, presented, later⟩ := signed
  refine ⟨before, verify, after ++ [message], leaf, by simp, type, first, valid, presented, ?_⟩
  exact forall_mem_append.mpr ⟨later, forall_mem_singleton.mpr other⟩

theorem Trace.fresh (inputs : K) (hello : List UInt8) :
    Trace inputs hello [] (.start hello) where
  transcript := (append_nil hello).symm
  unfinished := rfl
  noFinished := nofun
  extensions := rfl
  verifies := rfl
  presented some := absurd rfl some
  signed := nofun

theorem Trace.accept (trace : Trace inputs hello messages progress)
    (accepts : Accepts inputs progress message next)
    (unfinished : messageType message ≠ HANDSHAKE_FINISHED) :
    Trace inputs hello (messages ++ [message]) next := by
  have transcript : progress.transcript ++ message = hello ++ (messages ++ [message]).flatten := by
    simp [trace.transcript]
  have noFinished : ∀ entry ∈ messages ++ [message], messageType entry ≠ HANDSHAKE_FINISHED := by
    exact forall_mem_append.mpr ⟨trace.noFinished, forall_mem_singleton.mpr unfinished⟩
  have presented (some : progress.flight.certificates ≠ []) :
      ∃ entry ∈ messages ++ [message], IsCertificate entry ∧
        messageCertificates inputs entry = .ok progress.flight.certificates := by
    obtain ⟨entry, member, facts⟩ := trace.presented some
    exact ⟨entry, mem_append_left _ member, facts⟩
  cases accepts with
  | extensions _ type first =>
    have other : ¬IsCertificate message := by
      rw [IsCertificate, type]
      decide
    refine ⟨transcript, trace.unfinished, noFinished, ?_, ?_, presented,
      fun seen => (trace.signed seen).append other⟩
    · rw [countP_append, trace.extensions, first]
      simp [Progress.push, type]
    · rw [countP_append, trace.verifies]
      simp [Progress.push, type, HANDSHAKE_ENCRYPTED_EXTENSIONS, HANDSHAKE_CERTIFICATE_VERIFY]
  | certificate type _ unverified parsed =>
    have types : messageType message ≠ HANDSHAKE_ENCRYPTED_EXTENSIONS ∧
        messageType message ≠ HANDSHAKE_CERTIFICATE_VERIFY := by
      rcases type with plain | compressed
      · rw [plain]
        decide
      · rw [compressed]
        decide
    refine ⟨transcript, trace.unfinished, noFinished, ?_, ?_,
      fun _ => ⟨message, by simp, type, parsed⟩, fun seen => ?_⟩
    · rw [countP_append, trace.extensions]
      simp [Progress.push, Progress.setCertificates, types.1]
    · rw [countP_append, trace.verifies]
      simp [Progress.push, Progress.setCertificates, types.2]
    · cases unverified.symm.trans seen
  | verify type first valid =>
    have extended : messageType message ≠ HANDSHAKE_ENCRYPTED_EXTENSIONS := by
      rw [type]
      decide
    refine ⟨transcript, trace.unfinished, noFinished, ?_, ?_, presented, fun _ => ?_⟩
    · rw [countP_append, trace.extensions]
      simp [Progress.push, extended]
    · rw [countP_append, trace.verifies, first]
      simp [Progress.push, type]
    · rw [verifyCertificateVerify] at valid
      split at valid
      · cases valid
      next leaf isLeaf =>
        have some : progress.flight.certificates ≠ [] := by
          intro empty
          rw [empty] at isLeaf
          cases isLeaf
        rw [trace.transcript] at valid
        exact ⟨messages, message, [], leaf, rfl, type, isLeaf, valid, trace.presented some, nofun⟩
  | finished type => exact absurd type unfinished

theorem Trace.run {more : List (List UInt8)} (trace : Trace inputs hello messages progress)
    (accepted : more.foldlM (processMessage inputs) progress = .ok next)
    (unfinished : ∀ message ∈ more, messageType message ≠ HANDSHAKE_FINISHED) :
    Trace inputs hello (messages ++ more) next := by
  induction more generalizing messages progress with
  | nil =>
    cases accepted
    rwa [append_nil]
  | cons message more ih =>
    rw [foldlM_cons] at accepted
    obtain ⟨_, first, accepted⟩ := exists_of_bind_eq_ok accepted
    obtain ⟨other, later⟩ := forall_mem_cons.mp unfinished
    rw [append_cons]
    exact ih (trace.accept (accepts_of_processMessage first) other) accepted later

theorem Accepts.ofFinished (accepts : Accepts inputs progress message next)
    (type : messageType message = HANDSHAKE_FINISHED) :
    progress.flight.encryptedExtensionsSeen = true ∧ progress.flight.certificateVerifySeen = true ∧
      finishedVerifyData inputs progress.transcript = .ok (message.drop 4) ∧
      next.flight = { progress.flight with finished := true } := by
  cases accepts with
  | extensions _ other | verify other =>
    rw [type] at other
    cases other
  | certificate other =>
    rw [IsCertificate, type] at other
    rcases other with other | other <;> cases other
  | finished _ extended verified mac => exact ⟨extended, verified, mac, rfl⟩

variable {buf : List UInt8} {rounds : Nat}

theorem declaredLen_take {len : Nat} (header : 4 ≤ len) :
    declaredLen (buf.take len) = declaredLen buf := by
  simp (disch := omega) only [declaredLen, getD_eq_getElem?_getD, List.getElem?_take_of_lt]

/-- The messages at the start of a flight, cut at the lengths they declare and
through the first Finished, and the bytes behind them. -/
def cutMessages : Nat → List UInt8 → List (List UInt8) × List UInt8
  | 0, buf => ([], buf)
  | rounds + 1, buf =>
    if buf.length < 4 + declaredLen buf then ([], buf)
    else
      let message := buf.take (4 + declaredLen buf)
      let rest := buf.drop (4 + declaredLen buf)
      if messageType message = HANDSHAKE_FINISHED then ([message], rest)
      else (message :: (cutMessages rounds rest).1, (cutMessages rounds rest).2)

/-- One call accepts the messages that the buffer is cut into. -/
theorem processServerHandshakeMessages_cut {rest : List UInt8}
    (processed : processServerHandshakeMessages inputs rounds buf progress = .ok (rest, next)) :
    (cutMessages rounds buf).2 = rest ∧
      (cutMessages rounds buf).1.foldlM (processMessage inputs) progress = .ok next := by
  induction rounds generalizing buf progress with
  | zero =>
    cases processed
    exact ⟨rfl, rfl⟩
  | succ rounds ih =>
    have idle (short : buf.length < 4 + declaredLen buf)
        (same : Except.ok (buf, progress) = (.ok (rest, next) : Except Safari26TlsError _)) :
        (cutMessages (rounds + 1) buf).2 = rest ∧
          (cutMessages (rounds + 1) buf).1.foldlM (processMessage inputs) progress = .ok next := by
      cases same
      rw [cutMessages, if_pos short]
      exact ⟨rfl, rfl⟩
    rw [processServerHandshakeMessages] at processed
    split at processed
    next header => exact idle (by omega) processed
    split at processed
    · cases processed
    split at processed
    next short => exact idle short processed
    next long =>
    dsimp only at processed
    split at processed
    · cases processed
    next after accepted =>
    rw [cutMessages, if_neg long]
    dsimp only
    rw [messageType]
    split at processed
    next isFinished =>
      cases processed
      rw [if_pos isFinished]
      exact ⟨rfl, by rw [foldlM_cons, accepted]; rfl⟩
    next unfinished =>
      rw [if_neg unfinished]
      obtain ⟨left, onward⟩ := ih processed
      exact ⟨left, by rw [foldlM_cons, accepted]; exact onward⟩

theorem cutMessages_finished (rounds : Nat) (buf : List UInt8) :
    ∃ earlier last, (cutMessages rounds buf).1 = earlier ++ last ∧
      (∀ message ∈ earlier, messageType message ≠ HANDSHAKE_FINISHED) ∧
      (last = [] ∨ ∃ finished, last = [finished] ∧ messageType finished = HANDSHAKE_FINISHED) := by
  induction rounds generalizing buf with
  | zero => exact ⟨[], [], rfl, nofun, .inl rfl⟩
  | succ rounds ih =>
    rw [cutMessages]
    split
    · exact ⟨[], [], rfl, nofun, .inl rfl⟩
    dsimp only
    split
    next type => exact ⟨[], _, rfl, nofun, .inr ⟨_, rfl, type⟩⟩
    next other =>
      obtain ⟨earlier, last, cut, unfinished, ends⟩ := ih (buf.drop (4 + declaredLen buf))
      exact ⟨_ :: earlier, last, by rw [cut]; rfl, forall_mem_cons.mpr ⟨other, unfinished⟩, ends⟩

def processBuffer (inputs : K) (buf : List UInt8) (progress : Progress) :
    Except Safari26TlsError (List UInt8 × Progress) :=
  processServerHandshakeMessages inputs buf.length buf progress

/-- The messages of a buffer that completes the flight, through its Finished. -/
theorem processBuffer_finished {rest : List UInt8}
    (processed : processBuffer inputs buf (.start hello) = .ok (rest, next))
    (isOver : next.flight.finished = true) :
    ∃ earlier finished atFinished, cutMessages buf.length buf = (earlier ++ [finished], rest) ∧
      messageType finished = HANDSHAKE_FINISHED ∧
      (∀ message ∈ earlier, messageType message ≠ HANDSHAKE_FINISHED) ∧
      earlier.foldlM (processMessage inputs) (.start hello) = .ok atFinished ∧
      processMessage inputs atFinished finished = .ok next ∧
      Trace inputs hello earlier atFinished := by
  obtain ⟨left, accepted⟩ := processServerHandshakeMessages_cut processed
  obtain ⟨earlier, last, cut, others, ends⟩ := cutMessages_finished buf.length buf
  have start := Trace.fresh inputs hello
  rw [cut] at accepted
  rcases ends with rfl | ⟨finished, rfl, type⟩
  · -- Without a Finished the flight would not be complete.
    rw [append_nil] at accepted
    rw [(start.run accepted others).unfinished] at isOver
    cases isOver
  · rw [foldlM_append] at accepted
    obtain ⟨atFinished, before, accepted⟩ := exists_of_bind_eq_ok accepted
    obtain ⟨_, ended, same⟩ := exists_of_bind_eq_ok accepted
    cases same
    exact ⟨earlier, finished, atFinished, Prod.ext cut left, type, others, before, ended,
      start.run before others⟩

/-- More rounds than bytes change nothing. -/
theorem processServerHandshakeMessages_rounds {other : Nat}
    (enough : buf.length ≤ rounds) (also : buf.length ≤ other) :
    processServerHandshakeMessages inputs rounds buf progress =
      processServerHandshakeMessages inputs other buf progress := by
  induction rounds generalizing other buf progress with
  | zero =>
    rw [length_eq_zero_iff.mp (Nat.le_zero.mp enough)]
    cases other with
    | zero | succ => rfl
  | succ rounds ih =>
    cases other with
    | zero =>
      rw [length_eq_zero_iff.mp (Nat.le_zero.mp also)]
      rfl
    | succ other =>
      rw [processServerHandshakeMessages, processServerHandshakeMessages]
      split
      · rfl
      split
      · rfl
      split
      · rfl
      dsimp only
      split
      · rfl
      split
      · rfl
      · exact ih (by rw [length_drop]; omega) (by rw [length_drop]; omega)

theorem Accepts.unfinished (accepts : Accepts inputs progress message next)
    (other : messageType message ≠ HANDSHAKE_FINISHED) :
    next.flight.finished = progress.flight.finished := by
  cases accepts with
  | extensions | certificate | verify => rfl
  | finished type => exact absurd type other

/-- A buffer that grows is processed from where it got stuck. -/
theorem processBuffer_append (more : List UInt8)
    (unfinished : progress.flight.finished = false) (enough : buf.length ≤ rounds) :
    processBuffer inputs (buf ++ more) progress =
      match processServerHandshakeMessages inputs rounds buf progress with
      | .error failure => .error failure
      | .ok (rest, next) =>
        if next.flight.finished then .ok (rest ++ more, next)
        else processBuffer inputs (rest ++ more) next := by
  have stuck : (if progress.flight.finished then .ok (buf ++ more, progress)
      else processBuffer inputs (buf ++ more) progress) =
        processBuffer inputs (buf ++ more) progress := by
    rw [unfinished, if_neg Bool.false_ne_true]
  induction rounds generalizing buf progress with
  | zero => exact stuck.symm
  | succ rounds ih =>
    by_cases header : buf.length < 4
    · rw [processServerHandshakeMessages, if_pos header]
      exact stuck.symm
    have declared : declaredLen (buf ++ more) = declaredLen buf := by
      simp (disch := omega) only [declaredLen, getD_eq_getElem?_getD, List.getElem?_append_left]
    have appended : (buf ++ more).length = buf.length + more.length := length_append
    have grown : ¬(buf ++ more).length < 4 := by omega
    have again : processServerHandshakeMessages inputs _ (buf ++ more) progress = _ :=
      processServerHandshakeMessages_rounds (Nat.le_refl _) (Nat.le_succ _)
    rw [processServerHandshakeMessages, if_neg grown, declared] at again
    rw [processBuffer, again, processServerHandshakeMessages, if_neg header]
    by_cases oversized : MAX_ENCRYPTED_HANDSHAKE_MESSAGE < declaredLen buf
    · rw [if_pos oversized, if_pos oversized]
    by_cases partly : buf.length < 4 + declaredLen buf
    · rw [← again, if_neg oversized, if_pos partly]
      exact stuck.symm
    rw [if_neg oversized, if_neg oversized, if_neg partly, if_neg (by omega),
      take_append_of_le_length (by omega), drop_append_of_le_length (by omega)]
    dsimp only
    cases accepted : processMessage inputs progress (buf.take (4 + declaredLen buf)) with
    | error => rfl
    | ok next =>
      have accepts := accepts_of_processMessage accepted
      dsimp only
      split
      next type =>
        have finished := congrArg ServerFlight.finished (accepts.ofFinished type).2.2.2
        exact (if_pos finished).symm
      next other =>
        have onward := (accepts.unfinished other).trans unfinished
        rw [← ih onward (by rw [length_drop]; omega) (by rw [onward, if_neg Bool.false_ne_true])]
        refine processServerHandshakeMessages_rounds ?_ (Nat.le_refl _)
        simp only [length_append, length_drop]
        omega

end Accepted

/-- The handshake plaintexts of the records at the start of a stream, and the
number of ChangeCipherSpec records among them. -/
def flightRecords (inputs : K) : Nat → Nat → List UInt8 → Nat × List (List UInt8)
  | 0, _, _ => (0, [])
  | rounds + 1, seq, stream =>
    match readRecord stream with
    | .error _ => (0, [])
    | .ok (record, rest) =>
      if (parseHeader record).map (·.contentType) = .ok TLS_CONTENT_CHANGE_CIPHER_SPEC then
        let later := flightRecords inputs rounds seq rest
        (later.1 + 1, later.2)
      else
        match decryptRecord inputs seq record with
        | .error _ => (0, [])
        | .ok plain =>
          if plain.contentType = TLS_CONTENT_HANDSHAKE then
            let later := flightRecords inputs rounds ((seq + 1) % 2 ^ 64) rest
            (later.1, plain.plaintext :: later.2)
          else (0, [])

theorem type_of_decryptRecord {inputs : K} {seq : Nat} {record : List UInt8} {plain : PlainRecord}
    (opened : decryptRecord inputs seq record = .ok plain) :
    ∃ header, parseHeader record = .ok header ∧
      header.contentType = TLS_CONTENT_APPLICATION_DATA := by
  obtain ⟨header, parsed, opened⟩ := exists_of_bind_eq_ok opened
  refine ⟨header, eq_ok_of_mapError_eq_ok parsed, ?_⟩
  split at opened
  · cases opened
  next type => exact not_not.mp type

theorem length_readRecord {stream record rest : List UInt8}
    (read : readRecord stream = .ok (record, rest)) : rest.length < stream.length := by
  unfold readRecord at read
  split at read
  · cases read
  split at read
  · cases read
  next header parsed =>
  split at read
  · cases read
  cases read
  have total := totalLen_of_parseHeader parsed
  have positive : 0 < TLS_HEADER_LEN := by decide
  rw [length_drop]
  omega

section Reading

variable {inputs : K} {hello : List UInt8} {messages : List (List UInt8)}
variable {reader next : FlightReader}

theorem takeRecord_cases {record : List UInt8}
    (taken : takeRecord inputs reader record = .ok next) :
    (∃ header, parseHeader record = .ok header ∧
      header.contentType = TLS_CONTENT_CHANGE_CIPHER_SPEC ∧
      next.stream = reader.stream ∧ next.seq = reader.seq ∧
      next.handshakeBuf = reader.handshakeBuf ∧
      next.progress = reader.progress) ∨
    ∃ plaintext, decryptRecord inputs reader.seq record = .ok ⟨TLS_CONTENT_HANDSHAKE, plaintext⟩ ∧
      next.stream = reader.stream ∧ next.seq = (reader.seq + 1) % 2 ^ 64 ∧
      processServerHandshakeMessages inputs (reader.handshakeBuf ++ plaintext).length
        (reader.handshakeBuf ++ plaintext) reader.progress =
          .ok (next.handshakeBuf, next.progress) := by
  obtain ⟨header, parsed, taken⟩ := exists_of_bind_eq_ok taken
  have isHeader := eq_ok_of_mapError_eq_ok parsed
  split at taken
  next type =>
    split at taken
    · cases taken
    · cases taken
      exact .inl ⟨header, isHeader, type, rfl, rfl, rfl, rfl⟩
  split at taken
  · cases taken
  split at taken
  · obtain ⟨⟨_, plaintext⟩, opened, taken⟩ := exists_of_bind_eq_ok taken
    rw [takePlaintext] at taken
    split at taken
    · split at taken <;> cases taken
    rename_i type
    rw [ne_eq, not_not] at type
    dsimp only at type taken
    split at taken
    · cases taken
    split at taken
    · cases taken
    next rest progress processed =>
      cases taken
      rw [type] at opened
      exact .inr ⟨plaintext, opened, rfl, rfl, processed⟩
  · cases taken

variable {left : Nat}

theorem readRecords_of_finished (finished : reader.progress.flight.finished = true) :
    readRecords inputs left reader = .ok reader := by
  cases left with
  | zero | succ => rw [readRecords, if_pos finished]

variable {last : FlightReader} {rounds : Nat}

/-- A reader that returns has processed the plaintexts of the first records. -/
theorem readRecords_process (returned : readRecords inputs left reader = .ok last)
    (unfinished : reader.progress.flight.finished = false)
    (enough : reader.stream.length ≤ rounds) :
    ∃ fragments, fragments <+: (flightRecords inputs rounds reader.seq reader.stream).2 ∧
      processBuffer inputs (reader.handshakeBuf ++ fragments.flatten) reader.progress =
        .ok (last.handshakeBuf, last.progress) ∧ last.progress.flight.finished = true := by
  induction left generalizing reader rounds with
  | zero =>
    rw [readRecords, unfinished] at returned
    cases returned
  | succ _ ih =>
    rw [readRecords, unfinished, if_neg Bool.false_ne_true] at returned
    split at returned
    · cases returned
    rename_i record stream read
    split at returned
    · cases returned
    rename_i after taken
    have shorter := length_readRecord read
    obtain ⟨rounds, rfl⟩ : ∃ less, rounds = less + 1 := ⟨rounds - 1, by omega⟩
    rw [flightRecords, read]
    dsimp only
    have rounded (same : after.stream = stream) : after.stream.length ≤ rounds := by
      rw [same]
      omega
    rcases takeRecord_cases taken with
      ⟨_, parsed, type, sameStream, sameSeq, sameBuf, sameProgress⟩ |
      ⟨plaintext, opened, sameStream, nextSeq, processed⟩
    · rw [parsed, Except.map, type, if_pos rfl]
      have onward := ih returned (sameProgress ▸ unfinished) (rounded sameStream)
      rw [sameStream, sameSeq, sameBuf, sameProgress] at onward
      exact onward
    · obtain ⟨_, parsed, type⟩ := type_of_decryptRecord opened
      dsimp only at opened
      rw [parsed, Except.map, type, if_neg (by decide), opened]
      dsimp only
      rw [if_pos rfl]
      have grown (fragments : List (List UInt8)) :
          processBuffer inputs (reader.handshakeBuf ++ plaintext ++ fragments.flatten) _ = _ :=
        processBuffer_append fragments.flatten unfinished (Nat.le_refl _)
      simp only [processed] at grown
      by_cases finished : after.progress.flight.finished = true
      · rw [readRecords_of_finished finished] at returned
        cases returned
        refine ⟨[plaintext], cons_prefix_cons.mpr ⟨rfl, nil_prefix⟩, ?_, finished⟩
        rw [flatten_singleton]
        exact processed
      · obtain ⟨fragments, first, through⟩ :=
          ih returned (eq_false_of_ne_true finished) (rounded sameStream)
        rw [sameStream, nextSeq] at first
        refine ⟨plaintext :: fragments, cons_prefix_cons.mpr ⟨rfl, first⟩, ?_⟩
        rw [flatten_cons, ← append_assoc, grown, if_neg finished]
        exact through

theorem verifyWithLeaf_eq_ok {leaf body transcript : List UInt8}
    (valid : verifyWithLeaf inputs leaf body transcript = .ok ()) :
    ∃ cert alg signature, endEntityCert inputs leaf = .ok cert ∧
      verifySignature inputs cert alg (signedContent inputs transcript) signature = .ok () := by
  obtain ⟨⟨_, signature⟩, -, valid⟩ := exists_of_bind_eq_ok valid
  obtain ⟨alg, -, valid⟩ := exists_of_bind_eq_ok valid
  obtain ⟨cert, parsed, valid⟩ := exists_of_bind_eq_ok valid
  exact ⟨cert, alg, signature, eq_ok_of_mapError_eq_ok parsed, eq_ok_of_mapError_eq_ok valid⟩

theorem verifyServerCertificate_eq_ok {sni : String} {flight : ServerFlight}
    {leaf : List UInt8} {cert : Cert K} (valid : verifyServerCertificate inputs sni flight = .ok ())
    (first : flight.certificates.head? = some leaf)
    (parsed : endEntityCert inputs leaf = .ok cert) :
    verifyIsValidForSubjectName inputs cert sni = .ok () ∧
      ∃ roots, nativeRoots inputs = .ok roots ∧
        verifyForUsage inputs cert roots flight.certificates.tail = .ok () := by
  rw [verifyServerCertificate] at valid
  split at valid
  · cases valid
  next head intermediates list =>
    rw [list] at first ⊢
    cases first
    rw [parsed] at valid
    obtain ⟨_, same, valid⟩ := exists_of_bind_eq_ok valid
    cases same
    split at valid
    · obtain ⟨⟨⟩, named, valid⟩ := exists_of_bind_eq_ok valid
      obtain ⟨roots, loaded, valid⟩ := exists_of_bind_eq_ok valid
      exact ⟨eq_ok_of_mapError_eq_ok named, roots,
        eq_ok_of_mapError_eq_ok loaded, eq_ok_of_mapError_eq_ok valid⟩
    · cases valid

end Reading

end ParallaX.Safari26
