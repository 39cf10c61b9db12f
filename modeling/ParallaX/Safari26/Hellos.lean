import ParallaX.Safari26.ServerFlight

/-!
# The hellos of the Safari client

How the client reads the ServerHello and answers a request to retry, and what
its transcript holds when the encrypted flight begins. A flight that is returned
is authenticated: one CertificateVerify, checked with the key of the leaf that
the flight ends with, over the hellos and the messages accepted before it. The
hello of the server counts with everything that its record holds.
-/

namespace ParallaX.Safari26

open Codec Tls.Record TlsCursor FlightChecks List

def HANDSHAKE_SERVER_HELLO : UInt8 := 0x02

def HANDSHAKE_MESSAGE_HASH : UInt8 := 0xfe

def EXT_SUPPORTED_VERSIONS : Nat := 0x002b

def EXT_COOKIE : Nat := 0x002c

def EXT_KEY_SHARE : Nat := 0x0033

def TLS12 : Nat := 0x0303

def TLS13 : Nat := 0x0304

def GROUP_SECP256R1 : Nat := 0x0017

def GROUP_SECP384R1 : Nat := 0x0018

def GROUP_SECP521R1 : Nat := 0x0019

def GROUP_X25519 : Nat := 0x001d

def GROUP_X25519_MLKEM768 : Nat := 0x11ec

def RANDOM_LEN : Nat := 32

inductive TlsCipherSuite where
  | aes128GcmSha256
  | aes256GcmSha384
  | chacha20Poly1305Sha256
deriving DecidableEq, Repr

def TlsCipherSuite.fromU16 (value : Nat) : Except Safari26TlsError TlsCipherSuite :=
  if value = 0x1301 then .ok .aes128GcmSha256
  else if value = 0x1302 then .ok .aes256GcmSha384
  else if value = 0x1303 then .ok .chacha20Poly1305Sha256
  else .error (.unsupported "unsupported TLS cipher suite")

/-! ## The first look at a ServerHello -/

structure ServerHello where
  recordLen : Nat
  random : List UInt8
  sessionIdRange : Nat × Nat
  tls13Selected : Bool
deriving DecidableEq, Repr

def supportedVersionsLoop : Nat → Bool → Reader UInt8 ServerHelloError Bool
  | 0, selected => pure selected
  | rounds + 1, selected => do
    if (← remaining) = 0 then
      pure selected
    else
      let extType ← numberOr .truncated 2
      let data ← bytesOr .truncated (← numberOr .truncated 2)
      if extType ≠ EXT_SUPPORTED_VERSIONS then
        supportedVersionsLoop rounds selected
      else if data.length ≠ 2 then
        lift (.error .invalidLength)
      else
        supportedVersionsLoop rounds (bigEndian data = TLS13)

def parseServerHello (record : List UInt8) : Except ServerHelloError ServerHello := do
  let header ← (parseHeader record).mapError .record
  if record.length < header.totalLen then .error .truncated
  else if header.contentType ≠ TLS_CONTENT_HANDSHAKE then .error .notHandshakeRecord
  else
    let body ← parse (do
      let handshakeType ← numberOr .truncated 1
      if handshakeType ≠ HANDSHAKE_SERVER_HELLO.toNat then
        lift (.error .notServerHello)
      else
        bytesOr .invalidLength (← numberOr .truncated 3))
      ((record.take header.totalLen).drop TLS_HEADER_LEN)
    parse (do
      let _legacyVersion ← bytesOr .truncated 2
      let random ← bytesOr .truncated RANDOM_LEN
      let sessionLen ← numberOr .truncated 1
      let _sessionId ← bytesOr .truncated sessionLen
      let _suiteAndCompression ← bytesOr .truncated 3
      let sessionStart := TLS_HEADER_LEN + 4 + 2 + RANDOM_LEN + 1
      let hello (selected : Bool) : ServerHello :=
        ⟨header.totalLen, random, (sessionStart, sessionStart + sessionLen), selected⟩
      if (← remaining) = 0 then
        pure (hello false)
      else
        let extensions ← bytesOr .invalidLength (← numberOr .truncated 2)
        let selected ← lift (parse (supportedVersionsLoop extensions.length false) extensions)
        pure (hello selected)) body

/-! ## ServerHello and HelloRetryRequest -/

def hrrRandom : List UInt8 :=
  [0xcf, 0x21, 0xad, 0x74, 0xe5, 0x9a, 0x61, 0x11, 0xbe, 0x1d, 0x8c, 0x02, 0x1e, 0x65, 0xb8, 0x91,
    0xc2, 0xa2, 0x11, 0x16, 0x7a, 0xbb, 0x8c, 0x5e, 0x07, 0x9e, 0x09, 0xe2, 0xc8, 0xa8, 0x33, 0x9c]

/-- The random of a ServerHello is its retry marker, at a fixed place. -/
def isHelloRetryRequest (record : List UInt8) : Bool :=
  (record.drop (5 + 1 + 3 + 2)).take RANDOM_LEN = hrrRandom

/-- The suite and the extensions of a message that is a ServerHello on the wire.
Both parsers read it in the same way, up to their name and the random. -/
def parseHello (name : String) (retry : Bool) (record expectedSessionId : List UInt8) :
    Except Safari26TlsError (TlsCipherSuite × List UInt8) := do
  let (_, payload) ← (parseExact record).mapError fun failure => .handshake failure.message
  let body ← parse (do
    let handshakeType ← u8
    if handshakeType ≠ HANDSHAKE_SERVER_HELLO.toNat then
      lift (.error (.handshake ("expected " ++ name)))
    else
      vecU24) payload
  parse (do
    let legacyVersion ← u16
    if legacyVersion ≠ TLS12 then
      lift (.error (.handshake (name ++ " legacy_version is not TLS 1.2")))
    else
      let random ← bytes RANDOM_LEN
      if !retry && random = hrrRandom then
        lift (.error (.unsupported "HelloRetryRequest"))
      else
        let sessionId ← vecU8
        if sessionId ≠ expectedSessionId then
          lift (.error (.handshake (name ++ " did not echo the ClientHello legacy_session_id")))
        else
          let suite ← lift (TlsCipherSuite.fromU16 (← u16))
          let compression ← u8
          if compression ≠ 0 then
            lift (.error (.handshake (name ++ " compression_method is not null")))
          else
            pure (suite, ← vecU16)) body

def selectsTls13 (data : List UInt8) : Bool := data.length = 2 && bigEndian data = TLS13

structure ParsedServerHello where
  cipherSuite : TlsCipherSuite
  keyShareGroup : Nat
  keyShare : List UInt8
deriving DecidableEq, Repr

def serverHelloLoop : Nat → Bool → Option (Nat × List UInt8) →
    TlsReader (Bool × Option (Nat × List UInt8))
  | 0, selected, share => pure (selected, share)
  | rounds + 1, selected, share => do
    if (← remaining) = 0 then
      pure (selected, share)
    else
      let extType ← u16
      let data ← vecU16
      if extType = EXT_SUPPORTED_VERSIONS then
        serverHelloLoop rounds (selected || selectsTls13 data) share
      else if extType = EXT_KEY_SHARE then
        let entry ← lift (parse (do
          let group ← u16
          let key ← vecU16
          pure (group, key)) data)
        serverHelloLoop rounds selected (some entry)
      else
        serverHelloLoop rounds selected share

def parseSafariServerHello (record expectedSessionId : List UInt8) :
    Except Safari26TlsError ParsedServerHello := do
  let _ ← (parseServerHello record).mapError .serverHello
  let (suite, extensions) ← parseHello "ServerHello" false record expectedSessionId
  let (selected, share) ← parse (serverHelloLoop extensions.length false none) extensions
  if !selected then .error .missingServerHello
  else
    match share with
    | none => .error (.handshake "ServerHello missing key_share")
    | some (group, key) => .ok ⟨suite, group, key⟩

structure HelloRetryRequest where
  cipherSuite : TlsCipherSuite
  selectedGroup : Nat
  cookie : Option (List UInt8)
deriving DecidableEq, Repr

def hexWord (value : Nat) : String :=
  let digits := Nat.toDigits 16 value
  "0x" ++ String.ofList (List.replicate (4 - digits.length) '0' ++ digits)

def helloRetryLoop : Nat → List Nat → Bool → Option Nat → Option (List UInt8) →
    TlsReader (Bool × Option Nat × Option (List UInt8))
  | 0, _, selected, group, cookie => pure (selected, group, cookie)
  | rounds + 1, seen, selected, group, cookie => do
    if (← remaining) = 0 then
      pure (selected, group, cookie)
    else
      let extType ← u16
      let data ← vecU16
      if extType ∈ seen then
        lift (.error (.handshake ("HelloRetryRequest repeated extension " ++ hexWord extType)))
      else if extType = EXT_SUPPORTED_VERSIONS then
        helloRetryLoop rounds (extType :: seen) (selected || selectsTls13 data) group cookie
      else if extType = EXT_KEY_SHARE then
        let (chosen, left) ← lift (parse (do
          let chosen ← u16
          pure (chosen, ← remaining)) data)
        if left ≠ 0 then
          lift (.error (.handshake "HelloRetryRequest key_share carried a key_exchange"))
        else
          helloRetryLoop rounds (extType :: seen) selected (some chosen) cookie
      else if extType = EXT_COOKIE then
        let (value, left) ← lift (parse (do
          let value ← vecU16
          pure (value, ← remaining)) data)
        if value = [] ∨ left ≠ 0 then
          lift (.error (.handshake "HelloRetryRequest cookie is malformed"))
        else
          helloRetryLoop rounds (extType :: seen) selected group (some value)
      else
        helloRetryLoop rounds (extType :: seen) selected group cookie

def parseHelloRetryRequest (record expectedSessionId : List UInt8) :
    Except Safari26TlsError HelloRetryRequest := do
  let (suite, extensions) ← parseHello "HelloRetryRequest" true record expectedSessionId
  let (selected, group, cookie) ←
    parse (helloRetryLoop extensions.length [] false none none) extensions
  if !selected then .error .missingServerHello
  else
    match group with
    | none => .error (.handshake "HelloRetryRequest missing key_share group")
    | some chosen => .ok ⟨suite, chosen, cookie⟩

/-! ## The transcript -/

def pushHandshakeRecord (transcript record : List UInt8) :
    Except Safari26TlsError (List UInt8) := do
  let (_, payload) ← (parseExact record).mapError fun failure => .handshake failure.message
  .ok (transcript ++ payload)

/-- A client, with what lies outside of this code: hashes, key shares and the key
schedule. -/
structure Session (K : Type) where
  clientHello : List UInt8
  sentSessionId : List UInt8
  sni : String
  digest : TlsCipherSuite → List UInt8 → List UInt8
  /-- The second ClientHello, with a new key share of the selected group. -/
  secondClientHello : HelloRetryRequest → Except Safari26TlsError (List UInt8)
  /-- The handshake keys, for the group that was retried, if one was. -/
  handshakeKeys : Option Nat → ParsedServerHello → List UInt8 → Except Safari26TlsError K

variable {K : Type}

/-- The first ClientHello becomes its hash. -/
def Session.collapseForHelloRetry (session : Session K) (suite : TlsCipherSuite)
    (transcript : List UInt8) : Except Safari26TlsError (List UInt8) :=
  let hash := session.digest suite transcript
  if 0x00ffffff < hash.length then
    .error (.handshake "TLS handshake message too large")
  else
    .ok ([HANDSHAKE_MESSAGE_HASH, UInt8.ofNat (hash.length / 2 ^ 16),
      UInt8.ofNat (hash.length / 2 ^ 8), UInt8.ofNat hash.length] ++ hash)

/-! ## The exchange -/

/-- The next ServerHello of a stream, behind up to `ccs` ChangeCipherSpec records,
and the bytes after it. -/
def readServerHelloRecord (ccs : Nat) (stream : List UInt8) :
    Except Safari26TlsError (List UInt8 × List UInt8) := do
  let (record, rest) ← (readRecord stream).mapError .io
  let header ← (parseHeader record).mapError fun failure => .handshake failure.message
  if header.contentType = TLS_CONTENT_CHANGE_CIPHER_SPEC then
    match ccs with
    | 0 => .error (.handshake "too many ChangeCipherSpec records before ServerHello")
    | left + 1 => readServerHelloRecord left rest
  else if header.contentType = TLS_CONTENT_ALERT then
    .error (parseAlert record)
  else if header.contentType = TLS_CONTENT_HANDSHAKE then do
    let _ ← (parseServerHello record).mapError .serverHello
    .ok (record, rest)
  else
    .error .missingServerHello

/-- The record of the ServerHello, the bytes after it, the transcript before it
and the group that was retried. -/
structure Answer where
  record : List UInt8
  stream : List UInt8
  transcript : List UInt8
  group : Option Nat

def generateRetryKeyShare (group : Nat) : Except Safari26TlsError Unit :=
  if group = GROUP_SECP256R1 ∨ group = GROUP_SECP384R1 ∨ group = GROUP_SECP521R1 then .ok ()
  else .error (.unsupported "HelloRetryRequest selected a group this client does not offer")

def Session.retryAfterHelloRetryRequest (session : Session K)
    (stream transcript record : List UInt8) : Except Safari26TlsError Answer := do
  let hrr ← parseHelloRetryRequest record session.sentSessionId
  if hrr.selectedGroup = GROUP_X25519 ∨ hrr.selectedGroup = GROUP_X25519_MLKEM768 then
    .error (.handshake "HelloRetryRequest selected a group already offered as a key_share")
  else
    generateRetryKeyShare hrr.selectedGroup
    let transcript ← session.collapseForHelloRetry hrr.cipherSuite transcript
    let transcript ← pushHandshakeRecord transcript record
    let second ← session.secondClientHello hrr
    let transcript ← pushHandshakeRecord transcript second
    let (next, stream) ← readServerHelloRecord MAX_CHANGE_CIPHER_SPEC_RECORDS stream
    if isHelloRetryRequest next then
      .error (.handshake "server sent a second HelloRetryRequest")
    else
      let selected ← parseSafariServerHello next session.sentSessionId
      if selected.cipherSuite ≠ hrr.cipherSuite then
        .error (.handshake "ServerHello cipher_suite does not match the HelloRetryRequest")
      else
        .ok ⟨next, stream, transcript, some hrr.selectedGroup⟩

def Session.awaitServerHello (session : Session K) (transcript stream : List UInt8) :
    Except Safari26TlsError Answer := do
  let (record, stream) ← readServerHelloRecord MAX_CHANGE_CIPHER_SPEC_RECORDS stream
  if isHelloRetryRequest record then
    session.retryAfterHelloRetryRequest stream transcript record
  else
    .ok ⟨record, stream, transcript, none⟩

/-- What `complete` knows when the encrypted flight begins. -/
structure Hellos (K : Type) where
  serverHelloRecord : List UInt8
  keys : K
  transcript : List UInt8
  stream : List UInt8
deriving DecidableEq

def Session.exchangeHellos (session : Session K) (stream : List UInt8) :
    Except Safari26TlsError (Hellos K) := do
  let transcript ← pushHandshakeRecord [] session.clientHello
  let answer ← session.awaitServerHello transcript stream
  let transcript ← pushHandshakeRecord answer.transcript answer.record
  let serverHello ← parseSafariServerHello answer.record session.sentSessionId
  let keys ← session.handshakeKeys answer.group serverHello transcript
  .ok ⟨answer.record, keys, transcript, answer.stream⟩

/-- The handshake through the check of the certificate. What the client sends
after it and reads of the application is outside. -/
def Session.complete [FlightChecks K] (session : Session K) (stream : List UInt8) :
    Except Safari26TlsError FlightReader := do
  let hellos ← session.exchangeHellos stream
  let reader ← readEncryptedServerFlight hellos.keys hellos.stream hellos.transcript
  verifyServerCertificate hellos.keys session.sni reader.progress.flight
  .ok reader

/-! ## What the transcript covers -/

/-- What the transcript of a client holds before the ServerHello: its ClientHello,
or, after a retry, the hash of the first one, the request and the second one. -/
inductive Session.Opens (session : Session K) : List UInt8 → Prop
  | first {header : TlsRecordHeader} {clientHello : List UInt8}
      (sent : parseExact session.clientHello = .ok (header, clientHello)) :
      Opens session clientHello
  | retried {header asked again : TlsRecordHeader}
      {clientHello hash record request second secondHello : List UInt8} {hrr : HelloRetryRequest}
      (sent : parseExact session.clientHello = .ok (header, clientHello))
      (collapsed : session.collapseForHelloRetry hrr.cipherSuite clientHello = .ok hash)
      (received : parseExact record = .ok (asked, request))
      (parsed : parseHelloRetryRequest record session.sentSessionId = .ok hrr)
      (answered : session.secondClientHello hrr = .ok second)
      (resent : parseExact second = .ok (again, secondHello)) :
      Opens session (hash ++ request ++ secondHello)

theorem pushHandshakeRecord_eq_ok {transcript record next : List UInt8}
    (pushed : pushHandshakeRecord transcript record = .ok next) :
    ∃ header payload, parseExact record = .ok (header, payload) ∧ next = transcript ++ payload := by
  obtain ⟨⟨header, payload⟩, parsed, same⟩ := exists_of_bind_eq_ok pushed
  cases same
  exact ⟨header, payload, eq_ok_of_mapError_eq_ok parsed, rfl⟩

theorem Session.opens_retry {session : Session K} {stream clientHello record : List UInt8}
    {header : TlsRecordHeader} {answer : Answer}
    (sent : parseExact session.clientHello = .ok (header, clientHello))
    (answered : session.retryAfterHelloRetryRequest stream clientHello record = .ok answer) :
    session.Opens answer.transcript := by
  obtain ⟨hrr, parsed, answered⟩ := exists_of_bind_eq_ok answered
  split at answered
  · cases answered
  obtain ⟨⟨⟩, -, answered⟩ := exists_of_bind_eq_ok answered
  obtain ⟨hash, collapsed, answered⟩ := exists_of_bind_eq_ok answered
  obtain ⟨_, pushed, answered⟩ := exists_of_bind_eq_ok answered
  obtain ⟨_, request, received, rfl⟩ := pushHandshakeRecord_eq_ok pushed
  obtain ⟨second, rebuilt, answered⟩ := exists_of_bind_eq_ok answered
  obtain ⟨_, pushed, answered⟩ := exists_of_bind_eq_ok answered
  obtain ⟨_, secondHello, resent, rfl⟩ := pushHandshakeRecord_eq_ok pushed
  obtain ⟨⟨next, rest⟩, -, answered⟩ := exists_of_bind_eq_ok answered
  dsimp only at answered
  split at answered
  · cases answered
  obtain ⟨selected, -, answered⟩ := exists_of_bind_eq_ok answered
  split at answered
  · cases answered
  · cases answered
    exact .retried sent collapsed received parsed rebuilt resent

section Message

variable {E : Type} {failure : E} {len : Nat} {cursor later : Cursor UInt8}

theorem bytesOr_eq_ok {data : List UInt8}
    (read : bytesOr failure len cursor = (.ok data, later)) :
    len ≤ cursor.buf.length - cursor.pos ∧ data = cursor.rest.take len ∧
      later = cursor.advance len := by
  unfold bytesOr at read
  split at read
  · cases read
  next enough =>
    cases read
    exact ⟨Nat.le_of_not_lt enough, rfl, rfl⟩

theorem numberOr_eq_ok {value : Nat} (read : numberOr failure len cursor = (.ok value, later)) :
    len ≤ cursor.buf.length - cursor.pos ∧ value = bigEndian (cursor.rest.take len) ∧
      later = cursor.advance len := by
  obtain ⟨_, _, bytes, same⟩ := Reader.exists_of_bind_ok read
  cases same
  obtain ⟨enough, rfl, rfl⟩ := bytesOr_eq_ok bytes
  exact ⟨enough, rfl, rfl⟩

/-- A message of the length it declares. -/
def Framed (message : List UInt8) : Prop := message.length = 4 + declaredLen message

/-- The record of a hello begins with a ServerHello, which need not fill it. -/
theorem parseHello_message {name : String} {retry : Bool} {record expectedSessionId : List UInt8}
    {result : TlsCipherSuite × List UInt8}
    (parsed : parseHello name retry record expectedSessionId = .ok result) :
    ∃ header serverHello behind, parseExact record = .ok (header, serverHello ++ behind) ∧
      messageType serverHello = HANDSHAKE_SERVER_HELLO ∧ Framed serverHello := by
  obtain ⟨⟨header, payload⟩, exactly, parsed⟩ := exists_of_bind_eq_ok parsed
  obtain ⟨body, cut, -⟩ := exists_of_bind_eq_ok parsed
  have run : _ = (Except.ok body, _) := Prod.ext cut rfl
  obtain ⟨type, _, first, run⟩ := Reader.exists_of_bind_ok run
  obtain ⟨-, isType, rfl⟩ := numberOr_eq_ok first
  split at run
  · cases (Prod.mk.inj run).1
  next expected =>
  obtain ⟨len, _, second, run⟩ := Reader.exists_of_bind_ok run
  obtain ⟨enough, isLen, rfl⟩ := numberOr_eq_ok second
  obtain ⟨long, -, -⟩ := bytesOr_eq_ok run
  match payload with
  | [] | [_] | [_, _] | [_, _, _] => simp at enough
  | kind :: high :: middle :: low :: rest =>
    simp [Cursor.rest, bigEndian] at isType isLen long
    have declared : declaredLen (kind :: high :: middle :: low :: rest) = len := by
      simp [declaredLen, isLen]
      omega
    refine ⟨header, (kind :: high :: middle :: low :: rest).take (4 + len),
      (kind :: high :: middle :: low :: rest).drop (4 + len), ?_, ?_, ?_⟩
    · rw [take_append_drop]
      exact eq_ok_of_mapError_eq_ok exactly
    · rw [Nat.add_comm]
      exact UInt8.toNat.inj (isType.symm.trans (not_not.mp expected))
    · rw [Framed, declaredLen_take (Nat.le_add_right ..), declared, length_take]
      simp only [length_cons]
      omega

end Message

theorem Session.exchangeHellos_spec {session : Session K} {stream : List UInt8} {hellos : Hellos K}
    (greeted : session.exchangeHellos stream = .ok hellos) :
    ∃ opening header serverHello behind, session.Opens opening ∧
      parseExact hellos.serverHelloRecord = .ok (header, serverHello ++ behind) ∧
      messageType serverHello = HANDSHAKE_SERVER_HELLO ∧ Framed serverHello ∧
      hellos.transcript = opening ++ (serverHello ++ behind) := by
  obtain ⟨_, pushed, greeted⟩ := exists_of_bind_eq_ok greeted
  obtain ⟨_, clientHello, sent, rfl⟩ := pushHandshakeRecord_eq_ok pushed
  obtain ⟨answer, answered, greeted⟩ := exists_of_bind_eq_ok greeted
  have opens : session.Opens answer.transcript := by
    obtain ⟨⟨record, rest⟩, -, answered⟩ := exists_of_bind_eq_ok answered
    dsimp only at answered
    split at answered
    · exact opens_retry sent answered
    · cases answered
      exact .first sent
  obtain ⟨_, pushed, greeted⟩ := exists_of_bind_eq_ok greeted
  obtain ⟨header, payload, received, rfl⟩ := pushHandshakeRecord_eq_ok pushed
  obtain ⟨serverHello, parsed, greeted⟩ := exists_of_bind_eq_ok greeted
  obtain ⟨keys, -, same⟩ := exists_of_bind_eq_ok greeted
  cases same
  obtain ⟨_, -, parsed⟩ := exists_of_bind_eq_ok parsed
  obtain ⟨⟨suite, extensions⟩, hello, -⟩ := exists_of_bind_eq_ok parsed
  obtain ⟨_, message, behind, cut, type, framed⟩ := parseHello_message hello
  cases received.symm.trans cut
  exact ⟨_, header, message, behind, opens, cut, type, framed, rfl⟩

/-! ## Authentication -/

/-- The records of the flight that the server sends, as `flightRecords` gives them. -/
def Hellos.records [FlightChecks K] (hellos : Hellos K) : Nat × List (List UInt8) :=
  flightRecords hellos.keys hellos.stream.length 0 hellos.stream

variable [FlightChecks K] {session : Session K} {stream : List UInt8} {hellos : Hellos K}
  {reader : FlightReader}

theorem exists_ok_of_isSome {ε α : Type} {result : Except ε α}
    (some : result.toOption.isSome = true) : ∃ value, result = .ok value := by
  cases result with
  | error => cases some
  | ok value => exact ⟨value, rfl⟩

/-- Records that are not encrypted, with a signature and a MAC that depend on the
length of what they cover. -/
structure ExampleFlight where
deriving DecidableEq

namespace ExampleFlight

instance : FlightChecks ExampleFlight where
  aeadOpen _ _ _ ciphertext _ := some ciphertext
  digest _ transcript := transcript
  finishedVerifyData _ transcript := .ok [UInt8.ofNat transcript.length]
  inflate _ _ _ := none
  Cert := List UInt8
  endEntityCert _ der := .ok der
  verifySignature _ _ _ content signature :=
    if signature = [UInt8.ofNat content.length] then .ok () else .error "invalid signature"
  isServerName _ _ := true
  verifyIsValidForSubjectName _ _ _ := .ok ()
  nativeRoots _ := .ok []
  verifyForUsage _ _ _ _ := .ok ()

def clientHello : List UInt8 := [1, 0, 0, 0]

def client : Session ExampleFlight where
  clientHello := [TLS_CONTENT_HANDSHAKE, 3, 1, 0, 4] ++ clientHello
  sentSessionId := List.replicate 32 5
  sni := "example.com"
  digest _ transcript := transcript
  secondClientHello _ := .error .hkdf
  handshakeKeys _ _ _ := .ok ⟨⟩

def serverHello : List UInt8 :=
  [HANDSHAKE_SERVER_HELLO, 0, 0, 87, 3, 3] ++ List.replicate 32 4 ++ 32 :: List.replicate 32 5 ++
    [0x13, 0x01, 0, 0, 15, 0, 0x2b, 0, 2, 3, 4, 0, 0x33, 0, 5, 0, 0x1d, 0, 1, 9]

/-- A ServerHello in a record with other bytes behind it. -/
def helloRecord (behind : List UInt8) : List UInt8 :=
  [TLS_CONTENT_HANDSHAKE, 3, 3, 0, UInt8.ofNat (serverHello ++ behind).length] ++
    (serverHello ++ behind)

def extensions : List UInt8 := [HANDSHAKE_ENCRYPTED_EXTENSIONS, 0, 0, 2, 0, 0]

def certificate : List UInt8 := [HANDSHAKE_CERTIFICATE, 0, 0, 10, 0, 0, 0, 6, 0, 0, 1, 7, 0, 0]

def verify (transcript : List UInt8) : List UInt8 :=
  [HANDSHAKE_CERTIFICATE_VERIFY, 0, 0, 5, 4, 3, 0, 1,
    UInt8.ofNat (signedContent (⟨⟩ : ExampleFlight) transcript).length]

def finished (transcript : List UInt8) : List UInt8 :=
  [HANDSHAKE_FINISHED, 0, 0, 1, UInt8.ofNat transcript.length]

/-- The signed messages, the others and the MAC, after a hello. -/
def flight (hello before between : List UInt8) : List UInt8 :=
  let signed := before ++ verify (hello ++ before) ++ between
  signed ++ finished (hello ++ signed)

def record (plaintext : List UInt8) : List UInt8 :=
  [TLS_CONTENT_APPLICATION_DATA, 3, 3, 0,
    UInt8.ofNat (plaintext.length + 1 + AEAD_TAG_LEN)] ++
    (plaintext ++ (TLS_CONTENT_HANDSHAKE :: List.replicate AEAD_TAG_LEN 0))

/-- A flight in two records, behind a ChangeCipherSpec record. -/
def records (plaintext : List UInt8) : List UInt8 :=
  [TLS_CONTENT_CHANGE_CIPHER_SPEC, 3, 3, 0, 1, 1] ++
    (record (plaintext.take 9) ++ record (plaintext.drop 9))

/-- What the client knows before a flight. -/
def greeting (behind plaintext : List UInt8) : Hellos ExampleFlight :=
  ⟨helloRecord behind, ⟨⟩, clientHello ++ (serverHello ++ behind), records plaintext⟩

/-- The flight of TLS 1.3, cut in the middle of its Certificate. -/
def exactly : List UInt8 := flight (clientHello ++ serverHello) (extensions ++ certificate) []

end ExampleFlight

end ParallaX.Safari26
