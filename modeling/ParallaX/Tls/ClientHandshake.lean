import ParallaX.Tls.KeySchedule

/-!
# The QUIC TLS client

The order in which the client of a QUIC TLS handshake reads messages, writes
its own and hands over keys. What it parses, verifies and computes in a
message is a parameter. No sealing key of the 1-RTT space is handed over
twice, and no Handshake keys after the 1-RTT keys.
-/

namespace ParallaX.Tls

open ParallaX.Quic

/-- What the client parses and verifies in the messages of the server. -/
class ClientChecks (K : Type) extends KeyDerivation K where
  /-- Whether the server took the offered pre-shared key. -/
  parseServerHello : K → List UInt8 → Except QuicTlsError Bool
  /-- The shared secret and the pre-shared key of a parsed ServerHello. -/
  keyExchange : K → Bool → List UInt8 → Except QuicTlsError Unit
  /-- The transport parameters of the server. -/
  parseEncryptedExtensions : K → Bool → List UInt8 → Except QuicTlsError (Option (List UInt8))
  parseCertificate : List UInt8 → Except QuicTlsError (List (List UInt8))
  parseCompressedCertificate : List UInt8 → Except QuicTlsError (List (List UInt8))
  verifyCertChain : K → List (List UInt8) → Except QuicTlsError Unit
  /-- Over the messages through the certificate. -/
  verifySignature : K → List (List UInt8) → List UInt8 → List UInt8 → Except QuicTlsError Unit
  serverVerifyData : K → List UInt8 → List UInt8
  clientVerifyData : K → List UInt8 → List UInt8
  storeSessionTicket : K → List UInt8 → Except QuicTlsError Unit

inductive ReadState where
  | serverHello
  | encryptedExtensions
  | certificate
  | certificateVerify
  | finished
  | complete
deriving DecidableEq, Repr

def ReadState.name : ReadState → String
  | .serverHello => "ServerHello"
  | .encryptedExtensions => "EncryptedExtensions"
  | .certificate => "Certificate"
  | .certificateVerify => "CertificateVerify"
  | .finished => "Finished"
  | .complete => "Complete"

/-- Pending keys are kept as the messages that their secrets are derived
over. -/
structure ClientHandshake (K : Type) where
  inputs : K
  clientHello : List UInt8
  clientHelloSent : Bool
  pending0rttKeys : Option (List UInt8)
  pendingHandshakeKeys : Option (List UInt8)
  pendingClientFinished : Option (List UInt8)
  pending1rttKeys : Option (List UInt8)
  handshakeComplete : Bool
  inbound : List UInt8
  readState : ReadState
  schedule : Option KeySchedule
  transcript : List UInt8
  serverCerts : List (List UInt8)
  peerTransportParams : Option (List UInt8)
  pskAccepted : Bool
  /-- History that only proofs read: the sealing secrets of the 1-RTT space
  that were handed over. -/
  handed : List TrafficSecret

namespace ClientHandshake

/-- The longest body of a message of the server. -/
def MAX_HANDSHAKE_MESSAGE : Nat := 512 * 1024

variable {K : Type}

def new (inputs : K) (clientHello : List UInt8) (resumes : Bool) : ClientHandshake K :=
  { inputs := inputs
    clientHello := clientHello
    clientHelloSent := false
    pending0rttKeys := if resumes then some clientHello else none
    pendingHandshakeKeys := none
    pendingClientFinished := none
    pending1rttKeys := none
    handshakeComplete := false
    inbound := []
    readState := .serverHello
    schedule := none
    transcript := clientHello
    serverCerts := []
    peerTransportParams := none
    pskAccepted := false
    handed := [] }

def hash (tls : ClientHandshake K) (message : List UInt8) : ClientHandshake K :=
  { tls with transcript := tls.transcript ++ message }

def isHandshaking (tls : ClientHandshake K) : Bool := !tls.handshakeComplete

/-- The next CRYPTO bytes and the keys that go with them. -/
def writeHandshake [KeyDerivation K] (tls : ClientHandshake K) :
    ClientHandshake K × List UInt8 × Option KeyChange :=
  if !tls.clientHelloSent then
    ({ tls with clientHelloSent := true }, tls.clientHello, none)
  else
    match tls.pending0rttKeys with
    | some transcript =>
      ({ tls with pending0rttKeys := none, handed := .early transcript :: tls.handed },
        [], some (.zeroRtt (earlyKeys tls.inputs transcript)))
    | none =>
      match tls.pendingHandshakeKeys with
      | some transcript =>
        ({ tls with pendingHandshakeKeys := none }, [],
          some (.handshake (handshakeKeys tls.inputs .client transcript)))
      | none =>
        -- The keys are always there with the Finished: see `Sound.finished`.
        match tls.pendingClientFinished, tls.pending1rttKeys with
        | some finished, some transcript =>
          ({ tls with
              pendingClientFinished := none
              pending1rttKeys := none
              handshakeComplete := true
              handed := .application transcript .client 0 :: tls.handed },
            finished,
            some (.oneRtt (applicationKeys tls.inputs .client transcript 0)))
        | _, _ => (tls, [], none)

/-- How many of the writes above are still to come. -/
def backlog (tls : ClientHandshake K) : Nat :=
  (!tls.clientHelloSent).toNat + tls.pending0rttKeys.isSome.toNat +
    tls.pendingHandshakeKeys.isSome.toNat + tls.pendingClientFinished.isSome.toNat

def next1rttKeys [KeyDerivation K] (tls : ClientHandshake K) :
    ClientHandshake K × Except QuicTlsError (PacketKey × PacketKey) :=
  match tls.schedule with
  | none => (tls, .error (.crypto "key update before key schedule"))
  | some schedule =>
    let outcome := schedule.next1rttPacketKeys tls.inputs .client
    ({ tls with schedule := some outcome.1, handed := schedule.issue .client ++ tls.handed },
      outcome.2)

section Reading

variable [ClientChecks K]

def handleServerHello (tls : ClientHandshake K) (body : List UInt8) :
    ClientHandshake K × Except QuicTlsError Unit :=
  match ClientChecks.parseServerHello tls.inputs body with
  | .error failure => (tls, .error failure)
  | .ok pskSelected =>
    match ClientChecks.keyExchange tls.inputs pskSelected body with
    | .error failure => ({ tls with pskAccepted := pskSelected }, .error failure)
    | .ok () =>
      ({ tls with
          pskAccepted := pskSelected
          schedule := some .afterServerHello
          pendingHandshakeKeys := some tls.transcript
          readState := .encryptedExtensions },
        .ok ())

def handleEncryptedExtensions (tls : ClientHandshake K) (body message : List UInt8) :
    ClientHandshake K × Except QuicTlsError Unit :=
  match ClientChecks.parseEncryptedExtensions tls.inputs tls.pskAccepted body with
  | .error failure => (tls, .error failure)
  | .ok params =>
    ({ tls with
        peerTransportParams := params
        transcript := tls.transcript ++ message
        readState := if tls.pskAccepted then .finished else .certificate },
      .ok ())

def handleCertificate (tls : ClientHandshake K) (message : List UInt8)
    (parsed : Except QuicTlsError (List (List UInt8))) :
    ClientHandshake K × Except QuicTlsError Unit :=
  match parsed with
  | .error failure => (tls, .error failure)
  | .ok certs =>
    match ClientChecks.verifyCertChain tls.inputs certs with
    | .error failure => ({ tls with serverCerts := certs }, .error failure)
    | .ok () =>
      ({ tls with
          serverCerts := certs
          transcript := tls.transcript ++ message
          readState := .certificateVerify },
        .ok ())

/-- The signature covers the messages before this one. -/
def handleCertificateVerify (tls : ClientHandshake K) (body message : List UInt8) :
    ClientHandshake K × Except QuicTlsError Unit :=
  match ClientChecks.verifySignature tls.inputs tls.serverCerts tls.transcript body with
  | .error failure => (tls, .error failure)
  | .ok () =>
    ({ tls with transcript := tls.transcript ++ message, readState := .finished },
      .ok ())

/-- The client's own Finished over the messages so far, and the end of the
handshake secrets. -/
def respondFinished (tls : ClientHandshake K) (derived : KeySchedule) :
    ClientHandshake K × Except QuicTlsError Unit :=
  match derived.finishedVerifyData (ClientChecks.clientVerifyData tls.inputs tls.transcript) with
  | .error failure => ({ tls with schedule := some derived }, .error failure)
  | .ok verifyData =>
    let finished := buildFinished verifyData
    match derived.finishHandshake with
    | .error failure =>
      ({ tls with schedule := some derived, transcript := tls.transcript ++ finished },
        .error failure)
    | .ok retired =>
      ({ tls with
          schedule := some retired
          transcript := tls.transcript ++ finished
          pendingClientFinished := some finished
          pending1rttKeys := some tls.transcript
          readState := .complete },
        .ok ())

def handleServerFinished (tls : ClientHandshake K) (body message : List UInt8) :
    ClientHandshake K × Except QuicTlsError Unit :=
  match tls.schedule with
  | none => (tls, .error (.panic "schedule set at ServerHello"))
  | some schedule =>
    match schedule.finishedVerifyData (ClientChecks.serverVerifyData tls.inputs tls.transcript) with
    | .error failure => (tls, .error failure)
    | .ok expected =>
      if body ≠ expected then
        (tls, .error (.alert ALERT_DECRYPT_ERROR "server Finished verify_data mismatch"))
      else
        match schedule.deriveApplication (tls.hash message).transcript with
        | .error failure => (tls.hash message, .error failure)
        | .ok derived => (tls.hash message).respondFinished derived

def processMessage (tls : ClientHandshake K) (message : List UInt8) :
    ClientHandshake K × Except QuicTlsError Unit :=
  let msgType := message.headD 0
  let body := message.drop 4
  let unexpected := (tls, .error (unexpectedMessage msgType tls.readState.name))
  match tls.readState with
  | .serverHello =>
    if msgType = HANDSHAKE_SERVER_HELLO then
      (tls.hash message).handleServerHello body
    else unexpected
  | .encryptedExtensions =>
    if msgType = HANDSHAKE_ENCRYPTED_EXTENSIONS then
      tls.handleEncryptedExtensions body message
    else unexpected
  | .certificate =>
    if msgType = HANDSHAKE_CERTIFICATE then
      tls.handleCertificate message (ClientChecks.parseCertificate K body)
    else if msgType = HANDSHAKE_COMPRESSED_CERTIFICATE then
      tls.handleCertificate message (ClientChecks.parseCompressedCertificate K body)
    else unexpected
  | .certificateVerify =>
    if msgType = HANDSHAKE_CERTIFICATE_VERIFY then
      tls.handleCertificateVerify body message
    else unexpected
  | .finished =>
    if msgType = HANDSHAKE_FINISHED then
      tls.handleServerFinished body message
    else unexpected
  | .complete =>
    if msgType = HANDSHAKE_NEW_SESSION_TICKET then
      (tls, ClientChecks.storeSessionTicket tls.inputs body)
    else unexpected

def readHandshake (tls : ClientHandshake K) (data : List UInt8) :
    ClientHandshake K × Except QuicTlsError Unit :=
  readMessages MAX_HANDSHAKE_MESSAGE inbound
    (fun tls rest => { tls with inbound := rest }) processMessage (tls.inbound.length + data.length)
    { tls with inbound := tls.inbound ++ data }

end Reading

/-! ## Invariant -/

structure Orderly (handed : List TrafficSecret) (schedule : Option KeySchedule)
    (pending0rttKeys pendingHandshakeKeys pendingClientFinished
      pending1rttKeys : Option (List UInt8))
    (readState : ReadState) (handshakeComplete : Bool) : Prop where
  handedOver : HandedOver .client handed schedule pending1rttKeys
  early : ∀ transcript, pending0rttKeys = some transcript → .early transcript ∉ handed
  begun : readState = .serverHello → schedule = none
  finished : pendingClientFinished.isSome = true →
    pending1rttKeys.isSome = true ∧ readState = .complete
  atEnd : handshakeComplete = true → readState = .complete ∧ pendingHandshakeKeys = none

def Sound (tls : ClientHandshake K) : Prop :=
  Orderly tls.handed tls.schedule tls.pending0rttKeys
    tls.pendingHandshakeKeys tls.pendingClientFinished tls.pending1rttKeys
    tls.readState tls.handshakeComplete

theorem sound_new (inputs : K) (clientHello : List UInt8) (resumes : Bool) :
    (new inputs clientHello resumes).Sound :=
  ⟨.new .client, fun _ _ => List.not_mem_nil, fun _ => rfl, nofun, nofun⟩

/-- What reading leaves as it is, and that it keeps the order. -/
structure Keeps (before after : ClientHandshake K) : Prop where
  inputs : after.inputs = before.inputs
  handed : after.handed = before.handed
  handshakeComplete : after.handshakeComplete = before.handshakeComplete
  sound : before.Sound → after.Sound

theorem Keeps.refl (tls : ClientHandshake K) : Keeps tls tls := ⟨rfl, rfl, rfl, id⟩

theorem Keeps.trans {first second third : ClientHandshake K}
    (left : Keeps first second) (right : Keeps second third) : Keeps first third :=
  ⟨right.inputs.trans left.inputs, right.handed.trans left.handed,
    right.handshakeComplete.trans left.handshakeComplete,
    right.sound ∘ left.sound⟩

theorem Orderly.advance {handed : List TrafficSecret} {schedule : Option KeySchedule}
    {early handshake finished application : Option (List UInt8)}
    {readState next : ReadState} {complete : Bool}
    (orderly : Orderly handed schedule early handshake finished application readState complete)
    (underway : readState ≠ .complete) (later : next ≠ .serverHello) :
    Orderly handed schedule early handshake finished application next complete :=
  ⟨orderly.handedOver, orderly.early, fun first => absurd first later,
    fun pending => absurd (orderly.finished pending).2 underway,
    fun atEnd => absurd (orderly.atEnd atEnd).1 underway⟩

section Reading

variable [ClientChecks K] {tls : ClientHandshake K}

theorem keeps_handleServerHello (state : tls.readState = .serverHello) (body : List UInt8) :
    Keeps tls (tls.handleServerHello body).1 := by
  unfold handleServerHello
  split
  · exact .refl tls
  split
  · exact ⟨rfl, rfl, rfl, id⟩
  · refine ⟨rfl, rfl, rfl, fun sound => ?_⟩
    have underway : tls.readState ≠ .complete := by
      rw [state]
      nofun
    have handover : HandedOver .client tls.handed none tls.pending1rttKeys := by
      simpa only [sound.begun state] using sound.handedOver
    exact ⟨handover.start _, sound.early, nofun,
      fun pending => absurd (sound.finished pending).2 underway,
      fun atEnd => absurd (sound.atEnd atEnd).1 underway⟩

theorem keeps_handleEncryptedExtensions (underway : tls.readState ≠ .complete)
    (body message : List UInt8) : Keeps tls (tls.handleEncryptedExtensions body message).1 := by
  unfold handleEncryptedExtensions
  split
  · exact .refl tls
  · refine ⟨rfl, rfl, rfl, fun sound => sound.advance underway ?_⟩
    split <;> nofun

theorem keeps_handleCertificate (underway : tls.readState ≠ .complete)
    (message : List UInt8) (parsed : Except QuicTlsError (List (List UInt8))) :
    Keeps tls (tls.handleCertificate message parsed).1 := by
  unfold handleCertificate
  split
  · exact .refl tls
  split
  · exact ⟨rfl, rfl, rfl, id⟩
  · exact ⟨rfl, rfl, rfl, fun sound => sound.advance underway nofun⟩

theorem keeps_handleCertificateVerify (underway : tls.readState ≠ .complete)
    (body message : List UInt8) : Keeps tls (tls.handleCertificateVerify body message).1 := by
  unfold handleCertificateVerify
  split
  · exact .refl tls
  · exact ⟨rfl, rfl, rfl, fun sound => sound.advance underway nofun⟩

theorem respondFinished_eq (tls : ClientHandshake K) {derived : KeySchedule}
    (master : derived.masterSecret = true) (handshake : derived.handshakeSecret = true) :
    ∃ retired : KeySchedule, retired.application = derived.application ∧
      retired.generation = derived.generation ∧
      (tls.respondFinished derived).1 =
        { tls with
          schedule := some retired
          transcript := tls.transcript ++ buildFinished
            (ClientChecks.clientVerifyData tls.inputs tls.transcript)
          pendingClientFinished := some (buildFinished
            (ClientChecks.clientVerifyData tls.inputs tls.transcript))
          pending1rttKeys := some tls.transcript
          readState := .complete } := by
  refine ⟨{ derived with
    handshakeSecret := false
    masterSecret := false
    underived := by simp }, rfl, rfl, ?_⟩
  simp [respondFinished, KeySchedule.finishedVerifyData, KeySchedule.finishHandshake, master,
    handshake]

theorem keeps_handleServerFinished (state : tls.readState = .finished) (body message : List UInt8) :
    Keeps tls (tls.handleServerFinished body message).1 := by
  unfold handleServerFinished
  split
  · exact .refl tls
  rename_i schedule isScheduled
  split
  · exact .refl tls
  split
  · exact .refl tls
  split
  · exact ⟨rfl, rfl, rfl, id⟩
  rename_i derived success
  have isCurrent other : tls.schedule = some other → other = schedule :=
    fun isOther => Option.some.inj (isOther.symm.trans isScheduled)
  -- The secrets are fresh, whatever was handed over before.
  obtain ⟨-, -, master, handshake⟩ := KeySchedule.deriveApplication_fresh success
  obtain ⟨_, application, generation, responded⟩ :=
    (tls.hash message).respondFinished_eq master handshake
  rw [responded]
  refine ⟨rfl, rfl, rfl, fun sound => ?_⟩
  have underway : tls.readState ≠ .complete := by
    rw [state]
    nofun
  exact ⟨(sound.handedOver.derive isCurrent success).replace application
      generation, sound.early, nofun, fun _ => ⟨rfl, rfl⟩,
    fun atEnd => absurd (sound.atEnd atEnd).1 underway⟩

variable (tls)

theorem keeps_processMessage (message : List UInt8) : Keeps tls (tls.processMessage message).1 := by
  unfold processMessage
  cases state : tls.readState with
  | serverHello =>
    dsimp only
    split
    · have hashed : Keeps tls (tls.hash message) := ⟨rfl, rfl, rfl, id⟩
      have same : (tls.hash message).readState = .serverHello := state
      exact hashed.trans (keeps_handleServerHello same _)
    · exact .refl tls
  | encryptedExtensions =>
    dsimp only
    split
    · exact keeps_handleEncryptedExtensions (by rw [state]; nofun) _ _
    · exact .refl tls
  | certificate =>
    dsimp only
    split
    · exact keeps_handleCertificate (by rw [state]; nofun) _ _
    split
    · exact keeps_handleCertificate (by rw [state]; nofun) _ _
    · exact .refl tls
  | certificateVerify =>
    dsimp only
    split
    · exact keeps_handleCertificateVerify (by rw [state]; nofun) _ _
    · exact .refl tls
  | finished =>
    dsimp only
    split
    · exact keeps_handleServerFinished state _ _
    · exact .refl tls
  | complete =>
    dsimp only
    split <;> exact .refl tls

theorem keeps_readHandshake (data : List UInt8) : Keeps tls (tls.readHandshake data).1 := by
  have buffered (tls : ClientHandshake K) (bytes : List UInt8) :
      Keeps tls { tls with inbound := bytes } :=
    ⟨rfl, rfl, rfl, id⟩
  exact (buffered tls _).trans
    (readMessages_rule _ _ _ _ .refl .trans buffered keeps_processMessage _ _)

end Reading

/-! ## Writing -/

section Writing

variable [KeyDerivation K]

inductive Writes (tls : ClientHandshake K) :
    ClientHandshake K × List UInt8 × Option KeyChange → Prop
  | hello : Writes tls ({ tls with clientHelloSent := true }, tls.clientHello, none)
  | early {transcript : List UInt8} (pending : tls.pending0rttKeys = some transcript) :
      Writes tls
        ({ tls with pending0rttKeys := none, handed := .early transcript :: tls.handed },
          [], some (.zeroRtt (earlyKeys tls.inputs transcript)))
  | handshake {transcript : List UInt8} (pending : tls.pendingHandshakeKeys = some transcript) :
      Writes tls
        ({ tls with pendingHandshakeKeys := none }, [],
          some (.handshake (handshakeKeys tls.inputs .client transcript)))
  | finished {finished transcript : List UInt8} (before : tls.pendingHandshakeKeys = none)
      (pending : tls.pendingClientFinished = some finished)
      (keyed : tls.pending1rttKeys = some transcript) :
      Writes tls
        ({ tls with
            pendingClientFinished := none
            pending1rttKeys := none
            handshakeComplete := true
            handed := .application transcript .client 0 :: tls.handed },
          finished,
          some (.oneRtt (applicationKeys tls.inputs .client transcript 0)))
  | nothing : Writes tls (tls, [], none)

theorem writes_writeHandshake (tls : ClientHandshake K) : Writes tls tls.writeHandshake := by
  unfold writeHandshake
  split
  · exact .hello
  split
  next pending => exact .early pending
  split
  next pending => exact .handshake pending
  rename_i before
  split
  next pending keyed => exact .finished before pending keyed
  · exact .nothing

variable {tls : ClientHandshake K}
  {output : ClientHandshake K × List UInt8 × Option KeyChange}

theorem Writes.sound (writes : Writes tls output) (sound : tls.Sound) : output.1.Sound := by
  cases writes with
  | hello => exact sound
  | early => exact ⟨sound.handedOver.early _, nofun, sound.begun, sound.finished, sound.atEnd⟩
  | handshake =>
    exact ⟨sound.handedOver, sound.early, sound.begun, sound.finished,
      fun atEnd => ⟨(sound.atEnd atEnd).1, rfl⟩⟩
  | finished before pending keyed =>
    have state := (sound.finished (pending ▸ rfl)).2
    have handover := sound.handedOver
    rw [keyed] at handover
    refine ⟨handover.first, ?_, sound.begun, nofun, fun _ => ⟨state, before⟩⟩
    intro transcript isPending member
    exact sound.early transcript isPending (List.mem_of_ne_of_mem (by simp) member)
  | nothing => exact sound

theorem sound_next1rttKeys (sound : tls.Sound) : tls.next1rttKeys.1.Sound := by
  unfold next1rttKeys
  split
  · exact sound
  next schedule isScheduled =>
    have handover := sound.handedOver
    rw [isScheduled] at handover
    refine ⟨handover.issue tls.inputs, ?_, ?_, sound.finished, sound.atEnd⟩
    · intro transcript isPending member
      rcases List.mem_append.mp member with issued | old
      · exact KeySchedule.early_not_mem_issue issued
      · exact sound.early transcript isPending old
    · intro state
      rw [sound.begun state] at isScheduled
      cases isScheduled

theorem next1rttKeys_keeps (tls : ClientHandshake K) :
    tls.next1rttKeys.1.inputs = tls.inputs ∧ tls.handed ⊆ tls.next1rttKeys.1.handed ∧
      tls.next1rttKeys.1.handshakeComplete = tls.handshakeComplete := by
  unfold next1rttKeys
  split
  · exact ⟨rfl, List.Subset.refl _, rfl⟩
  · exact ⟨rfl, List.subset_append_right _ _, rfl⟩

theorem next1rttKeys_fresh {localKey remoteKey : PacketKey} (sound : tls.Sound)
    (success : tls.next1rttKeys.2 = .ok (localKey, remoteKey)) :
    localKey ∉ keysOf tls.inputs tls.handed ∧
      localKey ∈ keysOf tls.inputs tls.next1rttKeys.1.handed ∧
      localKey.confidentialityLimit < 2 ^ 64 := by
  unfold next1rttKeys at success ⊢
  split at success
  · cases success
  next schedule isScheduled =>
    have handover := sound.handedOver
    rw [isScheduled] at handover
    exact handover.next_key success

theorem Writes.hands (writes : Writes tls output) (sound : tls.Sound) :
    output.1.inputs = tls.inputs ∧
      Hands .client tls.inputs tls.handed tls.handshakeComplete
        output.1.handed output.1.handshakeComplete output.2.2 := by
  cases writes with
  | hello | nothing => exact ⟨rfl, .nothing⟩
  | early pending => exact ⟨rfl, .early (sound.early _ pending)⟩
  | handshake pending =>
    refine ⟨rfl, .handshake ?_⟩
    by_contra atEnd
    have absent := (sound.atEnd (Bool.not_eq_false _ ▸ atEnd)).2
    rw [absent] at pending
    cases pending
  | finished _ _ keyed => exact ⟨rfl, .application (sound.handedOver.pending _ keyed).1⟩

end Writing

end ClientHandshake

/-- A client handshake whose keys come in order. -/
def ClientSession (K : Type) : Type := { tls : ClientHandshake K // tls.Sound }

namespace ClientSession

variable {K : Type} [ClientChecks K]

instance : TlsSession (ClientSession K) where
  readHandshake tls bytes :=
    (⟨(tls.1.readHandshake bytes).1,
        (tls.1.keeps_readHandshake bytes).sound tls.2⟩,
      (tls.1.readHandshake bytes).2)
  writeHandshake tls :=
    (⟨tls.1.writeHandshake.1, tls.1.writes_writeHandshake.sound tls.2⟩, tls.1.writeHandshake.2)
  backlog tls := tls.1.backlog
  next1rttKeys tls :=
    (⟨tls.1.next1rttKeys.1, ClientHandshake.sound_next1rttKeys tls.2⟩, tls.1.next1rttKeys.2)
  isHandshaking tls := tls.1.isHandshaking
  peerTransportParameters tls := tls.1.peerTransportParams.map (KeyDerivation.parseParams K)
  initialKeys := KeyDerivation.initialKeys K

instance : RecordedTls (ClientSession K) K where
  side := .client
  inputs tls := tls.1.inputs
  handed tls := tls.1.handed
  atEnd tls := tls.1.handshakeComplete
  initial_keys _ _ := rfl
  read_keeps := by
    intro tls bytes
    have keeps := tls.1.keeps_readHandshake bytes
    exact ⟨keeps.inputs, keeps.handed, keeps.handshakeComplete.trans⟩
  write_hands tls := tls.1.writes_writeHandshake.hands tls.2
  next_keeps tls := tls.1.next1rttKeys_keeps
  next_fresh tls _ _ := ClientHandshake.next1rttKeys_fresh tls.2

end ClientSession

/-- Key-exchange inputs for examples, with which nothing is checked. -/
inductive ExampleInputs where
  | only

namespace ExampleInputs

instance : ClientChecks ExampleInputs where
  packetKey _ := exampleKey
  initialKeys _ := exampleInitialKeys
  parseParams _ := .error "no parameters"
  distinct _ := exampleKey_injective
  limit _ := exampleKey_limit
  tag _ _ := rfl
  initial_tag _ := exampleInitialKeys_tag
  parseServerHello _ _ := .ok false
  keyExchange _ _ _ := .ok ()
  parseEncryptedExtensions _ _ _ := .ok none
  parseCertificate _ := .ok []
  parseCompressedCertificate _ := .ok []
  verifyCertChain _ _ := .ok ()
  verifySignature _ _ _ _ := .ok ()
  serverVerifyData _ _ := []
  clientVerifyData _ _ := []
  storeSessionTicket _ _ := .ok ()

def resuming : ClientSession ExampleInputs :=
  ⟨.new .only [HANDSHAKE_CLIENT_HELLO, 0, 0, 0] true, ClientHandshake.sound_new ..⟩

end ExampleInputs

end ParallaX.Tls
