import ParallaX.Tls.KeySchedule

/-!
# The QUIC TLS server

The order in which the server of a QUIC TLS handshake reads messages, writes
its flight and hands over keys. What it parses, signs and computes is a
parameter. As on the client, no sealing key of the 1-RTT space is handed over
twice, and no Handshake keys after the 1-RTT keys.
-/

namespace ParallaX.Tls

open ParallaX.Quic List

/-- What the server reads off a ClientHello and puts into its own messages.
Clock, randomness and the replay guard are asked once per message, which the
transcript before it tells apart. -/
class ServerChecks (K : Type) extends KeyDerivation K where
  /-- The transport parameters of the client. -/
  parseClientHello : K → List UInt8 → Except QuicTlsError (List UInt8)
  hybridKex : K → List UInt8 → Except QuicTlsError Unit
  tryAcceptPsk : K → List UInt8 → List UInt8 → Bool
  serverRandom : K → List UInt8 → Except QuicTlsError (List UInt8)
  buildServerHello : K → List UInt8 → List UInt8 → Bool → List UInt8
  selectAlpn : K → List UInt8 → Except QuicTlsError (List UInt8)
  buildEncryptedExtensions : K → List UInt8 → Bool → List UInt8
  buildCertificate : K → List UInt8
  /-- Over the messages through the certificate. -/
  signCertificateVerify : K → List UInt8 → Except QuicTlsError (List UInt8)
  serverVerifyData : K → List UInt8 → List UInt8
  clientVerifyData : K → List UInt8 → List UInt8
  /-- The NewSessionTicket, empty when the server issues none. -/
  issueSessionTicket : K → List UInt8 → Except QuicTlsError (List UInt8)

inductive ServerState where
  | expectClientHello
  | expectClientFinished
  | complete
deriving DecidableEq, Repr

def ServerState.name : ServerState → String
  | .expectClientHello => "ExpectClientHello"
  | .expectClientFinished => "ExpectClientFinished"
  | .complete => "Complete"

/-- Pending keys are kept as the messages that their secrets are derived
over. -/
structure ServerHandshake (K : Type) where
  inputs : K
  schedule : Option KeySchedule
  transcript : List UInt8
  state : ServerState
  peerTransportParams : Option (List UInt8)
  pendingServerHello : Option (List UInt8)
  pendingHandshakeKeys : Option (List UInt8)
  pendingHandshakeFlight : Option (List UInt8)
  pending1rttKeys : Option (List UInt8)
  expectedClientFinished : Option (List UInt8)
  handshakeComplete : Bool
  inbound : List UInt8
  pendingPostHandshake : List UInt8
  pending0rttKeys : Option (List UInt8)
  /-- History that only proofs read: the sealing secrets of the 1-RTT space
  that were handed over. -/
  handed : List TrafficSecret

namespace ServerHandshake

/-- The longest body of a message of the client. -/
def MAX_HANDSHAKE_MESSAGE : Nat := 2 ^ 16

variable {K : Type}

def new (inputs : K) : ServerHandshake K :=
  { inputs := inputs
    schedule := none
    transcript := []
    state := .expectClientHello
    peerTransportParams := none
    pendingServerHello := none
    pendingHandshakeKeys := none
    pendingHandshakeFlight := none
    pending1rttKeys := none
    expectedClientFinished := none
    handshakeComplete := false
    inbound := []
    pendingPostHandshake := []
    pending0rttKeys := none
    handed := [] }

def hash (tls : ServerHandshake K) (message : List UInt8) : ServerHandshake K :=
  { tls with transcript := tls.transcript ++ message }

def isHandshaking (tls : ServerHandshake K) : Bool := !tls.handshakeComplete

/-- The next CRYPTO bytes and the keys that go with them. -/
def writeHandshake [KeyDerivation K] (tls : ServerHandshake K) :
    ServerHandshake K × List UInt8 × Option KeyChange :=
  match tls.pending0rttKeys with
  | some transcript =>
    ({ tls with pending0rttKeys := none, handed := .early transcript :: tls.handed },
      [], some (.zeroRtt (earlyKeys tls.inputs transcript)))
  | none =>
    match tls.pendingServerHello with
    | some serverHello => ({ tls with pendingServerHello := none }, serverHello, none)
    | none =>
      match tls.pendingHandshakeKeys with
      | some transcript =>
        ({ tls with pendingHandshakeKeys := none }, [],
          some (.handshake (handshakeKeys tls.inputs .server transcript)))
      | none =>
        -- The keys are always there with the flight: see `Orderly.flight`.
        match tls.pendingHandshakeFlight, tls.pending1rttKeys with
        | some flight, some transcript =>
          ({ tls with
              pendingHandshakeFlight := none
              pending1rttKeys := none
              handed :=
                .application transcript .server 0 :: tls.handed },
            flight,
            some (.oneRtt (applicationKeys tls.inputs .server transcript 0)))
        | _, _ => ({ tls with pendingPostHandshake := [] }, tls.pendingPostHandshake, none)

/-- How many of the writes above are still to come. -/
def backlog (tls : ServerHandshake K) : Nat :=
  tls.pending0rttKeys.isSome.toNat + tls.pendingServerHello.isSome.toNat +
    tls.pendingHandshakeKeys.isSome.toNat +
    tls.pendingHandshakeFlight.isSome.toNat + (!tls.pendingPostHandshake.isEmpty).toNat

/-- The schedule numbers its keys for the client, so the server swaps them. -/
def next1rttKeys [KeyDerivation K] (tls : ServerHandshake K) :
    ServerHandshake K × Except QuicTlsError (PacketKey × PacketKey) :=
  match tls.schedule with
  | none => (tls, .error (.crypto "key update before key schedule"))
  | some schedule =>
    let outcome := schedule.next1rttPacketKeys tls.inputs .server
    ({ tls with schedule := some outcome.1, handed := schedule.issue .server ++ tls.handed },
      outcome.2)

/-- Take in a ClientHello; a resumed one makes early-data keys pending. -/
def ingest (tls : ServerHandshake K) (params message : List UInt8)
    (accepted : Bool) : ServerHandshake K :=
  let hashed := { tls with peerTransportParams := some params }.hash message
  if accepted then { hashed with pending0rttKeys := some hashed.transcript }
  else hashed

section Reading

variable [ServerChecks K]

/-- Certificate and signature of a full handshake; a resumed one has none. -/
def authenticate (tls : ServerHandshake K) (accepted : Bool) :
    ServerHandshake K × Except QuicTlsError (List UInt8) :=
  if accepted then (tls, .ok [])
  else
    let cert := ServerChecks.buildCertificate tls.inputs
    match ServerChecks.signCertificateVerify tls.inputs (tls.hash cert).transcript with
    | .error failure => (tls.hash cert, .error failure)
    | .ok certVerify => ((tls.hash cert).hash certVerify, .ok (cert ++ certVerify))

def finishFlight (tls : ServerHandshake K) (serverHello flight overServerHello : List UInt8) :
    ServerHandshake K × Except QuicTlsError Unit :=
  let finished := buildFinished (ServerChecks.serverVerifyData tls.inputs tls.transcript)
  let hashed := tls.hash finished
  match KeySchedule.afterServerHello.deriveApplication hashed.transcript with
  | .error failure => (hashed, .error failure)
  | .ok derived =>
    ({ hashed with
        expectedClientFinished := some (ServerChecks.clientVerifyData tls.inputs hashed.transcript)
        schedule := some derived
        pendingServerHello := some serverHello
        pendingHandshakeKeys := some overServerHello
        pendingHandshakeFlight := some (flight ++ finished)
        pending1rttKeys := some hashed.transcript
        state := .expectClientFinished },
      .ok ())

/-- Answer a ClientHello that is already in the transcript. -/
def respond (tls : ServerHandshake K) (message random : List UInt8)
    (accepted : Bool) : ServerHandshake K × Except QuicTlsError Unit :=
  let serverHello := ServerChecks.buildServerHello tls.inputs message random accepted
  let helloed := tls.hash serverHello
  match ServerChecks.selectAlpn tls.inputs message with
  | .error failure => (helloed, .error failure)
  | .ok alpn =>
    let extensions := ServerChecks.buildEncryptedExtensions tls.inputs alpn accepted
    match (helloed.hash extensions).authenticate accepted with
    | (authenticated, .error failure) => (authenticated, .error failure)
    | (authenticated, .ok certificates) =>
      authenticated.finishFlight serverHello (extensions ++ certificates) helloed.transcript

def processClientHello (tls : ServerHandshake K) (message : List UInt8) :
    ServerHandshake K × Except QuicTlsError Unit :=
  match ServerChecks.parseClientHello tls.inputs (message.drop 4) with
  | .error failure => (tls, .error failure)
  | .ok params =>
    match ServerChecks.hybridKex tls.inputs message with
    | .error failure => (tls, .error failure)
    | .ok () =>
      let accepted := ServerChecks.tryAcceptPsk tls.inputs tls.transcript message
      match ServerChecks.serverRandom tls.inputs tls.transcript with
      | .error failure => ({ tls with peerTransportParams := some params }, .error failure)
      | .ok random => (tls.ingest params message accepted).respond message random accepted

def completeHandshake (tls : ServerHandshake K) (retired : KeySchedule) :
    ServerHandshake K × Except QuicTlsError Unit :=
  let completed :=
    { tls with
      schedule := some retired
      expectedClientFinished := none
      state := .complete
      handshakeComplete := true }
  match ServerChecks.issueSessionTicket tls.inputs tls.transcript with
  | .error failure => (completed, .error failure)
  | .ok ticket => ({ completed with pendingPostHandshake := ticket }, .ok ())

def processClientFinished (tls : ServerHandshake K) (message : List UInt8) :
    ServerHandshake K × Except QuicTlsError Unit :=
  match tls.expectedClientFinished with
  | none =>
    (tls, .error (.alert ALERT_UNEXPECTED_MESSAGE "Finished before flight"))
  | some expected =>
    if message.drop 4 ≠ expected then
      (tls, .error (.alert ALERT_DECRYPT_ERROR "client Finished verify_data mismatch"))
    else
      match tls.schedule with
      | none => (tls.hash message, .error (.crypto "Finished without schedule"))
      | some schedule =>
        match schedule.finishHandshake with
        | .error failure => (tls.hash message, .error failure)
        | .ok retired => (tls.hash message).completeHandshake retired

def processMessage (tls : ServerHandshake K) (message : List UInt8) :
    ServerHandshake K × Except QuicTlsError Unit :=
  let msgType := message.headD 0
  let unexpected := (tls, .error (unexpectedMessage msgType tls.state.name))
  match tls.state with
  | .expectClientHello =>
    if msgType = HANDSHAKE_CLIENT_HELLO then tls.processClientHello message
    else unexpected
  | .expectClientFinished =>
    if msgType = HANDSHAKE_FINISHED then tls.processClientFinished message
    else unexpected
  | .complete => unexpected

def readHandshake (tls : ServerHandshake K) (data : List UInt8) :
    ServerHandshake K × Except QuicTlsError Unit :=
  readMessages MAX_HANDSHAKE_MESSAGE inbound
    (fun tls rest => { tls with inbound := rest }) processMessage (tls.inbound.length + data.length)
    { tls with inbound := tls.inbound ++ data }

end Reading

/-! ## Invariant -/

structure Orderly (handed : List TrafficSecret)
    (schedule : Option KeySchedule) (transcript : List UInt8) (state : ServerState)
    (pending0rttKeys pendingHandshakeKeys pendingHandshakeFlight
      pending1rttKeys : Option (List UInt8)) : Prop where
  handedOver : HandedOver .server handed schedule pending1rttKeys
  earlyHanded : ∀ used, .early used ∈ handed → used.length ≤ transcript.length
  early : ∀ pending, pending0rttKeys = some pending →
    pending.length ≤ transcript.length ∧ ∀ used, .early used ∈ handed → used.length < pending.length
  awaiting : state = .expectClientHello →
    schedule = none ∧ pendingHandshakeKeys = none ∧ pendingHandshakeFlight = none
  flight : pendingHandshakeFlight.isSome = true → pending1rttKeys.isSome = true
  order : state ≠ .expectClientHello → pendingHandshakeFlight = none → pendingHandshakeKeys = none

def Sound (tls : ServerHandshake K) : Prop :=
  Orderly tls.handed tls.schedule tls.transcript tls.state
    tls.pending0rttKeys tls.pendingHandshakeKeys tls.pendingHandshakeFlight
    tls.pending1rttKeys

def atEnd (tls : ServerHandshake K) : Bool :=
  decide (tls.state ≠ .expectClientHello) && tls.pendingHandshakeFlight.isNone

theorem sound_new (inputs : K) : (new inputs).Sound :=
  ⟨.new .server, nofun, nofun, fun _ => ⟨rfl, rfl, rfl⟩, nofun, fun _ _ => rfl⟩

variable {tls : ServerHandshake K} {message : List UInt8}

theorem Sound.hash (sound : tls.Sound) (message : List UInt8) : (tls.hash message).Sound := by
  have longer : tls.transcript.length ≤ (tls.transcript ++ message).length := by simp
  refine ⟨sound.handedOver, ?_, ?_, sound.awaiting, sound.flight, sound.order⟩
  · intro used member
    exact (sound.earlyHanded used member).trans longer
  · intro pending isPending
    obtain ⟨bounded, unused⟩ := sound.early pending isPending
    exact ⟨bounded.trans longer, unused⟩

/-- What reading leaves as it is, and that it keeps the order. -/
structure Keeps (before after : ServerHandshake K) : Prop where
  inputs : after.inputs = before.inputs
  handed : after.handed = before.handed
  atEnd : before.atEnd = true → after.atEnd = true
  sound : before.Sound → after.Sound

theorem Keeps.refl (tls : ServerHandshake K) : Keeps tls tls := ⟨rfl, rfl, id, id⟩

theorem Keeps.trans {first second third : ServerHandshake K}
    (left : Keeps first second) (right : Keeps second third) : Keeps first third :=
  ⟨right.inputs.trans left.inputs, right.handed.trans left.handed,
    right.atEnd ∘ left.atEnd, right.sound ∘ left.sound⟩

theorem keeps_hash (tls : ServerHandshake K) (message : List UInt8) :
    Keeps tls (tls.hash message) :=
  ⟨rfl, rfl, id, fun sound => sound.hash message⟩

theorem Sound.accept (sound : tls.Sound) (nonempty : message ≠ []) :
    Sound { tls.hash message with pending0rttKeys := some (tls.hash message).transcript } := by
  have hashed := sound.hash message
  refine ⟨hashed.handedOver, hashed.earlyHanded, ?_, hashed.awaiting, hashed.flight, hashed.order⟩
  rintro _ ⟨rfl⟩
  refine ⟨le_rfl, fun used member => ?_⟩
  have bounded := sound.earlyHanded used member
  have positive := length_pos_of_ne_nil nonempty
  change used.length < (tls.transcript ++ message).length
  rw [length_append]
  omega

theorem keeps_ingest (tls : ServerHandshake K) (params : List UInt8)
    (nonempty : message ≠ []) (ok : Bool) :
    Keeps tls (tls.ingest params message ok) ∧
      (tls.ingest params message ok).state = tls.state := by
  unfold ingest
  split
  · exact ⟨⟨rfl, rfl, id, fun sound => sound.accept nonempty⟩, rfl⟩
  · exact ⟨⟨rfl, rfl, id, fun sound => sound.hash message⟩, rfl⟩

section Reading

variable [ServerChecks K]

theorem keeps_authenticate (tls : ServerHandshake K) (ok : Bool) :
    Keeps tls (tls.authenticate ok).1 ∧ (tls.authenticate ok).1.state = tls.state := by
  unfold authenticate
  split
  · exact ⟨.refl tls, rfl⟩
  dsimp only
  split
  · exact ⟨keeps_hash tls _, rfl⟩
  · exact ⟨(keeps_hash tls _).trans (keeps_hash _ _), rfl⟩

variable {tls : ServerHandshake K}

theorem keeps_finishFlight (awaiting : tls.state = .expectClientHello)
    (serverHello flight overServerHello : List UInt8) :
    Keeps tls (tls.finishFlight serverHello flight overServerHello).1 := by
  unfold finishFlight
  dsimp only
  split
  · exact keeps_hash tls _
  next derived success =>
    refine ⟨rfl, rfl, ?_, fun sound => ?_⟩
    · simp [atEnd, awaiting]
    · have hashed := sound.hash (buildFinished
        (ServerChecks.serverVerifyData tls.inputs tls.transcript))
      have unscheduled := (hashed.awaiting awaiting).1
      have isCurrent other : tls.schedule = some other → other = .afterServerHello := by
        intro isOther
        cases isOther.symm.trans unscheduled
      exact ⟨hashed.handedOver.derive isCurrent success, hashed.earlyHanded,
        hashed.early, nofun, fun _ => rfl, nofun⟩

theorem keeps_respond (awaiting : tls.state = .expectClientHello)
    (message random : List UInt8) (ok : Bool) : Keeps tls (tls.respond message random ok).1 := by
  unfold respond
  dsimp only
  split
  · exact keeps_hash tls _
  rename_i alpn selected
  obtain ⟨keeps, sameState⟩ := keeps_authenticate
    ((tls.hash (ServerChecks.buildServerHello tls.inputs message random
      ok)).hash (ServerChecks.buildEncryptedExtensions tls.inputs alpn ok))
    ok
  have hashed := (keeps_hash tls _).trans ((keeps_hash _ _).trans keeps)
  split
  next authenticated failure outcome =>
    rw [outcome] at hashed
    exact hashed
  next authenticated certificates outcome =>
    rw [outcome] at hashed sameState
    exact hashed.trans (keeps_finishFlight (sameState.trans awaiting) ..)

theorem keeps_processClientHello (awaiting : tls.state = .expectClientHello)
    (nonempty : message ≠ []) : Keeps tls (tls.processClientHello message).1 := by
  unfold processClientHello
  split
  · exact .refl tls
  split
  · exact .refl tls
  rename_i params _ _ _
  split
  · exact ⟨rfl, rfl, id, id⟩
  · obtain ⟨ingested, sameState⟩ := keeps_ingest tls params nonempty
      (ServerChecks.tryAcceptPsk tls.inputs tls.transcript message)
    exact ingested.trans (keeps_respond (sameState.trans awaiting) ..)

theorem keeps_completeHandshake {schedule retired : KeySchedule}
    (isScheduled : tls.schedule = some schedule)
    (application : retired.application = schedule.application)
    (gen : retired.generation = schedule.generation)
    (replied : tls.state ≠ .expectClientHello) : Keeps tls (tls.completeHandshake retired).1 := by
  have completes (ticket : List UInt8) :
      Keeps tls
        { tls with
          schedule := some retired
          expectedClientFinished := none
          state := .complete
          handshakeComplete := true
          pendingPostHandshake := ticket } := by
    refine ⟨rfl, rfl, ?_, fun sound => ?_⟩
    · intro atEnd
      unfold ServerHandshake.atEnd at atEnd ⊢
      rw [Bool.and_eq_true] at atEnd
      exact atEnd.2
    · have handover := sound.handedOver
      rw [isScheduled] at handover
      exact ⟨handover.replace application gen, sound.earlyHanded,
        sound.early, nofun, sound.flight, fun _ => sound.order replied⟩
  unfold completeHandshake
  split
  · exact completes tls.pendingPostHandshake
  · exact completes _

theorem keeps_processClientFinished (replied : tls.state ≠ .expectClientHello)
    (message : List UInt8) : Keeps tls (tls.processClientFinished message).1 := by
  unfold processClientFinished
  split
  · exact .refl tls
  split
  · exact .refl tls
  split
  · exact keeps_hash tls message
  rename_i schedule isScheduled
  split
  · exact keeps_hash tls message
  next retired success =>
    obtain ⟨application, gen⟩ := KeySchedule.finishHandshake_keeps success
    exact (keeps_hash tls message).trans
      (keeps_completeHandshake isScheduled application gen replied)

theorem keeps_processMessage (tls : ServerHandshake K) (message : List UInt8) :
    Keeps tls (tls.processMessage message).1 := by
  unfold processMessage
  cases state : tls.state with
  | expectClientHello =>
    dsimp only
    split
    next isHello =>
      have nonempty : message ≠ [] := by
        rintro rfl
        exact absurd isHello (by decide)
      exact keeps_processClientHello state nonempty
    · exact .refl tls
  | expectClientFinished =>
    dsimp only
    split
    · exact keeps_processClientFinished (by rw [state]; nofun) message
    · exact .refl tls
  | complete => exact .refl tls

theorem keeps_readHandshake (tls : ServerHandshake K) (data : List UInt8) :
    Keeps tls (tls.readHandshake data).1 := by
  have buffered (tls : ServerHandshake K) (bytes : List UInt8) :
      Keeps tls { tls with inbound := bytes } :=
    ⟨rfl, rfl, id, id⟩
  exact (buffered tls _).trans
    (readMessages_rule _ _ _ _ .refl .trans buffered keeps_processMessage _ _)

end Reading

/-! ## Writing -/

section Writing

variable [KeyDerivation K]

inductive Writes (tls : ServerHandshake K) :
    ServerHandshake K × List UInt8 × Option KeyChange → Prop
  | early {transcript : List UInt8} (pending : tls.pending0rttKeys = some transcript) :
      Writes tls
        ({ tls with pending0rttKeys := none, handed := .early transcript :: tls.handed },
          [], some (.zeroRtt (earlyKeys tls.inputs transcript)))
  | hello {serverHello : List UInt8} (pending : tls.pendingServerHello = some serverHello) :
      Writes tls ({ tls with pendingServerHello := none }, serverHello, none)
  | handshake {transcript : List UInt8} (pending : tls.pendingHandshakeKeys = some transcript) :
      Writes tls
        ({ tls with pendingHandshakeKeys := none }, [],
          some (.handshake (handshakeKeys tls.inputs .server transcript)))
  | flight {flight transcript : List UInt8} (before : tls.pendingHandshakeKeys = none)
      (pending : tls.pendingHandshakeFlight = some flight)
      (keyed : tls.pending1rttKeys = some transcript) :
      Writes tls
        ({ tls with
            pendingHandshakeFlight := none
            pending1rttKeys := none
            handed := .application transcript .server 0 :: tls.handed },
          flight,
          some (.oneRtt (applicationKeys tls.inputs .server transcript 0)))
  | postHandshake : Writes tls
      ({ tls with pendingPostHandshake := [] }, tls.pendingPostHandshake, none)

theorem writes_writeHandshake (tls : ServerHandshake K) : Writes tls tls.writeHandshake := by
  unfold writeHandshake
  split
  next pending => exact .early pending
  split
  next pending => exact .hello pending
  split
  next pending => exact .handshake pending
  rename_i before
  split
  next pending keyed => exact .flight before pending keyed
  · exact .postHandshake

variable {tls : ServerHandshake K}
  {output : ServerHandshake K × List UInt8 × Option KeyChange}

theorem Writes.sound (writes : Writes tls output) (sound : tls.Sound) : output.1.Sound := by
  cases writes with
  | @early _ pending =>
    refine ⟨sound.handedOver.early _, ?_, nofun, sound.awaiting, sound.flight, sound.order⟩
    intro used member
    rcases mem_cons.mp member with same | old
    · cases same
      exact (sound.early _ pending).1
    · exact sound.earlyHanded used old
  | hello => exact sound
  | handshake =>
    refine ⟨sound.handedOver, sound.earlyHanded, sound.early, ?_, sound.flight, fun _ _ => rfl⟩
    intro awaiting
    exact ⟨(sound.awaiting awaiting).1, rfl, (sound.awaiting awaiting).2.2⟩
  | flight before _ keyed =>
    have handover := sound.handedOver
    rw [keyed] at handover
    refine ⟨handover.first, ?_, ?_, ?_, nofun, fun _ _ => before⟩
    · intro used member
      exact sound.earlyHanded used (mem_of_ne_of_mem (by simp) member)
    · intro waiting isWaiting
      obtain ⟨bounded, unused⟩ := sound.early waiting isWaiting
      refine ⟨bounded, fun used member => ?_⟩
      exact unused used (mem_of_ne_of_mem (by simp) member)
    · intro awaiting
      exact ⟨(sound.awaiting awaiting).1, before, rfl⟩
  | postHandshake => exact sound

theorem Writes.hands (writes : Writes tls output) (sound : tls.Sound) :
    output.1.inputs = tls.inputs ∧
      Hands .server tls.inputs tls.handed tls.atEnd output.1.handed output.1.atEnd output.2.2 := by
  cases writes with
  | early pending =>
    refine ⟨rfl, .early fun member => ?_⟩
    exact Nat.lt_irrefl _ ((sound.early _ pending).2 _ member)
  | hello | postHandshake => exact ⟨rfl, .nothing⟩
  | handshake pending =>
    refine ⟨rfl, .handshake ?_⟩
    by_contra isOver
    rw [Bool.not_eq_false, atEnd, Bool.and_eq_true, decide_eq_true_eq,
      Option.isNone_iff_eq_none] at isOver
    rw [sound.order isOver.1 isOver.2] at pending
    cases pending
  | @flight _ transcript _ pending keyed =>
    have replied : tls.state ≠ .expectClientHello := by
      intro awaiting
      rw [(sound.awaiting awaiting).2.2] at pending
      cases pending
    have isOver : atEnd
        { tls with
          pendingHandshakeFlight := none
          pending1rttKeys := none
          handed := .application transcript .server 0 :: tls.handed } = true := by
      rw [atEnd, Bool.and_eq_true, decide_eq_true_eq]
      exact ⟨replied, rfl⟩
    refine ⟨rfl, ?_⟩
    rw [isOver]
    exact .application (sound.handedOver.pending _ keyed).1

theorem sound_next1rttKeys (sound : tls.Sound) : tls.next1rttKeys.1.Sound := by
  unfold next1rttKeys
  split
  · exact sound
  next schedule isScheduled =>
    have handover := sound.handedOver
    rw [isScheduled] at handover
    have early_mem used : .early used ∈ schedule.issue .server ++ tls.handed →
        .early used ∈ tls.handed := by
      intro member
      rcases mem_append.mp member with issued | old
      · exact absurd issued KeySchedule.early_not_mem_issue
      · exact old
    refine ⟨handover.issue tls.inputs, ?_, ?_, ?_, sound.flight, sound.order⟩
    · exact fun used member => sound.earlyHanded used (early_mem used member)
    · intro pending isPending
      obtain ⟨bounded, unused⟩ := sound.early pending isPending
      exact ⟨bounded, fun used member => unused used (early_mem used member)⟩
    · intro awaiting
      rw [(sound.awaiting awaiting).1] at isScheduled
      cases isScheduled

theorem next1rttKeys_keeps (tls : ServerHandshake K) :
    tls.next1rttKeys.1.inputs = tls.inputs ∧ tls.handed ⊆ tls.next1rttKeys.1.handed ∧
      tls.next1rttKeys.1.atEnd = tls.atEnd := by
  unfold next1rttKeys
  split
  · exact ⟨rfl, List.Subset.refl _, rfl⟩
  · exact ⟨rfl, subset_append_right _ _, rfl⟩

theorem next1rttKeys_fresh {localKey remoteKey : PacketKey} (sound : tls.Sound)
    (success : tls.next1rttKeys.2 = .ok (localKey, remoteKey)) :
    localKey ∉ keysOf tls.inputs tls.handed ∧
      localKey ∈ keysOf tls.inputs tls.next1rttKeys.1.handed ∧
      localKey.confidentialityLimit < 2 ^ 64 := by
  unfold next1rttKeys at success ⊢
  split at success
  · cases success
  next schedule isScheduled =>
    have handover := sound.handedOver
    rw [isScheduled] at handover
    exact handover.next_key success

end Writing

end ServerHandshake

/-- A server handshake whose keys come in order. -/
def ServerSession (K : Type) : Type := { tls : ServerHandshake K // tls.Sound }

namespace ServerSession

variable {K : Type} [ServerChecks K]

instance : TlsSession (ServerSession K) where
  readHandshake tls bytes :=
    (⟨(tls.1.readHandshake bytes).1,
        (tls.1.keeps_readHandshake bytes).sound tls.2⟩,
      (tls.1.readHandshake bytes).2)
  writeHandshake tls :=
    (⟨tls.1.writeHandshake.1, tls.1.writes_writeHandshake.sound tls.2⟩, tls.1.writeHandshake.2)
  backlog tls := tls.1.backlog
  next1rttKeys tls :=
    (⟨tls.1.next1rttKeys.1, ServerHandshake.sound_next1rttKeys tls.2⟩, tls.1.next1rttKeys.2)
  isHandshaking tls := tls.1.isHandshaking
  peerTransportParameters tls := tls.1.peerTransportParams.map (KeyDerivation.parseParams K)
  initialKeys := KeyDerivation.initialKeys K

instance : RecordedTls (ServerSession K) K where
  side := .server
  inputs tls := tls.1.inputs
  handed tls := tls.1.handed
  atEnd tls := tls.1.atEnd
  initial_keys _ _ := rfl
  read_keeps := by
    intro tls bytes
    have keeps := tls.1.keeps_readHandshake bytes
    exact ⟨keeps.inputs, keeps.handed, keeps.atEnd⟩
  write_hands tls := tls.1.writes_writeHandshake.hands tls.2
  next_keeps tls := tls.1.next1rttKeys_keeps
  next_fresh tls _ _ := ServerHandshake.next1rttKeys_fresh tls.2

end ServerSession

/-- A server for examples. It takes every message, and the length of its
flight is the length of its certificate and thirteen bytes more. -/
structure ExampleServer where
  certificateLen : Nat

namespace ExampleServer

instance : ServerChecks ExampleServer where
  packetKey _ := exampleKey
  initialKeys _ := exampleInitialKeys
  parseParams _ := .ok Connection.exampleParams
  distinct _ := exampleKey_injective
  limit _ := exampleKey_limit
  tag _ _ := rfl
  initial_tag _ := exampleInitialKeys_tag
  parseClientHello _ _ := .ok []
  hybridKex _ _ := .ok ()
  tryAcceptPsk _ _ _ := false
  serverRandom _ _ := .ok []
  buildServerHello _ _ _ _ := [HANDSHAKE_SERVER_HELLO, 0, 0, 0]
  selectAlpn _ _ := .ok []
  buildEncryptedExtensions _ _ _ := [HANDSHAKE_ENCRYPTED_EXTENSIONS, 0, 0, 0]
  buildCertificate inputs := HANDSHAKE_CERTIFICATE :: List.replicate inputs.certificateLen 0
  signCertificateVerify _ _ := .ok [HANDSHAKE_CERTIFICATE_VERIFY, 0, 0, 0]
  serverVerifyData _ _ := []
  clientVerifyData _ _ := []
  issueSessionTicket _ _ := .ok []

def waiting (certificateLen : Nat) : ServerSession ExampleServer :=
  ⟨.new ⟨certificateLen⟩, ServerHandshake.sound_new _⟩

def clientHello : List UInt8 := [HANDSHAKE_CLIENT_HELLO, 0, 0, 0]

def clientFinished : List UInt8 := [HANDSHAKE_FINISHED, 0, 0, 0]

def clientHandshakeKey : PacketKey :=
  exampleKey (.handshake (clientHello ++ [HANDSHAKE_SERVER_HELLO, 0, 0, 0]) .client)

end ExampleServer

end ParallaX.Tls

/-! ## The connection of the example server -/

namespace ParallaX.Quic.Connection

def waitingExample (certificateLen : Nat) :
    Connection (Tls.ServerSession Tls.ExampleServer) FixedWindow :=
  newServer (Tls.ExampleServer.waiting certificateLen) ⟨12000⟩ .empty (fun _ => 0) KEEP_ALIVE_MIN 0

def clientDatagram (level : PacketSpace) (key : PacketKey) (pn : Nat)
    (frames : List Frame) (len : Nat) : Event :=
  .handleDatagram
    { packets :=
        [{ level := some level
           longCids := some (.empty, .empty)
           keyPhase := false
           packetNumber := pn
           pnLen := 1
           key := some key
           payload := encodeFrames frames
           delimited := true }]
      len := len }
    .notEct 0

def initialDatagram (pn : Nat) (frames : List Frame) (len : Nat) : Event :=
  clientDatagram .initial (Tls.exampleInitialKeys .client).localKey pn frames len

def handshakeDatagram (pn : Nat) (frames : List Frame) : Event :=
  clientDatagram .handshake Tls.ExampleServer.clientHandshakeKey pn frames 40

/-- A ClientHello is answered with an ACK, the ServerHello and a flight that
fills a datagram. -/
def flightExample : List Event :=
  [initialDatagram 0 [.crypto 0 Tls.ExampleServer.clientHello] 1200,
    .pollTransmit 0, .pollTransmit 0, .pollTransmit 0]

end ParallaX.Quic.Connection
