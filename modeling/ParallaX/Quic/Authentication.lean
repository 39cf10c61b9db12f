import ParallaX.Quic.SentPackets
import ParallaX.Tls.ClientHandshake
import ParallaX.Tls.ServerHandshake

/-!
# The client authenticates the server

A client seals 1-RTT packets only under secrets derived over messages that
authenticate the server, whatever datagrams it is given.
-/

namespace ParallaX.Tls

open ParallaX.Quic List

variable {K : Type} [ClientChecks K]

namespace ClientHandshake

/-- The certificates of a Certificate or CompressedCertificate message. -/
def certificatesOf (K : Type) [ClientChecks K] (message : List UInt8) :
    Except QuicTlsError (List (List UInt8)) :=
  if message.headD 0 = HANDSHAKE_CERTIFICATE then
    ClientChecks.parseCertificate K (message.drop 4)
  else
    ClientChecks.parseCompressedCertificate K (message.drop 4)

/-- The messages hold a certificate message whose chain was verified. -/
def Presented (inputs : K) (transcript : List UInt8) (certs : List (List UInt8)) : Prop :=
  ∃ before certificate, transcript = before ++ certificate ∧
    certificatesOf K certificate = .ok certs ∧ ClientChecks.verifyCertChain inputs certs = .ok ()

/-- The server is known: it took the pre-shared key that was offered, or it
presented its certificate in the last message before a CertificateVerify, which
signs all messages before it. -/
def Identified (inputs : K) (transcript : List UInt8) : Prop :=
  (∃ before hello, before ++ hello <+: transcript ∧ hello.headD 0 = HANDSHAKE_SERVER_HELLO ∧
    ClientChecks.parseServerHello inputs (hello.drop 4) = .ok true ∧
    ClientChecks.keyExchange inputs true (hello.drop 4) = .ok ()) ∨
  ∃ signed verify certs, signed ++ verify <+: transcript ∧ Presented inputs signed certs ∧
    verify.headD 0 = HANDSHAKE_CERTIFICATE_VERIFY ∧
    ClientChecks.verifySignature inputs certs signed (verify.drop 4) = .ok ()

/-- The messages end with the Finished of a known server. -/
def Authenticated (inputs : K) (transcript : List UInt8) : Prop :=
  ∃ before finished, transcript = before ++ finished ∧ Identified inputs before ∧
    finished.headD 0 = HANDSHAKE_FINISHED ∧
    finished.drop 4 = ClientChecks.serverVerifyData inputs before

/-- What the client has checked when it waits for a message. -/
structure Vouched (inputs : K) (tls : ClientHandshake K) : Prop where
  same : tls.inputs = inputs
  checked : match tls.readState with
    | .serverHello | .certificate => True
    | .encryptedExtensions => tls.pskAccepted = true → Identified inputs tls.transcript
    | .certificateVerify => Presented inputs tls.transcript tls.serverCerts
    | .finished | .complete => Identified inputs tls.transcript
  keys : ∀ schedule transcript, tls.schedule = some schedule →
    schedule.application = some transcript → Authenticated inputs transcript
  kinds : ∀ transcript side, .handshake transcript side ∉ tls.handed

variable {inputs : K} {tls : ClientHandshake K} {message : List UInt8}

theorem Identified.append {transcript : List UInt8} (known : Identified inputs transcript)
    (more : List UInt8) : Identified inputs (transcript ++ more) := by
  have longer {first : List UInt8} (within : first <+: transcript) : first <+: transcript ++ more :=
    within.trans (prefix_append ..)
  rcases known with ⟨before, hello, within, checks⟩ | ⟨signed, verify, certs, within, checks⟩
  · exact .inl ⟨before, hello, longer within, checks⟩
  · exact .inr ⟨signed, verify, certs, longer within, checks⟩

variable (vouched : tls.Vouched inputs)
include vouched

theorem vouched_handleServerHello (state : tls.readState = .serverHello)
    (typed : message.headD 0 = HANDSHAKE_SERVER_HELLO) :
    ((tls.hash message).handleServerHello (message.drop 4)).1.Vouched inputs := by
  obtain ⟨rfl, -, keys, kinds⟩ := vouched
  unfold handleServerHello
  split
  · exact ⟨rfl, by simp [hash, state], keys, kinds⟩
  next selected =>
  split
  · exact ⟨rfl, by simp [hash, state], keys, kinds⟩
  next exchanged =>
  refine ⟨rfl, ?_, ?_, kinds⟩
  · rintro rfl
    exact .inl ⟨tls.transcript, message, prefix_rfl, typed, selected, exchanged⟩
  · -- A new schedule has no application secrets.
    rintro _ _ ⟨rfl⟩ absent
    cases absent

theorem vouched_handleEncryptedExtensions (state : tls.readState = .encryptedExtensions) :
    (tls.handleEncryptedExtensions (message.drop 4) message).1.Vouched inputs := by
  have checked := vouched.checked
  rw [state] at checked
  unfold handleEncryptedExtensions
  split
  · exact vouched
  refine ⟨vouched.same, ?_, vouched.keys, vouched.kinds⟩
  by_cases accepted : tls.pskAccepted = true
  · simpa [accepted] using (checked accepted).append message
  · simp [accepted]

theorem vouched_handleCertificate (message : List UInt8) (state : tls.readState = .certificate) :
    (tls.handleCertificate message (certificatesOf K message)).1.Vouched inputs := by
  obtain ⟨rfl, checked, keys, kinds⟩ := vouched
  unfold handleCertificate
  split
  · exact ⟨rfl, checked, keys, kinds⟩
  next parsed =>
  split
  · exact ⟨rfl, by simp [state], keys, kinds⟩
  next verified => exact ⟨rfl, ⟨_, message, rfl, parsed, verified⟩, keys, kinds⟩

theorem vouched_handleCertificateVerify (state : tls.readState = .certificateVerify)
    (typed : message.headD 0 = HANDSHAKE_CERTIFICATE_VERIFY) :
    (tls.handleCertificateVerify (message.drop 4) message).1.Vouched inputs := by
  obtain ⟨rfl, presented, keys, kinds⟩ := id vouched
  rw [state] at presented
  unfold handleCertificateVerify
  split
  · exact vouched
  next signs => exact ⟨rfl, .inr ⟨_, _, _, prefix_rfl, presented, typed, signs⟩, keys, kinds⟩

theorem vouched_handleServerFinished (state : tls.readState = .finished)
    (typed : message.headD 0 = HANDSHAKE_FINISHED) :
    (tls.handleServerFinished (message.drop 4) message).1.Vouched inputs := by
  have known := vouched.checked
  rw [state] at known
  unfold handleServerFinished
  split
  · exact vouched
  split
  · exact vouched
  next verified =>
  split
  · exact vouched
  next agrees =>
  split
  · exact ⟨vouched.same, by simpa [hash, state] using known.append message, vouched.keys,
      vouched.kinds⟩
  next success =>
  obtain ⟨-, isDerived, master, handshake⟩ := KeySchedule.deriveApplication_fresh success
  obtain ⟨_, application, -, responded⟩ := (tls.hash message).respondFinished_eq master handshake
  rw [responded]
  refine ⟨vouched.same, (known.append message).append _, ?_, vouched.kinds⟩
  rintro _ _ ⟨rfl⟩ found
  obtain rfl := Option.some.inj (found.symm.trans (application.trans isDerived))
  refine ⟨tls.transcript, message, rfl, known, typed, ?_⟩
  unfold KeySchedule.finishedVerifyData at verified
  grind [vouched.same]

theorem vouched_processMessage : (tls.processMessage message).1.Vouched inputs := by
  unfold processMessage
  cases state : tls.readState with
  | serverHello =>
    dsimp only
    split
    next typed => exact vouched_handleServerHello vouched state typed
    · exact vouched
  | encryptedExtensions =>
    dsimp only
    split
    · exact vouched_handleEncryptedExtensions vouched state
    · exact vouched
  | certificate =>
    have handled := vouched_handleCertificate vouched message state
    dsimp only
    split
    next typed =>
      rw [certificatesOf, if_pos typed] at handled
      exact handled
    next untyped =>
      rw [certificatesOf, if_neg untyped] at handled
      split
      · exact handled
      · exact vouched
  | certificateVerify =>
    dsimp only
    split
    next typed => exact vouched_handleCertificateVerify vouched state typed
    · exact vouched
  | finished =>
    dsimp only
    split
    next typed => exact vouched_handleServerFinished vouched state typed
    · exact vouched
  | complete =>
    dsimp only
    split <;> exact vouched

theorem vouched_readHandshake (data : List UInt8) :
    (tls.readHandshake data).1.Vouched inputs := by
  have buffered (tls : ClientHandshake K) bytes (kept : tls.Vouched inputs) :
      Vouched inputs { tls with inbound := bytes } :=
    { kept with }
  exact @readMessages_rule _ _ _ _ _
    (fun before after : ClientHandshake K => before.Vouched inputs → after.Vouched inputs)
    (fun _ => id) (fun first second => second ∘ first) buffered
    (fun _ _ kept => vouched_processMessage kept) _ _ (buffered tls _ vouched)

theorem vouched_writeHandshake : tls.writeHandshake.1.Vouched inputs := by
  have writes := tls.writes_writeHandshake
  generalize tls.writeHandshake = output at writes ⊢
  refine ⟨?_, ?_, ?_, ?_⟩
  · cases writes <;> exact vouched.same
  · cases writes <;> exact vouched.checked
  · cases writes <;> exact vouched.keys
  · cases writes <;> simp [vouched.kinds]

theorem vouched_next1rttKeys : tls.next1rttKeys.1.Vouched inputs := by
  unfold next1rttKeys
  split
  · exact vouched
  next schedule scheduled =>
    refine ⟨vouched.same, vouched.checked, ?_, ?_⟩
    · rintro _ transcript ⟨rfl⟩ found
      apply vouched.keys schedule transcript scheduled
      unfold KeySchedule.next1rttPacketKeys at found
      split at found <;> exact found
    · unfold KeySchedule.issue
      split <;> simp [vouched.kinds]

end ClientHandshake

/-- The session of a client that has read nothing yet. -/
def ClientSession.start (inputs : K) (clientHello : List UInt8) (resumes : Bool) :
    ClientSession K :=
  ⟨.new inputs clientHello resumes, ClientHandshake.sound_new ..⟩

end ParallaX.Tls

namespace ParallaX.Quic

open Tls ClientHandshake Quic.Core List

variable {K C : Type} [ClientChecks K] [Controller C] {inputs : K}

theorem SealingView.Step.vouched {view later : SealingView (ClientSession K)}
    (step : Step view later) (vouched : view.tls.1.Vouched inputs) :
    later.tls.1.Vouched inputs := by
  cases step with
  | read bytes => exact vouched_readHandshake vouched bytes
  | write =>
    have wrote := vouched_writeHandshake vouched
    unfold install
    split <;> exact wrote
  | derive | deriveFails => exact vouched_next1rttKeys vouched
  | _ => exact vouched

namespace Connection

/-- The messages of a server that takes no pre-shared key, without bodies. -/
def serverFlight : List UInt8 :=
  [HANDSHAKE_SERVER_HELLO, HANDSHAKE_ENCRYPTED_EXTENSIONS, HANDSHAKE_CERTIFICATE,
    HANDSHAKE_CERTIFICATE_VERIFY, HANDSHAKE_FINISHED].flatMap fun msgType => [msgType, 0, 0, 0]

def greetingExample : Connection (ClientSession ExampleInputs) FixedWindow :=
  newClient (.start .only ExampleServer.clientHello false) ⟨12000⟩ .empty .empty (fun _ => 0) none
    KEEP_ALIVE_MIN 0

/-- The client reads the flight and closes. -/
def closingExample : List Event :=
  [clientDatagram .initial (exampleInitialKeys .server).localKey 0 [.crypto 0 serverFlight] 1200,
    .close 0 [], .pollTransmit 0]

end Connection

end ParallaX.Quic
