import Mathlib.Data.Nat.Pairing
import ParallaX.Quic.SealingKeys

/-!
# The key schedule of QUIC TLS

The traffic secrets of a handshake, named by what they are derived from, and
the order in which a handshake hands their keys over. Derivation and message
contents are parameters.
-/

namespace ParallaX.Tls

open ParallaX.Quic List

/-- A traffic secret: the messages hashed into it, the side that seals with it
and the generation of an application secret. -/
inductive TrafficSecret where
  | early (transcript : List UInt8)
  | handshake (transcript : List UInt8) (side : Side)
  | application (transcript : List UInt8) (side : Side) (generation : Nat)
deriving DecidableEq, Repr

/-- The key derivation of a handshake with the key-exchange inputs `K`. Its
secrets do not collide, its limits are 64-bit numbers, and its keys have the
tag of every cipher suite. -/
class KeyDerivation (K : Type) where
  packetKey : K → TrafficSecret → PacketKey
  initialKeys : ConnectionId → Side → Keys
  /-- The transport parameters in the form the connection reads them. -/
  parseParams : List UInt8 → Except String TransportParameters
  distinct (inputs : K) : Function.Injective (packetKey inputs)
  limit (inputs : K) (secret : TrafficSecret) :
    (packetKey inputs secret).confidentialityLimit < 2 ^ 64
  tag (inputs : K) (secret : TrafficSecret) : (packetKey inputs secret).tagLen = TAG_LEN
  initial_tag (dcid : ConnectionId) (side : Side) :
    (initialKeys dcid side).localKey.tagLen = TAG_LEN

def peerOf : Side → Side
  | .client => .server
  | .server => .client

section Keys

variable {K : Type} [KeyDerivation K] (inputs : K)

/-- Both directions of the 0-RTT keys come from the same secret. -/
def earlyKeys (transcript : List UInt8) : Keys :=
  { localKey := KeyDerivation.packetKey inputs (.early transcript)
    remoteKey := KeyDerivation.packetKey inputs (.early transcript) }

def handshakeKeys (side : Side) (transcript : List UInt8) : Keys :=
  { localKey := KeyDerivation.packetKey inputs (.handshake transcript side)
    remoteKey :=
      KeyDerivation.packetKey inputs (.handshake transcript (peerOf side)) }

def applicationKeys (side : Side) (transcript : List UInt8) (generation : Nat) : Keys :=
  { localKey := KeyDerivation.packetKey inputs (.application transcript side generation)
    remoteKey :=
      KeyDerivation.packetKey inputs (.application transcript (peerOf side) generation) }

def keysOf (handed : List TrafficSecret) : List PacketKey :=
  handed.map (KeyDerivation.packetKey inputs)

theorem mem_keysOf {handed : List TrafficSecret} {secret : TrafficSecret} :
    KeyDerivation.packetKey inputs secret ∈ keysOf inputs handed ↔ secret ∈ handed :=
  mem_map_of_injective (KeyDerivation.distinct inputs)

end Keys

/-! ## The schedule -/

/-- The schedule after the ServerHello. Of the secrets it erases it keeps
whether they are there; its application secrets are named by what they were
derived over and the generation it hands out next. -/
structure KeySchedule where
  handshakeSecret : Bool
  masterSecret : Bool
  application : Option (List UInt8)
  generation : Nat
  underived : handshakeSecret = true → masterSecret = false → application = none
  started : application.isSome = true → 0 < generation
deriving DecidableEq

namespace KeySchedule

def afterServerHello : KeySchedule :=
  { handshakeSecret := true
    masterSecret := false
    application := none
    generation := 0
    underived _ _ := rfl
    started := nofun }

/-- Application secrets are derived once; the first ones to hand out then are
one generation on. -/
def deriveApplication (schedule : KeySchedule) (transcript : List UInt8) :
    Except QuicTlsError KeySchedule :=
  if !schedule.handshakeSecret || schedule.masterSecret then
    .error (.crypto "application secrets already derived")
  else
    .ok
      { handshakeSecret := schedule.handshakeSecret
        masterSecret := true
        application := some transcript
        generation := 1
        underived := nofun
        started _ := Nat.one_pos }

/-- Whether a Finished can still be computed. -/
def finishedVerifyData (schedule : KeySchedule) (verifyData : List UInt8) :
    Except QuicTlsError (List UInt8) :=
  if schedule.handshakeSecret then .ok verifyData
  else .error (.crypto "handshake secrets retired")

/-- Erase what earlier application keys could be recomputed from. -/
def finishHandshake (schedule : KeySchedule) : Except QuicTlsError KeySchedule :=
  if schedule.masterSecret then
    .ok
      { schedule with handshakeSecret := false, masterSecret := false, underived := nofun }
  else .error (.crypto "handshake completion without master secret")

def updateSecrets (schedule : KeySchedule) : KeySchedule :=
  { schedule with generation := schedule.generation + 1, started := fun _ => Nat.succ_pos _ }

def next1rttPacketKeys {K : Type} [KeyDerivation K] (inputs : K) (side : Side)
    (schedule : KeySchedule) : KeySchedule × Except QuicTlsError (PacketKey × PacketKey) :=
  match schedule.application with
  | none => (schedule, .error (.crypto "1-RTT keys requested before handshake"))
  | some transcript =>
    let keys := applicationKeys inputs side transcript schedule.generation
    (schedule.updateSecrets, .ok (keys.localKey, keys.remoteKey))

/-- The sealing secret of `side` that the next generation hands over. -/
def issue (side : Side) (schedule : KeySchedule) : List TrafficSecret :=
  match schedule.application with
  | none => []
  | some transcript => [.application transcript side schedule.generation]

variable {transcript : List UInt8}

theorem early_not_mem_issue {side : Side} {schedule : KeySchedule} :
    .early transcript ∉ schedule.issue side := by
  unfold issue
  split <;> simp

theorem deriveApplication_fresh {schedule derived : KeySchedule}
    (success : schedule.deriveApplication transcript = .ok derived) :
    schedule.application = none ∧ derived.application = some transcript ∧
      derived.masterSecret = true ∧ derived.handshakeSecret = true := by
  unfold deriveApplication at success
  split at success
  · cases success
  next fresh =>
    simp only [Bool.or_eq_true, Bool.not_eq_true', not_or, Bool.not_eq_false,
      Bool.not_eq_true] at fresh
    cases success
    exact ⟨schedule.underived fresh.1 fresh.2, rfl, rfl, fresh.1⟩

theorem finishHandshake_keeps {schedule retired : KeySchedule}
    (success : schedule.finishHandshake = .ok retired) :
    retired.application = schedule.application ∧ retired.generation = schedule.generation := by
  unfold finishHandshake at success
  split at success
  · cases success
    exact ⟨rfl, rfl⟩
  · cases success

end KeySchedule

/-! ## What was handed over -/

/-- The sealing secrets of a side that were handed over, against its schedule
and the keys it has not handed over yet. -/
structure HandedOver (side : Side) (handed : List TrafficSecret)
    (schedule : Option KeySchedule) (pending1rttKeys : Option (List UInt8)) : Prop where
  application : ∀ transcript owner generation, .application transcript owner generation ∈ handed →
      ∃ current, schedule = some current ∧
        current.application = some transcript ∧
        generation < current.generation
  pending : ∀ transcript, pending1rttKeys = some transcript →
    .application transcript side 0 ∉ handed ∧
      ∃ current, schedule = some current ∧ current.application = some transcript

namespace HandedOver

variable {side : Side} {handed : List TrafficSecret}
  {schedule : Option KeySchedule} {pending : Option (List UInt8)}

theorem new (side : Side) : HandedOver side [] none none := ⟨nofun, nofun⟩

theorem early (handover : HandedOver side handed schedule pending) (transcript : List UInt8) :
    HandedOver side (.early transcript :: handed) schedule pending := by
  refine ⟨?_, ?_⟩
  · intro other owner gen member
    exact handover.application other owner gen (mem_of_ne_of_mem (by simp) member)
  · intro other isPending
    obtain ⟨unused, current⟩ := handover.pending other isPending
    refine ⟨?_, current⟩
    intro member
    exact unused (mem_of_ne_of_mem (by simp) member)

theorem start (handover : HandedOver side handed none pending) (begun : KeySchedule) :
    HandedOver side handed (some begun) pending := by
  refine ⟨?_, ?_⟩
  · intro transcript owner gen member
    obtain ⟨current, absent, -⟩ := handover.application transcript owner gen member
    cases absent
  · intro transcript isPending
    obtain ⟨-, _, absent, -⟩ := handover.pending transcript isPending
    cases absent

variable {current : KeySchedule} {transcript : List UInt8}

theorem derive {derived : KeySchedule} (handover : HandedOver side handed schedule pending)
    (isCurrent : ∀ other, schedule = some other → other = current)
    (success : current.deriveApplication transcript = .ok derived) :
    HandedOver side handed (some derived) (some transcript) := by
  obtain ⟨underived, isDerived, -, -⟩ := KeySchedule.deriveApplication_fresh success
  -- no application secrets were derived before, so none were handed over
  have unused transcript owner gen : .application transcript owner gen ∉ handed := by
    intro member
    obtain ⟨same, isSame, found, -⟩ := handover.application transcript owner gen member
    obtain rfl := isCurrent same isSame
    rw [underived] at found
    cases found
  refine ⟨fun other owner gen member => absurd member (unused other owner gen), ?_⟩
  rintro _ ⟨rfl⟩
  exact ⟨unused transcript side 0, derived, rfl, isDerived⟩

variable (handover : HandedOver side handed (some current) pending)
include handover

theorem replace {replaced : KeySchedule} (application : replaced.application = current.application)
    (gen : replaced.generation = current.generation) :
    HandedOver side handed (some replaced) pending := by
  refine ⟨?_, ?_⟩
  · intro transcript owner number member
    obtain ⟨same, isSame, found, below⟩ := handover.application transcript owner number member
    cases isSame
    exact ⟨_, rfl, application.trans found, gen.symm ▸ below⟩
  · intro transcript isPending
    obtain ⟨unused, _, isSame, found⟩ := handover.pending transcript isPending
    cases isSame
    exact ⟨unused, _, rfl, application.trans found⟩

omit handover in
theorem first (handover : HandedOver side handed schedule (some transcript)) :
    HandedOver side (.application transcript side 0 :: handed) schedule
      none := by
  obtain ⟨-, current, isCurrent, derived⟩ := handover.pending transcript rfl
  refine ⟨?_, nofun⟩
  intro other owner gen member
  rcases mem_cons.mp member with same | old
  · cases same
    exact ⟨current, isCurrent, derived, current.started (derived ▸ rfl)⟩
  · exact handover.application other owner gen old

theorem next (derived : current.application = some transcript) :
    TrafficSecret.application transcript side current.generation ∉ handed ∧
      HandedOver side (.application transcript side current.generation :: handed)
        (some current.updateSecrets) pending := by
  refine ⟨?_, ?_, ?_⟩
  · intro member
    obtain ⟨same, isSame, -, below⟩ :=
      handover.application transcript side current.generation member
    cases isSame
    exact Nat.lt_irrefl _ below
  · intro other owner number member
    rcases mem_cons.mp member with same | old
    · cases same
      exact ⟨_, rfl, derived, Nat.lt_succ_self _⟩
    · obtain ⟨same, isSame, found, below⟩ := handover.application other owner number old
      cases isSame
      exact ⟨_, rfl, found, Nat.lt_succ_of_lt below⟩
  · intro other isPending
    obtain ⟨unused, _, isSame, found⟩ := handover.pending other isPending
    cases isSame
    refine ⟨?_, _, rfl, found⟩
    intro member
    rcases mem_cons.mp member with equal | old
    · have zero := (TrafficSecret.application.inj equal).2.2
      have positive : 0 < current.generation := current.started (derived ▸ rfl)
      omega
    · exact unused old

theorem issue {K : Type} [KeyDerivation K] (inputs : K) :
    HandedOver side (current.issue side ++ handed)
      (some (current.next1rttPacketKeys inputs side).1) pending := by
  unfold KeySchedule.issue KeySchedule.next1rttPacketKeys
  cases derived : current.application with
  | none => exact handover
  | some => exact (handover.next derived).2

theorem next_key {K : Type} [KeyDerivation K] {inputs : K}
    {localKey remoteKey : PacketKey}
    (success : (current.next1rttPacketKeys inputs side).2 = .ok (localKey, remoteKey)) :
    localKey ∉ keysOf inputs handed ∧ localKey ∈ keysOf inputs (current.issue side ++ handed) ∧
      localKey.confidentialityLimit < 2 ^ 64 := by
  unfold KeySchedule.next1rttPacketKeys at success
  unfold KeySchedule.issue
  cases derived : current.application with
  | none =>
    rw [derived] at success
    cases success
  | some =>
    rw [derived] at success
    obtain ⟨rfl, -⟩ := Prod.mk.inj (Except.ok.inj success)
    refine ⟨?_, ?_, KeyDerivation.limit inputs _⟩
    · exact fun member =>
        (handover.next derived).1 ((mem_keysOf inputs).mp member)
    · exact (mem_keysOf inputs).mpr mem_cons_self

end HandedOver

/-! ## Orderly sessions -/

/-- What one write may hand over: the sealing secrets and whether 1-RTT keys
were handed over, before and after. -/
inductive Hands {K : Type} [KeyDerivation K] (side : Side) (inputs : K)
    (handed : List TrafficSecret) (atEnd : Bool) :
    List TrafficSecret → Bool → Option KeyChange → Prop
  | nothing : Hands side inputs handed atEnd handed atEnd none
  | early {transcript : List UInt8} (fresh : .early transcript ∉ handed) :
      Hands side inputs handed atEnd (.early transcript :: handed) atEnd
        (some (.zeroRtt (earlyKeys inputs transcript)))
  | handshake {transcript : List UInt8} (before : atEnd = false) :
      Hands side inputs handed atEnd handed atEnd
        (some (.handshake (handshakeKeys inputs side transcript)))
  | application {transcript : List UInt8}
      (fresh : .application transcript side 0 ∉ handed) :
      Hands side inputs handed atEnd
        (.application transcript side 0 :: handed) true
        (some (.oneRtt (applicationKeys inputs side transcript 0)))

namespace Hands

variable {K : Type} [KeyDerivation K] {side : Side} {inputs : K} {handed after : List TrafficSecret}
  {atEnd overAfter : Bool} {change : Option KeyChange} {keys : Keys}

theorem subset (hands : Hands side inputs handed atEnd after overAfter change) :
    handed ⊆ after := by
  cases hands with
  | nothing | handshake => exact List.Subset.refl _
  | early | application => exact subset_cons_self _ _

theorem stays_over (hands : Hands side inputs handed atEnd after overAfter change)
    (isOver : atEnd = true) : overAfter = true := by
  cases hands with
  | nothing | early | handshake => exact isOver
  | application => rfl

theorem zeroRtt (hands : Hands side inputs handed atEnd after overAfter (some (.zeroRtt keys))) :
    ∃ secret, keys.localKey = KeyDerivation.packetKey inputs secret ∧
      secret ∉ handed ∧ secret ∈ after := by
  cases hands with
  | early fresh => exact ⟨_, rfl, fresh, mem_cons_self⟩

theorem handshake_before
    (hands : Hands side inputs handed atEnd after overAfter (some (.handshake keys))) :
    atEnd = false := by
  cases hands with
  | handshake before => exact before

theorem oneRtt (hands : Hands side inputs handed atEnd after overAfter (some (.oneRtt keys))) :
    overAfter = true ∧
      ∃ secret, keys.localKey = KeyDerivation.packetKey inputs secret ∧
        secret ∉ handed ∧ secret ∈ after := by
  cases hands with
  | application fresh => exact ⟨rfl, _, rfl, fresh, mem_cons_self⟩

theorem tag {change : KeyChange}
    (hands : Hands side inputs handed atEnd after overAfter (some change)) :
    change.keys.localKey.tagLen = TAG_LEN := by
  cases hands with
  | early | handshake | application => exact KeyDerivation.tag inputs _

end Hands

class RecordedTls (T : Type) (K : outParam Type) [KeyDerivation K] extends TlsSession T where
  side : Side
  inputs : T → K
  handed : T → List TrafficSecret
  atEnd : T → Bool
  initial_keys (dcid : ConnectionId) (owner : Side) :
    initialKeys dcid owner = KeyDerivation.initialKeys K dcid owner
  read_keeps (tls : T) (bytes : List UInt8) :
    inputs (readHandshake tls bytes).1 = inputs tls ∧
      handed (readHandshake tls bytes).1 = handed tls ∧
      (atEnd tls = true → atEnd (readHandshake tls bytes).1 = true)
  write_hands (tls : T) :
    inputs (writeHandshake tls).1 = inputs tls ∧
      Hands side (inputs tls) (handed tls) (atEnd tls)
        (handed (writeHandshake tls).1) (atEnd (writeHandshake tls).1) (writeHandshake tls).2.2
  next_keeps (tls : T) :
    inputs (next1rttKeys tls).1 = inputs tls ∧
      handed tls ⊆ handed (next1rttKeys tls).1 ∧
      atEnd (next1rttKeys tls).1 = atEnd tls
  next_fresh (tls : T) (localKey remoteKey : PacketKey) :
    (next1rttKeys tls).2 = .ok (localKey, remoteKey) →
      localKey ∉ keysOf (inputs tls) (handed tls) ∧
        localKey ∈ keysOf (inputs tls) (handed (next1rttKeys tls).1) ∧
        localKey.confidentialityLimit < 2 ^ 64

namespace RecordedTls

variable {T K : Type} [KeyDerivation K] [RecordedTls T K]

def issued (tls : T) : List PacketKey := keysOf (inputs tls) (handed tls)

theorem issued_subset {before after : T} (sameInputs : inputs after = inputs before)
    (more : handed before ⊆ handed after) : issued before ⊆ issued after := by
  unfold issued
  rw [sameInputs]
  exact map_subset _ more

theorem fresh_key {before after : T} {secret : TrafficSecret}
    (sameInputs : inputs after = inputs before)
    (fresh : secret ∉ handed before) (now : secret ∈ handed after) :
    KeyDerivation.packetKey (inputs before) secret ∉ issued before ∧
      KeyDerivation.packetKey (inputs before) secret ∈ issued after ∧
      (KeyDerivation.packetKey (inputs before) secret).confidentialityLimit < 2 ^ 64 := by
  refine ⟨?_, ?_, KeyDerivation.limit _ _⟩
  · exact fun member => fresh ((mem_keysOf _).mp member)
  · unfold issued
    rw [sameInputs]
    exact (mem_keysOf _).mpr now

instance : OrderlyTls T where
  issued := issued
  atEnd := atEnd
  read_issued := by
    intro tls bytes
    obtain ⟨sameInputs, same, -⟩ := read_keeps tls bytes
    exact issued_subset sameInputs (same ▸ List.Subset.refl _)
  read_over := by
    intro tls bytes
    exact (read_keeps tls bytes).2.2
  write_issued := by
    intro tls
    exact issued_subset (write_hands tls).1 (write_hands tls).2.subset
  write_over := by
    intro tls isOver
    exact (write_hands tls).2.stays_over isOver
  write_zeroRtt := by
    intro tls keys written
    obtain ⟨sameInputs, hands⟩ := write_hands tls
    rw [written] at hands
    obtain ⟨secret, isKey, fresh, now⟩ := hands.zeroRtt
    rw [isKey]
    exact fresh_key sameInputs fresh now
  write_handshake := by
    intro tls keys written
    obtain ⟨-, hands⟩ := write_hands tls
    rw [written] at hands
    exact hands.handshake_before
  write_oneRtt := by
    intro tls _ written
    obtain ⟨sameInputs, hands⟩ := write_hands tls
    rw [written] at hands
    obtain ⟨isOver, _, isKey, fresh, now⟩ := hands.oneRtt
    rw [isKey]
    exact ⟨isOver, fresh_key sameInputs fresh now⟩
  next_issued := by
    intro tls
    exact issued_subset (next_keeps tls).1 (next_keeps tls).2.1
  next_over := by
    intro tls atEnd
    exact (next_keeps tls).2.2.trans atEnd
  next_key := by
    intro tls localKey remoteKey success
    unfold issued
    rw [(next_keeps tls).1]
    exact next_fresh tls localKey remoteKey success

instance : TaggedTls T where
  write_tag := by
    intro tls _ written
    obtain ⟨-, hands⟩ := write_hands tls
    rw [written] at hands
    exact hands.tag
  next_tag := by
    intro tls localKey remoteKey success
    obtain ⟨-, known, -⟩ := next_fresh tls localKey remoteKey success
    obtain ⟨secret, -, rfl⟩ := List.mem_map.mp known
    exact KeyDerivation.tag _ secret
  initial_tag := by
    intro dcid side
    rw [initial_keys]
    exact KeyDerivation.initial_tag dcid side

end RecordedTls

/-! ## Messages -/

def ALERT_UNEXPECTED_MESSAGE : Nat := 10

def ALERT_DECODE_ERROR : Nat := 50

def ALERT_DECRYPT_ERROR : Nat := 51

def HANDSHAKE_CLIENT_HELLO : UInt8 := 0x01

def HANDSHAKE_SERVER_HELLO : UInt8 := 0x02

def HANDSHAKE_NEW_SESSION_TICKET : UInt8 := 0x04

def HANDSHAKE_ENCRYPTED_EXTENSIONS : UInt8 := 0x08

def HANDSHAKE_CERTIFICATE : UInt8 := 0x0b

def HANDSHAKE_CERTIFICATE_VERIFY : UInt8 := 0x0f

def HANDSHAKE_FINISHED : UInt8 := 0x14

def HANDSHAKE_COMPRESSED_CERTIFICATE : UInt8 := 0x19

def unexpectedMessage (msgType : UInt8) (state : String) : QuicTlsError :=
  let digits := Nat.toDigits 16 msgType.toNat
  let padding := if digits.length = 1 then "0" else ""
  .alert ALERT_UNEXPECTED_MESSAGE
    ("unexpected handshake message 0x" ++ padding ++ String.ofList digits ++
      " in state " ++ state)

def buildFinished (verifyData : List UInt8) : List UInt8 :=
  let len := verifyData.length
  HANDSHAKE_FINISHED :: UInt8.ofNat (len / 2 ^ 16) ::
    UInt8.ofNat (len / 2 ^ 8) :: UInt8.ofNat len :: verifyData

/-- The first message of the inbound bytes with the bytes after it, once it is
complete; `limit` bounds its body. -/
def takeMessage (limit : Nat) (inbound : List UInt8) :
    Except QuicTlsError (Option (List UInt8 × List UInt8)) :=
  match inbound with
  | _ :: high :: mid :: low :: body =>
    let len := high.toNat * 2 ^ 16 + mid.toNat * 2 ^ 8 + low.toNat
    if limit < len then
      .error (.alert ALERT_DECODE_ERROR "handshake message exceeds maximum")
    else if body.length < len then .ok none
    else .ok (some (inbound.take (4 + len), inbound.drop (4 + len)))
  | _ => .ok none

section Messages

variable {S : Type} (limit : Nat) (inbound : S → List UInt8) (keep : S → List UInt8 → S)
  (process : S → List UInt8 → S × Except QuicTlsError Unit)

/-- Process the complete messages of the inbound bytes in order, up to the
first failure; each round takes one message off. -/
def readMessages : Nat → S → S × Except QuicTlsError Unit
  | 0, tls => (tls, .ok ())
  | rounds + 1, tls =>
    match takeMessage limit (inbound tls) with
    | .error failure => (tls, .error failure)
    | .ok none => (tls, .ok ())
    | .ok (some (message, rest)) =>
      match process (keep tls rest) message with
      | (processed, .error failure) => (processed, .error failure)
      | (processed, .ok ()) => readMessages rounds processed

theorem readMessages_rule {preserves : S → S → Prop} (refl : ∀ tls, preserves tls tls)
    (trans : ∀ {first second third}, preserves first second →
      preserves second third → preserves first third)
    (kept : ∀ tls rest, preserves tls (keep tls rest))
    (step : ∀ tls message, preserves tls (process tls message).1) (rounds : Nat) (tls : S) :
    preserves tls (readMessages limit inbound keep process rounds tls).1 := by
  induction rounds generalizing tls with
  | zero => exact refl tls
  | succ _ further =>
    unfold readMessages
    split
    · exact refl tls
    · exact refl tls
    next message rest _ =>
      have processed := trans (kept tls rest) (step (keep tls rest) message)
      split
      next after failure outcome =>
        rw [outcome] at processed
        exact processed
      next after outcome =>
        rw [outcome] at processed
        exact trans processed (further after)

end Messages

/-! ## Keys of examples -/

/-- Bytes as the digits of a number, lowest first. -/
def bytesNumber : List UInt8 → Nat
  | [] => 0
  | byte :: rest => byte.toNat + 1 + 257 * bytesNumber rest

theorem bytesNumber_injective : Function.Injective bytesNumber := by
  intro left
  induction left with
  | nil =>
    intro right same
    cases right with
    | nil => rfl
    | cons =>
      rw [bytesNumber, bytesNumber] at same
      omega
  | cons byte rest ih =>
    intro right same
    cases right with
    | nil =>
      rw [bytesNumber, bytesNumber] at same
      omega
    | cons other later =>
      rw [bytesNumber, bytesNumber] at same
      have small := byte.toNat_lt
      have bounded := other.toNat_lt
      have heads : byte.toNat = other.toNat := by omega
      have tails : bytesNumber rest = bytesNumber later := by omega
      rw [UInt8.toNat_inj.mp heads, ih tails]

def sideNumber : Side → Nat
  | .client => 0
  | .server => 1

theorem sideNumber_injective : Function.Injective sideNumber := by
  intro left right same
  cases left <;> cases right <;> first | rfl | cases same

def TrafficSecret.number : TrafficSecret → Nat
  | .early transcript => Nat.pair 0 (bytesNumber transcript)
  | .handshake transcript side => Nat.pair 1 (Nat.pair (bytesNumber transcript) (sideNumber side))
  | .application transcript side generation =>
    Nat.pair 2 (Nat.pair (bytesNumber transcript) (Nat.pair (sideNumber side) generation))

theorem TrafficSecret.number_injective : Function.Injective TrafficSecret.number := by
  intro left right _
  cases left <;> cases right <;>
    simp_all [number, Nat.pair_eq_pair, sideNumber_injective.eq_iff, bytesNumber_injective.eq_iff]

def exampleKey (secret : TrafficSecret) : PacketKey :=
  { secret := secret.number
    tagLen := 16
    confidentialityLimit := 2 ^ 23
    integrityLimit := 2 ^ 52 }

theorem exampleKey_injective : Function.Injective exampleKey := by
  intro _ _ same
  exact TrafficSecret.number_injective (congrArg PacketKey.secret same)

theorem exampleKey_limit (secret : TrafficSecret) :
    (exampleKey secret).confidentialityLimit < 2 ^ 64 :=
  Nat.pow_lt_pow_right (Nat.lt_succ_self 1) (by decide)

def exampleInitialKeys (side : Side) : Keys :=
  { localKey := exampleKey (.handshake [] side)
    remoteKey := exampleKey (.handshake [] (peerOf side)) }

theorem exampleInitialKeys_tag (side : Side) :
    (exampleInitialKeys side).localKey.tagLen = TAG_LEN :=
  rfl

end ParallaX.Tls
