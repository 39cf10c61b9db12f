import ParallaX.Quic.BuilderSizes
import ParallaX.Tls.ServerHandshake

/-!
# Datagrams fit the path

In a reachable state every datagram but a path-MTU probe fits the path MTU,
unless CRYPTO or early stream bytes of more than `UNCUT_MAX` bytes wait to be
sent again, or more than `UPDATES_MAX` streams wait for a window update.
-/

namespace ParallaX.Quic.Connection

open Quic.Core Option

variable {T C : Type}

/-- What is sent without being cut to the path is short. -/
structure Sized (conn : Connection T C) : Prop where
  updates : conn.grownStreams.length ≤ UPDATES_MAX
  crypto : ∀ space, ∀ range ∈ (conn.spaces space).retransmitCrypto, range.2 ≤ UNCUT_MAX
  early : (conn.spaces .data).keys = none → ∀ (id : Nat) (stream : Stream),
    conn.streams[id]? = some stream → ∀ range ∈ stream.retransmit, range.len ≤ UNCUT_MAX

/-! ## Preparing to send -/

/-- What preparing to send leaves alone. -/
def outgoing (conn : Connection T C) :
    Streams × PathState C × (SpaceId → List (Nat × Nat) × Bool) :=
  (conn.toStreams, conn.toPathState, fun space =>
    ((conn.spaces space).retransmitCrypto, (conn.spaces space).keys.isNone))

variable {now : Nat} {work : Work} (conn : Connection T C)

theorem outgoing_modifySpace (space : SpaceId) {change : Space → Space}
    (queue : ∀ sp, (change sp).retransmitCrypto = sp.retransmitCrypto)
    (keyed : ∀ sp, (change sp).keys.isNone = sp.keys.isNone) :
    (conn.modifySpace space change).outgoing = conn.outgoing := by
  have views : (fun other =>
      (((conn.modifySpace space change).spaces other).retransmitCrypto,
        ((conn.modifySpace space change).spaces other).keys.isNone)) =
      fun other => ((conn.spaces other).retransmitCrypto, (conn.spaces other).keys.isNone) := by
    funext other
    rw [spaces_modifySpace]
    split
    next same => rw [queue, keyed, same]
    · rfl
  exact congrArg (fun views => (conn.toStreams, conn.toPathState, views)) views

theorem outgoing_enforceLimits :
    conn.enforceAeadConfidentialityLimit.enforceAeadIntegrityLimit.outgoing = conn.outgoing := by
  have exhausted (next : Connection T C) (sealed limit : Nat) :
      (next.closeOnExhaustedDataKey sealed limit).outgoing = next.outgoing := by
    unfold closeOnExhaustedDataKey
    split <;> rfl
  have confidentiality (next : Connection T C) :
      next.enforceAeadConfidentialityLimit.outgoing = next.outgoing := by
    unfold enforceAeadConfidentialityLimit
    dsimp only
    split
    · split
      · exact exhausted ..
      · rfl
    · rw [exhausted]
      split
      · exact exhausted ..
      · rfl
  have integrity (next : Connection T C) :
      next.enforceAeadIntegrityLimit.outgoing = next.outgoing := by
    unfold enforceAeadIntegrityLimit
    split
    · rfl
    · split <;> rfl
  rw [integrity, confidentiality]

theorem outgoing_initiateKeyUpdate (now : Nat) :
    (conn.initiateKeyUpdate now).1.outgoing = conn.outgoing := by
  have installed gen : (conn.installSendKey gen).1.outgoing = conn.outgoing := by
    unfold installSendKey
    split
    · rfl
    split
    · rfl
    split
    · rfl
    split
    · rfl
    next key _ _ =>
      have rekeyed : (conn.setLocalDataKey key).outgoing = conn.outgoing :=
        outgoing_modifySpace conn .data (fun _ => rfl) (fun _ => isNone_map)
      exact rekeyed
  unfold initiateKeyUpdate
  split
  · rfl
  split
  · rfl
  next gen _ =>
    have kept := installed gen
    split
    next outcome =>
      rw [outcome] at kept
      exact kept
    next outcome =>
      rw [outcome] at kept
      exact kept

theorem outgoing_prepareTransmit (now : Nat) :
    (conn.prepareTransmit now).outgoing = conn.outgoing := by
  have rotated : (if conn.closed.isNone then conn.maybeUpdateSendKey now
      else conn).outgoing = conn.outgoing := by
    have updated := outgoing_initiateKeyUpdate conn now
    split
    · unfold maybeUpdateSendKey
      split
      · rfl
      dsimp only
      split
      · split
        next outcome =>
          rw [outcome] at updated
          exact updated
        next outcome =>
          rw [outcome] at updated
          exact updated
      · rfl
    · rfl
  unfold prepareTransmit
  generalize (if conn.closed.isNone then conn.maybeUpdateSendKey now
    else conn) = next at rotated ⊢
  rw [← rotated, ← outgoing_enforceLimits next]
  dsimp only
  split <;> rfl

theorem Sized.congr {first second : Connection T C} (sized : first.Sized)
    (same : second.outgoing = first.outgoing) : second.Sized := by
  simp only [outgoing, Prod.mk.injEq] at same
  obtain ⟨table, -, views⟩ := same
  have queue space : (second.spaces space).retransmitCrypto =
      (first.spaces space).retransmitCrypto :=
    congrArg Prod.fst (congrFun views space)
  have keyless : (second.spaces .data).keys.isNone = (first.spaces .data).keys.isNone :=
    congrArg Prod.snd (congrFun views .data)
  refine ⟨?_, ?_, ?_⟩
  · rw [table]
    exact sized.updates
  · intro space
    rw [queue]
    exact sized.crypto space
  · intro none id stream
    rw [none, isNone_none] at keyless
    rw [table]
    exact sized.early (isNone_iff_eq_none.mp keyless.symm) id stream

/-! ## The dispatcher -/

variable [Controller C] {packet : Packet}

/-- Every packet short of a probe fits the path. -/
theorem len_buildWork_le {conn next : Connection T C}
    (sized : conn.Sized) (tags : conn.Tags) (within : conn.pmtud.Within)
    (ready : conn.WorkReady work) (built : conn.buildWork now work = some (next, packet)) :
    packet.len ≤ conn.pmtud.currentMtu := by
  have base := within.base
  cases work with
  | crypto space => exact (len_buildCryptoPacket_le tags (sized.crypto space) built).trans base
  | zeroRttStream id =>
    exact len_buildZeroRttStreamPacket_le tags within (sized.early ready.1 id) built
  | handshakeDone =>
    have same : Tags { conn with handshakeDonePending := false } := ⟨tags.spaces, tags.early⟩
    exact (len_sealDataPacket_le same (by decide) (by decide : BASE_MTU < 2 ^ 14) built).trans base
  | flowUpdate => exact (len_buildFlowUpdatePacket_le tags sized.updates built).trans base
  | reset => exact (len_buildResetPacket_le tags built).trans base
  | stream => exact len_buildStreamPacket_le tags within built
  | mtuProbe => exact ready.elim
  | ping => exact (len_buildPingPacket_le tags built).trans base

/-- What `poll_transmit` returns: the close of a closed connection, one ACK, one
packet with work to do, or one packet of an idle connection. -/
theorem pollTransmitInner_cases {conn next : Connection T C} {packets : List Packet}
    (polled : conn.pollTransmitInner now = some (next, some packets)) :
    (conn.prepareTransmit now).pollClosed now = some (next, some packets) ∨
      ∃ packet, packets = [packet] ∧
        ((∃ space built, (conn.prepareTransmit now).buildAckPacket space now =
            some (built, packet)) ∨
          (∃ work built, (conn.prepareTransmit now).nextWork now = some work ∧
            (conn.prepareTransmit now).buildWork now work = some (built, packet)) ∨
          ∃ idle work built, (conn.prepareTransmit now).nextIdleWork = (idle, some work) ∧
            idle.buildWork now work = some (built, packet) ∧
            next = { built with probePending := built.probePending - 1 }) := by
  unfold pollTransmitInner at polled
  dsimp only at polled
  generalize conn.prepareTransmit now = ready at polled ⊢
  split at polled
  · exact .inl polled
  split at polled
  · cases polled
  refine .inr ?_
  split at polled
  next space _ =>
    obtain ⟨⟨built, packet⟩, building, same⟩ := bind_eq_some_iff.mp polled
    obtain ⟨-, isPackets⟩ := Prod.mk.inj (Option.some.inj same)
    exact ⟨packet, (Option.some.inj isPackets).symm, .inl ⟨space, built, building⟩⟩
  split at polled
  · cases polled
  split at polled
  next work picked =>
    obtain ⟨built, packet, building, -, isPackets⟩ := sendWork_built polled
    exact ⟨packet, Option.some.inj isPackets, .inr (.inl ⟨work, built, picked, building⟩)⟩
  split at polled
  next idle work outcome =>
    obtain ⟨built, packet, building, isNext, isPackets⟩ := sendWork_built polled
    exact ⟨packet, Option.some.inj isPackets,
      .inr (.inr ⟨idle, work, built, outcome, building, isNext⟩)⟩
  · cases polled

section Runs

variable [TlsSession T]

omit [TlsSession T] [Controller C] in
theorem tags_nextIdleWork {conn : Connection T C} (tags : conn.Tags) :
    conn.nextIdleWork.1.Tags := by
  unfold nextIdleWork
  dsimp only
  split <;> exact ⟨tags.spaces, tags.early⟩

theorem len_idleWork_le {conn idle built : Connection T C} {now : Nat} {work : Work}
    {packet : Packet} (tags : conn.Tags) (within : conn.pmtud.Within)
    (picked : conn.nextIdleWork = (idle, some work))
    (building : idle.buildWork now work = some (built, packet)) :
    packet.len ≤ conn.pmtud.currentMtu ∨
      conn.mtuProbePn = none ∧ built.mtuProbePn.isSome = true := by
  have kept := tags_nextIdleWork tags
  rw [picked] at kept
  rcases conn.nextIdleWork_cases with
    ⟨_, unprobed, -, -, probes⟩ | ⟨-, pings⟩
  · rw [picked] at probes
    obtain ⟨rfl, isWork⟩ := Prod.mk.inj probes
    cases isWork
    simp only [buildWork, buildMtuProbePacket, bind_eq_bind, bind_eq_some_iff] at building
    obtain ⟨⟨_, _⟩, -, _, -, same⟩ := building
    cases same
    exact .inr ⟨unprobed, rfl⟩
  · rw [picked] at pings
    obtain rfl := pings work rfl
    exact .inl ((len_buildPingPacket_le kept building).trans within.base)

end Runs

section Measured

variable [TaggedTls T] {packets : List Packet}

omit [TaggedTls T] in
theorem datagramLen_pollClosed_le {conn next : Connection T C} {now : Nat}
    (within : conn.pmtud.Within) (polled : conn.pollClosed now = some (next, some packets)) :
    datagramLen packets ≤ conn.pmtud.currentMtu := by
  let quiet : Connection T C :=
    { conn.clearAckSchedules with closeTime := conn.closeTime.or (some now) }
  have kept : quiet.pmtud.Within := within
  unfold pollClosed at polled
  dsimp only at polled
  split at polled
  · have bounds := datagramLen_buildClosePacket_le kept polled
    exact bounds
  · cases polled

/-- A datagram fits the path or is a path-MTU probe. -/
theorem datagramLen_pollTransmitInner_le
    {conn next : Connection T C} {now : Nat} (measured : conn.core.Measured) (sized : conn.Sized)
    (polled : conn.pollTransmitInner now = some (next, some packets)) :
    datagramLen packets ≤ conn.pmtud.currentMtu ∨
      conn.mtuProbePn = none ∧ next.mtuProbePn.isSome = true := by
  have prepared : (conn.prepareTransmit now).core.Measured :=
    Acts.rule (fun _ _ act => act.measured) (acts_prepareTransmit conn now) measured
  have same := conn.outgoing_prepareTransmit now
  have returned := pollTransmitInner_cases polled
  have readySized := sized.congr same
  generalize conn.prepareTransmit now = ready at *
  simp only [outgoing, Prod.mk.injEq] at same
  obtain ⟨-, path, -⟩ := same
  have tags := tags_of_tagged prepared.tagged
  have within := prepared.probing.within
  -- The path is that of the prepared connection.
  rw [← path]
  rcases returned with closing | ⟨_, rfl, built⟩
  · exact .inl (datagramLen_pollClosed_le within closing)
  rcases built with ⟨space, _, acked⟩ | ⟨_, _, picked, building⟩ |
    ⟨idle, _, _, picked, building, rfl⟩
  · exact .inl ((len_buildAckPacket_le tags (prepared.received space).capped
      acked).trans within.base)
  · exact .inl (len_buildWork_le readySized tags within (nextWork_ready picked) building)
  · have idle := len_idleWork_le tags within picked building
    exact idle

/-- In every run, frame by frame, a datagram that `poll_transmit` returns fits
the path MTU or starts a path-MTU probe, when nothing of more than `UNCUT_MAX`
bytes waits to be resent uncut and at most `UPDATES_MAX` streams wait for an
update. -/
theorem frameRuns_datagramLen_le {recvMaxStreamsSent : Dir → Nat} {start conn next : Connection T C}
    {now : Nat} {packets : List Packet} (starts : Starts recvMaxStreamsSent start)
    (runs : FrameRuns start conn) (sized : conn.Sized)
    (polled : conn.pollTransmit now = some (next, some packets)) :
    datagramLen packets ≤ conn.pmtud.currentMtu ∨
      conn.mtuProbePn = none ∧ next.mtuProbePn.isSome = true := by
  have measured : conn.core.Measured :=
    FrameRuns.core_rule (fun _ fresh => fresh.measured) (fun _ _ act => act.measured) starts runs
  obtain ⟨⟨_, datagram⟩, done, same⟩ := bind_eq_some_iff.mp polled
  cases datagram with
  | none => cases same
  | some =>
    have bound := datagramLen_pollTransmitInner_le measured sized done
    dsimp only at same
    split at same
    · obtain ⟨rfl, isPackets⟩ := Prod.mk.inj (Option.some.inj same)
      cases isPackets
      exact bound
    · obtain ⟨rfl, isPackets⟩ := Prod.mk.inj (Option.some.inj same)
      cases isPackets
      exact bound

end Measured

/-! ## A flight that is resent -/

/-- The flight fills its datagram to the last byte. -/
theorem frameRuns_datagramLen_le_flight :
    ∃ (conn next : Connection (Tls.ServerSession Tls.ExampleServer)
        FixedWindow) (packets : List Packet),
      FrameRuns (waitingExample 1209) conn ∧ conn.Sized ∧
        conn.pollTransmit 0 = some (next, some packets) ∧
        datagramLen packets = 1252 ∧
        datagramLen packets ≤ conn.pmtud.currentMtu := by
  have sends : ((waitingExample 1209).play (flightExample.take 3)).any
      (fun conn =>
        conn.hasDataKeys && decide (conn.grownStreams.length ≤ UPDATES_MAX) &&
          (SpaceId.all.all fun space =>
            (conn.spaces space).retransmitCrypto.isEmpty) &&
          (conn.pollTransmit 0).any fun polled =>
            polled.1.mtuProbePn.isNone && polled.2.any fun packets =>
              decide (datagramLen packets = 1252)) = true := by
    decide +kernel
  obtain ⟨conn, played, facts⟩ := any_eq_true _ _ |>.mp sends
  simp only [Bool.and_eq_true, decide_eq_true_eq, List.all_eq_true,
    List.isEmpty_iff, any_eq_true] at facts
  obtain ⟨⟨⟨keyed, updates⟩, queues⟩, ⟨next, _⟩, polled, unprobed,
    packets, rfl, length⟩ := facts
  have runs := (runs_of_play played).frames
  have sized : conn.Sized := by
    refine ⟨updates, ?_, ?_⟩
    · intro space _ member
      have empty := queues space (by cases space <;> decide)
      rw [empty] at member
      cases member
    · intro keyless
      rw [hasDataKeys, keyless] at keyed
      cases keyed
  refine ⟨conn, next, packets, runs, sized, polled, length, ?_⟩
  rcases frameRuns_datagramLen_le (.server ..) runs sized polled with
    fits | ⟨-, probes⟩
  · exact fits
  · rw [isNone_iff_eq_none.mp unprobed] at probes
    cases probes

/-- The client sends 126 Handshake PINGs, which are acknowledged one by one,
and acknowledges the last of these ACKs only. -/
def lostFlightExample : List Event :=
  flightExample ++
    ((List.range 126).flatMap fun pn =>
      [handshakeDatagram pn [.ping], .pollTransmit 0]) ++
    [handshakeDatagram 126 [.ack ⟨126, 0, [(126, 126)], none⟩]]

/-- The flight is resent whole with a packet number that is longer by a
byte. -/
theorem resent_flight_exceeds_mtu :
    ∃ (conn next : Connection (Tls.ServerSession Tls.ExampleServer)
        FixedWindow) (packets : List Packet),
      FrameRuns (waitingExample 1209) conn ∧
        conn.pollTransmit 0 = some (next, some packets) ∧
        conn.pmtud.currentMtu < datagramLen packets ∧
        next.mtuProbePn = none := by
  have sends : ((waitingExample 1209).play lostFlightExample).any (fun conn =>
      (conn.pollTransmit 0).any fun polled =>
        polled.1.mtuProbePn.isNone && polled.2.any fun packets =>
          decide (conn.pmtud.currentMtu < datagramLen packets)) = true := by
    decide +kernel
  obtain ⟨conn, played, polls⟩ := any_eq_true _ _ |>.mp sends
  obtain ⟨⟨next, _⟩, polled, facts⟩ := any_eq_true _ _ |>.mp polls
  obtain ⟨unprobed, exceeds⟩ := Bool.and_eq_true _ _ |>.mp facts
  obtain ⟨packets, rfl, longer⟩ := any_eq_true _ _ |>.mp exceeds
  exact ⟨conn, next, packets, (runs_of_play played).frames, polled,
    of_decide_eq_true longer, isNone_iff_eq_none.mp unprobed⟩

end ParallaX.Quic.Connection
