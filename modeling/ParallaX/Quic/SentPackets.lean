import ParallaX.Quic.SealingActs

/-!
# The packets that a run sends

A connection logs each packet it seals: its space, its key and its number. The
packets that `poll_transmit` returns in a run are among those it logged.
-/

namespace ParallaX.Quic

open List

/-- The packet-number space of a header: 0-RTT and 1-RTT packets share one. -/
def Header.space : Header → SpaceId
  | .long .initial _ _ _ _ _ _ _ | .long .retry _ _ _ _ _ _ _ => .initial
  | .long .handshake _ _ _ _ _ _ _ => .handshake
  | .long .zeroRtt _ _ _ _ _ _ _ | .short .. => .data

/-- What the log holds of a packet: the space and the number in its header, and
the key it is sealed under. -/
def Packet.sealed (packet : Packet) : Sealed :=
  ⟨packet.header.space, packet.key, packet.header.packetNumber⟩

theorem SealingView.Step.prefix {T : Type} [TlsSession T] {view later : SealingView T}
    (step : Step view later) : view.sealedPackets <+: later.sealedPackets := by
  cases step with
  | emit => exact prefix_append ..
  | write =>
    unfold install
    split <;> exact prefix_rfl
  | _ => exact prefix_rfl

theorem Core.Acts.log_grows {T : Type} [TlsSession T] {first second : Core T}
    (acts : Acts first second) : first.sealedPackets <+: second.sealedPackets :=
  acts.rule (motive := fun core => first.sealedPackets <+: core.sealedPackets)
    (fun _ _ act before => before.trans act.sealing.prefix) prefix_rfl

namespace Connection

open Option

variable {T C : Type} {conn next alloc : Connection T C} {space : SpaceId} {now pn : Nat}
  {packet : Packet} {datagram : Option (List Packet)}

theorem sealed_makeHeader (conn : Connection T C) (space : SpaceId) (pn pnLen : Nat)
    (key : PacketKey) (frames : List Frame) :
    (sealPacket key (conn.makeHeader space pn pnLen) frames).sealed = ⟨space, key, pn⟩ := by
  cases space <;> rfl

variable [Controller C]

/-! ## Builders -/

theorem log_recordSent {key : PacketKey} (keyed : conn.core.sealingKey space = some key)
    (pn size : Nat) (ackEliciting : Bool) (content : SentContent) (now : Nat) :
    (conn.recordSent space pn size ackEliciting content now).sealedPackets =
      conn.sealedPackets ++ [⟨space, key, pn⟩] := by
  have recorded := congrArg (fun core : Core T => core.sealing.sealedPackets)
    (core_recordSent conn space pn size ackEliciting content now)
  rw [Core.sealing_record keyed] at recorded
  exact recorded

/-- The log of `next` is that of `conn` and one packet more. -/
def Logs (conn next : Connection T C) (packet : Packet) : Prop :=
  next.sealedPackets = conn.sealedPackets ++ [packet.sealed]

theorem logs_recordSent {keys : Keys} {frames : List Frame}
    (given : conn.allocatePacketNumber space = some (alloc, pn))
    (found : (alloc.spaces space).keys = some keys)
    (pnLen size : Nat) (ackEliciting : Bool) (content : SentContent) (now : Nat) :
    conn.Logs (alloc.recordSent space pn size ackEliciting content now)
      (sealPacket keys.localKey (alloc.makeHeader space pn pnLen) frames) := by
  rw [Logs, sealed_makeHeader, log_recordSent (sealingKey_of_keys found)]
  obtain ⟨_, rfl⟩ := allocated_space given
  rfl

theorem logs_sealDataPacket {frames : List Frame} {ackEliciting : Bool} {content : SentContent}
    (built : conn.sealDataPacket frames ackEliciting content now = some (next, packet)) :
    conn.Logs next packet := by
  simp only [sealDataPacket, bind_eq_bind, bind_eq_some_iff] at built
  obtain ⟨⟨_, _⟩, given, _, found, same⟩ := built
  cases same
  exact logs_recordSent given found ..

theorem logs_buildAckPacket (built : conn.buildAckPacket space now = some (next, packet)) :
    conn.Logs next packet := by
  simp only [buildAckPacket, bind_eq_bind, bind_eq_some_iff] at built
  obtain ⟨⟨alloc, _⟩, given, _, -, keys, found, same⟩ := built
  cases same
  have sealing : (alloc.ackSent space).core.sealingKey space = some keys.localKey := by
    rw [core_ackSent]
    unfold Core.noteAckSent
    split <;> exact sealingKey_of_keys found
  have log : (alloc.ackSent space).sealedPackets = alloc.sealedPackets := by
    unfold ackSent
    split <;> rfl
  rw [Logs, sealed_makeHeader, log_recordSent sealing, log]
  obtain ⟨_, rfl⟩ := allocated_space given
  rfl

theorem logs_buildClosePacketInSpace
    (built : conn.buildClosePacketInSpace space now = some (next, some packet)) :
    conn.Logs next packet := by
  have limited := congrArg (fun core => core.sealedPackets) conn.core_enforceLimits
  unfold buildClosePacketInSpace at built
  dsimp only at built
  generalize conn.enforceAeadConfidentialityLimit.enforceAeadIntegrityLimit = ready at limited built
  split at built
  · cases built
  split at built
  · cases built
  · simp only [bind_eq_bind, bind_eq_some_iff] at built
    obtain ⟨⟨_, _⟩, given, _, found, same⟩ := built
    cases same
    exact Eq.trans (logs_recordSent given found ..) (congrArg (· ++ _) limited)

theorem logs_buildMtuProbePacket {size : Nat}
    (built : conn.buildMtuProbePacket size now = some (next, packet)) : conn.Logs next packet := by
  simp only [buildMtuProbePacket, bind_eq_bind, bind_eq_some_iff] at built
  obtain ⟨⟨_, _⟩, given, _, found, same⟩ := built
  cases same
  exact logs_recordSent given found ..

theorem logs_buildCryptoPacket (built : conn.buildCryptoPacket space now = some (next, packet)) :
    conn.Logs next packet := by
  simp only [buildCryptoPacket, bind_eq_bind, bind_eq_some_iff] at built
  obtain ⟨⟨_, _⟩, given, _, found, _, -, same⟩ := built
  cases same
  exact logs_recordSent given found ..

theorem logs_buildStreamPacket {id : Nat}
    (built : conn.buildStreamPacket id now = some (next, packet)) : conn.Logs next packet := by
  simp only [buildStreamPacket, bind_eq_bind, bind_eq_some_iff] at built
  obtain ⟨⟨_, _⟩, given, _, found, _, -, _, -, same⟩ := built
  cases same
  exact logs_recordSent given found ..

theorem logs_buildZeroRttStreamPacket {id : Nat} (early : (conn.spaces .data).keys = none)
    (built : conn.buildZeroRttStreamPacket id now = some (next, packet)) :
    conn.Logs next packet := by
  simp only [buildZeroRttStreamPacket, bind_eq_bind, bind_eq_some_iff] at built
  obtain ⟨⟨alloc, _⟩, given, keys, keyed, _, -, _, -, same⟩ := built
  cases same
  obtain ⟨send, rfl⟩ := allocated_space given
  have sealing : (conn.modifySpace .data fun sp =>
      { sp with send := send }).core.sealingKey .data = some keys.localKey := by
    have none : ((conn.modifySpace .data fun sp =>
        { sp with send := send }).core.spaces .data).keys = none := early
    unfold Core.sealingKey
    rw [none]
    exact congrArg (Option.map Keys.localKey) keyed
  exact log_recordSent sealing ..

theorem logs_buildWork {work : Work}
    (early : ∀ id, work = .zeroRttStream id → (conn.spaces .data).keys = none)
    (built : conn.buildWork now work = some (next, packet)) : conn.Logs next packet := by
  cases work with
  | crypto => exact logs_buildCryptoPacket built
  | zeroRttStream id => exact logs_buildZeroRttStreamPacket (early id rfl) built
  | handshakeDone | ping => exact (logs_sealDataPacket built :)
  | flowUpdate =>
    obtain ⟨⟨_, _⟩, sent, same⟩ := bind_eq_some_iff.mp built
    cases same
    exact (logs_sealDataPacket sent :)
  | reset =>
    obtain ⟨_, -, sent⟩ := bind_eq_some_iff.mp built
    exact (logs_sealDataPacket sent :)
  | stream => exact logs_buildStreamPacket built
  | mtuProbe => exact logs_buildMtuProbePacket built

theorem log_buildCloseBatch {spaces : List SpaceId} {packets : List Packet}
    (built : conn.buildCloseBatch now spaces = some (next, some packets)) :
    next.sealedPackets = conn.sealedPackets ++ packets.map Packet.sealed := by
  induction spaces generalizing conn packets with
  | nil =>
    cases built
    exact (append_nil _).symm
  | cons _ _ ih =>
    obtain ⟨⟨_, packet⟩, first, rest⟩ := bind_eq_some_iff.mp built
    cases packet with
    | none => cases rest
    | some packet =>
      obtain ⟨⟨_, batch⟩, others, same⟩ := bind_eq_some_iff.mp rest
      cases batch with
      | none => cases same
      | some =>
        cases same
        rw [ih others, logs_buildClosePacketInSpace first, append_assoc]
        rfl

theorem log_buildClosePacket {packets : List Packet}
    (built : conn.buildClosePacket now = some (next, some packets)) :
    next.sealedPackets = conn.sealedPackets ++ packets.map Packet.sealed := by
  have limited := congrArg (fun core => core.sealedPackets) conn.core_enforceLimits
  unfold buildClosePacket at built
  dsimp only at built
  generalize conn.enforceAeadConfidentialityLimit.enforceAeadIntegrityLimit = ready at limited built
  repeat' split at built
  all_goals first
    | cases built
    | exact (log_buildCloseBatch built).trans (congrArg (· ++ _) limited)

omit [Controller C] in
theorem nextIdleWork_log {idle : Connection T C} {work : Work}
    (picked : conn.nextIdleWork = (idle, some work)) :
    idle.sealedPackets = conn.sealedPackets ∧ ∀ id, work ≠ .zeroRttStream id := by
  unfold nextIdleWork at picked
  dsimp only at picked
  split at picked
  · cases picked
    exact ⟨rfl, nofun⟩
  · obtain ⟨rfl, isPing⟩ := Prod.mk.inj picked
    split at isPing <;> cases isPing
    exact ⟨rfl, nofun⟩

/-- The packets of a datagram are the last ones that the connection logged. -/
theorem log_pollTransmit {packets : List Packet}
    (polled : conn.pollTransmit now = some (next, some packets)) :
    next.sealedPackets = (conn.prepareTransmit now).sealedPackets ++ packets.map Packet.sealed := by
  obtain ⟨⟨inner, datagram⟩, done, same⟩ := bind_eq_some_iff.mp polled
  have charged : next.sealedPackets = inner.sealedPackets ∧ datagram = some packets := by
    cases datagram with
    | none => cases same
    | some =>
      dsimp only at same
      split at same <;> cases same <;> exact ⟨rfl, rfl⟩
  obtain ⟨log, rfl⟩ := charged
  rw [log]
  unfold pollTransmitInner at done
  dsimp only at done
  generalize conn.prepareTransmit now = ready at done
  split at done
  · unfold pollClosed at done
    dsimp only at done
    split at done
    · exact (log_buildClosePacket done :)
    · cases done
  split at done
  · cases done
  split at done
  · obtain ⟨⟨built, _⟩, acked, same⟩ := bind_eq_some_iff.mp done
    have logs := logs_buildAckPacket acked
    cases same
    split <;> exact logs
  split at done
  · cases done
  split at done
  next work picked =>
    obtain ⟨_, _, built, rfl, isPacket⟩ := sendWork_built done
    cases isPacket
    have logs := logs_buildWork (fun _ isEarly => (isEarly ▸ nextWork_ready picked).1) built
    exact logs
  split at done
  next idle work picked =>
    obtain ⟨_, _, built, rfl, isPacket⟩ := sendWork_built done
    cases isPacket
    obtain ⟨log, idles⟩ := nextIdleWork_log picked
    have logs := logs_buildWork (fun id isEarly => (idles id isEarly).elim) built
    exact Eq.trans logs (congrArg (· ++ _) log)
  · cases done

/-! ## Runs -/

variable [TlsSession T]

/-- The packets that an event makes the connection return. -/
def sentBy (conn : Connection T C) : Event → List Packet
  | .pollTransmit now => ((conn.pollTransmit now).bind Prod.snd).getD []
  | _ => []

/-- A run, frame by frame, and the packets that it sent. -/
inductive Sends (start : Connection T C) : List Packet → Connection T C → Prop
  | start : Sends start [] start
  | event {sent : List Packet} {conn next : Connection T C} {event : Event}
      (before : Sends start sent conn) (known : event.Known conn)
      (taken : conn.step event = some next) :
      Sends start (sent ++ conn.sentBy event) next
  | frame {sent : List Packet} {conn : Connection T C} {level : PacketSpace} {frameType : Nat}
      {frame : Frame} (before : Sends start sent conn)
      (keyed : level = .oneRtt → (conn.spaces .data).keys.isSome = true)
      (permitted : framePermitted level conn.side frameType = true)
      (typed : frame.HasType frameType) (receiveGeneration : Option Nat) (now : Nat) :
      Sends start sent
        (conn.processFrame ⟨spaceIndex level, receiveGeneration, now⟩ frameType frame).1

variable {start : Connection T C} {sent : List Packet}

theorem Sends.frameRuns (sends : Sends start sent conn) : FrameRuns start conn := by
  induction sends with
  | start => exact .refl
  | event _ known taken ih => exact ih.tail (.event known taken)
  | frame _ keyed permitted typed receiveGeneration now ih =>
    exact ih.tail (.frame keyed permitted typed receiveGeneration now)

/-- What was sent in a run was logged, in order. -/
theorem Sends.logged {maxSent : Dir → Nat} (starts : Starts maxSent start)
    (sends : Sends start sent conn) : sent.map Packet.sealed <+ conn.sealedPackets := by
  obtain ⟨_, isFresh, begun⟩ := starts.acts
  have inv := begun.numbered isFresh.numbered
  induction sends with
  | start => exact nil_sublist _
  | @event sent conn next event before known taken ih =>
    have numbered := (before.frameRuns.between inv).numbered inv
    have grown : conn.sealedPackets <+: next.sealedPackets :=
      (acts_step numbered.bidi numbered.uni known taken).log_grows
    have quiet (none : conn.sentBy event = []) :
        (sent ++ conn.sentBy event).map Packet.sealed <+ next.sealedPackets := by
      rw [none, append_nil]
      exact ih.trans grown.sublist
    cases event with
    | pollTransmit now =>
      obtain ⟨⟨_, datagram⟩, polled, rfl⟩ := map_eq_some_iff.mp taken
      cases datagram with
      | none => exact quiet (by simp [sentBy, polled])
      | some packets =>
        have prepared : conn.sealedPackets <+: (conn.prepareTransmit now).sealedPackets :=
          (acts_prepareTransmit conn now).log_grows
        have returned : conn.sentBy (.pollTransmit now) = packets := by simp [sentBy, polled]
        rw [returned, map_append, log_pollTransmit polled]
        exact (ih.trans prepared.sublist).append_right _
    | _ => exact quiet rfl
  | frame before keyed permitted typed receiveGeneration now ih =>
    exact ih.trans
      (acts_processFrame keyed permitted typed receiveGeneration now).log_grows.sublist

/-! ## Played runs -/

/-- The packets that a list of events makes the connection return. -/
def sentDuring (conn : Connection T C) : List Event → List Packet
  | [] => []
  | event :: rest => conn.sentBy event ++ (conn.step event).elim [] fun next => next.sentDuring rest

theorem sends_of_play {events : List Event} {last : Connection T C}
    (before : Sends start sent conn) (played : conn.play events = some last) :
    Sends start (sent ++ conn.sentDuring events) last := by
  induction events generalizing conn sent with
  | nil =>
    cases played
    rw [sentDuring, append_nil]
    exact before
  | cons event _ ih =>
    unfold play at played
    split at played
    next known =>
      obtain ⟨_, taken, onward⟩ := bind_eq_some_iff.mp played
      have sends := ih (.event before known taken) onward
      rw [append_assoc] at sends
      rw [sentDuring, taken]
      exact sends
    · cases played

end Connection

end ParallaX.Quic
