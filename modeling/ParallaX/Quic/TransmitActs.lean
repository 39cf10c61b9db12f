import ParallaX.Quic.Acts

/-!
# Transmission as acts

Every datagram that a connection sends is a sequence of acts of its core.
-/

namespace ParallaX.Quic.Connection

open Quic.Core Option Streams

variable {T C : Type}

/-- What the dispatcher promises about the packet it picks before it idles. -/
def WorkReady (conn : Connection T C) : Work → Prop
  | .stream id =>
    ∀ stream, conn.streams[id]? = some stream → conn.streamCanSend id = true ∧ stream.reset = none
  | .zeroRttStream id =>
    (conn.spaces .data).keys = none ∧
      ∀ stream, conn.streams[id]? = some stream → conn.streamCanSend id = true ∧ stream.reset = none
  | .reset id => ∀ stream, conn.streams[id]? = some stream → stream.reset.isSome = true
  | .mtuProbe _ => False
  | _ => True

variable {conn alloc : Connection T C} {space : SpaceId} {pn : Nat}

/-- Work is picked only when it is ready. -/
theorem nextWork_ready {now : Nat} {work : Work}
    (picked : conn.nextWork now = some work) : conn.WorkReady work := by
  unfold nextWork at picked
  split at picked
  · cases picked
    exact trivial
  split at picked
  · split at picked
    · cases picked
      exact trivial
    split at picked
    · cases picked
      exact trivial
    split at picked
    next id owed =>
      cases picked
      intro stream found
      exact nextStreamToReset_reset owed found
    split at picked
    · obtain ⟨id, wants, rfl⟩ := map_eq_some_iff.mp picked
      intro stream found
      exact nextStreamToSend_sends wants found
    · cases picked
  next keyless =>
    split at picked
    · obtain ⟨_, wants, rfl⟩ := map_eq_some_iff.mp picked
      refine ⟨?_, ?_⟩
      · unfold hasDataKeys at keyless
        exact not_isSome_iff_eq_none.mp keyless
      · intro _ found
        exact nextStreamToSend_sends wants found
    · cases picked

/-! ## Sending keys -/

theorem core_enforceLimits (conn : Connection T C) :
    conn.enforceAeadConfidentialityLimit.enforceAeadIntegrityLimit.core = conn.core := by
  rw [core_enforceAeadIntegrityLimit, core_enforceAeadConfidentialityLimit]

theorem core_setLocalDataKey (conn : Connection T C) (key : PacketKey) :
    (conn.setLocalDataKey key).core = conn.core.setLocalDataKey key :=
  core_mapSpace rfl

section Keys

variable [TlsSession T]

/-- A newer generation brings its own key. -/
theorem acts_installSendKey {gen : Nat}
    (newer : conn.keyPhase.tx < gen) : Acts conn.core (conn.installSendKey gen).1.core := by
  unfold installSendKey
  cases cached : conn.nextPacketKeys with
  | none => exact .refl _
  | some next =>
    dsimp only
    split
    · exact .refl _
    rename_i matching
    obtain rfl : next.generation = gen := not_not.mp matching
    cases unused : next.localKey with
    | none => exact .refl _
    | some key =>
      dsimp only
      split
      next keyless => exact .single (.spendSend cached (isNone_iff_eq_none.mp keyless))
      next keyed =>
        have found : (conn.spaces .data).keys.isSome = true := by
          rw [← not_isNone, Bool.not_eq_true'] at *
          exact Bool.eq_false_iff.mpr keyed
        have installed := core_setLocalDataKey conn key
        have effect := congrArg
          (fun core : Core T =>
            { core with
              nextPacketKeys := some { next with localKey := none }
              keyPhase := conn.keyPhase.installTx next.generation
              dataPacketsSealed := 0
              nextUpdateAt := none }) installed
        exact (Acts.single (.installSend cached unused newer found)).trans (.of_eq effect)

theorem checkedSucc_gt
    {value next : Nat} (succeeds : checkedSucc value = some next) : next = value + 1 := by
  unfold checkedSucc at succeeds
  split at succeeds
  · exact (Option.some.inj succeeds).symm
  · cases succeeds

variable (conn : Connection T C) (now : Nat)

theorem acts_initiateKeyUpdate : Acts conn.core (conn.initiateKeyUpdate now).1.core := by
  unfold initiateKeyUpdate
  split
  · exact .refl _
  cases allowed : conn.keyPhase.activeSuccessor conn.handshakeConfirmed with
  | none => exact .refl _
  | some gen =>
    have newer : conn.keyPhase.tx < gen := by
      unfold KeyPhaseState.activeSuccessor at allowed
      split at allowed
      · rw [checkedSucc_gt allowed]
        exact Nat.lt_succ_self _
      · cases allowed
    have installed := acts_installSendKey newer
    dsimp only
    split
    next next failure outcome =>
      rw [outcome] at installed
      exact installed
    next next outcome =>
      rw [outcome] at installed
      exact installed

/-- A key is replaced at half of what it may seal. -/
theorem acts_maybeUpdateSendKey : Acts conn.core (conn.maybeUpdateSendKey now).core := by
  unfold maybeUpdateSendKey
  cases (conn.spaces .data).keys with
  | none => exact .refl _
  | some =>
    have updated := acts_initiateKeyUpdate conn now
    dsimp only
    split
    · split
      next next started outcome =>
        rw [outcome] at updated
        exact updated
      next next failure outcome =>
        rw [outcome] at updated
        exact updated
    · exact .refl _

theorem acts_prepareTransmit : Acts conn.core (conn.prepareTransmit now).core := by
  have rotated : Acts conn.core
      (if conn.closed.isNone then conn.maybeUpdateSendKey now
        else conn).core := by
    split
    · exact acts_maybeUpdateSendKey conn now
    · exact .refl _
  unfold prepareTransmit
  generalize (if conn.closed.isNone then conn.maybeUpdateSendKey now
    else conn) = next at rotated ⊢
  dsimp only
  split <;> exact rotated.trans (.of_eq next.core_enforceLimits)

/-- An idle connection probes for the path MTU, or sends a ping at most. -/
theorem nextIdleWork_cases :
    (∃ size, conn.mtuProbePn = none ∧ conn.handshakeConfirmed = true ∧
        conn.pmtud.nextProbeSize.2 = some size ∧
        conn.nextIdleWork =
          ({ conn with pmtud := conn.pmtud.nextProbeSize.1 }, some (.mtuProbe size))) ∨
      Acts conn.core conn.nextIdleWork.1.core ∧
        ∀ work, conn.nextIdleWork.2 = some work → work = .ping := by
  have pings work : (if conn.hasDataKeys ∧ conn.pingPending then some Work.ping
        else none) = some work → work = .ping := by
    intro picked
    split at picked
    · exact (Option.some.inj picked).symm
    · cases picked
  unfold nextIdleWork
  by_cases searching : conn.hasDataKeys = true ∧
      conn.handshakeConfirmed = true ∧ conn.mtuProbePn.isNone = true
  · rw [if_pos searching]
    obtain ⟨-, confirmed, idle⟩ := searching
    cases due : conn.pmtud.nextProbeSize.2 with
    | some size =>
      refine .inl ⟨size, isNone_iff_eq_none.mp idle, confirmed, rfl, ?_⟩
      dsimp only
      rw [due]
    | none =>
      refine .inr ?_
      dsimp only
      rw [due]
      exact ⟨.single (.searchEnds due confirmed), pings⟩
  · rw [if_neg searching]
    exact .inr ⟨.refl _, pings⟩

variable {conn}

theorem acts_mapStreams {change : Streams → Streams}
    (changed : Streams.Op conn.toStreams (change conn.toStreams)) :
    Acts conn.core (conn.mapStreams change).core :=
  .single (.streams changed)

end Keys

/-! ## Packets that are sent -/

theorem sealingKey_allocate (core : Core T) (space : SpaceId) :
    (core.allocate space).sealingKey space = core.sealingKey space := by
  unfold Core.sealingKey
  have same : ((core.allocate space).spaces space).keys = (core.spaces space).keys :=
    spaces_mapSpace_kept SpaceCore.keys rfl space
  rw [same]
  rfl

variable {key : PacketKey}

section

variable (given : conn.allocatePacketNumber space = some (alloc, pn))
include given

/-- Allocating a number leaves the key that the packet will be sealed under. -/
theorem maySeal (keyed : alloc.core.sealingKey space = some key) : conn.core.MaySeal space key := by
  obtain ⟨rfl, taken, bounded, budget⟩ := core_allocatePacketNumber given
  rw [taken, sealingKey_allocate] at keyed
  exact ⟨keyed, bounded, budget⟩

omit given in
theorem sealingKey_of_keys {keys : Keys} (found : (conn.spaces space).keys = some keys) :
    conn.core.sealingKey space = some keys.localKey := by
  have same : (conn.core.spaces space).keys = some keys := found
  unfold Core.sealingKey
  rw [same]

/-- What is not the number of the next packet survives its allocation. -/
theorem allocated_space :
    ∃ send, alloc = conn.modifySpace space fun sp => { sp with send := send } := by
  unfold allocatePacketNumber at given
  dsimp only at given
  split at given
  · cases given
  next number send taken =>
    cases given
    exact ⟨send, rfl⟩

theorem allocated_streams : alloc.toStreams = conn.toStreams := by
  obtain ⟨_, rfl⟩ := allocated_space given
  rfl

/-- A CRYPTO packet carries new bytes that fit it, or a range again. -/
theorem cryptoCut_of_slice {data : List UInt8}
    (sliced : alloc.cryptoSlice? space
      (alloc.cryptoRange space (conn.core.overhead space key)) = some data) :
    conn.core.CryptoCut space key (alloc.cryptoRange space (conn.core.overhead space key)) := by
  obtain ⟨send, rfl⟩ := allocated_space given
  have same : (conn.modifySpace space fun sp =>
      { sp with send := send }).spaces space = { conn.spaces space with send := send } := by
    rw [spaces_modifySpace, if_pos rfl]
  have bounds : ∀ range : CryptoRange,
      (conn.modifySpace space fun sp =>
        { sp with send := send }).cryptoSlice? space range = some data →
      range.offset ≤ range.finish ∧ range.finish ≤ (conn.spaces space).cryptoSend.length := by
    intro _ isSlice
    unfold cryptoSlice? at isSlice
    rw [same] at isSlice
    dsimp only at isSlice
    split at isSlice
    · assumption
    · cases isSlice
  have buffered := bounds _ sliced
  unfold cryptoRange at buffered ⊢
  rw [same] at buffered ⊢
  dsimp only at buffered ⊢
  cases queued : (conn.spaces space).retransmitCrypto with
  | cons head rest =>
    obtain ⟨offset, len⟩ := head
    rw [queued] at buffered
    refine ⟨fun _ => ⟨rest, ?_⟩, nofun, buffered⟩
    have cut : offset + len - offset = len := Nat.add_sub_cancel_left ..
    exact queued.trans (by rw [cut])
  | nil =>
    rw [queued] at buffered
    refine ⟨nofun, fun _ => ⟨rfl, ?_⟩, buffered⟩
    rw [Nat.add_sub_cancel_left]
    refine Nat.le_trans (Nat.min_le_right _ _) ?_
    have smaller (room limit : Nat) : max (if space = .initial ∧ conn.side = .client then
          min room limit else room) 1 ≤ max room 1 := by
      split
      · exact max_le_max_right 1 (Nat.min_le_left _ _)
      · exact le_rfl
    exact smaller _ _

end

section Builders

variable [Controller C]

/-- A number is allocated and its packet recorded: one act. -/
theorem core_emit {space : SpaceId} {pn : Nat}
    (given : conn.allocatePacketNumber space = some (alloc, pn))
    (size : Nat) (ackEliciting : Bool) (content : SentContent) (now : Nat) :
    (alloc.recordSent space pn size ackEliciting content now).core =
      conn.core.emit space ⟨now, size, ackEliciting, alloc.delivered⟩
        (if ackEliciting then some content else none) := by
  obtain ⟨rfl, taken, -, -⟩ := core_allocatePacketNumber given
  rw [core_recordSent, taken]
  rfl

theorem core_probe {pn : Nat}
    (given : conn.allocatePacketNumber .data = some (alloc, pn)) (size now : Nat) :
    ({ alloc.recordSent .data pn size true .empty now with
        mtuProbePn := some pn } : Connection T C).core =
      { conn.core.emit .data ⟨now, size, true, alloc.delivered⟩ (some .empty) with
        mtuProbePn := some (conn.core.nextPn .data) } := by
  have sent := core_emit given size true .empty now
  obtain ⟨rfl, -, -, -⟩ := core_allocatePacketNumber given
  exact congrArg
    (fun core : Core T =>
      { core with mtuProbePn := some (conn.core.nextPn .data) }) sent

/-- One packet is built for a piece of work. -/
theorem sendWork_built {next : Connection T C} {now : Nat}
    {datagram : Option (List Packet)} {work : Work}
    (sent : conn.sendWork now work = some (next, datagram)) :
    ∃ built packet, conn.buildWork now work = some (built, packet) ∧
      next = { built with probePending := built.probePending - 1 } ∧
      datagram = some [packet] := by
  obtain ⟨⟨built, packet⟩, done, same⟩ := bind_eq_some_iff.mp sent
  cases same
  exact ⟨built, packet, done, rfl, rfl⟩

end Builders

section Acts

variable [TlsSession T] [Controller C]

variable {conn next : Connection T C} {content : SentContent} {now : Nat} {packet : Packet}
  {space : SpaceId} {packets datagram : Option (List Packet)} {work : Work} {frames : List Frame}
  {id : Nat}

theorem acts_sealDataPacket (plain : content.stream = []) (dry : content.crypto = [])
    (resets : ∀ id ∈ content.reset,
      ∃ buffer, conn.toStreams.buffer id = some buffer ∧ buffer.reset.isSome = true)
    (built : conn.sealDataPacket frames true content now = some (next, packet)) :
    Acts conn.core next.core := by
  simp only [sealDataPacket, bind_eq_bind, bind_eq_some_iff] at built
  obtain ⟨⟨_, _⟩, given, _, found, same⟩ := built
  cases same
  rw [core_emit given]
  exact .single (.control _ content rfl plain dry resets (maySeal given (sealingKey_of_keys found)))

theorem acts_sealPlainDataPacket (plain : content.stream = []) (dry : content.crypto = [])
    (quiet : content.reset = [])
    (built : conn.sealDataPacket frames true content now = some (next, packet)) :
    Acts conn.core next.core := by
  apply acts_sealDataPacket plain dry ?_ built
  rw [quiet]
  exact nofun

theorem acts_buildAckPacket (built : conn.buildAckPacket space now = some (next, packet)) :
    Acts conn.core next.core := by
  simp only [buildAckPacket, bind_eq_bind, bind_eq_some_iff] at built
  obtain ⟨⟨_, _⟩, given, _, -, keys, found, same⟩ := built
  cases same
  obtain ⟨rfl, taken, -, -⟩ := core_allocatePacketNumber given
  have ready := maySeal given (sealingKey_of_keys found)
  have answered : (conn.core.noteAckSent space).MaySeal space
      keys.localKey := by
    unfold noteAckSent
    split
    · exact { ready with }
    · exact ready
  have commutes : (conn.core.allocate space).noteAckSent space =
      (conn.core.noteAckSent space).allocate space := by
    unfold noteAckSent
    split <;> rfl
  have sameNext : (conn.core.noteAckSent space).nextPn space = conn.core.nextPn space := by
    unfold noteAckSent
    split <;> rfl
  rw [core_recordSent, core_ackSent, taken, commutes, ← sameNext]
  exact (Acts.single (.answered conn.core space)).trans (.single (.bare _ rfl answered))

theorem acts_buildClosePacketInSpace {packet : Option Packet}
    (built : conn.buildClosePacketInSpace space now = some (next, packet)) :
    Acts conn.core next.core := by
  have limited := conn.core_enforceLimits
  unfold buildClosePacketInSpace at built
  dsimp only at built
  generalize conn.enforceAeadConfidentialityLimit.enforceAeadIntegrityLimit = ready at limited built
  split at built
  · cases built
    exact .of_eq limited
  split at built
  · cases built
    exact .of_eq limited
  · simp only [bind_eq_bind, bind_eq_some_iff] at built
    obtain ⟨⟨_, _⟩, given, _, found, same⟩ := built
    cases same
    rw [core_emit given, ← limited]
    exact .single (.bare _ rfl (maySeal given (sealingKey_of_keys found)))

/-- A close goes out in a packet of each of the spaces. -/
theorem acts_buildCloseBatch {spaces : List SpaceId}
    (built : conn.buildCloseBatch now spaces = some (next, packets)) :
    Acts conn.core next.core := by
  induction spaces generalizing conn next packets with
  | nil =>
    cases built
    exact .refl _
  | cons _ _ ih =>
    obtain ⟨⟨_, packet⟩, first, rest⟩ := bind_eq_some_iff.mp built
    have acts := acts_buildClosePacketInSpace first
    cases packet with
    | none =>
      cases rest
      exact acts
    | some =>
      obtain ⟨⟨_, _⟩, batch, same⟩ := bind_eq_some_iff.mp rest
      cases same
      exact acts.trans (ih batch)

theorem acts_buildClosePacket (built : conn.buildClosePacket now = some (next, packets)) :
    Acts conn.core next.core := by
  have limited := conn.core_enforceLimits
  unfold buildClosePacket at built
  dsimp only at built
  generalize conn.enforceAeadConfidentialityLimit.enforceAeadIntegrityLimit = ready at limited built
  rw [← limited]
  split at built
  · cases built
    exact .refl _
  split at built
  · cases built
    exact .refl _
  split at built
  · cases built
    exact .refl _
  split at built
  · cases built
    exact .refl _
  split at built
  · cases built
    exact .refl _
  · have batch := acts_buildCloseBatch built
    exact batch

theorem acts_buildMtuProbePacket {searching : Connection T C} {size : Nat}
    (idle : conn.mtuProbePn = none) (confirmed : conn.handshakeConfirmed = true)
    (due : conn.pmtud.nextProbeSize.2 = some size)
    (search : searching.core = { conn.core with pmtud := conn.core.pmtud.nextProbeSize.1 })
    (built : searching.buildMtuProbePacket size now = some (next, packet)) :
    Acts conn.core next.core := by
  simp only [buildMtuProbePacket, bind_eq_bind, bind_eq_some_iff] at built
  obtain ⟨⟨_, _⟩, given, _, found, same⟩ := built
  cases same
  have ready := maySeal given (sealingKey_of_keys found)
  rw [core_probe given, search]
  rw [search] at ready
  exact .single (.probe _ size rfl due idle confirmed { ready with })

theorem acts_buildCryptoPacket (built : conn.buildCryptoPacket space now = some (next, packet)) :
    Acts conn.core next.core := by
  simp only [buildCryptoPacket, bind_eq_bind, bind_eq_some_iff] at built
  obtain ⟨⟨alloc, _⟩, given, keys, found, _, sliced, same⟩ := built
  cases same
  have ready := maySeal given (sealingKey_of_keys found)
  obtain ⟨_, changed⟩ := allocated_space given
  obtain ⟨rfl, -, -, -⟩ := core_allocatePacketNumber given
  have header : (alloc.makeHeader space (conn.core.nextPn space)
      (encodePacketNumber (conn.core.nextPn space) none)) =
      conn.core.makeHeader space (conn.core.nextPn space)
        (encodePacketNumber (conn.core.nextPn space) none) := by
    rw [changed]
    rfl
  have overhead :
      (alloc.makeHeader space (conn.core.nextPn space)
        (encodePacketNumber (conn.core.nextPn space) none)).pnOffset +
      (alloc.makeHeader space (conn.core.nextPn space)
        (encodePacketNumber (conn.core.nextPn space) none)).pnLen +
      keys.localKey.tagLen = conn.core.overhead space keys.localKey := by
    rw [header]
    rfl
  rw [overhead] at sliced ⊢
  have cut := cryptoCut_of_slice given sliced
  generalize alloc.cryptoRange space (conn.core.overhead space keys.localKey) = range at cut ⊢
  rw [core_cryptoSent, core_emit given]
  exact .single (.crypto _ range rfl cut ready)

theorem acts_buildFlowUpdatePacket (built : conn.buildFlowUpdatePacket now = some (next, packet)) :
    Acts conn.core next.core := by
  obtain ⟨⟨_, _⟩, sent, same⟩ := bind_eq_some_iff.mp built
  cases same
  exact (acts_sealPlainDataPacket rfl rfl rfl sent).trans (acts_mapStreams (.flowUpdateSent _))

theorem acts_buildResetPacket
    (resets : ∀ stream, conn.streams[id]? = some stream → stream.reset.isSome = true)
    (built : conn.buildResetPacket id now = some (next, packet)) : Acts conn.core next.core := by
  obtain ⟨stream, found, sent⟩ := bind_eq_some_iff.mp built
  refine (acts_mapStreams (.markResetSent conn.toStreams id)).trans
    (acts_sealDataPacket rfl rfl ?_ sent)
  intro other member
  obtain rfl : other = id := List.mem_singleton.mp member
  refine ⟨stream.toSendBuffer, ?_, resets stream found⟩
  have unchanged : (conn.toStreams.markResetSent other).sending = conn.toStreams.sending :=
    sending_modifyStream fun _ => rfl
  have buffers := congrArg (fun view => view.buffer other) unchanged
  exact buffers.trans (buffer_of_lookup found)

/-- A stream that can send puts its next chunk in a packet. -/
theorem acts_buildStreamPacket (sends : ∀ stream, conn.streams[id]? = some stream →
      conn.streamCanSend id = true ∧ stream.reset = none)
    (built : conn.buildStreamPacket id now = some (next, packet)) : Acts conn.core next.core := by
  simp only [buildStreamPacket, bind_eq_bind, bind_eq_some_iff] at built
  obtain ⟨⟨_, _⟩, given, _, keyed, stream, found, _, -, same⟩ := built
  cases same
  have ready := maySeal given (sealingKey_of_keys keyed)
  have table := allocated_streams given
  rw [core_mapStreams, core_emit given]
  rw [table] at found ⊢
  obtain ⟨allowed, sends⟩ := sends stream found
  exact .single (.stream _ id _ stream rfl found allowed sends ready)

theorem acts_buildZeroRttStreamPacket (early : (conn.spaces .data).keys = none)
    (sends : ∀ stream, conn.streams[id]? = some stream →
      conn.streamCanSend id = true ∧ stream.reset = none)
    (built : conn.buildZeroRttStreamPacket id now = some (next, packet)) :
    Acts conn.core next.core := by
  simp only [buildZeroRttStreamPacket, bind_eq_bind, bind_eq_some_iff] at built
  obtain ⟨⟨alloc, _⟩, given, keys, keyed, stream, found, data, -, same⟩ := built
  cases same
  have sealing : alloc.core.sealingKey .data = some keys.localKey := by
    obtain ⟨send, rfl⟩ := allocated_space given
    have none : ((conn.modifySpace .data fun sp =>
        { sp with send := send }).core.spaces .data).keys = none := by
      exact early
    unfold Core.sealingKey
    rw [none]
    have same : (conn.modifySpace .data fun sp =>
      { sp with send := send }).core.zeroRttKeys = some keys := keyed
    rw [same]
    rfl
  have ready := maySeal given sealing
  have table := allocated_streams given
  rw [core_mapStreams, core_emit given]
  rw [table] at found ⊢
  obtain ⟨allowed, sends⟩ := sends stream found
  exact .single (.zeroRttStream _ id _ stream rfl early found allowed sends ready)

/-! ## The dispatcher -/

theorem acts_buildWork (ready : conn.WorkReady work)
    (built : conn.buildWork now work = some (next, packet)) : Acts conn.core next.core := by
  cases work with
  | crypto => exact acts_buildCryptoPacket built
  | zeroRttStream => exact acts_buildZeroRttStreamPacket ready.1 ready.2 built
  | handshakeDone => exact (acts_sealPlainDataPacket rfl rfl rfl built :)
  | flowUpdate => exact acts_buildFlowUpdatePacket built
  | reset => exact acts_buildResetPacket ready built
  | stream => exact acts_buildStreamPacket ready built
  | mtuProbe => exact ready.elim
  | ping => exact (acts_sealPlainDataPacket rfl rfl rfl built :)

theorem acts_sendWork (ready : conn.WorkReady work)
    (sent : conn.sendWork now work = some (next, datagram)) : Acts conn.core next.core := by
  obtain ⟨_, _, done, rfl, -⟩ := sendWork_built sent
  have acts := acts_buildWork ready done
  exact acts

theorem acts_sendIdleWork {idle : Connection T C} (picked : conn.nextIdleWork = (idle, some work))
    (sent : idle.sendWork now work = some (next, datagram)) : Acts conn.core next.core := by
  rcases conn.nextIdleWork_cases with
    ⟨size, unaimed, confirmed, due, probes⟩ | ⟨searched, pings⟩
  · rw [probes] at picked
    obtain ⟨rfl, rfl⟩ : _ ∧ .mtuProbe size = work := by simpa using picked
    obtain ⟨_, _, done, rfl, -⟩ := sendWork_built sent
    have acts := acts_buildMtuProbePacket unaimed confirmed due rfl done
    exact acts
  · rw [picked] at searched pings
    obtain rfl := pings work rfl
    have ready : idle.WorkReady .ping := trivial
    exact searched.trans (acts_sendWork ready sent)

theorem acts_pollClosed (polled : conn.pollClosed now = some (next, datagram)) :
    Acts conn.core next.core := by
  unfold pollClosed at polled
  dsimp only at polled
  split at polled
  · have acts := acts_buildClosePacket polled
    exact acts
  · cases polled
    exact .refl _

theorem acts_sendAck (sent : conn.sendAck space now = some (next, datagram)) :
    Acts conn.core next.core := by
  obtain ⟨⟨built, _⟩, done, same⟩ := bind_eq_some_iff.mp sent
  cases same
  have acts := acts_buildAckPacket done
  split
  · have discarded := core_discardSpace
      { built with discardInitialAfterAck := false } .initial
    rw [discarded]
    exact acts.trans (.single (.discard nofun nofun))
  · exact acts

theorem acts_pollTransmitInner (polled : conn.pollTransmitInner now = some (next, datagram)) :
    Acts conn.core next.core := by
  have prepared := acts_prepareTransmit conn now
  unfold pollTransmitInner at polled
  dsimp only at polled
  generalize conn.prepareTransmit now = ready at prepared polled
  refine prepared.trans ?_
  split at polled
  · exact acts_pollClosed polled
  split at polled
  · cases polled
    exact .refl _
  split at polled
  · exact acts_sendAck polled
  split at polled
  · cases polled
    exact .refl _
  split at polled
  next work picked => exact acts_sendWork (nextWork_ready picked) polled
  split at polled
  next idle work outcome => exact acts_sendIdleWork outcome polled
  next idle outcome =>
    cases polled
    rcases ready.nextIdleWork_cases with
      ⟨_, -, -, -, probes⟩ | ⟨searched, -⟩
    · rw [outcome] at probes
      cases probes
    · rw [outcome] at searched
      exact searched

/-- Every datagram that is sent is made in acts. -/
theorem acts_pollTransmit (polled : conn.pollTransmit now = some (next, datagram)) :
    Acts conn.core next.core := by
  obtain ⟨⟨_, packets⟩, done, same⟩ := bind_eq_some_iff.mp polled
  have acts := acts_pollTransmitInner done
  cases packets with
  | none =>
    cases same
    exact acts
  | some =>
    dsimp only at same
    split at same
    · cases same
      exact acts
    next unvalidated =>
      cases same
      exact acts.trans (.single (.charge _ (Bool.eq_false_iff.mpr unvalidated)))

end Acts

end ParallaX.Quic.Connection
