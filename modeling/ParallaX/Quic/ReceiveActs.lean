import ParallaX.Quic.FrameTypes
import ParallaX.Quic.TransmitActs

/-!
# Received datagrams and timers as acts

Every datagram that a connection receives, every timer that elapses and every
call of its application is a sequence of acts of its core.
-/

namespace ParallaX.Quic.Connection

open Quic.Core Option Streams

variable {T C : Type} [TlsSession T]

/-- What the operations do to the table, a connection does in steps. -/
theorem acts_table (core : Core T) {first second : Streams}
    (operations : Streams.Ops first second) :
    Acts { core with toStreams := first } { core with toStreams := second } := by
  induction operations with
  | refl => exact .refl _
  | tail _ operation ih => exact ih.trans (.single (.streams operation))

theorem acts_ops {conn : Connection T C} {change : Streams → Streams}
    (operations : Streams.Ops conn.toStreams (change conn.toStreams)) :
    Acts conn.core (conn.mapStreams change).core :=
  acts_table conn.core operations

theorem acts_onStreams {conn : Connection T C}
    {operation : Streams → Streams × Except QuicTlsError Unit}
    (operations : Streams.Ops conn.toStreams (operation conn.toStreams).1) :
    Acts conn.core (conn.onStreams operation).1.core :=
  acts_table conn.core operations

theorem acts_foldl {α : Type} {change : Connection T C → α → Connection T C}
    (acts : ∀ conn entry, Acts conn.core (change conn entry).core)
    (entries : List α) (conn : Connection T C) :
    Acts conn.core (entries.foldl change conn).core := by
  induction entries generalizing conn with
  | nil => exact .refl _
  | cons entry _ ih => exact (acts conn entry).trans (ih _)

variable {level : PacketSpace} {opened : Opened}
  {pendingInitial : Option (ConnectionId × Keys)} (conn : Connection T C)
  (space : SpaceId) (now : Nat)

/-! ## Key generations -/

theorem acts_retirePreviousReadKey : Acts conn.core (conn.retirePreviousReadKey now).core := by
  unfold retirePreviousReadKey
  split
  · exact .single (.retirePrevious conn.core)
  · exact .refl _

/-- The next generation is derived once, in both directions. -/
theorem acts_cacheNextPacketKeys : Acts conn.core conn.cacheNextPacketKeys.1.core := by
  unfold cacheNextPacketKeys
  split
  · exact .refl _
  rename_i spent
  split
  · exact .refl _
  rename_i gen next
  split
  next tls failure failed =>
    have act : Act conn.core { conn.core with tls := tls } := .cacheFails failed
    exact .single act
  next tls localKey remoteKey derived =>
    have act : Act conn.core
        { conn.core with
          tls := tls
          nextPacketKeys :=
            some ⟨gen, some localKey, some remoteKey⟩ } :=
      .cacheNext (Bool.eq_false_iff.mpr spent) next derived
    exact .single act

theorem acts_answerUpdate : Acts conn.core conn.answerUpdate.1.core := by
  unfold answerUpdate
  split
  next behind => exact acts_installSendKey behind
  · exact .refl _

/-- The old read key is kept for packets that were reordered. -/
theorem acts_switchReadKey {conn : Connection T C} {next : NextPacketKeys} {keys : Keys}
    {key : PacketKey} (cached : conn.nextPacketKeys = some next)
    (unused : next.remoteKey = some key) (keyed : (conn.spaces .data).keys = some keys) :
    Acts conn.core (conn.switchReadKey next keys key now).core := by
  have switched : (conn.setRemoteDataKey key).core = conn.core.setRemoteDataKey key :=
    core_mapSpace rfl
  have effect := congrArg
    (fun core : Core T =>
      { core with
        nextPacketKeys := some { next with remoteKey := none }
        previousReadKey :=
          some ⟨keys.remoteKey, now + conn.drainDuration⟩ }) switched
  exact (Acts.single (.switchRead (now + conn.drainDuration) cached unused
    keyed)).trans (.of_eq effect)

/-- A packet of the next generation switches the read key, and answers the peer's
update. -/
theorem acts_adoptNextGeneration : Acts conn.core (conn.adoptNextGeneration now).1.core := by
  unfold adoptNextGeneration
  split
  next next keys cached keyed =>
    split
    · exact .refl _
    rename_i key unused
    have switched := acts_switchReadKey now cached unused keyed
    have answered := acts_answerUpdate (conn.switchReadKey next keys key now)
    split
    next installed failure outcome =>
      rw [outcome] at answered
      exact switched.trans answered
    next installed outcome =>
      rw [outcome] at answered
      have refilled := acts_cacheNextPacketKeys installed
      split
      next cachedConn failure result =>
        rw [result] at refilled
        exact (switched.trans answered).trans refilled
      next cachedConn result =>
        rw [result] at refilled
        exact (switched.trans answered).trans refilled
  · exact .refl _

/-- Only a packet that was opened commits its generation. -/
theorem acts_commitDataGeneration (gen : ReadGeneration) (pn now : Nat) :
    Acts conn.core (conn.commitDataGeneration gen pn now).1.core := by
  unfold commitDataGeneration
  split
  · exact .refl _
  rename_i keyPhase committed
  have act : Act conn.core { conn.core with keyPhase := keyPhase } := .commit committed
  split
  · exact (Acts.single act).trans (acts_adoptNextGeneration { conn with keyPhase := keyPhase } now)
  · exact .single act

theorem acts_commitGeneration (gen : Option ReadGeneration) (pn now : Nat) :
    Acts conn.core (conn.commitGeneration gen pn now).1.core := by
  unfold commitGeneration
  cases gen with
  | none => exact .refl _
  | some gen =>
    have committed := acts_commitDataGeneration conn gen pn now
    dsimp only
    split
    next failed failure outcome =>
      rw [outcome] at committed
      exact committed
    next next outcome =>
      rw [outcome] at committed
      exact committed

theorem acts_noteOpenFailed (level : PacketSpace) :
    Acts conn.core (conn.noteOpenFailed level).core := by
  unfold noteOpenFailed
  split
  · rw [core_enforceAeadIntegrityLimit]
    exact .single (.openFailed conn.core _)
  · exact .refl _

/-! ## The TLS engine -/

omit [TlsSession T] in
theorem core_appendCrypto (bytes : List UInt8) :
    (conn.appendCrypto bytes).core = conn.core.appendCrypto bytes :=
  core_mapSpace rfl

omit [TlsSession T] in
theorem core_installHandshakeKeys (keys : Keys) :
    (conn.installHandshakeKeys keys).core = conn.core.installKeys (some (.handshake keys)) := by
  have keyed : (conn.modifySpace .handshake fun sp =>
      { sp with keys := some keys }).core =
        conn.core.mapSpace .handshake fun sp => { sp with keys := some keys } :=
    core_mapSpace rfl
  exact congrArg (fun core : Core T => { core with writeLevel := .handshake }) keyed

omit [TlsSession T] in
theorem core_installDataKeys (keys : Keys) :
    (conn.installDataKeys keys).core = conn.core.installKeys (some (.oneRtt keys)) := by
  have keyed : (conn.modifySpace .data fun sp =>
      { sp with keys := some keys }).core =
        conn.core.mapSpace .data fun sp => { sp with keys := some keys } :=
    core_mapSpace rfl
  exact congrArg
    (fun core : Core T =>
      { core with
        writeLevel := .data
        zeroRttKeys :=
          if conn.side = Side.client then none else conn.zeroRttKeys }) keyed

theorem core_writeRound (change : Option KeyChange)
    (handed : (TlsSession.writeHandshake conn.tls).2.2 = change) :
    conn.core.writeRound =
      ({ conn with tls := (TlsSession.writeHandshake conn.tls).1 }.appendCrypto
        (TlsSession.writeHandshake conn.tls).2.1).core.installKeys change := by
  rw [core_appendCrypto, ← handed]
  rfl

/-- Each round hands over bytes, and at most one set of keys. -/
theorem acts_pumpWriteLoop (rounds : Nat) (conn : Connection T C) :
    Acts conn.core (pumpWriteLoop rounds conn).core := by
  induction rounds generalizing conn with
  | zero => exact Acts.refl _
  | succ _ ih =>
    have wrote := Acts.single (Act.write conn.core)
    have round := core_writeRound conn
    rw [pumpWriteLoop]
    generalize { conn with tls := (TlsSession.writeHandshake conn.tls).1 }.appendCrypto
        (TlsSession.writeHandshake conn.tls).2.1 = written at round ⊢
    split
    next keys handed =>
      rw [round _ handed] at wrote
      exact wrote.trans (ih { written with zeroRttKeys := some keys })
    next keys handed =>
      rw [round _ handed, ← core_installHandshakeKeys] at wrote
      exact wrote.trans (ih _)
    next keys handed =>
      rw [round _ handed, ← core_installDataKeys] at wrote
      have cached := acts_cacheNextPacketKeys (written.installDataKeys keys)
      split
      next next failure outcome =>
        rw [outcome] at cached
        exact wrote.trans cached
      next next outcome =>
        rw [outcome] at cached
        exact (wrote.trans cached).trans (ih next)
    next handed =>
      rw [round _ handed] at wrote
      split
      · exact wrote
      · exact wrote.trans (ih written)

theorem acts_pumpWrite : Acts conn.core conn.pumpWrite.core := acts_pumpWriteLoop _ conn

/-- Bytes in order reach the TLS session, which may then write. -/
theorem acts_recvCrypto (offset : Nat) (data : List UInt8) :
    Acts conn.core (conn.recvCrypto space offset data).1.core := by
  unfold recvCrypto
  split
  · exact .refl _
  unfold reassembleCrypto
  by_cases ahead : (conn.spaces space).cryptoRecvOff < offset
  · rw [if_pos ahead]
    by_cases exceeded :
        MAX_CRYPTO_REASSEMBLY < offset - (conn.spaces space).cryptoRecvOff ∨
          MAX_CRYPTO_REASSEMBLY < bufferedBytes (conn.spaces space).cryptoPending + data.length ∨
          MAX_CRYPTO_PENDING_FRAGMENTS ≤ (conn.spaces space).cryptoPending.length
    · rw [if_pos exceeded]
      exact .of_eq (core_modifySpace _ rfl)
    · rw [if_neg exceeded]
      rw [not_or, not_or] at exceeded
      obtain ⟨-, room, few⟩ := exceeded
      have held : (conn.modifySpace space fun _ =>
          { conn.spaces space with
            cryptoPending :=
              (conn.spaces space).cryptoPending ++ [(offset, data)] }).core =
          conn.core.holdCrypto space offset data :=
        core_mapSpace rfl
      exact (Acts.single (.holdCrypto ahead (Nat.le_of_not_lt room)
        (Nat.lt_of_not_le few))).trans (.of_eq held)
  · rw [if_neg ahead]
    have fed : Acts conn.core
        ((conn.core.absorbCrypto space
          (conn.core.cryptoDrain space offset data)).feedTls
            (conn.core.cryptoDrain space offset data).sink) :=
      .single (.drainCrypto (Nat.le_of_not_lt ahead))
    have absorbed : (conn.modifySpace space fun _ =>
        { conn.spaces space with
          cryptoPending := (conn.core.cryptoDrain space offset data).pending
          cryptoRecvOff :=
            (conn.core.cryptoDrain space offset data).recvOff }).core =
        conn.core.absorbCrypto space (conn.core.cryptoDrain space offset data) :=
      core_mapSpace rfl
    rw [← absorbed] at fed
    dsimp only
    split
    next failure impossible => cases impossible
    next nothing =>
      have sink : (conn.core.cryptoDrain space offset data).sink = [] := Except.ok.inj nothing
      rw [sink] at fed
      exact fed
    next byte bytes some_ =>
      have sink : (conn.core.cryptoDrain space offset data).sink = byte :: bytes :=
        Except.ok.inj some_
      rw [sink] at fed
      exact fed

/-! ## Acknowledgements -/

theorem acts_confirmRanges (core : Core T) (gen : Nat) (ranges : List (Nat × Nat))
    (keyPhase : KeyPhaseState) : Acts { core with keyPhase := keyPhase }
      { core with keyPhase := (confirmRanges keyPhase gen ranges).1 } := by
  induction ranges generalizing keyPhase with
  | nil => exact .refl _
  | cons range _ ih =>
    obtain ⟨low, high⟩ := range
    rw [confirmRanges]
    split
    · exact .refl _
    · have confirmed : Acts { core with keyPhase := keyPhase }
          { core with keyPhase := (keyPhase.confirm gen low high).1 } :=
        .single (.confirmAcked _ gen low high)
      exact confirmed.trans (ih _)

/-- An acknowledgement confirms the generations that its ranges were sealed under. -/
theorem acts_checkAckKeys (ack : Ack) (receiveGeneration : Option Nat) (now : Nat) :
    Acts conn.core (conn.checkAckKeys ack receiveGeneration now).1.core := by
  unfold checkAckKeys
  cases receiveGeneration with
  | none => exact .refl _
  | some gen =>
    have confirmed := acts_confirmRanges conn.core gen ack.ranges conn.keyPhase
    dsimp only
    unfold confirmKeys
    split
    next keyPhase failure outcome =>
      rw [outcome] at confirmed
      exact confirmed
    next keyPhase outcome =>
      rw [outcome] at confirmed
      split
      · exact confirmed.trans (.single (.holdUpdate _ _))
      · exact confirmed

omit [TlsSession T] in
/-- The key phase is all that the check touches. -/
theorem spaces_checkAckKeys (ack : Ack) (receiveGeneration : Option Nat) (now : Nat) :
    (conn.checkAckKeys ack receiveGeneration now).1.spaces = conn.spaces := by
  unfold checkAckKeys confirmKeys
  cases receiveGeneration with
  | none => rfl
  | some =>
    dsimp only
    split
    · rfl
    · split <;> rfl

section Controlled

variable [Controller C]

variable {conn}

theorem acts_settleAcked (ack : Ack)
    (newly : List (Nat × SentPacket)) (now : Nat) {first : Core T}
    (acked : Acts first
      (((newly.map Prod.fst).foldl (fun core pn => core.ackOne space pn)
        conn.core).noteProbe space (newly.map Prod.fst))) :
    Acts first (conn.settleAcked space ack newly now).core := by
  refine .trans ?_ (acts_foldl (fun _ id =>
    acts_ops ((Streams.Ops.single (.compactSendBuffer _ id)).then (.retireStream _ id))) _ _)
  have removed : (((newly.map Prod.fst).foldl (fun conn pn => Connection.ackOne conn space pn)
      { conn with ptoCount := 0 }).noteProbe space (newly.map Prod.fst)).core =
      ((newly.map Prod.fst).foldl (fun core pn => core.ackOne space pn)
        conn.core).noteProbe space (newly.map Prod.fst) := by
    rw [core_noteProbe, core_foldl_ackOne]
    rfl
  rw [← removed] at acked
  generalize (((newly.map Prod.fst).foldl (fun conn pn => Connection.ackOne conn space pn)
    { conn with ptoCount := 0 }).noteProbe space (newly.map Prod.fst)) = probed at acked ⊢
  have fed : ((probed.sampleRtt space ack newly now).feedController ack newly
      now).core = probed.core := by
    rw [core_feedController, core_sampleRtt]
  generalize (probed.sampleRtt space ack newly now).feedController ack newly now = sampled at fed ⊢
  have detected := core_detectSpaceLosses sampled space sampled.rtt.lossDelay now
  rw [core_reactToEcn, core_congestionEvent, detected, fed]
  exact acked.trans (.single (.losses _ space _ now))

variable {space}

/-- An acknowledgement confirms keys, takes packets out of flight and finds losses. -/
theorem acts_recvAck (keyed : space = .data → (conn.spaces .data).keys.isSome = true)
    (ack : Ack) (receiveGeneration : Option Nat) (now : Nat) :
    Acts conn.core (conn.recvAck space ack receiveGeneration now).1.core := by
  unfold recvAck
  split
  · exact .refl _
  rename_i sent
  have checked := acts_checkAckKeys conn ack receiveGeneration now
  have spaces := spaces_checkAckKeys conn ack receiveGeneration now
  split
  next confirmed failure outcome =>
    rw [outcome] at checked
    exact checked
  next confirmed outcome =>
    rw [outcome] at checked spaces
    have known : ack.largest < confirmed.core.nextPn space := by
      have same : confirmed.core.nextPn space = (conn.spaces space).send.next :=
        congrArg (fun spaces => (spaces space).send.next) spaces
      rw [same]
      exact Nat.lt_of_not_le sent
    have ready : space = .data → (confirmed.core.spaces .data).keys.isSome = true := by
      intro data
      have same : (confirmed.core.spaces .data).keys = (conn.spaces .data).keys :=
        congrArg (fun spaces => (spaces .data).keys) spaces
      rw [same]
      exact keyed data
    have acked := checked.trans (.single (.acks space ack.largest ack.ranges known ready))
    have same : (confirmed.core.spaces space).sent = (confirmed.spaces space).sent := rfl
    have removed : (confirmed.modifySpace space fun sp =>
        { sp with sent := ((confirmed.spaces space).sent.onAck ack.largest ack.ranges).1 }).core =
        confirmed.core.withSent space
          ((confirmed.spaces space).sent.onAck ack.largest ack.ranges).1 :=
      core_mapSpace rfl
    unfold Core.ackPackets at acked
    dsimp only at acked ⊢
    rw [same, ← removed] at acked
    by_cases none : ((confirmed.spaces space).sent.onAck ack.largest ack.ranges).2.isEmpty = true
    · rw [if_pos none] at acked ⊢
      exact acked
    · rw [if_neg none] at acked ⊢
      exact acts_settleAcked space ack _ now acked

/-! ## Timers -/

omit [TlsSession T] [Controller C] in
/-- A probe carries the oldest content, and 1-RTT content only when confirmed. -/
theorem probeVictim_cases {pn : Nat}
    {content : SentContent} (victim : conn.probeVictim = some (space, pn, content)) :
    (conn.spaces space).sentContent.toList.head? = some (pn, content) ∧
      (space = .data → conn.handshakeConfirmed = true) := by
  obtain ⟨tried, -, picked⟩ := List.exists_of_findSome?_eq_some victim
  split at picked
  next eligible =>
    obtain ⟨⟨oldest, carried⟩, isHead, same⟩ := map_eq_some_iff.mp picked
    obtain ⟨rfl, rfl, rfl⟩ : tried = space ∧ oldest = pn ∧ carried = content := by simpa using same
    refine ⟨isHead, ?_⟩
    rintro rfl
    simpa [ptoSpaceEligible] using eligible.1
  · cases picked

variable (conn : Connection T C)

theorem acts_queueProbe : Acts conn.core conn.queueProbe.core := by
  cases victim : conn.probeVictim with
  | none =>
    unfold queueProbe
    rw [victim]
    exact .refl _
  | some chosen =>
    obtain ⟨oldest, eligible⟩ := probeVictim_cases victim
    exact (Acts.single (.probeTimeout oldest eligible)).trans (.of_eq (core_queueProbe victim))

omit [Controller C] in
theorem acts_detectTimedLosses (lossDelay now : Nat) (spaces : List SpaceId) :
    Acts conn.core (conn.detectTimedLosses lossDelay now spaces).1.core := by
  induction spaces generalizing conn with
  | nil => exact .refl _
  | cons space _ ih =>
    rw [detectTimedLosses]
    split
    · have detected := (Acts.single
        (.losses conn.core space lossDelay now)).trans
          (.of_eq (core_detectSpaceLosses conn space lossDelay now))
      exact detected.trans (ih _)
    · exact ih conn

theorem acts_probeOnTimeout (now : Nat) : Acts conn.core (conn.probeOnTimeout now).core := by
  unfold probeOnTimeout
  split
  · exact acts_queueProbe
      { conn with ptoCount := min (conn.ptoCount + 1) MAX_PTO_BACKOFF }
  · exact .refl _

/-- Losses, then probes; the keep-alive is none of the acts. -/
theorem acts_handleTimeout (now interval : Nat) :
    Acts conn.core (conn.handleTimeout now interval).core := by
  have retired := acts_retirePreviousReadKey conn now
  unfold handleTimeout
  dsimp only
  generalize conn.retirePreviousReadKey now = ready at retired ⊢
  split
  · exact retired
  split
  · exact retired
  have detected := acts_detectTimedLosses ready ready.rtt.lossDelay now SpaceId.all
  generalize ready.detectTimedLosses ready.rtt.lossDelay now SpaceId.all = losses at detected ⊢
  rw [core_keepaliveOnTimeout]
  have signalled := detected.trans (.of_eq (core_congestionEvent losses.1 losses.2 now))
  refine retired.trans ?_
  split
  · exact signalled
  · exact signalled.trans (acts_probeOnTimeout _ now)

end Controlled

/-! ## Frames -/

theorem acts_recvStopSending (id code ty : Nat) :
    Acts conn.core (conn.recvStopSending id code ty).1.core := by
  unfold recvStopSending
  split
  · exact .refl _
  split
  · exact .refl _
  rename_i notRetired
  split
  · exact .refl _
  have alive := Bool.eq_false_iff.mpr notRetired
  apply acts_onStreams
  have ensured := Streams.Op.ensureStream conn.toStreams id ty alive
  split
  next table failure outcome =>
    rw [outcome] at ensured
    exact .single ensured
  next table outcome =>
    rw [outcome] at ensured
    have known := known_ensureStream alive outcome
    exact Relation.ReflTransGen.trans (.single ensured)
      (ops_resetStream _ _ known)

theorem acts_recvMaxStreamsFrame (dir : Dir) (limit : Nat) :
    Acts conn.core (conn.recvMaxStreamsFrame dir limit).1.core := by
  unfold recvMaxStreamsFrame
  split
  · exact .refl _
  · exact acts_mapStreams (.raiseMaxStreams _ dir limit)

variable {conn}

theorem acts_confirmed (keyed : (conn.spaces .data).keys.isSome = true) (pending : Bool) :
    Acts conn.core
      ({ conn with
        handshakeDonePending := pending
        handshakeConfirmed := true }.discardSpace .handshake).core := by
  have confirmed : Act conn.core
      { conn.core with handshakeConfirmed := true } :=
    .confirmHandshake keyed
  rw [core_discardSpace]
  exact (Acts.single confirmed).trans (.single (.discard nofun fun _ => keyed))

/-- A confirmed client discards its handshake keys. -/
theorem acts_recvHandshakeDone (keyed : (conn.spaces .data).keys.isSome = true) :
    Acts conn.core conn.recvHandshakeDone.core := by
  unfold recvHandshakeDone
  split
  · exact acts_confirmed keyed conn.handshakeDonePending
  · exact .refl _

/-- Frames that need 1-RTT keys are permitted in 1-RTT packets only. -/
theorem framePermitted_keyed {side : Side} {ty : Nat} {frame : Frame}
    (permitted : framePermitted level side ty = true) (typed : frame.HasType ty) :
    ((∃ ack, frame = .ack ack) → spaceIndex level = .data → level = .oneRtt) ∧
      (frame = .handshakeDone → level = .oneRtt) := by
  constructor
  · rintro ⟨_, rfl⟩ data
    cases level with
    | initial => cases data
    | handshake => cases data
    | oneRtt => rfl
    | zeroRtt => rcases typed with rfl | rfl <;> simp [framePermitted] at permitted
  · rintro rfl
    obtain rfl : ty = 0x1e := typed
    cases level <;> simp [framePermitted] at permitted ⊢

variable [Controller C]

theorem acts_processFrame {side : Side}
    {ty : Nat} {frame : Frame}
    (keyed : level = .oneRtt → (conn.spaces .data).keys.isSome = true)
    (permitted : framePermitted level side ty = true) (typed : frame.HasType ty)
    (receiveGeneration : Option Nat) (now : Nat) :
    Acts conn.core
      (conn.processFrame ⟨spaceIndex level, receiveGeneration, now⟩ ty frame).1.core := by
  obtain ⟨acksKeyed, doneKeyed⟩ := framePermitted_keyed permitted typed
  cases frame with
  | crypto offset data => exact acts_recvCrypto conn _ offset data
  | stream id offset fin data =>
    have stored : Acts conn.core (conn.onStreams (·.recvStream id offset fin data)).1.core :=
      acts_onStreams (.single (.recvStream _ id offset fin data))
    exact stored
  | resetStream id code size => exact acts_onStreams (.single (.recvResetStream _ id code size))
  | stopSending id code => exact acts_recvStopSending conn id code ty
  | maxData limit => exact acts_mapStreams (.raiseMaxData _ limit)
  | maxStreamData id limit => exact acts_mapStreams (.raiseMaxStreamData _ id limit)
  | maxStreams dir limit => exact acts_recvMaxStreamsFrame conn dir limit
  | ack ack => exact acts_recvAck (fun data => keyed (acksKeyed ⟨ack, rfl⟩ data)) ack _ now
  | handshakeDone => exact acts_recvHandshakeDone (keyed (doneKeyed rfl))
  | close close => exact .of_eq (core_recvClose conn close now)
  | _ => exact .refl _

/-- Frames act in the order in which they stand, up to one that fails. -/
theorem acts_processFrames (keyed : level = .oneRtt → (conn.spaces .data).keys.isSome = true)
    (receiveGeneration : Option Nat) (now : Nat)
    {frames : List (Nat × Except FrameError Frame)}
    (typed : ∀ ty frame, (ty, .ok frame) ∈ frames → frame.HasType ty) (ackEliciting : Bool) :
    Acts conn.core
      (conn.processFrames ⟨spaceIndex level, receiveGeneration, now⟩ level
        frames ackEliciting).1.core := by
  induction frames generalizing conn ackEliciting with
  | nil => exact .refl _
  | cons entry _ ih =>
    obtain ⟨ty, decoded⟩ := entry
    cases decoded with
    | error => exact .refl _
    | ok frame =>
      rw [processFrames]
      split
      · exact .of_eq (core_closeTransport conn ..)
      rename_i allowed
      have permitted : framePermitted level conn.side ty = true := by simpa using allowed
      have applied := acts_processFrame keyed permitted
        (typed ty frame List.mem_cons_self) receiveGeneration now
      split
      next failed failure outcome =>
        rw [outcome] at applied
        exact applied
      next next outcome =>
        rw [outcome] at applied
        refine applied.trans (ih ?_ ?_ _)
        · exact fun oneRtt => applied.dataKeys (keyed oneRtt)
        · exact fun ty frame member =>
            typed ty frame (List.mem_cons_of_mem _ member)

/-! ## Packets -/

variable (conn)

omit [TlsSession T] [Controller C] in
theorem core_setKeys (keys : Option Keys) :
    (conn.modifySpace space fun sp => { sp with keys := keys }).core =
      conn.core.mapSpace space fun sp => { sp with keys := keys } :=
  core_mapSpace rfl

/-- What is known of a packet that was opened. -/
structure OpenedBy (conn : Connection T C) (level : PacketSpace) (opened : Opened) : Prop where
  keyed : level = .oneRtt → (conn.spaces .data).keys.isSome = true
  learned : ∀ dcid keys, opened.pendingInitial = some (dcid, keys) →
    keys = TlsSession.initialKeys (T := T) dcid .server ∧
      conn.side = .server ∧ (conn.spaces .initial).keys = none ∧
      (conn.spaces .initial).discarded = false ∧ opened.generation = none

variable {conn}

omit [Controller C] in
/-- A packet opens under the keys of its level, or under those it brings. -/
theorem openPacket_openedBy {packet : WirePacket}
    {now : Nat} (admitted : conn.admittedLevel packet = some level)
    (opens : conn.openPacket level packet now = some (some opened)) :
    conn.OpenedBy level opened := by
  have alive : (conn.spaces (spaceIndex level)).discarded = false := by
    unfold admittedLevel at admitted
    split at admitted
    · cases admitted
    rename_i claimed announced
    split at admitted
    · cases admitted
    split at admitted
    · cases admitted
    split at admitted
    · cases admitted
    split at admitted
    · cases admitted
    rename_i kept
    split at admitted
    · cases admitted
    · cases admitted
      exact Bool.eq_false_iff.mpr kept
  unfold openPacket at opens
  split at opens
  next oneRtt =>
    obtain ⟨⟨payload, _⟩, opened_, rfl⟩ := map_eq_some_iff.mp (Option.some.inj opens)
    refine ⟨fun _ => ?_, fun _ _ none => by cases none⟩
    unfold openDataPacket at opened_
    split at opened_
    · cases opened_
    next keys present =>
      rw [present]
      rfl
  next notOneRtt =>
    obtain ⟨_, found, attempt⟩ := map_eq_some_iff.mp opens
    obtain ⟨_, -, rfl⟩ := map_eq_some_iff.mp attempt
    refine ⟨fun oneRtt => absurd oneRtt notOneRtt, ?_⟩
    intro _ _ pending
    unfold longKeys at found
    split at found
    · obtain ⟨_, -, rfl⟩ := map_eq_some_iff.mp found
      cases pending
    · split at found
      next serving =>
        cases found
        cases pending
        exact ⟨rfl, serving.1, isNone_iff_eq_none.mp serving.2, alive, rfl⟩
      · obtain ⟨_, -, rfl⟩ := map_eq_some_iff.mp found
        cases pending
    · obtain ⟨_, -, rfl⟩ := map_eq_some_iff.mp found
      cases pending

omit [Controller C] in
/-- The first packets fix the connection ids, and a server's Initial keys. -/
theorem acts_adoptIds (learned : ∀ dcid keys, pendingInitial = some (dcid, keys) →
      keys = TlsSession.initialKeys (T := T) dcid .server ∧
        conn.side = .server ∧ (conn.spaces .initial).keys = none ∧
        (conn.spaces .initial).discarded = false)
    (longCids : Option (ConnectionId × ConnectionId)) :
    Acts conn.core (conn.adoptIds pendingInitial longCids).core := by
  have adopted : ∀ keyed : Connection T C, Acts conn.core keyed.core →
      Acts conn.core (keyed.adoptIds none longCids).core := by
    intro keyed acts
    cases longCids with
    | none => exact acts
    | some cids =>
      unfold adoptIds
      dsimp only
      split
      · exact acts
      next unadopted =>
        have act : Act keyed.core
            { keyed.core with dcid := cids.2, peerCidAdopted := true } :=
          .adoptCid cids.2 (Bool.eq_false_iff.mpr unadopted)
        exact acts.trans (.single act)
  cases pendingInitial with
  | none => exact adopted conn (.refl _)
  | some pending =>
    obtain ⟨dcid, keys⟩ := pending
    obtain ⟨rfl, serving, keyless, alive⟩ := learned dcid keys rfl
    apply adopted
    have keyed := congrArg (fun core : Core T => { core with initialDcid := dcid })
      (core_setKeys conn .initial (some (TlsSession.initialKeys (T := T) dcid .server)))
    exact (Acts.single (.learnKeys serving keyless alive)).trans (.of_eq keyed)

variable (conn)

omit [Controller C] in
theorem acts_noteHandshakePacket : Acts conn.core (conn.noteHandshakePacket space).core := by
  have validated : ∀ discarded : Connection T C, Acts conn.core discarded.core →
        Acts conn.core
          ({ discarded with peerAddrValidated := true } : Connection T C).core :=
    fun discarded acts => acts.trans (.single (.validate discarded.core))
  unfold noteHandshakePacket
  split
  · apply validated
    split
    · split
      · exact .refl _
      · rw [core_discardSpace]
        exact .single (.discard nofun nofun)
    · exact .refl _
  · exact .refl _

omit [Controller C] in
theorem acts_acceptPacket {conn : Connection T C}
    (learned : ∀ dcid keys, pendingInitial = some (dcid, keys) →
      keys = TlsSession.initialKeys (T := T) dcid .server ∧
        conn.side = .server ∧ (conn.spaces .initial).keys = none ∧
        (conn.spaces .initial).discarded = false)
    (level : PacketSpace) (packet : WirePacket) (ecn : EcnCodepoint) (now : Nat) :
    Acts conn.core (conn.acceptPacket level packet pendingInitial ecn now).core := by
  refine .trans ?_ (acts_noteHandshakePacket _ (spaceIndex level))
  rw [core_modifySpace _ rfl]
  have adopted : ∀ longCids, Acts ({ conn with lastRecvTime := some now } : Connection T C).core
        ({ conn with lastRecvTime := some now }.adoptIds pendingInitial longCids).core :=
    acts_adoptIds learned
  exact adopted _

omit [Controller C] in
theorem acts_maybeQueueHandshakeDone : Acts conn.core conn.maybeQueueHandshakeDone.core := by
  unfold maybeQueueHandshakeDone
  split
  next done => exact acts_confirmed done.2.2.2 true
  · exact .refl _

omit [Controller C] in
theorem acts_finishPacket (pn : Nat) (ackEliciting immediate : Bool) (now : Nat) :
    Acts conn.core (conn.finishPacket space pn ackEliciting immediate now).1.core := by
  have scheduled :
      ((conn.stampLargest space pn now).scheduleAck space ackEliciting
        immediate now).core = conn.core := by
    rw [core_scheduleAck, core_stampLargest]
  unfold finishPacket
  dsimp only
  generalize (conn.stampLargest space pn now).scheduleAck space ackEliciting
    immediate now = ready at scheduled ⊢
  have validated := core_prevalidatePeerTransportParams ready
  split
  next failed failure outcome =>
    rw [outcome] at validated
    exact .of_eq (validated.trans scheduled)
  next next outcome =>
    rw [outcome] at validated
    have pumped := (Acts.of_eq (validated.trans scheduled)).trans (acts_pumpWrite next)
    have applied := core_applyAuthenticatedPeerAckParams next.pumpWrite
    split
    next failed failure result =>
      rw [result] at applied
      exact pumped.trans (.of_eq applied)
    next final result =>
      rw [result] at applied
      exact (pumped.trans (.of_eq applied)).trans (acts_maybeQueueHandshakeDone final)

omit [Controller C] in
/-- Committing a generation leaves the keys that were learned as they are. -/
theorem OpenedBy.learned_committed {conn next : Connection T C}
    (openedBy : conn.OpenedBy level opened) {space : SpaceId}
    {recv : ReceivedPackets} {pn now : Nat} {gen : Option Nat}
    (committed : (conn.modifySpace space fun sp =>
      { sp with recv := recv }).commitGeneration opened.generation pn now = (next, .ok gen)) :
    ∀ dcid keys, opened.pendingInitial = some (dcid, keys) →
      keys = TlsSession.initialKeys (T := T) dcid .server ∧
        next.side = .server ∧ (next.spaces .initial).keys = none ∧
        (next.spaces .initial).discarded = false := by
  intro dcid keys pending
  obtain ⟨derived, serving, keyless, alive, ungenerated⟩ := openedBy.learned dcid keys pending
  rw [ungenerated] at committed
  cases committed
  have kept : ∀ {α : Type} (view : Space → α),
      view { conn.spaces space with recv := recv } = view (conn.spaces space) →
        view ((conn.modifySpace space fun sp =>
          { sp with recv := recv }).spaces .initial) = view (conn.spaces .initial) := by
    intro α _ same
    rw [spaces_modifySpace]
    split
    next initial => rw [same, initial]
    · rfl
  exact ⟨derived, serving, (kept (·.keys) rfl).trans keyless, (kept (·.discarded) rfl).trans alive⟩

/-- A packet that was opened is accepted, and its frames act. -/
theorem acts_processOpened {conn : Connection T C}
    (openedBy : conn.OpenedBy level opened) (packet : WirePacket) (ecn : EcnCodepoint) (now : Nat) :
    Acts conn.core (conn.processOpened level packet opened ecn now).1.core := by
  unfold processOpened
  dsimp only
  split
  · exact .refl _
  split
  · exact .refl _
  have received :
      (conn.modifySpace (spaceIndex level) fun sp =>
        { sp with
          recv := ((conn.spaces (spaceIndex level)).recv.insert packet.packetNumber).1 }).core =
      conn.core.mapSpace (spaceIndex level) fun sp =>
        { sp with recv := (sp.recv.insert packet.packetNumber).1 } :=
    core_mapSpace rfl
  have inserted := (Acts.single
    (.receive conn.core (spaceIndex level) packet.packetNumber)).trans (.of_eq received)
  have committed := inserted.trans (acts_commitGeneration _
    opened.generation packet.packetNumber now)
  split
  next failed failure outcome =>
    rw [outcome] at committed
    exact committed
  next next gen outcome =>
    rw [outcome] at committed
    have accepted := committed.trans (acts_acceptPacket
      (openedBy.learned_committed outcome) level packet ecn now)
    have typed ty frame : (ty, .ok frame) ∈ decodeFrames opened.payload → frame.HasType ty :=
      decodeFrames_hasType
    have applied := accepted.trans (acts_processFrames
      (fun oneRtt => accepted.dataKeys (openedBy.keyed oneRtt)) gen now
      typed false)
    split
    next failed failure result =>
      rw [result] at applied
      exact applied
    next final ackEliciting result =>
      rw [result] at applied
      exact applied.trans (acts_finishPacket ..)

theorem acts_processPacket (packet : WirePacket) (ecn : EcnCodepoint) (now : Nat) :
    Acts conn.core (conn.processPacket packet ecn now).1.core := by
  unfold processPacket
  split
  · exact .refl _
  rename_i level admitted
  split
  · exact .refl _
  · exact acts_noteOpenFailed conn level
  next opened opens => exact acts_processOpened (openPacket_openedBy admitted opens) packet ecn now

theorem acts_processPackets (ecn : EcnCodepoint) (now : Nat) (packets : List WirePacket) :
    Acts conn.core (conn.processPackets ecn now packets).1.core := by
  induction packets generalizing conn with
  | nil => exact .refl _
  | cons packet _ ih =>
    have first := acts_processPacket conn packet ecn now
    rw [processPackets]
    split
    next failed failure outcome =>
      rw [outcome] at first
      exact first
    next next outcome =>
      rw [outcome] at first
      split
      · exact first.trans (ih next)
      · exact first

/-- Every datagram is taken in acts. -/
theorem acts_handleDatagram (datagram : Datagram) (ecn : EcnCodepoint) (now : Nat) :
    Acts conn.core (conn.handleDatagram datagram ecn now).1.core := by
  refine .trans ?_ (acts_processPackets _ ecn now datagram.packets)
  split
  · exact .refl _
  next unvalidated => exact .single (.credit datagram.len (Bool.eq_false_iff.mpr unvalidated))

/-! ## Events -/

/-- Every event is taken in acts: what acts keep, all runs keep. -/
theorem acts_step {conn next : Connection T C} {event : Event}
    (ownBidi : conn.toStreams.isPeerInitiated conn.nextBidi = false)
    (ownUni : conn.toStreams.isPeerInitiated conn.nextUni = false) (known : event.Known conn)
    (taken : conn.step event = some next) : Acts conn.core next.core := by
  have opens id : conn.toStreams.isPeerInitiated id = false → conn.toStreams.known id = true := by
    intro own
    unfold Streams.known
    rw [own, Bool.not_false, Bool.or_true]
  cases event with
  | openBi =>
    cases taken
    exact acts_mapStreams (.createLocalStream _ conn.peerParams _ (opens _ ownBidi))
  | openUni =>
    cases taken
    exact acts_mapStreams (.createLocalStream _ conn.peerParams _ (opens _ ownUni))
  | acceptBi =>
    cases taken
    exact acts_mapStreams (.acceptBi _)
  | acceptUni =>
    cases taken
    exact acts_mapStreams (.acceptUni _)
  | sendStream _ data =>
    cases taken
    exact acts_ops (ops_sendStream conn.peerParams data known)
  | finishStream id =>
    cases taken
    exact acts_mapStreams (.finishStream _ id)
  | resetStream _ code =>
    cases taken
    exact acts_ops (ops_resetStream conn.peerParams code known)
  | cancelStream _ code =>
    cases taken
    exact acts_ops (ops_cancelStream conn.peerParams code known)
  | readStream id =>
    cases taken
    exact acts_mapStreams (.readStream _ id)
  | discardStreamRecv id =>
    cases taken
    exact acts_mapStreams (.discardStreamRecv _ id)
  | recvStream id offset fin data =>
    cases taken
    exact acts_mapStreams (.recvStream _ id offset fin data)
  | recvResetStream id code size =>
    cases taken
    exact acts_mapStreams (.recvResetStream _ id code size)
  | retireStream id =>
    cases taken
    exact acts_mapStreams (.retireStream _ id)
  | close code reason =>
    cases taken
    exact .of_eq (core_close conn code reason)
  | closeTransport code ty reason =>
    cases taken
    exact .of_eq (core_closeTransport conn code ty reason)
  | initiateKeyUpdate now =>
    cases taken
    exact acts_initiateKeyUpdate conn now
  | pollTransmit =>
    obtain ⟨⟨_, datagram⟩, sent, rfl⟩ := map_eq_some_iff.mp taken
    exact acts_pollTransmit sent
  | handleTimeout now interval =>
    cases taken
    exact acts_handleTimeout conn now interval
  | handleDatagram datagram ecn now =>
    cases taken
    exact acts_handleDatagram conn datagram ecn now

end ParallaX.Quic.Connection
