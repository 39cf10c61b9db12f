import ParallaX.Quic.SealingKeys

/-!
# Acts as steps of the sealing keys

Every act of a connection is a step of its sealing keys, so that what holds of
them step by step holds in every run.
-/

namespace ParallaX.Quic

open Option

namespace Core

variable {T : Type} {change : SpaceCore → SpaceCore} {key : PacketKey} {next : NextPacketKeys}
  (core : Core T)

/-- A change to a space is seen through what the space seals with. -/
theorem sealing_mapSpace {space : SpaceId} (effect : SealSpace → SealSpace)
    (agrees : ∀ sp, (change sp).sealSpace = effect sp.sealSpace) (core : Core T) :
    (core.mapSpace space change).sealing = core.sealing.mapSpace space effect := by
  have changed := view_mapSpace SpaceCore.sealSpace core space change
  rw [agrees] at changed
  unfold sealing SealingView.mapSpace
  rw [changed]
  rfl

theorem sealing_mapSpace_kept {core : Core T} {space : SpaceId}
    (kept : (change (core.spaces space)).sealSpace = (core.spaces space).sealSpace) :
    (core.mapSpace space change).sealing = core.sealing := by
  have same := funext fun other =>
    spaces_mapSpace_kept SpaceCore.sealSpace kept other
  unfold sealing
  rw [same]
  rfl

variable (space : SpaceId)

/-- The view names the key of the connection. -/
theorem sealingKey_sealing : core.sealing.sealingKey space = core.sealingKey space := by
  have key : (core.sealing.spaces space).key = (core.spaces space).keys.map Keys.localKey := rfl
  unfold SealingView.sealingKey sealingKey
  rw [key]
  cases (core.spaces space).keys with
  | none => rfl
  | some => rfl

theorem sealing_store (pn : Nat) (content : SentContent) :
    (core.store space pn content).sealing = core.sealing :=
  (sealing_mapSpace_kept rfl).trans (view_index core space content sealing fun _ _ => rfl)

theorem sealing_cryptoSent (range : Connection.CryptoRange) :
    (core.cryptoSent space range).sealing = core.sealing := by
  apply sealing_mapSpace_kept
  split <;> rfl

theorem sealing_count (pn : Nat) :
    (core.count space pn).sealing =
      { core.sealing with
        dataSealed :=
          if space = .data ∧ (core.sealing.spaces .data).key.isNone = false
          then saturatingSucc core.sealing.dataSealed
          else core.sealing.dataSealed
        zeroRttSealed :=
          if space = .data ∧ (core.sealing.spaces .data).key.isNone = true
          then saturatingSucc core.sealing.zeroRttSealed
          else core.sealing.zeroRttSealed } := by
  have key : (core.sealing.spaces .data).key = (core.spaces .data).keys.map Keys.localKey := rfl
  rw [key]
  unfold count
  by_cases data : space = .data
  · cases found : (core.spaces .data).keys with
    | none | some =>
      simp [data]
      rfl
  · simp [data]

theorem sealingKey_count (other : SpaceId) (pn : Nat) :
    (core.count space pn).sealingKey other = core.sealingKey other := by
  unfold count
  split
  · split <;> rfl
  · rfl

theorem sealing_noteSealed {core : Core T} {space : SpaceId}
    (keyed : core.sealingKey space = some key) (pn : Nat) :
    (core.noteSealed space pn).sealing =
      { core.sealing with sealedPackets := core.sealing.sealedPackets ++ [⟨space, key, pn⟩] } := by
  unfold noteSealed
  rw [keyed]
  rfl

/-- A packet is counted against its key and logged. -/
theorem sealing_record {core : Core T} {space : SpaceId}
    (keyed : core.sealingKey space = some key) (pn : Nat) (packet : SentPacket)
    (content : Option SentContent) :
    (core.record space pn packet content).sealing =
      { core.sealing with
        dataSealed :=
          if space = .data ∧ (core.sealing.spaces .data).key.isNone = false
          then saturatingSucc core.sealing.dataSealed
          else core.sealing.dataSealed
        zeroRttSealed :=
          if space = .data ∧ (core.sealing.spaces .data).key.isNone = true
          then saturatingSucc core.sealing.zeroRttSealed
          else core.sealing.zeroRttSealed
        sealedPackets := core.sealing.sealedPackets ++ [⟨space, key, pn⟩] } := by
  have tracked : (core.track space pn packet).sealing = core.sealing := sealing_mapSpace_kept rfl
  have stored (next : Core T) :
      (content.elim next (next.store space pn)).sealing = next.sealing := by
    cases content with
    | none => rfl
    | some content => exact sealing_store next space _ content
  have same := (stored _).trans tracked
  unfold record
  dsimp only
  generalize content.elim _ _ = next at same ⊢
  have sealing : (next.count space pn).sealingKey space = some key := by
    rw [sealingKey_count, ← sealingKey_sealing, same, sealingKey_sealing, keyed]
  rw [sealing_noteSealed sealing, sealing_count, same]

/-- Sending a packet is one emission of the view. -/
theorem sealing_emit {core : Core T} {space : SpaceId}
    (keyed : core.sealingKey space = some key) (packet : SentPacket)
    (content : Option SentContent) :
    (core.emit space packet content).sealing = core.sealing.emit space key := by
  have allocated : (core.allocate space).sealing =
      core.sealing.mapSpace space fun sp => { sp with next := sp.next + 1 } :=
    sealing_mapSpace (fun sp => { sp with next := sp.next + 1 }) (fun _ => rfl) core
  have dataKey : ((core.sealing.mapSpace space fun sp =>
      { sp with next := sp.next + 1 }).spaces .data).key = (core.sealing.spaces .data).key := by
    by_cases here : .data = space
    · subst here
      rw [SealingView.spaces_mapSpace_self]
    · rw [SealingView.spaces_mapSpace_of_ne here]
  unfold emit
  rw [sealing_record ((Connection.sealingKey_allocate core space).trans keyed), allocated, dataKey]
  rfl

theorem Aside.sealing {first second : Core T} (aside : Aside first second) :
    second.sealing = first.sealing := by
  have spaces : (fun space => (second.spaces space).sealSpace) =
      fun space => (first.spaces space).sealSpace :=
    funext fun space =>
      (congrArg SpaceCore.sealSpace (aside.spaces space)).trans rfl
  rw [aside.core]
  unfold Core.sealing
  rw [spaces]

theorem sealing_setKeys (keys : Keys) :
    (core.mapSpace space fun sp => { sp with keys := some keys }).sealing =
      core.sealing.mapSpace space fun sp => { sp with key := some keys.localKey } :=
  sealing_mapSpace (fun sp => { sp with key := some keys.localKey }) (fun _ => rfl) core

/-- Keys are installed in the view as in the connection. -/
theorem sealing_installKeys (change : Option KeyChange) :
    (core.installKeys change).sealing =
      core.sealing.install (decide (core.side = .client)) core.tls change := by
  match change with
  | none => rfl
  | some (.zeroRtt keys) => rfl
  | some (.handshake keys) => exact sealing_setKeys core .handshake keys
  | some (.oneRtt keys) =>
    have dropped : (if core.side = .client then none
        else core.zeroRttKeys).map Keys.localKey = if decide (core.side = .client) = true then none
          else core.zeroRttKeys.map Keys.localKey := by
      simp only [decide_eq_true_eq]
      split <;> rfl
    calc
      (core.installKeys (some (.oneRtt keys))).sealing
          = { (core.mapSpace .data fun sp =>
                { sp with keys := some keys }).sealing with
              zeroRttKey :=
                (if core.side = .client then none
                  else core.zeroRttKeys).map Keys.localKey } := rfl
      _ = core.sealing.install (decide (core.side = .client)) core.tls (some (.oneRtt keys)) := by
          rw [sealing_setKeys, dropped]
          rfl

theorem sealing_switchReadKey {core : Core T} (keys : Keys) (key : PacketKey) (retireAt : Nat)
    (cached : core.nextPacketKeys = some next) :
    (core.switchReadKey next keys key retireAt).sealing = core.sealing := by
  have set : (core.setRemoteDataKey key).sealing = core.sealing := by
    apply sealing_mapSpace_kept
    simp [SpaceCore.sealSpace, Function.comp_def]
  have same : ({ next with remoteKey := none } :
      NextPacketKeys).localKey = core.sealing.cached := by
    change _ = core.nextPacketKeys.bind _
    rw [cached]
    rfl
  calc
    (core.switchReadKey next keys key retireAt).sealing
        = { (core.setRemoteDataKey key).sealing with
            cached :=
              ({ next with remoteKey := none } : NextPacketKeys).localKey } := rfl
    _ = core.sealing := by rw [set, same]

variable [TlsSession T]

theorem sealing_writeRound :
    core.writeRound.sealing =
      core.sealing.install (decide (core.side = .client)) (TlsSession.writeHandshake core.tls).1
        (TlsSession.writeHandshake core.tls).2.2 := by
  have appended : (({ core with
      tls := (TlsSession.writeHandshake core.tls).1 } : Core T).appendCrypto
        (TlsSession.writeHandshake core.tls).2.1).sealing =
      { core.sealing with tls := (TlsSession.writeHandshake core.tls).1 } :=
    sealing_mapSpace_kept rfl
  unfold writeRound
  rw [sealing_installKeys, appended]
  cases (TlsSession.writeHandshake core.tls).2.2 with
  | none => rfl
  | some change => cases change <;> rfl

theorem step_of_sealing_eq {first core : Core T} (same : core.sealing = first.sealing) :
    SealingView.Step first.sealing core.sealing := by
  rw [same]
  exact .same _

/-- A packet that may be sealed is a step of the view. -/
theorem step_emit {core : Core T} {space : SpaceId}
    (packet : SentPacket) (content : Option SentContent) (ready : core.MaySeal space key) :
    SealingView.Step core.sealing (core.emit space packet content).sealing := by
  rw [sealing_emit ready.keyed]
  have keyed := (sealingKey_sealing core space).trans ready.keyed
  refine .emit keyed ?_
  rintro rfl
  have budget := ready.budget
  have found := ready.keyed
  unfold sealBudget at budget
  unfold sealingKey at found
  have dataKey : (core.sealing.spaces .data).key = (core.spaces .data).keys.map Keys.localKey := rfl
  unfold SealingView.dataCount
  rw [dataKey]
  cases keys : (core.spaces .data).keys with
  | some =>
    rw [keys] at found
    simp [keys] at budget
    cases found
    exact budget
  | none =>
    rw [keys] at found
    cases early : core.zeroRttKeys with
    | none => simp [early] at found
    | some =>
      simp [early] at found
      simp [keys, early] at budget
      rw [← found]
      exact budget

theorem step_installSendKey {core : Core T} (cached : core.nextPacketKeys = some next)
    (unused : next.localKey = some key) (keyed : (core.spaces .data).keys.isSome = true) :
    SealingView.Step core.sealing (core.installSendKey next key).sealing := by
  have isCached : core.sealing.cached = some key := by
    change core.nextPacketKeys.bind _ = _
    rw [cached]
    exact unused
  have isKeyed : (core.sealing.spaces .data).key.isSome = true := isSome_map.trans keyed
  have set : (core.setLocalDataKey key).sealing =
      core.sealing.mapSpace .data fun sp =>
        { sp with key := sp.key.map fun _ => key } := by
    apply sealing_mapSpace
    intro sp
    simp [SpaceCore.sealSpace, Function.comp_def]
  have same : (core.sealing.mapSpace .data fun sp =>
        { sp with key := sp.key.map fun _ => key }) =
      core.sealing.mapSpace .data fun sp =>
        { sp with key := some key } := by
    obtain ⟨_, found⟩ := isSome_iff_exists.mp isKeyed
    unfold SealingView.mapSpace
    dsimp only
    rw [found]
    rfl
  have rotated := SealingView.Step.rotate isCached isKeyed
  rw [← same, ← set] at rotated
  exact rotated

/-- Every act is a step of the view. -/
theorem Act.sealing {first second : Core T} (act : Act first second) :
    SealingView.Step first.sealing second.sealing := by
  cases act with
  | answered =>
    apply step_of_sealing_eq
    unfold noteAckSent
    split <;> rfl
  | bare packet _ ready => exact step_emit packet none ready
  | control packet content _ _ _ _ ready => exact step_emit packet (some content) ready
  | crypto packet _ _ _ ready =>
    rw [sealing_cryptoSent]
    exact step_emit packet _ ready
  | stream packet _ _ _ _ _ _ _ ready
  | zeroRttStream packet _ _ _ _ _ _ _ _ ready => exact step_emit packet (some _) ready
  | @probe key packet _ _ _ _ _ ready =>
    have probing : MaySeal
        { first with pmtud := first.pmtud.nextProbeSize.1 } .data key :=
      { ready with }
    have emitted := step_emit packet (some .empty) probing
    exact emitted
  | acks => exact step_of_sealing_eq (Aside.ackPackets ..).sealing
  | losses => exact step_of_sealing_eq (Aside.losePackets ..).sealing
  | @probeTimeout => exact step_of_sealing_eq (Aside.takeProbe ..).sealing
  | write =>
    rw [sealing_writeRound]
    exact .write _ _
  | @cacheNext _ tls localKey remoteKey _ _ derived =>
    have handed : (TlsSession.next1rttKeys first.sealing.tls).2 = .ok (localKey, remoteKey) :=
      congrArg Prod.snd derived
    have step := SealingView.Step.derive handed
    have session : (TlsSession.next1rttKeys first.sealing.tls).1 = tls := congrArg Prod.fst derived
    rw [session] at step
    exact step
  | @cacheFails tls _ failed =>
    have step := SealingView.Step.deriveFails first.sealing
    have session : (TlsSession.next1rttKeys first.sealing.tls).1 = tls := congrArg Prod.fst failed
    rw [session] at step
    exact step
  | @installSend _ _ cached unused _ keyed => exact step_installSendKey cached unused keyed
  | @spendSend => exact .spend _
  | @switchRead _ keys key retireAt cached =>
    exact step_of_sealing_eq (sealing_switchReadKey keys key retireAt cached)
  | @discard space early atEnd =>
    have cleared : (first.discard space).sealing =
        first.sealing.mapSpace space fun _ => ⟨none, true, 0⟩ :=
      sealing_mapSpace (fun _ => ⟨none, true, 0⟩) (fun _ => rfl) first
    rw [cleared]
    exact .discard early fun last => isSome_map.trans (atEnd last)
  | holdCrypto | receive => exact step_of_sealing_eq (sealing_mapSpace_kept rfl)
  | @drainCrypto space offset data =>
    have absorbed : (first.absorbCrypto space
        (first.cryptoDrain space offset data)).sealing = first.sealing :=
      sealing_mapSpace_kept rfl
    unfold feedTls
    split
    · exact step_of_sealing_eq absorbed
    · have fed := SealingView.Step.read first.sealing (first.cryptoDrain space offset data).sink
      rw [← absorbed] at fed
      nth_rewrite 1 [absorbed] at fed
      exact fed
  | @learnKeys dcid _ _ alive =>
    have step := SealingView.Step.learn dcid
      (show (first.sealing.spaces .initial).discarded = false from alive)
    rw [← sealing_setKeys] at step
    exact step
  | _ => exact .same _

/-- A connection that has sealed nothing is in order. -/
theorem sealing_unused {T : Type} [OrderlyTls T] {core : Core T} (packets : core.sealedPackets = [])
    (early : core.zeroRttKeys = none) (next : core.nextPacketKeys = none)
    (keyless : (core.spaces .data).keys = none)
    (alive : ∀ space, (core.spaces space).discarded = false) :
    core.sealing.Ordered ∧ core.sealing.Budgeted := by
  have noPackets : core.sealing.sealedPackets = [] := packets
  have noKey : (core.sealing.spaces .data).key = none := by
    change (core.spaces .data).keys.map _ = none
    rw [keyless]
    rfl
  have noEarly : core.sealing.zeroRttKey = none := by
    change core.zeroRttKeys.map _ = none
    rw [early]
    rfl
  have noCached : core.sealing.cached = none := by
    change core.nextPacketKeys.bind _ = none
    rw [next]
    rfl
  have living : ∀ space, (core.sealing.spaces space).discarded = false := alive
  constructor
  · constructor <;> simp [noPackets, noKey, living, SealingView.numbers]
  · constructor <;> simp [noPackets, noKey, noEarly, noCached, SealingView.spent]

theorem Fresh.sealing {T : Type} [OrderlyTls T] {maxSent : Dir → Nat} {core : Core T}
    (fresh : Fresh maxSent core) : core.sealing.Ordered ∧ core.sealing.Budgeted := by
  cases fresh with
  | client =>
    apply sealing_unused rfl rfl rfl
    · have other : SpaceId.data ≠ .initial := nofun
      rfl
    · intro space
      exact spaces_mapSpace_kept SpaceCore.discarded rfl space
  | server => exact sealing_unused rfl rfl rfl rfl fun _ => rfl

end Core

end ParallaX.Quic
