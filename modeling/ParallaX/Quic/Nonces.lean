import ParallaX.Quic.SentPackets
import ParallaX.Tls.ClientHandshake

/-!
# Packet numbers and key budgets of a connection

Packet numbers only grow, every key stays within its limit, and a packet that
the dispatcher picks always gets its number.
-/

namespace ParallaX.Quic

open Option

namespace Connection

open Quic.Core

variable {T C : Type}

/-! ## The dispatcher -/

variable {conn : Connection T C}

theorem closeOnExhaustedDataKey_open {sealed limit : Nat}
    (alive : (conn.closeOnExhaustedDataKey sealed limit).closed = none ∨
      (conn.closeOnExhaustedDataKey sealed limit).closePending.isSome = true) :
    sealed < limit ∧ conn.closeOnExhaustedDataKey sealed limit = conn := by
  unfold closeOnExhaustedDataKey at alive ⊢
  by_cases left : sealed < limit
  · rw [if_pos left]
    exact ⟨left, rfl⟩
  · rw [if_neg left] at alive
    rcases alive with opened | pending
    · simp at opened
    · simp at pending

theorem enforceAeadIntegrityLimit_open (alive : conn.enforceAeadIntegrityLimit.closed = none ∨
      conn.enforceAeadIntegrityLimit.closePending.isSome = true) :
    conn.enforceAeadIntegrityLimit = conn := by
  unfold enforceAeadIntegrityLimit at alive ⊢
  cases found : (conn.spaces .data).keys with
  | none => rfl
  | some =>
    simp only [found] at alive
    dsimp only
    split at alive
    · rcases alive with opened | pending
      · simp [retireDataConnection, clearAckSchedules] at opened
      · simp [retireDataConnection, clearAckSchedules] at pending
    next below => rw [if_neg below]

theorem enforceAeadConfidentialityLimit_open
    (alive : conn.enforceAeadConfidentialityLimit.closed = none ∨
      conn.enforceAeadConfidentialityLimit.closePending.isSome = true) :
    conn.enforceAeadConfidentialityLimit = conn ∧
      ∀ space, (conn.sealingKey space).isSome = true →
        (conn.sealBudget space).1 < (conn.sealBudget space).2 := by
  have early (space : SpaceId) (budget : space = .data →
      (conn.sealBudget .data).1 < (conn.sealBudget .data).2) :
      (conn.sealBudget space).1 < (conn.sealBudget space).2 := by
    by_cases data : space = .data
    · exact data ▸ budget data
    · rw [sealBudget, if_neg data]
      decide
  unfold enforceAeadConfidentialityLimit at alive ⊢
  cases found : (conn.spaces .data).keys with
  | some =>
    simp only [found] at alive ⊢
    obtain ⟨budget, same⟩ := closeOnExhaustedDataKey_open alive
    refine ⟨same, fun space _ => early space fun _ => ?_⟩
    simpa [sealBudget, found] using budget
  | none =>
    cases given : conn.zeroRttKeys with
    | none =>
      refine ⟨rfl, fun space keyed => early space fun data => ?_⟩
      subst data
      simp [sealingKey, found, given] at keyed
    | some =>
      simp only [found, given] at alive ⊢
      obtain ⟨budget, same⟩ := closeOnExhaustedDataKey_open alive
      refine ⟨same, fun space _ => early space fun _ => ?_⟩
      simpa [sealBudget, found, given] using budget

theorem enforceLimits_open {limited : Connection T C}
    (checked : conn.enforceAeadConfidentialityLimit.enforceAeadIntegrityLimit = limited)
    (alive : limited.closed = none ∨ limited.closePending.isSome = true) :
    limited = conn ∧ ∀ space, (conn.sealingKey space).isSome = true →
      (conn.sealBudget space).1 < (conn.sealBudget space).2 := by
  subst checked
  have integrity := enforceAeadIntegrityLimit_open alive
  rw [integrity] at alive ⊢
  exact enforceAeadConfidentialityLimit_open alive

theorem isSome_allocatePacketNumber {space : SpaceId}
    (budget : (conn.sealBudget space).1 < (conn.sealBudget space).2)
    (room : (conn.spaces space).send.canAllocate = true) :
    (conn.allocatePacketNumber space).isSome = true := by
  have left := Nat.not_le.mpr budget
  simp [allocatePacketNumber, PacketNumberSpace.allocateProtected,
    PacketNumberSpace.allocate, left, room]

theorem isSome_buildClosePacketInSpace [Controller C]
    (conn : Connection T C) (space : SpaceId) (now : Nat) :
    (conn.buildClosePacketInSpace space now).isSome = true := by
  unfold buildClosePacketInSpace
  dsimp only
  generalize limited : conn.enforceAeadConfidentialityLimit.enforceAeadIntegrityLimit = next
  cases pending : next.closePending with
  | none => rfl
  | some =>
    dsimp only
    split
    · rfl
    next guards =>
      obtain ⟨rfl, budget⟩ := enforceLimits_open limited (.inr (congrArg Option.isSome pending))
      simp only [not_or, Bool.not_eq_true, Bool.not_eq_false', isNone_eq_false_iff] at guards
      obtain ⟨-, keyed, -, room, -⟩ := guards
      obtain ⟨keys, found⟩ := isSome_iff_exists.mp keyed
      have sealing : (next.sealingKey space).isSome = true := by simp [sealingKey, found]
      obtain ⟨⟨_, _⟩, given⟩ := isSome_iff_exists.mp
        (isSome_allocatePacketNumber (budget space sealing) room)
      obtain ⟨send, rfl⟩ := allocated_space given
      have kept : ((next.modifySpace space fun sp =>
          { sp with send := send }).spaces space).keys = some keys := by
        rw [spaces_modifySpace, if_pos rfl]
        exact found
      simp [given, kept]

theorem isSome_buildCloseBatch [Controller C]
    (spaces : List SpaceId) (conn : Connection T C) (now : Nat) :
    (conn.buildCloseBatch now spaces).isSome = true := by
  induction spaces generalizing conn with
  | nil => rfl
  | cons space _ ih =>
    obtain ⟨⟨built, packet⟩, isBuilt⟩ := isSome_iff_exists.mp
      (isSome_buildClosePacketInSpace conn space now)
    cases packet with
    | none => simp [buildCloseBatch, isBuilt]
    | some =>
      obtain ⟨⟨_, _⟩, isFinished⟩ := isSome_iff_exists.mp (ih built)
      simp [buildCloseBatch, isBuilt, isFinished]

/-- A closed connection never asks for a packet number in vain. -/
theorem isSome_pollClosed [Controller C] (conn : Connection T C) (now : Nat) :
    (conn.pollClosed now).isSome = true := by
  unfold pollClosed buildClosePacket
  dsimp only
  repeat' split
  all_goals first
    | rfl
    | exact isSome_buildCloseBatch ..

def Work.space : Work → SpaceId
  | .crypto space => space
  | _ => .data

/-- What a builder changes before it asks for a packet number. -/
def entering (conn : Connection T C) : Work → Connection T C
  | .handshakeDone => { conn with handshakeDonePending := false }
  | .ping => { conn with pingPending := false }
  | .reset id => conn.mapStreams (·.markResetSent id)
  | _ => conn

theorem allocate_congr {next : Connection T C} {space : SpaceId}
    (budget : next.sealBudget space = conn.sealBudget space)
    (same : next.spaces space = conn.spaces space)
    (given : (conn.allocatePacketNumber space).isSome = true) :
    (next.allocatePacketNumber space).isSome = true := by
  unfold allocatePacketNumber at given ⊢
  dsimp only at given ⊢
  rw [budget, same]
  split at given
  · cases given
  · rfl

theorem allocate_entering {space : SpaceId} (work : Work)
    (given : (conn.allocatePacketNumber space).isSome = true) :
    ((conn.entering work).allocatePacketNumber space).isSome = true := by
  have budget : (conn.entering work).sealBudget space = conn.sealBudget space := by
    cases work <;> rfl
  have same : (conn.entering work).spaces space = conn.spaces space := by cases work <;> rfl
  exact allocate_congr budget same given

theorem sealingKey_of_isSome {space : SpaceId} (keyed : (conn.spaces space).keys.isSome = true) :
    (conn.sealingKey space).isSome = true := by
  obtain ⟨_, found⟩ := isSome_iff_exists.mp keyed
  simp [sealingKey, found]

variable {work : Work}

theorem nextWork_keyed {now : Nat} (picked : conn.nextWork now = some work) :
    (conn.sealingKey work.space).isSome = true := by
  unfold nextWork at picked
  split at picked
  next space crypto =>
    cases picked
    have test := List.find?_some crypto
    simp only [Bool.and_eq_true] at test
    exact sealingKey_of_isSome test.1
  split at picked
  next keyed =>
    have data := sealingKey_of_isSome keyed
    repeat' split at picked
    all_goals first
      | (obtain rfl := Option.some.inj picked; exact data)
      | (obtain ⟨id, -, rfl⟩ := map_eq_some_iff.mp picked; exact data)
      | cases picked
  next keyless =>
    split at picked
    next early =>
      obtain ⟨_, -, rfl⟩ := map_eq_some_iff.mp picked
      have absent := not_isSome_iff_eq_none.mp keyless
      change (conn.sealingKey .data).isSome = true
      simpa [sealingKey, absent] using early.2
    · cases picked

theorem nextIdleWork_keyed {idle : Connection T C}
    (picked : conn.nextIdleWork = (idle, some work)) :
    (conn.sealingKey work.space).isSome = true ∧
      ∀ space, idle.sealBudget space = conn.sealBudget space ∧
        idle.spaces space = conn.spaces space := by
  unfold nextIdleWork at picked
  dsimp only at picked
  split at picked
  next size due =>
    obtain ⟨rfl, same⟩ := Prod.mk.inj picked
    cases same
    refine ⟨?_, fun _ => ⟨rfl, rfl⟩⟩
    split at due
    next searching =>
      have keyed := searching.1
      exact sealingKey_of_isSome keyed
    · cases due
  · obtain ⟨rfl, same⟩ := Prod.mk.inj picked
    refine ⟨?_, fun _ => ⟨rfl, rfl⟩⟩
    split at same
    next pinging =>
      cases same
      have keyed := pinging.1
      exact sealingKey_of_isSome keyed
    · cases same

section Dispatch

variable [OrderlyTls T]

theorem allocate_prepared {conn : Connection T C} {now : Nat}
    (inv : (conn.prepareTransmit now).core.sealing.Ordered)
    (opened : (conn.prepareTransmit now).closed = none) {space : SpaceId}
    (keyed : ((conn.prepareTransmit now).sealingKey space).isSome = true) :
    ((conn.prepareTransmit now).allocatePacketNumber space).isSome = true := by
  have alive : ((conn.prepareTransmit now).spaces space).discarded = false := by
    obtain ⟨_, found⟩ := isSome_iff_exists.mp keyed
    exact inv.alive_of_key ((sealingKey_sealing _ space).trans found)
  unfold prepareTransmit at opened keyed alive ⊢
  dsimp only at opened keyed alive ⊢
  generalize (if conn.closed.isNone then conn.maybeUpdateSendKey now
    else conn) = rotated at opened keyed alive ⊢
  split at opened
  · simp [retireDataConnection, clearAckSchedules] at opened
  next room =>
    rw [if_neg room] at keyed alive ⊢
    obtain ⟨same, budget⟩ := enforceLimits_open rfl (.inl opened)
    rw [same] at keyed alive room ⊢
    apply isSome_allocatePacketNumber (budget space keyed)
    have listed : space ∈ SpaceId.all := by cases space <;> decide
    rw [List.any_eq_true, not_exists] at room
    have checked := room space
    simpa [listed, alive] using checked

variable [Controller C]

/-- In every run, frame by frame: the packets it sent are among those it sealed,
in their order; the packet numbers of a space are sealed in increasing order;
each 1-RTT or 0-RTT sending key has sealed no more packets than its limit; and
whenever `poll_transmit` asks for a packet number there is one, for an ACK, for
the packet it picks next and for each close of a closed connection. -/
theorem frameRuns_nonces {recvMaxStreamsSent : Dir → Nat} {start conn : Connection T C}
    {sent : List Packet} (starts : Starts recvMaxStreamsSent start)
    (sends : Sends start sent conn) :
    (sent.map Packet.sealed).Sublist conn.sealedPackets ∧
    (∀ space, (SealingView.numbers conn.sealedPackets space).Pairwise (· < ·)) ∧
    (∀ key, SealingView.spent conn.sealedPackets key ≤ key.confidentialityLimit) ∧
    ∀ now,
      ((conn.prepareTransmit now).closed.isSome = true →
        ((conn.prepareTransmit now).pollClosed now).isSome = true) ∧
      ((conn.prepareTransmit now).closed = none →
        (∀ space, (conn.prepareTransmit now).nextAckSpace now = some space →
          ((conn.prepareTransmit now).allocatePacketNumber space).isSome = true) ∧
        (∀ work, (conn.prepareTransmit now).nextWork now = some work →
          (((conn.prepareTransmit now).entering work).allocatePacketNumber
            work.space).isSome = true) ∧
        ∀ idle work, (conn.prepareTransmit now).nextIdleWork = (idle, some work) →
          ((idle.entering work).allocatePacketNumber work.space).isSome = true) := by
  have invariant : conn.core.sealing.Ordered ∧ conn.core.sealing.Budgeted :=
    FrameRuns.core_rule (motive := fun core => core.sealing.Ordered ∧ core.sealing.Budgeted)
      (fun _ fresh => fresh.sealing)
      (fun _ _ act holds =>
        ⟨act.sealing.ordered holds.1, act.sealing.budgeted holds.2⟩)
      starts sends.frameRuns
  refine ⟨sends.logged starts, invariant.1.increasing, invariant.2.within, ?_⟩
  intro now
  have ordered : (conn.prepareTransmit now).core.sealing.Ordered :=
    Acts.rule (motive := fun core => core.sealing.Ordered)
      (fun _ _ act => act.sealing.ordered) (acts_prepareTransmit conn now)
      invariant.1
  refine ⟨fun _ => isSome_pollClosed _ now, fun opened => ⟨?_, ?_, ?_⟩⟩
  · intro _ due
    have test := List.find?_some due
    simp only [Bool.and_eq_true] at test
    exact allocate_prepared ordered opened (sealingKey_of_isSome test.1.1)
  · intro work picked
    exact allocate_entering work (allocate_prepared ordered opened (nextWork_keyed picked))
  · intro _ work picked
    obtain ⟨keyed, same⟩ := nextIdleWork_keyed picked
    exact allocate_entering work (allocate_congr (same _).1 (same _).2
      (allocate_prepared ordered opened keyed))

end Dispatch

def resumingExample : Connection (Tls.ClientSession Tls.ExampleInputs) FixedWindow :=
  newClient Tls.ExampleInputs.resuming ⟨12000⟩ .empty .empty (fun _ => 0)
    (some exampleParams) KEEP_ALIVE_MIN 0

/-- A stream is opened and written to before the first two polls. -/
def earlyExample : List Event := [.openBi, .sendStream 0 [7], .pollTransmit 0, .pollTransmit 0]

/-- The resuming client sends its ClientHello and early data, each under the
number 0 of its space. -/
theorem frameRuns_nonces_resuming :
    ∃ (sent : List Packet) (conn : Connection (Tls.ClientSession Tls.ExampleInputs) FixedWindow),
      Sends resumingExample sent conn ∧
        sent.map (fun packet => (packet.header.space, packet.header.packetNumber)) =
          [(.initial, 0), (.data, 0)] ∧
        (sent.map Packet.sealed).Sublist conn.sealedPackets ∧
        (∀ space, (SealingView.numbers conn.sealedPackets space).Pairwise (· < ·)) ∧
        ∀ key, SealingView.spent conn.sealedPackets key ≤ key.confidentialityLimit := by
  have sends : (resumingExample.play earlyExample).isSome = true ∧
      (resumingExample.sentDuring earlyExample).map
        (fun packet => (packet.header.space, packet.header.packetNumber)) =
          [(.initial, 0), (.data, 0)] := by
    decide +kernel
  obtain ⟨conn, played⟩ := isSome_iff_exists.mp sends.1
  have run := sends_of_play .start played
  have nonces := frameRuns_nonces (.client ..) run
  exact ⟨_, conn, run, sends.2, nonces.1, nonces.2.1, nonces.2.2.1⟩

end Connection

end ParallaX.Quic
