import ParallaX.Quic.DatagramBound
import ParallaX.Quic.InFlight

/-!
# The black-hole streak

The streak of the path MTU search beside a count of the full-size DATA packets
lost since the last sign that the path carries them.
-/

namespace ParallaX.Quic

open List

/-- The removed packets were tracked, each under a number of its own. -/
theorem SentPackets.removeAll_entries (sent : SentPackets) (pns : List Nat) :
    ((sent.removeAll pns).2.map Prod.fst).Nodup ∧
      ∀ entry ∈ (sent.removeAll pns).2, sent.packets[entry.1]? = some entry.2 := by
  induction pns generalizing sent with
  | nil => simp [removeAll]
  | cons first rest ih =>
    obtain ⟨distinct, tracked⟩ := ih (sent.discard first).1
    have older {entry : Nat × SentPacket}
        (member : entry ∈ ((sent.discard first).1.removeAll rest).2) :
        first ≠ entry.1 ∧ sent.packets[entry.1]? = some entry.2 := by
      have found := tracked entry member
      rw [lookup_discard] at found
      split at found
      · cases found
      · exact ⟨‹_›, found⟩
    cases found : sent.packets[first]? with
    | none =>
      have kept : sent.discard first = (sent, none) := by rw [discard, found]
      rw [kept] at distinct older
      rw [removeAll, kept]
      exact ⟨distinct, fun entry member => (older member).2⟩
    | some packet =>
      have dropped : (sent.discard first).2 = some packet := by rw [discard, found]
      rw [removeAll, ← Prod.eta (sent.discard first), dropped]
      simp only [map_cons, nodup_cons, forall_mem_cons]
      refine ⟨⟨?_, distinct⟩, found, fun entry member =>
        (older member).2⟩
      rintro member
      obtain ⟨_, entered, same⟩ := mem_map.mp member
      exact (older entered).1 same.symm

/-- An ack-eliciting packet fills the MTU, which lies above its base, and a
pure ACK is smaller than the base. -/
def SentPacket.Sized (packet : SentPacket) (mtu : Nat) : Prop :=
  if packet.ackEliciting then packet.size = mtu ∧ BASE_MTU < mtu
  else packet.size < BASE_MTU

instance (packet : SentPacket) (mtu : Nat) : Decidable (packet.Sized mtu) :=
  inferInstanceAs (Decidable (if packet.ackEliciting then _ else _))

namespace Core

variable {T : Type}

/-! ## The count -/

/-- What an act does to the packets of the DATA space. -/
inductive Pass where
  | acks (largest : Nat) (ranges : List (Nat × Nat))
  | losses (lossDelay now : Nat)
  | other

variable (core : Core T)

def newlyAcked (largest : Nat) (ranges : List (Nat × Nat)) : List (Nat × SentPacket) :=
  ((core.spaces .data).sent.onAck largest ranges).2

def declaredLost (lossDelay now : Nat) : List (Nat × SentPacket) :=
  ((core.spaces .data).sent.detectLost lossDelay now).2.1

def fills (entry : Nat × SentPacket) : Bool :=
  core.mtuProbePn = some entry.1 || entry.2.size = core.pmtud.current

/-- Count one lost DATA packet. A reset shows as a fall of the MTU. -/
def loseCounted (state : Core T × Nat) (lost : Nat × SentPacket) : Core T × Nat :=
  let next := state.1.loseOne .data lost.1
  (next,
    if next.pmtud.current < state.1.pmtud.current then 0
    else if state.1.mtuProbePn ≠ some lost.1 ∧
        lost.2.size = state.1.pmtud.current then
      state.2 + 1
    else state.2)

/-- The full-size DATA packets lost since the last acknowledgement of one, or
of a probe, and since the last reset. -/
def recount (count : Nat) : Pass → Nat
  | .acks largest ranges =>
    if (core.newlyAcked largest ranges).any core.fills then 0 else count
  | .losses lossDelay now =>
    ((core.declaredLost lossDelay now).foldl loseCounted
      (core.withSent .data ((core.spaces .data).sent.detectLost lossDelay now).1, count)).2
  | .other => count

def Passed (next : Core T) : Pass → Prop
  | .acks largest ranges => next = core.ackPackets .data largest ranges
  | .losses lossDelay now => next = core.losePackets .data lossDelay now
  | .other =>
    (∀ largest ranges, next ≠ core.ackPackets .data largest ranges) ∧
      ∀ lossDelay now, next ≠ core.losePackets .data lossDelay now

/-- Above the base MTU every ACK with news has news of a full-size packet or
of the probe, and only such packets are lost. -/
def FullSized : Pass → Prop
  | .acks largest ranges =>
    BASE_MTU < core.pmtud.current → core.newlyAcked largest ranges ≠ [] →
      ∃ entry ∈ core.newlyAcked largest ranges, core.fills entry = true
  | .losses lossDelay now =>
    ∀ entry ∈ core.declaredLost lossDelay now,
      core.mtuProbePn = some entry.1 ∨ entry.2.Sized core.pmtud.current
  | .other => True

variable [TlsSession T]

/-- The counts of the runs whose acts all meet a condition. -/
inductive Counts (meets : Core T → Pass → Prop) (start : Core T) :
    Core T → Nat → Prop
  | start : Counts meets start start 0
  | step {core next : Core T} {count : Nat} {pass : Pass}
      (counts : Counts meets start core count) (act : Act core next)
      (passed : core.Passed next pass) (met : meets core pass) :
      Counts meets start next (core.recount count pass)

theorem counts_of_acts {start last : Core T} (acts : Acts start last) :
    ∃ count, Counts (fun _ _ => True) start last count := by
  induction acts with
  | refl => exact ⟨0, .start⟩
  | @tail core next _ act ih =>
    obtain ⟨_, counts⟩ := ih
    have passed : ∃ pass, core.Passed next pass := by
      by_cases acked : ∃ largest ranges, next = core.ackPackets .data largest ranges
      · obtain ⟨largest, ranges, same⟩ := acked
        exact ⟨.acks largest ranges, same⟩
      by_cases lost : ∃ lossDelay now, next = core.losePackets .data lossDelay now
      · obtain ⟨lossDelay, now, same⟩ := lost
        exact ⟨.losses lossDelay now, same⟩
      · exact ⟨.other, fun largest ranges same => acked ⟨largest, ranges, same⟩,
          fun lossDelay now same => lost ⟨lossDelay, now, same⟩⟩
    obtain ⟨_, passed⟩ := passed
    exact ⟨_, .step counts act passed trivial⟩

/-! ## The streak follows the count -/

/-- The streak is the count, which is zero at the base MTU, and a probe in
flight above the base is one of the search. -/
structure Streak (search : Pmtud × Option Nat) (count : Nat) : Prop where
  counted : search.1.blackholeLosses = count
  floor : BASE_MTU ≤ search.1.current
  base : search.1.current ≤ BASE_MTU → count = 0
  probe : BASE_MTU < search.1.current → search.2 ≠ none → search.1.probeSize ≠ none

omit [TlsSession T]

variable {core} {count mtu : Nat}

theorem Streak.acks (streak : Streak core.search count) {largest : Nat}
    {ranges : List (Nat × Nat)} (met : core.FullSized (.acks largest ranges)) :
    Streak (core.ackPackets .data largest ranges).search
      (core.recount count (.acks largest ranges)) := by
  obtain ⟨counted, floor, base, probe⟩ := streak
  dsimp only [search] at counted floor base probe
  rw [search_ackPackets]
  split
  next idle =>
    have nothing : core.newlyAcked largest ranges = [] := idle.resolve_right (by simp)
    simp only [recount, nothing, any_nil, Bool.false_eq_true, if_false]
    exact ⟨counted, floor, base, probe⟩
  next news =>
  split
  next probed =>
    obtain ⟨entry, member, found⟩ := any_eq_true.mp probed
    have filled : (core.newlyAcked largest ranges).any core.fills = true :=
      any_eq_true.mpr ⟨entry, member, (Bool.or_eq_true ..).mpr (.inl found)⟩
    simp only [recount, filled, if_true]
    unfold Pmtud.onProbeAcked
    cases outstanding : core.pmtud.probeSize with
    | none =>
      have low : core.pmtud.current ≤ BASE_MTU := by
        by_contra above
        refine probe (not_le.mp above) ?_ outstanding
        rw [of_decide_eq_true found]
        exact Option.some_ne_none _
      exact ⟨counted.trans (base low), floor, fun _ => rfl, by simp⟩
    | some =>
      refine ⟨rfl, ?_, fun _ => rfl, by simp⟩
      dsimp only
      split <;> omega
  next =>
    have zero : core.recount count (.acks largest ranges) = 0 := by
      rw [recount]
      split
      · rfl
      next small =>
        refine base (not_lt.mp fun above => small ?_)
        exact any_eq_true.mpr (met above fun nothing => news (.inl nothing))
    rw [zero]
    exact ⟨rfl, floor, fun _ => rfl, probe⟩

theorem Streak.loseOne {entry : Nat × SentPacket} (streak : Streak core.search count)
    (content : (core.spaces .data).sentContent[entry.1]?.isSome = entry.2.ackEliciting)
    (current : core.pmtud.current = mtu ∨ core.pmtud.current = BASE_MTU)
    (met : core.mtuProbePn = some entry.1 ∨ entry.2.Sized mtu) :
    Streak (loseCounted (core, count) entry).1.search (loseCounted (core, count) entry).2 ∧
      ((core.loseOne .data entry.1).pmtud.current = core.pmtud.current ∨
        (core.loseOne .data entry.1).pmtud.current = BASE_MTU) := by
  obtain ⟨counted, floor, base, probe⟩ := streak
  dsimp only [search] at counted floor base probe
  have told := search_loseOne core .data entry.1
  rw [if_neg (by simp), content] at told
  simp only [loseCounted]
  generalize core.loseOne .data entry.1 = next at told ⊢
  have pmtud : next.pmtud = next.search.1 := rfl
  rw [pmtud]
  by_cases probed : core.mtuProbePn = some entry.1
  · rw [if_pos probed] at told
    have same : core.pmtud.onProbeLost.current = core.pmtud.current ∧
        core.pmtud.onProbeLost.blackholeLosses = core.pmtud.blackholeLosses := by
      unfold Pmtud.onProbeLost
      split
      · exact ⟨rfl, rfl⟩
      · split <;> exact ⟨rfl, rfl⟩
    rw [told, if_neg (by simp [same.1]), if_neg (by simp [probed])]
    exact ⟨⟨same.2.trans counted, floor.trans same.1.ge,
      fun low => base (same.1.ge.trans low), by simp⟩, .inl same.1⟩
  rw [if_neg probed] at told
  have sized := met.resolve_left probed
  unfold SentPacket.Sized at sized
  cases eliciting : entry.2.ackEliciting with
  | false =>
    rw [eliciting, if_neg Bool.false_ne_true] at told sized
    have small : entry.2.size ≠ core.pmtud.current := by omega
    rw [told]
    simp only [search, lt_irrefl, small, and_false, if_false, true_or, and_true]
    exact ⟨counted, floor, base, probe⟩
  | true =>
    rw [eliciting, if_pos rfl] at told sized
    unfold Pmtud.onFullSizeLoss at told
    by_cases low : core.pmtud.current ≤ BASE_MTU
    · rw [if_pos low] at told
      have large : entry.2.size ≠ core.pmtud.current := by omega
      simp only [told, lt_irrefl, large, and_false, if_false, true_or, and_true]
      exact ⟨counted, floor, base, probe⟩
    rw [if_neg low] at told
    split at told
    · rw [told]
      rw [if_pos (show Pmtud.new.current < _ from not_le.mp low)]
      exact ⟨⟨rfl, le_rfl, fun _ => rfl, fun above => absurd above (lt_irrefl _)⟩, .inr rfl⟩
    · have full : entry.2.size = core.pmtud.current := by omega
      rw [told]
      rw [if_neg (lt_irrefl _), if_pos ⟨probed, full⟩]
      exact ⟨⟨congrArg (· + 1) counted, floor, fun low' => absurd low' low, probe⟩, .inl rfl⟩

theorem Streak.foldl (lost : List (Nat × SentPacket))
    (streak : Streak core.search count) (distinct : (lost.map Prod.fst).Nodup)
    (contents : ∀ entry ∈ lost,
      (core.records .data).sentContent[entry.1]?.isSome = entry.2.ackEliciting)
    (current : core.pmtud.current = mtu ∨ core.pmtud.current = BASE_MTU)
    (met : ∀ entry ∈ lost, core.mtuProbePn = some entry.1 ∨ entry.2.Sized mtu) :
    Streak ((lost.map Prod.fst).foldl (fun core pn => core.loseOne .data pn) core).search
      (lost.foldl loseCounted (core, count)).2 := by
  induction lost generalizing core count with
  | nil => exact streak
  | cons entry _ ih =>
    rw [forall_mem_cons] at contents met
    rw [map_cons, nodup_cons] at distinct
    obtain ⟨counted, moved⟩ := streak.loseOne contents.1 current met.1
    refine ih counted distinct.2 ?_ ?_ ?_
    · intro other member
      have apart : entry.1 ≠ other.1 := fun same =>
        distinct.1 (same ▸ mem_map_of_mem member)
      rw [records_loseOne, Function.update_self, SentRecord.lookup_forget, if_neg apart]
      exact contents.2 other member
    · rcases moved with same | fallen
      · rwa [← same] at current
      · exact .inr fallen
    · intro other member
      rcases met.2 other member with probed | sized
      · left
        have told := congrArg Prod.snd (search_loseOne core .data entry.1)
        have apart : core.mtuProbePn ≠ some entry.1 := by
          rw [probed]
          intro same
          exact distinct.1 (Option.some.inj same ▸ mem_map_of_mem member)
        rw [if_neg (by simp), if_neg apart] at told
        refine Eq.trans ?_ probed
        exact told.trans (by split <;> rfl)
      · exact .inr sized

theorem Streak.losses (streak : Streak core.search count)
    (agrees : (core.records .data).Agrees) {lossDelay now : Nat}
    (met : core.FullSized (.losses lossDelay now)) :
    Streak (core.losePackets .data lossDelay now).search
      (core.recount count (.losses lossDelay now)) := by
  have entries :
      ((core.declaredLost lossDelay now).map Prod.fst).Nodup ∧
        ∀ entry ∈ core.declaredLost lossDelay now,
          (core.spaces .data).sent.packets[entry.1]? = some entry.2 := by
    unfold declaredLost SentPackets.detectLost
    split
    · simp
    · exact SentPackets.removeAll_entries _ _
  refine .foldl (core.declaredLost lossDelay now) streak entries.1 ?_ (.inl rfl) met
  intro entry member
  have kept := agrees.contents entry.1
  rw [show (core.records .data).sent.packets[entry.1]? = some entry.2 from
    entries.2 entry member, Option.any_some] at kept
  exact kept

variable [TlsSession T]

/-- An act that neither acknowledges nor loses DATA packets. -/
theorem Streak.other {next : Core T} (streak : Streak core.search count)
    (act : Act core next) (passed : core.Passed next .other) : Streak next.search count := by
  rcases act.search with same | ⟨_, _, acked⟩ | ⟨_, _, lost⟩ | ⟨-, searched, probing⟩
  · rwa [same]
  · exact absurd acked (passed.1 _ _)
  · exact absurd lost (passed.2 _ _)
  · obtain ⟨counted, floor, base, probe⟩ := streak
    have kept : core.pmtud.nextProbeSize.1.current = core.pmtud.current ∧
        core.pmtud.nextProbeSize.1.blackholeLosses = core.pmtud.blackholeLosses ∧
        (core.pmtud.nextProbeSize.1.probeSize = none →
          core.pmtud.nextProbeSize.2 = none ∧ core.pmtud.probeSize = none) := by
      unfold Pmtud.nextProbeSize
      split
      · exact ⟨rfl, rfl, fun none => ⟨rfl, none⟩⟩
      · have idle : core.pmtud.probeSize = none := by simp_all
        split
        · exact ⟨rfl, rfl, fun none => ⟨rfl, none⟩⟩
        · split
          · exact ⟨rfl, rfl, fun none => ⟨rfl, none⟩⟩
          · exact ⟨rfl, rfl, by simp⟩
        · split
          · exact ⟨rfl, rfl, fun none => ⟨rfl, none⟩⟩
          · exact ⟨rfl, rfl, by simp⟩
    rw [← searched] at kept
    obtain ⟨current, losses, unprobed⟩ := kept
    refine ⟨losses.trans counted, floor.trans current.ge,
      fun low => base (current.ge.trans low), fun above tracked idle => ?_⟩
    obtain ⟨undue, none⟩ := unprobed idle
    exact probe (current ▸ above) (fun absent => tracked ((probing undue).trans absent)) none

theorem Counts.streak {maxSent : Dir → Nat} {start : Core T}
    (fresh : Fresh maxSent start) (counts : Counts FullSized start core count) :
    Streak core.search count ∧ ∀ space, (core.records space).Agrees := by
  induction counts with
  | start =>
    refine ⟨?_, fun space => ?_⟩
    · have new : start.search = (.new, none) := by cases fresh <;> rfl
      rw [new]
      exact ⟨rfl, le_rfl, fun _ => rfl, by simp⟩
    · rw [fresh.records]
      exact SentRecord.agrees_new
  | @step _ next _ pass _ act passed met ih =>
    refine ⟨?_, act.records_agree ih.2⟩
    cases pass with
    | acks =>
      rw [show next = _ from passed]
      exact ih.1.acks met
    | losses =>
      rw [show next = _ from passed]
      exact ih.1.losses (ih.2 .data) met
    | other => exact ih.1.other act passed

end Core

/-! ## A run with full-size losses -/

namespace Core

variable {T : Type} {core next : Core T}

/-- What neither an ACK nor a loss changes. -/
def marks (core : Core T) : Bool × Bool × Nat :=
  (core.handshakeConfirmed, (core.spaces .data).keys.isSome, core.nextPn .data)

theorem Aside.marks (aside : Aside core next) : next.marks = core.marks := by
  unfold Core.marks nextPn
  rw [aside.spaces .data, aside.core]

theorem passed_other (changed : next.marks ≠ core.marks) : core.Passed next .other :=
  ⟨fun _ _ same => changed (same ▸ (Aside.ackPackets ..).marks),
    fun _ _ same => changed (same ▸ (Aside.losePackets ..).marks)⟩

def freshExample : Core ScriptedTls :=
  (blank .client (.ready .client Connection.exampleParams) .empty .empty .empty
    (freshTable .client (fun _ => 0) none)).mapSpace .initial fun sp =>
      { sp with keys := some (TlsSession.initialKeys (T := ScriptedTls) .empty .client) }

/-- The keys are installed and the handshake is confirmed. -/
def confirmedExample : Core ScriptedTls :=
  { freshExample.writeRound with handshakeConfirmed := true }

def fullPacket : SentPacket := ⟨0, 1352, true, 0⟩

/-- A probe of the full size is sent, and then acknowledged. -/
def probedExample : Core ScriptedTls :=
  { { confirmedExample with pmtud := confirmedExample.pmtud.nextProbeSize.1 }.emit .data
      fullPacket (some .empty) with
    mtuProbePn := some (confirmedExample.nextPn .data) }

def raisedExample : Core ScriptedTls := probedExample.ackPackets .data 0 [(0, 0)]

def emitFull (core : Core ScriptedTls) : Core ScriptedTls :=
  core.emit .data fullPacket (some .empty)

/-- Three packets fill the raised MTU, and the last of them is acknowledged. -/
def ackedExample : Core ScriptedTls :=
  raisedExample.emitFull.emitFull.emitFull.ackPackets .data 3 [(3, 3)]

theorem counts_emitFull {start core : Core ScriptedTls} {count : Nat}
    (counts : Counts FullSized start core count) {key : PacketKey} (ready : core.MaySeal .data key)
    (changed : core.emitFull.marks ≠ core.marks) : Counts FullSized start core.emitFull count :=
  .step counts (.control fullPacket .empty rfl rfl rfl nofun ready) (passed_other changed) trivial

theorem counts_lossExample :
    Counts FullSized freshExample (ackedExample.losePackets .data 0 1) 2 := by
  have written : Counts FullSized freshExample freshExample.writeRound 0 :=
    .step .start (.write _) (passed_other (by decide +kernel)) trivial
  have confirmed : Counts FullSized freshExample confirmedExample 0 :=
    .step written (.confirmHandshake rfl) (passed_other (by decide +kernel)) trivial
  have probed : Counts FullSized freshExample probedExample 0 :=
    .step confirmed (.probe fullPacket 1352 rfl (by decide) rfl rfl ⟨rfl, by decide, by decide⟩)
      (passed_other (by decide +kernel)) trivial
  have raised : Counts FullSized freshExample raisedExample
      (probedExample.recount 0 (.acks 0 [(0, 0)])) :=
    .step probed (.acks .data 0 _ (by decide) fun _ => rfl) rfl fun above => absurd above (by decide)
  have filled : Counts FullSized freshExample raisedExample.emitFull.emitFull.emitFull 0 :=
    counts_emitFull (counts_emitFull (counts_emitFull raised ⟨rfl, by decide, by decide⟩
      (by decide +kernel)) ⟨rfl, by decide, by decide⟩ (by decide +kernel))
      ⟨rfl, by decide, by decide⟩ (by decide +kernel)
  have acked : Counts FullSized freshExample ackedExample
      (raisedExample.emitFull.emitFull.emitFull.recount 0 (.acks 3 [(3, 3)])) :=
    .step filled (.acks .data 3 _ (by decide) fun _ => rfl) rfl fun _ _ => by decide +kernel
  have lost : Counts FullSized freshExample (ackedExample.losePackets .data 0 1)
      (ackedExample.recount 0 (.losses 0 1)) :=
    .step acked (.losses _ .data 0 1) rfl <|
      show ∀ entry ∈ ackedExample.declaredLost 0 1, _ by decide +kernel
  exact lost

end Core

namespace Connection

/-! ## Runs of a connection -/

/-- The handshake is done, and two small packets and a probe are in flight. -/
def probingExample : List Event :=
  [initialDatagram 0 [.crypto 0 Tls.ExampleServer.clientHello] 1200,
    .pollTransmit 0, .pollTransmit 0,
    handshakeDatagram 0 [.crypto 0 Tls.ExampleServer.clientFinished]] ++
    List.replicate 5 (.pollTransmit 0)

section Examples

variable {T C : Type} [TlsSession T] [Controller C] (conn : Connection T C)

def acked (pn now : Nat) : Connection T C :=
  (conn.processFrame ⟨.data, none, now⟩ 0x02 (.ack ⟨pn, 0, [(pn, pn)], none⟩)).1

def AllSmall : Prop :=
  ∀ entry ∈ (conn.spaces .data).sent.packets.toList, entry.2.size < conn.pmtud.currentMtu

instance : Decidable conn.AllSmall := List.decidableBAll ..

theorem frameRuns_acked (keyed : (conn.spaces .data).keys.isSome = true)
    (pn now : Nat) : FrameRuns conn (conn.acked pn now) :=
  .single (@.frame _ _ _ _ conn .oneRtt 0x02 _ (fun _ => keyed)
    (by cases conn.side <;> rfl) (by simp [Frame.HasType]) none now)

end Examples

/-- Every run of a connection has a count of the full-size packets lost, and
the streak is that count in every run whose acts see full-size packets
only. -/
theorem blackholeLosses_eq_count {T C : Type} [TlsSession T] [Controller C]
    {recvMaxStreamsSent : Dir → Nat} {start conn : Connection T C}
    (starts : Starts recvMaxStreamsSent start) (runs : FrameRuns start conn) :
    (∃ (fresh : Core T) (count : Nat), Core.Fresh recvMaxStreamsSent fresh ∧
      Core.Counts (fun _ _ => True) fresh conn.core count) ∧
    ∀ (fresh core : Core T) (count : Nat), Core.Fresh recvMaxStreamsSent fresh →
      Core.Counts Core.FullSized fresh core count → core.pmtud.blackholeLosses = count := by
  obtain ⟨fresh, isFresh, acts⟩ := runs.acts starts
  obtain ⟨count, counts⟩ := Core.counts_of_acts acts
  exact ⟨⟨fresh, count, isFresh, counts⟩,
    fun _ _ _ isFresh counts => (counts.streak isFresh).1.counted⟩

/-- Two packets that fill an MTU of 1352 are lost, and make a streak of two. -/
theorem blackholeLosses_eq_count_two :
    Core.Counts Core.FullSized Core.freshExample (Core.ackedExample.losePackets .data 0 1) 2 ∧
      (Core.ackedExample.losePackets .data 0 1).pmtud.current = 1352 ∧
      (Core.ackedExample.losePackets .data 0 1).pmtud.blackholeLosses = 2 := by
  have starts : Starts (fun _ => 0) openingExample := .client ..
  have streak := (blackholeLosses_eq_count starts .refl).2
  exact ⟨Core.counts_lossExample, by decide +kernel,
    streak _ _ 2 (.client _ .empty .empty none) Core.counts_lossExample⟩

/-- The ACK of the probe raises the MTU. Then losing two small packets makes a
streak of two, and the acknowledgement of a small one clears it. -/
theorem small_packets_move_streak :
    ∃ conn lost resent :
        Connection (Tls.ServerSession Tls.ExampleServer) FixedWindow,
      FrameRuns (waitingExample 1) conn ∧ conn.AllSmall ∧
        conn.pmtud.blackholeLosses = 0 ∧
        conn.step (.handleTimeout 1000000000 0) = some lost ∧
        lost.pmtud.blackholeLosses = 2 ∧
        FrameRuns lost resent ∧ resent.AllSmall ∧
        resent.pmtud.blackholeLosses = 2 ∧
        FrameRuns resent (resent.acked 3 1000001000) ∧
        (resent.acked 3 1000001000).pmtud.blackholeLosses = 0 := by
  have facts : ((waitingExample 1).play probingExample).any (fun probing =>
      let conn := probing.acked 2 1000
      (probing.spaces .data).keys.isSome &&
        decide conn.AllSmall &&
        decide (conn.pmtud.blackholeLosses = 0) &&
        (conn.step (.handleTimeout 1000000000 0)).any fun lost =>
          decide (lost.pmtud.blackholeLosses = 2) &&
            (lost.play (List.replicate 2 (.pollTransmit 1000000000))).any
              fun resent => (resent.spaces .data).keys.isSome && decide resent.AllSmall &&
                decide (resent.pmtud.blackholeLosses = 2) &&
                decide ((resent.acked 3 1000001000).pmtud.blackholeLosses = 0)) = true := by
    decide +kernel
  simp only [Option.any_eq_true, Bool.and_eq_true, decide_eq_true_eq] at facts
  obtain ⟨probing, probed, ⟨⟨keyed, small⟩, none⟩, lost, passed, two,
    resent, played, ⟨⟨⟨still, smaller⟩, kept⟩, cleared⟩⟩ := facts
  exact ⟨probing.acked 2 1000, lost, resent,
    (runs_of_play probed).frames.trans (frameRuns_acked probing keyed 2 1000),
    small, none, passed, two, (runs_of_play played).frames, smaller,
    kept, frameRuns_acked resent still 3 _, cleared⟩

end Connection

end ParallaX.Quic
