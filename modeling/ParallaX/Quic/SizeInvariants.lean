import ParallaX.Quic.Nonces

/-!
# What bounds the packets of a connection

The path MTU stays between its base and its ceiling, an ACK has a bounded
number of ranges, and every sealing key has the same tag.
-/

namespace ParallaX.Quic

open ReceivedPackets

/-! ## The path MTU -/

namespace Pmtud

/-- What acknowledgements and losses tell the search. -/
inductive Note : Pmtud → Pmtud → Prop
  | probeAcked (pmtud : Pmtud) : Note pmtud pmtud.onProbeAcked
  | probeLost (pmtud : Pmtud) : Note pmtud pmtud.onProbeLost
  | fullSizeLoss (pmtud : Pmtud) : Note pmtud pmtud.onFullSizeLoss.1
  | fullSizeAcked (pmtud : Pmtud) : Note pmtud pmtud.onFullSizeAcked

def Notes : Pmtud → Pmtud → Prop := Relation.ReflTransGen Note

/-- All sizes of the search lie below its ceiling. -/
structure Within (pmtud : Pmtud) : Prop where
  base : BASE_MTU ≤ pmtud.current
  current : pmtud.current ≤ MAX_MTU
  low : pmtud.low ≤ MAX_MTU
  high : pmtud.high ≤ MAX_MTU
  probe : ∀ size, pmtud.probeSize = some size → size ≤ MAX_MTU

/-- No probe was ever sent. -/
structure Unprobed (pmtud : Pmtud) : Prop where
  current : pmtud.current = BASE_MTU
  probe : pmtud.probeSize = none

theorem within_new : new.Within := ⟨le_rfl, by decide, by decide, le_rfl, nofun⟩

theorem unprobed_new : new.Unprobed := ⟨rfl, rfl⟩

variable {pmtud later : Pmtud}

theorem Within.note (within : pmtud.Within) (note : Note pmtud later) : later.Within := by
  cases note with
  | probeAcked =>
    unfold onProbeAcked
    split
    · exact within
    next size outstanding =>
      have bounded := within.probe size outstanding
      refine ⟨?_, ?_, max_le within.low bounded, within.high, nofun⟩
      · have base := within.base
        dsimp only
        split <;> omega
      · dsimp only
        split
        · exact bounded
        · exact within.current
  | probeLost =>
    unfold onProbeLost
    split
    · exact within
    next size outstanding =>
      have bounded := within.probe size outstanding
      split
      · exact { within with probe := nofun }
      · exact ⟨within.base, within.current, within.low,
          max_le ((Nat.sub_le _ _).trans bounded) within.low, nofun⟩
  | fullSizeLoss =>
    unfold onFullSizeLoss
    split
    · exact within
    split
    · exact within_new
    · exact { within with }
  | fullSizeAcked => exact { within with }

theorem Unprobed.note (unprobed : pmtud.Unprobed) (note : Note pmtud later) : later.Unprobed := by
  cases note with
  | probeAcked =>
    unfold onProbeAcked
    rw [unprobed.probe]
    exact unprobed
  | probeLost =>
    unfold onProbeLost
    rw [unprobed.probe]
    exact unprobed
  | fullSizeLoss =>
    unfold onFullSizeLoss
    rw [if_pos unprobed.current.le]
    exact unprobed
  | fullSizeAcked => exact ⟨unprobed.current, unprobed.probe⟩

theorem midpoint_le (within : pmtud.Within) : pmtud.midpoint ≤ MAX_MTU :=
  (min_le_right _ _).trans within.high

theorem Within.nextProbeSize (within : pmtud.Within) : pmtud.nextProbeSize.1.Within := by
  have middle : ∀ size, some pmtud.midpoint = some size → size ≤ MAX_MTU := by
    rintro _ ⟨rfl⟩
    exact midpoint_le within
  unfold Pmtud.nextProbeSize
  split
  · exact within
  split
  · exact within
  · split
    · exact { within with }
    · exact { within with probe := middle }
  · split
    · exact { within with }
    · exact { within with probe := middle }

end Pmtud

namespace Core

variable {T : Type}

/-! ## Acts and the path MTU -/

variable {first second : Core T} {maxSent : Dir → Nat}
  {holds : ReceivedPackets → Prop} (core : Core T) (space : SpaceId)

def search : Pmtud × Option Nat := (core.pmtud, core.mtuProbePn)

variable (pn largest : Nat) (content : SentContent) (ranges : List (Nat × Nat))

theorem search_take : (core.take space pn content).search = core.search := by
  unfold take unindex
  split <;> rfl

theorem search_emit (packet : SentPacket) (content : Option SentContent) :
    (core.emit space packet content).search = core.search := by
  unfold emit record
  rw [view_sealed _ space _ search fun _ _ _ _ _ => rfl]
  cases content with
  | none => rfl
  | some content => exact view_index _ space content search fun _ _ => rfl

theorem search_foldl_ackOne (pns : List Nat) :
    (pns.foldl (fun core pn => core.ackOne space pn) core).search = core.search := by
  induction pns generalizing core with
  | nil => rfl
  | cons pn _ ih =>
    rw [List.foldl_cons, ih, ackOne]
    split
    · rfl
    · exact search_take core space pn _

theorem search_ackPackets :
    (core.ackPackets space largest ranges).search =
      if ((core.spaces space).sent.onAck largest ranges).2 = [] ∨
          space ≠ .data then
        core.search
      else if ((core.spaces space).sent.onAck largest ranges).2.any
          fun entry => core.mtuProbePn = some entry.1 then
        (core.pmtud.onProbeAcked, none)
      else
        (core.pmtud.onFullSizeAcked, core.mtuProbePn) := by
  unfold ackPackets
  simp only [List.isEmpty_iff]
  by_cases nothing : ((core.spaces space).sent.onAck largest ranges).2 = []
  · rw [if_pos nothing, if_pos (.inl nothing)]
    rfl
  rw [if_neg nothing]
  have folded := search_foldl_ackOne
    (core.withSent space ((core.spaces space).sent.onAck largest ranges).1)
    space (((core.spaces space).sent.onAck largest ranges).2.map Prod.fst)
  generalize List.foldl _ _ _ = acked at folded ⊢
  obtain ⟨search, probe⟩ := Prod.mk.inj folded
  unfold noteProbe
  by_cases data : space = .data
  · rw [if_pos data]
    rw [if_neg (not_or.mpr ⟨nothing, not_not.mpr data⟩), List.any_map, probe]
    split
    next found =>
      exact (congrArg (fun pmtud => (pmtud.onProbeAcked, none)) search).trans (if_pos found).symm
    next missing =>
      exact (congrArg (fun pmtud => (pmtud.onFullSizeAcked, core.mtuProbePn))
        search).trans (if_neg missing).symm
  · rw [if_neg data, if_pos (.inr data)]
    exact folded

theorem search_loseOne :
    (core.loseOne space pn).search = if space ≠ .data then core.search
      else if core.mtuProbePn = some pn then (core.pmtud.onProbeLost, none)
      else if (core.spaces space).sentContent[pn]?.isSome then
        (core.pmtud.onFullSizeLoss.1, core.mtuProbePn)
      else core.search := by
  unfold loseOne
  by_cases data : space = .data
  · rw [if_neg (not_not.mpr data)]
    by_cases probe : core.mtuProbePn = some pn
    · rw [if_pos ⟨data, probe⟩, if_pos probe]
      cases (core.spaces space).sentContent[pn]? with
      | none => rfl
      | some content => exact search_take _ space pn content
    · rw [if_neg (by simp [probe]), if_neg probe]
      cases (core.spaces space).sentContent[pn]? with
      | none => rfl
      | some content =>
        obtain ⟨search, same⟩ := Prod.mk.inj (search_take core space pn content)
        simp only [data, if_true] at search same ⊢
        exact Prod.ext (congrArg (·.onFullSizeLoss.1) search) same
  · rw [if_pos data, if_neg (by simp [data])]
    cases (core.spaces space).sentContent[pn]? with
    | none => rfl
    | some content =>
      simp only [data, if_false]
      exact search_take core space pn content

theorem notes_ackPackets : Pmtud.Notes core.pmtud (core.ackPackets space largest ranges).pmtud := by
  have told := congrArg Prod.fst (search_ackPackets core space largest ranges)
  rw [show (core.ackPackets space largest ranges).pmtud = _ from told]
  split
  · exact .refl
  split
  · exact .single (.probeAcked _)
  · exact .single (.fullSizeAcked _)

theorem notes_loseOne : Pmtud.Notes core.pmtud (core.loseOne space pn).pmtud := by
  have told := congrArg Prod.fst (search_loseOne core space pn)
  rw [show (core.loseOne space pn).pmtud = _ from told]
  split
  · exact .refl
  split
  · exact .single (.probeLost _)
  split
  · exact .single (.fullSizeLoss _)
  · exact .refl

theorem notes_losePackets (lossDelay now : Nat) :
    Pmtud.Notes core.pmtud (core.losePackets space lossDelay now).pmtud := by
  have folded : ∀ (pns : List Nat) (core : Core T),
      Pmtud.Notes core.pmtud (pns.foldl (fun core pn => core.loseOne space pn) core).pmtud := by
    intro pns
    induction pns with
    | nil => exact fun _ => .refl
    | cons pn _ ih =>
      intro core
      exact (notes_loseOne core space pn).trans (ih _)
  exact folded _ (core.withSent space _)

theorem search_losePackets (other : space ≠ .data) (lossDelay now : Nat) :
    (core.losePackets space lossDelay now).search = core.search := by
  have folded : ∀ (pns : List Nat) (core : Core T),
      (pns.foldl (fun core pn => core.loseOne space pn) core).search = core.search := by
    intro pns
    induction pns with
    | nil => exact fun _ => rfl
    | cons _ _ ih =>
      intro core
      rw [List.foldl_cons, ih, search_loseOne, if_pos other]
  exact folded _ (core.withSent space _)

theorem search_installKeys (change : Option KeyChange) :
    (core.installKeys change).search = core.search := by
  unfold installKeys
  split <;> rfl

variable [TlsSession T]

theorem Act.search (act : Act first second) :
    second.search = first.search ∨
      (∃ largest ranges, second = first.ackPackets .data largest ranges) ∨
      (∃ lossDelay now, second = first.losePackets .data lossDelay now) ∨
      first.handshakeConfirmed = true ∧ second.pmtud = first.pmtud.nextProbeSize.1 ∧
        (first.pmtud.nextProbeSize.2 = none → second.mtuProbePn = first.mtuProbePn) := by
  cases act with
  | answered =>
    left
    unfold noteAckSent
    split <;> rfl
  | bare | control => exact .inl (search_emit ..)
  | @crypto space _ packet => exact .inl (search_emit first space packet _)
  | stream packet | zeroRttStream packet => exact .inl (search_emit first .data packet _)
  | probe packet _ _ due _ confirmed =>
    have emitted := search_emit
      { first with pmtud := first.pmtud.nextProbeSize.1 } .data packet (some .empty)
    refine .inr (.inr (.inr ⟨confirmed, congrArg Prod.fst emitted, fun none => ?_⟩))
    rw [none] at due
    cases due
  | searchEnds _ confirmed => exact .inr (.inr (.inr ⟨confirmed, rfl, fun _ => rfl⟩))
  | acks space largest ranges =>
    by_cases data : space = .data
    · exact .inr (.inl ⟨largest, ranges, by rw [data]⟩)
    · exact .inl ((search_ackPackets ..).trans (if_pos (.inr data)))
  | losses space lossDelay now =>
    by_cases data : space = .data
    · exact .inr (.inr (.inl ⟨lossDelay, now, by rw [data]⟩))
    · exact .inl (search_losePackets first space data lossDelay now)
  | @probeTimeout space pn content => exact .inl (search_take first space pn content)
  | write => exact .inl (search_installKeys _ _)
  | drainCrypto =>
    left
    unfold feedTls
    split <;> rfl
  | _ => exact .inl rfl

theorem Act.pmtud (act : Act first second) :
    Pmtud.Notes first.pmtud second.pmtud ∨
      first.handshakeConfirmed = true ∧ second.pmtud = first.pmtud.nextProbeSize.1 := by
  rcases act.search with same | ⟨_, _, rfl⟩ | ⟨_, _, rfl⟩ | ⟨confirmed, searched, -⟩
  · left
    rw [show second.pmtud = first.pmtud from congrArg Prod.fst same]
    exact .refl
  · exact .inl (notes_ackPackets ..)
  · exact .inl (notes_losePackets ..)
  · exact .inr ⟨confirmed, searched⟩

/-- The search is within its bounds, and untouched before the handshake is
confirmed. -/
structure Probing (core : Core T) : Prop where
  within : core.pmtud.Within
  unprobed : core.handshakeConfirmed = false → core.pmtud.Unprobed

theorem Act.probing (act : Act first second) (probing : first.Probing) : second.Probing := by
  have unconfirmed : second.handshakeConfirmed = false → first.handshakeConfirmed = false := by
    intro open_
    by_contra confirmed
    rw [Bool.not_eq_false] at confirmed
    rw [act.reworks.1 confirmed] at open_
    cases open_
  rcases act.pmtud with notes | ⟨confirmed, searched⟩
  · refine ⟨?_, fun open_ => ?_⟩
    · exact Relation.ReflTransGen.head_induction_on
        (motive := fun start _ => start.Within → second.pmtud.Within) notes
        id (fun note _ rest within => rest (within.note note)) probing.within
    · exact Relation.ReflTransGen.head_induction_on
        (motive := fun start _ => start.Unprobed → second.pmtud.Unprobed) notes
        id (fun note _ rest unprobed => rest (unprobed.note note))
        (probing.unprobed (unconfirmed open_))
  · refine ⟨?_, fun open_ => ?_⟩
    · rw [searched]
      exact probing.within.nextProbeSize
    · rw [unconfirmed open_] at confirmed
      cases confirmed

variable {core}

theorem Fresh.probing (fresh : Fresh maxSent core) : core.Probing := by
  cases fresh with
  | client | server => exact ⟨Pmtud.within_new, fun _ => Pmtud.unprobed_new⟩

omit [TlsSession T] in
theorem recv_mapSpace (change : SpaceCore → SpaceCore)
    (all : ∀ other, holds (core.spaces other).recv)
    (changed : holds (change (core.spaces space)).recv) (other : SpaceId) :
    holds ((core.mapSpace space change).spaces other).recv := by
  by_cases same : other = space
  · subst same
    rw [spaces_mapSpace_self]
    exact changed
  · rw [spaces_mapSpace_of_ne same]
    exact all other

theorem Rework.received_invariant {space : SpaceId} {keep next : SpaceKeep}
    (rework : Rework space keep next) (sound : keep.recv.Invariant) : next.recv.Invariant := by
  cases rework with
  | keyed added =>
    rw [added.rest]
    exact sound
  | received pn => exact sound.insert pn
  | discarded => exact invariant_new
  | _ => exact sound

theorem Fresh.received (fresh : Fresh maxSent core) :
    ∀ space, (core.spaces space).recv.Invariant := by
  have none (space : SpaceId) : ((fun _ => Space.new.toSpaceCore) space).recv.Invariant :=
    invariant_new
  cases fresh with
  | client => exact recv_mapSpace _ _ none invariant_new
  | server => exact none

end Core

/-! ## Tags -/

namespace SealingView

variable {T : Type}

structure Tagged (view : SealingView T) : Prop where
  spaces : ∀ space key, (view.spaces space).key = some key → key.tagLen = TAG_LEN
  early : ∀ key, view.zeroRttKey = some key → key.tagLen = TAG_LEN
  cached : ∀ key, view.cached = some key → key.tagLen = TAG_LEN

variable {view : SealingView T}

theorem tagged_mapSpace (space : SpaceId) (change : SealSpace → SealSpace) (tagged : view.Tagged)
    (changed : ∀ key, (change (view.spaces space)).key = some key → key.tagLen = TAG_LEN) :
    (view.mapSpace space change).Tagged := by
  refine ⟨?_, tagged.early, tagged.cached⟩
  intro other key isKey
  by_cases same : other = space
  · subst same
    rw [spaces_mapSpace_self] at isKey
    exact changed key isKey
  · rw [spaces_mapSpace_of_ne same] at isKey
    exact tagged.spaces other key isKey

theorem tagged_install (tagged : view.Tagged) (client : Bool) (tls : T)
    {change : Option KeyChange}
    (handed : ∀ keys, change = some keys → keys.keys.localKey.tagLen = TAG_LEN) :
    (view.install client tls change).Tagged := by
  match change, handed with
  | none, _ => exact { tagged with }
  | some (.zeroRtt keys), handed =>
    refine ⟨tagged.spaces, ?_, tagged.cached⟩
    rintro key ⟨rfl⟩
    exact handed _ rfl
  | some (.handshake keys), handed =>
    have mapped := tagged_mapSpace .handshake
      (fun sp => { sp with key := some keys.localKey }) tagged
      (by
        rintro key ⟨rfl⟩
        exact handed _ rfl)
    exact { mapped with }
  | some (.oneRtt keys), handed =>
    have mapped := tagged_mapSpace .data (fun sp => { sp with key := some keys.localKey }) tagged
      (by
        rintro key ⟨rfl⟩
        exact handed _ rfl)
    refine ⟨mapped.spaces, ?_, mapped.cached⟩
    intro key isKey
    cases client with
    | false => exact tagged.early key isKey
    | true => cases isKey

theorem Step.tagged [TaggedTls T] {later : SealingView T} (step : Step view later)
    (tagged : view.Tagged) : later.Tagged := by
  cases step with
  | same => exact tagged
  | @emit space =>
    have inv := tagged_mapSpace space (fun sp => { sp with next := sp.next + 1 }) tagged
      (tagged.spaces space)
    exact { inv with }
  | read | deriveFails => exact { tagged with }
  | write client =>
    exact tagged_install tagged client _ fun change written =>
      TaggedTls.write_tag view.tls change written
  | @derive localKey remoteKey derived =>
    refine ⟨tagged.spaces, tagged.early, ?_⟩
    rintro key ⟨rfl⟩
    exact TaggedTls.next_tag view.tls localKey remoteKey derived
  | @rotate key cached =>
    have rotated := tagged_mapSpace .data (fun sp => { sp with key := some key }) tagged
      (by
        rintro _ ⟨rfl⟩
        exact tagged.cached key cached)
    exact ⟨rotated.spaces, rotated.early, nofun⟩
  | spend => exact ⟨tagged.spaces, tagged.early, nofun⟩
  | discard => exact tagged_mapSpace _ _ tagged nofun
  | learn dcid =>
    apply tagged_mapSpace _ _ tagged
    rintro _ ⟨rfl⟩
    exact TaggedTls.initial_tag dcid .server

end SealingView

namespace Core

variable {T : Type} [TaggedTls T] {maxSent : Dir → Nat}

theorem Fresh.tagged {core : Core T}
    (fresh : Fresh maxSent core) : core.sealing.Tagged := by
  cases fresh with
  | client _ dcid =>
    refine ⟨?_, nofun, nofun⟩
    intro space key isKey
    change ((Core.mapSpace ..).spaces space).keys.map _ = some key at isKey
    by_cases initial : space = .initial
    · subst initial
      cases isKey
      exact TaggedTls.initial_tag dcid .client
    · rw [spaces_mapSpace_of_ne initial] at isKey
      cases isKey
  | server => exact ⟨nofun, nofun, nofun⟩

/-- What bounds the packets of a connection. -/
structure Measured (core : Core T) : Prop where
  probing : core.Probing
  received : ∀ space, (core.spaces space).recv.Invariant
  tagged : core.sealing.Tagged

theorem Act.measured {first second : Core T} (act : Act first second)
    (measured : first.Measured) : second.Measured :=
  ⟨act.probing measured.probing,
    fun space => (act.reworks.2 space).received_invariant (measured.received space),
    act.sealing.tagged measured.tagged⟩

theorem Fresh.measured {core : Core T} (fresh : Fresh maxSent core) : core.Measured :=
  ⟨fresh.probing, fresh.received, fresh.tagged⟩

end Core

end ParallaX.Quic
