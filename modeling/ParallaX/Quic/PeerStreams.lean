import ParallaX.Quic.Refinement

/-!
# Streams of the peer

How many streams the peer may have open, what it is told about that, and that
each of its ids is queued for the application once and never comes back.
-/

namespace ParallaX.Quic

open ParallaX.Data Function List Option Bool Std.TreeMap

namespace Streams

def peerWeight (table : Streams) (kind : Dir) (id : Nat) : Nat :=
  if table.isPeerInitiated id && decide (kindOf id = kind) then 1 else 0

theorem livePeerStreams_eq_total (table : Streams) (kind : Dir) :
    table.livePeerStreams kind = total (fun id _ => table.peerWeight kind id) table.streams := by
  have counted (entries : List (Nat × Stream)) : ((entries.map Prod.fst).filter fun other =>
          table.isPeerInitiated other && decide (kindOf other = kind)).length =
        (entries.map fun entry => table.peerWeight kind entry.1).sum := by
    induction entries with
    | nil => rfl
    | cons entry _ ih =>
      rw [map_cons, map_cons, sum_cons, ← ih]
      unfold peerWeight
      by_cases counts : (table.isPeerInitiated entry.1 && decide (kindOf entry.1 = kind)) = true
      · rw [filter_cons, if_pos counts, if_pos counts, length_cons, add_comm]
      · rw [filter_cons, if_neg counts, if_neg counts, zero_add]
  unfold livePeerStreams total
  rw [← counted, map_fst_toList_eq_keys]

/-- The low bits of the ids of the peer's streams of a kind. -/
def peerBits (side : Side) (kind : Dir) : Nat :=
  (if side = .server then 0 else 1) + if kind = .uni then 2 else 0

theorem mod_four_of_peer {side : Side} {id : Nat}
    (peer : (id.testBit 0 != decide (side = .server)) = true) :
    id % 4 = peerBits side (kindOf id) := by
  unfold peerBits kindOf isUni
  rw [Nat.testBit_eq_decide_div_mod_eq] at peer ⊢
  cases side <;>
    simp only [reduceCtorEq, decide_true, decide_false, bne_iff_ne,
      ne_eq, decide_eq_true_eq, decide_eq_false_iff_not, ite_true,
      ite_false] at peer ⊢ <;>
    split <;> rename_i bit <;> simp at bit ⊢ <;> omega

end Streams

/-! ## The peer's streams as a view of the table -/

/-- What the limits on the peer's streams depend on. -/
structure PeerView where
  side : Side
  contains : Nat → Bool
  live : Dir → Nat
  opened : Dir → Nat
  recvMaxStreams : Dir → Nat
  recvMaxStreamsSent : Dir → Nat
  nextBidi : Nat
  nextUni : Nat
  retired : List Nat
  taken : Dir → List Nat
  accept : Dir → List Nat

namespace PeerView

def isPeer (view : PeerView) (id : Nat) : Bool := id.testBit 0 != decide (view.side = .server)

def nextOwn (view : PeerView) (id : Nat) : Nat :=
  if isUni id then view.nextUni else view.nextBidi

def wasOpened (view : PeerView) (id : Nat) : Prop :=
  if view.isPeer id then id / 4 < view.opened (kindOf id)
  else id < view.nextOwn id

def idsBelow (side : Side) (kind : Dir) (opened : Nat) : List Nat :=
  (List.range opened).map fun ordinal =>
    ordinal * 4 + Streams.peerBits side kind

/-- The ids of a kind that were queued, short of those that were retired while
they waited. -/
def queued (view : PeerView) (kind : Dir) : List Nat := view.taken kind ++ view.accept kind

/-- Every stream is below its frontier. -/
def Enclosed (view : PeerView) : Prop := ∀ id, view.contains id = true → view.wasOpened id

/-- A stream was opened and is no longer there. -/
def Gone (view : PeerView) (id : Nat) : Prop := view.contains id = false ∧ view.wasOpened id

structure Sound (view : PeerView) : Prop where
  enclosed : view.Enclosed
  gone : ∀ id ∈ view.retired, view.Gone id
  live_le : ∀ kind, view.live kind ≤ view.opened kind
  few : ∀ kind, view.live kind ≤ MAX_PEER_STREAMS
  limit : ∀ kind, view.recvMaxStreams kind =
    min (MAX_PEER_STREAMS + (view.opened kind - view.live kind)) (2 ^ 60)
  advertised : ∀ kind, view.recvMaxStreamsSent kind ≤ view.recvMaxStreams kind
  order : ∀ kind, (view.queued kind).Sublist (idsBelow view.side kind (view.opened kind))
  covered : ∀ kind, ∀ id ∈ idsBelow view.side kind (view.opened kind),
    id ∈ view.queued kind ∨ id ∈ view.retired

def openNext (view : PeerView) (id : Nat) : PeerView :=
  { view with
    contains := update view.contains id true
    live := update view.live (kindOf id) (view.live (kindOf id) + 1)
    opened := update view.opened (kindOf id) (id / 4 + 1)
    accept := update view.accept (kindOf id) (view.accept (kindOf id) ++ [id]) }

def create (view : PeerView) (id : Nat) : PeerView :=
  { view with contains := update view.contains id true }

def advance (view : PeerView) (id : Nat) : PeerView :=
  if view.isPeer id then view
  else if isUni id then { view with nextUni := max view.nextUni (id + 4) }
  else { view with nextBidi := max view.nextBidi (id + 4) }

/-- A finished stream goes; one of the peer frees a slot. -/
def retire (view : PeerView) (id : Nat) : PeerView :=
  let removed :=
    { view with
      contains := update view.contains id false
      retired := view.retired ++ [id]
      accept kind := (view.accept kind).filter (· != id) }
  if view.isPeer id then
    { removed with
      live := update view.live (kindOf id) (view.live (kindOf id) - 1)
      recvMaxStreams :=
        update view.recvMaxStreams (kindOf id)
          (min (view.recvMaxStreams (kindOf id) + 1) (2 ^ 60)) }
  else
    removed

def take (view : PeerView) (kind : Dir) (id : Nat) (queue : List Nat) : PeerView :=
  { view with
    taken := update view.taken kind (view.taken kind ++ [id])
    accept := update view.accept kind queue }

def advertise (view : PeerView) (announced : Dir → Bool) : PeerView :=
  { view with
    recvMaxStreamsSent kind :=
      if announced kind then view.recvMaxStreams kind
      else view.recvMaxStreamsSent kind }

/-! ### Each step is sound -/

variable {view : PeerView} {id other : Nat}

theorem wasOpened_mono (view later : PeerView) (side : later.side = view.side)
    (opened : ∀ kind, view.opened kind ≤ later.opened kind)
    (own : ∀ id, view.nextOwn id ≤ later.nextOwn id)
    (was : view.wasOpened id) : later.wasOpened id := by
  have samePeer : later.isPeer id = view.isPeer id := by
    unfold isPeer
    rw [side]
  unfold wasOpened at was ⊢
  rw [samePeer]
  by_cases peer : view.isPeer id = true
  · rw [if_pos peer] at was ⊢
    exact lt_of_lt_of_le was (opened _)
  · rw [if_neg peer] at was ⊢
    exact lt_of_lt_of_le was (own id)

theorem idsBelow_succ (side : Side) (kind : Dir) (opened : Nat) :
    idsBelow side kind (opened + 1) =
      idsBelow side kind opened ++ [opened * 4 + Streams.peerBits side kind] := by
  unfold idsBelow
  rw [range_succ, map_append, map_cons, map_nil]

theorem not_wasOpened_frontier (peer : view.isPeer id = true)
    (ordinal : view.opened (kindOf id) = id / 4) : ¬view.wasOpened id := by
  unfold wasOpened
  rw [if_pos peer, ordinal]
  exact lt_irrefl _

theorem wasOpened_openNext (ordinal : view.opened (kindOf id) = id / 4)
    (was : view.wasOpened other) : (view.openNext id).wasOpened other := by
  refine wasOpened_mono view (view.openNext id) rfl (fun kind => ?_) (fun _ => le_rfl) was
  change view.opened kind ≤ update view.opened _ _ kind
  by_cases same : kind = kindOf id
  · rw [same, update_self, ordinal]
    exact Nat.le_succ _
  · rw [update_of_ne same]

theorem Enclosed.openNext (inv : view.Enclosed) (peer : view.isPeer id = true)
    (ordinal : view.opened (kindOf id) = id / 4) : (view.openNext id).Enclosed := by
  intro other contained
  by_cases same : other = id
  · have stillPeer : (view.openNext id).isPeer other = true := by
      rw [same]
      exact peer
    unfold wasOpened
    rw [if_pos stillPeer, same]
    change id / 4 < update view.opened _ _ (kindOf id)
    rw [update_self]
    exact Nat.lt_succ_self _
  · apply wasOpened_openNext ordinal
    apply inv
    rw [← contained]
    exact (update_of_ne same ..).symm

theorem Gone.openNext (gone : view.Gone other) (peer : view.isPeer id = true)
    (ordinal : view.opened (kindOf id) = id / 4) : (view.openNext id).Gone other := by
  have ne : other ≠ id := by
    rintro rfl
    exact not_wasOpened_frontier peer ordinal gone.2
  exact ⟨(update_of_ne ne ..).trans gone.1, wasOpened_openNext ordinal gone.2⟩

theorem Sound.openNext (sound : view.Sound) (peer : view.isPeer id = true)
    (ordinal : view.opened (kindOf id) = id / 4) (room : view.live (kindOf id) < MAX_PEER_STREAMS) :
    (view.openNext id).Sound := by
  have queue kind : (view.openNext id).queued kind =
      if kindOf id = kind then view.queued kind ++ [id]
      else view.queued kind := by
    change view.taken kind ++ update view.accept _ _ kind = _
    split
    next same =>
      subst same
      rw [update_self, ← append_assoc]
      rfl
    next other =>
      rw [update_of_ne (Ne.symm other)]
      rfl
  have opened kind : idsBelow view.side kind ((view.openNext id).opened kind) =
      if kindOf id = kind then idsBelow view.side kind (view.opened kind) ++ [id]
      else idsBelow view.side kind (view.opened kind) := by
    change idsBelow view.side kind (update view.opened _ _ kind) = _
    split
    next same =>
      subst same
      have bits := Streams.mod_four_of_peer peer
      rw [update_self, idsBelow_succ, ordinal, ← bits, Nat.div_add_mod']
    next other => rw [update_of_ne (Ne.symm other)]
  refine ⟨sound.enclosed.openNext peer ordinal,
    fun other member => (sound.gone other member).openNext peer ordinal, ?_,
    ?_, ?_, sound.advertised, ?_, ?_⟩
  · intro kind
    change update view.live _ _ kind ≤ update view.opened _ _ kind
    have before := sound.live_le kind
    by_cases same : kind = kindOf id
    · subst same
      rw [update_self, update_self]
      omega
    · rw [update_of_ne same, update_of_ne same]
      exact before
  · exact (forall_update_iff view.live fun _ live =>
      live ≤ MAX_PEER_STREAMS).mpr ⟨room, fun kind _ => sound.few kind⟩
  · intro kind
    have before := sound.limit kind
    change view.recvMaxStreams kind =
      min (MAX_PEER_STREAMS + (update view.opened _ _ kind - update view.live _ _ kind)) (2 ^ 60)
    by_cases same : kind = kindOf id
    · subst same
      rw [update_self, update_self, before, ordinal]
      congr 2
      omega
    · rw [update_of_ne same, update_of_ne same]
      exact before
  · intro kind
    have before := sound.order kind
    change ((view.openNext id).queued kind).Sublist (idsBelow view.side kind _)
    rw [queue, opened]
    split
    · exact before.append (List.Sublist.refl [id])
    · exact before
  · intro kind
    change ∀ other ∈ idsBelow view.side kind _, _ ∨ other ∈ view.retired
    rw [queue, opened]
    split
    · rw [forall_mem_append, forall_mem_singleton]
      refine ⟨fun other member => ?_, .inl (mem_append_right _ (mem_singleton_self id))⟩
      exact (sound.covered kind other member).imp_left (mem_append_left _)
    · exact sound.covered kind

/-- Using up ids only moves the frontier of this endpoint. -/
theorem advance_cases (view : PeerView) (id : Nat) :
    ∃ nextBidi nextUni, view.nextBidi ≤ nextBidi ∧ view.nextUni ≤ nextUni ∧
      view.advance id = { view with nextBidi := nextBidi, nextUni := nextUni } ∧
      (view.isPeer id = false → id < (view.advance id).nextOwn id) := by
  unfold advance nextOwn
  by_cases peer : view.isPeer id = true
  · rw [if_pos peer]
    refine ⟨_, _, le_rfl, le_rfl, rfl, ?_⟩
    intro own
    rw [own] at peer
    cases peer
  rw [if_neg peer]
  by_cases uni : isUni id = true
  · rw [if_pos uni, if_pos uni]
    refine ⟨_, _, le_rfl, le_max_left _ _, rfl, fun _ => ?_⟩
    dsimp only
    omega
  · rw [if_neg uni, if_neg uni]
    refine ⟨_, _, le_max_left _ _, le_rfl, rfl, fun _ => ?_⟩
    dsimp only
    omega

theorem wasOpened_advance (view : PeerView) (id : Nat)
    (was : view.wasOpened other) : (view.advance id).wasOpened other := by
  obtain ⟨nextBidi, nextUni, bidi, uni, same, -⟩ := advance_cases view id
  rw [same]
  let later : PeerView := { view with nextBidi := nextBidi, nextUni := nextUni }
  refine wasOpened_mono view later rfl (fun _ => le_rfl) (fun id => ?_) was
  unfold nextOwn
  by_cases isUniId : isUni id = true
  · rw [if_pos isUniId, if_pos isUniId]
    exact uni
  · rw [if_neg isUniId, if_neg isUniId]
    exact bidi

theorem Enclosed.advance (inv : view.Enclosed) (id : Nat) : (view.advance id).Enclosed := by
  intro _ contained
  apply wasOpened_advance
  apply inv
  obtain ⟨_, _, -, -, same, -⟩ := advance_cases view id
  rw [same] at contained
  exact contained

theorem Gone.advance (gone : view.Gone other) (id : Nat) : (view.advance id).Gone other := by
  refine ⟨?_, wasOpened_advance view id gone.2⟩
  obtain ⟨_, _, -, -, same, -⟩ := advance_cases view id
  rw [same]
  exact gone.1

theorem Sound.advance (sound : view.Sound) (id : Nat) : (view.advance id).Sound := by
  have inv := sound.enclosed.advance id
  have gone other (member : other ∈ view.retired) : (view.advance id).Gone other :=
    (sound.gone other member).advance id
  obtain ⟨_, _, -, -, same, -⟩ := advance_cases view id
  rw [same] at inv gone ⊢
  exact { sound with enclosed := inv, gone := gone }

theorem Enclosed.create (inv : view.Enclosed) (own : view.isPeer id = false) :
    ((view.create id).advance id).Enclosed := by
  obtain ⟨_, _, -, -, same, used⟩ := advance_cases (view.create id) id
  intro other contained
  by_cases isNew : other = id
  · have stillOwn : ((view.create id).advance id).isPeer id = false := by
      rw [same]
      exact own
    rw [isNew, wasOpened, stillOwn, if_neg Bool.false_ne_true]
    exact used own
  · apply wasOpened_advance (view.create id) id
    apply inv
    rw [same] at contained
    rw [← contained]
    exact (update_of_ne isNew ..).symm

theorem Gone.create (gone : view.Gone other)
    (own : view.isPeer id = false) (unused : view.nextOwn id ≤ id) :
    ((view.create id).advance id).Gone other := by
  have ne : other ≠ id := by
    rintro rfl
    have was := gone.2
    rw [wasOpened, own, if_neg Bool.false_ne_true] at was
    omega
  have created : (view.create id).Gone other := ⟨(update_of_ne ne ..).trans gone.1, gone.2⟩
  exact created.advance id

theorem Sound.create (sound : view.Sound) (own : view.isPeer id = false)
    (unused : view.nextOwn id ≤ id) : ((view.create id).advance id).Sound := by
  have inv := sound.enclosed.create own
  have gone other (member : other ∈ view.retired) : ((view.create id).advance id).Gone other :=
    (sound.gone other member).create own unused
  obtain ⟨_, _, -, -, same, -⟩ := advance_cases (view.create id) id
  rw [same] at inv gone ⊢
  exact { sound with enclosed := inv, gone := gone }

theorem retire_cases (view : PeerView) (id : Nat) :
    (view.retire id).side = view.side ∧ (view.retire id).contains = update view.contains id false ∧
      (view.retire id).retired = view.retired ++ [id] ∧
      ∀ other, (view.retire id).wasOpened other ↔ view.wasOpened other := by
  unfold PeerView.retire
  by_cases peer : view.isPeer id = true
  · rw [if_pos peer]
    exact ⟨rfl, rfl, rfl, fun _ => Iff.rfl⟩
  · rw [if_neg peer]
    exact ⟨rfl, rfl, rfl, fun _ => Iff.rfl⟩

theorem Enclosed.retire (inv : view.Enclosed) (id : Nat) : (view.retire id).Enclosed := by
  obtain ⟨-, contains, -, was⟩ := retire_cases view id
  intro other contained
  rw [contains] at contained
  rw [was]
  by_cases same : other = id
  · rw [same, update_self] at contained
    cases contained
  · rw [update_of_ne same] at contained
    exact inv other contained

theorem Gone.retire (gone : view.Gone other) (id : Nat) : (view.retire id).Gone other := by
  obtain ⟨-, contains, -, was⟩ := retire_cases view id
  refine ⟨?_, (was other).mpr gone.2⟩
  rw [contains]
  by_cases same : other = id
  · rw [same, update_self]
  · rw [update_of_ne same]
    exact gone.1

theorem Enclosed.gone_retire (inv : view.Enclosed) (present : view.contains id = true) :
    (view.retire id).Gone id := by
  obtain ⟨-, contains, -, was⟩ := retire_cases view id
  refine ⟨?_, (was id).mpr (inv id present)⟩
  rw [contains, update_self]

/-- Removing a finished stream. -/
theorem Sound.retire (sound : view.Sound) (present : view.contains id = true)
    (counted : view.isPeer id = true → 0 < view.live (kindOf id)) : (view.retire id).Sound := by
  have inv := sound.enclosed.retire id
  have gone : ∀ other ∈ view.retired ++ [id], (view.retire id).Gone other :=
    forall_mem_append.mpr ⟨fun other old => (sound.gone other old).retire id,
      forall_mem_singleton.mpr (sound.enclosed.gone_retire present)⟩
  have order kind : (view.taken kind ++ (view.accept kind).filter (· != id)).Sublist
      (idsBelow view.side kind (view.opened kind)) :=
    ((List.Sublist.refl _).append filter_sublist).trans (sound.order kind)
  have covered : ∀ kind, ∀ other ∈ idsBelow view.side kind (view.opened kind),
      other ∈ view.taken kind ++ (view.accept kind).filter (· != id) ∨
        other ∈ view.retired ++ [id] := by
    intro kind other member
    have before := sound.covered kind other member
    unfold queued at before
    simp only [mem_append, mem_filter, bne_iff_ne, mem_singleton] at before ⊢
    tauto
  unfold PeerView.retire at inv gone ⊢
  by_cases peer : view.isPeer id = true
  · rw [if_pos peer] at inv gone ⊢
    have counted := counted peer
    refine ⟨inv, gone, ?_, ?_, ?_, ?_, order, covered⟩
    · exact (forall_update_iff view.live fun kind live =>
        live ≤ view.opened kind).mpr
          ⟨(Nat.sub_le _ _).trans (sound.live_le _), fun kind _ => sound.live_le kind⟩
    · exact (forall_update_iff view.live fun _ live =>
        live ≤ MAX_PEER_STREAMS).mpr
          ⟨(Nat.sub_le _ _).trans (sound.few _), fun kind _ => sound.few kind⟩
    · intro kind
      have before := sound.limit kind
      have below := sound.live_le kind
      change update view.recvMaxStreams _ _ kind =
        min (MAX_PEER_STREAMS + (view.opened kind - update view.live _ _ kind)) (2 ^ 60)
      by_cases same : kind = kindOf id
      · subst same
        rw [update_self, update_self, before]
        omega
      · rw [update_of_ne same, update_of_ne same]
        exact before
    · refine (forall_update_iff view.recvMaxStreams fun kind limit =>
        view.recvMaxStreamsSent kind ≤ limit).mpr ⟨?_, fun kind _ => sound.advertised kind⟩
      have before := sound.advertised (kindOf id)
      have limit := sound.limit (kindOf id)
      omega
  · rw [if_neg peer] at inv gone ⊢
    exact { sound with enclosed := inv, gone := gone, order := order, covered := covered }

theorem Sound.advertise (sound : view.Sound) (announced : Dir → Bool) :
    (view.advertise announced).Sound := by
  refine { sound with advertised := fun kind => ?_ }
  change (if announced kind = true then view.recvMaxStreams kind
    else view.recvMaxStreamsSent kind) ≤ view.recvMaxStreams kind
  split
  · exact le_rfl
  · exact sound.advertised kind

theorem Sound.fits (sound : view.Sound) {kind : Dir} {ordinal : Nat}
    (within : ordinal < view.recvMaxStreamsSent kind) :
    ordinal + 1 - view.opened kind ≤ MAX_PEER_STREAMS - view.live kind := by
  have advertised := sound.advertised kind
  have limit := sound.limit kind
  have below := sound.live_le kind
  omega

theorem Sound.take (sound : view.Sound) {kind : Dir} {queue : List Nat}
    (head : view.accept kind = id :: queue) : (view.take kind id queue).Sound := by
  have same : (view.take kind id queue).queued = view.queued := by
    funext other
    change update view.taken _ _ other ++ update view.accept _ _ other = _
    by_cases here : other = kind
    · rw [here, update_self, update_self, append_assoc]
      exact congrArg (view.taken kind ++ ·) head.symm
    · rw [update_of_ne here, update_of_ne here]
      rfl
  exact { sound with order := same ▸ sound.order, covered := same ▸ sound.covered }

end PeerView

namespace Streams

/-! ## The table shows the view -/

def acceptQueue (table : Streams) : Dir → List Nat
  | .bidi => table.acceptBidi
  | .uni => table.acceptUni

def peers (table : Streams) : PeerView :=
  { side := table.side
    contains := table.streams.contains
    live := table.livePeerStreams
    opened := table.peerStreamsOpened
    recvMaxStreams := table.recvMaxStreams
    recvMaxStreamsSent := table.recvMaxStreamsSent
    nextBidi := table.nextBidi
    nextUni := table.nextUni
    retired := table.retired.map Prod.fst
    taken := table.taken
    accept := table.acceptQueue }

/-- A change of the streams that keeps the set of their ids. -/
structure SameIds (first second : Streams) : Prop where
  contains : ∀ id, second.streams.contains id = first.streams.contains id
  live : second.livePeerStreams = first.livePeerStreams

theorem sameIds_modifyStream (table : Streams) (id : Nat) (change : Stream → Stream) :
    SameIds table (table.modifyStream id change) := by
  constructor
  · intro other
    rw [contains_eq_isSome, contains_eq_isSome, lookup_modifyStream]
    by_cases same : id = other
    · rw [if_pos same, isSome_map, same]
    · rw [if_neg same]
  · funext kind
    rw [livePeerStreams_eq_total, livePeerStreams_eq_total]
    exact total_modify_same fun _ _ => rfl

theorem sameIds_map (table : Streams) (change : Nat → Stream → Stream) :
    SameIds table { table with streams := table.streams.map change } := by
  constructor
  · intro _
    exact contains_map
  · funext kind
    rw [livePeerStreams_eq_total, livePeerStreams_eq_total]
    exact total_map ..

variable {first second table : Streams} {id : Nat}

theorem SameIds.peers (same : SameIds first second)
    (rest : { second.peers with contains := first.peers.contains, live := first.peers.live } =
      first.peers) : second.peers = first.peers := by
  rw [← rest]
  unfold Streams.peers
  rw [same.live, funext same.contains]

variable (table)

theorem peers_modifyStream (id : Nat) (change : Stream → Stream) :
    (table.modifyStream id change).peers = table.peers :=
  (sameIds_modifyStream table id change).peers rfl

theorem peers_learn (params : TransportParameters) :
    (table.ensurePeerFlow (some params)).peers = table.peers := by
  unfold ensurePeerFlow
  split
  · rfl
  · exact (sameIds_map _ _).peers rfl

theorem peers_advanceNext (id : Nat) : (table.advanceNext id).peers = table.peers.advance id := by
  unfold advanceNext PeerView.advance
  change _ = if table.isPeerInitiated id = true then _ else _
  split
  · rfl
  split <;> rfl

theorem contains_insert (id : Nat) (stream : Stream) :
    (table.streams.insert id stream).contains = update table.streams.contains id true := by
  funext other
  rw [contains_eq_isSome_getElem?, lookup_insert]
  by_cases same : id = other
  · rw [if_pos same, same, update_self, isSome_some]
  · rw [if_neg same, update_of_ne (Ne.symm same), contains_eq_isSome]

theorem contains_erase (id : Nat) :
    (table.streams.erase id).contains = update table.streams.contains id false := by
  funext other
  rw [contains_eq_isSome_getElem?, lookup_erase]
  by_cases same : id = other
  · rw [if_pos same, same, update_self, isSome_none]
  · rw [if_neg same, update_of_ne (Ne.symm same), contains_eq_isSome]

variable {table}

theorem livePeerStreams_insert (stream : Stream)
    (absent : table.streams.contains id = false) (kind : Dir) :
    livePeerStreams { table with streams := table.streams.insert id stream } kind =
      table.peerWeight kind id + table.livePeerStreams kind := by
  rw [livePeerStreams_eq_total, livePeerStreams_eq_total]
  exact total_insert _ stream (lookup_eq_none absent)

theorem livePeerStreams_erase {stream : Stream}
    (present : table.streams[id]? = some stream) (kind : Dir) :
    table.peerWeight kind id +
        livePeerStreams { table with streams := table.streams.erase id } kind =
      table.livePeerStreams kind := by
  rw [livePeerStreams_eq_total, livePeerStreams_eq_total]
  exact total_erase (fun other _ => table.peerWeight kind other) present

theorem peerWeight_of_own (own : table.isPeerInitiated id = false)
    (kind : Dir) : table.peerWeight kind id = 0 := by
  unfold peerWeight
  rw [own, Bool.false_and, if_neg Bool.false_ne_true]

theorem peerWeight_of_peer (peer : table.isPeerInitiated id = true) (kind : Dir) :
    table.peerWeight kind id = if kind = kindOf id then 1 else 0 := by
  unfold peerWeight
  rw [peer, Bool.true_and]
  by_cases same : kind = kindOf id
  · rw [if_pos same, if_pos (decide_eq_true same.symm)]
  · rw [if_neg same, if_neg (by simpa using Ne.symm same)]

theorem peers_insertOwn (stream : Stream) (own : table.isPeerInitiated id = false)
    (absent : table.streams.contains id = false) :
    peers { table with streams := table.streams.insert id stream } = table.peers.create id := by
  have live : livePeerStreams
      { table with streams := table.streams.insert id stream } = table.livePeerStreams := by
    funext kind
    rw [livePeerStreams_insert stream absent, peerWeight_of_own own, zero_add]
  unfold peers PeerView.create
  rw [live, contains_insert]
  rfl

theorem peers_openOwn (own : table.isPeerInitiated id = false)
    (absent : table.streams.contains id = false) :
    (table.openOwn id).peers = (table.peers.create id).advance id := by
  unfold openOwn
  rw [peers_advanceNext, peers_modifyStream, peers_insertOwn .fresh own absent]

theorem peers_openNext (peer : table.isPeerInitiated id = true)
    (absent : table.streams.contains id = false) :
    (table.openNext id).peers = table.peers.openNext id := by
  have live : ∀ stream : Stream, livePeerStreams
      { table with streams := table.streams.insert id stream } =
      update table.livePeerStreams (kindOf id) (table.livePeerStreams (kindOf id) + 1) := by
    intro stream
    funext kind
    rw [livePeerStreams_insert stream absent, peerWeight_of_peer peer]
    by_cases same : kind = kindOf id
    · rw [if_pos same, same, update_self, add_comm]
    · rw [if_neg same, update_of_ne same, zero_add]
  have sameView : (table.openNext id).peers =
      { table.peers.openNext id with
        live := livePeerStreams
          { table with
            streams := table.streams.insert id
              { Stream.fresh with sendMax := table.peerSendLimit id } } } := by
    have accept : (table.openNext id).acceptQueue =
        update table.acceptQueue (kindOf id) (table.acceptQueue (kindOf id) ++ [id]) := by
      funext kind
      rw [openNext, openPeerStream_eq]
      by_cases uni : isUni id = true
      · cases kind <;> simp [acceptQueue, kindOf, uni]
      · cases kind <;> simp [acceptQueue, kindOf, uni]
    rw [peers, accept, openNext, openPeerStream_eq]
    unfold PeerView.openNext peers
    rw [contains_insert]
    rfl
  rw [sameView, live]
  rfl

theorem peers_retireStream {stream : Stream} (present : table.streams[id]? = some stream)
    (ready : table.retirable id stream = true) :
    (table.retireStream id).peers = table.peers.retire id := by
  have erased := livePeerStreams_erase present
  have accept : (fun kind => (table.acceptQueue kind).filter (· != id)) =
      acceptQueue
        { table with
          acceptBidi := table.acceptBidi.filter (· != id)
          acceptUni := table.acceptUni.filter (· != id) } := by
    funext kind
    cases kind <;> rfl
  unfold retireStream PeerView.retire
  rw [present]
  dsimp only
  rw [if_pos ready]
  change _ = if table.isPeerInitiated id = true then _ else _
  by_cases peer : table.isPeerInitiated id = true
  · have live : livePeerStreams
        { table with streams := table.streams.erase id } =
        update table.livePeerStreams (kindOf id) (table.livePeerStreams (kindOf id) - 1) := by
      funext kind
      have counts := erased kind
      rw [peerWeight_of_peer peer] at counts
      by_cases same : kind = kindOf id
      · subst same
        rw [if_pos rfl] at counts
        rw [update_self]
        omega
      · rw [if_neg same, zero_add] at counts
        rw [update_of_ne same, counts]
    rw [if_pos peer, if_pos peer]
    unfold peers
    rw [accept, contains_erase, map_append, ← live]
    rfl
  · have live : livePeerStreams
        { table with streams := table.streams.erase id } = table.livePeerStreams := by
      funext kind
      have counts := erased kind
      rw [peerWeight_of_own (eq_false_iff.mpr peer), zero_add] at counts
      exact counts
    rw [if_neg peer, if_neg peer]
    unfold peers
    rw [accept, contains_erase, map_append, ← live]
    rfl

theorem peers_popBidi (table : Streams) (id : Nat) (queue : List Nat) :
    peers { table.noteTaken .bidi id with acceptBidi := queue } =
      table.peers.take .bidi id queue := by
  have accept : acceptQueue { table.noteTaken .bidi id with acceptBidi := queue } =
      update table.acceptQueue .bidi queue := by
    funext kind
    cases kind <;> rfl
  unfold peers PeerView.take
  rw [accept]
  rfl

theorem peers_popUni (table : Streams) (id : Nat) (queue : List Nat) :
    peers { table.noteTaken .uni id with acceptUni := queue } = table.peers.take .uni id queue := by
  have accept : acceptQueue { table.noteTaken .uni id with acceptUni := queue } =
      update table.acceptQueue .uni queue := by
    funext kind
    cases kind <;> rfl
  unfold peers PeerView.take
  rw [accept]
  rfl

/-! ## Every edit is sound -/

theorem absent_of_frontier (inv : table.peers.Enclosed)
    (peer : table.isPeerInitiated id = true)
    (ordinal : table.peerStreamsOpened (kindOf id) = id / 4) :
    table.streams.contains id = false := by
  by_contra held
  have unopened : ¬table.peers.wasOpened id := PeerView.not_wasOpened_frontier peer ordinal
  exact unopened (inv id (eq_true_of_not_eq_false held))

theorem sound_openBlock (sound : table.peers.Sound)
    (peer : table.isPeerInitiated id = true) {count : Nat}
    (room : table.livePeerStreams (kindOf id) + count ≤ MAX_PEER_STREAMS) :
    (table.openBlock id count).peers.Sound ∧
      (table.openBlock id count).livePeerStreams (kindOf id) =
        table.livePeerStreams (kindOf id) + count := by
  induction count with
  | zero =>
    rw [openBlock_zero]
    exact ⟨sound, rfl⟩
  | succ count ih =>
    obtain ⟨sound, live⟩ := ih (by omega)
    rw [openBlock_succ]
    -- the next id is the one at the frontier of the block so far
    have isPeer : (table.openBlock id count).isPeerInitiated
        ((table.peerStreamsOpened (kindOf id) + count) * 4 + id % 4) = true := by
      rw [isPeerInitiated_openBlock, isPeerInitiated_ordinal, peer]
    have frontier : (table.openBlock id count).peerStreamsOpened
        (kindOf ((table.peerStreamsOpened (kindOf id) + count) * 4 + id % 4)) =
        ((table.peerStreamsOpened (kindOf id) + count) * 4 + id % 4) / 4 := by
      rw [kindOf_ordinal, peerStreamsOpened_openBlock]
      omega
    have kind : kindOf ((table.peerStreamsOpened (kindOf id) + count) * 4 + id % 4) = kindOf id :=
      kindOf_ordinal _ _
    generalize (table.peerStreamsOpened (kindOf id) + count) * 4 + id % 4 =
      next at isPeer frontier kind ⊢
    have view := peers_openNext isPeer (absent_of_frontier sound.enclosed isPeer frontier)
    constructor
    · rw [view]
      apply sound.openNext isPeer frontier
      change (table.openBlock id count).livePeerStreams (kindOf next) < _
      rw [kind, live]
      omega
    · have opened := congrFun (congrArg PeerView.live view) (kindOf id)
      change (Streams.openNext _ next).livePeerStreams (kindOf id) =
        update (table.openBlock id count).livePeerStreams ..
        at opened
      rw [opened, kind, update_self]
      change (table.openBlock id count).livePeerStreams (kindOf id) + 1 = _
      rw [live]
      rfl

theorem sound_retire (sound : table.peers.Sound) (id : Nat) :
    (table.retireStream id).peers.Sound := by
  rcases retireStream_cases table id with kept | ⟨_, retires⟩
  · rw [kept]
    exact sound
  rw [peers_retireStream retires.present retires.ready]
  apply sound.retire
  · change table.streams.contains id = true
    rw [contains_eq_isSome, retires.present, isSome_some]
  · intro peer
    change 0 < table.livePeerStreams (kindOf id)
    rw [← livePeerStreams_erase retires.present, peerWeight_of_peer peer, if_pos rfl]
    omega

theorem nextOwn_le_of_alive (own : table.isPeerInitiated id = false)
    (alive : table.streamRetired id = false) (absent : table.streams.contains id = false) :
    table.peers.nextOwn id ≤ id := by
  unfold streamRetired at alive
  rw [absent, own, if_neg Bool.false_ne_true, if_neg Bool.false_ne_true,
    decide_eq_false_iff_not, not_lt] at alive
  exact alive

theorem Edit.enclosed (edit : Edit first second) (inv : first.peers.Enclosed) :
    second.peers.Enclosed ∧ ∀ id, first.peers.Gone id → second.peers.Gone id := by
  have modified id change : (first.modifyStream id change).peers.Enclosed ∧
      ∀ other, first.peers.Gone other → (first.modifyStream id change).peers.Gone other := by
    rw [peers_modifyStream]
    exact ⟨inv, fun _ gone => gone⟩
  cases edit with
  | gentle id => exact modified id _
  | everywhere =>
    rw [(sameIds_map first _).peers rfl]
    exact ⟨inv, fun _ gone => gone⟩
  | hold | absorb | read | late | drop => exact modified _ _
  | retire id =>
    rcases retireStream_cases first id with kept | ⟨_, retires⟩
    · rw [kept]
      exact ⟨inv, fun _ gone => gone⟩
    · rw [peers_retireStream retires.present retires.ready]
      exact ⟨inv.retire id, fun _ gone => gone.retire id⟩
  | openPeer peer =>
    apply openBlock_rule (motive := fun table => table.peers.Enclosed ∧
      ∀ id, first.peers.Gone id → table.peers.Gone id) _ peer
      ⟨inv, fun _ gone => gone⟩
    rintro _ _ ⟨inv, gone⟩ isPeer ordinal
    rw [peers_openNext isPeer (absent_of_frontier inv isPeer ordinal)]
    exact ⟨inv.openNext isPeer ordinal, fun id before => (gone id before).openNext isPeer ordinal⟩
  | create own alive absent =>
    rw [peers_openOwn own absent]
    exact ⟨inv.create own, fun _ gone =>
      gone.create own (nextOwn_le_of_alive own alive absent)⟩
  | advance =>
    rw [peers_advanceNext]
    exact ⟨inv.advance _, fun _ gone => gone.advance _⟩
  | learn =>
    rw [peers_learn]
    exact ⟨inv, fun _ gone => gone⟩
  | _ => exact ⟨inv, fun _ gone => gone⟩

theorem streamRetired_iff_gone (table : Streams) (id : Nat) :
    table.streamRetired id = true ↔ table.peers.Gone id := by
  unfold streamRetired PeerView.Gone PeerView.wasOpened
  change _ ↔ table.streams.contains id = false ∧ if table.isPeerInitiated id = true then _ else _
  by_cases held : table.streams.contains id = true
  · rw [if_pos held, held]
    exact ⟨nofun, nofun⟩
  rw [if_neg held]
  by_cases peer : table.isPeerInitiated id = true
  · rw [if_pos peer, if_pos peer, decide_eq_true_eq]
    exact ⟨fun below => ⟨eq_false_iff.mpr held, below⟩, And.right⟩
  · rw [if_neg peer, if_neg peer, decide_eq_true_eq]
    exact ⟨fun below => ⟨eq_false_iff.mpr held, below⟩, And.right⟩

theorem Edit.sound (edit : Edit first second) (sound : first.peers.Sound) : second.peers.Sound := by
  have modified id change : (first.modifyStream id change).peers.Sound := by
    rw [peers_modifyStream]
    exact sound
  cases edit with
  | gentle id => exact modified id _
  | everywhere =>
    rw [(sameIds_map first _).peers rfl]
    exact sound
  | quiet => exact sound
  | hold | absorb | read | late | drop => exact modified _ _
  | retire id => exact sound_retire sound id
  | @openPeer id _ peer =>
    have few : first.livePeerStreams (kindOf id) ≤ MAX_PEER_STREAMS := sound.few (kindOf id)
    exact (sound_openBlock sound peer (by omega)).1
  | create own alive absent =>
    rw [peers_openOwn own absent]
    exact sound.create own (nextOwn_le_of_alive own alive absent)
  | advance =>
    rw [peers_advanceNext]
    exact sound.advance _
  | popBidi head =>
    rw [peers_popBidi]
    exact sound.take head
  | popUni head =>
    rw [peers_popUni]
    exact sound.take head
  | learn =>
    rw [peers_learn]
    exact sound
  | raiseMaxData => exact sound
  | raiseMaxStreams => exact sound
  | advertise announced => exact sound.advertise announced

theorem sound_freshTable {maxSent : Dir → Nat}
    (limited : ∀ kind, maxSent kind ≤ MAX_PEER_STREAMS)
    (side : Side) (ticket : Option TransportParameters) :
    (Core.freshTable side maxSent ticket).peers.Sound := by
  have start : ∀ nextBidi nextUni, (Streams.new side nextBidi nextUni maxSent).peers.Sound :=
    fun _ _ =>
      ⟨nofun, nofun, fun _ => le_refl 0, fun _ => Nat.zero_le _,
        fun _ => rfl, limited, fun kind => by cases kind <;> exact nil_sublist _, fun _ => nofun⟩
  cases ticket with
  | none | some => exact start _ _

/-! ## Ids that were advertised -/

def RefusesStream (outcome : Except QuicTlsError Unit) : Prop :=
  ∃ frameType reason, outcome = .error (.transport 0x04 frameType reason)

/-- Within what was advertised both checks of a new stream pass. -/
theorem ensureStream_accepts (sound : table.peers.Sound) (peer : table.isPeerInitiated id = true)
    (within : id / 4 < table.recvMaxStreamsSent (kindOf id))
    (ty : Nat) : (table.ensureStream id ty).2 = .ok () := by
  have room : id / 4 + 1 - table.peerStreamsOpened (kindOf id) ≤
      MAX_PEER_STREAMS - table.livePeerStreams (kindOf id) :=
    sound.fits within
  unfold ensureStream
  by_cases held : table.streams.contains id = true
  · rw [if_pos held]
  · rw [if_neg held, peer, Bool.not_true, if_neg Bool.false_ne_true]
    rw [if_neg]
    omega

theorem validateStream_allows (table : Streams) (id finish : Nat) (fin : Bool) :
    ¬RefusesStream (table.validateStream id finish fin) := by
  rintro ⟨_, _, refused⟩
  unfold validateStream at refused
  dsimp only at refused
  split_ifs at refused <;> simp at refused

theorem recvStream_allows (sound : table.peers.Sound) (peer : table.isPeerInitiated id = true)
    (within : id / 4 < table.recvMaxStreamsSent (kindOf id))
    (offset : Nat) (fin : Bool) (data : List UInt8) :
    ¬RefusesStream (table.recvStream id offset fin data).2 := by
  have accepted := ensureStream_accepts sound peer within 0x08
  unfold recvStream
  dsimp only
  split
  · simp [RefusesStream]
  split
  · simp [RefusesStream]
  split
  · simp [RefusesStream]
  have valid := validateStream_allows table id (offset + data.length) fin
  generalize table.validateStream id (offset + data.length) fin = outcome at valid ⊢
  cases outcome with
  | error => exact valid
  | ok =>
    generalize table.ensureStream id 0x08 = ensured at accepted ⊢
    obtain ⟨ensured, result⟩ := ensured
    obtain rfl : result = .ok () := accepted
    -- only the reassembly budget is left to refuse the frame
    rintro ⟨_, _, refused⟩
    exact absurd (storeStream_error_code refused) (by decide)

theorem validateReset_allows (table : Streams) (id size : Nat) :
    ¬RefusesStream (table.validateReset id size) := by
  rintro ⟨_, _, refused⟩
  unfold validateReset at refused
  dsimp only at refused
  split_ifs at refused <;> simp at refused

theorem recvResetStream_allows (sound : table.peers.Sound) (peer : table.isPeerInitiated id = true)
    (within : id / 4 < table.recvMaxStreamsSent (kindOf id)) (code size : Nat) :
    ¬RefusesStream (table.recvResetStream id code size).2 := by
  have accepted := ensureStream_accepts sound peer within 0x04
  unfold recvResetStream
  split
  · simp [RefusesStream]
  split
  · simp [RefusesStream]
  have valid := validateReset_allows table id size
  generalize table.validateReset id size = outcome at valid ⊢
  cases outcome with
  | error => exact valid
  | ok =>
    generalize table.ensureStream id 0x04 = ensured at accepted ⊢
    obtain ⟨ensured, result⟩ := ensured
    obtain rfl : result = .ok () := accepted
    dsimp only
    unfold storeReset
    split <;> simp [RefusesStream]

/-! ## What was retired stays so -/

theorem Edit.retired_subset (edit : Edit first second) : first.retired ⊆ second.retired := by
  have advanced (table : Streams) id : (table.advanceNext id).retired = table.retired :=
    congrArg FlowView.retired (flow_advanceNext table id)
  cases edit with
  | retire id =>
    rcases retireStream_cases first id with kept | ⟨_, retires⟩
    · rw [kept]
      exact List.Subset.refl _
    · rw [retires.retired]
      exact subset_append_left _ _
  | openPeer peer =>
    apply openBlock_rule (motive := fun table =>
      first.retired ⊆ table.retired) _ peer (List.Subset.refl _)
    intro table next subset _ _
    have same : (table.openNext next).retired = table.retired :=
      congrArg StreamHistory.retired (toStreamHistory_openNext table next)
    rw [same]
    exact subset
  | create =>
    unfold openOwn
    rw [advanced]
    exact List.Subset.refl _
  | advance =>
    rw [advanced]
    exact List.Subset.refl _
  | learn params =>
    have same : (first.ensurePeerFlow (some params)).retired = first.retired :=
      congrArg FlowView.retired (flow_ensurePeerFlow _ _)
    rw [same]
    exact List.Subset.refl _
  | _ => exact List.Subset.refl _

end Streams

def Frame.opens? : Frame → Option Nat
  | .stream id _ _ _ | .resetStream id _ _ | .stopSending id _ => some id
  | _ => none

namespace Connection

variable {T C : Type} [TlsSession T] [Controller C]

open Streams

theorem processFrame_allows {conn : Connection T C} (sound : conn.toStreams.peers.Sound)
    {frame : Frame} {id : Nat} (opens : frame.opens? = some id)
    (peer : conn.isPeerInitiated id = true) (within : id / 4 < conn.recvMaxStreamsSent (kindOf id))
    (context : FrameContext) (ty : Nat) :
    ¬RefusesStream (conn.processFrame context ty frame).2 := by
  cases frame with
  | stream other offset fin data =>
    obtain rfl : other = id := Option.some.inj opens
    have allows := recvStream_allows sound peer within offset fin data
    rintro ⟨_, _, refused⟩
    change Except.mapError _ (conn.recvStream other offset fin data).2 = _ at refused
    generalize (conn.recvStream other offset fin data).2 = outcome at allows refused
    cases outcome with
    | ok => cases refused
    | error failure =>
      cases failure <;> simp [Except.mapError, withFrameType] at refused
      exact allows ⟨_, _, by rw [refused.1]⟩
  | resetStream other code size =>
    obtain rfl : other = id := Option.some.inj opens
    exact recvResetStream_allows sound peer within code size
  | stopSending other code =>
    obtain rfl : other = id := Option.some.inj opens
    have accepted := ensureStream_accepts sound peer within ty
    change ¬RefusesStream (conn.recvStopSending other code ty).2
    unfold recvStopSending
    split
    · simp [RefusesStream]
    split
    · simp [RefusesStream]
    split
    · simp [RefusesStream]
    dsimp only [onStreams]
    generalize conn.ensureStream other ty = ensured at accepted ⊢
    obtain ⟨ensured, result⟩ := ensured
    obtain rfl : result = .ok () := accepted
    simp [RefusesStream]
  | _ => cases opens

theorem FrameRuns.sound {maxSent : Dir → Nat}
    (limited : ∀ kind, maxSent kind ≤ MAX_PEER_STREAMS)
    {start conn : Connection T C} (starts : Starts maxSent start)
    (runs : FrameRuns start conn) : conn.toStreams.peers.Sound :=
  runs.table_rule (motive := fun table => table.peers.Sound)
    (sound_freshTable limited) (fun _ _ edit => edit.sound) starts

/-- In every run, frame by frame: the live streams of the peer stay within the
limit, the limit it is told grows by one for every stream that went, a peer
that keeps to what it was told is never refused, a retired stream does not come
back, and every stream of the peer was put on its accept queue once and in
order: it was taken from there, still waits there, or was retired. -/
theorem frameRuns_limitPeerStreams
    {recvMaxStreamsSent : Dir → Nat} (limited : ∀ kind, recvMaxStreamsSent kind ≤ MAX_PEER_STREAMS)
    {start conn : Connection T C} (starts : Starts recvMaxStreamsSent start)
    (runs : FrameRuns start conn) :
    (∀ kind, conn.livePeerStreams kind ≤ MAX_PEER_STREAMS ∧
        conn.livePeerStreams kind ≤ conn.peerStreamsOpened kind ∧
        conn.recvMaxStreams kind =
          min (MAX_PEER_STREAMS + (conn.peerStreamsOpened kind - conn.livePeerStreams kind))
            (2 ^ 60)) ∧
      (∀ (frame : Frame) (id : Nat), frame.opens? = some id →
        conn.isPeerInitiated id = true →
        id / 4 < conn.recvMaxStreamsSent (kindOf id) →
        ∀ context frameType, ¬RefusesStream (conn.processFrame context frameType frame).2) ∧
      (∀ entry ∈ conn.retired, ∀ later, FrameRuns conn later →
        later.streams.contains entry.1 = false) ∧
      ∀ kind,
        (conn.taken kind ++ conn.acceptQueue kind).Sublist
          (PeerView.idsBelow conn.side kind (conn.peerStreamsOpened kind)) ∧
        ∀ id ∈ PeerView.idsBelow conn.side kind (conn.peerStreamsOpened kind),
          id ∈ conn.taken kind ++ conn.acceptQueue kind ∨ id ∈ conn.retired.map Prod.fst := by
  have sound := runs.sound limited starts
  refine ⟨?_, ?_, ?_, fun kind => ⟨sound.order kind, sound.covered kind⟩⟩
  · intro kind
    exact ⟨sound.few kind, sound.live_le kind, sound.limit kind⟩
  · intro _ _ opens peer within context frameType
    exact processFrame_allows sound opens peer within context frameType
  · intro entry member later onward
    have stays : entry ∈ later.retired :=
      (FrameRuns.edits starts runs onward).rule (motive := fun table => entry ∈ table.retired)
        (fun _ _ edit held => edit.retired_subset held) member
    have soundLater := FrameRuns.sound limited starts (Relation.ReflTransGen.trans runs onward)
    exact (soundLater.gone entry.1 (mem_map_of_mem stays)).1

/-- A frame for the second stream of the peer opens the first one too, which is
then taken from the queue. -/
theorem frameRuns_limitPeerStreams_second :
    ∃ conn : Connection ScriptedTls FixedWindow,
      FrameRuns servingExample conn ∧ conn.livePeerStreams .bidi = 2 ∧
        conn.taken .bidi = [0] ∧ conn.acceptQueue .bidi = [4] ∧
        (conn.taken .bidi ++ conn.acceptQueue .bidi).Sublist
          (PeerView.idsBelow conn.side .bidi (conn.peerStreamsOpened .bidi)) ∧
        conn.recvMaxStreams .bidi =
          min (MAX_PEER_STREAMS +
            (conn.peerStreamsOpened .bidi - conn.livePeerStreams .bidi)) (2 ^ 60) := by
  have opens : FrameRuns servingExample _ :=
    Relation.ReflTransGen.single
      (@.frame _ _ _ _ _ .zeroRtt 0x08 (.stream 4 0 false []) nofun
        rfl ⟨by decide, by decide⟩ none 0)
  have runs : FrameRuns servingExample _ :=
    opens.tail (@.event _ _ _ _ _ _ .acceptBi trivial rfl)
  have limits := frameRuns_limitPeerStreams (fun _ => le_rfl) (.server ..) runs
  exact ⟨_, runs, by decide +kernel, by decide +kernel, by decide +kernel, (limits.2.2.2 .bidi).1,
    (limits.1 .bidi).2.2⟩

end Connection

end ParallaX.Quic
