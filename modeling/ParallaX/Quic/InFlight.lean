import ParallaX.Quic.Refinement

/-!
# Packets in flight

The sent packets of a space, what the ack-eliciting ones carried, and the bytes
in flight move together: every act of a connection keeps them in agreement.
-/

namespace ParallaX.Quic

open ParallaX.Data Function List SentPackets

/-- Taking one key out and then the others takes all of them out. -/
theorem ite_mem_cons {β : Type} (pn first : Nat) (rest : List Nat) (found : Option β) :
    (if pn ∈ rest then none else if first = pn then none else found) =
      if pn ∈ first :: rest then none else found := by
  rw [← ite_or]
  exact if_congr (by rw [mem_cons, or_comm, eq_comm]) rfl rfl

namespace SentPackets

/-- The bytes a tracked packet has in flight. -/
def flightSize (packet : SentPacket) : Nat :=
  if packet.ackEliciting then packet.size else 0

/-- The tracked packets agree with the counters, `next` being the next packet
number. -/
structure Sound (sent : SentPackets) (next : Nat) : Prop where
  flight : sent.inFlight = total (fun _ => flightSize) sent.packets
  used : ∀ (pn : Nat) (packet : SentPacket), sent.packets[pn]? = some packet → pn < next
  queued : ∀ (pn : Nat) (packet : SentPacket),
    sent.packets[pn]? = some packet → (packet.ackEliciting = false ↔ pn ∈ sent.nonAckEliciting)
  queueUsed : ∀ pn ∈ sent.nonAckEliciting, pn < next
  short : sent.nonAckEliciting.length ≤ MAX_NON_ACK_ELICITING_TRACKED

variable {sent : SentPackets} {next : Nat}

theorem sound_new : Sound new 0 := by
  refine ⟨rfl, ?_, ?_, nofun, Nat.zero_le _⟩
  · intro pn packet found
    cases found
  · intro _ _ found
    cases found

variable {packet : SentPacket}

/-- The bytes of one packet are counted, so that taking it off the count does
not saturate. -/
theorem Sound.size_le (sound : sent.Sound next) {pn : Nat}
    (found : sent.packets[pn]? = some packet) : flightSize packet ≤ sent.inFlight := by
  rw [sound.flight]
  exact le_total (fun _ => flightSize) found

/-! ### Sending -/

theorem Sound.onSent_eliciting (sound : sent.Sound next) (eliciting : packet.ackEliciting = true) :
    (sent.onSent next packet).Sound (next + 1) := by
  have absent : sent.packets[next]? = none := by
    cases found : sent.packets[next]? with
    | none => rfl
    | some packet => exact absurd (sound.used next packet found) (lt_irrefl next)
  have sentIs : sent.onSent next packet =
      { sent with
        packets := sent.packets.insert next packet
        inFlight := sent.inFlight + packet.size } := by
    simp [onSent, eliciting]
  have size : flightSize packet = packet.size := by simp [flightSize, eliciting]
  rw [sentIs]
  refine ⟨?_, ?_, ?_, ?_, sound.short⟩
  · change sent.inFlight + packet.size = total _ (sent.packets.insert _ _)
    rw [total_insert _ packet absent, sound.flight, size, add_comm]
  · intro pn found lookup
    rw [lookup_insert] at lookup
    by_cases same : next = pn
    · omega
    · rw [if_neg same] at lookup
      exact Nat.lt_succ_of_lt (sound.used pn found lookup)
  · intro pn found lookup
    rw [lookup_insert] at lookup
    by_cases same : next = pn
    · rw [if_pos same] at lookup
      cases lookup
      have fresh : pn ∉ sent.nonAckEliciting := by
        intro member
        have before := sound.queueUsed pn member
        omega
      simp [eliciting, fresh]
    · rw [if_neg same] at lookup
      exact sound.queued pn found lookup
  · intro pn member
    exact Nat.lt_succ_of_lt (sound.queueUsed pn member)

variable (pns : List Nat) (packets : BTreeMap SentPacket)

theorem lookup_foldl_erase (pn : Nat) :
    (pns.foldl Std.TreeMap.erase packets)[pn]? = if pn ∈ pns then none else packets[pn]? := by
  induction pns generalizing packets with
  | nil => simp
  | cons _ _ ih => rw [foldl_cons, ih, lookup_erase, ite_mem_cons]

theorem total_foldl_erase (quiet : ∀ (pn : Nat) (packet : SentPacket), pn ∈ pns →
      packets[pn]? = some packet → packet.ackEliciting = false) :
    total (fun _ => flightSize) (pns.foldl Std.TreeMap.erase packets) =
      total (fun _ => flightSize) packets := by
  induction pns generalizing packets with
  | nil => rfl
  | cons first _ ih =>
    rw [foldl_cons, ih]
    · cases found : packets[first]? with
      | none =>
        apply total_of_lookup
        intro pn
        rw [lookup_erase]
        by_cases same : first = pn
        · rw [if_pos same, ← same, found]
        · rw [if_neg same]
      | some packet =>
        have weightless : flightSize packet = 0 := by
          simp [flightSize, quiet first packet mem_cons_self found]
        rw [← total_erase (fun _ => flightSize) found, weightless, zero_add]
    · intro pn packet member found
      rw [lookup_erase] at found
      by_cases same : first = pn
      · rw [if_pos same] at found
        cases found
      · rw [if_neg same] at found
        exact quiet pn packet (mem_cons_of_mem _ member) found

/-- A pure ACK is tracked in place of the oldest ones beyond the bound. -/
theorem Sound.onSent_quiet (sound : sent.Sound next) (quiet : packet.ackEliciting = false) :
    (sent.onSent next packet).Sound (next + 1) := by
  obtain ⟨queue, queueIs⟩ : ∃ queue, queue = sent.nonAckEliciting ++ [next] := ⟨_, rfl⟩
  obtain ⟨excess, excessIs⟩ : ∃ excess, excess = queue.length - MAX_NON_ACK_ELICITING_TRACKED :=
    ⟨_, rfl⟩
  have sentIs : sent.onSent next packet =
      { sent with
        packets := ((queue.take excess).foldl Std.TreeMap.erase sent.packets).insert next packet
        nonAckEliciting := queue.drop excess } := by
    simp [onSent, quiet, excessIs, queueIs]
  have parts pn : pn ∈ queue ↔ pn ∈ queue.take excess ∨ pn ∈ queue.drop excess := by
    rw [← mem_append, take_append_drop]
  have used pn (member : pn ∈ queue) : pn < next + 1 := by
    rw [queueIs] at member
    rcases mem_append.mp member with old | new
    · exact Nat.lt_succ_of_lt (sound.queueUsed pn old)
    · rw [mem_singleton.mp new]
      exact Nat.lt_succ_self _
  have oldQueue pn : pn ≠ next → (pn ∈ queue ↔ pn ∈ sent.nonAckEliciting) := by
    intro ne
    simp [queueIs, ne]
  have evicted (pn : Nat) (packet : SentPacket) :
      pn ∈ queue.take excess → sent.packets[pn]? = some packet → packet.ackEliciting = false := by
    intro member found
    have ne : pn ≠ next := by
      have before := sound.used pn packet found
      omega
    exact (sound.queued pn packet found).mpr
      ((oldQueue pn ne).mp ((parts pn).mpr (.inl member)))
  have absent : ((queue.take excess).foldl Std.TreeMap.erase sent.packets)[next]? = none := by
    rw [lookup_foldl_erase]
    split
    · rfl
    · cases found : sent.packets[next]? with
      | none => rfl
      | some packet => exact absurd (sound.used next packet found) (lt_irrefl next)
  have weightless : flightSize packet = 0 := by simp [flightSize, quiet]
  rw [sentIs]
  refine ⟨?_, ?_, ?_, ?_, ?_⟩
  · change sent.inFlight = total _ (Std.TreeMap.insert ..)
    rw [total_insert _ packet absent, weightless,
      total_foldl_erase _ _ evicted, sound.flight, zero_add]
  · intro pn found lookup
    rw [lookup_insert, lookup_foldl_erase] at lookup
    by_cases same : next = pn
    · omega
    · rw [if_neg same] at lookup
      split at lookup
      · cases lookup
      · exact Nat.lt_succ_of_lt (sound.used pn found lookup)
  · intro pn found lookup
    rw [lookup_insert, lookup_foldl_erase] at lookup
    by_cases same : next = pn
    · -- the new packet is at the end of the queue
      rw [if_pos same] at lookup
      cases lookup
      have short : excess ≤ sent.nonAckEliciting.length := by
        have length : queue.length = sent.nonAckEliciting.length + 1 := by simp [queueIs]
        have positive : 0 < MAX_NON_ACK_ELICITING_TRACKED := by decide
        omega
      have last : pn ∈ queue.drop excess := by
        rw [queueIs, drop_append_of_le_length short]
        exact mem_append_right _ (by simp [same])
      simp [quiet, last]
    · rw [if_neg same] at lookup
      split at lookup
      · cases lookup
      next kept =>
        rw [sound.queued pn found lookup, ← oldQueue pn (Ne.symm same), parts]
        simp [kept]
  · intro pn member
    exact used pn ((parts pn).mpr (.inr member))
  · change (queue.drop excess).length ≤ _
    rw [length_drop]
    omega

/-! ### Removing -/

theorem Sound.discard (sound : sent.Sound next) (pn : Nat) : (sent.discard pn).1.Sound next := by
  unfold SentPackets.discard
  cases found : sent.packets[pn]? with
  | none => exact sound
  | some packet =>
    have weight := total_erase (fun _ => flightSize) found
    have counted := sound.flight
    have old {other : Nat} {packet : SentPacket} :
        (sent.packets.erase pn)[other]? = some packet → sent.packets[other]? = some packet := by
      intro lookup
      rw [lookup_erase] at lookup
      by_cases same : pn = other
      · rw [if_pos same] at lookup
        cases lookup
      · rw [if_neg same] at lookup
        exact lookup
    refine ⟨?_, fun other packet lookup => sound.used other packet
      (old lookup), fun other packet lookup => sound.queued other packet
      (old lookup), sound.queueUsed, sound.short⟩
    change (if packet.ackEliciting = true then sent.inFlight - packet.size
      else sent.inFlight) = total _ (sent.packets.erase pn)
    unfold flightSize at weight counted ⊢
    split <;> rename_i eliciting
    · rw [if_pos eliciting] at weight
      omega
    · rw [if_neg eliciting] at weight
      omega

theorem lookup_discard (sent : SentPackets) (pn other : Nat) :
    (sent.discard pn).1.packets[other]? = if pn = other then none else sent.packets[other]? := by
  unfold SentPackets.discard
  cases found : sent.packets[pn]? with
  | none =>
    by_cases same : pn = other
    · rw [if_pos same, ← same, found]
    · rw [if_neg same]
  | some => exact lookup_erase ..

theorem Sound.removeAll (sound : sent.Sound next) (pns : List Nat) :
    (sent.removeAll pns).1.Sound next := by
  induction pns generalizing sent with
  | nil => exact sound
  | cons pn _ ih =>
    have smaller := sound.discard pn
    rw [SentPackets.removeAll]
    split <;> rename_i outcome <;> rw [outcome] at smaller <;> exact ih smaller

theorem lookup_removeAll (sent : SentPackets) (pns : List Nat) (pn : Nat) :
    (sent.removeAll pns).1.packets[pn]? = if pn ∈ pns then none else sent.packets[pn]? := by
  induction pns generalizing sent with
  | nil => simp [removeAll]
  | cons first rest ih =>
    have smaller := lookup_discard sent first pn
    have step : (sent.removeAll (first :: rest)).1 = ((sent.discard first).1.removeAll rest).1 := by
      rw [removeAll]
      split <;> rename_i outcome <;> rw [outcome]
    rw [step, ih, smaller, ite_mem_cons]

theorem mem_removeAll (sent : SentPackets) (pns : List Nat) (pn : Nat) :
    pn ∈ (sent.removeAll pns).2.map Prod.fst ↔ pn ∈ pns ∧ (sent.packets[pn]?).isSome = true := by
  induction pns generalizing sent with
  | nil => simp [removeAll]
  | cons first _ ih =>
    have smaller := lookup_discard sent first pn
    rw [removeAll]
    unfold SentPackets.discard at smaller ⊢
    cases found : sent.packets[first]? with
    | none =>
      rw [ih]
      by_cases same : pn = first
      · simp [same, found]
      · simp [same]
    | some =>
      rw [found] at smaller
      rw [map_cons, mem_cons, ih, smaller]
      by_cases same : pn = first
      · simp [same, found]
      · simp [same, Ne.symm same]

/-- The given packets are no longer tracked, and the others are. -/
structure Removes (sent later : SentPackets) (pns : List Nat) : Prop where
  sound : ∀ next, sent.Sound next → later.Sound next
  lookup : ∀ pn, later.packets[pn]? =
    if pn ∈ pns then none else sent.packets[pn]?

theorem removes_discard (sent : SentPackets) (pn : Nat) :
    Removes sent (sent.discard pn).1 [pn] := by
  refine ⟨fun next sound => sound.discard pn, ?_⟩
  intro _
  rw [lookup_discard]
  simp only [mem_singleton, eq_comm]

theorem removes_removeAll (sent : SentPackets) (pns : List Nat) :
    Removes sent (sent.removeAll pns).1 ((sent.removeAll pns).2.map Prod.fst) := by
  refine ⟨fun next sound => sound.removeAll pns, ?_⟩
  intro pn
  rw [lookup_removeAll]
  simp only [mem_removeAll]
  cases found : sent.packets[pn]? with
  | none => simp
  | some => simp

theorem removes_onAck (sent : SentPackets) (largest : Nat) (ranges : List (Nat × Nat)) :
    Removes sent (sent.onAck largest ranges).1 ((sent.onAck largest ranges).2.map Prod.fst) := by
  have removed := removes_removeAll
    { sent with largestAcked := some (sent.largestAcked.elim largest (max · largest)) }
    (sent.ackedKeys ranges)
  refine ⟨fun next sound => removed.sound next ?_, removed.lookup⟩
  exact { sound with }

theorem removes_detectLost (sent : SentPackets) (lossDelay now : Nat) :
    Removes sent (sent.detectLost lossDelay now).1
      ((sent.detectLost lossDelay now).2.1.map Prod.fst) := by
  unfold detectLost
  cases sent.largestAcked with
  | none => exact ⟨fun next sound => sound, fun pn => by simp⟩
  | some => exact removes_removeAll sent _

/-- The pure ACKs tracked are no more than the queue remembers. -/
theorem Sound.few_quiet (sound : sent.Sound next) :
    (sent.packets.toList.filter fun entry => !entry.2.ackEliciting).length ≤
      MAX_NON_ACK_ELICITING_TRACKED := by
  have distinct :
      ((sent.packets.toList.filter fun entry =>
        !entry.2.ackEliciting).map Prod.fst).Nodup := by
    have keys : (sent.packets.toList.map Prod.fst).Nodup := by
      rw [nodup_iff_pairwise_ne, pairwise_map]
      apply List.Pairwise.imp _ Std.TreeMap.distinct_keys_toList
      intro _ _ ne same
      rw [same] at ne
      exact ne Std.ReflCmp.compare_self
    exact keys.sublist (filter_sublist.map Prod.fst)
  have within :
      (sent.packets.toList.filter fun entry =>
        !entry.2.ackEliciting).map Prod.fst ⊆ sent.nonAckEliciting := by
    intro _ member
    obtain ⟨⟨_, packet⟩, filtered, rfl⟩ := mem_map.mp member
    obtain ⟨listed, quiet⟩ := mem_filter.mp filtered
    have found := Std.TreeMap.mem_toList_iff_getElem?_eq_some.mp listed
    exact (sound.queued _ packet found).mp (by simpa using quiet)
  have fewer := (subperm_of_subset distinct within).length_le
  rw [length_map] at fewer
  exact fewer.trans sound.short

end SentPackets

/-! ## The record of a space -/

namespace SentRecord

structure Agrees (record : SentRecord) : Prop where
  sound : record.sent.Sound record.send.next
  contents : ∀ pn : Nat, record.sentContent[pn]?.isSome =
    record.sent.packets[pn]?.any SentPacket.ackEliciting

def new : SentRecord := { send := .new, sent := .new, sentContent := ∅ }

def emit (record : SentRecord) (packet : SentPacket) (content : Option SentContent) : SentRecord :=
  { send := ⟨record.send.next + 1⟩
    sent := record.sent.onSent record.send.next packet
    sentContent :=
      content.elim record.sentContent (record.sentContent.insert record.send.next) }

def forget (record : SentRecord) (pn : Nat) : SentRecord :=
  match record.sentContent[pn]? with
  | none => record
  | some _ => { record with sentContent := record.sentContent.erase pn }

variable (record : SentRecord)

theorem lookup_forget (pn other : Nat) :
    (record.forget pn).sentContent[other]? =
      if pn = other then none else record.sentContent[other]? := by
  unfold forget
  cases found : record.sentContent[pn]? with
  | none =>
    by_cases same : pn = other
    · rw [if_pos same, ← same, found]
    · rw [if_neg same]
  | some => exact lookup_erase ..

theorem forget_keeps (pn : Nat) :
    (record.forget pn).send = record.send ∧ (record.forget pn).sent = record.sent := by
  unfold forget
  cases record.sentContent[pn]? with
  | none | some => exact ⟨rfl, rfl⟩

theorem foldl_forget (pns : List Nat) (record : SentRecord) :
    (pns.foldl forget record).send = record.send ∧ (pns.foldl forget record).sent = record.sent ∧
      ∀ pn, (pns.foldl forget record).sentContent[pn]? =
        if pn ∈ pns then none else record.sentContent[pn]? := by
  induction pns generalizing record with
  | nil => simp
  | cons first _ ih =>
    obtain ⟨send, sent, contents⟩ := ih (record.forget first)
    obtain ⟨sameSend, sameSent⟩ := record.forget_keeps first
    refine ⟨send.trans sameSend, sent.trans sameSent, ?_⟩
    intro _
    rw [foldl_cons, contents, lookup_forget, ite_mem_cons]

inductive Change (record : SentRecord) : SentRecord → Prop
  | emit (packet : SentPacket) (content : Option SentContent)
      (kept : content.isSome = packet.ackEliciting) :
      Change record (record.emit packet content)
  | remove {later : SentRecord} (pns : List Nat) (numbers : later.send = record.send)
      (removed : record.sent.Removes later.sent pns)
      (forgotten : ∀ pn, later.sentContent[pn]? =
        if pn ∈ pns then none else record.sentContent[pn]?) :
      Change record later
  | clear : Change record .new

theorem agrees_new : Agrees new := by
  refine ⟨sound_new, ?_⟩
  simp [new, SentPackets.new]

theorem tracked_onSent
    {sent : SentPackets} {next : Nat} (sound : sent.Sound next) (packet : SentPacket) (pn : Nat) :
    (sent.onSent next packet).packets[pn]?.any SentPacket.ackEliciting =
      if next = pn then packet.ackEliciting
      else sent.packets[pn]?.any SentPacket.ackEliciting := by
  unfold SentPackets.onSent
  cases eliciting : packet.ackEliciting with
  | true =>
    simp only [if_true]
    rw [lookup_insert]
    split <;> simp [eliciting]
  | false =>
    simp only [Bool.false_eq_true, if_false]
    rw [lookup_insert, lookup_foldl_erase]
    by_cases same : next = pn
    · simp [same, eliciting]
    rw [if_neg same, if_neg same]
    split
    next evicted =>
      cases found : sent.packets[pn]? with
      | none => rfl
      | some old =>
        have queued : pn ∈ sent.nonAckEliciting := by
          have member := mem_of_mem_take evicted
          simpa [Ne.symm same] using member
        have quiet := (sound.queued pn old found).mpr queued
        simp [quiet]
    · rfl

theorem Agrees.emit {record : SentRecord} (agrees : record.Agrees) (packet : SentPacket)
    {content : Option SentContent} (kept : content.isSome = packet.ackEliciting) :
    (record.emit packet content).Agrees := by
  refine ⟨?_, ?_⟩
  · cases eliciting : packet.ackEliciting with
    | true => exact agrees.sound.onSent_eliciting eliciting
    | false => exact agrees.sound.onSent_quiet eliciting
  · intro pn
    have before := agrees.contents pn
    change (content.elim record.sentContent
      (record.sentContent.insert record.send.next))[pn]?.isSome =
        (record.sent.onSent record.send.next packet).packets[pn]?.any _
    rw [tracked_onSent agrees.sound, ← kept, ← before]
    cases content with
    | none =>
      by_cases same : record.send.next = pn
      · have unused : record.sent.packets[pn]? = none := by
          cases found : record.sent.packets[pn]? with
          | none => rfl
          | some old =>
            have used := agrees.sound.used pn old found
            omega
        rw [if_pos same]
        exact before.trans (by rw [unused]; rfl)
      · rw [if_neg same]
        rfl
    | some content =>
      change (record.sentContent.insert record.send.next content)[pn]?.isSome = _
      rw [lookup_insert]
      split <;> rfl

theorem Change.agrees {record later : SentRecord} (change : record.Change later)
    (agrees : record.Agrees) : later.Agrees := by
  cases change with
  | emit packet _ kept => exact agrees.emit packet kept
  | remove _ numbers removed forgotten =>
    refine ⟨?_, ?_⟩
    · rw [numbers]
      exact removed.sound _ agrees.sound
    · intro pn
      rw [forgotten, removed.lookup]
      split
      · rfl
      · exact agrees.contents pn
  | clear => exact agrees_new

end SentRecord

/-! ## The records of a connection -/

namespace Core

variable {T : Type}

def records (core : Core T) (space : SpaceId) : SentRecord := (core.spaces space).toSentRecord

variable {change : SpaceCore → SpaceCore} (core : Core T) (space : SpaceId)
  (content : SentContent) (pn : Nat)

theorem records_mapSpace {space : SpaceId} (effect : SentRecord → SentRecord)
    (agrees : ∀ sp, (change sp).toSentRecord = effect sp.toSentRecord) (core : Core T) :
    (core.mapSpace space change).records =
      update core.records space (effect (core.records space)) := by
  have changed := view_mapSpace SpaceCore.toSentRecord core space change
  rw [agrees] at changed
  exact changed

theorem records_mapSpace_kept {core : Core T} {space : SpaceId}
    (kept : (change (core.spaces space)).toSentRecord = (core.spaces space).toSentRecord) :
    (core.mapSpace space change).records = core.records :=
  funext fun other => spaces_mapSpace_kept SpaceCore.toSentRecord kept other

theorem records_setKeys (change : Option Keys → Option Keys) :
    (core.mapSpace space fun sp => { sp with keys := change sp.keys }).records = core.records :=
  records_mapSpace_kept rfl

theorem records_emit (packet : SentPacket) (content : Option SentContent) :
    (core.emit space packet content).records =
      update core.records space ((core.records space).emit packet content) := by
  have numbered : (core.allocate space).records =
      update core.records space
        { core.records space with send := ⟨core.nextPn space + 1⟩ } :=
    records_mapSpace (fun record => { record with send := ⟨record.send.next + 1⟩ })
      (fun _ => rfl) core
  have tracked :
      ((core.allocate space).track space (core.nextPn space) packet).records =
        update core.records space ((core.records space).emit packet none) := by
    refine (records_mapSpace
      (fun record =>
        { record with sent := record.sent.onSent (core.nextPn space) packet })
      (fun _ => rfl) _).trans ?_
    rw [numbered, update_self, update_idem]
    rfl
  unfold emit record
  rw [view_sealed _ space _ records fun _ _ _ _ _ => rfl]
  cases content with
  | none => exact tracked
  | some content =>
    change (Core.store _ space _ content).records = _
    refine (records_mapSpace
      (fun record =>
        { record with sentContent := record.sentContent.insert (core.nextPn space) content })
      (fun _ => rfl) _).trans ?_
    rw [view_index _ space content records fun _ _ => rfl, tracked, update_self, update_idem]
    rfl

theorem records_take {core : Core T} {space : SpaceId} {pn : Nat} {content : SentContent}
    (found : (core.spaces space).sentContent[pn]? = some content) :
    (core.take space pn content).records =
      update core.records space ((core.records space).forget pn) := by
  have forgotten : (core.records space).forget pn =
      { core.records space with sentContent := (core.records space).sentContent.erase pn } := by
    unfold SentRecord.forget
    rw [show (core.records space).sentContent[pn]? = some content from found]
  unfold take
  have unindexed (core : Core T) : (core.unindex space content).records = core.records := by
    unfold unindex
    split <;> rfl
  rw [unindexed, forgotten]
  exact records_mapSpace (fun record => { record with sentContent := record.sentContent.erase pn })
    (fun _ => rfl) core

theorem records_requeue : (core.requeue space content).records = core.records := by
  have kept : (core.mapSpace space fun sp =>
      { sp with
        retransmitCrypto :=
          sp.retransmitCrypto ++ content.crypto }).records = core.records :=
    records_mapSpace_kept rfl
  exact kept

theorem records_withSent (sent : SentPackets) :
    (core.withSent space sent).records =
      update core.records space
        { core.records space with sent := sent } :=
  records_mapSpace (fun record => { record with sent := sent }) (fun _ => rfl) core

/-- Nothing is forgotten of a packet of which nothing is kept. -/
theorem records_forget_absent {core : Core T} {space : SpaceId} {pn : Nat}
    (absent : (core.spaces space).sentContent[pn]? = none) :
    update core.records space ((core.records space).forget pn) = core.records := by
  have same : (core.records space).forget pn = core.records space := by
    unfold SentRecord.forget
    rw [show (core.records space).sentContent[pn]? = none from absent]
  rw [same, update_eq_self]

theorem records_ackOne :
    (core.ackOne space pn).records =
      update core.records space ((core.records space).forget pn) := by
  unfold ackOne
  cases found : (core.spaces space).sentContent[pn]? with
  | none => exact (records_forget_absent found).symm
  | some => exact records_take found

theorem records_loseOne :
    (core.loseOne space pn).records =
      update core.records space ((core.records space).forget pn) := by
  unfold loseOne
  split
  · dsimp only
    cases found : (core.spaces space).sentContent[pn]? with
    | none => exact (records_forget_absent found).symm
    | some content =>
      have lowered : ({ core with
          mtuProbePn := none
          pmtud := core.pmtud.onProbeLost } : Core T).spaces space
            |>.sentContent[pn]? = some content := found
      exact records_take lowered
  · cases found : (core.spaces space).sentContent[pn]? with
    | none => exact (records_forget_absent found).symm
    | some =>
      rw [records_requeue, ← records_take found]
      split <;> rfl

theorem records_foldl_forget {space : SpaceId} {change : Core T → Nat → Core T}
    (forgets : ∀ core pn, (change core pn).records =
      update core.records space ((core.records space).forget pn))
    (pns : List Nat) (core : Core T) :
    (pns.foldl change core).records =
      update core.records space (pns.foldl SentRecord.forget (core.records space)) := by
  induction pns generalizing core with
  | nil => exact (update_eq_self space core.records).symm
  | cons _ _ ih =>
    rw [foldl_cons, ih, forgets, update_self, update_idem]
    rfl

theorem change_foldl_forget {record : SentRecord} {sent : SentPackets} {pns : List Nat}
    (removed : record.sent.Removes sent pns) :
    record.Change (pns.foldl SentRecord.forget { record with sent := sent }) := by
  obtain ⟨numbers, sameSent, forgotten⟩ := SentRecord.foldl_forget pns { record with sent := sent }
  refine .remove pns numbers ?_ forgotten
  rw [sameSent]
  exact removed

/-- At most one space changes its record, in one of the ways of `Change`. -/
def ChangesRecord (first second : Core T) : Prop :=
  second.records = first.records ∨
    ∃ space record, (first.records space).Change record ∧
      second.records = update first.records space record

theorem changesRecord_emit (core : Core T) (space : SpaceId) (packet : SentPacket)
    {content : Option SentContent} (kept : packet.ackEliciting = content.isSome) :
    core.ChangesRecord (core.emit space packet content) :=
  .inr ⟨space, _, .emit packet content kept.symm, records_emit core space packet content⟩

theorem changesRecord_ackPackets (core : Core T) (space : SpaceId) (largest : Nat)
    (ranges : List (Nat × Nat)) : core.ChangesRecord (core.ackPackets space largest ranges) := by
  have removed := removes_onAck (core.records space).sent largest ranges
  have noted (core : Core T) (pns : List Nat) :
      (core.noteProbe space pns).records = core.records := by
    unfold noteProbe
    split
    · split <;> rfl
    · rfl
  refine .inr ⟨space, _, change_foldl_forget removed, ?_⟩
  unfold ackPackets
  dsimp only
  split
  next nothing =>
    have none := isEmpty_iff.mp nothing
    rw [records_withSent]
    change _ = update _ _ (List.foldl _ _ (List.map _
      ((core.spaces space).sent.onAck largest ranges).2))
    rw [none]
    rfl
  · rw [noted, records_foldl_forget fun core pn => records_ackOne core space pn,
      records_withSent, update_self, update_idem]
    rfl

theorem changesRecord_losePackets (core : Core T) (space : SpaceId) (lossDelay now : Nat) :
    core.ChangesRecord (core.losePackets space lossDelay now) := by
  have removed := removes_detectLost (core.records space).sent lossDelay now
  refine .inr ⟨space, _, change_foldl_forget removed, ?_⟩
  unfold losePackets
  rw [records_foldl_forget fun core pn => records_loseOne core space pn,
    records_withSent, update_self, update_idem]
  rfl

theorem changesRecord_takeProbe {core : Core T} {space : SpaceId} {pn : Nat}
    {content : SentContent}
    (oldest : (core.spaces space).sentContent.toList.head? = some (pn, content)) :
    core.ChangesRecord (core.takeProbe space pn content) := by
  have found := lookup_of_head oldest
  have removed := removes_discard (core.records space).sent pn
  have taken := records_take found
  have sameSent : ((core.take space pn content).spaces space).sent =
      (core.records space).sent := by
    have record := congrFun taken space
    rw [update_self] at record
    exact (congrArg SentRecord.sent record).trans ((core.records space).forget_keeps pn).2
  refine .inr ⟨space, _, change_foldl_forget removed, ?_⟩
  unfold takeProbe
  rw [records_requeue, records_withSent, taken, update_self, update_idem, sameSent]
  congr 1
  change _ = SentRecord.forget _ pn
  unfold SentRecord.forget
  rw [show (core.records space).sentContent[pn]? = some content from found]

theorem records_installKeys (core : Core T) (change : Option KeyChange) :
    (core.installKeys change).records = core.records := by
  match change with
  | none => rfl
  | some (.zeroRtt keys) => rfl
  | some (.handshake keys) => exact records_setKeys core .handshake fun _ => some keys
  | some (.oneRtt keys) => exact records_setKeys core .data fun _ => some keys

variable [TlsSession T]

theorem Act.records {first second : Core T} (act : Act first second) :
    first.ChangesRecord second := by
  cases act with
  | answered =>
    left
    unfold noteAckSent
    split <;> rfl
  | bare packet quiet => exact changesRecord_emit first _ packet quiet
  | control packet content eliciting => exact changesRecord_emit first _ packet eliciting
  | @crypto space _ packet range eliciting =>
    have sent (core : Core T) : (core.cryptoSent space range).records = core.records := by
      apply records_mapSpace_kept
      split <;> rfl
    unfold ChangesRecord
    rw [sent]
    exact changesRecord_emit first _ packet eliciting
  | stream packet _ _ _ eliciting | zeroRttStream packet _ _ _ eliciting =>
    exact changesRecord_emit first .data packet eliciting
  | probe packet _ eliciting =>
    exact changesRecord_emit { first with pmtud := first.pmtud.nextProbeSize.1 } .data packet
      eliciting
  | acks space largest ranges => exact changesRecord_ackPackets first space largest ranges
  | losses space lossDelay now => exact changesRecord_losePackets first space lossDelay now
  | probeTimeout oldest => exact changesRecord_takeProbe oldest
  | write =>
    have appended (core : Core T) (bytes : List UInt8) :
        (core.appendCrypto bytes).records = core.records :=
      records_mapSpace_kept rfl
    exact .inl ((records_installKeys _ _).trans (appended _ _))
  | @installSend _ key =>
    have kept : (first.setLocalDataKey key).records = first.records := records_mapSpace_kept rfl
    exact .inl kept
  | @switchRead _ _ key =>
    have kept : (first.setRemoteDataKey key).records = first.records := records_mapSpace_kept rfl
    exact .inl kept
  | @discard space =>
    exact .inr ⟨space, _, .clear, records_mapSpace (fun _ => .new) (fun _ => rfl) first⟩
  | holdCrypto | receive => exact Or.inl (records_mapSpace_kept rfl)
  | drainCrypto =>
    have absorbed space drain : (first.absorbCrypto space drain).records = first.records :=
      records_mapSpace_kept rfl
    left
    unfold feedTls
    split <;> exact absorbed _ _
  | @learnKeys dcid =>
    exact Or.inl (records_setKeys first .initial
      fun _ => some (TlsSession.initialKeys (T := T) dcid .server))
  | _ => exact Or.inl rfl

theorem Act.records_agree {first second : Core T} (act : Act first second)
    (agree : ∀ space, (first.records space).Agrees) : ∀ space, (second.records space).Agrees := by
  intro other
  rcases act.records with same | ⟨space, _, change, updated⟩
  · rw [same]
    exact agree other
  · rw [updated]
    by_cases same : other = space
    · subst same
      rw [update_self]
      exact change.agrees (agree other)
    · rw [update_of_ne same]
      exact agree other

theorem Fresh.records {maxSent : Dir → Nat} {core : Core T}
    (fresh : Fresh maxSent core) : core.records = fun _ => SentRecord.new := by
  cases fresh with
  | client => exact records_mapSpace_kept rfl
  | server => rfl

end Core

end ParallaX.Quic
