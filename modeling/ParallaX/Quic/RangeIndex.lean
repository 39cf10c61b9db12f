import ParallaX.Quic.InFlight

/-!
# The index of ranges in flight

Each stream counts its ranges in flight by the offset they start at. The
index is what a scan of the contents of all packets in flight would find, and
so is the offset up to which a send buffer is reclaimed.
-/

namespace ParallaX.Quic

open ParallaX.Data List Streams Function

/-! ## Counting ranges -/

def startsAt (id offset : Nat) (entry : Nat × StreamRange) : Bool :=
  decide (entry.1 = id) && decide (entry.2.offset = offset)

/-- How many ranges of a stream start at an offset, in all packets in
flight. -/
def flights (contents : BTreeMap SentContent) (id offset : Nat) : Nat :=
  total (fun _ content => content.stream.countP (startsAt id offset)) contents

/-- The index holds the offsets with a count, and no others. -/
def Counts (offsets : BTreeMap Nat) (counts : Nat → Nat) : Prop :=
  ∀ offset : Nat, offsets[offset]? =
    if counts offset = 0 then none else some (counts offset)

namespace Counts

variable {offsets : BTreeMap Nat} {counts : Nat → Nat}

theorem getD (counted : Counts offsets counts) (offset : Nat) :
    offsets[offset]?.getD 0 = counts offset := by
  rw [counted offset]
  split
  next none => exact none.symm
  · rfl

theorem insert (counted : Counts offsets counts) (offset : Nat) :
    Counts (offsets.insert offset (offsets[offset]?.getD 0 + 1))
      (fun other => counts other + if offset = other then 1 else 0) := by
  intro other
  rw [lookup_insert, counted.getD]
  by_cases same : offset = other
  · simp [same]
  · simp [same, counted other]

theorem unindexOffset {offset : Nat}
    (counted : Counts offsets (fun other => counts other + if offset = other then 1 else 0)) :
    Counts (Streams.unindexOffset offsets offset) counts := by
  have here : offsets[offset]? = some (counts offset + 1) := by simpa using counted offset
  intro other
  have there := counted other
  unfold Streams.unindexOffset
  rw [here]
  dsimp only
  by_cases last : counts offset + 1 - 1 = 0
  · rw [if_pos last, lookup_erase]
    by_cases same : offset = other
    · subst same
      rw [if_pos rfl, if_pos (by omega)]
    · rw [if_neg same, there]
      simp [same]
  · rw [if_neg last, lookup_insert]
    by_cases same : offset = other
    · subst same
      rw [if_pos rfl, if_neg (by omega)]
      rfl
    · rw [if_neg same, there]
      simp [same]

end Counts

/-! ## The sending side -/

variable {id : Nat}

namespace SendingView

/-- The index of a stream; a stream that is gone has none. -/
def offsets (view : SendingView) (id : Nat) : BTreeMap Nat :=
  (view.buffer id).elim ∅ SendBuffer.sentRangeOffsets

def Mirrors (view : SendingView) (counts : Nat → Nat → Nat) : Prop :=
  ∀ id, Counts (view.offsets id) (counts id)

variable {view : SendingView} {counts : Nat → Nat → Nat}

theorem offsets_put (view : SendingView) (id other : Nat) (buffer : Option SendBuffer) :
    (view.put id buffer).offsets other =
      if other = id then buffer.elim ∅ SendBuffer.sentRangeOffsets
      else view.offsets other := by
  unfold offsets put
  dsimp only
  rw [update_apply]
  split <;> rfl

variable {effect : SendBuffer → SendBuffer} {entry : Nat × StreamRange}

/-- A change that keeps the index of the stream keeps all of them. -/
theorem offsets_modify_same
    (kept : ∀ buffer, (effect buffer).sentRangeOffsets = buffer.sentRangeOffsets)
    (other : Nat) : (view.modify id effect).offsets other = view.offsets other := by
  unfold modify
  rw [offsets_put]
  by_cases same : other = id
  · subst same
    rw [if_pos rfl, offsets]
    cases view.buffer other with
    | none => rfl
    | some buffer => exact kept buffer
  · rw [if_neg same]

theorem Mirrors.of_offsets (mirrors : view.Mirrors counts) {other : SendingView}
    (same : ∀ id, other.offsets id = view.offsets id) : other.Mirrors counts := by
  intro id
  rw [same]
  exact mirrors id

theorem Mirrors.modify (mirrors : view.Mirrors counts) (id : Nat)
    (kept : ∀ buffer, (effect buffer).sentRangeOffsets = buffer.sentRangeOffsets) :
    (view.modify id effect).Mirrors counts :=
  mirrors.of_offsets (offsets_modify_same kept)

theorem Mirrors.foldl {α : Type} {change : SendingView → α → SendingView}
    (kept : ∀ view entry, Mirrors view counts → Mirrors (change view entry) counts)
    (entries : List α) (mirrors : view.Mirrors counts) :
    (entries.foldl change view).Mirrors counts := by
  induction entries generalizing view with
  | nil => exact mirrors
  | cons entry _ ih => exact ih (kept view entry mirrors)

/-! ### Moves of the table -/

variable {later : SendingView}

/-- A stream that is opened has nothing in flight, and a stream retires only
after all of its ranges. -/
theorem Mirrors.move {side : Side} (mirrors : view.Mirrors counts)
    (inv : Numbered side view) (move : Move view later) : later.Mirrors counts := by
  have opens id : view.buffer id = none → ∀ other,
      (view.put id (some Stream.fresh.toSendBuffer)).offsets other = view.offsets other := by
    intro absent other
    rw [offsets_put]
    by_cases same : other = id
    · rw [if_pos same, same, offsets, absent]
      rfl
    · rw [if_neg same]
  cases move with
  | @change id _ _ found moved =>
    apply mirrors.of_offsets
    intro other
    rw [offsets_put]
    by_cases same : other = id
    · rw [if_pos same, same, offsets, found]
      cases moved <;> rfl
    · rw [if_neg same]
  | @openNext id peer =>
    have absent : view.buffer id = none := by
      cases found : view.buffer id with
      | none => rfl
      | some buffer =>
        have opened := inv.live id buffer found
        rw [wasOpened_iff] at opened
        have before := opened.1 peer
        omega
    exact mirrors.of_offsets (opens id absent)
  | @create id _ _ absent =>
    apply mirrors.of_offsets
    intro other
    rw [← opens id absent other, offsets, buffer_advance]
    rfl
  | advance =>
    apply mirrors.of_offsets
    intro other
    rw [offsets, buffer_advance]
    rfl
  | @retire id stream found _ idle =>
    intro other
    change Counts ((view.put id none).offsets other) _
    rw [offsets_put]
    by_cases same : other = id
    · subst same
      rw [if_pos rfl]
      have counted := mirrors other
      rw [offsets, found] at counted
      intro offset
      have empty : stream.sentRangeOffsets[offset]? = none := Std.TreeMap.getElem?_of_isEmpty idle
      exact (Std.TreeMap.getElem?_emptyc.trans empty.symm).trans (counted offset)
    · rw [if_neg same]
      exact mirrors other

theorem Mirrors.moves {side : Side} (moves : Moves view later)
    (mirrors : view.Mirrors counts) (inv : Numbered side view) : later.Mirrors counts := by
  induction moves with
  | refl => exact mirrors
  | tail moves move ih => exact ih.move (.moves moves inv) move

/-! ### Packets -/

theorem Mirrors.index (mirrors : view.Mirrors counts) (live : (view.buffer entry.1).isSome = true) :
    (view.index entry).Mirrors
      (fun id offset =>
        counts id offset + [entry].countP (startsAt id offset)) := by
  obtain ⟨_, found⟩ := Option.isSome_iff_exists.mp live
  intro id
  have counted := mirrors id
  unfold SendingView.index SendingView.modify
  rw [offsets_put, found]
  by_cases same : id = entry.1
  · subst same
    rw [offsets, found] at counted
    simpa [startsAt, countP_cons, SendBuffer.indexed] using counted.insert entry.2.offset
  · rw [if_neg same]
    simpa [startsAt, countP_cons, Ne.symm same] using counted

theorem Mirrors.unindex (mirrors : view.Mirrors fun id offset =>
      counts id offset + [entry].countP (startsAt id offset)) :
    (view.unindex entry).Mirrors counts := by
  intro id
  have counted := mirrors id
  unfold SendingView.unindex SendingView.modify
  rw [offsets_put]
  by_cases same : id = entry.1
  · subst same
    rw [if_pos rfl]
    have counted : Counts (view.offsets entry.1) (fun offset =>
        counts entry.1 offset + if entry.2.offset = offset then 1 else 0) := by
      simpa [startsAt, countP_cons] using counted
    have removed := counted.unindexOffset
    rw [offsets] at removed
    cases found : view.buffer entry.1 with
    | none =>
      have here := counted entry.2.offset
      simp [offsets, found] at here
    | some =>
      rw [found] at removed
      exact removed
  · rw [if_neg same]
    simpa [startsAt, countP_cons, Ne.symm same] using counted

theorem Mirrors.foldl_unindex {entries : List (Nat × StreamRange)}
    (mirrors : view.Mirrors fun id offset =>
      counts id offset + entries.countP (startsAt id offset)) :
    (entries.foldl SendingView.unindex view).Mirrors counts := by
  induction entries generalizing view with
  | nil => simpa using mirrors
  | cons _ _ ih =>
    apply ih
    apply Mirrors.unindex
    simpa [countP_cons, add_assoc] using mirrors

end SendingView

/-! ## Steps -/

variable {stream : Stream}

namespace Delivery

open SendingView

/-- The indices of all streams are what the packets in flight carry, whose
numbers are used up. -/
structure Mirrored (side : Side) (view : Delivery) : Prop where
  numbered : Numbered side view.table.sending
  used : ∀ (pn : Nat) (content : SentContent),
    (view.contents .data)[pn]? = some content → pn < view.next
  index : view.table.sending.Mirrors (flights (view.contents .data))

variable {side : Side} {first second view : Delivery} {content : SentContent}

theorem contents_store_data (view : Delivery) (pn : Nat) (content : SentContent) :
    (view.store .data pn content).contents .data = (view.contents .data).insert pn content := by
  simp [store]

theorem contents_take_data (view : Delivery) (pn : Nat) (content : SentContent) :
    (view.take .data pn content).contents .data = (view.contents .data).erase pn := by
  simp [take]

theorem mirrors_store (inv : Mirrored side view) {pn : Nat}
    (new : view.next ≤ pn)
    (carried : content.stream = [] ∨ ∃ entry, content.stream = [entry] ∧
      (view.table.sending.buffer entry.1).isSome = true) :
    (view.store .data pn content).table.sending.Mirrors
      (flights ((view.store .data pn content).contents .data)) := by
  have absent : (view.contents .data)[pn]? = none := by
    cases found : (view.contents .data)[pn]? with
    | none => rfl
    | some old =>
      have before := inv.used pn old found
      omega
  have counted : flights ((view.store .data pn content).contents .data) =
      fun id offset => flights (view.contents .data) id offset +
        content.stream.countP (startsAt id offset) := by
    funext id offset
    rw [contents_store_data, flights, total_insert _ content absent, add_comm]
    rfl
  rw [counted]
  change (view.table.indexSentStreamRanges content).sending.Mirrors _
  rw [sending_indexSentStreamRanges]
  rcases carried with plain | ⟨_, single, live⟩
  · rw [plain]
    simpa using inv.index
  · rw [single]
    exact inv.index.index live

theorem used_store (inv : Mirrored side view) {pn : Nat}
    (new : view.next ≤ pn) (other : Nat) (found : SentContent)
    (lookup : ((view.store .data pn content).contents .data)[other]? =
      some found) : other < pn + 1 := by
  rw [contents_store_data, lookup_insert] at lookup
  by_cases same : pn = other
  · omega
  · rw [if_neg same] at lookup
    have before := inv.used other found lookup
    omega

theorem mirrored_take (inv : Mirrored side view) {space : SpaceId} {pn : Nat}
    (found : (view.contents space)[pn]? = some content) :
    Mirrored side (view.take space pn content) := by
  refine ⟨numbered_take inv.numbered space pn content, ?_, ?_⟩
  · intro other old lookup
    by_cases data : space = .data
    · subst data
      rw [contents_take_data, lookup_erase] at lookup
      by_cases same : pn = other
      · rw [if_pos same] at lookup
        cases lookup
      · rw [if_neg same] at lookup
        exact inv.used other old lookup
    · simp only [take, update_of_ne (Ne.symm data)] at lookup
      exact inv.used other old lookup
  · by_cases data : space = .data
    · subst data
      rw [contents_take_data]
      change (view.table.unindexSentStreamRanges content).sending.Mirrors _
      rw [sending_unindexSentStreamRanges]
      apply Mirrors.foldl_unindex
      have split : (fun id offset =>
          flights ((view.contents .data).erase pn) id offset +
            content.stream.countP (startsAt id offset)) = flights (view.contents .data) := by
        funext id offset
        have parts := total_erase (fun _ (content : SentContent) =>
          content.stream.countP (startsAt id offset)) found
        unfold flights
        omega
      rw [split]
      exact inv.index
    · simp only [take, if_neg data, update_of_ne (Ne.symm data)]
      exact inv.index

variable {table : Streams}

theorem mirrors_markAcked {counts : Nat → Nat → Nat}
    (mirrors : table.sending.Mirrors counts) (content : SentContent) :
    (table.markAcked content).sending.Mirrors counts := by
  rw [sending_markAcked]
  have reset (view : SendingView) (id : Nat) : view.Mirrors counts →
      (view.ackReset id).Mirrors counts :=
    fun mirrors => mirrors.modify id fun _ => rfl
  apply Mirrors.foldl reset
  have finished :
      (content.stream.foldl .ackRange table.sending).Mirrors
        counts := by
    apply Mirrors.foldl _ _ mirrors
    intro _ _ mirrors
    unfold SendingView.ackRange
    split
    · exact mirrors.modify _ fun _ => rfl
    · exact mirrors
  exact finished

theorem mirrors_requeue {counts : Nat → Nat → Nat} (mirrors : table.sending.Mirrors counts)
    (inv : Numbered side table.sending) (content : SentContent) :
    (table.requeue content).sending.Mirrors counts := by
  rw [sending_requeue]
  generalize content.stream = entries
  induction entries generalizing table with
  | nil => exact mirrors
  | cons entry _ ih =>
    have queued : (table.sending.modify entry.1 (·.requeued entry.2)).Mirrors counts := by
      apply mirrors.modify
      intro _
      unfold SendBuffer.requeued
      split <;> rfl
    have moves := sendMoves_requeueRange table entry
    exact ih (.moves moves queued (inv.modify _ _))
      (.moves moves (inv.modify _ _))

theorem isSome_buffer (found : table.streams[id]? = some stream) :
    (table.sending.buffer id).isSome = true := by
  change (table.buffer id).isSome = true
  rw [Streams.buffer, found]
  rfl

/-- Every step keeps the indices and the packets in flight together. -/
theorem Step.mirrored (step : Step first second) (mirrored : Mirrored side first) :
    Mirrored side second := by
  have inv := step.numbered mirrored.numbered
  cases step with
  | table changed =>
    exact ⟨inv, mirrored.used, .moves (sendMoves_op changed) mirrored.index mirrored.numbered⟩
  | skip _ later =>
    exact ⟨inv, fun pn content found =>
      (mirrored.used pn content found).trans_le later, mirrored.index⟩
  | control space pn content plain _ new =>
    by_cases data : space = .data
    · subst data
      exact ⟨inv, used_store mirrored (new rfl), mirrors_store mirrored (new rfl) (.inl plain)⟩
    · refine ⟨inv, ?_, ?_⟩
      · simp only [store, if_neg data, update_of_ne (Ne.symm data)]
        exact mirrored.used
      · simp only [store, if_neg data, update_of_ne (Ne.symm data)]
        exact mirrored.index
  | stream _ id _ _ present _ _ new =>
    refine ⟨inv, used_store mirrored new, ?_⟩
    rw [mapTable, sending_chunkSent]
    apply Mirrors.modify _ id _
    · exact mirrors_store mirrored new (.inr ⟨_, rfl, isSome_buffer present⟩)
    · intro buffer
      unfold SendBuffer.resent SendBuffer.advanced
      repeat' split
      all_goals rfl
  | zeroRttStream _ id _ _ present _ _ new =>
    refine ⟨inv, used_store mirrored new, ?_⟩
    rw [mapTable, sending_zeroRttChunkSent]
    apply Mirrors.modify _ id _
    · exact mirrors_store mirrored new (.inr ⟨_, rfl, isSome_buffer present⟩)
    · intro _
      split <;> rfl
  | aim | unaim => exact ⟨inv, mirrored.used, mirrored.index⟩
  | acked _ _ content found =>
    have taken := mirrored_take mirrored found
    exact ⟨inv, taken.used, mirrors_markAcked taken.index content⟩
  | lost _ _ content found =>
    have taken := mirrored_take mirrored found
    exact ⟨inv, taken.used, mirrors_requeue taken.index taken.numbered content⟩
  | probeLost _ _ _ found =>
    have taken := mirrored_take mirrored found
    exact ⟨inv, taken.used, taken.index⟩
  | discard space early =>
    have contents : Function.update first.contents space ∅ .data = first.contents .data :=
      update_of_ne early.symm ..
    refine ⟨inv, ?_, ?_⟩
    · dsimp only
      rw [contents]
      exact mirrored.used
    · dsimp only
      rw [contents]
      exact mirrored.index

end Delivery

/-! ## Reclaiming -/

namespace Streams

/-- The lowest offset that may still be sent, by a scan of everything in
flight. -/
def scanLowest (contents : BTreeMap SentContent) (id : Nat) (stream : Stream) : Nat :=
  ((contents.toList.flatMap fun entry => entry.2.stream).filter fun entry =>
    decide (entry.1 = id)).foldl (fun low entry => min low entry.2.offset)
      (stream.retransmit.foldl (fun low range => min low range.offset) stream.sendOff)

variable {contents : BTreeMap SentContent} (entries : List (Nat × StreamRange)) (start : Nat)

theorem foldl_min_mem :
    entries.foldl (fun low entry => min low entry.2.offset) start = start ∨
      ∃ entry ∈ entries, entries.foldl (fun low entry => min low entry.2.offset) start =
          entry.2.offset := by
  induction entries generalizing start with
  | nil => exact .inl rfl
  | cons first _ ih =>
    rw [foldl_cons]
    rcases ih (min start first.2.offset) with same | ⟨entry, member, least⟩
    · rcases le_total start first.2.offset with below | above
      · left
        rw [same, min_eq_left below]
      · right
        refine ⟨first, mem_cons_self, ?_⟩
        rw [same, min_eq_right above]
    · exact .inr ⟨entry, mem_cons_of_mem _ member, least⟩

theorem flights_pos {offset : Nat} :
    flights contents id offset ≠ 0 ↔
      ∃ entry ∈ (contents.toList.flatMap fun entry => entry.2.stream).filter
        (fun entry => decide (entry.1 = id)), entry.2.offset = offset := by
  unfold flights total
  rw [Ne, List.sum_eq_zero_iff_forall_eq_nat]
  simp only [mem_map, forall_exists_index, and_imp, not_forall,
    mem_filter, mem_flatMap, decide_eq_true_eq]
  constructor
  · rintro ⟨_, packet, member, rfl, positive⟩
    obtain ⟨entry, carried, starts⟩ := List.countP_pos_iff.mp (pos_of_ne_zero positive)
    simp only [startsAt, Bool.and_eq_true, decide_eq_true_eq] at starts
    exact ⟨entry, ⟨⟨packet, member, carried⟩, starts.1⟩, starts.2⟩
  · rintro ⟨entry, ⟨⟨packet, member, carried⟩, same⟩, here⟩
    refine ⟨_, packet, member, rfl, ?_⟩
    apply ne_of_gt
    apply List.countP_pos_iff.mpr
    exact ⟨entry, carried, by simp [startsAt, same, here]⟩

theorem lowestNeeded_eq_scan (counted : Counts stream.sentRangeOffsets (flights contents id)) :
    lowestNeeded stream = scanLowest contents id stream := by
  have indexed (offset : Nat) :
      stream.sentRangeOffsets[offset]?.isSome = true ↔ flights contents id offset ≠ 0 := by
    rw [counted offset]
    by_cases none : flights contents id offset = 0
    · simp [none]
    · simp [none]
  unfold lowestNeeded scanLowest
  generalize stream.retransmit.foldl (fun low range => min low range.offset) stream.sendOff = queued
  have scanned (offset : Nat) : _ ↔ _ := (indexed offset).trans flights_pos
  generalize (contents.toList.flatMap fun entry => entry.2.stream).filter
    (fun entry => decide (entry.1 = id)) = entries at scanned ⊢
  obtain ⟨start, below⟩ := foldl_min_le (fun entry => entry.2.offset) entries queued
  apply le_antisymm
  · rcases foldl_min_mem entries queued with same | ⟨entry, member, least⟩
    · rw [same]
      cases stream.sentRangeOffsets.toList.head? with
      | none => exact le_rfl
      | some => exact min_le_left _ _
    · rw [least]
      have live := (scanned entry.2.offset).mpr ⟨entry, member, rfl⟩
      obtain ⟨_, found⟩ := Option.isSome_iff_exists.mp live
      cases isHead : stream.sentRangeOffsets.toList.head? with
      | none =>
        rw [head_eq_none isHead] at found
        cases found
      | some => exact (min_le_right _ _).trans (head_le isHead found)
  · cases isHead : stream.sentRangeOffsets.toList.head? with
    | none => exact start
    | some oldest =>
      have found := lookup_of_head isHead
      have live : stream.sentRangeOffsets[oldest.1]?.isSome = true := by
        rw [found]
        rfl
      obtain ⟨entry, member, here⟩ := (scanned oldest.1).mp live
      apply Nat.le_min.mpr
      refine ⟨start, ?_⟩
      rw [← here]
      exact below entry member

end Streams

/-! ## Runs -/

namespace Connection

open Quic.Core Delivery

variable {T C : Type} [TlsSession T] [Controller C] {maxSent : Dir → Nat}

theorem mirrored_fresh {core : Core T} (fresh : Fresh maxSent core) :
    Mirrored core.side core.delivery := by
  rw [fresh.delivery]
  refine ⟨fresh.numbered, ?_, ?_⟩
  · intro _ _ found
    exact absurd (found.symm.trans Std.TreeMap.getElem?_emptyc) nofun
  · intro id offset
    obtain ⟨side, ticket, table⟩ := fresh.table
    obtain ⟨_, _, -, sending⟩ := freshTable_isFresh side maxSent ticket
    rw [← table] at sending
    change (core.toStreams.sending.offsets id)[offset]? = _
    rw [sending, SendingView.offsets]
    simp [Streams.sending, Streams.buffer, Streams.new, flights, Delivery.fresh]

/-- In every run the indices agree with the packets in flight, also between
the steps of what follows. -/
theorem FrameRuns.mirrored {start conn : Connection T C} (starts : Starts maxSent start)
    (runs : FrameRuns start conn) {view : Delivery} (steps : Steps conn.core.delivery view) :
    ∃ side, Mirrored side view := by
  obtain ⟨_, isFresh, acts⟩ := FrameRuns.acts starts runs
  exact ⟨_, Steps.rule (fun _ _ step => step.mirrored)
    (acts.steps.trans steps) (mirrored_fresh isFresh)⟩

theorem counts_of_mirrored {side : Side} {view : Delivery} (inv : Mirrored side view)
    (present : view.table.streams[id]? = some stream) :
    Counts stream.sentRangeOffsets (flights (view.contents .data) id) := by
  have counted := inv.index id
  have found : view.table.sending.offsets id = stream.sentRangeOffsets := by
    simp [SendingView.offsets, Streams.sending, Streams.buffer, present]
  rw [found] at counted
  exact counted

/-- In every run, frame by frame and in each space: contents are kept of
exactly the ack-eliciting packets tracked; the bytes in flight are the sum of
their sizes, so that no removal saturates; few pure ACKs are tracked. The
index of each stream counts exactly its ranges in flight, no packet carries a
range of a stream that is gone, and a send buffer is reclaimed up to where a
scan of all packets in flight says, whenever that happens in what follows. -/
theorem frameRuns_inFlight {recvMaxStreamsSent : Dir → Nat} {start conn : Connection T C}
    (starts : Starts recvMaxStreamsSent start) (runs : FrameRuns start conn) :
    (∀ space,
      (∀ pn : Nat, (conn.spaces space).sentContent.contains pn = true ↔
        ∃ packet, (conn.spaces space).sent.packets[pn]? = some packet ∧
          packet.ackEliciting = true) ∧
      (conn.spaces space).sent.inFlight =
        total (fun _ packet => if packet.ackEliciting then packet.size else 0)
          (conn.spaces space).sent.packets ∧
      (∀ (pns : List Nat) (pn : Nat) (packet : SentPacket),
        ((conn.spaces space).sent.removeAll pns).1.packets[pn]? = some packet →
          packet.ackEliciting = true →
            packet.size ≤ ((conn.spaces space).sent.removeAll pns).1.inFlight) ∧
      ((conn.spaces space).sent.packets.toList.filter fun entry =>
        !entry.2.ackEliciting).length ≤ MAX_NON_ACK_ELICITING_TRACKED) ∧
    (∀ (id : Nat) (stream : Stream), conn.streams[id]? = some stream →
      ∀ offset : Nat, stream.sentRangeOffsets[offset]? =
        if flights (conn.spaces .data).sentContent id offset = 0 then none
        else some (flights (conn.spaces .data).sentContent id offset)) ∧
    (∀ id : Nat, conn.streams[id]? = none →
      ∀ offset, flights (conn.spaces .data).sentContent id offset = 0) ∧
    ∀ view, Steps conn.core.delivery view →
      ∀ (id : Nat) (stream : Stream), view.table.streams[id]? = some stream →
        Streams.lowestNeeded stream = Streams.scanLowest (view.contents .data) id stream := by
  have agree : ∀ space, (conn.core.records space).Agrees := by
    apply FrameRuns.core_rule (motive := fun core => ∀ space, (core.records space).Agrees) _
      (fun _ _ act => act.records_agree) starts runs
    intro core fresh space
    rw [fresh.records]
    exact SentRecord.agrees_new
  obtain ⟨side, mirrored⟩ := FrameRuns.mirrored starts runs (.refl _)
  refine ⟨?_, ?_, ?_, ?_⟩
  · intro space
    have sound := (agree space).sound
    refine ⟨?_, sound.flight, ?_, sound.few_quiet⟩
    · intro pn
      have contents : (conn.spaces space).sentContent[pn]?.isSome =
          (conn.spaces space).sent.packets[pn]?.any SentPacket.ackEliciting :=
        (agree space).contents pn
      rw [← Std.TreeMap.isSome_getElem?_eq_contains, contents, Option.any_eq_true]
    · intro pns _ _ found eliciting
      have counted := (sound.removeAll pns).size_le found
      rw [SentPackets.flightSize, if_pos eliciting] at counted
      exact counted
  · intro id stream present
    exact counts_of_mirrored mirrored present
  · intro id absent offset
    have counted := mirrored.index id offset
    have gone : conn.core.delivery.table.streams[id]? = none := absent
    have empty : conn.core.delivery.table.sending.offsets id = ∅ := by
      simp [SendingView.offsets, Streams.sending, Streams.buffer, gone]
    rw [empty] at counted
    change flights (conn.core.delivery.contents .data) id offset = 0
    by_contra flying
    rw [if_neg flying] at counted
    exact Option.some_ne_none _ (counted.symm.trans Std.TreeMap.getElem?_emptyc)
  · intro _ steps _ _ present
    obtain ⟨_, mirrored⟩ := FrameRuns.mirrored starts runs steps
    exact lowestNeeded_eq_scan (counts_of_mirrored mirrored present)

/-- A client with one byte of a stream in flight. -/
theorem frameRuns_inFlight_sending :
    ∃ conn : Connection ScriptedTls FixedWindow, FrameRuns openingExample conn ∧
        (conn.spaces .data).sent.inFlight = 46 ∧
        flights (conn.spaces .data).sentContent 0 0 = 1 ∧
        (conn.spaces .data).sent.inFlight =
          total (fun _ packet =>
            if packet.ackEliciting then packet.size else 0) (conn.spaces .data).sent.packets := by
  have sends : ((openingExample.play
      [.openBi, .sendStream 0 [7], .pollTransmit 0, .pollTransmit 0]).any
        fun conn =>
          decide ((conn.spaces .data).sent.inFlight = 46) &&
            decide (flights (conn.spaces .data).sentContent 0 0 = 1)) = true := by
    decide
  obtain ⟨conn, played, facts⟩ := Option.any_eq_true _ _ |>.mp sends
  simp only [Bool.and_eq_true, decide_eq_true_eq] at facts
  have runs := (runs_of_play played).frames
  exact ⟨conn, runs, facts.1, facts.2, ((frameRuns_inFlight (.client ..) runs).1 .data).2.1⟩

end Connection

end ParallaX.Quic
