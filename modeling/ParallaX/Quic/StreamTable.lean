import ParallaX.Quic.StreamRecv

/-!
# The stream table, entry by entry

What the operations of the table do to the two halves of each stream. The
streams of the peer are opened one ordinal at a time, so a property that
opening the next stream keeps is kept by `ensureStream`.
-/

namespace ParallaX.Quic.Streams

open ParallaX.Data Option

/-! ## Entries -/

/-- The receive side of a stream. -/
def account (table : Streams) (id : Nat) : Option RecvAccount :=
  table.streams[id]?.map fun stream => stream.toRecvAccount

/-- The send side of a stream. -/
def buffer (table : Streams) (id : Nat) : Option SendBuffer :=
  table.streams[id]?.map fun stream => stream.toSendBuffer

variable {id : Nat} {stream : Stream} {motive : Streams → Prop} (ty : Nat) (table : Streams)

theorem account_of_lookup {table : Streams} (found : table.streams[id]? = some stream) :
    table.account id = some stream.toRecvAccount := by
  rw [account, found, map_some]

theorem buffer_of_lookup {table : Streams} (found : table.streams[id]? = some stream) :
    table.buffer id = some stream.toSendBuffer := by
  rw [buffer, found, map_some]

theorem contains_eq_isSome (id : Nat) : table.streams.contains id = table.streams[id]?.isSome :=
  Std.TreeMap.contains_eq_isSome_getElem?

theorem contains_eq_account (id : Nat) : table.streams.contains id = (table.account id).isSome := by
  rw [contains_eq_isSome, account, isSome_map]

theorem contains_eq_buffer (id : Nat) : table.streams.contains id = (table.buffer id).isSome := by
  rw [contains_eq_isSome, buffer, isSome_map]

theorem lookup_eq_none {table : Streams} (absent : table.streams.contains id = false) :
    table.streams[id]? = none := by
  rw [contains_eq_isSome] at absent
  exact not_isSome_iff_eq_none.mp (by rw [absent]; decide)

theorem lookup_modifyStream (id other : Nat) (change : Stream → Stream) :
    (table.modifyStream id change).streams[other]? =
      if id = other then table.streams[id]?.map change
      else table.streams[other]? :=
  lookup_modify table.streams id other change

/-- A change is not seen by what does not read it. -/
theorem map_modifyStream {γ : Type} {project : Stream → γ} {table : Streams}
    {change : Stream → Stream} (unseen : ∀ stream, project (change stream) = project stream)
    (other : Nat) :
    (table.modifyStream id change).streams[other]?.map project =
      table.streams[other]?.map project := by
  rw [lookup_modifyStream]
  by_cases same : id = other
  · subst same
    rw [if_pos rfl, map_map]
    congr 1
    funext stream
    exact unseen stream
  · rw [if_neg same]

variable (ordinal : Nat)

theorem testBit_ordinal (id bit : Nat) (small : bit < 2) :
    (ordinal * 4 + id % 4).testBit bit = id.testBit bit := by
  have either : bit = 0 ∨ bit = 1 := by omega
  rw [Nat.testBit_eq_decide_div_mod_eq, Nat.testBit_eq_decide_div_mod_eq]
  apply decide_eq_decide.mpr
  rcases either with rfl | rfl <;> omega

theorem isUni_ordinal (id : Nat) : isUni (ordinal * 4 + id % 4) = isUni id :=
  testBit_ordinal ordinal id 1 (by omega)

theorem kindOf_ordinal (id : Nat) : kindOf (ordinal * 4 + id % 4) = kindOf id := by
  rw [kindOf, kindOf, isUni_ordinal]

/-- The low two bits of an id name its kind and its initiator. -/
theorem isPeerInitiated_ordinal (id : Nat) :
    table.isPeerInitiated (ordinal * 4 + id % 4) = table.isPeerInitiated id := by
  rw [isPeerInitiated, isPeerInitiated, testBit_ordinal ordinal id 0 (by omega)]

/-! ## Opening the streams of the peer -/

/-- The next stream of the peer is opened. -/
def openNext (table : Streams) (id : Nat) : Streams :=
  { table.openPeerStream id with
    peerStreamsOpened :=
      Function.update table.peerStreamsOpened (kindOf id) (id / 4 + 1) }

theorem openPeerStream_eq (id : Nat) :
    table.openPeerStream id =
      { table with
        streams := table.streams.insert id
          { Stream.fresh with sendMax := table.peerSendLimit id }
        acceptUni :=
          if isUni id then table.acceptUni ++ [id] else table.acceptUni
        acceptBidi :=
          if isUni id then table.acceptBidi
          else table.acceptBidi ++ [id] } := by
  unfold openPeerStream
  by_cases uni : isUni id = true
  · simp [if_pos uni]
  · simp [if_neg uni]

theorem openPeerStream_update (id : Nat) (opened : Dir → Nat) :
    openPeerStream { table with peerStreamsOpened := opened } id =
      { table.openPeerStream id with peerStreamsOpened := opened } := by
  rw [openPeerStream_eq, openPeerStream_eq]
  rfl

theorem side_openPeerStream (id : Nat) : (table.openPeerStream id).side = table.side := by
  rw [openPeerStream_eq]

theorem openedIds_succ (frontier count bits : Nat) :
    openedIds frontier (frontier + (count + 1)) bits =
      openedIds frontier (frontier + count) bits ++ [(frontier + count) * 4 + bits] := by
  unfold openedIds
  rw [Nat.add_sub_cancel_left, Nat.add_sub_cancel_left, List.range'_concat,
    List.map_append, Nat.one_mul]
  rfl

theorem isPeerInitiated_of_side
    {first second : Streams} (same : second.side = first.side) (id : Nat) :
    second.isPeerInitiated id = first.isPeerInitiated id := by
  rw [isPeerInitiated, isPeerInitiated, same]

theorem side_foldl_openPeerStream (ids : List Nat) (table : Streams) :
    (ids.foldl openPeerStream table).side = table.side := by
  induction ids generalizing table with
  | nil => rfl
  | cons _ _ ih => rw [List.foldl_cons, ih, side_openPeerStream]

/-- Streams of the peer are opened up to one that it named. -/
def openBlock (table : Streams) (id count : Nat) : Streams :=
  let frontier := table.peerStreamsOpened (kindOf id)
  { (openedIds frontier (frontier + count) (id % 4)).foldl openPeerStream table with
    peerStreamsOpened :=
      Function.update table.peerStreamsOpened (kindOf id) (frontier + count) }

theorem openBlock_zero (id : Nat) : table.openBlock id 0 = table := by
  unfold openBlock openedIds
  simp [List.range'_zero]

theorem openBlock_succ (id count : Nat) :
    table.openBlock id (count + 1) =
      (table.openBlock id count).openNext
        ((table.peerStreamsOpened (kindOf id) + count) * 4 + id % 4) := by
  have ordinal :
      ((table.peerStreamsOpened (kindOf id) + count) * 4 + id % 4) / 4 =
        table.peerStreamsOpened (kindOf id) + count := by
    omega
  unfold openNext
  rw [ordinal, kindOf_ordinal]
  unfold openBlock
  dsimp only
  rw [openedIds_succ, List.foldl_append, openPeerStream_update, Function.update_idem]
  rfl

theorem isPeerInitiated_openBlock (id count other : Nat) :
    (table.openBlock id count).isPeerInitiated other = table.isPeerInitiated other :=
  isPeerInitiated_of_side (side_foldl_openPeerStream _ _) other

theorem peerStreamsOpened_openBlock (id count : Nat) :
    (table.openBlock id count).peerStreamsOpened (kindOf id) =
      table.peerStreamsOpened (kindOf id) + count :=
  Function.update_self ..

/-- What opening one stream keeps, opening a block keeps. -/
theorem openBlock_rule {table : Streams}
    (opened : ∀ table next, motive table → table.isPeerInitiated next = true →
      table.peerStreamsOpened (kindOf next) = next / 4 →
      motive (table.openNext next))
    (peer : table.isPeerInitiated id = true) (holds : motive table) (count : Nat) :
    motive (table.openBlock id count) := by
  induction count with
  | zero =>
    rw [openBlock_zero]
    exact holds
  | succ _ ih =>
    rw [openBlock_succ]
    apply opened _ _ ih
    · rw [isPeerInitiated_openBlock, isPeerInitiated_ordinal, peer]
    · rw [kindOf_ordinal, peerStreamsOpened_openBlock]
      omega

/-! ## Streams on first sight -/

theorem streamRetired_eq_false {table : Streams} (alive : table.streamRetired id = false)
    (absent : table.streams.contains id = false) (peer : table.isPeerInitiated id = true) :
    table.peerStreamsOpened (kindOf id) ≤ id / 4 := by
  unfold streamRetired at alive
  rw [absent, peer] at alive
  simpa using alive

/-- A stream is refused, is there already, or is opened with those before it. -/
theorem ensureStream_cases {table : Streams} (alive : table.streamRetired id = false) :
    (∃ failure, table.ensureStream id ty = (table, .error failure)) ∨
      (table.streams.contains id = true ∧ table.ensureStream id ty = (table, .ok ())) ∨
      (table.streams.contains id = false ∧ table.isPeerInitiated id = true ∧
        table.ensureStream id ty =
          (table.openBlock id (id / 4 + 1 - table.peerStreamsOpened (kindOf id)), .ok ())) := by
  unfold ensureStream
  cases found : table.streams.contains id with
  | true => exact .inr (.inl ⟨rfl, if_pos rfl⟩)
  | false =>
    cases peer : table.isPeerInitiated id with
    | false => exact .inl ⟨_, rfl⟩
    | true =>
      have ordinal := streamRetired_eq_false alive found peer
      by_cases refused :
          table.recvMaxStreamsSent (kindOf id) < id / 4 + 1 ∨
            MAX_PEER_STREAMS - table.livePeerStreams (kindOf id) <
              id / 4 + 1 - table.peerStreamsOpened (kindOf id)
      · refine .inl ⟨.transport 0x04 ty "peer exceeded the stream limit", ?_⟩
        rw [if_neg Bool.false_ne_true, if_neg (by decide), if_pos refused]
      · refine .inr (.inr ⟨rfl, rfl, ?_⟩)
        rw [if_neg Bool.false_ne_true, if_neg (by decide), if_neg refused,
          openBlock, Nat.add_sub_of_le (by omega)]

/-- What opening one stream keeps, a frame that names a stream keeps. -/
theorem ensureStream_rule {table : Streams} {ty : Nat}
    (opened : ∀ table next, motive table → table.isPeerInitiated next = true →
      table.peerStreamsOpened (kindOf next) = next / 4 →
      motive (table.openNext next))
    (alive : table.streamRetired id = false) (holds : motive table) :
    motive (table.ensureStream id ty).1 := by
  rcases ensureStream_cases ty alive with
    ⟨_, refused⟩ | ⟨-, known⟩ | ⟨-, peer, new⟩
  · rw [refused]
    exact holds
  · rw [known]
    exact holds
  · rw [new]
    exact openBlock_rule opened peer holds _

theorem lookup_openNext (id other : Nat) :
    (table.openNext id).streams[other]? =
      if id = other then
        some { Stream.fresh with sendMax := table.peerSendLimit id }
      else
        table.streams[other]? := by
  rw [openNext, openPeerStream_eq]
  exact lookup_insert ..

theorem peerStreamsOpened_openNext {table : Streams} {id : Nat}
    (frontier : table.peerStreamsOpened (kindOf id) = id / 4) :
    table.peerStreamsOpened ≤ (table.openNext id).peerStreamsOpened ∧
      id / 4 < (table.openNext id).peerStreamsOpened (kindOf id) := by
  constructor
  · exact le_update_self_iff.mpr (by omega)
  · simp only [openNext, Function.update_self]
    exact Nat.lt_succ_self _

theorem toConnCredit_openNext (id : Nat) :
    (table.openNext id).toConnCredit = table.toConnCredit := by
  rw [openNext, openPeerStream_eq]

theorem toStreamHistory_openNext (id : Nat) :
    (table.openNext id).toStreamHistory = table.toStreamHistory := by
  rw [openNext, openPeerStream_eq]

/-- A stream a frame opened is there, and has received what it had before. -/
theorem ensureStream_present {table ensured : Streams} {ty : Nat}
    (alive : table.streamRetired id = false)
    (ok : table.ensureStream id ty = (ensured, .ok ())) :
    ∃ stream, ensured.streams[id]? = some stream ∧ stream.toRecvHalf = table.recvHalf id := by
  rcases ensureStream_cases ty alive with
    ⟨_, refused⟩ | ⟨present, known⟩ | ⟨absent, peer, new⟩
  · rw [refused] at ok
    cases ok
  · rw [known] at ok
    obtain rfl : table = ensured := congrArg Prod.fst ok
    rw [contains_eq_isSome] at present
    obtain ⟨stream, found⟩ := isSome_iff_exists.mp present
    refine ⟨stream, found, ?_⟩
    rw [recvHalf, found, getD_some]
  · rw [new] at ok
    obtain rfl := congrArg Prod.fst ok
    have ordinal := streamRetired_eq_false alive absent peer
    obtain ⟨count, last⟩ : ∃ count, id / 4 + 1 - table.peerStreamsOpened (kindOf id) = count + 1 :=
      ⟨id / 4 - table.peerStreamsOpened (kindOf id), by omega⟩
    have self : (table.peerStreamsOpened (kindOf id) + count) * 4 + id % 4 = id := by omega
    have missing := lookup_eq_none absent
    rw [last, openBlock_succ, self, lookup_openNext, if_pos rfl]
    refine ⟨_, rfl, ?_⟩
    rw [recvHalf, missing, getD_none]

theorem toConnCredit_ensureStream {table : Streams} (alive : table.streamRetired id = false) :
    (table.ensureStream id ty).1.toConnCredit = table.toConnCredit := by
  apply ensureStream_rule (motive := fun ensured => ensured.toConnCredit = table.toConnCredit)
    _ alive rfl
  intro _ _ same _ _
  rw [toConnCredit_openNext, same]

theorem side_ensureStream {table : Streams} (alive : table.streamRetired id = false) :
    (table.ensureStream id ty).1.side = table.side := by
  apply ensureStream_rule (motive := fun ensured => ensured.side = table.side) _ alive rfl
  intro ensured next same _ _
  exact (side_openPeerStream ensured next).trans same

/-! ## Frames that name a stream -/

/-- A frame reached its stream: the stream was not retired, and it is in the
table now with what it had received. -/
structure Reaches (table ensured : Streams) (id frameType : Nat) (stream : Stream) : Prop where
  receives : isUni id = true → table.isPeerInitiated id = true
  alive : table.streamRetired id = false
  accepted : table.ensureStream id frameType = (ensured, .ok ())
  present : ensured.streams[id]? = some stream
  same : stream.toRecvHalf = table.recvHalf id

/-- A refused frame leaves the table as it was. -/
theorem ensureStream_reaches {table : Streams}
    (receives : ¬(isUni id && !table.isPeerInitiated id) = true)
    (alive : table.streamRetired id = false) :
    (∃ failure, table.ensureStream id ty = (table, .error failure)) ∨
      ∃ ensured stream, Reaches table ensured id ty stream := by
  cases outcome : (table.ensureStream id ty).2 with
  | error =>
    rcases ensureStream_cases ty alive with
      refused | ⟨-, known⟩ | ⟨-, -, new⟩
    · exact .inl refused
    · rw [known] at outcome
      cases outcome
    · rw [new] at outcome
      cases outcome
  | ok =>
    have accepted : table.ensureStream id ty = ((table.ensureStream id ty).1, .ok ()) :=
      Prod.ext rfl outcome
    obtain ⟨stream, found, same⟩ := ensureStream_present alive accepted
    exact .inr ⟨_, stream, fun uni => by simpa [uni] using receives, alive, accepted, found, same⟩

/-- A STREAM frame fails, is late, or stores what it carries. -/
theorem recvStream_cases (id offset : Nat) (fin : Bool) (data : List UInt8) :
    (∃ failure, table.recvStream id offset fin data = (table, .error failure)) ∨
      (table.streamRetired id = true ∧ table.recvStream id offset fin data = (table, .ok ())) ∨
      ∃ ensured stream, Reaches table ensured id 0x08 stream ∧
        table.validateStream id (offset + data.length) fin = .ok () ∧
        table.recvStream id offset fin data =
          ensured.storeStream id offset fin data (max (offset + data.length) stream.recvHigh)
            (max (offset + data.length) stream.recvHigh - stream.recvHigh) := by
  unfold recvStream
  by_cases sendOnly : (isUni id && !table.isPeerInitiated id) = true
  · rw [if_pos sendOnly]
    exact .inl ⟨_, rfl⟩
  rw [if_neg sendOnly]
  cases alive : table.streamRetired id with
  | true => exact .inr (.inl ⟨rfl, if_pos rfl⟩)
  | false =>
    rw [if_neg Bool.false_ne_true]
    by_cases overflow : 2 ^ 64 ≤ offset + data.length
    · rw [if_pos overflow]
      exact .inl ⟨_, rfl⟩
    rw [if_neg overflow]
    cases checked : table.validateStream id (offset + data.length) fin with
    | error failure => exact .inl ⟨failure, rfl⟩
    | ok =>
      rcases ensureStream_reaches 0x08 sendOnly alive with
        ⟨failure, refused⟩ | ⟨ensured, stream, reaches⟩
      · dsimp only
        rw [refused]
        exact .inl ⟨failure, rfl⟩
      · refine .inr (.inr ⟨ensured, stream, reaches, rfl, ?_⟩)
        rw [reaches.accepted, ← reaches.same]

theorem bufferFragment_rule {charged : Streams}
    {offset : Nat} {data : List UInt8} (dropped : motive charged)
    (held : ∀ pendingTotal, motive
      { charged.modifyStream id (·.hold offset data) with recvPendingTotal := pendingTotal }) :
    motive (charged.bufferFragment id stream offset data).1 := by
  unfold bufferFragment
  split
  · exact dropped
  split
  · exact dropped
  split
  · exact dropped
  · exact held _

/-- A RESET_STREAM frame changes nothing, or resets the stream it reaches. -/
theorem recvResetStream_cases (id code size : Nat) :
    (∃ outcome, table.recvResetStream id code size = (table, outcome)) ∨
      ∃ ensured stream, Reaches table ensured id 0x04 stream ∧
        table.validateReset id size = .ok () ∧
        table.recvResetStream id code size =
          ensured.storeReset id code size (size - stream.recvHigh) := by
  unfold recvResetStream
  by_cases sendOnly : (isUni id && !table.isPeerInitiated id) = true
  · rw [if_pos sendOnly]
    exact .inl ⟨_, rfl⟩
  rw [if_neg sendOnly]
  cases alive : table.streamRetired id with
  | true => exact .inl ⟨_, rfl⟩
  | false =>
    rw [if_neg Bool.false_ne_true]
    cases checked : table.validateReset id size with
    | error => exact .inl ⟨_, rfl⟩
    | ok =>
      rcases ensureStream_reaches 0x04 sendOnly alive with
        ⟨_, refused⟩ | ⟨ensured, stream, reaches⟩
      · dsimp only
        rw [refused]
        exact .inl ⟨_, rfl⟩
      · refine .inr ⟨ensured, stream, reaches, rfl, ?_⟩
        rw [reaches.accepted, ← reaches.same]

/-- A stream that is done leaves the table. -/
structure Retires (first second : Streams) (id : Nat) (stream : Stream) : Prop where
  present : first.streams[id]? = some stream
  ready : first.retirable id stream = true
  streams : second.streams = first.streams.erase id
  retired : second.retired = first.retired ++ [(id, stream)]
  ackedRanges : second.ackedRanges = first.ackedRanges
  credit : second.toConnCredit = first.toConnCredit
  side : second.side = first.side
  opened : second.peerStreamsOpened = first.peerStreamsOpened
  nextBidi : second.nextBidi = first.nextBidi
  nextUni : second.nextUni = first.nextUni

theorem retireStream_cases (id : Nat) :
    table.retireStream id = table ∨ ∃ stream, Retires table (table.retireStream id) id stream := by
  unfold retireStream
  cases found : table.streams[id]? with
  | none => exact .inl rfl
  | some stream =>
    dsimp only
    by_cases ready : table.retirable id stream = true
    · rw [if_pos ready]
      refine .inr ⟨stream, ?_⟩
      by_cases peer : table.isPeerInitiated id = true
      · rw [if_pos peer]
        exact ⟨found, ready, rfl, rfl, rfl, rfl, rfl, rfl, rfl, rfl⟩
      · rw [if_neg peer]
        exact ⟨found, ready, rfl, rfl, rfl, rfl, rfl, rfl, rfl, rfl⟩
    · exact .inl (if_neg ready)

theorem Retires.lookup {first second : Streams}
    (retires : Retires first second id stream) (other : Nat) :
    second.streams[other]? = if id = other then none else first.streams[other]? := by
  rw [retires.streams]
  exact lookup_erase ..

/-- A stream is removed, or nothing happens. -/
theorem retireStream_rule {table : Streams}
    (removed : ∀ second stream, Retires table second id stream → motive second)
    (holds : motive table) : motive (table.retireStream id) := by
  rcases retireStream_cases table id with kept | ⟨stream, retires⟩
  · rw [kept]
    exact holds
  · exact removed _ stream retires

end ParallaX.Quic.Streams
