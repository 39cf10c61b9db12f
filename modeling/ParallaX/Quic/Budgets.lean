import ParallaX.Quic.Refinement

/-!
# Budgets of out-of-order data

How much a connection buffers ahead of what it can deliver: the counter of all
waiting bytes is their sum in every run, and neither a stream, nor a CRYPTO
space, nor the connection passes its budget.
-/

namespace ParallaX.Quic

open ParallaX.Data List Bool

/-! ## One stream -/

/-- What waits in a stream is within its budgets and not yet due. -/
structure Stream.Waits (stream : Stream) : Prop where
  bytes : bufferedBytes stream.recvPending ≤ MAX_STREAM_REASSEMBLY
  few : stream.recvPending.length ≤ MAX_STREAM_PENDING_FRAGMENTS
  beyond : ∀ fragment ∈ stream.recvPending, stream.recvOff < fragment.finish
  released : stream.recvReleased = true → stream.recvPending = []

namespace Stream.Waits

variable {stream : Stream}

theorem of_empty (empty : stream.recvPending = []) : stream.Waits := by
  refine ⟨?_, ?_, ?_, fun _ => empty⟩ <;> rw [empty]
  · exact Nat.zero_le _
  · exact Nat.zero_le _
  · exact nofun

theorem of_same (waits : stream.Waits) {next : Stream} (recvOff : next.recvOff = stream.recvOff)
    (pending : next.recvPending = stream.recvPending)
    (released : next.recvReleased = stream.recvReleased) : next.Waits := by
  refine ⟨?_, ?_, ?_, ?_⟩
  · rw [pending]
    exact waits.bytes
  · rw [pending]
    exact waits.few
  · rw [pending, recvOff]
    exact waits.beyond
  · rw [pending, released]
    exact waits.released

theorem hold (waits : stream.Waits) {offset : Nat} {data : List UInt8}
    (kept : stream.recvReleased = false) (ahead : stream.recvOff < offset)
    (room : bufferedBytes stream.recvPending + data.length ≤ MAX_STREAM_REASSEMBLY)
    (few : stream.recvPending.length < MAX_STREAM_PENDING_FRAGMENTS) :
    (stream.hold offset data).Waits := by
  refine ⟨?_, ?_, ?_, ?_⟩
  · change bufferedBytes (stream.recvPending ++ [(offset, data)]) ≤ _
    rw [bufferedBytes_append]
    exact room
  · change (stream.recvPending ++ [(offset, data)]).length ≤ _
    rw [length_append]
    exact few
  · exact forall_mem_append.mpr ⟨waits.beyond,
      forall_mem_singleton.mpr (Nat.lt_of_lt_of_le ahead (Nat.le_add_right _ _))⟩
  · intro released
    exact absurd (kept.symm.trans released) false_ne_true

theorem absorb (waits : stream.Waits) (kept : stream.recvReleased = false)
    (offset : Nat) (data : List UInt8) :
    (stream.absorb (drainContiguous stream.recvPending stream.recvOff offset
      data stream.recv)).Waits := by
  have freed := drainContiguous_freed stream.recvPending stream.recvOff offset data stream.recv
  have shorter := (drainContiguous_sublist stream.recvPending stream.recvOff
    offset data stream.recv).length_le
  refine ⟨?_, Nat.le_trans shorter waits.few, ?_, ?_⟩
  · have before := waits.bytes
    change bufferedBytes (drainContiguous ..).pending ≤ _
    omega
  · intro fragment member
    exact Nat.lt_of_lt_of_le (drainContiguous_beyond _ _ _ _ _ fragment member)
      (Nat.le_add_right _ _)
  · intro released
    exact absurd (kept.symm.trans released) false_ne_true

theorem read (waits : stream.Waits)
    (within : ∀ size, stream.recvFin = some size →
      ∀ fragment ∈ stream.recvPending, fragment.finish ≤ size) : stream.takeRecv.Waits := by
  refine ⟨waits.bytes, waits.few, waits.beyond, ?_⟩
  intro released
  rcases or_eq_true_iff.mp released with already | complete
  · exact waits.released already
  have reached := (and_eq_true_iff.mp complete).2
  cases final : stream.recvFin with
  | none =>
    rw [final] at reached
    cases reached
  | some size =>
    rw [final] at reached
    have passed := of_decide_eq_true reached
    apply eq_nil_iff_forall_not_mem.mpr
    intro fragment member
    have ends := within size final fragment member
    have later := waits.beyond fragment member
    omega

end Stream.Waits

namespace Streams

/-! ## The table -/

def waiting (table : Streams) : Nat :=
  total (fun _ stream => bufferedBytes stream.recvPending) table.streams

/-- The counter of waiting bytes is their sum, and every budget is kept. -/
structure Budgeted (table : Streams) : Prop where
  sum : table.recvPendingTotal = table.waiting
  shared : table.recvPendingTotal ≤ MAX_CONN_REASSEMBLY
  waits : ∀ (id : Nat) (stream : Stream), table.streams[id]? = some stream → stream.Waits
  sendOnly : ∀ (id : Nat) (stream : Stream), table.streams[id]? = some stream → isUni id = true →
      table.isPeerInitiated id = false → stream.recvPending = []
  frontier : ∀ (id : Nat) (stream : Stream),
    table.streams[id]? = some stream → table.isPeerInitiated id = true →
      id / 4 < table.peerStreamsOpened (kindOf id)

namespace Budgeted

variable {table : Streams} {id : Nat} {stream : Stream} {change : Stream → Stream}

theorem replace (inv : table.Budgeted) {pendingTotal : Nat}
    (present : table.streams[id]? = some stream) (waits : (change stream).Waits)
    (sendOnly : isUni id = true → table.isPeerInitiated id = false →
      (change stream).recvPending = [])
    (sum : bufferedBytes stream.recvPending + pendingTotal =
      bufferedBytes (change stream).recvPending + table.recvPendingTotal)
    (shared : pendingTotal ≤ MAX_CONN_REASSEMBLY) :
    Budgeted
      { table.modifyStream id change with recvPendingTotal := pendingTotal } := by
  have either {other : Nat} {found : Stream} :
      (table.streams.modify id change)[other]? = some found →
      (id = other ∧ found = change stream) ∨ table.streams[other]? = some found := by
    intro lookup
    obtain ⟨old, before, after⟩ := lookup_modify_eq_some lookup
    by_cases same : id = other
    · subst same
      rw [present] at before
      cases before
      rw [if_pos rfl] at after
      exact .inl ⟨rfl, after⟩
    · rw [if_neg same] at after
      rw [after]
      exact .inr before
  refine ⟨?_, shared, ?_, ?_, ?_⟩
  · have exchanged := total_modify
      (fun _ (stream : Stream) => bufferedBytes stream.recvPending) change
      present
    have before : table.recvPendingTotal =
        total (fun _ (stream : Stream) => bufferedBytes stream.recvPending) table.streams :=
      inv.sum
    change pendingTotal = total _ (table.streams.modify id change)
    omega
  · intro other found lookup
    rcases either lookup with ⟨-, rfl⟩ | old
    · exact waits
    · exact inv.waits other found old
  · intro other found lookup
    rcases either lookup with ⟨rfl, rfl⟩ | old
    · exact sendOnly
    · exact inv.sendOnly other found old
  · intro other found lookup
    rcases either lookup with ⟨rfl, rfl⟩ | old
    · exact inv.frontier id stream present
    · exact inv.frontier other found old

variable {next : Streams}

variable (inv : table.Budgeted)
include inv

theorem of_same (side : next.side = table.side)
    (opened : next.peerStreamsOpened = table.peerStreamsOpened)
    (counter : next.recvPendingTotal = table.recvPendingTotal) (sum : next.waiting = table.waiting)
    (streams : ∀ (id : Nat) (stream : Stream),
      next.streams[id]? = some stream →
        ∃ old : Stream, table.streams[id]? = some old ∧ stream.recvPending = old.recvPending ∧
          (old.Waits → stream.Waits)) : next.Budgeted := by
  refine ⟨?_, ?_, ?_, ?_, ?_⟩
  · rw [counter, sum]
    exact inv.sum
  · rw [counter]
    exact inv.shared
  · intro id stream found
    obtain ⟨old, before, -, waits⟩ := streams id stream found
    exact waits (inv.waits id old before)
  · intro id stream found
    obtain ⟨old, before, pending, -⟩ := streams id stream found
    rw [isPeerInitiated_of_side side, pending]
    exact inv.sendOnly id old before
  · intro id stream found
    obtain ⟨old, before, -, -⟩ := streams id stream found
    rw [isPeerInitiated_of_side side, opened]
    exact inv.frontier id old before

theorem modify (pending : ∀ stream, table.streams[id]? = some stream →
      (change stream).recvPending = stream.recvPending)
    (waits : ∀ stream, table.streams[id]? = some stream → stream.Waits → (change stream).Waits) :
    (table.modifyStream id change).Budgeted := by
  refine inv.of_same rfl rfl rfl ?_ ?_
  · apply total_modify_same
    intro stream present
    rw [pending stream present]
  · intro other _ found
    obtain ⟨old, before, after⟩ := lookup_modify_eq_some found
    refine ⟨old, before, ?_⟩
    by_cases same : id = other
    · subst same
      rw [if_pos rfl] at after
      rw [after]
      exact ⟨pending old before, waits old before⟩
    · rw [if_neg same] at after
      rw [after]
      exact ⟨rfl, fun waits => waits⟩

theorem map {change : Nat → Stream → Stream} (kept : ∀ id, Gentle (change id)) :
    Budgeted { table with streams := table.streams.map change } := by
  refine inv.of_same rfl rfl rfl ?_ ?_
  · refine (total_map ..).trans ?_
    congr 1
    funext id stream
    rw [(kept id).pending]
  · intro id _ found
    rw [Std.TreeMap.getElem?_map] at found
    obtain ⟨old, before, rfl⟩ := Option.map_eq_some_iff.mp found
    exact ⟨old, before, (kept id).pending old, fun waits =>
      waits.of_same ((kept id).recvOff old) ((kept id).pending old) ((kept id).released old)⟩

theorem insert (absent : table.streams[id]? = none)
    (streams : next.streams = table.streams.insert id stream)
    (empty : stream.recvPending = []) (side : next.side = table.side)
    (counter : next.recvPendingTotal = table.recvPendingTotal)
    (opened : ∀ kind, table.peerStreamsOpened kind ≤ next.peerStreamsOpened kind)
    (frontier : table.isPeerInitiated id = true → id / 4 < next.peerStreamsOpened (kindOf id)) :
    next.Budgeted := by
  have either {other : Nat} {found : Stream} : next.streams[other]? = some found →
      (id = other ∧ found = stream) ∨ table.streams[other]? = some found := by
    intro lookup
    rw [streams, lookup_insert] at lookup
    by_cases same : id = other
    · rw [if_pos same] at lookup
      exact .inl ⟨same, (Option.some.inj lookup).symm⟩
    · rw [if_neg same] at lookup
      exact .inr lookup
  refine ⟨?_, ?_, ?_, ?_, ?_⟩
  · rw [counter, waiting, streams, total_insert _ stream absent, empty, inv.sum]
    exact (Nat.zero_add _).symm
  · rw [counter]
    exact inv.shared
  · intro other found lookup
    rcases either lookup with ⟨-, rfl⟩ | old
    · exact .of_empty empty
    · exact inv.waits other found old
  · intro other found lookup
    rw [isPeerInitiated_of_side side]
    rcases either lookup with ⟨-, rfl⟩ | old
    · intro _ _
      exact empty
    · exact inv.sendOnly other found old
  · intro other found lookup
    rw [isPeerInitiated_of_side side]
    rcases either lookup with ⟨rfl, -⟩ | old
    · exact frontier
    · intro peer
      exact Nat.lt_of_lt_of_le (inv.frontier other found old peer) (opened _)

theorem openNext (peer : table.isPeerInitiated id = true)
    (ordinal : table.peerStreamsOpened (kindOf id) = id / 4) : (table.openNext id).Budgeted := by
  have absent : table.streams[id]? = none := by
    cases found : table.streams[id]? with
    | none => rfl
    | some stream =>
      have below := inv.frontier id stream found peer
      omega
  have opened : (table.openNext id).streams =
        table.streams.insert id
          { Stream.fresh with sendMax := table.peerSendLimit id } ∧
      (table.openNext id).recvPendingTotal = table.recvPendingTotal := by
    rw [Streams.openNext, openPeerStream_eq]
    exact ⟨rfl, rfl⟩
  apply inv.insert absent opened.1 rfl (side_openPeerStream table id) opened.2
  · exact (peerStreamsOpened_openNext ordinal).1
  · exact fun _ => (peerStreamsOpened_openNext ordinal).2

theorem retire (id : Nat) : (table.retireStream id).Budgeted := by
  have counter : (table.retireStream id).recvPendingTotal = table.recvPendingTotal := by
    unfold retireStream
    repeat' split
    all_goals rfl
  apply retireStream_rule (motive := fun next =>
    next.recvPendingTotal = table.recvPendingTotal → next.Budgeted) _
    (fun _ => inv) counter
  intro next stream retires counter
  have empty : stream.recvPending = [] := by
    have ready := retires.ready
    simp only [retirable, and_eq_true, or_eq_true, not_eq_true'] at ready
    rcases ready.1.1.2 with sendOnly | received
    · exact inv.sendOnly id stream retires.present sendOnly.1 sendOnly.2
    · exact (inv.waits id stream retires.present).released received.1
  have old {other : Nat} {found : Stream} :
      next.streams[other]? = some found → table.streams[other]? = some found := by
    intro lookup
    rw [retires.lookup] at lookup
    by_cases same : id = other
    · rw [if_pos same] at lookup
      cases lookup
    · rw [if_neg same] at lookup
      exact lookup
  refine inv.of_same retires.side retires.opened counter ?_ ?_
  · have erased := total_erase (fun _ (stream : Stream) => bufferedBytes stream.recvPending)
      retires.present
    rw [empty] at erased
    rw [waiting, retires.streams]
    exact (Nat.zero_add _).symm.trans erased
  · intro _ found lookup
    exact ⟨found, old lookup, rfl, fun waits => waits⟩

theorem pending_le (found : table.streams[id]? = some stream) :
    bufferedBytes stream.recvPending ≤ table.recvPendingTotal := by
  rw [inv.sum]
  exact le_total (fun _ (stream : Stream) => bufferedBytes stream.recvPending) found

end Budgeted

/-! ## Every edit keeps the budgets -/

theorem budgeted_absorb {table : Streams} (inv : table.Budgeted) {id : Nat} {stream : Stream}
    (found : table.streams[id]? = some stream)
    (kept : stream.recvReleased = false) (offset : Nat) (data : List UInt8) :
    (table.absorbFragment id stream offset data).Budgeted := by
  have freed := drainContiguous_freed stream.recvPending stream.recvOff offset data stream.recv
  have counted := inv.pending_le found
  have shared := inv.shared
  apply inv.replace found
  · exact (inv.waits id stream found).absorb kept offset data
  · intro uni own
    have empty := inv.sendOnly id stream found uni own
    have shorter := drainContiguous_sublist stream.recvPending stream.recvOff
      offset data stream.recv
    rw [empty] at shorter
    rw [empty]
    exact sublist_nil.mp shorter
  · change _ + _ = bufferedBytes (drainContiguous ..).pending + _
    omega
  · omega

theorem Edit.budgeted {first second : Streams} (edit : Edit first second)
    (inv : first.Budgeted) : second.Budgeted := by
  have advanced {table : Streams} id : table.Budgeted → (table.advanceNext id).Budgeted := by
    intro inv
    have same : ∃ nextBidi nextUni, table.advanceNext id =
        { table with nextBidi := nextBidi, nextUni := nextUni } := by
      unfold advanceNext
      repeat' split
      all_goals exact ⟨_, _, rfl⟩
    obtain ⟨_, _, same⟩ := same
    rw [same]
    exact { inv with }
  cases edit with
  | gentle _ kept =>
    exact inv.modify (fun stream _ => kept.pending stream)
      fun stream _ waits => waits.of_same (kept.recvOff stream)
        (kept.pending stream) (kept.released stream)
  | everywhere kept => exact inv.map kept
  | @hold id stream offset data present receives kept ahead room few shared =>
    apply inv.replace present
    · exact (inv.waits id stream present).hold kept ahead room few
    · intro uni own
      rw [receives uni] at own
      cases own
    · change _ + _ = bufferedBytes (stream.recvPending ++ [(offset, data)]) + _
      rw [bufferedBytes_append]
      have single : bufferedBytes [(offset, data)] = data.length := Nat.add_zero _
      omega
    · exact shared
  | absorb present kept => exact budgeted_absorb inv present kept _ _
  | read within =>
    exact inv.modify (fun _ _ => rfl) fun stream present waits =>
      waits.read fun size final => within stream size present final
  | @late id stream present released =>
    have empty := (inv.waits id stream present).released released
    refine inv.modify (fun _ _ => rfl) fun found lookup _ => ?_
    obtain rfl : stream = found := Option.some.inj (present.symm.trans lookup)
    exact .of_empty empty
  | drop present cleared =>
    have counted := inv.pending_le present
    have shared := inv.shared
    apply inv.replace present (.of_empty (cleared _))
    · intro _ _
      exact cleared _
    · rw [cleared]
      change _ + _ = 0 + _
      omega
    · omega
  | retire id => exact inv.retire id
  | openPeer peer =>
    exact openBlock_rule (fun _ _ inv peer ordinal =>
      inv.openNext peer ordinal) peer inv _
  | create own _ absent =>
    have inserted : Budgeted
        { first with streams := first.streams.insert _ .fresh } :=
      inv.insert (lookup_eq_none absent) rfl rfl rfl rfl (fun _ => le_rfl)
        fun peer => absurd (own.symm.trans peer) false_ne_true
    apply advanced
    exact inserted.modify (fun _ _ => rfl) fun _ _ waits =>
      waits.of_same rfl rfl rfl
  | advance => exact advanced _ inv
  | learn params unapplied =>
    obtain ⟨_, kept, shape⟩ := ensurePeerFlow_shape params unapplied
    have raised := inv.map kept
    rw [shape]
    exact { raised with }
  | _ => exact { inv with }

theorem budgeted_freshTable (side : Side) (maxSent : Dir → Nat)
    (ticket : Option TransportParameters) : (Core.freshTable side maxSent ticket).Budgeted := by
  have start nextBidi nextUni : (Streams.new side nextBidi nextUni maxSent).Budgeted := by
    refine ⟨rfl, Nat.zero_le _, ?_, ?_, ?_⟩ <;>
      · intro id _ found
        cases found
  cases ticket with
  | none => exact start _ _
  | some =>
    have inv := start (firstBidi side) (firstUni side)
    exact { inv with }

end Streams

/-! ## CRYPTO -/

/-- The reassembly of CRYPTO bytes in a space. -/
structure CryptoReading where
  recvOff : Nat
  pending : List (Fragment UInt8)

def SpaceCore.reading (space : SpaceCore) : CryptoReading :=
  { recvOff := space.cryptoRecvOff, pending := space.cryptoPending }

namespace CryptoReading

def empty : CryptoReading := { recvOff := 0, pending := [] }

def hold (reading : CryptoReading) (offset : Nat) (data : List UInt8) : CryptoReading :=
  { reading with pending := reading.pending ++ [(offset, data)] }

def drain (reading : CryptoReading) (offset : Nat) (data : List UInt8) : CryptoReading :=
  let drain := drainContiguous reading.pending reading.recvOff offset data []
  { recvOff := drain.recvOff, pending := drain.pending }

/-- What waits in a CRYPTO space is within its budgets. -/
structure Bounded (reading : CryptoReading) : Prop where
  bytes : bufferedBytes reading.pending ≤ MAX_CRYPTO_REASSEMBLY
  few : reading.pending.length ≤ MAX_CRYPTO_PENDING_FRAGMENTS

theorem bounded_empty : empty.Bounded := ⟨Nat.zero_le _, Nat.zero_le _⟩

variable {reading : CryptoReading}

theorem Bounded.hold {offset : Nat} {data : List UInt8}
    (room : bufferedBytes reading.pending + data.length ≤ MAX_CRYPTO_REASSEMBLY)
    (few : reading.pending.length < MAX_CRYPTO_PENDING_FRAGMENTS) :
    (reading.hold offset data).Bounded := by
  constructor
  · change bufferedBytes (reading.pending ++ [(offset, data)]) ≤ _
    rw [bufferedBytes_append]
    exact room
  · change (reading.pending ++ [(offset, data)]).length ≤ _
    rw [length_append]
    exact few

theorem Bounded.drain (bounded : reading.Bounded) (offset : Nat)
    (data : List UInt8) : (reading.drain offset data).Bounded := by
  have freed := drainContiguous_freed reading.pending reading.recvOff offset data []
  have shorter := (drainContiguous_sublist reading.pending reading.recvOff offset data []).length_le
  have bytes := bounded.bytes
  constructor
  · change bufferedBytes (drainContiguous ..).pending ≤ _
    omega
  · exact Nat.le_trans shorter bounded.few

end CryptoReading

namespace Core

variable {T : Type}

def readings (core : Core T) (space : SpaceId) : CryptoReading := (core.spaces space).reading

variable {first second : Core T} [TlsSession T]

theorem Rework.reading_bounded {space : SpaceId} {keep next : SpaceKeep}
    (rework : Rework space keep next)
    (bounded : CryptoReading.Bounded ⟨keep.cryptoRecvOff, keep.cryptoPending⟩) :
    CryptoReading.Bounded ⟨next.cryptoRecvOff, next.cryptoPending⟩ := by
  cases rework with
  | keyed added =>
    rw [added.rest]
    exact bounded
  | held offset data room few =>
    exact @.hold ⟨keep.cryptoRecvOff, keep.cryptoPending⟩ offset data room few
  | drained offset data => exact bounded.drain offset data
  | discarded => exact CryptoReading.bounded_empty
  | _ => exact bounded

theorem Fresh.readings {maxSent : Dir → Nat} {core : Core T}
    (fresh : Fresh maxSent core) : core.readings = fun _ => .empty := by
  cases fresh with
  | client => exact funext fun other => spaces_mapSpace_kept SpaceCore.reading rfl other
  | server => rfl

end Core

namespace Connection

variable {T C : Type} [TlsSession T] [Controller C]

open Quic.Core

/-- In every run, frame by frame: the counter of waiting bytes is what waits
in all streams, no stream, no CRYPTO space and not the connection passes its
budget, and what a fragment, a reset or an abandoned stream frees was
counted. -/
theorem frameRuns_budgets {recvMaxStreamsSent : Dir → Nat} {start conn : Connection T C}
    (starts : Starts recvMaxStreamsSent start) (runs : FrameRuns start conn) :
    conn.recvPendingTotal =
        total (fun _ (stream : Stream) => bufferedBytes stream.recvPending) conn.streams ∧
      conn.recvPendingTotal ≤ MAX_CONN_REASSEMBLY ∧
      (∀ (id : Nat) (stream : Stream), conn.streams[id]? = some stream →
        bufferedBytes stream.recvPending ≤ MAX_STREAM_REASSEMBLY ∧
          stream.recvPending.length ≤ MAX_STREAM_PENDING_FRAGMENTS) ∧
      (∀ space, bufferedBytes (conn.spaces space).cryptoPending ≤ MAX_CRYPTO_REASSEMBLY ∧
          (conn.spaces space).cryptoPending.length ≤ MAX_CRYPTO_PENDING_FRAGMENTS) ∧
      ∀ id offset data sink,
        (drainContiguous (conn.recvHalf id).recvPending
            (conn.recvHalf id).recvOff offset data sink).freed ≤ conn.recvPendingTotal ∧
          bufferedBytes (conn.recvHalf id).recvPending ≤ conn.recvPendingTotal := by
  have budgeted := FrameRuns.table_rule (motive := Streams.Budgeted)
      (fun side ticket => Streams.budgeted_freshTable side _ ticket)
      (fun _ _ edit => edit.budgeted) starts runs
  have crypto : ∀ space, (conn.core.readings space).Bounded := by
    apply FrameRuns.core_rule (motive := fun core => ∀ space, (core.readings space).Bounded) _
      (fun _ _ act bounded space => (act.reworks.2 space).reading_bounded (bounded space))
      starts runs
    intro _ fresh space
    rw [fresh.readings]
    exact CryptoReading.bounded_empty
  refine ⟨budgeted.sum, budgeted.shared, ?_, ?_, ?_⟩
  · intro id stream present
    have waits := budgeted.waits id stream present
    exact ⟨waits.bytes, waits.few⟩
  · intro space
    exact ⟨(crypto space).bytes, (crypto space).few⟩
  · intro id offset data sink
    have counted : bufferedBytes (conn.recvHalf id).recvPending ≤ conn.recvPendingTotal := by
      unfold Streams.recvHalf
      cases present : conn.streams[id]? with
      | none => exact Nat.zero_le _
      | some => exact budgeted.pending_le present
    have freed := drainContiguous_freed (conn.recvHalf id).recvPending
      (conn.recvHalf id).recvOff offset data sink
    exact ⟨by omega, counted⟩

/-- A fragment that came too early is counted. -/
theorem frameRuns_budgets_early :
    ∃ conn : Connection ScriptedTls FixedWindow,
      FrameRuns servingExample conn ∧ conn.recvPendingTotal = 1 ∧
        conn.recvPendingTotal =
          total (fun _ (stream : Stream) => bufferedBytes stream.recvPending)
            conn.streams := by
  have runs : FrameRuns servingExample _ :=
    Relation.ReflTransGen.single
      (@.frame _ _ _ _ _ .zeroRtt 0x0c (.stream 0 2 false [3]) nofun
        rfl ⟨by decide, by decide⟩ none 0)
  exact ⟨_, runs, by decide, (frameRuns_budgets (.server ..) runs).1⟩

end Connection

end ParallaX.Quic
