import ParallaX.Quic.CryptoStream
import ParallaX.Quic.FlowControl

/-!
# The bytes of a stream

However the frames of a stream arrive and whenever it is read, the application
gets the longest prefix that the frames cover, each byte once and in order. The
CRYPTO stream of a space is handed to the TLS engine in the same way.
-/

namespace ParallaX.Quic

open List

/-! ## The receive side of a stream -/

/-- What was `read` of a stream and what its receive side holds are together the
part that was reassembled, and a stream is released only at its end. -/
structure RecvAccount.Reading (stream : List UInt8) (seen : List (Fragment UInt8))
    (read : List UInt8) (account : RecvAccount) : Prop where
  inv : Reassembled stream seen (read ++ account.recv) account.recvPending account.recvOff
  ahead : ∀ fragment ∈ account.recvPending, account.recvOff < fragment.1
  notReset : account.recvReset = none
  final : ∀ size, account.recvFin = some size → size = stream.length
  released : account.recvReleased = true →
    account.recv = [] ∧ account.recvOff = stream.length ∧ account.recvFin = some stream.length

theorem RecvAccount.Reading.fresh (stream : List UInt8) :
    Stream.fresh.toRecvAccount.Reading stream [] [] := by
  refine ⟨⟨?_, ?_, ?_, ?_, ?_⟩, ?_, ?_, ?_, ?_⟩ <;> simp [Stream.fresh]

variable {stream read : List UInt8} {seen : List (Fragment UInt8)} {entry : Stream}
  {frame : Fragment UInt8} {recvFin : Option Nat} {newHigh : Nat}

namespace RecvAccount.Reading

theorem finish_le (slice : frame.Of stream) (some : frame.2 ≠ []) : frame.finish ≤ stream.length := by
  have fits := congrArg length slice
  have long := length_pos_iff.mpr some
  rw [length_take, length_drop] at fits
  unfold Fragment.finish
  omega

variable (reading : entry.toRecvAccount.Reading stream seen read)
include reading

/-- All that was sent was received once a stream is released. -/
theorem late (slice : frame.Of stream) (ended : entry.recvReleased = true) :
    entry.toRecvAccount.Reading stream (seen ++ [frame]) read := by
  refine { reading with inv := reading.inv.skip fun some => .inl ?_ }
  rw [(reading.released ended).2.1]
  exact finish_le slice some

theorem charge (newHigh : Nat) (fin : ∀ size, recvFin = some size → size = stream.length) :
    (entry.charge newHigh recvFin).toRecvAccount.Reading stream seen read := by
  have final size (recorded : recvFin.or entry.recvFin = some size) : size = stream.length := by
    rcases Option.or_eq_some_iff.mp recorded with new | ⟨-, old⟩
    · exact fin size new
    · exact reading.final size old
  refine { reading with final := final, released := fun ended => ?_ }
  obtain ⟨drained, atEnd, known⟩ := reading.released ended
  refine ⟨drained, atEnd, ?_⟩
  cases recvFin with
  | none => exact known
  | some size => exact congrArg some (fin size rfl)

theorem hold (frame : Fragment UInt8) (beyond : entry.recvOff < frame.1)
    (running : entry.recvReleased = false) :
    (entry.hold frame.1 frame.2).toRecvAccount.Reading stream (seen ++ [frame]) read where
  inv := reading.inv.hold frame
  ahead := forall_mem_append.mpr ⟨reading.ahead, forall_mem_singleton.mpr beyond⟩
  notReset := reading.notReset
  final := reading.final
  released ended := absurd (running.symm.trans ended) Bool.false_ne_true

theorem absorb (slices : ∀ fragment ∈ seen ++ [frame], fragment.Of stream)
    (due : frame.1 ≤ entry.recvOff) (running : entry.recvReleased = false) :
    (entry.absorb (drainContiguous entry.recvPending entry.recvOff frame.1 frame.2
      entry.recv)).toRecvAccount.Reading stream (seen ++ [frame]) read where
  inv := reading.inv.drain rfl (fun fragment old => slices fragment (mem_append_left _ old))
    (slices frame (by simp)) due
  ahead := drainContiguous_beyond _ _ _ _ _
  notReset := reading.notReset
  final := reading.final
  released ended := absurd (running.symm.trans ended) Bool.false_ne_true

/-- Reading hands over what waits in order, and releases the stream at its end. -/
theorem take : entry.takeRecv.toRecvAccount.Reading stream seen (read ++ entry.recv) := by
  refine ⟨by simpa [Stream.takeRecv] using reading.inv, reading.ahead, reading.notReset,
    reading.final, fun ended => ⟨rfl, ?_⟩⟩
  simp only [Stream.takeRecv, Bool.or_eq_true, Bool.and_eq_true] at ended
  rcases ended with before | ⟨-, ended⟩
  · exact (reading.released before).2
  · obtain ⟨size, known, reached⟩ := (Option.any_eq_true ..).mp ended
    obtain rfl := reading.final size known
    exact ⟨Nat.le_antisymm reading.inv.within (of_decide_eq_true reached), known⟩

/-- A late frame puts the offset at the end, where it was. -/
theorem releaseLate {delta : Nat} (ended : entry.recvReleased = true)
    (within : newHigh ≤ stream.length) :
    (entry.releaseLate newHigh delta).toRecvAccount.Reading stream seen read := by
  obtain ⟨drained, atEnd, known⟩ := reading.released ended
  have same : (if entry.recvFin.any (· ≤ newHigh) then newHigh else entry.recvOff) =
      entry.recvOff := by
    rw [show entry.recvFin = _ from known, Option.any_some, show entry.recvOff = _ from atEnd]
    split
    next reached => exact Nat.le_antisymm within (of_decide_eq_true reached)
    · rfl
  unfold Stream.releaseLate
  rw [same]
  exact { reading with }

end RecvAccount.Reading

/-! ## The stream in its table -/

namespace Streams

variable {table next : Streams} {id : Nat} {fin : Bool}

/-- The stream is in the table, below the ids that are used, and receives. -/
structure Receives (table : Streams) (id : Nat) (entry : Stream) : Prop where
  found : table.streams[id]? = some entry
  receives : isUni id = true → table.isPeerInitiated id = true
  passed : table.isPeerInitiated id = true → id / 4 < table.peerStreamsOpened (kindOf id)

/-- The stream is in the table or not yet opened, with what was received, or it
is gone after it was read to its end. -/
inductive Serves (id : Nat) (stream : List UInt8) (seen : List (Fragment UInt8))
    (read : List UInt8) (table : Streams) : Prop
  | running (alive : table.streamRetired id = false)
      (receives : isUni id = true → table.isPeerInitiated id = true)
      (reading : (table.recvHalf id).Reading stream seen read)
  | gone (absent : table.streams[id]? = none)
      (passed : table.isPeerInitiated id = true → id / 4 < table.peerStreamsOpened (kindOf id))
      (entry : Stream) (reading : entry.toRecvAccount.Reading stream seen read)
      (ended : entry.recvReleased = true)

namespace Receives

variable (receiving : table.Receives id entry)
include receiving

theorem modify (change : Stream → Stream) :
    (table.modifyStream id change).Receives id (change entry) := by
  refine ⟨?_, receiving.receives, receiving.passed⟩
  rw [lookup_modifyStream, if_pos rfl, receiving.found, Option.map_some]

theorem credit (bytes : Nat) : (table.creditConnectionWindow bytes).Receives id entry := by
  unfold creditConnectionWindow
  split
  · exact receiving
  · exact { receiving with }

theorem serves (reading : entry.toRecvAccount.Reading stream seen read) :
    table.Serves id stream seen read := by
  refine .running ?_ receiving.receives ?_
  · rw [streamRetired, contains_eq_isSome, receiving.found]
    rfl
  · rw [recvHalf, receiving.found]
    exact reading

/-- A stream that receives leaves the table only when it is released. -/
theorem retire (reading : entry.toRecvAccount.Reading stream seen read) :
    (table.retireStream id).Serves id stream seen read := by
  apply retireStream_rule _ (receiving.serves reading)
  intro second removed retires
  obtain rfl := Option.some.inj (receiving.found.symm.trans retires.present)
  refine .gone (by rw [retires.lookup, if_pos rfl]) ?_ entry reading ?_
  · rw [isPeerInitiated_of_side retires.side, retires.opened]
    exact receiving.passed
  · have ready := retires.ready
    unfold retirable at ready
    simp only [Bool.and_eq_true, Bool.or_eq_true] at ready
    obtain ⟨⟨⟨-, ⟨uni, notPeer⟩ | ⟨released, -⟩⟩, -⟩, -⟩ := ready
    · rw [receiving.receives uni] at notPeer
      cases notPeer
    · exact released

end Receives

theorem Serves.readStream (serves : table.Serves id stream seen read) (conserved : table.Conserved) :
    (table.readStream id).1.Serves id stream seen (read ++ (table.readStream id).2) := by
  unfold Streams.readStream
  cases found : table.streams[id]? with
  | none => simpa using serves
  | some entry =>
    cases serves with
    | gone absent =>
      rw [found] at absent
      cases absent
    | running _ receives reading =>
      rw [recvHalf, found] at reading
      have receiving : table.Receives id entry :=
        ⟨found, receives, conserved.frontier id _ (account_of_lookup found)⟩
      exact ((receiving.modify _).credit _).retire reading.take

/-- A frame beyond the next offset waits, unless it is empty or another one that
waits covers it. -/
theorem Receives.buffer (receiving : table.Receives id (entry.charge newHigh recvFin))
    (reading : (entry.charge newHigh recvFin).toRecvAccount.Reading stream seen read)
    (beyond : entry.recvOff < frame.1) (running : entry.recvReleased = false)
    (stored : table.bufferFragment id entry frame.1 frame.2 = (next, .ok ())) :
    next.Serves id stream (seen ++ [frame]) read := by
  have dropped known : table.Serves id stream (seen ++ [frame]) read :=
    receiving.serves { reading with inv := reading.inv.skip known }
  unfold bufferFragment at stored
  split at stored
  next empty =>
    cases stored
    exact dropped fun some => absurd (isEmpty_iff.mp empty) some
  split at stored
  next covers =>
    cases stored
    obtain ⟨other, waits, covered⟩ := any_eq_true.mp covers
    rw [Bool.and_eq_true, decide_eq_true_eq, decide_eq_true_eq] at covered
    exact dropped fun _ => .inr ⟨other, waits, covered⟩
  split at stored
  · cases stored
  · cases stored
    exact Receives.serves { receiving.modify _ with } (reading.hold frame beyond running)

theorem Receives.store (receiving : table.Receives id entry)
    (bal : entry.toRecvAccount.Balanced) (admits : Admits table entry.toRecvHalf frame.finish fin)
    (reading : entry.toRecvAccount.Reading stream seen read)
    (slices : ∀ fragment ∈ seen ++ [frame], fragment.Of stream)
    (ends : fin = true → frame.finish = stream.length) {delta : Nat}
    (stored : table.storeStream id frame.1 fin frame.2 (max frame.finish entry.recvHigh) delta =
      (next, .ok ())) :
    next.Serves id stream (seen ++ [frame]) read := by
  have final : ∀ size, (if fin then some (frame.1 + frame.2.length) else none).or entry.recvFin =
      some size → max frame.finish entry.recvHigh ≤ size :=
    admits.final bal
  have fins size (recorded : (if fin then some (frame.1 + frame.2.length) else none) = some size) :
      size = stream.length := by
    obtain ⟨isFin, ⟨⟩⟩ := Option.ite_none_right_eq_some.mp recorded
    exact ends isFin
  unfold storeStream at stored
  rw [receiving.found] at stored
  dsimp only at stored
  rw [if_neg (by rw [show entry.recvReset = none from reading.notReset]; decide)] at stored
  generalize (if fin = true then some (frame.1 + frame.2.length) else none) = recvFin at *
  generalize max frame.finish entry.recvHigh = newHigh at stored final
  have charged := reading.charge newHigh fins
  have present : (table.chargeStream id newHigh delta recvFin).Receives id
      (entry.charge newHigh recvFin) :=
    { receiving.modify (·.charge newHigh recvFin) with }
  split at stored
  next ended =>
    cases stored
    have within := final stream.length (charged.released ended).2.2
    exact ((present.modify _).credit delta).retire
      ((charged.late (slices frame (by simp)) ended).releaseLate ended within)
  next running =>
    rw [Bool.not_eq_true] at running
    split at stored
    next beyond => exact present.buffer charged beyond running stored
    next due =>
      cases stored
      exact Receives.serves { present.modify _ with }
        (charged.absorb slices (Nat.le_of_not_lt due) running)

/-- A frame that is not refused is taken into account, also when it is late. -/
theorem Serves.recvStream (serves : table.Serves id stream seen read)
    (conserved : table.Conserved) (slices : ∀ fragment ∈ seen ++ [frame], fragment.Of stream)
    (ends : fin = true → frame.finish = stream.length)
    (received : table.recvStream id frame.1 fin frame.2 = (next, .ok ())) :
    next.Serves id stream (seen ++ [frame]) read := by
  rcases recvStream_cases table id frame.1 fin frame.2 with
    ⟨_, refused⟩ | ⟨retired, same⟩ | ⟨ensured, entry, reaches, checked, stored⟩
  · rw [refused] at received
    cases received
  · rw [same] at received
    cases received
    cases serves with
    | running alive =>
      rw [retired] at alive
      cases alive
    | gone absent passed entry reading ended =>
      exact .gone absent passed entry (reading.late (slices frame (by simp)) ended) ended
  · cases serves with
    | gone absent passed =>
      have alive := reaches.alive
      have accepted := reaches.accepted
      have missing : table.streams.contains id = false := by rw [contains_eq_isSome, absent]; rfl
      cases peer : table.isPeerInitiated id with
      | true => simp [streamRetired, missing, peer, passed peer] at alive
      | false => simp [ensureStream, missing, peer] at accepted
    | running _ _ reading =>
      obtain ⟨kept, credit, peer⟩ := conserved.reached reaches
      have found := account_of_lookup reaches.present
      have admits := validateStream_ok checked
      rw [← reaches.same] at admits reading
      rw [stored] at received
      have receiving : ensured.Receives id entry :=
        ⟨reaches.present, by rw [peer]; exact reaches.receives, kept.frontier id _ found⟩
      exact receiving.store (kept.balanced id _ found)
        { admits with limited := by rw [credit]; exact admits.limited } reading slices ends received

/-! ## Runs -/

/-- What happens to a stream: a frame comes, or the application reads. -/
inductive StreamCall where
  | frame (frame : Fragment UInt8) (fin : Bool)
  | read

/-- Receive and read a stream; `none` once a frame is refused. -/
def callAll (id : Nat) : List StreamCall → Streams → List UInt8 → Option (Streams × List UInt8)
  | [], table, read => some (table, read)
  | .frame frame fin :: calls, table, read =>
    match table.recvStream id frame.1 fin frame.2 with
    | (next, .ok ()) => callAll id calls next read
    | (_, .error _) => none
  | .read :: calls, table, read =>
    callAll id calls (table.readStream id).1 (read ++ (table.readStream id).2)

/-- A frame of the stream holds the bytes at its offset, and the FIN stands at the
end. -/
def StreamCall.Of (stream : List UInt8) : StreamCall → Prop
  | .frame frame fin => frame.Of stream ∧ (fin = true → frame.finish = stream.length)
  | .read => True

def StreamCall.fragment? : StreamCall → Option (Fragment UInt8)
  | .frame frame _ => some frame
  | .read => none

theorem Serves.callAll {calls : List StreamCall} {final : List UInt8}
    (serves : table.Serves id stream seen read) (conserved : table.Conserved)
    (slices : ∀ fragment ∈ seen, fragment.Of stream) (of : ∀ call ∈ calls, call.Of stream)
    (done : callAll id calls table read = some (next, final)) :
    next.Serves id stream (seen ++ calls.filterMap StreamCall.fragment?) final := by
  induction calls generalizing table seen read with
  | nil =>
    cases done
    simpa using serves
  | cons call calls ih =>
    obtain ⟨first, later⟩ := forall_mem_cons.mp of
    cases call with
    | read => exact ih (serves.readStream conserved) (conserved.read id) slices later done
    | frame frame fin =>
      rw [Streams.callAll] at done
      split at done
      next received =>
        have kept := conserved.recvStream id frame.1 fin frame.2
        have held := forall_mem_append.mpr ⟨slices, forall_mem_singleton.mpr first.1⟩
        rw [received] at kept
        change next.Serves id stream (seen ++ frame :: calls.filterMap _) final
        rw [append_cons]
        exact ih (serves.recvStream conserved held first.2 received) kept held later done
      · cases done

theorem Serves.longest (serves : table.Serves id stream seen read) :
    LongestPrefix stream seen (read ++ (table.recvHalf id).recv) ∧
      ∀ entry, table.streams[id]? = some entry →
        entry.recvOff = (read ++ (table.recvHalf id).recv).length := by
  cases serves with
  | running _ _ reading =>
    refine ⟨reading.inv.longestPrefix reading.ahead, fun entry found => ?_⟩
    rw [(reading.inv.longest reading.ahead).1, recvHalf, found]
    rfl
  | gone absent _ entry reading ended =>
    have whole := reading.inv.longestPrefix reading.ahead
    rw [(reading.released ended).1] at whole
    rw [recvHalf, absent]
    exact ⟨whole, by simp⟩

end Streams

namespace Connection

/-- Streams and CRYPTO spaces are reassembled exactly. Whatever fragments of a
stream come, in any order, repeated and overlapping, and whenever the application
reads: what it has read, with what waits for it, is the longest prefix that the
fragments cover, and the next expected offset is its length. The same holds of
the bytes that the TLS engine reads of a space. -/
theorem reassembly_exact {T C : Type} [TlsSession T] (stream : List UInt8) :
    (∀ (table next : Streams) (id : Nat) (calls : List Streams.StreamCall) (read : List UInt8),
      table.Conserved → (isUni id = true → table.isPeerInitiated id = true) →
      table.streamRetired id = false →
      (table.recvHalf id).toRecvAccount = Stream.fresh.toRecvAccount →
      (∀ call ∈ calls, call.Of stream) → Streams.callAll id calls table [] = some (next, read) →
      LongestPrefix stream (calls.filterMap (·.fragment?)) (read ++ (next.recvHalf id).recv) ∧
        ∀ entry, next.streams[id]? = some entry →
          entry.recvOff = (read ++ (next.recvHalf id).recv).length) ∧
    ∀ (conn next : Connection T C) (space : SpaceId) (frames : List (Fragment UInt8)),
      (conn.spaces space).cryptoPending = [] → (conn.spaces space).cryptoRecvOff = 0 →
      (∀ fragment ∈ frames, fragment.Of stream) → conn.recvCryptoAll space frames = some next →
      ∃ chunks : List (List UInt8),
        next.tls = chunks.foldl (fun tls bytes => (TlsSession.readHandshake tls bytes).1)
          conn.tls ∧
        LongestPrefix stream frames chunks.flatten ∧
        (next.spaces space).cryptoRecvOff = chunks.flatten.length := by
  constructor
  · intro table next id calls read conserved receives alive fresh of done
    have start : table.Serves id stream [] [] := .running alive receives (fresh ▸ .fresh stream)
    exact (start.callAll conserved nofun of done).longest
  · intro conn next space frames empty first slices accepted
    exact ((Fed.start empty first).recvCryptoAll slices accepted).longest

/-- The end of a stream comes first and twice, and one frame when it is gone. -/
def overlappingCalls : List Streams.StreamCall :=
  [.frame (2, [3, 4]) true, .frame (3, [4]) false, .read, .frame (0, [1, 2, 3]) false, .read,
    .frame (1, [2]) false]

theorem reassembly_exact_overlapping :
    (∃ next, Streams.callAll 2 overlappingCalls (.new .server 1 3 fun _ => 8) [] =
        some (next, [1, 2, 3, 4]) ∧ next.streamRetired 2 = true ∧
      LongestPrefix [1, 2, 3, 4] (overlappingCalls.filterMap (·.fragment?))
        ([1, 2, 3, 4] ++ (next.recvHalf 2).recv)) ∧
    ∃ (next : Connection (Tls.ServerSession Tls.ExampleServer) FixedWindow) (bytes : List UInt8),
      (waitingExample 0).recvCryptoAll .initial [(2, [0, 0]), (0, [1, 0, 0])] = some next ∧
      LongestPrefix [1, 0, 0, 0] [(2, [0, 0]), (0, [1, 0, 0])] bytes ∧
      (next.spaces .initial).cryptoRecvOff = bytes.length := by
  have calls : (Streams.callAll 2 overlappingCalls (.new .server 1 3 fun _ => 8) []).map
      (fun done => (done.1.streamRetired 2, done.2)) = some (true, [1, 2, 3, 4]) := by
    decide +kernel
  have accepts : ((waitingExample 0).recvCryptoAll .initial
      [(2, [0, 0]), (0, [1, 0, 0])]).isSome = true := by
    decide +kernel
  obtain ⟨⟨next, read⟩, done, same⟩ := Option.map_eq_some_iff.mp calls
  obtain ⟨retired, rfl⟩ := Prod.mk.inj same
  obtain ⟨conn, accepted⟩ := Option.isSome_iff_exists.mp accepts
  constructor
  · have exactly := (reassembly_exact (T := Tls.ServerSession Tls.ExampleServer) (C := FixedWindow)
      [1, 2, 3, 4]).1 _ next 2 overlappingCalls _ (.new ..) (by decide) (by decide) (by rfl)
      (by simp [overlappingCalls, Streams.StreamCall.Of, Fragment.Of, Fragment.finish]) done
    exact ⟨next, done, retired, exactly.1⟩
  · obtain ⟨chunks, -, longest⟩ := (reassembly_exact [1, 0, 0, 0]).2 _ conn .initial _ rfl rfl
      (by simp [Fragment.Of]) accepted
    exact ⟨conn, chunks.flatten, accepted, longest⟩

end Connection

end ParallaX.Quic
