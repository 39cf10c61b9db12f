import ParallaX.Quic.FlowControl

/-!
# Edits of the stream table

The single edits that the operations of the stream table are made of, each
with what the code has checked before it, so that an invariant of the table is
one case for each edit.
-/

namespace ParallaX.Quic

namespace Streams

/-! ## Edits -/

/-- A change of a stream that leaves what it received alone and takes no
credit of the peer back. -/
structure Gentle (change : Stream → Stream) : Prop where
  recv : ∀ stream, (change stream).recv = stream.recv
  recvOff : ∀ stream, (change stream).recvOff = stream.recvOff
  pending : ∀ stream, (change stream).recvPending = stream.recvPending
  released : ∀ stream, (change stream).recvReleased = stream.recvReleased
  limit : ∀ stream, stream.sendMax ≤ (change stream).sendMax

variable {change : Stream → Stream} (table : Streams) (id : Nat)
  (content : SentContent) (params : Option TransportParameters) (chunk : Chunk)

theorem Gentle.of_same (recv : ∀ stream, (change stream).recv = stream.recv)
    (recvOff : ∀ stream, (change stream).recvOff = stream.recvOff)
    (pending : ∀ stream, (change stream).recvPending = stream.recvPending)
    (released : ∀ stream, (change stream).recvReleased = stream.recvReleased)
    (limit : ∀ stream, (change stream).sendMax = stream.sendMax) : Gentle change :=
  ⟨recv, recvOff, pending, released, fun stream => le_of_eq (limit stream).symm⟩

/-- Open a stream of this endpoint within the limit that the peer grants. -/
def openOwn (table : Streams) (id : Nat) : Streams :=
  (modifyStream { table with streams := table.streams.insert id .fresh } id
    fun stream =>
      { stream with sendMax := max stream.sendMax (table.peerSendLimit id) }).advanceNext id

/-- All that may happen to the table at once. -/
inductive Edit : Streams → Streams → Prop
  | gentle (table : Streams) (id : Nat) {change : Stream → Stream}
      (kept : Gentle change) : Edit table (table.modifyStream id change)
  | everywhere (table : Streams) {change : Nat → Stream → Stream}
      (kept : ∀ id, Gentle (change id)) :
      Edit table { table with streams := table.streams.map change }
  | quiet (table : Streams) (ackedRanges : List (Nat × StreamRange))
      (credit : ConnCredit) (sendDataTotal recvMaxDataSent : Nat)
      (needMaxData : Bool) (needMaxStreams : Dir → Bool) :
      Edit table
        { table with
          ackedRanges := ackedRanges
          toConnCredit := credit
          sendDataTotal := sendDataTotal
          recvMaxDataSent := recvMaxDataSent
          needMaxData := needMaxData
          needMaxStreams := needMaxStreams }
  -- received data
  | hold {table : Streams} {id : Nat} {stream : Stream} {offset : Nat}
      {data : List UInt8} (present : table.streams[id]? = some stream)
      (receives : isUni id = true → table.isPeerInitiated id = true)
      (kept : stream.recvReleased = false) (ahead : stream.recvOff < offset)
      (room : bufferedBytes stream.recvPending + data.length ≤ MAX_STREAM_REASSEMBLY)
      (few : stream.recvPending.length < MAX_STREAM_PENDING_FRAGMENTS)
      (shared : table.recvPendingTotal + data.length ≤ MAX_CONN_REASSEMBLY) :
      Edit table
        { table.modifyStream id (·.hold offset data) with
          recvPendingTotal := table.recvPendingTotal + data.length }
  | absorb {table : Streams} {id : Nat} {stream : Stream} {offset : Nat}
      {data : List UInt8} (present : table.streams[id]? = some stream)
      (kept : stream.recvReleased = false)
      (due : offset ≤ stream.recvOff) :
      Edit table (table.absorbFragment id stream offset data)
  | read {table : Streams} {id : Nat}
      (within : ∀ stream size, table.streams[id]? = some stream →
        stream.recvFin = some size →
        ∀ fragment ∈ stream.recvPending, fragment.finish ≤ size) :
      Edit table (table.modifyStream id Stream.takeRecv)
  | late {table : Streams} {id : Nat} {stream : Stream} (present : table.streams[id]? = some stream)
      (released : stream.recvReleased = true) (newHigh delta : Nat) :
      Edit table (table.modifyStream id (·.releaseLate newHigh delta))
  | drop {table : Streams} {id : Nat} {stream : Stream}
      {change : Stream → Stream} (present : table.streams[id]? = some stream)
      (cleared : ∀ stream, (change stream).recvPending = [])
      (limit : ∀ stream, stream.sendMax ≤ (change stream).sendMax) :
      Edit table
        { table.modifyStream id change with
          recvPendingTotal :=
            table.recvPendingTotal - bufferedBytes stream.recvPending }
  -- the set of streams
  | retire (table : Streams) (id : Nat) : Edit table (table.retireStream id)
  | openPeer {table : Streams} {id count : Nat} (peer : table.isPeerInitiated id = true)
      (advertised : table.peerStreamsOpened (kindOf id) + count ≤
        table.recvMaxStreamsSent (kindOf id))
      (room : count ≤ MAX_PEER_STREAMS - table.livePeerStreams (kindOf id)) :
      Edit table (table.openBlock id count)
  | create {table : Streams} {id : Nat} (own : table.isPeerInitiated id = false)
      (alive : table.streamRetired id = false)
      (absent : table.streams.contains id = false) :
      Edit table (table.openOwn id)
  | advance {table : Streams} {id : Nat} (present : table.streams.contains id = true) :
      Edit table (table.advanceNext id)
  | popBidi {table : Streams} {id : Nat} {queue : List Nat}
      (head : table.acceptBidi = id :: queue) :
      Edit table { table.noteTaken .bidi id with acceptBidi := queue }
  | popUni {table : Streams} {id : Nat} {queue : List Nat} (head : table.acceptUni = id :: queue) :
      Edit table { table.noteTaken .uni id with acceptUni := queue }
  -- limits
  | learn {table : Streams} (params : TransportParameters)
      (unapplied : table.peerFlowApplied = false) :
      Edit table (table.ensurePeerFlow (some params))
  | raiseMaxData (table : Streams) (limit : Nat) :
      Edit table (table.raiseMaxData limit)
  | raiseMaxStreams (table : Streams) (dir : Dir) (limit : Nat) :
      Edit table (table.raiseMaxStreams dir limit)
  | advertise (table : Streams) (announced : Dir → Bool) :
      Edit table
        { table with
          recvMaxStreamsSent kind :=
            if announced kind then table.recvMaxStreams kind
            else table.recvMaxStreamsSent kind }

/-- Changes one after another. -/
def Edits : Streams → Streams → Prop := Relation.ReflTransGen Edit

namespace Edits

variable {first second third : Streams}

theorem refl : Edits table table := Relation.ReflTransGen.refl

theorem single (edit : Edit first second) : Edits first second := Relation.ReflTransGen.single edit

theorem trans (edits : Edits first second) (more : Edits second third) : Edits first third :=
  Relation.ReflTransGen.trans edits more

theorem of_eq (same : second = first) : Edits first second := by
  rw [same]
  exact refl first

/-- What every edit keeps, edits keep. -/
theorem rule {motive : Streams → Prop}
    (kept : ∀ first second, Edit first second → motive first → motive second)
    (edits : Edits first second) (holds : motive first) : motive second := by
  induction edits with
  | refl => exact holds
  | tail _ edit ih => exact kept _ _ edit ih

theorem foldl {α : Type} {change : Streams → α → Streams}
    (edits : ∀ table entry, Edits table (change table entry)) (entries : List α) (table : Streams) :
    Edits table (entries.foldl change table) := by
  induction entries generalizing table with
  | nil => exact refl table
  | cons entry _ ih => exact (edits table entry).trans (ih _)

end Edits

/-! ## Single streams -/

/-- Changes to the send side are gentle. -/
theorem edits_modify (recv : ∀ stream, (change stream).recv = stream.recv)
    (recvOff : ∀ stream, (change stream).recvOff = stream.recvOff)
    (pending : ∀ stream, (change stream).recvPending = stream.recvPending)
    (released : ∀ stream, (change stream).recvReleased = stream.recvReleased)
    (limit : ∀ stream, (change stream).sendMax = stream.sendMax) :
    Edits table (table.modifyStream id change) :=
  .single (.gentle table id (.of_same recv recvOff pending released limit))

theorem edits_credit (bytes : Nat) : Edits table (table.creditConnectionWindow bytes) := by
  unfold creditConnectionWindow
  split
  · exact .refl table
  · exact .single (.quiet table _ ⟨_, _, _⟩ _ _ _ _)

theorem edits_retire : Edits table (table.retireStream id) := .single (.retire table id)

theorem edits_raiseLimit (limit : Nat) :
    Edits table (table.modifyStream id fun stream =>
      { stream with sendMax := max stream.sendMax limit }) :=
  .single (.gentle table id
    ⟨fun _ => rfl, fun _ => rfl, fun _ => rfl, fun _ => rfl, fun _ => le_max_left _ _⟩)

theorem ensurePeerFlow_shape {table : Streams} (params : TransportParameters)
    (unapplied : table.peerFlowApplied = false) :
    ∃ change : Nat → Stream → Stream, (∀ id, Gentle (change id)) ∧
      table.ensurePeerFlow (some params) =
        { table with
          streams := table.streams.map change
          sendMaxData := params.initialMaxData
          peerMsdBidiLocal := params.initialMaxStreamDataBidiLocal
          peerMsdBidiRemote := params.initialMaxStreamDataBidiRemote
          peerMsdUni := params.initialMaxStreamDataUni
          sendMaxStreams := (table.ensurePeerFlow (some params)).sendMaxStreams
          peerFlowApplied := true } := by
  unfold ensurePeerFlow
  rw [unapplied, if_neg Bool.false_ne_true]
  refine ⟨_, ?_, rfl⟩
  exact fun id => ⟨fun _ => rfl, fun _ => rfl, fun _ => rfl, fun _ => rfl, fun _ => le_max_left _ _⟩

/-! ## Received frames -/

/-- A frame opens the streams up to the one it names. -/
theorem edits_ensureStream {table : Streams} {id : Nat} (ty : Nat)
    (alive : table.streamRetired id = false) : Edits table (table.ensureStream id ty).1 := by
  unfold ensureStream
  split
  · exact .refl table
  rename_i absent
  split
  · exact .refl table
  rename_i peer
  have isPeer : table.isPeerInitiated id = true := by simpa using peer
  have ordinal := streamRetired_eq_false alive (Bool.eq_false_iff.mpr absent) isPeer
  dsimp only
  split
  · exact .refl table
  rename_i ok
  rw [not_or, not_lt, not_lt] at ok
  have opened : table.peerStreamsOpened (kindOf id) +
      (id / 4 + 1 - table.peerStreamsOpened (kindOf id)) = id / 4 + 1 := by
    omega
  have edit := Edit.openPeer isPeer (by rw [opened]; exact ok.1) ok.2
  unfold openBlock at edit
  dsimp only at edit
  rw [opened] at edit
  exact .single edit

theorem edits_chargeStream (newHigh delta : Nat) (recvFin : Option Nat) :
    Edits table (table.chargeStream id newHigh delta recvFin) := by
  have charged : Edits table (table.modifyStream id (·.charge newHigh recvFin)) :=
    edits_modify table id (fun _ => rfl) (fun _ => rfl) (fun _ => rfl) (fun _ => rfl) fun _ => rfl
  exact charged.trans (.single (.quiet _ _ ⟨_, _, _⟩ _ _ _ _))

theorem edits_bufferFragment {table : Streams} {id : Nat} {stream charged : Stream} {offset : Nat}
    {data : List UInt8} (found : table.streams[id]? = some charged)
    (recvOff : charged.recvOff = stream.recvOff)
    (pending : charged.recvPending = stream.recvPending)
    (receives : isUni id = true → table.isPeerInitiated id = true)
    (kept : charged.recvReleased = false) (ahead : stream.recvOff < offset) :
    Edits table (table.bufferFragment id stream offset data).1 := by
  unfold bufferFragment
  split
  · exact .refl table
  split
  · exact .refl table
  split
  · exact .refl table
  rename_i ok
  rw [not_or, not_or, not_lt, not_le, not_lt, ← pending] at ok
  obtain ⟨room, few, shared⟩ := ok
  rw [← recvOff] at ahead
  exact .single (.hold found receives kept ahead room few shared)

/-- A frame is charged, and its bytes are released, held back or absorbed. -/
theorem edits_storeStream {table : Streams} {id : Nat}
    (receives : isUni id = true → table.isPeerInitiated id = true)
    (offset : Nat) (fin : Bool) (data : List UInt8) (newHigh delta : Nat) :
    Edits table (table.storeStream id offset fin data newHigh delta).1 := by
  unfold storeStream
  cases found : table.streams[id]? with
  | none => exact .refl table
  | some stream =>
    dsimp only
    split
    · exact .refl table
    refine (edits_chargeStream table id newHigh delta
      (if fin then some (offset + data.length) else none)).trans ?_
    have charged : (table.chargeStream id newHigh delta
        (if fin then some (offset + data.length) else none)).streams[id]? =
        some (stream.charge newHigh (if fin then some (offset + data.length) else none)) := by
      refine (lookup_modifyStream table id id _).trans ?_
      rw [if_pos rfl, found, Option.map_some]
    have peers : isUni id = true →
        (table.chargeStream id newHigh delta
          (if fin then some (offset + data.length)
            else none)).isPeerInitiated id = true :=
      receives
    generalize table.chargeStream id newHigh delta
      (if fin then some (offset + data.length) else none) = next at charged peers ⊢
    split
    next released =>
      exact ((Edits.single (.late charged released newHigh delta)).trans
        (edits_credit _ delta)).trans (edits_retire _ id)
    rename_i notReleased
    have kept := Bool.eq_false_iff.mpr notReleased
    split
    next ahead => exact edits_bufferFragment charged rfl rfl peers kept ahead
    next due =>
      have edit : Edit next (next.absorbFragment id
          (stream.charge newHigh (if fin then some (offset + data.length) else none))
          offset data) :=
        .absorb charged kept (Nat.le_of_not_lt due)
      exact .single edit

theorem edits_recvStream (offset : Nat) (fin : Bool) (data : List UInt8) :
    Edits table (table.recvStream id offset fin data).1 := by
  rcases recvStream_cases table id offset fin data with
    ⟨_, refused⟩ | ⟨-, ignored⟩ | ⟨ensured, _, reaches, -, stored⟩
  · rw [refused]
    exact .refl table
  · rw [ignored]
    exact .refl table
  · rw [stored]
    have opened := edits_ensureStream 0x08 reaches.alive
    have sameSide := side_ensureStream 0x08 reaches.alive
    rw [reaches.accepted] at opened sameSide
    have receives : isUni id = true → ensured.isPeerInitiated id = true := by
      rw [isPeerInitiated_of_side sameSide]
      exact reaches.receives
    exact opened.trans (edits_storeStream receives offset fin data _ _)

variable (code : Nat)

theorem edits_storeReset (size delta : Nat) :
    Edits table (table.storeReset id code size delta).1 := by
  unfold storeReset
  cases found : table.streams[id]? with
  | none => exact .refl table
  | some stream =>
    have marked : Edits table (table.modifyStream id (·.resetRecv code size)) :=
      edits_modify table id (fun _ => rfl) (fun _ => rfl) (fun _ => rfl) (fun _ => rfl) fun _ => rfl
    have charging : Edits table (table.chargeReset id code size delta) :=
      marked.trans (.single (.quiet _ _ ⟨_, _, _⟩ _ _ _ _))
    have charged : (table.chargeReset id code size
        delta).streams[id]? = some (stream.resetRecv code size) := by
      refine (lookup_modifyStream table id id _).trans ?_
      rw [if_pos rfl, found, Option.map_some]
    refine (charging.trans ?_).trans (edits_retire _ id)
    generalize table.chargeReset id code size delta = next at charged ⊢
    split
    · have dropped : ∀ credit, Edit next
          { next.modifyStream id (·.releaseReset credit) with
            recvPendingTotal :=
              next.recvPendingTotal - bufferedBytes
                (stream.resetRecv code size).recvPending } :=
        fun credit => .drop charged (fun _ => rfl) fun _ => le_rfl
      exact (Edits.single (dropped _)).trans (edits_credit _ _)
    · exact .refl next

theorem edits_recvResetStream (size : Nat) :
    Edits table (table.recvResetStream id code size).1 := by
  rcases recvResetStream_cases table id code size with
    ⟨_, refused⟩ | ⟨ensured, _, reaches, -, stored⟩
  · rw [refused]
    exact .refl table
  · rw [stored]
    have opened := edits_ensureStream 0x04 reaches.alive
    rw [reaches.accepted] at opened
    exact opened.trans (edits_storeReset ensured id code size _)

/-! ## Calls of the application -/

theorem edits_discardStreamRecv : Edits table (table.discardStreamRecv id) := by
  unfold discardStreamRecv
  cases found : table.streams[id]? with
  | none => exact .refl table
  | some stream =>
    have dropped : Edit table
        { table.modifyStream id .discardRecv with
          recvPendingTotal :=
            table.recvPendingTotal - bufferedBytes stream.recvPending } :=
      .drop found (fun _ => rfl) fun _ => le_rfl
    exact ((Edits.single dropped).trans (edits_credit _ _)).trans (edits_retire _ id)

/-- Reading gives credit back, to the stream and to the connection. -/
theorem edits_readStream
    {table : Streams} (inv : table.Conserved) (id : Nat) : Edits table (table.readStream id).1 := by
  unfold readStream
  cases found : table.streams[id]? with
  | none => exact .refl table
  | some stream =>
    have within stream size : table.streams[id]? = some stream → stream.recvFin = some size →
        ∀ fragment ∈ stream.recvPending, fragment.finish ≤ size := by
      intro found final fragment member
      have balanced := inv.balanced id _ (account_of_lookup found)
      exact le_trans (balanced.pending_le fragment member) (balanced.final size final)
    exact ((Edits.single (.read within)).trans (edits_credit _ _)).trans (edits_retire _ id)

theorem edits_acceptBiLoop (rounds : Nat) (table : Streams) :
    Edits table (acceptBiLoop rounds table).1 := by
  induction rounds generalizing table with
  | zero => exact .refl table
  | succ _ ih =>
    unfold acceptBiLoop
    split
    · exact .refl table
    rename_i id queue head
    have popped : Edits table { table.noteTaken .bidi id with acceptBidi := queue } :=
      .single (.popBidi head)
    dsimp only
    split
    · exact popped.trans ((edits_discardStreamRecv _ id).trans (ih _))
    · exact popped

theorem edits_takeAcceptUni : Edits table table.takeAcceptUni.1 := by
  unfold takeAcceptUni
  split
  · exact .refl table
  next id queue head => exact .single (.popUni head)

/-- The limits of the peer reach the streams that were opened before them. -/
theorem edits_ensurePeerFlow : Edits table (table.ensurePeerFlow params) := by
  cases applied : table.peerFlowApplied with
  | true =>
    apply Edits.of_eq
    unfold ensurePeerFlow
    rw [applied, if_pos rfl]
  | false =>
    cases params with
    | none =>
      apply Edits.of_eq
      unfold ensurePeerFlow
      rw [applied, if_neg Bool.false_ne_true]
    | some params => exact .single (.learn params applied)

/-- The peer's parameters change neither the ids nor their owners. -/
theorem ids_ensurePeerFlow :
    (∀ id, (table.ensurePeerFlow params).streams.contains id = table.streams.contains id) ∧
      (∀ id, (table.ensurePeerFlow params).isPeerInitiated id = table.isPeerInitiated id) ∧
      ∀ id, (table.ensurePeerFlow params).streamRetired id = table.streamRetired id := by
  unfold ensurePeerFlow
  split
  · exact ⟨fun _ => rfl, fun _ => rfl, fun _ => rfl⟩
  split
  · exact ⟨fun _ => rfl, fun _ => rfl, fun _ => rfl⟩
  · have contained (change : Nat → Stream → Stream) (id : Nat) :
        (table.streams.map change).contains id = table.streams.contains id :=
      Std.TreeMap.contains_map
    refine ⟨contained _, fun _ => rfl, ?_⟩
    intro _
    unfold streamRetired raiseSendMax
    rw [contained]
    rfl

variable {table}

theorem edits_orInsertFresh {id : Nat} (known : table.known id = true)
    (alive : table.streamRetired id = false) :
    Edits table
      (((table.orInsertFresh id).modifyStream id fun stream =>
        { stream with
          sendMax :=
            max stream.sendMax (table.peerSendLimit id) }).advanceNext id) := by
  unfold orInsertFresh
  split
  next found =>
    refine (edits_raiseLimit table id (table.peerSendLimit id)).trans (.single (.advance ?_))
    exact Std.TreeMap.contains_modify.trans found
  next missing =>
    have absent := Bool.eq_false_iff.mpr missing
    have own : table.isPeerInitiated id = false := by
      unfold Streams.known at known
      rw [alive, absent] at known
      simpa using known
    exact .single (.create own alive absent)

theorem edits_createLocalStream_applied {id : Nat} (known : table.known id = true)
    (alive : table.streamRetired id = false) (params : Option TransportParameters) :
    Edits (table.ensurePeerFlow params) (table.createLocalStream params id) := by
  obtain ⟨contains, peers, retired⟩ := ids_ensurePeerFlow table params
  have stillAlive : (table.ensurePeerFlow params).streamRetired id = false := by
    rw [retired]
    exact alive
  have stillKnown : (table.ensurePeerFlow params).known id = true := by
    unfold Streams.known
    rw [contains, retired, peers]
    exact known
  unfold createLocalStream
  rw [alive, if_neg Bool.false_ne_true]
  exact edits_orInsertFresh stillKnown stillAlive

/-- A stream of our own is opened once. -/
theorem edits_createLocalStream {id : Nat} (known : table.known id = true)
    (params : Option TransportParameters) : Edits table (table.createLocalStream params id) := by
  by_cases retired : table.streamRetired id = true
  · apply Edits.of_eq
    unfold createLocalStream
    rw [if_pos retired]
  · exact (edits_ensurePeerFlow table params).trans
      (edits_createLocalStream_applied known (Bool.eq_false_iff.mpr retired) params)

variable (table)

theorem edits_flowUpdateSent : Edits table table.flowUpdateSent := by
  have updated : Edits table
      { table with
        streams := table.streams.map fun _ stream =>
          if stream.needMaxStreamData then
            { stream with recvMaxSent := stream.recvMax, needMaxStreamData := false }
          else
            stream } := by
    apply Edits.single
    apply Edit.everywhere
    intro _
    apply Gentle.of_same <;> intro stream <;> split <;> rfl
  exact (updated.trans (.single (.advertise _ table.needMaxStreams))).trans
    (.single (.quiet ..))

theorem edits_queueData (data : List UInt8) : Edits table (table.queueData id data) := by
  apply edits_modify <;> intro stream <;> split <;> rfl

theorem edits_stopSend : Edits table (table.stopSend id code) := by
  apply edits_modify <;> intro stream <;> split <;> rfl

theorem edits_markCancelled (cancelAfter : List Nat) :
    Edits table (table.markCancelled id cancelAfter) := by
  apply edits_modify <;> intro stream <;> split <;> rfl

/-- Every operation edits the table. -/
theorem Op.edits {first second : Streams} (operation : Op first second)
    (inv : first.Conserved) : Edits first second := by
  cases operation with
  | recvStream id offset fin data => exact edits_recvStream first id offset fin data
  | recvResetStream id code size => exact edits_recvResetStream first id code size
  | readStream id => exact edits_readStream inv id
  | discardStreamRecv id => exact edits_discardStreamRecv first id
  | acceptBi => exact edits_acceptBiLoop _ first
  | retireStream id => exact edits_retire first id
  | ensureStream _ ty alive => exact edits_ensureStream ty alive
  | createLocalStream params _ known => exact edits_createLocalStream known params
  | queueData id data => exact edits_queueData first id data
  | finishStream | markResetSent => apply edits_modify <;> intro stream <;> rfl
  | stopSend id code => exact edits_stopSend first id code
  | markCancelled id cancelAfter => exact edits_markCancelled first id cancelAfter
  | compactSendBuffer =>
    apply edits_modify <;> intro stream <;> unfold compactStream <;> dsimp only <;> split <;> rfl
  | acceptUni => exact edits_takeAcceptUni first
  | raiseMaxData limit => exact .single (.raiseMaxData first limit)
  | raiseMaxStreamData id limit => exact edits_raiseLimit first id limit
  | raiseMaxStreams dir limit => exact .single (.raiseMaxStreams first dir limit)
  | flowUpdateSent => exact edits_flowUpdateSent first

/-! ## Packets -/

theorem edits_indexSentStreamRanges : Edits table (table.indexSentStreamRanges content) := by
  apply Edits.foldl
  intro _ _
  apply edits_modify <;> intro stream <;> rfl

theorem edits_unindexSentStreamRanges : Edits table (table.unindexSentStreamRanges content) := by
  apply Edits.foldl
  intro _ _
  apply edits_modify <;> intro stream <;> rfl

/-- Acknowledged ranges and resets settle their streams. -/
theorem edits_markAcked : Edits table (table.markAcked content) := by
  have finished : Edits table (content.stream.foldl ackRange table) := by
    apply Edits.foldl
    intro table _
    unfold ackRange
    split
    · apply edits_modify <;> intro stream <;> rfl
    · exact .refl table
  have noted : ∀ table : Streams, ∀ ranges, Edits table { table with ackedRanges := ranges } :=
    fun table ranges => .single (.quiet table ranges _ _ _ _ _)
  have reset (table : Streams) : Edits table (content.reset.foldl ackReset table) := by
    apply Edits.foldl
    intro table _
    apply edits_modify <;> intro stream <;> rfl
  exact (finished.trans (noted _ (table.ackedRanges ++ content.stream))).trans (reset _)

theorem edits_requeue : Edits table (table.requeue content) := by
  have queued : Edits table (content.stream.foldl requeueRange table) := by
    apply Edits.foldl
    intro table entry
    refine .trans ?_ (edits_retire _ entry.1)
    apply edits_modify <;> intro stream <;> split <;> rfl
  have grown (table : Streams) : Edits table (content.maxStreamData.foldl rearmWindow table) := by
    apply Edits.foldl
    intro table id
    apply edits_modify <;> intro stream <;> rfl
  have rearmed (table : Streams) : Edits table (content.reset.foldl rearmReset table) := by
    apply Edits.foldl
    intro _ _
    apply edits_modify <;> intro stream <;> split <;> rfl
  exact ((queued.trans (grown _)).trans (rearmed _)).trans (.single (.quiet ..))

theorem edits_advanceFresh : Edits table (table.advanceFresh id chunk) := by
  have advanced : Edits table (table.modifyStream id fun stream =>
      { stream with sendOff := chunk.finish, finSent := stream.finSent || chunk.fin }) := by
    apply edits_modify <;> intro stream <;> rfl
  exact advanced.trans (.single (.quiet ..))

theorem edits_chunkSent : Edits table (table.chunkSent id chunk) := by
  unfold chunkSent
  split
  · apply edits_modify <;> intro stream <;> split <;> first | rfl | (split <;> rfl)
  · exact edits_advanceFresh table id chunk

theorem edits_zeroRttChunkSent : Edits table (table.zeroRttChunkSent id chunk) := by
  unfold zeroRttChunkSent
  split
  · apply edits_modify <;> intro stream <;> rfl
  · exact edits_advanceFresh table id chunk

end Streams

namespace Delivery

open Streams

variable (view : Delivery) (space : SpaceId) (pn : Nat)

theorem edits_store (content : SentContent) :
    Edits view.table (view.store space pn content).table := by
  unfold store
  split
  · exact edits_indexSentStreamRanges _ content
  · exact .refl _

theorem edits_take (content : SentContent) :
    Edits view.table (view.take space pn content).table := by
  unfold take
  split
  · exact edits_unindexSentStreamRanges _ content
  · exact .refl _

/-- Every step of delivery edits the table. -/
theorem Step.edits {first second : Delivery} (step : Step first second)
    (inv : first.table.Conserved) : Edits first.table second.table := by
  cases step with
  | table changed => exact changed.edits inv
  | control space pn content => exact edits_store first space pn content
  | stream pn id => exact (edits_store first .data pn _).trans (edits_chunkSent _ id _)
  | zeroRttStream pn id =>
    exact (edits_store first .data pn _).trans (edits_zeroRttChunkSent _ id _)
  | acked space pn content =>
    exact (edits_take first space pn content).trans (edits_markAcked _ content)
  | lost space pn content =>
    exact (edits_take first space pn content).trans (edits_requeue _ content)
  | probeLost pn content => exact edits_take first .data pn content
  | _ => exact .refl _

theorem Steps.edits {first second : Delivery} (steps : Steps first second)
    (inv : first.table.Conserved) : Edits first.table second.table := by
  induction steps with
  | refl => exact .refl _
  | tail steps step ih =>
    have kept := Steps.rule (motive := fun view => view.table.Conserved)
      (fun _ _ step => step.conserved) steps inv
    exact ih.trans (step.edits kept)

end Delivery

end ParallaX.Quic
