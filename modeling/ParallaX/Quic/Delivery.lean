import ParallaX.Quic.Run
import ParallaX.Quic.StreamTable

/-!
# The delivery machine

What happens to stream data, apart from keys, timers and congestion: the stream
table, what the packets in flight carried, and the steps that move ranges
between them.
-/

namespace ParallaX.Quic

open ParallaX.Data

/-! ## Operations of the table -/

structure SendingView where
  side : Side
  nextBidi : Nat
  nextUni : Nat
  opened : Dir → Nat
  buffer : Nat → Option SendBuffer
  history : StreamHistory

namespace Streams

def sending (table : Streams) : SendingView :=
  { side := table.side
    nextBidi := table.nextBidi
    nextUni := table.nextUni
    opened := table.peerStreamsOpened
    buffer := table.buffer
    history := table.toStreamHistory }

/-- What the conservation of receive credit depends on. -/
structure FlowView where
  side : Side
  opened : Dir → Nat
  account : Nat → Option RecvAccount
  credit : ConnCredit
  retired : List (Nat × Stream)

def flow (table : Streams) : FlowView :=
  { side := table.side
    opened := table.peerStreamsOpened
    account := table.account
    credit := table.toConnCredit
    retired := table.retired }

variable {table : Streams} {id : Nat} {change : Nat → Stream → Stream}
  (params : Option TransportParameters)

theorem foldl_unseen {α β : Type} (view : Streams → β) {change : Streams → α → Streams}
    (unseen : ∀ table entry, view (change table entry) = view table)
    (entries : List α) (table : Streams) : view (entries.foldl change table) = view table := by
  induction entries generalizing table with
  | nil => rfl
  | cons _ _ ih => rw [List.foldl_cons, ih, unseen]

theorem flow_modifyStream {change : Stream → Stream}
    (unseen : ∀ stream, (change stream).toRecvAccount = stream.toRecvAccount) :
    (table.modifyStream id change).flow = table.flow := by
  have same : (table.modifyStream id change).account = table.account :=
    funext (map_modifyStream unseen)
  unfold flow
  rw [same]
  rfl

theorem flow_map (unseen : ∀ id stream, (change id stream).toRecvAccount = stream.toRecvAccount) :
    flow { table with streams := table.streams.map change } = table.flow := by
  have same : account { table with streams := table.streams.map change } = table.account := by
    funext id
    unfold account
    rw [Std.TreeMap.getElem?_map, Option.map_map]
    congr 1
    funext stream
    exact unseen id stream
  unfold flow
  rw [same]

theorem sending_modifyStream {change : Stream → Stream}
    (unseen : ∀ stream, (change stream).toSendBuffer = stream.toSendBuffer) :
    (table.modifyStream id change).sending = table.sending := by
  have same : (table.modifyStream id change).buffer = table.buffer :=
    funext (map_modifyStream unseen)
  unfold sending
  rw [same]
  rfl

theorem sending_map (unseen : ∀ id stream, (change id stream).toSendBuffer = stream.toSendBuffer) :
    sending { table with streams := table.streams.map change } = table.sending := by
  have same : buffer { table with streams := table.streams.map change } = table.buffer := by
    funext id
    unfold buffer
    rw [Std.TreeMap.getElem?_map, Option.map_map]
    congr 1
    funext stream
    exact unseen id stream
  unfold sending
  rw [same]

variable {stream : Stream} (code : Nat)

theorem nextStreamToSend_sends (next : table.nextStreamToSend = some id)
    (present : table.streams[id]? = some stream) :
    table.streamCanSend id = true ∧ stream.reset = none := by
  have wants := test_of_find next present
  simp only [wantsToSend, Bool.and_eq_true, Option.isNone_iff_eq_none] at wants
  exact wants.1

theorem nextStreamToReset_reset (next : table.nextStreamToReset = some id)
    (present : table.streams[id]? = some stream) : stream.reset.isSome = true := by
  have owes := test_of_find next present
  simp only [owesReset, Bool.and_eq_true] at owes
  exact owes.1.1.2

def raiseMaxData (table : Streams) (limit : Nat) : Streams :=
  { table with sendMaxData := max table.sendMaxData limit }

def raiseMaxStreamData (table : Streams) (id limit : Nat) : Streams :=
  table.modifyStream id fun stream =>
    { stream with sendMax := max stream.sendMax limit }

def raiseMaxStreams (table : Streams) (dir : Dir) (limit : Nat) : Streams :=
  { table with
    sendMaxStreams :=
      Function.update table.sendMaxStreams dir (max (table.sendMaxStreams dir) limit) }

/-- The operations of the stream table that leave the packets in flight
alone. -/
inductive Op : Streams → Streams → Prop
  | recvStream (table : Streams) (id offset : Nat) (fin : Bool)
      (data : List UInt8) : Op table (table.recvStream id offset fin data).1
  | recvResetStream (table : Streams) (id errorCode finalSize : Nat) :
      Op table (table.recvResetStream id errorCode finalSize).1
  | readStream (table : Streams) (id : Nat) : Op table (table.readStream id).1
  | discardStreamRecv (table : Streams) (id : Nat) :
      Op table (table.discardStreamRecv id)
  | acceptBi (table : Streams) : Op table table.acceptBi.1
  | retireStream (table : Streams) (id : Nat) : Op table (table.retireStream id)
  | ensureStream (table : Streams) (id frameType : Nat) (alive : table.streamRetired id = false) :
      Op table (table.ensureStream id frameType).1
  | createLocalStream (table : Streams) (params : Option TransportParameters)
      (id : Nat) (known : table.known id = true) :
      Op table (table.createLocalStream params id)
  | queueData (table : Streams) (id : Nat) (data : List UInt8) :
      Op table (table.queueData id data)
  | finishStream (table : Streams) (id : Nat) : Op table (table.finishStream id)
  | stopSend (table : Streams) (id errorCode : Nat) :
      Op table (table.stopSend id errorCode)
  | markCancelled (table : Streams) (id : Nat) (cancelAfter : List Nat) :
      Op table (table.markCancelled id cancelAfter)
  | compactSendBuffer (table : Streams) (id : Nat) :
      Op table (table.compactSendBuffer id)
  | acceptUni (table : Streams) : Op table table.takeAcceptUni.1
  | raiseMaxData (table : Streams) (limit : Nat) :
      Op table (table.raiseMaxData limit)
  | raiseMaxStreamData (table : Streams) (id limit : Nat) :
      Op table (table.raiseMaxStreamData id limit)
  | raiseMaxStreams (table : Streams) (dir : Dir) (limit : Nat) :
      Op table (table.raiseMaxStreams dir limit)
  | markResetSent (table : Streams) (id : Nat) :
      Op table (table.markResetSent id)
  | flowUpdateSent (table : Streams) : Op table table.flowUpdateSent

theorem flow_flowUpdateSent (table : Streams) : table.flowUpdateSent.flow = table.flow := by
  have mapped : flow
      { table with
        streams := table.streams.map fun _ stream =>
          if stream.needMaxStreamData then
            { stream with recvMaxSent := stream.recvMax, needMaxStreamData := false }
          else
            stream } = table.flow := by
    apply flow_map
    intro _ _
    split <;> rfl
  exact mapped

theorem sending_flowUpdateSent (table : Streams) :
    table.flowUpdateSent.sending = table.sending := by
  have mapped : sending
      { table with
        streams := table.streams.map fun _ stream =>
          if stream.needMaxStreamData then
            { stream with recvMaxSent := stream.recvMax, needMaxStreamData := false }
          else
            stream } = table.sending := by
    apply sending_map
    intro _ _
    split <;> rfl
  exact mapped

def Ops : Streams → Streams → Prop := Relation.ReflTransGen Op

theorem Ops.single {first second : Streams} (operation : Op first second) : Ops first second :=
  Relation.ReflTransGen.single operation

theorem Ops.then {first second third : Streams}
    (operations : Ops first second) (operation : Op second third) : Ops first third :=
  Relation.ReflTransGen.tail operations operation

theorem ops_resetStream (known : table.known id = true) :
    Ops table (table.resetStream params id code) :=
  (Ops.single (.createLocalStream table params id known)).then
    (.stopSend _ id code)

theorem ops_sendStream (data : List UInt8) (known : table.known id = true) :
    Ops table (table.sendStream params id data) :=
  (Ops.single (.createLocalStream table params id known)).then
    (.queueData _ id data)

theorem ops_cancelStream (known : table.known id = true) :
    Ops table (table.cancelStream params id code) :=
  ((ops_resetStream params code known).then
    (.markCancelled _ id _)).then (.discardStreamRecv _ id)

theorem known_ensureStream {ensured : Streams} {frameType : Nat}
    (alive : table.streamRetired id = false)
    (accepted : table.ensureStream id frameType = (ensured, .ok ())) : ensured.known id = true := by
  obtain ⟨_, present, -⟩ := ensureStream_present alive accepted
  have contained : ensured.streams.contains id = true := by
    rw [contains_eq_isSome, present]
    rfl
  unfold known
  rw [contained]
  rfl

end Streams

/-! ## Steps -/

/-- The stream table with what the packets in flight carried, the next packet
number of the 1-RTT space and the number of the path-MTU probe. -/
structure Delivery where
  table : Streams
  contents : SpaceId → BTreeMap SentContent
  next : Nat
  probe : Option Nat

namespace Delivery

def fresh (table : Streams) : Delivery :=
  { table := table, contents := fun _ => ∅, next := 0, probe := none }

def store (view : Delivery) (space : SpaceId) (pn : Nat) (content : SentContent) : Delivery :=
  { view with
    table :=
      if space = .data then view.table.indexSentStreamRanges content
      else view.table
    contents := Function.update view.contents space ((view.contents space).insert pn content)
    next := if space = .data then pn + 1 else view.next }

variable (view : Delivery)

theorem contents_store_self (space : SpaceId) (pn : Nat) (content : SentContent) :
    ((view.store space pn content).contents space)[pn]? = some content := by
  change (Function.update view.contents space _ space)[pn]? = some content
  rw [Function.update_self, lookup_insert_self]

def take (view : Delivery) (space : SpaceId) (pn : Nat) (content : SentContent) : Delivery :=
  { view with
    table :=
      if space = .data then view.table.unindexSentStreamRanges content
      else view.table
    contents :=
      Function.update view.contents space ((view.contents space).erase pn) }

def mapTable (view : Delivery) (change : Streams → Streams) : Delivery :=
  { view with table := change view.table }

def chunkContent (id : Nat) (chunk : Streams.Chunk) : SentContent :=
  { SentContent.empty with stream := [(id, chunk.toStreamRange)] }

inductive Step : Delivery → Delivery → Prop
  | table {view : Delivery} {table : Streams} (changed : Streams.Op view.table table) :
      Step view { view with table := table }
  | skip {view : Delivery} (next : Nat) (later : view.next ≤ next) :
      Step view { view with next := next }
  | control {view : Delivery} (space : SpaceId) (pn : Nat)
      (content : SentContent) (plain : content.stream = [])
      (resets : ∀ id ∈ content.reset, space = .data ∧
        ∃ buffer, view.table.buffer id = some buffer ∧ buffer.reset.isSome = true)
      (new : space = .data → view.next ≤ pn) :
      Step view (view.store space pn content)
  | stream {view : Delivery} (pn id budget : Nat) (stream : Stream)
      (present : view.table.streams[id]? = some stream)
      (allowed : view.table.streamCanSend id = true)
      (sends : stream.reset = none) (new : view.next ≤ pn) :
      Step view
        ((view.store .data pn
          (chunkContent id (view.table.streamChunk stream budget))).mapTable
            (·.chunkSent id (view.table.streamChunk stream budget)))
  | zeroRttStream {view : Delivery} (pn id budget : Nat) (stream : Stream)
      (present : view.table.streams[id]? = some stream)
      (allowed : view.table.streamCanSend id = true)
      (sends : stream.reset = none) (new : view.next ≤ pn) :
      Step view
        ((view.store .data pn
          (chunkContent id (view.table.zeroRttChunk stream budget))).mapTable
            (·.zeroRttChunkSent id (view.table.zeroRttChunk stream budget)))
  | aim {view : Delivery} (pn : Nat) (used : pn < view.next)
      (plain : ∀ content, (view.contents .data)[pn]? = some content → content.stream = []) :
      Step view { view with probe := some pn }
  | unaim {view : Delivery} : Step view { view with probe := none }
  | acked {view : Delivery} (space : SpaceId) (pn : Nat) (content : SentContent)
      (found : (view.contents space)[pn]? = some content) :
      Step view ((view.take space pn content).mapTable (·.markAcked content))
  | lost {view : Delivery} (space : SpaceId) (pn : Nat) (content : SentContent)
      (found : (view.contents space)[pn]? = some content) :
      Step view ((view.take space pn content).mapTable (·.requeue content))
  | probeLost {view : Delivery} (pn : Nat) (content : SentContent) (aimed : view.probe = some pn)
      (found : (view.contents .data)[pn]? = some content) :
      Step view { view.take .data pn content with probe := none }
  | discard {view : Delivery} (space : SpaceId) (early : space ≠ .data) :
      Step view
        { view with contents := Function.update view.contents space ∅ }

def Steps : Delivery → Delivery → Prop := Relation.ReflTransGen Step

theorem Steps.refl : Steps view view := Relation.ReflTransGen.refl

variable {first second : Delivery}

theorem Steps.of_eq (same : second = first) : Steps first second := by
  rw [same]
  exact .refl first

theorem Steps.single (step : Step first second) : Steps first second :=
  Relation.ReflTransGen.single step

theorem Steps.trans {third : Delivery} (steps : Steps first second) (more : Steps second third) :
    Steps first third :=
  Relation.ReflTransGen.trans steps more

theorem Steps.rule {motive : Delivery → Prop}
    (kept : ∀ first second, Step first second → motive first → motive second)
    (steps : Steps first second) (holds : motive first) : motive second := by
  induction steps with
  | refl => exact holds
  | tail _ step ih => exact kept _ _ step ih

end Delivery

end ParallaX.Quic
