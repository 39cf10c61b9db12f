import ParallaX.Mux.Frame

/-!
# The downlink scheduler

The download queues of the substreams of a mux connection, and the scheduler
that serves them in turn. Substreams send while the scheduler fills a batch,
so a run interleaves single sends with single reads of the queues.
-/

namespace ParallaX.Mux

/-- What the reader tells the writer. A queue is named by the number of its
registration. -/
inductive DownlinkControl where
  | register (streamId : UInt32) (queue : Nat)
  | purge (streamId : UInt32)
  | frame (frame : MuxFrame)
deriving DecidableEq, Repr

def DownlinkControl.queue : DownlinkControl → Option Nat
  | .register _ queue => some queue
  | _ => none

structure ServerMuxScheduler where
  controlOpen : Bool
  /-- Queues in service order; the front is served next. -/
  queues : List (UInt32 × Nat)
  /-- Frames of substreams without a queue. -/
  unqueued : List MuxFrame
deriving DecidableEq, Repr

namespace ServerMuxScheduler

variable (scheduler : ServerMuxScheduler)

def purge (streamId : UInt32) : ServerMuxScheduler :=
  { scheduler with queues := scheduler.queues.filter (·.1 ≠ streamId) }

def apply :
    DownlinkControl → ServerMuxScheduler
  | .register streamId queue =>
    let purged := scheduler.purge streamId
    { purged with queues := purged.queues ++ [(streamId, queue)] }
  | .purge streamId => scheduler.purge streamId
  | .frame frame => { scheduler with unqueued := scheduler.unqueued ++ [frame] }

def isFinished : Bool :=
  !scheduler.controlOpen && scheduler.queues.isEmpty && scheduler.unqueued.isEmpty

end ServerMuxScheduler

/-- The bounded queue of a registration; `connected` while a sender is left. -/
structure Channel where
  streamId : UInt32
  items : List MuxFrame
  connected : Bool
deriving DecidableEq, Repr

inductive TryRecv where
  | frame (frame : MuxFrame)
  | empty
  | disconnected
deriving DecidableEq, Repr

/-- The next frame. A queue is disconnected once it is empty and without
senders. -/
def Channel.tryRecv (channel : Channel) : Channel × TryRecv :=
  match channel.items with
  | frame :: rest => ({ channel with items := rest }, .frame frame)
  | [] => (channel, if channel.connected then .empty else .disconnected)

/-! ## Runs -/

/-- What the scheduler has done: frames it emitted, from which queue, and queues
it found empty or disconnected. -/
inductive Observation where
  | emitted (queue : Nat) (frame : MuxFrame)
  | unqueued (frame : MuxFrame)
  | empty (queue : Nat)
  | disconnected (queue : Nat)
deriving DecidableEq, Repr

def Observation.isEmission : Observation → Bool
  | .emitted .. | .unqueued _ => true
  | .empty _ | .disconnected _ => false

structure Fill where
  maxFrames : Nat
  maxBytes : Nat
  batchLen : Nat
  bytes : Nat
  /-- The second loop has begun. -/
  serving : Bool
  idleTurns : Nat
  /-- History that only proofs read: the queues that were registered when the
  last frame was emitted or, if none was, when the call began. -/
  watched : List Nat
deriving DecidableEq, Repr

def Fill.below (fill : Fill) : Bool :=
  decide (fill.batchLen < fill.maxFrames) && decide (fill.bytes < fill.maxBytes)

structure Downlink where
  controlDepth : Nat
  streamQueueDepth : Nat
  control : List DownlinkControl
  readerGone : Bool
  channels : Nat → Channel
  registered : Nat
  scheduler : ServerMuxScheduler
  filling : Option Fill
  /-- History that only proofs read. -/
  sent : Nat → List MuxFrame
  controlFrames : List MuxFrame
  purged : List Nat
  log : List Observation

inductive Event where
  -- the reader
  | register (streamId : UInt32)
  | purge (streamId : UInt32)
  | controlFrame (frame : MuxFrame)
  | readerEnds
  -- the substreams
  | send (queue : Nat) (kind : MuxFrameKind) (payload : List UInt8)
  | hangUp (queue : Nat)
  -- the writer
  | takeControl
  | beginFill (batchLen maxFrames maxBytes : Nat)
  | fillStep

namespace Downlink

def new (controlDepth streamQueueDepth : Nat) : Downlink :=
  { controlDepth := controlDepth
    streamQueueDepth := streamQueueDepth
    control := []
    readerGone := false
    channels _ := ⟨0, [], false⟩
    registered := 0
    scheduler := ⟨true, [], []⟩
    filling := none
    sent _ := []
    controlFrames := []
    purged := []
    log := [] }

variable (link : Downlink)

/-- The queues whose receiver exists: at the scheduler, or on its way there. -/
def live : List Nat :=
  link.scheduler.queues.map (·.2) ++ link.control.filterMap DownlinkControl.queue

/-- A control waits for room in the channel, and fails once the writer is
gone. -/
def sendControl (control : DownlinkControl) : Option Downlink :=
  if link.readerGone ∨ link.controlDepth ≤ link.control.length then none
  else some { link with control := link.control ++ [control] }

def dropped : DownlinkControl → List Nat
  | .register streamId _ | .purge streamId =>
    (link.scheduler.queues.filter (·.1 = streamId)).map (·.2)
  | .frame _ => []

/-- One `try_recv` of `drain_control`, or the control that ends a wait. -/
def takeControl : Option Downlink :=
  if link.scheduler.controlOpen ∧ link.filling = none then
    match link.control with
    | control :: rest =>
      some
        { link with
          control := rest
          scheduler := link.scheduler.apply control
          purged := link.purged ++ link.dropped control }
    | [] =>
      if link.readerGone then
        some
          { link with scheduler := { link.scheduler with controlOpen := false } }
      else
        some link
  else
    none

/-- The first loop of `fill`: frames without a queue. -/
def fillUnqueued (fill : Fill) : Downlink :=
  let serve :=
    { link with
      filling := some
        { fill with serving := true, watched := link.scheduler.queues.map (·.2) } }
  if fill.below then
    match link.scheduler.unqueued with
    | [] => serve
    | frame :: rest =>
      { link with
        scheduler := { link.scheduler with unqueued := rest }
        log := link.log ++ [.unqueued frame]
        filling := some
          { fill with batchLen := fill.batchLen + 1, bytes := fill.bytes + frame.payload.length } }
  else
    serve

/-- The second loop of `fill`: one frame of the front queue. -/
def fillQueues (fill : Fill) : Downlink :=
  let finished := { link with filling := none }
  if fill.below ∧ fill.idleTurns < link.scheduler.queues.length then
    match link.scheduler.queues with
    | [] => finished
    | (streamId, queue) :: rest =>
      let rotated := { link.scheduler with queues := rest ++ [(streamId, queue)] }
      match (link.channels queue).tryRecv with
      | (channel, .frame frame) =>
        { link with
          channels := Function.update link.channels queue channel
          scheduler := rotated
          log := link.log ++ [.emitted queue frame]
          filling := some
            { fill with
              batchLen := fill.batchLen + 1
              bytes := fill.bytes + frame.payload.length
              idleTurns := 0
              watched := rotated.queues.map (·.2) } }
      | (_, .empty) =>
        { link with
          scheduler := rotated
          log := link.log ++ [.empty queue]
          filling := some { fill with idleTurns := fill.idleTurns + 1 } }
      | (_, .disconnected) =>
        { link with
          scheduler := { link.scheduler with queues := rest }
          log := link.log ++ [.disconnected queue] }
  else
    finished

/-- One event; `none` where it cannot happen or has to wait. -/
def step : Event → Option Downlink
  | .register streamId =>
    (link.sendControl (.register streamId link.registered)).map fun next =>
      { next with
        registered := link.registered + 1
        channels := Function.update link.channels link.registered ⟨streamId, [], true⟩ }
  | .purge streamId => link.sendControl (.purge streamId)
  | .controlFrame frame =>
    (link.sendControl (.frame frame)).map fun next =>
      { next with controlFrames := link.controlFrames ++ [frame] }
  | .readerEnds => some { link with readerGone := true }
  | .send queue kind payload =>
    let channel := link.channels queue
    if queue < link.registered ∧ channel.connected then
      if queue ∈ link.live then
        if channel.items.length < link.streamQueueDepth then
          let frame : MuxFrame := ⟨channel.streamId, kind, payload⟩
          some
            { link with
              channels := Function.update link.channels queue
                { channel with items := channel.items ++ [frame] }
              sent := Function.update link.sent queue (link.sent queue ++ [frame]) }
        else none
      else some link
    else none
  | .hangUp queue =>
    if queue < link.registered then
      some
        { link with
          channels := Function.update link.channels queue
            { link.channels queue with connected := false } }
    else none
  | .takeControl => link.takeControl
  | .beginFill batchLen maxFrames maxBytes =>
    if link.filling = none then
      some
        { link with
          filling := some
            { maxFrames := maxFrames
              maxBytes := maxBytes
              batchLen := batchLen
              bytes := 0
              serving := false
              idleTurns := 0
              watched := [] } }
    else none
  | .fillStep =>
    link.filling.map fun fill =>
      if fill.serving then link.fillQueues fill else link.fillUnqueued fill

def Steps (next : Downlink) : Prop := ∃ event, link.step event = some next

def Runs : Downlink → Downlink → Prop := Relation.ReflTransGen Steps

end Downlink

end ParallaX.Mux
