import ParallaX.Quic.Flight
import ParallaX.Quic.ReceiveActs
import ParallaX.Quic.TableEdits

/-!
# A connection refines the delivery machine

Every act of a connection is a sequence of steps of the delivery machine, so
what those steps keep holds in every run.
-/

namespace ParallaX.Quic

open Delivery ParallaX.Data Function

namespace Core

variable {T : Type}

/-! ## Spaces -/

variable {change : SpaceCore → SpaceCore} (core : Core T) (space : SpaceId)
  (pn : Nat) (content : SentContent)

theorem delivery_mapSpace (change : SpaceCore → SpaceCore) :
    (core.mapSpace space change).delivery =
      { core.delivery with
        contents := update core.delivery.contents space (change (core.spaces space)).sentContent
        next :=
          if space = .data then (change (core.spaces space)).send.next
          else core.delivery.next } := by
  have contents other : ((core.mapSpace space change).spaces other).sentContent =
        update core.delivery.contents space (change (core.spaces space)).sentContent other := by
    by_cases same : other = space
    · subst same
      rw [spaces_mapSpace_self, update_self]
    · rw [update_of_ne same, spaces_mapSpace_of_ne same]
      rfl
  have next :
      ((core.mapSpace space change).spaces .data).send.next =
        if space = .data then (change (core.spaces space)).send.next
        else core.delivery.next := by
    by_cases data : space = .data
    · subst data
      rw [spaces_mapSpace_self, if_pos rfl]
    · rw [if_neg data, spaces_mapSpace_of_ne (Ne.symm data)]
      rfl
  unfold delivery
  rw [funext contents, next]
  rfl

theorem delivery_mapSpace_contents {core : Core T} {space : SpaceId}
    (next : (change (core.spaces space)).send = (core.spaces space).send) :
    (core.mapSpace space change).delivery =
      { core.delivery with
        contents :=
          update core.delivery.contents space (change (core.spaces space)).sentContent } := by
  rw [delivery_mapSpace, next]
  by_cases data : space = .data
  · subst data
    rfl
  · rw [if_neg data]

theorem delivery_mapSpace_same {core : Core T} {space : SpaceId}
    (contents : (change (core.spaces space)).sentContent = (core.spaces space).sentContent)
    (next : (change (core.spaces space)).send = (core.spaces space).send) :
    (core.mapSpace space change).delivery = core.delivery := by
  rw [delivery_mapSpace_contents next, contents]
  have same :
      update core.delivery.contents space
        (core.spaces space).sentContent = core.delivery.contents :=
    update_eq_self space core.delivery.contents
  rw [same]

/-! ## Packets -/

theorem delivery_sealed : ((core.count space pn).noteSealed space pn).delivery = core.delivery :=
  view_sealed core space pn delivery fun _ _ _ _ _ => rfl

variable {first second : Core T} (packet : SentPacket)

/-- A packet that elicits no ACK only uses up its number. -/
theorem delivery_bare :
    (core.emit space packet none).delivery =
      { core.delivery with
        next :=
          if space = .data then core.nextPn space + 1
          else core.delivery.next } := by
  have tracked :
      ((core.allocate space).track space (core.nextPn space)
        packet).delivery = (core.allocate space).delivery :=
    delivery_mapSpace_same rfl rfl
  have same :
      update core.delivery.contents space
        (core.spaces space).sentContent = core.delivery.contents :=
    update_eq_self space core.delivery.contents
  unfold emit record
  rw [delivery_sealed]
  refine tracked.trans ?_
  rw [allocate, delivery_mapSpace]
  rw [same]
  rfl

theorem delivery_emit (content : SentContent) :
    (core.emit space packet (some content)).delivery =
      core.delivery.store space (core.nextPn space) content := by
  have tracked := delivery_bare core space packet
  unfold emit record at tracked ⊢
  rw [delivery_sealed] at tracked ⊢
  dsimp only [Option.elim] at tracked ⊢
  have table : ((core.allocate space).track space (core.nextPn space)
      packet).toStreams = core.toStreams := rfl
  generalize (core.allocate space).track space (core.nextPn space) packet = next at tracked table ⊢
  have stored : ∀ inv : Core T,
      (inv.mapSpace space fun sp =>
        { sp with sentContent := sp.sentContent.insert (core.nextPn space) content }).delivery =
      { inv.delivery with
        contents :=
          update inv.delivery.contents space
            ((inv.delivery.contents space).insert (core.nextPn space) content) } :=
    fun _ => delivery_mapSpace_contents rfl
  have inv : (next.index space content).delivery =
      { next.delivery with
        table :=
          if space = .data then
            core.toStreams.indexSentStreamRanges content
          else core.toStreams } := by
    unfold index
    rw [← table]
    split <;> rfl
  unfold Core.store
  rw [stored, inv, tracked]
  rfl

theorem delivery_take :
    (core.take space pn content).delivery = core.delivery.take space pn content := by
  have erased :
      (core.mapSpace space fun sp =>
        { sp with sentContent := sp.sentContent.erase pn }).delivery =
      { core.delivery with
        contents :=
          update core.delivery.contents space ((core.delivery.contents space).erase pn) } :=
    delivery_mapSpace_contents rfl
  have taken := congrArg
    (fun view : Delivery =>
      { view with
        table :=
          if space = SpaceId.data then
            core.toStreams.unindexSentStreamRanges content
          else core.toStreams }) erased
  refine Eq.trans ?_ taken
  unfold Core.take unindex
  split <;> rfl

theorem delivery_requeue :
    (core.requeue space content).delivery = core.delivery.mapTable (·.requeue content) := by
  have queued :
      (core.mapSpace space fun sp =>
        { sp with
          retransmitCrypto :=
            sp.retransmitCrypto ++ content.crypto }).delivery = core.delivery :=
    delivery_mapSpace_same rfl rfl
  exact congrArg (fun view => view.mapTable (·.requeue content)) queued

theorem delivery_withSent (sent : SentPackets) :
    (core.withSent space sent).delivery = core.delivery :=
  delivery_mapSpace_same rfl rfl

/-! ## Acknowledgements and losses -/

theorem steps_foldl {α : Type} {change : Core T → α → Core T}
    (steps : ∀ core entry, Steps core.delivery (change core entry).delivery)
    (entries : List α) (core : Core T) :
    Steps core.delivery (entries.foldl change core).delivery := by
  induction entries generalizing core with
  | nil => exact .refl _
  | cons entry _ ih => exact (steps core entry).trans (ih _)

theorem steps_ackOne : Steps core.delivery (core.ackOne space pn).delivery := by
  unfold ackOne
  cases found : (core.spaces space).sentContent[pn]? with
  | none => exact .refl _
  | some content =>
    have marked := congrArg (fun view => view.mapTable (·.markAcked content))
      (delivery_take core space pn content)
    have step : Step core.delivery _ := Step.acked space pn content found
    exact (Steps.single step).trans (.of_eq marked)

theorem steps_noteProbe (newly : List Nat) :
    Steps core.delivery (core.noteProbe space newly).delivery := by
  unfold noteProbe
  split
  · split
    · exact .single .unaim
    · exact .refl _
  · exact .refl _

theorem steps_ackPackets (largest : Nat) (ranges : List (Nat × Nat)) :
    Steps core.delivery (core.ackPackets space largest ranges).delivery := by
  have removed := Steps.of_eq (delivery_withSent core space
    ((core.spaces space).sent.onAck largest ranges).1)
  unfold ackPackets
  dsimp only
  split
  · exact removed
  · exact (removed.trans (steps_foldl
      (fun core pn => steps_ackOne core space pn) _ _)).trans (steps_noteProbe _ space _)

theorem steps_lost {core taken : Core T} {space : SpaceId} {pn : Nat} {content : SentContent}
    (found : (core.spaces space).sentContent[pn]? = some content)
    (same : taken.delivery = core.delivery.take space pn content) :
    Steps core.delivery (taken.requeue space content).delivery := by
  rw [delivery_requeue, same]
  exact .single (.lost space pn content found)

theorem steps_loseOne : Steps core.delivery (core.loseOne space pn).delivery := by
  unfold loseOne
  split
  next aimed =>
    obtain ⟨rfl, aimed⟩ := aimed
    cases found : (core.spaces .data).sentContent[pn]? with
    | none => exact .single .unaim
    | some content =>
      have step : Step core.delivery _ := Step.probeLost pn content aimed found
      exact (Steps.single step).trans (.of_eq (delivery_take _ .data pn content))
  · cases found : (core.spaces space).sentContent[pn]? with
    | none => exact .refl _
    | some =>
      apply steps_lost found
      rw [← delivery_take]
      split <;> rfl

theorem steps_losePackets (lossDelay now : Nat) :
    Steps core.delivery (core.losePackets space lossDelay now).delivery :=
  (Steps.of_eq (delivery_withSent core space _)).trans
    (steps_foldl (fun core pn => steps_loseOne core space pn) _ _)

/-! ## Acts -/

theorem delivery_setKeys (change : Option Keys → Option Keys) :
    (core.mapSpace space fun sp =>
      { sp with keys := change sp.keys }).delivery = core.delivery :=
  delivery_mapSpace_same rfl rfl

theorem delivery_installKeys (change : Option KeyChange) :
    (core.installKeys change).delivery = core.delivery := by
  match change with
  | none => rfl
  | some (.zeroRtt keys) => rfl
  | some (.handshake keys) => exact delivery_setKeys core .handshake fun _ => some keys
  | some (.oneRtt keys) => exact delivery_setKeys core .data fun _ => some keys

variable [TlsSession T]

theorem delivery_writeRound : core.writeRound.delivery = core.delivery := by
  have appended : ∀ (tls : T) (bytes : List UInt8),
      ({ core with tls := tls }.appendCrypto bytes).delivery = core.delivery := by
    intro _ _
    exact delivery_mapSpace_same rfl rfl
  unfold writeRound
  rw [delivery_installKeys, appended]

theorem Act.steps (act : Act first second) : Steps first.delivery second.delivery := by
  cases act with
  | streams changed => exact .single (.table changed)
  | answered =>
    unfold noteAckSent
    split <;> exact .refl _
  | @bare =>
    rw [delivery_bare]
    apply Steps.single
    apply Step.skip
    split
    next data =>
      rw [data]
      exact Nat.le_succ _
    · exact le_rfl
  | control _ content _ plain _ resets =>
    rw [delivery_emit]
    exact .single (.control .data _ content plain
      (fun id member => ⟨rfl, resets id member⟩) fun _ => le_rfl)
  | @crypto space _ _ range =>
    have sent (core : Core T) : (core.cryptoSent space range).delivery = core.delivery := by
      apply delivery_mapSpace_same
      · split <;> rfl
      · split <;> rfl
    rw [sent, delivery_emit]
    apply Steps.single
    refine .control space _ _ rfl (fun _ => nofun) ?_
    intro data
    rw [data]
    exact le_rfl
  | stream packet id budget stream _ present allowed sends =>
    have emitted := congrArg
      (fun view => view.mapTable (·.chunkSent id (first.toStreams.streamChunk stream budget)))
      (delivery_emit first .data packet (chunkContent id
        (first.toStreams.streamChunk stream budget)))
    exact (Steps.single (.stream _ id budget stream present allowed
      sends le_rfl)).trans (Steps.of_eq emitted)
  | zeroRttStream packet id budget stream _ _ present allowed sends =>
    have emitted := congrArg
      (fun view => view.mapTable
        (·.zeroRttChunkSent id (first.toStreams.zeroRttChunk stream budget)))
      (delivery_emit first .data packet (chunkContent id
        (first.toStreams.zeroRttChunk stream budget)))
    exact (Steps.single (Step.zeroRttStream _ id budget stream present
      allowed sends le_rfl)).trans (Steps.of_eq emitted)
  | probe packet =>
    have emitted := delivery_emit
      { first with pmtud := first.pmtud.nextProbeSize.1 } .data packet
      .empty
    have kept : Steps first.delivery (first.delivery.store .data (first.nextPn .data) .empty) :=
      Steps.single (Step.control .data _ .empty rfl nofun fun _ => le_rfl)
    have plain content : ((first.delivery.store .data (first.nextPn .data) .empty).contents
          .data)[first.nextPn .data]? = some content →
        content.stream = [] := by
      intro found
      rw [contents_store_self] at found
      rw [← Option.some.inj found]
      rfl
    have aimed := Step.aim (first.nextPn .data) (Nat.lt_succ_self _) plain
    have probing := congrArg
      (fun view : Delivery =>
        { view with probe := some (first.nextPn .data) }) emitted
    exact (kept.trans (Steps.single aimed)).trans (Steps.of_eq probing)
  | searchEnds => exact Steps.refl _
  | acks space largest ranges => exact steps_ackPackets first space largest ranges
  | losses space lossDelay now => exact steps_losePackets first space lossDelay now
  | probeTimeout oldest =>
    exact steps_lost (lookup_of_head oldest) (by rw [delivery_withSent, delivery_take])
  | write => exact Steps.of_eq (delivery_writeRound first)
  | @installSend _ key =>
    have kept : (first.setLocalDataKey key).delivery = first.delivery :=
      delivery_mapSpace_same rfl rfl
    exact Steps.of_eq kept
  | @switchRead _ _ key =>
    have kept : (first.setRemoteDataKey key).delivery = first.delivery :=
      delivery_mapSpace_same rfl rfl
    exact Steps.of_eq kept
  | @discard space early =>
    have discarded : (first.discard space).delivery =
        { first.delivery with contents := update first.delivery.contents space ∅ } := by
      rw [Core.discard, delivery_mapSpace, if_neg early]
      rfl
    rw [discarded]
    exact Steps.single (Step.discard space early)
  | holdCrypto | receive => exact Steps.of_eq (delivery_mapSpace_same rfl rfl)
  | drainCrypto =>
    have absorbed space drain : (first.absorbCrypto space drain).delivery = first.delivery :=
      delivery_mapSpace_same rfl rfl
    unfold feedTls
    split <;> exact Steps.of_eq (absorbed _ _)
  | @learnKeys dcid =>
    exact Steps.of_eq (delivery_setKeys first .initial
      fun _ => some (TlsSession.initialKeys (T := T) dcid .server))
  | _ => exact Steps.refl _

theorem Acts.steps (acts : Acts first second) : Steps first.delivery second.delivery := by
  induction acts with
  | refl => exact .refl _
  | tail _ act ih => exact ih.trans act.steps

/-! ## Fresh connections -/

/-- The table of a connection that did nothing yet. Parameters remembered
from a ticket do not show in what it sent or received. -/
def FreshTable (table : Streams) : Prop :=
  ∃ side recvMaxStreamsSent,
    table.flow = (Streams.new side (Streams.firstBidi side) (Streams.firstUni side)
      recvMaxStreamsSent).flow ∧
    table.sending = (Streams.new side (Streams.firstBidi side) (Streams.firstUni side)
      recvMaxStreamsSent).sending

section Fresh

variable {maxSent : Dir → Nat} {core : Core T}

theorem Fresh.table (fresh : Fresh maxSent core) :
    ∃ side ticket, core.toStreams = freshTable side maxSent ticket := by
  cases fresh with
  | client _ _ _ ticket => exact ⟨.client, ticket, rfl⟩
  | server => exact ⟨.server, none, rfl⟩

omit [TlsSession T] in
theorem freshTable_isFresh (side : Side) (maxSent : Dir → Nat)
    (ticket : Option TransportParameters) : FreshTable (freshTable side maxSent ticket) := by
  refine ⟨side, maxSent, ?_⟩
  cases ticket with
  | none | some => exact ⟨rfl, rfl⟩

theorem Fresh.delivery (fresh : Fresh maxSent core) :
    core.delivery = Delivery.fresh core.toStreams := by
  cases fresh with
  | client _ dcid =>
    exact delivery_setKeys _ .initial
      fun _ => some (TlsSession.initialKeys (T := T) dcid .client)
  | server => rfl

theorem Fresh.numbered (fresh : Fresh maxSent core) :
    SendingView.Numbered core.side core.toStreams.sending := by
  obtain ⟨side, ticket, table⟩ := fresh.table
  obtain ⟨_, _, -, sending⟩ := freshTable_isFresh side maxSent ticket
  rw [← table] at sending
  have sameSide : core.side = _ := congrArg SendingView.side sending
  rw [sending, sameSide]
  exact .new _ _

theorem Fresh.conserved (fresh : Fresh maxSent core) : core.toStreams.Conserved := by
  obtain ⟨side, ticket, table⟩ := fresh.table
  obtain ⟨_, _, flow, -⟩ := freshTable_isFresh side maxSent ticket
  rw [table]
  exact (Streams.Conserved.new ..).of_flow flow

end Fresh

/-- In every run stream ids are handed out in order. -/
theorem Acts.numbered (acts : Acts first second)
    (inv : SendingView.Numbered first.side first.toStreams.sending) :
    SendingView.Numbered second.side second.toStreams.sending := by
  have kept := Steps.rule (motive := fun view => SendingView.Numbered first.side view.table.sending)
    (fun _ _ step => step.numbered) acts.steps inv
  have sameSide : second.side = first.side := kept.side
  rw [sameSide]
  exact kept

end Core

namespace Connection

variable {T C : Type} [TlsSession T]

open Quic.Core

/-! ## Runs -/

theorem acts_newClient (tls : T) (cc : C) (dcid scid : ConnectionId)
    (maxSent : Dir → Nat) (ticket : Option TransportParameters)
    (keepaliveInterval createdAt : Nat) :
    ∃ start, Fresh maxSent start ∧ Acts start
      (newClient tls cc dcid scid maxSent ticket keepaliveInterval createdAt).core := by
  have keyed := core_setKeys
    (new .client tls cc dcid dcid scid 0 2 maxSent keepaliveInterval createdAt) .initial
    (some (TlsSession.initialKeys (T := T) dcid .client))
  refine ⟨_, .client tls dcid scid ticket, ?_⟩
  refine .trans (.of_eq ?_) (acts_pumpWrite _)
  cases ticket with
  | none => exact keyed
  | some params =>
    exact congrArg
      (fun core =>
        core.mapTable (·.applyRememberedTransportParams params)) keyed

variable {maxSent : Dir → Nat} {start conn : Connection T C}

theorem Starts.acts (starts : Starts maxSent start) :
    ∃ fresh, Fresh maxSent fresh ∧ Acts fresh start.core := by
  cases starts with
  | client tls cc dcid scid ticket keepalive createdAt =>
    exact acts_newClient tls cc dcid scid maxSent ticket keepalive createdAt
  | server tls _ scid => exact ⟨_, .server tls scid, .refl _⟩

variable [Controller C]

inductive Advances : Connection T C → Connection T C → Prop
  | event {conn next : Connection T C} {event : Event}
      (known : event.Known conn) (taken : conn.step event = some next) :
      Advances conn next
  | frame {conn : Connection T C} {level : PacketSpace} {frameType : Nat}
      {frame : Frame}
      (keyed : level = .oneRtt → (conn.spaces .data).keys.isSome = true)
      (permitted : framePermitted level conn.side frameType = true)
      (typed : frame.HasType frameType)
      (receiveGeneration : Option Nat) (now : Nat) :
      Advances conn (conn.processFrame ⟨spaceIndex level, receiveGeneration, now⟩ frameType frame).1

/-- The states of a run, those between the frames of a packet included. -/
def FrameRuns : Connection T C → Connection T C → Prop := Relation.ReflTransGen Advances

theorem Runs.frames (runs : Runs start conn) : FrameRuns start conn := by
  refine Relation.ReflTransGen.mono ?_ _ _ runs
  rintro _ _ ⟨event, known, taken⟩
  exact .event known taken

variable {later : Connection T C}

/-- Ids in order, so that every event and every frame is made of acts. -/
theorem FrameRuns.between (inv : SendingView.Numbered conn.core.side conn.core.toStreams.sending)
    (runs : FrameRuns conn later) : Acts conn.core later.core := by
  induction runs with
  | refl => exact .refl _
  | tail _ advances ih =>
    have inv := ih.numbered inv
    cases advances with
    | event known taken => exact ih.trans (acts_step inv.bidi inv.uni known taken)
    | frame keyed permitted typed receiveGeneration now =>
      exact ih.trans (acts_processFrame keyed permitted typed receiveGeneration now)

theorem FrameRuns.acts (starts : Starts maxSent start) (runs : FrameRuns start conn) :
    ∃ fresh, Fresh maxSent fresh ∧ Acts fresh conn.core := by
  obtain ⟨fresh, isFresh, acts⟩ := starts.acts
  exact ⟨fresh, isFresh, acts.trans (runs.between (acts.numbered isFresh.numbered))⟩

theorem FrameRuns.core_rule {motive : Core T → Prop}
    (fresh : ∀ core, Fresh maxSent core → motive core)
    (kept : ∀ first second, Act first second → motive first → motive second)
    (starts : Starts maxSent start)
    (runs : FrameRuns start conn) : motive conn.core := by
  obtain ⟨_, isFresh, acts⟩ := runs.acts starts
  exact acts.rule kept (fresh _ isFresh)

theorem reachable_rule {motive : Delivery → Prop}
    (fresh : ∀ table, FreshTable table → motive (Delivery.fresh table))
    (kept : ∀ first second, Step first second → motive first → motive second)
    (reachable : Reachable conn) : motive conn.core.delivery := by
  obtain ⟨_, _, starts, runs⟩ := reachable_runs reachable
  obtain ⟨_, isFresh, acts⟩ := runs.frames.acts starts
  obtain ⟨side, ticket, table⟩ := isFresh.table
  apply Steps.rule kept acts.steps
  rw [isFresh.delivery, table]
  exact fresh _ (freshTable_isFresh side _ ticket)

theorem FrameRuns.table_rule {motive : Streams → Prop}
    (fresh : ∀ side ticket, motive (freshTable side maxSent ticket))
    (kept : ∀ first second, Streams.Edit first second → motive first → motive second)
    (starts : Starts maxSent start)
    (runs : FrameRuns start conn) : motive conn.toStreams := by
  obtain ⟨_, isFresh, acts⟩ := runs.acts starts
  obtain ⟨side, ticket, table⟩ := isFresh.table
  apply (acts.steps.edits isFresh.conserved).rule kept
  have holds := fresh side ticket
  rw [← table] at holds
  exact holds

/-- From one state of a run on, the table changes by edits only. -/
theorem FrameRuns.edits (starts : Starts maxSent start)
    (runs : FrameRuns start conn) (onward : FrameRuns conn later) :
    Streams.Edits conn.toStreams later.toStreams := by
  obtain ⟨_, isFresh, acts⟩ := runs.acts starts
  have inv : conn.core.delivery.table.Conserved :=
    Delivery.Steps.rule (motive := fun view => view.table.Conserved)
      (fun _ _ step => step.conserved) acts.steps isFresh.conserved
  exact (onward.between (acts.numbered isFresh.numbered)).steps.edits inv

/-! ## Receive credit -/

theorem reachable_conserved (reachable : Reachable conn) : conn.toStreams.Conserved := by
  have inv := reachable_rule (motive := fun view => view.table.Conserved) ?_ ?_ reachable
  · exact inv
  · intro _ isFresh
    obtain ⟨_, _, flow, -⟩ := isFresh
    exact (Streams.Conserved.new ..).of_flow flow
  · intro _ _ step inv
    exact step.conserved inv

/-- Receive credit is conserved in every run: no stream releases more than it
received, the connection owes exactly what its live streams hold, it stays
within the window it granted, and a retired stream has released
everything. -/
theorem reachable_credit {conn : Connection T C} (reachable : Reachable conn) :
    (∀ (id : Nat) (stream : Stream), conn.streams[id]? = some stream →
        stream.recvCredited ≤ stream.recvHigh) ∧
      conn.recvDataTotal - conn.recvDataConsumed =
        total (fun _ (stream : Stream) =>
          stream.recvHigh - stream.recvCredited) conn.streams ∧
      conn.recvDataConsumed ≤ conn.recvDataTotal ∧
      conn.recvDataTotal ≤ conn.recvMaxData ∧
      conn.recvMaxData = conn.recvDataConsumed + CONN_RECV_WINDOW ∧
      ∀ entry ∈ conn.retired, entry.2.recvHigh = entry.2.recvCredited := by
  have conserved := reachable_conserved reachable
  have outstanding := conserved.outstanding
  refine ⟨?_, ?_, ?_, conserved.limited, conserved.window, conserved.settled⟩
  · intro id stream present
    exact (conserved.balanced id _ (Streams.account_of_lookup present)).credited_le
  · have held : conn.heldCredit =
        total (fun _ (stream : Stream) =>
          stream.recvHigh - stream.recvCredited) conn.streams := rfl
    omega
  · omega

def exampleParams : TransportParameters :=
  { initialMaxData := 1000
    initialMaxStreamDataBidiLocal := 1000
    initialMaxStreamDataBidiRemote := 1000
    initialMaxStreamDataUni := 1000
    initialMaxStreamsBidi := 8
    initialMaxStreamsUni := 8
    ackDelayExponent := 3
    maxAckDelayMs := 25 }

def servingExample : Connection ScriptedTls FixedWindow :=
  newServer (.ready .server exampleParams) ⟨12000⟩ .empty (fun _ => MAX_PEER_STREAMS) KEEP_ALIVE_MIN 0

theorem reachable_credit_reading :
    ∃ conn : Connection ScriptedTls FixedWindow, conn.Reachable ∧
      conn.recvDataTotal = 3 ∧ conn.recvDataConsumed = 1 ∧
      conn.recvDataTotal - conn.recvDataConsumed =
        total (fun _ (stream : Stream) =>
          stream.recvHigh - stream.recvCredited) conn.streams := by
  have start : servingExample.Reachable := .server ..
  have ahead := @Reachable.step _ _ _ _ _ _ (.recvStream 0 2 false [3]) start trivial rfl
  have filled := @Reachable.step _ _ _ _ _ _ (.recvStream 0 0 false [1]) ahead trivial rfl
  have read := @Reachable.step _ _ _ _ _ _ (.readStream 0) filled trivial rfl
  exact ⟨_, read, rfl, rfl, (reachable_credit read).2.1⟩

def openingExample : Connection ScriptedTls FixedWindow :=
  newClient (.ready .client exampleParams) ⟨12000⟩ .empty .empty (fun _ => 0) none KEEP_ALIVE_MIN 0

/-- A STREAM or RESET_STREAM frame that breaks a rule of its stream leaves the
connection as it was: no stream is opened or queued and no credit is
charged. -/
theorem rejected_frame_changes_nothing {S D : Type} (conn : Connection S D)
    {errorCode frameType : Nat} {reason : String}
    (violation : errorCode ∈ Streams.STREAM_VIOLATIONS) :
    (∀ id offset fin data, (conn.onStreams (·.recvStream id offset fin data)).2 =
          .error (.transport errorCode frameType reason) →
        (conn.onStreams (·.recvStream id offset fin data)).1 = conn) ∧
      ∀ id resetCode finalSize, (conn.onStreams (·.recvResetStream id resetCode finalSize)).2 =
            .error (.transport errorCode frameType reason) →
          (conn.onStreams (·.recvResetStream id resetCode finalSize)).1 = conn := by
  constructor
  · intro id _ _ _ rejected
    have kept := Streams.recvStream_rejected violation rejected
    rw [onStreams, kept]
  · intro _ _ _ rejected
    have kept := Streams.recvResetStream_rejected rejected
    rw [onStreams, kept]

/-- A new stream that starts beyond its window. -/
theorem rejected_frame_changes_nothing_window :
    (servingExample.onStreams (·.recvStream 4 STREAM_RECV_WINDOW false [7])).2 =
        .error (.transport 0x03 0x08 "peer exceeded the stream receive window") ∧
      (servingExample.onStreams (·.recvStream 4 STREAM_RECV_WINDOW false [7])).1 = servingExample :=
  ⟨rfl, (rejected_frame_changes_nothing servingExample (by decide)).1 _ _ _ _ rfl⟩

end Connection

end ParallaX.Quic
