import ParallaX.Quic.PeerStreams

/-!
# Credit of the peer

The limits that the peer grants to this endpoint, in its transport parameters
and in MAX_DATA, MAX_STREAM_DATA and MAX_STREAMS frames, and which of them a
connection honours later.
-/

namespace ParallaX.Quic

open ParallaX.Data List Option Streams

/-! ## Grants -/

inductive Grant where
  | maxData (limit : Nat)
  | maxStreamData (id limit : Nat)
  | maxStreams (dir : Dir) (limit : Nat)
  | params (params : TransportParameters)
deriving DecidableEq, Repr

def Frame.grant? : Frame → Option Grant
  | .maxData limit => some (.maxData limit)
  | .maxStreamData id limit => some (.maxStreamData id limit)
  | .maxStreams dir limit => some (.maxStreams dir limit)
  | _ => none

namespace TransportParameters

def maxStreams (params : TransportParameters) : Dir → Nat
  | .bidi => params.initialMaxStreamsBidi
  | .uni => params.initialMaxStreamsUni

def streamLimit (params : TransportParameters) (peerInitiated : Bool) (id : Nat) : Nat :=
  if isUni id then params.initialMaxStreamDataUni
  else if peerInitiated then params.initialMaxStreamDataBidiLocal
  else params.initialMaxStreamDataBidiRemote

end TransportParameters

namespace Streams

def Honours (table : Streams) : Grant → Prop
  | .maxData limit => limit ≤ table.sendMaxData
  | .maxStreamData id limit =>
    ∀ stream : Stream, table.streams[id]? = some stream → limit ≤ stream.sendMax
  | .maxStreams dir limit => limit ≤ table.sendMaxStreams dir
  | .params params =>
    params.initialMaxData ≤ table.sendMaxData ∧
      (∀ dir, params.maxStreams dir ≤ table.sendMaxStreams dir) ∧
      ∀ (id : Nat) (stream : Stream), table.streams[id]? = some stream →
        params.streamLimit (table.isPeerInitiated id) id ≤ stream.sendMax

/-- What keeps a grant honoured from now on. -/
def Secures (table : Streams) : Grant → Prop
  | .maxData limit => limit ≤ table.sendMaxData
  | .maxStreamData id limit =>
    (∃ stream : Stream, table.streams[id]? = some stream ∧
      limit ≤ stream.sendMax) ∨ table.peers.Gone id
  | .maxStreams dir limit => limit ≤ table.sendMaxStreams dir
  | .params params =>
    table.peerFlowApplied = true ∧
      params.initialMaxData ≤ table.sendMaxData ∧
      (∀ dir, params.maxStreams dir ≤ table.sendMaxStreams dir) ∧
      (∀ id, table.peerSendLimit id = params.streamLimit (table.isPeerInitiated id) id) ∧
      ∀ (id : Nat) (stream : Stream), table.streams[id]? = some stream →
        table.peerSendLimit id ≤ stream.sendMax

variable {table : Streams} (params : TransportParameters) {grant : Grant}

theorem Secures.honours (secures : table.Secures grant) : table.Honours grant := by
  cases grant with
  | maxData | maxStreams => exact secures
  | maxStreamData id =>
    intro stream present
    rcases secures with ⟨found, lookup, enough⟩ | ⟨absent, -⟩
    · obtain rfl : found = stream := Option.some.inj (lookup.symm.trans present)
      exact enough
    · have none := lookup_eq_none absent
      rw [none] at present
      cases present
  | params =>
    obtain ⟨-, data, streams, limits, each⟩ := secures
    refine ⟨data, streams, ?_⟩
    intro id stream present
    rw [← limits]
    exact each id stream present

/-! ## Edits only raise limits -/

/-- No limit went down; streams are new with the initial limit, or kept, or
gone. -/
structure Raises (first second : Streams) : Prop where
  data : first.sendMaxData ≤ second.sendMaxData
  streams : ∀ dir, first.sendMaxStreams dir ≤ second.sendMaxStreams dir
  side : second.side = first.side
  applied : second.peerFlowApplied = first.peerFlowApplied
  limits : ∀ id, second.peerSendLimit id = first.peerSendLimit id
  kept : ∀ (id : Nat) (stream : Stream), first.streams[id]? = some stream →
    (∃ later : Stream, second.streams[id]? = some later ∧
      stream.sendMax ≤ later.sendMax) ∨ second.peers.Gone id
  opened : ∀ (id : Nat) (later : Stream), second.streams[id]? = some later →
    (∃ stream : Stream, first.streams[id]? = some stream ∧
      stream.sendMax ≤ later.sendMax) ∨ first.peerSendLimit id ≤ later.sendMax
  gone : ∀ id, first.peers.Gone id → second.peers.Gone id

namespace Raises

variable {first second third : Streams} (table : Streams)

theorem refl : Raises table table where
  data := le_rfl
  streams _ := le_rfl
  side := rfl
  applied := rfl
  limits _ := rfl
  kept _ stream found := .inl ⟨stream, found, le_rfl⟩
  opened _ stream found := .inl ⟨stream, found, le_rfl⟩
  gone _ gone := gone

theorem trans (raises : Raises first second) (more : Raises second third) : Raises first third where
  data := le_trans raises.data more.data
  streams dir := le_trans (raises.streams dir) (more.streams dir)
  side := more.side.trans raises.side
  applied := more.applied.trans raises.applied
  limits id := (more.limits id).trans (raises.limits id)
  kept id stream present := by
    rcases raises.kept id stream present with ⟨middle, lookup, grew⟩ | gone
    · rcases more.kept id middle lookup with ⟨later, found, grewMore⟩ | gone
      · exact .inl ⟨later, found, le_trans grew grewMore⟩
      · exact .inr gone
    · exact .inr (more.gone id gone)
  opened id later present := by
    rcases more.opened id later present with ⟨middle, lookup, grewMore⟩ | new
    · rcases raises.opened id middle lookup with ⟨stream, found, grew⟩ | new
      · exact .inl ⟨stream, found, le_trans grew grewMore⟩
      · exact .inr (le_trans new grewMore)
    · rw [raises.limits] at new
      exact .inr new
  gone id gone := more.gone id (raises.gone id gone)

theorem secures (raises : Raises first second) {grant : Grant}
    (secures : first.Secures grant) : second.Secures grant := by
  cases grant with
  | maxData => exact le_trans secures raises.data
  | maxStreamData id =>
    rcases secures with ⟨stream, present, enough⟩ | gone
    · rcases raises.kept id stream present with ⟨later, found, grew⟩ | gone
      · exact .inl ⟨later, found, le_trans enough grew⟩
      · exact .inr gone
    · exact .inr (raises.gone id gone)
  | maxStreams dir => exact le_trans secures (raises.streams dir)
  | params =>
    obtain ⟨applied, data, streams, limits, each⟩ := secures
    refine ⟨raises.applied.trans applied, le_trans data raises.data,
      fun dir => le_trans (streams dir) (raises.streams dir), ?_, ?_⟩
    · intro id
      rw [raises.limits, limits, isPeerInitiated_of_side raises.side]
    · intro id later present
      rw [raises.limits]
      rcases raises.opened id later present with
        ⟨stream, found, grew⟩ | new
      · exact le_trans (each id stream found) grew
      · exact new

theorem modify (id : Nat) {change : Stream → Stream}
    (limit : ∀ stream, stream.sendMax ≤ (change stream).sendMax) :
    Raises table (table.modifyStream id change) where
  data := le_rfl
  streams _ := le_rfl
  side := rfl
  applied := rfl
  limits _ := rfl
  kept other stream found := by
    left
    rw [lookup_modifyStream]
    by_cases same : id = other
    · subst same
      rw [if_pos rfl, found]
      exact ⟨change stream, rfl, limit stream⟩
    · rw [if_neg same]
      exact ⟨stream, found, le_rfl⟩
  opened other later found := by
    obtain ⟨old, before, after⟩ := lookup_modify_eq_some found
    refine .inl ⟨old, before, ?_⟩
    rw [after]
    split
    · exact limit old
    · exact le_rfl
  gone other gone := by
    rw [peers_modifyStream]
    exact gone

theorem map {change : Nat → Stream → Stream}
    (limit : ∀ id stream, stream.sendMax ≤ (change id stream).sendMax) :
    Raises table { table with streams := table.streams.map change } where
  data := le_rfl
  streams _ := le_rfl
  side := rfl
  applied := rfl
  limits _ := rfl
  kept id stream present := by
    refine .inl ⟨change id stream, ?_, limit id stream⟩
    rw [Std.TreeMap.getElem?_map, present]
    rfl
  opened id later present := by
    rw [Std.TreeMap.getElem?_map] at present
    obtain ⟨stream, found, rfl⟩ := map_eq_some_iff.mp present
    exact .inl ⟨stream, found, limit id stream⟩
  gone id gone := by
    rw [(sameIds_map table change).peers rfl]
    exact gone

theorem insert {table next : Streams} {id : Nat} (stream : Stream)
    (absent : table.streams.contains id = false)
    (streams : ∀ other : Nat, next.streams[other]? =
      if id = other then some stream else table.streams[other]?)
    (initial : table.peerSendLimit id ≤ stream.sendMax) (side : next.side = table.side)
    (applied : next.peerFlowApplied = table.peerFlowApplied)
    (data : next.sendMaxData = table.sendMaxData)
    (counts : next.sendMaxStreams = table.sendMaxStreams)
    (limits : ∀ id, next.peerSendLimit id = table.peerSendLimit id)
    (gone : ∀ other, table.peers.Gone other → next.peers.Gone other) : Raises table next where
  data := le_of_eq data.symm
  streams dir := by rw [counts]
  side := side
  applied := applied
  limits := limits
  kept other old found := by
    left
    have different : id ≠ other := by
      rintro rfl
      have none := lookup_eq_none absent
      rw [none] at found
      cases found
    rw [streams, if_neg different]
    exact ⟨old, found, le_rfl⟩
  opened other later found := by
    rw [streams] at found
    by_cases same : id = other
    · subst same
      rw [if_pos rfl] at found
      cases found
      exact .inr initial
    · rw [if_neg same] at found
      exact .inl ⟨later, found, le_rfl⟩
  gone := gone

end Raises

theorem limits_retireStream (table : Streams) (id : Nat) :
    (table.retireStream id).sendMaxData = table.sendMaxData ∧
      (table.retireStream id).sendMaxStreams = table.sendMaxStreams ∧
      (∀ other, (table.retireStream id).peerSendLimit other = table.peerSendLimit other) ∧
      (table.retireStream id).peerFlowApplied = table.peerFlowApplied := by
  unfold retireStream
  repeat' split
  all_goals exact ⟨rfl, rfl, fun _ => rfl, rfl⟩

theorem limits_openNext (table : Streams) (id : Nat) :
    (table.openNext id).sendMaxData = table.sendMaxData ∧
      (table.openNext id).sendMaxStreams = table.sendMaxStreams ∧
      (∀ other, (table.openNext id).peerSendLimit other = table.peerSendLimit other) ∧
      (table.openNext id).peerFlowApplied = table.peerFlowApplied := by
  rw [openNext, openPeerStream_eq]
  exact ⟨rfl, rfl, fun _ => rfl, rfl⟩

theorem limits_advanceNext (table : Streams) (id : Nat) :
    (table.advanceNext id).sendMaxData = table.sendMaxData ∧
      (table.advanceNext id).sendMaxStreams = table.sendMaxStreams ∧
      (table.advanceNext id).streams = table.streams ∧
      (table.advanceNext id).side = table.side ∧
      (∀ other, (table.advanceNext id).peerSendLimit other = table.peerSendLimit other) ∧
      (table.advanceNext id).peerFlowApplied = table.peerFlowApplied := by
  unfold advanceNext
  repeat' split
  all_goals exact ⟨rfl, rfl, rfl, rfl, fun _ => rfl, rfl⟩

theorem raises_retire (inv : table.peers.Enclosed) (id : Nat) :
    Raises table (table.retireStream id) := by
  obtain ⟨data, counts, limits, applied⟩ := limits_retireStream table id
  rcases retireStream_cases table id with same | ⟨_, retires⟩
  · rw [same]
    exact .refl table
  have held : table.streams.contains id = true := by
    rw [contains_eq_isSome, retires.present, isSome_some]
  have view := peers_retireStream retires.present retires.ready
  exact
    { data := le_of_eq data.symm
      streams dir := le_of_eq (congrFun counts dir).symm
      side := retires.side
      applied := applied
      limits := limits
      kept := by
        intro other old found
        by_cases same : id = other
        · rw [view, ← same]
          exact .inr (inv.gone_retire held)
        · rw [retires.lookup, if_neg same]
          exact .inl ⟨old, found, le_rfl⟩
      opened := by
        intro other later found
        rw [retires.lookup] at found
        by_cases same : id = other
        · rw [if_pos same] at found
          cases found
        · rw [if_neg same] at found
          exact .inl ⟨later, found, le_rfl⟩
      gone := by
        intro _ gone
        rw [view]
        exact gone.retire id }

theorem raises_openNext (inv : table.peers.Enclosed) {id : Nat}
    (peer : table.isPeerInitiated id = true)
    (ordinal : table.peerStreamsOpened (kindOf id) = id / 4) :
    Raises table (table.openNext id) := by
  obtain ⟨data, counts, limits, applied⟩ := limits_openNext table id
  have absent := absent_of_frontier inv peer ordinal
  refine .insert _ absent (lookup_openNext table id) le_rfl
    (side_openPeerStream table id) applied data counts limits ?_
  intro _ gone
  rw [peers_openNext peer absent]
  exact gone.openNext peer ordinal

theorem raises_openOwn {id : Nat} (own : table.isPeerInitiated id = false)
    (alive : table.streamRetired id = false) (absent : table.streams.contains id = false) :
    Raises table (table.openOwn id) := by
  obtain ⟨data, counts, streams, side, limits, applied⟩ := limits_advanceNext
    (modifyStream { table with streams := table.streams.insert id .fresh } id
      fun stream =>
        { stream with sendMax := max stream.sendMax (table.peerSendLimit id) }) id
  refine .insert
    { Stream.fresh with sendMax := max 0 (table.peerSendLimit id) } absent ?_
    (le_max_right _ _) side applied data counts limits ?_
  · intro other
    rw [openOwn, streams]
    refine (lookup_modify ..).trans ?_
    rw [lookup_insert_self, lookup_insert]
    by_cases same : id = other
    · rw [if_pos same, if_pos same]
      rfl
    · rw [if_neg same, if_neg same, if_neg same]
  · intro _ gone
    rw [peers_openOwn own absent]
    exact gone.create own (nextOwn_le_of_alive own alive absent)

theorem Edit.raises {first second : Streams} (edit : Edit first second)
    (inv : first.peers.Enclosed) :
    Raises first second ∨ (first.peerFlowApplied = false ∧ second.peerFlowApplied = true) := by
  have same := Raises.refl first
  cases edit with
  | gentle id kept => exact .inl (.modify first id kept.limit)
  | everywhere kept => exact .inl (.map first fun id => (kept id).limit)
  | @hold id _ offset data =>
    have raises : Raises first (first.modifyStream id (·.hold offset data)) :=
      .modify first id fun _ => le_rfl
    exact .inl { raises with }
  | @absorb id stream offset data =>
    have raises : Raises first (first.modifyStream id (·.absorb
        (drainContiguous stream.recvPending stream.recvOff offset data stream.recv))) :=
      .modify first id fun _ => le_rfl
    exact .inl { raises with }
  | read | late => exact .inl (.modify first _ fun _ => le_rfl)
  | @drop id _ _ _ _ limit =>
    have raises := Raises.modify first id limit
    exact .inl { raises with }
  | retire id => exact .inl (raises_retire inv id)
  | @openPeer _ count peer =>
    left
    have opened := openBlock_rule (motive := fun table =>
      table.peers.Enclosed ∧ Raises first table) ?_ peer ⟨inv, same⟩
      count
    · exact opened.2
    rintro _ _ ⟨inv, raises⟩ isPeer ordinal
    refine ⟨?_, raises.trans (raises_openNext inv isPeer ordinal)⟩
    rw [peers_openNext isPeer (absent_of_frontier inv isPeer ordinal)]
    exact inv.openNext isPeer ordinal
  | create own alive absent => exact .inl (raises_openOwn own alive absent)
  | @advance id =>
    left
    obtain ⟨data, counts, streams, side, limits, applied⟩ := limits_advanceNext first id
    refine ⟨le_of_eq data.symm, fun dir => le_of_eq (congrFun counts dir).symm, side, applied,
      limits, ?_, ?_, ?_⟩
    · rw [streams]
      exact fun other stream found =>
        .inl ⟨stream, found, le_rfl⟩
    · rw [streams]
      exact same.opened
    · intro other gone
      rw [peers_advanceNext]
      exact gone.advance id
  | learn params unapplied =>
    obtain ⟨change, -, shape⟩ := ensurePeerFlow_shape params unapplied
    rw [shape]
    exact .inr ⟨unapplied, rfl⟩
  | raiseMaxData =>
    exact .inl { same with data := le_max_left _ _ }
  | raiseMaxStreams dir =>
    refine .inl { same with streams := fun other => ?_ }
    change _ ≤ Function.update first.sendMaxStreams dir _ other
    by_cases isDir : other = dir
    · rw [isDir, Function.update_self]
      exact le_max_left _ _
    · rw [Function.update_of_ne isDir]
  | _ => exact .inl { same with }

theorem Edits.raises {first second : Streams} (edits : Edits first second)
    (inv : first.peers.Enclosed) :
    second.peers.Enclosed ∧ (second.peerFlowApplied = first.peerFlowApplied → Raises first second) ∧
      (first.peerFlowApplied = true → second.peerFlowApplied = true) := by
  induction edits with
  | refl => exact ⟨inv, fun _ => .refl first, fun applied => applied⟩
  | tail _ edit ih =>
    obtain ⟨inv, raises, stays⟩ := ih
    refine ⟨(edit.enclosed inv).1, ?_, ?_⟩
    · intro same
      rcases edit.raises inv with more | ⟨before, after⟩
      · exact (raises (more.applied.symm.trans same)).trans more
      · -- the parameters were not applied before the edit, so not at first
        rw [after] at same
        have early := stays same.symm
        rw [before] at early
        cases early
    · intro applied
      rcases edit.raises inv with more | ⟨-, after⟩
      · exact more.applied.trans (stays applied)
      · exact after

/-! ## The parameters of the peer -/

theorem ensurePeerFlow_unapplied (unapplied : table.peerFlowApplied = false) :
    table.ensurePeerFlow (some params) =
      raiseSendMax
        { table with
          sendMaxData := params.initialMaxData
          peerMsdBidiLocal := params.initialMaxStreamDataBidiLocal
          peerMsdBidiRemote := params.initialMaxStreamDataBidiRemote
          peerMsdUni := params.initialMaxStreamDataUni
          sendMaxStreams := fun
            | .bidi => max (table.sendMaxStreams .bidi) params.initialMaxStreamsBidi
            | .uni => max (table.sendMaxStreams .uni) params.initialMaxStreamsUni
          peerFlowApplied := true } := by
  exact if_neg (by simp [unapplied])

theorem secures_params (unapplied : table.peerFlowApplied = false) :
    (table.ensurePeerFlow (some params)).Secures (.params params) := by
  rw [ensurePeerFlow_unapplied params unapplied]
  refine ⟨rfl, le_rfl, ?_, fun _ => rfl, ?_⟩
  · intro dir
    cases dir with
    | bidi | uni => exact le_max_right _ _
  · intro id later found
    change (table.streams.map _)[id]? = some later at found
    rw [Std.TreeMap.getElem?_map] at found
    obtain ⟨_, -, rfl⟩ := map_eq_some_iff.mp found
    exact le_max_right _ _

/-- The parameters of the peer assign the limit of the connection and raise the
others, so that what was granted before stays secured if it is no more than
the parameters grant. -/
theorem Secures.learn (secures : table.Secures grant)
    {params : TransportParameters} (unapplied : table.peerFlowApplied = false)
    (timely : ∀ limit, grant = .maxData limit → limit ≤ params.initialMaxData) :
    (table.ensurePeerFlow (some params)).Secures grant := by
  have view := peers_learn table params
  have raised : ∀ (id : Nat) (stream : Stream), table.streams[id]? = some stream →
        ∃ later : Stream, (table.ensurePeerFlow (some params)).streams[id]? = some later ∧
            stream.sendMax ≤ later.sendMax := by
    obtain ⟨change, kept, shape⟩ := ensurePeerFlow_shape params unapplied
    intro id stream present
    rw [shape]
    refine ⟨change id stream, ?_, (kept id).limit stream⟩
    rw [Std.TreeMap.getElem?_map, present]
    rfl
  rw [ensurePeerFlow_unapplied params unapplied] at view raised ⊢
  cases grant with
  | maxData limit => exact timely limit rfl
  | maxStreamData id =>
    rcases secures with ⟨stream, present, enough⟩ | gone
    · obtain ⟨later, found, grew⟩ := raised id stream present
      exact .inl ⟨later, found, le_trans enough grew⟩
    · right
      rw [view]
      exact gone
  | maxStreams dir =>
    cases dir with
    | bidi | uni => exact le_trans secures (le_max_left _ _)
  | params =>
    rw [secures.1] at unapplied
    cases unapplied

end Streams

/-! ## Runs -/

namespace Connection

def Event.creates? {T C : Type} (conn : Connection T C) : Event → Option Nat
  | .openBi => some conn.nextBidi
  | .openUni => some conn.nextUni
  | .sendStream id _ | .resetStream id _ | .cancelStream id _ => some id
  | _ => none

variable {T C : Type} [TlsSession T] [Controller C]

/-- One step of a run with what the peer grants in it. The parameters of the
peer are applied when a stream is created, by a call or for STOP_SENDING. -/
inductive Applies :
    Connection T C → Option Grant → Connection T C → Prop
  | frame {conn : Connection T C} {context : FrameContext} {frameType : Nat}
      {frame : Frame} {grant : Grant} (grants : frame.grant? = some grant)
      (accepted : (conn.processFrame context frameType frame).2 = .ok ())
      (advances : Advances conn (conn.processFrame context frameType frame).1) :
      Applies conn (some grant) (conn.processFrame context frameType frame).1
  | call {conn next : Connection T C} {event : Event} {id : Nat}
      {params : TransportParameters} (creates : event.creates? conn = some id)
      (alive : conn.streamRetired id = false)
      (unapplied : conn.peerFlowApplied = false)
      (parsed : conn.peerParams = some params) (known : event.Known conn)
      (taken : conn.step event = some next) :
      Applies conn (some (.params params)) next
  | stopSending {conn : Connection T C} {context : FrameContext}
      {frameType id errorCode : Nat} {params : TransportParameters}
      (alive : conn.streamRetired id = false)
      (unapplied : conn.peerFlowApplied = false)
      (parsed : conn.peerParams = some params)
      (accepted : (conn.processFrame context frameType (.stopSending id errorCode)).2 = .ok ())
      (advances : Advances conn (conn.processFrame context frameType
        (.stopSending id errorCode)).1) :
      Applies conn (some (.params params))
        (conn.processFrame context frameType (.stopSending id errorCode)).1
  | other {conn next : Connection T C} (advances : Advances conn next)
      (same : next.peerFlowApplied = conn.peerFlowApplied) :
      Applies conn none next

/-- The grant comes when the connection has a place for it: MAX_STREAM_DATA for
a stream that is there or finished, and parameters that grant no less than the
MAX_DATA frames before them. -/
def Timely (conn : Connection T C) (granted : List Grant) : Grant → Prop
  | .maxStreamData id _ => conn.streams.contains id = true ∨ conn.streamRetired id = true
  | .params params => ∀ limit, .maxData limit ∈ granted → limit ≤ params.initialMaxData
  | _ => True

/-- A run with all that the peer granted in it, each grant in time. -/
inductive Granted (start : Connection T C) :
    List Grant → Connection T C → Prop
  | start : Granted start [] start
  | step {granted : List Grant} {made : Option Grant}
      {conn next : Connection T C} (before : Granted start granted conn)
      (applies : Applies conn made next)
      (timely : ∀ grant ∈ made, conn.Timely granted grant) :
      Granted start (granted ++ made.toList) next

variable {conn : Connection T C} {granted : List Grant} {params : TransportParameters}
  {context : FrameContext} {maxSent : Dir → Nat} {next start : Connection T C} {event : Event}
  {id : Nat} {frame : Frame} {grant : Grant} (limit : Nat)

theorem Applies.advances {made : Option Grant}
    (applies : Applies conn made next) : Advances conn next := by
  cases applies with
  | frame _ _ advances | stopSending _ _ _ _ advances | other advances => exact advances
  | call _ _ _ _ known taken => exact .event known taken

theorem Granted.frameRuns (run : Granted start granted conn) : FrameRuns start conn := by
  induction run with
  | start => exact .refl
  | step _ applies _ ih => exact ih.tail applies.advances

omit [TlsSession T] [Controller C] in
/-- The application opens its own streams, and names others that it knows. -/
theorem known_of_creates (ownBidi : conn.toStreams.isPeerInitiated conn.nextBidi = false)
    (ownUni : conn.toStreams.isPeerInitiated conn.nextUni = false)
    (creates : event.creates? conn = some id) (known : event.Known conn) :
    conn.toStreams.known id = true := by
  have opens other : conn.toStreams.isPeerInitiated other = false →
      conn.toStreams.known other = true := by
    intro own
    simp [Streams.known, own]
  cases event with
  | openBi =>
    cases creates
    exact opens _ ownBidi
  | openUni =>
    cases creates
    exact opens _ ownUni
  | sendStream | resetStream | cancelStream =>
    cases creates
    exact known
  | _ => cases creates

theorem edits_call (creates : event.creates? conn = some id) (alive : conn.streamRetired id = false)
    (parsed : conn.peerParams = some params) (known : conn.toStreams.known id = true)
    (taken : conn.step event = some next) :
    Streams.Edits (conn.ensurePeerFlow (some params)) next.toStreams := by
  have created := edits_createLocalStream_applied known alive (some params)
  cases event with
  | openBi | openUni =>
    cases creates
    cases taken
    rw [← parsed] at created ⊢
    exact created
  | sendStream =>
    cases creates
    cases taken
    rw [← parsed] at created ⊢
    exact created.trans (edits_queueData ..)
  | resetStream =>
    cases creates
    cases taken
    rw [← parsed] at created ⊢
    exact created.trans (edits_stopSend ..)
  | cancelStream =>
    cases creates
    cases taken
    rw [← parsed] at created ⊢
    exact ((created.trans (edits_stopSend ..)).trans
      (edits_markCancelled ..)).trans (edits_discardStreamRecv _ _)
  | _ => cases creates

theorem edits_stopSending {ty code : Nat} (alive : conn.streamRetired id = false)
    (unapplied : conn.peerFlowApplied = false) (parsed : conn.peerParams = some params)
    (accepted : (conn.processFrame context ty (.stopSending id code)).2 = .ok ()) :
    ∃ ensured, Streams.Edits conn.toStreams ensured ∧ ensured.peerFlowApplied = false ∧
      Streams.Edits (ensured.ensurePeerFlow (some params))
        (conn.processFrame context ty (.stopSending id code)).1.toStreams := by
  have opens := edits_ensureStream ty alive
  have applied : (conn.ensureStream id ty).1.peerFlowApplied = false :=
    ensureStream_rule (motive := fun table => table.peerFlowApplied = false)
      (fun table next holds _ _ =>
        (limits_openNext table next).2.2.2.trans holds) alive unapplied
  change (conn.recvStopSending id code ty).2 = .ok () at accepted
  change ∃ ensured, _ ∧ _ ∧ Streams.Edits _
    (conn.recvStopSending id code ty).1.toStreams
  unfold recvStopSending at accepted ⊢
  split at accepted
  · cases accepted
  rename_i receives
  rw [alive, if_neg Bool.false_ne_true] at accepted
  rw [if_neg receives, alive, if_neg Bool.false_ne_true]
  split at accepted
  · cases accepted
  rename_i opened
  rw [if_neg opened, parsed]
  dsimp only [onStreams] at accepted ⊢
  cases outcome : conn.ensureStream id ty with
  | mk ensured result =>
    rw [outcome] at accepted opens applied
    cases result with
    | error => cases accepted
    | ok =>
      obtain ⟨_, found, -⟩ := ensureStream_present alive outcome
      have stillAlive : ensured.streamRetired id = false := by
        unfold Streams.streamRetired
        rw [contains_eq_isSome, found, isSome_some, if_pos rfl]
      refine ⟨ensured, opens, applied, ?_⟩
      exact (edits_createLocalStream_applied (known_ensureStream alive outcome) stillAlive
        (some params)).trans (edits_stopSend ..)

theorem secures_frame {ty : Nat} (grants : frame.grant? = some grant)
    (ok : (conn.processFrame context ty frame).2 = .ok ())
    (timely : conn.Timely granted grant)
    (raises : Streams.Raises conn.toStreams (conn.processFrame context ty frame).1.toStreams) :
    (conn.processFrame context ty frame).1.toStreams.Secures grant := by
  cases frame with
  | maxData =>
    cases grants
    exact le_max_right _ _
  | maxStreamData id limit =>
    cases grants
    rcases timely with held | retired
    · left
      rw [contains_eq_isSome] at held
      obtain ⟨stream, found⟩ := isSome_iff_exists.mp held
      refine ⟨{ stream with sendMax := max stream.sendMax limit }, ?_, le_max_right _ _⟩
      refine (lookup_modifyStream ..).trans ?_
      rw [if_pos rfl, found]
      rfl
    · exact .inr (raises.gone id ((streamRetired_iff_gone _ _).mp retired))
  | maxStreams dir limit =>
    cases grants
    change (conn.recvMaxStreamsFrame dir limit).2 = .ok () at ok
    change limit ≤ (conn.recvMaxStreamsFrame dir limit).1.sendMaxStreams dir
    unfold recvMaxStreamsFrame at ok ⊢
    split at ok
    · cases ok
    next small =>
      rw [if_neg small]
      change limit ≤ Function.update conn.sendMaxStreams dir _ dir
      rw [Function.update_self]
      exact le_max_right _ _
  | _ => cases grants

theorem applied_frame (grants : frame.grant? = some grant) (context : FrameContext)
    (ty : Nat) : (conn.processFrame context ty frame).1.peerFlowApplied = conn.peerFlowApplied := by
  cases frame with
  | maxData => rfl
  | maxStreamData => rfl
  | maxStreams dir limit =>
    change (conn.recvMaxStreamsFrame dir limit).1.peerFlowApplied = _
    unfold recvMaxStreamsFrame
    split <;> rfl
  | _ => cases grants

theorem FrameRuns.enclosed (starts : Starts maxSent start)
    (runs : FrameRuns start conn) : conn.toStreams.peers.Enclosed := by
  refine FrameRuns.table_rule (motive := fun table => table.peers.Enclosed)
    ?_ (fun _ _ edit inv => (edit.enclosed inv).1) starts runs
  intro _ ticket
  cases ticket with
  | none => exact nofun
  | some => exact nofun

theorem secures_learned {table later : Streams} (inv : table.peers.Enclosed)
    (unapplied : table.peerFlowApplied = false) (secures : ∀ grant ∈ granted, table.Secures grant)
    (timely : ∀ limit, .maxData limit ∈ granted → limit ≤ params.initialMaxData)
    (edits : Streams.Edits (table.ensurePeerFlow (some params)) later) :
    ∀ grant ∈ granted ++ [.params params], later.Secures grant := by
  have learned := secures_params params unapplied
  have enclosedLearned := (Streams.Edit.learn params unapplied).enclosed inv
  obtain ⟨-, raises, stays⟩ := edits.raises enclosedLearned.1
  have raises := raises ((stays learned.1).trans learned.1.symm)
  intro grant member
  apply raises.secures
  rcases mem_append.mp member with old | new
  · apply (secures grant old).learn unapplied
    rintro limit rfl
    exact timely limit old
  · rw [mem_singleton.mp new]
    exact learned

theorem Granted.secures (starts : Starts maxSent start)
    (run : Granted start granted conn) : ∀ grant ∈ granted, conn.toStreams.Secures grant := by
  induction run with
  | start => exact nofun
  | @step _ _ _ _ before applies timely ih =>
    have inv := before.frameRuns.enclosed starts
    have edits := FrameRuns.edits starts before.frameRuns
      (Relation.ReflTransGen.single applies.advances)
    have raises := (edits.raises inv).2.1
    cases applies with
    | frame grants ok =>
      have raises := raises (applied_frame grants _ _)
      exact forall_mem_append.mpr ⟨fun grant old => raises.secures (ih grant old),
        forall_mem_singleton.mpr (secures_frame grants ok (timely _ rfl) raises)⟩
    | @call _ _ _ _ creates alive unapplied parsed known taken =>
      obtain ⟨_, isFresh, acts⟩ := FrameRuns.acts starts before.frameRuns
      have numbered := acts.numbered isFresh.numbered
      have opens := known_of_creates numbered.bidi numbered.uni creates known
      exact secures_learned inv unapplied ih (timely _ rfl)
        (edits_call creates alive parsed opens taken)
    | stopSending alive unapplied parsed ok =>
      obtain ⟨_, opened, still, learned⟩ := edits_stopSending alive unapplied parsed ok
      obtain ⟨enclosedThen, raisesThen, -⟩ := opened.raises inv
      have raisesThen := raisesThen (still.trans unapplied.symm)
      exact secures_learned enclosedThen still
        (fun grant member => raisesThen.secures (ih grant member)) (timely _ rfl) learned
    | other _ same =>
      rw [toList_none, append_nil]
      exact fun grant old => (raises same).secures (ih grant old)

/-- In every run in which each grant comes in time, the limits are at least
all that the peer granted so far. -/
theorem granted_honoured {recvMaxStreamsSent : Dir → Nat} {start conn : Connection T C}
    {granted : List Grant} (starts : Starts recvMaxStreamsSent start)
    (run : Granted start granted conn) : ∀ grant ∈ granted, conn.toStreams.Honours grant :=
  fun grant member => (run.secures starts grant member).honours

def maxDataExample (limit : Nat) : Connection ScriptedTls FixedWindow :=
  (openingExample.processFrame ⟨.data, none, 0⟩ 0x10 (.maxData limit)).1

theorem applies_maxDataExample :
    Applies openingExample (some (.maxData limit)) (maxDataExample limit) :=
  .frame rfl rfl (@.frame _ _ _ _ _ .oneRtt 0x10 (.maxData limit) (fun _ => rfl) rfl rfl none 0)

def openedExample (limit : Nat) : Connection ScriptedTls FixedWindow :=
  (maxDataExample limit).mapStreams fun table =>
    table.createLocalStream (some exampleParams) table.nextBidi

theorem applies_openedExample :
    Applies (maxDataExample limit) (some (.params exampleParams)) (openedExample limit) :=
  @.call _ _ _ _ _ _ .openBi 0 exampleParams rfl rfl rfl rfl trivial rfl

/-- A limit below that of the parameters survives them. -/
theorem granted_honoured_small :
    ∃ (granted : List Grant) (conn : Connection ScriptedTls FixedWindow),
      Granted openingExample granted conn ∧ .maxData 800 ∈ granted ∧
        conn.toStreams.Honours (.maxData 800) := by
  have first : Granted openingExample _ (maxDataExample 800) :=
    .step .start (applies_maxDataExample 800) fun grant made => by
      cases made
      trivial
  have second : Granted openingExample _ (openedExample 800) :=
    .step first (applies_openedExample 800) fun grant made => by
      cases made
      intro limit member
      obtain rfl : limit = 800 := by simpa using member
      decide
  have member : Grant.maxData 800 ∈
      ([] ++ (some (.maxData 800)).toList) ++ (some (.params exampleParams)).toList := by
    decide
  exact ⟨_, _, second, member, granted_honoured (.client ..) second _ member⟩

/-- MAX_DATA before the first stream is lost when the parameters are applied,
and so is MAX_STREAM_DATA before the stream it names is opened. -/
theorem granted_lost :
    (∃ raised conn : Connection ScriptedTls FixedWindow,
      Applies openingExample (some (.maxData 10000)) raised ∧
        Applies raised (some (.params exampleParams)) conn ∧
        ¬conn.toStreams.Honours (.maxData 10000)) ∧
      ∃ named conn : Connection ScriptedTls FixedWindow,
        Applies servingExample (some (.maxStreamData 0 5000)) named ∧
          Applies named none conn ∧
          ¬conn.toStreams.Honours (.maxStreamData 0 5000) := by
  constructor
  · refine ⟨_, _, applies_maxDataExample 10000, applies_openedExample 10000, ?_⟩
    change ¬10000 ≤ (openedExample 10000).sendMaxData
    decide
  · refine ⟨_, _,
      .frame rfl rfl (@.frame _ _ _ _ _ .zeroRtt 0x11
        (.maxStreamData 0 5000) nofun rfl rfl none 0),
      .other (@.frame _ _ _ _ _ .zeroRtt 0x08 (.stream 0 0 false [])
        nofun rfl ⟨by decide, by decide⟩ none 0) rfl, ?_⟩
    intro honours
    have low : (((servingExample.processFrame ⟨.data, none, 0⟩ 0x11
        (.maxStreamData 0 5000)).1.processFrame ⟨.data, none, 0⟩ 0x08
        (.stream 0 0 false [])).1.streams[0]?).map
          (fun stream : Stream => stream.sendMax) = some 0 := by
      decide
    obtain ⟨stream, present, _⟩ := map_eq_some_iff.mp low
    have enough := honours stream present
    omega

end Connection

end ParallaX.Quic
