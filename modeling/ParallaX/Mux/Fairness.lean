import ParallaX.Mux.Registrations

/-!
# What the downlink scheduler guarantees

Order and completeness of every registration, silence after a purge, one frame
of every other substream between two frames of a busy one, and what the end of
a batch and of the connection mean.
-/

namespace ParallaX.Mux

open List

def Observation.servedStream : Observation → Option UInt32
  | .emitted _ frame => some frame.streamId
  | _ => none

/-- The substreams whose queues were served, oldest first. -/
def servedStreams (log : List Observation) : List UInt32 := log.filterMap Observation.servedStream

namespace Downlink

/-! ## Silence after a purge -/

variable {link next : Downlink} {queue : Nat} {control : DownlinkControl}
  {rest : List DownlinkControl} {id : UInt32} {since : List Observation}

theorem Effect.emittedFrom_of_gone (effect : link.Effect next) (gone : link.Gone queue) :
    emittedFrom queue next.log = emittedFrom queue link.log := by
  cases effect with
  | emitsUnqueued | seesEmpty | seesDisconnected =>
    simp [emittedFrom, Observation.frameFrom, filterMap_cons]
  | emits _ _ other _ _ _ _ _ front =>
    have ne : other ≠ queue := by
      rintro rfl
      apply gone.2
      rw [Downlink.live, front]
      exact mem_append_left _ mem_cons_self
    simp [emittedFrom, Observation.frameFrom, ne]
  | _ => rfl

theorem Runs.emittedFrom_of_gone (runs : link.Runs next) (gone : link.Gone queue) :
    emittedFrom queue next.log = emittedFrom queue link.log := by
  refine (@runs_induction _ _
    (fun state => state.Gone queue ∧ emittedFrom queue state.log = emittedFrom queue link.log)
    ?_ runs ⟨gone, rfl⟩).2
  rintro _ _ effect ⟨still, same⟩
  exact ⟨effect.gone still, (effect.emittedFrom_of_gone still).trans same⟩

def EndsRegistration (streamId : UInt32) (control : DownlinkControl) : Prop :=
  control = .purge streamId ∨ ∃ queue, control = .register streamId queue

theorem gone_of_takes (sound : link.Sound) (pending : link.control = control :: rest)
    (ending : EndsRegistration id control)
    (member : (id, queue) ∈ link.scheduler.queues) :
    queue ∉ (link.scheduler.apply control).queues.map (·.2) ++
      rest.filterMap DownlinkControl.queue := by
  have distinct := sound.tokens
  rw [Downlink.live, pending, nodup_append] at distinct
  obtain ⟨entries, _, apart⟩ := distinct
  have entered : queue ∈ link.scheduler.queues.map (·.2) := mem_map_of_mem member
  -- the entry is the only one with this queue, and it has the substream
  have purged : queue ∉ (link.scheduler.purge id).queues.map (·.2) := by
    intro stays
    obtain ⟨entry, kept, same⟩ := mem_map.mp stays
    obtain ⟨old, other⟩ := mem_filter.mp kept
    have equal := inj_on_of_nodup_map entries old member same
    simp [equal] at other
  rw [mem_append]
  rcases ending with rfl | ⟨new, rfl⟩
  · rintro (stays | later)
    · exact purged stays
    · exact apart queue entered queue later rfl
  · simp only [ServerMuxScheduler.apply, map_append, mem_append]
    rintro ((stays | fresh) | later)
    · exact purged stays
    · refine apart queue entered new ?_ (by simpa using fresh)
      exact mem_cons_self
    · exact apart queue entered queue (mem_cons_of_mem _ later) rfl

theorem gone_of_takeControl {taken : Downlink} (sound : link.Sound)
    (pending : link.control = control :: rest) (ending : EndsRegistration id control)
    (member : (id, queue) ∈ link.scheduler.queues) (take : link.takeControl = some taken) :
    taken.Gone queue ∧ taken.log = link.log := by
  rw [takeControl] at take
  split at take
  case isFalse => simp at take
  case isTrue ready =>
    simp only [pending, Option.some.injEq] at take
    subst take
    exact ⟨⟨sound.of_mem_queues member, gone_of_takes sound pending ending member⟩, rfl⟩

/-! ## One turn of the queues -/

/-- While queues are read: the last of them were found empty since the last
emission, and those that left were found disconnected. -/
structure Scanned (queues : List (UInt32 × Nat)) (log : List Observation) (fill : Fill) : Prop where
  turn : ∃ unseen seen after, queues = unseen ++ seen ∧
    seen.length = fill.idleTurns ∧
    after <:+ log ∧
    (∀ observation ∈ after, observation.isEmission = false) ∧
    (∀ entry ∈ seen, .empty entry.2 ∈ after) ∧
    ∀ queue ∈ fill.watched, queue ∈ queues.map (·.2) ∨ .disconnected queue ∈ after
  watched : ∀ entry ∈ queues, entry.2 ∈ fill.watched

section Scan

variable {queues rest : List (UInt32 × Nat)} {log : List Observation}
  {fill : Fill}

theorem scanned_start (rested : fill.idleTurns = 0)
    (watched : fill.watched = queues.map (·.2)) : Scanned queues log fill where
  turn :=
    ⟨queues, [], [], by simp, by simp [rested], by simp, by simp, by simp,
      fun _ member => .inl (watched ▸ member)⟩
  watched _ member := watched ▸ mem_map_of_mem member

variable {after : List Observation} {entry : UInt32 × Nat}

theorem suffix_append_singleton (suffix : after <:+ log) (item : Observation) :
    after ++ [item] <:+ log ++ [item] := by
  obtain ⟨before, rfl⟩ := suffix
  exact ⟨before, by rw [append_assoc]⟩

theorem silent_append_singleton {item : Observation}
    (silent : ∀ observation ∈ after, observation.isEmission = false)
    (last : item.isEmission = false) :
    ∀ observation ∈ after ++ [item], observation.isEmission = false := by
  exact forall_mem_append.mpr ⟨silent, forall_mem_singleton.mpr last⟩

theorem exists_unseen {unseen seen : List (UInt32 × Nat)} (split : entry :: rest = unseen ++ seen)
    (turn : seen.length < (entry :: rest).length) :
    ∃ later, unseen = entry :: later ∧ rest = later ++ seen := by
  cases unseen with
  | nil =>
    rw [split] at turn
    exact absurd turn (Nat.lt_irrefl _)
  | cons _ later =>
    rw [cons_append, List.cons.injEq] at split
    exact ⟨later, by rw [split.1], split.2⟩

theorem Scanned.seesEmpty (scanned : Scanned (entry :: rest) log fill)
    (turn : fill.idleTurns < (entry :: rest).length) :
    Scanned (rest ++ [entry]) (log ++ [.empty entry.2])
      { fill with idleTurns := fill.idleTurns + 1 } := by
  obtain ⟨⟨_, seen, after, split, length, suffix, silent, empty, watched⟩, within⟩ := scanned
  obtain ⟨later, rfl, rfl⟩ := exists_unseen split (length ▸ turn)
  have rotated := perm_append_singleton entry (later ++ seen)
  refine ⟨⟨later, seen ++ [entry], after ++ [.empty entry.2], by simp,
    by simp [length], suffix_append_singleton suffix _,
    silent_append_singleton silent rfl, ?_, ?_⟩, ?_⟩
  · intro other member
    rcases mem_append.mp member with earlier | last
    · exact mem_append_left _ (empty other earlier)
    · rw [mem_singleton.mp last]
      exact mem_append_right _ mem_cons_self
  · intro other member
    rcases watched other member with entered | gone
    · exact .inl ((rotated.symm.map _).subset entered)
    · exact .inr (mem_append_left _ gone)
  · intro other member
    exact within other (rotated.subset member)

theorem Scanned.seesDisconnected (scanned : Scanned (entry :: rest) log fill)
    (turn : fill.idleTurns < (entry :: rest).length) :
    Scanned rest (log ++ [.disconnected entry.2]) fill := by
  obtain ⟨⟨_, seen, after, split, length, suffix, silent, empty, watched⟩, within⟩ := scanned
  obtain ⟨later, rfl, rfl⟩ := exists_unseen split (length ▸ turn)
  refine ⟨⟨later, seen, after ++ [.disconnected entry.2], rfl, length,
    suffix_append_singleton suffix _, silent_append_singleton silent rfl,
    fun other member => mem_append_left _ (empty other member), ?_⟩, ?_⟩
  · intro other member
    rcases watched other member with entered | gone
    · rw [map_cons, mem_cons] at entered
      rcases entered with rfl | stays
      · exact .inr (mem_append_right _ mem_cons_self)
      · exact .inl stays
    · exact .inr (mem_append_left _ gone)
  · intro other member
    exact within other (mem_cons_of_mem _ member)

theorem Scanned.complete (scanned : Scanned queues log fill)
    (whole : queues.length ≤ fill.idleTurns) :
    ∃ after, after <:+ log ∧ (∀ observation ∈ after, observation.isEmission = false) ∧
      (∀ entry ∈ queues, .empty entry.2 ∈ after) ∧
      ∀ queue ∈ fill.watched, .empty queue ∈ after ∨ .disconnected queue ∈ after := by
  obtain ⟨⟨unseen, _, after, rfl, _, suffix, silent, empty, watched⟩, _⟩ := scanned
  have none : unseen = [] := by
    rw [length_append] at whole
    exact eq_nil_of_length_eq_zero (by omega)
  subst none
  refine ⟨after, suffix, silent, empty, ?_⟩
  intro queue member
  rcases watched queue member with entered | gone
  · obtain ⟨entry, found, rfl⟩ := mem_map.mp entered
    exact .inl (empty entry found)
  · exact .inr gone

end Scan

def Filling (link : Downlink) : Prop :=
  ∀ fill, link.filling = some fill →
    (fill.serving = false → fill.idleTurns = 0) ∧
      (fill.serving = true → Scanned link.scheduler.queues link.log fill)

theorem Effect.filling (effect : link.Effect next) (old : link.Filling) : next.Filling := by
  cases effect with
  | takes _ _ _ idle | closes _ _ idle =>
    intro fill filling
    exact absurd (idle.symm.trans filling) (by simp)
  | begins _ _ first rested =>
    rintro _ ⟨⟩
    exact ⟨fun _ => rested, fun second => by simp [first] at second⟩
  | emitsUnqueued fill _ _ filling first =>
    rintro _ ⟨⟩
    exact ⟨fun _ => (old fill filling).1 first, fun second => by simp [first] at second⟩
  | serves fill filling first =>
    rintro _ ⟨⟩
    exact ⟨by simp, fun _ => scanned_start ((old fill filling).1 first) rfl⟩
  | emits _ _ _ _ _ _ _ second =>
    rintro _ ⟨⟩
    exact ⟨by simp [second], fun _ => scanned_start rfl rfl⟩
  | seesEmpty fill _ _ _ filling second turn front =>
    rintro _ ⟨⟩
    have scanned := (old fill filling).2 second
    rw [front] at scanned turn
    exact ⟨by simp [second], fun _ => scanned.seesEmpty turn⟩
  | seesDisconnected fill _ _ _ filling second turn front =>
    intro fill' filling'
    obtain rfl : fill' = fill := Option.some.inj (filling'.symm.trans filling)
    have scanned := (old fill' filling).2 second
    rw [front] at scanned turn
    exact ⟨by simp [second], fun _ => scanned.seesDisconnected turn⟩
  | ends => rintro _ ⟨⟩
  | _ => exact old

theorem fillStep_ends {fill : Fill} (filling : link.filling = some fill)
    (stepped : link.step .fillStep = some next) (ended : next.filling = none) :
    fill.serving = true ∧ (fill.below = true → link.scheduler.queues.length ≤ fill.idleTurns) ∧
      next.scheduler.queues = link.scheduler.queues ∧ next.log = link.log := by
  simp only [step, filling, Option.map_some, Option.some.injEq] at stepped
  subst stepped
  cases serving : fill.serving with
  | false =>
    simp only [serving, Bool.false_eq_true, if_false] at ended
    rw [fillUnqueued] at ended
    split at ended
    · split at ended <;> simp at ended
    · simp at ended
  | true =>
    simp only [serving, if_true] at ended ⊢
    have effect := effect_of_fillQueues filling serving
    generalize link.fillQueues fill = next at effect ended
    cases effect with
    | ends other filling' _ reason =>
      obtain rfl : fill = other := Option.some.inj (filling.symm.trans filling')
      exact ⟨trivial, reason, rfl, rfl⟩
    | takes _ _ _ idle | closes _ _ idle => simp [filling] at idle
    | _ => simp_all

/-! ## Between two frames of a busy queue -/

/-- Since the last frame of the queue, the substreams served are distinct from
each other and from those that are served before the queue is. -/
def Waiting (link : Downlink) (queue : Nat) (since : List Observation) : Prop :=
  ∃ ahead streamId behind, link.scheduler.queues = ahead ++ (streamId, queue) :: behind ∧
      (servedStreams since ++ ahead.map (·.1)).Nodup

def BusyStep (queue : Nat) (link next : Downlink) : Prop :=
  link.Steps next ∧ (link.channels queue).items ≠ []

def EmitsFrom (queue : Nat) (link next : Downlink) : Prop :=
  link.Steps next ∧ ∃ frame, next.log = link.log ++ [.emitted queue frame]

theorem Effect.emits_inv (effect : link.Effect next) {frame : MuxFrame}
    (emitted : next.log = link.log ++ [.emitted queue frame]) :
    ∃ id rest, link.scheduler.queues = (id, queue) :: rest ∧
      next.scheduler.queues = rest ++ [(id, queue)] := by
  cases effect with
  | emits _ id other rest frame' _ _ _ front =>
    obtain ⟨rfl, rfl⟩ : other = queue ∧ frame' = frame := by simpa using emitted
    exact ⟨id, rest, front, rfl⟩
  | emitsUnqueued | seesEmpty | seesDisconnected => simp at emitted
  | _ => exact absurd emitted.symm (by simp)

theorem Effect.log (effect : link.Effect next) : link.log <+: next.log := by
  cases effect with
  | emitsUnqueued | emits | seesEmpty | seesDisconnected => exact prefix_append _ _
  | _ => exact prefix_rfl

theorem Waiting.purge (waiting : link.Waiting queue since) (id : UInt32) :
    (∃ ahead other behind, (link.scheduler.purge id).queues = ahead ++ (other, queue) :: behind ∧
      (servedStreams since ++ ahead.map (·.1)).Nodup) ∨
    (id, queue) ∈ link.scheduler.queues := by
  obtain ⟨ahead, other, behind, queues, nodup⟩ := waiting
  by_cases same : other = id
  · right
    rw [queues, same]
    exact mem_append_right _ mem_cons_self
  · left
    refine ⟨ahead.filter (·.1 ≠ id), other, behind.filter (·.1 ≠ id), ?_,
      nodup.sublist ((filter_sublist.map _).append_left _)⟩
    rw [ServerMuxScheduler.purge, queues]
    simp [filter_append, same]

theorem Waiting.rotate {other : Nat} (waiting : link.Waiting queue since)
    {rest : List (UInt32 × Nat)} (front : link.scheduler.queues = (id, other) :: rest)
    (ne : other ≠ queue) :
    ∃ ahead mine behind, rest = ahead ++ (mine, queue) :: behind ∧
      (servedStreams since ++ id :: ahead.map (·.1)).Nodup := by
  obtain ⟨ahead, mine, behind, queues, nodup⟩ := waiting
  rw [front] at queues
  cases ahead with
  | nil =>
    rw [nil_append, List.cons.injEq, Prod.mk.injEq] at queues
    exact absurd queues.1.2 ne
  | cons _ ahead =>
    obtain ⟨rfl, rfl⟩ := queues
    exact ⟨ahead, mine, behind, rfl, nodup⟩

theorem servedStreams_append_none (since : List Observation)
    {observation : Observation} (other : observation.servedStream = none) :
    servedStreams (since ++ [observation]) = servedStreams since := by
  simp [servedStreams, other]

theorem Effect.waiting (effect : link.Effect next) (sound : link.Sound)
    (busy : (link.channels queue).items ≠ []) (waiting : link.Waiting queue since) :
    ∃ more, next.log = link.log ++ more ∧
      ((∃ frame, .emitted queue frame ∈ more) ∨ next.Gone queue ∨
        next.Waiting queue (since ++ more)) := by
  -- a queue that has a frame is not found empty
  have occupied {other : Nat} (none : (link.channels other).items = []) :
      other ≠ queue := fun same => busy (same ▸ none)
  cases effect with
  | takes control _ _ _ pending =>
    refine ⟨[], (append_nil _).symm, .inr ?_⟩
    rw [append_nil]
    cases control with
    | register id new =>
      rcases waiting.purge id with
        ⟨ahead, mine, behind, queues, nodup⟩ | mine
      · right
        refine ⟨ahead, mine, behind ++ [(id, new)], ?_, nodup⟩
        simp [ServerMuxScheduler.apply, queues]
      · exact .inl ⟨sound.of_mem_queues mine, gone_of_takes sound pending (.inr ⟨new, rfl⟩) mine⟩
    | purge id =>
      rcases waiting.purge id with stays | mine
      · exact .inr stays
      · exact .inl ⟨sound.of_mem_queues mine, gone_of_takes sound pending (.inl rfl) mine⟩
    | frame => exact .inr waiting
  | emitsUnqueued _ frame =>
    refine ⟨[.unqueued frame], rfl, .inr (.inr ?_)⟩
    obtain ⟨ahead, mine, behind, queues, nodup⟩ := waiting
    refine ⟨ahead, mine, behind, queues, ?_⟩
    rwa [servedStreams_append_none since rfl]
  | emits _ id other _ frame _ _ _ front pending =>
    refine ⟨[.emitted other frame], rfl, ?_⟩
    by_cases same : other = queue
    · exact .inl ⟨frame, same ▸ mem_singleton_self _⟩
    · obtain ⟨ahead, mine, behind, split, nodup⟩ := waiting.rotate front same
      refine .inr (.inr ⟨ahead, mine, behind ++ [(id, other)], ?_, ?_⟩)
      · simp [split]
      · have named : frame.streamId = id := by
          rw [sound.stamped other frame (pending ▸ mem_cons_self)]
          exact sound.entries (id, other) (front ▸ mem_cons_self)
        simpa [servedStreams, Observation.servedStream, named] using nodup
  | seesEmpty _ id other _ _ _ _ front none =>
    refine ⟨[.empty other], rfl, .inr (.inr ?_)⟩
    obtain ⟨ahead, mine, behind, split, nodup⟩ := waiting.rotate front (occupied none)
    refine ⟨ahead, mine, behind ++ [(id, other)], by simp [split], ?_⟩
    rw [servedStreams_append_none since rfl]
    exact nodup.sublist ((sublist_cons_self _ _).append_left _)
  | seesDisconnected _ _ other _ _ _ _ front none =>
    refine ⟨[.disconnected other], rfl, .inr (.inr ?_)⟩
    obtain ⟨ahead, mine, behind, split, nodup⟩ := waiting.rotate front (occupied none)
    refine ⟨ahead, mine, behind, split, ?_⟩
    rw [servedStreams_append_none since rfl]
    exact nodup.sublist ((sublist_cons_self _ _).append_left _)
  | _ =>
    refine ⟨[], (append_nil _).symm, .inr (.inr ?_)⟩
    rw [append_nil]
    exact waiting

theorem runs_of_busy (busy : Relation.ReflTransGen (BusyStep queue) link next) :
    link.Runs next := by
  induction busy with
  | refl => exact .refl
  | tail _ step ih => exact .tail ih step.1

theorem waiting_of_busy (sound : link.Sound) (start : link.Waiting queue [])
    (busy : Relation.ReflTransGen (BusyStep queue) link next) :
    ∃ mid, next.log = link.log ++ mid ∧
      ((∃ frame, .emitted queue frame ∈ mid) ∨ next.Gone queue ∨ next.Waiting queue mid) := by
  induction busy with
  | refl => exact ⟨[], (append_nil _).symm, .inr (.inr start)⟩
  | @tail _ _ before step ih =>
    obtain ⟨mid, log, state⟩ := ih
    have effect := effect_of_steps step.1
    rcases state with ⟨frame, emitted⟩ | gone | waiting
    · obtain ⟨more, extended⟩ := effect.log
      refine ⟨mid ++ more, ?_, .inl ⟨frame, mem_append_left _ emitted⟩⟩
      rw [← extended, log, append_assoc]
    · obtain ⟨more, extended⟩ := effect.log
      refine ⟨mid ++ more, ?_, .inr (.inl (effect.gone gone))⟩
      rw [← extended, log, append_assoc]
    · obtain ⟨more, extended, state⟩ := effect.waiting
        ((runs_of_busy before).sound sound) step.2 waiting
      refine ⟨mid ++ more, by rw [extended, log, append_assoc], ?_⟩
      rcases state with ⟨frame, emitted⟩ | state
      · exact .inl ⟨frame, mem_append_right _ emitted⟩
      · exact .inr state

theorem waiting_of_emitsFrom (sound : link.Sound) (emission : EmitsFrom queue link next) :
    next.Waiting queue [] := by
  obtain ⟨steps, _, emitted⟩ := emission
  obtain ⟨id, rest, front, queues⟩ := (effect_of_steps steps).emits_inv emitted
  refine ⟨rest, id, [], queues, ?_⟩
  have distinct := sound.streams
  rw [front] at distinct
  exact distinct.of_cons

/-- Between two frames of a queue that stays busy every other substream is
served at most once. -/
theorem served_once {first last : Downlink}
    (sound : link.Sound) (emits : EmitsFrom queue link first)
    (busy : Relation.ReflTransGen (BusyStep queue) first last)
    (again : EmitsFrom queue last next) {mid : List Observation} (log : last.log = first.log ++ mid)
    (consecutive : ∀ frame, .emitted queue frame ∉ mid) : (servedStreams mid).Nodup := by
  have sound' := (effect_of_steps emits.1).sound sound
  obtain ⟨mid', log', state⟩ := waiting_of_busy sound' (waiting_of_emitsFrom sound emits) busy
  obtain rfl : mid = mid' := append_cancel_left (log.symm.trans log')
  rcases state with ⟨frame, emitted⟩ | gone | ⟨_, _, _, _, nodup⟩
  · exact absurd emitted (consecutive frame)
  · -- a queue that was dropped emits nothing
    obtain ⟨steps, _, emitted⟩ := again
    obtain ⟨_, _, front, _⟩ := (effect_of_steps steps).emits_inv emitted
    refine absurd ?_ gone.2
    rw [Downlink.live, front]
    exact mem_append_left _ mem_cons_self
  · exact nodup.sublist (sublist_append_left _ _)

/-! ## The end -/

theorem Effect.finished (effect : link.Effect next)
    (sound : link.Sound) (finished : link.scheduler.isFinished = true) :
    next.scheduler.isFinished = true ∧ next.log = link.log := by
  have ended : link.scheduler.controlOpen = false ∧
      link.scheduler.queues = [] ∧ link.scheduler.unqueued = [] := by
    simpa [ServerMuxScheduler.isFinished, and_assoc] using finished
  obtain ⟨shut, queues, unqueued⟩ := ended
  have gone := (sound.closed shut).2
  cases effect with
  | takes _ _ accepting => simp [shut] at accepting
  | closes => simp [ServerMuxScheduler.isFinished, queues, unqueued]
  | emitsUnqueued _ _ _ _ _ pending => simp [unqueued] at pending
  | emits _ _ _ _ _ _ _ _ front
  | seesEmpty _ _ _ _ _ _ _ front
  | seesDisconnected _ _ _ _ _ _ _ front => simp [queues] at front
  | _ => exact ⟨finished, rfl⟩

theorem Runs.finished (runs : link.Runs next)
    (sound : link.Sound) (finished : link.scheduler.isFinished = true) : next.log = link.log := by
  refine (@runs_induction _ _
    (fun state => state.Sound ∧ state.scheduler.isFinished = true ∧ state.log = link.log)
    ?_ runs ⟨sound, finished, rfl⟩).2.2
  rintro _ _ effect ⟨sound, finished, same⟩
  obtain ⟨finished', same'⟩ := effect.finished sound finished
  exact ⟨effect.sound sound, finished', same'.trans same⟩

/-- A finished scheduler has emitted every frame except those of registrations
that were purged or replaced. -/
theorem Sound.complete (sound : link.Sound) (finished : link.scheduler.isFinished = true) :
    link.control = [] ∧ link.readerGone = true ∧ emittedUnqueued link.log = link.controlFrames ∧
      ∀ queue < link.registered, queue ∈ link.purged ∨
        ((link.channels queue).connected = false ∧
          emittedFrom queue link.log = link.sent queue) := by
  have ended : link.scheduler.controlOpen = false ∧
      link.scheduler.queues = [] ∧ link.scheduler.unqueued = [] := by
    simpa [ServerMuxScheduler.isFinished, and_assoc] using finished
  obtain ⟨shut, queues, unqueued⟩ := ended
  obtain ⟨drained, gone⟩ := sound.closed shut
  refine ⟨drained, gone, ?_, ?_⟩
  · rw [sound.answers, unqueued, drained]
    simp
  · intro queue known
    rcases sound.kept queue known with purged | alive | ⟨items, hungUp⟩
    · exact .inl purged
    · simp [Downlink.live, queues, drained] at alive
    · refine .inr ⟨hungUp, ?_⟩
      rw [sound.ordered queue, items, append_nil]

/-- The events one after the other; those that cannot happen are skipped. -/
def play (link : Downlink) (events : List Event) : Downlink :=
  events.foldl (fun state event => (state.step event).getD state) link

theorem runs_play (link : Downlink) (events : List Event) : link.Runs (link.play events) := by
  induction events generalizing link with
  | nil => exact .refl
  | cons event _ ih =>
    rw [play, foldl_cons]
    cases stepped : link.step event with
    | none => exact ih link
    | some next => exact .head ⟨event, stepped⟩ (ih next)

/-- In every reachable state: the frames of a registration were emitted in
the order they were sent, and wait in a queue that is served unless the
registration was purged or replaced; a control that ends a registration silences
it; a queue that stays busy waits for one frame of every other substream at
most; a batch ends below its limits after a whole turn without a frame; and a
finished scheduler has nothing left to emit. -/
theorem downlink_served_fairly (controlDepth streamQueueDepth : Nat)
    (link : Downlink) (reached : (new controlDepth streamQueueDepth).Runs link) :
    (∀ queue, link.sent queue = emittedFrom queue link.log ++ (link.channels queue).items) ∧
    (∀ queue < link.registered, queue ∈ link.purged ∨ queue ∈ link.live ∨
      (emittedFrom queue link.log = link.sent queue ∧ (link.channels queue).connected = false)) ∧
    (∀ control rest streamId queue taken next, link.control = control :: rest →
      EndsRegistration streamId control →
      (streamId, queue) ∈ link.scheduler.queues →
      link.takeControl = some taken → taken.Runs next →
      emittedFrom queue next.log = emittedFrom queue link.log) ∧
    (∀ queue first last next mid, EmitsFrom queue link first →
      Relation.ReflTransGen (BusyStep queue) first last →
      EmitsFrom queue last next →
      last.log = first.log ++ mid →
      (∀ frame, .emitted queue frame ∉ mid) →
      ∀ streamId, (servedStreams mid).count streamId ≤ 1) ∧
    (∀ fill next, link.filling = some fill → fill.below = true →
      link.step .fillStep = some next → next.filling = none →
      ∃ before after, next.log = before ++ after ∧
        (∀ observation ∈ after, observation.isEmission = false) ∧
        (∀ entry ∈ next.scheduler.queues, .empty entry.2 ∈ after) ∧
        ∀ queue ∈ fill.watched, .empty queue ∈ after ∨ .disconnected queue ∈ after) ∧
    (link.scheduler.isFinished = true →
      link.control = [] ∧ link.readerGone = true ∧
      emittedUnqueued link.log = link.controlFrames ∧
      (∀ queue < link.registered, queue ∈ link.purged ∨
        ((link.channels queue).connected = false ∧ emittedFrom queue link.log = link.sent queue)) ∧
      ∀ next, link.Runs next → next.log = link.log) := by
  have sound := reached.sound (sound_new controlDepth streamQueueDepth)
  refine ⟨sound.ordered, ?_, ?_, ?_, ?_, ?_⟩
  · intro queue known
    rcases sound.kept queue known with purged | alive | ⟨items, hungUp⟩
    · exact .inl purged
    · exact .inr (.inl alive)
    · refine .inr (.inr ⟨?_, hungUp⟩)
      rw [sound.ordered queue, items, append_nil]
  · intro _ _ streamId queue _ next pending ending member take runs
    obtain ⟨gone, log⟩ := gone_of_takeControl sound pending ending member take
    rw [runs.emittedFrom_of_gone gone, log]
  · intro _ _ _ next _ emits busy again log consecutive streamId
    exact nodup_iff_count_le_one.mp
      (served_once sound emits busy again log consecutive) streamId
  · intro fill next filling below stepped ended
    have scanned := (runs_induction Effect.filling reached (by simp [Filling, new])) fill filling
    obtain ⟨second, whole, queues, log⟩ := fillStep_ends filling stepped ended
    obtain ⟨after, ⟨before, split⟩, silent, _, watched⟩ := (scanned.2 second).complete (whole below)
    refine ⟨before, after, ?_, silent, ?_, watched⟩
    · rw [log, split]
    · rwa [queues]
  · intro finished
    obtain ⟨drained, gone, answers, complete⟩ := sound.complete finished
    exact ⟨drained, gone, answers, complete,
      fun next runs => runs.finished sound finished⟩

def twoStreams : Downlink :=
  (new 4 4).play
    [.register 1, .register 2, .controlFrame ⟨9, .reset, []⟩,
      .takeControl, .takeControl, .takeControl,
      .send 0 .data [1], .send 0 .fin [], .send 1 .data [2],
      .hangUp 0, .hangUp 1, .readerEnds, .takeControl,
      .beginFill 0 64 65536, .fillStep, .fillStep, .fillStep, .fillStep,
      .fillStep, .fillStep, .fillStep, .fillStep]

theorem downlink_served_fairly_two_streams :
    twoStreams.log =
      [.unqueued ⟨9, .reset, []⟩, .emitted 0 ⟨1, .data, [1]⟩,
        .emitted 1 ⟨2, .data, [2]⟩, .emitted 0 ⟨1, .fin, []⟩,
        .disconnected 1, .disconnected 0] ∧
    twoStreams.sent 0 = [⟨1, .data, [1]⟩, ⟨1, .fin, []⟩] ∧
    (∀ queue, twoStreams.sent queue =
      emittedFrom queue twoStreams.log ++ (twoStreams.channels queue).items) ∧
    twoStreams.scheduler.isFinished = true ∧
    ∀ next, twoStreams.Runs next → next.log = twoStreams.log := by
  have facts := downlink_served_fairly 4 4 twoStreams (runs_play _ _)
  have finished : twoStreams.scheduler.isFinished = true := by decide
  exact ⟨by decide, by decide, facts.1, finished, (facts.2.2.2.2.2 finished).2.2.2.2⟩

end Downlink

end ParallaX.Mux
