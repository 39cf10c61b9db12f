import Mathlib.Data.List.Nodup
import Mathlib.Data.List.Perm.Subperm
import ParallaX.Mux.Scheduler

/-!
# Registrations of the downlink

The effects that single steps have, and the invariant of the queues: every
frame that was sent is emitted, or waits in its queue.
-/

namespace ParallaX.Mux

open Function List

def Observation.frameFrom (queue : Nat) : Observation → Option MuxFrame
  | .emitted other frame => if other = queue then some frame else none
  | _ => none

/-- The frames that were emitted from a queue, oldest first. -/
def emittedFrom (queue : Nat) (log : List Observation) : List MuxFrame :=
  log.filterMap (Observation.frameFrom queue)

def Observation.controlFrame : Observation → Option MuxFrame
  | .unqueued frame => some frame
  | _ => none

/-- The frames without a queue that were emitted, oldest first. -/
def emittedUnqueued (log : List Observation) : List MuxFrame :=
  log.filterMap Observation.controlFrame

def DownlinkControl.unqueued : DownlinkControl → Option MuxFrame
  | .frame answer => some answer
  | _ => none

namespace Downlink

/-! ## What a step does -/

inductive Effect (link : Downlink) : Downlink → Prop where
  | registers (streamId : UInt32) (present : link.readerGone = false) :
      Effect link
        { link with
          control := link.control ++ [.register streamId link.registered]
          registered := link.registered + 1
          channels := update link.channels link.registered ⟨streamId, [], true⟩ }
  | purges (streamId : UInt32) (present : link.readerGone = false) :
      Effect link { link with control := link.control ++ [.purge streamId] }
  | sendsControlFrame (frame : MuxFrame) (present : link.readerGone = false) :
      Effect link
        { link with
          control := link.control ++ [.frame frame]
          controlFrames := link.controlFrames ++ [frame] }
  | readerEnds : Effect link { link with readerGone := true }
  | sends (queue : Nat) (frame : MuxFrame) (alive : queue ∈ link.live)
      (stamped : frame.streamId = (link.channels queue).streamId) :
      Effect link
        { link with
          channels := update link.channels queue
            { link.channels queue with items := (link.channels queue).items ++ [frame] }
          sent := update link.sent queue (link.sent queue ++ [frame]) }
  | hangsUp (queue : Nat) (known : queue < link.registered) :
      Effect link
        { link with
          channels := update link.channels queue
            { link.channels queue with connected := false } }
  | takes (control : DownlinkControl) (rest : List DownlinkControl)
      (accepting : link.scheduler.controlOpen = true)
      (idle : link.filling = none)
      (next : link.control = control :: rest) :
      Effect link
        { link with
          control := rest
          scheduler := link.scheduler.apply control
          purged := link.purged ++ link.dropped control }
  | closes (drained : link.control = []) (gone : link.readerGone = true)
      (idle : link.filling = none) :
      Effect link
        { link with scheduler := { link.scheduler with controlOpen := false } }
  | stutters : Effect link link
  | begins (fill : Fill) (idle : link.filling = none)
      (first : fill.serving = false) (rested : fill.idleTurns = 0) :
      Effect link { link with filling := some fill }
  | emitsUnqueued (fill : Fill) (frame : MuxFrame) (rest : List MuxFrame)
      (filling : link.filling = some fill) (first : fill.serving = false)
      (next : link.scheduler.unqueued = frame :: rest) :
      Effect link
        { link with
          scheduler := { link.scheduler with unqueued := rest }
          log := link.log ++ [.unqueued frame]
          filling := some
            { fill with
              batchLen := fill.batchLen + 1
              bytes := fill.bytes + frame.payload.length } }
  | serves (fill : Fill) (filling : link.filling = some fill) (first : fill.serving = false) :
      Effect link
        { link with
          filling := some
            { fill with serving := true, watched := link.scheduler.queues.map (·.2) } }
  | emits (fill : Fill) (streamId : UInt32) (queue : Nat)
      (rest : List (UInt32 × Nat)) (frame : MuxFrame) (items : List MuxFrame)
      (filling : link.filling = some fill) (second : fill.serving = true)
      (front : link.scheduler.queues = (streamId, queue) :: rest)
      (next : (link.channels queue).items = frame :: items) :
      Effect link
        { link with
          channels := update link.channels queue
            { link.channels queue with items := items }
          scheduler := { link.scheduler with queues := rest ++ [(streamId, queue)] }
          log := link.log ++ [.emitted queue frame]
          filling := some
            { fill with
              batchLen := fill.batchLen + 1
              bytes := fill.bytes + frame.payload.length
              idleTurns := 0
              watched := (rest ++ [(streamId, queue)]).map (·.2) } }
  | seesEmpty (fill : Fill) (streamId : UInt32) (queue : Nat) (rest : List (UInt32 × Nat))
      (filling : link.filling = some fill) (second : fill.serving = true)
      (turn : fill.idleTurns < link.scheduler.queues.length)
      (front : link.scheduler.queues = (streamId, queue) :: rest)
      (none : (link.channels queue).items = []) :
      Effect link
        { link with
          scheduler := { link.scheduler with queues := rest ++ [(streamId, queue)] }
          log := link.log ++ [.empty queue]
          filling := some { fill with idleTurns := fill.idleTurns + 1 } }
  | seesDisconnected (fill : Fill) (streamId : UInt32) (queue : Nat) (rest : List (UInt32 × Nat))
      (filling : link.filling = some fill) (second : fill.serving = true)
      (turn : fill.idleTurns < link.scheduler.queues.length)
      (front : link.scheduler.queues = (streamId, queue) :: rest)
      (none : (link.channels queue).items = [])
      (hungUp : (link.channels queue).connected = false) :
      Effect link
        { link with
          scheduler := { link.scheduler with queues := rest }
          log := link.log ++ [.disconnected queue] }
  | ends (fill : Fill) (filling : link.filling = some fill) (second : fill.serving = true)
      (reason : fill.below = true → link.scheduler.queues.length ≤ fill.idleTurns) :
      Effect link { link with filling := none }

variable {link next : Downlink} {queue : Nat} {fill : Fill}

theorem effect_of_fillUnqueued (filling : link.filling = some fill) (first : fill.serving = false) :
    link.Effect (link.fillUnqueued fill) := by
  rw [fillUnqueued]
  split
  · split
    next => exact .serves fill filling first
    next frame rest next => exact .emitsUnqueued fill frame rest filling first next
  · exact .serves fill filling first

theorem effect_of_fillQueues (filling : link.filling = some fill) (second : fill.serving = true) :
    link.Effect (link.fillQueues fill) := by
  rw [fillQueues]
  by_cases turn : fill.below ∧ fill.idleTurns < link.scheduler.queues.length
  · rw [if_pos turn]
    cases front : link.scheduler.queues with
    | nil =>
      rw [front] at turn
      simp at turn
    | cons entry rest =>
      obtain ⟨id, queue⟩ := entry
      cases items : (link.channels queue).items with
      | cons frame items' =>
        simp only [Channel.tryRecv, items]
        exact .emits fill id queue rest frame items' filling second front items
      | nil =>
        by_cases connected : (link.channels queue).connected = true
        · simp only [Channel.tryRecv, items, connected, if_true]
          exact .seesEmpty fill id queue rest filling second turn.2 front items
        · simp only [Channel.tryRecv, items, connected]
          exact .seesDisconnected fill id queue rest filling second
            turn.2 front items (by simpa using connected)
  · rw [if_neg turn]
    refine .ends fill filling second ?_
    intro below
    by_contra more
    exact turn ⟨below, by omega⟩

theorem effect_of_takeControl (taken : link.takeControl = some next) : link.Effect next := by
  rw [takeControl] at taken
  split at taken
  case isFalse => simp at taken
  case isTrue ready =>
    split at taken
    next control rest queued =>
      cases taken
      exact .takes control rest ready.1 ready.2 queued
    next drained =>
      split at taken
      next gone =>
        cases taken
        exact .closes drained gone ready.2
      next =>
        cases taken
        exact .stutters

theorem sendControl_eq_some {control : DownlinkControl}
    (ok : link.sendControl control = some next) :
    link.readerGone = false ∧ next = { link with control := link.control ++ [control] } := by
  rw [sendControl] at ok
  split at ok
  case isTrue => simp at ok
  case isFalse room =>
    cases ok
    refine ⟨?_, rfl⟩
    cases gone : link.readerGone with
    | false => rfl
    | true => exact absurd (.inl gone) room

theorem effect_of_steps (steps : link.Steps next) : link.Effect next := by
  obtain ⟨event, stepped⟩ := steps
  cases event with
  | register id =>
    obtain ⟨sent, ok, rfl⟩ := Option.map_eq_some_iff.mp stepped
    obtain ⟨found, rfl⟩ := sendControl_eq_some ok
    exact .registers id found
  | purge id =>
    obtain ⟨found, rfl⟩ := sendControl_eq_some stepped
    exact .purges id found
  | controlFrame frame =>
    obtain ⟨_, ok, rfl⟩ := Option.map_eq_some_iff.mp stepped
    obtain ⟨found, rfl⟩ := sendControl_eq_some ok
    exact .sendsControlFrame frame found
  | readerEnds =>
    cases stepped
    exact .readerEnds
  | send queue kind payload =>
    simp only [step] at stepped
    split at stepped
    case isFalse => simp at stepped
    case isTrue =>
      split at stepped
      case isFalse =>
        cases stepped
        exact .stutters
      case isTrue alive =>
        split at stepped
        case isFalse => simp at stepped
        case isTrue =>
          cases stepped
          exact .sends queue ⟨(link.channels queue).streamId, kind, payload⟩ alive rfl
  | hangUp queue =>
    simp only [step] at stepped
    split at stepped
    case isFalse => simp at stepped
    case isTrue known =>
      cases stepped
      exact .hangsUp queue known
  | takeControl => exact effect_of_takeControl stepped
  | beginFill =>
    simp only [step] at stepped
    split at stepped
    case isFalse => simp at stepped
    case isTrue idle =>
      cases stepped
      exact .begins _ idle rfl rfl
  | fillStep =>
    obtain ⟨fill, filling, rfl⟩ := Option.map_eq_some_iff.mp stepped
    cases serving : fill.serving with
    | false => simpa using effect_of_fillUnqueued filling serving
    | true => simpa using effect_of_fillQueues filling serving

theorem runs_induction {property : Downlink → Prop}
    (preserved : ∀ {link next : Downlink}, link.Effect next → property link → property next)
    (runs : link.Runs next) (holds : property link) : property next := by
  induction runs with
  | refl => exact holds
  | tail _ steps ih => exact preserved (effect_of_steps steps) ih

/-! ## Registrations -/

theorem Effect.live (effect : link.Effect next) :
    (next.registered = link.registered ∧ next.live.Subperm link.live) ∨
      (next.registered = link.registered + 1 ∧ next.live = link.live ++ [link.registered]) := by
  cases effect with
  | registers =>
    right
    simp [Downlink.live, DownlinkControl.queue]
  | purges | sendsControlFrame =>
    left
    simp [Downlink.live, DownlinkControl.queue, List.Subperm.refl, filterMap_cons]
  | takes control _ _ _ pending =>
    left
    refine ⟨rfl, List.Sublist.subperm ?_⟩
    rw [Downlink.live, Downlink.live, pending]
    cases control with
    | register =>
      simp only [ServerMuxScheduler.apply, ServerMuxScheduler.purge,
        map_append, map_cons, map_nil, append_assoc,
        filterMap_cons, DownlinkControl.queue, singleton_append]
      exact (filter_sublist.map _).append_right _
    | purge => exact (filter_sublist.map _).append_right _
    | frame => exact List.Sublist.refl _
  | emits _ _ _ _ _ _ _ _ front | seesEmpty _ _ _ _ _ _ _ front =>
    left
    refine ⟨rfl, List.Perm.subperm ?_⟩
    rw [Downlink.live, Downlink.live, front]
    exact (perm_append_comm.map _).append_right _
  | seesDisconnected _ _ _ _ _ _ _ front =>
    left
    refine ⟨rfl, List.Sublist.subperm ?_⟩
    rw [Downlink.live, Downlink.live, front]
    exact sublist_cons_self _ _
  | _ => exact .inl ⟨rfl, List.Subperm.refl _⟩

/-- The queue was registered and its receiver dropped since. -/
def Gone (link : Downlink) (queue : Nat) : Prop := queue < link.registered ∧ queue ∉ link.live

theorem Effect.gone (effect : link.Effect next) (gone : link.Gone queue) : next.Gone queue := by
  obtain ⟨known, dead⟩ := gone
  rcases effect.live with ⟨same, fewer⟩ | ⟨_, appended⟩
  · exact ⟨same ▸ known, fun alive => dead (fewer.subset alive)⟩
  · refine ⟨by omega, fun alive => ?_⟩
    rw [appended, mem_append, mem_singleton] at alive
    rcases alive with alive | rfl
    · exact dead alive
    · exact lt_irrefl _ known

theorem Effect.streamId (effect : link.Effect next) (known : queue < link.registered) :
    (next.channels queue).streamId = (link.channels queue).streamId := by
  cases effect with
  | registers =>
    simp only
    rw [update_of_ne (ne_of_lt known)]
  | sends other | hangsUp other | emits _ _ other =>
    by_cases same : queue = other
    · subst same
      simp
    · simp [update_of_ne same]
  | _ => rfl

/-! ## The invariant -/

structure Sound (link : Downlink) : Prop where
  tokens : link.live.Nodup
  known : ∀ queue ∈ link.live, queue < link.registered
  streams : (link.scheduler.queues.map (·.1)).Nodup
  entries : ∀ entry ∈ link.scheduler.queues, (link.channels entry.2).streamId = entry.1
  pending : ∀ streamId queue, .register streamId queue ∈ link.control →
    (link.channels queue).streamId = streamId
  stamped : ∀ queue, ∀ frame ∈ (link.channels queue).items,
    frame.streamId = (link.channels queue).streamId
  fresh : ∀ queue, link.registered ≤ queue → (link.channels queue).items = []
  ordered : ∀ queue, link.sent queue = emittedFrom queue link.log ++ (link.channels queue).items
  kept : ∀ queue < link.registered, queue ∈ link.purged ∨ queue ∈ link.live ∨
    ((link.channels queue).items = [] ∧ (link.channels queue).connected = false)
  answers : link.controlFrames = emittedUnqueued link.log ++
    link.scheduler.unqueued ++ link.control.filterMap DownlinkControl.unqueued
  closed : link.scheduler.controlOpen = false → link.control = [] ∧ link.readerGone = true

theorem Sound.of_mem_queues (sound : link.Sound)
    {entry : UInt32 × Nat} (member : entry ∈ link.scheduler.queues) : entry.2 < link.registered :=
  sound.known _ (mem_append_left _ (mem_map_of_mem member))

theorem Sound.of_pending (sound : link.Sound) {id : UInt32}
    (member : .register id queue ∈ link.control) : queue < link.registered :=
  sound.known _ (mem_append_right _ (mem_filterMap.mpr ⟨_, member, rfl⟩))

theorem sound_new (controlDepth streamQueueDepth : Nat) :
    (new controlDepth streamQueueDepth).Sound where
  tokens := by simp [new, Downlink.live]
  known := by simp [new, Downlink.live]
  streams := by simp [new]
  entries := by simp [new]
  pending := by simp [new]
  stamped := by simp [new]
  fresh := by simp [new]
  ordered := by simp [new, emittedFrom]
  kept := by simp [new]
  answers := by simp [new, emittedUnqueued]
  closed := by simp [new]

section Preservation

variable {link next : Downlink}

variable (effect : link.Effect next)
include effect

theorem Effect.tokens (sound : link.Sound) : next.live.Nodup := by
  rcases effect.live with ⟨_, fewer⟩ | ⟨_, appended⟩
  · obtain ⟨_, permuted, sublist⟩ := fewer
    exact permuted.nodup_iff.mp (sound.tokens.sublist sublist)
  · rw [appended]
    refine List.Nodup.append sound.tokens (nodup_singleton _) ?_
    intro queue alive new
    rw [mem_singleton] at new
    exact lt_irrefl _ (new ▸ sound.known queue alive)

theorem Effect.known (sound : link.Sound) : ∀ queue ∈ next.live, queue < next.registered := by
  intro queue alive
  rcases effect.live with ⟨same, fewer⟩ | ⟨_, appended⟩
  · exact same ▸ sound.known queue (fewer.subset alive)
  · rw [appended, mem_append, mem_singleton] at alive
    rcases alive with alive | rfl
    · have := sound.known queue alive
      omega
    · omega

omit effect in
theorem purge_streams (scheduler : ServerMuxScheduler) (id : UInt32)
    (distinct : (scheduler.queues.map (·.1)).Nodup) :
    ((scheduler.purge id).queues.map (·.1)).Nodup ∧ id ∉ (scheduler.purge id).queues.map (·.1) := by
  refine ⟨distinct.sublist (filter_sublist.map _), ?_⟩
  rw [ServerMuxScheduler.purge]
  simp

theorem Effect.streams (sound : link.Sound) : (next.scheduler.queues.map (·.1)).Nodup := by
  have distinct := sound.streams
  cases effect with
  | takes control =>
    cases control with
    | register id =>
      obtain ⟨nodup, absent⟩ := purge_streams link.scheduler id distinct
      simp only [ServerMuxScheduler.apply, map_append, map_cons, map_nil]
      exact List.Nodup.append nodup (nodup_singleton _) (by simpa using absent)
    | purge id => exact (purge_streams link.scheduler id distinct).1
    | frame => exact distinct
  | emits _ _ _ _ _ _ _ _ front | seesEmpty _ _ _ _ _ _ _ front =>
    rw [front] at distinct
    exact (perm_append_comm.map _).nodup_iff.mp distinct
  | seesDisconnected _ _ _ _ _ _ _ front =>
    rw [front] at distinct
    exact distinct.of_cons
  | _ => exact distinct

/-- Entries come from the control channel and from nowhere else. -/
theorem Effect.mem_queues {entry : UInt32 × Nat} (member : entry ∈ next.scheduler.queues) :
    entry ∈ link.scheduler.queues ∨ .register entry.1 entry.2 ∈ link.control := by
  cases effect with
  | takes control _ _ _ pending =>
    rw [pending]
    cases control with
    | register =>
      simp only [ServerMuxScheduler.apply, ServerMuxScheduler.purge,
        mem_append, mem_filter, mem_singleton] at member
      rcases member with ⟨old, _⟩ | rfl
      · exact .inl old
      · exact .inr mem_cons_self
    | purge => exact .inl (mem_of_mem_filter member)
    | frame => exact .inl member
  | emits _ _ _ rest _ _ _ _ front | seesEmpty _ _ _ rest _ _ _ front =>
    left
    rw [front]
    exact (perm_append_singleton _ rest).subset member
  | seesDisconnected _ _ _ _ _ _ _ front =>
    left
    rw [front]
    exact mem_cons_of_mem _ member
  | _ => exact .inl member

theorem Effect.entries (sound : link.Sound) :
    ∀ entry ∈ next.scheduler.queues, (next.channels entry.2).streamId = entry.1 := by
  intro entry member
  rcases effect.mem_queues member with old | registered
  · rw [effect.streamId (sound.of_mem_queues old)]
    exact sound.entries entry old
  · rw [effect.streamId (sound.of_pending registered)]
    exact sound.pending _ _ registered

theorem Effect.pending (sound : link.Sound) :
    ∀ id queue, .register id queue ∈ next.control → (next.channels queue).streamId = id := by
  intro id queue member
  have old (earlier : .register id queue ∈ link.control) : (next.channels queue).streamId = id := by
    rw [effect.streamId (sound.of_pending earlier)]
    exact sound.pending _ _ earlier
  cases effect with
  | registers =>
    rw [mem_append, mem_singleton] at member
    rcases member with earlier | new
    · exact old earlier
    · cases new
      simp
  | purges | sendsControlFrame => exact old (by simpa using member)
  | takes _ _ _ _ pending => exact old (pending ▸ mem_cons_of_mem _ member)
  | _ => exact old member

theorem Effect.stamped (sound : link.Sound) :
    ∀ queue, ∀ frame ∈ (next.channels queue).items,
      frame.streamId = (next.channels queue).streamId := by
  intro queue frame member
  have old := sound.stamped queue frame
  cases effect with
  | registers =>
    by_cases same : queue = link.registered
    · subst same
      simp at member
    · simp only [update_of_ne same] at member ⊢
      exact old member
  | sends other _ _ stamped =>
    by_cases same : queue = other
    · subst same
      simp only [update_self, mem_append, mem_singleton] at member ⊢
      rcases member with earlier | rfl
      · exact old earlier
      · exact stamped
    · simp only [update_of_ne same] at member ⊢
      exact old member
  | hangsUp other =>
    by_cases same : queue = other
    · subst same
      simp only [update_self] at member ⊢
      exact old member
    · simp only [update_of_ne same] at member ⊢
      exact old member
  | emits _ _ other _ _ _ _ _ _ pending =>
    by_cases same : queue = other
    · subst same
      simp only [update_self] at member ⊢
      exact old (pending ▸ mem_cons_of_mem _ member)
    · simp only [update_of_ne same] at member ⊢
      exact old member
  | _ => exact old member

theorem Effect.fresh (sound : link.Sound) :
    ∀ queue, next.registered ≤ queue → (next.channels queue).items = [] := by
  intro queue
  have old := sound.fresh queue
  cases effect with
  | registers =>
    intro unregistered
    have ne : queue ≠ link.registered := by
      simp only at unregistered
      omega
    simp only [update_of_ne ne]
    exact old (Nat.le_of_succ_le unregistered)
  | sends other _ alive =>
    intro unregistered
    have ne : queue ≠ other := by
      have := sound.known other alive
      simp only at unregistered
      omega
    simpa only [update_of_ne ne] using old unregistered
  | hangsUp other =>
    intro unregistered
    have ne : queue ≠ other := by
      simp only at unregistered
      omega
    simpa only [update_of_ne ne] using old unregistered
  | emits _ _ other _ _ _ _ _ front =>
    intro unregistered
    have ne : queue ≠ other := by
      have := sound.of_mem_queues (front ▸ mem_cons_self)
      simp only at unregistered
      omega
    simpa only [update_of_ne ne] using old unregistered
  | _ => exact old

theorem Effect.ordered (sound : link.Sound) :
    ∀ queue, next.sent queue = emittedFrom queue next.log ++ (next.channels queue).items := by
  intro queue
  have old := sound.ordered queue
  cases effect with
  | registers =>
    by_cases same : queue = link.registered
    · have empty := sound.fresh queue (le_of_eq same.symm)
      rw [empty] at old
      subst same
      simpa using old
    · simpa only [update_of_ne same] using old
  | sends other =>
    by_cases same : queue = other
    · subst same
      simp only [update_self]
      rw [old, append_assoc]
    · simpa only [update_of_ne same] using old
  | hangsUp other =>
    by_cases same : queue = other
    · subst same
      simpa only [update_self] using old
    · simpa only [update_of_ne same] using old
  | emitsUnqueued | seesEmpty | seesDisconnected =>
    simpa [emittedFrom, Observation.frameFrom, filterMap_cons] using old
  | emits _ _ other _ _ _ _ _ _ pending =>
    by_cases same : queue = other
    · subst same
      rw [pending] at old
      simpa [emittedFrom, Observation.frameFrom] using old
    · simpa [emittedFrom, Observation.frameFrom, Ne.symm same, update_of_ne same] using old
  | _ => exact old

omit effect in
theorem mem_live_of_takes {control : DownlinkControl}
    {rest : List DownlinkControl} (pending : link.control = control :: rest)
    {queue : Nat} (alive : queue ∈ link.live) :
    queue ∈ link.dropped control ∨
      queue ∈ (link.scheduler.apply control).queues.map (·.2) ++
        rest.filterMap DownlinkControl.queue := by
  rw [Downlink.live, pending, mem_append] at alive
  -- an entry stays unless it has the substream of the control
  have kept (id : UInt32) (entered : queue ∈ link.scheduler.queues.map (·.2)) :
      queue ∈ (link.scheduler.queues.filter (·.1 = id)).map (·.2) ∨
        queue ∈ (link.scheduler.purge id).queues.map (·.2) := by
    obtain ⟨entry, member, rfl⟩ := mem_map.mp entered
    by_cases same : entry.1 = id
    · left
      exact mem_map_of_mem (mem_filter.mpr ⟨member, by simpa⟩)
    · right
      exact mem_map_of_mem (mem_filter.mpr ⟨member, by simpa⟩)
  cases control with
  | register id =>
    simp only [ServerMuxScheduler.apply, map_append, mem_append,
      filterMap_cons, DownlinkControl.queue, mem_cons] at alive ⊢
    rcases alive with entered | rfl | later
    · rcases kept id entered with gone | stays
      · exact .inl gone
      · exact .inr (.inl (.inl stays))
    · exact .inr (.inl (.inr (by simp)))
    · exact .inr (.inr later)
  | purge id =>
    rcases alive with entered | later
    · rcases kept id entered with gone | stays
      · exact .inl gone
      · exact .inr (mem_append_left _ stays)
    · exact .inr (mem_append_right _ later)
  | frame => exact .inr (mem_append.mpr alive)

theorem Effect.kept (sound : link.Sound) :
    ∀ queue < next.registered, queue ∈ next.purged ∨ queue ∈ next.live ∨
      ((next.channels queue).items = [] ∧ (next.channels queue).connected = false) := by
  intro queue known
  have old := sound.kept queue
  cases effect with
  | registers =>
    by_cases same : queue = link.registered
    · right
      left
      subst same
      simp [Downlink.live, DownlinkControl.queue]
    · simp only at known
      simp only [update_of_ne same]
      refine (old (by omega)).imp_right (Or.imp_left fun alive => ?_)
      rw [Downlink.live] at alive ⊢
      simp only [filterMap_append, ← append_assoc]
      exact mem_append_left _ alive
  | purges | sendsControlFrame =>
    simpa [Downlink.live, filterMap_cons, DownlinkControl.queue] using old known
  | sends other _ alive =>
    by_cases same : queue = other
    · exact .inr (.inl (same ▸ alive))
    · simp only [update_of_ne same]
      exact old known
  | hangsUp other =>
    refine (old known).imp_right (Or.imp_right fun drained => ?_)
    by_cases same : queue = other
    · subst same
      simpa using drained.1
    · simpa only [update_of_ne same] using drained
  | takes _ _ _ _ pending =>
    simp only [mem_append]
    rcases old known with purged | alive | drained
    · exact .inl (.inl purged)
    · rcases mem_live_of_takes pending alive with gone | stays
      · exact .inl (.inr gone)
      · exact .inr (.inl stays)
    · exact .inr (.inr drained)
  | emits _ _ other rest _ _ _ _ front pending =>
    refine (old known).imp_right (Or.imp (fun alive => ?_) fun drained => ?_)
    · rw [Downlink.live, front] at alive
      exact ((perm_append_singleton _ rest).symm.map _ |>.append_right _).subset alive
    · have ne : queue ≠ other := by
        rintro rfl
        rw [pending] at drained
        simp at drained
      simpa only [update_of_ne ne] using drained
  | seesEmpty _ _ _ rest _ _ _ front =>
    refine (old known).imp_right (Or.imp_left fun alive => ?_)
    rw [Downlink.live, front] at alive
    exact ((perm_append_singleton _ rest).symm.map _ |>.append_right _).subset alive
  | seesDisconnected _ _ _ _ _ _ _ front none hungUp =>
    rcases old known with purged | alive | drained
    · exact .inl purged
    · rw [Downlink.live, front, map_cons, cons_append, mem_cons] at alive
      rcases alive with rfl | stays
      · exact .inr (.inr ⟨none, hungUp⟩)
      · exact .inr (.inl stays)
    · exact .inr (.inr drained)
  | _ => exact old known

theorem Effect.answers (sound : link.Sound) :
    next.controlFrames = emittedUnqueued next.log ++
      next.scheduler.unqueued ++ next.control.filterMap DownlinkControl.unqueued := by
  have old := sound.answers
  cases effect with
  | registers | purges => simpa [DownlinkControl.unqueued, filterMap_cons] using old
  | sendsControlFrame => simp [DownlinkControl.unqueued, old]
  | takes control _ _ _ pending =>
    rw [pending] at old
    cases control with
    | register | purge =>
      simpa [DownlinkControl.unqueued, filterMap_cons,
        ServerMuxScheduler.apply, ServerMuxScheduler.purge] using old
    | frame => simpa [DownlinkControl.unqueued, filterMap_cons, ServerMuxScheduler.apply] using old
  | emitsUnqueued _ _ _ _ _ pending =>
    rw [pending] at old
    simpa [emittedUnqueued, Observation.controlFrame, filterMap_cons] using old
  | emits | seesEmpty | seesDisconnected =>
    simpa [emittedUnqueued, Observation.controlFrame, filterMap_cons] using old
  | _ => exact old

theorem Effect.closed (sound : link.Sound) :
    next.scheduler.controlOpen = false → next.control = [] ∧ next.readerGone = true := by
  have old := sound.closed
  cases effect with
  | registers _ found | purges _ found | sendsControlFrame _ found =>
    intro shut
    exact absurd (old shut).2 (by simp [found])
  | readerEnds =>
    intro shut
    exact ⟨(old shut).1, rfl⟩
  | takes control _ accepting =>
    intro shut
    have same : (link.scheduler.apply control).controlOpen = link.scheduler.controlOpen := by
      cases control <;> rfl
    simp [same, accepting] at shut
  | closes drained gone =>
    intro _
    exact ⟨drained, gone⟩
  | _ => exact old

theorem Effect.sound (sound : link.Sound) : next.Sound :=
  ⟨effect.tokens sound, effect.known sound, effect.streams sound,
    effect.entries sound, effect.pending sound, effect.stamped sound,
    effect.fresh sound, effect.ordered sound, effect.kept sound,
    effect.answers sound, effect.closed sound⟩

end Preservation

theorem Runs.sound (runs : link.Runs next) (sound : link.Sound) : next.Sound :=
  runs_induction Effect.sound runs sound

end Downlink

end ParallaX.Mux
