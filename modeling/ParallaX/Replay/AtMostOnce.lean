import ParallaX.Replay.CacheIndex

/-!
# Each handshake is accepted at most once

Runs of immediate and deferred insertions on one cache. The recorded entries
of a run are those whose insertion reported `inserted`. The cache holds exactly
the recorded entries that were live at its last pruning, so that every outcome
is the verdict on the live recorded entries, or an I/O error.
-/

namespace ParallaX.Replay

open ParallaX.Codec ParallaX.Data List

inductive Request where
  | immediate (entry : ReplayEntry) (now : Nat) (flushFaults : List Faults) (faults : Faults)
  | deferred (entry : ReplayEntry) (now : Nat)

namespace Request

def entry : Request → ReplayEntry
  | immediate entry _ _ _ => entry
  | deferred entry _ => entry

def now : Request → Nat
  | immediate _ now _ _ => now
  | deferred _ now => now

def FaultFree : Request → Prop
  | immediate _ _ flushFaults faults => flushFaults = [] ∧ faults = Faults.none
  | deferred _ _ => True

end Request

structure Session where
  cache : ReplayCache
  disk : Disk
  recorded : List ReplayEntry

namespace Session

def start (capacity windowSecs : Nat) (path : Bool)
    (macKey : Option CacheMacKey) (disk : Disk) : Session :=
  ⟨ReplayCache.new capacity windowSecs path macKey, disk, []⟩

def record (session : Session) (cache : ReplayCache) (disk : Disk) (entry : ReplayEntry)
    (result : Except ReplayCacheError ReplayInsertOutcome) : Session :=
  { cache := cache
    disk := disk
    recorded :=
      match result with
      | .ok .inserted => session.recorded ++ [entry]
      | _ => session.recorded }

theorem record_of_ne (session : Session) (cache : ReplayCache) (disk : Disk)
    (entry : ReplayEntry) {result : Except ReplayCacheError ReplayInsertOutcome}
    (refused : result ≠ .ok .inserted) :
    session.record cache disk entry result = ⟨cache, disk, session.recorded⟩ := by
  unfold record
  split
  · exact absurd rfl refused
  · rfl

def serve (session : Session) :
    Request → Session × Except ReplayCacheError ReplayInsertOutcome
  | .immediate entry now flushFaults faults =>
    let (cache, disk, result) :=
      session.cache.insertNewOutcome session.disk entry now flushFaults faults
    (session.record cache disk entry result, result)
  | .deferred entry now =>
    let (cache, outcome) := session.cache.insertNewOutcomeDeferred entry now
    (session.record cache session.disk entry (.ok outcome), .ok outcome)

def serveAll (session : Session) (requests : List Request) : Session :=
  requests.foldl (fun current request => (current.serve request).1) session

end Session

open ReplayCache

variable {live : List ReplayEntry} {entry : ReplayEntry}
  {window cap clock now : Nat} {path : Bool} {session : Session}
  (cache : ReplayCache) (key : CacheMacKey) (disk : Disk)

/-- A cache that holds the recorded entries live at some time up to `clock`. -/
structure Tracks (capacity windowSecs : Nat) (path : Bool)
    (session : Session) (clock : Nat) : Prop where
  indexed : Indexed session.cache
  capacity_eq : session.cache.capacity = capacity
  window_eq : session.cache.windowSecs = windowSecs
  path_eq : session.cache.path = path
  order_eq :
    ∃ pruned ≤ clock, session.cache.order = session.recorded.filter (isUnexpired windowSecs pruned)

variable {later : Nat} (faults : Faults)

theorem filter_isUnexpired_filter {earlier : Nat} (le : earlier ≤ later)
    (entries : List ReplayEntry) :
    (entries.filter (isUnexpired window earlier)).filter (isUnexpired window later) =
      entries.filter (isUnexpired window later) := by
  rw [filter_filter]
  apply filter_congr
  intro entry _
  rw [Bool.eq_iff_iff]
  simp only [isUnexpired, Bool.and_eq_true, decide_eq_true_eq]
  omega

/-- The outcome that the live recorded entries call for. -/
def due (capacity windowSecs : Nat) (recorded : List ReplayEntry)
    (request : Request) : ReplayInsertOutcome :=
  verdict capacity windowSecs (recorded.filter (isUnexpired windowSecs request.now)) request.entry
    request.now

/-! ### Results of the disk operations -/

theorem persistAuthenticatedEntry_result (pending? : Option ReplayEntry) (faults : Faults) :
    (∃ compacted, (cache.persistAuthenticatedEntry key disk pending? faults).2.2 = .ok compacted) ∨
      (faults ≠ Faults.none ∧
        (cache.persistAuthenticatedEntry key disk pending? faults).2.2 = .error .io) := by
  obtain ⟨compact, append⟩ := faults
  rcases persistAuthenticatedEntry_cases cache key disk pending? ⟨compact, append⟩ with
    ⟨_, _, compacts⟩ | ⟨_, _, _, _, _, _, _, _, appends⟩
  · rw [compacts]
    cases compact with
    | none => exact .inl ⟨_, rfl⟩
    | beforeRename | afterRename => exact .inr ⟨nofun, rfl⟩
  · rw [appends]
    cases append with
    | none => exact .inl ⟨_, rfl⟩
    | beforeWrite | header => exact .inr ⟨nofun, rfl⟩
    | append _ truncated =>
      refine .inr ⟨nofun, ?_⟩
      cases truncated <;> rfl

theorem persistPlain_result :
    (cache.persistPlain disk faults.compact).2 = .ok () ∨
      (faults ≠ Faults.none ∧ (cache.persistPlain disk faults.compact).2 = .error .io) := by
  obtain ⟨compact, _⟩ := faults
  cases compact with
  | none => exact .inl rfl
  | beforeRename | afterRename => exact .inr ⟨by simp [Faults.none], rfl⟩

theorem persist_result :
    (cache.persist disk faults).2.2 = .ok () ∨
      (cache.path = true ∧ faults ≠ Faults.none ∧
        (cache.persist disk faults).2.2 = .error .io) := by
  unfold persist
  by_cases onDisk : cache.path = true
  · simp only [onDisk, Bool.not_true, Bool.false_eq_true, if_false, true_and]
    split
    · exact persistPlain_result cache disk faults
    next key _ =>
      rcases persistAuthenticatedEntry_result cache key disk
          cache.order.getLast? faults with ⟨_, done⟩ | ⟨faulty, failed⟩
      · left
        simp only [done]
        rfl
      · right
        refine ⟨faulty, ?_⟩
        simp only [failed]
        rfl
  · left
    simp [onDisk]

theorem drainPending_result (queue : List ReplayEntry) (faults : List Faults) :
    (cache.drainPending disk queue faults).2.2 = .ok () ∨
      (cache.path = true ∧ faults ≠ [] ∧
        (cache.drainPending disk queue faults).2.2 = .error .io) := by
  induction queue generalizing cache disk faults with
  | nil => exact .inl rfl
  | cons entry _ ih =>
    have faultyHead : faults.headD .none ≠ .none → faults ≠ [] := by
      rintro faulty rfl
      exact faulty rfl
    unfold drainPending
    by_cases known : entry.nonce ∈ cache.nonces
    · rw [if_neg (by simpa using known)]
      by_cases onDisk : cache.path = true
      · simp only [onDisk, Bool.not_true, Bool.false_eq_true, if_false]
        split
        · have result := persistPlain_result cache disk (faults.headD .none)
          split
          next shape =>
            rw [shape] at result
            rcases result with impossible | ⟨faulty, isIo⟩
            · cases impossible
            · cases isIo
              exact .inr ⟨trivial, faultyHead faulty, rfl⟩
          · exact .inl rfl
        next key _ =>
          have result :=
            persistAuthenticatedEntry_result cache key disk (some entry) (faults.headD .none)
          split
          next shape =>
            rw [shape] at result
            rcases result with ⟨_, impossible⟩ | ⟨faulty, isIo⟩
            · cases impossible
            · cases isIo
              exact .inr ⟨trivial, faultyHead faulty, rfl⟩
          · exact .inl rfl
          next persisted later _ =>
            rcases ih persisted later (faults.drop 1) with
              done | ⟨_, faulty, failed⟩
            · exact .inl done
            · refine .inr ⟨trivial, ?_, failed⟩
              rintro rfl
              exact faulty rfl
      · left
        simp [onDisk]
    · rw [if_pos (by simpa using known)]
      exact ih cache disk faults

/-! ### What a request does -/

section

variable (tracks : Tracks cap window path session clock)
include tracks

theorem Tracks.mono (le : clock ≤ later) : Tracks cap window path session later := by
  obtain ⟨pruned, prunedLe, orderEq⟩ := tracks.order_eq
  exact { tracks with order_eq := ⟨pruned, prunedLe.trans le, orderEq⟩ }

variable {cache}

omit tracks in
theorem Tracks.of_sameMemory (disk : Disk)
    (tracks : Tracks cap window path session clock)
    (same : SameMemory session.cache cache) :
    Tracks cap window path
      { session with cache := cache, disk := disk } clock := by
  obtain ⟨inv, capacityEq, windowEq, pathEq, orderEq⟩ := tracks
  have indexed' := same.indexed inv
  refine ⟨indexed', ?_, ?_, ?_, ?_⟩
  · rw [same]
    exact capacityEq
  · rw [same]
    exact windowEq
  · rw [same]
    exact pathEq
  · rw [same]
    exact orderEq

theorem Tracks.stageInsert (later : clock ≤ now) :
    (session.cache.stageInsert entry now).2 =
      verdict cap window
        (session.recorded.filter (isUnexpired window now)) entry now := by
  obtain ⟨inv, capacityEq, windowEq, _, _, prunedLe, orderEq⟩ := tracks
  have staged := (inv.stageInsert entry now).1
  rw [capacityEq, windowEq, orderEq, filter_isUnexpired_filter (prunedLe.trans later)] at staged
  exact staged

/-- The state after a staged entry that was refused. -/
theorem Tracks.pruneExpired (later : clock ≤ now) :
    (session.cache.pruneExpired now).order = session.recorded.filter (isUnexpired window now) ∧
      Tracks cap window path
        ⟨session.cache.pruneExpired now, disk, session.recorded⟩ now := by
  obtain ⟨inv, capacityEq, windowEq, pathEq, _, prunedLe, orderEq⟩ := tracks
  obtain ⟨sameCapacity, sameWindow, samePath, _⟩ := pruneExpired_frame session.cache now
  have order := inv.order_pruneExpired now
  rw [windowEq, orderEq, filter_isUnexpired_filter (prunedLe.trans later)] at order
  exact ⟨order, inv.pruneExpired now, sameCapacity.trans capacityEq,
    sameWindow.trans windowEq, samePath.trans pathEq, now, le_rfl, order⟩

omit tracks in
theorem verdict_inserted (inserted : verdict cap window live entry now = .inserted) :
    isUnexpired window now entry = true ∧ (∀ recorded ∈ live, ¬ Clash recorded entry) ∧
      live.length < cap := by
  unfold verdict at inserted
  split at inserted
  · cases inserted
  next fresh =>
    split at inserted
    · cases inserted
    next apart =>
      split at inserted
      · cases inserted
      next room =>
        refine ⟨?_, ?_, by omega⟩
        · simp only [Bool.not_eq_true', Bool.not_eq_false, Bool.and_eq_true] at fresh
          exact fresh.2
        · intro recorded member clash
          exact apart ⟨recorded, member, clash⟩

theorem Tracks.inserted (later : clock ≤ now)
    (live : isUnexpired window now entry = true)
    (same : SameMemory ((session.cache.pruneExpired now).insertLoaded entry) cache) :
    Tracks cap window path ⟨cache, disk, session.recorded ++ [entry]⟩ now := by
  obtain ⟨order, pruned⟩ := tracks.pruneExpired disk later
  have pushed : Tracks cap window path
      ⟨(session.cache.pruneExpired now).insertLoaded entry, disk,
        session.recorded ++ [entry]⟩ now :=
    ⟨pruned.indexed.pushLoadedEntry, pruned.capacity_eq, pruned.window_eq,
      pruned.path_eq, now, le_rfl, by
        simp [insertLoaded, pushLoadedEntry, order, live]⟩
  exact pushed.of_sameMemory disk same

theorem Tracks.rolledBack (later : clock ≤ now)
    (freshNonce : entry.nonce ∉ (session.cache.pruneExpired now).nonces)
    (freshTranscript : entry.transcriptFingerprint ∉ (session.cache.pruneExpired now).transcripts)
    (same : SameMemory ((session.cache.pruneExpired now).insertLoaded entry) cache) :
    Tracks cap window path ⟨cache.rollBack entry, disk, session.recorded⟩ now := by
  obtain ⟨order, pruned⟩ := tracks.pruneExpired disk later
  have inv := pruned.indexed.rollBack freshNonce freshTranscript same
  rw [rollBack_insertLoaded freshNonce freshTranscript same] at inv ⊢
  exact ⟨inv, pruned.capacity_eq, pruned.window_eq, pruned.path_eq, now, le_rfl, order⟩

end

theorem flushPending_cases (faults : List Faults) :
    ∃ flushed later, SameMemory cache flushed ∧
      ((cache.path = true ∧ faults ≠ [] ∧
          cache.flushPending disk faults = (flushed, later, .error .io)) ∨
        cache.flushPending disk faults = (flushed, later, .ok ())) := by
  unfold flushPending
  by_cases idle : cache.pendingPersist.isEmpty = true
  · exact ⟨cache, disk, .refl cache, .inr (if_pos idle)⟩
  · rw [if_neg idle]
    unfold persistPending
    have same := (drainPending_memory cache disk cache.pendingPersist faults).1
    have result := drainPending_result cache disk cache.pendingPersist faults
    generalize cache.drainPending disk cache.pendingPersist faults = drained at same result ⊢
    obtain ⟨flushed, later, _⟩ := drained
    refine ⟨flushed, later, same, ?_⟩
    rcases result with done | ⟨onDisk, faulty, failed⟩
    · right
      simp only at done
      rw [done]
    · left
      simp only at failed
      exact ⟨onDisk, faulty, by rw [failed]⟩

theorem stageAndPersist_cases (entry : ReplayEntry) (now : Nat) (faults : Faults) :
    let pruned := cache.pruneExpired now
    ((cache.stageInsert entry now).2 ≠ .inserted ∧
        cache.stageAndPersist disk entry now faults =
          (pruned, disk, .ok (cache.stageInsert entry now).2)) ∨
      ((cache.stageInsert entry now).2 = .inserted ∧ entry.nonce ∉ pruned.nonces ∧
        entry.transcriptFingerprint ∉ pruned.transcripts ∧
        pruned.order.length < pruned.capacity ∧
        ∃ persisted after stored,
          (pruned.insertLoaded entry).persist disk faults = (persisted, after, stored) ∧
          SameQueue (pruned.insertLoaded entry) persisted ∧
          (cache.stageAndPersist disk entry now faults = (persisted, after, .ok .inserted) ∨
            (cache.path = true ∧ faults ≠ .none ∧
              cache.stageAndPersist disk entry now faults =
                (persisted.rollBack entry, after, .error .io)))) := by
  have samePath := (pruneExpired_frame cache now).2.2.1
  unfold stageAndPersist
  rcases stageInsert_cases cache entry now with
    ⟨_, staged, refused⟩ | ⟨staged, freshNonce, freshTranscript, room⟩
  · left
    simp [staged, refused]
  · right
    rw [staged]
    refine ⟨rfl, freshNonce, freshTranscript, room, ?_⟩
    have same := persist_sameQueue ((cache.pruneExpired now).insertLoaded entry) disk faults
    have result := persist_result ((cache.pruneExpired now).insertLoaded entry) disk faults
    simp only [ne_eq, not_true_eq_false, if_false]
    generalize ((cache.pruneExpired now).insertLoaded entry).persist disk
      faults = persistence at same result ⊢
    obtain ⟨persisted, after, stored⟩ := persistence
    refine ⟨persisted, after, stored, rfl, same, ?_⟩
    rcases result with done | ⟨onDisk, faulty, failed⟩
    · left
      simp only at done
      rw [done]
    · right
      simp only at failed
      rw [failed]
      exact ⟨samePath ▸ onDisk, faulty, rfl⟩

theorem Tracks.serve (request : Request) (tracks : Tracks cap window path session clock)
    (pos : 0 < cap) (later : clock ≤ request.now) :
    Tracks cap window path (session.serve request).1 request.now ∧
      ((session.serve request).2 = .ok (due cap window session.recorded request) ∨
        (path = true ∧ ¬ request.FaultFree ∧ (session.serve request).2 = .error .io)) := by
  have enabled : session.cache.capacity ≠ 0 := by
    rw [tracks.capacity_eq]
    omega
  cases request with
  | deferred entry now =>
    have outcome :
        (session.cache.stageInsert entry now).2 =
          due cap window session.recorded (.deferred entry now) :=
      tracks.stageInsert later
    simp only [Session.serve, insertNewOutcomeDeferred, if_neg enabled]
    rcases stageInsert_cases session.cache entry now with
      ⟨_, staged, refused⟩ | ⟨staged, _⟩
    · simp only [staged, refused, if_false] at outcome ⊢
      refine ⟨?_, .inl (by rw [outcome])⟩
      rw [Session.record_of_ne _ _ _ _ (by simpa using refused)]
      exact (tracks.pruneExpired session.disk later).2
    · simp only [staged, if_true] at outcome ⊢
      exact ⟨tracks.inserted session.disk later
          (verdict_inserted outcome.symm).1 rfl, .inl (by rw [outcome])⟩
  | immediate entry now flushFaults faults =>
    obtain ⟨flushed, flushedDisk, same, failed | done⟩ :=
      flushPending_cases session.cache session.disk flushFaults
    · obtain ⟨onDisk, faulty, failed⟩ := failed
      simp only [Session.serve, insertNewOutcome, if_neg enabled, failed]
      refine ⟨?_, .inr ⟨tracks.path_eq ▸ onDisk, ?_, trivial⟩⟩
      · have kept := tracks.of_sameMemory flushedDisk same
        exact kept.mono later
      · rintro ⟨noFlushFaults, _⟩
        exact faulty noFlushFaults
    · have flushedTracks := tracks.of_sameMemory flushedDisk same
      have outcome :
          (flushed.stageInsert entry now).2 =
            due cap window session.recorded (.immediate entry now flushFaults faults) :=
        flushedTracks.stageInsert later
      simp only [Session.serve, insertNewOutcome, if_neg enabled, done]
      rcases stageAndPersist_cases flushed flushedDisk entry now faults with
        ⟨refused, result⟩ | ⟨kept, freshNonce, freshTranscript, _, _,
          after, _, _, stored, result | ⟨onDisk, faulty, result⟩⟩
      · simp only [result]
        refine ⟨?_, .inl ?_⟩
        · rw [Session.record_of_ne _ _ _ _ (by simpa using refused)]
          exact (flushedTracks.pruneExpired flushedDisk later).2
        · exact congrArg Except.ok outcome
      · simp only [result]
        have due := kept.symm.trans outcome
        exact ⟨flushedTracks.inserted after later (verdict_inserted due.symm).1 stored.sameMemory,
          .inl (congrArg Except.ok due)⟩
      · simp only [result]
        refine ⟨flushedTracks.rolledBack after later freshNonce freshTranscript stored.sameMemory,
          .inr ⟨flushedTracks.path_eq ▸ onDisk, ?_, trivial⟩⟩
        rintro ⟨_, noFaults⟩
        exact faulty noFaults

/-! ## Runs -/

/-- Requests at ordered times are tracked up to the last of them. -/
theorem Tracks.serveAll {history : List Request}
    (tracks : Tracks cap window path session clock) (pos : 0 < cap)
    (ordered : (history.map Request.now).Pairwise (· ≤ ·))
    (after : ∀ request ∈ history, clock ≤ request.now)
    (clockLe : clock ≤ now) (before : ∀ request ∈ history, request.now ≤ now) :
    Tracks cap window path (session.serveAll history) now := by
  induction history generalizing session clock with
  | nil => exact tracks.mono clockLe
  | cons request _ ih =>
    have served := (tracks.serve request pos (after request (by simp))).1
    obtain ⟨first, rest⟩ := pairwise_cons.mp ordered
    refine ih served rest ?_ (before request (by simp)) ?_
    · intro later member
      exact first later.now (mem_map_of_mem member)
    · intro later member
      exact before later (by simp [member])

/-- Below `2 ^ 64` the saturating comparison is the plain one. -/
theorem le_saturatingAdd_iff {value left right : Nat} (fits : value < 2 ^ 64) :
    value ≤ saturatingAdd left right ↔ value ≤ left + right := by
  unfold saturatingAdd U64_MAX
  omega

theorem isUnexpired_iff (clock : now < 2 ^ 64) :
    isUnexpired window now entry = true ↔ now ≤ entry.timestamp + window :=
  decide_eq_true_iff.trans (le_saturatingAdd_iff clock)

/-- After every run of insertions at ordered times, an entry recorded before is
refused for ever, an entry that clashes with a recorded one is refused while
the recorded one is live, and a fresh entry that clashes with no live one is
recorded as long as there is room. -/
theorem serve_records_at_most_once
    (capacity windowSecs : Nat) (path : Bool) (macKey : Option CacheMacKey)
    (disk : Disk) (history : List Request) (request : Request) (positive : 0 < capacity)
    (ordered : ((history ++ [request]).map Request.now).Pairwise (· ≤ ·))
    (clock : request.now < 2 ^ 64) : let session :=
      (Session.start capacity windowSecs path macKey disk).serveAll history
    (request.entry ∈ session.recorded →
        (session.serve request).2 ≠ .ok .inserted) ∧
      (∀ recorded ∈ session.recorded, Clash recorded request.entry →
        request.now ≤ recorded.timestamp + windowSecs → (session.serve request).2 ≠ .ok .inserted) ∧
      (request.entry.timestamp ≤ request.now + MAX_FUTURE_SKEW_SECS →
        request.now ≤ request.entry.timestamp + windowSecs →
        (∀ recorded ∈ session.recorded,
          request.now ≤ recorded.timestamp + windowSecs → ¬ Clash recorded request.entry) →
        (session.recorded.filter fun recorded =>
          request.now ≤ recorded.timestamp + windowSecs).length < capacity →
        (path = true → request.FaultFree) → (session.serve request).2 = .ok .inserted) := by
  intro session
  rw [map_append, pairwise_append] at ordered
  obtain ⟨historyOrdered, _, before⟩ := ordered
  have start : Tracks capacity windowSecs path (.start capacity windowSecs path macKey disk) 0 :=
    ⟨indexed_new capacity windowSecs path macKey, rfl, rfl, rfl, 0, le_rfl, rfl⟩
  have tracks := start.serveAll positive historyOrdered (fun _ _ => Nat.zero_le _)
    (Nat.zero_le _) fun earlier member =>
      before earlier.now (mem_map_of_mem member) request.now (by simp)
  obtain ⟨_, outcome⟩ := tracks.serve request positive le_rfl
  have liveIff entry : isUnexpired windowSecs request.now entry = true ↔
        request.now ≤ entry.timestamp + windowSecs :=
    isUnexpired_iff clock
  have inserted (result : (session.serve request).2 = .ok .inserted) :
      due capacity windowSecs session.recorded request = .inserted := by
    rcases outcome with isDue | ⟨_, _, isError⟩
    · exact Except.ok.inj (isDue.symm.trans result)
    · rw [isError] at result
      cases result
  refine ⟨?_, ?_, ?_⟩
  · intro member result
    obtain ⟨live, apart, -⟩ := verdict_inserted (inserted result)
    exact apart request.entry (mem_filter.mpr ⟨member, live⟩) (.inl rfl)
  · intro recorded member clash live result
    obtain ⟨-, apart, -⟩ := verdict_inserted (inserted result)
    exact apart recorded (mem_filter.mpr ⟨member, (liveIff recorded).mpr live⟩) clash
  · intro notAhead notStale apart _ quiet
    rcases outcome with isDue | ⟨onDisk, faulty, _⟩
    · rw [isDue]
      have fresh :
          (decide (request.entry.timestamp ≤ saturatingAdd request.now MAX_FUTURE_SKEW_SECS) &&
            isUnexpired windowSecs request.now request.entry) = true := by
        rw [(liveIff request.entry).mpr notStale, Bool.and_true, decide_eq_true_iff,
          le_saturatingAdd_iff request.entry.timestamp_lt]
        exact notAhead
      have noClash :
          ¬ ∃ recorded ∈ session.recorded.filter (isUnexpired windowSecs request.now),
            Clash recorded request.entry := by
        rintro ⟨recorded, member, clash⟩
        obtain ⟨recordedMember, live⟩ := mem_filter.mp member
        exact apart recorded recordedMember ((liveIff recorded).mp live) clash
      have roomLeft :
          ¬ capacity ≤ (session.recorded.filter (isUnexpired windowSecs request.now)).length := by
        have sameFilter :
            session.recorded.filter (isUnexpired windowSecs request.now) =
              session.recorded.filter fun recorded =>
                request.now ≤ recorded.timestamp + windowSecs := by
          apply filter_congr
          intro _ _
          rw [Bool.eq_iff_iff, liveIff, decide_eq_true_eq]
        rw [sameFilter]
        omega
      unfold due verdict
      rw [fresh, if_neg (by simp), if_neg noClash, if_neg roomLeft]
    · exact absurd (quiet onDisk) faulty

/-- A handshake that comes back within the window of an in-memory cache. -/
theorem serve_records_at_most_once_replay : let first : ReplayEntry :=
      ⟨100, List.Vector.replicate 8 1, List.Vector.replicate 32 2, by decide⟩
    let session :=
      (Session.start 2 120 false none .empty).serveAll [.immediate first 100 [] Faults.none]
    first ∈ session.recorded ∧ (session.serve (.deferred first 220)).2 ≠ .ok .inserted := by
  intro first session
  have recorded : first ∈ session.recorded := by decide
  exact ⟨recorded,
    (serve_records_at_most_once 2 120 false none .empty
      [.immediate first 100 [] Faults.none] (.deferred first 220)
      (by decide) (by simp [Request.now]) (by simp [Request.now])).1 recorded⟩

end ParallaX.Replay
