import ParallaX.Codec.Reader
import ParallaX.Replay.CrashSafety

/-!
# Runs of the replay cache

Insertions, deferred insertions, drains of the queue and prunings in any order,
with any faults of their disk operations. The indexes of the cache stay those
of its recorded entries, and its journal state stays the one that the file
holds.
-/

namespace ParallaX.Replay

open ParallaX.Codec ParallaX.Data ReplayCache List

inductive CacheRun (starts : ReplayCache → Disk → Prop) :
    ReplayCache → Disk → Prop
  | start {cache : ReplayCache} {disk : Disk} (begins : starts cache disk) :
      CacheRun starts cache disk
  | insert {cache : ReplayCache} {disk : Disk}
      (before : CacheRun starts cache disk) (entry : ReplayEntry) (now : Nat)
      (flushFaults : List Faults) (faults : Faults) :
      CacheRun starts (cache.insertNewOutcome disk entry now flushFaults faults).1
        (cache.insertNewOutcome disk entry now flushFaults faults).2.1
  | insertDeferred {cache : ReplayCache} {disk : Disk}
      (before : CacheRun starts cache disk) (entry : ReplayEntry) (now : Nat) :
      CacheRun starts (cache.insertNewOutcomeDeferred entry now).1 disk
  | persistPending {cache : ReplayCache} {disk : Disk}
      (before : CacheRun starts cache disk) (faults : List Faults) :
      CacheRun starts (cache.persistPending disk faults).1 (cache.persistPending disk faults).2.1
  | prune {cache : ReplayCache} {disk : Disk} (before : CacheRun starts cache disk) (now : Nat) :
      CacheRun starts (cache.pruneExpired now) disk

variable {cache other : ReplayCache} {disk : Disk} {entry : ReplayEntry}

/-! ## Indexes -/

variable (now : Nat)

namespace ReplayCache

/-- Every index is the one of the recorded entries. -/
structure Exact (cache : ReplayCache) : Prop where
  nonces_eq : cache.nonces = (cache.order.map ReplayEntry.nonce).toFinset
  transcripts_eq :
    cache.transcripts = (cache.order.map ReplayEntry.transcriptFingerprint).toFinset
  oldest_eq : cache.oldestTimestamp = (cache.order.map ReplayEntry.timestamp).min?
  encoded_eq :
    cache.plain = true → cache.encodedEntries = cache.order.map encodePlainEntry
  pending_sublist : cache.pendingPersist.Sublist cache.order

theorem exact_new (cap window : Nat) (path : Bool) (macKey : Option CacheMacKey) :
    Exact (new cap window path macKey) :=
  ⟨rfl, rfl, rfl, fun _ => rfl, List.Sublist.refl _⟩

private theorem toFinset_concat {α : Type} [DecidableEq α] (items : List α) (item : α) :
    insert item items.toFinset = (items ++ [item]).toFinset := by
  ext other
  rw [Finset.mem_insert, List.mem_toFinset, List.mem_toFinset, List.mem_append,
    List.mem_singleton]
  exact or_comm

theorem flushPending_memory (cache : ReplayCache) (disk : Disk) (faults : List Faults) :
    SameMemory cache (cache.flushPending disk faults).1 ∧
      (cache.flushPending disk faults).1.pendingPersist <:+
        cache.pendingPersist := by
  unfold flushPending
  split
  · exact ⟨rfl, suffix_rfl⟩
  · exact drainPending_memory cache disk cache.pendingPersist faults

namespace Exact

variable (exact : Exact cache)
include exact

theorem of_sameMemory (same : SameMemory cache other)
    (queue : other.pendingPersist.Sublist cache.order) : Exact other := by
  rw [same]
  exact { exact with pending_sublist := queue }

theorem of_sameQueue (same : SameQueue cache other) : Exact other := by
  rw [same]
  exact { exact with }

theorem pruneExpired : Exact (cache.pruneExpired now) := by
  rcases pruneExpired_cases cache now with same | rebuilt
  · rw [same]
    exact exact
  · rw [rebuilt]
    exact ⟨rfl, rfl, foldl_foldOldest _, fun isPlain => if_pos isPlain,
      exact.pending_sublist.filter _⟩

theorem insertLoaded (entry : ReplayEntry) : Exact (cache.insertLoaded entry) where
  nonces_eq := by
    simp only [ReplayCache.insertLoaded, pushLoadedEntry, exact.nonces_eq,
      toFinset_concat, map_append, map_singleton]
  transcripts_eq := by
    simp only [ReplayCache.insertLoaded, pushLoadedEntry, exact.transcripts_eq,
      toFinset_concat, map_append, map_singleton]
  oldest_eq := by
    simp only [ReplayCache.insertLoaded, pushLoadedEntry]
    rw [exact.oldest_eq, ← foldl_foldOldest, ← foldl_foldOldest, foldl_append]
    rfl
  encoded_eq := by
    intro isPlain
    refine (if_pos isPlain).trans ?_
    rw [exact.encoded_eq isPlain]
    simp [ReplayCache.insertLoaded, pushLoadedEntry]
  pending_sublist := exact.pending_sublist.trans (sublist_append_left _ _)

theorem foldl_insertLoaded (entries : List ReplayEntry) :
    Exact (entries.foldl ReplayCache.insertLoaded cache) := by
  induction entries generalizing cache with
  | nil => exact exact
  | cons entry _ ih => exact ih (exact.insertLoaded entry)

theorem rollBack (freshNonce : entry.nonce ∉ cache.nonces)
    (freshTranscript : entry.transcriptFingerprint ∉ cache.transcripts)
    (same : SameQueue (cache.insertLoaded entry) other) :
    SameQueue cache (other.rollBack entry) := by
  have oldest :
      (if foldOldest cache.oldestTimestamp entry = some entry.timestamp then
        (cache.order.map ReplayEntry.timestamp).min?
      else foldOldest cache.oldestTimestamp entry) = cache.oldestTimestamp := by
    rw [← exact.oldest_eq]
    split
    · rfl
    next older =>
      cases mark : cache.oldestTimestamp with
      | none =>
        rw [mark] at older
        exact absurd rfl older
      | some oldest =>
        rw [mark] at older
        simp only [foldOldest, Option.elim_some, Option.some.injEq] at older ⊢
        omega
  have queue : other.pendingPersist = cache.pendingPersist := by
    rw [same]
    rfl
  have rolled := rollBack_insertLoaded freshNonce freshTranscript same.sameMemory
  rw [oldest, queue] at rolled
  rw [rolled]
  rfl

theorem stageAndPersist (disk : Disk) (entry : ReplayEntry) (now : Nat) (faults : Faults) :
    let outcome := cache.stageAndPersist disk entry now faults
    let pruned := cache.pruneExpired now
    (outcome.2.2 = .ok .inserted ∧ SameQueue (pruned.insertLoaded entry) outcome.1) ∨
      (outcome.2.2 ≠ .ok .inserted ∧ SameQueue pruned outcome.1) := by
  rcases stageAndPersist_cases cache disk entry now faults with
    ⟨refused, result⟩ | ⟨_, freshNonce, freshTranscript, _, _, _, _, _, same,
      result | ⟨_, _, result⟩⟩
  · rw [result]
    exact .inr ⟨fun ok => refused (Except.ok.inj ok), rfl⟩
  · rw [result]
    exact .inl ⟨rfl, same⟩
  · rw [result]
    exact .inr ⟨nofun, (exact.pruneExpired now).rollBack freshNonce freshTranscript same⟩

theorem of_suffix (drained : SameMemory cache other ∧
      other.pendingPersist <:+ cache.pendingPersist) : Exact other :=
  exact.of_sameMemory drained.1 (drained.2.sublist.trans exact.pending_sublist)

theorem insertNewOutcome (disk : Disk)
    (entry : ReplayEntry) (now : Nat) (flushFaults : List Faults) (faults : Faults) :
    Exact (cache.insertNewOutcome disk entry now flushFaults faults).1 := by
  have flushed := exact.of_suffix (flushPending_memory cache disk flushFaults)
  unfold ReplayCache.insertNewOutcome
  split
  · exact exact
  split
  next result =>
    rw [result] at flushed
    exact flushed
  next result =>
    rw [result] at flushed
    have pruned := flushed.pruneExpired now
    rcases flushed.stageAndPersist _ entry now faults with
      ⟨_, same⟩ | ⟨_, same⟩
    · exact (pruned.insertLoaded entry).of_sameQueue same
    · exact pruned.of_sameQueue same

variable (entry)

theorem insertNewOutcomeDeferred : Exact (cache.insertNewOutcomeDeferred entry now).1 := by
  have pruned := exact.pruneExpired now
  unfold ReplayCache.insertNewOutcomeDeferred
  split
  · exact exact
  rcases stageInsert_cases cache entry now with
    ⟨_, result, refused⟩ | ⟨result, _⟩
  · simp only [result, refused, if_false]
    exact pruned
  · simp only [result, if_true]
    exact { pruned.insertLoaded entry with
      pending_sublist := pruned.pending_sublist.append (.refl [entry]) }

end Exact

end ReplayCache

def Created (cache : ReplayCache) (disk : Disk) : Prop :=
  (∃ capacity windowSecs path macKey,
      cache = new capacity windowSecs path macKey) ∨
    (∃ capacity windowSecs now readFails,
      loadOrCreate capacity windowSecs now disk readFails = .ok cache) ∨
    ∃ macKey capacity windowSecs now found readFails fault,
      loadAuthenticatedWithWindow macKey capacity windowSecs now found
        readFails fault = (disk, .ok cache)

theorem Created.exact (created : Created cache disk) : Exact cache := by
  rcases created with ⟨cap, window, path, macKey, rfl⟩ |
    ⟨cap, window, now, _, loaded⟩ |
    ⟨macKey, cap, window, now, _, _, fault, loaded⟩
  · exact exact_new cap window path macKey
  · unfold loadOrCreate at loaded
    split at loaded
    · cases loaded
      exact exact_new _ _ _ _
    split at loaded
    · cases loaded
    · obtain ⟨entries, _, rest⟩ := exists_of_bind_eq_ok loaded
      cases rest
      exact ((exact_new _ _ _ _).foldl_insertLoaded entries).pruneExpired now
  · have start (journal : AuthJournalState) : Exact
        { fresh macKey cap window with authJournal := some journal } :=
      (exact_new cap window true (some macKey)).of_sameQueue rfl
    unfold loadAuthenticatedWithWindow at loaded
    split at loaded
    · cases loaded
      exact start _
    dsimp only at loaded
    split at loaded
    · cases loaded
    split at loaded
    · cases loaded
      exact start _
    split at loaded
    · cases loaded
    rename_i entries journal needsRewrite _
    have adopted := ((start journal).foldl_insertLoaded entries).pruneExpired now
    split at loaded
    · split at loaded
      · cases loaded
      next result =>
        cases loaded
        refine adopted.of_sameQueue ?_
        cases fault with
        | none =>
          cases result
          rfl
        | beforeRename | afterRename => cases result
    · cases loaded
      exact adopted

theorem CacheRun.exact (run : CacheRun Created cache disk) : Exact cache := by
  induction run with
  | start begins => exact begins.exact
  | insert _ entry now flushFaults faults ih =>
    exact ih.insertNewOutcome _ entry now flushFaults faults
  | insertDeferred _ entry now ih => exact ih.insertNewOutcomeDeferred entry now
  | persistPending _ faults ih => exact ih.of_suffix (drainPending_memory _ _ _ faults)
  | prune _ now ih => exact ih.pruneExpired now

/-- In every run the indexes are those of the recorded entries, and an insertion
that does not record its entry leaves them as the pruning makes them, which
comes after the queue has been drained. When the drain fails there is no
pruning, and the rest of the queue is all that differs. -/
theorem CacheRun.indexes_consistent (run : CacheRun Created cache disk) :
    Exact cache ∧
      (∀ entry now, (cache.insertNewOutcomeDeferred entry now).2 ≠ .inserted →
          (cache.insertNewOutcomeDeferred entry now).1 = cache.pruneExpired now) ∧
      ∀ entry now flushFaults faults,
        let flush := cache.flushPending disk flushFaults
        let outcome := cache.insertNewOutcome disk entry now flushFaults faults
        SameMemory cache flush.1 ∧
          flush.1.pendingPersist <:+ cache.pendingPersist ∧
          (cache.pendingPersist = [] → flush = (cache, disk, .ok ())) ∧
          (outcome.2.2 ≠ .ok .inserted →
            if flush.2.2 = .ok () then
              SameQueue (flush.1.pruneExpired now) outcome.1
            else
              outcome.1 = flush.1) := by
  have exact := run.exact
  refine ⟨exact, ?_, ?_⟩
  · intro entry now refused
    unfold ReplayCache.insertNewOutcomeDeferred at refused ⊢
    split
    next disabled =>
      rw [if_pos disabled] at refused
      exact absurd rfl refused
    next enabled =>
      rw [if_neg enabled] at refused
      rcases stageInsert_cases cache entry now with
        ⟨_, result, unrecorded⟩ | ⟨result, _⟩
      · simp [result, unrecorded]
      · simp only [result, if_true] at refused
        exact absurd rfl refused
  · intro entry now flushFaults faults
    have drained := flushPending_memory cache disk flushFaults
    refine ⟨drained.1, drained.2, ?_, ?_⟩
    · intro idle
      unfold flushPending
      rw [idle]
      rfl
    · have flushed := exact.of_suffix drained
      unfold ReplayCache.insertNewOutcome
      split
      · intro refused
        exact absurd rfl refused
      split
      next result =>
        simp [result]
      next result =>
        rw [result] at flushed
        intro refused
        simp only [result, if_true]
        rcases flushed.stageAndPersist _ entry now faults with
          ⟨accepted, _⟩ | ⟨_, same⟩
        · exact absurd accepted refused
        · exact same

/-- A deferred insertion into a new cache. -/
theorem CacheRun.indexes_consistent_deferred :
    ∃ cache, CacheRun Created cache DirEntry.empty ∧
      cache.order = [stampEntry 1] ∧
      cache.nonces = {List.Vector.replicate 8 1} := by
  have run : CacheRun Created _ .empty :=
    .insertDeferred (.start (.inl ⟨2, 120, true, none, rfl⟩)) (stampEntry 1) 100
  exact ⟨_, run, by decide, run.indexes_consistent.1.nonces_eq⟩

/-- When the queue cannot be drained, an expired entry stays. -/
theorem failed_flush_skips_pruning :
    ∃ cache disk, CacheRun Created cache disk ∧
      ∃ entry now flushFaults faults,
        (cache.insertNewOutcome disk entry now flushFaults faults).2.2 = .error .io ∧
          (cache.insertNewOutcome disk entry now flushFaults faults).1.order ≠
            (cache.pruneExpired now).order :=
  ⟨_, .empty, .insertDeferred (.start (.inl ⟨2, 120, true, none, rfl⟩)) (stampEntry 1) 100,
    stampEntry 2, 300, [⟨.beforeRename, .none⟩], .none, by decide, by decide⟩

/-! ## The journal state -/

/-- The journal state is the one that the file holds, with nothing to rewrite,
or the first one while there is nothing in the file. -/
def Described (macKey : CacheMacKey) (disk : Disk) (authJournal : Option AuthJournalState) : Prop :=
  ∀ journal ∈ authJournal,
    (journal = ⟨0, 0, zeroMac, 0⟩ ∧
        ∀ file ∈ disk.file?, isBlank (file.current NUL) = true) ∨
      ∃ (file : CrashFile Char) (text : JournalText),
        disk.file? = some file ∧ file.current NUL = text.render macKey ∧
          text.Commits macKey journal ∧ text.dirty macKey journal = false ∧
          journal.Bounded

/-- The file is blank, or a journal in the layout that this code writes. -/
def Written (macKey : CacheMacKey) (disk : Disk) : Prop :=
  ∀ file ∈ disk.file?, isBlank (file.current NUL) = true ∨
      ∃ (text : JournalText) (journal : AuthJournalState),
        file.current NUL = text.render macKey ∧ text.Commits macKey journal ∧ journal.Bounded

/-- An authenticated cache that was loaded, from a missing file or from one that
nothing else has written. -/
def Loaded (macKey : CacheMacKey) (cache : ReplayCache) (disk : Disk) : Prop :=
  ∃ capacity windowSecs now found readFails fault,
    capacity ≤ CAPACITY_LIMIT ∧ Written macKey found ∧
      loadAuthenticatedWithWindow macKey capacity windowSecs now found
        readFails fault = (disk, .ok cache)

structure Faithful (macKey : CacheMacKey) (disk : Disk) (cache : ReplayCache) : Prop where
  onDisk : cache.path = true
  key : cache.macKey = some macKey
  capacity_le : cache.capacity ≤ CAPACITY_LIMIT
  -- what is to be persisted was recorded when there was room
  queue : cache.pendingPersist = [] ∨ cache.order.length ≤ cache.capacity
  described : Described macKey disk cache.authJournal

variable {macKey : CacheMacKey} {later : Disk}

theorem compactAuthenticatedJournal_described (disk : Disk)
    (short : cache.order.length ≤ COUNT_LIMIT) (fault : CompactFault) :
    Described macKey (cache.compactAuthenticatedJournal macKey disk fault).2.1
      (cache.compactAuthenticatedJournal macKey disk fault).1.authJournal := by
  have limit : COUNT_LIMIT < 2 ^ 64 := by decide
  cases fault with
  | none =>
    rintro journal ⟨⟩
    exact .inr ⟨_, .rewritten macKey cache.order, rfl, (render_rewritten macKey cache.order).symm,
      commits_rewritten macKey (by omega), dirty_rewritten macKey (by omega),
      short, Nat.le_add_left 1 _⟩
  | beforeRename | afterRename => rintro _ ⟨⟩

theorem Described.persistAuthenticatedEntry (described : Described macKey disk cache.authJournal)
    (orderLe : cache.order.length ≤ cache.capacity) (capacityLe : cache.capacity ≤ CAPACITY_LIMIT)
    (pending? : Option ReplayEntry) (faults : Faults) :
    Described macKey (cache.persistAuthenticatedEntry macKey disk pending? faults).2.1
      (cache.persistAuthenticatedEntry macKey disk pending? faults).1.authJournal := by
  have small : CAPACITY_LIMIT ≤ COUNT_LIMIT := by decide
  rcases persistAuthenticatedEntry_cases cache macKey disk pending? faults with
    ⟨prior, _, compacts⟩ |
    ⟨journal, adopted, entry, _, file, isFile, counted, economical, appends⟩
  · rw [compacts]
    exact compactAuthenticatedJournal_described prior (by omega) _
  · rw [appends]
    rcases described journal adopted with
      ⟨rfl, _⟩ | ⟨_, text, same, content, commits, clean, bounded⟩
    · exact absurd rfl counted
    cases isFile.symm.trans same
    rcases appendEntry_current isFile content
      (JournalText.garbage_of_clean clean) commits bounded adopted entry
      faults.append with
      ⟨_, dropped | ⟨kept, later, isLater, unchanged⟩⟩ | ⟨next, written⟩
    · rw [dropped]
      rintro journal ⟨⟩
    · rw [kept]
      rintro journal ⟨⟩
      exact .inr ⟨later, text, isLater, unchanged, commits, clean, bounded⟩
    · rw [next, written]
      rintro _ ⟨⟩
      exact .inr ⟨_, text.advance macKey _ entry, DirEntry.file?_setFile _ _, rfl,
        commits.next entry bounded.lt.2 bounded.lt.1, commits.clean_advance entry,
        bounded.next economical orderLe capacityLe⟩

namespace Faithful

variable (inv : Faithful macKey disk cache)
include inv

theorem of_sameMemory (same : SameMemory cache other)
    (queue : other.pendingPersist = [] ∨ cache.order.length ≤ cache.capacity)
    (described : Described macKey later other.authJournal) : Faithful macKey later other := by
  rw [same]
  exact { inv with queue := queue, described := described }

theorem drainPending (orderLe : cache.order.length ≤ cache.capacity)
    (queue : List ReplayEntry) (faults : List Faults) :
    Faithful macKey (cache.drainPending disk queue faults).2.1
      (cache.drainPending disk queue faults).1 := by
  refine inv.of_sameMemory (drainPending_memory cache disk queue faults).1 (.inr orderLe) ?_
  induction queue generalizing cache disk faults with
  | nil => exact inv.described
  | cons entry queue ih =>
    have persisted := inv.described.persistAuthenticatedEntry orderLe
      inv.capacity_le (some entry) (faults.headD .none)
    have same := persistAuthenticatedEntry_sameQueue cache macKey disk
      (some entry) (faults.headD .none)
    unfold ReplayCache.drainPending
    split
    · exact ih inv orderLe faults
    simp only [inv.onDisk, inv.key, Bool.not_true, Bool.false_eq_true, if_false]
    split
    next result =>
      rw [result] at persisted
      exact persisted
    next result =>
      rw [result] at persisted
      exact persisted
    next result =>
      rw [result] at persisted same
      have next := inv.of_sameMemory same.sameMemory (.inr orderLe) persisted
      refine ih next ?_ _
      rw [same]
      exact orderLe

theorem persistPending (faults : List Faults) :
    Faithful macKey (cache.persistPending disk faults).2.1
      (cache.persistPending disk faults).1 := by
  unfold ReplayCache.persistPending
  rcases inv.queue with idle | orderLe
  · rw [idle]
    exact { inv with queue := .inl rfl }
  · exact inv.drainPending orderLe _ faults

theorem pruneExpired : Faithful macKey disk (cache.pruneExpired now) := by
  rcases pruneExpired_cases cache now with same | rebuilt
  · rw [same]
    exact inv
  · rw [rebuilt]
    refine { inv with queue := ?_ }
    rcases inv.queue with idle | orderLe
    · exact .inl (by simp [idle])
    · exact .inr ((length_filter_le _ _).trans orderLe)

theorem insertLoaded (room : cache.order.length < cache.capacity) (entry : ReplayEntry) :
    (cache.insertLoaded entry).order.length ≤ cache.capacity ∧
      Faithful macKey disk (cache.insertLoaded entry) := by
  have orderLe : (cache.insertLoaded entry).order.length ≤ cache.capacity := by
    simp only [ReplayCache.insertLoaded, pushLoadedEntry, length_append, length_singleton]
    omega
  exact ⟨orderLe, { inv with queue := .inr orderLe }⟩

variable (entry)

theorem stageAndPersist (faults : Faults) :
    Faithful macKey (cache.stageAndPersist disk entry now faults).2.1
      (cache.stageAndPersist disk entry now faults).1 := by
  have pruned := inv.pruneExpired now
  rcases stageAndPersist_cases cache disk entry now faults with
    ⟨_, result⟩ | ⟨_, freshNonce, freshTranscript, room, persisted, after, _, stored, same, result⟩
  · rw [result]
    exact pruned
  · obtain ⟨orderLe, staged⟩ := pruned.insertLoaded room entry
    have described : Described macKey after persisted.authJournal := by
      have last : ((cache.pruneExpired now).insertLoaded
          entry).order.getLast? = some entry := List.getLast?_concat
      rw [persist_eq disk faults staged.onDisk staged.key last] at stored
      have kept := staged.described.persistAuthenticatedEntry orderLe
        staged.capacity_le (some entry) faults
      cases stored
      exact kept
    rcases result with result | ⟨_, _, result⟩
    · rw [result]
      exact staged.of_sameMemory same.sameMemory (.inr orderLe) described
    · rw [result, rollBack_insertLoaded freshNonce freshTranscript same.sameMemory]
      exact { pruned with queue := .inr room.le, described := described }

theorem insertNewOutcome (flushFaults : List Faults) (faults : Faults) :
    Faithful macKey (cache.insertNewOutcome disk entry now flushFaults faults).2.1
      (cache.insertNewOutcome disk entry now flushFaults faults).1 := by
  have flushed : Faithful macKey (cache.flushPending disk flushFaults).2.1
      (cache.flushPending disk flushFaults).1 := by
    unfold flushPending
    split
    · exact inv
    · exact inv.persistPending flushFaults
  unfold ReplayCache.insertNewOutcome
  split
  · exact inv
  split
  next result =>
    rw [result] at flushed
    exact flushed
  next result =>
    rw [result] at flushed
    exact flushed.stageAndPersist entry now faults

theorem insertNewOutcomeDeferred :
    Faithful macKey disk (cache.insertNewOutcomeDeferred entry now).1 := by
  have pruned := inv.pruneExpired now
  unfold ReplayCache.insertNewOutcomeDeferred
  split
  · exact inv
  rcases stageInsert_cases cache entry now with
    ⟨_, result, refused⟩ | ⟨result, _, _, room⟩
  · simp only [result, refused, if_false]
    exact pruned
  · simp only [result, if_true]
    obtain ⟨orderLe, staged⟩ := pruned.insertLoaded room entry
    exact { staged with queue := .inr orderLe }

end Faithful

theorem Loaded.faithful (loaded : Loaded macKey cache disk) : Faithful macKey disk cache := by
  obtain ⟨cap, window, now, found, _, fault, capacityLe, written, loaded⟩ := loaded
  have blank (nothing : ∀ file ∈ found.file?,
      isBlank (file.current NUL) = true) : Faithful macKey found (fresh macKey cap window) := by
    refine ⟨rfl, rfl, capacityLe, .inl rfl, ?_⟩
    rintro journal ⟨⟩
    exact .inl ⟨rfl, nothing⟩
  unfold loadAuthenticatedWithWindow at loaded
  split at loaded
  next missing =>
    cases loaded
    refine blank ?_
    rw [missing]
    rintro file ⟨⟩
  rename_i file isFile
  rcases written file isFile with
    isEmpty | ⟨text, journal, content, commits, bounded⟩
  · dsimp only at loaded
    split at loaded
    · cases loaded
    · cases loaded
      refine blank ?_
      rw [isFile]
      rintro file ⟨⟩
      exact isEmpty
  · simp only [content, commits.isBlank_render, Bool.false_eq_true, if_false,
      parse_render commits] at loaded
    split at loaded
    · cases loaded
    obtain ⟨order, sameCapacity, samePath, sameKey, sameJournal, idle⟩ :=
      adopt_frame macKey cap window text.entries now journal
    have orderLe : (adopt macKey cap window now text.entries
        journal).order.length ≤ COUNT_LIMIT := by
      rw [order]
      exact (length_filter_le _ _).trans (commits.count_eq ▸ bounded.1)
    generalize adopt macKey cap window now text.entries journal = adopted at *
    have loads {later : Disk} {authJournal : Option AuthJournalState}
        (described : Described macKey later authJournal) :
        Faithful macKey later { adopted with authJournal := authJournal } :=
      ⟨samePath, sameKey, sameCapacity.trans_le capacityLe, .inl idle, described⟩
    split at loaded
    · have described : Described macKey _ _ :=
        compactAuthenticatedJournal_described found orderLe fault
      cases fault with
      | none =>
        cases loaded
        exact loads described
      | beforeRename | afterRename => cases loaded
    next clean =>
      cases loaded
      refine loads ?_
      rw [sameJournal]
      rintro _ ⟨⟩
      exact .inr ⟨file, text, isFile, content, commits, Bool.eq_false_iff.mpr clean, bounded⟩

theorem CacheRun.faithful (run : CacheRun (Loaded macKey) cache disk) :
    Faithful macKey disk cache := by
  induction run with
  | start begins => exact begins.faithful
  | insert _ entry now flushFaults faults ih =>
    exact ih.insertNewOutcome entry now flushFaults faults
  | insertDeferred _ entry now ih => exact ih.insertNewOutcomeDeferred entry now
  | persistPending _ faults ih => exact ih.persistPending faults
  | prune _ now ih => exact ih.pruneExpired now

/-- In every run a journal state is the one that the parser finds in the file,
with nothing to rewrite, unless the file is still missing or blank. The parser
reads back what a rewrite writes, and every header fills its slot. -/
theorem CacheRun.journal_describes_file (run : CacheRun (Loaded macKey) cache disk) :
    (∀ journal ∈ cache.authJournal,
      (journal = ⟨0, 0, zeroMac, 0⟩ ∧
          ∀ file ∈ disk.file?, isBlank (file.current NUL) = true) ∨
        ∃ file ∈ disk.file?, ∃ entries, parseAuthenticatedJournalEntries macKey (file.current NUL) =
            .ok (entries, journal, false)) ∧
      (∀ entries : List ReplayEntry, entries.length < 2 ^ 64 →
        parseAuthenticatedJournalEntries macKey (serializeAuthenticatedJournal macKey entries).1 =
          .ok (entries, (serializeAuthenticatedJournal macKey entries).2, false)) ∧
      ∀ generation count tailMac, generation < 2 ^ 64 → count < 2 ^ 64 →
        (authenticatedJournalHeader macKey generation count tailMac).length =
          AUTH_JOURNAL_HEADER_LEN := by
  refine ⟨?_, fun _ => parse_serializeAuthenticatedJournal macKey,
    fun _ _ tailMac => length_authenticatedJournalHeader macKey tailMac⟩
  intro journal adopted
  rcases run.faithful.described journal adopted with
    blank | ⟨file, text, isFile, content, commits, clean, _⟩
  · exact .inl blank
  · refine .inr ⟨file, isFile, text.entries, ?_⟩
    rw [content, parse_render commits, clean]

/-- A deferred insertion that is then persisted. -/
theorem CacheRun.journal_describes_file_persisted :
    ∃ cache disk, CacheRun (Loaded stampKey) cache disk ∧
      ∃ journal ∈ cache.authJournal, journal.count = 1 ∧
        ∃ file ∈ disk.file?, ∃ entries,
          parseAuthenticatedJournalEntries stampKey (file.current NUL) =
            .ok (entries, journal, false) := by
  have written : Written stampKey .empty := by rintro _ ⟨⟩
  have run : CacheRun (Loaded stampKey) _ _ :=
    .persistPending (.insertDeferred (.start ⟨2, 120, 100, .empty,
      false, .none, by decide, written, rfl⟩) (stampEntry 1) 100) []
  refine ⟨_, _, run, _, rfl, rfl, ?_⟩
  rcases run.journal_describes_file.1 _ rfl with ⟨impossible, _⟩ | described
  · cases impossible
  · exact described

/-- An empty file is loaded with a journal state, and does not parse. -/
theorem blank_file_not_described :
    ∃ cache disk file, CacheRun (Loaded stampKey) cache disk ∧
      disk.file? = some file ∧ cache.authJournal.isSome = true ∧
      ∀ outcome, parseAuthenticatedJournalEntries stampKey (file.current NUL) ≠ .ok outcome := by
  have written : Written stampKey (DirEntry.empty.setFile
      (.synced [])) := by
    rintro _ ⟨⟩
    exact .inl rfl
  exact ⟨_, _, _, .start ⟨2, 120, 100, _, false, .none, by decide, written, rfl⟩, rfl, rfl, nofun⟩

end ParallaX.Replay
