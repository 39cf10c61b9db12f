import ParallaX.Replay.Cache

/-!
# The indexes of the replay cache

The nonce and transcript sets of a cache are those of its recorded entries, and
its oldest timestamp bounds theirs from below. Under this invariant pruning
removes exactly the expired entries, and the outcome of an insertion is a
function of the recorded entries alone.
-/

namespace ParallaX.Replay

open ParallaX.Codec ParallaX.Data List

namespace ReplayCache

structure Indexed (cache : ReplayCache) : Prop where
  mem_nonces :
    ∀ nonce, nonce ∈ cache.nonces ↔ ∃ entry ∈ cache.order, entry.nonce = nonce
  mem_transcripts :
    ∀ transcript, transcript ∈ cache.transcripts ↔
      ∃ entry ∈ cache.order, entry.transcriptFingerprint = transcript
  oldest_le :
    ∀ entry ∈ cache.order, ∃ oldest, cache.oldestTimestamp = some oldest ∧ oldest ≤ entry.timestamp

variable {other : ReplayCache} (key : CacheMacKey) (cap window : Nat)

theorem indexed_new (path : Bool) (key : Option CacheMacKey) : Indexed (new cap window path key) :=
  ⟨by simp [new], by simp [new], by simp [new]⟩

variable {cache : ReplayCache}

theorem Indexed.of_eq (inv : Indexed cache)
    (order : other.order = cache.order) (nonces : other.nonces = cache.nonces)
    (transcripts : other.transcripts = cache.transcripts)
    (oldest : other.oldestTimestamp = cache.oldestTimestamp) : Indexed other := by
  obtain ⟨memNonces, memTranscripts, oldestLe⟩ := inv
  exact ⟨by rw [order, nonces]; exact memNonces, by rw [order, transcripts]; exact memTranscripts,
    by rw [order, oldest]; exact oldestLe⟩

variable {entry : ReplayEntry} (entries : List ReplayEntry) (now : Nat)

private theorem foldl_foldOldest_some (oldest : Nat) :
    entries.foldl foldOldest (some oldest) =
      some ((entries.map ReplayEntry.timestamp).foldl min oldest) := by
  induction entries generalizing oldest with
  | nil => rfl
  | cons first _ ih => exact ih (min oldest first.timestamp)

theorem foldl_foldOldest :
    entries.foldl foldOldest none = (entries.map ReplayEntry.timestamp).min? := by
  cases entries with
  | nil => rfl
  | cons first rest => exact foldl_foldOldest_some rest first.timestamp

theorem exists_min?_le {entries : List ReplayEntry} (member : entry ∈ entries) :
    ∃ oldest, (entries.map ReplayEntry.timestamp).min? = some oldest ∧
      oldest ≤ entry.timestamp := by
  have isTimestamp := mem_map_of_mem (f := ReplayEntry.timestamp) member
  obtain ⟨oldest, found⟩ := Option.isSome_iff_exists.mp (isSome_min?_of_mem isTimestamp)
  exact ⟨oldest, found, (List.min?_eq_some_iff.mp found).2 _ isTimestamp⟩

/-! ## Pruning -/

theorem pruneExpired_cases (cache : ReplayCache) (now : Nat) :
    let live := cache.order.filter (isUnexpired cache.windowSecs now)
    cache.pruneExpired now = cache ∨
      cache.pruneExpired now =
        { cache with
          order := live
          nonces := (live.map ReplayEntry.nonce).toFinset
          transcripts := (live.map ReplayEntry.transcriptFingerprint).toFinset
          oldestTimestamp := live.foldl foldOldest none
          encodedEntries :=
            if cache.plain then live.map encodePlainEntry
            else cache.encodedEntries
          pendingPersist :=
            cache.pendingPersist.filter (isUnexpired cache.windowSecs now) } := by
  unfold pruneExpired
  split
  · exact .inl rfl
  split
  · exact .inl rfl
  dsimp only
  split
  next sameLength =>
    rw [filter_sublist.eq_of_length sameLength]
    exact .inl rfl
  · exact .inr rfl

theorem Indexed.order_pruneExpired (inv : Indexed cache) (now : Nat) :
    (cache.pruneExpired now).order = cache.order.filter (isUnexpired cache.windowSecs now) := by
  have keepsAll :
      (∀ entry ∈ cache.order, isUnexpired cache.windowSecs now entry = true) →
        cache.order.filter (isUnexpired cache.windowSecs now) = cache.order :=
    filter_eq_self.mpr
  unfold pruneExpired
  cases mark : cache.oldestTimestamp with
  | none =>
    refine (keepsAll ?_).symm
    intro entry member
    obtain ⟨oldest, found, _⟩ := inv.oldest_le entry member
    rw [mark] at found
    cases found
  | some oldest =>
    by_cases inside : now ≤ saturatingAdd oldest cache.windowSecs
    · simp only [inside, if_true]
      refine (keepsAll ?_).symm
      intro entry member
      obtain ⟨_, found, boundLe⟩ := inv.oldest_le entry member
      rw [mark] at found
      cases found
      unfold isUnexpired saturatingAdd at *
      simp only [decide_eq_true_eq]
      omega
    · simp only [inside, if_false]
      split <;> rfl

theorem Indexed.pruneExpired (inv : Indexed cache) (now : Nat) :
    Indexed (cache.pruneExpired now) := by
  rcases pruneExpired_cases cache now with same | rebuilt
  · rw [same]
    exact inv
  · rw [rebuilt]
    refine ⟨by simp, by simp, fun entry member => ?_⟩
    rw [foldl_foldOldest]
    exact exists_min?_le member

/-- Pruning changes nothing but the entries and what is derived from them. -/
theorem pruneExpired_frame (cache : ReplayCache) (now : Nat) :
    (cache.pruneExpired now).capacity = cache.capacity ∧
      (cache.pruneExpired now).windowSecs = cache.windowSecs ∧
      (cache.pruneExpired now).path = cache.path ∧
      (cache.pruneExpired now).macKey = cache.macKey ∧
      (cache.pruneExpired now).authJournal = cache.authJournal := by
  rcases pruneExpired_cases cache now with same | rebuilt
  · simp [same]
  · simp [rebuilt]

/-! ## Staging -/

/-- Two entries that must not both be live. -/
def Clash (recorded entry : ReplayEntry) : Prop :=
  recorded.nonce = entry.nonce ∨ recorded.transcriptFingerprint = entry.transcriptFingerprint

instance (recorded entry : ReplayEntry) : Decidable (Clash recorded entry) :=
  inferInstanceAs (Decidable (_ ∨ _))

def verdict (capacity windowSecs : Nat) (live : List ReplayEntry)
    (entry : ReplayEntry) (now : Nat) : ReplayInsertOutcome :=
  if !(entry.timestamp ≤ saturatingAdd now MAX_FUTURE_SKEW_SECS &&
      isUnexpired windowSecs now entry) then
    .stale
  else if ∃ recorded ∈ live, Clash recorded entry then
    .replayed
  else if capacity ≤ live.length then .cacheFull
  else .inserted

theorem Indexed.pushLoadedEntry (inv : Indexed cache) :
    Indexed
      (ReplayCache.pushLoadedEntry
        { cache with
          nonces := insert entry.nonce cache.nonces
          transcripts :=
            insert entry.transcriptFingerprint cache.transcripts }
        entry) := by
  obtain ⟨memNonces, memTranscripts, oldestLe⟩ := inv
  refine ⟨?_, ?_, ?_⟩
  · intro _
    simp only [ReplayCache.pushLoadedEntry, Finset.mem_insert, memNonces,
      mem_append, mem_singleton, or_and_right, exists_or,
      exists_eq_left]
    rw [or_comm, eq_comm]
  · intro _
    simp only [ReplayCache.pushLoadedEntry, Finset.mem_insert, memTranscripts,
      mem_append, mem_singleton, or_and_right, exists_or,
      exists_eq_left]
    rw [or_comm, eq_comm]
  · intro recorded member
    simp only [ReplayCache.pushLoadedEntry, foldOldest, Option.some.injEq, exists_eq_left']
    simp only [ReplayCache.pushLoadedEntry, mem_append, mem_singleton] at member
    rcases member with old | rfl
    · obtain ⟨_, found, bound⟩ := oldestLe recorded old
      rw [found]
      exact (min_le_left _ _).trans bound
    · cases cache.oldestTimestamp with
      | none => exact le_rfl
      | some => exact min_le_right _ _

theorem Indexed.clash_iff (inv : Indexed cache) (entry : ReplayEntry) :
    (∃ recorded ∈ cache.order, Clash recorded entry) ↔
      entry.nonce ∈ cache.nonces ∨ entry.transcriptFingerprint ∈ cache.transcripts := by
  rw [inv.mem_nonces, inv.mem_transcripts]
  constructor
  · rintro ⟨recorded, member, sameNonce | sameTranscript⟩
    · exact .inl ⟨recorded, member, sameNonce⟩
    · exact .inr ⟨recorded, member, sameTranscript⟩
  · rintro (⟨recorded, member, sameNonce⟩ | ⟨recorded, member, sameTranscript⟩)
    · exact ⟨recorded, member, .inl sameNonce⟩
    · exact ⟨recorded, member, .inr sameTranscript⟩

theorem stageInsert_cases (cache : ReplayCache) (entry : ReplayEntry) (now : Nat) :
    let pruned := cache.pruneExpired now
    (∃ outcome, cache.stageInsert entry now = (pruned, outcome) ∧ outcome ≠ .inserted) ∨
      cache.stageInsert entry now = (pruned.insertLoaded entry, .inserted) ∧
        entry.nonce ∉ pruned.nonces ∧
        entry.transcriptFingerprint ∉ pruned.transcripts ∧
        pruned.order.length < pruned.capacity := by
  unfold stageInsert
  dsimp only
  split
  · exact .inl ⟨_, rfl, nofun⟩
  split
  · exact .inl ⟨_, rfl, nofun⟩
  rename_i freshNonce
  rw [Finset.erase_insert freshNonce]
  split
  · exact .inl ⟨_, rfl, nofun⟩
  rename_i freshTranscript
  rw [Finset.erase_insert freshTranscript]
  split
  · exact .inl ⟨_, rfl, nofun⟩
  next room => exact .inr ⟨rfl, freshNonce, freshTranscript, Nat.lt_of_not_le room⟩

theorem Indexed.stageInsert (inv : Indexed cache) (entry : ReplayEntry) (now : Nat) :
    (cache.stageInsert entry now).2 =
        verdict cache.capacity cache.windowSecs
          (cache.order.filter (isUnexpired cache.windowSecs now)) entry now ∧
      Indexed (cache.stageInsert entry now).1 ∧
      (cache.stageInsert entry now).1.order =
        cache.order.filter (isUnexpired cache.windowSecs now) ++
          (if (cache.stageInsert entry now).2 = .inserted then [entry]
          else []) := by
  have pruned := inv.pruneExpired now
  have clashIff := pruned.clash_iff entry
  obtain ⟨sameCapacity, sameWindow, _⟩ := pruneExpired_frame cache now
  rw [← inv.order_pruneExpired now, ← sameCapacity, ← sameWindow]
  refine ⟨?_, ?_⟩
  · unfold ReplayCache.stageInsert verdict
    generalize cache.pruneExpired now = live at clashIff ⊢
    have freshness : live.isFresh entry.timestamp now =
        (decide (entry.timestamp ≤ saturatingAdd now MAX_FUTURE_SKEW_SECS) &&
          isUnexpired live.windowSecs now entry) := rfl
    simp only [clashIff, ← freshness]
    split
    · rfl
    by_cases knownNonce : entry.nonce ∈ live.nonces
    · simp [knownNonce]
    by_cases knownTranscript : entry.transcriptFingerprint ∈ live.transcripts
    · simp [knownNonce, knownTranscript]
    · simp only [knownNonce, knownTranscript, if_false, or_self]
      split <;> rfl
  · rcases stageInsert_cases cache entry now with
      ⟨_, result, refused⟩ | ⟨result, _⟩
    · simp [result, refused, pruned]
    · rw [result]
      exact ⟨pruned.pushLoadedEntry, by
        simp [insertLoaded, ReplayCache.pushLoadedEntry]⟩

theorem pruneExpired_idle (idle : cache.pendingPersist = []) (now : Nat) :
    (cache.pruneExpired now).pendingPersist = [] := by
  rcases pruneExpired_cases cache now with same | rebuilt
  · rw [same, idle]
  · simp [rebuilt, idle]

/-! ## Persistence leaves the memory alone -/

/-- The two caches differ at most in the journal state and the queue. -/
def SameMemory (cache other : ReplayCache) : Prop :=
  other = { cache with authJournal := other.authJournal, pendingPersist := other.pendingPersist }

theorem SameMemory.refl (cache : ReplayCache) : SameMemory cache cache := rfl

theorem SameMemory.trans {first second third : ReplayCache}
    (left : SameMemory first second) (right : SameMemory second third) :
    SameMemory first third := by
  unfold SameMemory at *
  rw [right, left]

theorem SameMemory.indexed (same : SameMemory cache other) (inv : Indexed cache) :
    Indexed other := by
  rw [same]
  exact inv.of_eq rfl rfl rfl rfl

/-- The two caches differ at most in the journal state. -/
def SameQueue (cache other : ReplayCache) : Prop :=
  other = { cache with authJournal := other.authJournal }

theorem SameQueue.sameMemory (same : SameQueue cache other) : SameMemory cache other := by
  unfold SameMemory
  rw [same]

variable (cache)

theorem persistAuthenticatedEntry_cases (key : CacheMacKey) (disk : Disk)
    (pending? : Option ReplayEntry) (faults : Faults) :
    (∃ prior,
        (prior = disk ∨ ∃ journal ∈ cache.authJournal, journal.count ≠ 0 ∧ disk.file? = none) ∧
        cache.persistAuthenticatedEntry key disk pending? faults =
          cache.compactThen key prior faults.compact) ∨
      ∃ journal ∈ cache.authJournal, ∃ entry ∈ pending?, ∃ file ∈ disk.file?, journal.count ≠ 0 ∧
        cache.shouldCompactAuthenticatedJournal journal = false ∧
        cache.persistAuthenticatedEntry key disk pending? faults =
          cache.appendEntry key disk file journal entry faults.append := by
  unfold persistAuthenticatedEntry
  split
  · exact .inl ⟨_, .inl rfl, rfl⟩
  · exact .inl ⟨_, .inl rfl, rfl⟩
  rename_i journal entry adopted
  split
  · exact .inl ⟨_, .inl rfl, rfl⟩
  rename_i appends
  obtain ⟨counted, economical⟩ := not_or.mp appends
  split
  next missing => exact .inl ⟨_, .inr ⟨journal, adopted, counted, missing⟩, rfl⟩
  split
  · exact .inl ⟨_, .inl rfl, rfl⟩
  next file isFile _ =>
    exact .inr ⟨journal, adopted, entry, rfl, file, isFile, counted,
      Bool.eq_false_iff.mpr economical, rfl⟩

theorem persistAuthenticatedEntry_sameQueue (key : CacheMacKey) (disk : Disk)
    (pending? : Option ReplayEntry) (faults : Faults) :
    SameQueue cache (cache.persistAuthenticatedEntry key disk pending? faults).1 := by
  rcases persistAuthenticatedEntry_cases cache key disk pending? faults with
    ⟨_, _, compacts⟩ | ⟨_, _, _, _, _, _, _, _, appends⟩
  · rw [compacts]
    cases faults.compact <;> rfl
  · rw [appends]
    cases faults.append with
    | append _ truncated => cases truncated <;> rfl
    | none | beforeWrite | header => rfl

theorem persist_sameQueue (disk : Disk) (faults : Faults) :
    SameQueue cache (cache.persist disk faults).1 := by
  unfold persist
  split
  · rfl
  · split
    · rfl
    · exact persistAuthenticatedEntry_sameQueue ..

theorem drainPending_memory (disk : Disk) (queue : List ReplayEntry)
    (faults : List Faults) :
    SameMemory cache (cache.drainPending disk queue faults).1 ∧
      (cache.drainPending disk queue faults).1.pendingPersist <:+ queue := by
  induction queue generalizing cache disk faults with
  | nil => exact ⟨rfl, nil_suffix⟩
  | cons entry queue ih =>
    have passes {persisted : ReplayCache} (later : Disk)
        (faults : List Faults) (same : SameMemory cache persisted) :
        SameMemory cache (persisted.drainPending later queue faults).1 ∧
          (persisted.drainPending later queue faults).1.pendingPersist <:+ entry :: queue :=
      ⟨same.trans (ih persisted later faults).1,
        (ih persisted later faults).2.trans (suffix_cons _ _)⟩
    unfold drainPending
    split
    · exact passes disk faults (.refl cache)
    split
    · exact ⟨rfl, nil_suffix⟩
    split
    · split
      · exact ⟨rfl, suffix_rfl⟩
      · exact ⟨rfl, nil_suffix⟩
    next key _ =>
      have same := (persistAuthenticatedEntry_sameQueue cache key disk
        (some entry) (faults.headD .none)).sameMemory
      split
      next result =>
        rw [result] at same
        exact ⟨same.trans rfl, suffix_rfl⟩
      next result =>
        rw [result] at same
        exact ⟨same.trans rfl, nil_suffix⟩
      next result =>
        rw [result] at same
        exact passes _ _ same

variable {cache}

theorem rollBack_insertLoaded (freshNonce : entry.nonce ∉ cache.nonces)
    (freshTranscript : entry.transcriptFingerprint ∉ cache.transcripts)
    (same : SameMemory (cache.insertLoaded entry) other) :
    other.rollBack entry =
      { cache with
        authJournal := other.authJournal
        pendingPersist := other.pendingPersist
        oldestTimestamp :=
          if foldOldest cache.oldestTimestamp entry = some entry.timestamp then
            (cache.order.map ReplayEntry.timestamp).min?
          else
            foldOldest cache.oldestTimestamp entry } := by
  rw [same]
  simp only [rollBack, popPushedEntry, insertLoaded, pushLoadedEntry,
    List.getLast?_concat, dropLast_concat, plain, Bool.and_eq_true,
    Option.isNone_iff_eq_none, Finset.erase_insert freshNonce,
    Finset.erase_insert freshTranscript, mk.injEq, true_and, and_true]
  split_ifs
  · exact dropLast_concat
  · rfl

theorem Indexed.rollBack (inv : Indexed cache)
    (freshNonce : entry.nonce ∉ cache.nonces)
    (freshTranscript : entry.transcriptFingerprint ∉ cache.transcripts)
    (same : SameMemory (cache.insertLoaded entry) other) : Indexed (other.rollBack entry) := by
  rw [rollBack_insertLoaded freshNonce freshTranscript same]
  refine ⟨inv.mem_nonces, inv.mem_transcripts, ?_⟩
  intro recorded member
  split
  · exact exists_min?_le member
  · obtain ⟨_, found, bound⟩ := inv.oldest_le recorded member
    rw [found]
    exact ⟨_, rfl, (min_le_left _ _).trans bound⟩

/-! ## Loading entries -/

theorem Indexed.foldl_insertLoaded (inv : Indexed cache) (entries : List ReplayEntry) :
    Indexed (entries.foldl insertLoaded cache) := by
  induction entries generalizing cache with
  | nil => exact inv
  | cons _ _ ih => exact ih inv.pushLoadedEntry

theorem foldl_insertLoaded_frame (cache : ReplayCache) (entries : List ReplayEntry) :
    (entries.foldl insertLoaded cache).order = cache.order ++ entries ∧
      (entries.foldl insertLoaded cache).capacity = cache.capacity ∧
      (entries.foldl insertLoaded cache).windowSecs = cache.windowSecs ∧
      (entries.foldl insertLoaded cache).path = cache.path ∧
      (entries.foldl insertLoaded cache).macKey = cache.macKey ∧
      (entries.foldl insertLoaded cache).authJournal = cache.authJournal ∧
      (entries.foldl insertLoaded cache).pendingPersist = cache.pendingPersist := by
  induction entries generalizing cache with
  | nil => simp
  | cons entry _ ih =>
    obtain ⟨order, rest⟩ := ih (cache.insertLoaded entry)
    refine ⟨?_, rest⟩
    rw [foldl_cons, order]
    simp [insertLoaded, ReplayCache.pushLoadedEntry]

theorem indexed_adopt (journal : AuthJournalState) :
    Indexed (adopt key cap window now entries journal) := by
  have start :
      Indexed
        { fresh key cap window with authJournal := some journal } :=
    (indexed_new cap window true (some key)).of_eq rfl rfl rfl rfl
  exact (start.foldl_insertLoaded entries).pruneExpired now

theorem adopt_frame (journal : AuthJournalState) :
    (adopt key cap window now entries journal).order = entries.filter (isUnexpired window now) ∧
      (adopt key cap window now entries journal).capacity = cap ∧
      (adopt key cap window now entries journal).path = true ∧
      (adopt key cap window now entries journal).macKey = some key ∧
      (adopt key cap window now entries journal).authJournal = some journal ∧
      (adopt key cap window now entries journal).pendingPersist = [] := by
  have start :
      Indexed
        { fresh key cap window with authJournal := some journal } :=
    (indexed_new cap window true (some key)).of_eq rfl rfl rfl rfl
  obtain ⟨order, sameCapacity, sameWindow, samePath, sameKey, sameJournal, samePending⟩ :=
    foldl_insertLoaded_frame
      { fresh key cap window with authJournal := some journal }
      entries
  obtain ⟨prunedCapacity, _, prunedPath, prunedKey, prunedJournal⟩ :=
    pruneExpired_frame
      (entries.foldl insertLoaded { fresh key cap window with authJournal := some journal })
      now
  unfold adopt
  refine ⟨?_, prunedCapacity.trans sameCapacity, prunedPath.trans samePath,
    prunedKey.trans sameKey, prunedJournal.trans sameJournal,
    pruneExpired_idle samePending now⟩
  rw [(start.foldl_insertLoaded entries).order_pruneExpired now, order, sameWindow]
  rfl

theorem windowSecs_adopt (journal : AuthJournalState) :
    (adopt key cap window now entries journal).windowSecs = window := by
  unfold adopt
  rw [(pruneExpired_frame _ now).2.1]
  exact (foldl_insertLoaded_frame _ entries).2.2.1

end ReplayCache

end ParallaX.Replay
