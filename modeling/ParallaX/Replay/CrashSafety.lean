import ParallaX.Replay.AtMostOnce

/-!
# Crash safety of the replay journal

Runs of insertions, reloads and crashes on one journal file. An entry is
promised from the insertion that reported `inserted` on. With one window and a
clock that does not go back, and unless an insertion appends to a file whose
rename no directory sync has made durable, every reload is accepted and finds
all promised entries that are inside the window. An insertion that does so can
lose its entry.
-/

namespace ParallaX.Replay

open ParallaX.Codec ParallaX.Data ReplayCache List Option CrashFile

/-! ## Runs -/

inductive Event where
  | insert (entry : ReplayEntry) (now : Nat) (faults : Faults)
  | reload (capacity windowSecs now : Nat) (readFails : Bool) (fault : CompactFault)
  | crash (choice : Nat) (amounts : List Nat)

/-- The disk, the cache of the running process, the entries whose insertion
reported `inserted`, and the time of the last call. -/
structure World where
  disk : Disk
  cache : Option ReplayCache
  promised : List ReplayEntry
  clock : Nat

def stillDue (windowSecs now : Nat) (entries : List ReplayEntry) : List ReplayEntry :=
  entries.filter fun entry => now ≤ entry.timestamp + windowSecs

/-- The insertion gets as far as writing to the journal file in place: the entry
is new, the file opens, and the journal is neither to be created nor to be
compacted. -/
def ReplayCache.Appends (cache : ReplayCache) (entry : ReplayEntry) (now : Nat)
    (faults : Faults) : Prop :=
  (cache.stageInsert entry now).2 = .inserted ∧ faults.append ≠ .beforeWrite ∧
    ∃ journal ∈ (cache.stageInsert entry now).1.authJournal, journal.count ≠ 0 ∧
      (cache.stageInsert entry now).1.shouldCompactAuthenticatedJournal journal = false

namespace World

def start : World := ⟨DirEntry.empty, none, [], 0⟩

def step (macKey : CacheMacKey) (world : World) : Event → World
  | .insert entry now faults =>
    match world.cache with
    | none => world
    | some cache =>
      let (after, disk, result) := cache.insertNewOutcome world.disk entry now [] faults
      { disk := disk
        cache := some after
        promised :=
          world.promised ++ (match result with
            | .ok .inserted => [entry]
            | _ => [])
        clock := now }
  | .reload capacity windowSecs now readFails fault =>
    let (disk, result) :=
      loadAuthenticatedWithWindow macKey capacity windowSecs now world.disk readFails fault
    { world with disk := disk, cache := result.toOption, clock := now }
  | .crash choice amounts =>
    { world with disk := world.disk.crash NUL choice amounts, cache := none }

/-- What the environment guarantees: times are `u64`, a cache of the requested
capacity can be allocated, and no torn header slot carries a valid MAC. -/
def Admissible (macKey : CacheMacKey) (world : World) : Event → Prop
  | .insert entry now _ =>
    now < 2 ^ 64 ∧
      ∀ cache ∈ world.cache, ∀ journal ∈ cache.authJournal,
        ∀ file ∈ world.disk.file?,
          ∀ old ∈ rawSlot? (file.current NUL)
              ((journal.activeSlot + 1) % AUTH_JOURNAL_HEADER_SLOTS),
            Unforged macKey old ((journal.next macKey entry).header macKey)
  | .reload capacity _ now _ _ => now < 2 ^ 64 ∧ capacity ≤ CAPACITY_LIMIT
  | .crash _ _ => True

/-- Every load asks for this window and the clock does not go back, the replay
protection is on, and no insertion appends to the journal while a rename of the
file awaits its directory sync. -/
def Settled (windowSecs : Nat) (world : World) : Event → Prop
  | .insert entry now faults =>
    world.clock ≤ now ∧ ∀ cache ∈ world.cache, 0 < cache.capacity ∧
      (cache.Appends entry now faults → world.disk.renamed = [])
  | .reload _ window now _ _ => world.clock ≤ now ∧ window = windowSecs
  | .crash _ _ => True

/-- The worlds of the runs all of whose steps meet the condition. -/
inductive Reachable (macKey : CacheMacKey) (condition : World → Event → Prop) : World → Prop where
  | start : Reachable macKey condition World.start
  | step {world : World} {event : Event} (before : Reachable macKey condition world)
      (admissible : world.Admissible macKey event)
      (meets : condition world event) :
      Reachable macKey condition (world.step macKey event)

end World

/-! ## Invariant -/

/-- What a crash may fall back to holds all promised entries. -/
def SafeCandidate (macKey : CacheMacKey) (promised : List ReplayEntry) :
    Option (CrashFile Char) → Prop
  | none => promised = []
  | some file => Safe macKey promised (file.current NUL).length file

def DiskInv (macKey : CacheMacKey) (promised : List ReplayEntry) (disk : Disk) : Prop :=
  ∀ candidate ∈ disk.candidates, SafeCandidate macKey promised candidate

def JournalInv (macKey : CacheMacKey) (promised : List ReplayEntry)
    (disk : Disk) (authJournal : Option AuthJournalState) : Prop :=
  ∀ journal ∈ authJournal, journal.count ≠ 0 →
    ∃ (file : CrashFile Char) (text : JournalText),
      disk.file? = some file ∧ file.current NUL = text.render macKey ∧
        text.garbage = [] ∧ text.Commits macKey journal ∧ journal.Bounded ∧
        promised ⊆ text.entries

structure CacheInv (macKey : CacheMacKey) (windowSecs : Nat) (promised : List ReplayEntry)
    (disk : Disk) (cache : ReplayCache) : Prop where
  indexed : Indexed cache
  idle : cache.pendingPersist = []
  onDisk : cache.path = true
  key : cache.macKey = some macKey
  capacity_le : cache.capacity ≤ CAPACITY_LIMIT
  window : cache.windowSecs = windowSecs
  kept : promised ⊆ cache.order
  order_le : cache.order.length ≤ COUNT_LIMIT
  journal : JournalInv macKey promised disk cache.authJournal

/-- The promised entries that are inside the window. -/
def World.due (windowSecs : Nat) (world : World) : List ReplayEntry :=
  stillDue windowSecs world.clock world.promised

structure World.Inv (macKey : CacheMacKey) (windowSecs : Nat) (world : World) : Prop where
  disk : DiskInv macKey (world.due windowSecs) world.disk
  cache : ∀ cache ∈ world.cache,
    CacheInv macKey windowSecs (world.due windowSecs) world.disk cache

variable {key : CacheMacKey} {promised fewer entries : List ReplayEntry}
  {disk : Disk} {file : CrashFile Char} {cache : ReplayCache}
  {entry : ReplayEntry} {journal : AuthJournalState} {world : World}
  {now : Nat}

theorem SafeCandidate.mono {candidate : Option (CrashFile Char)}
    (safe : SafeCandidate key promised candidate) (subset : fewer ⊆ promised) :
    SafeCandidate key fewer candidate := by
  cases candidate with
  | none =>
    rw [safe] at subset
    exact subset_nil.mp subset
  | some => exact Safe.mono safe subset le_rfl

theorem DiskInv.mono (inv : DiskInv key promised disk) (subset : fewer ⊆ promised) :
    DiskInv key fewer disk := by
  intro candidate member
  exact (inv candidate member).mono subset

theorem JournalInv.mono {authJournal : Option AuthJournalState}
    (inv : JournalInv key promised disk authJournal) (subset : fewer ⊆ promised) :
    JournalInv key fewer disk authJournal := by
  intro journal found counted
  obtain ⟨file, text, isFile, content, clean, commits, bounded, kept⟩ := inv journal found counted
  exact ⟨file, text, isFile, content, clean, commits, bounded, List.Subset.trans subset kept⟩

theorem journalInv_none (key : CacheMacKey) (promised : List ReplayEntry) (disk : Disk) :
    JournalInv key promised disk none := by
  rintro _ ⟨⟩

theorem DiskInv.setFile (settled : disk.renamed = [])
    (safe : Safe key promised (file.current NUL).length file) :
    DiskInv key promised (disk.setFile file) := by
  intro _ member
  simp only [DirEntry.setFile, settled, DirEntry.candidates, map_nil, mem_singleton] at member
  rw [member]
  exact safe

/-- A disk operation that keeps what was promised, and that can promise the
entry as well when it succeeds. -/
structure Preserves {α : Type} (macKey : CacheMacKey)
    (promised : List ReplayEntry) (entry : ReplayEntry)
    (outcome : ReplayCache × Disk × Except ReplayCacheError α) : Prop where
  disk : DiskInv macKey promised outcome.2.1
  journal : JournalInv macKey promised outcome.2.1 outcome.1.authJournal
  success :
    ∀ value, outcome.2.2 = .ok value →
      DiskInv macKey (promised ++ [entry]) outcome.2.1 ∧
        JournalInv macKey (promised ++ [entry]) outcome.2.1 outcome.1.authJournal

/-! ## Rewriting -/

theorem safe_rewritten (key : CacheMacKey)
    (kept : promised ⊆ entries) (short : entries.length ≤ COUNT_LIMIT) :
    Safe key promised (serializeAuthenticatedJournal key entries).1.length
      (CrashFile.synced (serializeAuthenticatedJournal key entries).1) := by
  have limit : COUNT_LIMIT + 2 < 2 ^ 64 := by decide
  apply safe_synced
  refine ⟨.rewritten key entries, (serializeAuthenticatedJournal key entries).2,
    (render_rewritten key entries).symm,
    commits_rewritten key (by omega), kept, ?_, ⟨short, ?_⟩⟩
  · rw [← render_rewritten, JournalText.render, length_append]
    exact Nat.le_add_right _ _
  · exact Nat.le_add_left 1 _

/-- A rewrite keeps what was promised, and when it succeeds it can promise every
entry in memory. -/
theorem compactAuthenticatedJournal_inv
    (inv : DiskInv key promised disk) (kept : promised ⊆ cache.order)
    (short : cache.order.length ≤ COUNT_LIMIT) (fault : CompactFault) :
    let outcome := cache.compactAuthenticatedJournal key disk fault
    DiskInv key promised outcome.2.1 ∧ JournalInv key promised outcome.2.1 outcome.1.authJournal ∧
      (outcome.2.2 = .ok () → ∀ more ⊆ cache.order, DiskInv key more outcome.2.1 ∧
        JournalInv key more outcome.2.1 outcome.1.authJournal) := by
  have renamed :
      DiskInv key promised
        (disk.rename (.synced (serializeAuthenticatedJournal key cache.order).1)) := by
    intro candidate member
    rcases DirEntry.mem_candidates_rename member with rfl | old
    · exact safe_rewritten key kept short
    · exact inv candidate old
  have settled more (subset : more ⊆ cache.order) : DiskInv key more
            (disk.rename (.synced (serializeAuthenticatedJournal key cache.order).1)).sync ∧
          JournalInv key more
            (disk.rename (.synced (serializeAuthenticatedJournal key cache.order).1)).sync
            (some (serializeAuthenticatedJournal key cache.order).2) := by
    constructor
    · intro _ member
      rw [DirEntry.candidates_sync, mem_singleton] at member
      rw [member]
      exact safe_rewritten key subset short
    · have limit : COUNT_LIMIT + 2 < 2 ^ 64 := by decide
      rintro _ ⟨⟩ _
      exact ⟨_, .rewritten key cache.order, rfl,
        (render_rewritten key cache.order).symm, rfl, commits_rewritten key (by omega),
        ⟨short, Nat.le_add_left 1 _⟩, subset⟩
  cases fault with
  | none => exact ⟨(settled promised kept).1, (settled promised kept).2, fun _ => settled⟩
  | beforeRename => exact ⟨inv, journalInv_none _ _ _, by rintro ⟨⟩⟩
  | afterRename => exact ⟨renamed, journalInv_none _ _ _, by rintro ⟨⟩⟩

theorem compactThen_preserves (inv : DiskInv key promised disk)
    (kept : promised ++ [entry] ⊆ cache.order)
    (short : cache.order.length ≤ COUNT_LIMIT) (fault : CompactFault) :
    Preserves key promised entry (cache.compactThen key disk fault) := by
  obtain ⟨diskInv, journalInv, succeeded⟩ :=
    compactAuthenticatedJournal_inv inv (append_subset.mp kept).1 short fault
  refine ⟨diskInv, journalInv, ?_⟩
  intro _ done
  cases fault with
  | none => exact succeeded rfl _ kept
  | beforeRename | afterRename => cases done

/-! ## Appending -/

theorem appendEntry_eq (cache : ReplayCache) (key : CacheMacKey) (disk : Disk)
    (file : CrashFile Char)
    (bounded : journal.Bounded) (entry : ReplayEntry) (fault : AppendFault) :
    cache.appendEntry key disk file journal entry fault = (let line := journal.nextLine key entry
      let next := journal.next key entry
      let offset := next.activeSlot * AUTH_JOURNAL_HEADER_LEN
      let committedLen := (file.current NUL).length
      let appended := CrashFile.synced (file.current NUL ++ line)
      match fault with
      | .beforeWrite => (cache, disk, .error .io)
      | .append landed truncated synced =>
        let torn := file.push (.write committedLen (line.take landed))
        if truncated then
          let rolledBack := torn.push (.setLen committedLen)
          (cache, disk.setFile (if synced then rolledBack.sync NUL else rolledBack), .error .io)
        else
          ({ cache with authJournal := none }, disk.setFile torn, .error .io)
      | .header landed =>
        ({ cache with authJournal := none }, disk.setFile
            (appended.push (.write offset ((next.header key).take landed))),
          .error .io)
      | .none =>
        ({ cache with authJournal := some next },
          disk.setFile ((appended.push (.write offset (next.header key))).sync NUL),
          .ok false)) := by
  obtain ⟨_, _⟩ := bounded.lt
  have nextGeneration : saturatingAdd journal.generation 1 = journal.generation + 1 := by
    unfold saturatingAdd U64_MAX
    omega
  have nextCount : saturatingAdd journal.count 1 = journal.count + 1 := by
    unfold saturatingAdd U64_MAX
    omega
  have appended (line : List Char) : (file.push (.write (file.current NUL).length line)).sync NUL =
          .synced (file.current NUL ++ line) := by
    rw [CrashFile.sync, current_push, FileOp.apply, writeAt_end]
  unfold appendEntry
  rw [nextGeneration, nextCount]
  simp only [appended]
  rfl

/-- Cutting off what an append wrote restores the content. -/
theorem current_rolledBack (file : CrashFile Char) (line : List Char) :
    ((file.push (.write (file.current NUL).length line)).push
        (.setLen (file.current NUL).length)).current NUL = file.current NUL := by
  rw [current_push, current_push, FileOp.apply, FileOp.apply, writeAt_end, resize_append]

variable {text : JournalText} {persisted : ReplayCache} {later : Disk}

theorem appendEntry_current (isFile : disk.file? = some file)
    (content : file.current NUL = text.render key)
    (clean : text.garbage = []) (commits : text.Commits key journal)
    (bounded : journal.Bounded) (adopted : cache.authJournal = some journal)
    (entry : ReplayEntry) (fault : AppendFault) :
    let outcome := cache.appendEntry key disk file journal entry fault
    (outcome.2.2 = .error .io ∧
        (outcome.1.authJournal = none ∨
          outcome.1.authJournal = some journal ∧
            ∃ later, outcome.2.1.file? = some later ∧ later.current NUL = text.render key)) ∨
      outcome.1.authJournal = some (journal.next key entry) ∧
        outcome.2.1 = disk.setFile (CrashFile.synced
          ((text.advance key journal entry).render key)) := by
  rw [appendEntry_eq cache key disk file bounded entry fault]
  cases fault with
  | beforeWrite => exact .inl ⟨rfl, .inr ⟨adopted, file, isFile, content⟩⟩
  | append landed truncated synced =>
    cases truncated with
    | false => exact .inl ⟨rfl, .inl rfl⟩
    | true =>
      have restored := (current_rolledBack file
        ((journal.nextLine key entry).take landed)).trans content
      cases synced with
      | false | true => exact .inl ⟨rfl, .inr ⟨adopted, _, disk.file?_setFile _, restored⟩⟩
  | header => exact .inl ⟨rfl, Or.inl rfl⟩
  | none =>
    have sized : ((journal.next key entry).header key).length = AUTH_JOURNAL_HEADER_LEN :=
      length_authenticatedJournalHeader key _ bounded.lt.2 bounded.lt.1
    have target : (journal.next key entry).activeSlot = 1 - journal.activeSlot := commits.target_eq
    refine Or.inr ⟨rfl, ?_⟩
    dsimp only
    rw [CrashFile.sync, current_push, current_synced,
      content, JournalText.render, clean, append_nil, target,
      FileOp.apply, writeAt_nextHeader commits sized]

theorem appendEntry_preserves {fault : AppendFault} (inv : DiskInv key promised disk)
    (settled : fault ≠ .beforeWrite → disk.renamed = [])
    (isFile : disk.file? = some file) (content : file.current NUL = text.render key)
    (clean : text.garbage = []) (commits : text.Commits key journal)
    (kept : promised ⊆ text.entries) (bounded : (journal.next key entry).Bounded)
    (unforged :
      Unforged key (text.slot (1 - journal.activeSlot))
        ((journal.next key entry).header key))
    (adopted : cache.authJournal = some journal) :
    Preserves key promised entry (cache.appendEntry key disk file journal entry fault) := by
  have oldBounded := bounded.of_next
  rcases appendEntry_current isFile content clean commits oldBounded adopted
    entry fault with ⟨failed, leaves⟩ | ⟨next, written⟩
  · refine ⟨?_, ?_, ?_⟩
    · have safe := inv (some file) (isFile ▸ disk.file?_mem_candidates)
      rw [appendEntry_eq cache key disk file oldBounded entry fault] at failed ⊢
      cases fault with
      | none => cases failed
      | beforeWrite => exact inv
      | append landed truncated synced =>
        have renamed := settled (by simp)
        have torn := safe.push_write (head?_take_solid landed (nextLine_solid key journal entry))
        cases truncated with
        | false =>
          refine DiskInv.setFile renamed (torn.mono (List.Subset.refl _) ?_)
          rw [current_push]
          exact length_le_length_writeAt _ _ _ _
        | true =>
          have lengthLe := (congrArg List.length (current_rolledBack file
            ((journal.nextLine key entry).take landed))).ge
          have rolledBack := torn.push_setLen
          cases synced with
          | false => exact .setFile renamed (rolledBack.mono (List.Subset.refl _) lengthLe)
          | true => exact .setFile renamed (rolledBack.sync.mono (List.Subset.refl _) lengthLe)
      | header landed =>
        have writes := recoverable_headerWrite commits kept bounded unforged
        have base : file.current NUL = text.base key := by
          rw [content, JournalText.render, clean, append_nil]
        have target : (journal.next key entry).activeSlot =
            1 - journal.activeSlot := commits.target_eq
        have lengthLe := length_le_length_writeAt NUL
          ((journal.next key entry).activeSlot * AUTH_JOURNAL_HEADER_LEN)
          (((journal.next key entry).header key).take landed)
          (text.base key ++ journal.nextLine key entry)
        refine .setFile (settled (by simp)) (.mono ?_ (List.Subset.refl _) (lengthLe.trans_eq ?_))
        · intro _ survives
          rcases survives_push survives with
            before | ⟨_, amount, before, rfl⟩
          · rw [survives_synced.mp before, base]
            exact writes 0
          · rw [survives_synced.mp before, base, target]
            have torn := writes (min amount landed)
            rw [← take_take] at torn
            exact torn
        · rw [current_push, current_synced, base]
          rfl
    · rcases leaves with dropped | ⟨same, later, isLater, unchanged⟩
      · rw [dropped]
        exact journalInv_none _ _ _
      · rw [same]
        rintro journal ⟨⟩ _
        exact ⟨later, text, isLater, unchanged, clean, commits, oldBounded, kept⟩
    · intro _ done
      rw [done] at failed
      cases failed
  · have nextCommits := commits.next entry oldBounded.lt.2 oldBounded.lt.1
    have nextKept : promised ++ [entry] ⊆ (text.advance key journal entry).entries :=
      append_subset.mpr
        ⟨List.Subset.trans kept (subset_append_left _ _), subset_append_right _ _⟩
    have diskInv : DiskInv key (promised ++ [entry])
        (disk.setFile (.synced ((text.advance key journal entry).render key))) := by
      refine .setFile (settled ?_) (safe_synced ?_)
      · rintro rfl
        rw [appendEntry_eq cache key disk file oldBounded entry .beforeWrite] at next
        have lengths := congrArg AuthJournalState.count (Option.some.inj (adopted.symm.trans next))
        exact absurd lengths (Nat.ne_of_lt (Nat.lt_succ_self _))
      exact ⟨_, _, rfl, nextCommits, nextKept, by
        simp [JournalText.render], bounded⟩
    have journalInv : JournalInv key (promised ++ [entry])
        (disk.setFile (.synced ((text.advance key journal entry).render key)))
        (some (journal.next key entry)) := by
      rintro next ⟨⟩ _
      exact ⟨_, _, DirEntry.file?_setFile _ _, rfl, rfl, nextCommits, bounded, nextKept⟩
    have fewer : promised ⊆ promised ++ [entry] := subset_append_left _ _
    rw [← written] at diskInv journalInv
    rw [← next] at journalInv
    exact ⟨diskInv.mono fewer, journalInv.mono fewer, fun _ _ => ⟨diskInv, journalInv⟩⟩

/-! ## Persisting -/

theorem AuthJournalState.Bounded.next (bounded : journal.Bounded)
    (economical : cache.shouldCompactAuthenticatedJournal journal = false)
    (orderLe : cache.order.length ≤ cache.capacity) (capacityLe : cache.capacity ≤ CAPACITY_LIMIT) :
    (journal.next key entry).Bounded := by
  have threshold : ¬ max cache.capacity 1024 < journal.count - cache.order.length := by
    simpa [shouldCompactAuthenticatedJournal] using economical
  have least : 1024 ≤ CAPACITY_LIMIT := by decide
  refine ⟨?_, Nat.succ_le_succ bounded.2⟩
  simp only [AuthJournalState.next]
  unfold COUNT_LIMIT
  omega

theorem persistAuthenticatedEntry_preserves {staged : ReplayCache}
    (inv : DiskInv key promised disk)
    (journalInv : JournalInv key promised disk staged.authJournal)
    (kept : promised ++ [entry] ⊆ staged.order) (orderLe : staged.order.length ≤ staged.capacity)
    (capacityLe : staged.capacity ≤ CAPACITY_LIMIT)
    {faults : Faults}
    (settled : faults.append ≠ .beforeWrite → ∀ journal ∈ staged.authJournal, journal.count ≠ 0 →
      staged.shouldCompactAuthenticatedJournal journal = false → disk.renamed = [])
    (unforged :
      ∀ journal ∈ staged.authJournal, ∀ file ∈ disk.file?,
        ∀ old ∈ rawSlot? (file.current NUL) ((journal.activeSlot + 1) % AUTH_JOURNAL_HEADER_SLOTS),
          Unforged key old ((journal.next key entry).header key)) :
    Preserves key promised entry
      (staged.persistAuthenticatedEntry key disk (some entry) faults) := by
  have small : CAPACITY_LIMIT ≤ COUNT_LIMIT := by decide
  rcases persistAuthenticatedEntry_cases staged key disk (some entry) faults with
    ⟨_, rfl | ⟨journal, adopted, counted, missing⟩, compacts⟩ |
    ⟨journal, adopted, _, ⟨⟩, file, isFile, counted, economical, appends⟩
  · rw [compacts]
    exact compactThen_preserves inv kept (by omega) faults.compact
  · obtain ⟨file, _, isFile, _⟩ := journalInv journal adopted counted
    rw [missing] at isFile
    cases isFile
  · obtain ⟨_, text, same, content, clean, commits, bounded, keptInFile⟩ :=
      journalInv journal adopted counted
    cases isFile.symm.trans same
    have rawSlot :
        rawSlot? (file.current NUL) ((journal.activeSlot + 1) % AUTH_JOURNAL_HEADER_SLOTS) =
          some (text.slot (1 - journal.activeSlot)) := by
      rw [content, ← commits.target_eq]
      exact rawSlot?_render commits.slot_length (Nat.mod_lt _ (by decide))
    rw [appends]
    exact appendEntry_preserves inv
      (fun writes => settled writes journal adopted counted economical) isFile
      content clean commits keptInFile (bounded.next economical orderLe capacityLe)
      (unforged journal adopted file isFile _ rawSlot) adopted

/-! ## Steps -/

theorem World.inv_start (key : CacheMacKey) (window : Nat) : World.start.Inv key window := by
  constructor
  · intro _ member
    rw [mem_singleton.mp member]
    rfl
  · rintro _ ⟨⟩

variable {window : Nat}

theorem World.Inv.crash (inv : world.Inv key window) (choice : Nat) (amounts : List Nat) :
    (world.step key (.crash choice amounts)).Inv key window := by
  refine ⟨?_, by rintro _ ⟨⟩⟩
  intro _ member
  rcases world.disk.crash_cases NUL choice amounts with
    ⟨lost, crashed⟩ | ⟨file, content, isCandidate, survivor, crashed⟩
  · rw [World.step, crashed] at member
    rw [mem_singleton.mp member]
    exact inv.disk none lost
  · rw [World.step, crashed] at member
    rw [mem_singleton.mp member]
    have safe := inv.disk (some file) isCandidate
    exact safe_synced (safe content ⟨amounts, survivor⟩).tight

theorem mem_stillDue :
    entry ∈ stillDue window now entries ↔ entry ∈ entries ∧ now ≤ entry.timestamp + window := by
  simp [stillDue]

theorem stillDue_subset (window now : Nat) (entries : List ReplayEntry) :
    stillDue window now entries ⊆ entries :=
  filter_subset_self _

theorem stillDue_later {earlier : Nat} (later : earlier ≤ now) :
    stillDue window now (stillDue window earlier entries) = stillDue window now entries := by
  unfold stillDue
  rw [List.filter_filter]
  refine filter_congr fun entry _ => ?_
  simp only [Bool.and_eq_left_iff_imp, decide_eq_true_eq]
  omega

theorem stillDue_subset_filter
    (clock : now < 2 ^ 64) (kept : promised ⊆ entries) :
    stillDue window now promised ⊆ entries.filter (isUnexpired window now) := by
  intro _ member
  obtain ⟨isPromised, inside⟩ := mem_stillDue.mp member
  exact mem_filter.mpr ⟨kept isPromised, (isUnexpired_iff clock).mpr inside⟩

variable {cap : Nat}

theorem DiskInv.load (inv : DiskInv key promised disk)
    (window : Nat) (readFails : Bool) (fault : CompactFault)
    (clock : now < 2 ^ 64) (capacityLe : cap ≤ CAPACITY_LIMIT) :
    let outcome := loadAuthenticatedWithWindow key cap window now disk readFails fault
    let kept := stillDue window now promised
    DiskInv key kept outcome.1 ∧
      ((∃ cache, outcome.2 = .ok cache ∧ CacheInv key window kept outcome.1 cache) ∨
        (outcome.2 = .error .io ∧ (readFails = true ∨ fault ≠ .none))) := by
  have due := inv.mono (stillDue_subset window now promised)
  unfold loadAuthenticatedWithWindow
  cases shape : disk.file? with
  | none =>
    have nothing : stillDue window now promised = [] :=
      due none (shape ▸ disk.file?_mem_candidates)
    refine ⟨due, .inl ⟨_, rfl, ?_⟩⟩
    exact
      { indexed := (indexed_new cap window true (some key)).of_eq rfl rfl rfl rfl
        idle := rfl
        onDisk := rfl
        key := rfl
        capacity_le := capacityLe
        window := rfl
        kept := by simp [nothing]
        order_le := Nat.zero_le _
        journal := by
          rintro journal ⟨⟩ counted
          exact absurd rfl counted }
  | some file =>
    have safe := inv (some file) (shape ▸ disk.file?_mem_candidates)
    obtain ⟨text, journal, content, commits, kept, _, bounded⟩ := safe _ (survives_current NUL file)
    cases readFails with
    | true => exact ⟨due, .inr ⟨rfl, .inl rfl⟩⟩
    | false =>
      simp only [Bool.false_eq_true, if_false, content,
        commits.isBlank_render, parse_render commits]
      obtain ⟨order, sameCapacity, samePath, sameKey, sameJournal, idle⟩ :=
        adopt_frame key cap window text.entries now journal
      have indexed := indexed_adopt key cap window text.entries now journal
      have sameWindow := windowSecs_adopt key cap window text.entries now journal
      generalize adopt key cap window now text.entries journal = loaded
        at order sameCapacity samePath sameKey sameJournal idle indexed sameWindow ⊢
      have dueKept : stillDue window now promised ⊆ loaded.order := by
        rw [order]
        exact stillDue_subset_filter clock kept
      have orderLe : loaded.order.length ≤ COUNT_LIMIT := by
        rw [order]
        exact (length_filter_le _ _).trans (commits.count_eq ▸ bounded.1)
      have loads disk authJournal
          (journalInv : JournalInv key (stillDue window now promised) disk authJournal) :
          CacheInv key window (stillDue window now promised) disk
            { loaded with authJournal := authJournal } := by
        exact
          { indexed := indexed.of_eq rfl rfl rfl rfl
            idle := idle
            onDisk := samePath
            key := sameKey
            capacity_le := sameCapacity.le.trans capacityLe
            window := sameWindow
            kept := dueKept
            order_le := orderLe
            journal := journalInv }
      cases dirty : text.dirty key journal with
      | true =>
        obtain ⟨diskInv, journalInv, _⟩ := compactAuthenticatedJournal_inv due dueKept orderLe fault
        cases fault with
        | none => exact ⟨diskInv, .inl ⟨_, rfl, loads _ _ journalInv⟩⟩
        | beforeRename | afterRename => exact ⟨diskInv, .inr ⟨rfl, .inr (by decide)⟩⟩
      | false =>
        have journalInv : JournalInv key (stillDue window now promised) disk (some journal) := by
          rintro _ ⟨⟩ _
          exact ⟨file, text, shape, content, JournalText.garbage_of_clean dirty, commits, bounded,
            List.Subset.trans (stillDue_subset ..) kept⟩
        have whole := loads disk (some journal) journalInv
        rw [← sameJournal] at whole
        exact ⟨due, Or.inl ⟨loaded, rfl, whole⟩⟩

theorem World.Inv.reload (inv : world.Inv key window) (readFails : Bool) (fault : CompactFault)
    (clock : now < 2 ^ 64) (capacityLe : cap ≤ CAPACITY_LIMIT) (later : world.clock ≤ now) :
    (world.step key (.reload cap window now readFails fault)).Inv key window := by
  obtain ⟨diskInv, outcome⟩ := inv.disk.load window readFails fault clock capacityLe
  rw [World.due, stillDue_later later] at diskInv outcome
  refine ⟨diskInv, ?_⟩
  intro _ found
  rcases outcome with ⟨_, result, cacheInv⟩ | ⟨result, _⟩
  · simp only [World.step, result] at found
    cases found
    exact cacheInv
  · simp only [World.step, result] at found
    cases found

theorem persist_eq (disk : Disk) (faults : Faults) (onDisk : cache.path = true)
    (keyed : cache.macKey = some key) (last : cache.order.getLast? = some entry) :
    cache.persist disk faults =
      ((cache.persistAuthenticatedEntry key disk (some entry) faults).1,
        (cache.persistAuthenticatedEntry key disk (some entry) faults).2.1,
        (cache.persistAuthenticatedEntry key disk (some entry) faults).2.2.map fun _ => ()) := by
  unfold persist
  simp [onDisk, keyed, last]

theorem CacheInv.pruneExpired (inv : CacheInv key window promised disk cache)
    (clock : now < 2 ^ 64) :
    CacheInv key window (stillDue window now promised) disk (cache.pruneExpired now) := by
  obtain ⟨sameCapacity, sameWindow, samePath, sameKey, sameJournal⟩ := pruneExpired_frame cache now
  have order := inv.indexed.order_pruneExpired now
  rw [inv.window] at order
  exact
    { indexed := inv.indexed.pruneExpired now
      idle := pruneExpired_idle inv.idle now
      onDisk := samePath.trans inv.onDisk
      key := sameKey.trans inv.key
      capacity_le := sameCapacity.le.trans inv.capacity_le
      window := sameWindow.trans inv.window
      kept := order ▸ stillDue_subset_filter clock inv.kept
      order_le := order ▸ (length_filter_le _ _).trans inv.order_le
      journal := sameJournal ▸ inv.journal.mono (stillDue_subset _ _ _) }

theorem CacheInv.mono (inv : CacheInv key window promised disk cache) (subset : fewer ⊆ promised) :
    CacheInv key window fewer disk cache :=
  { inv with
    kept := List.Subset.trans subset inv.kept
    journal := inv.journal.mono subset }

theorem CacheInv.recorded
    (inv : CacheInv key window promised disk cache) (room : cache.order.length < cache.capacity)
    (same : SameQueue (cache.insertLoaded entry) persisted)
    (journal : JournalInv key (promised ++ [entry]) later persisted.authJournal) :
    CacheInv key window (promised ++ [entry]) later persisted := by
  have indexed := same.sameMemory.indexed inv.indexed.pushLoadedEntry
  have small : CAPACITY_LIMIT ≤ COUNT_LIMIT := by decide
  have capacityLe := inv.capacity_le
  rw [same] at indexed ⊢
  exact
    { indexed := indexed
      idle := inv.idle
      onDisk := inv.onDisk
      key := inv.key
      capacity_le := capacityLe
      window := inv.window
      kept := append_subset.mpr
        ⟨subset_append_of_subset_left _ inv.kept, subset_append_right _ _⟩
      order_le := by
        simp only [insertLoaded, pushLoadedEntry, length_append, length_singleton]
        omega
      journal := journal }

theorem CacheInv.rolledBack
    (inv : CacheInv key window promised disk cache) (freshNonce : entry.nonce ∉ cache.nonces)
    (freshTranscript : entry.transcriptFingerprint ∉ cache.transcripts)
    (same : SameQueue (cache.insertLoaded entry) persisted)
    (journal : JournalInv key promised later persisted.authJournal) :
    CacheInv key window promised later (persisted.rollBack entry) := by
  have indexed := inv.indexed.rollBack freshNonce freshTranscript same.sameMemory
  have idle : persisted.pendingPersist = [] := by
    rw [same]
    exact inv.idle
  rw [rollBack_insertLoaded freshNonce freshTranscript same.sameMemory] at indexed ⊢
  exact { inv with indexed := indexed, idle := idle, journal := journal }

/-- An immediate insertion on an idle authenticated cache keeps the invariant,
and promises the entry when it reports `inserted`. -/
theorem CacheInv.stageAndPersist {faults : Faults} (diskInv : DiskInv key promised disk)
    (cacheInv : CacheInv key window promised disk cache) (clock : now < 2 ^ 64)
    (settled : cache.Appends entry now faults → disk.renamed = [])
    (unforged :
      ∀ journal ∈ cache.authJournal, ∀ file ∈ disk.file?,
        ∀ old ∈ rawSlot? (file.current NUL) ((journal.activeSlot + 1) % AUTH_JOURNAL_HEADER_SLOTS),
          Unforged key old ((journal.next key entry).header key)) :
    let outcome := cache.stageAndPersist disk entry now faults
    let due :=
      stillDue window now promised ++ (match outcome.2.2 with
        | .ok .inserted => [entry]
        | _ => [])
    DiskInv key due outcome.2.1 ∧ CacheInv key window due outcome.2.1 outcome.1 := by
  have pruned := cacheInv.pruneExpired clock
  have dueDisk := diskInv.mono (stillDue_subset window now promised)
  have sameJournal := (pruneExpired_frame cache now).2.2.2.2
  unfold ReplayCache.stageAndPersist
  rcases stageInsert_cases cache entry now with
    ⟨outcome, staged, refused⟩ | ⟨staged, freshNonce, freshTranscript, room⟩
  · have nothing :
        (match (Except.ok outcome :
            Except ReplayCacheError ReplayInsertOutcome) with
          | .ok .inserted => [entry]
          | _ => []) = [] := by
      cases outcome with
      | inserted => exact absurd rfl refused
      | replayed | stale | cacheFull => rfl
    rw [staged]
    simp only [ne_eq, refused, not_false_eq_true, if_true, nothing, append_nil]
    exact ⟨dueDisk, pruned⟩
  · rw [← sameJournal] at unforged
    unfold ReplayCache.Appends at settled
    rw [staged] at settled ⊢
    generalize cache.pruneExpired now = live at *
    have last : (live.insertLoaded entry).order.getLast? = some entry := List.getLast?_concat
    have lengthLe : (live.insertLoaded entry).order.length ≤ live.capacity := by
      simp only [insertLoaded, pushLoadedEntry, length_append, length_singleton]
      omega
    have dueKept :
        stillDue window now promised ++ [entry] ⊆ (live.insertLoaded entry).order :=
      append_subset.mpr
        ⟨subset_append_of_subset_left _ pruned.kept, subset_append_right _ _⟩
    have journal : JournalInv key (stillDue window now promised)
        disk (live.insertLoaded entry).authJournal :=
      pruned.journal
    have preserves :=
      persistAuthenticatedEntry_preserves dueDisk journal dueKept lengthLe
        pruned.capacity_le
        (fun writes journal adopted counted economical =>
          settled ⟨rfl, writes, journal, adopted, counted, economical⟩)
        unforged
    have same :=
      persistAuthenticatedEntry_sameQueue (live.insertLoaded entry) key disk (some entry) faults
    simp only [ne_eq, not_true_eq_false, if_false]
    have stored : (live.insertLoaded entry).persist disk faults = _ :=
      persist_eq disk faults pruned.onDisk pruned.key last
    rw [stored]
    generalize (live.insertLoaded entry).persistAuthenticatedEntry key disk
      (some entry) faults = persistence at preserves same ⊢
    obtain ⟨_, _, result⟩ := persistence
    obtain ⟨keepsDisk, keepsJournal, succeeds⟩ := preserves
    cases result with
    | error =>
      simp only [Except.map, append_nil]
      exact ⟨keepsDisk, pruned.rolledBack freshNonce freshTranscript same keepsJournal⟩
    | ok value =>
      obtain ⟨nextDisk, nextJournal⟩ := succeeds value rfl
      exact ⟨nextDisk, pruned.recorded room same nextJournal⟩

theorem World.Inv.insert {faults : Faults} (inv : world.Inv key window)
    (admissible : world.Admissible key (.insert entry now faults))
    (settled : world.Settled window (.insert entry now faults)) :
    (world.step key (.insert entry now faults)).Inv key window := by
  obtain ⟨clock, unforged⟩ := admissible
  obtain ⟨later, settled⟩ := settled
  cases running : world.cache with
  | none =>
    simp only [World.step, running]
    exact inv
  | some cache =>
    have cacheInv := inv.cache cache running
    obtain ⟨_, appendable⟩ := settled cache running
    have flushed :
        cache.insertNewOutcome world.disk entry now [] faults =
          cache.stageAndPersist world.disk entry now faults := by
      unfold insertNewOutcome flushPending
      rw [if_neg (by omega), cacheInv.idle]
      rfl
    obtain ⟨diskInv, after⟩ :=
      cacheInv.stageAndPersist inv.disk clock appendable (unforged cache running)
    rw [World.due, stillDue_later later] at diskInv after
    simp only [World.step, running, flushed]
    have subset (more : List ReplayEntry) : stillDue window now (world.promised ++ more) ⊆
        stillDue window now world.promised ++ more := by
      unfold stillDue
      rw [filter_append]
      exact append_subset.mpr ⟨subset_append_left _ _,
        subset_append_of_subset_right _ (filter_subset_self _)⟩
    refine ⟨diskInv.mono (subset _), ?_⟩
    rintro _ ⟨⟩
    exact after.mono (subset _)

theorem World.Reachable.inv (reachable : Reachable key (Settled window) world) :
    world.Inv key window := by
  induction reachable with
  | start => exact World.inv_start key window
  | @step _ event _ admissible settled ih =>
    cases event with
    | insert => exact ih.insert admissible settled
    | reload _ _ _ readFails fault =>
      obtain ⟨later, rfl⟩ := settled
      exact ih.reload readFails fault admissible.1 admissible.2 later
    | crash choice amounts => exact ih.crash choice amounts

/-- In every world of a settled run a reload accepts the journal file and finds
each promised entry that is still inside the window, or fails with an I/O error
that a fault explains. -/
theorem World.Reachable.reload_finds_promised
    {macKey : CacheMacKey} {windowSecs : Nat} {world : World}
    (reachable : Reachable macKey (Settled windowSecs) world)
    (capacity now : Nat) (readFails : Bool) (fault : CompactFault)
    (clock : now < 2 ^ 64) (later : world.clock ≤ now) (capacityLe : capacity ≤ CAPACITY_LIMIT) :
    (∃ cache,
        (loadAuthenticatedWithWindow macKey capacity windowSecs now world.disk
          readFails fault).2 = .ok cache ∧
        ∀ entry ∈ world.promised, now ≤ entry.timestamp + windowSecs → entry ∈ cache.order) ∨
      ((loadAuthenticatedWithWindow macKey capacity windowSecs now world.disk
          readFails fault).2 = .error .io ∧
        (readFails = true ∨ fault ≠ .none)) := by
  rcases (reachable.inv.disk.load windowSecs readFails fault clock capacityLe).2 with
    ⟨cache, result, cacheInv⟩ | failed
  · refine .inl ⟨cache, result, ?_⟩
    intro _ promised inside
    rw [World.due, stillDue_later later] at cacheInv
    exact cacheInv.kept (mem_stillDue.mpr ⟨promised, inside⟩)
  · exact .inr failed

/-! ## Concrete runs -/

def stampKey : CacheMacKey :=
  { cacheJournalHeaderMac generation _ _ := ⟨UInt8.ofNat generation :: List.replicate 31 0, rfl⟩
    legacyCacheJournalHeaderMacV3 _ _ := zeroMac
    cacheJournalEntryMac _ _ _ := zeroMac }

def stampEntry (byte : UInt8) : ReplayEntry :=
  ⟨100, List.Vector.replicate 8 byte, List.Vector.replicate 32 byte, by decide⟩

private theorem splice_at_difference
    (before oldRest newRest : List Char) (old new : Char) (kept : Nat) :
    (before ++ new :: newRest).take kept ++ (before ++ old :: oldRest).drop kept =
      if kept ≤ before.length then
        before ++ old :: oldRest
      else
        before ++ new :: (newRest.take (kept - before.length - 1) ++
          oldRest.drop (kept - before.length - 1)) := by
  by_cases inside : kept ≤ before.length
  · rw [if_pos inside, take_append_of_le_length inside,
      drop_append_of_le_length inside, ← append_assoc,
      take_append_drop]
  · obtain ⟨beyond, rfl⟩ : ∃ beyond, kept = before.length + 1 + beyond :=
      ⟨kept - before.length - 1, by omega⟩
    have shift : before.length + 1 + beyond - before.length - 1 = beyond := by omega
    rw [if_neg inside, shift, Nat.add_assoc, Nat.add_comm 1 beyond,
      take_length_add_append, drop_length_add_append]
    simp

/-- The text of a header of `stampKey` whose generation, count and MAC end in
the given digits. -/
private def stampHeader (generation count mac : Char) : List Char :=
  "parallax-replay-cache-v4 gen=000000000000000".toList ++
    generation :: (" count=000000000000000".toList ++
      count :: ((" tail=".toList ++ pushHex zeroMac.toList ++
        " mac=0".toList) ++
        mac :: (List.replicate 62 '0' ++ ['\n'])))

private theorem stampHeader_torn (gen count : Nat) (headerMac : Mac) {text : List Char}
    (generationLt : gen < 2 ^ 64) (countLt : count < 2 ^ 64)
    (shape : text = headerText gen count zeroMac headerMac ++ ['\n'])
    (forged : stampKey.cacheJournalHeaderMac gen count zeroMac ≠ headerMac) :
    (parseAuthenticatedJournalHeaderSlot stampKey text).toBool = false := by
  rw [shape, parse_headerText stampKey zeroMac headerMac generationLt countLt, if_pos forged]
  rfl

private theorem unforged_stampKey :
    Unforged stampKey (stampHeader '1' '1' '1') (stampHeader '2' '2' '2') := by
  intro kept _ notOld notNew
  unfold stampHeader at notOld notNew ⊢
  rw [splice_at_difference] at notOld notNew ⊢
  split at notOld
  · exact absurd rfl notOld
  rename_i beyondGeneration
  rw [if_neg beyondGeneration] at notNew ⊢
  rw [splice_at_difference] at notNew ⊢
  by_cases atCount :
      kept - "parallax-replay-cache-v4 gen=000000000000000".toList.length - 1 ≤
        " count=000000000000000".toList.length
  · rw [if_pos atCount]
    exact stampHeader_torn 2 1 (stampKey.cacheJournalHeaderMac 1 1 zeroMac)
      (by decide) (by decide) (by decide +kernel) (by decide)
  rw [if_neg atCount] at notNew ⊢
  rw [splice_at_difference] at notNew ⊢
  split
  · exact stampHeader_torn 2 2 (stampKey.cacheJournalHeaderMac 1 1 zeroMac)
      (by decide) (by decide) (by decide +kernel) (by decide)
  next beyondMac =>
    rw [if_neg beyondMac, take_append_drop] at notNew
    exact absurd rfl notNew

def loadedExample : World := World.start.step stampKey (.reload 4 120 100 false .none)

def promisedExample : World := loadedExample.step stampKey (.insert (stampEntry 1) 100 Faults.none)

def secondExample : World := promisedExample.step stampKey (.insert (stampEntry 2) 100 Faults.none)

/-- The directory sync of a rewrite fails after its rename. -/
def renamedExample : World :=
  loadedExample.step stampKey (.insert (stampEntry 1) 100 ⟨.afterRename, .none⟩)

def adoptedExample : World := renamedExample.step stampKey (.reload 4 120 100 false .none)

def appendedExample : World := adoptedExample.step stampKey (.insert (stampEntry 2) 100 Faults.none)

private theorem admissible_second
    (adopted : world.cache.bind ReplayCache.authJournal = some ⟨1, 1, zeroMac, 0⟩)
    (otherSlot : (world.disk.file?.bind fun file => rawSlot? (file.current NUL) 1) =
      some (stampHeader '1' '1' '1')) :
    world.Admissible stampKey (.insert (stampEntry 2) 100 Faults.none) := by
  have nextHeader :
      ((⟨1, 1, zeroMac, 0⟩ : AuthJournalState).next stampKey
        (stampEntry 2)).header stampKey = stampHeader '2' '2' '2' := by
    decide +kernel
  refine ⟨by decide, ?_⟩
  intro _ found _ isJournal _ isFile old isOld
  rw [mem_def.mp found, bind_some, mem_def.mp isJournal] at adopted
  cases adopted
  rw [mem_def.mp isFile, bind_some] at otherSlot
  have same := Option.some.inj ((mem_def.mp isOld).symm.trans otherSlot)
  rw [same, nextHeader]
  exact unforged_stampKey

/-- The first entry is written by a rewrite and the second by an append; both
were promised before a crash and are found by the next reload. -/
theorem reload_finds_promised_after_crash :
    ∃ world, World.Reachable stampKey (World.Settled 120) world ∧
      world.promised = [stampEntry 1, stampEntry 2] ∧
      ∃ cache,
        (loadAuthenticatedWithWindow stampKey 4 120 200 world.disk false .none).2 = .ok cache ∧
        stampEntry 1 ∈ cache.order ∧ stampEntry 2 ∈ cache.order := by
  have loaded : World.Reachable stampKey (World.Settled 120) loadedExample :=
    .step .start ⟨by decide, by decide⟩ ⟨by decide, rfl⟩
  have inserted : World.Reachable stampKey (World.Settled 120) promisedExample := by
    refine .step loaded ⟨by decide, ?_⟩ ⟨by decide, ?_⟩
    · rintro cache ⟨⟩ journal ⟨⟩ _ ⟨⟩
    · rintro cache ⟨⟩
      exact ⟨by decide, fun _ => rfl⟩
  have appended : World.Reachable stampKey (World.Settled 120) secondExample := by
    refine .step inserted (admissible_second (by decide +kernel) (by decide +kernel))
      ⟨by decide, ?_⟩
    rintro cache ⟨⟩
    exact ⟨by decide, fun _ => by decide +kernel⟩
  have crashed : World.Reachable stampKey (World.Settled 120)
      (secondExample.step stampKey (.crash 0 [])) :=
    .step appended trivial trivial
  have promised : (secondExample.step stampKey (.crash 0 [])).promised =
      [stampEntry 1, stampEntry 2] := by
    decide +kernel
  refine ⟨_, crashed, promised, ?_⟩
  rcases crashed.reload_finds_promised 4 200 false .none (by decide) (by decide)
    (by decide) with ⟨cache, result, finds⟩ | ⟨_, impossible⟩
  · rw [promised] at finds
    exact ⟨cache, result, finds _ (by simp) (by decide), finds _ (by simp) (by decide)⟩
  · rcases impossible with impossible | impossible
    · cases impossible
    · exact absurd rfl impossible

/-- A rewrite whose directory sync fails, a restart that adopts the renamed
file, and an insertion that appends to it: the crash undoes the rename, and the
reload finds nothing. -/
theorem reload_misses_promised :
    ∃ world, World.Reachable stampKey (fun _ _ => True) world ∧
      stampEntry 2 ∈ world.promised ∧
      200 ≤ (stampEntry 2).timestamp + 120 ∧
      ∃ cache,
        (loadAuthenticatedWithWindow stampKey 4 120 200 world.disk false .none).2 = .ok cache ∧
        stampEntry 2 ∉ cache.order := by
  have loaded : World.Reachable stampKey (fun _ _ => True) loadedExample :=
    .step .start ⟨by decide, by decide⟩ trivial
  have failed : World.Reachable stampKey (fun _ _ => True) renamedExample := by
    refine .step loaded ⟨by decide, ?_⟩ trivial
    rintro cache ⟨⟩ journal ⟨⟩ file ⟨⟩
  have restarted : World.Reachable stampKey (fun _ _ => True) adoptedExample :=
    .step failed ⟨by decide, by decide⟩ trivial
  have appended : World.Reachable stampKey (fun _ _ => True) appendedExample := by
    exact .step restarted (admissible_second (by decide +kernel) (by decide +kernel)) trivial
  have crashed : World.Reachable stampKey (fun _ _ => True)
      (appendedExample.step stampKey (.crash 0 [])) :=
    .step appended trivial trivial
  refine ⟨_, crashed, ?_, by decide, fresh stampKey 4 120, ?_, ?_⟩
  · decide +kernel
  · have undone : (appendedExample.step stampKey (.crash 0 [])).disk = .empty := by decide +kernel
    rw [undone]
    rfl
  · rintro ⟨⟩

end ParallaX.Replay
