import Mathlib.Data.Finset.Basic
import ParallaX.Replay.JournalDisk

/-!
# The replay cache

The cache of recorded handshakes with its pruning, its insertion outcomes and
its persistence: none, a plain file that is rewritten whole, or the
authenticated journal. Every call that touches the disk takes the faults that
occur in it, and returns the cache and the disk as the source leaves them also
when it fails.
-/

namespace ParallaX.Replay

open ParallaX.Codec ParallaX.Data

abbrev Disk := DirEntry Char

def U64_MAX : Nat := 2 ^ 64 - 1

def saturatingAdd (left right : Nat) : Nat := min (left + right) U64_MAX

def MAX_FUTURE_SKEW_SECS : Nat := 5

inductive ReplayInsertOutcome where
  | inserted
  | replayed
  | stale
  | cacheFull
deriving DecidableEq, Repr

structure ReplayCache where
  capacity : Nat
  windowSecs : Nat
  path : Bool
  macKey : Option CacheMacKey
  authJournal : Option AuthJournalState
  order : List ReplayEntry
  oldestTimestamp : Option Nat
  encodedEntries : List (List Char)
  nonces : Finset (List.Vector UInt8 8)
  transcripts : Finset (List.Vector UInt8 32)
  pendingPersist : List ReplayEntry

/-- Where a rewrite of the whole file fails. The rename itself, or the sync of
the directory, may fail after the file has been replaced. -/
inductive CompactFault where
  | none
  | beforeRename
  | afterRename
deriving DecidableEq, Repr

/-- Where an append fails. `append` wrote `landed` characters of the line, and
then the truncation and its sync took place or not; `header` wrote `landed`
characters of the header slot. -/
inductive AppendFault where
  | none
  | beforeWrite
  | append (landed : Nat) (truncated synced : Bool)
  | header (landed : Nat)
deriving DecidableEq, Repr

structure Faults where
  compact : CompactFault
  append : AppendFault
deriving DecidableEq, Repr

def Faults.none : Faults := ⟨.none, .none⟩

namespace ReplayCache

def new (capacity windowSecs : Nat) (path : Bool) (macKey : Option CacheMacKey) : ReplayCache :=
  { capacity := capacity
    windowSecs := windowSecs
    path := path
    macKey := macKey
    authJournal := none
    order := []
    oldestTimestamp := none
    encodedEntries := []
    nonces := ∅
    transcripts := ∅
    pendingPersist := [] }

/-! ## Memory -/

variable (cache : ReplayCache)

def plain : Bool := cache.path && cache.macKey.isNone

def isFresh (timestamp now : Nat) : Bool :=
  timestamp ≤ saturatingAdd now MAX_FUTURE_SKEW_SECS &&
    now ≤ saturatingAdd timestamp cache.windowSecs

def isUnexpired (windowSecs now : Nat) (entry : ReplayEntry) : Bool :=
  now ≤ saturatingAdd entry.timestamp windowSecs

def foldOldest (oldest : Option Nat) (entry : ReplayEntry) : Option Nat :=
  some (oldest.elim entry.timestamp (min · entry.timestamp))

def pushLoadedEntry (entry : ReplayEntry) : ReplayCache :=
  { cache with
    oldestTimestamp := foldOldest cache.oldestTimestamp entry
    order := cache.order ++ [entry]
    encodedEntries :=
      if cache.plain then cache.encodedEntries ++ [encodePlainEntry entry]
      else cache.encodedEntries }

def insertLoaded (entry : ReplayEntry) : ReplayCache :=
  pushLoadedEntry
    { cache with
      nonces := insert entry.nonce cache.nonces
      transcripts := insert entry.transcriptFingerprint cache.transcripts }
    entry

def popPushedEntry : Option (ReplayEntry × ReplayCache) :=
  match cache.order.getLast? with
  | none => none
  | some entry =>
    let order := cache.order.dropLast
    some
      (entry,
        { cache with
          order := order
          oldestTimestamp :=
            if cache.oldestTimestamp = some entry.timestamp then
              (order.map ReplayEntry.timestamp).min?
            else
              cache.oldestTimestamp
          encodedEntries :=
            if cache.plain then cache.encodedEntries.dropLast
            else cache.encodedEntries })

/-- Drop the entries that left the window and rebuild the indexes from the
rest. Nothing is scanned while the oldest timestamp is inside the window. -/
def pruneExpired (now : Nat) : ReplayCache :=
  match cache.oldestTimestamp with
  | none => cache
  | some oldest =>
    if now ≤ saturatingAdd oldest cache.windowSecs then
      cache
    else
      let order := cache.order.filter (isUnexpired cache.windowSecs now)
      if order.length = cache.order.length then
        { cache with order := order }
      else
        { cache with
          order := order
          nonces := (order.map ReplayEntry.nonce).toFinset
          transcripts := (order.map ReplayEntry.transcriptFingerprint).toFinset
          oldestTimestamp := order.foldl foldOldest none
          encodedEntries :=
            if cache.plain then order.map encodePlainEntry
            else cache.encodedEntries
          pendingPersist :=
            cache.pendingPersist.filter (isUnexpired cache.windowSecs now) }

/-- The stage of an insertion that stays in memory. -/
def stageInsert (entry : ReplayEntry) (now : Nat) : ReplayCache × ReplayInsertOutcome :=
  let cache := cache.pruneExpired now
  if !cache.isFresh entry.timestamp now then
    (cache, .stale)
  else if entry.nonce ∈ cache.nonces then
    (cache, .replayed)
  else
    let marked := { cache with nonces := insert entry.nonce cache.nonces }
    if entry.transcriptFingerprint ∈ marked.transcripts then
      ({ marked with nonces := marked.nonces.erase entry.nonce }, .replayed)
    else
      let marked :=
        { marked with transcripts := insert entry.transcriptFingerprint marked.transcripts }
      if marked.capacity ≤ marked.order.length then
        ({ marked with
            nonces := marked.nonces.erase entry.nonce
            transcripts :=
              marked.transcripts.erase entry.transcriptFingerprint },
          .cacheFull)
      else
        (marked.pushLoadedEntry entry, .inserted)

/-! ## Disk -/

def shouldCompactAuthenticatedJournal (journal : AuthJournalState) : Bool :=
  max cache.capacity 1024 < journal.count - cache.order.length

variable (macKey : CacheMacKey) (disk : Disk)

/-- Write the whole journal to a temporary file, sync it, rename it over the
journal and sync the directory. -/
def compactAuthenticatedJournal (fault : CompactFault) :
    ReplayCache × Disk × Except ReplayCacheError Unit :=
  let (raw, journal) := serializeAuthenticatedJournal macKey cache.order
  let dropped := { cache with authJournal := none }
  let renamed := disk.rename (CrashFile.synced raw)
  match fault with
  | .beforeRename => (dropped, disk, .error .io)
  | .afterRename => (dropped, renamed, .error .io)
  | .none => ({ dropped with authJournal := some journal }, renamed.sync, .ok ())

def compactThen (fault : CompactFault) : ReplayCache × Disk × Except ReplayCacheError Bool :=
  let (cache, disk, result) := cache.compactAuthenticatedJournal macKey disk fault
  (cache, disk, result.map fun _ => true)

/-- Append the line and sync it, then write the next header into the slot that
does not hold the committed one and sync that. -/
def appendEntry (file : CrashFile Char) (journal : AuthJournalState) (entry : ReplayEntry)
    (fault : AppendFault) : ReplayCache × Disk × Except ReplayCacheError Bool :=
  let nextGeneration := saturatingAdd journal.generation 1
  let nextCount := saturatingAdd journal.count 1
  let (line, nextTailMac) := encodeAuthenticatedJournalEntry macKey nextCount entry journal.tailMac
  let nextHeader := authenticatedJournalHeader macKey nextGeneration nextCount nextTailMac
  let targetSlot := (journal.activeSlot + 1) % AUTH_JOURNAL_HEADER_SLOTS
  let headerOffset := targetSlot * AUTH_JOURNAL_HEADER_LEN
  let committedLen := (file.current NUL).length
  let appended := (file.push (.write committedLen line)).sync NUL
  match fault with
  | .beforeWrite => (cache, disk, .error .io)
  | .append landed truncated synced =>
    let torn := file.push (.write committedLen (line.take landed))
    if truncated then
      let rolledBack := torn.push (.setLen committedLen)
      (cache, disk.setFile (if synced then rolledBack.sync NUL else rolledBack), .error .io)
    else
      ({ cache with authJournal := none }, disk.setFile torn, .error .io)
  | .header landed =>
    ({ cache with authJournal := none },
      disk.setFile (appended.push (.write headerOffset (nextHeader.take landed))),
      .error .io)
  | .none =>
    ({ cache with authJournal := some ⟨nextGeneration, nextCount, nextTailMac, targetSlot⟩ },
      disk.setFile ((appended.push (.write headerOffset nextHeader)).sync NUL),
      .ok false)

/-- Append the entry, or rewrite the whole journal; the flag tells which. -/
def persistAuthenticatedEntry (pending? : Option ReplayEntry) (faults : Faults) :
    ReplayCache × Disk × Except ReplayCacheError Bool :=
  match cache.authJournal, pending? with
  | none, _ => cache.compactThen macKey disk faults.compact
  | some _, none => cache.compactThen macKey disk faults.compact
  | some journal, some entry =>
    if journal.count = 0 ∨
        cache.shouldCompactAuthenticatedJournal journal then
      cache.compactThen macKey disk faults.compact
    else
      match disk.file? with
      | none =>
        -- opening for append creates the file, which is then rewritten
        cache.compactThen macKey (disk.rename (CrashFile.synced [])) faults.compact
      | some file =>
        if (file.current NUL).isEmpty then cache.compactThen macKey disk faults.compact
        else cache.appendEntry macKey disk file journal entry faults.append

/-- Rewrite the plain file. Its rename is not followed by a directory sync. -/
def persistPlain (fault : CompactFault) : Disk × Except ReplayCacheError Unit :=
  let renamed := disk.rename (CrashFile.synced cache.encodedEntries.flatten)
  match fault with
  | .beforeRename => (disk, .error .io)
  | .afterRename => (renamed, .error .io)
  | .none => (renamed, .ok ())

def persist (faults : Faults) : ReplayCache × Disk × Except ReplayCacheError Unit :=
  if !cache.path then
    (cache, disk, .ok ())
  else
    match cache.macKey with
    | none =>
      let (disk, result) := cache.persistPlain disk faults.compact
      (cache, disk, result)
    | some macKey =>
      let (cache, disk, result) :=
        cache.persistAuthenticatedEntry macKey disk cache.order.getLast? faults
      (cache, disk, result.map fun _ => ())

/-- Drain the queue, oldest entry first; round after round takes its own faults
from the list. -/
def drainPending (cache : ReplayCache) (disk : Disk) :
    List ReplayEntry → List Faults → ReplayCache × Disk × Except ReplayCacheError Unit
  | [], _ => ({ cache with pendingPersist := [] }, disk, .ok ())
  | entry :: queue, faults =>
    if entry.nonce ∉ cache.nonces then
      cache.drainPending disk queue faults
    else if !cache.path then
      ({ cache with pendingPersist := [] }, disk, .ok ())
    else
      match cache.macKey with
      | none =>
        match cache.persistPlain disk (faults.headD .none).compact with
        | (disk, .error error) =>
          ({ cache with pendingPersist := entry :: queue }, disk, .error error)
        | (disk, .ok _) => ({ cache with pendingPersist := [] }, disk, .ok ())
      | some macKey =>
        match cache.persistAuthenticatedEntry macKey disk (some entry) (faults.headD .none) with
        | (cache, disk, .error error) =>
          ({ cache with pendingPersist := entry :: queue }, disk, .error error)
        | (cache, disk, .ok true) => ({ cache with pendingPersist := [] }, disk, .ok ())
        | (cache, disk, .ok false) => cache.drainPending disk queue (faults.drop 1)

def persistPending (faults : List Faults) : ReplayCache × Disk × Except ReplayCacheError Unit :=
  cache.drainPending disk cache.pendingPersist faults

/-! ## Insertion -/

/-- Take the entry back out of memory after its persistence failed. -/
def rollBack (entry : ReplayEntry) : ReplayCache :=
  match cache.popPushedEntry with
  | none => cache
  | some (_, popped) =>
    { popped with
      nonces := popped.nonces.erase entry.nonce
      transcripts := popped.transcripts.erase entry.transcriptFingerprint }

def flushPending (faults : List Faults) : ReplayCache × Disk × Except ReplayCacheError Unit :=
  if cache.pendingPersist.isEmpty then (cache, disk, .ok ())
  else cache.persistPending disk faults

def stageAndPersist (entry : ReplayEntry) (now : Nat) (faults : Faults) :
    ReplayCache × Disk × Except ReplayCacheError ReplayInsertOutcome :=
  let (staged, outcome) := cache.stageInsert entry now
  if outcome ≠ .inserted then
    (staged, disk, .ok outcome)
  else
    match staged.persist disk faults with
    | (persisted, disk, .error error) => (persisted.rollBack entry, disk, .error error)
    | (persisted, disk, .ok _) => (persisted, disk, .ok .inserted)

/-- Record an entry durably. `flushFaults` are those of the queue that is
drained first, `faults` those of the entry itself. -/
def insertNewOutcome (entry : ReplayEntry)
    (now : Nat) (flushFaults : List Faults) (faults : Faults) :
    ReplayCache × Disk × Except ReplayCacheError ReplayInsertOutcome :=
  if cache.capacity = 0 then
    (cache, disk, .ok .inserted)
  else
    match cache.flushPending disk flushFaults with
    | (flushed, disk, .error error) => (flushed, disk, .error error)
    | (flushed, disk, .ok _) => flushed.stageAndPersist disk entry now faults

def insertNewOutcomeDeferred (entry : ReplayEntry)
    (now : Nat) : ReplayCache × ReplayInsertOutcome :=
  if cache.capacity = 0 then
    (cache, .inserted)
  else
    let (staged, outcome) := cache.stageInsert entry now
    if outcome = .inserted then
      ({ staged with pendingPersist := staged.pendingPersist ++ [entry] }, outcome)
    else
      (staged, outcome)

/-! ## Loading -/

/-- An authenticated cache without entries and without a committed header. -/
def fresh (capacity windowSecs : Nat) : ReplayCache :=
  { new capacity windowSecs true (some macKey) with authJournal := some ⟨0, 0, zeroMac, 0⟩ }

def adopt (capacity windowSecs now : Nat)
    (entries : List ReplayEntry) (journal : AuthJournalState) : ReplayCache :=
  (entries.foldl insertLoaded
    { fresh macKey capacity windowSecs with authJournal := some journal }).pruneExpired now

/-- Load the journal, or start an empty one, with the faults of the read and of
the rewrite. -/
def loadAuthenticatedWithWindow
    (capacity windowSecs now : Nat) (disk : Disk) (readFails : Bool) (fault : CompactFault) :
    Disk × Except ReplayCacheError ReplayCache :=
  match disk.file? with
  | none => (disk, .ok (fresh macKey capacity windowSecs))
  | some file =>
    let raw := file.current NUL
    if readFails then
      (disk, .error .io)
    else if isBlank raw then
      (disk, .ok (fresh macKey capacity windowSecs))
    else
      match parseAuthenticatedJournalEntries macKey raw with
      | .error error => (disk, .error error)
      | .ok (entries, journal, needsRewrite) =>
        let loaded := adopt macKey capacity windowSecs now entries journal
        if needsRewrite then
          match loaded.compactAuthenticatedJournal macKey disk fault with
          | (_, disk, .error error) => (disk, .error error)
          | (rewritten, disk, .ok _) => (disk, .ok rewritten)
        else
          (disk, .ok loaded)

def loadOrCreate (capacity windowSecs now : Nat) (disk : Disk)
    (readFails : Bool) : Except ReplayCacheError ReplayCache :=
  let empty := new capacity windowSecs true none
  match disk.file? with
  | none => .ok empty
  | some file =>
    if readFails then
      .error .io
    else do
      let entries ← (nonblankLines (file.current NUL)).mapM parseEntry
      pure ((entries.foldl insertLoaded empty).pruneExpired now)

end ReplayCache

end ParallaX.Replay
