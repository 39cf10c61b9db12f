import ParallaX.Codec.Text

/-!
# The authenticated replay journal

The text of the journal file: two header slots of fixed length, then one line
for each entry. Every line carries the MAC of the line before it and its own,
and a header slot carries a generation, the number of committed lines, the MAC
of the last of them and a MAC of these.
-/

namespace ParallaX.Replay

open ParallaX.Codec

abbrev Mac := List.Vector UInt8 32

/-- A recorded handshake; its timestamp is a `u64`. -/
structure ReplayEntry where
  timestamp : Nat
  nonce : List.Vector UInt8 8
  transcriptFingerprint : List.Vector UInt8 32
  timestamp_lt : timestamp < 2 ^ 64
deriving DecidableEq

inductive ReplayCacheError where
  | io
  | malformedLine (line : List Char)
  | malformedHex
  | macMismatch
deriving DecidableEq, Repr

/-- The keyed MACs of one cache key. HMAC itself is not modelled, so these are
arbitrary functions of the fields that the source feeds to it. -/
structure CacheMacKey where
  cacheJournalHeaderMac : (generation count : Nat) → (tailMac : Mac) → Mac
  legacyCacheJournalHeaderMacV3 : (count : Nat) → (tailMac : Mac) → Mac
  cacheJournalEntryMac : (index : Nat) → ReplayEntry → (previousMac : Mac) → Mac

structure AuthJournalState where
  generation : Nat
  count : Nat
  tailMac : Mac
  activeSlot : Nat
deriving DecidableEq

structure HeaderSlot where
  generation : Nat
  count : Nat
  tailMac : Mac
deriving DecidableEq

def AUTH_JOURNAL_VERSION : List Char := "parallax-replay-cache-v4".toList

def LEGACY_AUTH_JOURNAL_VERSION_V3 : List Char :=
  "parallax-replay-cache-v3".toList

/-- The length of a header slot, its newline included. -/
def AUTH_JOURNAL_HEADER_LEN : Nat := 208

def AUTH_JOURNAL_HEADER_SLOTS : Nat := 2

def AUTH_JOURNAL_HEADER_REGION_LEN : Nat := AUTH_JOURNAL_HEADER_LEN * AUTH_JOURNAL_HEADER_SLOTS

def zeroMac : Mac := List.Vector.replicate 32 0

/-! ## Writing -/

variable (entry : ReplayEntry)

def plainText : List Char :=
  decimal entry.timestamp ++
    ' ' :: (pushHex entry.nonce.toList ++ ' ' :: pushHex entry.transcriptFingerprint.toList)

def encodePlainEntry : List Char := plainText entry ++ ['\n']

def entryText (previousMac entryMac : Mac) : List Char :=
  decimal entry.timestamp ++
    ' ' :: (pushHex entry.nonce.toList ++
      ' ' :: (pushHex entry.transcriptFingerprint.toList ++
        ' ' :: (pushHex previousMac.toList ++ ' ' :: pushHex entryMac.toList)))

variable (macKey : CacheMacKey)

/-- The line of an entry and its MAC, which the next line repeats. -/
def encodeAuthenticatedJournalEntry (index : Nat) (entry : ReplayEntry)
    (previousMac : Mac) : List Char × Mac :=
  let entryMac := macKey.cacheJournalEntryMac index entry previousMac
  (entryText entry previousMac entryMac ++ ['\n'], entryMac)

def headerText (generation count : Nat) (tailMac headerMac : Mac) : List Char :=
  AUTH_JOURNAL_VERSION ++
    ' ' :: ("gen=".toList ++ hex16 generation ++
      ' ' :: ("count=".toList ++ hex16 count ++
        ' ' :: ("tail=".toList ++ pushHex tailMac.toList ++
          ' ' :: ("mac=".toList ++ pushHex headerMac.toList))))

def authenticatedJournalHeader (generation count : Nat) (tailMac : Mac) : List Char :=
  headerText generation count tailMac
    (macKey.cacheJournalHeaderMac generation count tailMac) ++ ['\n']

/-- The lines of the entries after `count` earlier ones, and the last MAC. -/
def encodeBody (macKey : CacheMacKey) :
    Nat → Mac → List ReplayEntry → List Char × Mac
  | _, previousMac, [] => ([], previousMac)
  | count, previousMac, entry :: entries =>
    let (line, entryMac) := encodeAuthenticatedJournalEntry macKey (count + 1) entry previousMac
    let (body, tailMac) := encodeBody macKey (count + 1) entryMac entries
    (line ++ body, tailMac)

/-- A whole file: twin header slots of generation one, then the entries. -/
def serializeAuthenticatedJournal (entries : List ReplayEntry) : List Char × AuthJournalState :=
  let (body, previousMac) := encodeBody macKey 0 zeroMac entries
  let journal : AuthJournalState :=
    { generation := 1
      count := entries.length
      tailMac := previousMac
      activeSlot := 0 }
  let header := authenticatedJournalHeader macKey journal.generation journal.count journal.tailMac
  ((List.replicate AUTH_JOURNAL_HEADER_SLOTS header).flatten ++ body, journal)

/-! ## Reading -/

def stripStart (start text : List Char) : Option (List Char) :=
  if start.isPrefixOf text then some (text.drop start.length) else none

def orMalformed (line : List Char) :
    Option α → Except ReplayCacheError α
  | some value => .ok value
  | none => .error (.malformedLine line)

def orMalformedHex : Option α → Except ReplayCacheError α
  | some value => .ok value
  | none => .error .malformedHex

def parseEntry (line : List Char) : Except ReplayCacheError ReplayEntry :=
  match words line with
  | [timestamp, nonceHex, transcriptHex] => do
    let timestamp ← orMalformed line (parseU64 10 timestamp)
    let nonce ← orMalformedHex (decodeHexExact 8 nonceHex)
    let transcript ← orMalformedHex (decodeHexExact 32 transcriptHex)
    if fits : timestamp < 2 ^ 64 then pure ⟨timestamp, nonce, transcript, fits⟩
    else .error (.malformedLine line)
  | _ => .error (.malformedLine line)

def parseAuthenticatedJournalEntry (line : List Char) (index : Nat) (expectedPreviousMac : Mac) :
    Except ReplayCacheError (ReplayEntry × Mac) :=
  match words line with
  | [timestamp, nonceHex, transcriptHex, previousMacHex, entryMacHex] => do
    let timestamp ← orMalformed line (parseU64 10 timestamp)
    let nonce ← orMalformedHex (decodeHexExact 8 nonceHex)
    let transcript ← orMalformedHex (decodeHexExact 32 transcriptHex)
    let previousMac ← orMalformedHex (decodeHexExact 32 previousMacHex)
    if previousMac ≠ expectedPreviousMac then
      .error .macMismatch
    else do
      let expectedEntryMac ← orMalformedHex (decodeHexExact 32 entryMacHex)
      if fits : timestamp < 2 ^ 64 then
        let entry : ReplayEntry := ⟨timestamp, nonce, transcript, fits⟩
        let actualEntryMac := macKey.cacheJournalEntryMac index entry expectedPreviousMac
        if actualEntryMac ≠ expectedEntryMac then .error .macMismatch
        else pure (entry, actualEntryMac)
      else
        .error (.malformedLine line)
  | _ => .error (.malformedLine line)

def parseAuthenticatedJournalHeaderSlot (rawSlot : List Char) :
    Except ReplayCacheError HeaderSlot :=
  if rawSlot.getLast? ≠ some '\n' then
    .error (.malformedLine "unterminated header slot".toList)
  else
    let header := rawSlot.dropLast
    match words header with
    | [version, generationPart, countPart, tailPart, macPart] =>
      if version ≠ AUTH_JOURNAL_VERSION then
        .error (.malformedLine header)
      else do
        let generationHex ← orMalformed header (stripStart "gen=".toList generationPart)
        let countHex ← orMalformed header (stripStart "count=".toList countPart)
        let tailHex ← orMalformed header (stripStart "tail=".toList tailPart)
        let headerMacHex ← orMalformed header (stripStart "mac=".toList macPart)
        let generation ← orMalformed header (parseU64 16 generationHex)
        let count ← orMalformed header (parseU64 16 countHex)
        let tailMac ← orMalformedHex (decodeHexExact 32 tailHex)
        let expectedHeaderMac ← orMalformedHex (decodeHexExact 32 headerMacHex)
        if macKey.cacheJournalHeaderMac generation count tailMac ≠ expectedHeaderMac then
          .error .macMismatch
        else
          pure ⟨generation, count, tailMac⟩
    | _ => .error (.malformedLine header)

/-- The single header line of the older file layout. -/
def parseLegacyV3JournalHeader (header : List Char) : Except ReplayCacheError (Nat × Mac) :=
  match words header with
  | [version, countPart, tailPart, macPart] =>
    if version ≠ LEGACY_AUTH_JOURNAL_VERSION_V3 then
      .error (.malformedLine header)
    else do
      let countHex ← orMalformed header (stripStart "count=".toList countPart)
      let tailHex ← orMalformed header (stripStart "tail=".toList tailPart)
      let headerMacHex ← orMalformed header (stripStart "mac=".toList macPart)
      let count ← orMalformed header (parseU64 16 countHex)
      let tailMac ← orMalformedHex (decodeHexExact 32 tailHex)
      let expectedHeaderMac ← orMalformedHex (decodeHexExact 32 headerMacHex)
      if macKey.legacyCacheJournalHeaderMacV3 count tailMac ≠ expectedHeaderMac then
        .error .macMismatch
      else
        pure (count, tailMac)
  | _ => .error (.malformedLine header)

/-- The first `remaining` lines as the entries from `index` on, with the last
MAC and the lines left over. -/
def parseLines (macKey : CacheMacKey) :
    (remaining index : Nat) → Mac → List (List Char) →
      Except ReplayCacheError (List ReplayEntry × Mac × List (List Char))
  | 0, _, previousMac, lines => .ok ([], previousMac, lines)
  | _ + 1, _, _, [] => .error (.malformedLine "truncated replay journal".toList)
  | remaining + 1, index, previousMac, line :: lines => do
    let (entry, entryMac) ← parseAuthenticatedJournalEntry macKey line index previousMac
    let (entries, tailMac, rest) ← parseLines macKey remaining (index + 1) entryMac lines
    pure (entry :: entries, tailMac, rest)

/-- The committed entries, and whether uncommitted lines follow them. -/
def parseAuthenticatedJournalBody (body : List Char) (count : Nat) (tailMac : Mac) :
    Except ReplayCacheError (List ReplayEntry × Bool) := do
  let (entries, previousMac, rest) ← parseLines macKey count 1 zeroMac (nonblankLines body)
  if previousMac ≠ tailMac then .error .macMismatch
  else pure (entries, !rest.isEmpty)

structure SlotScan where
  best : Option (Nat × HeaderSlot)
  anySlotInvalid : Bool
  sawMacMismatch : Bool

variable (raw : List Char)

/-- The text of a header slot, when the file reaches that far. -/
def rawSlot? (slotIndex : Nat) : Option (List Char) :=
  let start := slotIndex * AUTH_JOURNAL_HEADER_LEN
  if start + AUTH_JOURNAL_HEADER_LEN ≤ raw.length then
    some ((raw.drop start).take AUTH_JOURNAL_HEADER_LEN)
  else
    none

/-- One round of the slot loop. A tie keeps the lower index. -/
def scanSlot (scan : SlotScan) (slotIndex : Nat) : SlotScan :=
  match (rawSlot? raw slotIndex).map (parseAuthenticatedJournalHeaderSlot macKey) with
  | some (.ok slot) =>
    if scan.best.all fun best => best.2.generation < slot.generation then
      { scan with best := some (slotIndex, slot) }
    else
      scan
  | some (.error error) =>
    { scan with
      anySlotInvalid := true
      sawMacMismatch :=
        scan.sawMacMismatch || decide (error = .macMismatch) }
  | none => { scan with anySlotInvalid := true }

def scanSlots : SlotScan :=
  (List.range AUTH_JOURNAL_HEADER_SLOTS).foldl (scanSlot macKey raw) ⟨none, false, false⟩

/-- The entries of a file, its committed state, and whether the file has to be
rewritten because it is not a clean committed one. -/
def parseAuthenticatedJournalEntries :
    Except ReplayCacheError (List ReplayEntry × AuthJournalState × Bool) :=
  if LEGACY_AUTH_JOURNAL_VERSION_V3.isPrefixOf raw then
    if '\n' ∉ raw then
      .error (.malformedLine "missing replay cache header".toList)
    else do
      let header := raw.takeWhile (· ≠ '\n')
      let body := (raw.dropWhile (· ≠ '\n')).drop 1
      let (count, tailMac) ← parseLegacyV3JournalHeader macKey header
      let (entries, _) ← parseAuthenticatedJournalBody macKey body count tailMac
      pure (entries, ⟨0, count, tailMac, 0⟩, true)
  else
    let scan := scanSlots macKey raw
    match scan.best with
    | none =>
      .error
        (if scan.sawMacMismatch then .macMismatch
        else .malformedLine "no valid replay cache header slot".toList)
    | some (activeSlot, header) =>
      if raw.length < AUTH_JOURNAL_HEADER_REGION_LEN then
        .error (.malformedLine "truncated replay cache header region".toList)
      else do
        let (entries, hasUncommittedTail) ← parseAuthenticatedJournalBody macKey
            (raw.drop AUTH_JOURNAL_HEADER_REGION_LEN) header.count
            header.tailMac
        pure
          (entries, ⟨header.generation, header.count, header.tailMac, activeSlot⟩,
            hasUncommittedTail || scan.anySlotInvalid)

end ParallaX.Replay
