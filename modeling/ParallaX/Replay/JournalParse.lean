import ParallaX.Replay.Journal

/-!
# What the journal parser accepts

The parser inverts the line and header encoders. A file that consists of two
slots, one of them the newest header, the lines that this header counts, and
any text that starts with a solid character behind them is accepted with exactly
those entries.
-/

namespace ParallaX.Replay

open ParallaX.Codec List

/-! ## Words of the encoders -/

private theorem digitChar_solid {amount : Nat} (below : amount < 16) :
    isWhitespace amount.digitChar = false := by
  interval_cases amount <;> decide

theorem isWord_toDigits {radix : Nat} (oneLt : 1 < radix) (radixLe : radix ≤ 16) (value : Nat) :
    IsWord (Nat.toDigits radix value) := by
  refine ⟨Nat.toDigits_ne_nil, ?_⟩
  intro _ member
  obtain ⟨_, _, rfl⟩ := mem_toDigits oneLt member
  exact digitChar_solid (by omega)

variable {generation : Nat} {char : Char} (value : Nat)

theorem isWord_decimal : IsWord (decimal value) := isWord_toDigits (by decide) (by decide) value

theorem pushHex_solid (bytes : List UInt8) : ∀ char ∈ pushHex bytes, isWhitespace char = false := by
  intro _ member
  obtain ⟨byte, _, inPair⟩ := mem_flatMap.mp member
  have bound := byte.toNat_lt
  simp only [mem_cons, not_mem_nil, or_false] at inPair
  rcases inPair with rfl | rfl <;> exact digitChar_solid (by omega)

theorem isWord_pushHex {width : Nat} (bytes : List.Vector UInt8 (width + 1)) :
    IsWord (pushHex bytes.toList) := by
  refine ⟨?_, pushHex_solid _⟩
  intro empty
  have sized := congrArg List.length empty
  simp at sized

theorem hex16_solid : ∀ char ∈ hex16 value, isWhitespace char = false := by
  intro char member
  rcases mem_append.mp member with padding | digit
  · rw [eq_of_mem_replicate padding]
    decide
  · exact (isWord_toDigits (by decide) le_rfl value).solid char digit

theorem isWord_of_all {word : List Char} (nonempty : word ≠ [])
    (solid : word.all (fun char => !isWhitespace char) = true) : IsWord word :=
  ⟨nonempty, by simpa using solid⟩

theorem isWord_append {start rest : List Char} (startWord : IsWord start)
    (solid : ∀ char ∈ rest, isWhitespace char = false) : IsWord (start ++ rest) := by
  refine ⟨by simp [startWord.ne_nil], ?_⟩
  exact forall_mem_append.mpr ⟨startWord.solid, solid⟩

variable {value}

theorem length_hex16 (fits : value < 2 ^ 64) : (hex16 value).length = 16 := by
  have short : (Nat.toDigits 16 value).length ≤ 16 := by
    rw [Nat.length_toDigits_le_iff (by decide) (by decide)]
    exact fits
  rw [hex16, length_leftpad]
  omega

theorem parseU64_hex16 (fits : value < 2 ^ 64) : parseU64 16 (hex16 value) = some value := by
  have digits : parseDigits 16 (hex16 value) = some value := by
    rw [hex16, List.leftpad, parseDigits_zeros (by decide) le_rfl]
    exact parseDigits_toDigits (by decide) le_rfl value fits
  cases shape : hex16 value with
  | nil =>
    have sized := length_hex16 fits
    rw [shape] at sized
    cases sized
  | cons first =>
    have notPlus : first ≠ '+' := by
      rintro rfl
      have inDigits : '+' ∈ hex16 value := by simp [shape]
      rcases mem_append.mp inDigits with padding | digit
      · exact absurd (eq_of_mem_replicate padding) (by decide)
      · obtain ⟨amount, _, isDigit⟩ := mem_toDigits (by decide) digit
        interval_cases amount <;> exact absurd isDigit (by decide)
    rw [parseU64_of_head (List.head?_cons) notPlus, ← shape]
    exact digits

theorem parseU64_decimal (fits : value < 2 ^ 64) : parseU64 10 (decimal value) = some value := by
  have digits : parseDigits 10 (decimal value) = some value :=
    parseDigits_toDigits (by decide) (by decide) value fits
  cases shape : decimal value with
  | nil => exact absurd shape Nat.toDigits_ne_nil
  | cons first =>
    have notPlus : first ≠ '+' := by
      rintro rfl
      have inDigits : '+' ∈ decimal value := by simp [shape]
      obtain ⟨amount, _, isDigit⟩ := mem_toDigits (by decide) inDigits
      interval_cases amount <;> exact absurd isDigit (by decide)
    rw [parseU64_of_head (List.head?_cons) notPlus, ← shape]
    exact digits

theorem stripStart_append (start rest : List Char) :
    stripStart start (start ++ rest) = some rest := by
  unfold stripStart
  simp

/-! ## Header slots -/

theorem words_headerText (generation count : Nat) (tailMac headerMac : Mac) :
    words (headerText generation count tailMac headerMac) =
      [AUTH_JOURNAL_VERSION, "gen=".toList ++ hex16 generation, "count=".toList ++ hex16 count,
        "tail=".toList ++ pushHex tailMac.toList,
        "mac=".toList ++ pushHex headerMac.toList] := by
  have versionWord : IsWord AUTH_JOURNAL_VERSION := isWord_of_all (by decide) (by decide)
  have generationWord : IsWord ("gen=".toList ++ hex16 generation) :=
    isWord_append (isWord_of_all (by decide) (by decide)) (hex16_solid generation)
  have countWord : IsWord ("count=".toList ++ hex16 count) :=
    isWord_append (isWord_of_all (by decide) (by decide)) (hex16_solid count)
  have tailWord : IsWord ("tail=".toList ++ pushHex tailMac.toList) :=
    isWord_append (isWord_of_all (by decide) (by decide)) (pushHex_solid _)
  have macWord : IsWord ("mac=".toList ++ pushHex headerMac.toList) :=
    isWord_append (isWord_of_all (by decide) (by decide)) (pushHex_solid _)
  unfold headerText
  rw [words_cons versionWord, words_cons generationWord, words_cons countWord,
    words_cons tailWord, words_singleton macWord]

variable {text : JournalText} {index : Nat} {journal : AuthJournalState}
  (key : CacheMacKey) (entry : ReplayEntry) (entries : List ReplayEntry)
  (tailMac prev entryMac : Mac)

theorem length_authenticatedJournalHeader {count : Nat}
    (generationLt : generation < 2 ^ 64) (countLt : count < 2 ^ 64) :
    (authenticatedJournalHeader key generation count tailMac).length = AUTH_JOURNAL_HEADER_LEN := by
  have versionLength : AUTH_JOURNAL_VERSION.length = 24 := by decide
  have generationName : "gen=".toList.length = 4 := by decide
  have countName : "count=".toList.length = 6 := by decide
  have tailName : "tail=".toList.length = 5 := by decide
  have macName : "mac=".toList.length = 4 := by decide
  simp only [authenticatedJournalHeader, headerText, length_append,
    length_cons, length_nil, length_hex16 generationLt,
    length_hex16 countLt, length_pushHex, List.Vector.toList_length,
    versionLength, generationName, countName, tailName, macName,
    AUTH_JOURNAL_HEADER_LEN]

theorem parse_headerText {count : Nat} (headerMac : Mac)
    (generationLt : generation < 2 ^ 64) (countLt : count < 2 ^ 64) :
    parseAuthenticatedJournalHeaderSlot key
        (headerText generation count tailMac headerMac ++ ['\n']) =
      if key.cacheJournalHeaderMac generation count tailMac ≠ headerMac then
        .error .macMismatch
      else
        .ok ⟨generation, count, tailMac⟩ := by
  unfold parseAuthenticatedJournalHeaderSlot
  rw [if_neg (by simp)]
  simp only [dropLast_concat, words_headerText, ne_eq, not_true_eq_false,
    if_false, stripStart_append, orMalformed, orMalformedHex,
    parseU64_hex16 generationLt, parseU64_hex16 countLt,
    decodeHexExact_pushHex, bind, Except.bind]
  rfl

theorem parse_authenticatedJournalHeader {count : Nat}
    (generationLt : generation < 2 ^ 64) (countLt : count < 2 ^ 64) :
    parseAuthenticatedJournalHeaderSlot key
        (authenticatedJournalHeader key generation count tailMac) =
      .ok ⟨generation, count, tailMac⟩ := by
  rw [authenticatedJournalHeader,
    parse_headerText key tailMac _ generationLt countLt, if_neg (by simp)]

/-! ## Entry lines -/

theorem spaced_entryText :
    Spaced
      [decimal entry.timestamp, pushHex entry.nonce.toList,
        pushHex entry.transcriptFingerprint.toList,
        pushHex prev.toList,
        pushHex entryMac.toList]
      (entryText entry prev entryMac) :=
  .cons (isWord_decimal entry.timestamp)
    (.cons (isWord_pushHex entry.nonce)
      (.cons (isWord_pushHex entry.transcriptFingerprint)
        (.cons (isWord_pushHex prev) (.word (isWord_pushHex entryMac)))))

/-- An entry line that was written reads back behind the same MAC. -/
theorem parse_entryText (index : Nat) (entry : ReplayEntry) (prev : Mac) :
    parseAuthenticatedJournalEntry key
        (entryText entry prev (key.cacheJournalEntryMac index entry prev))
        index prev = .ok (entry, key.cacheJournalEntryMac index entry prev) := by
  unfold parseAuthenticatedJournalEntry
  rw [(spaced_entryText ..).words_eq]
  simp only [orMalformed, orMalformedHex, parseU64_decimal entry.timestamp_lt,
    decodeHexExact_pushHex, bind, Except.bind, ne_eq, not_true_eq_false,
    if_false, dif_pos entry.timestamp_lt]
  rfl

/-- The encoded lines read back, whatever text follows them. -/
theorem parseLines_encodeBody (count : Nat) (prev : Mac) (garbage : List Char) :
    parseLines key entries.length (count + 1) prev
        (nonblankLines ((encodeBody key count prev entries).1 ++ garbage)) =
      .ok (entries, (encodeBody key count prev entries).2, nonblankLines garbage) := by
  induction entries generalizing count prev with
  | nil => rfl
  | cons entry entries ih =>
    have lines :
        nonblankLines ((encodeBody key count prev (entry :: entries)).1 ++ garbage) =
          entryText entry prev (key.cacheJournalEntryMac (count + 1) entry prev) ::
            nonblankLines
              ((encodeBody key (count + 1)
                  (key.cacheJournalEntryMac (count + 1) entry prev) entries).1 ++ garbage) := by
      rw [← (spaced_entryText ..).nonblankLines_append]
      simp [encodeBody, encodeAuthenticatedJournalEntry]
    rw [lines, length_cons, parseLines, parse_entryText]
    have rest := ih (count + 1) (key.cacheJournalEntryMac (count + 1) entry prev)
    simp only [bind, Except.bind, rest]
    rfl

/-! ## Whole files -/

def AuthJournalState.header (macKey : CacheMacKey) (journal : AuthJournalState) : List Char :=
  authenticatedJournalHeader macKey journal.generation journal.count journal.tailMac

/-- The parts of a journal file. -/
structure JournalText where
  slot0 : List Char
  slot1 : List Char
  entries : List ReplayEntry
  garbage : List Char

namespace JournalText

def slot (text : JournalText) (index : Nat) : List Char :=
  if index = 0 then text.slot0 else text.slot1

def base (macKey : CacheMacKey) (text : JournalText) : List Char :=
  text.slot0 ++ (text.slot1 ++ (encodeBody macKey 0 zeroMac text.entries).1)

def render (macKey : CacheMacKey) (text : JournalText) : List Char :=
  text.base macKey ++ text.garbage

/-- One slot holds the header of the committed state, and the other one is
older, torn, or the twin that a rewrite leaves. -/
structure Commits (macKey : CacheMacKey) (text : JournalText)
    (journal : AuthJournalState) : Prop where
  slot_length : ∀ index, (text.slot index).length = AUTH_JOURNAL_HEADER_LEN
  version : AUTH_JOURNAL_VERSION.isPrefixOf (text.slot 0) = true
  generation_lt : journal.generation < 2 ^ 64
  count_lt : journal.count < 2 ^ 64
  active_lt : journal.activeSlot < AUTH_JOURNAL_HEADER_SLOTS
  active : text.slot journal.activeSlot = journal.header macKey
  other :
    ∀ other, parseAuthenticatedJournalHeaderSlot macKey
        (text.slot (1 - journal.activeSlot)) = .ok other →
      other.generation < journal.generation ∨
        (other.generation = journal.generation ∧ journal.activeSlot = 0)
  count_eq : journal.count = text.entries.length
  tail_eq : journal.tailMac = (encodeBody macKey 0 zeroMac text.entries).2
  solid : ∀ char ∈ text.garbage.head?, isWhitespace char = false

def dirty (macKey : CacheMacKey) (text : JournalText) (journal : AuthJournalState) : Bool :=
  !text.garbage.isEmpty ||
    !(parseAuthenticatedJournalHeaderSlot macKey (text.slot (1 - journal.activeSlot))).toBool

variable {key : CacheMacKey} {text : JournalText}
  {journal : AuthJournalState}

theorem Commits.activeSlot_cases (commits : text.Commits key journal) :
    journal.activeSlot = 0 ∨ journal.activeSlot = 1 := by
  have activeLt := commits.active_lt
  unfold AUTH_JOURNAL_HEADER_SLOTS at activeLt
  omega

theorem Commits.render_eq (commits : text.Commits key journal) :
    ∃ rest, text.render key = AUTH_JOURNAL_VERSION ++ rest := by
  obtain ⟨rest, shape⟩ := isPrefixOf_iff_prefix.mp commits.version
  have slot0 : text.slot0 = AUTH_JOURNAL_VERSION ++ rest := shape.symm
  refine ⟨rest ++ (text.slot1 ++ (encodeBody key 0 zeroMac text.entries).1) ++ text.garbage, ?_⟩
  simp [render, base, slot0]

theorem garbage_of_clean (clean : text.dirty key journal = false) : text.garbage = [] := by
  simp only [dirty, Bool.or_eq_false_iff, Bool.not_eq_false', List.isEmpty_iff] at clean
  exact clean.1

theorem Commits.isBlank_render (commits : text.Commits key journal) :
    isBlank (text.render key) = false := by
  obtain ⟨_, shape⟩ := commits.render_eq
  rw [shape]
  rfl

end JournalText

variable {key}

open JournalText in
theorem rawSlot?_render (slotLength : ∀ index, (text.slot index).length = AUTH_JOURNAL_HEADER_LEN)
    (indexLt : index < AUTH_JOURNAL_HEADER_SLOTS) :
    rawSlot? (text.render key) index = some (text.slot index) := by
  have length0 : text.slot0.length = AUTH_JOURNAL_HEADER_LEN := slotLength 0
  have length1 : text.slot1.length = AUTH_JOURNAL_HEADER_LEN := slotLength 1
  have sized :
      index * AUTH_JOURNAL_HEADER_LEN + AUTH_JOURNAL_HEADER_LEN ≤ (text.render key).length := by
    simp only [render, base, length_append, length0, length1]
    unfold AUTH_JOURNAL_HEADER_SLOTS at indexLt
    interval_cases index <;> omega
  unfold rawSlot?
  simp only [sized, if_true, Option.some.injEq]
  unfold AUTH_JOURNAL_HEADER_SLOTS at indexLt
  interval_cases index
  · simp only [render, base, slot, zero_mul, drop_zero, if_true, append_assoc]
    rw [← length0, take_left']
    rfl
  · simp only [render, base, slot, one_mul, one_ne_zero, if_false, append_assoc]
    rw [drop_left' length0, take_left' length1]

private theorem scanSlot_ok {raw slotText : List Char} {slot : HeaderSlot}
    {scan : SlotScan} (found : rawSlot? raw index = some slotText)
    (parsed : parseAuthenticatedJournalHeaderSlot key slotText = .ok slot) :
    scanSlot key raw scan index =
      if scan.best.all fun best => best.2.generation < slot.generation then
        { scan with best := some (index, slot) }
      else
        scan := by
  unfold scanSlot
  simp [found, parsed]

private theorem scanSlot_error {raw slotText : List Char}
    {error : ReplayCacheError} (scan : SlotScan) (found : rawSlot? raw index = some slotText)
    (parsed : parseAuthenticatedJournalHeaderSlot key slotText = .error error) :
    (scanSlot key raw scan index).best = scan.best ∧
      (scanSlot key raw scan index).anySlotInvalid = true := by
  unfold scanSlot
  simp [found, parsed]

theorem scanSlots_render (commits : text.Commits key journal) :
    (scanSlots key (text.render key)).best =
        some (journal.activeSlot, { journal with }) ∧
      (scanSlots key (text.render key)).anySlotInvalid =
        !(parseAuthenticatedJournalHeaderSlot key (text.slot (1 - journal.activeSlot))).toBool := by
  have found0 : rawSlot? (text.render key) 0 = some (text.slot 0) :=
    rawSlot?_render commits.slot_length (by decide)
  have found1 : rawSlot? (text.render key) 1 = some (text.slot 1) :=
    rawSlot?_render commits.slot_length (by decide)
  have loop :
      scanSlots key (text.render key) =
        scanSlot key (text.render key)
          (scanSlot key (text.render key) ⟨none, false, false⟩ 0) 1 :=
    rfl
  have activeParsed :
      parseAuthenticatedJournalHeaderSlot key (text.slot journal.activeSlot) =
        .ok { journal with } := by
    rw [commits.active]
    exact parse_authenticatedJournalHeader key journal.tailMac
      commits.generation_lt commits.count_lt
  have older := commits.other
  rw [loop]
  rcases commits.activeSlot_cases with active | active
  · rw [active] at activeParsed older ⊢
    rw [scanSlot_ok found0 activeParsed]
    cases otherParsed : parseAuthenticatedJournalHeaderSlot key (text.slot 1) with
    | error => exact scanSlot_error _ found1 otherParsed
    | ok other =>
      have notNewer : ¬ journal.generation < other.generation := by
        have ordered := older other otherParsed
        omega
      rw [scanSlot_ok found1 otherParsed]
      simp [notNewer, Except.toBool]
  · rw [active] at activeParsed older ⊢
    cases otherParsed : parseAuthenticatedJournalHeaderSlot key (text.slot 0) with
    | error =>
      obtain ⟨best, invalid⟩ := scanSlot_error ⟨none, false, false⟩ found0 otherParsed
      rw [scanSlot_ok found1 activeParsed]
      simp [best, invalid, Except.toBool]
    | ok other =>
      have newer : other.generation < journal.generation := by
        have ordered := older other otherParsed
        omega
      rw [scanSlot_ok found0 otherParsed]
      rw [scanSlot_ok found1 activeParsed]
      simp [newer, Except.toBool]

private theorem isEmpty_nonblankLines {garbage : List Char}
    (solid : ∀ char ∈ garbage.head?, isWhitespace char = false) :
    (nonblankLines garbage).isEmpty = garbage.isEmpty := by
  cases garbage with
  | nil => simp [nonblankLines, lines_nil]
  | cons char rest =>
    have nonempty : nonblankLines (char :: rest) ≠ [] := nonblankLines_ne_nil (solid char rfl)
    simpa using nonempty

theorem parse_render (commits : text.Commits key journal) :
    parseAuthenticatedJournalEntries key (text.render key) =
      .ok (text.entries, journal, text.dirty key journal) := by
  obtain ⟨best, invalid⟩ := scanSlots_render commits
  have length0 : text.slot0.length = AUTH_JOURNAL_HEADER_LEN := commits.slot_length 0
  have length1 : text.slot1.length = AUTH_JOURNAL_HEADER_LEN := commits.slot_length 1
  have notLegacy : LEGACY_AUTH_JOURNAL_VERSION_V3.isPrefixOf (text.render key) = false := by
    obtain ⟨_, shape⟩ := commits.render_eq
    rw [shape]
    rfl
  have long : ¬ (text.render key).length < AUTH_JOURNAL_HEADER_REGION_LEN := by
    simp only [JournalText.render, JournalText.base, length_append, length0, length1,
      AUTH_JOURNAL_HEADER_REGION_LEN, AUTH_JOURNAL_HEADER_SLOTS]
    omega
  have bodyText :
      (text.render key).drop AUTH_JOURNAL_HEADER_REGION_LEN =
        (encodeBody key 0 zeroMac text.entries).1 ++ text.garbage := by
    have region : (text.slot0 ++ text.slot1).length = AUTH_JOURNAL_HEADER_REGION_LEN := by
      rw [length_append, length0, length1]
      rfl
    simp only [JournalText.render, JournalText.base]
    rw [← append_assoc, append_assoc (text.slot0 ++ text.slot1)]
    exact drop_left' region
  have body :
      parseAuthenticatedJournalBody key
          ((encodeBody key 0 zeroMac text.entries).1 ++ text.garbage)
          journal.count journal.tailMac = .ok (text.entries, !text.garbage.isEmpty) := by
    unfold parseAuthenticatedJournalBody
    rw [commits.count_eq, commits.tail_eq, parseLines_encodeBody]
    simp [bind, Except.bind, pure, Except.pure, isEmpty_nonblankLines commits.solid]
  unfold parseAuthenticatedJournalEntries
  rw [if_neg (by simp [notLegacy])]
  simp only [best, if_neg long, bodyText, body, invalid, bind, Except.bind]
  rfl

/-! ## Rewritten files -/

/-- The parts of a file that a rewrite produces. -/
def JournalText.rewritten (macKey : CacheMacKey) (entries : List ReplayEntry) : JournalText :=
  { slot0 := (serializeAuthenticatedJournal macKey entries).2.header macKey
    slot1 := (serializeAuthenticatedJournal macKey entries).2.header macKey
    entries := entries
    garbage := [] }

variable (key)

theorem render_rewritten :
    (JournalText.rewritten key entries).render key =
      (serializeAuthenticatedJournal key entries).1 := by
  simp [JournalText.render, JournalText.base, JournalText.rewritten,
    serializeAuthenticatedJournal, AuthJournalState.header,
    AUTH_JOURNAL_HEADER_SLOTS, List.replicate]

theorem version_header (journal : AuthJournalState) :
    AUTH_JOURNAL_VERSION.isPrefixOf (journal.header key) = true := by
  rw [ isPrefixOf_iff_prefix, AuthJournalState.header,
    authenticatedJournalHeader, headerText, append_assoc]
  exact prefix_append _ _

variable {entries}

private theorem parse_rewritten_header (bounded : entries.length < 2 ^ 64) :
    parseAuthenticatedJournalHeaderSlot key
        ((serializeAuthenticatedJournal key entries).2.header key) =
      .ok ⟨1, entries.length, (serializeAuthenticatedJournal key entries).2.tailMac⟩ :=
  parse_authenticatedJournalHeader key _ (by decide : 1 < 2 ^ 64) bounded

theorem commits_rewritten (bounded : entries.length < 2 ^ 64) :
    (JournalText.rewritten key entries).Commits key
      (serializeAuthenticatedJournal key entries).2 := by
  have sized :
      ((serializeAuthenticatedJournal key entries).2.header key).length = AUTH_JOURNAL_HEADER_LEN :=
    length_authenticatedJournalHeader key _ (by decide : 1 < 2 ^ 64) bounded
  refine
    { slot_length := ?_
      version := version_header key _
      generation_lt := (by decide : 1 < 2 ^ 64)
      count_lt := bounded
      active_lt := (by decide : 0 < AUTH_JOURNAL_HEADER_SLOTS)
      active := rfl
      other := ?_
      count_eq := rfl
      tail_eq := rfl
      solid := by simp [JournalText.rewritten] }
  · intro _
    unfold JournalText.slot
    split <;> exact sized
  intro _ parsed
  have same := (parse_rewritten_header key bounded).symm.trans parsed
  cases same
  exact .inr ⟨rfl, rfl⟩

theorem dirty_rewritten (bounded : entries.length < 2 ^ 64) :
    (JournalText.rewritten key entries).dirty key
      (serializeAuthenticatedJournal key entries).2 = false := by
  have twin := parse_rewritten_header key bounded
  simp [JournalText.dirty, JournalText.rewritten, JournalText.slot, twin, Except.toBool]

/-- A rewritten file reads back clean. -/
theorem parse_serializeAuthenticatedJournal (bounded : entries.length < 2 ^ 64) :
    parseAuthenticatedJournalEntries key (serializeAuthenticatedJournal key entries).1 =
      .ok (entries, (serializeAuthenticatedJournal key entries).2, false) := by
  have accepted := parse_render (commits_rewritten key bounded)
  rw [render_rewritten, dirty_rewritten key bounded] at accepted
  exact accepted

end ParallaX.Replay
