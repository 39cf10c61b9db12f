import ParallaX.Data.CrashFile
import ParallaX.Replay.JournalParse

/-!
# The journal on a disk that can crash

What a crash leaves of a journal file commits a state: an unsynced append
leaves text that no header counts, and an unsynced header write leaves the old
header, the new one, or a torn slot that does not verify.
-/

namespace ParallaX.Replay

open ParallaX.Codec ParallaX.Data List CrashFile JournalText

def NUL : Char := Char.ofNat 0

/-! ## Appending an entry -/

theorem encodeBody_append_singleton
    (key : CacheMacKey) (entries : List ReplayEntry) (entry : ReplayEntry)
    (count : Nat) (prev : Mac) :
    encodeBody key count prev (entries ++ [entry]) =
      ((encodeBody key count prev entries).1 ++
          (encodeAuthenticatedJournalEntry key (count + entries.length + 1) entry
            (encodeBody key count prev entries).2).1,
        (encodeAuthenticatedJournalEntry key (count + entries.length + 1) entry
          (encodeBody key count prev entries).2).2) := by
  induction entries generalizing count prev with
  | nil => simp [encodeBody]
  | cons first entries ih =>
    have shift : count + 1 + entries.length + 1 = count + (first :: entries).length + 1 := by
      simp only [length_cons]
      omega
    simp [encodeBody, ih, shift]

def AuthJournalState.next
    (macKey : CacheMacKey) (journal : AuthJournalState) (entry : ReplayEntry) : AuthJournalState :=
  { generation := journal.generation + 1
    count := journal.count + 1
    tailMac := macKey.cacheJournalEntryMac (journal.count + 1) entry journal.tailMac
    activeSlot := (journal.activeSlot + 1) % AUTH_JOURNAL_HEADER_SLOTS }

def AuthJournalState.nextLine
    (macKey : CacheMacKey) (journal : AuthJournalState) (entry : ReplayEntry) : List Char :=
  (encodeAuthenticatedJournalEntry macKey (journal.count + 1) entry journal.tailMac).1

theorem nextLine_solid (key : CacheMacKey) (journal : AuthJournalState) (entry : ReplayEntry) :
    ∀ char ∈ (journal.nextLine key entry).head?, isWhitespace char = false := by
  obtain ⟨_, _, shape, solid⟩ :=
    (spaced_entryText entry journal.tailMac (key.cacheJournalEntryMac
      (journal.count + 1) entry journal.tailMac)).head_solid
  simp [AuthJournalState.nextLine, encodeAuthenticatedJournalEntry, shape, solid]

namespace JournalText

def withSlot (text : JournalText) (index : Nat) (content : List Char) : JournalText :=
  if index = 0 then { text with slot0 := content }
  else { text with slot1 := content }

/-- The same file with other uncommitted text behind the entries. -/
def withGarbage (text : JournalText) (garbage : List Char) : JournalText :=
  { text with garbage := garbage }

variable {key : CacheMacKey} {journal : AuthJournalState} (text : JournalText) (index : Nat)

@[simp]
theorem entries_withSlot (content : List Char) :
    (text.withSlot index content).entries = text.entries := by
  unfold withSlot
  split <;> rfl

@[simp]
theorem garbage_withSlot (content : List Char) :
    (text.withSlot index content).garbage = text.garbage := by
  unfold withSlot
  split <;> rfl

theorem slot_withSlot (other : Nat) (content : List Char) :
    (text.withSlot index content).slot other =
      if (index = 0 ↔ other = 0) then content else text.slot other := by
  unfold withSlot slot
  by_cases first : index = 0
  · by_cases alsoFirst : other = 0
    · simp [first, alsoFirst]
    · simp [first, alsoFirst]
  · by_cases alsoFirst : other = 0
    · simp [first, alsoFirst]
    · simp [first, alsoFirst]

@[simp]
theorem withSlot_slot : text.withSlot index (text.slot index) = text := by
  unfold withSlot slot
  split <;> rfl

@[simp]
theorem slot_withGarbage (garbage : List Char) (index : Nat) :
    (text.withGarbage garbage).slot index = text.slot index :=
  rfl

theorem length_base_withSlot (key : CacheMacKey) (text : JournalText) (index : Nat)
    {content : List Char} (sized : content.length = (text.slot index).length) :
    ((text.withSlot index content).base key).length = (text.base key).length := by
  unfold withSlot slot at *
  split at sized <;> simp_all [base]

def advance (macKey : CacheMacKey) (text : JournalText)
    (journal : AuthJournalState) (entry : ReplayEntry) : JournalText :=
  { text.withSlot (1 - journal.activeSlot) ((journal.next macKey entry).header macKey) with
    entries := text.entries ++ [entry]
    garbage := [] }

namespace Commits

variable {text} (commits : text.Commits key journal)
include commits

theorem withGarbage {garbage : List Char}
    (solid : ∀ char ∈ garbage.head?, isWhitespace char = false) :
    (text.withGarbage garbage).Commits key journal :=
  { commits with solid := solid }

theorem target_eq :
    (journal.activeSlot + 1) % AUTH_JOURNAL_HEADER_SLOTS = 1 - journal.activeSlot := by
  rcases commits.activeSlot_cases with active | active
  · rw [active]
    rfl
  · rw [active]
    rfl

theorem apart : ¬ (1 - journal.activeSlot = 0 ↔ journal.activeSlot = 0) := by
  rcases commits.activeSlot_cases with active | active <;> simp [active]

theorem withTornSlot {torn : List Char} (sized : torn.length = AUTH_JOURNAL_HEADER_LEN)
    (version : 1 - journal.activeSlot = 0 → AUTH_JOURNAL_VERSION.isPrefixOf torn = true)
    (invalid : (parseAuthenticatedJournalHeaderSlot key torn).toBool = false) :
    (text.withSlot (1 - journal.activeSlot) torn).Commits key journal := by
  refine
    { slot_length := ?_
      version := ?_
      generation_lt := commits.generation_lt
      count_lt := commits.count_lt
      active_lt := commits.active_lt
      active := ?_
      other := ?_
      count_eq := by rw [entries_withSlot]; exact commits.count_eq
      tail_eq := by rw [entries_withSlot]; exact commits.tail_eq
      solid := by rw [garbage_withSlot]; exact commits.solid }
  · intro index
    rw [slot_withSlot]
    split
    · exact sized
    · exact commits.slot_length index
  · rw [slot_withSlot]
    split
    next targetsFirst => exact version (targetsFirst.mpr rfl)
    · exact commits.version
  · rw [slot_withSlot, if_neg commits.apart]
    exact commits.active
  · intro _ parsed
    rw [slot_withSlot, if_pos Iff.rfl] at parsed
    rw [parsed] at invalid
    cases invalid

variable (entry : ReplayEntry)

/-- The file goes on holding the header of the state before. -/
theorem slot_advance :
    (text.advance key journal entry).slot (1 - (journal.next key entry).activeSlot) =
      journal.header key := by
  have back : 1 - (journal.next key entry).activeSlot = journal.activeSlot := by
    rcases commits.activeSlot_cases with active | active <;>
      simp [AuthJournalState.next, active, AUTH_JOURNAL_HEADER_SLOTS]
  rw [back, ← commits.active]
  exact (slot_withSlot text (1 - journal.activeSlot) _ _).trans (if_neg commits.apart)

theorem clean_advance :
    (text.advance key journal entry).dirty key (journal.next key entry) = false := by
  unfold dirty
  rw [commits.slot_advance, AuthJournalState.header,
    parse_authenticatedJournalHeader key _ commits.generation_lt commits.count_lt]
  rfl

theorem next
    (generationLt : journal.generation + 1 < 2 ^ 64) (countLt : journal.count + 1 < 2 ^ 64) :
    (text.advance key journal entry).Commits key (journal.next key entry) := by
  have target : (journal.next key entry).activeSlot = 1 - journal.activeSlot := commits.target_eq
  have body := encodeBody_append_singleton key text.entries entry 0 zeroMac
  have sized : ((journal.next key entry).header key).length = AUTH_JOURNAL_HEADER_LEN :=
    length_authenticatedJournalHeader key _ generationLt countLt
  have slots index : (text.advance key journal entry).slot index =
          if (1 - journal.activeSlot = 0 ↔ index = 0) then
            (journal.next key entry).header key
          else
            text.slot index :=
    slot_withSlot text (1 - journal.activeSlot) index _
  refine
    { slot_length := ?_
      version := ?_
      generation_lt := generationLt
      count_lt := countLt
      active_lt := Nat.mod_lt _ (by decide)
      active := ?_
      other := ?_
      count_eq := ?_
      tail_eq := ?_
      solid := by simp [advance] }
  · intro index
    rw [slots]
    split
    · exact sized
    · exact commits.slot_length index
  · rw [slots]
    split
    · exact version_header key _
    · exact commits.version
  · rw [slots, target, if_pos Iff.rfl]
  · intro _ parsed
    rw [commits.slot_advance] at parsed
    have older :=
      parse_authenticatedJournalHeader key journal.tailMac commits.generation_lt commits.count_lt
    cases older.symm.trans parsed
    exact .inl (Nat.lt_succ_self _)
  · simp [advance, AuthJournalState.next, commits.count_eq]
  · simp only [advance, body]
    simp [AuthJournalState.next, commits.count_eq, commits.tail_eq, encodeAuthenticatedJournalEntry]

theorem render_advance :
    (text.advance key journal entry).render key =
      ((text.withGarbage (journal.nextLine key entry)).withSlot (1 - journal.activeSlot)
        ((journal.next key entry).header key)).render key := by
  have body := encodeBody_append_singleton key text.entries entry 0 zeroMac
  have line :
      (encodeAuthenticatedJournalEntry key (text.entries.length + 1)
          entry (encodeBody key 0 zeroMac text.entries).2).1 = journal.nextLine key entry := by
    rw [AuthJournalState.nextLine, commits.count_eq, commits.tail_eq]
  unfold render base advance withSlot JournalText.withGarbage
  split <;> simp [body, line]

theorem length_base_advance
    (sized : ((journal.next key entry).header key).length = AUTH_JOURNAL_HEADER_LEN) :
    ((text.advance key journal entry).base key).length =
      (text.base key ++ journal.nextLine key entry).length := by
  have whole :
      (text.advance key journal entry).render key = (text.advance key journal entry).base key :=
    append_nil _
  rw [← whole, commits.render_advance entry, render, length_append, length_base_withSlot key
      (text.withGarbage (journal.nextLine key entry)) _
      (sized.trans (commits.slot_length _).symm), garbage_withSlot,
    length_append]
  rfl

end Commits

end JournalText

/-! ## Survivors -/

/-- `VecDeque::with_capacity` cannot allocate more entries of 48 bytes. -/
def CAPACITY_LIMIT : Nat := (2 ^ 63 - 1) / 48

/-- No journal of this code counts more entries. -/
def COUNT_LIMIT : Nat := 2 * CAPACITY_LIMIT + 1

/-- The bounds that keep the counters of a journal inside 64 bits. -/
def AuthJournalState.Bounded (journal : AuthJournalState) : Prop :=
  journal.count ≤ COUNT_LIMIT ∧ journal.generation ≤ journal.count + 1

variable {journal : AuthJournalState} {key : CacheMacKey}
  {promised : List ReplayEntry} {limit : Nat} {content : List Char}
  {file : CrashFile Char} {text : JournalText}

theorem AuthJournalState.Bounded.lt (bounded : journal.Bounded) :
    journal.count + 1 < 2 ^ 64 ∧ journal.generation + 1 < 2 ^ 64 := by
  obtain ⟨_, _⟩ := bounded
  have limit : COUNT_LIMIT + 2 < 2 ^ 64 := by decide
  omega

theorem AuthJournalState.Bounded.of_next {entry : ReplayEntry}
    (bounded : (journal.next key entry).Bounded) : journal.Bounded := by
  obtain ⟨countLe, generationLe⟩ := bounded
  simp only [AuthJournalState.next] at countLe generationLe
  exact ⟨by omega, by omega⟩

/-- A content that commits a state with all promised entries, in its first
`limit` characters. -/
def Recoverable (macKey : CacheMacKey) (promised : List ReplayEntry)
    (limit : Nat) (content : List Char) : Prop :=
  ∃ (text : JournalText) (journal : AuthJournalState),
    content = text.render macKey ∧ text.Commits macKey journal ∧
      promised ⊆ text.entries ∧ (text.base macKey).length ≤ limit ∧
      journal.Bounded

def Safe (macKey : CacheMacKey) (promised : List ReplayEntry) (limit : Nat)
    (file : CrashFile Char) : Prop :=
  ∀ content, file.Survives NUL content → Recoverable macKey promised limit content

variable {fewer : List ReplayEntry} {larger : Nat} {data : List Char} (amount : Nat)

theorem Recoverable.mono (inv : Recoverable key promised limit content)
    (subset : fewer ⊆ promised) (le : limit ≤ larger) : Recoverable key fewer larger content := by
  obtain ⟨text, journal, shape, commits, kept, short, bounds⟩ := inv
  exact ⟨text, journal, shape, commits, List.Subset.trans subset kept, short.trans le, bounds⟩

theorem Safe.mono (safe : Safe key promised limit file)
    (subset : fewer ⊆ promised) (le : limit ≤ larger) : Safe key fewer larger file := by
  intro content survives
  exact (safe content survives).mono subset le

/-- The counted lines lie inside the content. -/
theorem Recoverable.tight (inv : Recoverable key promised limit content) :
    Recoverable key promised content.length content := by
  obtain ⟨text, journal, shape, commits, kept, _, bounds⟩ := inv
  refine ⟨text, journal, shape, commits, kept, ?_, bounds⟩
  rw [shape, JournalText.render, length_append]
  exact Nat.le_add_right _ _

theorem safe_synced (inv : Recoverable key promised limit content) :
    Safe key promised limit (CrashFile.synced content) := by
  intro _ survives
  rw [survives_synced.mp survives]
  exact inv

theorem Safe.sync (safe : Safe key promised limit file) : Safe key promised limit (file.sync NUL) :=
  safe_synced (safe _ (survives_current NUL file))

theorem recoverable_withGarbage
    (commits : text.Commits key journal) (kept : promised ⊆ text.entries)
    (short : (text.base key).length ≤ limit) (bounds : journal.Bounded)
    {garbage : List Char} (solid : ∀ char ∈ garbage.head?, isWhitespace char = false) :
    Recoverable key promised limit (text.base key ++ garbage) :=
  ⟨text.withGarbage garbage, journal, rfl, commits.withGarbage solid, kept, short, bounds⟩

private theorem head?_append_solid {left right : List Char}
    (leftSolid : ∀ char ∈ left.head?, isWhitespace char = false)
    (rightSolid : ∀ char ∈ right.head?, isWhitespace char = false) :
    ∀ char ∈ (left ++ right).head?, isWhitespace char = false := by
  cases left with
  | nil => exact rightSolid
  | cons => exact leftSolid

theorem head?_take_solid {text : List Char}
    (solid : ∀ char ∈ text.head?, isWhitespace char = false) :
    ∀ char ∈ (text.take amount).head?, isWhitespace char = false := by
  cases amount with
  | zero => simp
  | succ =>
    cases text with
    | nil => simp
    | cons => exact solid

private theorem head?_replicate_NUL :
    ∀ char ∈ (List.replicate amount NUL).head?, isWhitespace char = false := by
  cases amount with
  | zero => simp
  | succ =>
    simp only [replicate_succ, List.head?_cons, Option.mem_def, Option.some.injEq]
    rintro _ rfl
    decide

/-- What comes behind the counted lines may change. -/
theorem Recoverable.take_append (inv : Recoverable key promised limit content) {rest : List Char}
    (solid : ∀ char ∈ rest.head?, isWhitespace char = false) :
    Recoverable key promised limit (content.take limit ++ rest) := by
  obtain ⟨text, _, shape, commits, kept, short, bounds⟩ := inv
  rw [shape, JournalText.render, List.take_append, take_of_length_le short, append_assoc]
  exact recoverable_withGarbage commits kept short bounds
    (head?_append_solid (head?_take_solid _ commits.solid) solid)

theorem Recoverable.writeAt (inv : Recoverable key promised limit content)
    (solid : ∀ char ∈ data.head?, isWhitespace char = false) :
    Recoverable key promised limit (ParallaX.Data.writeAt NUL limit data content) := by
  unfold ParallaX.Data.writeAt
  split
  · exact inv
  next nonempty =>
    refine inv.take_append (head?_append_solid (head?_replicate_NUL _) ?_)
    cases data with
    | nil => exact absurd rfl nonempty
    | cons => exact solid

theorem Safe.push_write (safe : Safe key promised limit file)
    (solid : ∀ char ∈ data.head?, isWhitespace char = false) :
    Safe key promised limit (file.push (.write limit data)) := by
  intro content survives
  rcases survives_push survives with before | ⟨earlier, kept, before, rfl⟩
  · exact safe content before
  · exact (safe earlier before).writeAt (head?_take_solid kept solid)

theorem Safe.push_setLen (safe : Safe key promised limit file) :
    Safe key promised limit (file.push (.setLen limit)) := by
  intro content survives
  rcases survives_push survives with before | ⟨earlier, kept, before, rfl⟩
  · exact safe content before
  · by_cases lost : kept = 0
    · rw [FileOp.survive, if_pos lost]
      exact safe earlier before
    · rw [FileOp.survive, if_neg lost]
      exact (safe earlier before).take_append (head?_replicate_NUL _)

/-! ## The header write -/

/-- No torn mixture of the two slot texts carries a valid MAC. -/
def Unforged (macKey : CacheMacKey) (old new : List Char) : Prop :=
  ∀ kept < AUTH_JOURNAL_HEADER_LEN, new.take kept ++ old.drop kept ≠ old →
      new.take kept ++ old.drop kept ≠ new →
        (parseAuthenticatedJournalHeaderSlot macKey (new.take kept ++ old.drop kept)).toBool = false

/-- A torn write leaves the end of the slot as it was. -/
theorem writeAt_slot (key : CacheMacKey) {index : Nat} {header : List Char} (amount : Nat)
    (indexLe : index ≤ 1)
    (slotLength : ∀ index, (text.slot index).length = AUTH_JOURNAL_HEADER_LEN)
    (sized : header.length = AUTH_JOURNAL_HEADER_LEN) :
    writeAt NUL (index * AUTH_JOURNAL_HEADER_LEN) (header.take amount) (text.render key) =
      (text.withSlot index (header.take amount ++ (text.slot index).drop amount)).render key := by
  have length0 : text.slot0.length = AUTH_JOURNAL_HEADER_LEN := slotLength 0
  have length1 : text.slot1.length = AUTH_JOURNAL_HEADER_LEN := slotLength 1
  have shorter := length_take_le' amount header
  rw [drop_eq_drop_min, slotLength, ← sized, ← length_take]
  rcases Nat.le_one_iff_eq_zero_or_eq_one.mp indexLe with rfl | rfl
  · have written :=
      writeAt_append NUL [] text.slot0 (header.take amount)
        (text.slot1 ++ ((encodeBody key 0 zeroMac text.entries).1 ++ text.garbage))
        (by omega)
    simpa [JournalText.render, JournalText.base, JournalText.withSlot,
      JournalText.slot] using written
  · have written :=
      writeAt_append NUL text.slot0 text.slot1 (header.take amount)
        ((encodeBody key 0 zeroMac text.entries).1 ++ text.garbage)
        (by omega)
    rw [length0, ← sized] at written
    simpa [JournalText.render, JournalText.base, JournalText.withSlot,
      JournalText.slot] using written

private theorem version_splice {old new : List Char} (kept : Nat)
    (oldVersion : AUTH_JOURNAL_VERSION.isPrefixOf old = true)
    (newVersion : AUTH_JOURNAL_VERSION.isPrefixOf new = true) :
    AUTH_JOURNAL_VERSION.isPrefixOf (new.take kept ++ old.drop kept) = true := by
  rw [ isPrefixOf_iff_prefix] at oldVersion newVersion ⊢
  obtain ⟨_, rfl⟩ := oldVersion
  obtain ⟨_, rfl⟩ := newVersion
  by_cases inside : kept ≤ AUTH_JOURNAL_VERSION.length
  · rw [take_append_of_le_length inside, drop_append_of_le_length inside, ← append_assoc,
      take_append_drop]
    exact prefix_append _ _
  · rw [take_append, take_of_length_le (by omega), append_assoc]
    exact prefix_append _ _

theorem writeAt_nextHeader {entry : ReplayEntry} (commits : text.Commits key journal)
    (sized : ((journal.next key entry).header key).length = AUTH_JOURNAL_HEADER_LEN) :
    writeAt NUL ((1 - journal.activeSlot) * AUTH_JOURNAL_HEADER_LEN)
        ((journal.next key entry).header key)
        (text.base key ++ journal.nextLine key entry) =
      (text.advance key journal entry).render key := by
  have appended := commits.withGarbage (nextLine_solid key journal entry)
  have direct := writeAt_slot key AUTH_JOURNAL_HEADER_LEN (Nat.sub_le 1 journal.activeSlot)
    appended.slot_length sized
  rw [take_of_length_le sized.le, drop_eq_nil_of_le (appended.slot_length _).le,
    append_nil] at direct
  rw [commits.render_advance entry]
  exact direct

theorem recoverable_headerWrite {entry : ReplayEntry}
    (commits : text.Commits key journal) (kept : promised ⊆ text.entries)
    (bounded : (journal.next key entry).Bounded)
    (unforged :
      Unforged key (text.slot (1 - journal.activeSlot))
        ((journal.next key entry).header key))
    (amount : Nat) :
    Recoverable key promised (text.base key ++ journal.nextLine key entry).length
      (writeAt NUL ((1 - journal.activeSlot) * AUTH_JOURNAL_HEADER_LEN)
        (((journal.next key entry).header key).take amount)
        (text.base key ++ journal.nextLine key entry)) := by
  have oldBounded := bounded.of_next
  obtain ⟨countLt, generationLt⟩ := oldBounded.lt
  have appended := commits.withGarbage (nextLine_solid key journal entry)
  have headerLength : ((journal.next key entry).header key).length = AUTH_JOURNAL_HEADER_LEN :=
    length_authenticatedJournalHeader key _ generationLt countLt
  have oldLength := commits.slot_length (1 - journal.activeSlot)
  have written := writeAt_slot key amount (Nat.sub_le 1 journal.activeSlot)
    appended.slot_length headerLength
  rw [slot_withGarbage] at written
  change Recoverable key _ _ (writeAt NUL _ _ (JournalText.render key
    (text.withGarbage (journal.nextLine key entry))))
  rw [written]
  generalize spliceEq :
    ((journal.next key entry).header key).take amount ++
      (text.slot (1 - journal.activeSlot)).drop amount = splice
  have sized : splice.length = AUTH_JOURNAL_HEADER_LEN := by
    rw [← spliceEq, length_append, length_take, length_drop, headerLength, oldLength]
    omega
  by_cases isOld : splice = text.slot (1 - journal.activeSlot)
  · rw [isOld, ← slot_withGarbage text (journal.nextLine key entry), withSlot_slot]
    exact recoverable_withGarbage commits kept (by simp) oldBounded
      (nextLine_solid key journal entry)
  by_cases isNew : splice = (journal.next key entry).header key
  · rw [isNew, ← commits.render_advance entry]
    refine ⟨_, _, rfl, commits.next entry generationLt countLt, ?_, ?_, bounded⟩
    · exact List.Subset.trans kept (subset_append_left _ _)
    · rw [commits.length_base_advance entry headerLength]
  · have inside : amount < AUTH_JOURNAL_HEADER_LEN := by
      by_contra beyond
      apply isNew
      rw [← spliceEq, take_of_length_le (by omega), drop_eq_nil_of_le (by omega), append_nil]
    have torn : (parseAuthenticatedJournalHeaderSlot key splice).toBool = false := by
      rw [← spliceEq] at isOld isNew ⊢
      exact unforged amount inside isOld isNew
    refine ⟨_, journal, rfl, appended.withTornSlot sized ?_ torn, ?_, ?_, oldBounded⟩
    · intro targetsFirst
      rw [← spliceEq, targetsFirst]
      exact version_splice amount commits.version (version_header key _)
    · rw [entries_withSlot]
      exact kept
    · rw [length_base_withSlot key _ _ (sized.trans (appended.slot_length _).symm)]
      simp [JournalText.base, JournalText.withGarbage]

end ParallaX.Replay
