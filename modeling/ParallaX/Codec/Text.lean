import Mathlib.Data.Vector.Basic
import Mathlib.Tactic.IntervalCases

/-!
# Text encodings

Numbers in a radix, byte strings in hexadecimal, and the splitting of text into
words and lines. Text is a list of characters. Every decoder comes with the
rule that it inverts the encoder of the same section.
-/

namespace ParallaX.Codec

open List Option

/-! ## Numbers -/

/-- The value of a digit, upper or lower case, below the radix. -/
def digitValue? (radix : Nat) (digit : Char) : Option Nat :=
  let value? :=
    if '0' ≤ digit ∧ digit ≤ '9' then some (digit.toNat - '0'.toNat)
    else if 'a' ≤ digit ∧ digit ≤ 'z' then some (digit.toNat - 'a'.toNat + 10)
    else if 'A' ≤ digit ∧ digit ≤ 'Z' then some (digit.toNat - 'A'.toNat + 10)
    else none
  value?.filter (· < radix)

/-- One digit more, unless the value leaves 64 bits. -/
def accumulateDigit (radix value : Nat) (digit : Char) : Option Nat :=
  (digitValue? radix digit).bind fun amount =>
    if value * radix + amount < 2 ^ 64 then some (value * radix + amount)
    else none

def parseDigits (radix : Nat) (digits : List Char) : Option Nat :=
  digits.foldlM (accumulateDigit radix) 0

/-- An unsigned 64-bit number with an optional leading plus sign. -/
def parseU64 (radix : Nat) : List Char → Option Nat
  | [] => none
  | ['+'] => none
  | '+' :: digits => parseDigits radix digits
  | digits => parseDigits radix digits

def decimal (value : Nat) : List Char := Nat.toDigits 10 value

/-- Sixteen lower-case hexadecimal digits, padded with zeros. -/
def hex16 (value : Nat) : List Char := (Nat.toDigits 16 value).leftpad 16 '0'

variable {radix : Nat} {line : List Char} {amount : Nat} {word : List Char} {char : Char}
  (bytes : List UInt8)

theorem digitValue?_digitChar (radixLe : radix ≤ 16) (below : amount < radix) :
    digitValue? radix amount.digitChar = some amount := by
  have small : amount < 16 := by omega
  have value : digitValue? 16 amount.digitChar = some amount := by interval_cases amount <;> decide
  unfold digitValue? at value ⊢
  simp only [filter_eq_some_iff] at value ⊢
  exact ⟨value.1, by simpa using below⟩

theorem accumulateDigit_digitChar (value : Nat) (radixLe : radix ≤ 16) (below : amount < radix)
    (fits : value * radix + amount < 2 ^ 64) :
    accumulateDigit radix value amount.digitChar = some (value * radix + amount) := by
  rw [accumulateDigit, digitValue?_digitChar radixLe below, bind_some, if_pos fits]

theorem parseDigits_toDigits (oneLt : 1 < radix) (radixLe : radix ≤ 16) (value : Nat)
    (fits : value < 2 ^ 64) : parseDigits radix (Nat.toDigits radix value) = some value := by
  induction value using Nat.strongRecOn with
  | ind value ih =>
    rw [Nat.toDigits_eq_if oneLt]
    by_cases single : value < radix
    · rw [if_pos single]
      have accumulated := accumulateDigit_digitChar 0 radixLe single (by simpa using fits)
      simpa [parseDigits] using accumulated
    · rw [if_neg single]
      have smaller : value / radix < value := Nat.div_lt_self (by omega) oneLt
      have split : value / radix * radix + value % radix = value := by
        rw [Nat.mul_comm]
        exact Nat.div_add_mod value radix
      have leading := ih (value / radix) smaller (by omega)
      have accumulated :=
        accumulateDigit_digitChar (value / radix) radixLe (Nat.mod_lt value (by omega : radix > 0))
          (by rw [split]; exact fits)
      rw [split] at accumulated
      unfold parseDigits at leading ⊢
      rw [foldlM_append, leading]
      simpa using accumulated

theorem parseDigits_zeros (positive : 0 < radix) (radixLe : radix ≤ 16)
    (zeros : Nat) (digits : List Char) :
    parseDigits radix (List.replicate zeros '0' ++ digits) = parseDigits radix digits := by
  induction zeros with
  | zero => rfl
  | succ _ ih =>
    have zero : accumulateDigit radix 0 '0' = some (0 * radix + 0) :=
      accumulateDigit_digitChar 0 radixLe positive (by simp)
    rw [Nat.zero_mul] at zero
    rw [replicate_succ, cons_append]
    unfold parseDigits at ih ⊢
    rw [foldlM_cons, zero]
    exact ih

/-- Digits never start with a plus sign, so the sign is not looked for. -/
theorem parseU64_of_head {digits : List Char} {first : Char}
    (head : digits.head? = some first) (notPlus : first ≠ '+') :
    parseU64 radix digits = parseDigits radix digits := by
  cases digits with
  | nil => cases head
  | cons =>
    simp only [List.head?_cons, Option.some.injEq] at head
    unfold parseU64
    split <;> simp_all

theorem mem_toDigits {value : Nat} {digit : Char}
    (oneLt : 1 < radix) (member : digit ∈ Nat.toDigits radix value) :
    ∃ amount < radix, digit = amount.digitChar := by
  induction value using Nat.strongRecOn with
  | ind value ih =>
    rw [Nat.toDigits_eq_if oneLt] at member
    by_cases single : value < radix
    · rw [if_pos single, mem_singleton] at member
      exact ⟨value, single, member⟩
    · rw [if_neg single, mem_append, mem_singleton] at member
      rcases member with leading | last
      · exact ih (value / radix) (Nat.div_lt_self (by omega) oneLt) leading
      · exact ⟨value % radix, Nat.mod_lt value (by omega), last⟩

/-! ## Words and lines -/

/-- The characters with the Unicode White_Space property. -/
def isWhitespace (char : Char) : Bool :=
  (0x09 ≤ char.toNat && char.toNat ≤ 0x0d) || (0x2000 ≤ char.toNat && char.toNat ≤ 0x200a) ||
    [0x20, 0x85, 0xa0, 0x1680, 0x2028, 0x2029, 0x202f, 0x205f, 0x3000].contains char.toNat

variable (text : List Char)

/-- The maximal runs of characters that are not white space. -/
def words : List (List Char) := (text.splitOnP isWhitespace).filter fun piece => !piece.isEmpty

def stripCr (line : List Char) : List Char :=
  if line.getLast? = some '\r' then line.dropLast else line

def lines : List (List Char) :=
  let pieces := text.splitOnP (· == '\n')
  pieces.dropLast.map stripCr ++ (pieces.getLast?.filter fun last => !last.isEmpty).toList

def isBlank (line : List Char) : Bool := line.all isWhitespace

def nonblankLines : List (List Char) := (lines text).filter fun line => !isBlank line

/-- A word: not empty and free of white space. -/
structure IsWord (word : List Char) : Prop where
  ne_nil : word ≠ []
  solid : ∀ char ∈ word, isWhitespace char = false

theorem words_cons (isWord : IsWord word) (rest : List Char) :
    words (word ++ ' ' :: rest) = word :: words rest := by
  unfold words
  rw [splitOnP_append_cons_of_forall_mem isWord.solid ' ' (by decide)]
  simp [isWord.ne_nil]

theorem words_singleton (isWord : IsWord word) : words word = [word] := by
  unfold words
  rw [splitOnP_eq_singleton isWord.solid]
  simp [isWord.ne_nil]

theorem lines_nil : lines [] = [] := by
  simp [lines]

theorem lines_cons (noBreak : ∀ char ∈ line, char ≠ '\n') (rest : List Char) :
    lines (line ++ '\n' :: rest) = stripCr line :: lines rest := by
  have noSplit char (member : char ∈ line) : (char == '\n') = false := by
    simpa using noBreak char member
  unfold lines
  rw [splitOnP_append_cons_of_forall_mem noSplit '\n' (by decide)]
  cases shape : rest.splitOnP (· == '\n') with
  | nil => exact absurd shape (splitOnP_ne_nil _ _)
  | cons => simp

theorem lines_of_noBreak (noBreak : ∀ char ∈ line, char ≠ '\n') (nonempty : line ≠ []) :
    lines line = [line] := by
  have noSplit char (member : char ∈ line) : (char == '\n') = false := by
    simpa using noBreak char member
  unfold lines
  rw [splitOnP_eq_singleton noSplit]
  simp [nonempty]

theorem nonblankLines_cons (noBreak : ∀ char ∈ line, char ≠ '\n')
    (last : line.getLast? ≠ some '\r') (solid : isBlank line = false) (rest : List Char) :
    nonblankLines (line ++ '\n' :: rest) = line :: nonblankLines rest := by
  unfold nonblankLines
  rw [lines_cons noBreak, stripCr, if_neg last]
  simp [solid]

theorem isBlank_cons_of_solid
    {rest : List Char} (solid : isWhitespace char = false) : isBlank (char :: rest) = false := by
  simp [isBlank, solid]

/-- A line of words with one space between them. -/
inductive Spaced : List (List Char) → List Char → Prop
  | word {word : List Char} (isWord : IsWord word) : Spaced [word] word
  | cons {word line : List Char} {later : List (List Char)}
      (isWord : IsWord word) (spaced : Spaced later line) :
      Spaced (word :: later) (word ++ ' ' :: line)

section Spaced

variable {list : List (List Char)} (spaced : Spaced list line)
include spaced

theorem Spaced.words_eq : words line = list := by
  induction spaced with
  | word isWord => exact words_singleton isWord
  | cons isWord _ ih => rw [words_cons isWord, ih]

theorem Spaced.chars : ∀ char ∈ line, char = ' ' ∨ isWhitespace char = false := by
  induction spaced with
  | word isWord => exact fun char member => .inr (isWord.solid char member)
  | cons isWord _ ih =>
    intro char member
    rcases mem_append.mp member with inWord | inRest
    · exact .inr (isWord.solid char inWord)
    rcases mem_cons.mp inRest with isSpace | inLine
    · exact .inl isSpace
    · exact ih char inLine

theorem Spaced.head_solid : ∃ first rest, line = first :: rest ∧ isWhitespace first = false := by
  have front : ∃ word rest, IsWord word ∧ line = word ++ rest := by
    cases spaced with
    | word isWord => exact ⟨line, [], isWord, (append_nil _).symm⟩
    | cons isWord => exact ⟨_, _, isWord, rfl⟩
  obtain ⟨_ | ⟨first, letters⟩, rest, isWord, rfl⟩ := front
  · exact absurd rfl isWord.ne_nil
  · exact ⟨first, letters ++ rest, rfl, isWord.solid first mem_cons_self⟩

theorem Spaced.nonblankLines_append (rest : List Char) :
    nonblankLines (line ++ '\n' :: rest) = line :: nonblankLines rest := by
  have absent {char : Char} (white : isWhitespace char = true)
      (other : char ≠ ' ') : char ∉ line := by
    intro member
    rcases spaced.chars char member with isSpace | solid
    · exact other isSpace
    · rw [white] at solid
      cases solid
  obtain ⟨_, _, shape, solid⟩ := spaced.head_solid
  apply nonblankLines_cons
  · rintro _ member rfl
    exact absent (by decide) (by decide) member
  · exact fun last =>
      absent (by decide) (by decide) (mem_of_getLast? last)
  · rw [shape]
    exact isBlank_cons_of_solid solid

end Spaced

theorem nonblankLines_ne_nil
    {rest : List Char} (solid : isWhitespace char = false) : nonblankLines (char :: rest) ≠ [] := by
  have notBreak : char ≠ '\n' := by
    rintro rfl
    exact absurd solid (by decide)
  have notCr : char ≠ '\r' := by
    rintro rfl
    exact absurd solid (by decide)
  by_cases broken : '\n' ∈ rest
  · obtain ⟨line, _, shape, absent⟩ := eq_append_cons_of_mem broken
    have noBreak other (member : other ∈ char :: line) : other ≠ '\n' := by
      rcases mem_cons.mp member with rfl | inLine
      · exact notBreak
      · rintro rfl
        exact absent inLine
    have startsSolid : isBlank (stripCr (char :: line)) = false := by
      unfold stripCr
      split
      · cases line with
        | nil => simp_all
        | cons => exact isBlank_cons_of_solid solid
      · exact isBlank_cons_of_solid solid
    unfold nonblankLines
    rw [shape, ← cons_append, lines_cons noBreak]
    simp [startsSolid]
  · have noBreak other (member : other ∈ char :: rest) : other ≠ '\n' := by
      rcases mem_cons.mp member with rfl | inRest
      · exact notBreak
      · rintro rfl
        exact broken inRest
    unfold nonblankLines
    rw [lines_of_noBreak noBreak (cons_ne_nil _ _)]
    simp [isBlank_cons_of_solid solid]

/-! ## Bytes -/

/-- Two lower-case hexadecimal digits for each byte. -/
def pushHex (bytes : List UInt8) : List Char :=
  bytes.flatMap fun byte =>
    [(byte.toNat / 16).digitChar, (byte.toNat % 16).digitChar]

def decodeHex : List Char → Option (List UInt8)
  | high :: low :: rest => do
    let highValue ← digitValue? 16 high
    let lowValue ← digitValue? 16 low
    let bytes ← decodeHex rest
    pure (UInt8.ofNat (highValue * 16 + lowValue) :: bytes)
  | _ => some []

def decodeHexExact (width : Nat) (text : List Char) : Option (List.Vector UInt8 width) :=
  if text.length ≠ width * 2 then none
  else
    (decodeHex text).bind fun bytes =>
      if sized : bytes.length = width then some ⟨bytes, sized⟩ else none

@[simp]
theorem length_pushHex : (pushHex bytes).length = bytes.length * 2 := by
  induction bytes with
  | nil => rfl
  | cons _ _ ih =>
    simp only [pushHex, flatMap_cons, length_append, length_cons, length_nil] at ih ⊢
    omega

theorem decodeHex_pushHex : decodeHex (pushHex bytes) = some bytes := by
  induction bytes with
  | nil => rfl
  | cons byte bytes ih =>
    have bound := byte.toNat_lt
    have highValue : digitValue? 16 (byte.toNat / 16).digitChar = some (byte.toNat / 16) :=
      digitValue?_digitChar le_rfl (by omega)
    have lowValue : digitValue? 16 (byte.toNat % 16).digitChar = some (byte.toNat % 16) :=
      digitValue?_digitChar le_rfl (by omega)
    have whole : byte.toNat / 16 * 16 + byte.toNat % 16 = byte.toNat := by omega
    have unfolded :
        pushHex (byte :: bytes) =
          (byte.toNat / 16).digitChar :: (byte.toNat % 16).digitChar :: pushHex bytes := rfl
    rw [unfolded, decodeHex, highValue, lowValue, ih]
    simp only [bind_eq_bind, bind_some, Option.pure_def, whole, UInt8.ofNat_toNat]

theorem decodeHexExact_pushHex {width : Nat} (bytes : List.Vector UInt8 width) :
    decodeHexExact width (pushHex bytes.toList) = some bytes := by
  obtain ⟨bytes, sized⟩ := bytes
  unfold decodeHexExact
  simp [List.Vector.toList, decodeHex_pushHex, sized]

end ParallaX.Codec
