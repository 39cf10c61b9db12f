import ParallaX.Mux.Frame

/-!
# Coalescing of short reads

The readers that turn the bytes of a socket into Data frames of one substream.
What does not fill a frame is held as a tail, until later reads fill it, its
deadline passes or the input ends. Times are in nanoseconds.
-/

namespace ParallaX.Mux

open List

/-- What the poll of a reader gives: bytes, none of them at the end of the
input, an error, or the passing of the deadline. The bytes that were ready after
the first ones are missing when fetching them failed. -/
inductive ReadResult where
  | bytes (receivedAt : Nat) (first : List UInt8) (drained : Option (List UInt8))
  | failed
  | expired
deriving DecidableEq, Repr

inductive Ending where
  | fin
  | readError
  | drainError
  | payloadTooLarge
deriving DecidableEq, Repr

structure TailBuffer where
  tail : List UInt8 := []
  tailDeadline : Option Nat := none
  sent : List (MuxFrameKind × List UInt8) := []
deriving DecidableEq, Repr

structure TailReader extends TailBuffer where
  ended : Option Ending := none
deriving DecidableEq, Repr

/-- How the loops of the server and the client differ. -/
structure TailProfile where
  hold : Nat
  /-- Every read is sent at once. -/
  atOnce : Bool
  /-- The socket is drained also when something may be held. -/
  drains : Bool
  /-- A full frame does not go through an empty tail. -/
  direct : Bool
  flushesOnError : Bool
  /-- The substream is reset when a read or the drain after it failed. -/
  resets : Bool

def TailProfile.fetches (profile : TailProfile) : Bool := profile.atOnce || profile.drains

def SERVER_MUX_TAIL_HOLD : Nat := 5 * 10 ^ 6

def muxTailAppendLen (buffered available capacity : Nat) : Nat :=
  min available (capacity - buffered)

def MuxFrame.maxPayloadLen (maxEncodedLen : Nat) : Nat := maxEncodedLen - MUX_FRAME_FIXED_LEN

namespace TailBuffer

def send (buffer : TailBuffer) (payload : List UInt8) : TailBuffer :=
  { buffer with sent := buffer.sent ++ [(.data, payload)] }

def flushTail (buffer : TailBuffer) : TailBuffer :=
  let buffer := { buffer with tailDeadline := none }
  if buffer.tail = [] then buffer
  else { buffer.send buffer.tail with tail := [] }

/-- Append to the tail, whose deadline is that of its first byte. -/
def hold (buffer : TailBuffer) (deadline : Nat) (part : List UInt8) : TailBuffer :=
  { buffer with
    tail := buffer.tail ++ part
    tailDeadline := if buffer.tail = [] then some deadline else buffer.tailDeadline }

/-- Send every piece of the input at once. Each round consumes input, so that
its length is enough fuel. -/
def sendChunks (maxPayloadLen : Nat) : Nat → List UInt8 → TailBuffer → TailBuffer
  | 0, _, buffer => buffer
  | fuel + 1, input, buffer =>
    if input = [] then buffer
    else
      sendChunks maxPayloadLen fuel (input.drop maxPayloadLen)
        (buffer.send (input.take maxPayloadLen))

/-- Fill the tail and send it when it is full. With `direct` a full frame does
not go through an empty tail. -/
def absorb (direct : Bool) (deadline maxPayloadLen : Nat) :
    Nat → List UInt8 → TailBuffer → TailBuffer
  | 0, _, buffer => buffer
  | fuel + 1, input, buffer =>
    if input = [] then buffer
    else if direct ∧ buffer.tail = [] ∧ maxPayloadLen ≤ input.length then
      absorb direct deadline maxPayloadLen fuel (input.drop maxPayloadLen)
        (buffer.send (input.take maxPayloadLen))
    else
      let take := muxTailAppendLen buffer.tail.length input.length maxPayloadLen
      let held := buffer.hold deadline (input.take take)
      absorb direct deadline maxPayloadLen fuel (input.drop take)
        (if held.tail.length = maxPayloadLen then held.flushTail else held)

end TailBuffer

def stamp (receivedAt : Nat) (input : List UInt8) : List (UInt8 × Nat) :=
  input.map fun byte => (byte, receivedAt)

/-! ## The bytes of the socket -/

/-- What the socket gave until the loop returned: the bytes read, each with the
time of its read, those of a read whose drain failed, and how the loop ends. -/
structure Observed where
  kept : List (UInt8 × Nat) := []
  lost : List UInt8 := []
  ended : Option Ending := none
deriving DecidableEq, Repr

/-- The bytes that the poll results give to a loop, whatever it does with
them. -/
def ReadResult.observe (drains : Bool) : List ReadResult → Observed
  | [] => {}
  | .expired :: later => observe drains later
  | .failed :: _ => { ended := some .readError }
  | .bytes _ [] _ :: _ => { ended := some .fin }
  | .bytes receivedAt first drained :: later =>
    match if drains then drained else some [] with
    | none => { lost := first, ended := some .drainError }
    | some more =>
      { observe drains later with
        kept := stamp receivedAt (first ++ more) ++ (observe drains later).kept }

/-- A loop that cannot send a single byte does not read. -/
def Observed.ofResults (maxPayloadLen : Nat) (drains : Bool) (results : List ReadResult) :
    Observed :=
  if maxPayloadLen = 0 then { ended := some .payloadTooLarge }
  else ReadResult.observe drains results

def Observed.bytes (observed : Observed) : List UInt8 :=
  observed.kept.map Prod.fst ++ observed.lost

/-! ## The loops -/

namespace TailReader

/-- The tail, and then the end of the input. -/
def finish (reader : TailReader) : TailReader :=
  { reader with
    toTailBuffer := { reader.flushTail with sent := reader.flushTail.sent ++ [(.fin, [])] }
    ended := some .fin }

/-- Return an error. The server resets the substream first. -/
def fail (resets : Bool) (ending : Ending) (reader : TailReader) : TailReader :=
  { reader with
    sent := if resets then reader.sent ++ [(.reset, [])] else reader.sent
    ended := some ending }

def expire (reader : TailReader) : TailReader :=
  if reader.tailDeadline.isSome then { reader with toTailBuffer := reader.flushTail }
  else reader

/-- One round of a loop.  (The client also sets the deadline of an empty tail before
it fills the tail, which sets the same deadline.) -/
def round (profile : TailProfile) (maxPayloadLen : Nat) (reader : TailReader) :
    ReadResult → TailReader
  | .expired => reader.expire
  | .failed =>
    if profile.flushesOnError then
      fail profile.resets .readError { reader with toTailBuffer := reader.flushTail }
    else fail profile.resets .readError reader
  | .bytes _ [] _ => reader.finish
  | .bytes receivedAt first drained =>
    match if profile.fetches then drained else some [] with
    -- The bytes of the first read are dropped.
    | none => fail profile.resets .drainError reader
    | some more =>
      let input := first ++ more
      { reader with
        toTailBuffer :=
          if profile.atOnce then reader.sendChunks maxPayloadLen input.length input
          else
            reader.absorb profile.direct (receivedAt + profile.hold) maxPayloadLen input.length
              input }

def loop (profile : TailProfile) (maxPayloadLen : Nat) : List ReadResult → TailReader → TailReader
  | [], reader => reader
  | result :: later, reader =>
    let next := reader.round profile maxPayloadLen result
    if next.ended.isSome then next else loop profile maxPayloadLen later next

def run (profile : TailProfile) (chunkSize : Nat) (results : List ReadResult) : TailReader :=
  let maxPayloadLen := MuxFrame.maxPayloadLen chunkSize
  if maxPayloadLen = 0 then { ended := some .payloadTooLarge }
  else loop profile maxPayloadLen results {}

def serverMuxTargetReaderLoop (timingEnabled : Bool) :=
  run
    { hold := SERVER_MUX_TAIL_HOLD
      atOnce := timingEnabled
      drains := true
      direct := true
      flushesOnError := false
      resets := true }

def clientMuxUploadLoop (hold : Nat) :=
  run
    { hold := hold
      atOnce := hold = 0
      drains := false
      direct := false
      flushesOnError := true
      resets := false }

end TailReader

/-- The frames are Data frames that together with the tail carry the bytes read,
and the tail is to be flushed in time. -/
structure Holding (maxPayloadLen hold : Nat) (read : List (UInt8 × Nat))
    (buffer : TailBuffer) : Prop where
  data_frames : ∀ frame ∈ buffer.sent, frame.1 = .data ∧
    1 ≤ frame.2.length ∧ frame.2.length ≤ maxPayloadLen
  bytes_eq : (buffer.sent.map Prod.snd).flatten ++ buffer.tail = read.map Prod.fst
  tail_le : buffer.tail.length ≤ maxPayloadLen
  deadline_le : ∀ first ∈ (read.drop (read.length - buffer.tail.length)).head?,
    ∃ deadline ∈ buffer.tailDeadline, deadline ≤ first.2 + hold

/-- The frames after the last Data frame. -/
def closing (resets : Bool) : Option Ending → List (MuxFrameKind × List UInt8)
  | some .fin => [(.fin, [])]
  | some .readError => if resets then [(.reset, [])] else []
  | some .drainError => if resets then [(.reset, [])] else []
  | _ => []

/-- The reader ends as what it observed says. Its Data frames and its tail carry
the bytes read, all of them in frames before a Fin, except for the bytes of a
read whose drain failed. -/
structure TailReader.Coalesces (maxPayloadLen hold : Nat) (resets : Bool) (observed : Observed)
    (reader : TailReader) : Prop where
  ended_eq : reader.ended = observed.ended
  holding : ∃ data, reader.sent = data ++ closing resets observed.ended ∧
    Holding maxPayloadLen hold observed.kept ⟨reader.tail, reader.tailDeadline, data⟩
  flushed : observed.ended = some .fin → reader.tail = []
  whole : observed.ended ≠ some .drainError → observed.lost = []

/-! ## Rounds -/

variable {maxLen hold receivedAt fuel : Nat} {buffer : TailBuffer}
  {read : List (UInt8 × Nat)} {input part : List UInt8} {reader : TailReader}

theorem append_stamp_take (read : List (UInt8 × Nat)) (count : Nat) :
    read ++ stamp receivedAt (input.take count) ++ stamp receivedAt (input.drop count) =
      read ++ stamp receivedAt input := by
  rw [append_assoc, stamp, stamp, ← map_append, take_append_drop, stamp]

namespace Holding

variable (holding : Holding maxLen hold read buffer)
include holding

theorem send (nonempty : 1 ≤ part.length) (fits : part.length ≤ maxLen)
    {next : List (UInt8 × Nat)}
    (bytes : (buffer.sent.map Prod.snd).flatten ++ part = next.map Prod.fst)
    (tailDeadline : Option Nat) :
    Holding maxLen hold next ⟨[], tailDeadline, buffer.sent ++ [(.data, part)]⟩ where
  data_frames := forall_mem_append.mpr
    ⟨holding.data_frames, forall_mem_singleton.mpr ⟨rfl, nonempty, fits⟩⟩
  bytes_eq := by simpa using bytes
  tail_le := Nat.zero_le _
  deadline_le := by simp

theorem flushTail : Holding maxLen hold read buffer.flushTail ∧ buffer.flushTail.tail = [] := by
  unfold TailBuffer.flushTail
  dsimp only
  split
  next empty => exact ⟨{ holding with deadline_le := by simp [empty] }, empty⟩
  next full =>
    exact ⟨holding.send (length_pos_iff.mpr full) holding.tail_le holding.bytes_eq _, rfl⟩

theorem sendFull (idle : buffer.tail = []) (pos : 0 < maxLen) (more : input ≠ [])
    (receivedAt : Nat) :
    Holding maxLen hold (read ++ stamp receivedAt (input.take maxLen))
        (buffer.send (input.take maxLen)) ∧
      (buffer.send (input.take maxLen)).tail = [] := by
  have inputPos := length_pos_iff.mpr more
  have bytes := holding.bytes_eq
  rw [idle, append_nil] at bytes
  have next : (buffer.sent.map Prod.snd).flatten ++ input.take maxLen =
      (read ++ stamp receivedAt (input.take maxLen)).map Prod.fst := by
    simp [bytes, stamp, Function.comp_def]
  have sent := holding.send (by rw [length_take]; omega) (length_take_le _ _) next
    buffer.tailDeadline
  rw [← idle] at sent
  exact ⟨sent, idle⟩

theorem append (nonempty : part ≠ []) (fits : buffer.tail.length + part.length ≤ maxLen)
    (receivedAt : Nat) :
    Holding maxLen hold (read ++ stamp receivedAt part)
      (buffer.hold (receivedAt + hold) part) where
  data_frames := holding.data_frames
  bytes_eq := by simp [TailBuffer.hold, ← append_assoc, holding.bytes_eq, stamp, Function.comp_def]
  tail_le := by simpa [TailBuffer.hold] using fits
  deadline_le := by
    have within : buffer.tail.length ≤ read.length := by
      have lengths := congrArg List.length holding.bytes_eq
      rw [length_append, length_map] at lengths
      omega
    have start : (read ++ stamp receivedAt part).length -
        (buffer.tail ++ part).length = read.length - buffer.tail.length := by
      simp [stamp, Nat.add_sub_add_right]
    intro first isFirst
    rw [TailBuffer.hold, start, drop_append_of_le_length (by omega)] at isFirst
    by_cases empty : buffer.tail = []
    · obtain ⟨_, _, rfl⟩ := exists_cons_of_ne_nil nonempty
      simp only [empty, length_nil, Nat.sub_zero, drop_length] at isFirst
      cases isFirst
      exact ⟨_, by simp [TailBuffer.hold, empty], le_rfl⟩
    · have earlier := holding.deadline_le
      have tailPos := length_pos_iff.mpr empty
      have held : read.drop (read.length - buffer.tail.length) ≠ [] := by
        rw [← length_pos_iff, length_drop]
        omega
      obtain ⟨_, _, shape⟩ := exists_cons_of_ne_nil held
      rw [shape] at isFirst earlier
      simpa [TailBuffer.hold, empty] using earlier first isFirst

theorem sendChunks (idle : buffer.tail = []) (pos : 0 < maxLen) (enough : input.length ≤ fuel) :
    Holding maxLen hold (read ++ stamp receivedAt input)
        (buffer.sendChunks maxLen fuel input) ∧
      (buffer.sendChunks maxLen fuel input).tail = [] := by
  fun_induction TailBuffer.sendChunks maxLen fuel input buffer generalizing read with
  | case1 input buffer =>
    cases length_eq_zero_iff.mp (Nat.le_zero.mp enough)
    simpa [stamp] using ⟨holding, idle⟩
  | case2 fuel buffer => simpa [stamp] using ⟨holding, idle⟩
  | case3 fuel input buffer more ih =>
    obtain ⟨sent, still⟩ := holding.sendFull idle pos more receivedAt
    rw [← append_stamp_take read maxLen]
    exact ih sent still (by rw [length_drop]; omega)

theorem absorb
    (short : buffer.tail.length < maxLen) (direct : Bool) (enough : input.length ≤ fuel) :
    let absorbed := buffer.absorb direct (receivedAt + hold) maxLen fuel input
    Holding maxLen hold (read ++ stamp receivedAt input) absorbed ∧
      absorbed.tail.length < maxLen := by
  fun_induction TailBuffer.absorb direct (receivedAt + hold) maxLen fuel input buffer
    generalizing read with
  | case1 input buffer =>
    cases length_eq_zero_iff.mp (Nat.le_zero.mp enough)
    simpa [stamp] using ⟨holding, short⟩
  | case2 fuel buffer => simpa [stamp] using ⟨holding, short⟩
  | case3 fuel input buffer more whole ih =>
    have pos := Nat.zero_lt_of_lt short
    obtain ⟨sent, still⟩ := holding.sendFull whole.2.1 pos more receivedAt
    rw [← append_stamp_take read maxLen]
    exact ih sent (still ▸ pos) (by rw [length_drop]; omega)
  | case4 fuel input buffer more =>
    rename_i take held ih
    have inputPos := length_pos_iff.mpr more
    have amount : 0 < take ∧ take ≤ input.length ∧ buffer.tail.length + take ≤ maxLen := by
      simp only [take, muxTailAppendLen]
      omega
    have nonempty : input.take take ≠ [] := by
      rw [← length_pos_iff, length_take]
      omega
    have appended := holding.append nonempty (by rw [length_take]; omega) receivedAt
    rw [← append_stamp_take read take]
    refine ih ?_ ?_ (by rw [length_drop]; omega)
    · split
      · exact appended.flushTail.1
      · exact appended
    · split
      · rw [appended.flushTail.2]
        exact Nat.zero_lt_of_lt short
      next room => exact lt_of_le_of_ne appended.tail_le room

end Holding

/-! ## Runs -/

/-- The tail stays shorter than this between two rounds. -/
def TailProfile.limit (profile : TailProfile) (maxPayloadLen : Nat) : Nat :=
  if profile.atOnce then 1 else maxPayloadLen

variable {profile : TailProfile}

/-- What a loop observes goes on after what was read before. -/
def Observed.after (read : List (UInt8 × Nat)) (observed : Observed) : Observed :=
  { observed with kept := read ++ observed.kept }

section

variable (holding : Holding maxLen profile.hold read reader.toTailBuffer)
include holding

theorem Holding.finish : reader.finish.Coalesces maxLen profile.hold profile.resets
    (Observed.after read { ended := some .fin }) := by
  obtain ⟨flushed, empty⟩ := holding.flushTail
  refine ⟨rfl, ⟨reader.flushTail.sent, rfl, ?_⟩, fun _ => empty, fun _ => rfl⟩
  simp only [Observed.after, append_nil]
  exact flushed

theorem Holding.fail (ending : Ending) (lost : List UInt8)
    (failure : ending = .readError ∧ lost = [] ∨ ending = .drainError) :
    (reader.fail profile.resets ending).Coalesces maxLen profile.hold profile.resets
      (Observed.after read { lost := lost, ended := some ending }) := by
  refine ⟨rfl, ⟨reader.sent, ?_, ?_⟩, ?_, ?_⟩
  · rcases failure with ⟨rfl, _⟩ | rfl <;> cases profile.resets <;>
      simp [TailReader.fail, closing, Observed.after]
  · simp only [Observed.after, append_nil]
    exact holding
  · rcases failure with ⟨rfl, _⟩ | rfl <;> simp [Observed.after]
  · rcases failure with ⟨rfl, rfl⟩ | rfl <;> simp [Observed.after]

theorem Holding.takes (short : reader.tail.length < profile.limit maxLen) (pos : 0 < maxLen)
    (receivedAt : Nat) (input : List UInt8) :
    let buffer :=
      if profile.atOnce then reader.sendChunks maxLen input.length input
      else reader.absorb profile.direct (receivedAt + profile.hold) maxLen input.length input
    Holding maxLen profile.hold (read ++ stamp receivedAt input) buffer ∧
      buffer.tail.length < profile.limit maxLen := by
  cases mode : profile.atOnce with
  | true =>
    have idle : reader.tail.length < 1 := by simpa [TailProfile.limit, mode] using short
    obtain ⟨sent, still⟩ := holding.sendChunks
      (length_eq_zero_iff.mp (Nat.lt_one_iff.mp idle)) pos le_rfl
    exact ⟨sent, still ▸ Nat.zero_lt_of_lt short⟩
  | false =>
    have limit : profile.limit maxLen = maxLen := by simp [TailProfile.limit, mode]
    obtain ⟨absorbed, still⟩ := holding.absorb (short.trans_eq limit) profile.direct le_rfl
    exact ⟨absorbed, still.trans_eq limit.symm⟩

-- Induction on the poll results: `read` grows by what each of them gives.
theorem Holding.loop (running : reader.ended = none)
    (short : reader.tail.length < profile.limit maxLen) (pos : 0 < maxLen)
    (results : List ReadResult) :
    (TailReader.loop profile maxLen results reader).Coalesces maxLen profile.hold profile.resets
      (Observed.after read (ReadResult.observe profile.fetches results)) := by
  induction results generalizing reader read with
  | nil =>
    refine ⟨running, ⟨reader.sent, by simp [closing, Observed.after, ReadResult.observe,
      TailReader.loop], ?_⟩, nofun, fun _ => rfl⟩
    simp only [Observed.after, ReadResult.observe, append_nil]
    exact holding
  | cons result later ih =>
    obtain ⟨flushed, empty⟩ := holding.flushTail
    rw [TailReader.loop]
    cases result with
    | expired =>
      rw [TailReader.round, TailReader.expire]
      split
      · rw [if_neg (by simp [running])]
        exact ih flushed running (empty ▸ Nat.zero_lt_of_lt short)
      · rw [if_neg (by simp [running])]
        exact ih holding running short
    | failed =>
      rw [TailReader.round]
      split
      · let flushing : TailReader := { reader with toTailBuffer := reader.flushTail }
        have kept : Holding maxLen profile.hold read flushing.toTailBuffer := flushed
        exact kept.fail .readError [] (.inl ⟨rfl, rfl⟩)
      · exact holding.fail .readError [] (.inl ⟨rfl, rfl⟩)
    | bytes receivedAt first drained =>
      cases first with
      | nil => exact holding.finish
      | cons byte rest =>
        cases fetched : if profile.fetches then drained else some [] with
        | none =>
          simp only [TailReader.round, ReadResult.observe, fetched]
          exact holding.fail .drainError (byte :: rest) (.inr rfl)
        | some more =>
          obtain ⟨absorbed, still⟩ := holding.takes short pos receivedAt (byte :: rest ++ more)
          simp only [TailReader.round, ReadResult.observe, fetched, running, Option.isSome_none,
            Bool.false_eq_true, if_false, Observed.after, ← append_assoc]
          exact ih absorbed rfl still

end

theorem run_coalesces (profile : TailProfile) (chunkSize : Nat) (results : List ReadResult) :
    (TailReader.run profile chunkSize results).Coalesces
      (MuxFrame.maxPayloadLen chunkSize) profile.hold profile.resets
      (.ofResults (MuxFrame.maxPayloadLen chunkSize) profile.fetches results) := by
  have blank : Holding (MuxFrame.maxPayloadLen chunkSize) profile.hold []
      ({} : TailReader).toTailBuffer :=
    ⟨by simp, rfl, Nat.zero_le _, by simp⟩
  unfold TailReader.run Observed.ofResults
  dsimp only
  split
  · exact ⟨rfl, ⟨[], rfl, blank⟩, nofun, fun _ => rfl⟩
  next enabled =>
    have pos := Nat.pos_of_ne_zero enabled
    have short : 0 < profile.limit (MuxFrame.maxPayloadLen chunkSize) := by
      unfold TailProfile.limit
      split
      · exact Nat.one_pos
      · exact pos
    exact blank.loop rfl short pos results

end ParallaX.Mux
