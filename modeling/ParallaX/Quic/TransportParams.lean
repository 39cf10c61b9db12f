import Mathlib.Data.List.GetD
import ParallaX.Quic.Streams
import Mathlib.Data.List.Rotate

/-!
# The transport parameters on the wire

The blob of (id, length, body) triples, its two encoders and its one parser.
-/

namespace ParallaX.Quic

open List Varint

@[match_pattern] abbrev TP_MAX_IDLE_TIMEOUT : Nat := 0x01
@[match_pattern] abbrev TP_INITIAL_MAX_DATA : Nat := 0x04
@[match_pattern] abbrev TP_INITIAL_MAX_STREAM_DATA_BIDI_LOCAL : Nat := 0x05
@[match_pattern] abbrev TP_INITIAL_MAX_STREAM_DATA_BIDI_REMOTE : Nat := 0x06
@[match_pattern] abbrev TP_INITIAL_MAX_STREAM_DATA_UNI : Nat := 0x07
@[match_pattern] abbrev TP_INITIAL_MAX_STREAMS_BIDI : Nat := 0x08
@[match_pattern] abbrev TP_INITIAL_MAX_STREAMS_UNI : Nat := 0x09
@[match_pattern] abbrev TP_ACK_DELAY_EXPONENT : Nat := 0x0a
@[match_pattern] abbrev TP_MAX_ACK_DELAY : Nat := 0x0b
@[match_pattern] abbrev TP_ACTIVE_CONNECTION_ID_LIMIT : Nat := 0x0e
@[match_pattern] abbrev TP_INITIAL_SOURCE_CONNECTION_ID : Nat := 0x0f

def SAFARI_TP_ORDER : List Nat :=
  [TP_MAX_IDLE_TIMEOUT, TP_INITIAL_MAX_DATA, TP_INITIAL_MAX_STREAM_DATA_BIDI_LOCAL,
    TP_INITIAL_MAX_STREAM_DATA_BIDI_REMOTE, TP_INITIAL_MAX_STREAM_DATA_UNI,
    TP_INITIAL_MAX_STREAMS_UNI, TP_ACTIVE_CONNECTION_ID_LIMIT,
    TP_INITIAL_SOURCE_CONNECTION_ID]

def SAFARI_MAX_IDLE_TIMEOUT_MS : Nat := 300000
def MIN_ACTIVE_CONNECTION_ID_LIMIT : Nat := 2
def MAX_STREAMS_LIMIT : Nat := 2 ^ 60

inductive ParamError where
  | truncated
  | malformed
  | duplicate
  | invalid
deriving DecidableEq, Repr

structure WireParameters extends TransportParameters where
  activeConnectionIdLimit : Nat
  initialSrcCid : List UInt8
deriving DecidableEq, Repr

/-! ## The parser -/

def readVarintBody (body : List UInt8) : Except ParamError Nat :=
  match Varint.decode body with
  | none => .error .truncated
  | some (value, n) => if n ≠ body.length then .error .malformed else .ok value

def readMaxStreams (body : List UInt8) : Except ParamError Nat := do
  let value ← readVarintBody body
  if MAX_STREAMS_LIMIT < value then .error .invalid else .ok value

namespace WireParameters

def defaults : WireParameters :=
  { initialMaxData := 0
    initialMaxStreamDataBidiLocal := 0
    initialMaxStreamDataBidiRemote := 0
    initialMaxStreamDataUni := 0
    initialMaxStreamsBidi := 0
    initialMaxStreamsUni := 0
    ackDelayExponent := 3
    maxAckDelayMs := 25
    activeConnectionIdLimit := 2
    initialSrcCid := [] }

/-- One turn of the loop, on the id and the body of a triple. -/
def readParam (tp : WireParameters) (id : Nat) (body : List UInt8) :
    Except ParamError WireParameters :=
  match id with
  | TP_INITIAL_MAX_DATA => do
    return { tp with initialMaxData := ← readVarintBody body }
  | TP_INITIAL_MAX_STREAM_DATA_BIDI_LOCAL => do
    return { tp with initialMaxStreamDataBidiLocal := ← readVarintBody body }
  | TP_INITIAL_MAX_STREAM_DATA_BIDI_REMOTE => do
    return { tp with initialMaxStreamDataBidiRemote := ← readVarintBody body }
  | TP_INITIAL_MAX_STREAM_DATA_UNI => do
    return { tp with initialMaxStreamDataUni := ← readVarintBody body }
  | TP_INITIAL_MAX_STREAMS_BIDI => do
    return { tp with initialMaxStreamsBidi := ← readMaxStreams body }
  | TP_INITIAL_MAX_STREAMS_UNI => do
    return { tp with initialMaxStreamsUni := ← readMaxStreams body }
  | TP_ACK_DELAY_EXPONENT => do
    let value ← readVarintBody body
    if 20 < value then .error .invalid
    else return { tp with ackDelayExponent := value }
  | TP_MAX_ACK_DELAY => do
    let value ← readVarintBody body
    if 2 ^ 14 ≤ value then .error .invalid
    else return { tp with maxAckDelayMs := value }
  | TP_ACTIVE_CONNECTION_ID_LIMIT => do
    let value ← readVarintBody body
    if value < MIN_ACTIVE_CONNECTION_ID_LIMIT then .error .invalid
    else return { tp with activeConnectionIdLimit := value }
  | TP_INITIAL_SOURCE_CONNECTION_ID =>
    if MAX_CONNECTION_ID_LEN < body.length then .error .invalid
    else return { tp with initialSrcCid := body }
  | _ => return tp

/-- The loop over the unread bytes. Every turn reads at least two bytes, so
the length of the blob is fuel enough. -/
def readLoop : Nat → List Nat → WireParameters → List UInt8 →
    Except ParamError WireParameters
  | 0, _, tp, _ => .ok tp
  | fuel + 1, seen, tp, rest =>
    if rest = [] then .ok tp
    else
      match Varint.decode rest with
      | none => .error .truncated
      | some (id, n) =>
        if id ∈ seen then .error .duplicate
        else
          match Varint.decode (rest.drop n) with
          | none => .error .truncated
          | some (len, m) =>
            let tail := rest.drop (n + m)
            if tail.length < len then .error .truncated
            else
              match tp.readParam id (tail.take len) with
              | .error failure => .error failure
              | .ok next => next.readLoop fuel (id :: seen) (tail.drop len)

def read (blob : List UInt8) : Except ParamError WireParameters :=
  defaults.readLoop blob.length [] blob

/-! ## What is accepted -/

/-- The bounds of the parameters that are numbers. -/
def inRange (id value : Nat) : Bool :=
  match id with
  | TP_INITIAL_MAX_STREAMS_BIDI | TP_INITIAL_MAX_STREAMS_UNI => value ≤ MAX_STREAMS_LIMIT
  | TP_ACK_DELAY_EXPONENT => value ≤ 20
  | TP_MAX_ACK_DELAY => value < 2 ^ 14
  | TP_ACTIVE_CONNECTION_ID_LIMIT => MIN_ACTIVE_CONNECTION_ID_LIMIT ≤ value
  | _ => true

/-- The parameters that are read and are numbers. -/
def NUMBERS : List Nat :=
  [TP_INITIAL_MAX_DATA, TP_INITIAL_MAX_STREAM_DATA_BIDI_LOCAL,
    TP_INITIAL_MAX_STREAM_DATA_BIDI_REMOTE, TP_INITIAL_MAX_STREAM_DATA_UNI,
    TP_INITIAL_MAX_STREAMS_BIDI, TP_INITIAL_MAX_STREAMS_UNI,
    TP_ACK_DELAY_EXPONENT, TP_MAX_ACK_DELAY, TP_ACTIVE_CONNECTION_ID_LIMIT]

def RECOGNISED : List Nat := TP_INITIAL_SOURCE_CONNECTION_ID :: NUMBERS

def Accepts (id : Nat) (body : List UInt8) : Prop :=
  (id ∈ NUMBERS → ∃ value,
      Varint.decode body = some (value, body.length) ∧ inRange id value) ∧
    (id = TP_INITIAL_SOURCE_CONNECTION_ID → body.length ≤ MAX_CONNECTION_ID_LEN)

def number (body : List UInt8) : Nat := ((Varint.decode body).map (·.1)).getD 0

def store (tp : WireParameters) (triple : Nat × List UInt8) : WireParameters :=
  let put (id old : Nat) : Nat :=
    if triple.1 = id then number triple.2 else old
  { initialMaxData := put TP_INITIAL_MAX_DATA tp.initialMaxData
    initialMaxStreamDataBidiLocal :=
      put TP_INITIAL_MAX_STREAM_DATA_BIDI_LOCAL tp.initialMaxStreamDataBidiLocal
    initialMaxStreamDataBidiRemote :=
      put TP_INITIAL_MAX_STREAM_DATA_BIDI_REMOTE tp.initialMaxStreamDataBidiRemote
    initialMaxStreamDataUni := put TP_INITIAL_MAX_STREAM_DATA_UNI tp.initialMaxStreamDataUni
    initialMaxStreamsBidi := put TP_INITIAL_MAX_STREAMS_BIDI tp.initialMaxStreamsBidi
    initialMaxStreamsUni := put TP_INITIAL_MAX_STREAMS_UNI tp.initialMaxStreamsUni
    ackDelayExponent := put TP_ACK_DELAY_EXPONENT tp.ackDelayExponent
    maxAckDelayMs := put TP_MAX_ACK_DELAY tp.maxAckDelayMs
    activeConnectionIdLimit := put TP_ACTIVE_CONNECTION_ID_LIMIT tp.activeConnectionIdLimit
    initialSrcCid :=
      if triple.1 = TP_INITIAL_SOURCE_CONNECTION_ID then triple.2
      else tp.initialSrcCid }

def collect (triples : List (Nat × List UInt8)) : WireParameters := triples.foldl store defaults

variable {tp result : WireParameters} {id value : Nat} {body : List UInt8}

theorem readVarintBody_eq_ok :
    readVarintBody body = .ok value ↔ Varint.decode body = some (value, body.length) := by
  unfold readVarintBody
  rcases Varint.decode body with _ | ⟨_, n⟩
  · simp
  · by_cases whole : n = body.length
    · simp [whole]
    · simp [whole]

theorem ite_error_eq_ok {bad : Prop} [Decidable bad] :
    (if bad then .error .invalid else .ok tp : Except ParamError _) =
        .ok result ↔ ¬bad ∧ tp = result := by
  by_cases wrong : bad <;> simp [wrong]

theorem mem_recognised : id ∈ RECOGNISED ↔ id ∈ [0x0f, 4, 5, 6, 7, 8, 9, 0x0a, 0x0b, 0x0e] :=
  Iff.rfl

theorem accepts_of_unknown (unknown : id ∉ RECOGNISED) : Accepts id body := by
  rw [RECOGNISED, mem_cons, not_or] at unknown
  exact ⟨fun known => absurd known unknown.2, fun known => absurd known unknown.1⟩

theorem store_of_unknown (unknown : id ∉ RECOGNISED) : tp.store (id, body) = tp := by
  simp only [RECOGNISED, NUMBERS, mem_cons, not_mem_nil, not_or] at unknown
  simp [store, unknown]

theorem readParam_eq_ok :
    tp.readParam id body = .ok result ↔ Accepts id body ∧ tp.store (id, body) = result := by
  by_cases unknown : id ∉ RECOGNISED
  · have kept : tp.readParam id body = .ok tp := by
      rw [mem_recognised] at unknown
      unfold readParam
      split <;> simp_all [pure, Except.pure]
    rw [kept, store_of_unknown unknown]
    simp [accepts_of_unknown unknown]
  cases read : readVarintBody body with
  | error =>
    have none (value : Nat) : Varint.decode body ≠ some (value, body.length) := by
      rw [ne_eq, ← readVarintBody_eq_ok, read]
      simp
    unfold readParam
    split <;> simp_all [readMaxStreams, Accepts, NUMBERS, store, bind,
      Except.bind, pure, Except.pure, ite_error_eq_ok]
  | ok value =>
    have whole := readVarintBody_eq_ok.mp read
    have front : number body = value := by simp [number, whole]
    by_cases many : MAX_STREAMS_LIMIT < value
    · have beyond := not_le.mpr many
      have streams : readMaxStreams body = .error .invalid := by
        simp [readMaxStreams, read, many, bind, Except.bind]
      unfold readParam
      split <;> simp_all [Accepts, NUMBERS, store, inRange, bind,
        Except.bind, pure, Except.pure, ite_error_eq_ok]
    · have within := not_lt.mp many
      have streams : readMaxStreams body = .ok value := by
        simp [readMaxStreams, read, many, bind, Except.bind]
      unfold readParam
      split <;> simp_all [Accepts, NUMBERS, store, inRange, bind,
        Except.bind, pure, Except.pure, ite_error_eq_ok]

/-! ## The blob as a list of triples -/

inductive Framed : List (Nat × List UInt8) → List UInt8 → Prop
  | nil : Framed [] []
  | cons {id : Nat} {body idBytes lenBytes blob : List UInt8}
      {triples : List (Nat × List UInt8)}
      (isId : Varint.decode idBytes = some (id, idBytes.length))
      (isLen : Varint.decode lenBytes = some (body.length, lenBytes.length))
      (framed : Framed triples blob) :
      Framed ((id, body) :: triples) (idBytes ++ (lenBytes ++ (body ++ blob)))

/-- The ids are distinct, and the recognised bodies satisfy their
constraints. -/
def WellFormed (triples : List (Nat × List UInt8)) : Prop :=
  (triples.map (·.1)).Nodup ∧ ∀ triple ∈ triples, Accepts triple.1 triple.2

variable {triples others : List (Nat × List UInt8)}
  {blob otherBlob : List UInt8} {fuel : Nat} {seen : List Nat}

/-- A run over framed triples accepts them if their ids are new and their
bodies fit, and stores them in turn. -/
theorem readLoop_framed (framed : Framed triples blob) (enough : blob.length ≤ fuel) :
    tp.readLoop fuel seen blob = .ok result ↔
      (WellFormed triples ∧ ∀ triple ∈ triples, triple.1 ∉ seen) ∧
        triples.foldl store tp = result := by
  induction framed generalizing fuel seen tp with
  | nil => cases fuel <;> simp [readLoop, WellFormed]
  | @cons id body idBytes lenBytes blob _ isId isLen _ ih =>
    obtain ⟨nonempty, -, idRead⟩ := decode_take_append isId (lenBytes ++ (body ++ blob))
    obtain ⟨-, -, lenRead⟩ := decode_take_append isLen (body ++ blob)
    rw [take_length] at idRead lenRead
    simp only [length_append] at enough
    obtain ⟨fuel, rfl⟩ : ∃ less, fuel = less + 1 := ⟨fuel - 1, by omega⟩
    have some_left : idBytes ++ (lenBytes ++ (body ++ blob)) ≠ [] :=
      append_ne_nil_of_left_ne_nil (ne_nil_of_length_pos nonempty) _
    have tail : (idBytes ++ (lenBytes ++ (body ++ blob))).drop
        (idBytes.length + lenBytes.length) = body ++ blob := by
      rw [← drop_drop, drop_left, drop_left]
    rw [readLoop, if_neg some_left, idRead]
    simp only [drop_left, lenRead, tail, take_left,
      length_append, if_neg (not_lt.mpr (Nat.le_add_right _ _))]
    by_cases repeated : id ∈ seen
    · simp [repeated]
    · rw [if_neg repeated]
      have known := @readParam_eq_ok tp (tp.store (id, body)) id body
      cases read : tp.readParam id body with
      | error => simp_all [WellFormed]
      | ok =>
        obtain ⟨_, rfl⟩ := readParam_eq_ok.mp read
        rw [ih (by omega)]
        simp only [WellFormed, map_cons, nodup_cons,
          mem_cons, foldl_cons, not_or, mem_map, not_exists,
          not_and]
        grind

theorem framed_of_readLoop (enough : blob.length ≤ fuel)
    (ok : tp.readLoop fuel seen blob = .ok result) : ∃ triples, Framed triples blob := by
  induction fuel generalizing seen tp blob with
  | zero =>
    obtain rfl := eq_nil_of_length_eq_zero (Nat.le_zero.mp enough)
    exact ⟨[], .nil⟩
  | succ _ ih =>
    unfold readLoop at ok
    split at ok
    next empty => exact ⟨[], empty ▸ .nil⟩
    split at ok
    · cases ok
    next id n idRead =>
    split at ok
    · cases ok
    split at ok
    · cases ok
    next len m lenRead =>
    dsimp only at ok
    split at ok
    · cases ok
    next fits =>
    split at ok
    · cases ok
    obtain ⟨_, idFits, isId⟩ := decode_take_append idRead []
    obtain ⟨-, lenFits, isLen⟩ := decode_take_append lenRead []
    simp only [length_drop] at lenFits fits
    obtain ⟨_, framed⟩ := ih (by simp only [length_drop]; omega) ok
    have whole := @Framed.cons id ((blob.drop (n + m)).take len)
      (blob.take n) ((blob.drop n).take m) _ _ (by simpa [idFits] using isId)
      (by simpa [lenFits, min_eq_left (not_lt.mp fits)] using isLen)
      framed
    rw [take_append_drop, ← drop_drop, take_append_drop, take_append_drop] at whole
    exact ⟨_, whole⟩

theorem read_framed (framed : Framed triples blob) :
    read blob = .ok result ↔ WellFormed triples ∧ collect triples = result := by
  unfold read collect
  rw [readLoop_framed framed le_rfl]
  simp

/-! ## Order and unknown ids -/

/-- Triples of distinct ids can be stored in either order. -/
theorem store_comm {one two : Nat × List UInt8} (distinct : one.1 ≠ two.1) :
    (tp.store one).store two = (tp.store two).store one := by
  unfold store
  simp only [mk.injEq, TransportParameters.mk.injEq]
  and_intros <;> grind

def recognised (triples : List (Nat × List UInt8)) : List (Nat × List UInt8) :=
  triples.filter (·.1 ∈ RECOGNISED)

theorem collect_perm (distinct : (triples.map (·.1)).Nodup)
    (same : triples.Perm others) : collect triples = collect others := by
  apply same.foldl_eq'
  intro one isOne two isTwo _
  by_cases equal : one = two
  · rw [equal]
  · exact store_comm fun ids =>
      equal (inj_on_of_nodup_map distinct isOne isTwo ids)

theorem read_perm (framed : Framed triples blob)
    (otherFramed : Framed others otherBlob) (same : triples.Perm others) :
    read blob = .ok result ↔ read otherBlob = .ok result := by
  rw [read_framed framed, read_framed otherFramed]
  simp only [WellFormed, (same.map _).nodup_iff, same.mem_iff]
  refine and_congr_right fun wf => ?_
  rw [collect_perm ((same.map _).nodup_iff.mpr wf.1) same]

theorem foldl_recognised : (recognised triples).foldl store tp = triples.foldl store tp := by
  induction triples generalizing tp with
  | nil => rfl
  | cons triple _ ih =>
    by_cases known : triple.1 ∈ RECOGNISED
    · simp only [recognised, filter_cons, known, decide_true, if_true, foldl_cons]
      exact ih
    · simp only [recognised, filter_cons, known, decide_false, foldl_cons]
      rw [store_of_unknown known]
      exact ih

theorem read_recognised (distinct : (triples.map (·.1)).Nodup) (framed : Framed triples blob)
    (otherFramed : Framed (recognised triples) otherBlob) :
    read blob = .ok result ↔ read otherBlob = .ok result := by
  have others : ((recognised triples).map (·.1)).Nodup := distinct.sublist (filter_sublist.map _)
  rw [read_framed framed, read_framed otherFramed, collect, collect, foldl_recognised]
  refine and_congr_left fun _ => ?_
  rw [WellFormed, WellFormed, and_iff_right distinct, and_iff_right others]
  simp only [recognised, mem_filter, decide_eq_true_eq]
  constructor
  · exact fun all triple member => all triple member.1
  · intro all triple member
    by_cases known : triple.1 ∈ RECOGNISED
    · exact all triple ⟨member, known⟩
    · exact accepts_of_unknown known

/-! ## The encoders -/

def putParamBytes (id : Nat) (value : List UInt8) : List UInt8 :=
  Varint.encode id ++ Varint.encode value.length ++ value

def putParam (id value : Nat) : List UInt8 :=
  Varint.encode id ++ Varint.encode (Varint.size value) ++ Varint.encode value

def encodeServer (tp : WireParameters) : List UInt8 :=
  putParam TP_INITIAL_MAX_DATA tp.initialMaxData ++
    putParam TP_INITIAL_MAX_STREAM_DATA_BIDI_LOCAL tp.initialMaxStreamDataBidiLocal ++
    putParam TP_INITIAL_MAX_STREAM_DATA_BIDI_REMOTE tp.initialMaxStreamDataBidiRemote ++
    putParam TP_INITIAL_MAX_STREAM_DATA_UNI tp.initialMaxStreamDataUni ++
    putParam TP_INITIAL_MAX_STREAMS_BIDI tp.initialMaxStreamsBidi ++
    putParam TP_INITIAL_MAX_STREAMS_UNI tp.initialMaxStreamsUni ++
    putParam TP_ACTIVE_CONNECTION_ID_LIMIT tp.activeConnectionIdLimit ++
    putParamBytes TP_INITIAL_SOURCE_CONNECTION_ID tp.initialSrcCid

/-- The value that the client writes for a number. -/
def safariValue (tp : WireParameters) (id : Nat) : Nat :=
  match id with
  | TP_MAX_IDLE_TIMEOUT => SAFARI_MAX_IDLE_TIMEOUT_MS
  | TP_INITIAL_MAX_DATA => tp.initialMaxData
  | TP_INITIAL_MAX_STREAM_DATA_BIDI_LOCAL => tp.initialMaxStreamDataBidiLocal
  | TP_INITIAL_MAX_STREAM_DATA_BIDI_REMOTE => tp.initialMaxStreamDataBidiRemote
  | TP_INITIAL_MAX_STREAM_DATA_UNI => tp.initialMaxStreamDataUni
  | TP_INITIAL_MAX_STREAMS_UNI => tp.initialMaxStreamsUni
  | _ => tp.activeConnectionIdLimit

def encodeSafariClientFrom (tp : WireParameters) (start : Nat) : List UInt8 :=
  (List.range SAFARI_TP_ORDER.length).flatMap fun i =>
    let id := SAFARI_TP_ORDER.getD ((start + i) % SAFARI_TP_ORDER.length) 0
    if id = TP_INITIAL_SOURCE_CONNECTION_ID then
      putParamBytes id tp.initialSrcCid
    else putParam id (tp.safariValue id)

/-- The number that the encoders write for an id. -/
def written (tp : WireParameters) (id : Nat) : Nat :=
  if id = TP_INITIAL_MAX_STREAMS_BIDI then tp.initialMaxStreamsBidi
  else tp.safariValue id

/-- The triple that the encoders write for an id. -/
def emitted (tp : WireParameters) (id : Nat) : Nat × List UInt8 :=
  (id, if id = TP_INITIAL_SOURCE_CONNECTION_ID then tp.initialSrcCid
    else Varint.encode (tp.written id))

/-- The ids that one encoder or the other writes. -/
def EMITTED : List Nat := TP_INITIAL_MAX_STREAMS_BIDI :: SAFARI_TP_ORDER

structure Valid (tp : WireParameters) : Prop where
  numbers : ∀ id ∈ EMITTED, tp.written id ≤ Varint.MAX ∧ inRange id (tp.written id)
  exponent : inRange TP_ACK_DELAY_EXPONENT tp.ackDelayExponent
  delay : inRange TP_MAX_ACK_DELAY tp.maxAckDelayMs
  cid : tp.initialSrcCid.length ≤ MAX_CONNECTION_ID_LEN

theorem decode_encode (small : value < 2 ^ 62) :
    Varint.decode (Varint.encode value) = some (value, (Varint.encode value).length) := by
  simpa using decode_encode_append small []

theorem number_encode (small : value < 2 ^ 62) : number (Varint.encode value) = value := by
  simp [number, decode_encode small]

theorem putParam_eq : putParam id value = putParamBytes id (Varint.encode value) := by
  simp [putParam, putParamBytes]

variable {ids : List Nat}

namespace Valid

variable (valid : tp.Valid)
include valid

theorem written_lt (listed : id ∈ EMITTED) : tp.written id < 2 ^ 62 :=
  lt_of_le_of_lt (valid.numbers id listed).1 (by decide)

theorem accepts_emitted (listed : id ∈ EMITTED) : Accepts id (tp.emitted id).2 := by
  constructor
  · intro isNumber
    have notCid : id ≠ TP_INITIAL_SOURCE_CONNECTION_ID := by
      rintro rfl
      exact absurd isNumber (by decide)
    rw [emitted, if_neg notCid]
    exact ⟨_, decode_encode (valid.written_lt listed), (valid.numbers id listed).2⟩
  · intro isCid
    rw [emitted, if_pos isCid]
    exact valid.cid

theorem length_emitted : (tp.emitted id).2.length < 2 ^ 62 := by
  unfold emitted
  split_ifs
  · exact valid.cid.trans_lt (by decide)
  · rw [length_encode]
    unfold Varint.size
    split_ifs <;> decide

theorem framed_emitted (listed : ∀ id ∈ ids, id ∈ EMITTED) :
    Framed (ids.map tp.emitted) (ids.flatMap fun id => putParamBytes id (tp.emitted id).2) := by
  induction ids with
  | nil => exact .nil
  | cons id _ ih =>
    have small := (by decide : ∀ id ∈ EMITTED, id < 2 ^ 62) id (listed id mem_cons_self)
    rw [map_cons, flatMap_cons, putParamBytes, append_assoc, append_assoc]
    exact .cons (decode_encode small) (decode_encode valid.length_emitted)
      (ih fun other member => listed other (mem_cons_of_mem _ member))

/-- Whatever is emitted, in any order, is stored. -/
theorem read_emitted (distinct : ids.Nodup) (listed : ∀ id ∈ ids, id ∈ EMITTED) :
    read (ids.flatMap fun id => putParamBytes id (tp.emitted id).2) =
      .ok (collect (ids.map tp.emitted)) := by
  refine (read_framed (valid.framed_emitted listed)).mpr ⟨⟨?_, ?_⟩, rfl⟩
  · simpa [emitted, Function.comp_def] using distinct
  · simp only [forall_mem_map]
    exact fun id member => valid.accepts_emitted (listed id member)

/-- The fields that the encoders write are read back. -/
theorem stored :
    collect ([4, 5, 6, 7, 8, 9, 0x0e, 0x0f].map tp.emitted) =
        { tp with ackDelayExponent := 3, maxAckDelayMs := 25 } ∧
      collect (SAFARI_TP_ORDER.map tp.emitted) =
        { tp with initialMaxStreamsBidi := 0, ackDelayExponent := 3, maxAckDelayMs := 25 } := by
  have number (id) (listed : id ∈ EMITTED) := number_encode (valid.written_lt listed)
  simp [EMITTED, SAFARI_TP_ORDER, written, safariValue] at number
  simp [collect, SAFARI_TP_ORDER, emitted, store, written, safariValue, number, defaults]

theorem read_encodeServer :
    read tp.encodeServer = .ok { tp with ackDelayExponent := 3, maxAckDelayMs := 25 } := by
  rw [← valid.stored.1, ← valid.read_emitted (by decide) (by decide)]
  simp [encodeServer, putParam_eq, emitted, written, safariValue]

theorem read_encodeSafariClientFrom (start : Nat) :
    read (tp.encodeSafariClientFrom start) =
      .ok { tp with initialMaxStreamsBidi := 0, ackDelayExponent := 3, maxAckDelayMs := 25 } := by
  have rotated := SAFARI_TP_ORDER.rotate_perm start
  have distinct := rotated.nodup_iff.mpr (by decide)
  have ids : ((List.range SAFARI_TP_ORDER.length).map fun i =>
      SAFARI_TP_ORDER.getD ((start + i) % SAFARI_TP_ORDER.length) 0) =
      SAFARI_TP_ORDER.rotate start := by
    apply ext_getElem
    · simp
    · intro i _ _
      simp only [getElem_map, getElem_range, getElem_rotate, add_comm start]
      rw [getD_eq_getElem]
  have bytes : tp.encodeSafariClientFrom start =
      (SAFARI_TP_ORDER.rotate start).flatMap fun id =>
        putParamBytes id (tp.emitted id).2 := by
    rw [encodeSafariClientFrom, ← flatMap_map (fun i =>
      SAFARI_TP_ORDER.getD ((start + i) % SAFARI_TP_ORDER.length) 0)
      fun id => if id = TP_INITIAL_SOURCE_CONNECTION_ID then
        putParamBytes id tp.initialSrcCid else putParam id (tp.safariValue id),
      ids]
    refine flatMap_congr fun id member => ?_
    have notBidi := (by decide : ∀ id ∈ SAFARI_TP_ORDER, id ≠ TP_INITIAL_MAX_STREAMS_BIDI) id
        (rotated.mem_iff.mp member)
    rw [putParam_eq, emitted, written, if_neg notBidi]
    exact (apply_ite (putParamBytes id) ..).symm
  rw [bytes, valid.read_emitted distinct fun id member =>
    mem_cons_of_mem _ (rotated.mem_iff.mp member), ← valid.stored.2]
  congr 1
  refine collect_perm ?_ (rotated.map _)
  simpa [emitted, Function.comp_def] using distinct

end Valid

theorem read_spec :
    (∀ blob, (∃ tp, read blob = .ok tp) ↔ ∃ triples, Framed triples blob ∧ WellFormed triples) ∧
    (∀ triples others blob otherBlob result, Framed triples blob →
      Framed others otherBlob → triples.Perm others →
      (read blob = .ok result ↔ read otherBlob = .ok result)) ∧
    (∀ triples blob otherBlob result, (triples.map (·.1)).Nodup →
      Framed triples blob → Framed (recognised triples) otherBlob →
      (read blob = .ok result ↔ read otherBlob = .ok result)) ∧
    ∀ tp : WireParameters, tp.Valid →
      read tp.encodeServer = .ok { tp with ackDelayExponent := 3, maxAckDelayMs := 25 } ∧
      ∀ start, read (tp.encodeSafariClientFrom start) =
        .ok { tp with initialMaxStreamsBidi := 0, ackDelayExponent := 3, maxAckDelayMs := 25 } := by
  refine ⟨fun blob => ⟨?_, ?_⟩, ?_, ?_, ?_⟩
  · rintro ⟨tp, accepted⟩
    obtain ⟨triples, framed⟩ := framed_of_readLoop le_rfl accepted
    exact ⟨triples, framed, ((read_framed framed).mp accepted).1⟩
  · rintro ⟨_, framed, wellFormed⟩
    exact ⟨_, (read_framed framed).mpr ⟨wellFormed, rfl⟩⟩
  · exact fun _ _ _ _ _ framed otherFramed => read_perm framed otherFramed
  · exact fun _ _ _ _ distinct framed => read_recognised distinct framed
  · exact fun tp valid =>
      ⟨valid.read_encodeServer, valid.read_encodeSafariClientFrom⟩

def exampleParameters : WireParameters :=
  { initialMaxData := 1000
    initialMaxStreamDataBidiLocal := 70000
    initialMaxStreamDataBidiRemote := 3000
    initialMaxStreamDataUni := 4000
    initialMaxStreamsBidi := 5
    initialMaxStreamsUni := 6
    ackDelayExponent := 3
    maxAckDelayMs := 25
    activeConnectionIdLimit := 4
    initialSrcCid := [1, 2, 3] }

/-- Both round trips with fields that differ, and a blob with its two triples
swapped around one of an unknown id. -/
theorem read_spec_rotated :
    read exampleParameters.encodeServer = .ok exampleParameters ∧
    read (exampleParameters.encodeSafariClientFrom 3) =
      .ok { exampleParameters with initialMaxStreamsBidi := 0 } ∧
    read [0x09, 1, 6, 0x1b, 1, 0xff, 0x04, 1, 7] =
      .ok { defaults with initialMaxData := 7, initialMaxStreamsUni := 6 } := by
  have valid : exampleParameters.Valid := by constructor <;> decide
  have one id value {triples blob} (isId : Varint.decode [id] = some (id.toNat, 1))
      (framed : Framed triples blob) :
      Framed ((id.toNat, [value]) :: triples) (id :: 1 :: value :: blob) :=
    @Framed.cons _ [value] [id] [1] _ _ isId rfl framed
  have mixed := one 9 6 rfl (one 0x1b 0xff rfl (one 4 7 rfl .nil))
  have sorted := one 4 7 rfl (one 9 6 rfl (one 0x1b 0xff rfl .nil))
  have known := one 4 7 rfl (one 9 6 rfl .nil)
  obtain ⟨-, permuted, ignored, trips⟩ := read_spec
  refine ⟨(trips _ valid).1, (trips _ valid).2 3, ?_⟩
  exact (permuted _ _ _ _ _ mixed sorted (by decide)).mpr
    ((ignored _ _ _ _ (by decide) sorted known).mpr (by decide))

theorem read_encodeServer_drops_exponent :
    ∃ tp : WireParameters, tp.Valid ∧ read tp.encodeServer ≠ .ok tp := by
  have valid : { defaults with ackDelayExponent := 5 }.Valid := by constructor <;> decide
  refine ⟨_, valid, ?_⟩
  decide

end WireParameters

end ParallaX.Quic
