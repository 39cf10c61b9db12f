import ParallaX.Quic.Frame
import Mathlib.Data.List.Chain

/-!
# Frame sequences round trip

Every frame except PADDING delimits itself, so its decoder consumes exactly its
encoding. A PADDING run extends to the first byte that is not zero, which is
the type byte of the next frame or the end of the payload; two adjacent PADDING
frames would be read as one.
-/

namespace ParallaX.Quic

open ParallaX.Codec List Cursor

/-! ## Primitive readers -/

variable {value : Nat} {data : List UInt8} {frames : List Frame} (fin : Bool)

theorem readVarint_reads (representable : value < 2 ^ 62) :
    Reads readVarint (Varint.encode value) value := by
  intro cursor suffix inBounds shape
  have decoded : Varint.decode cursor.rest = some (value, Varint.size value) := by
    rw [shape]
    exact Varint.decode_encode_append representable suffix
  unfold readVarint
  rw [if_neg (not_lt.mpr inBounds), decoded, Varint.length_encode]

theorem take_reads (bytes : List UInt8) : Reads (take bytes.length) bytes bytes := by
  intro cursor _ inBounds shape
  have advanced := inBounds.advance shape
  have enough : ¬ cursor.buf.length < cursor.pos + bytes.length := not_lt.mpr advanced
  unfold take
  rw [if_neg enough, shape, take_left]

theorem takeLen_reads {bytes : List UInt8} (representable : bytes.length < 2 ^ 62) :
    Reads (readVarintLen >>= take) (Varint.encode bytes.length ++ bytes) bytes :=
  .bind (readVarint_reads representable) (take_reads bytes)

theorem readU64Be_reads (bound : value < 2 ^ 64) :
    Reads readU64Be (Varint.toBeBytes 8 value) value := by
  have folded : Varint.ofBeBytes 0 (Varint.toBeBytes 8 value) = value := by
    rw [Varint.ofBeBytes_toBeBytes, zero_mul, zero_add]
    exact Nat.mod_eq_of_lt bound
  have taken : Reads (take 8) (Varint.toBeBytes 8 value) (Varint.toBeBytes 8 value) := by
    simpa using take_reads (Varint.toBeBytes 8 value)
  have mapped := taken.map (Varint.ofBeBytes 0)
  rw [folded] at mapped
  exact mapped

theorem parseCid_reads {cid : List UInt8}
    (cidLength : 1 ≤ cid.length ∧ cid.length ≤ MAX_CONNECTION_ID_LEN) :
    Reads parseCid (UInt8.ofNat cid.length :: cid) cid := by
  intro cursor suffix inBounds shape
  have lengthByte : (UInt8.ofNat cid.length).toNat = cid.length := by
    have small : cid.length ≤ 20 := cidLength.2
    exact Nat.mod_eq_of_lt (by omega)
  have headShape : cursor.rest = [UInt8.ofNat cid.length] ++ (cid ++ suffix) := shape
  have peeked : peekByte cursor = (.ok cid.length, cursor) := by
    unfold peekByte
    rw [Cursor.getElem?_pos, headShape]
    simp [lengthByte]
  have taken :=
    take_reads cid (cursor.advance 1) suffix
      (inBounds.advance headShape) (rest_advance headShape)
  unfold parseCid
  rw [Reader.bind_ok peeked, if_pos cidLength]
  change take cid.length (cursor.advance 1) = _
  rw [taken, advance_advance, length_cons, add_comm]

/-- Inclusive ranges in descending order with at least one number between any
two of them. -/
structure Ack.WellFormed (ack : Ack) : Prop where
  largest_eq : ack.ranges.head?.map Prod.snd = some ack.largest
  largest_lt : ack.largest < 2 ^ 62
  delay_lt : ack.delay < 2 ^ 62
  low_le_high : ∀ range ∈ ack.ranges, range.1 ≤ range.2
  descending : ack.ranges.IsChain fun upper lower => lower.2 + 1 < upper.1
  ecn_lt :
    ∀ counts ∈ ack.ecn, counts.ect0 < 2 ^ 62 ∧ counts.ect1 < 2 ^ 62 ∧ counts.ce < 2 ^ 62

/-- The frames whose wire form carries every field. -/
def Frame.WellFormed : Frame → Prop
  | .padding count => 0 < count
  | .ping | .handshakeDone => True
  | .ack fields => fields.WellFormed
  | .resetStream id errorCode finalSize => id < 2 ^ 62 ∧ errorCode < 2 ^ 62 ∧ finalSize < 2 ^ 62
  | .stopSending id errorCode => id < 2 ^ 62 ∧ errorCode < 2 ^ 62
  | .crypto offset data => offset < 2 ^ 62 ∧ data.length < 2 ^ 62
  | .newToken token => token.length < 2 ^ 62
  | .stream id offset _ data => id < 2 ^ 62 ∧ offset < 2 ^ 62 ∧ data.length < 2 ^ 62
  | .maxData max => max < 2 ^ 62
  | .maxStreamData id max => id < 2 ^ 62 ∧ max < 2 ^ 62
  | .maxStreams _ max => max < 2 ^ 62
  | .dataBlocked limit => limit < 2 ^ 62
  | .streamDataBlocked id limit => id < 2 ^ 62 ∧ limit < 2 ^ 62
  | .streamsBlocked _ limit => limit < 2 ^ 62
  | .newConnectionId seq retirePriorTo cid resetToken =>
    seq < 2 ^ 62 ∧ retirePriorTo < 2 ^ 62 ∧
      (1 ≤ cid.length ∧ cid.length ≤ MAX_CONNECTION_ID_LEN) ∧
      resetToken.length = RESET_TOKEN_LEN
  | .retireConnectionId seq => seq < 2 ^ 62
  | .pathChallenge data | .pathResponse data => data < 2 ^ 64
  | .close fields =>
    fields.errorCode < 2 ^ 62 ∧ fields.frameType < 2 ^ 62 ∧
      fields.reason.length < 2 ^ 62 ∧
      (fields.application = true → fields.frameType = 0)

def Frame.isPadding : Frame → Bool
  | .padding _ => true
  | _ => false

/-! ## ACK ranges -/

variable {more : List (Nat × Nat)} {frame : Frame} {iter : Iter}
  {suffix : List UInt8}

private theorem two_mul_length_le {low high : Nat}
    (ordered : ∀ range ∈ (low, high) :: more, range.1 ≤ range.2)
    (descending :
      ((low, high) :: more).IsChain fun upper lower =>
        lower.2 + 1 < upper.1) : 2 * more.length ≤ low := by
  induction more generalizing low high with
  | nil => simp
  | cons next more ih =>
    obtain ⟨nextLow, nextHigh⟩ := next
    obtain ⟨gap, tailDescending⟩ := isChain_cons_cons.mp descending
    have tailBound : 2 * more.length ≤ nextLow :=
      ih (fun range member => ordered range (mem_cons_of_mem _ member))
        tailDescending
    have nextOrdered := ordered (nextLow, nextHigh) (by simp)
    simp only [length_cons] at gap ⊢
    omega

private theorem parseAckRanges_reads {low high : Nat}
    (ordered : ∀ range ∈ (low, high) :: more, range.1 ≤ range.2)
    (descending :
      ((low, high) :: more).IsChain fun upper lower =>
        lower.2 + 1 < upper.1)
    (bound : low < 2 ^ 62) :
    Reads (parseAckRanges more.length low) (encodeAckRanges low more) more := by
  induction more generalizing low high with
  | nil => exact .pure []
  | cons next _ ih =>
    obtain ⟨nextLow, nextHigh⟩ := next
    obtain ⟨gap, tailDescending⟩ := isChain_cons_cons.mp descending
    have nextOrdered := ordered (nextLow, nextHigh) (by simp)
    have tailReads :=
      ih (fun range member => ordered range (mem_cons_of_mem _ member))
        tailDescending (by simp only at gap; omega)
    have highBack : low - (low - nextHigh - 2 + 2) = nextHigh := by omega
    have lowBack : nextHigh - (nextHigh - nextLow) = nextLow := by omega
    apply Reads.bind (readVarint_reads (by omega))
    apply Reads.bind (readVarint_reads (by omega))
    rw [if_neg (by omega), if_neg (by omega)]
    simp only [highBack, lowBack]
    exact tailReads.map _

private theorem parseEcn_reads {ecn : Option EcnCounts}
    (bounds : ∀ counts ∈ ecn, counts.ect0 < 2 ^ 62 ∧ counts.ect1 < 2 ^ 62 ∧ counts.ce < 2 ^ 62) :
    Reads (parseEcn ecn.isSome) (encodeEcn ecn) ecn := by
  cases ecn with
  | none => exact .pure none
  | some counts =>
    obtain ⟨ect0, ect1, ce⟩ := bounds counts rfl
    exact
      (readVarint_reads ect0).bind <| (readVarint_reads ect1).bind <| (readVarint_reads ce).map _

private theorem parseAck_reads {ack : Ack} {firstLow firstHigh : Nat}
    (shape : ack.ranges = (firstLow, firstHigh) :: more) (wf : ack.WellFormed) :
    Reads (parseAck ack.ecn.isSome)
      (Varint.encode firstHigh ++
        (Varint.encode ack.delay ++
          (Varint.encode (ack.ranges.length - 1) ++
            (Varint.encode (firstHigh - firstLow) ++
              (encodeAckRanges firstLow more ++ encodeEcn ack.ecn)))))
      (.ack ack) := by
  obtain ⟨largest, _, _, _⟩ := ack
  obtain ⟨largestEq, largestLt, delayLt, ordered, descending, ecnLt⟩ := wf
  simp only at shape largestEq largestLt delayLt ordered descending ecnLt ⊢
  subst shape
  have highEq : firstHigh = largest := by simpa using largestEq
  subst highEq
  have lowLe := ordered (firstLow, firstHigh) (by simp)
  have countBound := two_mul_length_le ordered descending
  have lowBack : firstHigh - (firstHigh - firstLow) = firstLow := by omega
  apply Reads.bind (readVarint_reads largestLt)
  apply Reads.bind (readVarint_reads delayLt)
  apply Reads.bind (readVarint_reads (by simp only [length_cons]; omega))
  apply Reads.bind (readVarint_reads (by omega))
  rw [if_neg (by omega)]
  simp only [lowBack, length_cons, Nat.add_sub_cancel]
  apply Reads.bind (parseAckRanges_reads ordered descending (by omega))
  exact (parseEcn_reads ecnLt).map _

/-! ## One frame -/

/-- A frame other than PADDING is a non-zero type byte followed by fields that
its decoder consumes exactly. -/
def SelfDelimiting (frame : Frame) : Prop :=
  ∃ ty body,
    frame.encode = Varint.encode ty ++ body ∧ 0 < ty ∧ ty < 0x40 ∧ Reads (parseBody ty) body frame

private theorem streamType_cases (offset : Nat) (fin : Bool) :
    streamType offset fin = (if offset ≠ 0 then 0x0e else 0x0a) + (if fin then 1 else 0) := by
  unfold streamType
  by_cases zeroOffset : offset = 0
  · subst offset
    cases fin <;> rfl
  · rw [if_pos zeroOffset, if_pos zeroOffset]
    cases fin <;> rfl

private theorem parseStream_reads {id offset : Nat}
    (idLt : id < 2 ^ 62) (offsetLt : offset < 2 ^ 62) (dataLt : data.length < 2 ^ 62) :
    Reads (parseStream (streamType offset fin))
      (Varint.encode id ++
        ((if offset ≠ 0 then Varint.encode offset else []) ++ (Varint.encode data.length ++ data)))
      (.stream id offset fin data) := by
  have offsetReads :
      Reads (parseStreamOffset (streamType offset fin))
        (if offset ≠ 0 then Varint.encode offset else []) offset := by
    rw [streamType_cases]
    by_cases zeroOffset : offset = 0
    · subst offset
      cases fin <;> exact .pure 0
    · rw [if_pos zeroOffset, if_pos zeroOffset]
      cases fin <;> exact readVarint_reads offsetLt
  have dataReads :
      Reads (parseStreamData (streamType offset fin)) (Varint.encode data.length ++ data) data := by
    rw [streamType_cases]
    by_cases zeroOffset : offset = 0
    · subst offset
      cases fin <;> exact takeLen_reads dataLt
    · rw [if_pos zeroOffset]
      cases fin <;> exact takeLen_reads dataLt
  have finBit : decide (streamType offset fin &&& STREAM_FIN ≠ 0) = fin := by
    rw [streamType_cases]
    by_cases zeroOffset : offset = 0
    · subst offset
      cases fin <;> rfl
    · rw [if_pos zeroOffset]
      cases fin <;> rfl
  unfold parseStream
  rw [finBit]
  exact (readVarint_reads idLt).bind (offsetReads.bind (dataReads.map _))

private theorem stream_selfDelimiting {id offset : Nat}
    (idLt : id < 2 ^ 62) (offsetLt : offset < 2 ^ 62) (dataLt : data.length < 2 ^ 62) :
    SelfDelimiting (.stream id offset fin data) := by
  have bodyEq : parseBody (streamType offset fin) = parseStream (streamType offset fin) := by
    rw [streamType_cases]
    by_cases zeroOffset : offset = 0
    · subst offset
      cases fin <;> rfl
    · rw [if_pos zeroOffset]
      cases fin <;> rfl
  refine ⟨streamType offset fin, _, rfl, ?_, ?_, ?_⟩
  · rw [streamType_cases]
    split <;> omega
  · rw [streamType_cases]
    split <;> split <;> omega
  · rw [bodyEq]
    exact parseStream_reads fin idLt offsetLt dataLt

private theorem close_selfDelimiting {fields : Close}
    (codeLt : fields.errorCode < 2 ^ 62) (typeLt : fields.frameType < 2 ^ 62)
    (reasonLt : fields.reason.length < 2 ^ 62)
    (applicationType : fields.application = true → fields.frameType = 0) :
    SelfDelimiting (.close fields) := by
  obtain ⟨application, _, frameType, _⟩ := fields
  cases application with
  | false =>
    have typeReads := readVarint_reads typeLt
    exact ⟨FT_CONNECTION_CLOSE, _, rfl, by decide, by decide,
      (readVarint_reads codeLt).bind <| typeReads.bind <| (takeLen_reads reasonLt).map _⟩
  | true =>
    obtain rfl : frameType = 0 := applicationType rfl
    have typeReads : Reads (parseCloseFrameType true) [] 0 := Reads.pure 0
    exact ⟨FT_APPLICATION_CLOSE, _, rfl, by decide, by decide,
      (readVarint_reads codeLt).bind <| typeReads.bind <| (takeLen_reads reasonLt).map _⟩

private theorem ack_selfDelimiting
    {fields : Ack} (wf : fields.WellFormed) : SelfDelimiting (.ack fields) := by
  cases shape : fields.ranges with
  | nil =>
    have noLargest := wf.largest_eq
    rw [shape] at noLargest
    cases noLargest
  | cons first more =>
    obtain ⟨firstLow, firstHigh⟩ := first
    have bodyReads := parseAck_reads shape wf
    have encoded :
        (Frame.ack fields).encode =
          Varint.encode (if fields.ecn.isSome then FT_ACK_ECN else FT_ACK) ++
            (Varint.encode firstHigh ++
              (Varint.encode fields.delay ++
                (Varint.encode (fields.ranges.length - 1) ++
                  (Varint.encode (firstHigh - firstLow) ++
                    (encodeAckRanges firstLow more ++ encodeEcn fields.ecn))))) := by
      simp [Frame.encode, encodeAck, shape]
    refine ⟨_, _, encoded, ?_, ?_, ?_⟩
    · split <;> decide
    · split <;> decide
    · cases hasEcn : fields.ecn.isSome <;> rw [hasEcn] at bodyReads <;> exact bodyReads

theorem Frame.WellFormed.selfDelimiting (wf : frame.WellFormed)
    (notPadding : frame.isPadding = false) : SelfDelimiting frame := by
  cases frame with
  | padding => cases notPadding
  | ping => exact ⟨FT_PING, [], rfl, by decide, by decide, .pure _⟩
  | ack => exact ack_selfDelimiting wf
  | resetStream =>
    obtain ⟨idLt, codeLt, sizeLt⟩ := wf
    exact ⟨FT_RESET_STREAM, _, rfl, by decide, by decide, (readVarint_reads idLt).bind <|
        (readVarint_reads codeLt).bind <| (readVarint_reads sizeLt).map _⟩
  | stopSending =>
    obtain ⟨idLt, codeLt⟩ := wf
    exact ⟨FT_STOP_SENDING, _, rfl, by decide, by decide,
      (readVarint_reads idLt).bind <| (readVarint_reads codeLt).map _⟩
  | crypto =>
    obtain ⟨offsetLt, dataLt⟩ := wf
    exact ⟨FT_CRYPTO, _, rfl, by decide, by decide,
      (readVarint_reads offsetLt).bind <| (takeLen_reads dataLt).map _⟩
  | newToken => exact ⟨FT_NEW_TOKEN, _, rfl, by decide, by decide, (takeLen_reads wf).map _⟩
  | stream _ _ fin =>
    obtain ⟨idLt, offsetLt, dataLt⟩ := wf
    exact stream_selfDelimiting fin idLt offsetLt dataLt
  | maxData => exact ⟨FT_MAX_DATA, _, rfl, by decide, by decide, (readVarint_reads wf).map _⟩
  | maxStreamData =>
    obtain ⟨idLt, maxLt⟩ := wf
    exact ⟨FT_MAX_STREAM_DATA, _, rfl, by decide, by decide,
      (readVarint_reads idLt).bind <| (readVarint_reads maxLt).map _⟩
  | maxStreams dir =>
    cases dir with
    | bidi => exact ⟨FT_MAX_STREAMS_BIDI, _, rfl, by decide, by decide, (readVarint_reads wf).map _⟩
    | uni => exact ⟨FT_MAX_STREAMS_UNI, _, rfl, by decide, by decide, (readVarint_reads wf).map _⟩
  | dataBlocked =>
    exact ⟨FT_DATA_BLOCKED, _, rfl, by decide, by decide, (readVarint_reads wf).map _⟩
  | streamDataBlocked =>
    obtain ⟨idLt, limitLt⟩ := wf
    exact ⟨FT_STREAM_DATA_BLOCKED, _, rfl, by decide, by decide,
      (readVarint_reads idLt).bind <| (readVarint_reads limitLt).map _⟩
  | streamsBlocked dir =>
    cases dir with
    | bidi =>
      exact ⟨FT_STREAMS_BLOCKED_BIDI, _, rfl, by decide, by decide, (readVarint_reads wf).map _⟩
    | uni =>
      exact ⟨FT_STREAMS_BLOCKED_UNI, _, rfl, by decide, by decide, (readVarint_reads wf).map _⟩
  | newConnectionId _ _ _ resetToken =>
    obtain ⟨seqLt, retireLt, cidLength, tokenLength⟩ := wf
    have tokenReads : Reads (take RESET_TOKEN_LEN) resetToken resetToken := by
      rw [← tokenLength]
      exact take_reads resetToken
    exact ⟨FT_NEW_CONNECTION_ID, _, rfl, by decide, by decide, (readVarint_reads seqLt).bind <|
        (readVarint_reads retireLt).bind <| (parseCid_reads cidLength).bind <| tokenReads.map _⟩
  | retireConnectionId =>
    exact ⟨FT_RETIRE_CONNECTION_ID, _, rfl, by decide, by decide, (readVarint_reads wf).map _⟩
  | pathChallenge =>
    exact ⟨FT_PATH_CHALLENGE, _, rfl, by decide, by decide, (readU64Be_reads wf).map _⟩
  | pathResponse =>
    exact ⟨FT_PATH_RESPONSE, _, rfl, by decide, by decide, (readU64Be_reads wf).map _⟩
  | close =>
    obtain ⟨codeLt, typeLt, reasonLt, applicationType⟩ := wf
    exact close_selfDelimiting codeLt typeLt reasonLt applicationType
  | handshakeDone => exact ⟨FT_HANDSHAKE_DONE, [], rfl, by decide, by decide, .pure _⟩

/-! ## Frame sequences -/

private theorem parseOne_of_selfDelimiting (delimited : SelfDelimiting frame)
    (inBounds : iter.InBounds) (shape : iter.rest = frame.encode ++ suffix) :
    ∃ ty, iter.parseOne =
        (.ok frame,
          { toCursor := iter.toCursor.advance frame.encode.length,
            lastFrameType := ty }) := by
  obtain ⟨ty, body, encoded, _, small, bodyReads⟩ := delimited
  have typeShape : iter.rest = Varint.encode ty ++ (body ++ suffix) := by
    rw [shape, encoded, append_assoc]
  have typeRun :=
    readVarint_reads (lt_trans small (by decide))
      iter.toCursor (body ++ suffix) inBounds typeShape
  have bodyRun :=
    bodyReads (iter.toCursor.advance (Varint.encode ty).length) suffix
      (inBounds.advance typeShape) (rest_advance typeShape)
  refine ⟨ty, ?_⟩
  unfold Iter.parseOne
  rw [typeRun]
  simp only [bodyRun, advance_advance, encoded, length_append]

private theorem head_encode_ne_zero (delimited : SelfDelimiting frame) :
    ∃ byte tail, frame.encode = byte :: tail ∧ byte ≠ 0 := by
  obtain ⟨ty, body, encoded, _, small, _⟩ := delimited
  refine ⟨UInt8.ofNat ty, body, ?_, ?_⟩
  · rw [encoded, Varint.encode_of_lt small, singleton_append]
  · intro zero
    have zeroNat : (UInt8.ofNat ty).toNat = 0 := by
      rw [zero]
      rfl
    rw [UInt8.toNat_ofNat', Nat.mod_eq_of_lt (by omega)] at zeroNat
    omega

private theorem zeroRun_replicate (count : Nat) (stops : zeroRun suffix = 0) :
    zeroRun (List.replicate count 0 ++ suffix) = count := by
  induction count with
  | zero => simpa using stops
  | succ _ ih => simp [replicate_succ, zeroRun, ih]

private theorem parseOne_of_padding {count : Nat} (positive : 0 < count)
    (stops : zeroRun suffix = 0) (inBounds : iter.InBounds)
    (shape : iter.rest = List.replicate count 0 ++ suffix) :
    iter.parseOne =
      (.ok (.padding count),
        { toCursor := iter.toCursor.advance count,
          lastFrameType := FT_PADDING }) := by
  obtain ⟨more, rfl⟩ : ∃ more, count = more + 1 := ⟨count - 1, by omega⟩
  have typeShape : iter.rest = Varint.encode FT_PADDING ++ (List.replicate more 0 ++ suffix) := by
    rw [shape, replicate_succ]
    rfl
  have typeRun :=
    readVarint_reads (by decide) iter.toCursor (List.replicate more 0 ++ suffix) inBounds typeShape
  have remaining :
      zeroRun (iter.toCursor.advance (Varint.encode FT_PADDING).length).rest = more := by
    rw [rest_advance typeShape]
    exact zeroRun_replicate more stops
  unfold Iter.parseOne
  rw [typeRun]
  simp only [parseBody, parsePadding, remaining, advance_advance]
  rw [Varint.length_encode, add_comm 1 more, add_comm (Varint.size FT_PADDING) more]
  rfl

private theorem zeroRun_encodeFrames (wf : ∀ frame ∈ frames, frame.WellFormed)
    (notPadding : ∀ frame ∈ frames.head?, frame.isPadding = false) :
    zeroRun (encodeFrames frames) = 0 := by
  cases frames with
  | nil => rfl
  | cons frame =>
    obtain ⟨_, _, encoded, nonzero⟩ :=
      head_encode_ne_zero ((wf frame (by simp)).selfDelimiting (notPadding frame rfl))
    simp [encodeFrames, encoded, zeroRun, nonzero]

private theorem next_of_parseOne
    {later : Iter} {head : UInt8} {tail : List UInt8} (shape : iter.rest = head :: tail)
    (parsed : iter.parseOne = (.ok frame, later)) : iter.next = some (.ok frame, later) := by
  have inside := not_le.mpr (pos_lt_of_rest_cons shape)
  unfold Iter.next
  rw [if_neg inside, parsed]

private theorem yields_of_rest (wf : ∀ frame ∈ frames, frame.WellFormed)
    (separated :
      frames.IsChain fun first second =>
        ¬ (first.isPadding = true ∧ second.isPadding = true))
    (inBounds : iter.InBounds) (shape : iter.rest = encodeFrames frames) : iter.Yields frames := by
  induction frames generalizing iter with
  | nil =>
    have finished := drop_eq_nil_iff.mp shape
    simp [Iter.Yields, Iter.next, if_pos finished]
  | cons frame frames ih =>
    have tailWellFormed later (member : later ∈ frames) : later.WellFormed :=
      wf later (mem_cons_of_mem _ member)
    have headWellFormed := wf frame (by simp)
    have splitShape : iter.rest = frame.encode ++ encodeFrames frames := shape
    have follow :
        ∀ ty, Iter.Yields
            { toCursor := iter.toCursor.advance frame.encode.length,
              lastFrameType := ty }
            frames := by
      intro ty
      exact ih tailWellFormed separated.tail (.advance inBounds splitShape)
          (rest_advance splitShape)
    by_cases padded : frame.isPadding = true
    · obtain ⟨count, rfl⟩ : ∃ count, frame = .padding count := by
        cases frame <;> first | exact ⟨_, rfl⟩ | cases padded
      have positive : 0 < count := headWellFormed
      have stops : zeroRun (encodeFrames frames) = 0 := by
        apply zeroRun_encodeFrames tailWellFormed
        intro second isHead
        have apart := (isChain_cons.mp separated).1 second isHead
        simpa [padded] using apart
      have parsed := parseOne_of_padding positive stops inBounds splitShape
      obtain ⟨more, rfl⟩ : ∃ more, count = more + 1 := ⟨count - 1, by omega⟩
      refine ⟨_, next_of_parseOne splitShape parsed, ?_⟩
      simpa [Frame.encode] using follow FT_PADDING
    · have delimited := headWellFormed.selfDelimiting (by simpa using padded)
      obtain ⟨byte, tail, encoded, _⟩ := head_encode_ne_zero delimited
      obtain ⟨ty, parsed⟩ := parseOne_of_selfDelimiting delimited inBounds splitShape
      have headShape : iter.rest = byte :: (tail ++ encodeFrames frames) := by
        rw [splitShape, encoded, cons_append]
      exact ⟨_, next_of_parseOne headShape parsed, follow ty⟩

/-- Decoding the concatenated encodings of well-formed frames, no two adjacent
ones of which are PADDING, yields exactly those frames and then stops. -/
theorem iter_yields_encodeFrames (frames : List Frame)
    (wellFormed : ∀ frame ∈ frames, frame.WellFormed)
    (separated :
      frames.IsChain fun first second =>
        ¬ (first.isPadding = true ∧ second.isPadding = true)) :
    (Iter.new (encodeFrames frames)).Yields frames :=
  yields_of_rest wellFormed separated (Nat.zero_le _) rfl

/-- A payload with a PADDING run, an ACK of two ranges with ECN counts, a final
STREAM frame, a connection id and an application close. -/
theorem iter_yields_encodeFrames_mixed :
    (Iter.new (encodeFrames
      [.padding 2, .ack ⟨9, 300, [(7, 9), (1, 4)], some ⟨1, 0, 70⟩⟩,
        .stream 4 16384 true [1, 2],
        .padding 1,
        .newConnectionId 1 0 [7] (List.replicate 16 5),
        .close ⟨true, 3, 0, [104]⟩])).Yields
      [.padding 2, .ack ⟨9, 300, [(7, 9), (1, 4)], some ⟨1, 0, 70⟩⟩,
        .stream 4 16384 true [1, 2],
        .padding 1,
        .newConnectionId 1 0 [7] (List.replicate 16 5),
        .close ⟨true, 3, 0, [104]⟩] := by
  have ackWellFormed : Ack.WellFormed ⟨9, 300, [(7, 9), (1, 4)], some ⟨1, 0, 70⟩⟩ :=
    ⟨rfl, by decide, by decide, by decide, by decide, by simp⟩
  apply iter_yields_encodeFrames
  · intro _ member
    simp only [mem_cons, not_mem_nil, or_false] at member
    rcases member with rfl | rfl | rfl | rfl | rfl | rfl
    · exact Nat.succ_pos 1
    · exact ackWellFormed
    · exact ⟨by decide, by decide, by decide⟩
    · exact Nat.succ_pos 0
    · exact ⟨by decide, by decide, ⟨by decide, by decide⟩, by decide⟩
    · exact ⟨by decide, by decide, by decide, fun _ => rfl⟩
  · simp [Frame.isPadding]

end ParallaX.Quic
