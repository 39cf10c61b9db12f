import ParallaX.Safari26.Hellos

/-!
# The order of the server flight

The flags of a flight admit other sequences of messages than the one of TLS 1.3,
and bytes behind the ServerHello or the Finished of a record are dropped. Where
the server sends none of these, and only there, a handshake that is accepted is
exact, and within the limits it does not matter how records cut the flight.
-/

namespace ParallaX.Safari26

open Codec Tls.Record FlightChecks List

variable {K : Type} [FlightChecks K] {inputs : K} {progress next : Progress}
  {earlier : List (List UInt8)}

/-! ## Cut messages -/

theorem flatten_cutMessages (rounds : Nat) (buf : List UInt8) :
    (cutMessages rounds buf).1.flatten ++ (cutMessages rounds buf).2 = buf := by
  induction rounds generalizing buf with
  | zero => rfl
  | succ _ ih =>
    rw [cutMessages]
    split
    · rfl
    dsimp only
    split
    · simp
    · rw [flatten_cons, append_assoc, ih, take_append_drop]

theorem framed_cutMessages (rounds : Nat) (buf : List UInt8) :
    ∀ message ∈ (cutMessages rounds buf).1, Framed message := by
  induction rounds generalizing buf with
  | zero => simp [cutMessages]
  | succ _ ih =>
    rw [cutMessages]
    split
    · simp
    next long =>
    have framed : Framed (buf.take (4 + declaredLen buf)) := by
      rw [Framed, declaredLen_take (Nat.le_add_right ..), length_take]
      omega
    dsimp only
    split
    · exact forall_mem_singleton.mpr framed
    · exact forall_mem_cons.mpr ⟨framed, ih _⟩

theorem head?_of_framed {message : List UInt8} (framed : Framed message) (rest : List UInt8) :
    (message ++ rest).head? = some (messageType message) := by
  cases message with
  | nil =>
    rw [Framed, length_nil] at framed
    omega
  | cons => rfl

/-- A message is cut off the bytes that begin with it. -/
theorem cutMessages_append {message : List UInt8} (framed : Framed message) (rounds : Nat)
    (rest : List UInt8) :
    cutMessages (rounds + 1) (message ++ rest) =
      if messageType message = HANDSHAKE_FINISHED then ([message], rest)
      else (message :: (cutMessages rounds rest).1, (cutMessages rounds rest).2) := by
  have long : 4 ≤ message.length := framed.symm ▸ Nat.le_add_right ..
  have declared : declaredLen (message ++ rest) = declaredLen message := by
    simp (disch := omega) only [declaredLen, getD_eq_getElem?_getD, List.getElem?_append_left]
  rw [cutMessages, declared, ← framed, if_neg (by simp)]
  dsimp only
  rw [take_left, drop_left]

/-! ## Order -/

/-- Four messages of the flight of TLS 1.3, and no byte more. -/
def ExactFlight (flight : List UInt8) : Prop :=
  ∃ extensions certificate verify finished,
    flight = extensions ++ (certificate ++ (verify ++ finished)) ∧
      (∀ message ∈ [extensions, certificate, verify, finished], Framed message) ∧
      messageType extensions = HANDSHAKE_ENCRYPTED_EXTENSIONS ∧ IsCertificate certificate ∧
      messageType verify = HANDSHAKE_CERTIFICATE_VERIFY ∧
      messageType finished = HANDSHAKE_FINISHED

theorem ExactFlight.cut {flight : List UInt8} (exactly : ExactFlight flight) :
    ∃ extensions certificate verify finished,
      cutMessages flight.length flight = ([extensions, certificate, verify] ++ [finished], []) ∧
        flight.head? = some HANDSHAKE_ENCRYPTED_EXTENSIONS ∧
        ∀ message ∈ [extensions, certificate, verify] ++ [finished], IsCertificate message →
          message = certificate := by
  obtain ⟨extensions, certificate, verify, finished, rfl, framed, isExtensions, isCertificate,
    isVerify, isFinished⟩ := exactly
  simp only [forall_mem_cons] at framed
  obtain ⟨first, second, third, fourth, -⟩ := framed
  refine ⟨extensions, certificate, verify, finished, ?_, ?_, ?_⟩
  · obtain ⟨rounds, isRounds⟩ : ∃ rounds,
        (extensions ++ (certificate ++ (verify ++ finished))).length = rounds + 4 := by
      refine ⟨_ - 4, (Nat.sub_add_cancel ?_).symm⟩
      rw [length_append, show extensions.length = _ from first]
      omega
    have last := cutMessages_append fourth rounds []
    rw [append_nil, if_pos isFinished] at last
    have others : messageType extensions ≠ HANDSHAKE_FINISHED ∧
        messageType certificate ≠ HANDSHAKE_FINISHED ∧ messageType verify ≠ HANDSHAKE_FINISHED := by
      refine ⟨by rw [isExtensions]; decide, ?_, by rw [isVerify]; decide⟩
      rcases isCertificate with type | type <;> rw [type] <;> decide
    rw [isRounds, cutMessages_append first, if_neg others.1, cutMessages_append second,
      if_neg others.2.1, cutMessages_append third, if_neg others.2.2, last]
    rfl
  · rw [head?_of_framed first, isExtensions]
  · intro message member certifies
    simp only [cons_append, nil_append, mem_cons, not_mem_nil, or_false] at member
    rcases member with rfl | rfl | rfl | rfl
    · exact absurd certifies (by rw [IsCertificate, isExtensions]; decide)
    · rfl
    · exact absurd certifies (by rw [IsCertificate, isVerify]; decide)
    · exact absurd certifies (by rw [IsCertificate, isFinished]; decide)

theorem next_message (accepted : earlier.foldlM (processMessage inputs) progress = .ok next) :
    earlier = [] ∧ next = progress ∨
      ∃ message later middle, earlier = message :: later ∧
        Accepts inputs progress message middle ∧
        later.foldlM (processMessage inputs) middle = .ok next := by
  cases earlier with
  | nil =>
    cases accepted
    exact .inl ⟨rfl, rfl⟩
  | cons message later =>
    rw [foldlM_cons] at accepted
    obtain ⟨middle, first, accepted⟩ := exists_of_bind_eq_ok accepted
    exact .inr ⟨message, later, middle, rfl, accepts_of_processMessage first, accepted⟩

/-- Messages that set every flag, the extensions first and with certificates, are
the three of the flight before its Finished. -/
theorem order_of_accepted {hello : List UInt8}
    (accepted : earlier.foldlM (processMessage inputs) (.start hello) = .ok next)
    (others : ∀ message ∈ earlier, messageType message ≠ HANDSHAKE_FINISHED)
    (extended : next.flight.encryptedExtensionsSeen = true)
    (verified : next.flight.certificateVerifySeen = true)
    (first : ∀ message ∈ earlier.head?, messageType message = HANDSHAKE_ENCRYPTED_EXTENSIONS)
    (listed : ∀ message ∈ earlier, IsCertificate message →
      messageCertificates inputs message ≠ .ok []) :
    ∃ extensions certificate verify, earlier = [extensions, certificate, verify] ∧
      messageType extensions = HANDSHAKE_ENCRYPTED_EXTENSIONS ∧ IsCertificate certificate ∧
      messageType verify = HANDSHAKE_CERTIFICATE_VERIFY := by
  rcases next_message accepted with ⟨-, rfl⟩ | ⟨extensions, _, _, rfl, accepts, accepted⟩
  · cases extended
  have isExtensions := first extensions rfl
  cases accepts with
  | certificate type => exact absurd type (by rw [IsCertificate, isExtensions]; decide)
  | verify type | finished type => exact absurd (isExtensions.symm.trans type) (by decide)
  | extensions =>
  rcases next_message accepted with ⟨-, rfl⟩ | ⟨certificate, _, _, rfl, accepts, accepted⟩
  · cases verified
  cases accepts with
  | extensions _ _ fresh => cases fresh
  | verify _ _ valid => cases valid
  | finished _ _ signed => cases signed
  | certificate isCertificate _ _ parsed =>
  rcases next_message accepted with ⟨-, rfl⟩ | ⟨verify, _, _, rfl, accepts, accepted⟩
  · cases verified
  cases accepts with
  | extensions _ _ fresh => cases fresh
  | certificate _ empty =>
    cases empty
    exact absurd parsed (listed certificate (by simp) isCertificate)
  | finished _ _ signed => cases signed
  | verify isVerify =>
  rcases next_message accepted with ⟨rfl, -⟩ | ⟨last, _, _, rfl, accepts, accepted⟩
  · exact ⟨_, _, _, rfl, isExtensions, isCertificate, isVerify⟩
  cases accepts with
  | extensions _ _ fresh => cases fresh
  | certificate _ _ unverified => cases unverified
  | verify _ fresh => cases fresh
  | finished type => exact absurd type (others last (by simp))

/-! ## Split -/

/-- Records within the limits of the loop. -/
structure Within (left ccs decrypted : Nat) (records : Nat × List (List UInt8)) : Prop where
  few : records.2.length + records.1 ≤ left
  skips : ccs + records.1 ≤ MAX_CHANGE_CIPHER_SPEC_RECORDS
  small : decrypted + records.2.flatten.length ≤ MAX_SERVER_FLIGHT_DECRYPTED_BYTES

theorem takeRecord_encrypted {reader : FlightReader} {record rest : List UInt8} {plain : PlainRecord}
    (opened : decryptRecord inputs reader.seq record = .ok plain)
    (type : plain.contentType = TLS_CONTENT_HANDSHAKE)
    (small : reader.totalDecrypted + plain.plaintext.length ≤ MAX_SERVER_FLIGHT_DECRYPTED_BYTES)
    (processed : processBuffer inputs (reader.handshakeBuf ++ plain.plaintext) reader.progress =
      .ok (rest, next)) :
    takeRecord inputs reader record =
      .ok { reader with
        seq := (reader.seq + 1) % 2 ^ 64
        handshakeBuf := rest
        totalDecrypted := reader.totalDecrypted + plain.plaintext.length
        progress := next } := by
  obtain ⟨header, parsed, encrypted⟩ := type_of_decryptRecord opened
  have notSkipped : header.contentType ≠ TLS_CONTENT_CHANGE_CIPHER_SPEC := by
    rw [encrypted]
    decide
  have noAlert : header.contentType ≠ TLS_CONTENT_ALERT := by
    rw [encrypted]
    decide
  rw [takeRecord, parsed]
  refine (if_neg notSkipped).trans ((if_neg noAlert).trans ((if_pos encrypted).trans ?_))
  rw [opened]
  change takePlaintext inputs { reader with seq := (reader.seq + 1) % 2 ^ 64 } plain = _
  rw [takePlaintext, if_neg (not_not.mpr type)]
  dsimp only
  rw [processBuffer] at processed
  rw [if_neg (Nat.not_lt.mpr small), processed]

theorem flightRecords_cases (inputs : K) (rounds seq : Nat) (stream : List UInt8) :
    let records := flightRecords inputs (rounds + 1) seq stream
    records = (0, []) ∨
      (∃ record rest header, readRecord stream = .ok (record, rest) ∧
        parseHeader record = .ok header ∧ header.contentType = TLS_CONTENT_CHANGE_CIPHER_SPEC ∧
        records = ((flightRecords inputs rounds seq rest).1 + 1,
          (flightRecords inputs rounds seq rest).2)) ∨
      ∃ record rest plain, readRecord stream = .ok (record, rest) ∧
        decryptRecord inputs seq record = .ok plain ∧
        plain.contentType = TLS_CONTENT_HANDSHAKE ∧
        records = ((flightRecords inputs rounds ((seq + 1) % 2 ^ 64) rest).1,
          plain.plaintext :: (flightRecords inputs rounds ((seq + 1) % 2 ^ 64) rest).2) := by
  intro records
  unfold records
  rw [flightRecords]
  split
  · exact .inl rfl
  next record rest read =>
  split
  next skipped =>
    cases parsed : parseHeader record with
    | error =>
      rw [parsed] at skipped
      cases skipped
    | ok header =>
      rw [parsed] at skipped
      exact .inr (.inl ⟨record, rest, header, read, parsed, Except.ok.inj skipped, rfl⟩)
  split
  · exact .inl rfl
  next plain opened =>
  split
  next type => exact .inr (.inr ⟨record, rest, plain, read, opened, type, rfl⟩)
  · exact .inl rfl

/-- Bytes that complete the flight are accepted, however records within the limits
cut them. -/
theorem readRecords_accepts {rounds left : Nat} {reader : FlightReader} {behind : List UInt8}
    (unfinished : reader.progress.flight.finished = false)
    (stuck : processBuffer inputs reader.handshakeBuf reader.progress =
      .ok (reader.handshakeBuf, reader.progress))
    (processed : processBuffer inputs (reader.handshakeBuf ++
      (flightRecords inputs rounds reader.seq reader.stream).2.flatten) reader.progress =
        .ok (behind, next))
    (finished : next.flight.finished = true)
    (within : Within left reader.ccsRecords reader.totalDecrypted
      (flightRecords inputs rounds reader.seq reader.stream)) :
    ∃ last, readRecords inputs left reader = .ok last ∧ last.progress = next := by
  have idle (none : (flightRecords inputs rounds reader.seq reader.stream).2 = []) : False := by
    rw [none, flatten_nil, append_nil, stuck, Except.ok.injEq, Prod.mk.injEq] at processed
    rw [← processed.2, unfinished] at finished
    cases finished
  obtain ⟨few, skips, small⟩ := within
  induction rounds generalizing reader left with
  | zero => exact (idle rfl).elim
  | succ rounds ih =>
    rcases flightRecords_cases inputs rounds reader.seq reader.stream with
      none | ⟨record, rest, header, read, parsed, type, records⟩ |
      ⟨record, rest, plain, read, opened, type, records⟩
    · exact (idle (congrArg Prod.snd none)).elim
    · rw [records] at few skips small processed idle
      dsimp only at few skips
      obtain ⟨left, rfl⟩ := Nat.exists_eq_add_one.mpr (Nat.zero_lt_of_lt few)
      rw [readRecords, unfinished, if_neg Bool.false_ne_true, read]
      simp only [takeRecord, parsed, Except.mapError, bind, Except.bind, if_pos type]
      rw [if_neg (by omega)]
      exact @ih _ { reader with stream := rest, ccsRecords := reader.ccsRecords + 1 } unfinished stuck
        processed idle (by dsimp only; omega) (by dsimp only; omega) small
    · rw [records] at few skips small processed
      dsimp only [length_cons, flatten_cons] at few skips small processed
      rw [length_append] at small
      rw [← append_assoc, processBuffer_append _ unfinished (Nat.le_refl _)] at processed
      have still : processBuffer inputs (reader.handshakeBuf ++ plain.plaintext ++ []) _ = _ :=
        processBuffer_append [] unfinished (Nat.le_refl _)
      rw [append_nil] at still
      obtain ⟨left, rfl⟩ : ∃ less, left = less + 1 := ⟨left - 1, by omega⟩
      rw [readRecords, unfinished, if_neg Bool.false_ne_true, read]
      cases taken : processBuffer inputs (reader.handshakeBuf ++ plain.plaintext)
          reader.progress with
      | error =>
        rw [processBuffer] at taken
        rw [taken] at processed
        cases processed
      | ok result =>
        obtain ⟨buf, after⟩ := result
        have step : takeRecord inputs { reader with stream := rest } record = _ :=
          takeRecord_encrypted opened type (by dsimp only; omega) taken
        rw [taken] at still
        rw [processBuffer] at taken
        simp only [taken, append_nil] at processed still
        dsimp only
        rw [step]
        by_cases done : after.flight.finished = true
        · rw [if_pos done, Except.ok.injEq, Prod.mk.injEq] at processed
          exact ⟨_, readRecords_of_finished done, processed.2⟩
        · rw [if_neg done] at processed still
          refine ih (eq_false_of_ne_true done) still.symm processed ?_ (by dsimp only; omega) skips
            (by dsimp only; omega)
          intro none
          rw [none, flatten_nil, append_nil, ← still] at processed
          cases processed
          exact done finished

/-! ## Exact handshakes -/

variable {session : Session K} {stream : List UInt8} {hellos : Hellos K}

/-- The bytes complete a flight, with a certificate that passes its checks. -/
def Admits (inputs : K) (transcript : List UInt8) (sni : String) (flight : List UInt8) : Prop :=
  ∃ behind next, processBuffer inputs flight (.start transcript) = .ok (behind, next) ∧
    next.flight.finished = true ∧ verifyServerCertificate inputs sni next.flight = .ok ()

theorem complete_iff_admits (greeted : session.exchangeHellos stream = .ok hellos)
    (within : Within MAX_SERVER_FLIGHT_RECORDS 0 0 hellos.records) :
    (∃ reader, session.complete stream = .ok reader) ↔
      Admits hellos.keys hellos.transcript session.sni hellos.records.2.flatten := by
  constructor
  · rintro ⟨reader, completed⟩
    obtain ⟨_, same, completed⟩ := exists_of_bind_eq_ok completed
    cases greeted.symm.trans same
    obtain ⟨last, returned, completed⟩ := exists_of_bind_eq_ok completed
    obtain ⟨⟨⟩, trusted, -⟩ := exists_of_bind_eq_ok completed
    obtain ⟨fragments, ⟨later, whole⟩, processed, finished⟩ :=
      readRecords_process returned rfl (Nat.le_refl _)
    refine ⟨last.handshakeBuf ++ later.flatten, last.progress, ?_, finished, trusted⟩
    change processServerHandshakeMessages hellos.keys fragments.flatten.length fragments.flatten
      (.start hellos.transcript) = _ at processed
    change _ = hellos.records.2 at whole
    rw [← whole, flatten_append, processBuffer_append _ rfl (Nat.le_refl _), processed]
    exact if_pos finished
  · rintro ⟨behind, next, processed, finished, trusted⟩
    have accepted : ∃ last, readRecords hellos.keys MAX_SERVER_FLIGHT_RECORDS
        (.start hellos.stream hellos.transcript) = .ok last ∧ last.progress = next :=
      readRecords_accepts rfl rfl processed finished within
    obtain ⟨last, returned, rfl⟩ := accepted
    refine ⟨last, ?_⟩
    rw [Session.complete, greeted]
    change (readEncryptedServerFlight _ _ _ >>= _) = _
    rw [readEncryptedServerFlight, returned]
    change (verifyServerCertificate _ _ _ >>= _) = _
    rw [trusted]
    rfl

/-- The ServerHello is all that its record holds. -/
def Alone (record : List UInt8) : Prop :=
  ∃ header serverHello, parseExact record = .ok (header, serverHello) ∧
    messageType serverHello = HANDSHAKE_SERVER_HELLO ∧ Framed serverHello

/-- What a server must keep to, since the client does not check it: the lengths of
the ServerHello and of its record agree, the flight begins with the extensions,
no Certificate message is empty, and nothing follows the Finished. -/
structure Strict (inputs : K) (record flight : List UInt8) : Prop where
  filled : ∀ header payload, parseExact record = .ok (header, payload) →
    header.payloadLen = 4 + declaredLen payload
  first : flight.head? = some HANDSHAKE_ENCRYPTED_EXTENSIONS
  listed : ∀ message ∈ (cutMessages flight.length flight).1, IsCertificate message →
    messageCertificates inputs message ≠ .ok []
  ended : (cutMessages flight.length flight).2 = []

theorem length_parseExact {record payload : List UInt8} {header : TlsRecordHeader}
    (parsed : parseExact record = .ok (header, payload)) :
    payload.length = header.payloadLen := by
  obtain ⟨_, isHeader, parsed⟩ := exists_of_bind_eq_ok parsed
  split at parsed
  · cases parsed
  cases parsed
  have total := totalLen_of_parseHeader isHeader
  rw [length_drop, length_take]
  omega

omit [FlightChecks K] in
theorem alone_iff_filled (greeted : session.exchangeHellos stream = .ok hellos) :
    Alone hellos.serverHelloRecord ↔
      ∀ header payload, parseExact hellos.serverHelloRecord = .ok (header, payload) →
        header.payloadLen = 4 + declaredLen payload := by
  obtain ⟨_, header, serverHello, behind, -, parsed, type, framed, -⟩ :=
    session.exchangeHellos_spec greeted
  have whole := length_parseExact parsed
  constructor
  · rintro ⟨_, _, same, -, alone⟩ _ _ again
    cases same.symm.trans again
    rw [← length_parseExact same]
    exact alone
  · intro filled
    have declared : declaredLen (serverHello ++ behind) = declaredLen serverHello := by
      rw [← declaredLen_take (Nat.le_add_right 4 (declaredLen serverHello)),
        ← show serverHello.length = _ from framed, take_left]
    have length := filled header _ parsed
    rw [← whole, declared, length_append, show serverHello.length = _ from framed] at length
    have none : behind = [] := length_eq_zero_iff.mp (by omega)
    rw [none, append_nil] at parsed
    exact ⟨header, serverHello, parsed, type, framed⟩

/-- Of the flights that are admitted, the exact ones are those of a strict
server. -/
theorem exactFlight_iff {transcript flight : List UInt8} {sni : String}
    (admits : Admits inputs transcript sni flight) :
    ExactFlight flight ↔ flight.head? = some HANDSHAKE_ENCRYPTED_EXTENSIONS ∧
      (∀ message ∈ (cutMessages flight.length flight).1, IsCertificate message →
        messageCertificates inputs message ≠ .ok []) ∧
      (cutMessages flight.length flight).2 = [] := by
  obtain ⟨behind, next, processed, isOver, -⟩ := admits
  obtain ⟨earlier, finished, atFinished, cut, isFinished, others, accepted, ended, trace⟩ :=
    processBuffer_finished processed isOver
  obtain ⟨extended, verified, -⟩ := (accepts_of_processMessage ended).ofFinished isFinished
  constructor
  · intro exactly
    obtain ⟨extensions, certificate, verify, last, order, first, only⟩ := exactly.cut
    obtain ⟨before, _, _, leaf, split, -, isLeaf, -, ⟨entry, member, certifies, parsed⟩, -⟩ :=
      trace.signed verified
    obtain ⟨messages, -⟩ := Prod.mk.inj (cut.symm.trans order)
    have inFlight : entry ∈ [extensions, certificate, verify] ++ [last] := by
      rw [← messages, split]
      exact mem_append_left _ (mem_append_left _ member)
    rw [order]
    refine ⟨first, fun message member isCertificate none => ?_, rfl⟩
    rw [only message member isCertificate, ← only entry inFlight certifies, parsed] at none
    rw [Except.ok.inj none] at isLeaf
    cases isLeaf
  · rintro ⟨first, listed, ends⟩
    have whole := flatten_cutMessages flight.length flight
    have framed := framed_cutMessages flight.length flight
    rw [cut] at listed ends whole framed
    have firstType : ∀ message ∈ earlier.head?,
        messageType message = HANDSHAKE_ENCRYPTED_EXTENSIONS := by
      intro message isHead
      obtain ⟨later, rfl⟩ := head?_eq_some_iff.mp isHead
      have head := head?_of_framed (framed message (by simp)) ((later ++ [finished]).flatten ++ behind)
      rw [cons_append] at whole
      rw [← whole, flatten_cons, append_assoc, head] at first
      exact Option.some.inj first
    obtain ⟨extensions, certificate, verify, rfl, types⟩ :=
      order_of_accepted accepted others extended verified firstType fun message member =>
        listed message (mem_append_left _ member)
    refine ⟨extensions, certificate, verify, finished, ?_, framed, types.1, types.2.1, types.2.2,
      isFinished⟩
    dsimp only at ends whole
    rw [← whole, ends]
    simp

open ExampleFlight in
theorem strict_exactly : Strict (⟨⟩ : ExampleFlight) (helloRecord []) exactly := by
  have parses : parseExact (helloRecord []) =
      .ok (⟨TLS_CONTENT_HANDSHAKE, [3, 3], 91, 96⟩, serverHello) := by
    decide +kernel
  refine ⟨fun header payload parsed => ?_, by decide +kernel, by decide +kernel, by decide +kernel⟩
  cases parses.symm.trans parsed
  decide +kernel

end ParallaX.Safari26
