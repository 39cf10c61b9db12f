import ParallaX.Tls.ServerHandshake

/-!
# The CRYPTO stream of a space

However the frames of a CRYPTO stream arrive, the TLS engine reads the longest
prefix of the stream that they cover, each byte once and in order.
-/

namespace ParallaX.Quic

open List

namespace Connection

variable {T C : Type} [TlsSession T] {stream : List UInt8} {seen : List (Fragment UInt8)}
  {space : SpaceId} {frame : Fragment UInt8}

theorem reassembled_reassembleCrypto {sp : Space} {bytes : List UInt8}
    (inv : Reassembled stream seen bytes sp.cryptoPending sp.cryptoRecvOff)
    (ahead : ∀ fragment ∈ sp.cryptoPending, sp.cryptoRecvOff < fragment.1)
    (slices : ∀ fragment ∈ seen ++ [frame], fragment.Of stream) :
    let result := reassembleCrypto sp frame.1 frame.2
    ∀ more, result.2 = .ok more →
      Reassembled stream (seen ++ [frame]) (bytes ++ more) result.1.cryptoPending
        result.1.cryptoRecvOff ∧
      ∀ fragment ∈ result.1.cryptoPending, result.1.cryptoRecvOff < fragment.1 := by
  intro result more accepted
  unfold result reassembleCrypto at *
  split at accepted
  next waits =>
    rw [if_pos waits]
    split at accepted
    · cases accepted
    next room =>
      cases accepted
      rw [if_neg room]
      refine ⟨by simpa using inv.hold frame, ?_⟩
      simpa [or_imp, forall_and, waits] using ahead
  next due =>
    cases accepted
    rw [if_neg due]
    have earlier fragment (old : fragment ∈ seen) := slices fragment (mem_append_left _ old)
    exact ⟨inv.drain (append_nil _).symm earlier (slices frame (by simp)) (Nat.le_of_not_lt due),
      drainContiguous_beyond _ _ _ _ _⟩

/-- The TLS engine has read what was reassembled, chunk by chunk, and nothing
that waits is due. -/
structure Fed (stream : List UInt8) (seen : List (Fragment UInt8)) (space : SpaceId) (tls : T)
    (conn : Connection T C) : Prop where
  read : ∃ chunks : List (List UInt8),
    Reassembled stream seen chunks.flatten (conn.spaces space).cryptoPending
      (conn.spaces space).cryptoRecvOff ∧
    conn.tls = chunks.foldl (fun tls bytes => (TlsSession.readHandshake tls bytes).1) tls
  ahead : ∀ fragment ∈ (conn.spaces space).cryptoPending,
    (conn.spaces space).cryptoRecvOff < fragment.1

theorem Fed.start {conn : Connection T C} (empty : (conn.spaces space).cryptoPending = [])
    (first : (conn.spaces space).cryptoRecvOff = 0) : conn.Fed stream [] space conn.tls := by
  refine ⟨⟨[], ⟨?_, ?_, ?_, ?_, ?_⟩, rfl⟩, ?_⟩ <;> simp [empty, first]

theorem Fed.longest {tls : T} {conn : Connection T C} (fed : conn.Fed stream seen space tls) :
    ∃ chunks : List (List UInt8),
      conn.tls = chunks.foldl (fun tls bytes => (TlsSession.readHandshake tls bytes).1) tls ∧
      LongestPrefix stream seen chunks.flatten ∧
      (conn.spaces space).cryptoRecvOff = chunks.flatten.length := by
  obtain ⟨⟨chunks, inv, read⟩, ahead⟩ := fed
  exact ⟨chunks, read, inv.longestPrefix ahead, (inv.longest ahead).1.symm⟩

theorem Fed.recvCrypto {tls : T} {conn next : Connection T C}
    (fed : conn.Fed stream seen space tls)
    (slices : ∀ fragment ∈ seen ++ [frame], fragment.Of stream)
    (received : conn.recvCrypto space frame.1 frame.2 = (next, .ok ())) :
    next.Fed stream (seen ++ [frame]) space tls := by
  obtain ⟨⟨chunks, inv, read⟩, ahead⟩ := fed
  unfold Connection.recvCrypto at received
  split at received
  next empty =>
    cases received
    exact ⟨⟨chunks, inv.skip fun some => absurd (isEmpty_iff.mp empty) some, read⟩, ahead⟩
  next =>
  have spec := reassembled_reassembleCrypto inv ahead slices
  generalize reassembleCrypto (conn.spaces space) frame.1 frame.2 = result at received spec
  obtain ⟨sp, outcome⟩ := result
  have stored : (conn.modifySpace space fun _ => sp).spaces space = sp := by
    rw [spaces_modifySpace, if_pos rfl]
  dsimp only at received spec
  split at received
  · cases received
  · cases received
    obtain ⟨inv, ahead⟩ := spec [] rfl
    rw [append_nil] at inv
    exact ⟨⟨chunks, stored.symm ▸ inv, read⟩, stored.symm ▸ ahead⟩
  next byte bytes =>
    obtain ⟨rfl, -⟩ := Prod.mk.inj received
    obtain ⟨inv, ahead⟩ := spec (byte :: bytes) rfl
    refine ⟨⟨chunks ++ [byte :: bytes], ?_, ?_⟩, stored.symm ▸ ahead⟩
    · rw [flatten_append, flatten_singleton]
      exact stored.symm ▸ inv
    · rw [foldl_append, ← read]
      rfl

/-- Receive CRYPTO frames; `none` once one is refused. -/
def recvCryptoAll (space : SpaceId) :
    List (Fragment UInt8) → Connection T C → Option (Connection T C)
  | [], conn => some conn
  | (offset, data) :: frames, conn =>
    match conn.recvCrypto space offset data with
    | (next, .ok ()) => next.recvCryptoAll space frames
    | (_, .error _) => none

theorem Fed.recvCryptoAll {tls : T} {frames : List (Fragment UInt8)} {conn next : Connection T C}
    (fed : conn.Fed stream seen space tls)
    (slices : ∀ fragment ∈ seen ++ frames, fragment.Of stream)
    (accepted : conn.recvCryptoAll space frames = some next) :
    next.Fed stream (seen ++ frames) space tls := by
  induction frames generalizing conn seen with
  | nil =>
    cases accepted
    rwa [append_nil]
  | cons frame frames ih =>
    rw [append_cons] at slices ⊢
    unfold Connection.recvCryptoAll at accepted
    split at accepted
    next received =>
      have held fragment (old : fragment ∈ seen ++ [frame]) :=
        slices fragment (mem_append_left _ old)
      exact ih (fed.recvCrypto held received) slices accepted
    · cases accepted

/-- However the CRYPTO frames of a stream are cut, ordered, repeated and
overlapped: what the TLS engine reads of them is the longest prefix of the
stream that they cover. -/
theorem recvCryptoAll_exact {frames : List (Fragment UInt8)} {conn next : Connection T C}
    (empty : (conn.spaces space).cryptoPending = [])
    (first : (conn.spaces space).cryptoRecvOff = 0)
    (slices : ∀ fragment ∈ frames, fragment.Of stream)
    (accepted : conn.recvCryptoAll space frames = some next) :
    ∃ chunks : List (List UInt8),
      next.tls = chunks.foldl (fun tls bytes => (TlsSession.readHandshake tls bytes).1) conn.tls ∧
      chunks.flatten = stream.take chunks.flatten.length ∧
      (∀ i < chunks.flatten.length, ∃ fragment ∈ frames, fragment.1 ≤ i ∧ i < fragment.finish) ∧
      ∀ fragment ∈ frames, straddles chunks.flatten.length fragment = false := by
  obtain ⟨chunks, read, longest, -⟩ :=
    ((Fed.start empty first).recvCryptoAll slices accepted).longest
  exact ⟨chunks, read, longest⟩

/-- A ClientHello in two frames that overlap and come in the wrong order is read
whole. -/
theorem recvCryptoAll_exact_overlapping :
    ∃ (next : Connection (Tls.ServerSession Tls.ExampleServer) FixedWindow)
        (chunks : List (List UInt8)),
      (waitingExample 0).recvCryptoAll .initial [(2, [0, 0]), (0, [1, 0, 0])] = some next ∧
      next.tls = chunks.foldl (fun tls bytes => (TlsSession.readHandshake tls bytes).1)
        (waitingExample 0).tls ∧
      chunks.flatten = Tls.ExampleServer.clientHello := by
  have accepts : ((waitingExample 0).recvCryptoAll .initial
      [(2, [0, 0]), (0, [1, 0, 0])]).isSome = true := by
    decide +kernel
  obtain ⟨next, accepted⟩ := Option.isSome_iff_exists.mp accepts
  have slices : ∀ fragment ∈ [(2, [0, 0]), (0, [1, 0, 0])],
      Fragment.Of Tls.ExampleServer.clientHello fragment := by
    simp [Fragment.Of, Tls.ExampleServer.clientHello, Tls.HANDSHAKE_CLIENT_HELLO]
  obtain ⟨chunks, read, whole, -, beyond⟩ := recvCryptoAll_exact rfl rfl slices accepted
  refine ⟨next, chunks, accepted, read, ?_⟩
  have length : 4 ≤ chunks.flatten.length := by
    simp [straddles, Fragment.finish, -length_flatten] at beyond
    omega
  rw [whole]
  exact take_of_length_le length

end Connection

end ParallaX.Quic
