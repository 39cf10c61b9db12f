import ParallaX.Quic.Receive

/-!
# The types of decoded frames

A decoded frame is of the type it announces, so that what a packet may carry
can be checked by type.
-/

namespace ParallaX.Quic

open ParallaX.Codec

/-- The type numbers of a frame. -/
def Frame.HasType (ty : Nat) : Frame → Prop
  | .padding _ => ty = 0x00
  | .ping => ty = 0x01
  | .ack _ => ty = 0x02 ∨ ty = 0x03
  | .resetStream _ _ _ => ty = 0x04
  | .stopSending _ _ => ty = 0x05
  | .crypto _ _ => ty = 0x06
  | .newToken _ => ty = 0x07
  | .stream _ _ _ _ => 0x08 ≤ ty ∧ ty ≤ 0x0f
  | .maxData _ => ty = 0x10
  | .maxStreamData _ _ => ty = 0x11
  | .maxStreams .bidi _ => ty = 0x12
  | .maxStreams .uni _ => ty = 0x13
  | .dataBlocked _ => ty = 0x14
  | .streamDataBlocked _ _ => ty = 0x15
  | .streamsBlocked .bidi _ => ty = 0x16
  | .streamsBlocked .uni _ => ty = 0x17
  | .newConnectionId _ _ _ _ => ty = 0x18
  | .retireConnectionId _ => ty = 0x19
  | .pathChallenge _ => ty = 0x1a
  | .pathResponse _ => ty = 0x1b
  | .close _ => ty = 0x1c ∨ ty = 0x1d
  | .handshakeDone => ty = 0x1e

variable {ty : Nat} {frame : Frame}

theorem parseAck_ensures (hasEcn : Bool) (isAck : ty = 0x02 ∨ ty = 0x03) :
    Ensures (parseAck hasEcn) (Frame.HasType ty) := by
  refine .bind fun largest => .bind fun delay =>
    .bind fun rangeCount => .bind fun firstRange => ?_
  split
  · exact .fail _
  · exact .bind fun more => .bind fun ecn => .pure isAck

theorem parseClose_ensures (application : Bool) (isClose : ty = 0x1c ∨ ty = 0x1d) :
    Ensures (parseClose application) (Frame.HasType ty) :=
  .bind fun _ => .bind fun _ => .bind fun _ =>
    .pure isClose

theorem parsePadding_ensures : Ensures parsePadding (Frame.HasType 0x00) := by
  intro _ _ _ run
  obtain ⟨same, -⟩ := Prod.mk.inj run
  rw [← Except.ok.inj same]
  rfl

theorem parseNewConnectionId_ensures : Ensures parseNewConnectionId (Frame.HasType 0x18) :=
  .bind fun _ => .bind fun _ => .bind fun _ =>
    .bind fun _ => .pure rfl

/-- A body is parsed to a frame of the type that was read before it. -/
theorem parseBody_ensures (ty : Nat) : Ensures (parseBody ty) (Frame.HasType ty) := by
  unfold parseBody
  split
  · exact parsePadding_ensures
  · exact .pure rfl
  · exact parseAck_ensures false (.inl rfl)
  · exact parseAck_ensures true (.inr rfl)
  · exact .bind fun _ => .bind fun _ => .bind fun _ =>
      .pure rfl
  · exact .bind fun _ => .bind fun _ => .pure rfl
  · exact .bind fun _ => .bind fun _ => .pure rfl
  · exact .bind fun _ => .pure rfl
  · exact .bind fun _ => .pure rfl
  · exact .bind fun _ => .bind fun _ => .pure rfl
  · exact .bind fun _ => .pure rfl
  · exact .bind fun _ => .pure rfl
  · exact .bind fun _ => .pure rfl
  · exact .bind fun _ => .bind fun _ => .pure rfl
  · exact .bind fun _ => .pure rfl
  · exact .bind fun _ => .pure rfl
  · exact parseNewConnectionId_ensures
  · exact .bind fun _ => .pure rfl
  · exact .bind fun _ => .pure rfl
  · exact .bind fun _ => .pure rfl
  · exact parseClose_ensures false (.inl rfl)
  · exact parseClose_ensures true (.inr rfl)
  · exact .pure rfl
  · split
    next isStream => exact .bind fun _ => .bind fun _ => .bind fun _ => .pure isStream
    · exact .fail _

theorem next_hasType {iter later : Iter} (parsed : iter.next = some (.ok frame, later)) :
    frame.HasType later.lastFrameType := by
  unfold Iter.next at parsed
  split at parsed
  · cases parsed
  split at parsed
  next decoded after outcome =>
    obtain ⟨same, rfl⟩ := Prod.mk.inj (Option.some.inj parsed)
    cases same
    unfold Iter.parseOne at outcome
    split at outcome
    · cases (Prod.mk.inj outcome).1
    next ty cursor announced =>
      obtain ⟨body, rfl⟩ := Prod.mk.inj outcome
      exact parseBody_ensures ty cursor _ (parseBody ty cursor).2 (Prod.ext body rfl)
  · obtain ⟨same, -⟩ := Prod.mk.inj (Option.some.inj parsed)
    cases same

/-- Frames are listed with the types that permit or forbid them. -/
theorem decodeFrames_hasType {payload : List UInt8} {ty : Nat}
    (decoded : (ty, .ok frame) ∈ decodeFrames payload) : frame.HasType ty := by
  have collected : ∀ (rounds : Nat) (iter : Iter),
      (ty, .ok frame) ∈ iter.collect rounds → frame.HasType ty := by
    intro rounds
    induction rounds with
    | zero =>
      intro iter member
      cases member
    | succ _ ih =>
      intro _ member
      rw [Iter.collect] at member
      split at member
      · cases member
      · rcases List.mem_singleton.mp member with same
        cases (Prod.mk.inj same).2
      next first later parsed =>
        rcases List.mem_cons.mp member with same | member
        · obtain ⟨rfl, sameFrame⟩ := Prod.mk.inj same
          cases sameFrame
          exact next_hasType parsed
        · exact ih later member
  exact collected payload.length (.new payload) decoded

end ParallaX.Quic
