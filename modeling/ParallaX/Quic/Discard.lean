import ParallaX.Quic.SentPackets
import ParallaX.Tls.ServerHandshake

/-!
# Discarded packet-number spaces

A space whose keys were discarded is out of use for the rest of the run.
-/

namespace ParallaX.Quic

variable {T C : Type} [OrderlyTls T] {space : SpaceId}

theorem SealingView.Step.silent {view later : SealingView T} (step : Step view later)
    (inv : view.Ordered) (gone : (view.spaces space).discarded = true) :
    (later.spaces space).discarded = true ∧
      numbers later.sealedPackets space = numbers view.sealedPackets space := by
  have updated (other : SpaceId) (sp : SealSpace)
      (stays : (view.spaces other).discarded = true → sp.discarded = true) :
      (Function.update view.spaces other sp space).discarded = true := by
    by_cases same : space = other
    · subst same
      rw [Function.update_self]
      exact stays gone
    · rwa [Function.update_of_ne same]
  cases step with
  | @emit other key keyed =>
    -- A space that seals is not discarded.
    have ne : other ≠ space := by
      rintro rfl
      rw [inv.alive_of_key keyed] at gone
      cases gone
    exact ⟨updated _ _ id, numbers_append_of_ne ne⟩
  | write client =>
    unfold install
    split
    · exact ⟨gone, rfl⟩
    · exact ⟨gone, rfl⟩
    · exact ⟨updated _ _ id, rfl⟩
    · exact ⟨updated _ _ id, rfl⟩
  | rotate | learn => exact ⟨updated _ _ id, rfl⟩
  | discard => exact ⟨updated _ _ fun _ => rfl, rfl⟩
  | _ => exact ⟨gone, rfl⟩

namespace Core

/-- From a state without the space on, it stays away whatever the connection
does. -/
theorem Acts.silent {first second : Core T} (acts : Acts first second)
    (inv : first.sealing.Ordered) (gone : (first.spaces space).discarded = true) :
    second.sealing.Ordered ∧ (second.spaces space).discarded = true ∧
      SealingView.numbers second.sealedPackets space =
        SealingView.numbers first.sealedPackets space :=
  acts.rule (motive := fun core => core.sealing.Ordered ∧ (core.spaces space).discarded = true ∧
      SealingView.numbers core.sealedPackets space = SealingView.numbers first.sealedPackets space)
    (fun _ _ act ⟨inv, gone, numbers⟩ =>
      have silent := act.sealing.silent inv gone
      ⟨act.sealing.ordered inv, silent.1, silent.2.trans numbers⟩)
    ⟨inv, gone, rfl⟩

end Core

namespace Connection

variable [Controller C] {conn next : Connection T C} {now : Nat} {packets : List Packet}

theorem space_ne_of_polled (inv : conn.core.sealing.Ordered)
    (gone : (conn.spaces space).discarded = true)
    (polled : conn.pollTransmit now = some (next, some packets)) :
    ∀ packet ∈ packets, packet.header.space ≠ space := by
  rintro packet member rfl
  have prepared := ((acts_prepareTransmit conn now).silent inv gone).2.2
  have finished := ((acts_pollTransmit polled).silent inv gone).2.2
  have log : next.core.sealedPackets = _ := log_pollTransmit polled
  rw [log, SealingView.numbers_append] at finished
  have logged : packet.header.packetNumber ∈
      SealingView.numbers (packets.map Packet.sealed) packet.header.space :=
    List.mem_map.mpr ⟨packet.sealed, List.mem_filter.mpr
      ⟨List.mem_map_of_mem member, decide_eq_true rfl⟩, rfl⟩
  have none := List.append_right_eq_self.mp (finished.trans prepared.symm)
  rw [none] at logged
  cases logged

/-- In every run, frame by frame: a space that was discarded stays so and
keyless, no packet is sealed in it again, and no datagram that is sent from then
on has a packet of it. -/
theorem frameRuns_discarded_silent {maxSent : Dir → Nat}
    {start conn later : Connection T C} (starts : Starts maxSent start)
    (runs : FrameRuns start conn) (gone : (conn.spaces space).discarded = true)
    (onward : FrameRuns conn later) :
    (later.spaces space).discarded = true ∧ (later.spaces space).keys = none ∧
      SealingView.numbers later.sealedPackets space =
        SealingView.numbers conn.sealedPackets space ∧
      ∀ now next packets, later.pollTransmit now = some (next, some packets) →
        ∀ packet ∈ packets, packet.header.space ≠ space := by
  obtain ⟨_, fresh, acts⟩ := runs.acts starts
  have ordered : conn.core.sealing.Ordered :=
    acts.rule (motive := fun core => core.sealing.Ordered)
      (fun _ _ act => act.sealing.ordered) fresh.sealing.1
  obtain ⟨inv, discarded, numbers⟩ :=
    (onward.between (acts.numbered fresh.numbered)).silent ordered gone
  exact ⟨discarded, Option.map_eq_none_iff.mp (inv.silent space discarded), numbers,
    fun _ _ _ polled => space_ne_of_polled inv discarded polled⟩

/-- The server discards the Initial space at the first Handshake packet of the
client, and goes on to acknowledge it. -/
theorem frameRuns_discarded_silent_server :
    ∃ (conn next : Connection (Tls.ServerSession Tls.ExampleServer) FixedWindow)
      (packets : List Packet), FrameRuns (waitingExample 0) conn ∧
      (conn.spaces .initial).discarded = true ∧ SealingView.numbers conn.sealedPackets .initial ≠ [] ∧
      conn.pollTransmit 0 = some (next, some packets) ∧ packets ≠ [] ∧
      ∀ packet ∈ packets, packet.header.space ≠ .initial := by
  have goes : ((waitingExample 0).play (flightExample ++ [handshakeDatagram 0 [.ping]])).any
      (fun conn => (conn.spaces .initial).discarded &&
        decide (SealingView.numbers conn.sealedPackets .initial ≠ []) &&
        (conn.pollTransmit 0).any fun polled => polled.2.any fun packets =>
          decide (packets ≠ [])) = true := by
    decide +kernel
  obtain ⟨conn, played, facts⟩ := Option.any_eq_true _ _ |>.mp goes
  simp only [Bool.and_eq_true, decide_eq_true_eq, Option.any_eq_true] at facts
  obtain ⟨⟨gone, used⟩, ⟨next, _⟩, polled, packets, rfl, sends⟩ := facts
  have runs := (runs_of_play played).frames
  exact ⟨conn, next, packets, runs, gone, used, polled, sends,
    (frameRuns_discarded_silent (.server ..) runs gone .refl).2.2.2 0 next packets polled⟩

end Connection

end ParallaX.Quic
