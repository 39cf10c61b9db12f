import ParallaX.Quic.Delivery

/-!
# Conservation of receive credit

Every byte of credit that the peer has used is either held by one live stream
or released to the connection window. Each operation of the stream table keeps
the account balanced, so a retired stream takes no credit with it.
-/

namespace ParallaX.Quic

open ParallaX.Data List Option Streams Bool

/-! ## The account of one stream -/

/-- The bytes of credit that a stream holds. -/
def RecvAccount.held (account : RecvAccount) : Nat := account.recvHigh - account.recvCredited

/-- The parts of an account agree with each other. -/
structure RecvAccount.Balanced (account : RecvAccount) : Prop where
  unreadHeld : account.recvCredited + account.recv.length ≤ account.recvHigh
  offset_le : account.recvOff ≤ account.recvHigh
  pending_le : ∀ fragment ∈ account.recvPending, fragment.finish ≤ account.recvHigh
  final : ∀ size, account.recvFin = some size → account.recvHigh ≤ size
  reading : account.recvReset = none → account.recvReleased = false →
    account.recvCredited + account.recv.length = account.recvOff
  released : account.recvReleased = true → account.recvCredited = account.recvHigh
  reset : account.recvReset.isSome = true →
    account.recvFin = some account.recvHigh ∧
      account.recvCredited + account.recv.length = account.recvHigh

namespace RecvAccount.Balanced

variable {account : RecvAccount}

theorem credited_le (bal : account.Balanced) : account.recvCredited ≤ account.recvHigh :=
  le_trans (Nat.le_add_right _ _) bal.unreadHeld

theorem fresh : Stream.fresh.toRecvAccount.Balanced where
  unreadHeld := le_refl 0
  offset_le := le_refl 0
  pending_le := nofun
  final := nofun
  reading _ _ := rfl
  released := nofun
  reset := nofun

section

variable (bal : account.Balanced)
include bal

/-- What is discarded is credited. -/
theorem discard :
    Balanced
      { account with
        recvCredited := account.recvHigh
        recvReleased := true
        recv := []
        recvPending := [] } where
  unreadHeld := le_rfl
  offset_le := bal.offset_le
  pending_le := nofun
  final := bal.final
  reading := nofun
  released _ := rfl
  reset isReset := ⟨(bal.reset isReset).1, add_zero _⟩

/-- What is read is credited. -/
theorem read :
    Balanced
      { account with
        recv := []
        recvCredited := account.recvCredited + account.recv.length
        recvReleased :=
          account.recvReleased ||
            account.recvReset.isNone && account.recvFin.any fun fin =>
                decide (fin ≤ account.recvOff) } where
  unreadHeld := bal.unreadHeld
  offset_le := bal.offset_le
  pending_le := bal.pending_le
  final := bal.final
  reading := by
    intro notReset kept
    rw [or_eq_false_iff] at kept
    exact bal.reading notReset kept.1
  released := by
    intro isReleased
    have held := bal.unreadHeld
    cases before : account.recvReleased with
    | true =>
      have all := bal.released before
      dsimp only
      omega
    | false =>
      rw [before, Bool.false_or, and_eq_true, isNone_iff_eq_none, Option.any_eq_true] at isReleased
      obtain ⟨notReset, size, final, reached⟩ := isReleased
      have bound := bal.final size final
      have unread := bal.reading notReset before
      rw [decide_eq_true_eq] at reached
      dsimp only
      omega
  reset isReset := bal.reset isReset

/-- New bytes raise the mark. -/
theorem charge {high : Nat} {fin : Option Nat} (notReset : account.recvReset = none)
    (kept : account.recvReleased = false) (grows : account.recvHigh ≤ high)
    (final : ∀ size, fin.or account.recvFin = some size → high ≤ size) :
    Balanced
      { account with recvHigh := high, recvFin := fin.or account.recvFin } where
  unreadHeld := le_trans bal.unreadHeld grows
  offset_le := le_trans bal.offset_le grows
  pending_le fragment member := le_trans (bal.pending_le fragment member) grows
  final := final
  reading := bal.reading
  released := by
    intro isReleased
    rw [kept] at isReleased
    cases isReleased
  reset := by
    intro isReset
    rw [notReset] at isReset
    cases isReset

/-- Bytes for a released stream are charged and credited at once. -/
theorem late {high off : Nat} {fin : Option Nat} (notReset : account.recvReset = none)
    (released : account.recvReleased = true) (grows : account.recvHigh ≤ high) (offset : off ≤ high)
    (final : ∀ size, fin.or account.recvFin = some size → high ≤ size) :
    Balanced
      { account with
        recvHigh := high
        recvFin := fin.or account.recvFin
        recvCredited := account.recvCredited + (high - account.recvHigh)
        recvOff := off } where
  unreadHeld := by
    have unread := bal.unreadHeld
    dsimp only
    omega
  offset_le := offset
  pending_le fragment member := le_trans (bal.pending_le fragment member) grows
  final := final
  reading := by
    intro _ kept
    rw [released] at kept
    cases kept
  released := by
    have all := bal.released released
    dsimp only
    omega
  reset := by
    intro isReset
    rw [notReset] at isReset
    cases isReset

theorem wait {fragment : Fragment UInt8} (ends : fragment.finish ≤ account.recvHigh) :
    Balanced
      { account with recvPending := account.recvPending ++ [fragment] } :=
  { bal with pending_le := forall_mem_append.mpr ⟨bal.pending_le, forall_mem_singleton.mpr ends⟩ }

/-- Reassembled bytes stay held until they are read. -/
theorem absorb {offset : Nat} {data : List UInt8} (notReset : account.recvReset = none)
    (kept : account.recvReleased = false) (ends : offset + data.length ≤ account.recvHigh) :
    Balanced
      { account with
        recvPending :=
          (drainContiguous account.recvPending account.recvOff offset data account.recv).pending
        recvOff :=
          (drainContiguous account.recvPending account.recvOff offset data account.recv).recvOff
        recv :=
          (drainContiguous account.recvPending account.recvOff offset data
            account.recv).sink } := by
  have unread := drainContiguous_account account.recvPending offset data
    (bal.reading notReset kept)
  obtain ⟨reached, waiting⟩ := drainContiguous_bounded account.recv
    bal.offset_le ends bal.pending_le
  exact
    { bal with
      unreadHeld := le_trans (le_of_eq unread) reached
      offset_le := reached
      pending_le := waiting
      reading _ _ := unread
      reset := by
        intro isReset
        rw [notReset] at isReset
        cases isReset }

end

variable {finalSize : Nat}

/-- A reset fixes the final size, and releases what was held. -/
theorem firstReset (code : Nat)
    (bal : account.Balanced) (grows : account.recvHigh ≤ finalSize) :
    Balanced
      { account with
        recvHigh := finalSize
        recvFin := some finalSize
        recvReset := some code
        recvPending := []
        recvCredited :=
          account.recvCredited + (finalSize - account.recv.length - account.recvCredited) } := by
  have unread := bal.unreadHeld
  have all :
      account.recvCredited + (finalSize - account.recv.length - account.recvCredited) +
        account.recv.length = finalSize := by
    omega
  exact
    { unreadHeld := le_of_eq all
      offset_le := le_trans bal.offset_le grows
      pending_le := nofun
      final size same := le_of_eq (Option.some.inj same)
      reading := nofun
      released := by
        intro isReleased
        have before := bal.released isReleased
        dsimp only
        omega
      reset _ := ⟨rfl, all⟩ }

theorem repeatedReset (code : Nat)
    (bal : account.Balanced) (isReset : account.recvReset.isSome = true)
    (known : ∀ size, account.recvFin = some size → size = finalSize) :
    account.recvHigh = finalSize ∧
      Balanced
        { account with
          recvHigh := finalSize
          recvFin := some finalSize
          recvReset := some code } := by
  obtain ⟨final, all⟩ := bal.reset isReset
  have same := known _ final
  refine ⟨same, ?_⟩
  rw [← same]
  exact
    { bal with
      final size equal := le_of_eq (Option.some.inj equal)
      reading := nofun
      reset _ := ⟨rfl, all⟩ }

end RecvAccount.Balanced

/-! ## The account of the connection -/

namespace Streams

/-- What the peer has used of the window and was not given back. -/
def heldCredit (table : Streams) : Nat :=
  total (fun _ stream => stream.toRecvAccount.held) table.streams

/-- The window of the connection is the held credit and what is left, and only streams
that receive hold any. -/
structure Conserved (table : Streams) : Prop where
  balanced : ∀ id account, table.account id = some account → account.Balanced
  sendOnly : ∀ id account, table.account id = some account →
    isUni id = true → table.isPeerInitiated id = false →
    account.recvHigh = 0
  frontier : ∀ id account, table.account id = some account →
    table.isPeerInitiated id = true →
    id / 4 < table.peerStreamsOpened (kindOf id)
  window : table.recvMaxData = table.recvDataConsumed + CONN_RECV_WINDOW
  outstanding : table.recvDataTotal = table.recvDataConsumed + table.heldCredit
  limited : table.recvDataTotal ≤ table.recvMaxData
  settled : ∀ entry ∈ table.retired, entry.2.recvHigh = entry.2.recvCredited

theorem Conserved.new (side : Side) (nextBidi nextUni : Nat) (maxSent : Dir → Nat) :
    (Streams.new side nextBidi nextUni maxSent).Conserved := by
  have empty id account :
      (Streams.new side nextBidi nextUni maxSent).account id = some account → False := by
    intro found
    obtain ⟨stream, present, -⟩ := map_eq_some_iff.mp found
    cases present
  have noCredit : (Streams.new side nextBidi nextUni maxSent).heldCredit = 0 := rfl
  have window := (zero_add CONN_RECV_WINDOW).symm
  exact
    { balanced id account found := (empty id account found).elim
      sendOnly id account found := (empty id account found).elim
      frontier id account found := (empty id account found).elim
      window := window
      outstanding := by rw [noCredit]; rfl
      limited := Nat.zero_le _
      settled := forall_mem_nil _ }

variable {first second table : Streams} {id finish : Nat}
  {old new : RecvAccount} {stream : Stream} {fin : Bool}

theorem heldCredit_of_account (same : ∀ id, second.account id = first.account id) :
    second.heldCredit = first.heldCredit := by
  have agree (id : Nat) : (second.streams.map fun _ stream => stream.toRecvAccount)[id]? =
        (first.streams.map fun _ stream => stream.toRecvAccount)[id]? := by
    rw [Std.TreeMap.getElem?_map, Std.TreeMap.getElem?_map]
    exact same id
  have sums := total_of_lookup (fun _ account => account.held) agree
  rw [total_map, total_map] at sums
  exact sums

/-- One account changes, and the sum by its difference. -/
theorem heldCredit_replace (before : first.account id = some old)
    (after : second.account id = some new)
    (others : ∀ other, id ≠ other → second.account other = first.account other) :
    old.held + second.heldCredit = new.held + first.heldCredit := by
  have lookup (table : Streams) (id : Nat) :
      (table.streams.map fun _ stream => stream.toRecvAccount)[id]? = table.account id := by
    exact Std.TreeMap.getElem?_map
  have exchanged := total_replace (fun _ account => account.held)
    ((lookup first id).trans before) ((lookup second id).trans after)
    (by
      intro other ne
      rw [lookup, lookup, others other ne])
  rw [total_map, total_map] at exchanged
  exact exchanged

theorem Conserved.counters (inv : first.Conserved)
    (credit : second.toConnCredit = first.toConnCredit)
    (held : second.heldCredit = first.heldCredit) :
    second.recvMaxData = second.recvDataConsumed + CONN_RECV_WINDOW ∧
      second.recvDataTotal = second.recvDataConsumed + second.heldCredit ∧
      second.recvDataTotal ≤ second.recvMaxData := by
  rw [credit, held]
  exact ⟨inv.window, inv.outstanding, inv.limited⟩

/-- Only the flow of a table matters. -/
theorem Conserved.of_flow (inv : first.Conserved)
    (same : second.flow = first.flow) : second.Conserved := by
  have side : second.side = first.side := congrArg FlowView.side same
  have opened : second.peerStreamsOpened = first.peerStreamsOpened := congrArg FlowView.opened same
  have account : second.account = first.account := congrArg FlowView.account same
  obtain ⟨window, outstanding, limited⟩ := inv.counters
    (congrArg FlowView.credit same) (heldCredit_of_account (congrFun account))
  have retired : second.retired = first.retired := congrArg FlowView.retired same
  exact
    { balanced := by
        rw [account]
        exact inv.balanced
      sendOnly := by
        intro id
        rw [account, isPeerInitiated_of_side side]
        exact inv.sendOnly id
      frontier := by
        intro id
        rw [account, isPeerInitiated_of_side side, opened]
        exact inv.frontier id
      window := window
      outstanding := outstanding
      limited := limited
      settled := by
        rw [retired]
        exact inv.settled }

/-- `second` differs from `first` in the account of one stream, and perhaps in
the credit counters. -/
structure Replaces (first second : Streams) (id : Nat) (old new : RecvAccount) : Prop where
  before : first.account id = some old
  after : second.account id = some new
  others : ∀ other, id ≠ other → second.account other = first.account other
  side : second.side = first.side
  opened : second.peerStreamsOpened = first.peerStreamsOpened
  retired : second.retired = first.retired

theorem replaces_modifyStream
    (found : table.streams[id]? = some stream) (change : Stream → Stream) :
    Replaces table (table.modifyStream id change) id
      stream.toRecvAccount (change stream).toRecvAccount where
  before := account_of_lookup found
  after := by
    apply account_of_lookup
    rw [lookup_modifyStream, if_pos rfl, found, map_some]
  others := by
    intro _ ne
    rw [account, account, lookup_modifyStream, if_neg ne]
  side := rfl
  opened := rfl
  retired := rfl

namespace Replaces

variable {first second third : Streams} {id : Nat}
  {old new newer : RecvAccount}

variable (replaces : Replaces first second id old new)
include replaces

theorem trans (again : Replaces second third id new newer) : Replaces first third id old newer where
  before := replaces.before
  after := again.after
  others := by
    intro other ne
    rw [again.others other ne, replaces.others other ne]
  side := again.side.trans replaces.side
  opened := again.opened.trans replaces.opened
  retired := again.retired.trans replaces.retired

theorem setPending (pendingTotal : Nat) :
    Replaces first { second with recvPendingTotal := pendingTotal } id old new :=
  { replaces with }

theorem setTotal (dataTotal : Nat) :
    Replaces first { second with recvDataTotal := dataTotal } id old new :=
  { replaces with }

end Replaces

/-! ## Releasing and retiring -/

theorem Replaces.credit (replaces : Replaces first second id old new) (bytes : Nat) :
    Replaces first (second.creditConnectionWindow bytes) id old new := by
  unfold creditConnectionWindow
  by_cases nothing : bytes = 0
  · rw [if_pos nothing]
    exact replaces
  · rw [if_neg nothing]
    exact { replaces with }

theorem counters_credit (bytes : Nat)
    (window : table.recvMaxData = table.recvDataConsumed + CONN_RECV_WINDOW) :
    (table.creditConnectionWindow bytes).recvDataTotal = table.recvDataTotal ∧
      (table.creditConnectionWindow bytes).recvDataConsumed = table.recvDataConsumed + bytes ∧
      (table.creditConnectionWindow bytes).recvMaxData =
        table.recvDataConsumed + bytes + CONN_RECV_WINDOW := by
  unfold creditConnectionWindow
  by_cases nothing : bytes = 0
  · rw [if_pos nothing, nothing]
    exact ⟨rfl, rfl, window⟩
  · rw [if_neg nothing]
    exact ⟨rfl, rfl, rfl⟩

section

variable {charged released : Nat} (inv : first.Conserved)
  (replaces : Replaces first second id old new) (bal : new.Balanced)
  (sendOnly : isUni id = true → first.isPeerInitiated id = false → new.recvHigh = 0)
  (limited : first.recvDataTotal + charged ≤ first.recvMaxData)
  (credit : second.toConnCredit =
    { first.toConnCredit with recvDataTotal := first.recvDataTotal + charged })
include inv replaces bal sendOnly limited credit

/-- A stream is charged for new bytes and gives others back. -/
theorem Conserved.settle (held : new.held + released = old.held + charged) :
    (second.creditConnectionWindow released).Conserved := by
  have window : second.recvMaxData = second.recvDataConsumed + CONN_RECV_WINDOW := by
    rw [credit]
    exact inv.window
  obtain ⟨total, consumed, limit⟩ := counters_credit released window
  simp only [credit] at total consumed limit
  have replaces := replaces.credit released
  generalize second.creditConnectionWindow released = third at *
  have either {other account} : third.account other = some account →
      (id = other ∧ account = new) ∨ (id ≠ other ∧ first.account other = some account) := by
    intro found
    by_cases same : id = other
    · subst same
      rw [replaces.after] at found
      exact .inl ⟨rfl, (Option.some.inj found).symm⟩
    · rw [replaces.others other same] at found
      exact .inr ⟨same, found⟩
  exact
    { balanced := by
        intro other account found
        rcases either found with ⟨-, rfl⟩ | ⟨-, old⟩
        · exact bal
        · exact inv.balanced other account old
      sendOnly := by
        intro other account found uni
        rw [isPeerInitiated_of_side replaces.side]
        rcases either found with ⟨rfl, rfl⟩ | ⟨-, old⟩
        · exact sendOnly uni
        · exact inv.sendOnly other account old uni
      frontier := by
        intro other account found
        rw [isPeerInitiated_of_side replaces.side, replaces.opened]
        rcases either found with ⟨rfl, rfl⟩ | ⟨-, old⟩
        · exact inv.frontier id old replaces.before
        · exact inv.frontier other account old
      window := by rw [limit, consumed]
      outstanding := by
        have exchanged := heldCredit_replace replaces.before replaces.after replaces.others
        have before := inv.outstanding
        omega
      limited := by
        have before := inv.window
        omega
      settled := by
        rw [replaces.retired]
        exact inv.settled }

theorem Conserved.charge (held : new.held = old.held + charged) : second.Conserved :=
  show (second.creditConnectionWindow 0).Conserved from
    inv.settle replaces bal sendOnly limited credit held

end

/-- No account of a stream that receives is of the other kind. -/
theorem sendOnly_of_receives (receives : isUni id = true → table.isPeerInitiated id = true)
    {account : RecvAccount} (uni : isUni id = true) (notPeer : table.isPeerInitiated id = false) :
    account.recvHigh = 0 := by
  rw [receives uni] at notPeer
  cases notPeer

section

variable (inv : table.Conserved)
include inv

theorem Conserved.held_eq_zero (present : table.streams[id]? = some stream)
    (ready : table.retirable id stream = true) : stream.recvHigh = stream.recvCredited := by
  have found := account_of_lookup present
  have bal := inv.balanced id _ found
  have below := bal.credited_le
  unfold retirable at ready
  simp only [and_eq_true, or_eq_true] at ready
  obtain ⟨⟨⟨-, done⟩, -⟩, -⟩ := ready
  rcases done with ⟨uni, notPeer⟩ | ⟨released, -⟩
  · have nothing := inv.sendOnly id _ found uni (by simpa using notPeer)
    omega
  · exact (bal.released released).symm

/-- A stream that is removed holds nothing. -/
theorem Conserved.retire (id : Nat) : (table.retireStream id).Conserved := by
  apply retireStream_rule _ inv
  intro second stream retires
  have settled := inv.held_eq_zero retires.present retires.ready
  have survives {other account} : second.account other = some account →
      table.account other = some account := by
    intro found
    rw [Streams.account, retires.lookup] at found
    by_cases same : id = other
    · rw [if_pos same] at found
      cases found
    · rw [if_neg same] at found
      exact found
  have held : second.heldCredit = table.heldCredit := by
    have removed := total_erase (fun _ stream => stream.toRecvAccount.held) retires.present
    have nothing : stream.toRecvAccount.held = 0 := by
      unfold RecvAccount.held
      omega
    rw [heldCredit, heldCredit, retires.streams]
    omega
  obtain ⟨window, outstanding, limited⟩ := inv.counters retires.credit held
  exact
    { balanced other account found := inv.balanced other account (survives found)
      sendOnly := by
        intro other account found
        rw [isPeerInitiated_of_side retires.side]
        exact inv.sendOnly other account (survives found)
      frontier := by
        intro other account found
        rw [isPeerInitiated_of_side retires.side, retires.opened]
        exact inv.frontier other account (survives found)
      window := window
      outstanding := outstanding
      limited := limited
      settled := by
        rw [retires.retired]
        exact forall_mem_append.mpr ⟨inv.settled, forall_mem_singleton.mpr settled⟩ }

/-! ## New streams -/

omit inv in
/-- A new stream holds nothing. -/
theorem Conserved.insert (inv : first.Conserved) (absent : first.streams[id]? = none)
    (streams : second.streams = first.streams.insert id stream)
    (fresh : stream.toRecvAccount = Stream.fresh.toRecvAccount) (side : second.side = first.side)
    (credit : second.toConnCredit = first.toConnCredit) (retired : second.retired = first.retired)
    (opened : ∀ kind, first.peerStreamsOpened kind ≤ second.peerStreamsOpened kind)
    (frontier : first.isPeerInitiated id = true → id / 4 < second.peerStreamsOpened (kindOf id)) :
    second.Conserved := by
  have either {other account} : second.account other = some account →
      (id = other ∧ account = Stream.fresh.toRecvAccount) ∨ first.account other = some account := by
    intro found
    rw [Streams.account, streams, lookup_insert] at found
    by_cases same : id = other
    · rw [if_pos same, map_some, fresh] at found
      exact .inl ⟨same, (Option.some.inj found).symm⟩
    · rw [if_neg same] at found
      exact .inr found
  have held : second.heldCredit = first.heldCredit := by
    have nothing : stream.toRecvAccount.held = 0 := by
      rw [fresh]
      rfl
    rw [heldCredit, heldCredit, streams, total_insert _ stream absent, nothing, zero_add]
  obtain ⟨window, outstanding, limited⟩ := inv.counters credit held
  exact
    { balanced := by
        intro other account found
        rcases either found with ⟨-, rfl⟩ | old
        · exact .fresh
        · exact inv.balanced other account old
      sendOnly := by
        intro other account found uni
        rw [isPeerInitiated_of_side side]
        rcases either found with ⟨-, rfl⟩ | old
        · intro _
          rfl
        · exact inv.sendOnly other account old uni
      frontier := by
        intro other account found
        rw [isPeerInitiated_of_side side]
        rcases either found with ⟨rfl, -⟩ | old
        · exact frontier
        · intro peer
          exact lt_of_lt_of_le (inv.frontier other account old peer) (opened _)
      window := window
      outstanding := outstanding
      limited := limited
      settled := by
        rw [retired]
        exact inv.settled }

theorem Conserved.openNext (peer : table.isPeerInitiated id = true)
    (frontier : table.peerStreamsOpened (kindOf id) = id / 4) : (table.openNext id).Conserved := by
  have absent : table.streams[id]? = none := by
    cases found : table.streams[id]? with
    | none => rfl
    | some =>
      have below := inv.frontier id _ (account_of_lookup found) peer
      omega
  have streams : (table.openNext id).streams =
      table.streams.insert id
        { Stream.fresh with sendMax := table.peerSendLimit id } := by
    rw [Streams.openNext, openPeerStream_eq]
  have history := toStreamHistory_openNext table id
  apply inv.insert absent streams rfl
  · exact side_openPeerStream table id
  · exact toConnCredit_openNext table id
  · exact congrArg StreamHistory.retired history
  · exact (peerStreamsOpened_openNext frontier).1
  · exact fun _ => (peerStreamsOpened_openNext frontier).2

theorem Conserved.ensure (alive : table.streamRetired id = false) (ty : Nat) :
    (table.ensureStream id ty).1.Conserved := by
  apply ensureStream_rule _ alive inv
  intro _ _ inv peer frontier
  exact inv.openNext peer frontier

/-! ## Reading and abandoning -/

theorem Conserved.discard (id : Nat) : (table.discardStreamRecv id).Conserved := by
  unfold discardStreamRecv
  cases present : table.streams[id]? with
  | none => exact inv
  | some stream =>
    have found := account_of_lookup present
    have bal := inv.balanced id _ found
    have held :
        stream.discardRecv.held + (stream.recvHigh - stream.recvCredited) = stream.held + 0 := by
      simp only [RecvAccount.held, Stream.discardRecv]
      omega
    have replaces := (replaces_modifyStream present
      .discardRecv).setPending (table.recvPendingTotal - bufferedBytes stream.recvPending)
    have sendOnly := inv.sendOnly id _ found
    have released := inv.settle replaces bal.discard sendOnly inv.limited rfl held
    exact released.retire id

theorem Conserved.read (id : Nat) : (table.readStream id).1.Conserved := by
  unfold readStream
  cases present : table.streams[id]? with
  | none => exact inv
  | some stream =>
    have found := account_of_lookup present
    have bal := inv.balanced id _ found
    have unread := bal.unreadHeld
    have held : stream.takeRecv.held + stream.recv.length = stream.held + 0 := by
      simp only [RecvAccount.held, Stream.takeRecv]
      omega
    have replaces := replaces_modifyStream present .takeRecv
    have sendOnly := inv.sendOnly id _ found
    have released := inv.settle replaces bal.read sendOnly inv.limited rfl held
    exact released.retire id

end

theorem Conserved.acceptBiLoop (rounds : Nat) (inv : table.Conserved) :
    (Streams.acceptBiLoop rounds table).1.Conserved := by
  induction rounds generalizing table with
  | zero => exact inv
  | succ _ ih =>
    unfold Streams.acceptBiLoop
    cases waiting : table.acceptBidi with
    | nil => exact inv
    | cons id queue =>
      have popped : Conserved { table.noteTaken .bidi id with acceptBidi := queue } :=
        inv.of_flow rfl
      dsimp only
      split
      · exact ih (popped.discard id)
      · exact popped

/-! ## Frames of the peer -/

/-- The checks that a STREAM frame which ends at `finish` has passed. -/
structure Admits (table : Streams) (current : RecvHalf) (finish : Nat) (fin : Bool) : Prop where
  within : ∀ size, current.recvFin = some size → finish ≤ size
  same : ∀ size, current.recvFin = some size → fin = true → finish = size
  covers : fin = true → current.recvHigh ≤ finish
  limited :
    table.recvDataTotal + (max finish current.recvHigh - current.recvHigh) ≤ table.recvMaxData

/-- Both windows and the final size are checked before anything is stored. -/
theorem validateStream_ok (ok : table.validateStream id finish fin = .ok ()) :
    Admits table (table.recvHalf id) finish fin := by
  unfold validateStream at ok
  dsimp only at ok
  split at ok
  · cases ok
  rename_i sized
  split at ok
  · cases ok
  rename_i covered
  split at ok
  · cases ok
  split at ok
  · cases ok
  rename_i limited
  have known size : (table.recvHalf id).recvFin = some size →
      finish ≤ size ∧ (fin = true → finish = size) := by
    intro final
    rw [final] at sized
    simpa [not_lt] using sized
  exact
    { within size final := (known size final).1
      same size final := (known size final).2
      covers isFin := Nat.le_of_not_lt fun below =>
        covered ⟨isFin, below⟩
      limited := by omega }

variable {current : RecvHalf} {ensured : Streams} {finalSize : Nat}

theorem Admits.final (admits : Admits table current finish fin)
    (bal : current.toRecvAccount.Balanced) (size : Nat)
    (recorded : (if fin then some finish else none).or current.recvFin = some size) :
    max finish current.recvHigh ≤ size := by
  cases isFin : fin with
  | true =>
    rw [isFin, if_pos rfl, some_or] at recorded
    have covers := admits.covers isFin
    have equal := Option.some.inj recorded
    omega
  | false =>
    rw [isFin, if_neg Bool.false_ne_true, none_or] at recorded
    have within := admits.within size recorded
    have below := bal.final size recorded
    omega

/-- What is stored was charged to both windows. -/
theorem Conserved.store {offset : Nat} {data : List UInt8}
    (inv : table.Conserved) (found : table.streams[id]? = some stream)
    (receives : isUni id = true → table.isPeerInitiated id = true)
    (admits : Admits table stream.toRecvHalf (offset + data.length) fin) :
    (table.storeStream id offset fin data (max (offset + data.length) stream.recvHigh)
      (max (offset + data.length) stream.recvHigh - stream.recvHigh)).1.Conserved := by
  have bal := inv.balanced id _ (account_of_lookup found)
  have final := admits.final bal
  have limited := admits.limited
  have ends : offset + data.length ≤ max (offset + data.length) stream.recvHigh := le_max_left _ _
  have grows : stream.recvHigh ≤ max (offset + data.length) stream.recvHigh := le_max_right _ _
  have credited := bal.credited_le
  generalize max (offset + data.length) stream.recvHigh = newHigh at *
  unfold storeStream
  rw [found]
  dsimp only
  generalize (if fin = true then some (offset + data.length) else none) = recvFin at *
  cases isReset : stream.recvReset with
  | some => exact inv
  | none =>
    have charges : Replaces table
        (table.chargeStream id newHigh (newHigh - stream.recvHigh) recvFin)
        id stream.toRecvAccount (stream.charge newHigh recvFin).toRecvAccount :=
      (replaces_modifyStream found _).setTotal _
    have charged :
        (table.chargeStream id newHigh (newHigh - stream.recvHigh)
          recvFin).streams[id]? = some (stream.charge newHigh recvFin) := by
      rw [chargeStream, lookup_modifyStream, if_pos rfl, found, map_some]
    cases released : stream.recvReleased with
    | true =>
      have offset_le :
          (if (recvFin.or stream.recvFin).any (· ≤ newHigh) then newHigh
            else stream.recvOff) ≤ newHigh := by
        have below : stream.recvOff ≤ stream.recvHigh := bal.offset_le
        split <;> omega
      have held :
          ((stream.charge newHigh recvFin).releaseLate newHigh
              (newHigh - stream.recvHigh)).held + (newHigh - stream.recvHigh) =
          stream.held + (newHigh - stream.recvHigh) := by
        simp only [RecvAccount.held, Stream.releaseLate, Stream.charge]
        omega
      have replaces := charges.trans
        (replaces_modifyStream charged (·.releaseLate newHigh (newHigh - stream.recvHigh)))
      have late := inv.settle replaces (bal.late isReset released grows offset_le final)
        (sendOnly_of_receives receives) limited rfl held
      exact late.retire id
    | false =>
      have next := bal.charge isReset released grows final
      have held : newHigh - stream.recvCredited =
          stream.recvHigh - stream.recvCredited + (newHigh - stream.recvHigh) := by
        omega
      by_cases beyond : stream.recvOff < offset
      · rw [if_pos beyond]
        apply bufferFragment_rule
        · exact inv.charge charges next (sendOnly_of_receives receives) limited rfl held
        · intro pendingTotal
          exact inv.charge
            ((charges.trans (replaces_modifyStream charged _)).setPending pendingTotal)
            (next.wait ends) (sendOnly_of_receives receives) limited rfl held
      · rw [if_neg beyond]
        exact inv.charge ((charges.trans (replaces_modifyStream charged _)).setPending _)
          (next.absorb isReset released ends) (sendOnly_of_receives receives) limited rfl held

theorem Conserved.reached {ty : Nat} (inv : table.Conserved)
    (reaches : Reaches table ensured id ty stream) :
    ensured.Conserved ∧ ensured.toConnCredit = table.toConnCredit ∧
      ensured.isPeerInitiated id = table.isPeerInitiated id := by
  have next := inv.ensure reaches.alive ty
  have credit := toConnCredit_ensureStream ty reaches.alive
  have side := side_ensureStream ty reaches.alive
  rw [reaches.accepted] at next credit side
  exact ⟨next, credit, isPeerInitiated_of_side side id⟩

/-- The window is kept by every STREAM frame, also by one that fails. -/
theorem Conserved.recvStream (inv : table.Conserved) (id offset : Nat)
    (fin : Bool) (data : List UInt8) : (table.recvStream id offset fin data).1.Conserved := by
  rcases recvStream_cases table id offset fin data with
    ⟨_, same⟩ | ⟨-, same⟩ | ⟨_, _, reaches, checked, stored⟩
  · rw [same]
    exact inv
  · rw [same]
    exact inv
  · obtain ⟨next, credit, peer⟩ := inv.reached reaches
    have admits := validateStream_ok checked
    rw [← reaches.same] at admits
    rw [stored]
    apply next.store reaches.present
    · rw [peer]
      exact reaches.receives
    · exact { admits with limited := credit ▸ admits.limited }

theorem validateReset_ok (ok : table.validateReset id finalSize = .ok ()) :
    (∀ size, (table.recvHalf id).recvFin = some size → size = finalSize) ∧
      (table.recvHalf id).recvHigh ≤ finalSize ∧
      table.recvDataTotal + (finalSize - (table.recvHalf id).recvHigh) ≤ table.recvMaxData := by
  unfold validateReset at ok
  dsimp only at ok
  split at ok
  · cases ok
  rename_i sized
  split at ok
  · cases ok
  rename_i covered
  split at ok
  · cases ok
  split at ok
  · cases ok
  rename_i limited
  refine ⟨?_, by omega, by omega⟩
  intro _ final
  rw [final] at sized
  simpa using sized

theorem Conserved.storeReset (inv : table.Conserved) (found : table.streams[id]? = some stream)
    (receives : isUni id = true → table.isPeerInitiated id = true)
    (known : ∀ size, stream.recvFin = some size → size = finalSize)
    (grows : stream.recvHigh ≤ finalSize)
    (limited : table.recvDataTotal + (finalSize - stream.recvHigh) ≤
      table.recvMaxData) (code : Nat) :
    (table.storeReset id code finalSize (finalSize - stream.recvHigh)).1.Conserved := by
  have bal := inv.balanced id _ (account_of_lookup found)
  have unread := bal.unreadHeld
  have charges : Replaces table
      (table.chargeReset id code finalSize (finalSize - stream.recvHigh))
      id stream.toRecvAccount (stream.resetRecv code finalSize).toRecvAccount :=
    (replaces_modifyStream found _).setTotal _
  have charged :
      (table.chargeReset id code finalSize
          (finalSize - stream.recvHigh)).streams[id]? = some (stream.resetRecv code finalSize) := by
    rw [chargeReset, lookup_modifyStream, if_pos rfl, found, map_some]
  unfold Streams.storeReset
  rw [found]
  apply Conserved.retire
  cases isReset : stream.recvReset with
  | some =>
    obtain ⟨-, again⟩ := bal.repeatedReset code (by rw [isReset]; rfl) known
    have held : finalSize - stream.recvCredited =
        stream.recvHigh - stream.recvCredited + (finalSize - stream.recvHigh) := by
      omega
    exact inv.charge charges again (sendOnly_of_receives receives) limited rfl held
  | none =>
    have held :
        finalSize - (stream.recvCredited + (finalSize - stream.recv.length - stream.recvCredited)) +
            (finalSize - stream.recv.length - stream.recvCredited) =
          stream.recvHigh - stream.recvCredited + (finalSize - stream.recvHigh) := by
      omega
    exact inv.settle ((charges.trans (replaces_modifyStream charged _)).setPending _)
      (bal.firstReset code grows) (sendOnly_of_receives receives) limited rfl held

theorem Conserved.recvResetStream (inv : table.Conserved) (id code finalSize : Nat) :
    (table.recvResetStream id code finalSize).1.Conserved := by
  rcases recvResetStream_cases table id code finalSize with
    ⟨_, same⟩ | ⟨_, _, reaches, checked, stored⟩
  · rw [same]
    exact inv
  · obtain ⟨next, credit, peer⟩ := inv.reached reaches
    obtain ⟨known, grows, limited⟩ := validateReset_ok checked
    rw [← reaches.same] at known grows limited
    rw [stored]
    apply next.storeReset reaches.present _ known grows
    · rw [credit]
      exact limited
    · rw [peer]
      exact reaches.receives

/-! ## Operations that receive nothing -/

theorem flow_ensurePeerFlow (table : Streams) (params : Option TransportParameters) :
    (table.ensurePeerFlow params).flow = table.flow := by
  unfold ensurePeerFlow
  by_cases applied : table.peerFlowApplied = true
  · rw [if_pos applied]
  · rw [if_neg applied]
    cases params with
    | none => rfl
    | some => exact flow_map fun _ _ => rfl

theorem flow_advanceNext (table : Streams) (id : Nat) :
    (table.advanceNext id).flow = table.flow := by
  unfold advanceNext
  split
  · rfl
  split <;> rfl

theorem Conserved.insertFresh (inv : table.Conserved)
    (ours : table.streams.contains id = false → table.isPeerInitiated id = false) :
    (table.orInsertFresh id).Conserved := by
  unfold orInsertFresh
  by_cases found : table.streams.contains id = true
  · rw [if_pos found]
    exact inv
  · rw [if_neg found]
    rw [not_eq_true] at found
    apply inv.insert (lookup_eq_none found)
    · rfl
    · rfl
    · rfl
    · rfl
    · rfl
    · intro _
      exact le_rfl
    · intro peer
      rw [ours found] at peer
      cases peer

theorem Conserved.create (inv : table.Conserved)
    (known : table.known id = true) (params : Option TransportParameters) :
    (table.createLocalStream params id).Conserved := by
  unfold createLocalStream
  by_cases gone : table.streamRetired id = true
  · rw [if_pos gone]
    exact inv
  rw [if_neg gone]
  have same := flow_ensurePeerFlow table params
  have flowing := inv.of_flow same
  have inserted : ((table.ensurePeerFlow params).orInsertFresh id).Conserved := by
    apply flowing.insertFresh
    intro found
    have absent : table.streams.contains id = false := by
      rw [contains_eq_account] at found ⊢
      rw [← found]
      exact congrArg (fun view => (view.account id).isSome) same.symm
    rw [isPeerInitiated_of_side (congrArg FlowView.side same)]
    simpa [Streams.known, absent, gone] using known
  apply inserted.of_flow
  rw [flow_advanceNext]
  exact flow_modifyStream fun _ => rfl

/-- Every operation keeps the window. -/
theorem Conserved.op {other : Streams} (inv : table.Conserved)
    (changed : Op table other) : other.Conserved := by
  cases changed with
  | recvStream id offset fin data => exact inv.recvStream id offset fin data
  | recvResetStream id code finalSize => exact inv.recvResetStream id code finalSize
  | readStream id => exact inv.read id
  | discardStreamRecv id => exact inv.discard id
  | acceptBi => exact inv.acceptBiLoop _
  | retireStream id => exact inv.retire id
  | ensureStream _ ty alive => exact inv.ensure alive ty
  | createLocalStream params _ known => exact inv.create known params
  | queueData | stopSend | markCancelled =>
    apply inv.of_flow (flow_modifyStream _)
    intro stream
    split <;> rfl
  | finishStream | raiseMaxStreamData | markResetSent =>
    exact inv.of_flow (flow_modifyStream fun _ => rfl)
  | compactSendBuffer =>
    apply inv.of_flow (flow_modifyStream _)
    intro _
    unfold compactStream
    dsimp only
    split <;> rfl
  | acceptUni => exact inv.of_flow (by unfold takeAcceptUni; split <;> rfl)
  | raiseMaxData | raiseMaxStreams => exact inv.of_flow rfl
  | flowUpdateSent => exact inv.of_flow (flow_flowUpdateSent table)

/-! ## Ranges in flight hold no receive credit -/

theorem flow_advanceFresh (table : Streams) (id : Nat) (chunk : Chunk) :
    (table.advanceFresh id chunk).flow = table.flow := by
  have same :
      (table.modifyStream id fun stream =>
        { stream with
          sendOff := chunk.finish
          finSent := stream.finSent || chunk.fin }).flow = table.flow :=
    flow_modifyStream fun _ => rfl
  exact same

theorem flow_chunkSent (table : Streams) (id : Nat) (chunk : Chunk) :
    (table.chunkSent id chunk).flow = table.flow := by
  unfold chunkSent
  split
  · apply flow_modifyStream
    intro stream
    cases stream.retransmit with
    | nil => rfl
    | cons =>
      dsimp only
      split <;> rfl
  · exact flow_advanceFresh table id chunk

theorem flow_zeroRttChunkSent (table : Streams) (id : Nat) (chunk : Chunk) :
    (table.zeroRttChunkSent id chunk).flow = table.flow := by
  unfold zeroRttChunkSent
  split
  · exact flow_modifyStream fun _ => rfl
  · exact flow_advanceFresh table id chunk

theorem flow_markAcked (table : Streams) (content : SentContent) :
    (table.markAcked content).flow = table.flow := by
  have finished : (content.stream.foldl ackRange table).flow = table.flow := by
    apply foldl_unseen flow
    intro table _
    unfold ackRange
    split
    · exact flow_modifyStream fun _ => rfl
    · rfl
  refine (foldl_unseen flow ?_ _ _).trans finished
  intro _ _
  exact flow_modifyStream fun _ => rfl

theorem Conserved.requeueRange (inv : table.Conserved)
    (entry : Nat × StreamRange) : (table.requeueRange entry).Conserved := by
  apply Conserved.retire
  apply inv.of_flow (flow_modifyStream _)
  intro _
  split <;> rfl

theorem Conserved.requeue (inv : table.Conserved) (content : SentContent) :
    (table.requeue content).Conserved := by
  have queued : (content.stream.foldl .requeueRange table).Conserved := by
    induction content.stream generalizing table with
    | nil => exact inv
    | cons entry _ ih => exact ih (inv.requeueRange entry)
  have grown :
      (content.maxStreamData.foldl rearmWindow
        (content.stream.foldl .requeueRange table)).Conserved := by
    apply queued.of_flow
    apply foldl_unseen flow
    intro table id
    exact flow_modifyStream fun _ => rfl
  have rearmed :
      (content.reset.foldl rearmReset
        (content.maxStreamData.foldl rearmWindow
          (content.stream.foldl .requeueRange table))).Conserved := by
    apply grown.of_flow
    apply foldl_unseen flow
    intro _ _
    apply flow_modifyStream
    intro _
    split <;> rfl
  exact rearmed.of_flow rfl

end Streams

namespace Delivery

variable (view : Delivery) (space : SpaceId) (pn : Nat) (content : SentContent)

theorem flow_store : (view.store space pn content).table.flow = view.table.flow := by
  unfold store
  split
  · apply foldl_unseen Streams.flow
    exact fun _ _ => flow_modifyStream fun _ => rfl
  · rfl

theorem flow_take : (view.take space pn content).table.flow = view.table.flow := by
  unfold take
  split
  · apply foldl_unseen Streams.flow
    exact fun _ _ => flow_modifyStream fun _ => rfl
  · rfl

/-- Every step of delivery keeps the window. -/
theorem Step.conserved {first second : Delivery} (step : Step first second)
    (inv : first.table.Conserved) : second.table.Conserved := by
  cases step with
  | table changed => exact inv.op changed
  | skip | aim | unaim | discard => exact inv
  | control => exact inv.of_flow (flow_store ..)
  | stream =>
    apply inv.of_flow
    exact (flow_chunkSent ..).trans (flow_store ..)
  | zeroRttStream =>
    apply inv.of_flow
    exact (flow_zeroRttChunkSent ..).trans (flow_store ..)
  | acked =>
    apply inv.of_flow
    exact (flow_markAcked _ _).trans (flow_take ..)
  | lost space pn content =>
    have taken := inv.of_flow (flow_take first space pn content)
    exact taken.requeue content
  | probeLost pn content => exact inv.of_flow (flow_take first .data pn content)

end Delivery

end ParallaX.Quic
