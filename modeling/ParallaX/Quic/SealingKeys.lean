import ParallaX.Quic.Refinement

/-!
# Sealing keys and packet numbers

Which key seals the next packet of a space, how many packets a key has sealed,
and under which packet numbers. A TLS session hands over every sealing key of
the 1-RTT space once, and no Handshake keys after 1-RTT keys.
-/

namespace ParallaX.Quic

open List

/-! ## Sessions -/

def KeyChange.keys : KeyChange → Keys
  | .zeroRtt keys => keys
  | .handshake keys => keys
  | .oneRtt keys => keys

/-- A TLS session whose keys come in order. -/
class OrderlyTls (T : Type) extends TlsSession T where
  /-- The sealing keys of the 1-RTT space that were handed over so far. -/
  issued : T → List PacketKey
  atEnd : T → Bool
  read_issued (tls : T) (bytes : List UInt8) : issued tls ⊆ issued (readHandshake tls bytes).1
  read_over (tls : T) (bytes : List UInt8) :
    atEnd tls = true → atEnd (readHandshake tls bytes).1 = true
  write_issued (tls : T) : issued tls ⊆ issued (writeHandshake tls).1
  write_over (tls : T) : atEnd tls = true → atEnd (writeHandshake tls).1 = true
  write_zeroRtt (tls : T) (keys : Keys) :
    (writeHandshake tls).2.2 = some (.zeroRtt keys) →
      keys.localKey ∉ issued tls ∧
        keys.localKey ∈ issued (writeHandshake tls).1 ∧
        keys.localKey.confidentialityLimit < 2 ^ 64
  write_handshake (tls : T) (keys : Keys) :
    (writeHandshake tls).2.2 = some (.handshake keys) → atEnd tls = false
  write_oneRtt (tls : T) (keys : Keys) :
    (writeHandshake tls).2.2 = some (.oneRtt keys) →
      atEnd (writeHandshake tls).1 = true ∧
        keys.localKey ∉ issued tls ∧
        keys.localKey ∈ issued (writeHandshake tls).1 ∧
        keys.localKey.confidentialityLimit < 2 ^ 64
  next_issued (tls : T) : issued tls ⊆ issued (next1rttKeys tls).1
  next_over (tls : T) : atEnd tls = true → atEnd (next1rttKeys tls).1 = true
  next_key (tls : T) (localKey remoteKey : PacketKey) :
    (next1rttKeys tls).2 = .ok (localKey, remoteKey) →
      localKey ∉ issued tls ∧ localKey ∈ issued (next1rttKeys tls).1 ∧
        localKey.confidentialityLimit < 2 ^ 64

def TAG_LEN : Nat := 16

/-- A TLS session whose sealing keys have the tag of every cipher suite. -/
class TaggedTls (T : Type) extends TlsSession T where
  write_tag (tls : T) (change : KeyChange) :
    (writeHandshake tls).2.2 = some change → change.keys.localKey.tagLen = TAG_LEN
  next_tag (tls : T) (localKey remoteKey : PacketKey) :
    (next1rttKeys tls).2 = .ok (localKey, remoteKey) → localKey.tagLen = TAG_LEN
  initial_tag (dcid : ConnectionId) (side : Side) :
    (initialKeys dcid side).localKey.tagLen = TAG_LEN

/-! ## What sealing depends on -/

structure SealSpace where
  key : Option PacketKey
  discarded : Bool
  next : Nat

structure SealingView (T : Type) where
  sealedPackets : List Sealed
  dataSealed : Nat
  zeroRttSealed : Nat
  cached : Option PacketKey
  zeroRttKey : Option PacketKey
  tls : T
  spaces : SpaceId → SealSpace

def SpaceCore.sealSpace (space : SpaceCore) : SealSpace :=
  { key := space.keys.map Keys.localKey
    discarded := space.discarded
    next := space.send.next }

def Core.sealing {T : Type} (core : Core T) : SealingView T :=
  { sealedPackets := core.sealedPackets
    dataSealed := core.dataPacketsSealed
    zeroRttSealed := core.zeroRttPacketsSealed
    cached := core.nextPacketKeys.bind NextPacketKeys.localKey
    zeroRttKey := core.zeroRttKeys.map Keys.localKey
    tls := core.tls
    spaces space := (core.spaces space).sealSpace }

namespace SealingView

variable {T : Type}

def sealingKey (view : SealingView T) (space : SpaceId) : Option PacketKey :=
  match (view.spaces space).key with
  | some key => some key
  | none => if space = .data then view.zeroRttKey else none

def dataCount (view : SealingView T) : Nat :=
  if (view.spaces .data).key.isSome then view.dataSealed
  else view.zeroRttSealed

def mapSpace (view : SealingView T) (space : SpaceId)
    (change : SealSpace → SealSpace) : SealingView T :=
  { view with spaces := Function.update view.spaces space (change (view.spaces space)) }

def emit (view : SealingView T) (space : SpaceId) (key : PacketKey) : SealingView T :=
  let early := (view.spaces .data).key.isNone
  { view.mapSpace space fun sp => { sp with next := sp.next + 1 } with
    dataSealed :=
      if space = .data ∧ early = false then saturatingSucc view.dataSealed
      else view.dataSealed
    zeroRttSealed :=
      if space = .data ∧ early = true then saturatingSucc view.zeroRttSealed
      else view.zeroRttSealed
    sealedPackets :=
      view.sealedPackets ++ [⟨space, key, (view.spaces space).next⟩] }

/-- Take over what the TLS session hands over; a client drops its 0-RTT keys
for 1-RTT keys. -/
def install (view : SealingView T) (client : Bool) (tls : T) :
    Option KeyChange → SealingView T
  | none => { view with tls := tls }
  | some (.zeroRtt keys) => { view with tls := tls, zeroRttKey := some keys.localKey }
  | some (.handshake keys) =>
    { view.mapSpace .handshake fun sp =>
        { sp with key := some keys.localKey } with
      tls := tls }
  | some (.oneRtt keys) =>
    { view.mapSpace .data fun sp => { sp with key := some keys.localKey } with
      tls := tls
      zeroRttKey := if client then none else view.zeroRttKey }

inductive Step [TlsSession T] : SealingView T → SealingView T → Prop
  | same (view : SealingView T) : Step view view
  | emit {view : SealingView T} {space : SpaceId} {key : PacketKey}
      (keyed : view.sealingKey space = some key)
      (budget : space = .data → view.dataCount < key.confidentialityLimit) :
      Step view (view.emit space key)
  | read (view : SealingView T) (bytes : List UInt8) :
      Step view
        { view with tls := (TlsSession.readHandshake view.tls bytes).1 }
  | write (view : SealingView T) (client : Bool) :
      Step view
        (view.install client (TlsSession.writeHandshake view.tls).1
          (TlsSession.writeHandshake view.tls).2.2)
  | derive {view : SealingView T} {localKey remoteKey : PacketKey}
      (derived : (TlsSession.next1rttKeys view.tls).2 = .ok (localKey, remoteKey)) :
      Step view
        { view with tls := (TlsSession.next1rttKeys view.tls).1, cached := some localKey }
  | deriveFails (view : SealingView T) :
      Step view { view with tls := (TlsSession.next1rttKeys view.tls).1 }
  | rotate {view : SealingView T} {key : PacketKey} (cached : view.cached = some key)
      (keyed : (view.spaces .data).key.isSome = true) :
      Step view
        { view.mapSpace .data fun sp => { sp with key := some key } with
          cached := none
          dataSealed := 0 }
  | spend (view : SealingView T) : Step view { view with cached := none }
  | discard {view : SealingView T} {space : SpaceId} (early : space ≠ .data)
      (atEnd : space = .handshake → (view.spaces .data).key.isSome = true) :
      Step view (view.mapSpace space fun _ => ⟨none, true, 0⟩)
  | learn {view : SealingView T} (dcid : ConnectionId)
      (alive : (view.spaces .initial).discarded = false) :
      Step view
        (view.mapSpace .initial fun sp =>
          { sp with key := some (TlsSession.initialKeys (T := T) dcid .server).localKey })

theorem spaces_mapSpace_self (view : SealingView T) (space : SpaceId)
    (change : SealSpace → SealSpace) :
    (view.mapSpace space change).spaces space = change (view.spaces space) :=
  Function.update_self ..

variable {space : SpaceId} {change : SealSpace → SealSpace} {key : PacketKey}
  {packets : List Sealed} {other : SpaceId} {tls : T} {count : Nat}

theorem spaces_mapSpace_of_ne {view : SealingView T} (ne : other ≠ space) :
    (view.mapSpace space change).spaces other = view.spaces other :=
  Function.update_of_ne ne ..

theorem spaces_emit (view : SealingView T) (space : SpaceId) (key : PacketKey) :
    (view.emit space key).spaces =
      (view.mapSpace space fun sp => { sp with next := sp.next + 1 }).spaces :=
  rfl

/-! ## Packet numbers -/

variable [OrderlyTls T] {view later : SealingView T}

def numbers (packets : List Sealed) (space : SpaceId) : List Nat :=
  (packets.filter fun packet => decide (packet.space = space)).map Sealed.pn

theorem numbers_append (first second : List Sealed) (space : SpaceId) :
    numbers (first ++ second) space = numbers first space ++ numbers second space := by
  simp [numbers]

theorem numbers_append_self (packets : List Sealed) (space : SpaceId) (key : PacketKey) (pn : Nat) :
    numbers (packets ++ [⟨space, key, pn⟩]) space = numbers packets space ++ [pn] := by
  simp [numbers]

theorem numbers_append_of_ne {pn : Nat} (ne : space ≠ other) :
    numbers (packets ++ [⟨space, key, pn⟩]) other = numbers packets other := by
  simp [numbers, ne]

structure Ordered (view : SealingView T) : Prop where
  increasing : ∀ space, (numbers view.sealedPackets space).Pairwise (· < ·)
  used : ∀ space, (view.spaces space).discarded = false →
    ∀ pn ∈ numbers view.sealedPackets space, pn < (view.spaces space).next
  silent : ∀ space, (view.spaces space).discarded = true → (view.spaces space).key = none
  alive : (view.spaces .data).discarded = false
  keyed : (view.spaces .data).key.isSome = true → OrderlyTls.atEnd view.tls = true
  ended : (view.spaces .handshake).discarded = true → OrderlyTls.atEnd view.tls = true

section

variable (inv : view.Ordered)
include inv

theorem Ordered.alive_of_key (keyed : view.sealingKey space = some key) :
    (view.spaces space).discarded = false := by
  cases found : (view.spaces space).discarded with
  | false => rfl
  | true =>
    have keyless := inv.silent space found
    have data : space = .data := by
      by_contra early
      simp [sealingKey, keyless, early] at keyed
    rw [data, inv.alive] at found
    cases found

theorem Ordered.emit (keyed : view.sealingKey space = some key) :
    (view.emit space key).Ordered := by
  have alive := inv.alive_of_key keyed
  have same other : ((view.emit space key).spaces other).key = (view.spaces other).key ∧
        ((view.emit space key).spaces other).discarded = (view.spaces other).discarded := by
    rw [spaces_emit]
    by_cases here : other = space
    · subst here
      rw [spaces_mapSpace_self]
      exact ⟨rfl, rfl⟩
    · rw [spaces_mapSpace_of_ne here]
      exact ⟨rfl, rfl⟩
  refine ⟨?_, ?_, ?_, ?_, ?_, ?_⟩
  · intro other
    change (numbers (view.sealedPackets ++ [_]) other).Pairwise _
    by_cases here : space = other
    · subst here
      rw [numbers_append_self]
      apply pairwise_append.mpr
      refine ⟨inv.increasing space, pairwise_singleton _ _, ?_⟩
      intro pn member _ isNext
      rw [mem_singleton.mp isNext]
      exact inv.used space alive pn member
    · rw [numbers_append_of_ne here]
      exact inv.increasing other
  · intro other otherAlive pn member
    rw [(same other).2] at otherAlive
    rw [spaces_emit]
    change pn ∈ numbers (view.sealedPackets ++ [_]) other at member
    by_cases here : space = other
    · subst here
      rw [numbers_append_self, mem_append, mem_singleton] at member
      rw [spaces_mapSpace_self]
      rcases member with old | rfl
      · exact Nat.lt_succ_of_lt (inv.used space otherAlive pn old)
      · exact Nat.lt_succ_self _
    · rw [numbers_append_of_ne here] at member
      rw [spaces_mapSpace_of_ne (Ne.symm here)]
      exact inv.used other otherAlive pn member
  · intro other gone
    rw [(same other).2] at gone
    rw [(same other).1]
    exact inv.silent other gone
  · rw [(same .data).2]
    exact inv.alive
  · rw [(same .data).1]
    exact inv.keyed
  · rw [(same .handshake).2]
    exact inv.ended

theorem Ordered.session (atEnd : OrderlyTls.atEnd view.tls = true → OrderlyTls.atEnd tls = true) :
    Ordered { view with tls := tls } :=
  { inv with keyed keyed := atEnd (inv.keyed keyed), ended gone := atEnd (inv.ended gone) }

theorem Ordered.setKey (key : PacketKey) (alive : (view.spaces space).discarded = false)
    (atEnd : space = .data → OrderlyTls.atEnd view.tls = true) :
    (view.mapSpace space fun sp => { sp with key := some key }).Ordered := by
  have same : ∀ other,
      ((view.mapSpace space fun sp =>
        { sp with key := some key }).spaces other).discarded = (view.spaces other).discarded ∧
      ((view.mapSpace space fun sp =>
        { sp with key := some key }).spaces other).next = (view.spaces other).next := by
    intro other
    by_cases here : other = space
    · subst here
      rw [spaces_mapSpace_self]
      exact ⟨rfl, rfl⟩
    · rw [spaces_mapSpace_of_ne here]
      exact ⟨rfl, rfl⟩
  refine ⟨inv.increasing, ?_, ?_, ?_, ?_, ?_⟩
  · intro other otherAlive pn member
    rw [(same other).1] at otherAlive
    rw [(same other).2]
    exact inv.used other otherAlive pn member
  · intro other gone
    rw [(same other).1] at gone
    by_cases here : other = space
    · rw [here, alive] at gone
      cases gone
    · rw [spaces_mapSpace_of_ne here]
      exact inv.silent other gone
  · rw [(same .data).1]
    exact inv.alive
  · intro keyed
    by_cases here : space = .data
    · exact atEnd here
    · rw [spaces_mapSpace_of_ne (Ne.symm here)] at keyed
      exact inv.keyed keyed
  · rw [(same .handshake).1]
    exact inv.ended

theorem Ordered.discard (early : space ≠ .data)
    (atEnd : space = .handshake → (view.spaces .data).key.isSome = true) :
    (view.mapSpace space fun _ => ⟨none, true, 0⟩).Ordered := by
  have data : (view.mapSpace space fun _ => ⟨none, true, 0⟩).spaces .data = view.spaces .data :=
    spaces_mapSpace_of_ne early.symm
  refine ⟨inv.increasing, ?_, ?_, ?_, ?_, ?_⟩
  · intro other alive pn member
    by_cases here : other = space
    · rw [here, spaces_mapSpace_self] at alive
      cases alive
    · rw [spaces_mapSpace_of_ne here] at alive ⊢
      exact inv.used other alive pn member
  · intro other gone
    by_cases here : other = space
    · rw [here, spaces_mapSpace_self]
    · rw [spaces_mapSpace_of_ne here] at gone ⊢
      exact inv.silent other gone
  · rw [data]
    exact inv.alive
  · rw [data]
    exact inv.keyed
  · intro gone
    by_cases here : space = .handshake
    · exact inv.keyed (atEnd here)
    · rw [spaces_mapSpace_of_ne (Ne.symm here)] at gone
      exact inv.ended gone

theorem Ordered.install (client : Bool) :
    (view.install client (TlsSession.writeHandshake view.tls).1
      (TlsSession.writeHandshake view.tls).2.2).Ordered := by
  have session := inv.session (OrderlyTls.write_over view.tls)
  cases handed : (TlsSession.writeHandshake view.tls).2.2 with
  | none => exact session
  | some change =>
    cases change with
    | zeroRtt =>
      exact { session with }
    | handshake keys =>
      have before := OrderlyTls.write_handshake view.tls keys handed
      have alive : (view.spaces .handshake).discarded = false := by
        cases gone : (view.spaces .handshake).discarded with
        | false => rfl
        | true =>
          rw [inv.ended gone] at before
          cases before
      exact session.setKey keys.localKey alive nofun
    | oneRtt keys =>
      have atEnd := (OrderlyTls.write_oneRtt view.tls keys handed).1
      have keyed := session.setKey keys.localKey session.alive
        fun _ => atEnd
      exact { keyed with }

end

theorem Step.ordered (step : Step view later) (inv : view.Ordered) : later.Ordered := by
  cases step with
  | same => exact inv
  | emit keyed => exact inv.emit keyed
  | read bytes => exact inv.session (OrderlyTls.read_over view.tls bytes)
  | write client => exact inv.install client
  | derive =>
    have session := inv.session (OrderlyTls.next_over view.tls)
    exact { session with }
  | deriveFails => exact inv.session (OrderlyTls.next_over view.tls)
  | @rotate key _ keyed =>
    have set := inv.setKey key inv.alive
      fun _ => inv.keyed keyed
    exact { set with }
  | spend => exact { inv with }
  | discard early atEnd => exact inv.discard early atEnd
  | learn _ alive => exact inv.setKey _ alive nofun

/-! ## Budgets -/

/-- How many 1-RTT and 0-RTT packets a key has sealed. -/
def spent (packets : List Sealed) (key : PacketKey) : Nat :=
  packets.countP fun packet =>
    decide (packet.space = .data) && decide (packet.key = key)

theorem spent_append (packets : List Sealed) (space : SpaceId) (key other : PacketKey) (pn : Nat) :
    spent (packets ++ [⟨space, key, pn⟩]) other =
      spent packets other + if space = .data ∧ key = other then 1 else 0 := by
  simp [spent, countP_append, countP_cons]

structure InUse (handed : List PacketKey) (packets : List Sealed)
    (key : PacketKey) (count : Nat) : Prop where
  issued : key ∈ handed
  limit : key.confidentialityLimit < 2 ^ 64
  counted : spent packets key ≤ count

/-- The packets of each key are within its limit, and the keys in use are
different from each other. -/
structure Budgeted (view : SealingView T) : Prop where
  known : ∀ packet ∈ view.sealedPackets, packet.space = .data →
    packet.key ∈ OrderlyTls.issued view.tls
  data : ∀ key, (view.spaces .data).key = some key →
    InUse (OrderlyTls.issued view.tls) view.sealedPackets key view.dataSealed
  zeroRtt : ∀ key, view.zeroRttKey = some key →
    InUse (OrderlyTls.issued view.tls) view.sealedPackets key view.zeroRttSealed
  cached : ∀ key, view.cached = some key →
    InUse (OrderlyTls.issued view.tls) view.sealedPackets key 0
  dataApart : ∀ key, (view.spaces .data).key = some key → view.zeroRttKey ≠ some key
  cachedApart : ∀ key, view.cached = some key →
    (view.spaces .data).key ≠ some key ∧ view.zeroRttKey ≠ some key
  within : ∀ key, spent view.sealedPackets key ≤ key.confidentialityLimit

theorem Budgeted.spent_fresh (inv : view.Budgeted) (fresh : key ∉ OrderlyTls.issued view.tls) :
    spent view.sealedPackets key = 0 := by
  apply countP_eq_zero.mpr
  intro packet member matching
  simp only [Bool.and_eq_true, decide_eq_true_eq] at matching
  rw [← matching.2] at fresh
  exact fresh (inv.known packet member matching.1)

theorem InUse.session {handed more : List PacketKey} (use : InUse handed packets key count)
    (grows : handed ⊆ more) : InUse more packets key count :=
  ⟨grows use.issued, use.limit, use.counted⟩

theorem Budgeted.session (inv : view.Budgeted)
    (grows : OrderlyTls.issued view.tls ⊆ OrderlyTls.issued tls) :
    Budgeted { view with tls := tls } :=
  { known packet member data := grows (inv.known packet member data)
    data key found := (inv.data key found).session grows
    zeroRtt key found := (inv.zeroRtt key found).session grows
    cached key found := (inv.cached key found).session grows
    dataApart := inv.dataApart
    cachedApart := inv.cachedApart
    within := inv.within }

theorem InUse.append {handed : List PacketKey} {other : PacketKey}
    (use : InUse handed packets other count)
    {pn : Nat} (ne : ¬(space = .data ∧ key = other)) :
    InUse handed (packets ++ [⟨space, key, pn⟩]) other count := by
  refine ⟨use.issued, use.limit, ?_⟩
  rw [spent_append, if_neg ne]
  exact use.counted

theorem Budgeted.emit_early (inv : view.Budgeted) (early : space ≠ .data)
    (key : PacketKey) : (view.emit space key).Budgeted := by
  have dataSpace : (view.emit space key).spaces .data = view.spaces .data := by
    rw [spaces_emit]
    exact spaces_mapSpace_of_ne (Ne.symm early)
  have packets : (view.emit space key).sealedPackets =
      view.sealedPackets ++ [⟨space, key, (view.spaces space).next⟩] := rfl
  have counts : (view.emit space key).dataSealed = view.dataSealed ∧
      (view.emit space key).zeroRttSealed = view.zeroRttSealed := by
    simp [SealingView.emit, mapSpace, early]
  have apart other : ¬(space = .data ∧ key = other) := fun both => early both.1
  refine ⟨?_, ?_, ?_, ?_, ?_, ?_, ?_⟩
  · intro packet member data
    rw [packets, mem_append, mem_singleton] at member
    rcases member with old | rfl
    · exact inv.known packet old data
    · exact absurd data early
  · rw [dataSpace, counts.1]
    exact fun other found => (inv.data other found).append (apart other)
  · rw [counts.2]
    exact fun other found => (inv.zeroRtt other found).append (apart other)
  · exact fun other found => (inv.cached other found).append (apart other)
  · rw [dataSpace]
    exact inv.dataApart
  · rw [dataSpace]
    exact inv.cachedApart
  · intro other
    rw [packets, spent_append]
    simpa [early] using inv.within other

section

variable (inv : view.Budgeted)
include inv

theorem Budgeted.sealing_use (keyed : view.sealingKey .data = some key) :
    InUse (OrderlyTls.issued view.tls) view.sealedPackets key
      view.dataCount := by
  cases found : (view.spaces .data).key with
  | some current =>
    obtain rfl : current = key := by simpa [sealingKey, found] using keyed
    simpa [dataCount, found] using inv.data current found
  | none =>
    have early : view.zeroRttKey = some key := by simpa [sealingKey, found] using keyed
    simpa [dataCount, found] using inv.zeroRtt key early

theorem Budgeted.emit_data (keyed : view.sealingKey .data = some key)
    (budget : view.dataCount < key.confidentialityLimit) : (view.emit .data key).Budgeted := by
  have use := inv.sealing_use keyed
  have packets : (view.emit .data key).sealedPackets =
      view.sealedPackets ++ [⟨.data, key, (view.spaces .data).next⟩] := rfl
  have dataKey : ((view.emit .data key).spaces .data).key = (view.spaces .data).key := by
    rw [spaces_emit, spaces_mapSpace_self]
  have mine : InUse (OrderlyTls.issued view.tls)
      (view.emit .data key).sealedPackets key (view.dataCount + 1) := by
    refine ⟨use.issued, use.limit, ?_⟩
    rw [packets, spent_append]
    simpa using use.counted
  have counts :
      (view.emit .data key).dataSealed = (if (view.spaces .data).key.isSome then view.dataCount + 1
          else view.dataSealed) ∧
        (view.emit .data key).zeroRttSealed =
          (if (view.spaces .data).key.isSome then view.zeroRttSealed
          else view.dataCount + 1) := by
    have counted : saturatingSucc view.dataCount = view.dataCount + 1 := by
      have limit := use.limit
      unfold saturatingSucc
      omega
    cases found : (view.spaces .data).key with
    | some | none =>
      simp [dataCount, found] at counted
      simp [SealingView.emit, mapSpace, dataCount, found, counted]
  refine ⟨?_, ?_, ?_, ?_, ?_, ?_, ?_⟩
  · intro packet member data
    rw [packets, mem_append, mem_singleton] at member
    rcases member with old | rfl
    · exact inv.known packet old data
    · exact use.issued
  · rw [dataKey]
    intro other found
    obtain rfl : other = key := by simpa [sealingKey, found] using keyed
    rw [counts.1, found]
    exact mine
  · intro other early
    cases found : (view.spaces .data).key with
    | some current =>
      obtain rfl : current = key := by simpa [sealingKey, found] using keyed
      have ne : ¬(SpaceId.data = .data ∧ current = other) := by
        rintro ⟨-, rfl⟩
        exact inv.dataApart current found early
      rw [counts.2, found]
      exact (inv.zeroRtt other early).append ne
    | none =>
      have sealing : view.zeroRttKey = some key := by simpa [sealingKey, found] using keyed
      obtain rfl : key = other := Option.some.inj (sealing.symm.trans early)
      rw [counts.2, found]
      exact mine
  · intro other next
    apply (inv.cached other next).append
    rintro ⟨-, rfl⟩
    obtain ⟨notData, notEarly⟩ := inv.cachedApart key next
    cases found : (view.spaces .data).key with
    | some =>
      simp [sealingKey, found] at keyed
      exact notData (by rw [found, keyed])
    | none => exact notEarly (by simpa [sealingKey, found] using keyed)
  · rw [dataKey]
    exact inv.dataApart
  · rw [dataKey]
    exact inv.cachedApart
  · intro other
    rw [packets, spent_append]
    by_cases same : key = other
    · subst same
      have counted := use.counted
      simp
      omega
    · simpa [same] using inv.within other

theorem Budgeted.setDataKey {count : Nat}
    (use : InUse (OrderlyTls.issued view.tls) view.sealedPackets key 0)
    (apart : view.zeroRttKey ≠ some key ∧ view.cached ≠ some key) :
    Budgeted
      { view.mapSpace .data fun sp => { sp with key := some key } with dataSealed := count } := by
  have dataKey : ((view.mapSpace .data fun sp =>
      { sp with key := some key }).spaces .data).key = some key := by
    rw [spaces_mapSpace_self]
  refine ⟨inv.known, ?_, inv.zeroRtt, inv.cached, ?_, ?_, inv.within⟩
  · intro other found
    obtain rfl := Option.some.inj (dataKey.symm.trans found)
    exact ⟨use.issued, use.limit, use.counted.trans (Nat.zero_le _)⟩
  · intro other found
    obtain rfl := Option.some.inj (dataKey.symm.trans found)
    exact apart.1
  · intro other next
    refine ⟨?_, (inv.cachedApart other next).2⟩
    intro same
    obtain rfl := Option.some.inj (dataKey.symm.trans same)
    exact apart.2 next

theorem Budgeted.mapSpace (early : space ≠ .data) : (view.mapSpace space change).Budgeted := by
  have data : (view.mapSpace space change).spaces .data = view.spaces .data :=
    spaces_mapSpace_of_ne early.symm
  refine ⟨inv.known, ?_, inv.zeroRtt, inv.cached, ?_, ?_, inv.within⟩
  · rw [data]
    exact inv.data
  · rw [data]
    exact inv.dataApart
  · rw [data]
    exact inv.cachedApart

theorem Budgeted.fresh_use (fresh : key ∉ OrderlyTls.issued view.tls ∧
      key ∈ OrderlyTls.issued tls ∧ key.confidentialityLimit < 2 ^ 64) :
    InUse (OrderlyTls.issued tls) view.sealedPackets key 0 :=
  ⟨fresh.2.1, fresh.2.2, (inv.spent_fresh fresh.1).le⟩

/-- A key that was handed over just now is not in use yet. -/
theorem Budgeted.fresh_apart (fresh : key ∉ OrderlyTls.issued view.tls) :
    (view.spaces .data).key ≠ some key ∧ view.zeroRttKey ≠ some key ∧ view.cached ≠ some key :=
  ⟨fun found => fresh (inv.data key found).issued,
    fun found => fresh (inv.zeroRtt key found).issued,
    fun found => fresh (inv.cached key found).issued⟩

theorem Budgeted.install (client : Bool) :
    (view.install client (TlsSession.writeHandshake view.tls).1
      (TlsSession.writeHandshake view.tls).2.2).Budgeted := by
  have session := inv.session (OrderlyTls.write_issued view.tls)
  cases handed : (TlsSession.writeHandshake view.tls).2.2 with
  | none => exact session
  | some change =>
    cases change with
    | zeroRtt keys =>
      have fresh := OrderlyTls.write_zeroRtt view.tls keys handed
      have use := inv.fresh_use fresh
      obtain ⟨notData, notEarly, notCached⟩ := inv.fresh_apart fresh.1
      refine ⟨session.known, session.data, ?_, session.cached, ?_, ?_, session.within⟩
      · rintro key ⟨rfl⟩
        exact ⟨use.issued, use.limit, use.counted.trans (Nat.zero_le _)⟩
      · intro key found same
        cases same
        exact notData found
      · intro key next
        refine ⟨(session.cachedApart key next).1, ?_⟩
        intro same
        cases same
        exact notCached next
    | handshake keys =>
      have kept : (SealingView.mapSpace { view with
          tls := (TlsSession.writeHandshake view.tls).1 } .handshake
            fun sp => { sp with key := some keys.localKey }).Budgeted :=
        session.mapSpace nofun
      exact kept
    | oneRtt keys =>
      have fresh := (OrderlyTls.write_oneRtt view.tls keys handed).2
      obtain ⟨_, notEarly, notCached⟩ := inv.fresh_apart fresh.1
      have keyed : Budgeted
          { SealingView.mapSpace { view with tls := (TlsSession.writeHandshake view.tls).1 } .data
                fun sp => { sp with key := some keys.localKey } with
            dataSealed := view.dataSealed } :=
        session.setDataKey (inv.fresh_use fresh) ⟨notEarly, notCached⟩
      have dropped key : (if client = true then none else view.zeroRttKey) =
            some key → view.zeroRttKey = some key := by
        intro found
        split at found
        · cases found
        · exact found
      refine ⟨keyed.known, keyed.data, ?_, keyed.cached, ?_, ?_, keyed.within⟩
      · exact fun key found => keyed.zeroRtt key (dropped key found)
      · exact fun key found same =>
          keyed.dataApart key found (dropped key same)
      · exact fun key next => ⟨(keyed.cachedApart key next).1,
          fun same => (keyed.cachedApart key next).2 (dropped key same)⟩

end

theorem Step.budgeted (step : Step view later) (inv : view.Budgeted) : later.Budgeted := by
  cases step with
  | same => exact inv
  | @emit space key keyed budget =>
    by_cases data : space = .data
    · subst data
      exact inv.emit_data keyed (budget rfl)
    · exact inv.emit_early data key
  | read bytes => exact inv.session (OrderlyTls.read_issued view.tls bytes)
  | write client => exact inv.install client
  | @derive localKey remoteKey derived =>
    have fresh := OrderlyTls.next_key view.tls localKey remoteKey derived
    have session := inv.session (OrderlyTls.next_issued view.tls)
    obtain ⟨notData, notEarly, -⟩ := inv.fresh_apart fresh.1
    refine ⟨session.known, session.data, session.zeroRtt, ?_, session.dataApart, ?_, session.within⟩
    · rintro key ⟨rfl⟩
      exact inv.fresh_use fresh
    · rintro key ⟨rfl⟩
      exact ⟨notData, notEarly⟩
  | deriveFails => exact inv.session (OrderlyTls.next_issued view.tls)
  | @rotate key cached =>
    have spentCache : Budgeted { view with cached := none } :=
      { inv with cached := nofun, cachedApart := nofun }
    exact spentCache.setDataKey (inv.cached key cached)
      ⟨(inv.cachedApart key cached).2, nofun⟩
  | spend => exact { inv with cached := nofun, cachedApart := nofun }
  | discard early => exact inv.mapSpace early
  | learn => exact inv.mapSpace nofun

end SealingView

end ParallaX.Quic
