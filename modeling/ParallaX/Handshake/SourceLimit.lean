import Mathlib.Algebra.Group.Nat.Defs
import Mathlib.Data.List.Count
import Mathlib.Data.List.Dedup
import Mathlib.Data.List.Perm.Subperm

/-!
# Per-source admission

`SourceLimiter` caps the connections one source may hold at once. It counts
them in a map of sources and in a map of IPv6 aggregates, and a log of the
sources that went idle, pruned lazily, says which entries may be evicted. Every
operation runs under the limiter's mutex, so a run is a list of operations;
each reads a clock of its own, and no order of the readings is assumed.
-/

namespace ParallaX.SourceLimit

open Std Option

def SOURCE_IDLE_GRACE : Nat := 120 * 10 ^ 9

def MIN_SOURCE_MAP_ENTRIES : Nat := 4096

def PRUNE_BUDGET : Nat := 64

def AGG_V6_PREFIX_LEN : Nat := 48

def AGG_V6_FANOUT : Nat := 4

instance hashableVector {n : Nat} : Hashable (Vector UInt8 n) where
  hash octets := hash octets.toArray

inductive IpAddr where
  | v4 (octets : Vector UInt8 4)
  | v6 (octets : Vector UInt8 16)

inductive SourceKey where
  | v4 (octets : Vector UInt8 4)
  | v6 (octets : Vector UInt8 16)
  deriving DecidableEq, Hashable

structure Entry where
  active : Nat
  idleSince : Option Nat

/-- What the mutex guards. The log stands oldest record first. -/
structure Inner where
  map : HashMap SourceKey Entry
  idleLog : List (SourceKey × Nat)
  aggV6 : HashMap (Vector UInt8 16) Nat

structure SourceLimiter where
  capV4 : UInt32
  capV6 : UInt32
  v6PrefixLen : UInt8
  maxEntries : Nat
  idleGrace : Nat

/-- The address with all but its first `length` bits cleared. -/
def maskedV6 (octets : Vector UInt8 16) (length : Nat) : Vector UInt8 16 :=
  let fullBytes := min length 128 / 8
  let remBits := min length 128 % 8
  Vector.ofFn fun i =>
    if i.val < fullBytes then octets[i]
    else if i.val = fullBytes ∧ remBits ≠ 0 then
      octets[i] &&& (0xFF <<< (8 - remBits).toUInt8)
    else 0

/-- `::ffff:a.b.c.d` as the IPv4 address it stands for. -/
def toIpv4Mapped (octets : Vector UInt8 16) : Option (Vector UInt8 4) :=
  if octets.toList.take 12 = List.replicate 10 0 ++ [0xff, 0xff] then
    some #v[octets[12], octets[13], octets[14], octets[15]]
  else none

namespace Inner

def empty : Inner := ⟨∅, [], ∅⟩

variable (inner : Inner)

def activeOf (key : SourceKey) : Nat := inner.map[key]?.elim 0 (·.active)

def aggOf (agg : Vector UInt8 16) : Nat := inner.aggV6[agg]?.getD 0

def evicts (key : SourceKey) (logged : Nat) : Bool :=
  inner.map[key]?.any fun entry => entry.active = 0 ∧ entry.idleSince = some logged

def drainFrontIdleRecord : Inner :=
  match inner.idleLog with
  | [] => inner
  | (key, logged) :: rest =>
    if inner.evicts key logged then
      { inner with idleLog := rest, map := inner.map.erase key }
    else { inner with idleLog := rest }

/-- The decrement of the source's entry and whether it left the entry idle. -/
def release (key : SourceKey) (now : Nat) : Inner × Bool :=
  match inner.map[key]? with
  | none => (inner, false)
  | some entry =>
    if entry.active - 1 = 0 then
      ({ inner with map := inner.map.insert key ⟨entry.active - 1, some now⟩ }, true)
    else
      ({ inner with map := inner.map.insert key ⟨entry.active - 1, entry.idleSince⟩ }, false)

/-- One connection less in an aggregate; its key goes when the count is zero. -/
def releaseAgg (agg : Option (Vector UInt8 16)) : Inner where
  map := inner.map
  idleLog := inner.idleLog
  aggV6 := agg.elim inner.aggV6 fun agg =>
    inner.aggV6.alter agg fun count => (count.map (· - 1)).filter (· ≠ 0)

theorem length_drainFrontIdleRecord :
    inner.drainFrontIdleRecord.idleLog.length = inner.idleLog.length - 1 := by
  unfold drainFrontIdleRecord
  split
  · next none => simp [none]
  · next record => split <;> simp [record]

/-- The loop at the end of a permit's drop. -/
def drainOver (maxEntries : Nat) (inner : Inner) : Inner :=
  if maxEntries < inner.idleLog.length then
    drainOver maxEntries inner.drainFrontIdleRecord
  else inner
termination_by inner.idleLog.length
decreasing_by
  rw [length_drainFrontIdleRecord]
  omega

end Inner

namespace SourceLimiter

def new (capV4 capV6 : UInt32) (v6PrefixLen : UInt8) (connectionLimit : Nat) : SourceLimiter :=
  ⟨capV4, capV6, v6PrefixLen,
    max (min (connectionLimit * 4) (2 ^ 64 - 1)) MIN_SOURCE_MAP_ENTRIES, SOURCE_IDLE_GRACE⟩

variable (limiter : SourceLimiter)

def keyFor : IpAddr → SourceKey
  | .v4 octets => .v4 octets
  | .v6 octets =>
    match toIpv4Mapped octets with
    | some mapped => .v4 mapped
    | none => .v6 (maskedV6 octets limiter.v6PrefixLen.toNat)

def capFor : SourceKey → Nat
  | .v4 _ => limiter.capV4.toNat
  | .v6 _ => limiter.capV6.toNat

def aggKeyFor : SourceKey → Option (Vector UInt8 16)
  | .v4 _ => none
  | .v6 octets => some (maskedV6 octets (min AGG_V6_PREFIX_LEN limiter.v6PrefixLen.toNat))

/-- `cap_v6 * AGG_V6_FANOUT`, saturating in 32 bits. -/
def aggCap : Nat := min (limiter.capV6.toNat * AGG_V6_FANOUT) (2 ^ 32 - 1)

def pruneLocked (now : Nat) : Nat → Inner → Inner
  | 0, inner => inner
  | budget + 1, inner =>
    match inner.idleLog.head? with
    | none => inner
    | some (_, logged) =>
      if now - logged < limiter.idleGrace ∧ inner.map.size ≤ limiter.maxEntries then inner
      else pruneLocked now budget inner.drainFrontIdleRecord

def aggFull (key : SourceKey) (inner : Inner) : Bool :=
  (limiter.aggKeyFor key).any fun agg => limiter.aggCap ≤ inner.aggOf agg

/-- The counts of one more connection. Neither sum wraps: both counts are below
a cap of 32 bits. -/
def countIn (key : SourceKey) (inner : Inner) : Inner where
  map := inner.map.insert key ⟨inner.activeOf key + 1, none⟩
  idleLog := inner.idleLog
  aggV6 := (limiter.aggKeyFor key).elim inner.aggV6 fun agg =>
    inner.aggV6.insert agg (inner.aggOf agg + 1)

/-- The two caps, read before anything is written. -/
def admitLocked (key : SourceKey) (inner : Inner) : Inner × Option SourceKey :=
  if limiter.aggFull key inner then (inner, none)
  else if limiter.capFor key ≤ inner.activeOf key then (inner, none)
  else (limiter.countIn key inner, some key)

/-- The permit of an admitted connection is its source key. -/
def tryAdmit (now : Nat) (ip : IpAddr) (inner : Inner) : Inner × Option SourceKey :=
  limiter.admitLocked (limiter.keyFor ip) (limiter.pruneLocked now PRUNE_BUDGET inner)

def dropPermit (now : Nat) (key : SourceKey) (inner : Inner) : Inner :=
  let released := inner.release key now
  let settled := released.1.releaseAgg (limiter.aggKeyFor key)
  if released.2 then
    Inner.drainOver limiter.maxEntries
      { settled with idleLog := settled.idleLog ++ [(key, now)] }
  else settled

end SourceLimiter

/-! ## Runs -/

inductive Event where
  | connect (ip : IpAddr) (now : Nat)
  | drop (key : SourceKey) (now : Nat)

/-- The limiter's counts and the permits that are held. -/
structure State where
  inner : Inner
  live : List SourceKey

namespace SourceLimiter

variable (limiter : SourceLimiter)

def step (state : State) : Event → State
  | .connect ip now =>
    let admitted := limiter.tryAdmit now ip state.inner
    ⟨admitted.1, admitted.2.toList ++ state.live⟩
  | .drop key now =>
    if key ∈ state.live then ⟨limiter.dropPermit now key state.inner, state.live.erase key⟩
    else state

def run (events : List Event) : State := events.foldl limiter.step ⟨Inner.empty, []⟩

/-- The counts and the log against the permits that are held. -/
structure Accounts (inner : Inner) (live : List SourceKey) : Prop where
  active : ∀ key, inner.activeOf key = live.count key
  aggregate : ∀ agg, inner.aggOf agg = live.countP (limiter.aggKeyFor · = some agg)
  positive : ∀ agg : Vector UInt8 16, inner.aggV6[agg]? ≠ some 0
  logged : ∀ (key : SourceKey) (entry : Entry), inner.map[key]? = some entry →
    entry.active = 0 → ∃ since, entry.idleSince = some since ∧ (key, since) ∈ inner.idleLog

end SourceLimiter

structure Prunes (before after : Inner) : Prop where
  active : ∀ key, after.activeOf key = before.activeOf key
  aggregates : after.aggV6 = before.aggV6
  entries : ∀ (key : SourceKey) (entry : Entry),
    after.map[key]? = some entry → before.map[key]? = some entry
  log : after.idleLog.length ≤ before.idleLog.length

theorem Prunes.refl (inner : Inner) : Prunes inner inner :=
  ⟨fun _ => rfl, rfl, fun _ _ found => found, Nat.le_refl _⟩

theorem Prunes.trans {first second third : Inner} (left : Prunes first second)
    (right : Prunes second third) : Prunes first third where
  active key := (right.active key).trans (left.active key)
  aggregates := right.aggregates.trans left.aggregates
  entries key entry found := left.entries key entry (right.entries key entry found)
  log := Nat.le_trans right.log left.log

variable (limiter : SourceLimiter) {inner : Inner} {live : List SourceKey} {key : SourceKey}

theorem lookup_erase (other : SourceKey) :
    (inner.map.erase key)[other]? = if key = other then none else inner.map[other]? := by
  simp [HashMap.getElem?_erase]

theorem lookup_insert (entry : Entry) (other : SourceKey) :
    (inner.map.insert key entry)[other]? =
      if key = other then some entry else inner.map[other]? := by
  simp [HashMap.getElem?_insert]

theorem evicts_iff {logged : Nat} :
    inner.evicts key logged = true ↔
      ∃ entry, inner.map[key]? = some entry ∧ entry.active = 0 ∧ entry.idleSince = some logged := by
  simp [Inner.evicts, Option.any_eq_true]

theorem prunes_drain (inner : Inner) : Prunes inner inner.drainFrontIdleRecord := by
  unfold Inner.drainFrontIdleRecord
  split
  · exact .refl inner
  · next key logged rest record =>
    have shorter : rest.length ≤ inner.idleLog.length := by simp [record]
    split
    · next evicted =>
      obtain ⟨entry, found, idle, _⟩ := evicts_iff.mp evicted
      refine ⟨fun other => ?_, rfl, fun other _ kept => ?_, shorter⟩
      · rw [Inner.activeOf, lookup_erase]
        split
        · next same => rw [← same, Inner.activeOf, found, elim_some, idle, elim_none]
        · rfl
      · rw [lookup_erase] at kept
        split at kept
        · cases kept
        · exact kept
    · exact ⟨fun _ => rfl, rfl, fun _ _ found => found, shorter⟩

theorem drained_or_mem {logged : Nat} (member : (key, logged) ∈ inner.idleLog)
    (idle : inner.evicts key logged = true) :
    (key, logged) ∈ inner.drainFrontIdleRecord.idleLog ∨
      inner.drainFrontIdleRecord.map[key]? = none := by
  unfold Inner.drainFrontIdleRecord
  split
  · next none => simp [none] at member
  · next front since rest record =>
    rw [record] at member
    cases member with
    | head => exact .inr (by rw [if_pos idle, lookup_erase, if_pos rfl])
    | tail _ member => exact .inl (by split <;> exact member)

theorem pruneLocked_keeps {Keeps : Inner → Prop} (now budget : Nat)
    (drains : ∀ inner, Keeps inner → Keeps inner.drainFrontIdleRecord) (start : Keeps inner) :
    Keeps (limiter.pruneLocked now budget inner) := by
  induction budget generalizing inner with
  | zero => exact start
  | succ budget ih =>
    unfold SourceLimiter.pruneLocked
    split
    · exact start
    · split
      · exact start
      · exact ih (drains _ start)

theorem drainOver_keeps {Keeps : Inner → Prop} (maxEntries : Nat)
    (drains : ∀ inner, Keeps inner → Keeps inner.drainFrontIdleRecord) (start : Keeps inner) :
    Keeps (inner.drainOver maxEntries) ∧
      (inner.drainOver maxEntries).idleLog.length ≤ maxEntries := by
  fun_induction Inner.drainOver with
  | case1 inner _ ih => exact ih (drains _ start)
  | case2 inner fits => exact ⟨start, Nat.le_of_not_lt fits⟩

theorem prunes_pruneLocked (now budget : Nat) :
    Prunes inner (limiter.pruneLocked now budget inner) :=
  pruneLocked_keeps limiter now budget (fun inner pruned => pruned.trans (prunes_drain inner))
    (.refl inner)

namespace SourceLimiter.Accounts

variable {limiter} (accounts : limiter.Accounts inner live)
include accounts

theorem drain : limiter.Accounts inner.drainFrontIdleRecord live where
  active key := by rw [(prunes_drain inner).active, accounts.active]
  aggregate agg := by
    rw [Inner.aggOf, (prunes_drain inner).aggregates]
    exact accounts.aggregate agg
  positive agg := by
    rw [(prunes_drain inner).aggregates]
    exact accounts.positive agg
  logged key entry kept idle := by
    have found := (prunes_drain inner).entries key entry kept
    obtain ⟨since, stamped, record⟩ := accounts.logged key entry found idle
    refine ⟨since, stamped, ?_⟩
    have refers := evicts_iff.mpr ⟨entry, found, idle, stamped⟩
    cases drained_or_mem record refers with
    | inl member => exact member
    | inr gone => rw [gone] at kept; cases kept

theorem countIn (key : SourceKey) : limiter.Accounts (limiter.countIn key inner) (key :: live) where
  active other := by
    rw [Inner.activeOf, SourceLimiter.countIn, lookup_insert, List.count_cons, ← accounts.active]
    by_cases same : key = other
    · simp [same]
    · simp [same, Inner.activeOf]
  aggregate other := by
    rw [List.countP_cons, ← accounts.aggregate, Inner.aggOf, SourceLimiter.countIn]
    cases limiter.aggKeyFor key with
    | none => simp [Inner.aggOf]
    | some agg =>
      by_cases same : agg = other
      · simp [same]
      · simp [HashMap.getElem?_insert, same, Inner.aggOf]
  positive other := by
    rw [SourceLimiter.countIn]
    cases limiter.aggKeyFor key with
    | none => exact accounts.positive other
    | some agg =>
      rw [elim_some, HashMap.getElem?_insert]
      split
      · simp
      · exact accounts.positive other
  logged other entry found idle := by
    rw [SourceLimiter.countIn, lookup_insert] at found
    split at found
    · cases found
      cases idle
    · exact accounts.logged other entry found idle

theorem entry_of_mem (held : key ∈ live) : ∃ entry, inner.map[key]? = some entry := by
  have pos := List.count_pos_iff.mpr held
  rw [← accounts.active, Inner.activeOf] at pos
  cases found : inner.map[key]? with
  | none => simp [found] at pos
  | some entry => exact ⟨entry, rfl⟩

theorem released {entry : Entry} {since : Option Nat} {after : Inner}
    (found : inner.map[key]? = some entry) (held : key ∈ live)
    (map : after.map = inner.map.insert key ⟨entry.active - 1, since⟩)
    (aggregate : ∀ agg, after.aggOf agg =
      inner.aggOf agg - if limiter.aggKeyFor key = some agg then 1 else 0)
    (pos : ∀ agg : Vector UInt8 16, after.aggV6[agg]? ≠ some 0)
    (kept : ∀ record ∈ inner.idleLog, record ∈ after.idleLog)
    (stamped : entry.active - 1 = 0 → ∃ time, since = some time ∧ (key, time) ∈ after.idleLog) :
    limiter.Accounts after (live.erase key) where
  active other := by
    rw [Inner.activeOf, map, lookup_insert, List.count_erase, ← accounts.active]
    by_cases same : key = other
    · simp [← same, Inner.activeOf, found]
    · simp [same, Inner.activeOf]
  aggregate agg := by
    rw [aggregate, List.countP_erase, accounts.aggregate]
    simp [held]
  positive := pos
  logged other other_entry present idle := by
    rw [map, lookup_insert] at present
    split at present
    · next same =>
      cases present
      subst same
      exact stamped idle
    · obtain ⟨time, stamp, record⟩ := accounts.logged other _ present idle
      exact ⟨time, stamp, kept _ record⟩

end SourceLimiter.Accounts

theorem aggOf_releaseAgg (agg : Option (Vector UInt8 16)) (other : Vector UInt8 16) :
    (inner.releaseAgg agg).aggOf other = inner.aggOf other - if agg = some other then 1 else 0 := by
  cases agg with
  | none => simp [Inner.aggOf, Inner.releaseAgg]
  | some agg =>
    rw [Inner.aggOf, Inner.releaseAgg, elim_some, HashMap.getElem?_alter]
    by_cases same : agg = other
    · subst same
      cases found : inner.aggV6[agg]? with
      | none => simp [Inner.aggOf, found]
      | some count =>
        by_cases last : count - 1 = 0
        · simp [Inner.aggOf, found, last, Option.filter]
        · simp [Inner.aggOf, found, last, Option.filter]
    · simp [same, Inner.aggOf]

theorem positive_releaseAgg (agg : Option (Vector UInt8 16))
    (pos : ∀ other : Vector UInt8 16, inner.aggV6[other]? ≠ some 0) (other : Vector UInt8 16) :
    (inner.releaseAgg agg).aggV6[other]? ≠ some 0 := by
  cases agg with
  | none => exact pos other
  | some agg =>
    rw [Inner.releaseAgg, elim_some, HashMap.getElem?_alter]
    split
    · simp [filter_eq_some_iff]
    · exact pos other

structure SourceLimiter.Sound (inner : Inner) (live : List SourceKey) : Prop
    extends limiter.Accounts inner live where
  capped : ∀ key, live.count key ≤ limiter.capFor key
  aggCapped : ∀ agg, live.countP (limiter.aggKeyFor · = some agg) ≤ limiter.aggCap
  bounded : inner.idleLog.length ≤ limiter.maxEntries

namespace SourceLimiter.Sound

variable {limiter} (sound : limiter.Sound inner live)
include sound

theorem admitLocked (key : SourceKey) :
    limiter.Sound (limiter.admitLocked key inner).1
      ((limiter.admitLocked key inner).2.toList ++ live) := by
  unfold SourceLimiter.admitLocked
  split
  · exact sound
  · next roomy =>
    split
    · exact sound
    · next below =>
      refine ⟨sound.toAccounts.countIn key, fun other => ?_, fun agg => ?_, sound.bounded⟩
      · rw [toList_some, List.singleton_append, List.count_cons]
        by_cases same : key = other
        · subst same
          rw [sound.active] at below
          simp only [beq_self_eq_true, if_true]
          omega
        · simpa [same] using sound.capped other
      · rw [toList_some, List.singleton_append, List.countP_cons]
        by_cases same : limiter.aggKeyFor key = some agg
        · have room : ¬limiter.aggCap ≤ inner.aggOf agg := by
            simpa [SourceLimiter.aggFull, same] using roomy
          rw [sound.aggregate] at room
          simp only [same, decide_true, if_true]
          omega
        · simpa [same] using sound.aggCapped agg

theorem tryAdmit (now : Nat) (ip : IpAddr) :
    limiter.Sound (limiter.tryAdmit now ip inner).1
      ((limiter.tryAdmit now ip inner).2.toList ++ live) := by
  have accounts := pruneLocked_keeps limiter now PRUNE_BUDGET
    (fun inner (kept : limiter.Accounts inner live) => kept.drain) sound.toAccounts
  have fits := Nat.le_trans (prunes_pruneLocked limiter now PRUNE_BUDGET).log sound.bounded
  exact admitLocked ⟨accounts, sound.capped, sound.aggCapped, fits⟩ _

theorem dropPermit (now : Nat) (held : key ∈ live) :
    limiter.Sound (limiter.dropPermit now key inner) (live.erase key) := by
  obtain ⟨entry, found⟩ := sound.entry_of_mem held
  have fewer : (live.erase key).Sublist live := List.erase_sublist
  have capped (other) := Nat.le_trans (fewer.count_le other) (sound.capped other)
  have aggCapped (agg) := Nat.le_trans fewer.countP_le (sound.aggCapped agg)
  simp only [SourceLimiter.dropPermit, Inner.release, found]
  split
  · suffices pushed : limiter.Accounts _ (live.erase key) from
      have drained := drainOver_keeps limiter.maxEntries
        (fun inner (kept : limiter.Accounts inner (live.erase key)) => kept.drain) pushed
      ⟨drained.1, capped, aggCapped, drained.2⟩
    exact sound.released found held rfl (aggOf_releaseAgg _)
      (positive_releaseAgg _ sound.positive) (fun _ => List.mem_append_left _)
      fun _ => ⟨now, rfl, List.mem_append_right _ (List.mem_singleton.mpr rfl)⟩
  · next busy =>
    exact ⟨sound.released found held rfl (aggOf_releaseAgg _)
      (positive_releaseAgg _ sound.positive) (fun _ member => member) (absurd · busy),
      capped, aggCapped, sound.bounded⟩

/-- Idle entries are found in the log, so they are no more than its records. -/
theorem size_le : inner.map.size ≤ limiter.maxEntries + live.dedup.length := by
  have covered : inner.map.keys ⊆ inner.idleLog.map (·.1) ++ live.dedup := by
    intro key member
    rw [HashMap.mem_keys, HashMap.mem_iff_isSome_getElem?] at member
    obtain ⟨entry, found⟩ := isSome_iff_exists.mp member
    by_cases idle : entry.active = 0
    · obtain ⟨since, _, record⟩ := sound.logged key entry found idle
      exact List.mem_append_left _ (List.mem_map.mpr ⟨_, record, rfl⟩)
    · have counts := sound.active key
      rw [Inner.activeOf, found, elim_some] at counts
      exact List.mem_append_right _
        (List.mem_dedup.mpr (List.count_pos_iff.mp (by omega)))
  have fits := (HashMap.nodup_keys.subperm covered).length_le
  rw [HashMap.length_keys, List.length_append, List.length_map] at fits
  exact Nat.le_trans fits (Nat.add_le_add_right sound.bounded _)

end SourceLimiter.Sound

theorem SourceLimiter.sound_run (events : List Event) :
    limiter.Sound (limiter.run events).inner (limiter.run events).live := by
  have start : limiter.Sound .empty [] := by
    refine ⟨⟨fun _ => ?_, fun _ => ?_, fun _ => ?_, fun _ _ found => ?_⟩,
      fun _ => Nat.zero_le _, fun _ => Nat.zero_le _, Nat.zero_le _⟩
    · simp [Inner.activeOf, Inner.empty]
    · simp [Inner.aggOf, Inner.empty]
    · simp [Inner.empty]
    · simp [Inner.empty] at found
  refine List.foldlRecOn (motive := fun state => limiter.Sound state.inner state.live)
    (b := ⟨.empty, []⟩) events limiter.step start fun state sound event _ => ?_
  cases event with
  | connect ip now => exact sound.tryAdmit now ip
  | drop key now =>
    unfold SourceLimiter.step
    dsimp only
    split
    · next held => exact sound.dropPermit now held
    · exact sound

/-- In every state a run of admissions and permit drops reaches, at any clock
readings: the counts are those of the permits that are held and keep to the
caps, a rejected admission changes no count and makes no entry, an entry that
no permit holds has its record in the idle log, the map is bounded, and no
source that holds a permit has lost its entry. -/
theorem admissions_accounted (limiter : SourceLimiter) (events : List Event) :
    let state := limiter.run events
    (∀ key, state.inner.activeOf key = state.live.count key ∧
      state.live.count key ≤ limiter.capFor key) ∧
    (∀ agg, state.inner.aggOf agg = state.live.countP (limiter.aggKeyFor · = some agg) ∧
      state.inner.aggOf agg ≤ limiter.aggCap ∧ state.inner.aggV6[agg]? ≠ some 0) ∧
    (∀ now ip, (limiter.tryAdmit now ip state.inner).2 = none →
      Prunes state.inner (limiter.tryAdmit now ip state.inner).1) ∧
    (∀ key entry, state.inner.map[key]? = some entry → key ∉ state.live →
      ∃ since, entry.idleSince = some since ∧ (key, since) ∈ state.inner.idleLog) ∧
    state.inner.map.size ≤ limiter.maxEntries + state.live.dedup.length ∧
    ∀ key ∈ state.live, key ∈ state.inner.map := by
  intro state
  have sound : limiter.Sound state.inner state.live := limiter.sound_run events
  refine ⟨fun key => ⟨sound.active key, sound.capped key⟩, fun agg => ⟨sound.aggregate agg, ?_,
    sound.positive agg⟩, fun now ip rejected => ?_, fun key entry found free => ?_, sound.size_le,
    fun key held => ?_⟩
  · rw [sound.aggregate]
    exact sound.aggCapped agg
  · unfold SourceLimiter.tryAdmit SourceLimiter.admitLocked at rejected ⊢
    split at rejected
    · next full => rw [if_pos full]; exact prunes_pruneLocked limiter now PRUNE_BUDGET
    · split at rejected
      · next roomy full =>
        rw [if_neg roomy, if_pos full]
        exact prunes_pruneLocked limiter now PRUNE_BUDGET
      · cases rejected
  · have counts := sound.active key
    rw [Inner.activeOf, found, elim_some, List.count_eq_zero.mpr free] at counts
    exact sound.logged key entry found counts
  · obtain ⟨entry, found⟩ := sound.entry_of_mem held
    exact HashMap.mem_iff_isSome_getElem?.mpr (isSome_of_eq_some found)

end ParallaX.SourceLimit
