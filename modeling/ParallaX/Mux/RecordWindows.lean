import ParallaX.Mux.RecordTurn

/-!
# Windows of records

A window is planned record by record, and the write loop plans windows until the
batch is used up.
-/

namespace ParallaX.Mux

open List

open ParallaX.Tls.Record (TLS_HEADER_LEN MAX_TLS_RECORD_PAYLOAD)
open MuxFrame (wires wire)

/-! ## One record -/

section Fill

variable {frames : List MuxFrame} {limit recordStart : Nat}

theorem Plannable.later {cursor next : MuxFrameCursor}
    (plannable : Plannable frames limit cursor) (ok : next.Ok frames)
    (later : cursor.frame ≤ next.frame) {larger : Nat}
    (grown : limit ≤ larger) (most : larger < 2 ^ 16) : Plannable frames larger next where
  streams := plannable.streams
  addressable := plannable.addressable
  fits := by
    intro frame member control
    rw [← Nat.add_sub_of_le later, ← drop_drop] at member
    exact (plannable.fits frame (mem_of_mem_drop member) control).trans grown
  least := plannable.least.trans grown
  most := most
  ok := ok

theorem fillRecord_spec (rounds : Nat) (state : RecordState)
    (plannable : Plannable frames limit state.cursor)
    (started : recordStart ≤ state.plaintextBuf.length) (within : state.used recordStart ≤ limit) :
    ∃ final added, fillRecord frames limit recordStart rounds state = .ok final ∧
      Appended frames state final added ∧ final.used recordStart ≤ limit ∧
      (0 < rounds → state.cursor.frame < frames.length →
        state.used recordStart = 0 → added ≠ []) := by
  induction rounds generalizing state with
  | zero => exact ⟨state, [], rfl, .refl plannable.ok, within, by simp⟩
  | succ _ ih =>
    rw [fillRecord]
    by_cases inside : state.cursor.frame < frames.length
    · rw [if_pos inside]
      obtain ⟨next, again, turned, ⟨added, appended, stuck⟩, bound, later⟩ :=
        recordTurn_spec plannable inside started within
      simp only [turned, bind, Except.bind]
      cases again with
      | false =>
        refine ⟨next, added, rfl, appended, bound, ?_⟩
        rintro _ _ _ rfl
        exact absurd (stuck rfl).2 (by omega)
      | true =>
        obtain ⟨final, more, filled, appended', bound', _⟩ := ih next
          (plannable.later appended.ok (le_of_lt (later rfl)) le_rfl plannable.most)
          (by
            rw [appended.buffer, length_append]
            omega)
          bound
        refine ⟨final, added ++ more, filled, appended.trans appended', bound', ?_⟩
        intro _ _ _ none
        rw [append_eq_nil_iff] at none
        exact absurd (stuck none.1).1 (by simp)
    · rw [if_neg inside]
      exact ⟨state, [], rfl, .refl plannable.ok, within, fun _ contrary => absurd contrary inside⟩

end Fill

/-! ## Limits and padding -/

theorem maxPlaintextLen_le (padding : UInt16) : maxPlaintextLen padding ≤ 16383 := by
  simp only [maxPlaintextLen, OUTER_TLS_RECORD_LIMIT, MAX_TLS_RECORD_PAYLOAD,
    AEAD_TAG_LEN, PADDING_LEN_FIELD]
  omega

namespace MuxRecordBudget

variable (budget : MuxRecordBudget)

theorem plaintextLimit_le (codecMax : Nat) : budget.plaintextLimit codecMax ≤ codecMax := by
  rw [plaintextLimit]
  split
  · exact le_rfl
  · split
    · exact le_rfl
    · split <;> exact min_le_left _ _

theorem le_plaintextLimit {codecMax : Nat}
    (least : 14 ≤ codecMax) : 14 ≤ budget.plaintextLimit codecMax := by
  simp only [plaintextLimit, CODEC_OVERHEAD]
  split
  · exact least
  · split
    · exact least
    · split <;> omega

theorem plaintextLimit_mono (profile : TcpMuxRecordProfile) {sent more : Nat}
    (grown : sent ≤ more ∨ 80 < more) (last later : Option Nat) (codecMax : Nat) :
    plaintextLimit ⟨profile, sent, last⟩ codecMax ≤
      plaintextLimit ⟨profile, more, later⟩ codecMax := by
  cases profile with
  | off => exact le_rfl
  | cloudflareDynamic =>
    simp only [plaintextLimit, CODEC_OVERHEAD]
    by_cases large : 80 < more
    · rw [if_pos large]
      split
      · exact le_rfl
      · split <;> exact min_le_left _ _
    · rw [if_neg (by omega : ¬80 < sent), if_neg large]
      by_cases medium : 40 < more
      · rw [if_pos medium]
        split <;> omega
      · rw [if_neg (by omega : ¬40 < sent), if_neg medium]

theorem plaintextLimit_sentOne (codecMax : Nat) :
    budget.plaintextLimit codecMax ≤ budget.sentOne.plaintextLimit codecMax :=
  plaintextLimit_mono budget.profile (by omega) budget.lastWrite budget.lastWrite codecMax

end MuxRecordBudget

theorem muxRecordPaddingPlan_eq (profile : TcpMuxRecordProfile) (bears : Bool)
    {len limit : Nat} (some : 0 < len) (fits : len ≤ limit) (most : limit ≤ 16383) :
    muxRecordPaddingPlan profile bears len limit =
      .some (if profile = .cloudflareDynamic ∧ bears then limit - len else 0,
        len + (if profile = .cloudflareDynamic ∧ bears then limit - len else 0) +
          18 + TLS_HEADER_LEN) := by
  rw [muxRecordPaddingPlan, if_neg (by omega)]
  simp only [OUTER_TLS_RECORD_LIMIT, MAX_TLS_RECORD_PAYLOAD]
  split <;> rw [if_neg (by omega), if_neg (by omega)]

/-! ## Records of a window -/

/-- The frames of a record and its padding. -/
structure Group where
  frames : List MuxFrame
  pad : Nat

namespace Group

def len (group : Group) : Nat := (wires group.frames).length

def wireLen (group : Group) : Nat := group.len + group.pad + 18 + TLS_HEADER_LEN

structure Ok (codecMax : Nat) (budget : MuxRecordBudget) (group : Group) : Prop where
  some : group.frames ≠ []
  valid : ∀ frame ∈ group.frames, frame.Valid
  bound : group.len ≤ budget.plaintextLimit codecMax
  padded : budget.profile = .cloudflareDynamic →
    group.frames.any MuxFrame.bearsData = true →
    group.len + group.pad = budget.plaintextLimit codecMax
  within : group.len + group.pad ≤ budget.plaintextLimit codecMax

end Group

/-- Records one after the other; each one is counted. -/
def Planned (codecMax : Nat) : MuxRecordBudget → List Group → Prop
  | _, [] => True
  | budget, group :: rest => group.Ok codecMax budget ∧ Planned codecMax budget.sentOne rest

def framesOf (groups : List Group) : List MuxFrame := groups.flatMap (·.frames)

def wireBytes (groups : List Group) : Nat := (groups.map Group.wireLen).sum

variable {frames : List MuxFrame} {codecMax : Nat} {budget : MuxRecordBudget}
  {groups : List Group} {cursor : MuxFrameCursor}

theorem length_wires_pos (some : frames ≠ []) : 0 < (wires frames).length := by
  obtain ⟨frame, rest, rfl⟩ := exists_cons_of_ne_nil some
  have cut : wires (frame :: rest) = wires [frame] ++ wires rest := wires_append [frame] rest
  rw [cut, length_append, length_wires_singleton, MUX_FRAME_FIXED_LEN]
  omega

structure Extended (frames : List MuxFrame) (codecMax : Nat)
    (state final : PlanState) (groups : List Group) : Prop where
  planned : Planned codecMax state.budget groups
  buffer : final.scratch.plaintextBuf = state.scratch.plaintextBuf ++ wires (framesOf groups)
  lens : final.scratch.recordLens = state.scratch.recordLens ++ groups.map Group.len
  pads : state.budget.profile = .cloudflareDynamic →
    final.scratch.exactPadLens = state.scratch.exactPadLens ++ groups.map Group.pad
  recut : Recut (remaining frames state.cursor) (framesOf groups ++ remaining frames final.cursor)
  ok : final.cursor.Ok frames
  moved : groups ≠ [] → state.cursor.Before final.cursor
  stays : groups = [] → final.cursor = state.cursor
  bytes : state.budget.profile = .cloudflareDynamic →
    final.windowWireBytes = state.windowWireBytes + wireBytes groups ∧
      (groups ≠ [] → final.windowWireBytes ≤ SERVER_MUX_FAIR_BATCH_BYTES)

theorem Extended.refl {state : PlanState} (ok : state.cursor.Ok frames) :
    Extended frames codecMax state state [] where
  planned := trivial
  buffer := by simp [framesOf, wires]
  lens := by simp
  pads := by simp
  recut := .refl _
  ok := ok
  moved contrary := absurd rfl contrary
  stays _ := rfl
  bytes _ := ⟨by simp [wireBytes], fun contrary => absurd rfl contrary⟩

section Window

variable {frames : List MuxFrame} {codecMax : Nat} {state : PlanState}

theorem windowFull_eq {limit bytes : Nat}
    (least : 14 ≤ limit) (most : limit ≤ 16383) :
    windowFull budget limit bytes =
      .ok (decide (budget.profile = .cloudflareDynamic ∧
        SERVER_MUX_FAIR_BATCH_BYTES < bytes + (limit + 18 + TLS_HEADER_LEN))) := by
  rw [windowFull]
  by_cases dynamic : budget.profile = .cloudflareDynamic
  · rw [if_pos dynamic, muxRecordPaddingPlan_eq _ _ one_pos (by omega) most]
    have whole : 1 + (limit - 1) = limit := by omega
    simp [dynamic, whole]
  · rw [if_neg dynamic]
    simp [dynamic]

theorem closeRecord_spec {filled : RecordState} {added : List MuxFrame}
    (appended : Appended frames ⟨state.scratch.plaintextBuf, state.cursor, false⟩ filled added)
    (some : added ≠ [])
    (bound : filled.used state.scratch.plaintextBuf.length ≤ state.budget.plaintextLimit codecMax)
    (most : codecMax ≤ 16383)
    (room : state.budget.profile = .cloudflareDynamic →
      state.windowWireBytes + (state.budget.plaintextLimit codecMax + 18 +
        TLS_HEADER_LEN) ≤ SERVER_MUX_FAIR_BATCH_BYTES) :
    ∃ next group, closeRecord state (state.budget.plaintextLimit codecMax) filled = .ok next ∧
      next.budget = state.budget.sentOne ∧
      group.Ok codecMax state.budget ∧
      Extended frames codecMax state next [group] := by
  have positive := length_wires_pos some
  have small := (state.budget.plaintextLimit_le codecMax).trans most
  have length : filled.plaintextBuf.length -
      state.scratch.plaintextBuf.length = (wires added).length := by
    rw [appended.buffer, length_append, Nat.add_sub_cancel_left]
  rw [RecordState.used, length] at bound
  have plan := muxRecordPaddingPlan_eq state.budget.profile
    filled.hasPositiveData positive bound small
  have data := appended.data
  generalize padding : (if state.budget.profile = .cloudflareDynamic ∧
    filled.hasPositiveData = true then
      state.budget.plaintextLimit codecMax - (wires added).length else 0) = pad
    at plan
  have within : (wires added).length + pad ≤ state.budget.plaintextLimit codecMax := by
    rw [← padding]
    split <;> omega
  have ok : Group.Ok codecMax state.budget ⟨added, pad⟩ := by
    refine ⟨some, appended.valid, bound, ?_, within⟩
    intro dynamic bears
    rw [if_pos ⟨dynamic, data.trans bears⟩] at padding
    rw [Group.len, ← padding]
    simp only
    omega
  rw [closeRecord]
  simp only [length]
  rw [if_neg (by omega), plan]
  by_cases dynamic : state.budget.profile = .cloudflareDynamic
  · have fits := room dynamic
    simp only [dynamic, if_true]
    rw [if_neg (by omega)]
    refine ⟨_, ⟨added, pad⟩, rfl, rfl, ok, ⟨ok, trivial⟩, ?_, ?_, ?_, ?_,
      appended.ok, fun _ => appended.some some, by simp, ?_⟩
    · simpa [framesOf] using appended.buffer
    · simp [Group.len]
    · simp
    · simpa [framesOf] using appended.recut
    · intro _
      simp only [wireBytes, Group.wireLen, Group.len, map_cons,
        map_nil, sum_cons, sum_nil, add_zero, true_and]
      omega
  · simp only [dynamic, if_false]
    refine ⟨_, ⟨added, pad⟩, rfl, rfl, ok, ⟨ok, trivial⟩, ?_, ?_, ?_, ?_,
      appended.ok, fun _ => appended.some some, by simp, ?_⟩
    · simpa [framesOf] using appended.buffer
    · simp [Group.len]
    · exact fun contrary => absurd contrary dynamic
    · simpa [framesOf] using appended.recut
    · exact fun contrary => absurd contrary dynamic

theorem framesOf_cons (group : Group) (groups : List Group) :
    framesOf (group :: groups) = group.frames ++ framesOf groups :=
  flatMap_cons

theorem Extended.cons {next final : PlanState} {group : Group}
    (counted : next.budget = state.budget.sentOne)
    (one : Extended frames codecMax state next [group])
    (more : Extended frames codecMax next final groups) :
    Extended frames codecMax state final (group :: groups) where
  planned := ⟨one.planned.1, counted ▸ more.planned⟩
  buffer := by
    rw [more.buffer, one.buffer, framesOf_cons, framesOf_cons, wires_append, wires_append]
    simp [framesOf, wires]
  lens := by rw [more.lens, one.lens]; simp
  pads := by
    intro dynamic
    have same : next.budget.profile = .cloudflareDynamic := by
      rw [counted]
      exact dynamic
    rw [more.pads same, one.pads dynamic]
    simp
  recut := by
    have recut := one.recut
    rw [framesOf_cons] at recut ⊢
    simp only [framesOf, flatMap_nil, append_nil] at recut
    rw [append_assoc]
    exact recut.trans (more.recut.append_left group.frames)
  ok := more.ok
  moved := by
    intro _
    have moved := one.moved (by simp)
    by_cases none : groups = []
    · rw [more.stays none]
      exact moved
    · exact moved.trans (more.moved none)
  stays := by simp
  bytes := by
    intro dynamic
    have same : next.budget.profile = .cloudflareDynamic := by
      rw [counted]
      exact dynamic
    obtain ⟨first, within⟩ := one.bytes dynamic
    obtain ⟨second, within'⟩ := more.bytes same
    refine ⟨?_, fun _ => ?_⟩
    · rw [second, first]
      simp only [wireBytes, map_cons, map_nil, sum_cons, sum_nil]
      omega
    · by_cases none : groups = []
      · rw [second, none]
        exact within (by simp)
      · exact within' none

theorem planLoop_spec (records : Nat) (state : PlanState)
    (least : 14 ≤ codecMax) (most : codecMax ≤ 16383)
    (plannable : Plannable frames (state.budget.plaintextLimit codecMax) state.cursor) :
    ∃ final groups, planLoop frames codecMax records state = .ok final ∧
      Extended frames codecMax state final groups ∧
      (0 < records → state.cursor.frame < frames.length →
        state.windowWireBytes = 0 → groups ≠ []) := by
  induction records generalizing state with
  | zero => exact ⟨state, [], rfl, .refl plannable.ok, by simp⟩
  | succ _ ih =>
    have small := (state.budget.plaintextLimit_le codecMax).trans most
    have large := state.budget.le_plaintextLimit least
    rw [planLoop]
    by_cases inside : state.cursor.frame < frames.length
    · rw [if_pos inside]
      simp only [windowFull_eq large small, bind, Except.bind]
      by_cases full : state.budget.profile = .cloudflareDynamic ∧
          SERVER_MUX_FAIR_BATCH_BYTES < state.windowWireBytes +
            (state.budget.plaintextLimit codecMax + 18 + TLS_HEADER_LEN)
      · rw [if_pos (by simpa using full)]
        refine ⟨state, [], rfl, .refl plannable.ok, ?_⟩
        have crowded := full.2
        simp only [SERVER_MUX_FAIR_BATCH_BYTES, TLS_HEADER_LEN] at crowded
        omega
      · rw [if_neg (by simpa using full)]
        obtain ⟨_, _, fill, appended, bound, some⟩ :=
          @fillRecord_spec _ _ state.scratch.plaintextBuf.length
            (frames.length - state.cursor.frame)
            ⟨state.scratch.plaintextBuf, state.cursor, false⟩ plannable le_rfl
            (by simp [RecordState.used])
        have added' := some (by omega) inside (by simp [RecordState.used])
        obtain ⟨next, group, closed, counted, ok, one⟩ :=
          closeRecord_spec appended added' bound most
            (fun dynamic => by
              by_contra crowded
              exact full ⟨dynamic, by omega⟩)
        have moved := one.moved (by simp)
        have limit := counted ▸ state.budget.plaintextLimit_sentOne codecMax
        have small' := (next.budget.plaintextLimit_le codecMax).trans most
        obtain ⟨final, groups, planned, more, _⟩ := ih next
          (plannable.later one.ok (by rcases moved with later | same <;> omega) limit (by omega))
        refine ⟨final, group :: groups, ?_, one.cons counted more, by simp⟩
        simp [fill, closed, planned]
    · rw [if_neg inside]
      exact ⟨state, [], rfl, .refl plannable.ok, fun _ contrary => absurd contrary inside⟩

end Window

/-! ## Reading a window back -/

variable (groups)

theorem cutRecords_groups :
    cutRecords (groups.map Group.len) (wires (framesOf groups)) =
      groups.map fun group => wires group.frames := by
  induction groups with
  | nil => rfl
  | cons _ _ ih =>
    rw [framesOf_cons, wires_append, map_cons, cutRecords, Group.len,
      take_left, drop_left, ih, map_cons]

theorem sum_lens : (groups.map Group.len).sum = (wires (framesOf groups)).length := by
  induction groups with
  | nil => rfl
  | cons _ _ ih =>
    rw [framesOf_cons, wires_append, length_append, map_cons, sum_cons, ih, Group.len]

variable {group : Group}

theorem exactPaddedRecordCapacity_eq (ok : group.Ok codecMax budget) (most : codecMax ≤ 16383) :
    exactPaddedRecordCapacity group.len group.pad = .ok group.wireLen := by
  have within := ok.within
  have small := (budget.plaintextLimit_le codecMax).trans most
  have fits : ¬OUTER_TLS_RECORD_LIMIT <
      group.len + group.pad + (PADDING_LEN_FIELD + AEAD_TAG_LEN) := by
    simp only [OUTER_TLS_RECORD_LIMIT, MAX_TLS_RECORD_PAYLOAD, PADDING_LEN_FIELD, AEAD_TAG_LEN]
    omega
  rw [exactPaddedRecordCapacity, if_neg (by omega)]
  simp only [if_neg fits]
  rfl

theorem sumCapacities_groups (most : codecMax ≤ 16383)
    (groups : List Group) (budget : MuxRecordBudget) (planned : Planned codecMax budget groups) :
    sumCapacities ((groups.map Group.len).zip (groups.map Group.pad)) = .ok (wireBytes groups) := by
  induction groups generalizing budget with
  | nil => rfl
  | cons _ _ ih =>
    obtain ⟨ok, rest⟩ := planned
    simp only [map_cons, zip_cons_cons, sumCapacities,
      exactPaddedRecordCapacity_eq ok most, ih _ rest, bind, Except.bind]
    rfl

variable {groups}

theorem Planned.valid (planned : Planned codecMax budget groups) :
    ∀ group ∈ groups, ∀ frame ∈ group.frames, frame.Valid := by
  induction groups generalizing budget with
  | nil => simp
  | cons _ _ ih => exact forall_mem_cons.mpr ⟨planned.1.valid, ih planned.2⟩

theorem Planned.ok (planned : Planned codecMax budget groups)
    {index : Nat} (found : groups[index]? = some group) :
    group.Ok codecMax (Nat.iterate MuxRecordBudget.sentOne index budget) := by
  induction groups generalizing budget index with
  | nil => simp at found
  | cons _ _ ih =>
    cases index with
    | zero =>
      rw [List.getElem?_cons_zero, Option.some.injEq] at found
      exact found ▸ planned.1
    | succ => exact ih planned.2 found

theorem mapM_decodeAll (valid : ∀ group ∈ groups, ∀ frame ∈ group.frames, frame.Valid) :
    (groups.map fun group => wires group.frames).mapM MuxFrame.decodeAll =
      .ok (groups.map (·.frames)) := by
  induction groups with
  | nil => rfl
  | cons group _ ih =>
    rw [map_cons, mapM_cons, MuxFrame.decodeAll_wires (valid group mem_cons_self),
      ih fun other member => valid other (mem_cons_of_mem _ member)]
    rfl

/-- What holds of a window that was written: the records make up the plaintext,
each one decodes on its own and keeps to the limit that its number gives, and
under the dynamic profile the lengths on the wire are fixed. -/
structure WellCut (codecMax : Nat) (window : Window) : Prop where
  partition : window.scratch.records.flatten = window.scratch.plaintextBuf
  records : ∀ index record, window.scratch.records[index]? = some record →
    record ≠ [] ∧
    record.length ≤ (Nat.iterate MuxRecordBudget.sentOne index
      window.budget).plaintextLimit codecMax ∧
    ∃ decoded, MuxFrame.decodeAll record = .ok decoded ∧
      (window.budget.profile = .cloudflareDynamic →
        decoded.any MuxFrame.bearsData = true →
        ∃ pad, window.scratch.exactPadLens[index]? = some pad ∧
          exactPaddedRecordCapacity record.length pad =
            .ok ((Nat.iterate MuxRecordBudget.sentOne index
              window.budget).plaintextLimit codecMax + 18 + TLS_HEADER_LEN))
  wire : window.budget.profile = .cloudflareDynamic → ∃ bytes,
    validateExactPaddedRecordLens window.scratch.recordLens
      window.scratch.exactPadLens window.scratch.plaintextBuf.length = .ok bytes ∧
    bytes ≤ SERVER_MUX_FAIR_BATCH_BYTES

theorem iterate_sentOne_profile (count : Nat) (budget : MuxRecordBudget) :
    (Nat.iterate MuxRecordBudget.sentOne count budget).profile = budget.profile := by
  induction count generalizing budget with
  | zero => rfl
  | succ _ ih => exact ih budget.sentOne

theorem wellCut_of_extended (most : codecMax ≤ 16383) {final : PlanState}
    (extended : Extended frames codecMax ⟨⟨[], [], []⟩, cursor, budget, 0⟩ final groups) :
    WellCut codecMax ⟨final.scratch, budget⟩ ∧
      final.scratch.records = groups.map fun group => wires group.frames := by
  have buffer : final.scratch.plaintextBuf = wires (framesOf groups) := by
    simpa using extended.buffer
  have lens : final.scratch.recordLens = groups.map Group.len := by simpa using extended.lens
  have records : final.scratch.records = groups.map fun group => wires group.frames := by
    rw [RelaySealScratch.records, lens, buffer, cutRecords_groups]
  have pads (dynamic : budget.profile = .cloudflareDynamic) :
      final.scratch.exactPadLens = groups.map Group.pad := by
    simpa using extended.pads dynamic
  refine ⟨⟨?_, ?_, ?_⟩, records⟩
  · simp only [records, buffer, wires, framesOf, flatMap_assoc]
    rw [← flatMap_def]
  · intro index _ listed
    rw [records, List.getElem?_map] at listed
    obtain ⟨group, found, rfl⟩ := Option.map_eq_some_iff.mp listed
    have ok := extended.planned.ok found
    refine ⟨length_pos_iff.mp (length_wires_pos ok.some), ok.bound,
      group.frames, MuxFrame.decodeAll_wires ok.valid, ?_⟩
    intro dynamic bears
    refine ⟨group.pad, ?_, ?_⟩
    · rw [pads dynamic, List.getElem?_map, found]
      rfl
    · have exact := ok.padded ((iterate_sentOne_profile index budget).trans dynamic) bears
      have capacity := exactPaddedRecordCapacity_eq ok most
      rw [Group.wireLen, exact] at capacity
      exact capacity
  · intro dynamic
    obtain ⟨_, within⟩ := extended.bytes dynamic
    refine ⟨wireBytes groups, ?_, ?_⟩
    · rw [validateExactPaddedRecordLens, lens, pads dynamic, buffer, sum_lens,
        if_neg (by simp), if_neg (by simp),
        sumCapacities_groups most groups budget extended.planned]
    · by_cases none : groups = []
      · rw [none]
        exact Nat.zero_le _
      · have bound := within none
        omega

/-! ## The write loop -/

/-- What is written so far, and what stays behind the cursor. -/
structure Written (frames : List MuxFrame) (codecMax : Nat)
    (state : WriteState) (groups : List Group) : Prop where
  ok : state.cursor.Ok frames
  windows : ∀ window ∈ state.written, WellCut codecMax window
  records : state.written.flatMap (·.scratch.records) = groups.map fun group => wires group.frames
  valid : ∀ group ∈ groups, ∀ frame ∈ group.frames, frame.Valid
  recut : Recut frames (framesOf groups ++ remaining frames state.cursor)

section Write

variable {frames : List MuxFrame} {codecMax : Nat} {clock : Nat × Nat}
  {state : WriteState} {groups : List Group}

theorem writeWindow_spec (least : 14 ≤ codecMax) (most : codecMax ≤ 16383)
    (written : Written frames codecMax state groups)
    (plannable : Plannable frames
      ((state.budget.forWrite clock.1).plaintextLimit codecMax) state.cursor)
    (inside : state.cursor.frame < frames.length) :
    ∃ next more, writeWindow frames codecMax clock state = .ok next ∧
      Written frames codecMax next (groups ++ more) ∧
      state.cursor.Before next.cursor := by
  obtain ⟨planned, more, plan, extended, some⟩ :=
    planLoop_spec SERVER_MUX_FRAME_BATCH_LIMIT
      ⟨⟨[], [], []⟩, state.cursor, state.budget.forWrite clock.1, 0⟩ least most
      plannable
  have moved := extended.moved (some (by simp [SERVER_MUX_FRAME_BATCH_LIMIT]) inside rfl)
  obtain ⟨wellCut, records⟩ := wellCut_of_extended most extended
  refine ⟨⟨planned.cursor, { planned.budget with lastWrite := .some clock.2 },
      state.written ++ [⟨planned.scratch, state.budget.forWrite clock.1⟩]⟩,
    more, ?_, ⟨extended.ok, ?_, ?_, ?_, ?_⟩, moved⟩
  · rw [writeWindow, if_pos inside]
    simp only [planReadyMuxRecords, plan, bind, Except.bind]
  · exact forall_mem_append.mpr ⟨written.windows, forall_mem_singleton.mpr wellCut⟩
  · simp [written.records, records]
  · exact forall_mem_append.mpr ⟨written.valid, extended.planned.valid⟩
  · rw [framesOf, flatMap_append, append_assoc]
    exact written.recut.trans (extended.recut.append_left _)

end Write

def leftover (frames : List MuxFrame) (cursor : MuxFrameCursor) : Nat :=
  ((frames.drop cursor.frame).map fun frame => frame.payload.length + 1).sum - cursor.offset

theorem leftover_lt {next : MuxFrameCursor}
    (inside : cursor.frame < frames.length) (ok : cursor.Ok frames)
    (ok' : next.Ok frames) (before : cursor.Before next) :
    leftover frames next < leftover frames cursor := by
  obtain ⟨frame, rest, here⟩ : ∃ frame rest, frames.drop cursor.frame = frame :: rest :=
    exists_cons_of_ne_nil (by
      rw [← length_pos_iff, length_drop]
      omega)
  rw [MuxFrameCursor.Ok, here] at ok
  have small := ok.le
  rw [leftover, leftover, here, map_cons, sum_cons]
  rcases before with _ | ⟨same, _⟩
  · -- the frame at the cursor is used up
    obtain ⟨more, split⟩ : ∃ more, next.frame = cursor.frame + 1 + more :=
      ⟨next.frame - (cursor.frame + 1), by omega⟩
    have behind : frames.drop next.frame = rest.drop more := by
      rw [split, ← drop_drop, ← drop_drop, here]
      rfl
    have parts : (rest.map fun frame => frame.payload.length + 1).sum =
        ((rest.take more).map fun frame => frame.payload.length + 1).sum +
          ((rest.drop more).map fun frame => frame.payload.length + 1).sum := by
      rw [← sum_append, ← map_append, take_append_drop]
    rw [behind]
    omega
  · rw [MuxFrameCursor.Ok, ← same, here] at ok'
    have small' := ok'.le
    rw [← same, here, map_cons, sum_cons]
    omega

section Loop

variable {frames : List MuxFrame} {codecMax : Nat} {clock : Nat → Nat × Nat}
  {budget : MuxRecordBudget}

def ControlFits (frames : List MuxFrame) (codecMax : Nat)
    (clock : Nat → Nat × Nat) (budget : MuxRecordBudget) : Prop :=
  ∀ rounds state, writeWindows frames codecMax clock budget rounds =
    .ok state → ∀ frame ∈ frames.drop state.cursor.frame, frame.kind ≠ .data →
    MUX_FRAME_FIXED_LEN + frame.payload.length ≤
      (state.budget.forWrite (clock rounds).1).plaintextLimit codecMax

variable (least : 14 ≤ codecMax) (most : codecMax ≤ 16383)
  (streams : ∀ frame ∈ frames, frame.kind = .cover ↔ frame.streamId = 0)
  (addressable : (payloads frames).length < 2 ^ 64)
  (fits : ControlFits frames codecMax clock budget)

include least most streams addressable fits

theorem plannable_of_written {rounds : Nat} {state : WriteState}
    (reached : writeWindows frames codecMax clock budget rounds = .ok state)
    (written : Written frames codecMax state groups) :
    Plannable frames ((state.budget.forWrite (clock rounds).1).plaintextLimit
      codecMax) state.cursor where
  streams := streams
  addressable := addressable
  fits := fits rounds state reached
  least := MuxRecordBudget.le_plaintextLimit _ least
  most := by
    have small := ((state.budget.forWrite (clock rounds).1).plaintextLimit_le codecMax).trans most
    omega
  ok := written.ok

theorem writeWindows_spec (rounds : Nat) :
    ∃ state groups, writeWindows frames codecMax clock budget rounds = .ok state ∧
      Written frames codecMax state groups ∧
      (frames.length ≤ state.cursor.frame ∨
        leftover frames state.cursor + rounds ≤ leftover frames ⟨0, 0⟩) := by
  induction rounds with
  | zero =>
    refine ⟨_, [], rfl, ⟨.inl rfl, by simp, by simp, by simp, ?_⟩, .inr le_rfl⟩
    simp only [framesOf, flatMap_nil, nil_append, remaining, drop_zero, unread_zero]
    exact .refl _
  | succ rounds ih =>
    obtain ⟨state, groups, reached, written, progress⟩ := ih
    rw [writeWindows, reached]
    simp only [bind, Except.bind]
    by_cases inside : state.cursor.frame < frames.length
    · obtain ⟨next, _, stepped, written', before⟩ :=
        @writeWindow_spec frames codecMax (clock rounds) state groups least
          most written (plannable_of_written least most streams addressable
            fits reached written) inside
      refine ⟨next, _, stepped, written', .inr ?_⟩
      have less := leftover_lt inside written.ok written'.ok before
      rcases progress with done | shrunk <;> omega
    · refine ⟨state, groups, ?_, written, .inl (by omega)⟩
      rw [writeWindow, if_neg inside]

end Loop

theorem mapM_decodeAll_of_written {state : WriteState}
    (written : Written frames codecMax state groups) :
    (state.written.flatMap (·.scratch.records)).mapM MuxFrame.decodeAll =
        .ok (groups.map (·.frames)) ∧
      Recut frames ((groups.map (·.frames)).flatten ++ remaining frames state.cursor) := by
  rw [written.records]
  exact ⟨mapM_decodeAll written.valid, written.recut⟩

/-- Whatever the clock says between the writes, the records of a batch of valid
frames decode one by one to the frames of the batch, recut; every window moves
the cursor, so the loop ends with the whole batch written; and the windows keep
to the limits that the record counter gives. -/
theorem records_carry_batch (frames : List MuxFrame) (padding : UInt16)
    (clock : Nat → Nat × Nat) (budget : MuxRecordBudget)
    (streams : ∀ frame ∈ frames, frame.kind = .cover ↔ frame.streamId = 0)
    (addressable : (payloads frames).length < 2 ^ 64) (least : 14 ≤ maxPlaintextLen padding)
    (fits : ControlFits frames (maxPlaintextLen padding) clock budget) :
    (∀ rounds, ∃ state decoded,
      writeWindows frames (maxPlaintextLen padding) clock budget rounds = .ok state ∧
      (∀ window ∈ state.written, WellCut (maxPlaintextLen padding) window) ∧
      (state.written.flatMap (·.scratch.records)).mapM MuxFrame.decodeAll = .ok decoded ∧
      Recut frames (decoded.flatten ++ remaining frames state.cursor) ∧
      content frames = content decoded.flatten ++ content (remaining frames state.cursor)) ∧
    (∀ rounds state, writeWindows frames (maxPlaintextLen padding) clock budget rounds = .ok state →
      state.cursor.frame < frames.length →
      ∃ next, writeWindows frames (maxPlaintextLen padding) clock budget (rounds + 1) = .ok next ∧
        state.cursor.Before next.cursor) ∧
    ∃ rounds state decoded,
      writeWindows frames (maxPlaintextLen padding) clock budget rounds = .ok state ∧
      frames.length ≤ state.cursor.frame ∧
      (state.written.flatMap (·.scratch.records)).mapM MuxFrame.decodeAll = .ok decoded ∧
      Recut frames decoded.flatten ∧
      content frames = content decoded.flatten := by
  have most := maxPlaintextLen_le padding
  have reach := writeWindows_spec least most streams addressable fits
  refine ⟨?_, ?_, ?_⟩
  · intro rounds
    obtain ⟨state, groups, reached, written, _⟩ := reach rounds
    obtain ⟨decoded, recut⟩ := mapM_decodeAll_of_written written
    refine ⟨state, _, reached, written.windows, decoded, recut, ?_⟩
    rw [recut.content, content_append]
  · intro rounds state reached inside
    obtain ⟨same, groups, reached', written, _⟩ := reach rounds
    obtain rfl : state = same := Except.ok.inj (reached.symm.trans reached')
    obtain ⟨next, _, stepped, _, before⟩ :=
      @writeWindow_spec frames _ (clock rounds) state groups least most written
        (plannable_of_written least most streams addressable fits reached written) inside
    refine ⟨next, ?_, before⟩
    rw [writeWindows, reached]
    exact stepped
  · obtain ⟨state, _, reached, written, progress⟩ := reach (leftover frames ⟨0, 0⟩ + 1)
    have done : frames.length ≤ state.cursor.frame := by
      rcases progress with done | _
      · exact done
      · omega
    obtain ⟨decoded, recut⟩ := mapM_decodeAll_of_written written
    rw [remaining, drop_of_length_le done, unread, append_nil] at recut
    exact ⟨_, state, _, reached, done, decoded, recut, recut.content⟩

def smallBatch : List MuxFrame :=
  [⟨1, .open, []⟩, ⟨1, .data, [1, 2]⟩, ⟨1, .data, []⟩, ⟨1, .data, [3]⟩, ⟨1, .fin, []⟩]

theorem records_carry_batch_small :
    maxPlaintextLen 16369 = 14 ∧
    ∃ rounds state decoded, writeWindows smallBatch (maxPlaintextLen 16369) (fun _ => (0, 0))
        (.new .cloudflareDynamic) rounds = .ok state ∧
      smallBatch.length ≤ state.cursor.frame ∧
      (state.written.flatMap (·.scratch.records)).mapM MuxFrame.decodeAll = .ok decoded ∧
      Recut smallBatch decoded.flatten ∧
      content smallBatch = content decoded.flatten := by
  refine ⟨by decide, (records_carry_batch smallBatch 16369 (fun _ => (0, 0))
    (.new .cloudflareDynamic) (by decide) (by decide) (by decide) ?_).2.2⟩
  intro _ _ _ frame member control
  have empty : MUX_FRAME_FIXED_LEN + frame.payload.length ≤ 14 := by
    have all : ∀ frame ∈ smallBatch, frame.kind ≠ .data →
        MUX_FRAME_FIXED_LEN + frame.payload.length ≤ 14 := by decide
    exact all frame (mem_of_mem_drop member) control
  exact empty.trans (MuxRecordBudget.le_plaintextLimit _ (by decide))

end ParallaX.Mux
