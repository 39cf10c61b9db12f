import Mathlib.Tactic.ByContra

/-!
# Readers over a cursor

A decoder walks a fixed buffer with a position. `Reader` is the state-passing
form of such a decoder, and `Reads` is the one property that composes: wherever
the unread input begins with `bytes`, the reader returns `value` and leaves the
cursor exactly behind `bytes`.
-/

namespace ParallaX.Codec

open List

variable {β ε α γ : Type}

/-- A buffer together with the position of the next unread item. -/
structure Cursor (β : Type) where
  buf : List β
  pos : Nat
deriving DecidableEq, Repr

namespace Cursor

/-- The items that have not been read yet. -/
def rest (cursor : Cursor β) : List β := cursor.buf.drop cursor.pos

def advance (cursor : Cursor β) (count : Nat) : Cursor β :=
  { cursor with pos := cursor.pos + count }

variable (cursor : Cursor β) (count : Nat)

@[simp]
theorem advance_buf : (cursor.advance count).buf = cursor.buf := rfl

@[simp]
theorem advance_pos : (cursor.advance count).pos = cursor.pos + count := rfl

@[simp]
theorem advance_advance (first second : Nat) :
    (cursor.advance first).advance second = cursor.advance (first + second) := by
  simp [advance, Nat.add_assoc]

theorem rest_advance {cursor : Cursor β} {bytes suffix : List β}
    (shape : cursor.rest = bytes ++ suffix) : (cursor.advance bytes.length).rest = suffix := by
  have dropped : (cursor.buf.drop cursor.pos).drop bytes.length = suffix := by
    rw [show cursor.buf.drop cursor.pos = bytes ++ suffix from shape]
    exact drop_left
  simpa [rest, advance, drop_drop] using dropped

def InBounds (cursor : Cursor β) : Prop := cursor.pos ≤ cursor.buf.length

theorem InBounds.advance {cursor : Cursor β} {bytes suffix : List β}
    (inBounds : cursor.InBounds) (shape : cursor.rest = bytes ++ suffix) :
    (cursor.advance bytes.length).InBounds := by
  have unread : cursor.buf.length - cursor.pos = bytes.length + suffix.length := by
    rw [← length_drop, ← length_append]
    exact congrArg List.length shape
  unfold InBounds at inBounds ⊢
  simp only [advance_pos, advance_buf]
  omega

theorem pos_lt_of_rest_cons {cursor : Cursor β} {head : β} {tail : List β}
    (shape : cursor.rest = head :: tail) : cursor.pos < cursor.buf.length := by
  by_contra outside
  have exhausted := drop_eq_nil_of_le (Nat.le_of_not_lt outside)
  rw [rest, exhausted] at shape
  cases shape

theorem getElem?_pos : cursor.buf[cursor.pos]? = cursor.rest.head? := by
  simp [rest, List.head?_drop]

end Cursor

/-- A fallible decoder. A failure leaves the cursor where it was raised. -/
def Reader (β ε α : Type) : Type := Cursor β → Except ε α × Cursor β

namespace Reader

instance : Monad (Reader β ε) where
  pure value := fun cursor => (.ok value, cursor)
  bind reader next := fun cursor =>
    match reader cursor with
    | (.ok value, later) => next value later
    | (.error failure, later) => (.error failure, later)

def fail (failure : ε) : Reader β ε α := fun cursor => (.error failure, cursor)

variable {reader : Reader β ε α} {next : α → Reader β ε γ}

theorem bind_ok {cursor later : Cursor β} {value : α} (run : reader cursor = (.ok value, later)) :
    (reader >>= next) cursor = next value later := by
  change (match reader cursor with
    | (.ok value, later) => next value later
    | (.error failure, later) => (.error failure, later)) = _
  rw [run]

/-- A sequence that succeeds has steps that succeed. -/
theorem exists_of_bind_ok {cursor later : Cursor β} {result : γ}
    (run : (reader >>= next) cursor = (.ok result, later)) :
    ∃ value middle, reader cursor = (.ok value, middle) ∧
      next value middle = (.ok result, later) := by
  cases outcome : reader cursor with
  | mk item middle =>
    cases item with
    | ok value =>
      rw [bind_ok outcome] at run
      exact ⟨value, middle, rfl, run⟩
    | error failure =>
      change (match reader cursor with
        | (.ok value, later) => next value later
        | (.error failure, later) => (.error failure, later)) = _ at run
      rw [outcome] at run
      cases (Prod.mk.inj run).1

end Reader

/-- The reader consumes exactly `bytes`, whatever follows them. -/
def Reads (reader : Reader β ε α) (bytes : List β) (value : α) : Prop :=
  ∀ (cursor : Cursor β) (suffix : List β), cursor.InBounds → cursor.rest = bytes ++ suffix →
      reader cursor = (.ok value, cursor.advance bytes.length)

theorem Reads.pure (value : α) : Reads (pure value : Reader β ε α) [] value := fun _ _ _ _ => rfl

variable {reader : Reader β ε α} {next : α → Reader β ε γ} {value : α} {outcome : Except ε α}
  {result : γ} {holds : α → Prop}

theorem Reads.bind {first second : List β} (readsFirst : Reads reader first value)
    (readsSecond : Reads (next value) second result) :
    Reads (reader >>= next) (first ++ second) result := by
  intro cursor suffix inBounds shape
  have firstShape : cursor.rest = first ++ (second ++ suffix) := by rw [shape, append_assoc]
  have firstRun := readsFirst cursor (second ++ suffix) inBounds firstShape
  have secondRun :=
    readsSecond (cursor.advance first.length) suffix
      (inBounds.advance firstShape) (Cursor.rest_advance firstShape)
  calc
    (reader >>= next) cursor = next value (cursor.advance first.length) := Reader.bind_ok firstRun
    _ = (.ok result, cursor.advance (first ++ second).length) := by
          rw [secondRun, Cursor.advance_advance, length_append]

theorem Reads.map {bytes : List β} (reads : Reads reader bytes value) (transform : α → γ) :
    Reads (reader >>= fun item => Pure.pure (transform item)) bytes (transform value) := by
  have combined :
      Reads (reader >>= fun item => Pure.pure (transform item)) (bytes ++ []) (transform value) :=
    .bind reads (.pure (transform value))
  rwa [append_nil] at combined

def Ensures (reader : Reader β ε α) (holds : α → Prop) : Prop :=
  ∀ cursor value later, reader cursor = (.ok value, later) → holds value

theorem Ensures.pure (valid : holds value) : Ensures (pure value : Reader β ε α) holds := by
  intro _ _ _ run
  obtain ⟨same, -⟩ := Prod.mk.inj run
  rw [← Except.ok.inj same]
  exact valid

theorem Ensures.fail (failure : ε) : Ensures (Reader.fail failure : Reader β ε α) holds := by
  intro _ _ _ run
  cases (Prod.mk.inj run).1

theorem Ensures.bind {holds : γ → Prop} (ensures : ∀ value, Ensures (next value) holds) :
    Ensures (reader >>= next) holds := by
  intro _ result later run
  obtain ⟨value, middle, -, final⟩ := Reader.exists_of_bind_ok run
  exact ensures value middle result later final

/-- A sequence that succeeds has steps that succeed. -/
theorem exists_of_bind_eq_ok {next : α → Except ε γ} (success : (outcome >>= next) = .ok result) :
    ∃ value, outcome = .ok value ∧ next value = .ok result := by
  cases outcome with
  | error => cases success
  | ok value => exact ⟨value, rfl, success⟩

theorem eq_ok_of_mapError_eq_ok {δ : Type} {f : ε → δ} (success : outcome.mapError f = .ok value) :
    outcome = .ok value := by
  cases outcome with
  | error => cases success
  | ok =>
    cases success
    rfl

end ParallaX.Codec
