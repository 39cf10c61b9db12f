import Mathlib.Data.List.Basic

/-!
# Files whose writes become durable at a sync

A file is the content that a crash cannot take away and the writes since the
last sync. A crash keeps an arbitrary leading part of each of those writes. A
directory entry is the file that a crash falls back to and the files renamed
over it since the last directory sync.
-/

namespace ParallaX.Data

open List

variable {α : Type*}

/-- Overwrite from `offset` on. A gap behind the end is filled with `zero`, and
an empty write changes nothing. -/
def writeAt (zero : α) (offset : Nat) (data content : List α) : List α :=
  if data.isEmpty then content
  else
    content.take offset ++
      (List.replicate (offset - content.length) zero ++
        (data ++ content.drop (offset + data.length)))

def resize (zero : α) (size : Nat) (content : List α) : List α :=
  content.take size ++ List.replicate (size - content.length) zero

variable (zero : α)

theorem writeAt_end (data content : List α) :
    writeAt zero content.length data content = content ++ data := by
  unfold writeAt
  split
  · simp_all
  · simp

/-- A write inside the content replaces as much as it is long. -/
theorem writeAt_append (before old data after : List α) (shorter : data.length ≤ old.length) :
    writeAt zero before.length data (before ++ (old ++ after)) =
      before ++ (data ++ old.drop data.length ++ after) := by
  unfold writeAt
  split
  next empty => simp [isEmpty_iff.mp empty]
  · have inside : before.length - (before ++ (old ++ after)).length = 0 := by simp
    have rest :
        (before ++ (old ++ after)).drop (before.length + data.length) =
          old.drop data.length ++ after := by
      rw [drop_length_add_append, drop_append_of_le_length shorter]
    rw [inside, rest, take_left', replicate_zero]
    · simp
    · rfl

theorem length_le_length_writeAt (offset : Nat) (data content : List α) :
    content.length ≤ (writeAt zero offset data content).length := by
  unfold writeAt
  split
  · exact Nat.le_refl _
  · simp only [length_append, length_take, length_replicate, length_drop]
    omega

theorem resize_append (content data : List α) :
    resize zero content.length (content ++ data) = content := by
  simp [resize]

inductive FileOp (α : Type*) where
  | write (offset : Nat) (data : List α)
  | setLen (size : Nat)
deriving DecidableEq, Repr

namespace FileOp

def apply (zero : α) : FileOp α → List α → List α
  | write offset data, content => writeAt zero offset data content
  | setLen size, content => resize zero size content

/-- What is left of an operation of which a crash kept `kept` units: the start
of a write, and either all or nothing of a change of length. -/
def survive (zero : α) (kept : Nat) : FileOp α → List α → List α
  | write offset data, content => writeAt zero offset (data.take kept) content
  | setLen size, content =>
    if kept = 0 then content else resize zero size content

end FileOp

/-- The content after a crash that kept the given amounts of the operations, in
order; operations without an amount are lost. -/
def survived (zero : α) : List (FileOp α) → List Nat → List α → List α
  | [], _, content => content
  | _, [], content => content
  | op :: ops, kept :: amounts, content => survived zero ops amounts (op.survive zero kept content)

structure CrashFile (α : Type*) where
  durable : List α
  pending : List (FileOp α)
deriving DecidableEq, Repr

namespace CrashFile

def synced (content : List α) : CrashFile α := ⟨content, []⟩

/-- What a reader sees. -/
def current (zero : α) (file : CrashFile α) : List α :=
  file.pending.foldl (fun content op => op.apply zero content) file.durable

def push (file : CrashFile α) (op : FileOp α) : CrashFile α :=
  { file with pending := file.pending ++ [op] }

def sync (zero : α) (file : CrashFile α) : CrashFile α := synced (file.current zero)

def Survives (zero : α) (file : CrashFile α) (content : List α) : Prop :=
  ∃ amounts, content = survived zero file.pending amounts file.durable

variable (zero : α) (ops : List (FileOp α)) {survivor : List α} (file : CrashFile α) (op : FileOp α)
  (content : List α)

@[simp]
theorem current_synced : (synced content).current zero = content := rfl

@[simp]
theorem current_push : (file.push op).current zero = op.apply zero (file.current zero) := by
  simp [push, current]

theorem survives_synced {zero : α} {content : List α} :
    (synced content).Survives zero survivor ↔ survivor = content := by
  constructor
  · rintro ⟨_, rfl⟩
    rfl
  · rintro rfl
    exact ⟨[], rfl⟩

private theorem survived_snoc (amounts : List Nat) (content : List α) :
    (∃ fewer, survived zero (ops ++ [op]) amounts content = survived zero ops fewer content) ∨
      ∃ fewer kept, survived zero (ops ++ [op]) amounts content =
        op.survive zero kept (survived zero ops fewer content) := by
  induction ops generalizing amounts content with
  | nil =>
    cases amounts with
    | nil => exact .inl ⟨[], rfl⟩
    | cons kept => exact .inr ⟨[], kept, by simp [survived]⟩
  | cons first _ ih =>
    cases amounts with
    | nil => exact .inl ⟨[], rfl⟩
    | cons kept amounts =>
      rcases ih amounts (first.survive zero kept content) with ⟨fewer, same⟩ | ⟨fewer, last, same⟩
      · exact .inl ⟨kept :: fewer, same⟩
      · exact .inr ⟨kept :: fewer, last, same⟩

theorem survives_push {zero : α} {file : CrashFile α} {op : FileOp α}
    (survives : (file.push op).Survives zero survivor) :
    file.Survives zero survivor ∨
      ∃ earlier kept, file.Survives zero earlier ∧ survivor = op.survive zero kept earlier := by
  obtain ⟨amounts, rfl⟩ := survives
  rcases survived_snoc zero file.pending op amounts file.durable with
    ⟨fewer, same⟩ | ⟨fewer, kept, same⟩
  · exact .inl ⟨fewer, same⟩
  · exact .inr ⟨_, kept, ⟨fewer, rfl⟩, same⟩

private theorem exists_survive_eq_apply :
    ∃ kept, op.survive zero kept content = op.apply zero content := by
  cases op with
  | write _ data => exact ⟨data.length, by simp [FileOp.survive, FileOp.apply]⟩
  | setLen => exact ⟨1, by simp [FileOp.survive, FileOp.apply]⟩

private theorem exists_survived_eq_foldl :
    ∃ amounts, survived zero ops amounts content =
      ops.foldl (fun content op => op.apply zero content) content := by
  induction ops generalizing content with
  | nil => exact ⟨[], rfl⟩
  | cons op _ ih =>
    obtain ⟨kept, whole⟩ := exists_survive_eq_apply zero op content
    obtain ⟨amounts, rest⟩ := ih (op.apply zero content)
    exact ⟨kept :: amounts, by simpa [survived, whole] using rest⟩

/-- A crash may leave everything that was written. -/
theorem survives_current : file.Survives zero (file.current zero) := by
  obtain ⟨amounts, same⟩ := exists_survived_eq_foldl zero file.pending file.durable
  exact ⟨amounts, same.symm⟩

end CrashFile

/-! ## Directory entries -/

/-- One name of a directory. `durable` is what the name falls back to, and
`renamed` are the files moved over it since, newest first. -/
structure DirEntry (α : Type*) where
  durable : Option (CrashFile α)
  renamed : List (CrashFile α)
deriving DecidableEq, Repr

namespace DirEntry

def empty : DirEntry α := ⟨none, []⟩

/-- The file the name stands for now. -/
def file? (entry : DirEntry α) : Option (CrashFile α) :=
  match entry.renamed with
  | file :: _ => some file
  | [] => entry.durable

def setFile (entry : DirEntry α) (file : CrashFile α) : DirEntry α :=
  match entry.renamed with
  | _ :: older => { entry with renamed := file :: older }
  | [] => { entry with durable := some file }

def rename (entry : DirEntry α) (file : CrashFile α) : DirEntry α :=
  { entry with renamed := file :: entry.renamed }

def sync (entry : DirEntry α) : DirEntry α := ⟨entry.file?, []⟩

/-- Everything the name can stand for after a crash. -/
def candidates (entry : DirEntry α) : List (Option (CrashFile α)) :=
  entry.durable :: entry.renamed.map some

/-- A crash that falls back to the numbered candidate and keeps the given
amounts of its unsynced writes. -/
def crash (zero : α) (entry : DirEntry α) (choice : Nat) (amounts : List Nat) : DirEntry α :=
  match entry.candidates.getD choice entry.durable with
  | none => empty
  | some file => ⟨some (CrashFile.synced (survived zero file.pending amounts file.durable)), []⟩

variable (entry : DirEntry α) (file : CrashFile α)

@[simp]
theorem file?_setFile : (entry.setFile file).file? = some file := by
  unfold setFile file?
  cases entry.renamed <;> rfl

theorem file?_mem_candidates : entry.file? ∈ entry.candidates := by
  obtain ⟨_, renamed⟩ := entry
  cases renamed with
  | nil => simp [file?, candidates]
  | cons file => simp [file?, candidates]

theorem mem_candidates_rename
    {entry : DirEntry α} {file : CrashFile α} {candidate : Option (CrashFile α)}
    (member : candidate ∈ (entry.rename file).candidates) :
    candidate = some file ∨ candidate ∈ entry.candidates := by
  simp only [candidates, rename, map_cons, mem_cons] at member ⊢
  tauto

theorem candidates_sync : entry.sync.candidates = [entry.file?] := rfl

theorem crash_cases (zero : α) (entry : DirEntry α) (choice : Nat) (amounts : List Nat) :
    (none ∈ entry.candidates ∧ entry.crash zero choice amounts = empty) ∨
      ∃ file content, some file ∈ entry.candidates ∧
        content = survived zero file.pending amounts file.durable ∧
        entry.crash zero choice amounts = ⟨some (CrashFile.synced content), []⟩ := by
  have chosen : entry.candidates.getD choice entry.durable ∈ entry.candidates := by
    rw [getD_eq_getElem?_getD]
    cases shape : entry.candidates[choice]? with
    | none => simp [candidates]
    | some => exact mem_of_getElem? shape
  unfold crash
  cases shape : entry.candidates.getD choice entry.durable with
  | none => exact .inl ⟨shape ▸ chosen, rfl⟩
  | some file => exact .inr ⟨file, _, shape ▸ chosen, rfl, rfl⟩

end DirEntry

end ParallaX.Data
