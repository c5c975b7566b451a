import Mathlib.Data.List.Basic
import Mathlib.Logic.Function.Basic

/-!
# Numbered files

Files stand at numbered places.  Renaming moves a file to another place and loses the
file that was there; moving every file up by one, from the top down, loses at most the file
at the top.  `lost` is not part of a file system: it says which files were lost and where.
-/

namespace Debswarm.File

open Function Option

universe u

/-- Files at numbered places, and what was lost. -/
structure NumberedFiles (α : Type u) where
  file : Nat → Option α
  lost : List (Nat × α)

namespace NumberedFiles

variable {α : Type u}

/-- No files. -/
def empty : NumberedFiles α :=
  ⟨fun _ => none, []⟩

/-- Put a file at a place that has none, or change the one there. -/
def write (place : Nat) (content : α) (files : NumberedFiles α) : NumberedFiles α :=
  { files with file := update files.file place (some content) }

def remove (place : Nat) (files : NumberedFiles α) : NumberedFiles α :=
  match files.file place with
  | none => files
  | some content =>
    ⟨update files.file place none, files.lost ++ [(place, content)]⟩

/-- Move a file to another place, over the file that is there. -/
def rename (source target : Nat) (files : NumberedFiles α) : NumberedFiles α :=
  match files.file source with
  | none => files
  | some content =>
    let cleared := files.remove target
    { cleared with
      file := update (update cleared.file source none) target
        (some content) }

/-- Move the `count` files at the places from `low` on up by one, from the top down. -/
def shiftUp (low : Nat) : Nat → NumberedFiles α → NumberedFiles α
  | 0, files => files
  | count + 1, files => shiftUp low count (files.rename (low + count) (low + count + 1))

/-- Move the files up as far as that works: a file whose rename fails stays where it is. -/
def tryShiftUp (fails : Nat → Bool) (low : Nat) : Nat → NumberedFiles α → NumberedFiles α
  | 0, files => files
  | count + 1, files =>
    tryShiftUp fails low count
      (if fails (low + count) then files else files.rename (low + count) (low + count + 1))

/-! ## What moving does -/

theorem file_write (place other : Nat) (content : α) (files : NumberedFiles α) :
    (files.write place content).file other =
      if other = place then some content else files.file other := by
  exact update_apply files.file place (some content) other

variable {files : NumberedFiles α} {source target : Nat}

theorem remove_of_none {place : Nat} (absent : files.file place = none) :
    files.remove place = files := by
  rw [remove, absent]

@[simp]
theorem file_remove (place other : Nat) (files : NumberedFiles α) :
    (files.remove place).file other = if other = place then none else files.file other := by
  cases present : files.file place with
  | none =>
    rw [remove_of_none present]
    split
    · rename_i same
      rw [same, present]
    · rfl
  | some content =>
    rw [remove, present]
    exact update_apply files.file place none other

@[simp]
theorem lost_remove (place : Nat) (files : NumberedFiles α) :
    (files.remove place).lost =
      files.lost ++ (files.file place).toList.map fun content => (place, content) := by
  unfold remove
  cases files.file place with
  | none => simp
  | some content => rfl

theorem rename_of_none (absent : files.file source = none) :
    files.rename source target = files := by
  rw [rename, absent]

theorem file_rename_of_some {content : α} (present : files.file source = some content)
    (other : Nat) :
    (files.rename source target).file other =
      if other = target then some content
      else if other = source then none else files.file other := by
  unfold rename
  rw [present]
  dsimp only
  rw [update_apply, update_apply, file_remove]
  split <;> rfl

theorem lost_rename_of_some {content : α} (present : files.file source = some content) :
    (files.rename source target).lost =
      files.lost ++ (files.file target).toList.map fun content => (target, content) := by
  unfold rename
  rw [present]
  exact lost_remove target files

@[simp]
theorem tryShiftUp_of_none (low count : Nat) (files : NumberedFiles α) :
    tryShiftUp (fun _ => false) low count files = shiftUp low count files := by
  induction count generalizing files with
  | zero => rfl
  | succ count ih => exact ih _

theorem shiftUp_succ (low count : Nat) (files : NumberedFiles α) :
    shiftUp low (count + 1) files = (shiftUp (low + 1) count files).rename low (low + 1) := by
  induction count generalizing files with
  | zero => rfl
  | succ count ih =>
    rw [shiftUp, ih]
    congr 1
    rw [shiftUp, Nat.add_right_comm low 1 count]
    rfl

/-- A rename clears the place it starts from, and fills the other if there is a file. -/
theorem file_rename (source target : Nat) (files : NumberedFiles α) (other : Nat) :
    (files.rename source target).file other =
      if other = target then (files.file source).or (files.file target)
      else if other = source then none else files.file other := by
  cases present : files.file source with
  | none =>
    rw [rename_of_none present, none_or]
    split
    · rename_i isTarget
      rw [isTarget]
    · split
      · rename_i isSource
        rw [isSource, present]
      · rfl
  | some content =>
    rw [file_rename_of_some present, some_or]

/-- Shifting moves every file up by one; the file at the top stays if the one below is missing. -/
theorem file_shiftUp (count : Nat) (files : NumberedFiles α) (place : Nat) :
    (shiftUp 0 (count + 1) files).file place =
      if place = 0 then none
      else if place ≤ count then files.file (place - 1)
      else if place = count + 1 then (files.file count).or (files.file (count + 1))
      else files.file place := by
  induction count generalizing files with
  | zero =>
    rw [shiftUp, shiftUp, file_rename]
    grind
  | succ count ih =>
    rw [shiftUp, Nat.zero_add, ih]
    simp only [file_rename]
    grind

/-- Shifting loses the file at the top, if another takes its place. -/
theorem lost_shiftUp (count : Nat) (files : NumberedFiles α) :
    (shiftUp 0 (count + 1) files).lost =
      files.lost ++ if (files.file count).isSome then
        (files.file (count + 1)).toList.map fun content => (count + 1, content) else [] := by
  induction count generalizing files with
  | zero =>
    rw [shiftUp, shiftUp]
    cases present : files.file 0 with
    | none => simp [rename_of_none present]
    | some content => simp [lost_rename_of_some present]
  | succ count ih =>
    have cleared : (files.rename (count + 1) (count + 2)).file (count + 1) = none := by
      rw [file_rename]
      simp
    rw [shiftUp, Nat.zero_add, ih, cleared]
    cases present : files.file (count + 1) with
    | none => simp [rename_of_none present]
    | some content => simp [lost_rename_of_some present]

end NumberedFiles

end Debswarm.File
