import Mathlib.Algebra.BigOperators.Group.List.Basic
import Mathlib.Algebra.Group.Basic
import Mathlib.Data.List.Basic
import Mathlib.Order.Lattice

/-!
# Sparse files and tilings

A file that can be sized before it is written.  A position that nothing was written
to is a hole; reading a hole gives the filler.  The rules say when one write can be
read back and which other ranges it leaves alone.
-/

namespace Debswarm.File

open List

universe u

variable {α : Type u}

/-- The positions of a file, with holes where nothing was written. -/
abbrev Sparse (α : Type u) :=
  List (Option α)

namespace Sparse

/-- Cut the file, or extend it with holes, to a given size. -/
def truncate (size : Nat) (file : Sparse α) : Sparse α :=
  file.take size ++ replicate (size - file.length) none

/-- Write data at an offset, extending the file if it ends before. -/
def writeAt (start : Nat) (data : List α) (file : Sparse α) : Sparse α :=
  truncate start file ++ data.map some ++ file.drop (start + data.length)

/-- The positions of a range. -/
def readAt (start length : Nat) (file : Sparse α) : Sparse α :=
  (file.drop start).take length

/-- What a reader sees. -/
def contents (filler : α) (file : Sparse α) : List α :=
  file.map fun position => position.getD filler

@[simp]
theorem length_truncate (size : Nat) (file : Sparse α) : (truncate size file).length = size := by
  simp only [truncate, length_append, length_take, length_replicate]
  omega

theorem length_writeAt {start : Nat} {data : List α} {file : Sparse α}
    (inside : start + data.length ≤ file.length) :
    (writeAt start data file).length = file.length := by
  simp only [writeAt, length_append, length_truncate, length_map, length_drop]
  omega

@[simp]
theorem readAt_writeAt_self (start : Nat) (data : List α) (file : Sparse α) :
    readAt start data.length (writeAt start data file) = data.map some := by
  have dropped : (truncate start file ++ data.map some ++ file.drop (start + data.length)).drop
      start = data.map some ++ file.drop (start + data.length) := by
    rw [append_assoc, drop_append_of_le_length (by simp), drop_of_length_le (by simp), nil_append]
  rw [readAt, writeAt, dropped, take_append_of_le_length (by simp), take_of_length_le]
  simp

/-- A write inside the file leaves the ranges before and behind it alone. -/
theorem readAt_writeAt_of_disjoint {start : Nat} {data : List α} {file : Sparse α}
    (inside : start + data.length ≤ file.length) {other length : Nat}
    (disjoint : other + length ≤ start ∨ start + data.length ≤ other) :
    readAt other length (writeAt start data file) = readAt other length file := by
  apply ext_getElem?
  intro offset
  simp only [readAt, getElem?_take, getElem?_drop, writeAt, truncate]
  split
  · rcases disjoint with before | behind
    · rw [append_assoc, append_assoc, getElem?_append_left]
      · rw [getElem?_take, if_pos (by omega)]
      · rw [length_take]
        omega
    · rw [getElem?_append_right]
      · rw [getElem?_drop]
        congr 1
        simp only [length_append, length_take, length_replicate, length_map]
        omega
      · simp only [length_append, length_take, length_replicate, length_map]
        omega
  · rfl

end Sparse

/-! ## Tilings -/

/-- The ranges lead from the first position to the last without gap or overlap. -/
def Tiles [LT α] : α → List (α × α) → α → Prop
  | first, [], last => first = last
  | first, range :: rest, last => range.1 = first ∧ range.1 < range.2 ∧ Tiles range.2 rest last

/-- Whether a range covers a position. -/
def covers [LinearOrder α] (position : α) (range : α × α) : Bool :=
  decide (range.1 ≤ position) && decide (position < range.2)

theorem tiles_map_range [LT α] {bound : Nat → α} {count : Nat}
    (rises : ∀ index < count, bound index < bound (index + 1)) :
    Tiles (bound 0) ((range count).map fun index => (bound index, bound (index + 1)))
      (bound count) := by
  induction count generalizing bound with
  | zero => rfl
  | succ count ih =>
    rw [range_succ_eq_map, map_cons, map_map]
    exact ⟨rfl, rises 0 (Nat.succ_pos count),
      @ih (fun index => bound (index + 1)) fun index isIndex => rises (index + 1) (by omega)⟩

section Order

variable [LinearOrder α] {first last : α} {ranges : List (α × α)}

theorem covers_iff {position : α} {range : α × α} :
    covers position range = true ↔ range.1 ≤ position ∧ position < range.2 := by
  rw [covers, Bool.and_eq_true, decide_eq_true_iff, decide_eq_true_iff]

section

variable (tiles : Tiles first ranges last)

include tiles

theorem Tiles.le : first ≤ last := by
  induction ranges generalizing first with
  | nil => exact Eq.le tiles
  | cons range rest ih =>
    obtain ⟨rfl, rises, further⟩ := tiles
    exact rises.le.trans (ih further)

theorem Tiles.bounds {range : α × α} (mem : range ∈ ranges) :
    first ≤ range.1 ∧ range.1 < range.2 ∧ range.2 ≤ last := by
  induction ranges generalizing first with
  | nil => cases mem
  | cons head rest ih =>
    obtain ⟨rfl, rises, further⟩ := tiles
    rcases mem_cons.mp mem with rfl | later
    · exact ⟨le_rfl, rises, further.le⟩
    · obtain ⟨start, rest⟩ := ih further later
      exact ⟨rises.le.trans start, rest⟩

/-- No range covers a position before the first. -/
theorem Tiles.countP_covers_eq_zero {position : α}
    (before : position < first) : ranges.countP (covers position) = 0 := by
  induction ranges generalizing first with
  | nil => rfl
  | cons range rest ih =>
    obtain ⟨rfl, rises, further⟩ := tiles
    have notCovered : covers position range = false := by simp [covers, before.not_ge]
    rw [countP_cons_of_neg (by simp [notCovered])]
    exact ih further (before.trans rises)

/-- Exactly one range covers a position in between. -/
theorem Tiles.countP_covers {position : α}
    (notBefore : first ≤ position) (notAfter : position < last) :
    ranges.countP (covers position) = 1 := by
  induction ranges generalizing first with
  | nil =>
    cases tiles
    exact absurd notAfter notBefore.not_gt
  | cons range rest ih =>
    obtain ⟨rfl, rises, further⟩ := tiles
    rcases lt_or_ge position range.2 with inside | beyond
    · have covered : covers position range = true := by simp [covers, notBefore, inside]
      rw [countP_cons_of_pos covered, further.countP_covers_eq_zero inside]
    · have notCovered : covers position range = false := by simp [covers, beyond]
      rw [countP_cons_of_neg (by simp [notCovered])]
      exact ih further beyond

end

end Order

/-- The lengths add up to the distance. -/
theorem Tiles.sum_lengths [LT α] [AddCommGroup α] {first last : α} {ranges : List (α × α)}
    (tiles : Tiles first ranges last) :
    (ranges.map fun range => range.2 - range.1).sum = last - first := by
  induction ranges generalizing first with
  | nil =>
    cases tiles
    simp
  | cons range rest ih =>
    obtain ⟨rfl, rises, further⟩ := tiles
    rw [map_cons, sum_cons, ih further, add_comm, sub_add_sub_cancel]

end Debswarm.File
