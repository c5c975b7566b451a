import Debswarm.Downloader.Core
import Mathlib.Data.Int.DivMod

/-!
# Chunks in the arithmetic of the machine

Sizes and offsets are signed integers of 64 bits, and so is the number of chunks.  As long as
the size of the file and that of a chunk fit together into such an integer, the chunks are
those of unbounded arithmetic.  Beyond that, the sum that rounds the division up wraps around,
and there are no chunks at all.
-/

namespace Debswarm.Downloader

open File List

/-- How many chunks a file has. -/
def totalChunks (size chunkSize : Int64) : Int64 :=
  (size + chunkSize - 1) / chunkSize

/-- Where a chunk starts and stops. -/
def chunkRange (size chunkSize : Int64) (index : Nat) : Int64 × Int64 :=
  let start := Int64.ofNat index * chunkSize
  let stop := start + chunkSize
  (start, if stop > size then size else stop)

/-- The loop over the chunks of a file. -/
def chunkIndices (size chunkSize : Int64) : List Nat :=
  range (totalChunks size chunkSize).toInt.toNat

/-- The sum that rounds up does not wrap around. -/
def Fits (size chunkSize : Int64) : Prop :=
  size.toInt + chunkSize.toInt - 1 < 2 ^ 63

instance decidableFits (size chunkSize : Int64) : Decidable (Fits size chunkSize) :=
  inferInstanceAs (Decidable (_ < _))

variable {size chunkSize : Int64}

/-! ## The number of chunks -/

theorem toInt_totalChunks (positive : 0 < chunkSize.toInt) :
    (totalChunks size chunkSize).toInt =
      ((size.toInt + chunkSize.toInt - 1).bmod (2 ^ 64)).tdiv chunkSize.toInt := by
  have notMinusOne : chunkSize ≠ -1 := by
    rintro rfl
    cases positive
  rw [totalChunks, Int64.toInt_div_of_ne_right _ _ notMinusOne, Int64.toInt_sub,
    Int64.toInt_add, Int64.toInt_one, Int.bmod_sub_bmod]

theorem totalChunks_of_fits (sizePositive : 0 < size.toInt) (positive : 0 < chunkSize.toInt)
    (fits : Fits size chunkSize) :
    (totalChunks size chunkSize).toInt = numChunks size.toInt.toNat chunkSize.toInt.toNat := by
  unfold Fits at fits
  rw [toInt_totalChunks positive, Int.bmod_eq_of_le (by omega) (by omega),
    Int.tdiv_eq_ediv_of_nonneg (by omega), numChunks]
  have sum : ((size.toInt.toNat + chunkSize.toInt.toNat - 1 : Nat) : Int) =
      size.toInt + chunkSize.toInt - 1 := by omega
  rw [Int.natCast_ediv, sum, Int.toNat_of_nonneg (by omega)]

theorem totalChunks_of_not_fits (positive : 0 < chunkSize.toInt) (wraps : ¬ Fits size chunkSize) :
    (totalChunks size chunkSize).toInt ≤ 0 := by
  unfold Fits at wraps
  have sizeBound := size.toInt_lt
  have chunkBound := chunkSize.toInt_lt
  have negative : (size.toInt + chunkSize.toInt - 1).bmod (2 ^ 64) =
      size.toInt + chunkSize.toInt - 1 - 2 ^ 64 := by
    rw [← Int.sub_bmod_right]
    exact Int.bmod_eq_of_le (by omega) (by omega)
  have shortfall : 0 ≤ -(size.toInt + chunkSize.toInt - 1 - 2 ^ 64) := by omega
  have quotient := Int.tdiv_nonneg shortfall positive.le
  rw [Int.neg_tdiv] at quotient
  rw [toInt_totalChunks positive, negative]
  omega

/-! ## The ranges of the chunks -/

theorem chunkStart_lt {expectedSize gridSize index : Nat} (positive : 0 < gridSize)
    (isChunk : index < numChunks expectedSize gridSize) :
    chunkStart gridSize index < expectedSize := by
  have le : (index + 1) * gridSize ≤ expectedSize + gridSize - 1 :=
    (Nat.le_div_iff_mul_le positive).mp isChunk
  rw [Nat.add_mul] at le
  rw [chunkStart]
  omega

theorem chunkRange_of_fits (sizePositive : 0 < size.toInt) (positive : 0 < chunkSize.toInt)
    (fits : Fits size chunkSize) {index : Nat}
    (isChunk : index < numChunks size.toInt.toNat chunkSize.toInt.toNat) :
    (chunkRange size chunkSize index).1.toInt = chunkStart chunkSize.toInt.toNat index ∧
      (chunkRange size chunkSize index).2.toInt =
        chunkStop size.toInt.toNat chunkSize.toInt.toNat index := by
  unfold Fits at fits
  have startsInside := chunkStart_lt (by omega) isChunk
  have sizeBound := size.toInt_lt
  have indexBound : index < 2 ^ 63 := by
    have le : index ≤ chunkStart chunkSize.toInt.toNat index :=
      Nat.le_mul_of_pos_right index (by omega)
    omega
  have product : (index : Int) * chunkSize.toInt = chunkStart chunkSize.toInt.toNat index := by
    rw [chunkStart, Int.natCast_mul, Int.toNat_of_nonneg (by omega)]
  have start : (chunkRange size chunkSize index).1.toInt =
      chunkStart chunkSize.toInt.toNat index := by
    rw [chunkRange, Int64.toInt_mul, Int64.toInt_ofNat_of_lt indexBound, product]
    exact Int.bmod_eq_of_le (by omega) (by omega)
  have stop : (Int64.ofNat index * chunkSize + chunkSize).toInt =
      chunkStart chunkSize.toInt.toNat index + chunkSize.toInt := by
    rw [Int64.toInt_add]
    change ((chunkRange size chunkSize index).1.toInt + chunkSize.toInt).bmod (2 ^ 64) = _
    rw [start]
    exact Int.bmod_eq_of_le (by omega) (by omega)
  refine ⟨start, ?_⟩
  simp only [chunkRange, chunkStop, gt_iff_lt, Int64.lt_iff_toInt_lt, stop]
  split
  · omega
  · rw [stop]
    omega

/-! ## The chunks as a tiling -/

theorem le_numChunks_mul {expectedSize gridSize : Nat} (positive : 0 < gridSize) :
    expectedSize ≤ numChunks expectedSize gridSize * gridSize := by
  have division := Nat.div_add_mod (expectedSize + gridSize - 1) gridSize
  have remainder := Nat.mod_lt (expectedSize + gridSize - 1) positive
  rw [Nat.mul_comm] at division
  rw [numChunks]
  omega

/-- The range of a chunk without the machine. -/
def chunkSpan (size chunkSize : Int64) (index : Nat) : Int × Int :=
  ((chunkRange size chunkSize index).1.toInt, (chunkRange size chunkSize index).2.toInt)

theorem tiles_of_fits (sizePositive : 0 < size.toInt) (positive : 0 < chunkSize.toInt)
    (fits : Fits size chunkSize) :
    Tiles 0 ((chunkIndices size chunkSize).map (chunkSpan size chunkSize)) size.toInt := by
  let bound (index : Nat) : Int :=
    (min (chunkStart chunkSize.toInt.toNat index) size.toInt.toNat : Nat)
  have next (index : Nat) : chunkStart chunkSize.toInt.toNat (index + 1) =
      chunkStart chunkSize.toInt.toNat index + chunkSize.toInt.toNat := Nat.succ_mul _ _
  have spans : (chunkIndices size chunkSize).map (chunkSpan size chunkSize) =
      (range (numChunks size.toInt.toNat chunkSize.toInt.toNat)).map fun index =>
        (bound index, bound (index + 1)) := by
    rw [chunkIndices, totalChunks_of_fits sizePositive positive fits, Int.toNat_natCast]
    refine map_congr_left fun index mem => ?_
    have isChunk := mem_range.mp mem
    have inside := chunkStart_lt (by omega) isChunk
    obtain ⟨start, stop⟩ := chunkRange_of_fits sizePositive positive fits isChunk
    rw [chunkSpan, start, stop]
    simp only [bound, chunkStop, next]
    rw [Nat.min_eq_left inside.le]
  have rises (index : Nat) (isChunk : index < numChunks size.toInt.toNat chunkSize.toInt.toNat) :
      bound index < bound (index + 1) := by
    have inside := chunkStart_lt (by omega) isChunk
    simp only [bound, next]
    omega
  have last : bound (numChunks size.toInt.toNat chunkSize.toInt.toNat) = size.toInt := by
    have reaches : size.toInt.toNat ≤ chunkStart chunkSize.toInt.toNat
        (numChunks size.toInt.toNat chunkSize.toInt.toNat) := le_numChunks_mul (by omega)
    simp only [bound]
    omega
  have first : bound 0 = 0 := by simp [bound, chunkStart]
  have tiles := tiles_map_range rises
  rwa [← spans, first, last] at tiles

theorem not_tiles_of_not_fits (sizePositive : 0 < size.toInt) (positive : 0 < chunkSize.toInt)
    (wraps : ¬ Fits size chunkSize) :
    ¬ Tiles 0 ((chunkIndices size chunkSize).map (chunkSpan size chunkSize)) size.toInt := by
  have none : chunkIndices size chunkSize = [] := by
    rw [chunkIndices, Int.toNat_of_nonpos (totalChunks_of_not_fits positive wraps)]
    rfl
  rw [none]
  exact sizePositive.ne

end Debswarm.Downloader
