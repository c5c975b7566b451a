import Debswarm.Downloader.Chunking

/-!
# Chunks that are held in the assembly file

The invariant behind resumption: a chunk whose row is completed is in the assembly file, as
long as the file has its size, and the running attempt neither asks for it again nor loses
it by writing another chunk.
-/

namespace Debswarm.Downloader

open File Option Text

/-- The attempt that is assembling the file. -/
def Phase.assembling : Phase → Option Attempt
  | .opening attempt => some attempt
  | .allocating attempt => some attempt
  | .collecting attempt => some attempt
  | .recording attempt _ => some attempt
  | _ => none

/-- A file holds, in the range of a chunk, what an attempt before `bound` received for it. -/
def Held (receipts : List Receipt) (file : Sparse UInt8)
    (expectedSize chunkSize index bound : Nat) : Prop :=
  ∃ receipt ∈ receipts, receipt.attempt < bound ∧
    receipt.start = chunkStart chunkSize index ∧
    receipt.stop = chunkStop expectedSize chunkSize index ∧
    file.readAt receipt.start (receipt.stop - receipt.start) = receipt.data.map some

/-- Every chunk that the running attempt skips is in the file as an earlier one received it. -/
def SkipsHeld (state : State) : Prop :=
  ∀ attempt, state.phase.assembling = some attempt → ∀ index ∈ attempt.completedFromDisk,
    ∃ file, state.file = some file ∧
      Held state.receipts file attempt.expectedSize attempt.chunkSize index attempt.number

/-! ## Chunks of a file -/

variable {expectedSize chunkSize index bound : Nat} {receipts : List Receipt} {file : Sparse UInt8}
  {state : State}

theorem chunkStart_le_chunkStop (positive : 0 < chunkSize)
    (lt : index < numChunks expectedSize chunkSize) :
    chunkStart chunkSize index ≤ chunkStop expectedSize chunkSize index := by
  have inside := chunkStart_lt positive lt
  simp only [chunkStop]
  omega

theorem chunkStop_le (expectedSize chunkSize index : Nat) :
    chunkStop expectedSize chunkSize index ≤ expectedSize :=
  Nat.min_le_right _ _

theorem chunks_disjoint (expectedSize chunkSize : Nat) {other : Nat} (different : other ≠ index) :
    chunkStart chunkSize other +
        (chunkStop expectedSize chunkSize other - chunkStart chunkSize other) ≤
          chunkStart chunkSize index ∨
      chunkStop expectedSize chunkSize index ≤ chunkStart chunkSize other := by
  have apart : ∀ {first second : Nat}, first < second →
      chunkStart chunkSize first + chunkSize ≤ chunkStart chunkSize second := by
    intro first second lt
    have le := Nat.mul_le_mul_right chunkSize (Nat.succ_le_of_lt lt)
    rwa [Nat.succ_mul] at le
  rcases Nat.lt_or_gt_of_ne different with before | behind
  · have gap := apart before
    simp only [chunkStop]
    omega
  · have gap := apart behind
    simp only [chunkStop]
    omega

theorem Held.later {later : Nat} (held : Held receipts file expectedSize chunkSize index bound)
    (le : bound ≤ later) : Held receipts file expectedSize chunkSize index later := by
  obtain ⟨receipt, mem, earlier, rest⟩ := held
  exact ⟨receipt, mem, earlier.trans_le le, rest⟩

theorem Held.append (held : Held receipts file expectedSize chunkSize index bound)
    (more : List Receipt) : Held (receipts ++ more) file expectedSize chunkSize index bound := by
  obtain ⟨receipt, mem, rest⟩ := held
  exact ⟨receipt, List.mem_append_left more mem, rest⟩

theorem Held.writeAt {other : Nat} (held : Held receipts file expectedSize chunkSize other bound)
    (different : other ≠ index) {data : Str} (length : file.length = expectedSize)
    (fits : chunkStart chunkSize index + data.length ≤ chunkStop expectedSize chunkSize index) :
    Held receipts (file.writeAt (chunkStart chunkSize index) data) expectedSize chunkSize other
      bound := by
  obtain ⟨receipt, mem, earlier, startEq, stopEq, read⟩ := held
  refine ⟨receipt, mem, earlier, startEq, stopEq, ?_⟩
  have inside : chunkStart chunkSize index + data.length ≤ file.length :=
    length ▸ fits.trans (chunkStop_le expectedSize chunkSize index)
  rw [Sparse.readAt_writeAt_of_disjoint inside, read]
  rw [startEq, stopEq]
  rcases chunks_disjoint expectedSize chunkSize different with before | behind
  · exact .inl before
  · exact .inr (fits.trans behind)

/-! ## The invariant -/

/-- The sizes that a row was saved with are those of an attempt. -/
def SameGrid (row : DownloadState) (attempt : Attempt) : Prop :=
  row.expectedSize = attempt.expectedSize ∧ row.chunkSize = attempt.chunkSize

/-- The assembly file is there with the size that an attempt expects. -/
def Sized (state : State) (attempt : Attempt) : Prop :=
  ∃ file ∈ state.file, file.length = attempt.expectedSize

/-- While an attempt assembles the file, it writes into no completed or skipped chunk. -/
structure Assembling (state : State) (attempt : Attempt) : Prop where
  number : attempt.number = state.attempts
  positive : 0 < attempt.chunkSize
  asked : ∀ index ∈ attempt.chunks, index < numChunks attempt.expectedSize attempt.chunkSize
  grid : attempt.resumeEnabled = true → ∀ row ∈ state.download, SameGrid row attempt
  completed : ∀ row ∈ state.download, ∀ chunk ∈ row.chunks, chunk.status = .completed →
    SameGrid row attempt ∧ Sized state attempt ∧ chunk.index ∉ attempt.chunks
  skipped : ∀ index ∈ attempt.completedFromDisk, index ∉ attempt.chunks ∧
    ∃ file ∈ state.file, file.length = attempt.expectedSize ∧
      Held state.receipts file attempt.expectedSize attempt.chunkSize index attempt.number

/-- In a phase, the file is there once opened, has its size once allocated, and holds the chunk
about to be recorded. -/
def InPhase (state : State) : Phase → Prop
  | .opening attempt => Assembling state attempt
  | .allocating attempt => Assembling state attempt ∧ state.file.isSome
  | .collecting attempt => Assembling state attempt ∧ Sized state attempt
  | .recording attempt index =>
    Assembling state attempt ∧ attempt.resumeEnabled = true ∧ index ∉ attempt.chunks ∧
      ∃ file ∈ state.file, file.length = attempt.expectedSize ∧
        Held state.receipts file attempt.expectedSize attempt.chunkSize index (state.attempts + 1)
  | _ => True

/-- What holds between any two steps. -/
structure Sound (state : State) : Prop where
  rows : ∀ row ∈ state.download, ∀ chunk ∈ row.chunks, chunk.status = .completed →
    ∀ file ∈ state.file, file.length = row.expectedSize →
      Held state.receipts file row.expectedSize row.chunkSize chunk.index (state.attempts + 1)
  inPhase : InPhase state state.phase

theorem InPhase.assembling {phase : Phase} {attempt : Attempt} (inPhase : InPhase state phase)
    (running : phase.assembling = some attempt) : Assembling state attempt := by
  cases phase with
  | opening _ =>
    cases running
    exact inPhase
  | allocating _ | collecting _ | recording _ _ =>
    cases running
    exact inPhase.1
  | _ => cases running

/-- A change of the rows keeps what holds in the phase, if it keeps what holds of the attempt. -/
theorem InPhase.redownload {download : Option DownloadState} {phase : Phase}
    (inPhase : InPhase state phase) (assembling : ∀ attempt, Assembling state attempt →
      Assembling { state with download } attempt) :
    InPhase { state with download } phase := by
  cases phase with
  | opening attempt => exact assembling attempt inPhase
  | allocating _ | collecting _ | recording _ _ => exact ⟨assembling _ inPhase.1, inPhase.2⟩
  | _ => trivial

/-! ## Changes that complete no chunk -/

/-- Every chunk completed in the new rows was completed in the old ones, for the same
sizes. -/
def CompletesNothing (old new : Option DownloadState) : Prop :=
  ∀ row ∈ new, ∃ before ∈ old,
    row.expectedSize = before.expectedSize ∧ row.chunkSize = before.chunkSize ∧
      ∀ chunk ∈ row.chunks, chunk.status = .completed →
        ∃ earlier ∈ before.chunks, earlier.status = .completed ∧ earlier.index = chunk.index

theorem CompletesNothing.refl (saved : Option DownloadState) : CompletesNothing saved saved :=
  fun row mem => ⟨row, mem, rfl, rfl, fun chunk chunkMem done => ⟨chunk, chunkMem, done, rfl⟩⟩

theorem completesNothing_updateDownloadStatus (status : Status) (saved : Option DownloadState) :
    CompletesNothing saved (updateDownloadStatus status saved) := by
  intro row mem
  obtain ⟨before, beforeEq, rfl⟩ := map_eq_some_iff.mp mem
  exact ⟨before, beforeEq, rfl, rfl, fun chunk chunkMem done => ⟨chunk, chunkMem, done, rfl⟩⟩

/-- Marking a download for retry leaves the completed chunks as they are. -/
theorem completesNothing_markForRetry (saved : Option DownloadState) :
    CompletesNothing saved (markForRetry saved) := by
  intro row mem
  obtain ⟨before, beforeEq, rfl⟩ := map_eq_some_iff.mp mem
  by_cases failed : before.status = .failed
  · rw [if_pos failed]
    refine ⟨before, beforeEq, rfl, rfl, fun chunk chunkMem done => ?_⟩
    obtain ⟨earlier, earlierMem, rfl⟩ := List.mem_map.mp chunkMem
    by_cases wasDone : earlier.status = .completed
    · rw [if_pos wasDone]
      exact ⟨earlier, earlierMem, wasDone, rfl⟩
    · rw [if_neg wasDone] at done
      cases done
  · rw [if_neg failed]
    exact CompletesNothing.refl saved before beforeEq

/-- The invariant survives any change of the rows that completes nothing. -/
theorem Sound.of_completesNothing (sound : Sound state) {download : Option DownloadState}
    (nothing : CompletesNothing state.download download) : Sound { state with download } := by
  refine ⟨fun row mem chunk chunkMem done file fileEq length => ?_,
    sound.inPhase.redownload fun attempt assembling => ?_⟩
  · obtain ⟨before, beforeMem, sizeEq, chunkSizeEq, completed⟩ := nothing row mem
    obtain ⟨earlier, earlierMem, wasDone, indexEq⟩ := completed chunk chunkMem done
    rw [sizeEq] at length
    rw [sizeEq, chunkSizeEq, ← indexEq]
    exact sound.rows before beforeMem earlier earlierMem wasDone file fileEq length
  · refine { assembling with grid := ?_, completed := ?_, skipped := assembling.skipped }
    · intro resume row mem
      obtain ⟨before, beforeMem, sizeEq, chunkSizeEq, _⟩ := nothing row mem
      obtain ⟨sameSize, sameChunkSize⟩ := assembling.grid resume before beforeMem
      exact ⟨sizeEq.trans sameSize, chunkSizeEq.trans sameChunkSize⟩
    · intro row mem chunk chunkMem done
      obtain ⟨before, beforeMem, sizeEq, chunkSizeEq, completed⟩ := nothing row mem
      obtain ⟨earlier, earlierMem, wasDone, indexEq⟩ := completed chunk chunkMem done
      obtain ⟨⟨sameSize, sameChunkSize⟩, sized, notAsked⟩ :=
        assembling.completed before beforeMem earlier earlierMem wasDone
      exact ⟨⟨sizeEq.trans sameSize, chunkSizeEq.trans sameChunkSize⟩, sized, indexEq ▸ notAsked⟩

/-- The invariant survives the end of an attempt, with the file kept or removed. -/
theorem Sound.stop (sound : Sound state) {phase : Phase} (stopped : phase.assembling = none)
    {file : Option (Sparse UInt8)} (kept : ∀ left ∈ file, left ∈ state.file) :
    Sound { state with file, phase } where
  rows row mem chunk chunkMem done left leftMem :=
    sound.rows row mem chunk chunkMem done left (kept left leftMem)
  inPhase := by
    cases phase <;> trivial

end Debswarm.Downloader
