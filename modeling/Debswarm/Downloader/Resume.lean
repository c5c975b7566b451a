import Debswarm.Downloader.Assembly
import Debswarm.Transition.Run

/-!
# What a resumed attempt finds in the assembly file

A chunk is skipped when its row is completed and the assembly file has the expected
size.  The size says nothing about what is in the file: an attempt that finds no file
creates one full of holes and leaves the completed rows as they are.  If every attempt that
finds saved rows continues with their sizes, and finds the file in place as soon as a chunk is
completed, then every skipped chunk holds what an earlier attempt received for it.
-/

namespace Debswarm.Downloader

open File List Option Text Transition

/-- An attempt continues with the saved sizes; if a chunk is completed, it can read the rows and
finds the file with its size. -/
def ResumesInPlace (state : State) : Event → Prop
  | .beginAttempt faults _ expectedSize chunkSize =>
    ∀ row ∈ state.download, row.expectedSize = expectedSize ∧ row.chunkSize = chunkSize ∧
      ((∃ chunk ∈ row.chunks, chunk.status = .completed) →
        faults = .none ∧ ∃ file ∈ state.file, file.length = expectedSize)
  | _ => True

instance (state : State) (event : Event) : Decidable (ResumesInPlace state event) := by
  unfold ResumesInPlace
  split <;> infer_instance

/-! ## The steps of an attempt -/

variable {expectedSize chunkSize index : Nat} {state : State} {row : DownloadState}
  {attempt heard : Attempt} {file : Sparse UInt8} {data : Str}

theorem mem_completedFromDisk_iff {existing : Option DownloadState} {file : Option (Sparse UInt8)} :
    index ∈ completedFromDisk expectedSize chunkSize existing file ↔
      ∃ row ∈ existing, ∃ found ∈ file, row.chunkSize = chunkSize ∧ found.length = expectedSize ∧
        ∃ chunk ∈ row.chunks, chunk.status = .completed ∧
          chunk.index < numChunks expectedSize chunkSize ∧ chunk.index = index := by
  cases existing with
  | none => simp [completedFromDisk]
  | some row =>
    cases file with
    | none => simp [completedFromDisk]
    | some found =>
      by_cases trusted : row.chunkSize = chunkSize ∧ found.length = expectedSize
      · simp [completedFromDisk, trusted, and_assoc]
      · simp only [completedFromDisk, trusted, if_false, not_mem_nil, mem_def,
          some.injEq, false_iff]
        rintro ⟨_, rfl, _, rfl, sameChunkSize, sameSize, _⟩
        exact trusted ⟨sameChunkSize, sameSize⟩

/-- After the beginning of an attempt there are the saved rows, or new ones without progress. -/
theorem download_beginAttempt {faults : StartFaults} {url : Str}
    (mem : row ∈ (beginAttempt faults url expectedSize chunkSize state).download) :
    row ∈ state.download ∨
      row.expectedSize = expectedSize ∧ row.chunkSize = chunkSize ∧
        ∀ chunk ∈ row.chunks, chunk.status ≠ .completed := by
  cases saved : state.download with
  | some before =>
    have same : (beginAttempt faults url expectedSize chunkSize state).download = some before := by
      cases unread : faults.getDownload <;> cases uncreated : faults.createDownload <;>
        simp [beginAttempt, saved, unread, uncreated, createDownload]
    rw [same] at mem
    exact .inl mem
  | none =>
    simp only [beginAttempt, saved, ite_self, or_none] at mem
    split at mem
    · cases mem
    · cases mem
      refine .inr ⟨rfl, rfl, fun chunk chunkMem => ?_⟩
      obtain ⟨index, _, rfl⟩ := mem_map.mp chunkMem
      exact fun done => nomatch done

theorem sound_beginAttempt {faults : StartFaults} {url : Str} (sound : Sound state)
    (positive : 0 < chunkSize)
    (inPlace : ResumesInPlace state (.beginAttempt faults url expectedSize chunkSize)) :
    Sound (beginAttempt faults url expectedSize chunkSize state) := by
  have sameGrid : ∀ row ∈ (beginAttempt faults url expectedSize chunkSize state).download,
      row.expectedSize = expectedSize ∧ row.chunkSize = chunkSize := by
    intro row mem
    rcases download_beginAttempt mem with old | ⟨sizeEq, chunkSizeEq, _⟩
    · exact ⟨(inPlace row old).1, (inPlace row old).2.1⟩
    · exact ⟨sizeEq, chunkSizeEq⟩
  have wasDone : ∀ row ∈ (beginAttempt faults url expectedSize chunkSize state).download,
      ∀ chunk ∈ row.chunks, chunk.status = .completed → row ∈ state.download := by
    intro row mem chunk chunkMem done
    rcases download_beginAttempt mem with old | ⟨_, _, fresh⟩
    · exact old
    · exact absurd done (fresh chunk chunkMem)
  constructor
  · intro row mem chunk chunkMem done file fileMem length
    exact (sound.rows row (wasDone row mem chunk chunkMem done) chunk chunkMem done file
      fileMem length).later (Nat.le_succ _)
  · refine ⟨rfl, positive, fun index asked => ?_, fun _ row mem => sameGrid row mem, ?_, ?_⟩
    · exact mem_range.mp (mem_of_mem_filter asked)
    · intro row mem chunk chunkMem done
      have old := wasDone row mem chunk chunkMem done
      obtain ⟨_, chunkSizeEq, inFile⟩ := inPlace row old
      obtain ⟨rfl, file, fileMem, length⟩ := inFile ⟨chunk, chunkMem, done⟩
      refine ⟨sameGrid row mem, ⟨file, fileMem, length⟩, fun asked => ?_⟩
      obtain ⟨inRange, notSkipped⟩ := mem_filter.mp asked
      have skipped : chunk.index ∈
          completedFromDisk expectedSize chunkSize state.download state.file :=
        mem_completedFromDisk_iff.mpr ⟨row, old, file, fileMem, chunkSizeEq, length, chunk,
          chunkMem, done, mem_range.mp inRange, rfl⟩
      have saved : state.download = some row := old
      simp [StartFaults.none, saved] at notSkipped
      rw [saved] at skipped
      exact notSkipped skipped
    · intro index skipped
      refine ⟨fun asked => ?_, ?_⟩
      · exact of_decide_eq_true (mem_filter.mp asked).2 skipped
      · obtain ⟨_, listed⟩ := mem_ite_nil_right.mp skipped
        obtain ⟨row, rowMem, file, fileMem, chunkSizeEq, length, chunk, chunkMem, done, _, rfl⟩ :=
          mem_completedFromDisk_iff.mp listed
        have old : row ∈ state.download := by
          split at rowMem
          · cases rowMem
          · exact rowMem
        have sizeEq := (inPlace row old).1
        have held := sound.rows row old chunk chunkMem done file fileMem (length.trans sizeEq.symm)
        rw [sizeEq, chunkSizeEq] at held
        exact ⟨file, fileMem, length, held⟩

/-- Opening and sizing the file change nothing that the invariant speaks of. -/
theorem Sound.refile (sound : Sound state) (assembling : Assembling state attempt)
    (file : Option (Sparse UInt8)) (phase : Phase)
    (same : ∀ found ∈ state.file, found.length = attempt.expectedSize → file = some found)
    (phaseEq : phase = .allocating attempt ∧ file.isSome ∨
      phase = .collecting attempt ∧ ∃ found ∈ file, found.length = attempt.expectedSize) :
    Sound { state with file, phase } := by
  have resized : Sized state attempt → Sized { state with file, phase } attempt := by
    rintro ⟨found, foundMem, length⟩
    exact ⟨found, same found foundMem length, length⟩
  have refiled : Assembling { state with file, phase } attempt := by
    refine { assembling with completed := ?_, skipped := ?_ }
    · intro row mem chunk chunkMem done
      obtain ⟨sameGrid, sized, notAsked⟩ := assembling.completed row mem chunk chunkMem done
      exact ⟨sameGrid, resized sized, notAsked⟩
    · intro index skipped
      obtain ⟨notAsked, found, foundMem, length, held⟩ := assembling.skipped index skipped
      exact ⟨notAsked, found, same found foundMem length, length, held⟩
  constructor
  · intro row mem chunk chunkMem done left leftMem length
    obtain ⟨_, ⟨found, foundMem, foundLength⟩, _⟩ :=
      assembling.completed row mem chunk chunkMem done
    have leftEq : left = found :=
      some.inj ((mem_def.mp leftMem).symm.trans (same found foundMem foundLength))
    subst leftEq
    exact sound.rows row mem chunk chunkMem done left foundMem length
  · rcases phaseEq with ⟨rfl, opened⟩ | ⟨rfl, sized⟩
    · exact ⟨refiled, opened⟩
    · exact ⟨refiled, sized⟩

theorem sound_allocate (sound : Sound state)
    (inPhase : InPhase state (.allocating attempt)) (fails : Bool) :
    Sound (allocate fails attempt state) := by
  unfold allocate
  split
  · exact sound.stop rfl fun _ mem => mem
  · obtain ⟨file, fileEq⟩ := isSome_iff_exists.mp inPhase.2
    have refiled := sound.refile inPhase.1
      (state.file.map (Sparse.truncate attempt.expectedSize)) (.collecting attempt)
      (by
        intro found foundMem length
        rw [mem_def.mp foundMem, ← length]
        simp [Sparse.truncate])
      (.inr ⟨rfl, Sparse.truncate attempt.expectedSize file, by rw [fileEq]; rfl,
        Sparse.length_truncate _ _⟩)
    split
    · exact refiled.of_completesNothing (completesNothing_updateDownloadStatus _ _)
    · exact refiled

/-- Hearing of a chunk: the attempt waits for fewer chunks and is otherwise the same. -/
def Heard (attempt heard : Attempt) (index : Nat) : Prop :=
  ∃ received firstError, heard =
    { attempt with chunks := attempt.chunks.filter (· ≠ index), received, firstError }

theorem Heard.mem_chunks {other : Nat} (isHeard : Heard attempt heard index)
    (mem : other ∈ heard.chunks) : other ∈ attempt.chunks ∧ other ≠ index := by
  obtain ⟨received, firstError, rfl⟩ := isHeard
  simpa using mem

theorem Assembling.hear (assembling : Assembling state attempt)
    (isHeard : Heard attempt heard index) : Assembling state heard := by
  have fewer : ∀ {other}, other ∈ heard.chunks → other ∈ attempt.chunks :=
    fun mem => (isHeard.mem_chunks mem).1
  obtain ⟨received, firstError, rfl⟩ := isHeard
  refine { assembling with asked := ?_, completed := ?_, skipped := ?_ }
  · exact fun other mem => assembling.asked other (fewer mem)
  · intro row mem chunk chunkMem done
    obtain ⟨sameGrid, sized, notAsked⟩ := assembling.completed row mem chunk chunkMem done
    exact ⟨sameGrid, sized, fun asked => notAsked (fewer asked)⟩
  · intro other skipped
    obtain ⟨notAsked, held⟩ := assembling.skipped other skipped
    exact ⟨fun asked => notAsked (fewer asked), held⟩

theorem Assembling.rephase (assembling : Assembling state attempt) (phase : Phase) :
    Assembling { state with phase } attempt :=
  ⟨assembling.number, assembling.positive, assembling.asked, assembling.grid,
    assembling.completed, assembling.skipped⟩

theorem sound_chunkFailed (sound : Sound state) (inPhase : InPhase state (.collecting attempt))
    (index : Nat) (cause : Str) :
    Sound (chunkFailed index cause attempt state) := by
  have isHeard : ∀ message, Heard attempt
      (Attempt.fail { attempt with chunks := attempt.chunks.filter (· ≠ index) } message) index :=
    fun _ => ⟨_, _, rfl⟩
  exact ⟨sound.rows, (inPhase.1.hear (isHeard _)).rephase _, inPhase.2⟩

/-- A write into the range of a chunk that the attempt asked for. -/
structure Written (state : State) (attempt : Attempt) (index : Nat) (data : Str)
    (file : Sparse UInt8) : Prop where
  asked : index ∈ attempt.chunks
  fits : chunkStart attempt.chunkSize index + data.length ≤
    chunkStop attempt.expectedSize attempt.chunkSize index
  fileEq : state.file = some file
  length : file.length = attempt.expectedSize

theorem Written.inside (written : Written state attempt index data file) :
    chunkStart attempt.chunkSize index + data.length ≤ file.length :=
  written.length ▸ written.fits.trans (chunkStop_le _ _ _)

/-- A write that the attempt asked for leaves the skipped chunks alone. -/
theorem Assembling.write (assembling : Assembling state attempt)
    (written : Written state attempt index data file) (more : List Receipt) (phase : Phase) :
    Assembling
      { state with
        receipts := state.receipts ++ more
        file := some (file.writeAt (chunkStart attempt.chunkSize index) data)
        phase } attempt := by
  have length := (Sparse.length_writeAt written.inside).trans written.length
  refine { assembling with completed := ?_, skipped := ?_ }
  · intro row mem chunk chunkMem done
    obtain ⟨sameGrid, _, notAsked⟩ := assembling.completed row mem chunk chunkMem done
    exact ⟨sameGrid, ⟨_, rfl, length⟩, notAsked⟩
  · intro other skipped
    obtain ⟨notAsked, found, foundMem, _, held⟩ := assembling.skipped other skipped
    have foundEq : found = file :=
      some.inj ((mem_def.mp foundMem).symm.trans written.fileEq)
    subst foundEq
    refine ⟨notAsked, _, rfl, length, (held.writeAt ?_ written.length written.fits).append more⟩
    rintro rfl
    exact notAsked written.asked

/-- A chunk lands in the file, and the attempt waits for the next or records this one. -/
theorem Sound.write (sound : Sound state) (assembling : Assembling state attempt)
    (written : Written state attempt index data file) (more : List Receipt) (phase : Phase)
    (isHeard : Heard attempt heard index) (phaseCases : phase = .collecting heard ∨
      phase = .recording heard index ∧ heard.resumeEnabled = true ∧
        Held (state.receipts ++ more) (file.writeAt (chunkStart attempt.chunkSize index) data)
          heard.expectedSize heard.chunkSize index (state.attempts + 1)) :
    Sound
      { state with
        receipts := state.receipts ++ more
        file := some (file.writeAt (chunkStart attempt.chunkSize index) data)
        phase } := by
  have sized : (file.writeAt (chunkStart attempt.chunkSize index) data).length =
      heard.expectedSize := by
    rw [Sparse.length_writeAt written.inside, written.length]
    obtain ⟨received, firstError, rfl⟩ := isHeard
    rfl
  constructor
  · rintro row mem chunk chunkMem done _ ⟨⟩ _
    obtain ⟨⟨sizeEq, chunkSizeEq⟩, _, notAsked⟩ := assembling.completed row mem chunk chunkMem done
    have held := sound.rows row mem chunk chunkMem done file written.fileEq
      (written.length.trans sizeEq.symm)
    rw [sizeEq, chunkSizeEq] at held ⊢
    refine (held.writeAt ?_ written.length written.fits).append more
    rintro rfl
    exact notAsked written.asked
  · have heardAssembling := (assembling.write written more phase).hear isHeard
    rcases phaseCases with rfl | ⟨rfl, resume, held⟩
    · exact ⟨heardAssembling, _, rfl, sized⟩
    · exact ⟨heardAssembling, resume, fun asked => (isHeard.mem_chunks asked).2 rfl, _, rfl, sized,
        held⟩

theorem sound_chunkArrived (sound : Sound state) (inPhase : InPhase state (.collecting attempt))
    (asked : index ∈ attempt.chunks) (length : data.length =
      chunkStop attempt.expectedSize attempt.chunkSize index - chunkStart attempt.chunkSize index)
    (broken : Option (Nat × Str)) :
    Sound (chunkArrived index data broken attempt state) := by
  obtain ⟨assembling, file, fileEq, sized⟩ := inPhase
  have inOrder := chunkStart_le_chunkStop assembling.positive (assembling.asked index asked)
  unfold chunkArrived
  rw [mem_def.mp fileEq]
  cases broken with
  | some failure =>
    have written : Written state attempt index (data.take failure.1) file :=
      ⟨asked, by rw [length_take]; omega, fileEq, sized⟩
    exact sound.write assembling written _ _ ⟨_, _, rfl⟩ (.inl rfl)
  | none =>
    have written : Written state attempt index data file := ⟨asked, by omega, fileEq, sized⟩
    dsimp only
    split
    · rename_i resume
      refine sound.write assembling written _ _ ⟨_, _, rfl⟩ (.inr ⟨rfl, resume, ?_⟩)
      refine ⟨_, mem_append_right _ (mem_singleton_self _), ?_, rfl, rfl, ?_⟩
      · exact assembling.number ▸ Nat.lt_succ_self _
      · rw [← length]
        exact Sparse.readAt_writeAt_self _ _ _
    · exact sound.write assembling written _ _ ⟨_, _, rfl⟩ (.inl rfl)

theorem mem_updateChunk_completed {saved : Option DownloadState}
    (mem : row ∈ updateChunk index .completed saved) :
    ∃ before ∈ saved, row.expectedSize = before.expectedSize ∧ row.chunkSize = before.chunkSize ∧
      ∀ chunk ∈ row.chunks, chunk.status = .completed → chunk.index = index ∨
        ∃ earlier ∈ before.chunks, earlier.status = .completed ∧ earlier.index = chunk.index := by
  obtain ⟨before, beforeEq, rfl⟩ := map_eq_some_iff.mp mem
  refine ⟨before, beforeEq, rfl, rfl, fun chunk chunkMem done => ?_⟩
  obtain ⟨earlier, earlierMem, rfl⟩ := mem_map.mp chunkMem
  by_cases same : earlier.index = index
  · rw [if_pos same]
    exact .inl same
  · rw [if_neg same] at done ⊢
    exact .inr ⟨earlier, earlierMem, done, rfl⟩

theorem Assembling.sameGrid_updateChunk (assembling : Assembling state attempt)
    (resume : attempt.resumeEnabled = true)
    (mem : row ∈ updateChunk index .completed state.download) : SameGrid row attempt := by
  obtain ⟨before, beforeMem, sizeEq, chunkSizeEq, -⟩ := mem_updateChunk_completed mem
  obtain ⟨sameSize, sameChunkSize⟩ := assembling.grid resume before beforeMem
  exact ⟨sizeEq.trans sameSize, chunkSizeEq.trans sameChunkSize⟩

/-- A chunk that the attempt does not ask for any more is recorded as completed. -/
theorem Assembling.updateChunk (assembling : Assembling state attempt)
    (resume : attempt.resumeEnabled = true) (sized : Sized state attempt)
    (notAsked : index ∉ attempt.chunks) (phase : Phase) :
    Assembling
      { state with download := updateChunk index .completed state.download, phase } attempt := by
  refine { assembling with grid := ?_, completed := ?_, skipped := assembling.skipped }
  · exact fun _ row mem => assembling.sameGrid_updateChunk resume mem
  · intro row mem chunk chunkMem done
    refine ⟨assembling.sameGrid_updateChunk resume mem, sized, ?_⟩
    obtain ⟨before, beforeMem, -, -, completed⟩ := mem_updateChunk_completed mem
    rcases completed chunk chunkMem done with rfl | ⟨earlier, earlierMem, wasDone, indexEq⟩
    · exact notAsked
    · rw [← indexEq]
      exact (assembling.completed before beforeMem earlier earlierMem wasDone).2.2

theorem sound_recordChunk (sound : Sound state)
    (inPhase : InPhase state (.recording attempt index)) (fails : Bool) :
    Sound (recordChunk fails attempt index state) := by
  obtain ⟨assembling, resume, notAsked, file, fileMem, length, held⟩ := inPhase
  unfold recordChunk
  cases fails with
  | true => exact ⟨sound.rows, assembling.rephase _, file, fileMem, length⟩
  | false =>
    refine ⟨?_, assembling.updateChunk resume ⟨file, fileMem, length⟩ notAsked _, file, fileMem,
      length⟩
    intro row mem chunk chunkMem done found foundMem foundLength
    obtain ⟨before, beforeMem, sizeEq, chunkSizeEq, completed⟩ := mem_updateChunk_completed mem
    rcases completed chunk chunkMem done with rfl | ⟨earlier, earlierMem, wasDone, indexEq⟩
    · obtain ⟨sameSize, sameChunkSize⟩ := assembling.sameGrid_updateChunk resume mem
      have foundEq : found = file :=
        some.inj ((mem_def.mp foundMem).symm.trans fileMem)
      rw [sameSize, sameChunkSize, foundEq]
      exact held
    · rw [sizeEq] at foundLength
      rw [sizeEq, chunkSizeEq, ← indexEq]
      exact sound.rows before beforeMem earlier earlierMem wasDone found foundMem foundLength

theorem sound_finish (lib : Libraries) (expectedHash : Str) (sound : Sound state)
    (unreadable : Bool) (attempt : Attempt) :
    Sound (finish lib expectedHash unreadable attempt state) := by
  have failed : ∀ (message : Str) (phase : Phase), phase.assembling = none → Sound { state with
        download :=
          if attempt.resumeEnabled then failDownload message state.download else state.download
        phase } := by
    intro message phase stopped
    have ended : Sound { state with phase } := sound.stop stopped fun _ mem => mem
    split
    · refine ended.of_completesNothing fun row mem => ?_
      obtain ⟨before, beforeEq, rfl⟩ := map_eq_some_iff.mp mem
      exact ⟨before, beforeEq, rfl, rfl, fun chunk chunkMem done => ⟨chunk, chunkMem, done, rfl⟩⟩
    · exact ended
  unfold finish
  split
  · exact failed _ _ rfl
  · dsimp only
    split
    · exact sound.stop rfl fun _ mem => mem
    · split
      · exact failed _ _ rfl
      · split
        · have ended : Sound { state with phase := .deleting } :=
            sound.stop rfl fun _ mem => mem
          exact ended.of_completesNothing (completesNothing_updateDownloadStatus _ _)
        · exact sound.stop rfl fun _ mem => mem

/-! ## Runs -/

theorem Step.sound {lib : Libraries} {expectedHash : Str} {after : State} {event : Event}
    (step : Step lib expectedHash state event after) (sound : Sound state)
    (inPlace : ResumesInPlace state event) : Sound after := by
  cases step with
  | stays => exact sound
  | beginAttempt faults url expectedSize chunkSize idle positive =>
    exact sound_beginAttempt sound positive.2 inPlace
  | openAssembly fails attempt opening =>
    have assembling := sound.inPhase
    rw [opening] at assembling
    unfold Downloader.openAssembly
    split
    · exact sound.stop rfl fun _ mem => mem
    · refine sound.refile assembling _ _ (fun found foundMem _ => ?_) (.inl ⟨rfl, rfl⟩)
      rw [mem_def.mp foundMem]
      rfl
  | allocate fails attempt allocating =>
    exact sound_allocate sound (allocating ▸ sound.inPhase) fails
  | chunkFailed index cause attempt collecting asked =>
    exact sound_chunkFailed sound (collecting ▸ sound.inPhase) index cause
  | chunkArrived index data broken attempt collecting asked whole =>
    exact sound_chunkArrived sound (collecting ▸ sound.inPhase) asked whole broken
  | recordChunk fails attempt index recording =>
    exact sound_recordChunk sound (recording ▸ sound.inPhase) fails
  | finish unreadable attempt collecting =>
    exact sound_finish lib expectedHash sound unreadable attempt
  | removeFile fails cleaning =>
    refine sound.stop rfl fun left mem => ?_
    split at mem
    · exact mem
    · cases mem
  | deleteDownload fails deleting =>
    have ended : Sound { state with phase := .returned } := sound.stop rfl fun _ mem => mem
    refine ended.of_completesNothing ?_
    split
    · exact CompletesNothing.refl _
    · intro row mem
      cases mem
  | takeFile fails returned =>
    refine sound.stop rfl fun left mem => ?_
    split at mem
    · exact mem
    · cases mem
  | markForRetry => exact sound.of_completesNothing (completesNothing_markForRetry _)
  | crash => exact sound.stop rfl fun _ mem => mem

theorem sound_next (lib : Libraries) (expectedHash : Str) (state : State) (event : Event)
    (sound : Sound state) (inPlace : ResumesInPlace state event) :
    Sound (next lib expectedHash state event) :=
  (step_next lib expectedHash state event).sound sound inPlace

/-- While attempts resume in place, every skipped chunk holds what an earlier one received. -/
theorem skipsHeld_throughout (lib : Libraries) (expectedHash : Str) (events : List Event)
    (meets : StepsMeet (next lib expectedHash) ResumesInPlace State.new events) :
    ∀ before, before <+: events → SkipsHeld (run (next lib expectedHash) State.new before) := by
  intro before isPrefix
  have start : Sound State.new := ⟨nofun, trivial⟩
  have sound := run_invariant_of_stepsMeet Sound (sound_next lib expectedHash) start
    (meets.of_isPrefix isPrefix)
  intro attempt running index mem
  obtain ⟨_, file, fileEq, _, held⟩ := (sound.inPhase.assembling running).skipped index mem
  exact ⟨file, fileEq, held⟩

/-- The calls up to the first chunk of an attempt at two bytes in chunks of one. -/
def startTwoChunks : List Event :=
  [.beginAttempt .none (ofAscii "http://m/p.deb") 2 1, .openAssembly false, .allocate false]

/-- An attempt crashes after one of its two chunks, and the next skips that chunk. -/
theorem skipsHeld_after_crash :
    let events := startTwoChunks ++
      [.chunkArrived 0 [7] none, .recordChunk false, .crash] ++ startTwoChunks
    let state := run (next ⟨hexEncode64, id⟩ (hexEncode64 [7, 8])) State.new events
    state.phase.assembling.map (·.completedFromDisk) = some [0] ∧ SkipsHeld state :=
  ⟨by decide, skipsHeld_throughout _ _ _ (by decide) _ (prefix_refl _)⟩

/-- A corrupt first attempt, and a second one that breaks off after creating the file anew. -/
def recreateAfterMismatch : List Event :=
  startTwoChunks ++
    [.chunkArrived 0 [1] none, .recordChunk false, .chunkArrived 1 [2] none, .recordChunk false,
      .finish false, .removeFile false] ++
    startTwoChunks ++ [.chunkFailed 0 (ofAscii "timeout"), .finish false, .markForRetry]

/-- The third attempt skips both chunks, and the file has nothing but holes. -/
theorem not_skipsHeld_after_mismatch :
    ¬ SkipsHeld (run (next ⟨hexEncode64, id⟩ (hexEncode64 [7, 8])) State.new
      (recreateAfterMismatch ++ startTwoChunks)) := by
  generalize stateEq : run (next ⟨hexEncode64, id⟩ (hexEncode64 [7, 8])) State.new
    (recreateAfterMismatch ++ startTwoChunks) = state
  have running : ∃ attempt, state.phase.assembling = some attempt ∧
      attempt.completedFromDisk = [0, 1] := by
    subst stateEq
    exact ⟨_, rfl, by decide⟩
  have holes : state.file = some [none, none] := by
    subst stateEq
    decide
  have receipts : state.receipts = [⟨1, 0, 1, [1]⟩, ⟨1, 1, 2, [2]⟩] := by
    subst stateEq
    decide
  intro held
  obtain ⟨attempt, attemptEq, skipped⟩ := running
  obtain ⟨file, fileEq, receipt, mem, _, _, _, read⟩ := held attempt attemptEq 0 (by simp [skipped])
  cases holes.symm.trans fileEq
  rw [receipts] at mem
  rcases mem_pair.mp mem with rfl | rfl <;> cases read

end Debswarm.Downloader
