import Debswarm.Downloader.Cleanup

/-!
# Downloads that keep their directory

A download returns the path of its assembly file.  Where the cleaner removes no directory while
the download has its assembly file open and has not yet returned it, the file is at that path and
has the expected hash.
-/

namespace Debswarm.Downloader.Cleanup

open File Option Text Transition

variable {lib : Libraries} {expectedHash : Str} {state : State}

/-- The attempt has opened the assembly file and may still return it. -/
def holdsFile : Phase → Bool
  | .allocating _ => true
  | .collecting _ => true
  | .recording _ _ => true
  | .deleting => true
  | _ => false

/-- The cleaner removes nothing while the download holds its assembly file. -/
def SparesOpenFile (state : State) : Event → Prop
  | .removeAll removal _ =>
    state.cleaner = .doomed → removal ≠ .nothing → holdsFile state.attempt.phase = false
  | _ => True

instance (state : State) (event : Event) : Decidable (SparesOpenFile state event) := by
  cases event <;> unfold SparesOpenFile <;> infer_instance

/-- The download returns its file in this step. -/
def Returns (lib : Libraries) (expectedHash : Str) (state : State) (event : Event) : Prop :=
  state.attempt.phase ≠ .returned ∧
    (next lib expectedHash state event).attempt.phase = .returned

/-- The returned path leads to a file with the expected hash. -/
def HasReturned (lib : Libraries) (expectedHash : Str) (state : State) : Prop :=
  ∃ file, fileAtPath state = some file ∧ lib.sha256 (file.contents 0) = expectedHash

/-! ## Downloads that are left alone -/

/-- With its file at its path, a download goes on as without the cleaner. -/
theorem downloadStep_of_linked (linked : state.linked = true) (event : Downloader.Event)
    (now : Int) (left : Option Int) :
    (downloadStep lib expectedHash event now left state).attempt =
        Downloader.next lib expectedHash state.attempt (needsDirectory state.directory event) ∧
      (downloadStep lib expectedHash event now left state).linked = true := by
  unfold downloadStep settle
  rw [if_neg fun unlinked => Bool.false_ne_true (unlinked.2.symm.trans linked)]
  exact ⟨rfl, linked⟩

/-! ## What a step of the download does to the file -/

/-- An attempt that holds its file has one. -/
def FileIsThere (attempt : Downloader.State) : Prop :=
  holdsFile attempt.phase = true → attempt.file.isSome

/-- The step leaves the attempt with a file that it holds or has just returned. -/
def EndsWithFile (before after : Downloader.State) : Prop :=
  holdsFile after.phase = true ∨ (after.phase = .returned ∧ before.phase ≠ .returned)

/-- The file is there, and was held before the step or has just been opened. -/
def KeepsFile (before after : Downloader.State) : Prop :=
  after.file.isSome ∧ (holdsFile before.phase = true ∨ opened before.phase = false)

variable {attempt after : Downloader.State}

theorem not_endsWithFile_of_idle {before : Downloader.State} (idle : after.phase = .idle) :
    ¬ EndsWithFile before after := by
  rw [EndsWithFile, idle]
  rintro (holds | ⟨returned, -⟩) <;> contradiction

theorem file_finish (unreadable : Bool) (attempt : Attempt) (before : Downloader.State) :
    (finish lib expectedHash unreadable attempt before).file = before.file := by
  unfold finish
  dsimp only
  repeat' split
  all_goals rfl

/-- A file that is held or returned after a step was held before it, or has just been
opened. -/
theorem keepsFile_of_step {event : Downloader.Event} {before : Downloader.State}
    (step : Downloader.Step lib expectedHash before event after) (isThere : FileIsThere before)
    (ends : EndsWithFile before after) : KeepsFile before after := by
  -- a phase that holds the file has it, and the step leaves it or changes its bytes
  have held {phase : Downloader.Phase} (inPhase : before.phase = phase)
      (holds : holdsFile phase = true) (sameFile : after.file.isSome = before.file.isSome) :
      KeepsFile before after := by
    rw [← inPhase] at holds
    exact ⟨sameFile.trans (isThere holds), .inl holds⟩
  cases step with
  | stays =>
    rcases ends with holds | ⟨returned, notReturned⟩
    · exact ⟨isThere holds, .inl holds⟩
    · exact absurd returned notReturned
  | beginAttempt faults url expectedSize chunkSize idle positive =>
    rcases ends with holds | ⟨returned, -⟩
    · cases holds
    · cases returned
  | openAssembly fails attempt opening =>
    cases fails with
    | true => exact absurd ends (not_endsWithFile_of_idle rfl)
    | false =>
      refine ⟨rfl, .inr ?_⟩
      rw [opening]
      rfl
  | allocate fails attempt allocating =>
    cases fails with
    | true => exact absurd ends (not_endsWithFile_of_idle rfl)
    | false => exact held allocating rfl isSome_map
  | chunkFailed index cause attempt collecting asked => exact held collecting rfl rfl
  | chunkArrived index data broken attempt collecting asked whole =>
    cases broken <;> exact held collecting rfl isSome_map
  | recordChunk fails attempt index recording => exact held recording rfl rfl
  | finish unreadable attempt collecting =>
    exact held collecting rfl (congrArg isSome (file_finish unreadable attempt before))
  | removeFile fails cleaning => exact absurd ends (not_endsWithFile_of_idle rfl)
  | deleteDownload fails deleting => exact held deleting rfl rfl
  | takeFile fails returned => exact absurd ends (not_endsWithFile_of_idle rfl)
  | markForRetry =>
    rcases ends with holds | ⟨returned, notReturned⟩
    · exact ⟨isThere holds, .inl holds⟩
    · exact absurd returned notReturned
  | crash => exact absurd ends (not_endsWithFile_of_idle rfl)

theorem keepsFile_next (event : Downloader.Event) {attempt : Downloader.State}
    (isThere : FileIsThere attempt)
    (ends : EndsWithFile attempt (Downloader.next lib expectedHash attempt event)) :
    KeepsFile attempt (Downloader.next lib expectedHash attempt event) :=
  keepsFile_of_step (step_next lib expectedHash attempt event) isThere ends

/-! ## The invariant -/

/-- A file that is held or not open is at its path, and a returned one has the expected hash. -/
structure Kept (lib : Libraries) (expectedHash : Str) (state : State) : Prop where
  isThere : FileIsThere state.attempt
  compared : Compared lib expectedHash state.attempt
  held : holdsFile state.attempt.phase = true → state.linked = true
  closed : opened state.attempt.phase = false → state.linked = true

theorem opened_of_holdsFile {phase : Phase} (holds : holdsFile phase = true) :
    opened phase = true := by
  cases phase with
  | idle | opening attempt => cases holds
  | _ => rfl

theorem compared_of_closed (closed : opened attempt.phase = false) :
    Compared lib expectedHash attempt := by
  rintro (ended | ended)
  all_goals
    rw [ended] at closed
    cases closed

theorem fileIsThere_of_not_held (notHeld : holdsFile attempt.phase = false) :
    FileIsThere attempt := by
  intro holds
  rw [notHeld] at holds
  cases holds

theorem not_holdsFile_of_closed {phase : Phase} (closed : opened phase = false) :
    holdsFile phase = false := by
  cases holds : holdsFile phase with
  | false => rfl
  | true =>
    rw [opened_of_holdsFile holds] at closed
    cases closed

theorem kept_settle (isThere : FileIsThere state.attempt)
    (compared : Compared lib expectedHash state.attempt)
    (held : holdsFile state.attempt.phase = true → state.linked = true) :
    Kept lib expectedHash (settle state) := by
  unfold settle
  split
  · rename_i unlinked
    exact ⟨fileIsThere_of_not_held (not_holdsFile_of_closed unlinked.1),
      compared_of_closed unlinked.1, fun _ => rfl, fun _ => rfl⟩
  · rename_i notUnlinked
    refine ⟨isThere, compared, held, fun closed => ?_⟩
    exact Bool.of_not_eq_false fun unlinked => notUnlinked ⟨closed, unlinked⟩

section

variable (kept : Kept lib expectedHash state)

include kept

/-- A file that is held or returned after a step of the download is at its path. -/
theorem linked_of_endsWithFile (keeps : KeepsFile state.attempt after) : state.linked = true :=
  keeps.2.elim kept.held kept.closed

theorem kept_downloadStep (event : Downloader.Event) (now : Int) (left : Option Int) :
    Kept lib expectedHash (downloadStep lib expectedHash event now left state) := by
  have keeps := @keepsFile_next lib expectedHash (needsDirectory state.directory event)
    state.attempt kept.isThere
  apply kept_settle
  · intro holds
    exact (keeps (.inl holds)).1
  · exact compared_next lib expectedHash state.attempt _ kept.compared
  · intro holds
    have linked : state.linked = true := linked_of_endsWithFile kept (keeps (.inl holds))
    exact linked

theorem kept_unlink (notHeld : holdsFile state.attempt.phase = false) :
    Kept lib expectedHash (unlink state) := by
  unfold unlink
  split
  · rename_i isOpen
    refine ⟨kept.isThere, kept.compared, fun holds => ?_, fun closed => ?_⟩
    · rw [notHeld] at holds
      cases holds
    · rw [isOpen] at closed
      cases closed
  · rename_i notOpen
    have closed : opened state.attempt.phase = false := Bool.eq_false_of_not_eq_true notOpen
    exact ⟨fileIsThere_of_not_held notHeld, compared_of_closed closed,
      fun _ => kept.closed closed, kept.closed⟩

theorem kept_removeAll {removal : Removal}
    (spares : removal ≠ .nothing → holdsFile state.attempt.phase = false) (now : Int) :
    Kept lib expectedHash (removeAll removal now state) := by
  cases removal with
  | nothing => exact { kept with }
  | _ => exact { kept_unlink kept (spares Removal.noConfusion) with }

theorem kept_next {event : Event} (spares : SparesOpenFile state event) :
    Kept lib expectedHash (next lib expectedHash state event) := by
  unfold next
  split
  · exact kept_downloadStep kept _ _ _
  · split
    · exact kept
    · exact { kept with }
  · split
    · exact { kept with }
    · exact kept
  · unfold inspect
    split <;> exact { kept with }
  · exact { kept with }
  · rename_i doomed
    exact kept_removeAll kept (spares doomed) _
  · exact kept

end

/-! ## What is returned -/

theorem phase_settle (state : State) : (settle state).attempt.phase = state.attempt.phase := by
  unfold settle
  split <;> rfl

theorem phase_unlink (state : State) : (unlink state).attempt.phase = state.attempt.phase := by
  unfold unlink
  split <;> rfl

theorem download_or_phase_next (lib : Libraries) (expectedHash : Str) (state : State)
    (event : Event) :
    (∃ step now left, event = .download step now left) ∨
      (next lib expectedHash state event).attempt.phase = state.attempt.phase := by
  unfold next
  split
  · exact .inl ⟨_, _, _, rfl⟩
  · exact .inr (by split <;> rfl)
  · exact .inr (by split <;> rfl)
  · exact .inr (by unfold inspect; split <;> rfl)
  · exact .inr rfl
  · rename_i removal now _
    right
    cases removal with
    | nothing => rfl
    | contents | directory => exact phase_unlink state
  · exact .inr rfl

/-- A download that keeps its file returns the path of a file with the expected hash. -/
theorem hasReturned_of_returns (kept : Kept lib expectedHash state) {event : Event}
    (returns : Returns lib expectedHash state event) :
    HasReturned lib expectedHash (next lib expectedHash state event) := by
  obtain ⟨notReturned, returned⟩ := returns
  rcases download_or_phase_next lib expectedHash state event with ⟨step, now, left, rfl⟩ | same
  · have phase : (Downloader.next lib expectedHash state.attempt
        (needsDirectory state.directory step)).phase = .returned :=
      (phase_settle _).symm.trans returned
    have keeps := keepsFile_next (needsDirectory state.directory step) kept.isThere
      (.inr ⟨phase, notReturned⟩)
    have linked : state.linked = true := linked_of_endsWithFile kept keeps
    obtain ⟨file, isFile⟩ := isSome_iff_exists.mp keeps.1
    have verified := compared_next lib expectedHash state.attempt
      (needsDirectory state.directory step) kept.compared (.inr phase)
    rw [isFile] at verified
    obtain ⟨attemptEq, stillLinked⟩ :=
      @downloadStep_of_linked lib expectedHash state linked step now left
    refine ⟨file, ?_, verified⟩
    change fileAtPath (downloadStep lib expectedHash step now left state) = some file
    rw [fileAtPath, if_pos stillLinked, attemptEq, isFile]
  · rw [same] at returned
    exact absurd returned notReturned

/-! ## Runs -/

/-- If the cleaner removes nothing while a download has its file open, a download that returns
leaves a file with the expected hash at its path. -/
theorem hasReturned_of_sparesOpenFile (lib : Libraries) (expectedHash : Str)
    (download : Option DownloadState) (updatedAt : Int) (file : Option (Sparse UInt8))
    (directory : Option Int) {before after : List Event} {event : Event}
    (spares : StepsMeet (next lib expectedHash) SparesOpenFile
      (State.start download updatedAt file directory) (before ++ event :: after))
    (returns : Returns lib expectedHash (run (next lib expectedHash)
      (State.start download updatedAt file directory) before) event) :
    HasReturned lib expectedHash (next lib expectedHash (run (next lib expectedHash)
      (State.start download updatedAt file directory) before) event) := by
  have start : Kept lib expectedHash (State.start download updatedAt file directory) :=
    ⟨nofun, by rintro (deleting | returned) <;> contradiction, fun _ => rfl, fun _ => rfl⟩
  exact event_of_stepsMeet (Kept lib expectedHash)
    (fun _ _ kept allowed => kept_next kept allowed)
    (fun state event => Returns lib expectedHash state event →
      HasReturned lib expectedHash (next lib expectedHash state event))
    (fun _ _ kept _ returns => hasReturned_of_returns kept returns) start spares returns

/-- The row of a download of two chunks that failed long ago. -/
def staleRow : DownloadState :=
  { url := ofAscii "http://m/p.deb"
    expectedSize := 2
    completedSize := 0
    chunkSize := 1
    totalChunks := 2
    status := .failed
    error := some (ofAscii "timeout")
    retryCount := 3
    chunks := [⟨0, 0, 1, .pending⟩, ⟨1, 1, 2, .pending⟩] }

/-- A download of two chunks is resumed, with a pass of the cleaner after the file was opened. -/
def resumedDownload (cleaning : List Event) : List Event :=
  [.download (.beginAttempt .none (ofAscii "http://m/p.deb") 2 1) 100000 none,
    .download (.openAssembly false) 100000 none] ++ cleaning ++
  [.download (.allocate false) 100001 none,
    .download (.chunkArrived 0 [1] none) 100002 none, .download (.recordChunk false) 100002 none,
    .download (.chunkArrived 1 [2] none) 100003 none, .download (.recordChunk false) 100003 none,
    .download (.finish false) 100004 none]

/-- A pass of the cleaner over downloads that are older than a day. -/
def cleanupPass : List Event :=
  [.cleanupStale 100000 86400 false, .list 100000 86400 false, .inspect false, .check false,
    .removeAll .directory 100000]

/-- The row is fresh, so the cleaner leaves the directory alone, and the returned file is there. -/
theorem hasReturned_after_fresh_row :
    let lib : Libraries := ⟨hexEncode64, id⟩
    let state := run (next lib (hexEncode64 [1, 2]))
      (State.start (some staleRow) 99999 (some [none, none]) (some 0))
      (resumedDownload cleanupPass)
    Returns lib (hexEncode64 [1, 2]) state (.download (.deleteDownload false) 100005 none) ∧
      HasReturned lib (hexEncode64 [1, 2])
        (next lib (hexEncode64 [1, 2]) state (.download (.deleteDownload false) 100005 none)) := by
  intro lib state
  have spares : StepsMeet (next lib (hexEncode64 [1, 2])) SparesOpenFile
      (State.start (some staleRow) 99999 (some [none, none]) (some 0))
      (resumedDownload cleanupPass ++
        Event.download (.deleteDownload false) 100005 none :: []) := by
    decide +kernel
  have returns : Returns lib (hexEncode64 [1, 2]) state
      (.download (.deleteDownload false) 100005 none) := by
    constructor <;> decide +kernel
  exact ⟨returns, hasReturned_of_sparesOpenFile lib (hexEncode64 [1, 2]) (some staleRow) 99999
    (some [none, none]) (some 0) spares returns⟩

/-- The cleaner removes an old row and directory, and the returned path leads nowhere. -/
theorem not_hasReturned_after_stale_row :
    let lib : Libraries := ⟨hexEncode64, id⟩
    let state := run (next lib (hexEncode64 [1, 2]))
      (State.start (some staleRow) 0 (some [none, none]) (some 0)) (resumedDownload cleanupPass)
    let after := next lib (hexEncode64 [1, 2]) state (.download (.deleteDownload false) 100005 none)
    Returns lib (hexEncode64 [1, 2]) state (.download (.deleteDownload false) 100005 none) ∧
      fileAtPath after = none ∧ ¬ HasReturned lib (hexEncode64 [1, 2]) after := by
  intro lib state after
  have missing : fileAtPath after = none := by
    decide +kernel
  refine ⟨⟨?_, ?_⟩, missing, ?_⟩
  · decide +kernel
  · decide +kernel
  · rintro ⟨file, isFile, -⟩
    rw [missing] at isFile
    cases isFile

end Debswarm.Downloader.Cleanup
