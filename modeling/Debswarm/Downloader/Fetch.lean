import Debswarm.Downloader.Core
import Debswarm.Transition.Run

/-!
# Fetching a package

A large package with peers at hand is fetched in chunks; any other is raced: every source
is asked for the whole package and the first answer with the right hash wins.  Either way
the bytes are compared with the expected hash before the downloader hands them out.

An attempt in chunks that fails marks its row as failed, and one that succeeds completes its row
and deletes it.
-/

namespace Debswarm.Downloader

open File Option Text Transition

section

/-- What a download is attributed to.  A resumed download found every chunk on disk. -/
inductive SourceType
  | peer
  | mirror
  | mixed
  | resumed
  deriving DecidableEq, Repr

/-- A source of packages: a peer, by its id, or the mirror. -/
inductive Source
  | peer (id : Str)
  | mirror
  deriving DecidableEq, Repr

def Source.type : Source → SourceType
  | .peer _ => .peer
  | .mirror => .mirror

/-- What a source answers to a request for the whole package: the text of an error, or
bytes. -/
structure Answer where
  source : Source
  outcome : Except Str Str

/-- Why a download fails.  An interrupted one ends with the process. -/
inductive DownloadError
  | noSources
  | allSourcesFailed (last : Str)
  | cancelled
  | chunksFailed
  | interrupted
  deriving DecidableEq, Repr

/-- The bytes of a download, in memory or in the assembly file. -/
inductive Payload
  | memory (data : Str)
  | file (content : Str)
  deriving DecidableEq, Repr

def Payload.bytes : Payload → Str
  | .memory data => data
  | .file content => content

/-- The result of a download. -/
structure DownloadResult where
  payload : Payload
  hash : Str
  size : Nat
  source : SourceType
  deriving DecidableEq, Repr

/-! ## Racing -/

/-- The peer to blacklist for wrong data from a source. -/
def Source.blamed : Source → List Str
  | .peer id => [id]
  | .mirror => []

/-- Collect the answers of a race: the first with the right hash wins, and peers that sent wrong
data are blacklisted. Without a further answer the context ends the wait. -/
def collectAnswers (lib : Libraries) (expectedHash : Str) (racers : Nat) :
    Nat → List Answer → Except DownloadError DownloadResult × List Str
  | _, [] => (.error .cancelled, [])
  | received, ⟨_, .error message⟩ :: rest =>
    if racers ≤ received + 1 then (.error (.allSourcesFailed message), [])
    else collectAnswers lib expectedHash racers (received + 1) rest
  | received, ⟨source, .ok data⟩ :: rest =>
    if lib.sha256 data ≠ expectedHash then
      if racers ≤ received + 1 then
        (.error (.allSourcesFailed (ofAscii "hash verification failed")), source.blamed)
      else
        let later := collectAnswers lib expectedHash racers (received + 1) rest
        (later.1, source.blamed ++ later.2)
    else
      (.ok ⟨.memory data, lib.sha256 data, data.length, source.type⟩, [])

/-- Ask all peers, and the mirror if there is one, for the whole package. -/
def downloadRacing (lib : Libraries) (expectedHash : Str) (peers : List Str) (mirror : Bool)
    (answers : List Answer) : Except DownloadError DownloadResult × List Str :=
  let racers := peers.length + if mirror then 1 else 0
  if racers = 0 then (.error .noSources, [])
  else collectAnswers lib expectedHash racers 0 answers

variable {lib : Libraries} {expectedHash : Str} {answers : List Answer} {result : DownloadResult}
  {state : State}

/-- The winner of a race is one of the answers, with the expected hash. -/
theorem exists_answer_of_collectAnswers {racers received : Nat}
    (won : (collectAnswers lib expectedHash racers received answers).1 = .ok result) :
    ∃ answer ∈ answers, ∃ data, answer.outcome = .ok data ∧ lib.sha256 data = expectedHash ∧
      result.payload = .memory data := by
  induction answers generalizing received with
  | nil => cases won
  | cons answer rest ih =>
    have later : ∀ {received}, (collectAnswers lib expectedHash racers received rest).1 =
        .ok result → ∃ other ∈ answer :: rest, ∃ data, other.outcome = .ok data ∧
          lib.sha256 data = expectedHash ∧ result.payload = .memory data := by
      intro received won
      obtain ⟨other, mem, sent⟩ := ih won
      exact ⟨other, List.mem_cons_of_mem answer mem, sent⟩
    rcases answer with ⟨source, message | data⟩
    · simp only [collectAnswers] at won
      split at won
      · cases won
      · exact later won
    · simp only [collectAnswers] at won
      split at won
      · split at won
        · cases won
        · exact later won
      · rename_i verified
        cases won
        exact ⟨_, List.mem_cons_self, data, rfl, not_not.mp verified, rfl⟩

section

variable {peers : List Str} {mirror : Bool}
  (won : (downloadRacing lib expectedHash peers mirror answers).1 = .ok result)

include won

theorem exists_answer_of_downloadRacing :
    ∃ answer ∈ answers, ∃ data, answer.outcome = .ok data ∧ lib.sha256 data = expectedHash ∧
      result.payload = .memory data := by
  simp only [downloadRacing] at won
  generalize (peers.length + if mirror then 1 else 0) = racers at won
  split at won
  · cases won
  · exact exists_answer_of_collectAnswers won

theorem sha256_eq_of_downloadRacing :
    lib.sha256 result.payload.bytes = expectedHash := by
  obtain ⟨answer, -, data, -, verified, isData⟩ := exists_answer_of_downloadRacing won
  rwa [isData]

end

/-! ## Chunks -/

/-- What decides how an attempt in chunks goes: failing calls, its steps, and attributions. -/
structure ChunkedAttempt where
  faults : StartFaults
  events : List Event
  source : SourceType

/-- Run one attempt in chunks. If its steps stop short of an end, the process died. -/
def downloadChunked (lib : Libraries) (expectedHash url : Str) (expectedSize chunkSize : Nat)
    (attempt : ChunkedAttempt) (state : State) :
    Except DownloadError DownloadResult × State :=
  let ended := run (next lib expectedHash) { state with phase := .idle }
    (.beginAttempt attempt.faults url expectedSize chunkSize :: attempt.events)
  match ended.phase with
  | .returned =>
    (.ok ⟨.file ((ended.file.getD []).contents 0), expectedHash, expectedSize,
      attempt.source⟩, ended)
  | .idle => (.error .chunksFailed, ended)
  | _ => (.error .interrupted, ended)

/-- An attempt past the comparison of hashes has a file with the expected hash. -/
def Compared (lib : Libraries) (expectedHash : Str) (state : State) : Prop :=
  state.phase = .deleting ∨ state.phase = .returned →
    lib.sha256 ((state.file.getD []).contents 0) = expectedHash

theorem compared_finish (lib : Libraries) (expectedHash : Str) (unreadable : Bool)
    (attempt : Attempt) (state : State) :
    Compared lib expectedHash (finish lib expectedHash unreadable attempt state) := by
  unfold finish
  split
  · exact fun ended => by simp at ended
  · dsimp only
    split
    · exact fun ended => by simp at ended
    · split
      · exact fun ended => by simp at ended
      · rename_i same
        split <;> exact fun _ => not_not.mp same

/-- Only `finish` enters the phases after the comparison, and nothing writes the file
there. -/
theorem compared_of_phase (notDeleting : state.phase ≠ .deleting)
    (notReturned : state.phase ≠ .returned) : Compared lib expectedHash state :=
  fun ended => (ended.elim notDeleting notReturned).elim

theorem Step.compared {after : State} {event : Event}
    (step : Step lib expectedHash state event after) (compared : Compared lib expectedHash state) :
    Compared lib expectedHash after := by
  cases step with
  | stays => exact compared
  | beginAttempt faults url expectedSize chunkSize idle positive =>
    exact compared_of_phase Phase.noConfusion Phase.noConfusion
  | openAssembly fails attempt opening =>
    rcases phase_openAssembly fails attempt state with phase | phase
    · exact compared_of_phase (by simp [phase]) (by simp [phase])
    · exact compared_of_phase (by simp [phase]) (by simp [phase])
  | allocate fails attempt allocating =>
    rcases phase_allocate fails attempt state with phase | phase
    · exact compared_of_phase (by simp [phase]) (by simp [phase])
    · exact compared_of_phase (by simp [phase]) (by simp [phase])
  | chunkFailed index cause attempt collecting asked =>
    exact compared_of_phase Phase.noConfusion Phase.noConfusion
  | chunkArrived index data broken attempt collecting asked whole =>
    obtain ⟨heard, -, phase | phase⟩ := phase_chunkArrived index data broken attempt state
    · exact compared_of_phase (by simp [phase]) (by simp [phase])
    · exact compared_of_phase (by simp [phase]) (by simp [phase])
  | recordChunk fails attempt index recording =>
    exact compared_of_phase Phase.noConfusion Phase.noConfusion
  | finish unreadable attempt collecting =>
    exact compared_finish lib expectedHash unreadable attempt state
  | removeFile fails cleaning =>
    exact compared_of_phase Phase.noConfusion Phase.noConfusion
  | deleteDownload fails deleting => exact fun _ => compared (.inl deleting)
  | takeFile fails returned => exact compared_of_phase Phase.noConfusion Phase.noConfusion
  | markForRetry => exact compared
  | crash => exact compared_of_phase Phase.noConfusion Phase.noConfusion

theorem compared_next (lib : Libraries) (expectedHash : Str) (state : State) (event : Event)
    (compared : Compared lib expectedHash state) :
    Compared lib expectedHash (next lib expectedHash state event) :=
  (step_next lib expectedHash state event).compared compared

theorem sha256_eq_of_downloadChunked {url : Str} {expectedSize chunkSize : Nat}
    {attempt : ChunkedAttempt}
    (done : (downloadChunked lib expectedHash url expectedSize chunkSize attempt state).1 =
      .ok result) : lib.sha256 result.payload.bytes = expectedHash := by
  have started : Compared lib expectedHash { state with phase := .idle } :=
    fun ended => by simp at ended
  have compared := run_invariant (Compared lib expectedHash) (compared_next lib expectedHash)
    started (.beginAttempt attempt.faults url expectedSize chunkSize :: attempt.events)
  simp only [downloadChunked] at done
  split at done
  · rename_i returned
    cases done
    exact compared (.inr returned)
  · cases done
  · cases done

/-! ## The choice between them -/

/-- How the downloader is configured. -/
structure Config where
  chunkSize : Nat
  minChunkedSize : Int

/-- Download a package the best way for its size and sources. -/
def download (lib : Libraries) (config : Config) (expectedHash url : Str) (expectedSize : Int)
    (peers : List Str) (attempt : ChunkedAttempt) (answers : List Answer) (state : State) :
    Except DownloadError DownloadResult × List Str × State :=
  if 0 < expectedSize ∧ config.minChunkedSize ≤ expectedSize ∧ 0 < peers.length then
    let (result, ended) := downloadChunked lib expectedHash url expectedSize.toNat
      config.chunkSize attempt state
    (result, [], ended)
  else
    let (result, blacklisted) := downloadRacing lib expectedHash peers true answers
    (result, blacklisted, state)

/-- Whatever the sources send, a download that succeeds has the expected hash. -/
theorem sha256_eq_of_download {config : Config} {url : Str} {expectedSize : Int} {peers : List Str}
    {attempt : ChunkedAttempt}
    (done : (download lib config expectedHash url expectedSize peers attempt answers state).1 =
      .ok result) : lib.sha256 result.payload.bytes = expectedHash := by
  unfold download at done
  split at done
  · exact sha256_eq_of_downloadChunked done
  · exact sha256_eq_of_downloadRacing done

end

/-! ## The rows of finished downloads -/

/-- The row is not that of a failed download. -/
def NotFailed (saved : Option DownloadState) : Prop :=
  ∀ row ∈ saved, row.status ≠ .failed

/-- The calls at the start of an attempt succeed. -/
def Event.StartsWell : Event → Prop
  | .beginAttempt faults _ _ _ => faults = .none
  | _ => True

instance : ∀ event : Event, Decidable event.StartsWell
  | .beginAttempt .. => inferInstanceAs (Decidable (_ = _))
  | .openAssembly _ | .allocate _ | .chunkFailed .. | .chunkArrived .. | .recordChunk _ | .finish _
  | .removeFile _ | .deleteDownload _ | .takeFile _ | .markForRetry | .crash => .isTrue trivial

def ChunkedAttempt.StartsWell (attempt : ChunkedAttempt) : Prop :=
  attempt.faults = .none ∧ ∀ event ∈ attempt.events, event.StartsWell

/-- A running attempt keeps its row, and after the comparison of hashes the row is not failed. -/
def Recorded (state : State) : Prop :=
  match state.phase with
  | .opening attempt => attempt.resumeEnabled = true
  | .allocating attempt => attempt.resumeEnabled = true
  | .collecting attempt => attempt.resumeEnabled = true
  | .recording attempt _ => attempt.resumeEnabled = true
  | .deleting => NotFailed state.download
  | .returned => NotFailed state.download
  | _ => True

theorem recorded_finish (lib : Libraries) (expectedHash : Str) (unreadable : Bool)
    {attempt : Attempt} (resumes : attempt.resumeEnabled = true) (state : State) :
    Recorded (finish lib expectedHash unreadable attempt state) := by
  unfold finish
  split
  · trivial
  · dsimp only
    split
    · trivial
    · split
      · trivial
      · intro row completed
        obtain ⟨earlier, -, rfl⟩ := map_eq_some_iff.mp completed
        exact Status.noConfusion

theorem notFailed_markForRetry {saved : Option DownloadState} (notFailed : NotFailed saved) :
    NotFailed (markForRetry saved) := by
  intro row marked
  obtain ⟨earlier, found, rfl⟩ := map_eq_some_iff.mp marked
  rw [if_neg (notFailed earlier found)]
  exact notFailed earlier found

theorem Step.recorded {lib : Libraries} {expectedHash : Str} {state after : State}
    {event : Event} (step : Step lib expectedHash state event after)
    (startsWell : event.StartsWell) (recorded : Recorded state) : Recorded after := by
  cases step with
  | stays => exact recorded
  | beginAttempt faults url expectedSize chunkSize idle positive =>
    cases startsWell
    cases saved : state.download with
    | none => simp [Recorded, Downloader.beginAttempt, StartFaults.none, saved, createDownload]
    | some row => simp [Recorded, Downloader.beginAttempt, StartFaults.none, saved]
  | openAssembly fails attempt opening =>
    simp only [Recorded, opening] at recorded
    rcases phase_openAssembly fails attempt state with phase | phase
    · simp only [Recorded, phase]
    · simpa only [Recorded, phase] using recorded
  | allocate fails attempt allocating =>
    simp only [Recorded, allocating] at recorded
    rcases phase_allocate fails attempt state with phase | phase
    · simp only [Recorded, phase]
    · simpa only [Recorded, phase] using recorded
  | chunkFailed index cause attempt collecting asked =>
    simp only [Recorded, collecting] at recorded
    exact recorded
  | chunkArrived index data broken attempt collecting asked whole =>
    simp only [Recorded, collecting] at recorded
    obtain ⟨heard, sameRow, phase | phase⟩ := phase_chunkArrived index data broken attempt state
    · simpa only [Recorded, phase] using sameRow.trans recorded
    · simpa only [Recorded, phase] using sameRow.trans recorded
  | recordChunk fails attempt index recording =>
    simp only [Recorded, recording] at recorded
    exact recorded
  | finish unreadable attempt collecting =>
    simp only [Recorded, collecting] at recorded
    exact recorded_finish lib expectedHash unreadable recorded state
  | removeFile fails cleaning => trivial
  | deleteDownload fails deleting =>
    simp only [Recorded, deleting] at recorded
    intro row kept
    cases fails with
    | true => exact recorded row kept
    | false => cases kept
  | takeFile fails returned => trivial
  | markForRetry =>
    obtain ⟨download, file, phase, attempts, receipts⟩ := state
    cases phase with
    | deleting | returned => exact notFailed_markForRetry recorded
    | _ => exact recorded
  | crash => trivial

/-- An attempt that starts well and succeeds does not leave a failed row. -/
theorem notFailed_of_downloadChunked {lib : Libraries} {expectedHash url : Str}
    {expectedSize chunkSize : Nat} {attempt : ChunkedAttempt} {state : State}
    {result : DownloadResult} (startsWell : attempt.StartsWell)
    (done : (downloadChunked lib expectedHash url expectedSize chunkSize attempt state).1 =
      .ok result) :
    NotFailed (downloadChunked lib expectedHash url expectedSize chunkSize attempt
      state).2.download := by
  have started : Recorded { state with phase := .idle } := trivial
  have events : ∀ event ∈ Event.beginAttempt attempt.faults url expectedSize chunkSize ::
      attempt.events, event.StartsWell := by
    intro event mem
    rcases List.mem_cons.mp mem with rfl | later
    · exact startsWell.1
    · exact startsWell.2 event later
  have recorded := run_invariant_of_stepsMeet Recorded
    (fun state event recorded allowed =>
      (step_next lib expectedHash state event).recorded allowed recorded)
    started (stepsMeet_of_forall events _)
  simp only [downloadChunked] at done ⊢
  split at done
  · rename_i returned
    unfold Recorded at recorded
    rwa [returned] at recorded
  · cases done
  · cases done

end Debswarm.Downloader
