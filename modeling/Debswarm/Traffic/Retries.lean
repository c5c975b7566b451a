import Debswarm.Packages.Confinement
import Debswarm.Traffic.Core

/-!
# Retries of cached packages

A download in chunks that fails marks its row, and the retry worker looks for such rows.  The
request goes on to the next way all the same, and may bring the package into the cache with the
row still marked: the worker then downloads a package that is there.

Where every way that brings a package finds neither a failed row nor a retry on its way, and an
attempt in chunks is made only for a package that is not in the cache, the worker starts no
download for a package that is.
-/

namespace Debswarm.Traffic

open Cache (Readable)
open Downloader (NotFailed)
open Function List Option Packages Sync Text Transition

variable {settings : Settings} {state : State}

/-! ## Retries on their way -/

/-- A retry is about to share the download of a package. -/
def AskingRetry (hash : Str) (calls : Nat → Option Call) : Prop :=
  ∃ id call, calls id = some call ∧ call.client = false ∧ call.phase = .asking ∧
    call.entry.hash = hash

/-- The row of a package is on the worker's list, or a retry is about to share its download. -/
def RetryPending (hash : Str) (state : State) : Prop :=
  (∃ row, (hash, row) ∈ state.worklist) ∨ AskingRetry hash state.calls

/-- A package is going to be retried: its row is failed, or a retry is on its way. -/
def Marked (hash : Str) (state : State) : Prop :=
  FailedRow hash state.server ∨ RetryPending hash state

variable {hash : Str} {sources : Sources} {after : State} {flight : Flight Nat Progress}

theorem not_failedRow_iff {server : Server} :
    ¬ FailedRow hash server ↔ NotFailed (server.downloads hash).download := by
  unfold FailedRow NotFailed
  cases (server.downloads hash).download <;> simp

theorem failedRow_of_download_eq {before after : Server}
    (same : (after.downloads hash).download = (before.downloads hash).download)
    (failed : FailedRow hash after) : FailedRow hash before := by
  unfold FailedRow at failed ⊢
  rwa [same] at failed

/-- Of one changed caller only that one is new. -/
theorem askingRetry_of_update {calls : Nat → Option Call} {id : Nat} {call : Call}
    (asking : AskingRetry hash (update calls id (some call))) :
    AskingRetry hash calls ∨
      (call.client = false ∧ call.phase = .asking ∧ call.entry.hash = hash) := by
  obtain ⟨other, found, atOther, retries⟩ := asking
  by_cases same : other = id
  · rw [same, update_self] at atOther
    cases atOther
    exact .inr retries
  · rw [update_of_ne same] at atOther
    exact .inl ⟨other, found, atOther, retries⟩

theorem askingRetry_of_cancel {id : Nat} (asking : AskingRetry hash
      (state.changeCall id fun call => { call with cancelled := true }).calls) :
    AskingRetry hash state.calls := by
  obtain ⟨other, call, found, retries⟩ := asking
  by_cases same : other = id
  · subst same
    simp only [State.changeCall, update_self] at found
    obtain ⟨earlier, atOther, rfl⟩ := map_eq_some_iff.mp found
    exact ⟨other, earlier, atOther, retries⟩
  · simp only [State.changeCall, update_of_ne same] at found
    exact ⟨other, call, found, retries⟩

/-! ## What a way brings -/

/-- The way that comes next is an attempt in chunks. -/
def TriesChunks (settings : Settings) (sources : Sources) (progress : Progress) : Prop :=
  progress.stage = .downloader ∧ InChunks settings.downloader sources progress.entry

/-- A source of the way that comes next sends the package. -/
def Delivers (lib : Libraries) (sources : Sources) (progress : Progress) : Prop :=
  match progress.stage with
  | .fleet => FleetDelivers lib sources progress.entry
  | .downloader => RaceDelivers lib sources progress.entry
  | .peers =>
    ∃ provider ∈ sources.providers.take 3, (provider.delivers lib progress.entry).isSome
  | .mirror => ∃ body, sources.stream = .ok body ∧ lib.sha256 body = progress.entry.hash

/-- A way that is not in chunks leaves the rows alone, and brings what a source sends. -/
theorem tryStage_of_whole {progress : Progress} (whole : ¬ TriesChunks settings sources progress)
    (server : Server) :
    Brings progress.entry.hash (Delivers settings.lib sources progress) server.cache
        (tryStage settings sources progress server).2.cache ∧
      ∀ hash, ((tryStage settings sources progress server).2.downloads hash).download =
        (server.downloads hash).download := by
  obtain ⟨entry, stage⟩ := progress
  have ofRows : ∀ {delivers : Prop} {after : Server},
      Brings entry.hash delivers server.cache after.cache ∧ after.downloads = server.downloads →
      Brings entry.hash delivers server.cache after.cache ∧ ∀ hash,
        (after.downloads hash).download = (server.downloads hash).download :=
    fun touches => ⟨touches.1, fun hash => by rw [touches.2]⟩
  cases stage with
  | fleet => exact ofRows (tryFleet_touches settings.lib sources entry server)
  | downloader =>
    exact tryDownloader_of_race (fun inChunks => whole ⟨rfl, inChunks⟩) server
  | peers => exact ofRows (tryPeers_touches settings.lib entry (sources.providers.take 3) server)
  | mirror => exact ofRows (fetchMirror_touches settings.lib sources entry server)

/-! ## The invariant -/

/-- Downloads are under their hashes, and no cached package is going to be retried. -/
structure Unretried (state : State) : Prop where
  keyed : EveryFlight (fun hash flight => flight.progress.entry.hash = hash) state.flights
  unmarked : ∀ hash, Readable hash state.server.cache → ¬ Marked hash state

/-- An attempt in chunks is made for a package that is not cached and has no retry on its way, and
starts well; another way that brings the package finds no failed row or retry. -/
def SparesRetries (settings : Settings) (state : State) : Event → Prop
  | .advance hash sources _ => ∀ flight ∈ state.flights hash,
      (TriesChunks settings sources flight.progress →
        ¬ Readable hash state.server.cache ∧ ¬ RetryPending hash state ∧
          sources.attempt.StartsWell) ∧
      (¬ TriesChunks settings sources flight.progress →
        Delivers settings.lib sources flight.progress → ¬ Marked hash state)
  | _ => True

/-- A step that marks nothing and brings nothing. -/
theorem Unretried.of_shrinks (unretried : Unretried state) (flights : after.flights = state.flights)
    (readable : ∀ hash, Readable hash after.server.cache → Readable hash state.server.cache)
    (marked : ∀ hash, Readable hash state.server.cache → Marked hash after → Marked hash state) :
    Unretried after := by
  constructor
  · rw [flights]
    exact unretried.keyed
  · intro hash isReadable isMarked
    have before := readable hash isReadable
    exact unretried.unmarked hash before (marked hash before isMarked)

theorem readable_of_serveFromCache {hash other : Str} {cache : Cache.State}
    (readable : Readable other (serveFromCache hash cache).2) : Readable other cache := by
  obtain ⟨_, _, read⟩ := serveFromCache_cache hash cache
  rw [read] at readable
  exact readable

theorem readable_of_respond {outcome : Except Stop PackageResult} {other : Str}
    {cache : Cache.State} (readable : Readable other (respond outcome cache).2) :
    Readable other cache := by
  unfold respond at readable
  split at readable
  · rename_i result
    obtain ⟨_, _, read⟩ := servePackageResult_cache result cache
    rw [read] at readable
    exact readable
  · exact readable
  · exact readable

/-- A step that changes one caller, not into a retry that is about to ask, and reads the
cache. -/
theorem Unretried.setCall (unretried : Unretried state) {id : Nat} {call : Call}
    (quiet : call.client = true ∨ call.phase ≠ .asking) (flights : after.flights = state.flights)
    (calls : after.calls = update state.calls id (some call))
    (downloads : after.server.downloads = state.server.downloads)
    (worklist : after.worklist = state.worklist)
    (readable : ∀ hash, Readable hash after.server.cache → Readable hash state.server.cache) :
    Unretried after := by
  apply unretried.of_shrinks flights readable
  intro hash _ marked
  rcases marked with failed | listed | asking
  · exact .inl (failedRow_of_download_eq (by rw [downloads]) failed)
  · rw [worklist] at listed
    exact .inr (.inl listed)
  · rw [calls] at asking
    rcases askingRetry_of_update asking with earlier | ⟨notClient, isAsking, -⟩
    · exact .inr (.inr earlier)
    · rcases quiet with isClient | notAsking
      · rw [isClient] at notClient
        cases notClient
      · exact absurd isAsking notAsking

theorem unretried_list (unretried : Unretried state) (now : Int) (listed : List Str) :
    Unretried
      { state with worklist := getRetryableDownloads settings.retry now listed state } := by
  refine unretried.of_shrinks rfl (fun _ readable => readable) ?_
  intro hash _ marked
  rcases marked with failed | ⟨row, mem⟩ | asking
  · exact .inl failed
  · -- a listed row is failed
    obtain ⟨id, -, found⟩ := mem_filterMap.mp mem
    obtain ⟨retried, isRetryable, pair⟩ := map_eq_some_iff.mp found
    cases pair
    obtain ⟨saved, limits⟩ := filter_eq_some_iff.mp isRetryable
    left
    unfold FailedRow
    rw [saved]
    exact decide_eq_true (of_decide_eq_true limits).1
  · exact .inr (.inr asking)

theorem failedRow_of_markRow {hash other : Str} {now : Int}
    (failed : FailedRow other (markRow hash now state).server) : FailedRow other state.server := by
  by_cases same : other = hash
  · subst same
    by_contra notFailed
    have marked := Downloader.notFailed_markForRetry (not_failedRow_iff.mp notFailed)
    apply not_failedRow_iff.mpr _ failed
    simpa [markRow] using marked
  · refine failedRow_of_download_eq ?_ failed
    simp [markRow, update_of_ne same]

theorem hash_of_retryEntry {row : Downloader.DownloadState} {entry : Entry}
    (isEntry : retryEntry hash row = some entry) : entry.hash = hash := by
  unfold retryEntry at isEntry
  split at isEntry
  · cases isEntry
    rfl
  · cases isEntry

/-- A row that the worker goes through was on its list, so its package is not in the cache. -/
theorem unretried_retryRow (unretried : Unretried state) (id : Nat) (now : Int) (fails : Bool)
    {row : Downloader.DownloadState} {rest : List (Str × Downloader.DownloadState)}
    (listed : state.worklist = (hash, row) :: rest) :
    Unretried (retryRow id now fails hash row { state with worklist := rest }) := by
  have later : ∀ other, (∃ kept, (other, kept) ∈ rest) → RetryPending other state := by
    rintro other ⟨kept, mem⟩
    refine .inl ⟨kept, ?_⟩
    rw [listed]
    exact mem_cons_of_mem _ mem
  have isMarked : Marked hash state := by
    refine .inr (.inl ⟨row, ?_⟩)
    rw [listed]
    exact mem_cons_self
  have popped : Unretried { state with worklist := rest } := by
    refine unretried.of_shrinks rfl (fun _ readable => readable) ?_
    intro other _ marked
    exact marked.imp_right fun pending => pending.elim (later other) .inr
  unfold retryRow
  split
  · exact popped
  · split
    · refine popped.of_shrinks rfl (fun _ readable => readable) ?_
      intro other _ marked
      exact marked.imp_left failedRow_of_markRow
    · rename_i entry entryEq
      refine unretried.of_shrinks rfl (fun _ readable => readable) ?_
      intro other _ marked
      rcases marked with failed | kept | asking
      · exact .inl (@failedRow_of_markRow state hash other now failed)
      · exact .inr (later other kept)
      · rcases askingRetry_of_update asking with earlier | ⟨-, -, own⟩
        · exact .inr (.inr earlier)
        · rwa [← own, hash_of_retryEntry entryEq]

theorem server_advance (settings : Settings) (hash : Str) (flight : Flight Nat Progress)
    (sources : Sources) (touched : Option Int) (state : State) :
    (advance settings hash flight sources touched state).server =
      (tryStage settings sources flight.progress state.server).2 := by
  unfold advance
  dsimp only
  split <;> rfl

theorem retryPending_of_advance {other : Str} {touched : Option Int}
    (pending : RetryPending other (advance settings hash flight sources touched state)) :
    RetryPending other state := by
  unfold advance at pending
  dsimp only at pending
  split at pending
  · exact pending
  · refine pending.imp_right ?_
    rintro ⟨id, call, found, retries⟩
    obtain ⟨earlier, atId, ⟨-, rfl⟩ | rfl⟩ := hand_eq_some found
    · cases retries.2.1
    · exact ⟨id, call, atId, retries⟩

theorem unretried_advance (unretried : Unretried state) (sources : Sources) (touched : Option Int)
    (found : state.flights hash = some flight)
    (chunks : TriesChunks settings sources flight.progress →
      ¬ Readable hash state.server.cache ∧ ¬ RetryPending hash state ∧
        sources.attempt.StartsWell) (whole : ¬ TriesChunks settings sources flight.progress →
      Delivers settings.lib sources flight.progress → ¬ Marked hash state) :
    Unretried (advance settings hash flight sources touched state) := by
  have key : flight.progress.entry.hash = hash := unretried.keyed hash flight found
  refine ⟨?_, ?_⟩
  · unfold advance
    dsimp only
    split
    · exact everyFlight_proceed unretried.keyed fun _ _ => unretried.keyed hash flight found
    · exact everyFlight_finish unretried.keyed
  intro other readable marked
  rw [server_advance] at readable
  have afterStep : FailedRow other (tryStage settings sources flight.progress state.server).2 ∨
      RetryPending other state := by
    refine marked.imp (fun failed => ?_) retryPending_of_advance
    rwa [server_advance] at failed
  by_cases tries : TriesChunks settings sources flight.progress
  · obtain ⟨notReadable, notPending, startsWell⟩ := chunks tries
    rcases progressed : flight.progress with ⟨entry, stage⟩
    rw [progressed] at tries afterStep readable key
    obtain ⟨rfl, inChunks⟩ := tries
    obtain ⟨brings, others⟩ := tryDownloader_of_inChunks inChunks startsWell state.server
    dsimp only at key
    rw [← not_failedRow_iff, key] at brings
    rw [key] at others
    rcases brings other readable with before | ⟨rfl, notFailed⟩
    · have isOther : other ≠ hash := by
        rintro rfl
        exact notReadable before
      apply unretried.unmarked other before
      exact afterStep.imp_left (failedRow_of_download_eq (others other isOther))
    · exact afterStep.elim notFailed notPending
  · obtain ⟨brings, rows⟩ := tryStage_of_whole tries state.server
    have before : Marked other state :=
      afterStep.imp_left (failedRow_of_download_eq (rows other))
    rw [key] at brings
    rcases brings other readable with wasReadable | ⟨rfl, delivers⟩
    · exact unretried.unmarked other wasReadable before
    · exact whole tries delivers before

theorem Step.unretried {event : Event} (step : Step settings state event after)
    (unretried : Unretried state) (spares : SparesRetries settings state event) :
    Unretried after := by
  cases step with
  | stays => exact unretried
  | request id entry offline isNew =>
    have readable := fun hash => @readable_of_serveFromCache entry.hash hash state.server.cache
    unfold Traffic.request
    generalize serveFromCache entry.hash state.server.cache = served at readable ⊢
    rcases served with ⟨_ | reply, cache⟩ <;>
      exact unretried.setCall (.inl rfl) rfl rfl rfl rfl readable
  | ask id call found asking =>
    have waits : Unretried (state.setCall id { call with phase := .waiting }) :=
      unretried.setCall (.inr Phase.noConfusion) rfl rfl rfl rfl fun _ readable => readable
    exact ⟨everyFlight_join unretried.keyed (fun flight found => unretried.keyed _ flight found)
      fun _ => rfl, waits.unmarked⟩
  | cancel id =>
    refine unretried.of_shrinks rfl (fun _ readable => readable) ?_
    intro hash _ marked
    exact marked.imp_right fun pending => pending.imp_right askingRetry_of_cancel
  | advance hash sources touched flight found =>
    obtain ⟨chunks, whole⟩ := spares flight found
    exact unretried_advance unretried sources touched found chunks whole
  | answer id call outcome found handed =>
    unfold Traffic.answer
    split
    · exact unretried.setCall (.inr Phase.noConfusion) rfl rfl rfl rfl fun _ => readable_of_respond
    · exact unretried.setCall (.inr Phase.noConfusion) rfl rfl rfl rfl fun _ readable => readable
  | list now listed => exact unretried_list unretried now listed
  | retryRow id now fails hash row rest listed isNew =>
    exact unretried_retryRow unretried id now fails listed
  | stopRetries =>
    refine unretried.of_shrinks rfl (fun _ readable => readable) ?_
    intro hash _ marked
    refine marked.imp_right fun pending => .inr (pending.resolve_left ?_)
    simp

/-! ## Runs -/

/-- The step is a retry that starts the download of a package. -/
def RetryStarts (state : State) (event : Event) (hash : Str) : Prop :=
  ∃ id call, event = .ask id ∧ state.calls id = some call ∧ call.client = false ∧
    call.phase = .asking ∧ call.entry.hash = hash ∧ state.flights hash = none

/-- Packages from two bytes on are downloaded in chunks of one byte. -/
def chunkySettings : Settings :=
  ⟨⟨hexEncode64, id⟩, ⟨1, 2⟩, ⟨3, 3600⟩⟩

/-- A peer whose chunks do not come, and the mirror with what it sends. -/
def failingChunks (stream : Except Str Str) : Sources :=
  { corruptPeers with
    fleet := none
    providers := [⟨ofAscii "p", none, ⟨{}, ofAscii "pending/1"⟩⟩]
    attempt := ⟨.none, [.openAssembly false, .allocate false,
      .chunkFailed 0 (ofAscii "timeout"), .chunkFailed 1 (ofAscii "timeout"), .finish false],
      .mixed⟩
    stream }

/-- A download fails in chunks and goes on to the mirror. Then the worker finds the row. -/
def requestThenTick (stream : Except Str Str) : List Event :=
  [.request 1 twoBytePackage false, .ask 1] ++
    replicate 4 (.advance twoBytePackage.hash (failingChunks stream) (some 100)) ++
    [.answer 1, .list 400 false [twoBytePackage.hash], .retryRow 2 401 false]

theorem retryStarts_after_requestThenTick {stream : Except Str Str}
    (asks : ((run (next chunkySettings) (State.start emptyServer fun _ => 0)
      (requestThenTick stream)).calls 2).map
        (fun call => (call.client, call.phase, call.entry.hash)) =
          some (false, .asking, twoBytePackage.hash))
    (landed : ((run (next chunkySettings) (State.start emptyServer fun _ => 0)
      (requestThenTick stream)).flights twoBytePackage.hash).isNone = true) :
    RetryStarts (run (next chunkySettings) (State.start emptyServer fun _ => 0)
      (requestThenTick stream)) (.ask 2) twoBytePackage.hash := by
  obtain ⟨call, found, parts⟩ := map_eq_some_iff.mp asks
  obtain ⟨isRetry, asking, own⟩ := (Prod.mk.inj parts).imp_right Prod.mk.inj
  exact ⟨2, call, rfl, found, isRetry, asking, own, isNone_iff_eq_none.mp landed⟩

end Debswarm.Traffic
