import Debswarm.Cache.Readability
import Debswarm.Seed.Incremental

/-!
# What incremental imports miss

The time that a run saves is that of its end, and the next run leaves out every file that was
modified before it: also a file that was written after the scan, one that arrived with an old
modification time, and one whose import failed.

It is enough that a run that fails or is overtaken by a change does not save a time later than
that of a file it missed, and that no file arrives with a time before the saved one.
-/

namespace Debswarm.Seed.Incremental

open Cache File List Text Transition

variable {lib : Libraries} {source : Str} {recursive : Bool} {state : State source recursive}

/-! ## Completeness -/

/-- The content of a file is in the cache. -/
def IsCached (lib : Libraries) (cache : Cache.State) (node : Node Str) : Prop :=
  ∀ hash, HasHash lib node hash → has hash cache = true

/-- Every package file of the source has its content in the cache. -/
def AllCached (lib : Libraries) (state : State source recursive) : Prop :=
  ∀ file ∈ sourceFiles lib recursive state.arg, IsCached lib state.cache file.2

/-- Every package file that was modified before a time has its content in the cache. -/
def OldCached (lib : Libraries) (time : Int) (state : State source recursive) : Prop :=
  ∀ file ∈ sourceFiles lib recursive state.arg, comparedTime state.arg file < time →
    IsCached lib state.cache file.2

/-- The step deletes no package from the cache. -/
def DeletesNothing (lib : Libraries) (state : State source recursive)
    (event : Event source recursive) : Prop :=
  ∀ hash, has hash state.cache = true → has hash (next lib state event).cache = true

/-- The step ends a run over a source that has stayed as it was and in which no import failed. -/
def Completes (lib : Libraries) (state : State source recursive) : Event source recursive → Prop
  | .scan => ∃ lastSync, state.phase = .loaded lastSync true ∧
      (collected lib lastSync state).isEmpty = true
  | .save _ _ => state.phase = .importing [] false true
  | _ => False

/-- A source that is a directory is not reached through a link, which a walk does not follow. -/
def Direct (node : Node Str) : Prop :=
  node.resolve.isDirectory = true → node.isDirectory = true

/-- A run has nothing left to import, but an import failed or the source has changed. -/
def Phase.isFlawed : Phase → Bool
  | .importing [] failed stable => failed || !stable
  | _ => false

/-- A change brings no file older than the saved time and not cached, a scanned source can be read,
and a run that failed or was overtaken saves its time only if what is older is cached. -/
def Careful (lib : Libraries) (state : State source recursive) : Event source recursive → Prop
  | .change tree =>
    ∀ lastSync ∈ loadSyncState state.saved source, OldCached lib lastSync { state with tree }
  | .scan => isReadable recursive state.arg = true ∧ Direct state.tree.node
  | .save now saving => saving = .written → state.phase.isFlawed = true → OldCached lib now state
  | _ => True

/-! ## Files of the source -/

/-- A walk that follows no link still meets every file of a source that is not one. -/
theorem visitedFiles_eq_sourceFiles {arg : SourceArg} (direct : Direct arg.node) :
    visitedFiles lib recursive arg = sourceFiles lib recursive arg := by
  unfold visitedFiles sourceFiles
  cases resolved : arg.node.resolve with
  | directory readable entries =>
    have isDirectory : arg.node.isDirectory = true := direct (by rw [resolved]; rfl)
    rw [Node.resolve_of_isDirectory isDirectory] at resolved
    rw [resolved]
  | file modTime content | link modTime target | missing => rfl

variable {file : Str × Node Str} {path : Str} {node : Node Str} {event : Event source recursive}

theorem mem_leaves_of_mem_visitedFiles {arg : SourceArg}
    (met : file ∈ visitedFiles lib recursive arg) :
    file ∈ leaves (entersDirectory arg.path recursive) arg.path arg.node := by
  unfold visitedFiles at met
  cases resolved : arg.node.resolve with
  | directory readable entries =>
    rw [resolved] at met
    exact (mem_filter.mp met).1
  | file modTime content =>
    rw [resolved] at met
    obtain ⟨-, rfl⟩ : isDeb lib arg.path = true ∧ file = (arg.path, arg.node) := by
      simpa using met
    cases node : arg.node with
    | directory readable entries | missing => simp [node, Node.resolve] at resolved
    | file modTime content | link modTime target => simp [leaves]
  | link modTime target | missing =>
    rw [resolved] at met
    cases met

/-- What a scan leaves out is older than the time that was loaded. -/
theorem mem_collected_or_isOlder (readable : isReadable recursive state.arg = true)
    (direct : Direct state.tree.node) (inSource : file ∈ sourceFiles lib recursive state.arg)
    (lastSync : Option Int) :
    file ∈ collected lib lastSync state ∨
      ∃ time ∈ lastSync, comparedTime state.arg file < time := by
  cases older : isOlder lastSync (comparedTime state.arg file) with
  | false =>
    rw [← visitedFiles_eq_sourceFiles direct] at inSource
    exact .inl ((@mem_collectDebFiles lib recursive lastSync state.arg file).mpr
      ⟨inSource, readable, older⟩)
  | true =>
    cases lastSync with
    | none => cases older
    | some time => exact .inr ⟨time, rfl, of_decide_eq_true older⟩

/-! ## Imports -/

/-- An import that succeeds leaves the content of the file in the cache. -/
theorem isCached_cacheAfter {call : ImportCall} (current : call.atCheck = call.atStore)
    (succeeded : (processDebFile lib false call path node).sourceHash.isNone = false) :
    IsCached lib (cacheAfter lib call path node) node := by
  obtain ⟨hash, noted⟩ := Option.isSome_iff_exists.mp (Option.isNone_eq_false_iff.mp succeeded)
  obtain ⟨⟨modTime, content, resolved, rfl⟩, opens, stats, reads, kept⟩ :=
    (@sourceHash_processDebFile_iff lib call (path, node) hash).mp noted
  rintro _ ⟨_, _, sameNode, rfl⟩
  rw [sameNode] at resolved
  cases resolved
  simp only [cacheAfter, sameNode, opens, stats, reads, Bool.false_or]
  cases cached : has (lib.sha256 content) call.atCheck with
  | true =>
    rw [Bool.true_or, if_pos rfl, ← current]
    exact cached
  | false =>
    rw [cached] at kept
    obtain ⟨seeks, stored⟩ := kept.resolve_left Bool.false_ne_true
    rw [seeks, Bool.false_or, if_neg Bool.false_ne_true]
    exact (readable_of_put stored).1

theorem IsCached.next (cached : IsCached lib state.cache node)
    (keeps : DeletesNothing lib state event) :
    IsCached lib (Incremental.next lib state event).cache node :=
  fun hash hasHash => keeps hash (cached hash hasHash)

/-! ## The invariant -/

/-- The files older than the saved time are cached, a run has loaded that time, and the files that a
run over an unchanged source has not imported are still to come. -/
structure Sound (lib : Libraries) (state : State source recursive) : Prop where
  old : ∀ lastSync ∈ loadSyncState state.saved source, OldCached lib lastSync state
  loaded : ∀ lastSync stable, state.phase = .loaded lastSync stable →
    lastSync = loadSyncState state.saved source
  pending : ∀ todo, state.phase = .importing todo false true →
    Direct state.tree.node ∧ ∀ file ∈ sourceFiles lib recursive state.arg,
      IsCached lib state.cache file.2 ∨ file.1 ∈ todo

/-- A state between runs is sound if the files older than the saved time are in the cache. -/
theorem sound_of_idle (idle : state.phase = .idle)
    (old : ∀ lastSync ∈ loadSyncState state.saved source, OldCached lib lastSync state) :
    Sound lib state where
  old := old
  loaded := by
    intro lastSync stable loaded
    rw [idle] at loaded
    cases loaded
  pending := by
    intro todo importing
    rw [idle] at importing
    cases importing

theorem disturb_ne_importing (phase : Phase) (todo : List Str) (failed : Bool) :
    phase.disturb ≠ .importing todo failed true := by
  cases phase with
  | idle | loaded time before => exact Phase.noConfusion
  | importing others missed before => simp [Phase.disturb]

section

variable (sound : Sound lib state)

include sound

theorem sound_load : Sound lib (next lib state .load) := by
  cases phase : state.phase with
  | idle =>
    simp only [next, phase]
    refine ⟨sound.old, ?_, ?_⟩
    · rintro lastSync stable ⟨⟩
      rfl
    · rintro todo ⟨⟩
  | loaded lastSync stable | importing todo failed stable => simpa only [next, phase] using sound

/-- After a scan that finds something, what is not in the cache is still to be imported. -/
theorem sound_scan (careful : Careful lib state .scan) : Sound lib (next lib state .scan) := by
  cases phase : state.phase with
  | idle | importing todo failed stable => simpa only [next, phase] using sound
  | loaded lastSync stable =>
    obtain ⟨readable, direct⟩ := careful
    simp only [next, phase, scan]
    split
    · exact sound_of_idle rfl sound.old
    · refine ⟨sound.old, ?_, ?_⟩
      · rintro time steady ⟨⟩
      · rintro todo ⟨⟩
        refine ⟨direct, fun file inSource => ?_⟩
        rcases mem_collected_or_isOlder readable direct inSource lastSync with
          found | ⟨time, isLoaded, before⟩
        · exact .inr (mem_map_of_mem found)
        · rw [sound.loaded lastSync true phase] at isLoaded
          exact .inl (sound.old time isLoaded file inSource before)

/-- An import either leaves its file in the cache or fails. -/
theorem sound_importFile {trouble : Trouble}
    (keeps : DeletesNothing lib state (.importFile path trouble)) :
    Sound lib (next lib state (.importFile path trouble)) := by
  cases phase : state.phase with
  | idle | loaded lastSync stable => simpa only [next, phase] using sound
  | importing todo failed stable =>
    by_cases listed : path ∈ todo
    · have stepEq : next lib state (.importFile path trouble) =
          importFile lib path trouble todo failed stable state := by
        simp only [next, phase, if_pos listed]
      have cachedBefore : ∀ node, IsCached lib state.cache node →
          IsCached lib (importFile lib path trouble todo failed stable state).cache node := by
        intro node cached
        rw [← stepEq]
        exact cached.next keeps
      rw [stepEq]
      refine ⟨fun lastSync saved file inSource before => ?_, ?_, ?_⟩
      · exact cachedBefore file.2 (sound.old lastSync saved file inSource before)
      · rintro lastSync steady ⟨⟩
      · intro rest importing
        simp only [importFile, Phase.importing.injEq, Bool.or_eq_false_iff] at importing
        obtain ⟨rfl, ⟨rfl, succeeded⟩, rfl⟩ := importing
        obtain ⟨direct, before⟩ := sound.pending todo phase
        refine ⟨direct, fun file inSource => ?_⟩
        by_cases same : file.1 = path
        · left
          subst same
          have found : state.tree.files.find? file.1 = some file.2 := by
            rw [← visitedFiles_eq_sourceFiles direct] at inSource
            exact Table.find?_eq_some_iff.mpr (mem_leaves_of_mem_visitedFiles inSource)
          rw [found] at succeeded
          have imported := isCached_cacheAfter rfl succeeded
          rwa [importFile, found]
        · rcases before file inSource with cached | waiting
          · exact .inl (cachedBefore file.2 cached)
          · exact .inr ((mem_erase_of_ne same).mpr waiting)
    · simpa only [next, phase, if_neg listed] using sound

/-- A run that has imported all it found without failure has every file in the cache. -/
theorem allCached_of_imported (phase : state.phase = .importing [] false true) :
    AllCached lib state := by
  intro file inSource
  rcases (sound.pending [] phase).2 file inSource with cached | waiting
  · exact cached
  · cases waiting

/-- A run that finds nothing to import has every file in the cache. -/
theorem allCached_of_collected {lastSync : Option Int} {stable : Bool}
    (phase : state.phase = .loaded lastSync stable) (careful : Careful lib state .scan)
    (nothing : (collected lib lastSync state).isEmpty = true) : AllCached lib state := by
  intro file inSource
  rcases mem_collected_or_isOlder careful.1 careful.2 inSource lastSync with
    found | ⟨time, isLoaded, before⟩
  · rw [isEmpty_iff.mp nothing] at found
    cases found
  · rw [sound.loaded lastSync stable phase] at isLoaded
    exact sound.old time isLoaded file inSource before

/-- The saved time is one before which every file is in the cache. -/
theorem sound_save {now : Int} {saving : Saving} (careful : Careful lib state (.save now saving)) :
    Sound lib (next lib state (.save now saving)) := by
  cases phase : state.phase with
  | idle | loaded lastSync stable => simpa only [next, phase] using sound
  | importing todo failed stable =>
    cases todo with
    | cons path rest => simpa only [next, phase] using sound
    | nil =>
      simp only [next, phase]
      refine sound_of_idle rfl ?_
      cases saving with
      | failed => exact sound.old
      | torn => rintro lastSync ⟨⟩
      | written =>
        intro lastSync isSaved
        obtain rfl : now = lastSync := by
          simpa [saveSyncState, loadSyncState] using isSaved
        by_cases flawed : state.phase.isFlawed = true
        · exact careful rfl flawed
        · obtain ⟨rfl, rfl⟩ : failed = false ∧ stable = true := by
            simpa [phase, Phase.isFlawed] using flawed
          exact fun file inSource _ => allCached_of_imported sound phase file inSource

theorem sound_next (keeps : DeletesNothing lib state event) (careful : Careful lib state event) :
    Sound lib (next lib state event) := by
  cases event with
  | change tree =>
    refine ⟨careful, fun lastSync stable loaded => ?_, fun todo importing => ?_⟩
    · cases phase : state.phase with
      | loaded time before =>
        simp only [next, phase, Phase.disturb, Phase.loaded.injEq] at loaded
        exact sound.loaded lastSync before (phase.trans (by rw [loaded.1]))
      | _ => simp [next, phase, Phase.disturb] at loaded
    · exact absurd importing (disturb_ne_importing state.phase todo false)
  | load => exact sound_load sound
  | scan => exact sound_scan sound careful
  | importFile path trouble => exact sound_importFile sound keeps
  | save now saving => exact sound_save sound careful
  | interrupt => exact sound_of_idle rfl sound.old

/-- A run that completes in a sound state leaves every file in the cache. -/
theorem allCached_next (careful : Careful lib state event) (completes : Completes lib state event) :
    AllCached lib (next lib state event) := by
  cases event with
  | scan =>
    obtain ⟨lastSync, phase, nothing⟩ := completes
    have cached := allCached_of_collected sound phase careful nothing
    simp only [next, phase]
    exact cached
  | save now saving =>
    have phase : state.phase = .importing [] false true := completes
    have cached := allCached_of_imported sound phase
    simp only [next, phase]
    exact cached
  | _ => exact completes.elim

end

/-! ## Room in the cache -/

/-- What is imported fits into the cache beside what is there. -/
def Roomy (state : State source recursive) : Event source recursive → Prop
  | .importFile _ trouble => Cache.Fits trouble.reread.length state.cache
  | _ => True

instance (state : State source recursive) (event : Event source recursive) :
    Decidable (Roomy state event) := by
  cases event <;> unfold Roomy <;> infer_instance

theorem deletesNothing_of_roomy (lib : Libraries) (state : State source recursive)
    (event : Event source recursive) (roomy : Roomy state event) :
    DeletesNothing lib state event := by
  intro hash cached
  unfold next
  split
  · exact cached
  · exact cached
  · exact cached
  · split
    · change has hash (cacheAfter ..) = true
      unfold cacheAfter
      split
      · dsimp only
        split
        · exact cached
        · exact has_put_of_roomy roomy cached
      · exact cached
    · exact cached
  · exact cached
  · exact cached
  · exact cached

/-! ## Runs -/

/-- If nothing is deleted and the steps are careful, a run over an unchanged source in which no file
fails leaves every package file in the cache. -/
theorem allCached_of_careful (lib : Libraries) (tree : Tree source recursive)
    (cache : Cache.State) {before after : List (Event source recursive)}
    {event : Event source recursive}
    (keeps : StepsMeet (next lib) (DeletesNothing lib) (State.start tree cache)
      (before ++ event :: after))
    (careful : StepsMeet (next lib) (Careful lib) (State.start tree cache)
      (before ++ event :: after))
    (completes : Completes lib (run (next lib) (State.start tree cache) before) event) :
    AllCached lib (next lib (run (next lib) (State.start tree cache) before) event) :=
  event_of_stepsMeet (Sound lib)
    (fun _ _ sound allowed => sound_next sound allowed.1 allowed.2)
    (fun reached step => Completes lib reached step → AllCached lib (next lib reached step))
    (fun _ _ sound allowed => allCached_next sound allowed.2)
    (by exact ⟨nofun, nofun, nofun⟩) (keeps.and careful) completes

/-! ## Two files -/

/-- The hash of the content of a file. -/
def contentHash (lib : Libraries) (node : Node Str) : Option Str :=
  match node.resolve with
  | .file _ content => some (lib.sha256 content)
  | _ => none

theorem hasHash_iff {hash : Str} : HasHash lib node hash ↔ hash ∈ contentHash lib node := by
  unfold HasHash contentHash
  split
  · rename_i modTime content resolved
    simp [resolved]
  · rename_i notFile
    simp only [Option.mem_def, reduceCtorEq, iff_false]
    rintro ⟨modTime, content, resolved, -⟩
    exact notFile modTime content resolved

instance decidableIsCached (lib : Libraries) (cache : Cache.State) (node : Node Str) :
    Decidable (IsCached lib cache node) :=
  decidable_of_iff (∀ hash ∈ contentHash lib node, has hash cache = true)
    (forall_congr' fun _ => imp_congr_left hasHash_iff.symm)

instance decidableOldCached (lib : Libraries) (time : Int) (state : State source recursive) :
    Decidable (OldCached lib time state) :=
  inferInstanceAs (Decidable (∀ file ∈ sourceFiles lib recursive state.arg, _ → _))

instance decidableAllCached (lib : Libraries) (state : State source recursive) :
    Decidable (AllCached lib state) :=
  inferInstanceAs (Decidable (∀ file ∈ sourceFiles lib recursive state.arg,
    IsCached lib state.cache file.2))

instance decidableDirect (node : Node Str) : Decidable (Direct node) :=
  inferInstanceAs (Decidable (_ → _))

instance (lib : Libraries) (state : State source recursive) (event : Event source recursive) :
    Decidable (Careful lib state event) := by
  cases event <;> unfold Careful <;> infer_instance

/-- A directory with one package file. -/
def oneFile (modTime : Int) : Tree (ofAscii "pool") true where
  node := .directory true (.cons (ofAscii "a.deb") (.file modTime [1]) .nil)
  distinct := nodup_singleton _

def twoFiles (modTime otherTime : Int) : Tree (ofAscii "pool") true where
  node := .directory true
    (.cons (ofAscii "a.deb") (.file modTime [1])
      (.cons (ofAscii "b.deb") (.file otherTime [2]) .nil))
  distinct := by
    change [ofAscii "pool/a.deb", ofAscii "pool/b.deb"].Nodup
    decide +kernel

def importsFile (name : String) (content : Str) : Event (ofAscii "pool") true :=
  .importFile (join (ofAscii "pool") (ofAscii name)) { reread := content }

/-- One file and an empty cache. -/
def startWithOne (modTime : Int) : State (ofAscii "pool") true :=
  State.start (oneFile modTime)
    (Cache.State.opened 0 1000 0 Table.empty (fun _ => none) (fun _ => none))

/-- The second file is written when the first run is over. -/
def writtenBetween : List (Event (ofAscii "pool") true) :=
  [.load, .scan, importsFile "a.deb" [1], .save 100 .written, .change (twoFiles 50 150), .load,
    .scan, importsFile "b.deb" [2]]

/-- A file that is written between two runs is imported by the second. -/
theorem allCached_of_writtenBetween :
    AllCached plainLibraries
      (next plainLibraries (run (next plainLibraries) (startWithOne 50) writtenBetween)
        (.save 200 .written)) := by
  have roomy : StepsMeet (next plainLibraries) Roomy (startWithOne 50)
      (writtenBetween ++ [.save 200 .written]) := by
    decide +kernel
  have careful : StepsMeet (next plainLibraries) (Careful plainLibraries) (startWithOne 50)
      (writtenBetween ++ [.save 200 .written]) := by
    decide +kernel
  have imported : (run (next plainLibraries) (startWithOne 50) writtenBetween).phase =
      .importing [] false true := by
    decide +kernel
  exact allCached_of_careful plainLibraries _ _
    (roomy.mono (deletesNothing_of_roomy plainLibraries)) careful imported

/-- The second file is written after the scan of the first run, and before its end. -/
def writtenDuring : List (Event (ofAscii "pool") true) :=
  [.load, .scan, .change (twoFiles 10 20), importsFile "a.deb" [1], .save 30 .written, .load]

/-- A file written during a run is not imported by the next, whose saved time is later. -/
theorem not_allCached_of_writtenDuring :
    StepsMeet (next plainLibraries) (DeletesNothing plainLibraries) (startWithOne 10)
        (writtenDuring ++ [.scan]) ∧
      Completes plainLibraries (run (next plainLibraries) (startWithOne 10) writtenDuring)
        .scan ∧
      ¬ AllCached plainLibraries
        (next plainLibraries (run (next plainLibraries) (startWithOne 10) writtenDuring)
          .scan) := by
  have roomy : StepsMeet (next plainLibraries) Roomy (startWithOne 10)
      (writtenDuring ++ [.scan]) := by
    decide +kernel
  refine ⟨roomy.mono (deletesNothing_of_roomy plainLibraries), ⟨some 30, ?_, ?_⟩, ?_⟩
  · decide +kernel
  · decide +kernel
  · decide +kernel

end Debswarm.Seed.Incremental
