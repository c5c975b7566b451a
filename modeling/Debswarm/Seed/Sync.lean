import Debswarm.Cache.Eviction
import Debswarm.Seed.Core

/-!
# What a sync removes

Sync mode should remove the cached packages that are not in the source.  It removes those
that no import of this run came across, which is more: a file that is older than the last
sync, that lies below an argument with an unreadable entry, or whose import fails is in the
source, but its hash is not noted.  The results say exactly when nothing of the source is
lost.
-/

namespace Debswarm.Seed

open Cache File List Table Text

/-! ## What is in the source -/

/-- The package files of an argument, whatever their age and whether or not they can be
read. -/
def sourceFiles (lib : Libraries) (recursive : Bool) (arg : SourceArg) :
    List (Str × Node Str) :=
  match arg.node.resolve with
  | .directory readable entries =>
    (leaves (entersDirectory arg.path recursive) arg.path
      (.directory readable entries)).filter fun file => isDeb lib file.1
  | .file _ _ => if isDeb lib arg.path then [(arg.path, arg.node)] else []
  | _ => []

/-- A path names a file whose content has a hash. -/
def HasHash (lib : Libraries) (node : Node Str) (hash : Str) : Prop :=
  ∃ modTime content, node.resolve = .file modTime content ∧ lib.sha256 content = hash

/-- Some package file of the arguments has the hash. -/
def InSource (lib : Libraries) (run : ImportRun) (hash : Str) : Prop :=
  ∃ arg ∈ run.args, ∃ file ∈ sourceFiles lib run.options.recursive arg, HasHash lib file.2 hash

/-- A package loses its row or its file. -/
def Loses (before after : Cache.State) (hash : Str) : Prop :=
  (before.packages.find? hash ≠ none ∧ after.packages.find? hash = none) ∨
    (before.files hash ≠ none ∧ after.files hash = none)

/-- An import run deletes no package that is in the source. -/
def SparesSource (lib : Libraries) (run : ImportRun) : Prop :=
  ∀ hash, Loses run.cache (runSingleImport lib run).cache hash → ¬ InSource lib run hash

/-! ## What the imports come across -/

/-- The package files that a walk meets, which follows no links. -/
def visitedFiles (lib : Libraries) (recursive : Bool) (arg : SourceArg) :
    List (Str × Node Str) :=
  match arg.node.resolve with
  | .directory _ _ =>
    (leaves (entersDirectory arg.path recursive) arg.path arg.node).filter fun file =>
      isDeb lib file.1
  | .file _ _ => if isDeb lib arg.path then [(arg.path, arg.node)] else []
  | _ => []

/-- Whether an argument exists and nothing unreadable is met in it. -/
def isReadable (recursive : Bool) (arg : SourceArg) : Bool :=
  match arg.node.resolve with
  | .directory _ _ => walkable (entersDirectory arg.path recursive) arg.path arg.node
  | .file _ _ => true
  | _ => false

/-- The time compared with the last sync: that of an argument's file, or else of the link. -/
def comparedTime (arg : SourceArg) (file : Str × Node Str) : Int :=
  if arg.node.resolve.isDirectory then file.2.modTime else file.2.resolve.modTime

/-- A package file in a readable argument that is not older than the last sync. -/
def Selected (lib : Libraries) (run : ImportRun) (arg : SourceArg) (file : Str × Node Str) :
    Prop :=
  file ∈ visitedFiles lib run.options.recursive arg ∧
    isReadable run.options.recursive arg = true ∧
    isOlder run.lastSync (comparedTime arg file) = false

/-- A file is read, and its package is in the cache already or stored. -/
def Imports (lib : Libraries) (call : ImportCall) (file : Str × Node Str) (hash : Str) : Prop :=
  HasHash lib file.2 hash ∧ call.openFails = false ∧ call.statFails = false ∧
    call.readFails = false ∧
    (has hash call.atCheck = true ∨ call.seekFails = false ∧
      (put lib call.faults call.pendingPath call.reread hash (pathBase file.1)
        call.atStore).1 = .ok)

/-- The package is listed and not read, and its file or, without one, its row can be removed. -/
def Removable (run : ImportRun) (hash : Str) : Prop :=
  run.listFails = false ∧ run.cache.packages.find? hash ≠ none ∧
    run.cache.activeReaders hash = 0 ∧ run.faults.remove hash = false ∧
    (run.cache.files hash ≠ none ∨ run.faults.deleteRow hash = false)

/-- If the run takes up anything, it imports a file of every removable package of the source. -/
def AccountsForSource (lib : Libraries) (run : ImportRun) : Prop :=
  (∃ arg ∈ run.args, ∃ file, Selected lib run arg file) →
    ∀ hash, Removable run hash → InSource lib run hash →
      ∃ arg ∈ run.args, ∃ file, Selected lib run arg file ∧
        Imports lib (arg.calls file.1) file hash

/-! ## Collecting -/

variable {lib : Libraries} {run : ImportRun} {hash : Str} {faults : Cache.Faults}
  {cache : Cache.State}

theorem mem_collectLeaf_iff {modifiedAfter : Option Int} {file leaf : Str × Node Str} :
    file ∈ collectLeaf lib modifiedAfter leaf.1 leaf.2 ↔
      file = leaf ∧ isDeb lib leaf.1 = true ∧ isOlder modifiedAfter leaf.2.modTime = false := by
  simp [collectLeaf, and_comm]

/-- A walk that meets nothing unreadable collects the package files since the last sync. -/
theorem mem_collectDebFiles {lib : Libraries} {recursive : Bool} {modifiedAfter : Option Int}
    {arg : SourceArg} {file : Str × Node Str} :
    file ∈ (collectDebFiles lib recursive modifiedAfter arg.path arg.node).getD [] ↔
      file ∈ visitedFiles lib recursive arg ∧ isReadable recursive arg = true ∧
        isOlder modifiedAfter (comparedTime arg file) = false := by
  unfold collectDebFiles visitedFiles isReadable comparedTime
  cases resolved : arg.node.resolve with
  | missing => simp
  | link modTime target => exact absurd resolved (arg.node.resolve_ne_link modTime target)
  | file modTime content =>
    simp only [Option.getD_some, List.mem_ite_nil_right, List.mem_singleton, Bool.and_eq_true,
      Bool.not_eq_true', Node.isDirectory, Bool.false_eq_true, if_false, true_and]
    constructor
    · rintro ⟨⟨isPackage, recent⟩, rfl⟩
      refine ⟨⟨isPackage, rfl⟩, ?_⟩
      rwa [resolved]
    · rintro ⟨⟨isPackage, rfl⟩, recent⟩
      rw [resolved] at recent
      exact ⟨⟨isPackage, recent⟩, rfl⟩
  | directory readable entries =>
    obtain ⟨stops, collects⟩ := walk_collector
      (entersDirectory arg.path recursive) (collectLeaf lib modifiedAfter) arg.path arg.node []
    cases walked : walkable (entersDirectory arg.path recursive) arg.path arg.node with
    | false => simp [stops walked]
    | true =>
      rw [collects walked]
      have going : (if arg.node.isDirectory &&
          !entersDirectory arg.path recursive arg.path then Signal.skipDir
          else Signal.proceed) ≠ .stop := by
        split <;> exact Signal.noConfusion
      dsimp only
      rw [if_neg going]
      simp only [Option.getD_some, List.nil_append, List.mem_flatMap,
        mem_collectLeaf_iff, List.mem_filter, Node.isDirectory, if_true, true_and]
      constructor
      · rintro ⟨leaf, met, rfl, isPackage, recent⟩
        exact ⟨⟨met, isPackage⟩, recent⟩
      · rintro ⟨⟨met, isPackage⟩, recent⟩
        exact ⟨file, met, rfl, isPackage, recent⟩

theorem mem_collectDebFiles_iff {arg : SourceArg} {file : Str × Node Str} :
    file ∈ (collectDebFiles lib run.options.recursive run.lastSync arg.path arg.node).getD [] ↔
      Selected lib run arg file :=
  mem_collectDebFiles

/-! ## Importing -/

theorem sourceHash_failed (path : Str) {reason : ImportError} (failed : reason ≠ .alreadyCached) :
    (ImportResult.failed path reason).sourceHash = none := by
  unfold ImportResult.sourceHash
  split
  · rename_i noError
    cases noError
  · rename_i cached
    exact absurd (Option.some.inj cached) failed
  · rfl

/-- An import notes a hash exactly if the file has it and is imported. -/
theorem sourceHash_processDebFile_iff {lib : Libraries} {call : ImportCall}
    {file : Str × Node Str} {hash : Str} :
    (processDebFile lib false call file.1 file.2).sourceHash = some hash ↔
      Imports lib call file hash := by
  unfold processDebFile Imports HasHash
  cases resolved : file.2.resolve with
  | missing => simp [sourceHash_failed]
  | link modTime target => exact absurd resolved (file.2.resolve_ne_link modTime target)
  | directory readable entries => simp [sourceHash_failed]
  | file modTime content =>
    have unique : (∃ time text, Node.file modTime content = .file time text ∧
        lib.sha256 text = hash) ↔ lib.sha256 content = hash := by
      constructor
      · rintro ⟨_, _, ⟨⟩, same⟩
        exact same
      · intro same
        exact ⟨modTime, content, rfl, same⟩
    rw [unique]
    dsimp only
    split
    · rename_i fails
      simp [sourceHash_failed, fails]
    · rename_i opens
      split
      · rename_i fails
        simp [sourceHash_failed, fails]
      · rename_i stats
        split
        · rename_i fails
          simp [sourceHash_failed, fails]
        · rename_i reads
          rw [if_neg Bool.false_ne_true]
          simp only [Bool.not_eq_true] at opens stats reads
          simp only [opens, stats, reads, true_and]
          by_cases same : lib.sha256 content = hash
          · subst same
            split
            · rename_i cached
              simp [ImportResult.sourceHash, cached]
            · rename_i absent
              split
              · rename_i fails
                simp [sourceHash_failed, fails, absent]
              · rename_i seeks
                split
                · rename_i stored
                  simp [ImportResult.sourceHash, seeks, stored]
                · rename_i refused
                  simp [sourceHash_failed, absent, refused]
          · split
            · simp [ImportResult.sourceHash, same]
            · split
              · simp [sourceHash_failed, same]
              · split
                · simp [ImportResult.sourceHash, same]
                · simp [sourceHash_failed, same]

/-- The hashes that an import run notes are those that it imports from the files it takes
up. -/
theorem mem_sourceHashes_iff (real : run.options.dryRun = false) :
    hash ∈ (run.args.flatMap (importArg lib run.options run.lastSync)).filterMap
        ImportResult.sourceHash ↔
      ∃ arg ∈ run.args, ∃ file, Selected lib run arg file ∧
        Imports lib (arg.calls file.1) file hash := by
  simp only [List.mem_filterMap, List.mem_flatMap, importArg, List.mem_map, real]
  constructor
  · rintro ⟨result, ⟨arg, given, file, collected, rfl⟩, noted⟩
    exact ⟨arg, given, file, mem_collectDebFiles_iff.mp collected,
      sourceHash_processDebFile_iff.mp noted⟩
  · rintro ⟨arg, given, file, selected, imported⟩
    exact ⟨_, ⟨arg, given, file, mem_collectDebFiles_iff.mpr selected, rfl⟩,
      sourceHash_processDebFile_iff.mpr imported⟩

/-- There is something to import exactly if the run takes up some file. -/
theorem results_ne_nil_iff :
    run.args.flatMap (importArg lib run.options run.lastSync) ≠ [] ↔
      ∃ arg ∈ run.args, ∃ file, Selected lib run arg file := by
  constructor
  · intro some
    obtain ⟨result, mem⟩ := List.exists_mem_of_ne_nil _ some
    simp only [List.mem_flatMap, importArg, List.mem_map] at mem
    obtain ⟨arg, given, file, collected, -⟩ := mem
    exact ⟨arg, given, file, mem_collectDebFiles_iff.mp collected⟩
  · rintro ⟨arg, given, file, selected⟩
    apply List.ne_nil_of_mem
    apply List.mem_flatMap_of_mem given
    exact List.mem_map_of_mem (mem_collectDebFiles_iff.mpr selected)

/-! ## Removing -/

theorem mem_list_iff :
    hash ∈ (list faults cache).1.map Prod.fst ↔ cache.packages.find? hash ≠ none := by
  have sameKeys := keys_applyBatch faults cache.pendingAccess cache.packages
  rw [ne_eq, Table.find?_eq_none_iff, not_not, ← sameKeys]
  simp only [list, List.mem_map, Table.mem_select_iff, and_true]
  rfl

theorem removeAbsent_cache_cons (faults : Cache.Faults) (sourceHashes : List Str) (hash : Str)
    (rest : List Str) (cache : Cache.State) :
    (removeAbsent faults false sourceHashes (hash :: rest) cache).cache =
      (removeAbsent faults false sourceHashes rest
        (if hash ∈ sourceHashes then cache else (delete faults hash cache).2)).cache := by
  simp only [removeAbsent, Bool.false_eq_true, if_false]
  split
  · rfl
  · split
    · rename_i deleteEq
      rw [deleteEq]
    · rename_i deleteEq
      rw [deleteEq]

/-- A removal pass takes the listed packages not among the hashes, as far as it can. -/
theorem removeAbsent_at (faults : Cache.Faults) (sourceHashes listed : List Str) (hash : Str)
    (cache : Cache.State) :
    (removeAbsent faults false sourceHashes listed cache).cache.files hash =
        (if (hash ∈ listed ∧ hash ∉ sourceHashes) ∧ cache.activeReaders hash = 0 ∧
          faults.remove hash = false then none
        else cache.files hash) ∧
      (removeAbsent faults false sourceHashes listed cache).cache.packages.find? hash =
        if (hash ∈ listed ∧ hash ∉ sourceHashes) ∧ cache.activeReaders hash = 0 ∧
          faults.remove hash = false ∧ faults.deleteRow hash = false then none
        else cache.packages.find? hash := by
  induction listed generalizing cache with
  | nil => simp [removeAbsent]
  | cons target rest ih =>
    rw [removeAbsent_cache_cons]
    by_cases noted : target ∈ sourceHashes
    · have mem : (hash ∈ target :: rest ∧ hash ∉ sourceHashes) ↔
          (hash ∈ rest ∧ hash ∉ sourceHashes) := by
        constructor
        · rintro ⟨listed, absent⟩
          rcases mem_cons.mp listed with rfl | later
          · exact absurd noted absent
          · exact ⟨later, absent⟩
        · rintro ⟨later, absent⟩
          exact ⟨mem_cons_of_mem _ later, absent⟩
      rw [if_pos noted]
      simp only [mem]
      exact ih cache
    · have readers : (Cache.delete faults target cache).2.activeReaders = cache.activeReaders :=
        (Cache.shrinks_deleteUnlocked faults target none cache).activeReaders
      obtain ⟨files, rows⟩ := ih (Cache.delete faults target cache).2
      rw [if_neg noted, files, rows, readers, Cache.delete, Cache.deleteUnlocked_files,
        Cache.deleteUnlocked_find?]
      by_cases same : hash = target
      · subst same
        -- a second listing of the package finds nothing more to delete
        by_cases reached : cache.activeReaders hash = 0 ∧ faults.remove hash = false
        · by_cases keepsRow : faults.deleteRow hash = true <;> simp [noted, reached, keepsRow]
        · have notRow : ¬ (cache.activeReaders hash = 0 ∧ faults.remove hash = false ∧
              faults.deleteRow hash = false) :=
            fun all => reached ⟨all.1, all.2.1⟩
          simp [reached, notRow]
      · simp [same]

/-- Writing access records neither adds nor removes packages. -/
theorem find?_list_eq_none_iff :
    (list faults cache).2.packages.find? hash = none ↔ cache.packages.find? hash = none := by
  rw [find?_eq_none_iff, find?_eq_none_iff,
    ← keys_applyBatch faults cache.pendingAccess cache.packages]
  rfl

theorem not_loses_self (cache : Cache.State) (hash : Str) : ¬ Loses cache cache hash := by
  rintro (⟨found, gone⟩ | ⟨present, gone⟩)
  · exact found gone
  · exact present gone

theorem loses_runSyncRemoval_iff {listFails : Bool} {sourceHashes : List Str} :
    Loses cache (runSyncRemoval faults listFails false sourceHashes cache).cache hash ↔
      hash ∉ sourceHashes ∧ listFails = false ∧ cache.packages.find? hash ≠ none ∧
        cache.activeReaders hash = 0 ∧ faults.remove hash = false ∧
        (cache.files hash ≠ none ∨ faults.deleteRow hash = false) := by
  have sameFiles : (list faults cache).2.files = cache.files := rfl
  have sameReaders : (list faults cache).2.activeReaders = cache.activeReaders := rfl
  unfold runSyncRemoval
  dsimp only
  split
  · rename_i fails
    simp only [Loses, sameFiles, find?_list_eq_none_iff, fails]
    constructor
    · intro loses
      exact absurd loses (not_loses_self cache hash)
    · rintro ⟨-, impossible, -⟩
      cases impossible
  · rename_i lists
    obtain ⟨files, rows⟩ := removeAbsent_at faults sourceHashes
      ((list faults cache).1.map Prod.fst) hash (list faults cache).2
    simp only [Loses, files, rows, ite_eq_left_iff, mem_list_iff, sameReaders, sameFiles,
      find?_list_eq_none_iff, lists]
    constructor
    · rintro (⟨found, gone⟩ | ⟨present, gone⟩)
      · obtain ⟨⟨-, absent⟩, idle, removed, dropped⟩ := not_not.mp fun kept => found (gone kept)
        exact ⟨absent, trivial, found, idle, removed, .inr dropped⟩
      · obtain ⟨⟨found, absent⟩, idle, removed⟩ := not_not.mp fun kept => present (gone kept)
        exact ⟨absent, trivial, found, idle, removed, .inl present⟩
    · rintro ⟨absent, -, found, idle, removed, present | dropped⟩
      · exact .inr ⟨present, fun kept => absurd ⟨⟨found, absent⟩, idle, removed⟩ kept⟩
      · exact .inl ⟨found, fun kept => absurd ⟨⟨found, absent⟩, idle, removed, dropped⟩ kept⟩

/-- A run loses a package iff it takes up some file, gets at it and imports none with its hash. -/
theorem loses_iff (sync : run.options.syncMode = true) (real : run.options.dryRun = false) :
    Loses run.cache (runSingleImport lib run).cache hash ↔
      (∃ arg ∈ run.args, ∃ file, Selected lib run arg file) ∧ Removable run hash ∧
        ¬ ∃ arg ∈ run.args, ∃ file, Selected lib run arg file ∧
          Imports lib (arg.calls file.1) file hash := by
  rw [← results_ne_nil_iff, ← mem_sourceHashes_iff real]
  by_cases nothing : run.args.flatMap (importArg lib run.options run.lastSync) = []
  · simp only [runSingleImport, nothing, if_true]
    constructor
    · intro loses
      exact absurd loses (not_loses_self run.cache hash)
    · rintro ⟨impossible, -⟩
      exact absurd rfl impossible
  · simp only [runSingleImport, nothing, if_false, sync, if_true, real,
      loses_runSyncRemoval_iff, Removable]
    constructor
    · rintro ⟨absent, removable⟩
      exact ⟨nothing, removable, absent⟩
    · rintro ⟨-, removable, absent⟩
      exact ⟨absent, removable⟩

/-- A sync deletes nothing of the source exactly if it accounts for the source. -/
theorem sparesSource_iff_accountsForSource (lib : Libraries) (run : ImportRun)
    (sync : run.options.syncMode = true) (real : run.options.dryRun = false) :
    SparesSource lib run ↔ AccountsForSource lib run := by
  unfold SparesSource AccountsForSource
  constructor
  · intro spares takesUp hash removable inSource
    by_contra unnoted
    exact spares hash ((loses_iff sync real).mpr ⟨takesUp, removable, unnoted⟩) inSource
  · intro accounts hash loses inSource
    obtain ⟨takesUp, removable, unnoted⟩ := (loses_iff sync real).mp loses
    exact unnoted (accounts takesUp hash removable inSource)

/-! ## A source of two packages -/

/-- Library functions under which runs can be evaluated. -/
def plainLibraries : Libraries :=
  ⟨hexEncode64, id⟩

/-- Store a package under the name of a file. -/
def stock (content : Str) (filename : String) (cache : Cache.State) : Cache.State :=
  (put plainLibraries {} (ofAscii "pending/1") content (hexEncode64 content)
    (ofAscii filename) cache).2

/-- A cache with a package that is in the source and one that is not. -/
def stockedCache : Cache.State :=
  stock [1] "a.deb" (stock [3] "c.deb"
    (Cache.State.opened 0 1000 0 empty (fun _ => none) (fun _ => none)))

/-- The import of a directory with an old file, which is cached, and a new one, which is
not. -/
def smallSync (incremental : Bool) : ImportRun where
  options := ⟨true, true, false, incremental⟩
  source :=
    { path := ofAscii "pool"
      node := .directory true
        (.cons (ofAscii "a.deb") (.file 5 [1]) (.cons (ofAscii "b.deb") (.file 20 [2]) .nil))
      calls := fun _ =>
        { openFails := false
          statFails := false
          readFails := false
          atCheck := stockedCache
          seekFails := false
          reread := [2]
          atStore := stockedCache
          faults := {}
          pendingPath := ofAscii "pending/1" } }
  others := []
  saved := some ⟨10, ofAscii "pool"⟩
  now := 30
  saveFails := false
  cache := stock [2] "b.deb" stockedCache
  faults := {}
  listFails := false

theorem sourceFiles_smallSync (incremental : Bool) :
    sourceFiles plainLibraries true (smallSync incremental).source =
      [(ofAscii "pool/a.deb", .file 5 [1]), (ofAscii "pool/b.deb", .file 20 [2])] := by
  rfl

theorem accountsForSource_smallSync : AccountsForSource plainLibraries (smallSync false) := by
  rintro - hash - ⟨arg, given, file, inArg, modTime, content, resolved, rfl⟩
  rcases mem_singleton.mp given with rfl
  have selected : Selected plainLibraries (smallSync false) (smallSync false).source file :=
    ⟨inArg, rfl, rfl⟩
  refine ⟨_, given, file, selected, ⟨modTime, content, resolved, rfl⟩, rfl, rfl, rfl, ?_⟩
  have listed := (sourceFiles_smallSync false) ▸ inArg
  rcases mem_cons.mp listed with rfl | later
  · cases resolved
    left
    decide +kernel
  · rcases mem_singleton.mp later with rfl
    cases resolved
    right
    exact ⟨rfl, by decide +kernel⟩

/-- The full sync deletes the package that is not in the source, and nothing of the
source. -/
theorem sparesSource_of_full_sync :
    Loses (smallSync false).cache (runSingleImport plainLibraries (smallSync false)).cache
        (hexEncode64 [3]) ∧
      SparesSource plainLibraries (smallSync false) := by
  constructor
  · right
    constructor <;> decide +kernel
  · exact (sparesSource_iff_accountsForSource plainLibraries (smallSync false) rfl rfl).mpr
      accountsForSource_smallSync

/-- The incremental sync leaves out the old file and deletes its package. -/
theorem not_sparesSource_of_incremental : ¬ SparesSource plainLibraries (smallSync true) := by
  intro spares
  apply spares (hexEncode64 [1])
  · right
    constructor <;> decide +kernel
  · refine ⟨_, mem_cons_self, (ofAscii "pool/a.deb", .file 5 [1]), ?_, 5, [1], rfl, rfl⟩
    exact (sourceFiles_smallSync true).symm ▸ mem_cons_self

end Debswarm.Seed
