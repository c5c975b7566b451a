import Debswarm.PackageIndex.Artifacts

/-!
# What backs a loaded index file

An index file counts as loaded while its generation is not empty, and a 304 is relayed on the
strength of that.  A load installs its generation before it looks at the reading error, and a
load that stops at the limit on decompressed bytes or on entries reports success.  This module
says for which loads every generation is the complete parse of a body whose load succeeded.
-/

namespace Debswarm.PackageIndex

open List Text Transition

section

variable {repo : Str} {limit : Nat}

theorem length_blocks_le (lines : List Str) : (blocks lines).length ≤ lines.length + 1 := by
  unfold blocks
  induction lines with
  | nil => simp
  | cons line rest ih =>
    rw [splitOnP_cons_eq_if_modifyHead]
    split
    · simpa using ih
    · rw [length_modifyHead]
      exact ih.trans (Nat.le_succ _)

theorem completedStanzas_le_length (lines : List Str) : completedStanzas lines ≤ lines.length := by
  have few : (stanzasOf (blocks lines).dropLast).length ≤ (blocks lines).length - 1 := by
    refine (length_filter_le _ _).trans ?_
    rw [length_dropLast]
  have blockCount := length_blocks_le lines
  unfold completedStanzas
  exact countP_le_length.trans (few.trans (by omega))

/-! ## Complete listings -/

/-- The entries of a text under a limit that its lines cannot reach. -/
def completeListing (kind : Kind) (repo : Str) (lines : List Str) (nextAddr : Nat) :
    List PackageInfo :=
  listing kind (lines.length + 1) repo lines nextAddr

theorem completeListing_sources (repo : Str) (lines : List Str) (nextAddr : Nat) :
    completeListing .sources repo lines nextAddr =
      sourceEntries repo nextAddr (blocks lines) := by
  rw [completeListing, listing_sources_eq_take (Nat.le_add_left 1 _),
    take_of_length_le ((length_sourceEntries_le ..).trans (Nat.le_succ _))]

/-- Every limit above the number of entries gives the complete parse. -/
theorem listing_eq_completeListing {kind : Kind} {lines : List Str} {nextAddr : Nat}
    (below : (completeListing kind repo lines nextAddr).length < limit) :
    listing kind limit repo lines nextAddr = completeListing kind repo lines nextAddr := by
  cases kind with
  | sources =>
    rw [completeListing_sources] at below ⊢
    rw [listing_sources_eq_take (Nat.one_le_of_lt below), take_of_length_le below.le]
  | packages =>
    have complete : completeListing .packages repo lines nextAddr =
        stanzaEntries repo nextAddr (stanzasOf (blocks lines)) :=
      listing_packages_of_lt (Nat.lt_succ_of_le (completedStanzas_le_length lines)) repo nextAddr
    rw [complete, length_stanzaEntries] at below
    rw [complete]
    exact listing_packages_of_lt ((completedStanzas_le lines).trans_lt below) repo nextAddr

theorem bareAll_completeListing (kind : Kind) (lines : List Str) (nextAddr otherAddr : Nat) :
    bareAll (completeListing kind repo lines nextAddr) =
      bareAll (completeListing kind repo lines otherAddr) :=
  bareAll_listing kind _ repo lines nextAddr otherAddr

end

/-! ## Opening a body -/

/-- How a body is compressed. -/
inductive Compression
  | plain
  | gzip
  | xz
  | zstd
  | lz4
  | bzip2
  deriving DecidableEq, Repr

/-- The decompressors of streams, which are bytes and whether they break off after them. -/
structure StreamDecompressors where
  gzip : Str × Bool → Option (Str × Bool)
  xz : Str × Bool → Option (Str × Bool)
  zstd : Str × Bool → Option (Str × Bool)
  lz4 : Str × Bool → Str × Bool
  bzip2 : Str × Bool → Str × Bool

/-- The decompressors of bodies in memory, which do not break off. -/
def StreamDecompressors.inMemory (decompressors : StreamDecompressors) : Decompressors where
  gzip data := decompressors.gzip (data, false)
  xz data := decompressors.xz (data, false)
  zstd data := decompressors.zstd (data, false)
  lz4 data := decompressors.lz4 (data, false)

/-- The compression that the first bytes of a body tell. -/
def compressionByMagic (data : Str) : Compression :=
  if [0x1f, 0x8b].isPrefixOf data then .gzip
  else if [0xfd, 55, 122, 88, 90, 0].isPrefixOf data then .xz
  else if [0x28, 0xb5, 0x2f, 0xfd].isPrefixOf data then .zstd
  else if [0x04, 0x22, 0x4d, 0x18].isPrefixOf data then .lz4
  else .plain

/-- The compression that the name of a file tells. -/
def compressionByName (name : Str) : Compression :=
  if hasSuffix name (ofAscii ".gz") then .gzip
  else if hasSuffix name (ofAscii ".xz") then .xz
  else if hasSuffix name (ofAscii ".lz4") then .lz4
  else if hasSuffix name (ofAscii ".bz2") then .bzip2
  else if hasSuffix name (ofAscii ".zst") then .zstd
  else .plain

/-- All that comes out of a stream, or nothing if it cannot be opened. -/
def decompress (decompressors : StreamDecompressors) (compression : Compression)
    (stream : Str × Bool) : Option (Str × Bool) :=
  match compression with
  | .plain => some stream
  | .gzip => decompressors.gzip stream
  | .xz => decompressors.xz stream
  | .zstd => decompressors.zstd stream
  | .lz4 => some (decompressors.lz4 stream)
  | .bzip2 => some (decompressors.bzip2 stream)

/-- What is read of it: the size of decompressed text is limited. -/
def Compression.read (compression : Compression) (text : Str × Bool) : Str × Bool :=
  match compression with
  | .plain => text
  | _ => limitText text

theorem decompressByMagic_eq (decompressors : StreamDecompressors) (data : Str) :
    decompressByMagic decompressors.inMemory data =
      (decompress decompressors (compressionByMagic data) (data, false)).map
        (compressionByMagic data).read := by
  unfold decompressByMagic compressionByMagic
  split
  · rfl
  · split
    · rfl
    · split
      · rfl
      · split <;> rfl

/-- The text of a stream whose compression is told by its name. -/
def decompressByName (decompressors : StreamDecompressors) (stream : Str × Bool) (name : Str) :
    Option (Str × Bool) :=
  (decompress decompressors (compressionByName name) stream).map (compressionByName name).read

/-- Load a file, or the body of a response, for a repository. -/
def loadFromStream (decompressors : StreamDecompressors) (kind : Kind) (limit : Nat)
    (stream : Str × Bool) (name repo : Str) (index : Index) : Bool × Index :=
  match decompressByName decompressors stream name with
  | none => (false, index)
  | some (text, broken) => parseForRepo kind limit text broken repo (indexFileKey name) index

/-! ## Loads -/

/-- A load of a body in memory that was served under a URL, or of a stream with a name. -/
inductive Load
  | data (kind : Kind) (body url : Str)
  | stream (kind : Kind) (body : Str × Bool) (name repo : Str)

namespace Load

/-- The kind of the index file. -/
def kind : Load → Kind
  | data kind _ _ => kind
  | stream kind _ _ _ => kind

/-- The URL or path of the index file. -/
def name : Load → Str
  | data _ _ url => url
  | stream _ _ name _ => name

def repo : Load → Str
  | data _ _ url => extractRepoFromURL url
  | stream _ _ _ repo => repo

def compression : Load → Compression
  | data _ body _ => compressionByMagic body
  | stream _ _ name _ => compressionByName name

/-- All that comes out of the body. -/
def text (decompressors : StreamDecompressors) : Load → Option (Str × Bool)
  | data kind body url =>
    decompress decompressors (data kind body url).compression (body, false)
  | stream kind body name repo =>
    decompress decompressors (stream kind body name repo).compression body

/-- Perform a load; the flag says whether it succeeds. -/
def perform (decompressors : StreamDecompressors) (limit : Nat) (index : Index) :
    Load → Bool × Index
  | data kind body url => loadFromData decompressors.inMemory kind limit body url index
  | stream kind body name repo => loadFromStream decompressors kind limit body name repo index

end Load

variable {decompressors : StreamDecompressors} {limit : Nat}

/-- A load parses what is read of its body, unless it cannot be opened. -/
theorem perform_eq (load : Load) (index : Index) :
    load.perform decompressors limit index =
      match load.text decompressors with
      | none => (false, index)
      | some text =>
        parseForRepo load.kind limit (load.compression.read text).1
          (load.compression.read text).2 load.repo (indexFileKey load.name) index := by
  cases load with
  | data kind body url =>
    rw [Load.perform, loadFromData, decompressByMagic_eq]
    change _ = match decompress decompressors (compressionByMagic body) (body, false) with
      | none => _
      | some text => _
    cases decompress decompressors (compressionByMagic body) (body, false) <;> rfl
  | stream kind body name repo =>
    rw [Load.perform, loadFromStream, decompressByName]
    change _ = match decompress decompressors (compressionByName name) body with
      | none => _
      | some text => _
    cases decompress decompressors (compressionByName name) body <;> rfl

/-- The index, and the loads that succeeded. -/
structure Loads where
  index : Index
  succeeded : List Load

def Loads.start : Loads :=
  ⟨Index.new, []⟩

def Loads.next (decompressors : StreamDecompressors) (limit : Nat) (state : Loads) (load : Load) :
    Loads where
  index := (load.perform decompressors limit state.index).2
  succeeded :=
    if (load.perform decompressors limit state.index).1 then load :: state.succeeded
    else state.succeeded

/-- The complete parse of a body that does not break off. -/
def IsCompleteParse (decompressors : StreamDecompressors) (load : Load)
    (entries : List PackageInfo) : Prop :=
  ∃ text, load.text decompressors = some (text, false) ∧
    bareAll entries = bareAll (completeListing load.kind load.repo (wholeLines text) 0)

/-- Every loaded index file holds the complete parse of a body whose load succeeded. -/
def Backed (decompressors : StreamDecompressors) (state : Loads) : Prop :=
  ∀ urlOrPath, hasIndexFile state.index urlOrPath = true →
    ∃ load ∈ state.succeeded, indexFileKey load.name = indexFileKey urlOrPath ∧
      IsCompleteParse decompressors load (generation state.index (indexFileKey urlOrPath))

/-- The stream does not break off, and text, lines and entries stay below their limits. -/
structure ReadToEnd (limit : Nat) (load : Load) (text : Str × Bool) : Prop where
  unbroken : text.2 = false
  bytes : load.compression ≠ .plain → text.1.length < maxDecompressedBytes
  lines : (scanLines text.1).2 = false
  entries : (completeListing load.kind load.repo (wholeLines text.1) 0).length < limit

/-- A load that cannot be opened, one that is read to its end, or one that yields nothing. -/
def LeavesNoPart (decompressors : StreamDecompressors) (limit : Nat) (load : Load) : Prop :=
  ∀ text, load.text decompressors = some text →
    ReadToEnd limit load text ∨
      listing load.kind limit load.repo (scanLines (load.compression.read text).1).1 0 = []

/-! ## Runs -/

theorem ReadToEnd.read_eq {load : Load} {text : Str × Bool} (toEnd : ReadToEnd limit load text) :
    load.compression.read text = text := by
  have below := toEnd.bytes
  cases compression : load.compression with
  | plain => rfl
  | _ =>
    rw [compression] at below
    exact if_neg (not_le.mpr (below (by decide)))

theorem listing_eq_nil_of_bareAll {kind : Kind} {repo : Str} {lines : List Str}
    (nothing : listing kind limit repo lines 0 = []) (nextAddr : Nat) :
    listing kind limit repo lines nextAddr = [] := by
  have same := bareAll_listing kind limit repo lines nextAddr 0
  rw [nothing] at same
  exact map_eq_nil_iff.mp same

section ReadToEnd

variable {load : Load} {text : Str × Bool}

theorem ReadToEnd.listing_eq (toEnd : ReadToEnd limit load text) (nextAddr : Nat) :
    listing load.kind limit load.repo (scanLines (load.compression.read text).1).1 nextAddr =
      completeListing load.kind load.repo (wholeLines text.1) nextAddr := by
  have sameLength := congrArg length
    (@bareAll_completeListing load.repo load.kind (wholeLines text.1) nextAddr 0)
  simp only [bareAll, length_map] at sameLength
  rw [toEnd.read_eq, scanLines_eq_wholeLines toEnd.lines]
  refine listing_eq_completeListing ?_
  rw [sameLength]
  exact toEnd.entries

theorem ReadToEnd.succeeds (toEnd : ReadToEnd limit load text)
    (opened : load.text decompressors = some text) (index : Index) :
    (load.perform decompressors limit index).1 = true := by
  rw [perform_eq, opened]
  change (!((load.compression.read text).2 || (scanLines (load.compression.read text).1).2)) = true
  rw [toEnd.read_eq, toEnd.unbroken, toEnd.lines]
  rfl

end ReadToEnd

theorem backed_next (state : Loads) (load : Load)
    (inv : Consistent state.index ∧ Backed decompressors state)
    (leavesNoPart : LeavesNoPart decompressors limit load) :
    Consistent (state.next decompressors limit load).index ∧
      Backed decompressors (state.next decompressors limit load) := by
  obtain ⟨consistent, backed⟩ := inv
  have performed := @perform_eq decompressors limit load state.index
  cases opened : load.text decompressors with
  | none =>
    rw [opened] at performed
    have unchanged : state.next decompressors limit load = state := by
      rw [Loads.next, performed]
      rfl
    rw [unchanged]
    exact ⟨consistent, backed⟩
  | some text =>
    rw [opened] at performed
    dsimp only at performed
    have replaces := replaces_parseForRepo consistent load.kind limit
      (load.compression.read text).1 (load.compression.read text).2 load.repo
      (indexFileKey load.name)
    rw [← performed] at replaces
    refine ⟨replaces.consistent consistent, fun urlOrPath isLoaded => ?_⟩
    have isLoaded : generation (load.perform decompressors limit state.index).2
        (indexFileKey urlOrPath) ≠ [] := of_decide_eq_true isLoaded
    change ∃ other ∈ (state.next decompressors limit load).succeeded, _ ∧
      IsCompleteParse decompressors other (generation
        (load.perform decompressors limit state.index).2 (indexFileKey urlOrPath))
    rw [replaces.byIndexFile] at isLoaded ⊢
    by_cases sameFile : indexFileKey urlOrPath = indexFileKey load.name
    · rw [if_pos sameFile] at isLoaded ⊢
      rcases leavesNoPart text opened with toEnd | nothing
      · refine ⟨load, ?_, sameFile.symm, text.1, ?_, ?_⟩
        · rw [Loads.next, if_pos (toEnd.succeeds opened state.index)]
          exact mem_cons_self
        · rw [opened, ← toEnd.unbroken]
        · rw [toEnd.listing_eq]
          exact bareAll_completeListing load.kind (wholeLines text.1) _ 0
      · exact absurd (listing_eq_nil_of_bareAll nothing _) isLoaded
    · rw [if_neg sameFile] at isLoaded ⊢
      obtain ⟨other, otherMem, otherKey, complete⟩ :=
        backed urlOrPath (decide_eq_true isLoaded)
      refine ⟨other, ?_, otherKey, complete⟩
      rw [Loads.next]
      split
      · exact mem_cons_of_mem _ otherMem
      · exact otherMem

/-- If loads leave no part, the index files that count as loaded hold complete parses of bodies
whose loads succeeded. -/
theorem backed_throughout (loads : List Load)
    (leaveNoPart : ∀ load ∈ loads, LeavesNoPart decompressors limit load) (before : List Load)
    (isPrefix : before <+: loads) :
    Backed decompressors (run (Loads.next decompressors limit) .start before) := by
  have initial : Consistent Loads.start.index ∧ Backed decompressors .start := by
    refine ⟨consistent_clear Index.new, fun urlOrPath isLoaded => ?_⟩
    cases isLoaded
  have meets : StepsMeet (Loads.next decompressors limit)
      (fun _ load => LeavesNoPart decompressors limit load) .start before :=
    stepsMeet_of_forall (fun load mem => leaveNoPart load (isPrefix.subset mem)) Loads.start
  exact (run_invariant_of_stepsMeet _ backed_next initial meets).2

/-- Decompressors of which the one for gzip delivers a stanza and then breaks off. -/
def breakingDecompressors : StreamDecompressors where
  gzip _ := some (ofAscii "SHA256: aa\n\n", true)
  xz _ := none
  zstd _ := none
  lz4 stream := stream
  bzip2 stream := stream

/-- A plain body of two stanzas is backed. -/
theorem backed_of_plain_body :
    let load : Load := .data .packages (ofAscii "SHA256: aa\n\nSHA256: bb\n")
      (ofAscii "http://h/dists/s/Packages")
    Backed breakingDecompressors
      (run (Loads.next breakingDecompressors maxPackagesPerRepo) .start [load]) := by
  intro load
  have leaveNoPart : ∀ other ∈ [load],
      LeavesNoPart breakingDecompressors maxPackagesPerRepo other := by
    intro other mem text opened
    obtain rfl := mem_singleton.mp mem
    obtain rfl := Option.some.inj opened
    exact .inl ⟨by decide, by decide, by decide, by decide⟩
  exact backed_throughout _ leaveNoPart _ (prefix_refl _)

/-- After a gzip stream that breaks off, the index file counts as loaded without a success. -/
theorem not_backed_of_broken_stream :
    let state := run (Loads.next breakingDecompressors maxPackagesPerRepo) .start
      [.data .packages [0x1f, 0x8b] (ofAscii "http://h/dists/s/Packages.gz")]
    hasIndexFile state.index (ofAscii "http://h/dists/s/Packages.gz") = true ∧
      (generation state.index (ofAscii "http://h/dists/s/Packages")).map PackageInfo.sha256 =
        [ofAscii "aa"] ∧
      state.succeeded = [] ∧
      ¬ Backed breakingDecompressors state := by
  intro state
  have isLoaded : hasIndexFile state.index (ofAscii "http://h/dists/s/Packages.gz") = true := by
    decide
  have noneSucceeded : state.succeeded = [] := by
    rfl
  refine ⟨isLoaded, by decide, noneSucceeded, fun backed => ?_⟩
  obtain ⟨load, mem, -⟩ := backed _ isLoaded
  rw [noneSucceeded] at mem
  cases mem

end Debswarm.PackageIndex
