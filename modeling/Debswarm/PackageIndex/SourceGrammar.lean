import Debswarm.PackageIndex.Artifacts
import Debswarm.PackageIndex.Grammar

/-!
# The grammar of a Sources file

A stanza of a Sources file is a list of fields in any order, each with continuation lines of
its own: those of a `Checksums-Sha256` field list the files of the source package, those of
other fields are passed over.  Loading such a file yields one entry for each listed file of a
stanza that has a directory.
-/

namespace Debswarm.PackageIndex

open List Text Transition

/-! ## Stanzas -/

/-- A field with the continuation lines after it. -/
structure FieldBlock where
  name : Str
  value : Str
  more : List Str
  deriving DecidableEq, Repr

def FieldBlock.lines (block : FieldBlock) : List StanzaLine :=
  .field block.name block.value :: block.more.map .continuation

/-- A stanza made of fields. -/
structure SourceStanza where
  blocks : List FieldBlock
  nonempty : blocks ≠ []
  sound : ∀ line ∈ blocks.flatMap FieldBlock.lines, line.IsSound
  fits : ∀ line ∈ blocks.flatMap FieldBlock.lines, line.render.length < 1024 * 1024

/-- The stanza as a list of lines. -/
def SourceStanza.toStanza (stanza : SourceStanza) : Stanza where
  lines := stanza.blocks.flatMap FieldBlock.lines
  nonempty := by
    obtain ⟨block, rest, isCons⟩ := exists_cons_of_ne_nil stanza.nonempty
    rw [isCons]
    exact cons_ne_nil _ _
  sound := stanza.sound
  fits := stanza.fits

/-! ## What a stanza lists -/

def fieldValue (name : String) (blocks : List FieldBlock) : Str :=
  lastValue name (blocks.flatMap FieldBlock.lines)

/-- The lines below the `Checksums-Sha256` fields. -/
def checksumLines (blocks : List FieldBlock) : List Str :=
  (blocks.filter fun block => block.name = ofAscii "Checksums-Sha256").flatMap FieldBlock.more

/-- The directory of a stanza, without slashes at its end. -/
def directoryOf (blocks : List FieldBlock) : Str :=
  trimRight (fieldValue "Directory" blocks) 47

/-- The entry that a line lists: its words are a digest, a size and a file name. -/
def listedEntry (repo package directory text : Str) : Option PackageInfo :=
  match fields (dropCR text) with
  | digest :: size :: name :: _ =>
    if isHex64 digest then
      some ⟨0, package, [], [], directory ++ ofAscii "/" ++ name, (parseInt64 size).1,
        digest.map lowerByte, repo⟩
    else none
  | _ => none

def listedEntries (repo : Str) (blocks : List FieldBlock) : List PackageInfo :=
  if directoryOf blocks = [] then []
  else (checksumLines blocks).filterMap
    (listedEntry repo (fieldValue "Package" blocks) (directoryOf blocks))

/-! ## Reading a field -/

variable {name text : Str} {stanza : SourcesParser Unit}

theorem indented_field (plain : indented name = false) (value : Str) :
    indented (name ++ 58 :: value) = false := by
  cases name with
  | nil => rfl
  | cons byte rest => exact plain

theorem readSourceLine_field (plain : indented name = false) (clean : 58 ∉ name) (value : Str)
    (stanza : SourcesParser Unit) :
    readSourceLine (dropCR (name ++ 58 :: value)) stanza =
      { stanza with
        srcName := if name = ofAscii "Package" then trimSpace value else stanza.srcName
        directory := if name = ofAscii "Directory" then trimRight (trimSpace value) 47
          else stanza.directory
        inChecksums := name = ofAscii "Checksums-Sha256" } := by
  rw [dropCR_field]
  unfold readSourceLine
  rw [indented_field plain, Bool.and_false, if_neg Bool.false_ne_true, splitField_field clean,
    trimSpace_dropCR]
  by_cases isPackage : name = ofAscii "Package"
  · subst isPackage
    rfl
  · by_cases isDirectory : name = ofAscii "Directory"
    · subst isDirectory
      rfl
    · by_cases isChecksums : name = ofAscii "Checksums-Sha256"
      · subst isChecksums
        rfl
      · simp [isPackage, isDirectory, isChecksums]

theorem readSourceLine_continuation (isIndented : indented text = true)
    (stanza : SourcesParser Unit) :
    readSourceLine (dropCR text) stanza =
      { stanza with
        files := stanza.files ++
          if stanza.inChecksums then (checksumLine (dropCR text)).toList else [] } := by
  have stillIndented := indented_dropCR isIndented
  obtain ⟨sink, srcName, directory, files, inChecksums, count, nextAddr⟩ := stanza
  unfold readSourceLine
  rw [stillIndented, Bool.and_true]
  cases inChecksums with
  | true => rfl
  | false =>
    rw [if_neg Bool.false_ne_true, if_neg Bool.false_ne_true, List.append_nil]
    split
    · rfl
    · rename_i field value isField
      have unknown : ∀ name : Str, indented name = false → field ≠ name := by
        rintro name notIndented rfl
        rw [indented_of_splitField stillIndented isField] at notIndented
        cases notIndented
      rw [if_neg (unknown _ (by decide)), if_neg (unknown _ (by decide)),
        if_neg (unknown _ (by decide))]

theorem foldl_readSourceLine_continuations {more : List Str}
    (sound : ∀ text ∈ more, indented text = true) (stanza : SourcesParser Unit) :
    more.foldl (fun stanza text => readSourceLine (dropCR text) stanza) stanza =
      { stanza with
        files := stanza.files ++
          if stanza.inChecksums then more.filterMap fun text => checksumLine (dropCR text)
          else [] } := by
  induction more generalizing stanza with
  | nil => simp
  | cons text rest ih =>
    rw [foldl_cons, readSourceLine_continuation (sound text mem_cons_self),
      ih fun other mem => sound other (mem_cons_of_mem text mem)]
    cases isOpen : stanza.inChecksums with
    | false => simp
    | true => cases isFile : checksumLine (dropCR text) <;> simp [isFile]

/-! ## Reading a stanza -/

theorem fieldValue_concat (known : String) (blocks : List FieldBlock) (block : FieldBlock) :
    fieldValue known (blocks ++ [block]) =
      if block.name = ofAscii known then trimSpace block.value else fieldValue known blocks := by
  have valuesEq : values (ofAscii known) ((blocks ++ [block]).flatMap FieldBlock.lines) =
      values (ofAscii known) (blocks.flatMap FieldBlock.lines) ++
        if block.name = ofAscii known then [trimSpace block.value] else [] := by
    by_cases same : block.name = ofAscii known <;>
      simp [values, FieldBlock.lines, same, filterMap_map]
  unfold fieldValue lastValue
  rw [valuesEq]
  split
  · exact getLastD_concat
  · rw [append_nil]

theorem directoryOf_concat (blocks : List FieldBlock) (block : FieldBlock) :
    directoryOf (blocks ++ [block]) =
      if block.name = ofAscii "Directory" then trimRight (trimSpace block.value) 47
      else directoryOf blocks := by
  unfold directoryOf
  rw [fieldValue_concat]
  split <;> rfl

theorem checksumLines_concat (blocks : List FieldBlock) (block : FieldBlock) :
    checksumLines (blocks ++ [block]) = checksumLines blocks ++
      if block.name = ofAscii "Checksums-Sha256" then block.more else [] := by
  by_cases same : block.name = ofAscii "Checksums-Sha256" <;> simp [checksumLines, same]

theorem readSourceBlock_eq {blocks : List FieldBlock}
    (sound : ∀ line ∈ blocks.flatMap FieldBlock.lines, line.IsSound) :
    ∃ inChecksums, readSourceBlock
        ((blocks.flatMap FieldBlock.lines).map fun line => dropCR line.render) =
      ⟨(), fieldValue "Package" blocks, directoryOf blocks,
        (checksumLines blocks).filterMap fun text => checksumLine (dropCR text), inChecksums,
        0, 0⟩ := by
  induction blocks using List.reverseRecOn with
  | nil => exact ⟨false, rfl⟩
  | append_singleton blocks block ih =>
    rw [List.flatMap_append, List.flatMap_singleton] at sound
    obtain ⟨inChecksums, read⟩ := ih fun line mem => sound line (List.mem_append_left _ mem)
    have fieldSound : StanzaLine.IsSound (.field block.name block.value) :=
      sound _ (List.mem_append_right _ List.mem_cons_self)
    have moreSound : ∀ text ∈ block.more, indented text = true := fun text mem =>
      (sound (.continuation text) (List.mem_append_right _
        (List.mem_cons_of_mem _ (List.mem_map_of_mem mem)))).1
    refine ⟨decide (block.name = ofAscii "Checksums-Sha256"), ?_⟩
    rw [List.flatMap_append, List.flatMap_singleton, List.map_append, readSourceBlock,
      List.foldl_append, ← readSourceBlock, read, FieldBlock.lines, List.map_cons, List.map_map,
      List.foldl_cons, List.foldl_map]
    refine (foldl_readSourceLine_continuations moreSound _).trans ?_
    rw [StanzaLine.render, readSourceLine_field fieldSound.1 fieldSound.2.1, directoryOf_concat,
      fieldValue_concat, checksumLines_concat, List.filterMap_append]
    by_cases isChecksums : block.name = ofAscii "Checksums-Sha256"
    · rw [decide_eq_true isChecksums, if_pos rfl, if_pos isChecksums]
    · rw [decide_eq_false isChecksums, if_neg Bool.false_ne_true, if_neg isChecksums]
      rfl

theorem isNamed_of_checksumLine {line : Str} {file : FileEntry}
    (isFile : checksumLine line = some file) : file.isNamed = true := by
  unfold checksumLine at isFile
  split at isFile
  · rename_i digest size name _ isLine
    split at isFile
    · rename_i isHex
      obtain rfl := Option.some.inj isFile
      have nameMem : name ∈ fields line := by simp [isLine]
      have long : digest.length = 64 := by
        simp only [isHex64, Bool.and_eq_true, decide_eq_true_eq] at isHex
        exact isHex.1
      have hasDigest : digest ≠ [] := ne_nil_of_length_pos (by omega)
      simp [FileEntry.isNamed, hasDigest, ne_nil_of_mem_fields nameMem]
    · cases isFile
  · cases isFile

theorem bareAll_artifactsOf (repo : Str) (stanza : SourcesParser Unit) (addr : Nat)
    (files : List FileEntry) :
    bareAll (artifactsOf repo stanza addr files) =
      (files.filter FileEntry.isNamed).map fun file => (artifact repo file stanza).bare := by
  unfold bareAll artifactsOf
  rw [map_map]
  nth_rewrite 2 [← zipIdx_map_fst addr (files.filter FileEntry.isNamed)]
  rw [map_map]
  rfl

theorem listedEntry_eq (repo package directory text : Str) :
    listedEntry repo package directory text = (checksumLine (dropCR text)).map fun file =>
      ⟨0, package, [], [], directory ++ ofAscii "/" ++ file.name, file.size, file.sha256,
        repo⟩ := by
  unfold listedEntry checksumLine
  rcases fields (dropCR text) with _ | ⟨digest, _ | ⟨size, _ | ⟨name, rest⟩⟩⟩
  · rfl
  · rfl
  · rfl
  · dsimp only
    split <;> rfl

/-- The artifacts of a stanza are what it lists. -/
theorem bareAll_stanzaArtifacts (repo : Str) (addr : Nat) (stanza : SourceStanza) :
    bareAll (stanzaArtifacts repo addr (readSourceBlock stanza.toStanza.scanned)) =
      listedEntries repo stanza.blocks := by
  obtain ⟨inChecksums, read⟩ := readSourceBlock_eq stanza.sound
  rw [show stanza.toStanza.scanned = (stanza.blocks.flatMap FieldBlock.lines).map
    fun line => dropCR line.render from rfl, read, stanzaArtifacts, listedEntries]
  split
  · rfl
  · rw [bareAll_artifactsOf, filter_eq_self.mpr, map_filterMap]
    · exact filterMap_congr fun text _ => (listedEntry_eq ..).symm
    · intro file mem
      obtain ⟨text, -, isFile⟩ := mem_filterMap.mp mem
      exact isNamed_of_checksumLine isFile

/-! ## Loading a file -/

theorem sourceEntries_stanzasOf (repo : Str) (addr : Nat) (bs : List (List Str)) :
    sourceEntries repo addr (stanzasOf bs) = sourceEntries repo addr bs := by
  induction bs generalizing addr with
  | nil => rfl
  | cons block rest ih =>
    cases block with
    | nil => exact ih addr
    | cons line lines => exact congrArg (_ ++ ·) (ih _)

theorem bareAll_sourceEntries (repo : Str) (addr : Nat) (stanzas : List SourceStanza) :
    bareAll (sourceEntries repo addr (stanzas.map fun stanza => stanza.toStanza.scanned)) =
      stanzas.flatMap fun stanza => listedEntries repo stanza.blocks := by
  induction stanzas generalizing addr with
  | nil => rfl
  | cons stanza rest ih =>
    rw [map_cons, sourceEntries, flatMap_cons, ← bareAll_stanzaArtifacts repo addr, ← ih]
    exact map_append

/-- A file below the limit loads, with one entry for each listed file of a stanza with a directory,
and nothing else. -/
theorem generation_of_sources (limit : Nat) (before : List Event)
    (file : List (SourceStanza × Nat)) (closed : Bool) (repo fileKey : Str)
    (below : (file.flatMap fun entry => listedEntries repo entry.1.blocks).length < limit) :
    let lines := fileLines (file.map fun entry => (entry.1.toStanza, entry.2))
    let loaded := parseForRepo .sources limit (fileText lines closed) false repo fileKey
      (run (next limit) Index.new before)
    loaded.1 = true ∧
      bareAll (generation loaded.2 fileKey) =
        file.flatMap fun entry => listedEntries repo entry.1.blocks := by
  intro lines loaded
  obtain ⟨complete, stanzas⟩ := scanLines_fileText
    (file.map fun entry => (entry.1.toStanza, entry.2)) closed
  have consistent := run_invariant Consistent (consistent_next limit) consistent_new before
  have generationEq : generation loaded.2 fileKey = listing .sources limit repo
      (scanLines (fileText lines closed)).1 (run (next limit) Index.new before).nextAddr := by
    rw [(replaces_parseForRepo consistent .sources limit _ false repo fileKey).byIndexFile,
      if_pos rfl]
  have described := bareAll_sourceEntries repo (run (next limit) Index.new before).nextAddr
    (file.map Prod.fst)
  rw [map_map, flatMap_map] at described
  constructor
  · change (!(false || (scanLines (fileText lines closed)).2)) = true
    rw [complete]
    rfl
  · rw [map_map] at stanzas
    rw [← described, bareAll, length_map] at below
    rw [generationEq, listing_sources_eq_take (Nat.one_le_of_lt below), ← sourceEntries_stanzasOf,
      stanzas]
    exact (congrArg bareAll (take_of_length_le below.le)).trans described

/-- A stanza with the checksums before its directory, which ends in a slash. -/
def slashStanza : SourceStanza where
  blocks := [⟨ofAscii "Checksums-Sha256", [],
      [32 :: replicate 64 65 ++ ofAscii " 5 x.dsc"]⟩,
    ⟨ofAscii "Files", [], [ofAscii " aa 5 x.dsc"]⟩, ⟨ofAscii "Directory", ofAscii " pool/", []⟩]
  nonempty := by decide
  sound := by decide +kernel
  fits := by decide +kernel

/-- The one listed file is loaded under a limit of two. -/
theorem generation_of_slashStanza :
    let loaded := parseForRepo .sources 2 (fileText (fileLines [(slashStanza.toStanza, 0)]) true)
      false (ofAscii "src") (ofAscii "f") Index.new
    loaded.1 = true ∧
      bareAll (generation loaded.2 (ofAscii "f")) =
        listedEntries (ofAscii "src") slashStanza.blocks := by
  have below : ([(slashStanza, 0)].flatMap fun entry =>
      listedEntries (ofAscii "src") entry.1.blocks).length < 2 := by decide +kernel
  obtain ⟨complete, entries⟩ :=
    generation_of_sources 2 [] [(slashStanza, 0)] true (ofAscii "src") (ofAscii "f") below
  exact ⟨complete, entries.trans (append_nil _)⟩

/-- The name of an entry need not be the directory, a slash and the name of the file. -/
theorem filename_of_slashStanza :
    let loaded := parseForRepo .sources 2 (fileText (fileLines [(slashStanza.toStanza, 0)]) true)
      false (ofAscii "src") (ofAscii "f") Index.new
    (generation loaded.2 (ofAscii "f")).map PackageInfo.filename = [ofAscii "pool/x.dsc"] ∧
      fieldValue "Directory" slashStanza.blocks ++ ofAscii "/" ++ ofAscii "x.dsc" ≠
        ofAscii "pool/x.dsc" := by
  decide +kernel

end Debswarm.PackageIndex
