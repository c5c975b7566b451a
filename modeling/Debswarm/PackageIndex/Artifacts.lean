import Debswarm.PackageIndex.Stanzas

/-!
# Sources files by stanzas

The lines of a Sources file fall into blocks at its empty lines, as those of a Packages file
do.  Each block is read on its own, and its artifacts are handed over at its end.  The limit
cuts the list of all artifacts and does nothing else.
-/

namespace Debswarm.PackageIndex

open List Text

universe u

variable {σ : Type u} {limit : Nat} {repo : Str}

/-! ## Reading a block -/

/-- The accumulators of a stanza in a parser that has come this far. -/
def SourcesParser.over (stanza : SourcesParser Unit) (sink : σ) (count nextAddr : Nat) :
    SourcesParser σ :=
  { stanza with sink, count, nextAddr }

/-- The accumulators at the beginning of a stanza. -/
def emptyStanza : SourcesParser Unit :=
  ⟨(), [], [], [], false, 0, 0⟩

/-- The accumulators after the lines of a block. -/
def readSourceBlock (block : List Str) : SourcesParser Unit :=
  block.foldl (fun stanza line => readSourceLine line stanza) emptyStanza

theorem readSourceLine_over (line : Str) (stanza : SourcesParser Unit) (sink : σ)
    (count nextAddr : Nat) :
    readSourceLine line (stanza.over sink count nextAddr) =
      (readSourceLine line stanza).over sink count nextAddr := by
  unfold SourcesParser.over
  simp only [readSourceLine]
  split
  · rfl
  · split
    · rfl
    · split_ifs <;> rfl

theorem readSourceBlock_concat (block : List Str) (line : Str) :
    readSourceBlock (block ++ [line]) = readSourceLine line (readSourceBlock block) :=
  foldl_concat ..

/-! ## Artifacts -/

/-- Whether a file of a checksum block can be named. -/
def FileEntry.isNamed (file : FileEntry) : Bool :=
  !decide (file.sha256 = [] ∨ file.name = [])

/-- The artifacts of some files of a stanza, with identities from `addr` on. -/
def artifactsOf (repo : Str) (stanza : SourcesParser σ) (addr : Nat) (files : List FileEntry) :
    List PackageInfo :=
  ((files.filter FileEntry.isNamed).zipIdx addr).map fun file =>
    artifact repo file.1 { stanza with nextAddr := file.2 }

def stanzaArtifacts (repo : Str) (addr : Nat) (stanza : SourcesParser Unit) : List PackageInfo :=
  if stanza.directory = [] then [] else artifactsOf repo stanza addr stanza.files

/-- The artifacts of a list of blocks. -/
def sourceEntries (repo : Str) : Nat → List (List Str) → List PackageInfo
  | _, [] => []
  | addr, block :: rest =>
    let listed := stanzaArtifacts repo addr (readSourceBlock block)
    listed ++ sourceEntries repo (addr + listed.length) rest

/-- The parser after some more entries were handed over. -/
def SourcesParser.hand (parser : SourcesParser (List PackageInfo)) (entries : List PackageInfo) :
    SourcesParser (List PackageInfo) :=
  { parser with
    sink := parser.sink ++ entries
    count := parser.count + entries.length
    nextAddr := parser.nextAddr + entries.length }

theorem hand_cons (repo : Str) (file : FileEntry) (parser : SourcesParser (List PackageInfo))
    (entries : List PackageInfo) :
    parser.hand (artifact repo file parser :: entries) =
      (emitFile collect repo file parser).hand entries := by
  simp [SourcesParser.hand, emitFile, collect, Nat.add_assoc, Nat.add_comm 1]

theorem emitFiles_eq (files : List FileEntry) {parser : SourcesParser (List PackageInfo)}
    (begun : parser.count < limit) :
    emitFiles limit collect repo files parser =
      (parser.hand ((artifactsOf repo parser parser.nextAddr files).take (limit - parser.count)),
        decide (limit ≤ parser.count +
          (artifactsOf repo parser parser.nextAddr files).length)) := by
  induction files generalizing parser with
  | nil => simp [emitFiles, artifactsOf, SourcesParser.hand, begun]
  | cons file rest ih =>
    unfold emitFiles
    by_cases unnamed : file.sha256 = [] ∨ file.name = []
    · have skipped : ¬ file.isNamed = true := by simp [FileEntry.isNamed, unnamed]
      rw [if_pos unnamed, ih begun, artifactsOf, artifactsOf, filter_cons_of_neg skipped]
    · have kept : file.isNamed = true := by simp [FileEntry.isNamed, unnamed]
      have listed : artifactsOf repo parser parser.nextAddr (file :: rest) =
          artifact repo file parser :: artifactsOf repo (emitFile collect repo file parser)
            (emitFile collect repo file parser).nextAddr rest := by
        rw [artifactsOf, filter_cons_of_pos kept, zipIdx_cons, map_cons]
        rfl
      have emitted : (emitFile collect repo file parser).count = parser.count + 1 := rfl
      rw [if_neg unnamed, listed, show limit - parser.count = limit - (parser.count + 1) + 1 by
        omega, take_succ_cons, hand_cons, length_cons, emitted]
      split
      · rename_i reached
        rw [Nat.sub_eq_zero_of_le reached, take_zero, decide_eq_true (by omega)]
        simp [SourcesParser.hand]
      · rw [ih (by omega), emitted, Nat.add_assoc, Nat.add_comm 1]

/-- The end of a stanza hands over its artifacts up to the limit. -/
theorem emitStanza_over (repo : Str) (stanza : SourcesParser Unit) {sink : List PackageInfo}
    {count nextAddr : Nat} (begun : count < limit) :
    emitStanza limit collect repo (stanza.over sink count nextAddr) =
      ((emptyStanza.over sink count nextAddr).hand
          ((stanzaArtifacts repo nextAddr stanza).take (limit - count)),
        decide (limit ≤ count + (stanzaArtifacts repo nextAddr stanza).length)) := by
  have emitted := @emitFiles_eq limit repo stanza.files (stanza.over sink count nextAddr) begun
  unfold emitStanza stanzaArtifacts
  by_cases noDirectory : stanza.directory = []
  · have here : (stanza.over sink count nextAddr).directory = [] := noDirectory
    rw [if_pos noDirectory, if_pos here, take_nil, length_nil, Nat.add_zero,
      decide_eq_false (not_le.mpr begun)]
    simp [SourcesParser.hand, SourcesParser.over, emptyStanza]
  · have here : (stanza.over sink count nextAddr).directory ≠ [] := noDirectory
    rw [if_neg noDirectory, if_neg here, show (stanza.over sink count nextAddr).files =
      stanza.files from rfl, emitted]
    rfl

/-! ## Reading all blocks -/

/-- What was handed over when the parser has read its lines. -/
def handedOver (limit : Nat) (repo : Str) : SourcesParser (List PackageInfo) × Bool →
    List PackageInfo
  | (parser, true) => parser.sink
  | (parser, false) => (emitStanza limit collect repo parser).1.sink

/-- The rest of a file, the first block of which may have been begun. -/
theorem handedOver_readSources (lines front : List Str) {sink : List PackageInfo}
    {count nextAddr : Nat} (begun : count < limit) :
    handedOver limit repo (readSources limit collect repo lines
        ((readSourceBlock front).over sink count nextAddr)) =
      sink ++ (sourceEntries repo nextAddr ((blocks lines).modifyHead (front ++ ·))).take
        (limit - count) := by
  unfold blocks
  induction lines generalizing front sink count nextAddr with
  | nil =>
    rw [readSources, handedOver, emitStanza_over repo _ begun, splitOnP_nil,
      modifyHead_cons, append_nil, sourceEntries, sourceEntries, append_nil]
    rfl
  | cons line rest ih =>
    rw [readSources, splitOnP_cons_eq_if_modifyHead]
    cases line with
    | nil =>
      rw [if_pos rfl, if_pos isEmpty_nil, emitStanza_over repo _ begun,
        modifyHead_cons, append_nil, sourceEntries]
      generalize stanzaArtifacts repo nextAddr (readSourceBlock front) = listed
      by_cases reached : limit ≤ count + listed.length
      · rw [decide_eq_true reached, take_append_of_le_length (by omega)]
        rfl
      · have whole : listed.take (limit - count) = listed := take_of_length_le (by omega)
        have later := @ih [] (sink ++ listed) (count + listed.length)
          (nextAddr + listed.length) (by omega)
        rw [show (([] : List Str) ++ ·) = id from rfl, modifyHead_id] at later
        rw [decide_eq_false reached, take_append, whole, Nat.sub_sub]
        exact later.trans (append_assoc ..)
    | cons byte line =>
      have later := @ih (front ++ [byte :: line]) sink count nextAddr begun
      rw [readSourceBlock_concat] at later
      rw [if_neg (cons_ne_nil byte line), if_neg (by simp), readSourceLine_over,
        modifyHead_modifyHead]
      refine later.trans ?_
      simp [Function.comp_def]

theorem listing_sources_eq_take (positive : 1 ≤ limit) (repo : Str) (lines : List Str)
    (nextAddr : Nat) :
    listing .sources limit repo lines nextAddr =
      (sourceEntries repo nextAddr (blocks lines)).take limit := by
  have handed := @handedOver_readSources limit repo lines [] [] 0 nextAddr positive
  rw [show (([] : List Str) ++ ·) = id from rfl, modifyHead_id] at handed
  refine Eq.trans ?_ handed
  change (parseSources limit collect repo lines nextAddr []).sink = _
  unfold parseSources
  change _ = handedOver limit repo
    (readSources limit collect repo lines ⟨[], [], [], [], false, 0, nextAddr⟩)
  rcases readSources limit collect repo lines _ with ⟨parser, _ | _⟩ <;> rfl

/-! ## The number of artifacts -/

theorem length_files_readSourceBlock (block : List Str) :
    (readSourceBlock block).files.length ≤ block.length := by
  induction block using reverseRecOn with
  | nil => exact le_rfl
  | append_singleton block line ih =>
    rw [readSourceBlock_concat, length_append, length_singleton]
    simp only [readSourceLine]
    split
    · rw [length_append]
      exact Nat.add_le_add ih (Option.length_toList_le)
    · split
      · exact ih.trans (Nat.le_succ _)
      · split_ifs <;> exact ih.trans (Nat.le_succ _)

theorem length_stanzaArtifacts_le (repo : Str) (addr : Nat) (block : List Str) :
    (stanzaArtifacts repo addr (readSourceBlock block)).length ≤ block.length := by
  unfold stanzaArtifacts artifactsOf
  split
  · exact Nat.zero_le _
  · rw [length_map, length_zipIdx]
    exact (length_filter_le _ _).trans (length_files_readSourceBlock block)

theorem length_flatten_blocks_le (lines : List Str) :
    (blocks lines).flatten.length ≤ lines.length := by
  unfold blocks
  induction lines with
  | nil => simp
  | cons line rest ih =>
    rw [splitOnP_cons_eq_if_modifyHead]
    split
    · exact ih.trans (Nat.le_succ _)
    · obtain ⟨first, later, isSplit⟩ := exists_cons_of_ne_nil
        (splitOnP_ne_nil isEmpty rest)
      rw [isSplit] at ih ⊢
      simpa using ih

theorem length_sourceEntries_le (repo : Str) (addr : Nat) (lines : List Str) :
    (sourceEntries repo addr (blocks lines)).length ≤ lines.length := by
  refine le_trans ?_ (length_flatten_blocks_le lines)
  generalize blocks lines = bs
  induction bs generalizing addr with
  | nil => exact le_rfl
  | cons block rest ih =>
    rw [sourceEntries, length_append, flatten_cons, length_append]
    exact Nat.add_le_add (length_stanzaArtifacts_le repo addr block) (ih _)

end Debswarm.PackageIndex
