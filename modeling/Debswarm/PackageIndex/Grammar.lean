import Debswarm.PackageIndex.Stanzas

/-!
# The grammar of a Packages file

A Packages file is a list of stanzas with empty lines between them.  A stanza has fields,
known and unknown ones in any order, and continuation lines that begin with a blank or a
tab.  Loading such a file yields one entry for each stanza with a hash, and the entry has
the last value of each field.  A size that is no number is passed over.
-/

namespace Debswarm.PackageIndex

open List Option Text Transition

/-! ## Stanzas -/

/-- A line of a stanza. -/
inductive StanzaLine
  | field (name value : Str)
  | continuation (text : Str)
  deriving DecidableEq, Repr

def StanzaLine.render : StanzaLine → Str
  | .field name value => name ++ 58 :: value
  | .continuation text => text

/-- The bytes of a line do not belong to another kind of line, nor to two lines. -/
def StanzaLine.IsSound : StanzaLine → Prop
  | .field name value => indented name = false ∧ 58 ∉ name ∧ 10 ∉ name ∧ 10 ∉ value
  | .continuation text => indented text = true ∧ 10 ∉ text

instance (line : StanzaLine) : Decidable line.IsSound := by
  cases line <;> unfold StanzaLine.IsSound <;> infer_instance

/-- A stanza has a line, and its lines are sound and fit the scanner's buffer. -/
structure Stanza where
  lines : List StanzaLine
  nonempty : lines ≠ []
  sound : ∀ line ∈ lines, line.IsSound
  fits : ∀ line ∈ lines, line.render.length < 1024 * 1024

def Stanza.texts (stanza : Stanza) : List Str :=
  stanza.lines.map StanzaLine.render

/-- The lines of a file: stanzas, each with some empty lines after it. -/
def fileLines : List (Stanza × Nat) → List Str
  | [] => []
  | [(stanza, gap)] => stanza.texts ++ replicate gap []
  | (stanza, gap) :: rest =>
    stanza.texts ++ replicate (gap + 1) [] ++ fileLines rest

/-- The text of a file, which may lack the newline at its end. -/
def fileText (lines : List Str) (closed : Bool) : Str :=
  if closed then lines.flatMap line
  else lines.dropLast.flatMap line ++ lines.getLast?.getD []

/-! ## What a stanza says -/

/-- The values of a field, in order. -/
def values (name : Str) (lines : List StanzaLine) : List Str :=
  lines.filterMap fun line =>
    match line with
    | .field other value => if other = name then some (trimSpace value) else none
    | .continuation _ => none

/-- The last value of a field, empty if there is none. -/
def lastValue (name : String) (lines : List StanzaLine) : Str :=
  (values (ofAscii name) lines).getLastD []

/-- The number that a text denotes, if it does. -/
def number? (text : Str) : Option Int :=
  if (parseInt64 text).2 then some (parseInt64 text).1 else none

/-- The last size that is a number, zero if there is none. -/
def lastSize (lines : List StanzaLine) : Int :=
  ((values (ofAscii "Size") lines).filterMap number?).getLastD 0

/-- The entry that a stanza describes, without an identity. -/
def describedEntry (repo : Str) (lines : List StanzaLine) : PackageInfo where
  addr := 0
  package := lastValue "Package" lines
  version := lastValue "Version" lines
  architecture := lastValue "Architecture" lines
  filename := lastValue "Filename" lines
  size := lastSize lines
  sha256 := lastValue "SHA256" lines
  repo := repo

/-- Whether the last hash of a stanza is not empty. -/
def Stanza.isHashed (stanza : Stanza) : Bool :=
  lastValue "SHA256" stanza.lines ≠ []

/-! ## Reading a line -/

variable {name text : Str}

theorem splitField_field (clean : 58 ∉ name) (value : Str) :
    splitField (name ++ 58 :: value) = some (name, trimSpace value) := by
  have found : index (ofAscii ":") (name ++ 58 :: value) = some name.length :=
    index_separator clean value
  rw [splitField, found, map_some, take_left]
  simp

theorem dropCR_field (name value : Str) :
    dropCR (name ++ 58 :: value) = name ++ 58 :: dropCR value := by
  cases value with
  | nil => simp [dropCR]
  | cons byte value =>
    unfold dropCR
    rw [getLast?_append_cons, getLast?_cons_cons, dropLast_append_of_ne_nil (cons_ne_nil _ _),
      dropLast_cons_of_ne_nil (cons_ne_nil _ _)]
    split <;> rfl

/-- A field whose name begins with a blank or a tab is no known one. -/
theorem setField_of_indented {field : Str} (isIndented : indented field = true) (value : Str)
    (pkg : PackageInfo) : setField field value pkg = pkg := by
  have unknown : ∀ name : Str, indented name = false → field ≠ name := by
    rintro name notIndented rfl
    rw [isIndented] at notIndented
    cases notIndented
  unfold setField
  rw [if_neg (unknown _ (by decide)), if_neg (unknown _ (by decide)),
    if_neg (unknown _ (by decide)), if_neg (unknown _ (by decide)),
    if_neg (unknown _ (by decide)), if_neg (unknown _ (by decide))]

theorem indented_dropCR (isIndented : indented text = true) : indented (dropCR text) = true := by
  unfold dropCR
  split
  · rename_i endsInCR
    cases text with
    | nil => exact isIndented
    | cons byte rest =>
      cases rest with
      | nil =>
        obtain rfl : byte = 13 := some.inj endsInCR
        exact absurd isIndented (by decide)
      | cons second rest => exact isIndented
  · exact isIndented

theorem indented_of_splitField {line field value : Str} (isIndented : indented line = true)
    (isField : splitField line = some (field, value)) : indented field = true := by
  obtain ⟨offset, found, fieldEq⟩ := map_eq_some_iff.mp isField
  obtain ⟨rfl, -⟩ := Prod.mk.inj fieldEq
  cases line with
  | nil => exact absurd isIndented (by decide)
  | cons byte rest =>
    cases offset with
    | succ offset => exact isIndented
    | zero =>
      rw [index] at found
      split at found
      · rename_i isPrefix
        obtain rfl : 58 = byte := by
          simpa [show ofAscii ":" = [58] from rfl, isPrefixOf] using isPrefix
        simp [indented] at isIndented
      · simp at found

/-! ## Reading a stanza -/

theorem values_concat_field (name : Str) (lines : List StanzaLine) (other value : Str) :
    values name (lines ++ [.field other value]) =
      if other = name then values name lines ++ [trimSpace value] else values name lines := by
  by_cases same : other = name <;> simp [values, same]

theorem describedEntry_concat_field (lines : List StanzaLine) (name value : Str) :
    describedEntry [] (lines ++ [.field name value]) =
      setField name (trimSpace value) (describedEntry [] lines) := by
  have sizeEq : lastSize (lines ++ [.field name value]) =
      if name = ofAscii "Size" then (number? (trimSpace value)).getD (lastSize lines)
      else lastSize lines := by
    unfold lastSize
    rw [values_concat_field]
    split
    · cases isNumber : number? (trimSpace value) with
      | none | some number => simp [isNumber]
    · rfl
  have lastEq : ∀ known : String, lastValue known (lines ++ [.field name value]) =
      if name = ofAscii known then trimSpace value else lastValue known lines := by
    intro known
    unfold lastValue
    rw [values_concat_field]
    split
    · simp
    · rfl
  simp only [describedEntry, lastEq, sizeEq, setField]
  by_cases isPackage : name = ofAscii "Package"
  · subst isPackage
    rfl
  by_cases isVersion : name = ofAscii "Version"
  · subst isVersion
    rfl
  by_cases isArchitecture : name = ofAscii "Architecture"
  · subst isArchitecture
    rfl
  by_cases isFilename : name = ofAscii "Filename"
  · subst isFilename
    rfl
  by_cases isSize : name = ofAscii "Size"
  · subst isSize
    have notHash : ofAscii "Size" ≠ ofAscii "SHA256" := by decide
    by_cases isNumber : (parseInt64 (trimSpace value)).2 = true
    · simp [number?, isNumber, isPackage, isVersion, isArchitecture, isFilename, notHash]
    · simp [number?, isNumber, isPackage, isVersion, isArchitecture, isFilename, notHash]
  · by_cases isHash : name = ofAscii "SHA256"
    · subst isHash
      rfl
    · simp [isPackage, isVersion, isArchitecture, isFilename, isSize, isHash]

theorem describedEntry_concat_continuation (lines : List StanzaLine) (text : Str) :
    describedEntry [] (lines ++ [.continuation text]) = describedEntry [] lines := by
  simp [describedEntry, lastValue, lastSize, values]

/-- The parser reads off a stanza what the stanza describes. -/
theorem foldl_readField_eq_describedEntry {lines : List StanzaLine}
    (sound : ∀ line ∈ lines, line.IsSound) :
    (lines.map fun line => dropCR line.render).foldl readField (.blank 0) =
      describedEntry [] lines := by
  induction lines using reverseRecOn with
  | nil => rfl
  | append_singleton lines line ih =>
    have earlier := ih fun other mem => sound other (mem_append_left _ mem)
    have lineSound := sound line (mem_append_right _ mem_cons_self)
    rw [map_append, foldl_append, earlier, map_singleton, foldl_cons, foldl_nil]
    cases line with
    | field name value =>
      rw [describedEntry_concat_field, StanzaLine.render, readField, dropCR_field,
        splitField_field lineSound.2.1, trimSpace_dropCR]
    | continuation text =>
      rw [describedEntry_concat_continuation, readField]
      split
      · rfl
      · rename_i field value isField
        exact setField_of_indented
          (indented_of_splitField (indented_dropCR lineSound.1) isField) value _

/-- The lines of a stanza as the scanner delivers them. -/
def Stanza.scanned (stanza : Stanza) : List Str :=
  stanza.lines.map fun line => dropCR line.render

theorem Stanza.hasHash_scanned (stanza : Stanza) : hasHash stanza.scanned = stanza.isHashed := by
  rw [hasHash, Stanza.scanned, foldl_readField_eq_describedEntry stanza.sound]
  rfl

theorem Stanza.bare_stanzaEntry (stanza : Stanza) (repo : Str) (addr : Nat) :
    (stanzaEntry repo addr stanza.scanned).bare = describedEntry repo stanza.lines := by
  rw [stanzaEntry_eq, Stanza.scanned, foldl_readField_eq_describedEntry stanza.sound]
  rfl

/-- The entries of stanzas are what the stanzas with a hash describe. -/
theorem bareAll_stanzaEntries (repo : Str) (addr : Nat) (stanzas : List Stanza) :
    bareAll (stanzaEntries repo addr (stanzas.map Stanza.scanned)) =
      (stanzas.filter Stanza.isHashed).map fun stanza => describedEntry repo stanza.lines := by
  induction stanzas generalizing addr with
  | nil => rfl
  | cons stanza rest ih =>
    rw [map_cons, stanzaEntries_cons, hashedEntry_eq, stanza.hasHash_scanned]
    have later := ih (addr + 1)
    unfold bareAll at later ⊢
    by_cases hashed : stanza.isHashed = true
    · simp [hashed, later, stanza.bare_stanzaEntry]
    · simp [hashed, later]

/-! ## The blocks of a file -/

theorem dropCR_render_ne_nil {line : StanzaLine} (sound : line.IsSound) :
    dropCR line.render ≠ [] := by
  cases line with
  | field name value =>
    rw [StanzaLine.render, dropCR_field]
    exact append_ne_nil_of_right_ne_nil _ (cons_ne_nil _ _)
  | continuation text =>
    intro empty
    have stillIndented := indented_dropCR sound.1
    rw [StanzaLine.render] at empty
    rw [empty] at stillIndented
    exact absurd stillIndented (by decide)

theorem Stanza.scanned_ne_nil (stanza : Stanza) : stanza.scanned ≠ [] := by
  intro empty
  exact stanza.nonempty (map_eq_nil_iff.mp empty)

theorem Stanza.isEmpty_of_mem_scanned (stanza : Stanza) :
    ∀ line ∈ stanza.scanned, line.isEmpty = false := by
  intro text mem
  obtain ⟨line, lineMem, rfl⟩ := mem_map.mp mem
  exact isEmpty_eq_false_iff.mpr (dropCR_render_ne_nil (stanza.sound line lineMem))

@[simp]
theorem stanzasOf_replicate_append (gap : Nat) (lines : List Str) :
    stanzasOf (blocks (replicate gap [] ++ lines)) = stanzasOf (blocks lines) := by
  induction gap with
  | zero => rfl
  | succ gap ih =>
    rw [replicate_succ, cons_append, blocks, splitOnP_cons_eq_if_modifyHead]
    exact ih

/-- A stanza before an empty line is a block of its own. -/
@[simp]
theorem stanzasOf_scanned_append (stanza : Stanza) (lines : List Str) :
    stanzasOf (blocks (stanza.scanned ++ [] :: lines)) =
      stanza.scanned :: stanzasOf (blocks lines) := by
  rw [blocks, splitOnP_append_cons_of_forall_mem stanza.isEmpty_of_mem_scanned [] rfl lines,
    stanzasOf, filter_cons_of_pos]
  · rfl
  · simp [stanza.scanned_ne_nil]

theorem stanzasOf_scanned (stanza : Stanza) (gap : Nat) :
    stanzasOf (blocks (stanza.scanned ++ replicate gap [])) = [stanza.scanned] := by
  cases gap with
  | zero =>
    rw [replicate_zero, append_nil, blocks, splitOnP_eq_singleton stanza.isEmpty_of_mem_scanned]
    simp [stanzasOf, stanza.scanned_ne_nil]
  | succ gap =>
    have none := stanzasOf_replicate_append gap []
    rw [append_nil] at none
    rw [replicate_succ, stanzasOf_scanned_append, none]
    rfl

@[simp]
theorem stanzasOf_concat_nil (lines : List Str) :
    stanzasOf (blocks (lines ++ [[]])) = stanzasOf (blocks lines) := by
  rw [blocks, splitOnP_append_cons lines [] rfl, splitOnP_nil, stanzasOf, filter_append]
  exact append_nil _

@[simp]
theorem Stanza.map_dropCR_texts (stanza : Stanza) : stanza.texts.map dropCR = stanza.scanned := by
  rw [Stanza.texts, List.map_map]
  rfl

/-- The stanzas of a file are those it was written from. -/
theorem stanzasOf_fileLines (file : List (Stanza × Nat)) :
    stanzasOf (blocks ((fileLines file).map dropCR)) =
      file.map fun entry => entry.1.scanned := by
  have noCR : dropCR [] = [] := rfl
  fun_induction fileLines file with
  | case1 => rfl
  | case2 stanza gap =>
    rw [map_append, stanza.map_dropCR_texts, map_replicate, noCR, stanzasOf_scanned]
    rfl
  | case3 stanza gap rest _ ih =>
    rw [map_append, map_append, stanza.map_dropCR_texts, map_replicate, noCR,
      append_assoc, replicate_succ, cons_append, stanzasOf_scanned_append,
      stanzasOf_replicate_append, ih]
    rfl

/-! ## Loading a file -/

theorem mem_fileLines {file : List (Stanza × Nat)} (mem : text ∈ fileLines file) :
    text = [] ∨ ∃ stanza : Stanza, text ∈ stanza.texts := by
  have emptyLine : ∀ gap, text ∈ replicate gap ([] : Str) → text = [] :=
    fun gap inGap => (mem_replicate.mp inGap).2
  fun_induction fileLines file with
  | case1 => cases mem
  | case2 stanza gap =>
    rcases mem_append.mp mem with inStanza | inGap
    · exact .inr ⟨stanza, inStanza⟩
    · exact .inl (emptyLine gap inGap)
  | case3 stanza gap rest _ ih =>
    rcases mem_append.mp mem with inFirst | later
    · rcases mem_append.mp inFirst with inStanza | inGap
      · exact .inr ⟨stanza, inStanza⟩
      · exact .inl (emptyLine _ inGap)
    · exact ih later

theorem newline_not_mem_render {line : StanzaLine} (sound : line.IsSound) : 10 ∉ line.render := by
  cases line with
  | field name value =>
    obtain ⟨-, -, nameClean, valueClean⟩ := sound
    simp [StanzaLine.render, nameClean, valueClean]
  | continuation text => exact sound.2

/-- A file is scanned to its end, and its stanzas are found. -/
theorem scanLines_fileText (file : List (Stanza × Nat)) (closed : Bool) :
    (scanLines (fileText (fileLines file) closed)).2 = false ∧
      stanzasOf (blocks (scanLines (fileText (fileLines file) closed)).1) =
        file.map fun entry => entry.1.scanned := by
  have lineOf : ∀ {text}, text ∈ fileLines file → 10 ∉ text ∧ text.length < 1024 * 1024 := by
    intro text mem
    rcases mem_fileLines mem with rfl | ⟨stanza, inStanza⟩
    · exact ⟨not_mem_nil, by decide⟩
    · obtain ⟨line, lineMem, rfl⟩ := mem_map.mp inStanza
      exact ⟨newline_not_mem_render (stanza.sound line lineMem), stanza.fits line lineMem⟩
  rw [← stanzasOf_fileLines]
  generalize fileLines file = lines at lineOf
  rcases eq_nil_or_concat' lines with rfl | ⟨front, last, rfl⟩
  · cases closed <;> exact ⟨rfl, rfl⟩
  · have frontOf : ∀ text ∈ front, 10 ∉ text := fun text mem =>
      (lineOf (mem_append_left _ mem)).1
    have lastOf := lineOf (mem_append_right front mem_cons_self)
    cases closed with
    | true =>
      have scanned := @scanLinesWithin_flatMap_line (1024 * 1024) (front ++ [last]) []
        (fun text mem => (lineOf mem).1) not_mem_nil fun text mem => (lineOf mem).2
      rw [append_nil] at scanned
      rw [fileText, if_pos rfl, scanLines, scanned]
      exact ⟨rfl, rfl⟩
    | false =>
      have scanned := @scanLinesWithin_flatMap_line (1024 * 1024) front last frontOf lastOf.1
        (fun text mem => by
          unfold linesWith at mem
          split at mem
          · exact (lineOf (mem_append_left _ mem)).2
          · exact (lineOf mem).2)
      rw [fileText, if_neg Bool.false_ne_true, dropLast_concat, getLast?_concat,
        getD_some, scanLines, scanned]
      refine ⟨rfl, ?_⟩
      unfold linesWith
      split
      · rename_i empty
        rw [empty, map_append]
        exact (stanzasOf_concat_nil _).symm
      · rfl

/-- A file below the limit loads, with one entry for each stanza whose last hash is not empty, in
order, with the last value of each field. -/
theorem generation_of_file (limit : Nat) (before : List Event) (file : List (Stanza × Nat))
    (closed : Bool) (repo fileKey : Str)
    (below : (file.countP fun entry => entry.1.isHashed) < limit) :
    let loaded := parseForRepo .packages limit (fileText (fileLines file) closed) false repo
      fileKey (run (next limit) Index.new before)
    loaded.1 = true ∧
      bareAll (generation loaded.2 fileKey) =
        (file.filter fun entry => entry.1.isHashed).map fun entry =>
          describedEntry repo entry.1.lines := by
  intro loaded
  obtain ⟨complete, stanzas⟩ := scanLines_fileText file closed
  have consistent := run_invariant Consistent (consistent_next limit) consistent_new before
  have generationEq : generation loaded.2 fileKey = listing .packages limit repo
      (scanLines (fileText (fileLines file) closed)).1
        (run (next limit) Index.new before).nextAddr := by
    rw [(replaces_parseForRepo consistent .packages limit _ false repo fileKey).byIndexFile,
      if_pos rfl]
  have fewCompleted : completedStanzas (scanLines (fileText (fileLines file) closed)).1 <
      limit := by
    refine (completedStanzas_le _).trans_lt ?_
    rw [stanzas, List.countP_map]
    refine Eq.trans_lt ?_ below
    exact List.countP_congr fun entry _ => by
      rw [Function.comp_apply, entry.1.hasHash_scanned]
  constructor
  · change (!(false || (scanLines (fileText (fileLines file) closed)).2)) = true
    rw [complete]
    rfl
  · rw [generationEq, listing_packages_of_lt fewCompleted, stanzas]
    have described := bareAll_stanzaEntries repo (run (next limit) Index.new before).nextAddr
      (file.map Prod.fst)
    rw [List.map_map, List.filter_map, List.map_map] at described
    exact described

/-- A stanza whose second size is no number, with a continuation line that has a colon. -/
def resizedStanza : Stanza where
  lines := [.field (ofAscii "Size") (ofAscii " 5"), .field (ofAscii "SHA256") (ofAscii " aa"),
    .continuation (ofAscii " SHA256: bb"), .field (ofAscii "Size") (ofAscii " x")]
  nonempty := by decide
  sound := by decide
  fits := by decide

/-- A file of that stanza, an empty line and no newline after it, under a limit of two. -/
theorem generation_of_resizedStanza :
    let loaded := parseForRepo .packages 2 (fileText (fileLines [(resizedStanza, 1)]) false)
      false (ofAscii "deb") (ofAscii "f") Index.new
    loaded.1 = true ∧
      bareAll (generation loaded.2 (ofAscii "f")) =
        [describedEntry (ofAscii "deb") resizedStanza.lines] := by
  have below : ([(resizedStanza, 1)].countP fun entry => entry.1.isHashed) < 2 := by decide
  exact generation_of_file 2 [] [(resizedStanza, 1)] false (ofAscii "deb") (ofAscii "f") below

/-- The size of an entry is not always the last one: the entry keeps the size before it. -/
theorem size_of_resizedStanza :
    let loaded := parseForRepo .packages 2 (fileText (fileLines [(resizedStanza, 1)]) false)
      false (ofAscii "deb") (ofAscii "f") Index.new
    (generation loaded.2 (ofAscii "f")).map PackageInfo.size = [5] ∧
      lastValue "Size" resizedStanza.lines = ofAscii "x" ∧
      (parseInt64 (lastValue "Size" resizedStanza.lines)).1 ≠ 5 := by
  decide

end Debswarm.PackageIndex
