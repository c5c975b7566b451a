import Debswarm.PackageIndex.Consistency

/-!
# Packages files by stanzas

The lines of a Packages file fall into blocks at its empty lines, and the blocks with lines
are its stanzas.  The parser reads block by block.  Below the limit it hands over one entry
for each stanza that has a hash; when it reaches the limit at an empty line, it hands over
the entry of the last stanza a second time.
-/

namespace Debswarm.PackageIndex

open List Option Text Transition

universe u

variable {σ : Type u} {limit : Nat} {add : σ → PackageInfo → σ} {repo : Str}

/-! ## Blocks -/

/-- The lines between empty lines.  An empty line follows every block but the last. -/
def blocks (lines : List Str) : List (List Str) :=
  lines.splitOnP isEmpty

/-- The blocks with lines. -/
def stanzasOf (blocks : List (List Str)) : List (List Str) :=
  blocks.filter fun block => !block.isEmpty

/-- Read one line into an entry. -/
def readField (pkg : PackageInfo) (line : Str) : PackageInfo :=
  match splitField line with
  | none => pkg
  | some (field, value) => setField field value pkg

def stanzaEntry (repo : Str) (addr : Nat) (stanza : List Str) : PackageInfo :=
  { stanza.foldl readField (.blank addr) with repo }

def hashedEntry (repo : Str) (addr : Nat) (stanza : List Str) : Option PackageInfo :=
  if (stanzaEntry repo addr stanza).sha256 = [] then none else some (stanzaEntry repo addr stanza)

/-- The entries of the stanzas that have a hash.  Each stanza uses up one identity. -/
def stanzaEntries (repo : Str) (addr : Nat) (stanzas : List (List Str)) : List PackageInfo :=
  (stanzas.zipIdx addr).filterMap fun stanza => hashedEntry repo stanza.2 stanza.1

@[simp]
theorem stanzaEntries_cons (repo : Str) (addr : Nat) (stanza : List Str) (rest : List (List Str)) :
    stanzaEntries repo addr (stanza :: rest) =
      (hashedEntry repo addr stanza).toList ++ stanzaEntries repo (addr + 1) rest := by
  unfold stanzaEntries
  rw [zipIdx_cons, filterMap_cons]
  cases hashedEntry repo addr stanza <;> rfl

/-! ## Reading blocks -/

def readBlock (parser : PackagesParser σ) (block : List Str) : PackagesParser σ :=
  block.foldl (fun parser line => readPackageLine line parser) parser

/-- Read blocks until they end or the limit is reached. -/
def readBlocks (limit : Nat) (add : σ → PackageInfo → σ) (repo : Str) :
    List (List Str) → PackagesParser σ → PackagesParser σ
  | [], parser => parser
  | [block], parser => readBlock parser block
  | block :: rest, parser =>
    let emitted := emitPackage add repo (readBlock parser block)
    if completes (readBlock parser block) && limit ≤ emitted.count then emitted
    else readBlocks limit add repo rest { emitted with pkg := none }

theorem readBlocks_cons (block : List Str) {rest : List (List Str)} (more : rest ≠ [])
    (parser : PackagesParser σ) :
    readBlocks limit add repo (block :: rest) parser =
      if completes (readBlock parser block) &&
          limit ≤ (emitPackage add repo (readBlock parser block)).count then
        emitPackage add repo (readBlock parser block)
      else
        readBlocks limit add repo rest
          { emitPackage add repo (readBlock parser block) with pkg := none } := by
  cases rest with
  | nil => exact absurd rfl more
  | cons second rest => rfl

/-- Reading lines is reading blocks, the first of which may have been begun. -/
theorem readPackages_eq_readBlocks (lines front : List Str) (parser : PackagesParser σ) :
    readPackages limit add repo lines (readBlock parser front) =
      readBlocks limit add repo ((blocks lines).modifyHead (front ++ ·)) parser := by
  unfold blocks
  induction lines generalizing front parser with
  | nil => simp [readPackages, readBlocks, splitOnP_nil]
  | cons line rest ih =>
    rw [splitOnP_cons_eq_if_modifyHead, readPackages]
    cases line with
    | nil =>
      have later := ih []
        { emitPackage add repo (readBlock parser front) with pkg := none }
      rw [show (([] : List Str) ++ ·) = id from rfl, modifyHead_id] at later
      rw [if_pos rfl, if_pos isEmpty_nil, modifyHead_cons, append_nil,
        readBlocks_cons front (splitOnP_ne_nil _ rest)]
      dsimp only
      split
      · rfl
      · exact later
    | cons byte line =>
      have later := ih (front ++ [byte :: line]) parser
      rw [readBlock, foldl_append] at later
      rw [if_neg (cons_ne_nil byte line), if_neg (by simp)]
      refine later.trans ?_
      rw [modifyHead_modifyHead]
      simp [Function.comp_def]

/-! ## Entries of stanzas -/

theorem readField_addr (pkg : PackageInfo) (line : Str) (addr : Nat) :
    readField { pkg with addr } line = { readField pkg line with addr } := by
  unfold readField
  split
  · rfl
  · unfold setField
    split_ifs <;> rfl

theorem foldl_readField_addr (stanza : List Str) (pkg : PackageInfo) (addr : Nat) :
    stanza.foldl readField { pkg with addr } = { stanza.foldl readField pkg with addr } := by
  induction stanza generalizing pkg with
  | nil => rfl
  | cons line rest ih => rw [foldl_cons, foldl_cons, readField_addr, ih]

theorem stanzaEntry_eq (repo : Str) (addr : Nat) (stanza : List Str) :
    stanzaEntry repo addr stanza = { stanza.foldl readField (.blank 0) with addr, repo } := by
  have fields := foldl_readField_addr stanza (.blank 0) addr
  unfold stanzaEntry
  rw [← show { PackageInfo.blank 0 with addr } = PackageInfo.blank addr from rfl, fields]

def hasHash (stanza : List Str) : Bool :=
  (stanza.foldl readField (.blank 0)).sha256 ≠ []

theorem hashedEntry_eq (repo : Str) (addr : Nat) (stanza : List Str) :
    hashedEntry repo addr stanza =
      if hasHash stanza then some (stanzaEntry repo addr stanza) else none := by
  unfold hashedEntry hasHash
  rw [stanzaEntry_eq]
  by_cases empty : (stanza.foldl readField (.blank 0)).sha256 = [] <;> simp [empty]

@[simp]
theorem length_stanzaEntries (repo : Str) (addr : Nat) (stanzas : List (List Str)) :
    (stanzaEntries repo addr stanzas).length = stanzas.countP hasHash := by
  induction stanzas generalizing addr with
  | nil => rfl
  | cons stanza rest ih =>
    rw [stanzaEntries_cons, length_append, ih, countP_cons, hashedEntry_eq]
    by_cases hashed : hasHash stanza = true
    · simp [hashed, Nat.add_comm]
    · simp [hashed]

/-- A block adds the entry of its stanza, if it is one and has a hash. -/
theorem stanzaEntries_stanzasOf_cons (repo : Str) (addr : Nat) (block : List Str)
    (rest : List (List Str)) :
    stanzaEntries repo addr (stanzasOf (block :: rest)) =
      (hashedEntry repo addr block).toList ++
        stanzaEntries repo (addr + (stanzasOf [block]).length) (stanzasOf rest) := by
  cases block with
  | nil => rfl
  | cons line lines => exact stanzaEntries_cons repo addr (line :: lines) _

/-! ## The parser between blocks -/

section Collecting

variable {parser : PackagesParser (List PackageInfo)}

theorem readPackageLine_eq (line : Str) (parser : PackagesParser σ) :
    readPackageLine line parser =
      { startPackage parser with
        pkg := (startPackage parser).pkg.map fun pkg => readField pkg line } := by
  unfold readPackageLine readField
  cases splitField line with
  | none => simp
  | some field => rfl

theorem readBlock_of_some (block : List Str) {parser : PackagesParser σ} {pkg : PackageInfo}
    (reading : parser.pkg = some pkg) :
    readBlock parser block = { parser with pkg := some (block.foldl readField pkg) } := by
  induction block generalizing parser pkg with
  | nil =>
    rw [readBlock, foldl_nil, foldl_nil, ← reading]
  | cons line rest ih =>
    have first : readPackageLine line parser =
        { parser with pkg := some (readField pkg line) } := by
      rw [readPackageLine_eq, startPackage, reading]
      simp [reading]
    rw [readBlock, foldl_cons, first]
    exact ih rfl

theorem readBlock_of_none {block : List Str} (isStanza : block ≠ []) {parser : PackagesParser σ}
    (idle : parser.pkg = none) :
    readBlock parser block =
      { parser with
        pkg := some (block.foldl readField (.blank parser.nextAddr))
        nextAddr := parser.nextAddr + 1 } := by
  cases block with
  | nil => exact absurd rfl isStanza
  | cons line rest =>
    have first : readPackageLine line parser = { parser with
          pkg := some (readField (.blank parser.nextAddr) line)
          nextAddr := parser.nextAddr + 1 } := by
      rw [readPackageLine_eq, startPackage, idle]
      rfl
    rw [readBlock, foldl_cons, first]
    exact readBlock_of_some rest rfl

/-- The end of a block hands over its entry, if any, and keeps it as the entry being read. -/
structure HandsOver (repo : Str) (block : List Str)
    (parser emitted : PackagesParser (List PackageInfo)) : Prop where
  sink : emitted.sink = parser.sink ++ (hashedEntry repo parser.nextAddr block).toList
  count : emitted.count = parser.count + (hashedEntry repo parser.nextAddr block).toList.length
  nextAddr : emitted.nextAddr = parser.nextAddr + (stanzasOf [block]).length
  pkg : ∀ entry, hashedEntry repo parser.nextAddr block = some entry →
    emitted.pkg = some entry ∧ emitPackage collect repo emitted =
      { emitted with sink := emitted.sink ++ [entry], count := emitted.count + 1 }

@[simp]
theorem hashedEntry_nil (repo : Str) (addr : Nat) : hashedEntry repo addr [] = none :=
  rfl

theorem completes_readBlock (repo : Str) (block : List Str) (idle : parser.pkg = none) :
    completes (readBlock parser block) = (hashedEntry repo parser.nextAddr block).isSome := by
  by_cases empty : block = []
  · subst empty
    rw [hashedEntry_nil, readBlock, foldl_nil, completes, idle]
    rfl
  · rw [readBlock_of_none empty idle, hashedEntry, stanzaEntry, completes]
    by_cases noHash : (block.foldl readField (.blank parser.nextAddr)).sha256 = [] <;> simp [noHash]

theorem handsOver_readBlock (repo : Str) (block : List Str) (idle : parser.pkg = none) :
    HandsOver repo block parser (emitPackage collect repo (readBlock parser block)) := by
  by_cases empty : block = []
  · subst empty
    have nothing : emitPackage collect repo (readBlock parser []) = parser := by
      rw [readBlock, List.foldl_nil, emitPackage, idle]
    rw [nothing]
    refine ⟨(List.append_nil _).symm, rfl, rfl, fun entry isEntry => ?_⟩
    cases isEntry
  · have one : (stanzasOf [block]).length = 1 := by
      simp [stanzasOf, empty]
    rw [readBlock_of_none empty idle, emitPackage]
    dsimp only
    by_cases noHash : (block.foldl readField (.blank parser.nextAddr)).sha256 = []
    · have none : hashedEntry repo parser.nextAddr block = none := if_pos noHash
      rw [if_pos noHash]
      refine ⟨by simp [none], by simp [none], by rw [one], fun entry isEntry => ?_⟩
      rw [none] at isEntry
      cases isEntry
    · have some : hashedEntry repo parser.nextAddr block =
          some (stanzaEntry repo parser.nextAddr block) := if_neg noHash
      rw [if_neg noHash]
      refine ⟨by rw [some]; rfl, by rw [some]; rfl, by rw [one], fun entry isEntry => ?_⟩
      rw [some, Option.some.injEq] at isEntry
      subst isEntry
      refine ⟨rfl, ?_⟩
      rw [emitPackage]
      exact if_neg noHash

/-- Below the limit, every stanza with a hash is handed over once. -/
theorem sink_readBlocks_of_lt {bs : List (List Str)} (nonempty : bs ≠ []) (idle : parser.pkg = none)
    (below : parser.count + (stanzasOf bs.dropLast).countP hasHash < limit) :
    (emitPackage collect repo (readBlocks limit collect repo bs parser)).sink =
      parser.sink ++ stanzaEntries repo parser.nextAddr (stanzasOf bs) := by
  induction bs generalizing parser with
  | nil => exact absurd rfl nonempty
  | cons block rest ih =>
    have handsOver := handsOver_readBlock repo block idle
    rw [stanzaEntries_stanzasOf_cons, ← append_assoc, ← handsOver.sink]
    by_cases last : rest = []
    · subst last
      rw [readBlocks, show stanzasOf [] = [] from rfl]
      exact (append_nil _).symm
    · rw [dropLast_cons_of_ne_nil last, ← length_stanzaEntries repo parser.nextAddr,
        stanzaEntries_stanzasOf_cons, length_append, length_stanzaEntries, ← Nat.add_assoc,
        ← handsOver.count] at below
      have goesOn : ¬ (completes (readBlock parser block) &&
          decide (limit ≤ (emitPackage collect repo (readBlock parser block)).count)) = true := by
        rw [Bool.and_eq_true, decide_eq_true_eq]
        omega
      rw [readBlocks_cons block last, if_neg goesOn, ← handsOver.nextAddr]
      exact @ih { emitPackage collect repo (readBlock parser block) with pkg := none }
        last rfl below

/-- When the limit is reached at an empty line, one entry too many is handed over. -/
theorem length_sink_readBlocks_of_le {bs : List (List Str)} (idle : parser.pkg = none)
    (begun : parser.count < limit)
    (reached : limit ≤ parser.count + (stanzasOf bs.dropLast).countP hasHash) :
    (emitPackage collect repo (readBlocks limit collect repo bs parser)).sink.length =
      parser.sink.length + (limit - parser.count) + 1 := by
  induction bs generalizing parser with
  | nil =>
    have none : (stanzasOf ([] : List (List Str)).dropLast).countP hasHash = 0 := rfl
    omega
  | cons block rest ih =>
    have handsOver := handsOver_readBlock repo block idle
    by_cases last : rest = []
    · subst last
      have none : (stanzasOf [block].dropLast).countP hasHash = 0 := rfl
      omega
    · rw [dropLast_cons_of_ne_nil last, ← length_stanzaEntries repo parser.nextAddr,
        stanzaEntries_stanzasOf_cons, length_append, length_stanzaEntries, ← Nat.add_assoc,
        ← handsOver.count] at reached
      rw [readBlocks_cons block last, completes_readBlock repo block idle]
      have sinkLength := congrArg length handsOver.sink
      have count := handsOver.count
      rw [length_append] at sinkLength
      by_cases stops : ((hashedEntry repo parser.nextAddr block).isSome &&
          decide (limit ≤ (emitPackage collect repo (readBlock parser block)).count)) = true
      · obtain ⟨isSome, atLimit⟩ := Bool.and_eq_true_iff.mp stops
        obtain ⟨entry, isEntry⟩ := isSome_iff_exists.mp isSome
        rw [if_pos stops, (handsOver.pkg entry isEntry).2]
        rw [decide_eq_true_eq, count, isEntry] at atLimit
        rw [isEntry] at sinkLength
        simp only [length_append, length_cons, length_nil, toList_some]
          at sinkLength atLimit ⊢
        omega
      · rw [if_neg stops]
        have notReached : (emitPackage collect repo (readBlock parser block)).count < limit := by
          cases isEntry : hashedEntry repo parser.nextAddr block with
          | none =>
            rw [count, isEntry]
            exact begun
          | some entry =>
            rw [isEntry] at stops
            simpa using stops
        have later := @ih { emitPackage collect repo (readBlock parser block) with pkg := none }
          rfl notReached reached
        rw [later]
        dsimp only
        omega

end Collecting

/-! ## Listings -/

/-- The stanzas with a hash that an empty line follows. -/
def completedStanzas (lines : List Str) : Nat :=
  (stanzasOf (blocks lines).dropLast).countP hasHash

/-- The number of stanzas with a hash is a bound for those that an empty line follows. -/
theorem completedStanzas_le (lines : List Str) :
    completedStanzas lines ≤ (stanzasOf (blocks lines)).countP hasHash :=
  ((dropLast_sublist _).filter _).countP_le

theorem listing_packages_eq (limit : Nat) (repo : Str) (lines : List Str) (nextAddr : Nat) :
    listing .packages limit repo lines nextAddr =
      (emitPackage collect repo
        (readBlocks limit collect repo (blocks lines) ⟨[], none, 0, nextAddr⟩)).sink := by
  have read := @readPackages_eq_readBlocks _ limit collect repo lines []
    ⟨[], none, 0, nextAddr⟩
  rw [show (([] : List Str) ++ ·) = id from rfl, modifyHead_id] at read
  exact congrArg (fun parser => (emitPackage collect repo parser).sink) read

/-- Below the limit a listing has the entry of every stanza with a hash. -/
theorem listing_packages_of_lt {lines : List Str} (below : completedStanzas lines < limit)
    (repo : Str) (nextAddr : Nat) :
    listing .packages limit repo lines nextAddr =
      stanzaEntries repo nextAddr (stanzasOf (blocks lines)) := by
  rw [listing_packages_eq]
  refine sink_readBlocks_of_lt (splitOnP_ne_nil _ lines) rfl ?_
  rw [Nat.zero_add]
  exact below

theorem length_listing_packages_of_le {lines : List Str} (positive : 1 ≤ limit)
    (reached : limit ≤ completedStanzas lines) (repo : Str) (nextAddr : Nat) :
    (listing .packages limit repo lines nextAddr).length = limit + 1 := by
  rw [listing_packages_eq]
  refine (length_sink_readBlocks_of_le rfl positive ?_).trans ?_
  · rw [Nat.zero_add]
    exact reached
  · rw [length_nil, Nat.zero_add, Nat.sub_zero]

/-! ## Identities of stanzas -/

theorem hashedEntry_eq_some {addr : Nat} {stanza : List Str} {entry : PackageInfo}
    (isEntry : hashedEntry repo addr stanza = some entry) :
    entry = stanzaEntry repo addr stanza := by
  unfold hashedEntry at isEntry
  split at isEntry
  · cases isEntry
  · exact (some.inj isEntry).symm

theorem stanzaEntry_addr (repo : Str) (addr : Nat) (stanza : List Str) :
    (stanzaEntry repo addr stanza).addr = addr := by
  rw [stanzaEntry_eq]

theorem le_addr_of_mem_stanzaEntries {stanzas : List (List Str)} {addr : Nat}
    {entry : PackageInfo} (mem : entry ∈ stanzaEntries repo addr stanzas) : addr ≤ entry.addr := by
  obtain ⟨⟨stanza, number⟩, listed, isEntry⟩ := mem_filterMap.mp mem
  rw [hashedEntry_eq_some isEntry, stanzaEntry_addr]
  exact (mem_zipIdx listed).1

theorem nodup_stanzaEntries (repo : Str) (addr : Nat) (stanzas : List (List Str)) :
    (stanzaEntries repo addr stanzas).Nodup := by
  induction stanzas generalizing addr with
  | nil => exact nodup_nil
  | cons stanza rest ih =>
    rw [stanzaEntries_cons]
    cases isEntry : hashedEntry repo addr stanza with
    | none => exact ih (addr + 1)
    | some entry =>
      refine nodup_cons.mpr ⟨fun mem => ?_, ih (addr + 1)⟩
      have later := le_addr_of_mem_stanzaEntries mem
      rw [hashedEntry_eq_some isEntry, stanzaEntry_addr] at later
      omega

end Debswarm.PackageIndex
