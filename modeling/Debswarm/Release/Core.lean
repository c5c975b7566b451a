import Debswarm.Table.Core
import Debswarm.Text.Scan

/-!
# Release files

A Release lists the index files of a suite with their sizes and hashes.  Parsing it
checks no signature.  The parsed form holds the list twice: by path, and as the set of
all hashes, for files that are requested by their hash.
-/

namespace Debswarm

open List Text

/-- The hash and the size that a Release lists for a file. -/
structure Release.FileHash where
  sha256 : Str
  size : Int
  deriving DecidableEq, Repr

/-- A parsed Release.  Every hash that is listed for a path is in the set of hashes. -/
structure Release where
  origin : Str
  suite : Str
  codename : Str
  acquireByHash : Bool
  sha256 : Table Str Release.FileHash
  hashSet : List Str
  listed : ∀ path file, sha256.find? path = some file → file.sha256 ∈ hashSet

namespace Release

/-- Whether a hash is listed for any file. -/
def hasHash (lib : Libraries) (release : Release) (hexSHA256 : Str) : Bool :=
  toLower lib.unicodeLower hexSHA256 ∈ release.hashSet

/-- The largest Release line. -/
def maxReleaseSize : Nat :=
  32 * 1024 * 1024

/-- Why a body is no usable Release. -/
inductive ParseError
  | scanner
  | noSHA256
  deriving DecidableEq, Repr

/-- Nothing was read yet. -/
def empty : Release where
  origin := []
  suite := []
  codename := []
  acquireByHash := false
  sha256 := Table.empty
  hashSet := []
  listed := by simp

/-- Add a file. A later entry for a path replaces an earlier one; both hashes stay. -/
def addFile (release : Release) (path : Str) (file : FileHash) : Release :=
  { release with
    sha256 := release.sha256.set path file
    hashSet := release.hashSet.insert file.sha256
    listed := by
      intro other found foundEq
      rw [Table.find?_set] at foundEq
      split at foundEq
      · cases foundEq
        exact List.mem_insert_self
      · exact List.mem_insert_of_mem (release.listed other found foundEq) }

/-- Split a line at its first colon. -/
def splitField (line : Str) : Option (Str × Str) :=
  (index (ofAscii ":") line).map fun offset =>
    (trimSpace (line.take offset), trimSpace (line.drop (offset + 1)))

/-- Map the letters that fold to a lower-case ASCII letter. -/
def foldCase : Str → Str
  | 0xC5 :: 0xBF :: rest => 115 :: foldCase rest
  | 0xE2 :: 0x84 :: 0xAA :: rest => 107 :: foldCase rest
  | byte :: rest => lowerByte byte :: foldCase rest
  | [] => []

def setField (key value : Str) (release : Release) : Release :=
  if key = ofAscii "Origin" then { release with origin := value }
  else if key = ofAscii "Suite" then { release with suite := value }
  else if key = ofAscii "Codename" then { release with codename := value }
  else if key = ofAscii "Acquire-By-Hash" then
    { release with acquireByHash := foldCase value = ofAscii "yes" }
  else release

/-- Read one line; the flag says whether the SHA256 section is being read. -/
def readLine (lib : Libraries) (parser : Release × Bool) (line : Str) : Release × Bool :=
  match line with
  | [] => parser
  | first :: _ =>
    if first = 32 ∨ first = 9 then
      match parser.2, fields line with
      | true, hash :: size :: path :: _ =>
        (addFile parser.1 path ⟨toLower lib.unicodeLower hash, (parseInt64 size).1⟩, true)
      | _, _ => parser
    else
      match splitField line with
      | none => (parser.1, false)
      | some (key, value) =>
        if key = ofAscii "SHA256" then (parser.1, true)
        else (setField key value parser.1, false)

/-- Parse a Release body. -/
def parse (lib : Libraries) (body : Str) : Except ParseError Release :=
  let scanned := scanLinesWithin maxReleaseSize body
  let release := (scanned.1.foldl (readLine lib) (empty, false)).1
  if scanned.2 then .error .scanner
  else if release.sha256.rows = [] then .error .noSHA256
  else .ok release

example :
    ((parse ⟨hexEncode64, id⟩ (ofAscii "Suite: s\nSHA256:\n AB 3 main/Packages\n")).toOption.map
      fun release => (release.suite, release.hashSet)) =
        some (ofAscii "s", [ofAscii "ab"]) := by
  decide

/-! ## What a Release lists -/

/-- Whether the lines after this one are in a SHA256 section. -/
def sectionAfter (inSHA256 : Bool) : Str → Bool
  | [] => inSHA256
  | first :: rest =>
    if first = 32 ∨ first = 9 then inSHA256
    else (splitField (first :: rest)).any fun field => field.1 = ofAscii "SHA256"

/-- The path that an indented line lists, with its hash as it is written and its size. -/
def lineEntry : Str → Option (Str × FileHash)
  | [] => none
  | first :: rest =>
    if first = 32 ∨ first = 9 then
      match fields (first :: rest) with
      | hash :: size :: path :: _ => some (path, ⟨hash, (parseInt64 size).1⟩)
      | _ => none
    else none

/-- The entries of the SHA256 sections, in their order. -/
def entries (inSHA256 : Bool) : List Str → List (Str × FileHash)
  | [] => []
  | line :: rest =>
    (if inSHA256 then (lineEntry line).toList else []) ++ entries (sectionAfter inSHA256 line) rest

variable (lib : Libraries)

/-- An entry as it is stored. -/
def FileHash.lower (file : FileHash) : FileHash :=
  { file with sha256 := toLower lib.unicodeLower file.sha256 }

/-- The last of the entries for a path. -/
def lastListed (listing : List (Str × FileHash)) (path : Str) : Option FileHash :=
  (listing.filter fun entry => entry.1 = path).getLast?.map fun entry => entry.2.lower lib

/-- A Release that was read from some entries. -/
structure Lists (listing : List (Str × FileHash)) (release : Release) : Prop where
  byPath : ∀ path, release.sha256.find? path = lastListed lib listing path
  hashes : ∀ digest, digest ∈ release.hashSet ↔
    ∃ entry ∈ listing, (entry.2.lower lib).sha256 = digest

variable {lib} {listing : List (Str × FileHash)} {release : Release}

section

variable (lists : Lists lib listing release)

include lists

theorem Lists.addFile (path : Str) (file : FileHash) :
    Lists lib (listing ++ [(path, file)]) (addFile release path (file.lower lib)) where
  byPath other := by
    rw [Release.addFile, Table.find?_set, lists.byPath, lastListed, lastListed, filter_append]
    by_cases same : path = other
    · simp [same]
    · simp [same, Ne.symm same]
  hashes digest := by
    simp only [Release.addFile, mem_insert_iff, lists.hashes, mem_append,
      mem_singleton, or_and_right, exists_or, exists_eq_left]
    rw [or_comm, eq_comm]

theorem Lists.setField (key value : Str) :
    Lists lib listing (setField key value release) := by
  obtain ⟨byPath, hashes⟩ := lists
  unfold Release.setField
  split_ifs
  all_goals exact ⟨byPath, hashes⟩

/-- A line adds its entry if it is in a SHA256 section. -/
theorem Lists.readLine (inSHA256 : Bool) (line : Str) :
    (readLine lib (release, inSHA256) line).2 = sectionAfter inSHA256 line ∧
      Lists lib (listing ++ if inSHA256 then (lineEntry line).toList else [])
        (readLine lib (release, inSHA256) line).1 := by
  cases line with
  | nil => cases inSHA256 <;> simpa [Release.readLine, sectionAfter, lineEntry] using lists
  | cons first rest =>
    unfold Release.readLine sectionAfter lineEntry
    by_cases indented : first = 32 ∨ first = 9
    · simp only [indented, if_true]
      cases inSHA256 with
      | false => exact ⟨rfl, by simpa using lists⟩
      | true =>
        rcases fields (first :: rest) with _ | ⟨hash, _ | ⟨size, _ | ⟨path, more⟩⟩⟩
        · simpa using lists
        · simpa using lists
        · simpa using lists
        · exact ⟨rfl, lists.addFile path ⟨hash, (parseInt64 size).1⟩⟩
    · simp only [indented, if_false]
      cases splitField (first :: rest) with
      | none => exact ⟨rfl, by simpa using lists⟩
      | some field =>
        by_cases isSHA256 : field.1 = ofAscii "SHA256"
        · simpa [isSHA256] using lists
        · simpa [isSHA256] using lists.setField field.1 field.2

theorem Lists.foldl_readLine (inSHA256 : Bool)
    (text : List Str) :
    Lists lib (listing ++ entries inSHA256 text)
      (text.foldl (Release.readLine lib) (release, inSHA256)).1 := by
  induction text generalizing release inSHA256 listing with
  | nil => simpa [entries] using lists
  | cons line rest ih =>
    obtain ⟨isAfter, stepped⟩ := lists.readLine inSHA256 line
    rw [foldl_cons, entries, ← append_assoc, ← isAfter]
    exact ih stepped _

end

/-- The map of a parsed Release has the last entry of every path of the SHA256 sections, and the set
has every listed hash in any letter case. -/
theorem parse_eq_entries {body : Str} (parsed : parse lib body = .ok release) :
    let listing := entries false (scanLinesWithin maxReleaseSize body).1
    let assigned := fun digest => ∃ path file, release.sha256.find? path = some file ∧
      file.sha256 = toLower lib.unicodeLower digest
    (∀ path, release.sha256.find? path = lastListed lib listing path) ∧
      (∀ digest, hasHash lib release digest ↔ ∃ entry ∈ listing,
        (entry.2.lower lib).sha256 = toLower lib.unicodeLower digest) ∧
      ((∀ digest, hasHash lib release digest ↔ assigned digest) ↔
        ∀ entry ∈ listing, assigned entry.2.sha256) := by
  intro listing assigned
  have none : Lists lib [] empty := ⟨fun _ => rfl, fun digest => by simp [empty]⟩
  have lists : Lists lib listing release := by
    have folded := none.foldl_readLine false (scanLinesWithin maxReleaseSize body).1
    unfold parse at parsed
    grind
  have hashes : ∀ digest, hasHash lib release digest ↔ ∃ entry ∈ listing,
      (entry.2.lower lib).sha256 = toLower lib.unicodeLower digest := by
    intro digest
    rw [hasHash, decide_eq_true_iff, lists.hashes]
  refine ⟨lists.byPath, hashes, ?_, ?_⟩
  · intro same entry mem
    exact (same entry.2.sha256).mp ((hashes entry.2.sha256).mpr ⟨entry, mem, rfl⟩)
  · intro every digest
    rw [hashes]
    constructor
    · rintro ⟨entry, mem, isDigest⟩
      obtain ⟨path, file, found, isFile⟩ := every entry mem
      exact ⟨path, file, found, isFile.trans isDigest⟩
    · rintro ⟨path, file, found, isFile⟩
      exact (hashes digest).mp (decide_eq_true (isFile ▸ release.listed path file found))

/-- Of two entries for a path the map has the second, and both hashes are in the set. -/
theorem hasHash_of_replaced_entry :
    let parsed := parse ⟨hexEncode64, id⟩ (ofAscii "SHA256:\n aa 1 Packages\n bb 1 Packages\n")
    parsed.toOption.map (fun release => (release.sha256.rows,
        hasHash ⟨hexEncode64, id⟩ release (ofAscii "aa"))) =
      some ([(ofAscii "Packages", ⟨ofAscii "bb", 1⟩)], true) := by
  decide

/-- Where each path has one entry, the set has the hashes of the map. -/
theorem parse_eq_entries_of_two_paths :
    let lib : Libraries := ⟨hexEncode64, id⟩
    let body := ofAscii "MD5Sum:\n cc 1 Packages\nSHA256:\n AA 1 Packages\n bb 1 Sources\n"
    ∃ release, parse lib body = .ok release ∧
      release.sha256.find? (ofAscii "Packages") = some ⟨ofAscii "aa", 1⟩ ∧
      hasHash lib release (ofAscii "BB") ∧ ¬ hasHash lib release (ofAscii "cc") ∧
      ∀ path, release.sha256.find? path =
        lastListed lib (entries false (scanLinesWithin maxReleaseSize body).1) path := by
  intro lib body
  refine ⟨_, rfl, by decide, by decide, by decide, ?_⟩
  exact (@parse_eq_entries lib _ body rfl).1

end Release

end Debswarm
