import Debswarm.Table.Core
import Debswarm.Text.Scan

/-!
# The package index

The index holds the entries of the index files it has loaded, in four maps: by content hash, by
repository and path, by base name, and by index file.  The last one records the current
generation of each file, so that loading a file again can replace what the file contributed
before.  Entries are shared between the maps and compared by identity, as pointers are.

The two parsers read the lines of a Packages or a Sources file and hand each entry to a sink as
soon as its stanza is complete.  Reading may break off: the lines delivered until then count,
and the load reports an error.
-/

namespace Debswarm.PackageIndex

open Table Text

universe u

/-- One package or source artifact.  `addr` is the identity of the entry. -/
structure PackageInfo where
  addr : Nat
  package : Str
  version : Str
  architecture : Str
  filename : Str
  size : Int
  sha256 : Str
  repo : Str
  deriving DecidableEq, Repr

/-- The four maps, and the next identity to hand out. -/
structure Index where
  packages : Table Str PackageInfo
  byRepo : Table Str (Table Str PackageInfo)
  byBasename : Table Str (List PackageInfo)
  byIndexFile : Table Str (List PackageInfo)
  nextAddr : Nat

def Index.new : Index :=
  ⟨empty, empty, empty, empty, 0⟩

/-! ## Lookups -/

/-- The entry filed under a content hash. -/
def getBySHA256 (index : Index) (sha256 : Str) : Option PackageInfo :=
  index.packages.find? sha256

def getByRepoAndPath (index : Index) (repo path : Str) : Option PackageInfo :=
  (index.byRepo.find? repo).bind fun entries => entries.find? path

/-- The entries filed under a base name. -/
def basenames (index : Index) (basename : Str) : List PackageInfo :=
  (index.byBasename.find? basename).getD []

/-- The current generation of an index file. -/
def generation (index : Index) (fileKey : Str) : List PackageInfo :=
  (index.byIndexFile.find? fileKey).getD []

/-- The suffixes of compressed files, in the order in which they are removed. -/
def compressionSuffixes : List Str :=
  [ofAscii ".gz", ofAscii ".xz", ofAscii ".lz4", ofAscii ".bz2", ofAscii ".zst"]

/-- Drop a suffix if it is there. -/
def trimSuffix (text suffix : Str) : Str :=
  if hasSuffix text suffix then text.take (text.length - suffix.length) else text

/-- The identity of an index file, shared by its by-hash names and compressed variants. -/
def indexFileKey (urlOrPath : Str) : Str :=
  match index (ofAscii "/by-hash/") urlOrPath with
  | some offset => urlOrPath.take offset
  | none => compressionSuffixes.foldl trimSuffix urlOrPath

def hasIndexFile (index : Index) (urlOrPath : Str) : Bool :=
  generation index (indexFileKey urlOrPath) ≠ []

/-- The text of a URL up to the directory of distributions or packages, or else its host. -/
def extractRepoFromURL (url : Str) : Str :=
  let stripped :=
    if (ofAscii "https://").isPrefixOf url then url.drop 8
    else if (ofAscii "http://").isPrefixOf url then url.drop 7
    else url
  match index (ofAscii "/dists/") stripped with
  | some offset => stripped.take offset
  | none =>
    match index (ofAscii "/pool/") stripped with
    | some offset => stripped.take offset
    | none =>
      match index (ofAscii "/") stripped with
      | some offset => stripped.take offset
      | none => stripped

/-! ## Adding entries -/

/-- File an entry under its hash, and under its path and base name if it has a file name. -/
def addPackage (index : Index) (entry : PackageInfo) : Index :=
  let filed := { index with packages := index.packages.set entry.sha256 entry }
  if entry.filename = [] then
    filed
  else
    let basename := pathBase entry.filename
    { filed with
      byRepo := filed.byRepo.insertOrUpdate entry.repo
        (empty.set entry.filename entry) fun entries => entries.set entry.filename entry
      byBasename := filed.byBasename.set basename (basenames filed basename ++ [entry]) }

/-- Make sure that a repository has a map of its own. -/
def ensureRepo (repo : Str) (index : Index) : Index :=
  match index.byRepo.find? repo with
  | some _ => index
  | none => { index with byRepo := index.byRepo.set repo empty }

/-- Record the generation that a load produced. -/
def recordGeneration (fileKey : Str) (entries : List PackageInfo) (index : Index) : Index :=
  if entries = [] then index
  else { index with byIndexFile := index.byIndexFile.set fileKey entries }

/-! ## Removing the previous generation -/

/-- Whether an entry is the given one, by identity. -/
def PackageInfo.isSame (entry current : PackageInfo) : Bool :=
  current.addr = entry.addr

/-- Drop an entry from the hash map if it is the one filed there. -/
def forgetHash (entry : PackageInfo) (packages : Table Str PackageInfo) :
    Table Str PackageInfo :=
  packages.deleteIf entry.sha256 entry.isSame

/-- Drop an entry from its repository's map if it is filed there, and an empty map with it. -/
def forgetPath (entry : PackageInfo) (byRepo : Table Str (Table Str PackageInfo)) :
    Table Str (Table Str PackageInfo) :=
  match byRepo.find? entry.repo with
  | none => byRepo
  | some entries =>
    let left := entries.deleteIf entry.filename entry.isSame
    if left.rows = [] then byRepo.delete entry.repo else byRepo.set entry.repo left

/-- Drop the entries of a generation from a base-name list, and an empty list with them. -/
def forgetBasename (old : List PackageInfo) (entry : PackageInfo)
    (byBasename : Table Str (List PackageInfo)) : Table Str (List PackageInfo) :=
  let basename := pathBase entry.filename
  let entries := (byBasename.find? basename).getD []
  if entry.filename = [] ∨ entries = [] then
    byBasename
  else
    let filtered := entries.filter fun other => !old.any fun forgotten => forgotten.isSame other
    if filtered = [] then byBasename.delete basename else byBasename.set basename filtered

/-- Drop one entry of a generation from the three lookup maps. -/
def forget (old : List PackageInfo) (index : Index) (entry : PackageInfo) : Index :=
  { index with
    packages := forgetHash entry index.packages
    byRepo := forgetPath entry index.byRepo
    byBasename := forgetBasename old entry index.byBasename }

/-- Remove the entries that the previous parse of an index file contributed. -/
def clearIndexFile (fileKey : Str) (index : Index) : Index :=
  let old := generation index fileKey
  if old = [] then
    index
  else
    let forgotten := old.foldl (forget old) index
    { forgotten with byIndexFile := forgotten.byIndexFile.delete fileKey }

/-- Remove everything. -/
def clear (index : Index) : Index :=
  { Index.new with nextAddr := index.nextAddr }

/-! ## Loading index files -/

variable {σ : Type u}

/-- How many entries one load may add. -/
def maxPackagesPerRepo : Nat :=
  500000

/-- Split a line at its first colon into a field name and a trimmed value. -/
def splitField (line : Str) : Option (Str × Str) :=
  (index (ofAscii ":") line).map fun offset =>
    (line.take offset, trimSpace (line.drop (offset + 1)))

/-! ## Packages files -/

/-- The parser of a Packages file: what was handed over, the entry being read, and counters. -/
structure PackagesParser (σ : Type u) where
  sink : σ
  pkg : Option PackageInfo
  count : Nat
  nextAddr : Nat

/-- An entry without fields. -/
def PackageInfo.blank (addr : Nat) : PackageInfo :=
  ⟨addr, [], [], [], [], 0, [], []⟩

/-- Read one field into an entry.  A size that is no number is ignored. -/
def setField (field value : Str) (pkg : PackageInfo) : PackageInfo :=
  if field = ofAscii "Package" then { pkg with package := value }
  else if field = ofAscii "Version" then { pkg with version := value }
  else if field = ofAscii "Architecture" then { pkg with architecture := value }
  else if field = ofAscii "Filename" then { pkg with filename := value }
  else if field = ofAscii "Size" then
    if (parseInt64 value).2 then { pkg with size := (parseInt64 value).1 } else pkg
  else if field = ofAscii "SHA256" then { pkg with sha256 := value }
  else pkg

/-- Hand over the entry being read, if it has a hash.  It stays the entry being read. -/
def emitPackage (add : σ → PackageInfo → σ) (repo : Str) (parser : PackagesParser σ) :
    PackagesParser σ :=
  match parser.pkg with
  | none => parser
  | some pkg =>
    if pkg.sha256 = [] then parser
    else
      let filed := { pkg with repo }
      { parser with
        sink := add parser.sink filed
        pkg := some filed
        count := parser.count + 1 }

/-- Whether the entry being read would be handed over. -/
def completes (parser : PackagesParser σ) : Bool :=
  parser.pkg.any fun pkg => pkg.sha256 ≠ []

/-- Begin a new entry unless one is being read. -/
def startPackage (parser : PackagesParser σ) : PackagesParser σ :=
  match parser.pkg with
  | some _ => parser
  | none =>
    { parser with
      pkg := some (.blank parser.nextAddr)
      nextAddr := parser.nextAddr + 1 }

/-- Read a line that is not empty. -/
def readPackageLine (line : Str) (parser : PackagesParser σ) : PackagesParser σ :=
  match splitField line with
  | none => startPackage parser
  | some (field, value) =>
    { startPackage parser with pkg := (startPackage parser).pkg.map (setField field value) }

/-- Read lines until they end or the limit is reached, which leaves the entry being read. -/
def readPackages (limit : Nat) (add : σ → PackageInfo → σ) (repo : Str) :
    List Str → PackagesParser σ → PackagesParser σ
  | [], parser => parser
  | line :: rest, parser =>
    if line = [] then
      let emitted := emitPackage add repo parser
      if completes parser && limit ≤ emitted.count then emitted
      else readPackages limit add repo rest { emitted with pkg := none }
    else
      readPackages limit add repo rest (readPackageLine line parser)

/-- Parse a Packages file. The entry being read at the end is handed over too. -/
def parsePackages (limit : Nat) (add : σ → PackageInfo → σ) (repo : Str) (lines : List Str)
    (nextAddr : Nat) (sink : σ) : PackagesParser σ :=
  emitPackage add repo (readPackages limit add repo lines ⟨sink, none, 0, nextAddr⟩)

/-! ## Sources files -/

/-- One line of a checksum block. -/
structure FileEntry where
  sha256 : Str
  size : Int
  name : Str
  deriving DecidableEq, Repr

/-- The parser of a Sources file: what was handed over, the stanza's accumulators, counters. -/
structure SourcesParser (σ : Type u) where
  sink : σ
  srcName : Str
  directory : Str
  files : List FileEntry
  inChecksums : Bool
  count : Nat
  nextAddr : Nat

/-- Whether a string is a SHA-256 in hexadecimal digits of either case. -/
def isHex64 (text : Str) : Bool :=
  text.length = 64 &&
    text.all fun byte =>
      (48 ≤ byte && byte ≤ 57) || (97 ≤ byte && byte ≤ 102) || (65 ≤ byte && byte ≤ 70)

/-- The entry of one artifact of the stanza being read. -/
def artifact (repo : Str) (file : FileEntry) (parser : SourcesParser σ) : PackageInfo where
  addr := parser.nextAddr
  package := parser.srcName
  version := []
  architecture := []
  filename := parser.directory ++ ofAscii "/" ++ file.name
  size := file.size
  sha256 := file.sha256
  repo := repo

/-- Hand over one artifact of the stanza being read. -/
def emitFile (add : σ → PackageInfo → σ) (repo : Str) (file : FileEntry)
    (parser : SourcesParser σ) : SourcesParser σ :=
  { parser with
    sink := add parser.sink (artifact repo file parser)
    count := parser.count + 1
    nextAddr := parser.nextAddr + 1 }

/-- Hand over the artifacts of a stanza until they end or, as the flag says, the limit. -/
def emitFiles (limit : Nat) (add : σ → PackageInfo → σ) (repo : Str) :
    List FileEntry → SourcesParser σ → SourcesParser σ × Bool
  | [], parser => (parser, false)
  | file :: rest, parser =>
    if file.sha256 = [] ∨ file.name = [] then
      emitFiles limit add repo rest parser
    else if limit ≤ (emitFile add repo file parser).count then
      (emitFile add repo file parser, true)
    else
      emitFiles limit add repo rest (emitFile add repo file parser)

/-- Hand over the stanza being read and begin a new one; the flag says if the limit is reached. -/
def emitStanza (limit : Nat) (add : σ → PackageInfo → σ) (repo : Str)
    (parser : SourcesParser σ) : SourcesParser σ × Bool :=
  let emitted :=
    if parser.directory = [] then (parser, false)
    else emitFiles limit add repo parser.files parser
  ({ emitted.1 with
      srcName := []
      directory := []
      files := []
      inChecksums := false },
    emitted.2)

/-- Whether a line starts with a blank or a tab. -/
def indented (line : Str) : Bool :=
  line.head? = some 32 || line.head? = some 9

/-- The file that a line of a checksum block lists. -/
def checksumLine (line : Str) : Option FileEntry :=
  match fields line with
  | digest :: size :: name :: _ =>
    if isHex64 digest then some ⟨digest.map lowerByte, (parseInt64 size).1, name⟩ else none
  | _ => none

/-- Read a line that is not empty. -/
def readSourceLine (line : Str) (parser : SourcesParser σ) : SourcesParser σ :=
  if parser.inChecksums && indented line then
    { parser with files := parser.files ++ (checksumLine line).toList }
  else
    let closed := { parser with inChecksums := false }
    match splitField line with
    | none => closed
    | some (field, value) =>
      if field = ofAscii "Package" then { closed with srcName := value }
      else if field = ofAscii "Directory" then
        { closed with directory := trimRight value 47 }
      else if field = ofAscii "Checksums-Sha256" then { closed with inChecksums := true }
      else closed

/-- Read lines until they end or the limit is reached; the flag says whether it was. -/
def readSources (limit : Nat) (add : σ → PackageInfo → σ) (repo : Str) :
    List Str → SourcesParser σ → SourcesParser σ × Bool
  | [], parser => (parser, false)
  | line :: rest, parser =>
    if line = [] then
      match emitStanza limit add repo parser with
      | (emitted, true) => (emitted, true)
      | (emitted, false) => readSources limit add repo rest emitted
    else
      readSources limit add repo rest (readSourceLine line parser)

/-- Parse a Sources file. The last stanza is handed over too, below the limit. -/
def parseSources (limit : Nat) (add : σ → PackageInfo → σ) (repo : Str) (lines : List Str)
    (nextAddr : Nat) (sink : σ) : SourcesParser σ :=
  match readSources limit add repo lines ⟨sink, [], [], [], false, 0, nextAddr⟩ with
  | (parser, true) => parser
  | (parser, false) => (emitStanza limit add repo parser).1

/-! ## Loads -/

/-- The two kinds of index files. -/
inductive Kind
  | packages
  | sources
  deriving DecidableEq, Repr

/-- Parse lines of either kind: what was handed over and the next identity. -/
def parse (kind : Kind) (limit : Nat) (add : σ → PackageInfo → σ) (repo : Str)
    (lines : List Str) (nextAddr : Nat) (sink : σ) : σ × Nat :=
  match kind with
  | .packages =>
    let parser := parsePackages limit add repo lines nextAddr sink
    (parser.sink, parser.nextAddr)
  | .sources =>
    let parser := parseSources limit add repo lines nextAddr sink
    (parser.sink, parser.nextAddr)

/-- The sink of a load: file an entry and add it to the generation. -/
def addToLoad (load : Index × List PackageInfo) (entry : PackageInfo) :
    Index × List PackageInfo :=
  (addPackage load.1 entry, load.2 ++ [entry])

/-- Parse text for a repository in place of the previous generation of the file. Reading may break
off behind the text, which a load at its limit is taken to meet. -/
def parseForRepo (kind : Kind) (limit : Nat) (text : Str) (broken : Bool) (repo fileKey : Str)
    (index : Index) : Bool × Index :=
  let scanned := scanLines text
  let ready := ensureRepo repo (clearIndexFile fileKey index)
  let ((filed, entries), nextAddr) :=
    parse kind limit addToLoad repo scanned.1 ready.nextAddr (ready, [])
  (!(broken || scanned.2), recordGeneration fileKey entries { filed with nextAddr })

/-- The decompressors: the text of a stream and whether it broke off, or nothing. -/
structure Decompressors where
  gzip : Str → Option (Str × Bool)
  xz : Str → Option (Str × Bool)
  zstd : Str → Option (Str × Bool)
  lz4 : Str → Str × Bool

/-- The most text that a compressed file may decompress to. -/
def maxDecompressedBytes : Nat :=
  512 * 1024 * 1024

/-- Stop reading at the limit; what lies beyond it is not read and cannot fail. -/
def limitText (text : Str × Bool) : Str × Bool :=
  if maxDecompressedBytes ≤ text.1.length then (text.1.take maxDecompressedBytes, false) else text

/-- The text of a body whose compression is told by its first bytes. -/
def decompressByMagic (decompressors : Decompressors) (data : Str) : Option (Str × Bool) :=
  if [0x1f, 0x8b].isPrefixOf data then (decompressors.gzip data).map limitText
  else if [0xfd, 55, 122, 88, 90, 0].isPrefixOf data then (decompressors.xz data).map limitText
  else if [0x28, 0xb5, 0x2f, 0xfd].isPrefixOf data then (decompressors.zstd data).map limitText
  else if [0x04, 0x22, 0x4d, 0x18].isPrefixOf data then some (limitText (decompressors.lz4 data))
  else some (data, false)

/-- Load a body of either kind that was served under a URL. -/
def loadFromData (decompressors : Decompressors) (kind : Kind) (limit : Nat) (data url : Str)
    (index : Index) : Bool × Index :=
  match decompressByMagic decompressors data with
  | none => (false, index)
  | some (text, broken) =>
    parseForRepo kind limit text broken (extractRepoFromURL url) (indexFileKey url) index

end Debswarm.PackageIndex
