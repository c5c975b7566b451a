import Debswarm.Text.Bytes

/-!
# Request URLs

How the proxy reads a request URL: what kind of file it names, which repository base its
Release is found under, and which digest a by-hash URL carries.  Most questions are asked of
the lower-cased URL.

The proxy looks for its markers in the whole URL.  A marker that begins with a slash is also
found at the slash before the host, so that a host can pass for a directory of the repository,
and the markers of source packages are found in the host itself.
-/

namespace Debswarm.Proxy

open Bool List Option Text

/-! ## The kind of a request -/

/-- What a request is for. -/
inductive RequestType
  | package
  | index
  | release
  | unknown
  deriving DecidableEq, Repr

/-- A lower-cased by-hash URL of a flat repository, and of no component without packages. -/
def isFlatByHash (lower : Str) : Bool :=
  !contains lower (ofAscii "/dists/") && !contains lower (ofAscii "/i18n/") &&
    !contains lower (ofAscii "/cnf/") && !contains lower (ofAscii "/dep11/")

/-- Whether a lower-cased URL names a file of a source package. -/
def isSourceArtifactURL (lower : Str) : Bool :=
  hasSuffix lower (ofAscii ".dsc") || hasSuffix lower (ofAscii ".diff.gz") ||
    contains lower (ofAscii ".orig.tar.") || contains lower (ofAscii ".debian.tar.") ||
    (contains lower (ofAscii ".orig-") && contains lower (ofAscii ".tar.")) ||
    (contains lower (ofAscii "/pool/") &&
      (hasSuffix lower (ofAscii ".tar.gz") || hasSuffix lower (ofAscii ".tar.xz") ||
        hasSuffix lower (ofAscii ".tar.bz2") || hasSuffix lower (ofAscii ".tar.lz") ||
        hasSuffix lower (ofAscii ".tar.zst")))

/-- The kind of file that a URL names. -/
def classifyRequest (lib : Libraries) (url : Str) : RequestType :=
  let lower := toLower lib.unicodeLower url
  if hasSuffix lower (ofAscii ".deb") || hasSuffix lower (ofAscii ".udeb") ||
      hasSuffix lower (ofAscii ".ddeb") then .package
  else if isSourceArtifactURL lower then .package
  else if contains lower (ofAscii "/packages") || contains lower (ofAscii "/sources") then .index
  else if contains lower (ofAscii "/by-hash/") && (contains lower (ofAscii "/binary-") ||
      contains lower (ofAscii "/source/") || isFlatByHash lower) then .index
  else if contains lower (ofAscii "/release") || contains lower (ofAscii "/inrelease") then .release
  else .unknown

def isPackagesIndexURL (lib : Libraries) (url : Str) : Bool :=
  let lower := toLower lib.unicodeLower url
  (contains lower (ofAscii "/packages") && !contains lower (ofAscii "/translation")) ||
    (contains lower (ofAscii "/by-hash/") &&
      (contains lower (ofAscii "/binary-") || isFlatByHash lower))

def isSourcesIndexURL (lib : Libraries) (url : Str) : Bool :=
  let lower := toLower lib.unicodeLower url
  !contains lower (ofAscii "/pool/") && contains lower (ofAscii "/source/") &&
    (contains lower (ofAscii "/sources") || contains lower (ofAscii "/by-hash/"))

/-- Whether a URL is one of an index that is checked against a Release. -/
def isVerifiableIndexURL (lib : Libraries) (url : Str) : Bool :=
  isPackagesIndexURL lib url || isSourcesIndexURL lib url

/-! ## The base of a repository -/

/-- The URL up to and with the suite of a distribution, or nothing. -/
def distBaseURL (rawURL : Str) : Str :=
  let marker := ofAscii "/dists/"
  match index marker rawURL with
  | none => []
  | some start =>
    match index (ofAscii "/") (rawURL.drop (start + marker.length)) with
    | none => []
    | some slash => rawURL.take (start + marker.length + slash + 1)

/-- The directory of the file, or the one that holds the by-hash directory. -/
def flatBaseURL (rawURL : Str) : Str :=
  match index (ofAscii "/by-hash/") rawURL with
  | some start => rawURL.take (start + 1)
  | none => (rawURL.reverse.dropWhile (· ≠ 47)).reverse

/-- The base under which the Release of a file is found. -/
def verificationBaseURL (rawURL : Str) : Str :=
  let dist := distBaseURL rawURL
  if dist ≠ [] then dist else flatBaseURL rawURL

/-- The digest that a by-hash URL carries, in lower case, or nothing. -/
def byHashDigest (lib : Libraries) (rawURL : Str) : Str :=
  let marker := ofAscii "/by-hash/SHA256/"
  match index marker rawURL with
  | none => []
  | some start => toLower lib.unicodeLower (rawURL.drop (start + marker.length))

example :
    verificationBaseURL (ofAscii "http://h/debian/dists/s/main/by-hash/SHA256/AB") =
        ofAscii "http://h/debian/dists/s/" ∧
      verificationBaseURL (ofAscii "http://h/flat/by-hash/SHA256/AB") = ofAscii "http://h/flat/" ∧
      byHashDigest ⟨hexEncode64, id⟩ (ofAscii "http://h/flat/by-hash/SHA256/AB") =
        ofAscii "ab" := by
  decide

/-! ## The parts of a URL -/

inductive Scheme
  | http
  | https
  deriving DecidableEq, Repr

def Scheme.text : Scheme → Str
  | .http => ofAscii "http"
  | .https => ofAscii "https"

/-- The host of a URL, with its port if there is one. -/
structure HostName where
  text : Str
  ascii : ∀ byte ∈ text, byte < 128
  noSlash : 47 ∉ text

/-- The bytes of a concrete text are checked one by one, not among all bytes. -/
theorem ascii_of_all {text : Str} (all : text.all (· < 128) = true) :
    ∀ byte ∈ text, byte < 128 := by
  intro byte mem
  exact of_decide_eq_true (all_eq_true.mp all byte mem)

/-- The part of a URL after the host: nothing, or something that begins with a slash. -/
structure URLPath where
  text : Str
  rooted : text = [] ∨ text.head? = some 47

def requestURL (scheme : Scheme) (host : HostName) (path : URLPath) : Str :=
  scheme.text ++ ofAscii "://" ++ host.text ++ path.text

/-- Lower-casing goes character by character, and an ASCII byte is a character. -/
def LowersByByte (unicodeLower : Str → Str) : Prop :=
  ∀ byte rest, byte < 128 →
    unicodeLower (byte :: rest) = lowerByte byte :: toLower unicodeLower rest

/-- All answers that the kind of a request is decided by. -/
def SameAnswers (lib : Libraries) (url other : Str) : Prop :=
  classifyRequest lib url = classifyRequest lib other ∧
    isPackagesIndexURL lib url = isPackagesIndexURL lib other ∧
    isSourcesIndexURL lib url = isSourcesIndexURL lib other

/-! ## What a host is taken for -/

/-- What a host can be taken for because of the slash before it. -/
inductive HostKind
  | packages
  | sources
  | release
  | binary
  | translation
  | source
  | byHash
  | component
  | pool
  | plain
  deriving DecidableEq, Repr

namespace HostKind

def all : List HostKind :=
  [packages, sources, release, binary, translation, source, byHash, component, pool, plain]

/-- The markers of a kind, after their first slash. -/
def markers : HostKind → List Str
  | packages => [ofAscii "packages"]
  | sources => [ofAscii "sources"]
  | release => [ofAscii "release", ofAscii "inrelease"]
  | binary => [ofAscii "binary-"]
  | translation => [ofAscii "translation"]
  | source => [ofAscii "source/"]
  | byHash => [ofAscii "by-hash/"]
  | component => [ofAscii "dists/", ofAscii "i18n/", ofAscii "cnf/", ofAscii "dep11/"]
  | pool => [ofAscii "pool/"]
  | plain => []

/-- Whether a host begins with a marker, or is one that ends in a slash. -/
def matchedBy (host : Str) (kind : HostKind) : Bool :=
  kind.markers.any fun marker => marker.isPrefixOf (host ++ [47])

end HostKind

/-- What a lower-cased host is taken for. -/
def hostKind (host : Str) : HostKind :=
  (HostKind.all.find? (HostKind.matchedBy host)).getD .plain

def hasSourceMarker (text : Str) : Bool :=
  contains text (ofAscii ".orig.tar.") || contains text (ofAscii ".debian.tar.") ||
    (contains text (ofAscii ".orig-") && contains text (ofAscii ".tar."))

def endsLikePackage (text : Str) : Bool :=
  hasSuffix text (ofAscii ".deb") || hasSuffix text (ofAscii ".udeb") ||
    hasSuffix text (ofAscii ".ddeb") || hasSuffix text (ofAscii ".dsc") ||
    hasSuffix text (ofAscii ".diff.gz")

def endsLikeTarball (text : Str) : Bool :=
  hasSuffix text (ofAscii ".tar.gz") || hasSuffix text (ofAscii ".tar.xz") ||
    hasSuffix text (ofAscii ".tar.bz2") || hasSuffix text (ofAscii ".tar.lz") ||
    hasSuffix text (ofAscii ".tar.zst")

/-- The markers of a host. With both marks of a source archive, every request is for a package. -/
structure HostMarks where
  kind : HostKind
  orig : Bool
  tar : Bool
  package : Bool
  kindHidden : orig = true → tar = true → kind ≠ .release
  packageHidden : orig = true → tar = true → package = true
  deriving DecidableEq

/-- A host with the full marker of a source archive passes for one with both halves. -/
theorem hasSourceMarker_eq (text : Str) :
    ((hasSourceMarker text || contains text (ofAscii ".orig-")) &&
        (hasSourceMarker text || contains text (ofAscii ".tar."))) = hasSourceMarker text := by
  cases marked : hasSourceMarker text with
  | true => rfl
  | false =>
    rw [hasSourceMarker, or_eq_false_iff] at marked
    exact marked.2

def hostMarks (host : Str) : HostMarks where
  kind := if hasSourceMarker host && hostKind host = .release then .plain else hostKind host
  orig := hasSourceMarker host || contains host (ofAscii ".orig-")
  tar := hasSourceMarker host || contains host (ofAscii ".tar.")
  package := hasSourceMarker host || endsLikePackage host
  kindHidden orig tar := by
    have marked := hasSourceMarker_eq host
    rw [orig, tar] at marked
    rw [← marked]
    by_cases isRelease : hostKind host = .release
    · rw [if_pos (by simpa using isRelease)]
      nofun
    · rw [if_neg (by simpa using isRelease)]
      exact isRelease
  packageHidden orig tar := by
    have marked := hasSourceMarker_eq host
    rw [orig, tar] at marked
    rw [← marked]
    rfl

example :
    (hostMarks (ofAscii "packages.microsoft.com")).kind = .packages ∧
      (hostMarks (ofAscii "source")).kind = .source ∧
      hostMarks (ofAscii "deb.debian.org") = ⟨.plain, false, false, false, nofun, nofun⟩ := by
  decide

/-! ### Every host is of one kind -/

theorem HostKind.markers_incomparable : ∀ first ∈ all, ∀ second ∈ all,
    ∀ marker ∈ first.markers, ∀ other ∈ second.markers, marker <+: other → first = second := by
  decide +kernel

theorem HostKind.mem_all (kind : HostKind) : kind ∈ all := by
  cases kind <;> decide

theorem HostKind.matchedBy_unique {host : Str} {first second : HostKind}
    (isFirst : first.matchedBy host = true) (isSecond : second.matchedBy host = true) :
    first = second := by
  obtain ⟨marker, mem, front⟩ := any_eq_true.mp isFirst
  obtain ⟨other, otherMem, otherFront⟩ := any_eq_true.mp isSecond
  rcases prefix_or_prefix_of_prefix (List.isPrefixOf_iff_prefix.mp front)
      (List.isPrefixOf_iff_prefix.mp otherFront) with inOther | inMarker
  · exact markers_incomparable first first.mem_all second second.mem_all marker mem other otherMem
      inOther
  · exact (markers_incomparable second second.mem_all first first.mem_all other otherMem marker
      mem inMarker).symm

theorem matchedBy_eq (host : Str) {kind : HostKind} (notPlain : kind ≠ .plain) :
    kind.matchedBy host = decide (hostKind host = kind) := by
  unfold hostKind
  cases found : HostKind.all.find? (HostKind.matchedBy host) with
  | none =>
    have unmatched := find?_eq_none.mp found kind kind.mem_all
    rw [getD_none, decide_eq_false (Ne.symm notPlain)]
    exact not_eq_true _ ▸ unmatched
  | some first =>
    have isFirst := find?_some found
    rw [getD_some]
    by_cases same : first = kind
    · rw [decide_eq_true same, ← same]
      exact isFirst
    · rw [decide_eq_false same, ← not_eq_true]
      exact fun isKind => same (HostKind.matchedBy_unique isFirst isKind)

end Debswarm.Proxy
