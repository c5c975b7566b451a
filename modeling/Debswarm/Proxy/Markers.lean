import Debswarm.Proxy.URLs
import Debswarm.Text.Search

/-!
# What the proxy sees of a host

A search in a URL finds its marker in the path, or, for a marker with a slash in front, at
the slash before the host, or, for a marker without slashes, in the host.  So the kind of a
request is a function of the markers that its host carries and of its path.
-/

namespace Debswarm.Proxy

open Text

/-! ## Searching a URL -/

section Searching

variable {unicodeLower : Str → Str}

theorem HostName.noSlash_lower (host : HostName) : 47 ∉ host.text.map lowerByte := by
  intro mem
  obtain ⟨byte, inHost, isSlash⟩ := List.mem_map.mp mem
  have other : byte ≠ 47 := fun same => host.noSlash (same ▸ inHost)
  unfold lowerByte at isSlash
  split at isSlash
  · grind
  · exact other isSlash

theorem toLower_append (lowers : LowersByByte unicodeLower) {front : Str}
    (ascii : ∀ byte ∈ front, byte < 128) (rest : Str) :
    toLower unicodeLower (front ++ rest) =
      front.map lowerByte ++ toLower unicodeLower rest := by
  induction front with
  | nil => rfl
  | cons byte front ih =>
    have small := ascii byte List.mem_cons_self
    have step := ih fun other mem => ascii other (List.mem_cons_of_mem _ mem)
    rw [List.map_cons, List.cons_append, List.cons_append, ← step]
    by_cases allSmall : (front ++ rest).all (· < 128) = true
    · rw [toLower, if_pos (by rw [List.all_cons, allSmall]; simpa using small), toLower,
        if_pos allSmall, List.map_cons]
    · rw [toLower, if_neg (by rw [List.all_cons]; simp [allSmall]), lowers _ _ small]

/-- The lower-cased URL of a lower-cased host and path. -/
def lowerURL (scheme : Scheme) (host path : Str) : Str :=
  scheme.text ++ ofAscii "://" ++ host ++ path

theorem toLower_requestURL (lowers : LowersByByte unicodeLower) (scheme : Scheme)
    (host : HostName) (path : URLPath) :
    toLower unicodeLower (requestURL scheme host path) =
      lowerURL scheme (host.text.map lowerByte) (toLower unicodeLower path.text) := by
  have ascii : ∀ byte ∈ scheme.text ++ ofAscii "://" ++ host.text, byte < 128 := by
    intro byte mem
    rcases List.mem_append.mp mem with inFront | inHost
    · have front : ∀ byte ∈ scheme.text ++ ofAscii "://", byte < 128 := by
        apply ascii_of_all
        cases scheme <;> decide
      exact front byte inFront
    · exact host.ascii byte inHost
  have lowered : (scheme.text ++ ofAscii "://").map lowerByte = scheme.text ++ ofAscii "://" := by
    cases scheme <;> decide
  rw [requestURL, lowerURL, toLower_append lowers ascii, List.map_append, lowered]

/-- A lower-cased path. -/
def IsRooted (path : Str) : Prop :=
  path = [] ∨ ∃ rest, path = 47 :: rest

theorem isRooted_toLower (lowers : LowersByByte unicodeLower) (path : URLPath) :
    IsRooted (toLower unicodeLower path.text) := by
  obtain ⟨text, rooted⟩ := path
  cases text with
  | nil => exact .inl rfl
  | cons byte rest =>
    rcases rooted with empty | first
    · cases empty
    · cases first
      exact .inr ⟨_, @toLower_append _ lowers [47] (ascii_of_all rfl) rest⟩

end Searching

section Lowered

variable {host path : Str}

/-- A marker with a slash in front is found at the slash before the host, or in the path. -/
theorem contains_slash_lowerURL (noSlash : 47 ∉ host) (scheme : Scheme) {marker : Str}
    (nonempty : marker ≠ []) (oneSlash : marker.head? ≠ some 47) :
    contains (lowerURL scheme host path) (47 :: marker) =
      (marker.isPrefixOf (host ++ path) || contains path (47 :: marker)) := by
  have clean : 47 ∉ scheme.text ++ [58] := by cases scheme <;> decide
  have parts : lowerURL scheme host path =
      (scheme.text ++ [58]) ++ (47 :: 47 :: (host ++ path)) := by
    rw [lowerURL, List.append_assoc, List.append_assoc, List.append_assoc]
    rfl
  have notFirst : marker.isPrefixOf (47 :: (host ++ path)) = false := by
    cases marker with
    | nil => exact absurd rfl nonempty
    | cons byte rest =>
      have different : byte ≠ 47 := fun same => oneSlash (by rw [same]; rfl)
      simp [List.isPrefixOf, different]
  rw [parts, contains_append_of_clean clean, contains_separator_cons, notFirst, Bool.false_or,
    contains_separator_cons, contains_append_of_clean noSlash]

/-- A marker without slashes is found in the host or in the path. -/
theorem contains_lowerURL (rooted : IsRooted path) (scheme : Scheme) {marker : Str}
    (nonempty : marker ≠ []) (clean : 47 ∉ marker)
    (notScheme : contains (scheme.text ++ [58]) marker = false) :
    contains (lowerURL scheme host path) marker =
      (contains host marker || contains path marker) := by
  have parts : lowerURL scheme host path =
      (scheme.text ++ [58]) ++ (47 :: ([] ++ 47 :: (host ++ path))) := by
    rw [lowerURL, List.append_assoc, List.append_assoc, List.append_assoc]
    rfl
  rw [parts, contains_append_separator nonempty clean, contains_append_separator nonempty clean,
    notScheme, contains_nil nonempty, Bool.false_or, Bool.false_or]
  rcases rooted with rfl | ⟨rest, rfl⟩
  · rw [List.append_nil, contains_nil nonempty, Bool.or_false]
  · have inPath := contains_append_separator nonempty clean [] rest
    rw [contains_nil nonempty, Bool.false_or, List.nil_append] at inPath
    rw [contains_append_separator nonempty clean, inPath]

/-- What ends a URL ends its path, or its host if there is no path. -/
theorem hasSuffix_lowerURL (rooted : IsRooted path) (scheme : Scheme) {ending : Str}
    (nonempty : ending ≠ []) (clean : 47 ∉ ending) :
    hasSuffix (lowerURL scheme host path) ending =
      (path.isEmpty && hasSuffix host ending || hasSuffix path ending) := by
  have parts : lowerURL scheme host path = (scheme.text ++ [58, 47]) ++ (47 :: (host ++ path)) := by
    rw [lowerURL, List.append_assoc, List.append_assoc, List.append_assoc]
    rfl
  rw [parts, hasSuffix_append_separator clean]
  rcases rooted with rfl | ⟨rest, rfl⟩
  · rw [List.append_nil, hasSuffix_nil nonempty, Bool.or_false]
    rfl
  · have inPath := hasSuffix_append_separator clean [] rest
    rw [List.nil_append] at inPath
    rw [hasSuffix_append_separator clean, inPath]
    rfl

/-- A marker at the front of the host; one that ends in a slash needs a path. -/
theorem isPrefixOf_host (rooted : IsRooted path) (noSlash : 47 ∉ host) {marker : Str}
    (clean : 47 ∉ marker.dropLast) :
    marker.isPrefixOf (host ++ path) =
      (!(marker.getLast? = some 47 && path.isEmpty) && marker.isPrefixOf (host ++ [47])) := by
  rcases rooted with rfl | ⟨rest, rfl⟩
  · rw [List.append_nil, Bool.eq_iff_iff]
    simp only [List.isEmpty_nil, Bool.and_true, Bool.and_eq_true, Bool.not_eq_true',
      decide_eq_false_iff_not, List.isPrefixOf_iff_prefix, List.prefix_concat_iff]
    constructor
    · intro front
      exact ⟨fun last => noSlash (front.subset (List.mem_of_getLast? last)), .inr front⟩
    · rintro ⟨notLast, rfl | front⟩
      · exact absurd List.getLast?_concat notLast
      · exact front
  · rw [List.isEmpty_cons, Bool.and_false, Bool.not_false, Bool.true_and]
    clear noSlash
    induction marker generalizing host with
    | nil => simp
    | cons byte marker ih =>
      cases host with
      | nil =>
        cases marker with
        | nil => rfl
        | cons second marker =>
          have different : byte ≠ 47 := fun same => clean (same ▸ List.mem_cons_self)
          simp [List.isPrefixOf, different]
      | cons first host =>
        have cleanRest : 47 ∉ marker.dropLast := by
          cases marker with
          | nil => exact List.not_mem_nil
          | cons => exact fun mem => clean (List.mem_cons_of_mem _ mem)
        simp only [List.cons_append, List.isPrefixOf, ih cleanRest]

end Lowered

/-! ## What the proxy sees of a host -/

/-- Whether a URL is one of a package, by the markers of its host and by its path. -/
def markedPackage (marks : HostMarks) (path : Str) : Bool :=
  path.isEmpty && marks.package || endsLikePackage path ||
    contains path (ofAscii ".orig.tar.") || contains path (ofAscii ".debian.tar.") ||
    ((marks.orig || contains path (ofAscii ".orig-")) &&
      (marks.tar || contains path (ofAscii ".tar."))) ||
    ((marks.kind = .pool || contains path (ofAscii "/pool/")) && endsLikeTarball path)

/-- Whether a URL has a by-hash segment. -/
def markedByHash (kind : HostKind) (path : Str) : Bool :=
  !path.isEmpty && kind = .byHash || contains path (ofAscii "/by-hash/")

/-- Whether the URL of a by-hash file is one of a flat repository. -/
def markedFlat (kind : HostKind) (path : Str) : Bool :=
  kind ≠ .component && isFlatByHash path

def markedIndex (kind : HostKind) (path : Str) : Bool :=
  (kind = .packages || contains path (ofAscii "/packages")) ||
    (kind = .sources || contains path (ofAscii "/sources")) ||
    markedByHash kind path &&
      ((kind = .binary || contains path (ofAscii "/binary-")) ||
        (kind = .source || contains path (ofAscii "/source/")) || markedFlat kind path)

/-- The kind of a request by the markers of its host and by its path. -/
def markedRequest (marks : HostMarks) (path : Str) : RequestType :=
  if markedPackage marks path then .package
  else if markedIndex marks.kind path then .index
  else if marks.kind = .release || contains path (ofAscii "/release") ||
      contains path (ofAscii "/inrelease") then .release
  else .unknown

def markedPackages (kind : HostKind) (path : Str) : Bool :=
  ((kind = .packages || contains path (ofAscii "/packages")) &&
      !(kind = .translation || contains path (ofAscii "/translation"))) ||
    markedByHash kind path &&
      ((kind = .binary || contains path (ofAscii "/binary-")) || markedFlat kind path)

def markedSources (kind : HostKind) (path : Str) : Bool :=
  !(kind = .pool || contains path (ofAscii "/pool/")) &&
    (!path.isEmpty && kind = .source || contains path (ofAscii "/source/")) &&
    ((kind = .sources || contains path (ofAscii "/sources")) || markedByHash kind path)

section Marked

variable {host path : Str}

/-- Whether every marker of a kind ends in a slash, and so takes the whole host. -/
def HostKind.closed (kind : HostKind) : Bool :=
  kind.markers.all fun marker => marker.getLast? = some 47

theorem HostKind.markers_shape : ∀ kind ∈ all, ∀ marker ∈ kind.markers,
    marker ≠ [] ∧ marker.head? ≠ some 47 ∧ 47 ∉ marker.dropLast ∧
      decide (marker.getLast? = some 47) = kind.closed := by
  decide +kernel

section

variable (noSlash : 47 ∉ host) (rooted : IsRooted path) (scheme : Scheme)

include noSlash rooted scheme

/-- The markers of a kind are found in the path, or the host is of that kind. -/
theorem any_contains_markers (kind : HostKind) (notPlain : kind ≠ .plain) :
    (kind.markers.any fun marker => contains (lowerURL scheme host path) (47 :: marker)) =
      (!(kind.closed && path.isEmpty) && decide (hostKind host = kind) ||
        kind.markers.any fun marker => contains path (47 :: marker)) := by
  have here : ∀ marker ∈ kind.markers, contains (lowerURL scheme host path) (47 :: marker) =
      (!(kind.closed && path.isEmpty) && marker.isPrefixOf (host ++ [47]) ||
        contains path (47 :: marker)) := by
    intro marker mem
    obtain ⟨nonempty, oneSlash, clean, closes⟩ :=
      HostKind.markers_shape kind kind.mem_all marker mem
    rw [contains_slash_lowerURL noSlash scheme nonempty oneSlash,
      isPrefixOf_host rooted noSlash clean, closes]
  rw [← matchedBy_eq host notPlain, HostKind.matchedBy, Bool.eq_iff_iff, Bool.or_eq_true,
    Bool.and_eq_true, List.any_eq_true, List.any_eq_true, List.any_eq_true]
  constructor
  · rintro ⟨marker, mem, found⟩
    rw [here marker mem, Bool.or_eq_true, Bool.and_eq_true] at found
    exact found.imp (fun front => ⟨front.1, marker, mem, front.2⟩) fun inPath =>
      ⟨marker, mem, inPath⟩
  · rintro (⟨seen, marker, mem, front⟩ | ⟨marker, mem, inPath⟩)
    · exact ⟨marker, mem, by rw [here marker mem, seen, front]; rfl⟩
    · exact ⟨marker, mem, by rw [here marker mem, inPath, Bool.or_true]⟩

theorem contains_marker (kind : HostKind) (notPlain : kind ≠ .plain) (marker : Str)
    (only : kind.markers = [marker]) :
    contains (lowerURL scheme host path) (47 :: marker) =
      (!(kind.closed && path.isEmpty) && decide (hostKind host = kind) ||
        contains path (47 :: marker)) := by
  have found := any_contains_markers noSlash rooted scheme kind notPlain
  rw [only, List.any_cons, List.any_nil, Bool.or_false, List.any_cons, List.any_nil,
    Bool.or_false] at found
  exact found

end

/-- The markers that begin with a slash, in the whole URL. -/
structure SlashMarkers (url path : Str) (kind : HostKind) : Prop where
  packages : contains url (ofAscii "/packages") =
    (decide (kind = .packages) || contains path (ofAscii "/packages"))
  sources : contains url (ofAscii "/sources") =
    (decide (kind = .sources) || contains path (ofAscii "/sources"))
  binary : contains url (ofAscii "/binary-") =
    (decide (kind = .binary) || contains path (ofAscii "/binary-"))
  translation : contains url (ofAscii "/translation") =
    (decide (kind = .translation) || contains path (ofAscii "/translation"))
  release : (contains url (ofAscii "/release") || contains url (ofAscii "/inrelease")) =
    (decide (kind = .release) || contains path (ofAscii "/release") ||
      contains path (ofAscii "/inrelease"))
  source : contains url (ofAscii "/source/") =
    (!path.isEmpty && decide (kind = .source) || contains path (ofAscii "/source/"))
  byHash : contains url (ofAscii "/by-hash/") = markedByHash kind path
  pool : contains url (ofAscii "/pool/") =
    (!path.isEmpty && decide (kind = .pool) || contains path (ofAscii "/pool/"))
  flat : isFlatByHash url = (!(!path.isEmpty && kind = .component) && isFlatByHash path)

theorem slashMarkers_lowerURL (noSlash : 47 ∉ host) (rooted : IsRooted path) (scheme : Scheme) :
    SlashMarkers (lowerURL scheme host path) path (hostKind host) where
  packages := contains_marker noSlash rooted scheme .packages nofun (ofAscii "packages") rfl
  sources := contains_marker noSlash rooted scheme .sources nofun (ofAscii "sources") rfl
  binary := contains_marker noSlash rooted scheme .binary nofun (ofAscii "binary-") rfl
  translation := contains_marker noSlash rooted scheme .translation nofun (ofAscii "translation")
    rfl
  release := by
    have found := any_contains_markers noSlash rooted scheme .release nofun
    simp only [HostKind.markers, List.any_cons, List.any_nil, Bool.or_false] at found
    rw [Bool.or_assoc]
    exact found
  source := contains_marker noSlash rooted scheme .source nofun (ofAscii "source/") rfl
  byHash := contains_marker noSlash rooted scheme .byHash nofun (ofAscii "by-hash/") rfl
  pool := contains_marker noSlash rooted scheme .pool nofun (ofAscii "pool/") rfl
  flat := by
    have found := congrArg not (any_contains_markers noSlash rooted scheme .component nofun)
    simp only [HostKind.markers, List.any_cons, List.any_nil, Bool.or_false, Bool.not_or] at found
    simp only [isFlatByHash, Bool.and_assoc]
    exact found

/-- The markers without slashes, in the whole URL. -/
theorem contains_dotted (rooted : IsRooted path) (scheme : Scheme) {marker : Str}
    (listed : marker ∈ [ofAscii ".orig.tar.", ofAscii ".debian.tar.", ofAscii ".orig-",
      ofAscii ".tar."]) :
    contains (lowerURL scheme host path) marker =
      (contains host marker || contains path marker) := by
  have facts : ∀ marker ∈ [ofAscii ".orig.tar.", ofAscii ".debian.tar.", ofAscii ".orig-",
      ofAscii ".tar."], marker ≠ [] ∧ 47 ∉ marker ∧
        contains (Scheme.http.text ++ [58]) marker = false ∧
        contains (Scheme.https.text ++ [58]) marker = false := by
    decide
  obtain ⟨nonempty, clean, notHTTP, notHTTPS⟩ := facts marker listed
  apply contains_lowerURL rooted scheme nonempty clean
  cases scheme
  · exact notHTTP
  · exact notHTTPS

theorem endsLikePackage_lowerURL (rooted : IsRooted path) (scheme : Scheme) :
    endsLikePackage (lowerURL scheme host path) =
      (path.isEmpty && endsLikePackage host || endsLikePackage path) := by
  have ends := @hasSuffix_lowerURL host path rooted scheme
  unfold endsLikePackage
  rw [ends (by decide) (by decide), ends (by decide) (by decide), ends (by decide) (by decide),
    ends (by decide) (by decide), ends (by decide) (by decide)]
  cases path.isEmpty
  · simp only [Bool.false_and, Bool.false_or]
  · simp only [Bool.true_and, Bool.or_assoc, Bool.or_left_comm]

/-- A source archive lies in the pool, so this ending only counts in a path. -/
theorem endsLikeTarball_lowerURL (rooted : IsRooted path) (nonempty : path.isEmpty = false)
    (scheme : Scheme) : endsLikeTarball (lowerURL scheme host path) = endsLikeTarball path := by
  have ends := @hasSuffix_lowerURL host path rooted scheme
  unfold endsLikeTarball
  rw [ends (by decide) (by decide), ends (by decide) (by decide), ends (by decide) (by decide),
    ends (by decide) (by decide), ends (by decide) (by decide), nonempty]
  simp only [Bool.false_and, Bool.false_or]

/-- Only the mark of a Release is hidden. -/
theorem hostMarks_kind_eq_iff {kind : HostKind} (notRelease : kind ≠ .release)
    (notPlain : kind ≠ .plain) : (hostMarks host).kind = kind ↔ hostKind host = kind := by
  unfold hostMarks
  dsimp only
  split
  · rename_i hidden
    rw [Bool.and_eq_true, decide_eq_true_eq] at hidden
    rw [hidden.2]
    exact ⟨fun same => absurd same.symm notPlain, fun same => absurd same.symm notRelease⟩
  · exact Iff.rfl

/-- A text that names a package file. -/
def readsAsPackage (lower : Str) : Bool :=
  endsLikePackage lower || hasSourceMarker lower ||
    contains lower (ofAscii "/pool/") && endsLikeTarball lower

/-- A text that names an index. -/
def readsAsIndex (lower : Str) : Bool :=
  contains lower (ofAscii "/packages") || contains lower (ofAscii "/sources") ||
    contains lower (ofAscii "/by-hash/") && (contains lower (ofAscii "/binary-") ||
      contains lower (ofAscii "/source/") || isFlatByHash lower)

theorem readsAsPackage_lowerURL (noSlash : 47 ∉ host) (rooted : IsRooted path) (scheme : Scheme) :
    readsAsPackage (lowerURL scheme host path) = markedPackage (hostMarks host) path := by
  have isPool : decide ((hostMarks host).kind = .pool) = decide (hostKind host = .pool) :=
    decide_eq_decide.mpr (hostMarks_kind_eq_iff (by decide) (by decide))
  have markers := slashMarkers_lowerURL noSlash rooted scheme
  have dotted := @contains_dotted host path rooted scheme
  rw [readsAsPackage, endsLikePackage_lowerURL rooted, hasSourceMarker, markers.pool,
    dotted (by decide), dotted (by decide), dotted (by decide), dotted (by decide)]
  have orig : (hostMarks host).orig =
    (hasSourceMarker host || contains host (ofAscii ".orig-")) := rfl
  have tar : (hostMarks host).tar = (hasSourceMarker host || contains host (ofAscii ".tar.")) := rfl
  have package : (hostMarks host).package = (hasSourceMarker host || endsLikePackage host) := rfl
  rw [markedPackage, orig, tar, package, isPool, hasSourceMarker]
  cases empty : path.isEmpty with
  | true =>
    rw [List.isEmpty_iff] at empty
    subst empty
    have noTarball : endsLikeTarball [] = false := by decide
    have noPool : contains [] (ofAscii "/pool/") = false := by decide
    rw [noTarball, noPool]
    grind
  | false =>
    rw [endsLikeTarball_lowerURL rooted empty]
    grind

theorem nonempty_of_markedByHash {kind : HostKind} (byHash : markedByHash kind path = true) :
    path.isEmpty = false := by
  cases path with
  | nil => cases byHash
  | cons => rfl

variable {lower : Str} {kind : HostKind}

theorem readsAsIndex_eq (markers : SlashMarkers lower path kind) :
    readsAsIndex lower = markedIndex kind path := by
  rw [readsAsIndex, markers.packages, markers.sources, markers.byHash, markers.binary,
    markers.source, markers.flat, markedIndex]
  cases byHash : markedByHash kind path with
  | false => rw [Bool.false_and, Bool.false_and]
  | true => simp only [nonempty_of_markedByHash byHash, markedFlat, Bool.not_false, Bool.true_and,
      decide_not]

end Marked

section Answers

variable {lib : Libraries} {host path url : Str} {kind : HostKind}

theorem isPackagesIndexURL_eq (markers : SlashMarkers (toLower lib.unicodeLower url) path kind) :
    isPackagesIndexURL lib url = markedPackages kind path := by
  rw [isPackagesIndexURL, markers.packages, markers.translation, markers.byHash, markers.binary,
    markers.flat, markedPackages]
  cases byHash : markedByHash kind path with
  | false => rw [Bool.false_and, Bool.false_and]
  | true => simp only [nonempty_of_markedByHash byHash, markedFlat, Bool.not_false, Bool.true_and,
      decide_not]

theorem isSourcesIndexURL_eq (markers : SlashMarkers (toLower lib.unicodeLower url) path kind) :
    isSourcesIndexURL lib url = markedSources kind path := by
  rw [isSourcesIndexURL, markers.pool, markers.source, markers.sources, markers.byHash,
    markedSources]
  cases path with
  | nil =>
    have noSource : contains [] (ofAscii "/source/") = false := rfl
    simp only [noSource, List.isEmpty_nil, Bool.not_true, Bool.false_and, Bool.or_false,
      Bool.and_false]
  | cons => simp only [List.isEmpty_cons, Bool.not_false, Bool.true_and]

/-- The hidden mark changes neither what an index is nor which one. -/
theorem marked_hostMarks (host path : Str) :
    markedIndex (hostMarks host).kind path = markedIndex (hostKind host) path ∧
      markedPackages (hostMarks host).kind path = markedPackages (hostKind host) path ∧
      markedSources (hostMarks host).kind path = markedSources (hostKind host) path := by
  unfold hostMarks
  dsimp only
  split
  · rename_i hidden
    rw [Bool.and_eq_true, decide_eq_true_eq] at hidden
    rw [hidden.2]
    exact ⟨rfl, rfl, rfl⟩
  · exact ⟨rfl, rfl, rfl⟩

/-- The cases of the kind of a request, put together by their answers. -/
theorem classifyRequest_eq (lib : Libraries) (url : Str) :
    classifyRequest lib url =
      let lower := toLower lib.unicodeLower url
      if readsAsPackage lower then .package
      else if readsAsIndex lower then .index
      else if contains lower (ofAscii "/release") || contains lower (ofAscii "/inrelease") then
        .release
      else .unknown := by
  have merge : ∀ (first second : Bool) (hit miss : RequestType),
      (if first then hit else if second then hit else miss) =
        if first || second then hit else miss := by
    intro first second hit miss
    cases first <;> rfl
  unfold classifyRequest
  dsimp only
  rw [merge, merge, readsAsPackage, readsAsIndex]
  simp only [isSourceArtifactURL, endsLikePackage, hasSourceMarker, endsLikeTarball, Bool.or_assoc]

theorem classifyRequest_lowerURL (noSlash : 47 ∉ host) (rooted : IsRooted path) {scheme : Scheme}
    (lowered : toLower lib.unicodeLower url = lowerURL scheme host path) :
    classifyRequest lib url = markedRequest (hostMarks host) path := by
  have markers := slashMarkers_lowerURL noSlash rooted scheme
  rw [classifyRequest_eq, lowered]
  dsimp only
  rw [readsAsPackage_lowerURL noSlash rooted, readsAsIndex_eq markers, markers.release,
    markedRequest, (marked_hostMarks host path).1]
  by_cases isPackage : markedPackage (hostMarks host) path = true
  · rw [if_pos isPackage, if_pos isPackage]
  · have visible : ((hostMarks host).orig && (hostMarks host).tar) = false := by
      rw [Bool.not_eq_true, markedPackage] at isPackage
      grind
    have noMarker : hasSourceMarker host = false := (hasSourceMarker_eq host).symm.trans visible
    have sameKind : (hostMarks host).kind = hostKind host := by
      simp only [hostMarks, noMarker, Bool.false_and, if_neg Bool.false_ne_true]
    rw [sameKind]

/-- The answers for a URL, from the markers of its host. -/
theorem answers_requestURL (lowers : LowersByByte lib.unicodeLower) (scheme : Scheme)
    (host : HostName) (path : URLPath) :
    let marks := hostMarks (host.text.map lowerByte)
    let lowerPath := toLower lib.unicodeLower path.text
    classifyRequest lib (requestURL scheme host path) = markedRequest marks lowerPath ∧
      isPackagesIndexURL lib (requestURL scheme host path) =
        markedPackages marks.kind lowerPath ∧
      isSourcesIndexURL lib (requestURL scheme host path) =
        markedSources marks.kind lowerPath := by
  have lowered := toLower_requestURL lowers scheme host path
  have noSlash := host.noSlash_lower
  have rooted := isRooted_toLower lowers path
  have markers := slashMarkers_lowerURL noSlash rooted scheme
  rw [← lowered] at markers
  obtain ⟨-, samePackages, sameSources⟩ := marked_hostMarks (host.text.map lowerByte)
    (toLower lib.unicodeLower path.text)
  exact ⟨classifyRequest_lowerURL noSlash rooted lowered,
    (isPackagesIndexURL_eq markers).trans samePackages.symm,
    (isSourcesIndexURL_eq markers).trans sameSources.symm⟩

end Answers

end Debswarm.Proxy
