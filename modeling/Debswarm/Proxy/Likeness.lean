import Debswarm.Proxy.Markers

/-!
# Hosts that cannot be told apart

A few paths show every marker of a host that is not hidden by another one.  So two hosts
give the same answers for every path exactly when they carry the same markers.
-/

namespace Debswarm.Proxy

open Text

/-- Paths that tell hosts apart. -/
def probes : List Str :=
  [[], ofAscii "/", ofAscii "/.tar.", ofAscii "/.orig-", ofAscii "/dists/",
    ofAscii "/packages/dists/", ofAscii "/dists/by-hash/", ofAscii "/by-hash/",
    ofAscii "/dists/binary-", ofAscii "/sources", ofAscii "/source/sources", ofAscii "/source/"]

theorem probes_lower : ∀ path ∈ probes, (path = [] ∨ path.head? = some 47) ∧
    path.all (· < 128) = true ∧ path.map lowerByte = path := by
  decide

/-- The index questions tell all kinds of hosts apart, but for a Release. -/
theorem kind_of_probes : ∀ first ∈ HostKind.all, ∀ second ∈ HostKind.all,
    probes.map (markedPackages first) = probes.map (markedPackages second) →
      probes.map (markedSources first) = probes.map (markedSources second) →
        decide (first = .release) = decide (second = .release) → first = second := by
  decide +kernel

theorem markedRequest_eq_package (marks : HostMarks) (path : Str) :
    decide (markedRequest marks path = .package) = markedPackage marks path := by
  unfold markedRequest
  cases markedPackage marks path with
  | true => rfl
  | false =>
    rw [if_neg Bool.false_ne_true, decide_eq_false_iff_not]
    split
    · nofun
    · split <;> nofun

/-- A path without endings and slashes shows the half of an archive marker that it completes. -/
theorem markedPackage_probe (marks : HostMarks) {path : Str} (nonempty : path.isEmpty = false)
    (noEnding : endsLikePackage path = false ∧ endsLikeTarball path = false)
    (noMarker : hasSourceMarker path = false) :
    markedPackage marks path = ((marks.orig || contains path (ofAscii ".orig-")) &&
      (marks.tar || contains path (ofAscii ".tar."))) := by
  rw [hasSourceMarker, Bool.or_eq_false_iff, Bool.or_eq_false_iff] at noMarker
  rw [markedPackage, nonempty, noEnding.1, noEnding.2, noMarker.1.1, noMarker.1.2, Bool.and_false,
    Bool.or_false]
  rfl

/-- The empty path shows how the host ends. -/
@[simp]
theorem markedPackage_nil (marks : HostMarks) : markedPackage marks [] = marks.package := by
  have shown : (marks.package || marks.orig && marks.tar) = marks.package := by
    cases orig : marks.orig with
    | false => rw [Bool.false_and, Bool.or_false]
    | true =>
      cases tar : marks.tar with
      | false => rw [Bool.and_false, Bool.or_false]
      | true => rw [marks.packageHidden orig tar, Bool.true_or]
  have unfolded : markedPackage marks [] = (marks.package || false || false || false ||
      (marks.orig || false) && (marks.tar || false) || (marks.kind = .pool || false) && false) :=
    rfl
  rw [unfolded]
  simp only [Bool.or_false, Bool.and_false]
  exact shown

/-- A path without markers shows a host that passes for a Release. -/
theorem markedRequest_slash (marks : HostMarks) :
    decide (markedRequest marks (ofAscii "/") = .release) = decide (marks.kind = .release) := by
  have isPackage : markedPackage marks (ofAscii "/") =
      ((marks.orig || false) && (marks.tar || false)) :=
    markedPackage_probe marks rfl (by decide) (by decide)
  have noRelease : contains (ofAscii "/") (ofAscii "/release") = false := by decide
  have noInRelease : contains (ofAscii "/") (ofAscii "/inrelease") = false := by decide
  have notIndex : markedIndex .release (ofAscii "/") = false := by decide
  rw [Bool.or_false, Bool.or_false] at isPackage
  unfold markedRequest
  rw [isPackage, noRelease, noInRelease, Bool.or_false, Bool.or_false]
  by_cases isRelease : marks.kind = .release
  · have visible : (marks.orig && marks.tar) = false := by
      rw [← Bool.not_eq_true, Bool.and_eq_true]
      exact fun both => marks.kindHidden both.1 both.2 isRelease
    rw [isRelease, visible, notIndex]
    rfl
  · rw [decide_eq_false isRelease, decide_eq_false_iff_not]
    split
    · nofun
    · split
      · nofun
      · rw [if_neg Bool.false_ne_true]
        nofun

/-- Marks that no probe tells apart are the same. -/
theorem marks_eq_of_probes {first second : HostMarks}
    (same : ∀ path ∈ probes, markedRequest first path = markedRequest second path ∧
      markedPackages first.kind path = markedPackages second.kind path ∧
      markedSources first.kind path = markedSources second.kind path) :
    first = second := by
  have samePackage : ∀ path ∈ probes, markedPackage first path = markedPackage second path := by
    intro path isProbe
    rw [← markedRequest_eq_package, ← markedRequest_eq_package, (same path isProbe).1]
  have orig : first.orig = second.orig := by
    have shown := samePackage (ofAscii "/.tar.") (by decide)
    have hasTar : contains (ofAscii "/.tar.") (ofAscii ".tar.") = true := by decide
    have noOrig : contains (ofAscii "/.tar.") (ofAscii ".orig-") = false := by decide
    rw [markedPackage_probe first rfl (by decide) (by decide),
      markedPackage_probe second rfl (by decide) (by decide)] at shown
    simpa only [hasTar, noOrig, Bool.or_false, Bool.or_true, Bool.and_true] using shown
  have tar : first.tar = second.tar := by
    have shown := samePackage (ofAscii "/.orig-") (by decide)
    have hasOrig : contains (ofAscii "/.orig-") (ofAscii ".orig-") = true := by decide
    have noTar : contains (ofAscii "/.orig-") (ofAscii ".tar.") = false := by decide
    rw [markedPackage_probe first rfl (by decide) (by decide),
      markedPackage_probe second rfl (by decide) (by decide)] at shown
    simpa only [hasOrig, noTar, Bool.or_false, Bool.or_true, Bool.true_and] using shown
  have package : first.package = second.package := by
    have shown := samePackage [] (by decide)
    rwa [markedPackage_nil, markedPackage_nil] at shown
  have kind : first.kind = second.kind := by
    apply kind_of_probes _ (HostKind.mem_all _) _ (HostKind.mem_all _)
    · exact List.map_congr_left fun path mem => (same path mem).2.1
    · exact List.map_congr_left fun path mem => (same path mem).2.2
    · rw [← markedRequest_slash, ← markedRequest_slash, (same (ofAscii "/") (by decide)).1]
  obtain ⟨⟩ := first
  obtain ⟨⟩ := second
  subst orig tar package kind
  rfl

/-- Two hosts give the same answers for every path exactly when they carry the same
markers. -/
theorem sameAnswers_iff {lib : Libraries} (lowers : LowersByByte lib.unicodeLower)
    (first second : HostName) :
    (∀ scheme other path, SameAnswers lib (requestURL scheme first path)
        (requestURL other second path)) ↔
      hostMarks (first.text.map lowerByte) = hostMarks (second.text.map lowerByte) := by
  constructor
  · intro same
    apply marks_eq_of_probes
    intro path isProbe
    obtain ⟨rooted, ascii, lower⟩ := probes_lower path isProbe
    have isLower : toLower lib.unicodeLower path = path := by rw [toLower, if_pos ascii, lower]
    obtain ⟨request, packages, sources⟩ := same .http .http ⟨path, rooted⟩
    obtain ⟨firstRequest, firstPackages, firstSources⟩ :=
      answers_requestURL lowers .http first ⟨path, rooted⟩
    obtain ⟨secondRequest, secondPackages, secondSources⟩ :=
      answers_requestURL lowers .http second ⟨path, rooted⟩
    rw [firstRequest, secondRequest, isLower] at request
    rw [firstPackages, secondPackages, isLower] at packages
    rw [firstSources, secondSources, isLower] at sources
    exact ⟨request, packages, sources⟩
  · intro same scheme other path
    obtain ⟨firstRequest, firstPackages, firstSources⟩ :=
      answers_requestURL lowers scheme first path
    obtain ⟨secondRequest, secondPackages, secondSources⟩ :=
      answers_requestURL lowers other second path
    refine ⟨?_, ?_, ?_⟩
    · rw [firstRequest, secondRequest, same]
    · rw [firstPackages, secondPackages, same]
    · rw [firstSources, secondSources, same]

/-- Libraries that lower-case ASCII and leave everything else alone. -/
def asciiLibraries : Libraries :=
  ⟨hexEncode64, fun text => text.map lowerByte⟩

theorem lowersByByte_ascii : LowersByByte asciiLibraries.unicodeLower := by
  intro byte rest _
  rw [toLower]
  split <;> rfl

def debianHost : HostName :=
  ⟨ofAscii "deb.debian.org", ascii_of_all (by decide), by decide⟩

def ubuntuHost : HostName :=
  ⟨ofAscii "archive.ubuntu.com", ascii_of_all (by decide), by decide⟩

def microsoftHost : HostName :=
  ⟨ofAscii "packages.microsoft.com", ascii_of_all (by decide), by decide⟩

/-- The mirrors of Debian and Ubuntu carry no markers, so they give the same answers. -/
theorem sameAnswers_of_debian_ubuntu :
    LowersByByte asciiLibraries.unicodeLower ∧
      hostMarks (debianHost.text.map lowerByte) = hostMarks (ubuntuHost.text.map lowerByte) ∧
        ∀ scheme other path,
          SameAnswers asciiLibraries (requestURL scheme debianHost path)
            (requestURL other ubuntuHost path) := by
  have sameMarks : hostMarks (debianHost.text.map lowerByte) =
      hostMarks (ubuntuHost.text.map lowerByte) := by
    decide +kernel
  exact ⟨lowersByByte_ascii, sameMarks,
    (sameAnswers_iff lowersByByte_ascii debianHost ubuntuHost).mpr sameMarks⟩

/-- The signed Release of a trusted repository is taken for an index because of its host. -/
theorem not_sameAnswers_of_microsoft :
    let path : URLPath := ⟨ofAscii "/repos/code/dists/stable/InRelease", by decide⟩
    classifyRequest asciiLibraries (requestURL .http debianHost path) = .release ∧
      classifyRequest asciiLibraries (requestURL .http microsoftHost path) = .index ∧
      isPackagesIndexURL asciiLibraries (requestURL .http debianHost path) = false ∧
      isPackagesIndexURL asciiLibraries (requestURL .http microsoftHost path) = true := by
  decide +kernel

end Debswarm.Proxy
