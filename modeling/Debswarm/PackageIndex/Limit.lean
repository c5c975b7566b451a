import Debswarm.PackageIndex.Stanzas

/-!
# The limit of a load

A load of a Packages file is to add no more entries than the limit allows, and no stanza
more than once.  The loop stops at the limit without forgetting the entry that reached it,
and the entry being read when the loop ends is handed over once more.
-/

namespace Debswarm.PackageIndex

open List Text Transition

def afterLoad (limit : Nat) (text : Str) (broken : Bool) (repo fileKey : Str) (index : Index) :
    Index :=
  (parseForRepo .packages limit text broken repo fileKey index).2

/-- A load adds at most `limit` entries, each at most once to every list. -/
structure WithinLimit (limit : Nat) (text : Str) (broken : Bool) (repo fileKey : Str)
    (index : Index) : Prop where
  atMost : (generation (afterLoad limit text broken repo fileKey index) fileKey).length ≤ limit
  onceInGeneration : ∀ number stanza,
    (stanzasOf (blocks (scanLines text).1))[number]? = some stanza →
      (generation (afterLoad limit text broken repo fileKey index) fileKey).count
        (stanzaEntry repo (index.nextAddr + number) stanza) ≤ 1
  onceInBasenames : ∀ number stanza,
    (stanzasOf (blocks (scanLines text).1))[number]? = some stanza →
      ∀ basename, (basenames (afterLoad limit text broken repo fileKey index) basename).count
        (stanzaEntry repo (index.nextAddr + number) stanza) ≤ 1

variable {limit : Nat} {index : Index}

theorem generation_afterLoad (consistent : Consistent index) (text : Str) (broken : Bool)
    (repo fileKey : Str) :
    generation (afterLoad limit text broken repo fileKey index) fileKey =
      listing .packages limit repo (scanLines text).1 index.nextAddr := by
  rw [afterLoad, (replaces_parseForRepo consistent .packages limit text broken repo
    fileKey).byIndexFile, if_pos rfl]

/-- An identity that the load hands out is new to the base-name lists. -/
theorem count_basenames_afterLoad (consistent : Consistent index) (text : Str) (broken : Bool)
    (repo fileKey basename : Str) {entry : PackageInfo} (isNew : index.nextAddr ≤ entry.addr) :
    (basenames (afterLoad limit text broken repo fileKey index) basename).count entry ≤
      (listing .packages limit repo (scanLines text).1 index.nextAddr).count entry := by
  have replaces := replaces_parseForRepo consistent .packages limit text broken repo fileKey
  have absent : entry ∉ (basenames index basename).filter fun other =>
      other ∉ generation index fileKey := by
    intro listed
    obtain ⟨otherKey, mem⟩ :=
      (consistent.byBasename basename entry (mem_of_mem_filter listed)).2
    exact absurd (consistent.below otherKey entry mem) (not_lt.mpr isNew)
  rw [afterLoad, replaces.byBasename, count_append, count_eq_zero_of_not_mem absent, Nat.zero_add]
  exact filter_sublist.count_le entry

/-- At most one stanza is not followed by an empty line. -/
theorem countP_hasHash_le (lines : List Str) :
    (stanzasOf (blocks lines)).countP hasHash ≤ completedStanzas lines + 1 := by
  have nonempty : blocks lines ≠ [] := splitOnP_ne_nil _ lines
  have split := dropLast_append_getLast nonempty
  have oneMore : (stanzasOf [(blocks lines).getLast nonempty]).countP hasHash ≤ 1 :=
    countP_le_length.trans (length_filter_le _ _)
  unfold completedStanzas
  nth_rewrite 1 [← split]
  rw [stanzasOf, filter_append, countP_append]
  exact Nat.add_le_add_left oneMore _

/-- A load stays within its limit iff fewer stanzas with a hash than the limit are followed by an
empty line. -/
theorem withinLimit_iff (positive : 1 ≤ limit) (before : List Event) (text : Str)
    (broken : Bool) (repo fileKey : Str) :
    WithinLimit limit text broken repo fileKey (run (next limit) Index.new before) ↔
      completedStanzas (scanLines text).1 < limit := by
  have consistent := run_invariant Consistent (consistent_next limit) consistent_new before
  generalize run (next limit) Index.new before = index at consistent
  have loaded := @generation_afterLoad limit index consistent text broken repo fileKey
  constructor
  · intro within
    by_contra reached
    have tooMany := length_listing_packages_of_le positive (not_lt.mp reached) repo index.nextAddr
    have atMost := within.atMost
    rw [loaded, tooMany] at atMost
    omega
  · intro below
    have listed := listing_packages_of_lt below repo index.nextAddr
    have once : ∀ entry, (listing .packages limit repo (scanLines text).1
        index.nextAddr).count entry ≤ 1 := by
      rw [listed]
      exact nodup_iff_count_le_one.mp (nodup_stanzaEntries repo index.nextAddr _)
    refine ⟨?_, fun number stanza _ => ?_, fun number stanza _ basename => ?_⟩
    · rw [loaded, listed, length_stanzaEntries]
      exact (countP_hasHash_le _).trans below
    · rw [loaded]
      exact once _
    · refine (count_basenames_afterLoad consistent text broken repo fileKey basename ?_).trans
        (once _)
      rw [stanzaEntry_addr]
      exact Nat.le_add_right _ _

/-- Two stanzas, the second of which ends with the text, are within a limit of two. -/
theorem withinLimit_of_open_end :
    WithinLimit 2 (ofAscii "SHA256: aa\n\nSHA256: bb\n") false (ofAscii "deb") (ofAscii "f")
      Index.new := by
  have positive : 1 ≤ 2 := by decide
  have below : completedStanzas (scanLines (ofAscii "SHA256: aa\n\nSHA256: bb\n")).1 < 2 := by
    decide
  exact (withinLimit_iff positive [] _ false _ _).mpr below

/-- With a limit of one, a single stanza that an empty line follows is filed twice. -/
theorem not_withinLimit_of_empty_line :
    let text := ofAscii "SHA256: aa\nFilename: pool/p.deb\n\n"
    let loaded := afterLoad 1 text false (ofAscii "deb") (ofAscii "f") Index.new
    (generation loaded (ofAscii "f")).length = 2 ∧
      (basenames loaded (ofAscii "p.deb")).length = 2 ∧
      ¬ WithinLimit 1 text false (ofAscii "deb") (ofAscii "f") Index.new := by
  intro text loaded
  have twice : (generation loaded (ofAscii "f")).length = 2 := by decide
  refine ⟨twice, by decide, fun within => ?_⟩
  have atMost : (generation loaded (ofAscii "f")).length ≤ 1 := within.atMost
  omega

end Debswarm.PackageIndex
