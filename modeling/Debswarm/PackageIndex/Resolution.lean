import Debswarm.PackageIndex.Consistency

/-!
# Entries that several index files share

The lookups keep one entry per key, the one that was filed last.  When its file is
loaded again without the key, the key is gone, also when another file still lists it.
This module says exactly which loads lose no entry of another file, and that those
are the loads along which every current entry stays resolvable.
-/

namespace Debswarm.PackageIndex

open Bool Option Text Transition

/-- The hash of an entry leads to an entry with it, and so do its repository and file name. -/
structure Resolvable (index : Index) (entry : PackageInfo) : Prop where
  bySHA256 : ∃ found, getBySHA256 index entry.sha256 = some found ∧ found.sha256 = entry.sha256
  byPath : entry.filename ≠ [] →
    ∃ found, getByRepoAndPath index entry.repo entry.filename = some found ∧
      found.filename = entry.filename

/-- Every entry of the current generation of every index file is resolvable. -/
def AllResolvable (index : Index) : Prop :=
  ∀ entry, Current index entry → Resolvable index entry

/-- Where the file to be loaded owns a key of another file's entry, the new text has it too. -/
def KeepsShared (limit : Nat) (index : Index) : Event → Prop
  | .load kind text _ repo fileKey =>
    ∀ otherKey, otherKey ≠ fileKey → ∀ entry ∈ generation index otherKey,
      (∀ owner ∈ generation index fileKey, getBySHA256 index entry.sha256 = some owner →
        ∃ new ∈ listing kind limit repo (scanLines text).1 index.nextAddr,
          new.sha256 = entry.sha256) ∧
      (entry.filename ≠ [] → ∀ owner ∈ generation index fileKey,
        getByRepoAndPath index entry.repo entry.filename = some owner →
          repo = entry.repo ∧ ∃ new ∈ listing kind limit repo (scanLines text).1 index.nextAddr,
            new.filename = entry.filename)
  | .clear => True

/-- In a consistent index an entry is resolvable as soon as its keys are taken. -/
theorem Consistent.resolvable_iff {index : Index} (consistent : Consistent index)
    (entry : PackageInfo) :
    Resolvable index entry ↔
      (getBySHA256 index entry.sha256).isSome ∧
        (entry.filename ≠ [] → (getByRepoAndPath index entry.repo entry.filename).isSome) := by
  simp only [isSome_iff_exists]
  constructor
  · rintro ⟨⟨byHash, hashEq, _⟩, byPath⟩
    refine ⟨⟨byHash, hashEq⟩, fun hasFilename => ?_⟩
    obtain ⟨found, pathEq, _⟩ := byPath hasFilename
    exact ⟨found, pathEq⟩
  · rintro ⟨⟨byHash, hashEq⟩, byPath⟩
    refine ⟨⟨byHash, hashEq, (consistent.bySHA256 _ byHash hashEq).1⟩, fun hasFilename => ?_⟩
    obtain ⟨found, pathEq⟩ := byPath hasFilename
    exact ⟨found, pathEq, (consistent.byPath _ _ found pathEq).2.1⟩

/-- A taken key stays taken after a load unless its owner goes and no new entry has it. -/
theorem isSome_or_filter_iff {property : PackageInfo → Bool} {entries old : List PackageInfo}
    {found : Option PackageInfo} (taken : found.isSome) :
    ((lastWith property entries).or (found.filter fun other => other ∉ old)).isSome ↔
      ∀ owner ∈ old, found = some owner → ∃ new ∈ entries, property new = true := by
  obtain ⟨current, rfl⟩ := isSome_iff_exists.mp taken
  rw [isSome_or, or_eq_true, isSome_lastWith_iff]
  constructor
  · rintro (listed | kept) owner ownerMem ownerEq
    · exact listed
    · cases ownerEq
      simp [ownerMem] at kept
  · intro lost
    by_cases gone : current ∈ old
    · exact .inl (lost current gone rfl)
    · exact .inr (by simp [gone])

section

variable {before after : Index} {repo fileKey : Str} {entries : List PackageInfo}
  (replaces : Replaces before after repo fileKey entries) (consistent : Consistent before)
  {entry : PackageInfo}

include replaces consistent

theorem Replaces.resolvable_of_mem (mem : entry ∈ entries) :
    Resolvable after entry := by
  rw [(replaces.consistent consistent).resolvable_iff, replaces.bySHA256, replaces.byPath,
    isSome_or, isSome_or, or_eq_true, or_eq_true]
  constructor
  · exact .inl (isSome_lastWith_iff.mpr ⟨entry, mem, decide_eq_true rfl⟩)
  · intro hasFilename
    exact .inl (isSome_lastWith_iff.mpr ⟨entry, mem, decide_eq_true ⟨hasFilename, rfl, rfl⟩⟩)

/-- An entry of another file stays resolvable exactly when the load keeps its keys. -/
theorem Replaces.resolvable_iff (resolvable : Resolvable before entry) :
    Resolvable after entry ↔
      (∀ owner ∈ generation before fileKey, getBySHA256 before entry.sha256 = some owner →
        ∃ new ∈ entries, new.sha256 = entry.sha256) ∧
      (entry.filename ≠ [] → ∀ owner ∈ generation before fileKey,
        getByRepoAndPath before entry.repo entry.filename = some owner →
          repo = entry.repo ∧ ∃ new ∈ entries, new.filename = entry.filename) := by
  obtain ⟨hashTaken, pathTaken⟩ := (consistent.resolvable_iff entry).mp resolvable
  have filedIff (hasFilename : entry.filename ≠ []) :
      (∃ new ∈ entries, decide (new.FiledAt entry.repo entry.filename) = true) ↔
        repo = entry.repo ∧ ∃ new ∈ entries, new.filename = entry.filename := by
    simp only [decide_eq_true_eq]
    constructor
    · rintro ⟨new, mem, _, sameRepo, samePath⟩
      exact ⟨(replaces.fresh.ofRepo new mem).symm.trans sameRepo, new, mem, samePath⟩
    · rintro ⟨sameRepo, new, mem, samePath⟩
      exact ⟨new, mem, samePath ▸ hasFilename, (replaces.fresh.ofRepo new mem).trans sameRepo,
        samePath⟩
  rw [(replaces.consistent consistent).resolvable_iff, replaces.bySHA256, replaces.byPath,
    isSome_or_filter_iff hashTaken]
  simp only [decide_eq_true_eq]
  apply and_congr_right
  intro _
  constructor
  · intro kept hasFilename owner ownerMem ownerEq
    exact (filedIff hasFilename).mp
      ((isSome_or_filter_iff (pathTaken hasFilename)).mp (kept hasFilename) owner ownerMem ownerEq)
  · intro kept hasFilename
    rw [isSome_or_filter_iff (pathTaken hasFilename)]
    intro owner ownerMem ownerEq
    exact (filedIff hasFilename).mpr (kept hasFilename owner ownerMem ownerEq)

end

/-- One event keeps everything resolvable exactly when it takes no key away from
another file. -/
theorem allResolvable_next_iff (limit : Nat) (index : Index) (event : Event)
    (consistent : Consistent index) (resolvable : AllResolvable index) :
    AllResolvable (next limit index event) ↔ KeepsShared limit index event := by
  cases event with
  | clear => exact iff_of_true (fun _ current => nomatch current.choose_spec) trivial
  | load kind text broken repo fileKey =>
    have replaces := replaces_parseForRepo consistent kind limit text broken repo fileKey
    constructor
    · intro after otherKey different entry mem
      refine (replaces.resolvable_iff consistent (resolvable entry ⟨otherKey, mem⟩)).mp ?_
      exact after entry ⟨otherKey, replaces.mem_generation_iff.mpr (.inr ⟨different, mem⟩)⟩
    · rintro keeps entry ⟨otherKey, mem⟩
      rcases replaces.mem_generation_iff.mp mem with ⟨_, new⟩ | ⟨different, old⟩
      · exact replaces.resolvable_of_mem consistent new
      · exact (replaces.resolvable_iff consistent (resolvable entry ⟨otherKey, old⟩)).mpr
          (keeps otherKey different entry old)

/-- Every current entry is resolvable all along a run iff no load takes a key away from another
index file. -/
theorem allResolvable_throughout_iff (limit : Nat) (events : List Event) :
    (∀ before, before <+: events → AllResolvable (run (next limit) Index.new before)) ↔
      StepsMeet (next limit) (KeepsShared limit) Index.new events := by
  have initial : Consistent Index.new ∧ AllResolvable Index.new :=
    ⟨consistent_clear Index.new, fun _ current => nomatch current.choose_spec⟩
  have stepIff : ∀ index event, Consistent index ∧ AllResolvable index →
      (Consistent (next limit index event) ∧ AllResolvable (next limit index event) ↔
        KeepsShared limit index event) := by
    rintro index event ⟨consistent, resolvable⟩
    rw [allResolvable_next_iff limit index event consistent resolvable]
    exact and_iff_right (consistent_next limit index event consistent)
  rw [← invariant_along_iff_stepsMeet _ stepIff initial events]
  constructor
  · intro resolvable before isPrefix
    exact ⟨run_invariant Consistent (consistent_next limit) initial.1 before,
      resolvable before isPrefix⟩
  · intro both before isPrefix
    exact (both before isPrefix).2

/-- The loads of a release and its updates, which share a package, and of updates without it. -/
def updatesDropShared : List Event :=
  let load (suite sha256 : String) : Event :=
    let url := ofAscii "http://deb/dists/" ++ ofAscii suite ++ ofAscii "/main/Packages"
    .load .packages
      (ofAscii "Package: p\nFilename: pool/p.deb\nSHA256: " ++ ofAscii sha256 ++ ofAscii "\n\n")
      false (extractRepoFromURL url) (indexFileKey url)
  [load "a" "aa", load "a-updates" "aa", load "a-updates" "bb"]

/-- All loads succeed, and the package that the release still lists is gone. -/
theorem not_allResolvable_of_updatesDropShared :
    ¬ AllResolvable (run (next maxPackagesPerRepo) Index.new updatesDropShared) := by
  intro resolvable
  have listed : ∃ entry ∈ generation
      (run (next maxPackagesPerRepo) Index.new updatesDropShared)
      (ofAscii "http://deb/dists/a/main/Packages"), entry.sha256 = ofAscii "aa" := by
    decide
  have gone : getBySHA256 (run (next maxPackagesPerRepo) Index.new updatesDropShared)
      (ofAscii "aa") = none := by
    decide
  obtain ⟨entry, mem, hash⟩ := listed
  obtain ⟨found, foundEq, _⟩ := (resolvable entry ⟨_, mem⟩).bySHA256
  rw [hash, gone] at foundEq
  cases foundEq

end Debswarm.PackageIndex
