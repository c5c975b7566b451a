import Debswarm.PackageIndex.Views
import Debswarm.Transition.Run

/-!
# The lookups hold the current generations

Every entry that a lookup returns belongs to the current generation of some index
file and is filed under its own key, and the base-name lists hold every current entry
as often as its generation does.  Removal compares identities, so the argument also
carries that an identity names one entry of one file.
-/

namespace Debswarm.PackageIndex

open List Option Table Text Transition

/-- An entry of the current generation of some index file. -/
def Current (index : Index) (entry : PackageInfo) : Prop :=
  ∃ fileKey, entry ∈ generation index fileKey

/-- An identity that was handed out names one entry of one index file. -/
structure Identified (index : Index) : Prop where
  below : ∀ fileKey, ∀ entry ∈ generation index fileKey, entry.addr < index.nextAddr
  apart : ∀ fileKey otherKey, ∀ entry ∈ generation index fileKey,
    ∀ other ∈ generation index otherKey,
      entry.addr = other.addr → fileKey = otherKey ∧ entry = other

/-- The lookups agree with the current generations. -/
structure Consistent (index : Index) : Prop extends Identified index where
  bySHA256 : ∀ sha256 entry, getBySHA256 index sha256 = some entry →
    entry.sha256 = sha256 ∧ Current index entry
  byPath : ∀ repo path entry, getByRepoAndPath index repo path = some entry →
    entry.repo = repo ∧ entry.filename = path ∧ Current index entry
  byBasename : ∀ basename, ∀ entry ∈ basenames index basename,
    entry.HasBasename basename ∧ Current index entry
  listed : ∀ fileKey, ∀ entry ∈ generation index fileKey, entry.filename ≠ [] →
    (basenames index (pathBase entry.filename)).count entry =
      (generation index fileKey).count entry

variable {index before after : Index} {entry : PackageInfo} {fileKey otherKey repo : Str}
  {entries : List PackageInfo}

/-- Among current entries, the same identity is the same entry. -/
theorem Identified.isSame_iff (identified : Identified index) {other : PackageInfo}
    (entryCurrent : Current index entry) (otherCurrent : Current index other) :
    entry.isSame other = true ↔ entry = other := by
  obtain ⟨fileKey, entryMem⟩ := entryCurrent
  obtain ⟨otherKey, otherMem⟩ := otherCurrent
  simp only [PackageInfo.isSame, decide_eq_true_eq]
  constructor
  · intro same
    exact (identified.apart fileKey otherKey entry entryMem other otherMem same.symm).2
  · rintro rfl
    rfl

/-! ## Removing a generation -/

theorem generation_clearIndexFile (fileKey : Str) (index : Index) (otherKey : Str) :
    generation (clearIndexFile fileKey index) otherKey =
      if otherKey = fileKey then [] else generation index otherKey := by
  unfold clearIndexFile
  dsimp only
  split
  · rename_i empty
    split
    · rename_i same
      rw [same, empty]
    · rfl
  · simp only [generation, (foldl_forget_frame _ _ index).1]
    by_cases same : otherKey = fileKey
    · rw [if_pos same, same, find?_delete_self]
      rfl
    · rw [if_neg same, find?_delete_ne _ same]

theorem nextAddr_clearIndexFile (fileKey : Str) (index : Index) :
    (clearIndexFile fileKey index).nextAddr = index.nextAddr := by
  unfold clearIndexFile
  dsimp only
  split
  · rfl
  · exact (foldl_forget_frame _ _ index).2

/-- A removal that drops exactly the entries of a generation from a lookup. -/
theorem filter_all_eq_filter_notMem (identified : Identified index) (fileKey : Str)
    (key : PackageInfo → Prop) [DecidablePred key] (found : Option PackageInfo)
    (foundKey : ∀ entry ∈ found, key entry ∧ Current index entry) :
    (found.filter fun current =>
        (generation index fileKey).all fun entry => !(decide (key entry) && entry.isSame current)) =
      found.filter fun current => current ∉ generation index fileKey := by
  cases found with
  | none => rfl
  | some current =>
    obtain ⟨hasKey, isCurrent⟩ := foundKey current rfl
    have kept : ((generation index fileKey).all fun entry =>
        !(decide (key entry) && entry.isSame current)) =
          decide (current ∉ generation index fileKey) := by
      rw [Bool.eq_iff_iff, List.all_eq_true, decide_eq_true_eq]
      constructor
      · intro all mem
        have same := (identified.isSame_iff isCurrent isCurrent).mpr rfl
        have notBoth := all current mem
        simp [hasKey, same] at notBoth
      · intro notMem entry mem
        by_contra both
        simp only [Bool.not_eq_true', Bool.not_eq_false, Bool.and_eq_true] at both
        have eq := (identified.isSame_iff ⟨fileKey, mem⟩ isCurrent).mp both.2
        exact notMem (eq ▸ mem)
    simp only [Option.filter_some, kept]

theorem getBySHA256_clearIndexFile (consistent : Consistent index) (fileKey sha256 : Str) :
    getBySHA256 (clearIndexFile fileKey index) sha256 =
      (getBySHA256 index sha256).filter fun entry => entry ∉ generation index fileKey := by
  have removed := filter_all_eq_filter_notMem consistent.toIdentified fileKey
    (fun entry => sha256 = entry.sha256) (getBySHA256 index sha256) (by
      intro entry found
      exact ⟨(consistent.bySHA256 sha256 entry found).1.symm,
        (consistent.bySHA256 sha256 entry found).2⟩)
  unfold clearIndexFile
  dsimp only
  split
  · rename_i empty
    simp [empty, optionFilter_true]
  · exact (getBySHA256_foldl_forget _ _ index sha256).trans removed

theorem getByRepoAndPath_clearIndexFile (consistent : Consistent index) (fileKey repo path : Str) :
    getByRepoAndPath (clearIndexFile fileKey index) repo path =
      (getByRepoAndPath index repo path).filter fun entry =>
        entry ∉ generation index fileKey := by
  have removed := filter_all_eq_filter_notMem consistent.toIdentified fileKey
    (fun entry => repo = entry.repo ∧ path = entry.filename) (getByRepoAndPath index repo path) (by
      intro entry found
      obtain ⟨sameRepo, samePath, isCurrent⟩ := consistent.byPath repo path entry found
      exact ⟨⟨sameRepo.symm, samePath.symm⟩, isCurrent⟩)
  unfold clearIndexFile
  dsimp only
  split
  · rename_i empty
    simp [empty, optionFilter_true]
  · exact (getByRepoAndPath_foldl_forget _ _ index repo path).trans removed

theorem basenames_clearIndexFile (consistent : Consistent index) (fileKey basename : Str) :
    basenames (clearIndexFile fileKey index) basename =
      (basenames index basename).filter fun entry => entry ∉ generation index fileKey := by
  unfold clearIndexFile
  dsimp only
  split
  · rename_i empty
    simp [empty]
  · refine (basenames_foldl_forget _ _ index basename).trans ?_
    split
    · refine List.filter_congr fun entry mem => ?_
      have isCurrent := (consistent.byBasename basename entry mem).2
      rw [Bool.eq_iff_iff, Bool.not_eq_true', ← Bool.not_eq_true, List.any_eq_true,
        decide_eq_true_eq]
      apply not_congr
      constructor
      · rintro ⟨forgotten, forgottenMem, same⟩
        exact (consistent.isSame_iff ⟨fileKey, forgottenMem⟩ isCurrent).mp same ▸ forgottenMem
      · intro entryMem
        exact ⟨entry, entryMem, (consistent.isSame_iff isCurrent isCurrent).mpr rfl⟩
    · rename_i noneFiled
      symm
      rw [List.filter_eq_self]
      intro entry mem
      have filed := (consistent.byBasename basename entry mem).1
      exact decide_eq_true fun old => noneFiled ⟨entry, old, filed⟩

/-! ## A load -/

/-- Loading an index file: the previous generation goes, and the new entries are filed. -/
structure Replaces (before after : Index) (repo fileKey : Str) (entries : List PackageInfo) :
    Prop where
  fresh : Fresh before.nextAddr after.nextAddr repo entries
  byIndexFile : ∀ otherKey, generation after otherKey =
    if otherKey = fileKey then entries else generation before otherKey
  bySHA256 : ∀ sha256, getBySHA256 after sha256 =
    (lastWith (fun entry => entry.sha256 = sha256) entries).or
      ((getBySHA256 before sha256).filter fun entry => entry ∉ generation before fileKey)
  byPath : ∀ repo path, getByRepoAndPath after repo path =
    (lastWith (fun entry => entry.FiledAt repo path) entries).or
      ((getByRepoAndPath before repo path).filter fun entry => entry ∉ generation before fileKey)
  byBasename : ∀ basename, basenames after basename =
    ((basenames before basename).filter fun entry => entry ∉ generation before fileKey) ++
      entries.filter fun entry => entry.HasBasename basename

theorem foldl_addToLoad (entries : List PackageInfo) (load : Index × List PackageInfo) :
    entries.foldl addToLoad load = (entries.foldl addPackage load.1, load.2 ++ entries) := by
  induction entries generalizing load with
  | nil => simp
  | cons entry entries ih => simp [ih, addToLoad]

theorem getByRepoAndPath_ensureRepo (index : Index) (repo otherRepo path : Str) :
    getByRepoAndPath (ensureRepo repo index) otherRepo path =
      getByRepoAndPath index otherRepo path := by
  unfold ensureRepo
  split
  · rfl
  · rename_i missing
    simp only [getByRepoAndPath, find?_set]
    split
    · rename_i same
      rw [same, missing]
      rfl
    · rfl

/-- Outside the map of repositories, making sure that a repository has one changes
nothing. -/
theorem ensureRepo_frame (index : Index) (repo : Str) :
    (ensureRepo repo index).packages = index.packages ∧
      (ensureRepo repo index).byBasename = index.byBasename ∧
      (ensureRepo repo index).byIndexFile = index.byIndexFile ∧
      (ensureRepo repo index).nextAddr = index.nextAddr := by
  unfold ensureRepo
  split <;> exact ⟨rfl, rfl, rfl, rfl⟩

theorem generation_recordGeneration (fileKey : Str) (entries : List PackageInfo)
    (index : Index) (absent : generation index fileKey = []) (otherKey : Str) :
    generation (recordGeneration fileKey entries index) otherKey =
      if otherKey = fileKey then entries else generation index otherKey := by
  unfold recordGeneration
  split
  · rename_i empty
    split
    · rename_i same
      rw [same, absent, empty]
    · rfl
  · simp only [generation, find?_set]
    split <;> rfl

theorem recordGeneration_eq (fileKey : Str) (entries : List PackageInfo) (index : Index) :
    ∃ byIndexFile, recordGeneration fileKey entries index = { index with byIndexFile } := by
  unfold recordGeneration
  split <;> exact ⟨_, rfl⟩

/-- Loading a text, broken off or not, replaces the generation of its file by its listing. -/
theorem replaces_parseForRepo (consistent : Consistent index) (kind : Kind) (limit : Nat)
    (text : Str) (broken : Bool) (repo fileKey : Str) :
    Replaces index (parseForRepo kind limit text broken repo fileKey index).2 repo fileKey
      (listing kind limit repo (scanLines text).1 index.nextAddr) := by
  have nextAddrEq : (ensureRepo repo (clearIndexFile fileKey index)).nextAddr = index.nextAddr :=
    (ensureRepo_frame _ repo).2.2.2.trans (nextAddr_clearIndexFile fileKey index)
  have resultEq : (parseForRepo kind limit text broken repo fileKey index).2 =
      recordGeneration fileKey (listing kind limit repo (scanLines text).1 index.nextAddr)
        { (listing kind limit repo (scanLines text).1 index.nextAddr).foldl addPackage
            (ensureRepo repo (clearIndexFile fileKey index)) with
          nextAddr := addrAfter kind limit repo (scanLines text).1 index.nextAddr } := by
    unfold parseForRepo
    dsimp only
    rw [parse_eq_foldl_listing, foldl_addToLoad, nextAddrEq]
    rfl
  have fresh := fresh_listing kind limit repo (scanLines text).1 index.nextAddr
  rw [resultEq]
  generalize listing kind limit repo (scanLines text).1 index.nextAddr = entries at fresh ⊢
  generalize addrAfter kind limit repo (scanLines text).1 index.nextAddr = nextAddr at fresh ⊢
  obtain ⟨byIndexFile, recorded⟩ := recordGeneration_eq fileKey entries
    { entries.foldl addPackage (ensureRepo repo (clearIndexFile fileKey index)) with nextAddr }
  refine ⟨by rw [recorded]; exact fresh, fun otherKey => ?_, fun sha256 => ?_,
    fun otherRepo path => ?_, fun basename => ?_⟩
  · have filedGeneration : ∀ key, generation
        { entries.foldl addPackage (ensureRepo repo (clearIndexFile fileKey index)) with nextAddr }
        key = if key = fileKey then [] else generation index key := by
      intro key
      rw [← generation_clearIndexFile]
      simp only [generation, byIndexFile_foldl_addPackage, (ensureRepo_frame _ repo).2.2.1]
    rw [generation_recordGeneration _ _ _ (by rw [filedGeneration, if_pos rfl]), filedGeneration]
    split <;> rfl
  · rw [← getBySHA256_clearIndexFile consistent]
    simp only [getBySHA256, recorded]
    refine (getBySHA256_foldl_addPackage entries _ sha256).trans ?_
    simp only [getBySHA256, (ensureRepo_frame _ repo).1]
  · rw [← getByRepoAndPath_clearIndexFile consistent]
    simp only [getByRepoAndPath, recorded]
    refine (getByRepoAndPath_foldl_addPackage entries _ otherRepo path).trans ?_
    rw [getByRepoAndPath_ensureRepo]
    rfl
  · rw [← basenames_clearIndexFile consistent]
    simp only [basenames, recorded]
    refine (basenames_foldl_addPackage entries _ basename).trans ?_
    simp only [basenames, (ensureRepo_frame _ repo).2.1]

section

variable (replaces : Replaces before after repo fileKey entries)

include replaces

theorem Replaces.mem_generation_iff :
    entry ∈ generation after otherKey ↔
      otherKey = fileKey ∧ entry ∈ entries ∨
        otherKey ≠ fileKey ∧ entry ∈ generation before otherKey := by
  rw [replaces.byIndexFile]
  by_cases same : otherKey = fileKey <;> simp [same]

/-- A new entry has an identity that no entry had before. -/
theorem Replaces.addr_lt (identified : Identified before) {old new : PackageInfo}
    (oldCurrent : Current before old) (newMem : new ∈ entries) : old.addr < new.addr := by
  obtain ⟨otherKey, oldMem⟩ := oldCurrent
  exact (identified.below otherKey old oldMem).trans_le (replaces.fresh.range new newMem).1

theorem Replaces.current_of_mem (mem : entry ∈ entries) : Current after entry :=
  ⟨fileKey, replaces.mem_generation_iff.mpr (.inl ⟨rfl, mem⟩)⟩

theorem Replaces.current_of_notMem (current : Current before entry)
    (kept : entry ∉ generation before fileKey) : Current after entry := by
  obtain ⟨otherKey, mem⟩ := current
  refine ⟨otherKey, replaces.mem_generation_iff.mpr (.inr ⟨?_, mem⟩)⟩
  rintro rfl
  exact kept mem

end

/-- A lookup after a load finds a new entry or one of another file that was found before. -/
theorem of_or_filter_eq_some {property : PackageInfo → Bool} {old : List PackageInfo}
    {found : Option PackageInfo}
    (eq : (lastWith property entries).or (found.filter fun other => other ∉ old) = some entry) :
    entry ∈ entries ∧ property entry = true ∨ found = some entry ∧ entry ∉ old := by
  rcases or_eq_some_iff.mp eq with new | ⟨_, kept⟩
  · exact .inl (mem_of_lastWith new)
  · obtain ⟨foundEq, notMem⟩ := filter_eq_some_iff.mp kept
    exact .inr ⟨foundEq, of_decide_eq_true notMem⟩

section

variable (replaces : Replaces before after repo fileKey entries)

include replaces

theorem Replaces.identified
    (identified : Identified before) : Identified after := by
  constructor
  · intro otherKey entry mem
    rcases replaces.mem_generation_iff.mp mem with ⟨_, new⟩ | ⟨_, old⟩
    · exact (replaces.fresh.range entry new).2
    · exact (identified.below otherKey entry old).trans_le replaces.fresh.le
  · intro firstKey secondKey first firstMem second secondMem same
    rcases replaces.mem_generation_iff.mp firstMem with ⟨rfl, firstNew⟩ | ⟨_, firstOld⟩
    · rcases replaces.mem_generation_iff.mp secondMem with ⟨rfl, secondNew⟩ | ⟨_, secondOld⟩
      · exact ⟨rfl, replaces.fresh.apart first firstNew second secondNew same⟩
      · exact absurd same.symm (replaces.addr_lt identified ⟨secondKey, secondOld⟩ firstNew).ne
    · rcases replaces.mem_generation_iff.mp secondMem with ⟨rfl, secondNew⟩ | ⟨_, secondOld⟩
      · exact absurd same (replaces.addr_lt identified ⟨firstKey, firstOld⟩ secondNew).ne
      · exact identified.apart firstKey secondKey first firstOld second secondOld same

/-- The base-name lists hold the new entries and those of the others as often as before. -/
theorem Replaces.listed
    (consistent : Consistent before) (mem : entry ∈ generation after otherKey)
    (hasFilename : entry.filename ≠ []) :
    (basenames after (pathBase entry.filename)).count entry =
      (generation after otherKey).count entry := by
  have filedCount : (entries.filter fun other =>
      other.HasBasename (pathBase entry.filename)).count entry = entries.count entry :=
    count_filter (decide_eq_true ⟨hasFilename, rfl⟩)
  rw [replaces.byBasename, count_append, filedCount]
  rcases replaces.mem_generation_iff.mp mem with ⟨rfl, new⟩ | ⟨different, old⟩
  · have absent : entry ∉ (basenames before (pathBase entry.filename)).filter
        fun other => other ∉ generation before otherKey := by
      intro listed
      have current := (consistent.byBasename _ entry (mem_of_mem_filter listed)).2
      exact (replaces.addr_lt consistent.toIdentified current new).false
    rw [count_eq_zero_of_not_mem absent, zero_add, replaces.byIndexFile, if_pos rfl]
  · have absent : entry ∉ entries := fun new =>
      (replaces.addr_lt consistent.toIdentified ⟨otherKey, old⟩ new).false
    have kept : entry ∉ generation before fileKey := fun inFile =>
      different (consistent.apart otherKey fileKey entry old entry inFile rfl).1
    have keptCount : ((basenames before (pathBase entry.filename)).filter fun other =>
        other ∉ generation before fileKey).count entry =
          (basenames before (pathBase entry.filename)).count entry :=
      count_filter (decide_eq_true kept)
    rw [count_eq_zero_of_not_mem absent, add_zero, keptCount,
      consistent.listed otherKey entry old hasFilename, replaces.byIndexFile, if_neg different]

theorem Replaces.consistent
    (consistent : Consistent before) : Consistent after where
  toIdentified := replaces.identified consistent.toIdentified
  bySHA256 sha256 entry found := by
    rw [replaces.bySHA256] at found
    rcases of_or_filter_eq_some found with ⟨mem, hash⟩ | ⟨foundBefore, kept⟩
    · exact ⟨of_decide_eq_true hash, replaces.current_of_mem mem⟩
    · obtain ⟨hash, current⟩ := consistent.bySHA256 sha256 entry foundBefore
      exact ⟨hash, replaces.current_of_notMem current kept⟩
  byPath otherRepo path entry found := by
    rw [replaces.byPath] at found
    rcases of_or_filter_eq_some found with ⟨mem, filed⟩ | ⟨foundBefore, kept⟩
    · obtain ⟨_, sameRepo, samePath⟩ := of_decide_eq_true filed
      exact ⟨sameRepo, samePath, replaces.current_of_mem mem⟩
    · obtain ⟨sameRepo, samePath, current⟩ := consistent.byPath otherRepo path entry foundBefore
      exact ⟨sameRepo, samePath, replaces.current_of_notMem current kept⟩
  byBasename basename entry mem := by
    rw [replaces.byBasename] at mem
    rcases mem_append.mp mem with old | new
    · obtain ⟨oldMem, kept⟩ := mem_filter.mp old
      obtain ⟨filed, current⟩ := consistent.byBasename basename entry oldMem
      exact ⟨filed, replaces.current_of_notMem current (of_decide_eq_true kept)⟩
    · obtain ⟨newMem, filed⟩ := mem_filter.mp new
      exact ⟨of_decide_eq_true filed, replaces.current_of_mem newMem⟩
  listed _ _ mem hasFilename := replaces.listed consistent mem hasFilename

end

/-! ## Runs -/

/-- A text of either kind is loaded, perhaps broken off, or everything is dropped. -/
inductive Event
  | load (kind : Kind) (text : Str) (broken : Bool) (repo fileKey : Str)
  | clear

/-- One event, with at most `limit` entries read per file. -/
def next (limit : Nat) (index : Index) : Event → Index
  | .load kind text broken repo fileKey =>
    (parseForRepo kind limit text broken repo fileKey index).2
  | .clear => clear index

theorem consistent_clear (index : Index) : Consistent (clear index) where
  below _ _ mem := nomatch mem
  apart _ _ _ mem := nomatch mem
  bySHA256 _ _ found := nomatch found
  byPath _ _ _ found := nomatch found
  byBasename _ _ mem := nomatch mem
  listed _ _ mem := nomatch mem

theorem consistent_next (limit : Nat) (index : Index) (event : Event)
    (consistent : Consistent index) : Consistent (next limit index event) := by
  cases event with
  | load kind text broken repo fileKey =>
    exact (replaces_parseForRepo consistent kind limit text broken repo fileKey).consistent
      consistent
  | clear => exact consistent_clear index

theorem consistent_new : Consistent Index.new :=
  consistent_clear Index.new

/-- After any loads and clears, every lookup returns current entries under their own keys, and the
base-name lists hold them as often as their generations do. -/
theorem consistent_after_every_run (limit : Nat) (events : List Event) :
    Consistent (run (next limit) Index.new events) :=
  run_invariant Consistent (consistent_next limit) consistent_new events

end Debswarm.PackageIndex
