import Debswarm.PackageIndex.Listing

/-!
# What a load does to the lookups

A load first removes the previous generation of its index file and then files the
entries of the new text.  This module says what each of the two does to each lookup:
removing filters the entries of the generation out, and filing puts the last entry
with a key in front of what was there.
-/

namespace Debswarm.PackageIndex

open List Option Table Text

/-- An entry that is filed under a repository and a path. -/
def PackageInfo.FiledAt (entry : PackageInfo) (repo path : Str) : Prop :=
  entry.filename ≠ [] ∧ entry.repo = repo ∧ entry.filename = path

/-- An entry that is filed under a base name. -/
def PackageInfo.HasBasename (entry : PackageInfo) (basename : Str) : Prop :=
  entry.filename ≠ [] ∧ pathBase entry.filename = basename

instance (entry : PackageInfo) (repo path : Str) : Decidable (entry.FiledAt repo path) :=
  inferInstanceAs (Decidable (_ ∧ _))

instance (entry : PackageInfo) (basename : Str) : Decidable (entry.HasBasename basename) :=
  inferInstanceAs (Decidable (_ ∧ _))

/-! ## Filing entries -/

theorem getBySHA256_addPackage (index : Index) (entry : PackageInfo) (sha256 : Str) :
    getBySHA256 (addPackage index entry) sha256 =
      if entry.sha256 = sha256 then some entry else getBySHA256 index sha256 := by
  have packagesEq : (addPackage index entry).packages = index.packages.set entry.sha256 entry := by
    unfold addPackage
    split <;> rfl
  rw [getBySHA256, packagesEq, find?_set]
  simp only [eq_comm]
  rfl

theorem getByRepoAndPath_addPackage (index : Index) (entry : PackageInfo) (repo path : Str) :
    getByRepoAndPath (addPackage index entry) repo path =
      if entry.FiledAt repo path then some entry else getByRepoAndPath index repo path := by
  unfold addPackage getByRepoAndPath PackageInfo.FiledAt
  by_cases noFilename : entry.filename = []
  · simp [noFilename]
  · simp only [noFilename, if_false, ne_eq, not_false_eq_true, true_and, find?_insertOrUpdate]
    by_cases sameRepo : repo = entry.repo
    · subst sameRepo
      simp only [if_true, true_and]
      cases index.byRepo.find? entry.repo with
      | none =>
        simp only [elim_none, bind_some, bind_none, find?_set, find?_empty, eq_comm]
      | some entries =>
        simp only [elim_some, bind_some, find?_set, eq_comm]
    · simp [sameRepo, Ne.symm sameRepo]

theorem basenames_addPackage (index : Index) (entry : PackageInfo) (basename : Str) :
    basenames (addPackage index entry) basename =
      basenames index basename ++ [entry].filter (fun other => other.HasBasename basename) := by
  unfold addPackage PackageInfo.HasBasename
  by_cases noFilename : entry.filename = []
  · simp [noFilename, basenames]
  · simp only [noFilename, if_false, basenames, find?_set]
    by_cases same : basename = pathBase entry.filename
    · simp [same, noFilename]
    · simp [same, Ne.symm same, noFilename]

/-- The last entry of a list with a property. -/
def lastWith (property : PackageInfo → Bool) (entries : List PackageInfo) :
    Option PackageInfo :=
  entries.reverse.find? property

theorem lastWith_cons (property : PackageInfo → Bool) (entry : PackageInfo)
    (entries : List PackageInfo) :
    lastWith property (entry :: entries) =
      (lastWith property entries).or (if property entry then some entry else none) := by
  rw [lastWith, reverse_cons, find?_append, lastWith]
  by_cases holds : property entry = true <;> simp [holds]

theorem mem_of_lastWith {property : PackageInfo → Bool} {entries : List PackageInfo}
    {entry : PackageInfo} (found : lastWith property entries = some entry) :
    entry ∈ entries ∧ property entry = true :=
  ⟨mem_reverse.mp (mem_of_find?_eq_some found), find?_some found⟩

theorem isSome_lastWith_iff {property : PackageInfo → Bool} {entries : List PackageInfo} :
    (lastWith property entries).isSome ↔ ∃ entry ∈ entries, property entry = true := by
  simp [lastWith]

variable (old entries : List PackageInfo) (index : Index) (entry : PackageInfo)
  (basename repo path sha256 : Str)

theorem getBySHA256_foldl_addPackage :
    getBySHA256 (entries.foldl addPackage index) sha256 =
      (lastWith (fun entry => entry.sha256 = sha256) entries).or (getBySHA256 index sha256) := by
  induction entries generalizing index with
  | nil => rfl
  | cons entry entries ih =>
    rw [List.foldl_cons, ih, getBySHA256_addPackage, lastWith_cons, Option.or_assoc]
    by_cases same : entry.sha256 = sha256 <;> simp [same]

theorem getByRepoAndPath_foldl_addPackage :
    getByRepoAndPath (entries.foldl addPackage index) repo path =
      (lastWith (fun entry => entry.FiledAt repo path) entries).or
        (getByRepoAndPath index repo path) := by
  induction entries generalizing index with
  | nil => rfl
  | cons entry entries ih =>
    rw [List.foldl_cons, ih, getByRepoAndPath_addPackage, lastWith_cons, Option.or_assoc]
    by_cases filed : entry.FiledAt repo path <;> simp [filed]

theorem basenames_foldl_addPackage :
    basenames (entries.foldl addPackage index) basename =
      basenames index basename ++ entries.filter fun entry => entry.HasBasename basename := by
  induction entries generalizing index with
  | nil => simp
  | cons entry entries ih =>
    rw [foldl_cons, ih, basenames_addPackage, append_assoc, ← filter_append]
    rfl

theorem byIndexFile_foldl_addPackage :
    (entries.foldl addPackage index).byIndexFile = index.byIndexFile := by
  induction entries generalizing index with
  | nil => rfl
  | cons entry entries ih =>
    rw [foldl_cons, ih, addPackage]
    split <;> rfl

/-! ## Removing a generation -/

theorem getBySHA256_forget :
    getBySHA256 (forget old index entry) sha256 =
      (getBySHA256 index sha256).filter fun current =>
        !(decide (sha256 = entry.sha256) && entry.isSame current) :=
  find?_deleteIf index.packages entry.sha256 sha256 entry.isSame

theorem getByRepoAndPath_forget :
    getByRepoAndPath (forget old index entry) repo path =
      (getByRepoAndPath index repo path).filter fun current =>
        !(decide (repo = entry.repo ∧ path = entry.filename) && entry.isSame current) := by
  simp only [getByRepoAndPath, forget, forgetPath]
  cases found : index.byRepo.find? entry.repo with
  | none =>
    by_cases sameRepo : repo = entry.repo
    · rw [sameRepo, found]
      rfl
    · simp [sameRepo, optionFilter_true]
  | some entries =>
    have left := entries.find?_deleteIf entry.filename path entry.isSame
    by_cases sameRepo : repo = entry.repo
    · subst sameRepo
      simp only [true_and, found, bind_some]
      split
      · rename_i empty
        rw [eq_empty_of_rows_eq_nil empty] at left
        rw [find?_delete_self]
        exact left
      · rw [find?_set, if_pos rfl]
        exact left
    · simp only [sameRepo, false_and, decide_false, Bool.false_and, Bool.not_false,
        optionFilter_true]
      split
      · rw [find?_delete_ne _ sameRepo]
      · rw [find?_set, if_neg sameRepo]

theorem basenames_forget :
    basenames (forget old index entry) basename =
      if entry.HasBasename basename then
        (basenames index basename).filter fun other =>
          !old.any fun forgotten => forgotten.isSame other
      else basenames index basename := by
  simp only [basenames, forget, forgetBasename, PackageInfo.HasBasename]
  by_cases same : pathBase entry.filename = basename
  · subst same
    split
    · rename_i unchanged
      rcases unchanged with noFilename | noEntries
      · simp [noFilename]
      · simp [noEntries]
    · rename_i changed
      have hasFilename : entry.filename ≠ [] := fun none => changed (.inl none)
      simp only [hasFilename, ne_eq, not_false_eq_true, and_self, if_true]
      split
      · rename_i empty
        rw [find?_delete_self, empty]
        rfl
      · rw [find?_set, if_pos rfl]
        rfl
  · simp only [same, and_false, if_false]
    split
    · rfl
    · split
      · rw [find?_delete_ne _ (Ne.symm same)]
      · rw [find?_set, if_neg (Ne.symm same)]

theorem getBySHA256_foldl_forget :
    getBySHA256 (entries.foldl (forget old) index) sha256 =
      (getBySHA256 index sha256).filter fun current =>
        entries.all fun entry => !(decide (sha256 = entry.sha256) && entry.isSame current) := by
  induction entries generalizing index with
  | nil => exact (optionFilter_true _).symm
  | cons entry entries ih =>
    rw [List.foldl_cons, ih, getBySHA256_forget, Option.filter_filter]
    rfl

theorem getByRepoAndPath_foldl_forget :
    getByRepoAndPath (entries.foldl (forget old) index) repo path =
      (getByRepoAndPath index repo path).filter fun current =>
        entries.all fun entry =>
          !(decide (repo = entry.repo ∧ path = entry.filename) && entry.isSame current) := by
  induction entries generalizing index with
  | nil => exact (optionFilter_true _).symm
  | cons entry entries ih =>
    rw [List.foldl_cons, ih, getByRepoAndPath_forget, Option.filter_filter]
    rfl

theorem basenames_foldl_forget :
    basenames (entries.foldl (forget old) index) basename =
      if ∃ entry ∈ entries, entry.HasBasename basename then
        (basenames index basename).filter fun other =>
          !old.any fun forgotten => forgotten.isSame other
      else basenames index basename := by
  induction entries generalizing index with
  | nil => simp
  | cons entry entries ih =>
    rw [List.foldl_cons, ih, basenames_forget]
    by_cases here : entry.HasBasename basename
    · simp [here, List.filter_filter]
    · simp [here]

theorem foldl_forget_frame :
    (entries.foldl (forget old) index).byIndexFile = index.byIndexFile ∧
      (entries.foldl (forget old) index).nextAddr = index.nextAddr := by
  induction entries generalizing index with
  | nil => exact ⟨rfl, rfl⟩
  | cons entry entries ih => exact ih (forget old index entry)

end Debswarm.PackageIndex
