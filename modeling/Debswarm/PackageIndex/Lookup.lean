import Debswarm.PackageIndex.Parse

/-!
# Finding the entry of a package URL

A URL names a repository and a path.  If the repository has no entry under the path, any
repository that has one will do, in the order in which a map happens to be visited, and if
there is none, the first entry with the same base name.  This module says which entries a
lookup may return over all orders.
-/

namespace Debswarm.PackageIndex

open List Option Text

/-! ## Paths of URLs -/

/-- The value of a hexadecimal digit. -/
def hexValue (byte : UInt8) : Option UInt8 :=
  if 48 ≤ byte && byte ≤ 57 then some (byte - 48)
  else if 97 ≤ byte && byte ≤ 102 then some (byte - 87)
  else if 65 ≤ byte && byte ≤ 70 then some (byte - 55)
  else none

/-- Replace percent encodings by the bytes that they stand for.  A malformed one is an
error. -/
def pathUnescape : Str → Option Str
  | [] => some []
  | byte :: rest =>
    if byte = 37 then
      match rest with
      | high :: low :: rest =>
        match hexValue high, hexValue low, pathUnescape rest with
        | some high, some low, some rest => some ((high * 16 + low) :: rest)
        | _, _, _ => none
      | _ => none
    else
      (pathUnescape rest).map (byte :: ·)

/-- The path of a URL below the root of its repository, decoded if it is well formed. -/
def extractPathFromURL (url : Str) : Str :=
  let after (offset : Nat) : Str :=
    let path := url.drop (offset + 1)
    (pathUnescape path).getD path
  match index (ofAscii "/pool/") url with
  | some offset => after offset
  | none =>
    match index (ofAscii "/dists/") url with
    | some offset => after offset
    | none => []

/-- The file name of a URL, given the path that the URL parser finds. -/
def basenameFromURL (urlPath : Option Str) : Str :=
  match urlPath with
  | none => []
  | some path =>
    let base := pathBase path
    if base = ofAscii "." ∨ base = ofAscii "/" then [] else base

/-! ## Lookups -/

def repos (index : Index) : List Str :=
  index.byRepo.rows.map Prod.fst

/-- The entry under a path in the first repository that has one, or else by base name. -/
def getByPath (order : List Str) (index : Index) (path : Str) : Option PackageInfo :=
  (order.findSome? fun repo => getByRepoAndPath index repo path).or
    (basenames index (pathBase path)).head?

/-- The entry with a base name, of a given repository if it has one. -/
def getByBasename (index : Index) (basename preferRepo : Str) : Option PackageInfo :=
  let entries := basenames index basename
  if preferRepo ≠ [] then
    (entries.find? fun entry => entry.repo = preferRepo).or entries.head?
  else entries.head?

/-- The entry of a package URL. -/
def getByURLPath (urlPath : Str → Option Str) (order : List Str) (index : Index) (url : Str) :
    Option PackageInfo :=
  let repo := extractRepoFromURL url
  let path := extractPathFromURL url
  if repo = [] then none
  else if path = [] then
    let base := basenameFromURL (urlPath url)
    if base ≠ [] then getByBasename index base repo else none
  else (getByRepoAndPath index repo path).or (getByPath order index path)

/-! ## What a lookup may return -/

/-- The entries under a path in any repository. -/
def holders (index : Index) (path : Str) : List PackageInfo :=
  index.byRepo.rows.filterMap fun filed => filed.2.find? path

/-- The entry of the repository, else those under the path, else the first with the base name. -/
def candidates (index : Index) (repo path : Str) : List PackageInfo :=
  match getByRepoAndPath index repo path with
  | some entry => [entry]
  | none =>
    if holders index path = [] then (basenames index (pathBase path)).head?.toList
    else holders index path

variable {index : Index} {repo path : Str} {order : List Str}

variable {entry : PackageInfo}

theorem getByRepoAndPath_eq_some_iff :
    getByRepoAndPath index repo path = some entry ↔
      ∃ entries, (repo, entries) ∈ index.byRepo.rows ∧ entries.find? path = some entry := by
  unfold getByRepoAndPath
  rw [bind_eq_some_iff]
  constructor
  · rintro ⟨entries, isRepo, isEntry⟩
    exact ⟨entries, Table.find?_eq_some_iff.mp isRepo, isEntry⟩
  · rintro ⟨entries, isRepo, isEntry⟩
    exact ⟨entries, Table.find?_eq_some_iff.mpr isRepo, isEntry⟩

theorem mem_holders_iff :
    entry ∈ holders index path ↔ ∃ repo, getByRepoAndPath index repo path = some entry := by
  simp only [holders, mem_filterMap, Prod.exists, getByRepoAndPath_eq_some_iff]

theorem mem_repos_of_getByRepoAndPath (filed : getByRepoAndPath index repo path = some entry) :
    repo ∈ repos index := by
  obtain ⟨entries, mem, _⟩ := getByRepoAndPath_eq_some_iff.mp filed
  exact mem_map_of_mem mem

/-- Visiting all repositories finds nothing exactly when none has the path. -/
theorem findSome?_eq_none_iff_holders (visits : order.Perm (repos index)) :
    (order.findSome? fun repo => getByRepoAndPath index repo path) = none ↔
      holders index path = [] := by
  rw [findSome?_eq_none_iff, eq_nil_iff_forall_not_mem]
  constructor
  · intro nowhere entry mem
    obtain ⟨repo, filed⟩ := mem_holders_iff.mp mem
    have visited := visits.mem_iff.mpr (mem_repos_of_getByRepoAndPath filed)
    rw [nowhere repo visited] at filed
    cases filed
  · intro nothing repo _
    rw [eq_none_iff_forall_not_mem]
    intro entry filed
    exact nothing entry (mem_holders_iff.mpr ⟨repo, filed⟩)

/-- In every order a lookup returns a candidate, or nothing if there is none. -/
theorem lookup_mem_candidates (visits : order.Perm (repos index)) :
    (∀ entry, (getByRepoAndPath index repo path).or (getByPath order index path) = some entry →
        entry ∈ candidates index repo path) ∧
      ((getByRepoAndPath index repo path).or (getByPath order index path) = none ↔
        candidates index repo path = []) := by
  unfold candidates getByPath
  cases getByRepoAndPath index repo path with
  | some own =>
    constructor
    · rintro entry ⟨rfl⟩
      exact mem_singleton_self own
    · exact iff_of_false nofun nofun
  | none =>
    rw [none_or]
    by_cases nowhere : holders index path = []
    · rw [if_pos nowhere, (findSome?_eq_none_iff_holders visits).mpr nowhere, none_or]
      constructor
      · intro entry isFirst
        rw [isFirst]
        exact mem_singleton_self entry
      · exact toList_eq_nil_iff.symm
    · rw [if_neg nowhere]
      have somewhere := mt (findSome?_eq_none_iff_holders visits).mp nowhere
      obtain ⟨found, isFound⟩ := ne_none_iff_exists'.mp somewhere
      rw [isFound, some_or]
      constructor
      · rintro entry ⟨rfl⟩
        obtain ⟨repo, _, filed⟩ := exists_of_findSome?_eq_some isFound
        exact mem_holders_iff.mpr ⟨repo, filed⟩
      · exact iff_of_false nofun nowhere

/-- Every candidate is returned in some order. -/
theorem exists_order_of_mem_candidates (mem : entry ∈ candidates index repo path) :
    ∃ order, order.Perm (repos index) ∧
      (getByRepoAndPath index repo path).or (getByPath order index path) = some entry := by
  unfold candidates at mem
  cases isOwn : getByRepoAndPath index repo path with
  | some own =>
    rw [isOwn] at mem
    refine ⟨repos index, List.Perm.refl _, ?_⟩
    rw [mem_singleton.mp mem, some_or]
  | none =>
    rw [isOwn] at mem
    dsimp only at mem
    split at mem
    · rename_i nowhere
      refine ⟨repos index, List.Perm.refl _, ?_⟩
      rw [none_or, getByPath,
        (findSome?_eq_none_iff_holders (List.Perm.refl _)).mpr nowhere, none_or]
      exact mem_toList.mp mem
    · obtain ⟨holder, filed⟩ := mem_holders_iff.mp mem
      have isRepo := mem_repos_of_getByRepoAndPath filed
      refine ⟨holder :: (repos index).erase holder, (perm_cons_erase isRepo).symm, ?_⟩
      rw [none_or, getByPath, findSome?_cons, filed]
      rfl

end Debswarm.PackageIndex
