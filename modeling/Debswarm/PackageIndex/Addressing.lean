import Debswarm.PackageIndex.Addresses
import Debswarm.PackageIndex.Consistency

/-!
# Looking up a package by its address

A lookup by address finds the entry of the repository and the file name in every index that
has one, whatever else is loaded, exactly when the address is legible.  Otherwise the lookup
falls back on another path or on the base name, and an index in which two files list the
same text leads it astray.
-/

namespace Debswarm.PackageIndex

open List Option Text Transition

/-- In every index and order of its repositories, the address leads to the entry of the file. -/
def LeadsHome (limit : Nat) (urlPath : Str → Option Str) (repo filename url : Str) : Prop :=
  ∀ events order, order.Perm (repos (run (next limit) Index.new events)) →
    ∀ entry, getByRepoAndPath (run (next limit) Index.new events) repo filename = some entry →
      getByURLPath urlPath order (run (next limit) Index.new events) url = some entry

/-! ## Where entries come from -/

/-- Every current entry was listed by a text. -/
def FromTexts (limit : Nat) (index : Index) : Prop :=
  ∀ entry, Current index entry → ∃ kind text nextAddr,
    entry ∈ listing kind limit entry.repo (scanLines text).1 nextAddr

theorem fromTexts_next (limit : Nat) (index : Index) (event : Event)
    (inv : Consistent index ∧ FromTexts limit index) :
    Consistent (next limit index event) ∧ FromTexts limit (next limit index event) := by
  obtain ⟨consistent, fromTexts⟩ := inv
  refine ⟨consistent_next limit index event consistent, ?_⟩
  rintro entry ⟨fileKey, mem⟩
  cases event with
  | clear => cases mem
  | load kind text broken repo loadedKey =>
    have replaces := replaces_parseForRepo consistent kind limit text broken repo loadedKey
    rcases replaces.mem_generation_iff.mp mem with ⟨_, new⟩ | ⟨_, old⟩
    · exact ⟨kind, text, index.nextAddr, (replaces.fresh.ofRepo entry new).symm ▸ new⟩
    · exact fromTexts entry ⟨fileKey, old⟩

/-- A file name that is filed once is listed by a text, for every repository. -/
theorem exists_text_of_filed {limit : Nat} {events : List Event} {repo filename : Str}
    {entry : PackageInfo}
    (filed : getByRepoAndPath (run (next limit) Index.new events) repo filename = some entry) :
    ∃ kind text, ∀ otherRepo nextAddr,
      ∃ other ∈ listing kind limit otherRepo (scanLines text).1 nextAddr,
        other.filename = filename := by
  have initial : Consistent Index.new ∧ FromTexts limit Index.new := by
    refine ⟨consistent_clear Index.new, ?_⟩
    rintro entry ⟨fileKey, mem⟩
    cases mem
  obtain ⟨consistent, fromTexts⟩ := run_invariant _ (fromTexts_next limit) initial events
  obtain ⟨-, isNamed, current⟩ := consistent.byPath repo filename entry filed
  obtain ⟨kind, text, addr, listed⟩ := fromTexts entry current
  refine ⟨kind, text, fun otherRepo nextAddr => ?_⟩
  obtain ⟨other, otherListed, same⟩ := exists_mem_listing listed nextAddr
  refine ⟨other.label otherRepo, ?_, (keys_of_bare_eq same).2.2.trans isNamed⟩
  rw [← map_label_listing kind limit otherRepo entry.repo]
  exact mem_map_of_mem otherListed

/-! ## One text, two index files -/

/-- The loads of one text, first for one repository and then for another. -/
def doubled (kind : Kind) (text first second : Str) : List Event :=
  [.load kind text false first [], .load kind text false second [0]]

/-- An index with two generations that list the same file names. -/
structure Doubled (index : Index) (first second : Str) (earlier later : List PackageInfo) :
    Prop where
  consistent : Consistent index
  byPath : ∀ repo path, getByRepoAndPath index repo path =
    (lastWith (fun entry => entry.FiledAt repo path) later).or
      (lastWith (fun entry => entry.FiledAt repo path) earlier)
  byBasename : ∀ basename, basenames index basename =
    (earlier.filter fun entry => entry.HasBasename basename) ++
      later.filter fun entry => entry.HasBasename basename
  sameNames : earlier.map PackageInfo.filename = later.map PackageInfo.filename
  ofFirst : ∀ entry ∈ earlier, entry.repo = first
  ofSecond : ∀ entry ∈ later, entry.repo = second
  apart : ∀ entry ∈ earlier, entry ∉ later

theorem map_filename_listing (kind : Kind) (limit : Nat) (repo otherRepo : Str)
    (lines : List Str) (nextAddr otherAddr : Nat) :
    (listing kind limit repo lines nextAddr).map PackageInfo.filename =
      (listing kind limit otherRepo lines otherAddr).map PackageInfo.filename := by
  have ofBare : PackageInfo.filename = PackageInfo.filename ∘ PackageInfo.bare := rfl
  have ofLabelled : PackageInfo.filename = PackageInfo.filename ∘ PackageInfo.label repo := rfl
  have sameBare := bareAll_listing kind limit repo lines nextAddr otherAddr
  unfold bareAll at sameBare
  rw [ofBare, ← List.map_map, sameBare, List.map_map, ← ofBare,
    ← map_label_listing kind limit repo otherRepo, List.map_map, ← ofLabelled]

theorem doubled_spec (kind : Kind) (limit : Nat) (text first second : Str) :
    ∃ nextAddr, Doubled (run (next limit) Index.new (doubled kind text first second)) first second
      (listing kind limit first (scanLines text).1 0)
      (listing kind limit second (scanLines text).1 nextAddr) := by
  have empty : Consistent Index.new := consistent_clear Index.new
  have once := replaces_parseForRepo empty kind limit text false first []
  have onceConsistent := once.consistent empty
  have twice := replaces_parseForRepo onceConsistent kind limit text false second [0]
  have noneYet : generation (parseForRepo kind limit text false first [] Index.new).2 [0] = [] := by
    rw [once.byIndexFile, if_neg (by decide)]
    rfl
  have keepsAll : ∀ entries : List PackageInfo, (entries.filter fun entry =>
      entry ∉ ([] : List PackageInfo)) = entries :=
    fun entries => List.filter_eq_self.mpr fun entry _ => by simp
  refine ⟨(parseForRepo kind limit text false first [] Index.new).2.nextAddr,
    twice.consistent onceConsistent, fun repo path => ?_, fun basename => ?_,
    map_filename_listing kind limit first second _ _ _, once.fresh.ofRepo, twice.fresh.ofRepo,
    fun entry inEarlier inLater => ?_⟩
  · refine (twice.byPath repo path).trans (congrArg (Option.or _) ?_)
    rw [noneYet, once.byPath]
    have nothing : getByRepoAndPath Index.new repo path = none := rfl
    simp only [nothing, Option.filter_none, Option.or_none, List.not_mem_nil, not_false_eq_true,
      decide_true, optionFilter_true]
    rfl
  · refine (twice.byBasename basename).trans (congrArg (· ++ _) ?_)
    rw [noneYet, keepsAll, once.byBasename]
    rfl
  · have below := (once.fresh.range entry inEarlier).2
    exact absurd (twice.fresh.range entry inLater).1 (not_le.mpr below)

namespace Doubled

variable {index : Index} {first second : Str} {earlier later : List PackageInfo}

/-- The first entry with a base name is one of the earlier generation. -/
theorem mem_earlier_of_head (doubled : Doubled index first second earlier later)
    {basename : Str} {found : PackageInfo}
    (isHead : (basenames index basename).head? = some found) : found ∈ earlier := by
  rw [doubled.byBasename, head?_append] at isHead
  rcases or_eq_some_iff.mp isHead with inEarlier | ⟨noneEarlier, inLater⟩
  · exact mem_of_mem_filter (mem_of_head? inEarlier)
  · -- A base name of the later generation is one of the earlier generation too.
    exfalso
    obtain ⟨isListed, hasBasename⟩ := mem_filter.mp (mem_of_head? inLater)
    have nameMem : found.filename ∈ earlier.map PackageInfo.filename :=
      doubled.sameNames ▸ mem_map_of_mem isListed
    obtain ⟨twin, twinMem, sameName⟩ := mem_map.mp nameMem
    have twinBasename : twin.HasBasename basename := by
      have foundBasename : found.HasBasename basename := of_decide_eq_true hasBasename
      unfold PackageInfo.HasBasename at foundBasename ⊢
      rw [sameName]
      exact foundBasename
    rw [head?_eq_none_iff] at noneEarlier
    exact ne_nil_of_mem (mem_filter.mpr ⟨twinMem, decide_eq_true twinBasename⟩)
      noneEarlier

theorem mem_earlier_of_getByBasename (doubled : Doubled index first second earlier later)
    {basename : Str} {found : PackageInfo}
    (isFound : getByBasename index basename first = some found) : found ∈ earlier := by
  unfold getByBasename at isFound
  dsimp only at isFound
  split at isFound
  · cases isHead : (basenames index basename).head? with
    | none =>
      rw [head?_eq_none_iff] at isHead
      rw [isHead] at isFound
      cases isFound
    | some head =>
      -- The head is of the earlier generation, hence of the repository asked for.
      have inEarlier := doubled.mem_earlier_of_head isHead
      obtain ⟨rest, split⟩ := head?_eq_some_iff.mp isHead
      have isFirst : decide (head.repo = first) = true :=
        decide_eq_true (doubled.ofFirst head inEarlier)
      rw [split, find?_cons_of_pos (p := fun entry : PackageInfo => entry.repo = first)
        isFirst, some_or] at isFound
      exact (some.inj isFound) ▸ inEarlier
  · exact doubled.mem_earlier_of_head isFound

/-- An address that is misread for the first repository does not lead to the second one. -/
theorem getByURLPath_ne {url filename : Str}
    (doubled : Doubled index (extractRepoFromURL url) second earlier later)
    {entry : PackageInfo} (inLater : entry ∈ later) (isFiled : entry.FiledAt second filename)
    (misread : ¬ (extractRepoFromURL url = second ∧ extractPathFromURL url = filename))
    (urlPath : Str → Option Str) (order : List Str) :
    getByURLPath urlPath order index url ≠ some entry := by
  have notEarlier : entry ∉ earlier := fun inEarlier => doubled.apart entry inEarlier inLater
  obtain ⟨hasName, isSecond, isNamed⟩ := isFiled
  intro found
  unfold getByURLPath at found
  dsimp only at found
  split at found
  · cases found
  · split at found
    · split at found
      · exact notEarlier (doubled.mem_earlier_of_getByBasename found)
      · cases found
    · rcases or_eq_some_iff.mp found with own | ⟨noOwn, other⟩
      · obtain ⟨repoEq, pathEq, -⟩ := doubled.consistent.byPath _ _ entry own
        exact misread ⟨repoEq.symm.trans isSecond, pathEq.symm.trans isNamed⟩
      · rcases or_eq_some_iff.mp other with elsewhere | ⟨-, isHead⟩
        · -- The path is right, so the first repository has it too.
          obtain ⟨repo, -, filedThere⟩ := exists_of_findSome?_eq_some elsewhere
          have pathEq := (doubled.consistent.byPath _ _ entry filedThere).2.1
          have nameMem : entry.filename ∈ earlier.map PackageInfo.filename :=
            doubled.sameNames ▸ mem_map_of_mem inLater
          obtain ⟨twin, twinMem, sameName⟩ := mem_map.mp nameMem
          have twinFiled : (lastWith (fun other => other.FiledAt (extractRepoFromURL url)
              (extractPathFromURL url)) earlier).isSome :=
            isSome_lastWith_iff.mpr ⟨twin, twinMem, decide_eq_true
              ⟨sameName ▸ hasName, doubled.ofFirst twin twinMem, sameName.trans pathEq⟩⟩
          rw [doubled.byPath, or_eq_none_iff] at noOwn
          rw [noOwn.2] at twinFiled
          cases twinFiled
        · exact notEarlier (doubled.mem_earlier_of_head isHead)

end Doubled

/-! ## Addresses that lead home -/

section Addresses

variable {limit : Nat} {urlPath : Str → Option Str} {secure : Bool} {repo filename encoded : Str}

/-- An entry in the pool is found by its address in every index iff the address is legible. -/
theorem leadsHome_iff_legible (placed : Placed repo filename) (encodes : Encodes encoded filename)
    (loaded : ∃ events entry,
      getByRepoAndPath (run (next limit) Index.new events) repo filename = some entry) :
    LeadsHome limit urlPath repo filename (address secure repo encoded) ↔
      Legible repo encoded := by
  have hasName : filename ≠ [] := by
    obtain ⟨rest, rfl⟩ := placed.inPool
    exact cons_ne_nil _ _
  rw [← extracts_iff_legible placed encodes]
  constructor
  · intro leadsHome
    by_contra misread
    obtain ⟨events, entry, filed⟩ := loaded
    obtain ⟨kind, text, listed⟩ := exists_text_of_filed filed
    obtain ⟨nextAddr, doubledSpec⟩ := doubled_spec kind limit text
      (extractRepoFromURL (address secure repo encoded)) repo
    obtain ⟨other, otherMem, isNamed⟩ := listed repo nextAddr
    have filedAgain : (lastWith (fun other => other.FiledAt repo filename)
        (listing kind limit repo (scanLines text).1 nextAddr)).isSome :=
      isSome_lastWith_iff.mpr ⟨other, otherMem, decide_eq_true
        ⟨isNamed ▸ hasName, doubledSpec.ofSecond other otherMem, isNamed⟩⟩
    obtain ⟨stored, isStored⟩ := isSome_iff_exists.mp filedAgain
    obtain ⟨storedMem, storedFiled⟩ := mem_of_lastWith isStored
    refine doubledSpec.getByURLPath_ne storedMem (of_decide_eq_true storedFiled) misread urlPath _
      (leadsHome _ _ (List.Perm.refl _) stored ?_)
    rw [doubledSpec.byPath, isStored, some_or]
  · rintro ⟨repoEq, pathEq⟩ events order _ entry filed
    unfold getByURLPath
    rw [repoEq, pathEq, if_neg placed.hasHost, if_neg hasName, filed, some_or]

end Addresses

/-- A load of a text that lists one file. -/
def loadOne (repo filename sha256 : String) : Event :=
  .load .packages
    (ofAscii "Filename: " ++ ofAscii filename ++ ofAscii "\nSHA256: " ++ ofAscii sha256)
    false (ofAscii repo) (ofAscii repo)

/-- A version with an encoded plus sign leads home. -/
theorem leadsHome_of_encoded_plus :
    LeadsHome maxPackagesPerRepo (fun _ => none) (ofAscii "h/debian") (ofAscii "pool/x+1")
      (address true (ofAscii "h/debian") (ofAscii "pool/x%2B1")) := by
  have placed : Placed (ofAscii "h/debian") (ofAscii "pool/x+1") :=
    ⟨by decide, by decide, by decide, by decide, by decide, by decide⟩
  have encodes : Encodes (ofAscii "pool/x%2B1") (ofAscii "pool/x+1") :=
    .literal 112 (by decide) <| .literal 111 (by decide) <| .literal 111 (by decide) <|
      .literal 108 (by decide) <| .literal 47 (by decide) <| .literal 120 (by decide) <|
        .escaped 50 66 rfl rfl (by decide) <| .literal 49 (by decide) .nil
  have isFiled : (getByRepoAndPath (run (next maxPackagesPerRepo) Index.new
      [loadOne "h/debian" "pool/x+1" "aa"]) (ofAscii "h/debian") (ofAscii "pool/x+1")).isSome := by
    decide
  have legible : Legible (ofAscii "h/debian") (ofAscii "pool/x%2B1") :=
    ⟨by decide, by decide, by decide, by decide, by decide⟩
  exact (leadsHome_iff_legible placed encodes ⟨_, isSome_iff_exists.mp isFiled⟩).mpr legible

/-- With a letter of the pool encoded, the entry of another repository is returned. -/
theorem not_leadsHome_of_encoded_pool :
    let index := run (next maxPackagesPerRepo) Index.new
      [loadOne "h" "pool/x" "aa", loadOne "h/debian" "pool/x" "bb"]
    let url := address false (ofAscii "h/debian") (ofAscii "%70ool/x")
    let urlPath := fun _ : Str => some (ofAscii "/debian/pool/x")
    Placed (ofAscii "h/debian") (ofAscii "pool/x") ∧
      Encodes (ofAscii "%70ool/x") (ofAscii "pool/x") ∧
      (getByRepoAndPath index (ofAscii "h/debian") (ofAscii "pool/x")).map PackageInfo.sha256 =
        some (ofAscii "bb") ∧
      (getByURLPath urlPath (repos index) index url).map PackageInfo.sha256 =
        some (ofAscii "aa") ∧
      ¬ LeadsHome maxPackagesPerRepo urlPath (ofAscii "h/debian") (ofAscii "pool/x") url := by
  intro index url urlPath
  have stored : (getByRepoAndPath index (ofAscii "h/debian") (ofAscii "pool/x")).map
      PackageInfo.sha256 = some (ofAscii "bb") := by decide
  have returned : (getByURLPath urlPath (repos index) index url).map PackageInfo.sha256 =
      some (ofAscii "aa") := by decide
  refine ⟨⟨by decide, by decide, by decide, by decide, by decide, by decide⟩,
    .escaped 55 48 rfl rfl (by decide) <| .literal 111 (by decide) <| .literal 111 (by decide) <|
      .literal 108 (by decide) <| .literal 47 (by decide) <| .literal 120 (by decide) .nil,
    stored, returned, fun leadsHome => ?_⟩
  obtain ⟨entry, isStored, hasHash⟩ := map_eq_some_iff.mp stored
  have isReturned := leadsHome _ (repos index) (List.Perm.refl _) entry isStored
  rw [isReturned, map_some, hasHash] at returned
  exact absurd returned (by decide)

end Debswarm.PackageIndex
