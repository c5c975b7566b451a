import Debswarm.Packages.Delivery
import Debswarm.Proxy.Verification

/-!
# Repositories and one another's entries

A package that its own repository does not list is looked up in all of them: under its path,
and then under its base name.  What is found there decides which hash the bytes of the mirror
must have.  So a client gets what its mirror has exactly when every entry that the lookup may
return, in whatever order the repositories are visited, has the hash of these bytes or no proper
hash at all.
-/

namespace Debswarm.Packages

open Cache (ContentAddressed)
open Downloader Option PackageIndex Text

/-- An entry with the hash of given bytes, or without a proper hash. -/
def Agrees (lib : Libraries) (content : Str) (info : PackageInfo) : Prop :=
  isHex64 info.sha256 = true → info.sha256 = lib.sha256 content

/-- Whether a lookup may end without a proper hash. -/
def MayMiss (index : Index) (repo path : Str) : Prop :=
  candidates index repo path = [] ∨
    ∃ info ∈ candidates index repo path, isHex64 info.sha256 = false

/-- Every entry that a request may use agrees with the bytes, from the package index and, if that
may give no hash, from the warmed one. -/
def Undisputed (lib : Libraries) (content : Str) (index warmed : Index) (repo path : Str) : Prop :=
  (∀ info ∈ candidates index repo path, Agrees lib content info) ∧
    (MayMiss index repo path → ∀ info ∈ candidates warmed repo path, Agrees lib content info)

instance (lib : Libraries) (content : Str) (info : PackageInfo) :
    Decidable (Agrees lib content info) :=
  inferInstanceAs (Decidable (_ → _))

instance (index : Index) (repo path : Str) : Decidable (MayMiss index repo path) :=
  inferInstanceAs (Decidable (_ ∨ _))

instance (lib : Libraries) (content : Str) (index warmed : Index) (repo path : Str) :
    Decidable (Undisputed lib content index warmed repo path) :=
  inferInstanceAs (Decidable (_ ∧ _))

variable {env : Proxy.Environment} {config : Downloader.Config} {surroundings : Surroundings}
  {node : Node} {url content : Str}

/-! ## Entries and lookups -/

variable {info : PackageInfo} {index : Index}

theorem ofInfo_eq_none_iff :
    Entry.ofInfo info = none ↔ isHex64 info.sha256 = false := by
  unfold Entry.ofInfo
  split
  · rename_i valid
    exact iff_of_false nofun (by rw [valid]; nofun)
  · rename_i malformed
    exact iff_of_true rfl (Bool.eq_false_iff.mpr malformed)

theorem exists_ofInfo (valid : isHex64 info.sha256 = true) :
    ∃ entry, Entry.ofInfo info = some entry ∧ entry.hash = info.sha256 := by
  unfold Entry.ofInfo
  rw [dif_pos valid]
  exact ⟨_, rfl, rfl⟩

/-- A URL with a repository and a path below it. -/
structure Located (url : Str) : Prop where
  repo : extractRepoFromURL url ≠ []
  path : extractPathFromURL url ≠ []

section

variable (located : Located url)

include located

theorem lookupEntry_of_located (urlPath : Str → Option Str)
    (order : List Str) (index : Index) :
    lookupEntry urlPath order index url =
      ((getByRepoAndPath index (extractRepoFromURL url) (extractPathFromURL url)).or
        (getByPath order index (extractPathFromURL url))).bind Entry.ofInfo := by
  unfold lookupEntry getByURLPath
  rw [if_neg located.repo, if_neg located.path]

theorem exists_candidate_of_lookupEntry {urlPath : Str → Option Str}
    {order : List Str} (visits : order.Perm (repos index)) {entry : Entry}
    (isEntry : lookupEntry urlPath order index url = some entry) :
    ∃ info ∈ candidates index (extractRepoFromURL url) (extractPathFromURL url),
      isHex64 info.sha256 = true ∧ entry.hash = info.sha256 := by
  rw [lookupEntry_of_located located, bind_eq_some_iff] at isEntry
  obtain ⟨info, isInfo, isEntry⟩ := isEntry
  refine ⟨info, (lookup_mem_candidates visits).1 info isInfo, ?_⟩
  unfold Entry.ofInfo at isEntry
  split at isEntry
  · rename_i valid
    cases isEntry
    exact ⟨valid, rfl⟩
  · cases isEntry

/-- A lookup without result means that lookups may miss. -/
theorem mayMiss_of_lookupEntry {urlPath : Str → Option Str}
    {order : List Str} (visits : order.Perm (repos index))
    (missed : lookupEntry urlPath order index url = none) :
    MayMiss index (extractRepoFromURL url) (extractPathFromURL url) := by
  rw [lookupEntry_of_located located] at missed
  obtain ⟨returned, isNone⟩ := @lookup_mem_candidates index (extractRepoFromURL url)
    (extractPathFromURL url) order visits
  rcases found : (getByRepoAndPath index (extractRepoFromURL url) (extractPathFromURL url)).or
    (getByPath order index (extractPathFromURL url)) with _ | info
  · exact .inl (isNone.mp found)
  · rw [found, bind_some] at missed
    exact .inr ⟨info, returned info found, ofInfo_eq_none_iff.mp missed⟩

theorem exists_order_of_candidate (urlPath : Str → Option Str)
    (mem : info ∈ candidates index (extractRepoFromURL url) (extractPathFromURL url)) :
    ∃ order, order.Perm (repos index) ∧
      lookupEntry urlPath order index url = Entry.ofInfo info := by
  obtain ⟨order, visits, found⟩ := exists_order_of_mem_candidates mem
  refine ⟨order, visits, ?_⟩
  rw [lookupEntry_of_located located, found, bind_some]

theorem exists_order_of_mayMiss (urlPath : Str → Option Str)
    (mayMiss : MayMiss index (extractRepoFromURL url) (extractPathFromURL url)) :
    ∃ order, order.Perm (repos index) ∧ lookupEntry urlPath order index url = none := by
  rcases mayMiss with nothing | ⟨info, mem, malformed⟩
  · refine ⟨repos index, List.Perm.refl _, ?_⟩
    rw [lookupEntry_of_located located,
      (lookup_mem_candidates (List.Perm.refl _)).2.mpr nothing, bind_none]
  · obtain ⟨order, visits, found⟩ := exists_order_of_candidate located urlPath mem
    exact ⟨order, visits, found.trans (ofInfo_eq_none_iff.mpr malformed)⟩

/-- The entries resolved before or after warming all have the hash of the bytes iff the candidates
are undisputed. -/
theorem resolveEntry_undisputed_iff :
    let index := node.proxy.index
    let warmed := (Proxy.warmIndexFromCacheOnce env surroundings.answers node.proxy).index
    (∀ orders : Orders, orders.first.Perm (repos index) → orders.second.Perm (repos warmed) →
        ∀ entry ∈ (resolveEntry env surroundings orders url node.proxy).1,
          entry.hash = env.lib.sha256 content) ↔
      Undisputed env.lib content index warmed (extractRepoFromURL url)
        (extractPathFromURL url) := by
  intro index warmed
  constructor
  · intro resolved
    constructor
    · intro info mem valid
      obtain ⟨order, visits, found⟩ :=
        exists_order_of_candidate located surroundings.urlPath mem
      obtain ⟨entry, isEntry, hash⟩ := exists_ofInfo valid
      have matching := resolved ⟨order, repos warmed⟩ visits (List.Perm.refl _) entry
      rw [resolveEntry, found, isEntry] at matching
      exact hash.symm.trans (matching rfl)
    · intro mayMiss info mem valid
      obtain ⟨first, firstVisits, missed⟩ :=
        exists_order_of_mayMiss located surroundings.urlPath mayMiss
      obtain ⟨second, secondVisits, found⟩ :=
        exists_order_of_candidate located surroundings.urlPath mem
      obtain ⟨entry, isEntry, hash⟩ := exists_ofInfo valid
      have matching := resolved ⟨first, second⟩ firstVisits secondVisits entry
      rw [resolveEntry, missed] at matching
      dsimp only at matching
      rw [found, isEntry] at matching
      exact hash.symm.trans (matching rfl)
  · rintro ⟨agree, warmedAgree⟩ orders firstVisits secondVisits entry isEntry
    unfold resolveEntry at isEntry
    split at isEntry
    · rename_i foundEntry found
      cases isEntry
      obtain ⟨info, mem, valid, hash⟩ := exists_candidate_of_lookupEntry located firstVisits found
      exact hash.trans (agree info mem valid)
    · rename_i missed
      obtain ⟨info, mem, valid, hash⟩ :=
        exists_candidate_of_lookupEntry located secondVisits isEntry
      have mayMiss := mayMiss_of_lookupEntry located firstVisits missed
      exact hash.trans (warmedAgree mayMiss info mem valid)

end

/-! ## Requests -/

/-- In a given order, the client gets the mirror's bytes iff any entry found has their hash. -/
theorem bringsReply_handlePackageRequest_iff (unmistakable : Unmistakable env.lib content)
    (addressed : ContentAddressed env.lib node.packages.cache)
    (calm : Calm env.lib config surroundings.sources node.packages content)
    (online : surroundings.answers.offline = false) (orders : Orders) :
    BringsReply content (handlePackageRequest env config surroundings orders url node).1 ↔
      ∀ entry ∈ (resolveEntry env surroundings orders url node.proxy).1,
        entry.hash = env.lib.sha256 content := by
  unfold handlePackageRequest
  rcases resolveEntry env surroundings orders url node.proxy with ⟨_ | entry, proxy⟩
  · apply iff_of_true _ nofun
    refine ⟨_, rfl, ?_⟩
    rw [streamUncachedPackage, calm.stream]
    exact ⟨rfl, rfl⟩
  · rw [online, bringsReply_servePackage_iff unmistakable addressed calm]
    constructor
    · rintro matching _ ⟨rfl⟩
      exact matching
    · intro matching
      exact matching entry rfl

/-- A package request is answered with the mirror's bytes, in whatever order the repositories are
visited, iff no candidate has another proper hash. -/
theorem answered_with_content_iff (env : Proxy.Environment) (config : Downloader.Config)
    (surroundings : Surroundings) (node : Node) (url content : Str)
    (unmistakable : Unmistakable env.lib content)
    (addressed : ContentAddressed env.lib node.packages.cache)
    (calm : Calm env.lib config surroundings.sources node.packages content)
    (online : surroundings.answers.offline = false) (located : Located url) :
    let index := node.proxy.index
    let warmed := (Proxy.warmIndexFromCacheOnce env surroundings.answers node.proxy).index
    (∀ orders : Orders, orders.first.Perm (repos index) → orders.second.Perm (repos warmed) →
        BringsReply content (handlePackageRequest env config surroundings orders url node).1) ↔
      Undisputed env.lib content index warmed (extractRepoFromURL url)
        (extractPathFromURL url) := by
  intro index warmed
  refine Iff.trans ?_ (resolveEntry_undisputed_iff located)
  apply forall₃_congr
  intro orders _ _
  exact bringsReply_handlePackageRequest_iff unmistakable addressed calm online orders

/-- An environment in which a package of two bytes has a hash of its own. -/
def twoByteEnvironment : Proxy.Environment :=
  { Proxy.exampleEnvironment with
    lib := ⟨fun bytes => if bytes = [1, 2] then hexEncode64 [1, 2] else hexEncode64 [], id⟩ }

/-- A node whose package index has a path of another repository, with a hash. -/
def otherRepository (hash : Str) (cache : Cache.State) : Node :=
  let text := ofAscii "Filename: pool/p.deb\nSHA256: " ++ hash ++ ofAscii "\n"
  let loaded := loadFromData twoByteEnvironment.decompressors .packages maxPackagesPerRepo text
    (ofAscii "http://other/dists/s/main/Packages") Index.new
  let config : Proxy.Config := ⟨.off, [], true, false, 1000⟩
  ⟨{ Proxy.Server.fresh config 1000 with index := loaded.2 }, { emptyServer with cache }⟩

/-- No fleet and no peers, and a mirror that has the package of two bytes. -/
def mirrorOnly : Surroundings where
  urlPath _ := none
  answers :=
    { clock := 0
      offline := false
      reply := .error
      refetched := .error
      fetched := fun _ => none
      unreadable := fun _ => false
      faults := .none
      tmp := 0 }
  sources :=
    { corruptPeers with
      fleet := none
      providers := []
      race := []
      stream := .ok [1, 2]
      refetch := .ok [1, 2] }

theorem unmistakable_twoBytes : Unmistakable twoByteEnvironment.lib [1, 2] := by
  intro bytes same
  by_contra different
  have hash : twoByteEnvironment.lib.sha256 bytes = hexEncode64 [] := if_neg different
  rw [hash] at same
  exact absurd same (by decide)

theorem calm_mirrorOnly (server : Server) :
    Calm twoByteEnvironment.lib ⟨4, 16⟩ mirrorOnly.sources server [1, 2] := by
  refine ⟨rfl, rfl, ?_, rfl, rfl⟩
  intro entry
  simp [mirrorOnly, download, downloadRacing, collectAnswers]

/-- The path of the other repository, at ours. -/
def ourURL : Str :=
  ofAscii "http://our/pool/p.deb"

/-- The other repository lists the same package: the client gets it. -/
theorem answered_with_shared_package :
    getByRepoAndPath (otherRepository (hexEncode64 [1, 2]) emptyServer.cache).proxy.index
        (extractRepoFromURL ourURL) (extractPathFromURL ourURL) = none ∧
      BringsReply [1, 2] (handlePackageRequest twoByteEnvironment ⟨4, 16⟩ mirrorOnly
        ⟨[ofAscii "other"], [ofAscii "other"]⟩ ourURL
        (otherRepository (hexEncode64 [1, 2]) emptyServer.cache)).1 := by
  have addressed : ContentAddressed twoByteEnvironment.lib
      (otherRepository (hexEncode64 [1, 2]) emptyServer.cache).packages.cache :=
    ⟨nofun, nofun⟩
  have undisputed : Undisputed twoByteEnvironment.lib [1, 2]
      (otherRepository (hexEncode64 [1, 2]) emptyServer.cache).proxy.index
      (Proxy.warmIndexFromCacheOnce twoByteEnvironment mirrorOnly.answers
        (otherRepository (hexEncode64 [1, 2]) emptyServer.cache).proxy).index
      (extractRepoFromURL ourURL) (extractPathFromURL ourURL) := by
    decide +kernel
  have located : Located ourURL := ⟨by decide +kernel, by decide +kernel⟩
  have online : mirrorOnly.answers.offline = false := rfl
  have answered := (answered_with_content_iff twoByteEnvironment ⟨4, 16⟩ mirrorOnly
    (otherRepository (hexEncode64 [1, 2]) emptyServer.cache) ourURL [1, 2] unmistakable_twoBytes
    addressed (calm_mirrorOnly _) online located).mpr undisputed
  refine ⟨by decide +kernel, ?_⟩
  exact answered ⟨[ofAscii "other"], [ofAscii "other"]⟩ (by decide +kernel) (by decide +kernel)

/-- Another repository lists another package under the path, and the client does not get its own. -/
theorem not_answered_with_content_of_other_package :
    let otherHash := twoByteEnvironment.lib.sha256 [3]
    let cached := (Cache.put twoByteEnvironment.lib {} (ofAscii "pending/1") [3] otherHash
      (ofAscii "pool/p.deb") emptyServer.cache).2
    let answer (cache : Cache.State) := (handlePackageRequest twoByteEnvironment ⟨4, 16⟩ mirrorOnly
      ⟨[ofAscii "other"], [ofAscii "other"]⟩ ourURL (otherRepository otherHash cache)).1
    getByRepoAndPath (otherRepository otherHash emptyServer.cache).proxy.index
        (extractRepoFromURL ourURL) (extractPathFromURL ourURL) = none ∧
      (answer emptyServer.cache).map (fun reply => reply.response.status) = some 502 ∧
      (answer cached).map (fun reply => (reply.response.status, reply.response.body)) =
        some (200, [3]) := by
  decide +kernel

end Debswarm.Packages
