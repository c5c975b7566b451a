import Debswarm.PackageIndex.SourceGrammar
import Debswarm.Packages.Announcing
import Debswarm.Packages.Isolation

/-!
# The letter case of a listed digest

An index may write a SHA-256 in upper case or in lower case.  The digest of what is downloaded is
in lower case, and the two are compared as texts.  A Sources index is read with its digests in
lower case, a Packages index with its digests as they are, so a package that a Packages index
lists with an upper-case letter is refused.
-/

namespace Debswarm.Packages

open Cache (ContentAddressed Readable)
open Cache Downloader List Option PackageIndex Text

/-- What is recorded of a package that an index lists, with the digest as it is written there. -/
def Lists : Kind → Str → PackageInfo → Prop
  | .packages, digest, info =>
    ∃ lines, lastValue "SHA256" lines = digest ∧ describedEntry info.repo lines = info.bare
  | .sources, digest, info =>
    ∃ package directory text rest, fields (dropCR text) = digest :: rest ∧
      listedEntry info.repo package directory text = some info.bare

/-- A store of so many bytes has room, and none of its steps fails. -/
def StoreWorks (cache : Cache.State) (size : Nat) (faults : Cache.Faults) : Prop :=
  faults.copy = false ∧ faults.mkdir = false ∧ faults.move = false ∧ faults.record = false ∧
    ¬ Cache.SpaceShort faults size cache

/-- Whichever way delivers a package, storing it works. -/
def StorageWorks (sources : Sources) (size listedSize : Nat) (cache : Cache.State) : Prop :=
  (∀ call ∈ sources.fleetPut :: sources.racePut :: sources.streamPut ::
      sources.providers.map Provider.put, StoreWorks cache size call.faults) ∧
    StoreWorks cache listedSize sources.assembly.faults

variable {lib : Libraries} {config : Downloader.Config} {sources : Sources} {entry : Entry}
  {server : Server} {content : Str} {cache : Cache.State}

/-! ## Stores that work -/

theorem leavesReadable_of_storeWorks {size : Nat} {faults : Cache.Faults}
    (works : StoreWorks cache size faults) (hash : Str) :
    Cache.LeavesReadable faults hash size cache := by
  obtain ⟨-, mkdir, move, record, roomy⟩ := works
  exact .inr ⟨roomy, mkdir, .inl move, .inl record⟩

/-- What the downloader delivers as a file is recorded with the size of the index. -/
theorem size_of_download {url hash data : Str} {expectedSize : Int} {peers : List Str}
    {attempt : Downloader.ChunkedAttempt} {answers : List Downloader.Answer}
    {state : Downloader.State} {result : Downloader.DownloadResult}
    (done : (download lib config hash url expectedSize peers attempt answers state).1 =
      .ok result) (isFile : result.payload = .file data) : result.size = expectedSize.toNat := by
  unfold download at done
  split at done
  · simp only [downloadChunked] at done
    split at done
    · cases done
      rfl
    · cases done
    · cases done
  · obtain ⟨_, _, _, _, _, inMemory⟩ := exists_answer_of_downloadRacing done
    rw [isFile] at inMemory
    cases inMemory

section

variable (unmistakable : Unmistakable lib content) (matching : entry.hash = lib.sha256 content)

include unmistakable matching

theorem putLeavesReadable_of_storageWorks {listedSize : Nat}
    (works : StorageWorks sources content.length listedSize cache) {call : PutCall}
    (mem : call ∈ sources.fleetPut :: sources.racePut :: sources.streamPut ::
      sources.providers.map Provider.put) {data : Str} (verified : lib.sha256 data = entry.hash) :
    Cache.PutLeavesReadable call.faults entry.hash data.length cache := by
  have stores := works.1 call mem
  rw [unmistakable data (verified.trans matching), Cache.PutLeavesReadable, stores.1,
    if_neg Bool.false_ne_true]
  exact leavesReadable_of_storeWorks stores entry.hash

theorem deliveryStores_of_storageWorks (stream : sources.stream = .ok content)
    (works : StorageWorks sources content.length entry.size.toNat server.cache) :
    DeliveryStores lib config sources entry server := by
  have stored := @putLeavesReadable_of_storageWorks lib sources entry content server.cache
    unmistakable matching entry.size.toNat works
  have peers : PeersStore lib sources entry server.cache := by
    unfold PeersStore
    split
    · rename_i provider data found
      obtain ⟨other, mem, sends⟩ := exists_of_findSome?_eq_some found
      simp only [Provider.delivers, map_eq_some_iff, filter_eq_some_iff,
        Prod.mk.injEq, decide_eq_true_eq] at sends
      obtain ⟨_, ⟨-, verified⟩, rfl, rfl⟩ := sends
      refine stored (mem_cons_of_mem _ (mem_cons_of_mem _ (mem_cons_of_mem _
        (mem_map_of_mem (mem_of_mem_take mem))))) verified
    · intro body isBody _ _
      rw [stream] at isBody
      obtain rfl := Except.ok.inj isBody
      exact stored (by simp) matching.symm
  unfold DeliveryStores downloaded
  split
  · rename_i result isResult
    split at isResult
    · have done := some.inj isResult
      have verified := sha256_eq_of_download done
      unfold ResultStores
      split
      · rename_i data isFile
        rw [size_of_download done isFile]
        exact leavesReadable_of_storeWorks works.2 entry.hash
      · rename_i data inMemory
        rw [inMemory] at verified
        exact stored (by simp) verified
    · cases isResult
  · trivial
  · exact peers

theorem readable_downloadPackage (addressed : ContentAddressed lib server.cache)
    (calm : Calm lib config sources server content)
    (works : StorageWorks sources content.length entry.size.toNat server.cache) :
    Readable entry.hash (downloadPackage lib config sources entry server).2.cache := by
  have succeeds := succeeds_downloadPackage matching addressed calm
  obtain ⟨result, done⟩ := succeeds.done
  obtain ⟨sent, -, isPut, blacklist, ⟨rfl, tried⟩ | ⟨call, data, rfl, verified, tried⟩⟩ :=
    asked_tryFleet lib sources entry server
  · have elsewhere : downloadPackage lib config sources entry server =
        downloadElsewhere lib config sources entry { server with blacklist } := by
      unfold downloadPackage
      rw [tried]
      rfl
    have stored := (@downloadElsewhere_stored_iff lib { server with blacklist } addressed config
      sources entry).mpr (deliveryStores_of_storageWorks unmistakable matching calm.stream works)
    rw [elsewhere] at done ⊢
    rw [SuccessIsStored, done] at stored
    exact stored rfl
  · have delivered : downloadPackage lib config sources entry server =
        deliver lib call data .peer entry { server with blacklist } := by
      unfold downloadPackage
      rw [tried]
      rfl
    obtain rfl : call = sources.fleetPut := isPut _ rfl
    have stored := (@deliver_stored_iff lib entry { server with blacklist } addressed _ _ verified
      .peer).mpr (putLeavesReadable_of_storageWorks unmistakable matching works
        mem_cons_self verified)
    rw [delivered] at done ⊢
    rw [SuccessIsStored, done] at stored
    exact stored rfl

end

/-! ## Served and stored -/

def ServedFromCache (content hash : Str) (cache : Cache.State) : Prop :=
  ∃ reply, (serveFromCache hash cache).1 = some reply ∧ reply.cacheHit = true ∧
    reply.response.Brings content

theorem readable_of_get {hash found : Str} {row : Cache.PackageRow}
    (isFound : (Cache.get hash cache).1 = .ok (found, row)) : Readable hash cache := by
  unfold Cache.get at isFound
  split at isFound
  · cases isFound
  · rename_i isFile
    dsimp only at isFound
    split at isFound
    · cases isFound
    · rename_i isRow
      exact ⟨isSome_iff_exists.mpr ⟨_, isFile⟩, isSome_iff_exists.mpr ⟨_, isRow⟩⟩

section

variable (unmistakable : Unmistakable lib content) (matching : entry.hash = lib.sha256 content)

include unmistakable matching

/-- A package that is readable is served, also when other readers and accesses are on record. -/
theorem servedFromCache_of_readable (addressed : ContentAddressed lib cache)
    (readable : Readable entry.hash cache) : ServedFromCache content entry.hash cache := by
  obtain ⟨found, row, isFound⟩ := exists_of_readable readable
  have same := unmistakable found ((sha256_eq_of_get addressed isFound).trans matching)
  unfold ServedFromCache serveFromCache
  rw [if_pos (show has _ cache = true from readable.1)]
  generalize get entry.hash cache = read at isFound ⊢
  obtain ⟨_, after⟩ := read
  cases isFound
  exact ⟨_, rfl, rfl, rfl, same⟩

/-- A package that is served for its entry is in the cache afterwards. -/
theorem servedFromCache_servePackage (addressed : ContentAddressed lib server.cache)
    (calm : Calm lib config sources server content)
    (works : StorageWorks sources content.length entry.size.toNat
      (serveFromCache entry.hash server.cache).2) :
    ServedFromCache content entry.hash
      (servePackage lib config false sources entry server).2.cache := by
  have kept := contentAddressed_serveFromCache addressed entry.hash
  have looked := @readable_of_get server.cache entry.hash
  obtain ⟨readers, pending, read⟩ := serveFromCache_cache entry.hash server.cache
  unfold servePackage
  rcases cacheEq : serveFromCache entry.hash server.cache with ⟨_ | cached, cache⟩
  · rw [cacheEq] at kept works
    have stillCalm : Calm lib config sources { server with cache } content := { calm with }
    have readable := @readable_downloadPackage lib config sources entry { server with cache }
      content unmistakable matching kept stillCalm works
    have succeeds := @succeeds_downloadPackage lib config sources entry { server with cache }
      content matching kept stillCalm
    obtain ⟨result, done⟩ := succeeds.done
    dsimp only
    rw [if_neg Bool.false_ne_true, serveDownload]
    generalize downloadPackage lib config sources entry { server with cache } = ended
      at readable succeeds done
    obtain ⟨_, after⟩ := ended
    cases done
    obtain ⟨readers, pending, readAgain⟩ := servePackageResult_cache result after.cache
    dsimp only
    rw [readAgain]
    exact servedFromCache_of_readable unmistakable matching
      { succeeds.addressed with } readable
  · have readable : Readable entry.hash server.cache := by
      unfold serveFromCache at cacheEq
      split at cacheEq
      · split at cacheEq
        · cases cacheEq
        · rename_i getEq
          rw [getEq] at looked
          exact looked rfl
      · cases cacheEq
    rw [cacheEq] at kept read
    cases read
    exact servedFromCache_of_readable unmistakable matching kept readable

end

theorem sha256_of_lists {kind : Kind} {digest : Str} {info : PackageInfo}
    (listed : Lists kind digest info) :
    info.sha256 = if kind = .packages then digest else digest.map lowerByte := by
  cases kind with
  | packages =>
    obtain ⟨lines, rfl, described⟩ := listed
    exact (congrArg PackageInfo.sha256 described).symm
  | sources =>
    obtain ⟨package, directory, text, rest, isDigest, isListed⟩ := listed
    unfold listedEntry at isListed
    rw [isDigest] at isListed
    split at isListed
    · rename_i parts
      obtain ⟨rfl, -⟩ := cons.inj parts
      split at isListed
      · exact (congrArg PackageInfo.sha256 (some.inj isListed)).symm
      · cases isListed
    · cases isListed

theorem isHex64_lower {digest : Str} (isHex : isHex64 digest = true) :
    isHex64 (digest.map lowerByte) = true := by
  simp only [isHex64, Bool.and_eq_true, List.length_map, List.all_map, List.all_eq_true] at isHex ⊢
  refine ⟨isHex.1, fun byte mem => ?_⟩
  have isDigit := isHex.2 byte mem
  simp only [Function.comp_apply, lowerByte, Bool.or_eq_true, Bool.and_eq_true, decide_eq_true_eq,
    UInt8.le_iff_toNat_le, UInt8.reduceToNat] at isDigit ⊢
  split
  · simp only [UInt8.toNat_add, UInt8.reduceToNat]
    omega
  · omega

/-- A listed package is answered with its bytes and cached iff it is listed in a Sources index or
with a lower-case digest. -/
theorem served_and_cached_iff (env : Proxy.Environment) (config : Downloader.Config)
    (surroundings : Surroundings) (orders : Orders) (url : Str) (node : Node) (content : Str)
    (kind : Kind) (digest : Str) (info : PackageInfo) (listed : Lists kind digest info)
    (isHex : isHex64 digest = true) (isDigest : digest.map lowerByte = env.lib.sha256 content)
    (resolves : (resolveEntry env surroundings orders url node.proxy).1 = Entry.ofInfo info)
    (unmistakable : Unmistakable env.lib content)
    (addressed : ContentAddressed env.lib node.packages.cache)
    (calm : Calm env.lib config surroundings.sources node.packages content)
    (online : surroundings.answers.offline = false)
    (works : StorageWorks surroundings.sources content.length info.size.toNat
      (serveFromCache info.sha256 node.packages.cache).2) :
    let answer := handlePackageRequest env config surroundings orders url node
    BringsReply content answer.1 ∧ ServedFromCache content info.sha256 answer.2.packages.cache ↔
      kind = .sources ∨ digest.map lowerByte = digest := by
  have brings := @bringsReply_handlePackageRequest_iff env config surroundings node url content
    unmistakable addressed calm online orders
  have recorded := sha256_of_lists listed
  have valid : isHex64 info.sha256 = true := by
    rw [recorded]
    split
    · exact isHex
    · exact isHex64_lower isHex
  have matches_iff : info.sha256 = env.lib.sha256 content ↔
      kind = .sources ∨ digest.map lowerByte = digest := by
    rw [recorded, ← isDigest]
    cases kind with
    | packages => simp [eq_comm]
    | sources => simp
  have isEntry : Entry.ofInfo info = some ⟨info.sha256, info.size, info.filename, valid⟩ :=
    dif_pos valid
  rw [resolves, isEntry] at brings
  rw [← matches_iff]
  constructor
  · rintro ⟨brought, -⟩
    exact brings.mp brought _ rfl
  · intro matching
    refine ⟨brings.mpr ?_, ?_⟩
    · rintro entry ⟨rfl⟩
      exact matching
    · unfold handlePackageRequest
      rw [isEntry] at resolves
      generalize resolveEntry env surroundings orders url node.proxy = resolved at resolves
      obtain ⟨_, proxy⟩ := resolved
      cases resolves
      rw [online]
      exact @servedFromCache_servePackage env.lib config surroundings.sources
        ⟨info.sha256, info.size, info.filename, valid⟩ node.packages content unmistakable matching
        addressed calm works

/-- A package of two bytes, as its Packages file lists it. -/
def listedPackage : PackageInfo :=
  ⟨0, [], [], [], ofAscii "pool/p.deb", 0, hexEncode64 [1, 2], ofAscii "other"⟩

theorem served_and_cached_of_lower_case :
    let answer := handlePackageRequest twoByteEnvironment ⟨4, 16⟩ mirrorOnly
      ⟨[ofAscii "other"], [ofAscii "other"]⟩ ourURL
      (otherRepository (hexEncode64 [1, 2]) emptyServer.cache)
    BringsReply [1, 2] answer.1 ∧
      ServedFromCache [1, 2] (hexEncode64 [1, 2]) answer.2.packages.cache := by
  have listed : Lists .packages (hexEncode64 [1, 2]) listedPackage :=
    ⟨[.field (ofAscii "Filename") (ofAscii "pool/p.deb"),
      .field (ofAscii "SHA256") (hexEncode64 [1, 2])], by decide +kernel, by decide +kernel⟩
  have found : getByURLPath mirrorOnly.urlPath [ofAscii "other"]
      (otherRepository (hexEncode64 [1, 2]) emptyServer.cache).proxy.index ourURL =
        some listedPackage := by
    decide +kernel
  have valid : isHex64 listedPackage.sha256 = true := by decide
  have isEntry : Entry.ofInfo listedPackage =
      some ⟨listedPackage.sha256, listedPackage.size, listedPackage.filename, valid⟩ :=
    dif_pos valid
  have resolves : (resolveEntry twoByteEnvironment mirrorOnly
      ⟨[ofAscii "other"], [ofAscii "other"]⟩ ourURL
      (otherRepository (hexEncode64 [1, 2]) emptyServer.cache).proxy).1 =
        Entry.ofInfo listedPackage := by
    rw [resolveEntry, lookupEntry, found, bind_some, isEntry]
  have addressed : ContentAddressed twoByteEnvironment.lib
      (otherRepository (hexEncode64 [1, 2]) emptyServer.cache).packages.cache := by
    constructor <;> intro _ _ stored <;> cases stored
  have roomy : ∀ size ∈ [0, 2], ¬ Cache.SpaceShort {} size emptyServer.cache := by
    unfold Cache.SpaceShort
    decide +kernel
  have stores : StoreWorks emptyServer.cache 2 {} := ⟨rfl, rfl, rfl, rfl, roomy 2 (by simp)⟩
  have works : StorageWorks mirrorOnly.sources 2 0
      (serveFromCache (hexEncode64 [1, 2]) emptyServer.cache).2 := by
    refine ⟨?_, rfl, rfl, rfl, rfl, roomy 0 (by simp)⟩
    simp only [mirrorOnly, corruptPeers, map_nil, forall_mem_cons, not_mem_nil]
    exact ⟨stores, stores, stores, fun _ none => none.elim⟩
  exact (served_and_cached_iff _ _ _ _ _ _ _ .packages (hexEncode64 [1, 2]) listedPackage listed
    (by decide) (by decide +kernel) resolves unmistakable_twoBytes addressed (calm_mirrorOnly _) rfl
    works).mpr (.inr (by decide +kernel))

/-- The same package is refused if its digest is listed in upper case. -/
theorem refused_of_upper_case :
    let digest := ofAscii "AB" ++ replicate 62 48
    let sources := { mirrorOnly.sources with stream := .ok [171], refetch := .ok [171] }
    let answer := handlePackageRequest Proxy.exampleEnvironment ⟨4, 16⟩ { mirrorOnly with sources }
      ⟨[ofAscii "other"], [ofAscii "other"]⟩ ourURL (otherRepository digest emptyServer.cache)
    isHex64 digest = true ∧
      digest.map lowerByte = Proxy.exampleEnvironment.lib.sha256 [171] ∧
      answer.1.map (fun reply => reply.response.status) = some 502 ∧
      has digest answer.2.packages.cache = false := by
  decide +kernel

end Debswarm.Packages
