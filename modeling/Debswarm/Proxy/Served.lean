import Debswarm.PackageIndex.Resolution
import Debswarm.Proxy.Effects

/-!
# Entries of a served index

A cached index is loaded only if its index file is not, and index files are told apart by
their directory: two versions of a file, requested by their hashes, count as one.  So the
entries of a cached copy can be looked up if the version that is loaded lists them, and if no
other file has taken them along since.

Verification is off in this module.
-/

namespace Debswarm.Proxy

open Metadata PackageIndex Text Transition

section

variable {env : Environment} {answers : Answers}

/-! ## Resolving entries -/

/-- The entries that a body lists. -/
def entriesOf (env : Environment) (url body : Str) : List PackageInfo :=
  match indexKind env url, decompressByMagic env.decompressors body with
  | some kind, some text =>
    listing kind maxPackagesPerRepo (extractRepoFromURL url) (scanLines text.1).1 0
  | _, _ => []

/-- The lookups ask for the hash, the repository and the file name only. -/
theorem resolvable_congr {index : Index} {entry other : PackageInfo}
    (same : entry.sha256 = other.sha256 ∧ entry.repo = other.repo ∧
      entry.filename = other.filename)
    (resolvable : Resolvable index entry) : Resolvable index other := by
  obtain ⟨sameHash, sameRepo, sameName⟩ := same
  obtain ⟨bySHA256, byPath⟩ := resolvable
  rw [sameHash] at bySHA256
  rw [sameRepo, sameName] at byPath
  exact ⟨bySHA256, byPath⟩

theorem resolvable_loadBody {index : Index} (consistent : Consistent index) {url body : Str}
    {entry : PackageInfo} (mem : entry ∈ entriesOf env url body) :
    Resolvable (loadBody env url body index) entry := by
  unfold entriesOf at mem
  split at mem
  · rename_i kind text isKind isText
    have isLoad : loadOf env url body =
        some (.load kind text.1 text.2 (extractRepoFromURL url) (indexFileKey url)) := by
      rw [loadOf, isKind, isText]
      rfl
    rw [loadBody, isLoad]
    have replaces := replaces_parseForRepo consistent kind maxPackagesPerRepo text.1 text.2
      (extractRepoFromURL url) (indexFileKey url)
    obtain ⟨loaded, loadedMem, same⟩ := exists_mem_listing mem index.nextAddr
    exact resolvable_congr (keys_of_bare_eq same) (replaces.resolvable_of_mem consistent loadedMem)
  · cases mem

/-- Loading a body takes no entry from another index file. -/
def KeepsOthers (env : Environment) (index : Index) (url body : Str) : Prop :=
  ∀ load ∈ loadOf env url body, KeepsShared maxPackagesPerRepo index load

/-- The lookups find every entry that is loaded. -/
structure Healthy (index : Index) : Prop where
  consistent : Consistent index
  resolvable : AllResolvable index

theorem healthy_new : Healthy Index.new :=
  ⟨consistent_clear Index.new, fun _ current => nomatch current.choose_spec⟩

theorem Healthy.loadBody {index : Index} (healthy : Healthy index) {url body : Str}
    (keeps : KeepsOthers env index url body) : Healthy (loadBody env url body index) := by
  unfold Proxy.loadBody
  cases isLoad : loadOf env url body with
  | none => exact healthy
  | some load =>
    constructor
    · exact consistent_next maxPackagesPerRepo index load healthy.consistent
    · exact (allResolvable_next_iff maxPackagesPerRepo index load healthy.consistent
        healthy.resolvable).mpr (keeps load isLoad)

/-! ## Runs -/

/-- The generation of a URL that is loaded lists the entries of a body. -/
def Held (env : Environment) (index : Index) (url body : Str) : Prop :=
  ∀ entry ∈ entriesOf env url body, entry.filename ≠ [] →
    ∃ held ∈ generation index (indexFileKey url),
      held.sha256 = entry.sha256 ∧ held.repo = entry.repo ∧ held.filename = entry.filename

/-- Warming the package index from a cached body takes no entry from another index file. -/
def WarmKeepsOthers (env : Environment) (answers : Answers) (server : Server) (url : Str) : Prop :=
  hasIndexFile server.index url = false →
    ∀ body ∈ (readCachedMetadataBody answers url server).1, KeepsOthers env server.index url body

/-- No body that may be loaded takes an entry from another index file, a cached copy is served only
if the loaded version lists its entries, and verification stays off. -/
def ServesHeld (env : Environment) (server : Server) : Event → Prop
  | .request request answers =>
    (∀ body, Loadable env answers server request.url body →
      KeepsOthers env server.index request.url body) ∧
    (MayServeCached env answers request.url → hasIndexFile server.index request.url = true →
      ∀ body ∈ server.metadata.files request.url, Held env server.index request.url body)
  | .warmIndex answers =>
    StepsMeet (warmFrom env answers) (WarmKeepsOthers env answers)
      { server with indexWarmed := true } (listMetadataURLs server.metadata)
  | .restart config => config.verifyMode = .off

/-- A server without verification whose lookups find every entry that is loaded. -/
structure Unverified (server : Server) : Prop where
  off : server.config.verifyMode = .off
  healthy : Healthy server.index

theorem frame_readCachedMetadataBody (answers : Answers) (url : Str) (server : Server) :
    (readCachedMetadataBody answers url server).2.index = server.index ∧
      (readCachedMetadataBody answers url server).2.config = server.config := by
  unfold readCachedMetadataBody
  split <;> exact ⟨rfl, rfl⟩

theorem unverified_warmFrom (server : Server) (url : Str) (unverified : Unverified server)
    (keeps : WarmKeepsOthers env answers server url) :
    Unverified (warmFrom env answers server url) := by
  unfold warmFrom
  split
  · exact unverified
  · rename_i cold
    rw [Bool.or_eq_true, not_or, Bool.not_eq_true, Bool.not_eq_true] at cold
    have keepsRead := keeps cold.2
    obtain ⟨sameIndex, sameConfig⟩ := frame_readCachedMetadataBody answers url server
    rcases read : readCachedMetadataBody answers url server with ⟨_ | data, after⟩
    · rw [read] at sameIndex sameConfig
      exact ⟨sameConfig ▸ unverified.off, sameIndex ▸ unverified.healthy⟩
    · rw [read] at keepsRead sameIndex sameConfig
      have off : after.config.verifyMode = .off := sameConfig ▸ unverified.off
      dsimp only
      rw [checkIndexVerification_off off]
      constructor
      · rw [config_loadIndexInto]
        exact off
      · rw [index_loadIndexInto, sameIndex]
        exact unverified.healthy.loadBody (keepsRead data rfl)

theorem unverified_next (server : Server) (event : Event) (unverified : Unverified server)
    (serves : ServesHeld env server event) : Unverified (next env server event) := by
  cases event with
  | request request answers =>
    have effect := @effect_handleRequest env answers request server unverified.off
    constructor
    · rw [next, effect.config]
      exact unverified.off
    · rcases effect.index with same | ⟨body, loadable, loaded⟩
      · rw [next, same]
        exact unverified.healthy
      · rw [next, loaded]
        exact unverified.healthy.loadBody (serves.1 body loadable)
  | warmIndex answers =>
    rw [next, warmIndexFromCacheOnce]
    split
    · exact unverified
    · have warming : Unverified { server with indexWarmed := true } :=
        ⟨unverified.off, unverified.healthy⟩
      split
      · exact run_invariant_of_stepsMeet Unverified unverified_warmFrom warming serves
      · exact warming
  | restart config => exact ⟨serves, healthy_new⟩

/-- What one answer with a body says about the lookups. -/
theorem resolvable_of_answer {server : Server} {request : Request} (unverified : Unverified server)
    (serves : ServesHeld env server (.request request answers))
    (verifiable : isVerifiableIndexURL env.lib request.url = true) :
    ∀ response ∈ (handleRequest env answers request server).1, response.status = 200 →
      ∀ entry ∈ entriesOf env request.url response.body, entry.filename ≠ [] →
        Resolvable (handleRequest env answers request server).2.index entry := by
  intro response isResponse isOk entry mem hasFilename
  have effect := @effect_handleRequest env answers request server unverified.off
  rcases effect.answer rfl verifiable response isResponse isOk with
    loaded | ⟨may, isLoaded, cached, same⟩
  · rw [loaded]
    exact resolvable_loadBody unverified.healthy.consistent mem
  · rw [same]
    obtain ⟨held, heldMem, keys⟩ :=
      serves.2 may isLoaded response.body cached entry mem hasFilename
    exact resolvable_congr keys (unverified.healthy.resolvable held ⟨_, heldMem⟩)

/-- If loads take no entry from another index file, and cached copies are served only of what is
loaded, every named entry of an index just served can be looked up. -/
theorem resolvable_after_serving (env : Environment) (config : Config) (metadata : Metadata.State)
    (off : config.verifyMode = .off) (before after : List Event) (request : Request)
    (answers : Answers)
    (meets : StepsMeet (next env) (ServesHeld env) (Server.start config metadata)
      (before ++ .request request answers :: after)) :
    let served := handleRequest env answers request
      (run (next env) (Server.start config metadata) before)
    ∀ response ∈ served.1, response.status = 200 →
      isVerifiableIndexURL env.lib request.url = true →
        ∀ entry ∈ entriesOf env request.url response.body, entry.filename ≠ [] →
          Resolvable served.2.index entry := by
  intro served response isResponse isOk verifiable
  have initial : Unverified (Server.start config metadata) := ⟨off, healthy_new⟩
  have reached := run_invariant_of_stepsMeet Unverified unverified_next initial
    (meets.of_isPrefix (List.prefix_append before _))
  have serves : ServesHeld env (run (next env) (Server.start config metadata) before)
      (.request request answers) :=
    event_of_stepsMeet (fun _ => True) (fun _ _ _ _ => trivial) (ServesHeld env)
      (fun _ _ _ allowed => allowed) trivial meets
  exact resolvable_of_answer reached serves verifiable response isResponse isOk

/-- No verification. -/
def unverifying : Config :=
  ⟨.off, [], true, false, 1000⟩

/-- A metadata cache without entries. -/
def emptyCache : Metadata.State :=
  Metadata.State.opened 1000 Table.empty fun _ => none

/-- What happens in a request that a mirror answers or fails to answer. -/
def replying (reply : Reply) : Answers :=
  { clock := 0
    offline := false
    reply
    refetched := .error
    fetched := fun _ => none
    unreadable := fun _ => false
    faults := .none
    tmp := 0 }

/-- A Packages file with one entry. -/
def oneEntry (name : String) : Str :=
  ofAscii "Filename: " ++ ofAscii name ++ ofAscii "\nSHA256: " ++ ofAscii name ++ ofAscii "\n"

/-- A request for a version of one Packages file by its hash. -/
def requestByHash (body : Str) : Request :=
  ⟨ofAscii "http://h/dists/s/binary-a/by-hash/SHA256/" ++ hexEncode64 body, [], []⟩

/-- The mirror serves a version of the Packages file. -/
def servedByHash (body : Str) : Event :=
  .request (requestByHash body) (replying (.ok [] [] body false))

/-- A file is served from the cache after a restart, and its entry can be looked up. -/
theorem resolvable_after_restart :
    let before := [servedByHash (oneEntry "a"), .restart unverifying]
    let served := handleRequest exampleEnvironment (replying .error) (requestByHash (oneEntry "a"))
      (run (next exampleEnvironment) (Server.start unverifying emptyCache) before)
    served.1.map (fun response => (response.status, response.body)) = some (200, oneEntry "a") ∧
      ((entriesOf exampleEnvironment (requestByHash (oneEntry "a")).url (oneEntry "a")).map
        fun entry => (entry.sha256, entry.filename)) = [(ofAscii "a", ofAscii "a")] ∧
      ∀ response ∈ served.1, response.status = 200 →
        ∀ entry ∈ entriesOf exampleEnvironment (requestByHash (oneEntry "a")).url response.body,
          entry.filename ≠ [] → Resolvable served.2.index entry := by
  have keeps : ∀ url body, KeepsOthers exampleEnvironment Index.new url body := by
    intro url body load isLoad
    cases load with
    | clear => trivial
    | load kind text broken repo fileKey => exact fun _ _ _ mem => nomatch mem
  have meets : StepsMeet (next exampleEnvironment) (ServesHeld exampleEnvironment)
      (Server.start unverifying emptyCache)
      ([servedByHash (oneEntry "a"), .restart unverifying] ++
        [.request (requestByHash (oneEntry "a")) (replying .error)]) := by
    refine ⟨⟨fun body _ => keeps _ body, ?_⟩, rfl, ⟨fun body _ => keeps _ body, ?_⟩, trivial⟩
    · exact fun _ isLoaded => nomatch isLoaded
    · exact fun _ isLoaded => nomatch isLoaded
  have verifiable : isVerifiableIndexURL exampleEnvironment.lib
      (requestByHash (oneEntry "a")).url = true := by
    decide +kernel
  have resolvable := resolvable_after_serving exampleEnvironment unverifying emptyCache rfl
    [servedByHash (oneEntry "a"), .restart unverifying] []
    (requestByHash (oneEntry "a")) (replying .error) meets
  refine ⟨by decide +kernel, by decide +kernel, ?_⟩
  intro response isResponse isOk
  exact resolvable response isResponse isOk verifiable

/-- Two versions of a file are served, and then the first one from the cache: its entry is gone. -/
theorem not_resolvable_after_other_version :
    let before := [servedByHash (oneEntry "a"), servedByHash (oneEntry "b")]
    let served := handleRequest exampleEnvironment (replying .error) (requestByHash (oneEntry "a"))
      (run (next exampleEnvironment) (Server.start unverifying emptyCache) before)
    served.1.map (fun response => (response.status, response.body)) = some (200, oneEntry "a") ∧
      isVerifiableIndexURL exampleEnvironment.lib (requestByHash (oneEntry "a")).url = true ∧
      ∃ entry ∈ entriesOf exampleEnvironment (requestByHash (oneEntry "a")).url (oneEntry "a"),
        entry.filename ≠ [] ∧ ¬ Resolvable served.2.index entry := by
  have unknown : ∃ entry ∈
      entriesOf exampleEnvironment (requestByHash (oneEntry "a")).url (oneEntry "a"),
      entry.filename ≠ [] ∧ getBySHA256 (handleRequest exampleEnvironment (replying .error)
        (requestByHash (oneEntry "a")) (run (next exampleEnvironment)
          (Server.start unverifying emptyCache)
          [servedByHash (oneEntry "a"), servedByHash (oneEntry "b")])).2.index
        entry.sha256 = none := by
    decide +kernel
  refine ⟨by decide +kernel, by decide +kernel, ?_⟩
  obtain ⟨entry, mem, hasFilename, isUnknown⟩ := unknown
  refine ⟨entry, mem, hasFilename, ?_⟩
  rintro ⟨⟨found, isFound, _⟩, _⟩
  rw [isUnknown] at isFound
  cases isFound

end

/-! ## When a client is told that it is up to date -/

variable {env : Environment} {answers : Answers} {request : Request} {row : IndexRow}
  {server : Server}

/-- Whether serving a cached body fills a package index that a restart left empty. -/
def Warms (env : Environment) (isIndex : Bool) (url : Str) (server : Server) : Prop :=
  isIndex = true ∧ isVerifiableIndexURL env.lib url = true ∧
    hasIndexFile server.index url = false

/-- The client sent the date of the cached entry. -/
def SameDate (request : Request) (row : IndexRow) : Prop :=
  request.ifModifiedSince ≠ [] ∧ request.ifModifiedSince = row.lastModified

theorem clientHasCurrent_iff (hasETag : row.etag ≠ []) (sent : request.ifNoneMatch ≠ [])
    (noWildcard : request.ifNoneMatch ≠ ofAscii "*") :
    clientHasCurrent request row = true ↔
      request.ifNoneMatch = row.etag ∨ SameDate request row := by
  unfold clientHasCurrent SameDate
  simp only [Bool.or_eq_true, Bool.and_eq_true, decide_eq_true_eq, ne_eq, sent, hasETag,
    noWildcard, not_false_eq_true, decide_true, true_and, false_or]
  constructor
  · rintro (sameETag | ⟨⟨dated, -⟩, same⟩)
    · exact .inl sameETag
    · exact .inr ⟨dated, same⟩
  · rintro (sameETag | ⟨dated, same⟩)
    · exact .inl sameETag
    · exact .inr ⟨⟨dated, same ▸ dated⟩, same⟩

/-- A cached entry is answered with 304 iff a validator matches, unless an index has to be filled
and the body cannot be read. -/
theorem status_serveCachedMetadata (isIndex stale : Bool) (body : Str) :
    (serveCachedMetadata env answers request isIndex stale row body server).1.status = 304 ↔
      clientHasCurrent request row = true ∧
        ¬ (Warms env isIndex request.url server ∧ answers.unreadable request.url = true) := by
  have failed : (502 : Nat) ≠ 304 := by decide
  have served : (200 : Nat) ≠ 304 := by decide
  unfold serveCachedMetadata Warms
  cases current : clientHasCurrent request row with
  | false =>
    simp only [Bool.false_and, Bool.false_eq_true, if_false, false_and, iff_false]
    split
    · split
      · exact failed
      · exact served
    · exact served
  | true =>
    simp only [Bool.true_and, true_and, if_true]
    split
    · rename_i cold
      simp only [Bool.not_eq_true', Bool.and_eq_false_iff, Bool.not_eq_false'] at cold
      simp only [true_iff]
      rintro ⟨⟨asIndex, verifiable, unloaded⟩, -⟩
      rw [asIndex, verifiable, unloaded] at cold
      rcases cold with (cold | cold) | cold <;> cases cold
    · rename_i warms
      simp only [Bool.not_eq_true', Bool.not_eq_false, Bool.and_eq_true] at warms
      obtain ⟨⟨asIndex, verifiable⟩, unloaded⟩ := warms
      rw [if_pos asIndex]
      simp only [asIndex, verifiable, unloaded, true_and]
      cases answers.unreadable request.url with
      | true => exact iff_of_false failed (not_not_intro rfl)
      | false => exact iff_of_true rfl Bool.false_ne_true

/-- A 304 shows that the ETags of an entry and a client are the same iff they are, the dates differ,
or the body cannot be read where it is needed. -/
theorem notModified_only_if_same_etag_iff (isIndex stale : Bool) (body : Str)
    (hasETag : row.etag ≠ []) (sent : request.ifNoneMatch ≠ [])
    (noWildcard : request.ifNoneMatch ≠ ofAscii "*") :
    ((serveCachedMetadata env answers request isIndex stale row body server).1.status = 304 →
        request.ifNoneMatch = row.etag) ↔
      request.ifNoneMatch = row.etag ∨ ¬ SameDate request row ∨
        (Warms env isIndex request.url server ∧ answers.unreadable request.url = true) := by
  rw [status_serveCachedMetadata, clientHasCurrent_iff hasETag sent noWildcard]
  by_cases same : request.ifNoneMatch = row.etag
  · simp [same]
  · rw [iff_false_intro same, imp_false, false_or, false_or, not_and_or, not_not]

/-- A cached entry for the examples. -/
def datedRow : IndexRow :=
  ⟨ofAscii "new", ofAscii "Mon", 0, 1, [], 0, 0, 0⟩

/-- A client with an outdated ETag and another date gets the body. -/
theorem body_for_other_date :
    let request : Request := ⟨ofAscii "http://h/f", ofAscii "Sun", ofAscii "old"⟩
    let served := serveCachedMetadata exampleEnvironment (replying .error) request false false
      datedRow [1] (Server.start unverifying emptyCache)
    served.1.status = 200 ∧ (served.1.status = 304 → request.ifNoneMatch = datedRow.etag) := by
  intro request served
  have otherDate : ¬ SameDate request datedRow := fun same => absurd same.2 (by decide)
  exact ⟨by decide, (notModified_only_if_same_etag_iff false false [1] (by decide) (by decide)
    (by decide)).mpr (.inr (.inl otherDate))⟩

/-- A client with an outdated ETag and the same date is told that it is up to date. -/
theorem notModified_for_same_date :
    let request : Request := ⟨ofAscii "http://h/f", ofAscii "Mon", ofAscii "old"⟩
    let served := serveCachedMetadata exampleEnvironment (replying .error) request false false
      datedRow [1] (Server.start unverifying emptyCache)
    datedRow.etag ≠ [] ∧ request.ifNoneMatch ≠ [] ∧ request.ifNoneMatch ≠ ofAscii "*" ∧
      ¬ (served.1.status = 304 → request.ifNoneMatch = datedRow.etag) := by
  decide

end Debswarm.Proxy
