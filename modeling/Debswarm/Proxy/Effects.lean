import Debswarm.PackageIndex.Consistency
import Debswarm.Proxy.Verification

/-!
# What a request loads

With verification off, a request loads at most one body into the package index: a fresh one
before it is served, and a cached one if its index file is not loaded yet.  So a body with
which the proxy answers is the one that was loaded last for its index file, or it is a cached
one of a file that was loaded before, in whatever version.
-/

namespace Debswarm.Proxy

open Metadata PackageIndex Text

variable {env : Environment} {answers : Answers}

/-! ## Loading a body -/

/-- The parser for a URL. -/
def indexKind (env : Environment) (url : Str) : Option Kind :=
  if isPackagesIndexURL env.lib url then some .packages
  else if isSourcesIndexURL env.lib url then some .sources
  else none

/-- What loading a body of a URL means for the package index, if it can be read at all. -/
def loadOf (env : Environment) (url body : Str) : Option PackageIndex.Event :=
  (indexKind env url).bind fun kind =>
    (decompressByMagic env.decompressors body).map fun text =>
      .load kind text.1 text.2 (extractRepoFromURL url) (indexFileKey url)

def loadBody (env : Environment) (url body : Str) (index : Index) : Index :=
  match loadOf env url body with
  | none => index
  | some load => PackageIndex.next maxPackagesPerRepo index load

theorem index_loadIndexInto (url data : Str) (server : Server) :
    (loadIndexInto env url data server).index = loadBody env url data server.index := by
  unfold loadIndexInto loadBody loadOf indexKind
  split
  · simp only [loadKind, loadFromData, Option.bind_some]
    cases decompressByMagic env.decompressors data <;> rfl
  · split
    · simp only [loadKind, loadFromData, Option.bind_some]
      cases decompressByMagic env.decompressors data <;> rfl
    · rfl

/-! ## What a request does to the package index -/

/-- A server on its way through a request: index, cached bodies and settings are the same. -/
structure Like (origin server : Server) : Prop where
  index : server.index = origin.index
  files : server.metadata.files = origin.metadata.files
  config : server.config = origin.config

/-- A body that the mirror offers, or a cached one whose index file is not loaded. -/
def Loadable (env : Environment) (answers : Answers) (origin : Server) (url body : Str) : Prop :=
  answers.Offers body ∨
    MayServeCached env answers url ∧ hasIndexFile origin.index url = false ∧
      origin.metadata.files url = some body

/-- A request loads at most one body, and a body that answers an index request is loaded, or is the
cached one of a loaded index file. -/
structure Effect (env : Environment) (answers : Answers) (request : Request) (isIndex : Bool)
    (origin : Server) (result : Option Response × Server) : Prop where
  config : result.2.config = origin.config
  index : result.2.index = origin.index ∨
    ∃ body, Loadable env answers origin request.url body ∧
      result.2.index = loadBody env request.url body origin.index
  answer : isIndex = true → isVerifiableIndexURL env.lib request.url = true →
    ∀ response ∈ result.1, response.status = 200 →
      result.2.index = loadBody env request.url response.body origin.index ∨
        MayServeCached env answers request.url ∧
          hasIndexFile origin.index request.url = true ∧
          origin.metadata.files request.url = some response.body ∧
          result.2.index = origin.index

section Effects

variable {request : Request} {isIndex : Bool} {origin server : Server}

theorem Like.effect (like : Like origin server) {response : Option Response}
    (noBody : ∀ answer ∈ response, answer.status ≠ 200) :
    Effect env answers request isIndex origin (response, server) := by
  refine ⟨like.config, .inl like.index, ?_⟩
  intro _ _ answer isAnswer isOk
  exact absurd isOk (noBody answer isAnswer)

theorem Like.setMetadata (like : Like origin server) {metadata : Metadata.State}
    (sameFiles : metadata.files = server.metadata.files) : Like origin { server with metadata } :=
  ⟨like.index, sameFiles.trans like.files, like.config⟩

theorem checkIndexVerification_off (off : server.config.verifyMode = .off) (url data : Str) :
    checkIndexVerification env answers url data server = ((true, none), server) := by
  unfold checkIndexVerification verificationEnabled
  rw [off]
  rfl

theorem config_loadIndexInto (url data : Str) (server : Server) :
    (loadIndexInto env url data server).config = server.config := by
  unfold loadIndexInto
  split
  · rfl
  · split <;> rfl

/-- The state after a cached body was served is the one before, warmed if need be. -/
theorem serveCachedMetadata_spec (off : server.config.verifyMode = .off) (stale : Bool)
    (row : IndexRow) (body : Str) :
    let warmed :=
      if isIndex && isVerifiableIndexURL env.lib request.url &&
          !hasIndexFile server.index request.url then
        loadIndexInto env request.url body server
      else server
    let result := serveCachedMetadata env answers request isIndex stale row body server
    (result.2 = server ∨ result.2 = warmed) ∧
      (isIndex = true → result.1.status = 200 → result.1.body = body ∧ result.2 = warmed) := by
  have warmedEq : ∀ warmIndex, warmFromBody env answers warmIndex request.url body server =
      (none, if warmIndex then loadIndexInto env request.url body server else server) := by
    intro warmIndex
    unfold warmFromBody
    rw [checkIndexVerification_off off]
    cases warmIndex <;> rfl
  unfold serveCachedMetadata
  dsimp only
  rw [warmedEq]
  split
  · exact ⟨.inl rfl, fun _ isOk => nomatch isOk⟩
  · split
    · split
      · exact ⟨.inl rfl, fun _ isOk => nomatch isOk⟩
      · split
        · exact ⟨.inr rfl, fun _ isOk => nomatch isOk⟩
        · exact ⟨.inr rfl, fun _ _ => ⟨rfl, rfl⟩⟩
    · rename_i notIndex
      exact ⟨.inl rfl, fun asIndex => absurd asIndex notIndex⟩

theorem effect_serveCachedMetadata (like : Like origin server)
    (off : origin.config.verifyMode = .off) (may : MayServeCached env answers request.url)
    {body : Str} (cached : origin.metadata.files request.url = some body) (stale : Bool)
    (row : IndexRow) :
    Effect env answers request isIndex origin
      (some (serveCachedMetadata env answers request isIndex stale row body server).1,
        (serveCachedMetadata env answers request isIndex stale row body server).2) := by
  have spec := @serveCachedMetadata_spec env answers request isIndex server
    (by rw [like.config, off]) stale row body
  generalize serveCachedMetadata env answers request isIndex stale row body server = result
    at spec ⊢
  obtain ⟨response, after⟩ := result
  obtain ⟨state, answer⟩ := spec
  dsimp only at state answer ⊢
  split at state
  · rename_i warms
    rw [if_pos warms] at answer
    rw [Bool.and_eq_true, Bool.not_eq_true', like.index] at warms
    have loaded : (loadIndexInto env request.url body server).index =
        loadBody env request.url body origin.index := by
      rw [index_loadIndexInto, like.index]
    constructor
    · rcases state with rfl | rfl
      · exact like.config
      · exact (config_loadIndexInto request.url body server).trans like.config
    · rcases state with rfl | rfl
      · exact .inl like.index
      · exact .inr ⟨body, .inr ⟨may, warms.2, cached⟩, loaded⟩
    · rintro asIndex _ _ ⟨rfl⟩ isOk
      obtain ⟨rfl, rfl⟩ := answer asIndex isOk
      exact .inl loaded
  · rename_i cold
    rw [or_self] at state
    subst state
    refine ⟨like.config, .inl like.index, ?_⟩
    rintro asIndex verifiable _ ⟨rfl⟩ isOk
    rw [asIndex, verifiable, like.index] at cold
    have isLoaded : hasIndexFile origin.index request.url = true := by
      simpa using cold
    rw [(answer asIndex isOk).1]
    exact .inr ⟨may, isLoaded, cached, like.index⟩

/-- A response that goes out unless the body could not be stored. -/
theorem effect_respond {after : Server} {response : Response}
    (sent : Effect env answers request isIndex origin (some response, after)) {faults : WriteFaults}
    {url body etag lastModified contentType : Str} :
    Effect env answers request isIndex origin
      (match storeBody env answers faults url body etag lastModified contentType after with
        | (some _, stored) => (none, stored)
        | (none, stored) => (some response, stored)) := by
  unfold storeBody
  dsimp only
  cases (storeMetadata env.lib faults.withdrawable answers.now answers.tmp url body etag
    lastModified contentType after.metadata).1 with
  | none => exact ⟨sent.config, sent.index, sent.answer⟩
  | some fault => exact ⟨sent.config, sent.index, fun _ _ _ none => nomatch none⟩

/-- A fresh index is loaded before it is served. -/
theorem effect_serveFreshIndex (like : Like origin server) (off : origin.config.verifyMode = .off)
    {body : Str} (offered : answers.Offers body) (etag lastModified : Str) (broken caching : Bool) :
    Effect env answers request true origin
      (serveFreshIndex env answers request etag lastModified body broken caching server) := by
  have sent : ∀ response : Response, response.body = body → Effect env answers request true origin
        (some response, if isVerifiableIndexURL env.lib request.url then
          loadIndexInto env request.url body server else server) := by
    rintro response rfl
    split
    · have loaded : (loadIndexInto env request.url response.body server).index =
          loadBody env request.url response.body origin.index := by
        rw [index_loadIndexInto, like.index]
      refine ⟨?_, .inr ⟨response.body, .inl offered, loaded⟩, ?_⟩
      · exact (config_loadIndexInto request.url response.body server).trans like.config
      · rintro _ _ _ ⟨rfl⟩ _
        exact .inl loaded
    · rename_i other
      exact ⟨like.config, .inl like.index, fun _ verifiable => absurd verifiable other⟩
  unfold serveFreshIndex
  dsimp only
  rw [checkIndexVerification_off (by rw [like.config, off])]
  split
  · exact like.effect (by rintro _ ⟨rfl⟩; decide)
  · split
    · exact like.effect (by rintro _ ⟨rfl⟩; decide)
    · dsimp only
      split
      · exact effect_respond (sent _ rfl)
      · exact sent _ rfl

theorem moves_effect (off : origin.config.verifyMode = .off) :
    Moves env answers request isIndex (Like origin)
      (Effect env answers request isIndex origin) where
  bodiless _ _ like noBody := like.effect noBody
  missed server metadata like found := by
    have sameFiles := files_getMetadata answers.now request.url server.metadata
    rw [found] at sameFiles
    exact like.setMetadata sameFiles
  revalidated server etag lastModified like :=
    like.setMetadata
      (files_revalidateMetadata answers.now request.url etag lastModified server.metadata)
  cached server metadata row body stale like may found := by
    have sameFiles := files_getMetadata answers.now request.url server.metadata
    rw [found] at sameFiles
    have isCached : origin.metadata.files request.url = some body := by
      rw [← like.files]
      exact (getMetadata_eq_some_iff.mp (congrArg Prod.fst found)).2.2
    exact effect_serveCachedMetadata (like.setMetadata sameFiles) off may isCached stale row
  fresh server etag lastModified body broken caching like offered := by
    have likeReceived : Like origin (receive request.url body server) :=
      ⟨like.index, like.files, like.config⟩
    unfold serveFreshBody
    cases isIndex with
    | true => exact effect_serveFreshIndex likeReceived off offered etag lastModified broken caching
    | false =>
      have sent : ∀ response : Response, Effect env answers request false origin
          (some response, receive request.url body server) :=
        fun _ => ⟨like.config, .inl like.index, nofun⟩
      change Effect env answers request false origin (serveFreshStream ..)
      unfold serveFreshStream
      dsimp only
      split
      · exact effect_respond (sent _)
      · exact sent _

theorem effect_serveMetadata (like : Like origin server) (off : origin.config.verifyMode = .off) :
    Effect env answers request isIndex origin (serveMetadata env answers request isIndex server) :=
  (moves_effect off).serveMetadata like

/-- A Packages or Sources URL is requested as an index, or as a package by its suffix. -/
theorem classifyRequest_of_verifiable {url : Str}
    (verifiable : isVerifiableIndexURL env.lib url = true) :
    classifyRequest env.lib url = .package ∨ classifyRequest env.lib url = .index := by
  unfold isVerifiableIndexURL isPackagesIndexURL isSourcesIndexURL at verifiable
  unfold classifyRequest
  dsimp only at verifiable ⊢
  split
  · exact .inl rfl
  · split
    · exact .inl rfl
    · split
      · exact .inr rfl
      · rename_i noName
        split
        · exact .inr rfl
        · rename_i noHash
          simp only [Bool.or_eq_true, Bool.and_eq_true, not_or, not_and] at noName noHash verifiable
          rcases verifiable with (byName | byHash) | ⟨⟨_, source⟩, byName | byHash⟩
          · exact absurd byName.1 noName.1
          · rcases byHash.2 with binary | flat
            · exact absurd binary (noHash byHash.1).1.1
            · exact absurd flat (noHash byHash.1).2
          · exact absurd byName noName.2
          · exact absurd source (noHash byHash).1.2

theorem effect_handleRequest (off : origin.config.verifyMode = .off) :
    Effect env answers request true origin (handleRequest env answers request origin) := by
  have like : Like origin origin := ⟨rfl, rfl, rfl⟩
  have otherwise : ∀ result, classifyRequest env.lib request.url ≠ .package →
      classifyRequest env.lib request.url ≠ .index →
      Effect env answers request false origin result →
        Effect env answers request true origin result := by
    intro result notPackage notIndex effect
    refine ⟨effect.config, effect.index, ?_⟩
    intro _ verifiable
    rcases classifyRequest_of_verifiable verifiable with isPackage | isIndex
    · exact absurd isPackage notPackage
    · exact absurd isIndex notIndex
  unfold handleRequest
  split
  · exact like.effect nofun
  · exact effect_serveMetadata like off
  · rename_i isRelease
    apply otherwise _ (by rw [isRelease]; nofun) (by rw [isRelease]; nofun)
    unfold handleReleaseRequest
    apply effect_serveMetadata _ off
    split
    · exact ⟨rfl, rfl, rfl⟩
    · exact like
  · rename_i isUnknown
    apply otherwise _ (by rw [isUnknown]; nofun) (by rw [isUnknown]; nofun)
    exact effect_serveMetadata like off

end Effects

end Debswarm.Proxy
