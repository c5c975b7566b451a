import Debswarm.Metadata.Core
import Debswarm.PackageIndex.Parse
import Debswarm.Proxy.URLs
import Debswarm.Release.Core

/-!
# Serving repository metadata

The proxy answers requests for repository metadata from its cache or from the mirror.
Bodies of Packages and Sources files are also loaded into the package index, after a
check against the signed Release of their repository whose strictness the mode of the
server decides.

A request is one step.  What the mirror, the disk and the clock do during it is given by
an `Answers` record.  The bodies received from the mirror and the loads are recorded for
the statements about them; the program keeps neither.
-/

namespace Debswarm.Proxy

open Metadata PackageIndex Release Table Text

/-! ## Configuration and state -/

/-- The modes of upstream verification. -/
inductive VerifyMode
  | off
  | warn
  | auto
  | enforce
  deriving DecidableEq, Repr

/-- Why an index is not verified. -/
inductive Reason
  | noKey
  | noDist
  | noRelease
  | notListed
  | hashMismatch
  deriving DecidableEq, Repr

/-- Code outside the proxy: hashing, case mapping, decompression, signatures, URL hosts. -/
structure Environment where
  lib : Libraries
  decompressors : Decompressors
  verifyClearsigned : Str → Option Str
  verifyDetached : Str → Str → Bool
  hostname : Str → Option Str

/-- The settings of a server. -/
structure Config where
  verifyMode : VerifyMode
  verifyExempt : List Str
  keyringEmpty : Bool
  metadataServeStale : Bool
  maxResponseSize : Nat

/-- A body that was loaded into the package index, with the settings at that time. -/
structure Load where
  config : Config
  url : Str
  body : Str

/-- The state of a server.  `received` and `loads` are records, not program state. -/
structure Server where
  config : Config
  metadata : Metadata.State
  index : Index
  releaseStore : Table Str Release
  releaseFetchFailed : Table Str Int
  indexWarmed : Bool
  received : List (Str × Str)
  loads : List Load

variable (env : Environment) (config : Config)

/-- A process that starts on a metadata cache. -/
def Server.start (metadata : Metadata.State) : Server :=
  { config, metadata
    index := Index.new
    releaseStore := empty
    releaseFetchFailed := empty
    indexWarmed := false
    received := []
    loads := [] }

/-- A process that starts with an empty metadata cache of a given size. -/
def Server.fresh (budget : Int) : Server :=
  Server.start config (Metadata.State.opened budget empty fun _ => none)

/-- An answer of the mirror.  A body is followed by whether reading it broke off. -/
inductive Reply
  | error
  | notModified (etag lastModified : Str)
  | ok (etag lastModified body : Str) (broken : Bool)
  deriving DecidableEq, Repr

/-- What happens outside during a request: the clock, the answers of the mirror, the Release files
fetched on demand, unreadable bodies, and the faults of the cached write. -/
structure Answers where
  clock : Int
  offline : Bool
  reply : Reply
  refetched : Reply
  fetched : Str → Option Str
  unreadable : Str → Bool
  faults : WriteFaults
  tmp : Nat

variable (answers : Answers)

/-- The clock in seconds, as the cache stores it. -/
def Answers.now : Int :=
  answers.clock / 1000000000

/-- A request for metadata with the validators of the client. -/
structure Request where
  url : Str
  ifModifiedSince : Str
  ifNoneMatch : Str
  deriving DecidableEq, Repr

/-- A response. -/
structure Response where
  status : Nat
  body : Str
  contentType : Str
  etag : Str
  lastModified : Str
  unverified : Option Reason
  stale : Bool
  deriving DecidableEq, Repr

/-- A response without headers of its own. -/
def Response.plain (status : Nat) (body : Str) : Response :=
  ⟨status, body, [], [], [], none, false⟩

/-! ## Releases -/

/-- Record a body that the mirror sent. -/
def receive (url body : Str) (server : Server) : Server :=
  { server with received := server.received ++ [(url, body)] }

def readCachedMetadataBody (url : Str) (server : Server) :
    Option Str × Server :=
  match getMetadata answers.now url server.metadata with
  | (none, metadata) => (none, { server with metadata })
  | (some (row, body), metadata) =>
    (if answers.unreadable url then none else some (body.take row.size), { server with metadata })

/-- The Release of a clearsigned body whose signature is good. -/
def verifiedInRelease (body : Option Str) : Option Release :=
  body.bind fun signed =>
    (env.verifyClearsigned signed).bind fun text => (Release.parse env.lib text).toOption

/-- The Release of a body whose detached signature is good. -/
def verifiedDetachedRelease (body signature : Option Str) :
    Option Release :=
  body.bind fun text =>
    signature.bind fun signature =>
      if env.verifyDetached text signature then (Release.parse env.lib text).toOption else none

/-- Keep a verified Release. -/
def putRelease (base : Str) (release : Release) (server : Server) : Server :=
  { server with releaseStore := server.releaseStore.set base release }

def fetchMetadataBytes (url : Str) (server : Server) : Option Str × Server :=
  match answers.fetched url with
  | none => (none, server)
  | some body =>
    if body.length ≤ server.config.maxResponseSize then (some body, receive url body server)
    else (none, server)

/-- Verify the Release of a base, clearsigned or with its detached signature, and keep it. -/
def verifiedRelease (read : Str → Server → Option Str × Server) (base : Str)
    (server : Server) : Option Release × Server :=
  let (signed, server) := read (base ++ ofAscii "InRelease") server
  match verifiedInRelease env signed with
  | some release => (some release, putRelease base release server)
  | none =>
    let (body, server) := read (base ++ ofAscii "Release") server
    let (signature, server) := read (base ++ ofAscii "Release.gpg") server
    match verifiedDetachedRelease env body signature with
    | some release => (some release, putRelease base release server)
    | none => (none, server)

/-- How long a failed fetch of a Release is not repeated, in nanoseconds. -/
def releaseFetchRetryTTL : Int :=
  30 * 1000000000

/-- Fetch and verify the Release of a base, unless that failed a moment ago. -/
def fetchReleaseOnDemand (base : Str) (server : Server) :
    Option Release × Server :=
  if (server.releaseFetchFailed.find? base).any
      (fun failed => answers.clock - failed < releaseFetchRetryTTL) then
    (none, server)
  else
    match verifiedRelease env (fetchMetadataBytes answers) base server with
    | (some release, server) =>
      (some release, { server with
        releaseFetchFailed := server.releaseFetchFailed.delete base })
    | (none, server) =>
      (none, { server with
        releaseFetchFailed := server.releaseFetchFailed.set base answers.clock })

def cachedRelease (base : Str) (server : Server) :
    Option Release × Server :=
  if metadataEnabled server.metadata then
    verifiedRelease env (readCachedMetadataBody answers) base server
  else
    (none, server)

/-- The verified Release of a base: a kept one, a cached one, or when enforcing a fetched
one. -/
def obtainRelease (base : Str) (server : Server) :
    Option Release × Server :=
  match server.releaseStore.find? base with
  | some release => (some release, server)
  | none =>
    match cachedRelease env answers base server with
    | (some release, server) => (some release, server)
    | (none, server) =>
      if server.config.verifyMode = .enforce then fetchReleaseOnDemand env answers base server
      else (none, server)

/-! ## The check of an index -/

def verificationEnabled : Bool :=
  config.verifyMode ≠ .off

/-- Whether the mode refuses an index for a reason. -/
def modeRefuses (reason : Reason) : Bool :=
  match config.verifyMode with
  | .enforce => true
  | .auto => reason = .hashMismatch ∨ reason = .notListed
  | _ => false

def isExemptHost (url : Str) : Bool :=
  if config.verifyExempt = [] then false
  else match env.hostname url with
    | none => false
    | some host => toLower env.lib.unicodeLower host ∈ config.verifyExempt

/-- What a verified Release says of a body: nothing against it, or a reason. -/
def checkAgainstRelease (url base data : Str) (release : Release) :
    Option Reason :=
  let digest := byHashDigest env.lib url
  if digest ≠ [] then
    if hasHash env.lib release digest then none else some .hashMismatch
  else
    let path := if base.isPrefixOf url then url.drop base.length else url
    match release.sha256.find? path with
    | none => some .notListed
    | some file => if env.lib.sha256 data ≠ file.sha256 then some .hashMismatch else none

/-- Check a body against the Release of its base; no reason means that it is verified. -/
def verifyIndex (url data : Str) (server : Server) :
    Option Reason × Server :=
  let base := verificationBaseURL url
  if server.config.keyringEmpty then (some .noKey, server)
  else if base = [] then (some .noDist, server)
  else
    match obtainRelease env answers base server with
    | (none, server) => (some .noRelease, server)
    | (some release, server) => (checkAgainstRelease env url base data release, server)

/-- Apply the policy: whether the index may be used, and the reason to flag it with. -/
def checkIndexVerification (url data : Str)
    (server : Server) : (Bool × Option Reason) × Server :=
  if !verificationEnabled server.config || !isVerifiableIndexURL env.lib url then
    ((true, none), server)
  else
    match verifyIndex env answers url data server with
    | (none, server) => ((true, none), server)
    | (some reason, server) =>
      if modeRefuses server.config reason && !isExemptHost env server.config url then
        ((false, none), server)
      else
        ((true, some reason), server)

/-- Load a body into the package index with the parser of its kind. -/
def loadKind (kind : Kind) (url data : Str) (server : Server) : Server :=
  { server with
    index := (loadFromData env.decompressors kind maxPackagesPerRepo data url server.index).2
    loads := server.loads ++ [⟨server.config, url, data⟩] }

def loadIndexInto (url data : Str) (server : Server) : Server :=
  if isPackagesIndexURL env.lib url then loadKind env .packages url data server
  else if isSourcesIndexURL env.lib url then loadKind env .sources url data server
  else server

/-! ## Serving -/

/-- Whether the validators of the client match a cached entry. -/
def clientHasCurrent (request : Request) (row : IndexRow) : Bool :=
  (request.ifNoneMatch ≠ [] && row.etag ≠ [] &&
      (request.ifNoneMatch = ofAscii "*" || request.ifNoneMatch = row.etag)) ||
    (request.ifModifiedSince ≠ [] && row.lastModified ≠ [] &&
      request.ifModifiedSince = row.lastModified)

/-- Warm the package index from a cached body if asked to; the reason flags the response. -/
def warmFromBody (warmIndex : Bool) (url body : Str)
    (server : Server) : Option Reason × Server :=
  if warmIndex then
    match checkIndexVerification env answers url body server with
    | ((true, reason), server) => (reason, loadIndexInto env url body server)
    | ((false, reason), server) => (reason, server)
  else
    (none, server)

/-- Answer from a cached entry; a cold package index is warmed from it. -/
def serveCachedMetadata (request : Request)
    (isIndex stale : Bool) (row : IndexRow) (body : Str) (server : Server) :
    Response × Server :=
  let url := request.url
  let warmIndex := isIndex && isVerifiableIndexURL env.lib url && !hasIndexFile server.index url
  let clientHas := clientHasCurrent request row
  let notModified (unverified : Option Reason) : Response :=
    ⟨304, [], [], row.etag, row.lastModified, unverified, stale⟩
  if clientHas && !warmIndex then
    (notModified none, server)
  else if isIndex then
    if answers.unreadable url then
      ({ Response.plain 502 (ofAscii "Failed to read cached index") with stale }, server)
    else
      let warmed := warmFromBody env answers warmIndex url body server
      if clientHas then
        (notModified warmed.1, warmed.2)
      else
        (⟨200, body, ofAscii "application/octet-stream", row.etag, row.lastModified, warmed.1,
          stale⟩, warmed.2)
  else
    (⟨200, body, row.contentType, row.etag, row.lastModified, none, stale⟩, server)

/-- Cache a body.  A panic ends the request.  A file whose row cannot be written is removed. -/
def storeBody (faults : WriteFaults)
    (url body etag lastModified contentType : Str) (server : Server) : Option Panic × Server :=
  let stored := Metadata.storeMetadata env.lib faults.withdrawable answers.now answers.tmp url body
    etag lastModified contentType server.metadata
  (stored.1, { server with metadata := stored.2 })

/-- Check a fresh index body, load it and cache it. Without a response the request panicked. -/
def serveFreshIndex (request : Request)
    (etag lastModified body : Str) (broken caching : Bool) (server : Server) :
    Option Response × Server :=
  let url := request.url
  if broken then
    (some (.plain 502 (ofAscii "Failed to fetch index")), server)
  else if server.config.maxResponseSize < body.length then
    (some (.plain 502 (ofAscii "Index too large")), server)
  else
    match checkIndexVerification env answers url body server with
    | ((false, _), server) =>
      (some (.plain 502 (ofAscii "index failed upstream signature verification")), server)
    | ((true, unverified), server) =>
      let server :=
        if isVerifiableIndexURL env.lib url then loadIndexInto env url body server else server
      let response : Response :=
        ⟨200, body, ofAscii "application/octet-stream", etag, lastModified, unverified, false⟩
      if caching then
        match storeBody env answers answers.faults url body etag lastModified
            (ofAscii "application/octet-stream") server with
        | (some _, server) => (none, server)
        | (none, server) => (some response, server)
      else
        (some response, server)

/-- Serve a fresh body that is no index, caching it on the way unless it breaks off. -/
def serveFreshStream (request : Request)
    (etag lastModified body : Str) (broken caching : Bool) (server : Server) :
    Option Response × Server :=
  let response : Response := ⟨200, body, [], etag, lastModified, none, false⟩
  if caching then
    let faults := { answers.faults with write := answers.faults.write || broken }
    match storeBody env answers faults request.url body etag lastModified [] server with
    | (some _, server) => (none, server)
    | (none, server) => (some response, server)
  else
    (some response, server)

def serveFreshBody (request : Request) (isIndex : Bool)
    (etag lastModified body : Str) (broken caching : Bool) (server : Server) :
    Option Response × Server :=
  let server := receive request.url body server
  if isIndex then
    serveFreshIndex env answers request etag lastModified body broken caching server
  else
    serveFreshStream env answers request etag lastModified body broken caching server

/-- Relay that the copy of the client is current. -/
def relayNotModified (etag lastModified : Str) : Response :=
  ⟨304, [], [], etag, lastModified, none, false⟩

/-- Fetch again without validators, after a cached file vanished. -/
def fetchFreshMetadata (request : Request)
    (isIndex : Bool) (server : Server) : Option Response × Server :=
  match answers.refetched with
  | .error => (some (.plain 502 (ofAscii "Failed to fetch")), server)
  | .notModified etag lastModified => (some (relayNotModified etag lastModified), server)
  | .ok etag lastModified body broken =>
    serveFreshBody env answers request isIndex etag lastModified body broken
      (metadataEnabled server.metadata) server

def serveIfCached (request : Request)
    (isIndex stale : Bool) (server : Server) : Option Response × Server :=
  match getMetadata answers.now request.url server.metadata with
  | (none, metadata) => (none, { server with metadata })
  | (some (row, body), metadata) =>
    let (response, server) := serveCachedMetadata env answers request isIndex stale row body
      { server with metadata }
    (some response, server)

/-- Ask the mirror, with validators if a copy is cached, and answer. -/
def serveFromUpstream (request : Request)
    (isIndex caching staleOK : Bool) (server : Server) : Option Response × Server :=
  let url := request.url
  let haveCache := caching && (metadataValidators url server.metadata).isSome
  match answers.reply with
  | .error =>
    let failed := Response.plain 502 (ofAscii "Failed to fetch")
    if staleOK then
      match serveIfCached env answers request isIndex true server with
      | (some response, server) => (some response, server)
      | (none, server) => (some failed, server)
    else
      (some failed, server)
  | .notModified etag lastModified =>
    if haveCache then
      let revalidated := { server with
        metadata := revalidateMetadata answers.now url etag lastModified server.metadata }
      match serveIfCached env answers request isIndex false revalidated with
      | (some response, server) => (some response, server)
      | (none, server) => fetchFreshMetadata env answers request isIndex server
    else
      (some (relayNotModified etag lastModified), server)
  | .ok etag lastModified body broken =>
    serveFreshBody env answers request isIndex etag lastModified body broken caching server

/-- Answer a metadata request, from the cache if the body is immutable or the node offline. -/
def serveMetadata (request : Request) (isIndex : Bool)
    (server : Server) : Option Response × Server :=
  let caching := metadataEnabled server.metadata
  let staleOK := caching && server.config.metadataServeStale
  let offlineThenUpstream (server : Server) : Option Response × Server :=
    if staleOK && answers.offline then
      match serveIfCached env answers request isIndex true server with
      | (some response, server) => (some response, server)
      | (none, server) => serveFromUpstream env answers request isIndex caching staleOK server
    else
      serveFromUpstream env answers request isIndex caching staleOK server
  if caching then
    match isImmutableMetadataURL env.lib request.url with
    | .error _ => (none, server)
    | .ok false => offlineThenUpstream server
    | .ok true =>
      match serveIfCached env answers request isIndex false server with
      | (some response, server) => (some response, server)
      | (none, server) => offlineThenUpstream server
  else
    offlineThenUpstream server

/-- Answer a request for a Release file: what was verified for its base is dropped. -/
def handleReleaseRequest (request : Request)
    (server : Server) : Option Response × Server :=
  let base := verificationBaseURL request.url
  let invalidated :=
    if verificationEnabled server.config ∧ base ≠ [] then
      { server with releaseStore := server.releaseStore.delete base }
    else server
  serveMetadata env answers request false invalidated

/-- Answer a metadata request by its kind; packages are served elsewhere. -/
def handleRequest (request : Request)
    (server : Server) : Option Response × Server :=
  match classifyRequest env.lib request.url with
  | .package => (none, server)
  | .index => serveMetadata env answers request true server
  | .release => handleReleaseRequest env answers request server
  | .unknown => serveMetadata env answers request false server

/-! ## Warming the package index -/

/-- Load one cached index if it is not loaded yet. -/
def warmFrom (server : Server) (url : Str) : Server :=
  if !isVerifiableIndexURL env.lib url || hasIndexFile server.index url then
    server
  else
    match readCachedMetadataBody answers url server with
    | (none, server) => server
    | (some data, server) =>
      match checkIndexVerification env answers url data server with
      | ((false, _), server) => server
      | ((true, _), server) => loadIndexInto env url data server

/-- Load all cached indices, once in the life of the process. -/
def warmIndexFromCacheOnce (server : Server) : Server :=
  if server.indexWarmed then
    server
  else
    let warming := { server with indexWarmed := true }
    if metadataEnabled server.metadata then
      (listMetadataURLs server.metadata).foldl (warmFrom env answers) warming
    else
      warming

/-! ## Runs -/

/-- A request, a package request that misses the index, or a restart with other settings. -/
inductive Event
  | request (request : Request) (answers : Answers)
  | warmIndex (answers : Answers)
  | restart (config : Config)

/-- One event.  A restart keeps the records of what was received and loaded. -/
def next (server : Server) : Event → Server
  | .request request answers => (handleRequest env answers request server).2
  | .warmIndex answers => warmIndexFromCacheOnce env answers server
  | .restart config =>
    { Server.start config
        (Metadata.State.opened server.metadata.metadataMaxSize server.metadata.indices
          server.metadata.files) with
      received := server.received
      loads := server.loads }

end Debswarm.Proxy
