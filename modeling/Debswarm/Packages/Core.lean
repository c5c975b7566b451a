import Debswarm.Cache.Core
import Debswarm.Downloader.Fetch
import Debswarm.PackageIndex.Lookup
import Debswarm.Proxy.Core

/-!
# Serving packages

A package that the index knows is looked for in turn at a fleet peer, with the parallel
downloader, at single peers and at the mirror.  Each way has its own place for comparing
hashes, and its own answer to a cache that cannot store the package: the bytes are then
served from memory.

`Sources` says how every peer, the mirror and every disk step of one request behaves.
Statistics, audit events, announcements and the notices to the fleet are left out.
-/

namespace Debswarm.Packages

open Downloader (Answer ChunkedAttempt DownloadResult Payload SourceType)
open Cache Downloader Function PackageIndex Text

/-- An index entry as the package handler accepts it, with a hash of 64 hexadecimal
digits. -/
structure Entry where
  hash : Str
  size : Int
  path : Str
  hexadecimal : PackageIndex.isHex64 hash = true

/-- The entry for a package of the index, unless its hash is malformed. -/
def Entry.ofInfo (info : PackageIndex.PackageInfo) : Option Entry :=
  if valid : PackageIndex.isHex64 info.sha256 = true then
    some ⟨info.sha256, info.size, info.filename, valid⟩
  else none

@[simp]
theorem Entry.length_hash (entry : Entry) : entry.hash.length = 64 := by
  have valid := entry.hexadecimal
  rw [PackageIndex.isHex64, Bool.and_eq_true, decide_eq_true_eq] at valid
  exact valid.1

/-! ## What surrounds a request -/

/-- What the server keeps of packages: cache, downloads in chunks, and blacklisted peers. -/
structure Server where
  cache : Cache.State
  downloads : Str → Downloader.State
  blacklist : List Str

/-- How one put behaves: what fails, and the name of its fresh pending file. -/
structure PutCall where
  faults : Cache.Faults
  pendingPath : Str

/-- What a fleet peer answers. -/
inductive FleetReply
  | noAddresses
  | failed (cause : Str)
  | data (bytes : Str)
  deriving DecidableEq, Repr

/-- Fetch from a peer that has the package, wait for one that fetches it, or fetch it ourselves. -/
inductive FleetAction
  | fetchLAN (provider : Str)
  | waitPeer (provider : Str) (done : Bool)
  | fetchWAN
  deriving DecidableEq, Repr

/-- A peer from the provider lookup, with its answer and the put that follows. -/
structure Provider where
  id : Str
  full : Option Str
  put : PutCall

/-- The path of the assembly file, and what fails in storing and reading it back. -/
structure Assembly where
  path : Str
  faults : Cache.Faults
  unreadable : Bool
  removeFails : Bool

/-- The behaviour of everything around one request. Without an answer `fleet` is `none`. -/
structure Sources where
  fleet : Option FleetAction
  fleetReply : FleetReply
  fleetPut : PutCall
  providers : List Provider
  mirrorURL : Str
  attempt : ChunkedAttempt
  race : List Answer
  racePut : PutCall
  assembly : Assembly
  stream : Except Str Str
  streamPut : PutCall
  refetch : Except Str Str

variable (lib : Libraries) (config : Downloader.Config) (sources : Sources) (entry : Entry)

/-- Why a source gives no package. -/
inductive FetchError
  | hashMismatch (expected : Str) (got : Option Str)
  | noAddresses (provider : Str)
  | fleetDownload (cause : Str)
  | fleetMismatch
  | mirrorFetch (cause : Str)
  | mirrorMismatch (expected : Str)
  deriving DecidableEq, Repr

/-- How a request ends without a result: with an error, a panic, or the process. -/
inductive Stop
  | failed (reason : FetchError)
  | panic (fault : Panic)
  | died
  deriving DecidableEq, Repr

/-- The result of a download.  A result that is served from the cache has no data. -/
structure PackageResult where
  data : Str
  hash : Str
  size : Nat
  source : SourceType
  contentType : Str
  serveFromCache : Bool
  deriving DecidableEq, Repr

def debContentType : Str :=
  ofAscii "application/vnd.debian.binary-package"

/-- A result that is served from memory. -/
def fromMemory (data : Str) (size : Nat) (source : SourceType) :
    PackageResult :=
  ⟨data, entry.hash, size, source, debContentType, false⟩

/-- A result that is served from the cache. -/
def fromCache (size : Nat) (source : SourceType) : PackageResult :=
  ⟨[], entry.hash, size, source, debContentType, true⟩

/-! ## The ways to a package -/

/-- Verify data and store it, or verify it directly when the cache cannot store it. -/
def verifyAndCache (call : PutCall) (data hash path : Str)
    (cache : Cache.State) : Except Stop Unit × Cache.State :=
  match put lib call.faults call.pendingPath data hash path cache with
  | (.ok, stored) => (.ok (), stored)
  | (.panic fault, left) => (.error (.panic fault), left)
  | (.error (.hashMismatch expected got), left) =>
    (.error (.failed (.hashMismatch expected (some got))), left)
  | (.error _, left) =>
    if lib.sha256 data ≠ hash then (.error (.failed (.hashMismatch hash none)), left)
    else (.ok (), left)

/-- Download from a fleet peer; one that serves corrupt data is blacklisted. -/
def downloadFromFleetPeer (provider : Str)
    (entry : Entry) (server : Server) : Except Stop Str × Server :=
  match sources.fleetReply with
  | .noAddresses => (.error (.failed (.noAddresses provider)), server)
  | .failed cause => (.error (.failed (.fleetDownload cause)), server)
  | .data data =>
    match verifyAndCache lib sources.fleetPut data entry.hash entry.path server.cache with
    | (.ok _, cache) => (.ok data, { server with cache })
    | (.error (.failed _), cache) =>
      (.error (.failed .fleetMismatch),
        { server with cache, blacklist := provider :: server.blacklist })
    | (.error stop, cache) => (.error stop, { server with cache })

/-- Whom the fleet sends us to, if to anybody. -/
def fleetProvider : Option FleetAction → Option Str
  | some (.fetchLAN provider) => some provider
  | some (.waitPeer provider true) => some provider
  | _ => none

/-- Try the fleet.  There is no outcome when the request goes on to the other ways. -/
def tryFleet (server : Server) :
    Option (Except Stop PackageResult) × Server :=
  match fleetProvider sources.fleet with
  | none => (none, server)
  | some provider =>
    match downloadFromFleetPeer lib sources provider entry server with
    | (.ok data, after) => (some (.ok (fromMemory entry data 0 .peer)), after)
    | (.error (.failed _), after) => (none, after)
    | (.error stop, after) => (some (.error stop), after)

/-- Store the assembly file and serve it from the cache, or from memory if that fails. -/
def takeAssembly (assembly : Assembly) (content : Str) (size : Nat)
    (source : SourceType) (entry : Entry) (server : Server) :
    Except Stop PackageResult × Server :=
  let settle (cache : Cache.State) : Server :=
    let cleaned :=
      if assembly.removeFails then cache else removeOutside assembly.path cache
    { server with
      cache := cleaned
      downloads := update server.downloads entry.hash
        (next lib entry.hash (server.downloads entry.hash)
          (.takeFile (cleaned.outside assembly.path).isSome)) }
  match putFile lib assembly.faults assembly.path entry.hash entry.path size
      (writeOutside assembly.path content server.cache) with
  | (.ok, cache) => (.ok (fromCache entry size source), settle cache)
  | (.panic fault, cache) => (.error (.panic fault), { server with cache })
  | (.error _, cache) =>
    match if assembly.unreadable then none else cache.outside assembly.path with
    | some data => (.ok (fromMemory entry data size source), settle cache)
    | none => (.ok (fromCache entry size source), settle cache)

/-- Store what the parallel downloader delivered. -/
def processDownloadSuccess (result : DownloadResult)
    (entry : Entry) (server : Server) : Except Stop PackageResult × Server :=
  match result.payload with
  | .file content =>
    takeAssembly lib sources.assembly content result.size result.source entry server
  | .memory data =>
    match put lib sources.racePut.faults sources.racePut.pendingPath data entry.hash
        entry.path server.cache with
    | (.panic fault, cache) => (.error (.panic fault), { server with cache })
    | (_, cache) => (.ok (fromMemory entry data 0 result.source), { server with cache })

/-- Try the parallel downloader, if the size is known and there are peers. -/
def tryDownloader (server : Server) : Option (Except Stop PackageResult) × Server :=
  if 0 < entry.size ∧ 0 < sources.providers.length then
    let (result, blacklisted, ended) :=
      download lib config entry.hash sources.mirrorURL entry.size
        (sources.providers.map Provider.id) sources.attempt sources.race
        (server.downloads entry.hash)
    let after :=
      { server with
        downloads := update server.downloads entry.hash ended
        blacklist := blacklisted ++ server.blacklist }
    match result with
    | .ok result =>
      let (outcome, done) := processDownloadSuccess lib sources result entry after
      (some outcome, done)
    | .error .interrupted => (some (.error .died), after)
    | .error _ => (none, after)
  else (none, server)

/-- Ask peers one by one for the whole package. -/
def tryPeers (lib : Libraries) (entry : Entry) :
    List Provider → Server → Option (Except Stop PackageResult) × Server
  | [], server => (none, server)
  | provider :: rest, server =>
    match provider.full with
    | none => tryPeers lib entry rest server
    | some data =>
      match verifyAndCache lib provider.put data entry.hash entry.path server.cache with
      | (.ok _, cache) => (some (.ok (fromMemory entry data 0 .peer)), { server with cache })
      | (.error (.failed _), cache) =>
        tryPeers lib entry rest
          { server with cache, blacklist := provider.id :: server.blacklist }
      | (.error stop, cache) => (some (.error stop), { server with cache })

/-- Fetch again into memory what could not be stored. -/
def refetchMirror :
    Except Stop PackageResult :=
  match sources.refetch with
  | .error cause => .error (.failed (.mirrorFetch cause))
  | .ok data =>
    if lib.sha256 data ≠ entry.hash then .error (.failed (.mirrorMismatch entry.hash))
    else .ok (fromMemory entry data 0 .mirror)

/-- Stream the package from the mirror into the cache. -/
def fetchMirror (server : Server) :
    Except Stop PackageResult × Server :=
  match sources.stream with
  | .error cause => (.error (.failed (.mirrorFetch cause)), server)
  | .ok body =>
    match put lib sources.streamPut.faults sources.streamPut.pendingPath body entry.hash
        entry.path server.cache with
    | (.ok, cache) => (.ok (fromCache entry body.length .mirror), { server with cache })
    | (.panic fault, cache) => (.error (.panic fault), { server with cache })
    | (.error (.hashMismatch expected _), cache) =>
      (.error (.failed (.mirrorMismatch expected)), { server with cache })
    | (.error _, cache) => (refetchMirror lib sources entry, { server with cache })

/-- Go on to the next way when one had no outcome. -/
def orElse (tried : Option (Except Stop PackageResult) × Server)
    (other : Server → Except Stop PackageResult × Server) : Except Stop PackageResult × Server :=
  match tried with
  | (some outcome, after) => (outcome, after)
  | (none, after) => other after

/-- Download a package: from the fleet, the parallel downloader, three peers, or the mirror. -/
def downloadPackage (server : Server) : Except Stop PackageResult × Server :=
  orElse (tryFleet lib sources entry server) fun server =>
    orElse (tryDownloader lib config sources entry server) fun server =>
      orElse (tryPeers lib entry (sources.providers.take 3) server) fun server =>
        fetchMirror lib sources entry server

/-! ## The response -/

/-- A response.  `body` is what the handler copies to the connection. -/
structure Response where
  status : Nat
  contentType : Str
  contentLength : Nat
  source : Option SourceType
  body : Str
  deriving DecidableEq, Repr

/-- A response with status 200 whose body has the announced length. -/
def Response.Completes (response : Response) : Prop :=
  response.status = 200 ∧ response.body.length = response.contentLength

/-- Write a result to the client. -/
def servePackageResult (result : PackageResult) (cache : Cache.State) :
    Response × Cache.State :=
  if result.serveFromCache then
    match get result.hash cache with
    | (.error _, after) =>
      (⟨500, ofAscii "text/plain; charset=utf-8", 12, none, ofAscii "Cache error\n"⟩, after)
    | (.ok (content, _), after) =>
      (⟨200, result.contentType, result.size, some result.source, content⟩,
        closeReader result.hash after)
  else
    (⟨200, result.contentType, result.data.length, some result.source, result.data⟩, cache)

/-! ## Answering package requests -/

/-- A node: the proxy with its package index and metadata cache, and the package store. -/
structure Node where
  proxy : Proxy.Server
  packages : Server

/-- The orders in which the two lookups of a request visit the repositories. -/
structure Orders where
  first : List Str
  second : List Str

/-- What the URL parser finds, what happens to the proxy, and the sources of the package. -/
structure Surroundings where
  urlPath : Str → Option Str
  answers : Proxy.Answers
  sources : Sources

/-- A response, and whether it is announced as one from the cache. -/
structure Reply where
  response : Response
  cacheHit : Bool
  deriving DecidableEq, Repr

def errorReply (status : Nat) (text : String) : Reply :=
  let body := ofAscii text ++ ofAscii "\n"
  ⟨⟨status, ofAscii "text/plain; charset=utf-8", body.length, none, body⟩, false⟩

/-- The entry of a URL, unless its hash is malformed. -/
def lookupEntry (urlPath : Str → Option Str) (order : List Str) (index : Index) (url : Str) :
    Option Entry :=
  (getByURLPath urlPath order index url).bind Entry.ofInfo

/-- The entry of a URL, from a warmed package index if need be. -/
def resolveEntry (env : Proxy.Environment) (surroundings : Surroundings) (orders : Orders)
    (url : Str) (proxy : Proxy.Server) : Option Entry × Proxy.Server :=
  match lookupEntry surroundings.urlPath orders.first proxy.index url with
  | some entry => (some entry, proxy)
  | none =>
    let warmed := Proxy.warmIndexFromCacheOnce env surroundings.answers proxy
    (lookupEntry surroundings.urlPath orders.second warmed.index url, warmed)

/-- Pass a package on from the mirror. -/
def streamUncachedPackage : Reply :=
  match sources.stream with
  | .error _ => errorReply 502 "Failed to fetch package"
  | .ok body => ⟨⟨200, debContentType, body.length, some .mirror, body⟩, false⟩

def serveFromCache (hash : Str) (cache : Cache.State) : Option Reply × Cache.State :=
  if has hash cache then
    match get hash cache with
    | (.error _, after) => (none, after)
    | (.ok (content, row), after) =>
      (some ⟨⟨200, debContentType, row.size, none, content⟩, true⟩,
        closeReader hash after)
  else (none, cache)

/-- Download a package and serve it.  There is no reply when the process panics or dies. -/
def serveDownload (server : Server) : Option Reply × Server :=
  match downloadPackage lib config sources entry server with
  | (.ok result, after) =>
    let served := servePackageResult result after.cache
    (some ⟨served.1, false⟩, { after with cache := served.2 })
  | (.error (.failed _), after) => (some (errorReply 502 "Failed to fetch package"), after)
  | (.error _, after) => (none, after)

def servePackage (offline : Bool)
    (sources : Sources) (entry : Entry) (server : Server) : Option Reply × Server :=
  match serveFromCache entry.hash server.cache with
  | (some reply, cache) => (some reply, { server with cache })
  | (none, cache) =>
    if offline then
      (some (errorReply 503 "package not cached and node is offline"), { server with cache })
    else serveDownload lib config sources entry { server with cache }

def handlePackageRequest (env : Proxy.Environment) (config : Downloader.Config)
    (surroundings : Surroundings) (orders : Orders) (url : Str) (node : Node) :
    Option Reply × Node :=
  match resolveEntry env surroundings orders url node.proxy with
  | (none, proxy) => (some (streamUncachedPackage surroundings.sources), { node with proxy })
  | (some entry, proxy) =>
    let served := servePackage env.lib config surroundings.answers.offline
      surroundings.sources entry node.packages
    (served.1, ⟨proxy, served.2⟩)

end Debswarm.Packages
