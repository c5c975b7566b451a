import Debswarm.Packages.Integrity

/-!
# Delivery of the right package

When the entry of a request has the hash of the bytes that the mirror has for its URL, the
client receives these bytes: whichever way delivers first has verified them, and the mirror is
the last way.  When it has another hash, the client never receives them.
-/

namespace Debswarm.Packages

open Cache (ContentAddressed)
open Cache Text

/-- The mirror always sends the same bytes, the process survives, and files can be read back. -/
structure Calm (lib : Libraries) (config : Downloader.Config) (sources : Sources)
    (server : Server) (content : Str) : Prop where
  stream : sources.stream = .ok content
  refetch : sources.refetch = .ok content
  survives : ∀ entry : Entry,
    (Downloader.download lib config entry.hash sources.mirrorURL entry.size
      (sources.providers.map Provider.id) sources.attempt sources.race
      (server.downloads entry.hash)).1 ≠ .error .interrupted
  recorded : sources.assembly.faults.record = false
  readable : sources.assembly.unreadable = false

/-- No other bytes have the hash of these. -/
def Unmistakable (lib : Libraries) (content : Str) : Prop :=
  ∀ other, lib.sha256 other = lib.sha256 content → other = content

variable {lib : Libraries} {config : Downloader.Config} {sources : Sources} {entry : Entry}
  {server : Server} {content : Str}

/-! ## The download -/

/-- A response with status 200 and given bytes. -/
def Response.Brings (content : Str) (response : Response) : Prop :=
  response.status = 200 ∧ response.body = content

/-- A download whose result brings the bytes to the client. -/
def Delivers (content : Str) (ended : Except Stop PackageResult × Server) : Prop :=
  ∃ result, ended.1 = .ok result ∧ (servePackageResult result ended.2.cache).1.Brings content

section

variable (matching : entry.hash = lib.sha256 content)
  (addressed : ContentAddressed lib server.cache)

include matching addressed

theorem succeeds_fetchMirror (stream : sources.stream = .ok content)
    (refetch : sources.refetch = .ok content) :
    Succeeds lib sources entry (fetchMirror lib sources entry server) := by
  refine ⟨safe_fetchMirror addressed, ?_⟩
  have noPanic := put_ne_panic addressed sources.streamPut.faults
    sources.streamPut.pendingPath content entry.path entry.length_hash
  have mismatch := @hashMismatch_of_put lib server.cache sources.streamPut.faults
    sources.streamPut.pendingPath content entry.hash entry.path
  unfold fetchMirror
  rw [stream]
  dsimp only
  split
  all_goals
    rename_i putEq
    rw [putEq] at noPanic mismatch
  · exact ⟨_, rfl⟩
  · exact absurd rfl (noPanic _)
  · exact absurd matching.symm (mismatch rfl)
  · rw [refetchMirror, refetch]
    exact ⟨_, if_neg (not_not.mpr matching.symm)⟩

theorem succeeds_downloadPackage (calm : Calm lib config sources server content) :
    Succeeds lib sources entry (downloadPackage lib config sources entry server) :=
  downloadPackage_rule addressed (fun _ succeeds => succeeds)
    (fun interrupted => absurd interrupted (calm.survives entry))
    fun _ addressed => succeeds_fetchMirror matching addressed calm.stream calm.refetch

/-- A download for the hash of the bytes that the mirror has delivers these bytes. -/
theorem delivers_downloadPackage (unmistakable : Unmistakable lib content)
    (calm : Calm lib config sources server content) :
    Delivers content (downloadPackage lib config sources entry server) := by
  have succeeds := succeeds_downloadPackage matching addressed calm
  obtain ⟨result, done⟩ := succeeds.done
  have genuine := succeeds.genuine result done
  refine ⟨result, done, ?_⟩
  unfold servePackageResult
  split
  · rename_i fromCache
    obtain ⟨found, row, isFound⟩ := exists_of_readable
      (genuine.stored calm.recorded calm.readable fromCache)
    have verified := sha256_eq_of_get succeeds.addressed isFound
    rw [genuine.hash]
    generalize get entry.hash _ = got at isFound
    obtain ⟨_, after⟩ := got
    cases isFound
    exact ⟨rfl, unmistakable found (verified.trans matching)⟩
  · rename_i inMemory
    have verified := genuine.verified (Bool.eq_false_iff.mpr inMemory)
    exact ⟨rfl, unmistakable result.data (verified.trans matching)⟩

end

/-! ## The response -/

def BringsReply (content : Str) (reply : Option Reply) : Prop :=
  ∃ answer, reply = some answer ∧ answer.response.Brings content

theorem serveFromCache_cache (hash : Str) (cache : Cache.State) :
    ∃ activeReaders pendingAccess,
      (serveFromCache hash cache).2 = { cache with activeReaders, pendingAccess } := by
  obtain ⟨activeReaders, pendingAccess, read⟩ := get_eq hash cache
  unfold serveFromCache
  split
  · split
    all_goals
      rename_i getEq
      rw [getEq] at read
      cases read
      exact ⟨_, _, rfl⟩
  · exact ⟨_, _, rfl⟩

theorem sha256_eq_of_serveFromCache {cache : Cache.State} (addressed : ContentAddressed lib cache)
    {hash : Str} {reply : Reply} (served : (serveFromCache hash cache).1 = some reply) :
    reply.response.status = 200 ∧ lib.sha256 reply.response.body = hash := by
  have verified := @sha256_eq_of_get lib cache addressed hash
  unfold serveFromCache at served
  split at served
  · split at served
    · cases served
    · rename_i getEq
      rw [getEq] at verified
      cases served
      exact ⟨rfl, verified rfl⟩
  · cases served

theorem contentAddressed_serveFromCache {cache : Cache.State}
    (addressed : ContentAddressed lib cache) (hash : Str) :
    ContentAddressed lib (serveFromCache hash cache).2 := by
  obtain ⟨_, _, read⟩ := serveFromCache_cache hash cache
  rw [read]
  exact { addressed with }

theorem sha256_eq_of_servePackage (addressed : ContentAddressed lib server.cache)
    (config : Downloader.Config) (offline : Bool) (sources : Sources) :
    ∀ reply ∈ (servePackage lib config offline sources entry server).1,
      reply.response.status = 200 → lib.sha256 reply.response.body = entry.hash := by
  have fromCache := @sha256_eq_of_serveFromCache lib server.cache addressed entry.hash
  have kept := contentAddressed_serveFromCache addressed entry.hash
  unfold servePackage
  rcases cacheEq : serveFromCache entry.hash server.cache with ⟨_ | cached, cache⟩
  · rw [cacheEq] at kept
    dsimp only
    split
    · rintro reply ⟨rfl⟩ isOk
      cases isOk
    · have safe := @safe_downloadPackage lib entry { server with cache } kept config sources
      unfold serveDownload
      split
      · rename_i result after downloadEq
        rw [downloadEq] at safe
        rintro reply ⟨rfl⟩ isOk
        exact sha256_eq_of_status (safe.genuine result rfl) safe.addressed isOk
      · rintro reply ⟨rfl⟩ isOk
        cases isOk
      · nofun
  · rw [cacheEq] at fromCache
    rintro reply ⟨rfl⟩ _
    exact (fromCache rfl).2

theorem bringsReply_servePackage (unmistakable : Unmistakable lib content)
    (matching : entry.hash = lib.sha256 content) (addressed : ContentAddressed lib server.cache)
    (calm : Calm lib config sources server content) :
    BringsReply content (servePackage lib config false sources entry server).1 := by
  have fromCache := @sha256_eq_of_serveFromCache lib server.cache addressed entry.hash
  have kept := contentAddressed_serveFromCache addressed entry.hash
  unfold servePackage
  rcases cacheEq : serveFromCache entry.hash server.cache with ⟨_ | cached, cache⟩
  · rw [cacheEq] at kept
    have stillCalm : Calm lib config sources { server with cache } content := { calm with }
    obtain ⟨result, done, brings⟩ :=
      @delivers_downloadPackage lib config sources entry { server with cache } content matching
        kept unmistakable stillCalm
    dsimp only
    rw [if_neg Bool.false_ne_true, serveDownload]
    rcases downloadEq : downloadPackage lib config sources entry { server with cache } with
      ⟨_, after⟩
    rw [downloadEq] at done brings
    cases done
    exact ⟨_, rfl, brings⟩
  · rw [cacheEq] at fromCache
    obtain ⟨isOk, hash⟩ := fromCache rfl
    exact ⟨cached, rfl, isOk, unmistakable _ (hash.trans matching)⟩

/-- A package with an entry is answered with the mirror's bytes iff the entry has their hash. -/
theorem bringsReply_servePackage_iff (unmistakable : Unmistakable lib content)
    (addressed : ContentAddressed lib server.cache)
    (calm : Calm lib config sources server content) :
    BringsReply content (servePackage lib config false sources entry server).1 ↔
      entry.hash = lib.sha256 content := by
  constructor
  · intro brings
    by_contra different
    obtain ⟨answer, isReply, isOk, isBody⟩ := brings
    have hash := sha256_eq_of_servePackage addressed config false sources answer isReply isOk
    rw [isBody] at hash
    exact different hash.symm
  · intro matching
    exact bringsReply_servePackage unmistakable matching addressed calm

end Debswarm.Packages
