import Debswarm.Cache.Handover
import Debswarm.Packages.Ways

/-!
# Integrity of served packages

Over a content-addressed store, every way to a package ends with bytes that hash to the
index entry, or with a promise to serve them from the store.  The store stays content
addressed, so whatever a client receives hashes to the entry.
-/

namespace Debswarm.Packages

open Cache (ContentAddressed Readable)
open Cache Text Transition
open Downloader (DownloadResult SourceType)

variable {lib : Libraries} {config : Downloader.Config} {sources : Sources} {entry : Entry}
  {server : Server} {cache : Cache.State}

/-- The bytes are accepted exactly when they have the hash, whatever the cache makes of
them. -/
theorem verifyAndCache_ok_iff (addressed : ContentAddressed lib cache) (call : PutCall)
    (data path : Str) {hash : Str} (digest : hash.length = 64) :
    (verifyAndCache lib call data hash path cache).1 = .ok () ↔ lib.sha256 data = hash := by
  by_cases same : lib.sha256 data = hash
  · have noPanic := put_ne_panic addressed call.faults call.pendingPath data path digest
    rw [verifyAndCache_accepted call path same cache]
    split
    · rename_i fault left putEq
      rw [putEq] at noPanic
      exact absurd rfl (noPanic fault)
    · exact iff_of_true rfl same
  · obtain ⟨reason, refused⟩ := verifyAndCache_refused call path same cache
    rw [refused]
    exact iff_of_false nofun same

/-! ## Results -/

/-- The bytes of a result hash to the entry or come from the store under its hash, and are in the
store unless an assembly file cannot be recorded or read back. -/
structure Genuine (lib : Libraries) (sources : Sources) (entry : Entry) (cache : Cache.State)
    (result : PackageResult) : Prop where
  hash : result.hash = entry.hash
  verified : result.serveFromCache = false → lib.sha256 result.data = entry.hash
  stored : sources.assembly.faults.record = false → sources.assembly.unreadable = false →
    result.serveFromCache = true → Readable entry.hash cache

/-- A way ends safely if its result is genuine and the store is left content
addressed. -/
structure Safe (lib : Libraries) (sources : Sources) (entry : Entry)
    (ended : Except Stop PackageResult × Server) : Prop where
  genuine : ∀ result, ended.1 = .ok result → Genuine lib sources entry ended.2.cache result
  addressed : ContentAddressed lib ended.2.cache

/-- A way that ends safely with a result. -/
structure Succeeds (lib : Libraries) (sources : Sources) (entry : Entry)
    (ended : Except Stop PackageResult × Server) : Prop
    extends Safe lib sources entry ended where
  done : ∃ result, ended.1 = .ok result

theorem genuine_fromMemory {data : Str} (verified : lib.sha256 data = entry.hash) (size : Nat)
    (source : SourceType) : Genuine lib sources entry cache (fromMemory entry data size source) :=
  ⟨rfl, fun _ => verified, nofun⟩

theorem genuine_fromCache (stored : sources.assembly.faults.record = false →
    sources.assembly.unreadable = false → Readable entry.hash cache) (size : Nat)
    (source : SourceType) : Genuine lib sources entry cache (fromCache entry size source) :=
  ⟨rfl, nofun, fun recorded readable _ => stored recorded readable⟩

theorem Safe.error (addressed : ContentAddressed lib server.cache) (stop : Stop) :
    Safe lib sources entry (.error stop, server) :=
  ⟨nofun, addressed⟩

theorem Succeeds.ok (addressed : ContentAddressed lib server.cache) {result : PackageResult}
    (genuine : Genuine lib sources entry server.cache result) :
    Succeeds lib sources entry (.ok result, server) where
  genuine := by
    rintro _ ⟨⟩
    exact genuine
  addressed := addressed
  done := ⟨result, rfl⟩

/-! ## The ways -/

section

variable (addressed : ContentAddressed lib server.cache)

include addressed

theorem succeeds_deliver (call : PutCall) {data : Str} (verified : lib.sha256 data = entry.hash)
    (source : SourceType) :
    Succeeds lib sources entry (deliver lib call data source entry server) := by
  have stored := contentAddressed_put addressed call.faults call.pendingPath data entry.path
    entry.length_hash
  rw [deliver_eq addressed]
  exact Succeeds.ok stored (genuine_fromMemory verified 0 source)

/-- A verified assembly file is stored, or read back as it was. -/
theorem succeeds_takeAssembly {content : Str} (verified : lib.sha256 content = entry.hash)
    (size : Nat) (source : SourceType) :
    Succeeds lib sources entry
      (takeAssembly lib sources.assembly content size source entry server) := by
  have handed : ContentAddressed lib
      (writeOutside sources.assembly.path content server.cache) :=
    { addressed with }
  have written := writeOutside_outside_self sources.assembly.path content server.cache
  have isContent : ∀ data, (writeOutside sources.assembly.path content
      server.cache).outside sources.assembly.path = some data → lib.sha256 data = entry.hash := by
    intro data found
    rw [written, Option.some.injEq] at found
    rwa [← found]
  have stored := contentAddressed_commitVerifiedFile handed sources.assembly.faults
    entry.path size entry.length_hash isContent
  have noPanic := commitVerifiedFile_ne_panic handed sources.assembly.faults
    sources.assembly.path entry.path size entry.length_hash
  obtain ⟨fault, panics, -⟩ | ⟨result, outside, left, isResult, cases⟩ :=
    takeAssembly_cases lib sources.assembly content size source entry server
  · exact absurd panics (noPanic fault)
  · rw [isResult]
    apply Succeeds.ok { stored with }
    rcases cases with ⟨rfl, isStored⟩ | ⟨data, read, rfl⟩
    · refine genuine_fromCache (fun recorded readable => ?_) size source
      rcases outcome : (commitVerifiedFile lib sources.assembly.faults sources.assembly.path
        entry.hash entry.path size
        (writeOutside sources.assembly.path content server.cache)).1 with _ | reason | fault
      · exact readable_of_commitVerifiedFile outcome
      · -- a store that fails without a record leaves the file, which is then read back
        rcases isStored with ok | unreadable | gone
        · rw [outcome] at ok
          cases ok
        · rw [readable] at unreadable
          cases unreadable
        · rcases commitVerifiedFile_error_cases outcome with
            ⟨unmoved, -⟩ | ⟨-, -, records, -⟩
          · rw [unmoved, ensureSpace_outside, written] at gone
            cases gone
          · rw [recorded] at records
            cases records
      · exact absurd outcome (noPanic fault)
    · apply genuine_fromMemory
      rcases commitVerifiedFile_outside lib sources.assembly.faults sources.assembly.path
        entry.hash entry.path size
        (writeOutside sources.assembly.path content server.cache) with same | consumed
      · exact isContent data (same.symm.trans read)
      · rw [consumed] at read
        cases read

theorem succeeds_processDownloadSuccess {result : DownloadResult}
    (verified : lib.sha256 result.payload.bytes = entry.hash) :
    Succeeds lib sources entry (processDownloadSuccess lib sources result entry server) := by
  unfold processDownloadSuccess
  split
  · rename_i payloadEq
    rw [payloadEq] at verified
    exact succeeds_takeAssembly addressed verified result.size result.source
  · rename_i data payloadEq
    rw [payloadEq] at verified
    exact succeeds_deliver addressed sources.racePut verified result.source

theorem safe_fetchMirror : Safe lib sources entry (fetchMirror lib sources entry server) := by
  unfold fetchMirror
  split
  · exact Safe.error addressed _
  · rename_i body _
    have stored := contentAddressed_put addressed sources.streamPut.faults
      sources.streamPut.pendingPath body entry.path entry.length_hash
    have readable := @readable_of_put lib server.cache sources.streamPut.faults
      sources.streamPut.pendingPath body entry.hash entry.path
    split
    all_goals
      rename_i putEq
      rw [putEq] at stored readable
    · exact (Succeeds.ok stored (genuine_fromCache (fun _ _ => readable rfl) _ _)).toSafe
    · exact Safe.error stored _
    · exact Safe.error stored _
    · unfold refetchMirror
      split
      · exact Safe.error stored _
      · split
        · exact Safe.error stored _
        · rename_i same
          exact (Succeeds.ok stored (genuine_fromMemory (not_not.mp same) 0 .mirror)).toSafe

/-- A download ends with the peers or the parallel downloader, the process, or the mirror. -/
theorem downloadPackage_rule {property : Except Stop PackageResult × Server → Prop}
    (succeeds : ∀ ended, Succeeds lib sources entry ended → property ended)
    (dies : (Downloader.download lib config entry.hash sources.mirrorURL entry.size
        (sources.providers.map Provider.id) sources.attempt sources.race
        (server.downloads entry.hash)).1 = .error .interrupted →
      ∀ left : Server, ContentAddressed lib left.cache → property (.error .died, left))
    (mirror : ∀ left : Server, ContentAddressed lib left.cache →
      property (fetchMirror lib sources entry left)) :
    property (downloadPackage lib config sources entry server) := by
  obtain ⟨_, -, -, asked⟩ := asked_tryFleet lib sources entry server
  refine asked.orElse (fun call data blacklist verified => ?_) fun blacklist => ?_
  · refine succeeds _ (succeeds_deliver ?_ call verified .peer)
    exact addressed
  refine orElse_tryDownloader (fun result downloads blacklist verified => ?_)
    (fun interrupted downloads blacklist => dies interrupted _ addressed)
    fun downloads blacklist => ?_
  · refine succeeds _ (succeeds_processDownloadSuccess ?_ verified)
    exact addressed
  refine (asked_tryPeers lib entry _ _).orElse (fun call data blacklist verified => ?_)
    fun blacklist => mirror _ addressed
  refine succeeds _ (succeeds_deliver ?_ call verified .peer)
  exact addressed

end

/-- Every download that succeeds is genuine, and it leaves the store content
addressed. -/
theorem safe_downloadPackage (entry : Entry) {server : Server}
    (addressed : ContentAddressed lib server.cache) (config : Downloader.Config)
    (sources : Sources) :
    Safe lib sources entry (downloadPackage lib config sources entry server) :=
  downloadPackage_rule addressed (fun _ succeeds => succeeds.toSafe)
    (fun _ _ addressed => Safe.error addressed .died) fun _ addressed => safe_fetchMirror addressed

/-! ## The response -/

/-- What a genuine result puts on the connection with status 200 hashes to the entry. -/
theorem sha256_eq_of_status {before : Cache.State} {result : PackageResult}
    (genuine : Genuine lib sources entry before result) (addressed : ContentAddressed lib cache)
    (isOk : (servePackageResult result cache).1.status = 200) :
    lib.sha256 (servePackageResult result cache).1.body = entry.hash := by
  unfold servePackageResult at isOk ⊢
  split
  · rename_i served
    rw [if_pos served] at isOk
    split
    · rename_i getEq
      rw [getEq] at isOk
      cases isOk
    · rename_i getEq
      have verified := sha256_eq_of_get addressed (congrArg Prod.fst getEq)
      rwa [genuine.hash] at verified
  · rename_i inMemory
    exact genuine.verified (Bool.eq_false_iff.mpr inMemory)

/-- Whatever the sources and disks do, the store stays content addressed, a complete response hashes
to the entry, and `verifyAndCache` accepts exactly what hashes to it. -/
theorem completed_response_hashes_to_entry (lib : Libraries) (config : Downloader.Config)
    (sources : Sources) (entry : Entry) (server : Server)
    (addressed : ContentAddressed lib server.cache) :
    let ended := downloadPackage lib config sources entry server
    (∀ result others, ended.1 = .ok result →
      StepsMeet (next lib) (Cache.HandsOverVerified lib) ended.2.cache others →
      let response := (servePackageResult result (run (next lib) ended.2.cache others)).1
      response.Completes → lib.sha256 response.body = entry.hash) ∧
    ContentAddressed lib ended.2.cache ∧
    ∀ call data path, (verifyAndCache lib call data entry.hash path server.cache).1 = .ok () ↔
      lib.sha256 data = entry.hash := by
  have safe := safe_downloadPackage entry addressed config sources
  refine ⟨?_, safe.addressed, ?_⟩
  · intro result others done verified response completes
    exact sha256_eq_of_status (safe.genuine result done)
      (contentAddressed_run safe.addressed others verified) completes.1
  · intro call data path
    exact verifyAndCache_ok_iff addressed call data path entry.length_hash

def twoBytePackage : Entry :=
  ⟨hexEncode64 [1, 2], 2, ofAscii "pool/p_1_all.deb", by decide⟩

/-- A server without packages. -/
def emptyServer : Server :=
  ⟨Cache.State.opened 0 100 0 Table.empty (fun _ => none) (fun _ => none),
    fun _ => Downloader.State.new, []⟩

/-- Two peers that send wrong bytes, and a mirror that fails in the race and then streams. -/
def corruptPeers : Sources :=
  let call : PutCall := ⟨{}, ofAscii "pending/1"⟩
  { fleet := some (.fetchLAN (ofAscii "f"))
    fleetReply := .data [1]
    fleetPut := call
    providers := [⟨ofAscii "p", some [2], call⟩]
    mirrorURL := ofAscii "http://m/p.deb"
    attempt := ⟨.none, [], .mixed⟩
    race := [⟨.peer (ofAscii "p"), .ok [2]⟩, ⟨.mirror, .error (ofAscii "timeout")⟩]
    racePut := call
    assembly := ⟨ofAscii "partial/assembled", {}, false, false⟩
    stream := .ok [1, 2]
    streamPut := call
    refetch := .error (ofAscii "timeout") }

/-- The corrupt peers are blacklisted and the client receives what the mirror streamed. -/
theorem completed_response_after_corrupt_peers :
    let lib : Libraries := ⟨hexEncode64, id⟩
    let ended := downloadPackage lib ⟨4, 16⟩ corruptPeers twoBytePackage emptyServer
    let result := fromCache twoBytePackage 2 .mirror
    let response := (servePackageResult result ended.2.cache).1
    ended.1 = .ok result ∧ ended.2.blacklist = [ofAscii "p", ofAscii "p", ofAscii "f"] ∧
      response.Completes ∧ lib.sha256 response.body = twoBytePackage.hash := by
  have addressed : ContentAddressed ⟨hexEncode64, id⟩ emptyServer.cache :=
    ⟨fun _ _ found => (nomatch found), fun _ _ found => (nomatch found)⟩
  have done : (downloadPackage ⟨hexEncode64, id⟩ ⟨4, 16⟩ corruptPeers twoBytePackage
      emptyServer).1 = .ok (fromCache twoBytePackage 2 .mirror) := by
    decide +kernel
  have completes : (servePackageResult (fromCache twoBytePackage 2 .mirror)
      (downloadPackage ⟨hexEncode64, id⟩ ⟨4, 16⟩ corruptPeers twoBytePackage
        emptyServer).2.cache).1.Completes := by
    constructor <;> decide +kernel
  exact ⟨done, by decide +kernel, completes,
    (completed_response_hashes_to_entry _ _ _ _ _ addressed).1 _ [] done trivial completes⟩

end Debswarm.Packages
