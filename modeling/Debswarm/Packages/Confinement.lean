import Debswarm.Packages.Announcing

/-!
# What a way to a package touches

Each way to a package brings no other package into the cache, and its own only with bytes that
have its hash.  Only the parallel downloader touches the row of the download, and no way touches
the row of another one.
-/

namespace Debswarm.Packages

open Cache (Readable)
open Downloader (DownloadResult NotFailed SourceType)
open Cache Downloader Function List Text

variable {lib : Libraries} {config : Downloader.Config} {sources : Sources} {entry : Entry}
  {server : Server}

/-! ## The cache -/

/-- What is readable afterwards was readable before, or is the package that was delivered. -/
def Brings (hash : Str) (delivered : Prop) (before after : Cache.State) : Prop :=
  ∀ other, Readable other after → Readable other before ∨ (other = hash ∧ delivered)

theorem Brings.refl (hash : Str) (delivered : Prop) (cache : Cache.State) :
    Brings hash delivered cache cache :=
  fun _ readable => .inl readable

theorem Brings.imp {hash : Str} {delivered other : Prop} {before after : Cache.State}
    (brings : Brings hash delivered before after) (implies : delivered → other) :
    Brings hash other before after :=
  fun hash readable => (brings hash readable).imp_right fun own => ⟨own.1, implies own.2⟩

theorem brings_put (faults : Cache.Faults) (pendingPath data hash path : Str)
    (cache : Cache.State) :
    Brings hash (lib.sha256 data = hash) cache
      (put lib faults pendingPath data hash path cache).2 :=
  fun _ readable => readable_of_put_cases readable

theorem deliver_touches (call : PutCall) (data : Str) (source : SourceType) :
    Brings entry.hash (lib.sha256 data = entry.hash) server.cache
        (deliver lib call data source entry server).2.cache ∧
      (deliver lib call data source entry server).2.downloads = server.downloads := by
  rw [deliver_server]
  exact ⟨brings_put call.faults call.pendingPath data entry.hash entry.path server.cache, rfl⟩

/-- Peers that are asked leave the rows alone and bring the package if one of them sends it. -/
theorem Asked.touches {sent : Option (PutCall × Str)}
    {tried : Option (Except Stop PackageResult) × Server}
    (asked : Asked lib entry server sent tried) :
    Brings entry.hash sent.isSome server.cache tried.2.cache ∧
      tried.2.downloads = server.downloads := by
  obtain ⟨blacklist, ⟨rfl, rfl⟩ | ⟨call, data, rfl, verified, rfl⟩⟩ := asked
  · exact ⟨Brings.refl _ _ _, rfl⟩
  · obtain ⟨brings, rows⟩ := @deliver_touches lib entry { server with blacklist } call data .peer
    exact ⟨brings.imp fun _ => rfl, rows⟩

theorem tryFleet_touches (lib : Libraries) (sources : Sources) (entry : Entry) (server : Server) :
    Brings entry.hash (FleetDelivers lib sources entry) server.cache
        (tryFleet lib sources entry server).2.cache ∧
      (tryFleet lib sources entry server).2.downloads = server.downloads := by
  obtain ⟨sent, delivers, -, asked⟩ := asked_tryFleet lib sources entry server
  exact ⟨asked.touches.1.imp delivers.mp, asked.touches.2⟩

theorem tryPeers_touches (lib : Libraries) (entry : Entry) (providers : List Provider)
    (server : Server) :
    Brings entry.hash (∃ provider ∈ providers, (provider.delivers lib entry).isSome)
        server.cache (tryPeers lib entry providers server).2.cache ∧
      (tryPeers lib entry providers server).2.downloads = server.downloads := by
  obtain ⟨brings, rows⟩ := (asked_tryPeers lib entry providers server).touches
  refine ⟨brings.imp fun sent => ?_, rows⟩
  rwa [firstDelivery, Option.isSome_map, findSome?_isSome_iff] at sent

theorem fetchMirror_touches (lib : Libraries) (sources : Sources) (entry : Entry)
    (server : Server) :
    Brings entry.hash (∃ body, sources.stream = .ok body ∧ lib.sha256 body = entry.hash)
        server.cache (fetchMirror lib sources entry server).2.cache ∧
      (fetchMirror lib sources entry server).2.downloads = server.downloads := by
  unfold fetchMirror
  cases sources.stream with
  | error cause => exact ⟨Brings.refl _ _ _, rfl⟩
  | ok body =>
    have brings := @brings_put lib sources.streamPut.faults sources.streamPut.pendingPath body
      entry.hash entry.path server.cache
    dsimp only
    split
    all_goals
      rename_i putEq
      rw [putEq] at brings
      exact ⟨brings.imp fun same => ⟨body, rfl, same⟩, rfl⟩

/-- A store of the parallel downloader leaves the rows alone and brings no other package. -/
theorem processDownloadSuccess_touches (lib : Libraries) (sources : Sources)
    (result : DownloadResult) (entry : Entry) (server : Server) :
    Brings entry.hash True server.cache
        (processDownloadSuccess lib sources result entry server).2.cache ∧
      ∀ hash, ((processDownloadSuccess lib sources result entry server).2.downloads
        hash).download = (server.downloads hash).download := by
  unfold processDownloadSuccess
  split
  · rename_i content _
    have brings : Brings entry.hash True server.cache
        (commitVerifiedFile lib sources.assembly.faults sources.assembly.path entry.hash
          entry.path result.size
          (writeOutside sources.assembly.path content server.cache)).2 := by
      intro other readable
      by_cases own : other = entry.hash
      · exact .inr ⟨own, trivial⟩
      · have kept := readable_of_commitVerifiedFile_other own readable
        exact .inl kept
    obtain ⟨fault, -, panicked⟩ | ⟨served, outside, left, taken, -⟩ := takeAssembly_cases lib
      sources.assembly content result.size result.source entry server
    · rw [panicked]
      exact ⟨brings, fun _ => rfl⟩
    · rw [taken]
      refine ⟨brings, fun hash => ?_⟩
      by_cases own : hash = entry.hash
      · rw [own]
        dsimp only
        rw [update_self]
        rcases server.downloads entry.hash with ⟨download, file, phase, attempts, receipts⟩
        cases phase <;> rfl
      · dsimp only
        rw [update_of_ne own]
  · rename_i data _
    obtain ⟨brings, rows⟩ := @deliver_touches lib entry server sources.racePut data result.source
    exact ⟨brings.imp fun _ => trivial,
      fun hash => congrArg (fun rows => (rows hash).download) rows⟩

/-! ## The parallel downloader -/

/-- The parallel downloader is tried in chunks. -/
def InChunks (config : Downloader.Config) (sources : Sources) (entry : Entry) : Prop :=
  0 < entry.size ∧ config.minChunkedSize ≤ entry.size ∧ 0 < sources.providers.length

instance decidableInChunks (config : Downloader.Config) (sources : Sources) (entry : Entry) :
    Decidable (InChunks config sources entry) :=
  inferInstanceAs (Decidable (_ ∧ _ ∧ _))

/-- A source of the race sends the package. -/
def RaceDelivers (lib : Libraries) (sources : Sources) (entry : Entry) : Prop :=
  ∃ answer ∈ sources.race, ∃ data, answer.outcome = .ok data ∧ lib.sha256 data = entry.hash

/-- A race that is run leaves the rows alone and brings the package if a source sends it. -/
theorem tryDownloader_of_race (notInChunks : ¬ InChunks config sources entry) (server : Server) :
    Brings entry.hash (RaceDelivers lib sources entry) server.cache
        (tryDownloader lib config sources entry server).2.cache ∧
      ∀ hash, ((tryDownloader lib config sources entry server).2.downloads hash).download =
        (server.downloads hash).download := by
  unfold tryDownloader
  split
  · next tries =>
    have raced : download lib config entry.hash sources.mirrorURL entry.size
        (sources.providers.map Provider.id) sources.attempt sources.race
        (server.downloads entry.hash) =
          ((downloadRacing lib entry.hash (sources.providers.map Provider.id) true sources.race).1,
            (downloadRacing lib entry.hash (sources.providers.map Provider.id) true
              sources.race).2, server.downloads entry.hash) := by
      unfold download
      rw [if_neg]
      rw [length_map]
      exact notInChunks
    rw [raced]
    simp only [update_eq_self]
    cases result : (downloadRacing lib entry.hash
        (sources.providers.map Provider.id) true sources.race).1 with
    | error reason =>
      cases reason <;> exact ⟨Brings.refl _ _ _, fun _ => rfl⟩
    | ok delivered =>
      have sent : RaceDelivers lib sources entry := by
        obtain ⟨answer, mem, data, isData, verified, -⟩ :=
          exists_answer_of_downloadRacing result
        exact ⟨answer, mem, data, isData, verified⟩
      obtain ⟨brings, rows⟩ := processDownloadSuccess_touches lib sources delivered entry _
      exact ⟨brings.imp fun _ => sent, rows⟩
  · exact ⟨Brings.refl _ _ _, fun _ => rfl⟩

/-- An attempt in chunks touches only the row of its package, brings it only if it succeeds, and
then leaves no failed row. -/
theorem tryDownloader_of_inChunks (inChunks : InChunks config sources entry)
    (startsWell : sources.attempt.StartsWell) (server : Server) :
    Brings entry.hash (NotFailed ((tryDownloader lib config sources entry
        server).2.downloads entry.hash).download) server.cache
        (tryDownloader lib config sources entry server).2.cache ∧
      ∀ hash, hash ≠ entry.hash →
        ((tryDownloader lib config sources entry server).2.downloads hash).download =
          (server.downloads hash).download := by
  have inPieces : download lib config entry.hash sources.mirrorURL entry.size
      (sources.providers.map Provider.id) sources.attempt sources.race
      (server.downloads entry.hash) =
        ((downloadChunked lib entry.hash sources.mirrorURL entry.size.toNat
            config.chunkSize sources.attempt (server.downloads entry.hash)).1, [],
          (downloadChunked lib entry.hash sources.mirrorURL entry.size.toNat
            config.chunkSize sources.attempt (server.downloads entry.hash)).2) := by
    unfold download
    rw [if_pos]
    rw [length_map]
    exact inChunks
  have others : ∀ ended hash, hash ≠ entry.hash →
      (update server.downloads entry.hash ended hash).download =
        (server.downloads hash).download := by
    intro ended hash other
    rw [update_of_ne other]
  unfold tryDownloader
  rw [if_pos ⟨inChunks.1, inChunks.2.2⟩, inPieces]
  dsimp only
  cases result : (downloadChunked lib entry.hash sources.mirrorURL entry.size.toNat
      config.chunkSize sources.attempt (server.downloads entry.hash)).1 with
  | error reason =>
    cases reason <;> exact ⟨Brings.refl _ _ _, others _⟩
  | ok delivered =>
    have notFailed := notFailed_of_downloadChunked startsWell result
    obtain ⟨brings, rows⟩ := processDownloadSuccess_touches lib sources delivered entry _
    refine ⟨brings.imp fun _ => ?_, fun hash other => (rows hash).trans (others _ hash other)⟩
    dsimp only
    rw [rows]
    dsimp only
    rwa [update_self]

end Debswarm.Packages
