import Debswarm.Metadata.Bodies
import Debswarm.Proxy.Core

/-!
# What vouches for an index

A body is vouched for by a Release with a good signature that lists its hash.  Every
Release that the proxy keeps for verification was received with a good signature, and a
body that passes the check against it is vouched for, provided that a body requested by
its hash has the digest of its URL.
-/

namespace Debswarm.Proxy

open List Metadata Option PackageIndex Release Text

variable {env : Environment} {answers : Answers} {server : Server}

/-- A Release received for a base with a good signature, clearsigned or detached. -/
def SignedRelease (env : Environment) (received : List (Str × Str)) (base : Str)
    (release : Release) : Prop :=
  (∃ signed text, (base ++ ofAscii "InRelease", signed) ∈ received ∧
      env.verifyClearsigned signed = some text ∧
        (Release.parse env.lib text).toOption = some release) ∨
    ∃ text signature, (base ++ ofAscii "Release", text) ∈ received ∧
      (base ++ ofAscii "Release.gpg", signature) ∈ received ∧
      env.verifyDetached text signature = true ∧
        (Release.parse env.lib text).toOption = some release

/-- The hash of a body is listed in a signed Release of the base of its URL. -/
def Vouched (env : Environment) (received : List (Str × Str)) (url body : Str) : Prop :=
  ∃ release, SignedRelease env received (verificationBaseURL url) release ∧
    env.lib.sha256 body ∈ release.hashSet

/-- Every body that was loaded in enforce mode from a host that is not exempt is vouched
for. -/
def LoadsVouched (env : Environment) (server : Server) : Prop :=
  ∀ load ∈ server.loads, load.config.verifyMode = .enforce →
    isExemptHost env load.config load.url = false → Vouched env server.received load.url load.body

/-- A body of an index that is requested by its hash has the digest of the URL. -/
def HasNamedDigest (env : Environment) (url body : Str) : Prop :=
  isVerifiableIndexURL env.lib url = true → byHashDigest env.lib url ≠ [] →
    env.lib.sha256 body = toLower env.lib.unicodeLower (byHashDigest env.lib url)

instance (env : Environment) (url body : Str) : Decidable (HasNamedDigest env url body) :=
  inferInstanceAs (Decidable (_ → _ → _))

/-! ## The invariant -/

variable {received : List (Str × Str)} {base url data : Str} {release : Release}

theorem SignedRelease.mono {more : List (Str × Str)}
    (signed : SignedRelease env received base release) (subset : received ⊆ more) :
    SignedRelease env more base release := by
  rcases signed with ⟨body, text, mem, rest⟩ | ⟨text, signature, textMem, signatureMem, rest⟩
  · exact .inl ⟨body, text, subset mem, rest⟩
  · exact .inr ⟨text, signature, subset textMem, subset signatureMem, rest⟩

theorem Vouched.mono {more : List (Str × Str)} {body : Str}
    (vouched : Vouched env received url body) (subset : received ⊆ more) :
    Vouched env more url body := by
  obtain ⟨release, signed, listed⟩ := vouched
  exact ⟨release, signed.mono subset, listed⟩

/-- A body that was received for its URL and has the digest that the URL names. -/
def Storable (env : Environment) (received : List (Str × Str)) (url body : Str) : Prop :=
  (url, body) ∈ received ∧ HasNamedDigest env url body

/-- What holds between any two requests. -/
structure Sound (env : Environment) (server : Server) : Prop where
  stored : Kept (Storable env server.received) server.metadata
  releases : ∀ base release, server.releaseStore.find? base = some release →
    SignedRelease env server.received base release
  loads : LoadsVouched env server

/-- The invariant holds, the settings are the same, and nothing received is forgotten. -/
structure Step (env : Environment) (before after : Server) : Prop where
  sound : Sound env after
  config : after.config = before.config
  received : before.received ⊆ after.received

theorem Step.refl (sound : Sound env server) : Step env server server :=
  ⟨sound, rfl, fun _ mem => mem⟩

theorem Step.trans {first second third : Server} (earlier : Step env first second)
    (later : Step env second third) : Step env first third :=
  ⟨later.sound, later.config.trans earlier.config, fun _ mem =>
    later.received (earlier.received mem)⟩

theorem step_receive (sound : Sound env server) (url body : Str) :
    Step env server (receive url body server) := by
  have subset : server.received ⊆ (receive url body server).received :=
    subset_append_left _ _
  refine ⟨⟨?_, ?_, ?_⟩, rfl, subset⟩
  · exact sound.stored.mono fun other content storable => ⟨subset storable.1, storable.2⟩
  · exact fun base release found => (sound.releases base release found).mono subset
  · exact fun load mem enforced notExempt => (sound.loads load mem enforced notExempt).mono subset

/-- A change of the metadata cache that keeps its bodies storable. -/
theorem step_metadata (sound : Sound env server) {metadata : Metadata.State}
    (stored : Kept (Storable env server.received) metadata) :
    Step env server { server with metadata } :=
  ⟨⟨stored, sound.releases, sound.loads⟩, rfl, fun _ mem => mem⟩

theorem Step.setFailed {after : Server} (step : Step env server after)
    (releaseFetchFailed : Table Str Int) : Step env server { after with releaseFetchFailed } :=
  ⟨⟨step.sound.stored, step.sound.releases, step.sound.loads⟩, step.config, step.received⟩

/-! ## Obtaining a Release -/

/-- A cached body is one that may be stored, whole. -/
theorem step_readCachedMetadataBody (sound : Sound env server) (answers : Answers) (url : Str) :
    Step env server (readCachedMetadataBody answers url server).2 ∧
      ∀ body ∈ (readCachedMetadataBody answers url server).1,
        Storable env (readCachedMetadataBody answers url server).2.received url body := by
  have kept := kept_getMetadata sound.stored answers.now url
  unfold readCachedMetadataBody
  rcases readEq : getMetadata answers.now url server.metadata with ⟨_ | ⟨row, content⟩, metadata⟩
  · rw [readEq] at kept
    exact ⟨step_metadata sound kept, fun _ mem => nomatch mem⟩
  · rw [readEq] at kept
    refine ⟨step_metadata sound kept, fun body mem => ?_⟩
    dsimp only at mem
    split at mem
    · cases mem
    · have found : (getMetadata answers.now url server.metadata).1 = some (row, content) := by
        rw [readEq]
      obtain ⟨storable, size⟩ := stored_of_getMetadata sound.stored found
      rw [size, take_length] at mem
      cases mem
      exact storable

theorem step_fetchMetadataBytes (sound : Sound env server) (answers : Answers) (url : Str) :
    Step env server (fetchMetadataBytes answers url server).2 ∧
      ∀ body ∈ (fetchMetadataBytes answers url server).1,
        (url, body) ∈ (fetchMetadataBytes answers url server).2.received := by
  unfold fetchMetadataBytes
  split
  · exact ⟨.refl sound, fun _ mem => nomatch mem⟩
  · split
    · refine ⟨step_receive sound _ _, ?_⟩
      rintro body ⟨⟩
      exact mem_append_right _ (mem_singleton_self _)
    · exact ⟨.refl sound, fun _ mem => nomatch mem⟩

/-- A step that may yield a Release: if it does, the Release is signed. -/
def YieldsSigned (env : Environment) (base : Str) (before : Server)
    (result : Option Release × Server) : Prop :=
  Step env before result.2 ∧
    ∀ release, result.1 = some release → SignedRelease env result.2.received base release

theorem yieldsSigned_put {middle : Server} (step : Step env server middle)
    (signed : SignedRelease env middle.received base release) :
    YieldsSigned env base server (some release, putRelease base release middle) := by
  have sound := step.sound
  refine ⟨⟨⟨sound.stored, fun other found foundEq => ?_, sound.loads⟩, step.config, step.received⟩,
    ?_⟩
  · simp only [putRelease, Table.find?_set] at foundEq
    split at foundEq
    · rename_i same
      cases foundEq
      exact same ▸ signed
    · exact sound.releases other found foundEq
  · rintro other ⟨⟩
    exact signed

theorem yieldsSigned_none {after : Server} (step : Step env server after) (base : Str) :
    YieldsSigned env base server (none, after) :=
  ⟨step, fun _ found => nomatch found⟩

/-- A reader that returns only bodies received for the URL it is given. -/
def ReadsReceived (env : Environment) (read : Str → Server → Option Str × Server) : Prop :=
  ∀ server, Sound env server → ∀ url, Step env server (read url server).2 ∧
    ∀ body ∈ (read url server).1, (url, body) ∈ (read url server).2.received

/-- What a reader of received bodies finds and the keyring accepts is a signed Release. -/
theorem yieldsSigned_verifiedRelease {read : Str → Server → Option Str × Server}
    (reads : ReadsReceived env read) (sound : Sound env server) (base : Str) :
    YieldsSigned env base server (verifiedRelease env read base server) := by
  unfold verifiedRelease
  obtain ⟨first, signedReceived⟩ := reads server sound (base ++ ofAscii "InRelease")
  rcases signedEq : read (base ++ ofAscii "InRelease") server with ⟨signed, afterFirst⟩
  rw [signedEq] at first signedReceived
  dsimp only at first signedReceived ⊢
  split
  · rename_i release verified
    obtain ⟨signed, signedEq, rest⟩ := bind_eq_some_iff.mp verified
    obtain ⟨text, textEq, parsed⟩ := bind_eq_some_iff.mp rest
    exact yieldsSigned_put first
      (.inl ⟨signed, text, signedReceived signed signedEq, textEq, parsed⟩)
  · obtain ⟨second, bodyReceived⟩ := reads afterFirst first.sound (base ++ ofAscii "Release")
    rcases bodyEq : read (base ++ ofAscii "Release") afterFirst with ⟨body, afterSecond⟩
    rw [bodyEq] at second bodyReceived
    dsimp only at second bodyReceived ⊢
    obtain ⟨third, signatureReceived⟩ :=
      reads afterSecond second.sound (base ++ ofAscii "Release.gpg")
    rcases signatureEq : read (base ++ ofAscii "Release.gpg") afterSecond with
      ⟨signature, afterThird⟩
    rw [signatureEq] at third signatureReceived
    dsimp only at third signatureReceived ⊢
    have steps := (first.trans second).trans third
    split
    · rename_i release verified
      obtain ⟨text, textEq, rest⟩ := bind_eq_some_iff.mp verified
      obtain ⟨sig, sigEq, checked⟩ := bind_eq_some_iff.mp rest
      obtain ⟨good, parsed⟩ := ite_none_right_eq_some.mp checked
      exact yieldsSigned_put steps (.inr ⟨text, sig, third.received (bodyReceived text textEq),
        signatureReceived sig sigEq, good, parsed⟩)
    · exact yieldsSigned_none steps base

theorem yieldsSigned_fetchReleaseOnDemand (sound : Sound env server) (answers : Answers)
    (base : Str) : YieldsSigned env base server (fetchReleaseOnDemand env answers base server) := by
  have reads : ReadsReceived env (fetchMetadataBytes answers) := fun _ readSound url =>
    step_fetchMetadataBytes readSound answers url
  have yields := yieldsSigned_verifiedRelease reads sound base
  unfold fetchReleaseOnDemand
  split
  · exact yieldsSigned_none (.refl sound) base
  · rcases resultEq : verifiedRelease env (fetchMetadataBytes answers) base server with
      ⟨_ | release, after⟩
    · rw [resultEq] at yields
      exact yieldsSigned_none (yields.1.setFailed _) base
    · rw [resultEq] at yields
      exact ⟨yields.1.setFailed _, yields.2⟩

theorem yieldsSigned_obtainRelease (sound : Sound env server) (answers : Answers) (base : Str) :
    YieldsSigned env base server (obtainRelease env answers base server) := by
  have cached : YieldsSigned env base server (cachedRelease env answers base server) := by
    unfold cachedRelease
    split
    · refine yieldsSigned_verifiedRelease (fun _ readSound url => ?_) sound base
      obtain ⟨step, stored⟩ := step_readCachedMetadataBody readSound answers url
      exact ⟨step, fun body mem => (stored body mem).1⟩
    · exact yieldsSigned_none (.refl sound) base
  unfold obtainRelease
  split
  · rename_i release kept
    refine ⟨.refl sound, ?_⟩
    rintro other ⟨⟩
    exact sound.releases base release kept
  · rcases resultEq : cachedRelease env answers base server with ⟨_ | release, after⟩
    · rw [resultEq] at cached
      dsimp only
      split
      · obtain ⟨step, signed⟩ := yieldsSigned_fetchReleaseOnDemand cached.1.sound answers base
        exact ⟨cached.1.trans step, signed⟩
      · exact cached
    · rw [resultEq] at cached
      exact cached

/-! ## The check of an index -/

/-- A body that a Release has nothing against is listed, if a by-hash body has its digest. -/
theorem mem_hashSet_of_checkAgainstRelease (verifiable : isVerifiableIndexURL env.lib url = true)
    (named : HasNamedDigest env url data)
    (checked : checkAgainstRelease env url base data release = none) :
    env.lib.sha256 data ∈ release.hashSet := by
  unfold checkAgainstRelease at checked
  dsimp only at checked
  split at checked
  · rename_i byHash
    split at checked
    · rename_i listed
      rw [named verifiable byHash]
      exact of_decide_eq_true listed
    · cases checked
  · split at checked
    · cases checked
    · rename_i file found
      split at checked
      · cases checked
      · rename_i sameHash
        rw [not_not.mp sameHash]
        exact release.listed _ file found

theorem step_verifyIndex (sound : Sound env server) (answers : Answers)
    (verifiable : isVerifiableIndexURL env.lib url = true) (named : HasNamedDigest env url data) :
    Step env server (verifyIndex env answers url data server).2 ∧
      ((verifyIndex env answers url data server).1 = none →
        Vouched env (verifyIndex env answers url data server).2.received url data) := by
  unfold verifyIndex
  dsimp only
  split
  · exact ⟨.refl sound, fun verified => nomatch verified⟩
  split
  · exact ⟨.refl sound, fun verified => nomatch verified⟩
  · have yields := yieldsSigned_obtainRelease sound answers (verificationBaseURL url)
    rcases resultEq : obtainRelease env answers (verificationBaseURL url) server with
      ⟨_ | release, after⟩
    · rw [resultEq] at yields
      exact ⟨yields.1, fun verified => nomatch verified⟩
    · rw [resultEq] at yields
      refine ⟨yields.1, fun verified => ⟨release, yields.2 release rfl, ?_⟩⟩
      exact mem_hashSet_of_checkAgainstRelease verifiable named verified

/-- What the policy lets through in enforce mode, for a host that is not exempt, is
vouched for. -/
def AllowsVouched (env : Environment) (url data : Str) (before : Server)
    (result : (Bool × Option Reason) × Server) : Prop :=
  Step env before result.2 ∧
    (result.1.1 = true → result.2.config.verifyMode = .enforce →
      isExemptHost env result.2.config url = false → Vouched env result.2.received url data)

theorem allowsVouched_checkIndexVerification (sound : Sound env server) (answers : Answers)
    (verifiable : isVerifiableIndexURL env.lib url = true) (named : HasNamedDigest env url data) :
    AllowsVouched env url data server (checkIndexVerification env answers url data server) := by
  have verify := step_verifyIndex sound answers verifiable named
  unfold checkIndexVerification
  split
  · rename_i skipped
    refine ⟨.refl sound, fun _ enforced _ => ?_⟩
    dsimp only at enforced
    simp [verificationEnabled, enforced, verifiable] at skipped
  · rcases resultEq : verifyIndex env answers url data server with ⟨_ | reason, after⟩
    · rw [resultEq] at verify
      exact ⟨verify.1, fun _ _ _ => verify.2 rfl⟩
    · rw [resultEq] at verify
      dsimp only
      split
      · exact ⟨verify.1, fun allowed => nomatch allowed⟩
      · rename_i notRefused
        refine ⟨verify.1, fun _ enforced notExempt => ?_⟩
        dsimp only at enforced notExempt
        simp [modeRefuses, enforced, notExempt] at notRefused

end Debswarm.Proxy
