import Debswarm.Packages.Integrity
import Debswarm.Traffic.Core

/-!
# Cancelled leaders

All who share a download get its result, and the download runs under the context of the caller
that came first.  When that client hangs up, its sources fail, and the others are refused although
they are still there.  Where no caller hangs up while it leads a download for others, and nobody
joins a download whose leader is gone, a client that stays is not refused.
-/

namespace Debswarm.Traffic

open Function List Option Packages Sync Text Transition

section

variable {settings : Settings}

/-- The caller is told that its package could not be fetched, or is about to be. -/
def Phase.refused : Phase → Bool
  | .handed (.error (.failed _)) => true
  | .answered (some reply) => reply.response.status = 502
  | _ => false

/-- Peers that are asked end no download with an error. -/
theorem ne_failed_of_asked {lib : Libraries} {entry : Entry} {server : Server}
    {sent : Option (PutCall × Str)} {tried : Option (Except Stop PackageResult) × Server}
    {reason : FetchError} (asked : Asked lib entry server sent tried) :
    tried.1 ≠ some (.error (.failed reason)) := by
  obtain ⟨blacklist, ⟨-, rfl⟩ | ⟨call, data, -, -, rfl⟩⟩ := asked
  · simp
  · unfold deliver
    split <;> simp

theorem processDownloadSuccess_ne_failed (lib : Libraries) (sources : Sources)
    (result : Downloader.DownloadResult) (entry : Entry) (server : Server) (reason : FetchError) :
    (processDownloadSuccess lib sources result entry server).1 ≠ .error (.failed reason) := by
  unfold processDownloadSuccess
  split
  · unfold takeAssembly
    dsimp only
    split
    · simp
    · simp
    · split <;> simp
  · split <;> simp

theorem tryDownloader_ne_failed (lib : Libraries) (config : Downloader.Config)
    (sources : Sources) (entry : Entry) (server : Server) (reason : FetchError) :
    (tryDownloader lib config sources entry server).1 ≠ some (.error (.failed reason)) := by
  unfold tryDownloader
  split
  · rcases Downloader.download lib config entry.hash sources.mirrorURL entry.size
      (sources.providers.map Provider.id) sources.attempt sources.race
      (server.downloads entry.hash) with ⟨cause | result, blacklisted, ended⟩
    · cases cause <;> simp
    · exact fun failed =>
        processDownloadSuccess_ne_failed _ _ _ _ _ reason (some.inj failed)
  · simp

/-- Only the mirror ends a download with an error. -/
theorem stage_of_failed {sources : Sources} {progress : Progress} {server : Server}
    {reason : FetchError}
    (ended : (tryStage settings sources progress server).1 = some (.error (.failed reason))) :
    progress.stage = .mirror ∧
      (fetchMirror settings.lib sources progress.entry server).1.isOk = false := by
  obtain ⟨entry, stage⟩ := progress
  cases stage with
  | fleet =>
    obtain ⟨_, _, _, asked⟩ := asked_tryFleet settings.lib sources entry server
    exact absurd ended (ne_failed_of_asked asked)
  | downloader => exact absurd ended (tryDownloader_ne_failed _ _ _ _ _ reason)
  | peers => exact absurd ended (ne_failed_of_asked (asked_tryPeers ..))
  | mirror =>
    have failed : (fetchMirror settings.lib sources entry server).1 =
        .error (.failed reason) := some.inj ended
    exact ⟨rfl, by rw [failed]; rfl⟩

theorem refused_of_serveFromCache {hash : Str} {cache : Cache.State} {reply : Reply}
    (served : (serveFromCache hash cache).1 = some reply) :
    (Phase.answered (some reply)).refused = false := by
  unfold serveFromCache at served
  split at served
  · split at served
    · cases served
    · cases served
      rfl
  · cases served

/-- An answer refuses exactly where the result of the download does. -/
theorem refused_respond (outcome : Except Stop PackageResult) (cache : Cache.State) :
    (Phase.answered (respond outcome cache).1).refused = (Phase.handed outcome).refused := by
  rcases outcome with (reason | fault | _) | result
  · rfl
  · rfl
  · rfl
  · unfold respond servePackageResult
    dsimp only
    split
    · split <;> rfl
    · rfl

end

variable {settings : Settings} {state : State}

/-! ## Who is there -/

/-- The context of a caller is cancelled. -/
def Cancelled (calls : Nat → Option Call) (id : Nat) : Prop :=
  (calls id).any (fun call => call.cancelled) = true

/-- A caller is a client that has not hung up. -/
def Connected (calls : Nat → Option Call) (id : Nat) : Prop :=
  (calls id).any (fun call => call.client && !call.cancelled) = true

instance decidableCancelled (calls : Nat → Option Call) (id : Nat) :
    Decidable (Cancelled calls id) :=
  inferInstanceAs (Decidable (_ = true))

instance decidableConnected (calls : Nat → Option Call) (id : Nat) :
    Decidable (Connected calls id) :=
  inferInstanceAs (Decidable (_ = true))

/-- No caller joins a download with a cancelled leader, and no leader is cancelled while a connected
client shares its download. -/
def SparesFollowers (state : State) : Event → Prop
  | .ask id => ∀ call ∈ state.calls id, ∀ flight ∈ state.flights call.entry.hash,
      Cancelled state.calls flight.leader → ¬ Connected state.calls id
  | .cancel id => ∀ call ∈ state.calls id, ∀ flight ∈ state.flights call.entry.hash,
      flight.leader = id → ∀ other ∈ flight.followers, ¬ Connected state.calls other
  | _ => True

instance (state : State) (event : Event) : Decidable (SparesFollowers state event) := by
  cases event <;> unfold SparesFollowers <;> infer_instance

/-- A mirror that is not cancelled delivers. -/
def DeliversUncancelled (settings : Settings) (state : State) : Event → Prop
  | .advance hash sources _ => ∀ flight ∈ state.flights hash,
      flight.progress.stage = .mirror → ¬ Cancelled state.calls flight.leader →
        (fetchMirror settings.lib sources flight.progress.entry state.server).1.isOk = true
  | _ => True

instance (settings : Settings) (state : State) (event : Event) :
    Decidable (DeliversUncancelled settings state event) := by
  cases event <;> unfold DeliversUncancelled <;> infer_instance

/-! ## What a step leaves of the callers -/

/-- What decides who is there: the package, whether there is a client, and the context. -/
def Call.party (call : Call) : Str × Bool × Bool :=
  (call.entry.hash, call.client, call.cancelled)

/-- Known callers stay what they are. -/
def SameParties (before after : Nat → Option Call) : Prop :=
  ∀ id, (before id).isSome → (after id).map Call.party = (before id).map Call.party

variable {calls : Nat → Option Call} {call : Call} {hash : Str} {flight : Flight Nat Progress}

theorem cancelled_iff_party {id : Nat} :
    Cancelled calls id ↔ ((calls id).map Call.party).any (fun party => party.2.2) = true := by
  cases found : calls id <;> simp [Cancelled, Call.party, found]

theorem connected_iff_party {id : Nat} :
    Connected calls id ↔
      ((calls id).map Call.party).any (fun party => party.2.1 && !party.2.2) = true := by
  cases found : calls id <;> simp [Connected, Call.party, found]

section SameParties

variable {before after : Nat → Option Call} (same : SameParties before after) {id : Nat}
  (known : (before id).isSome)

include same known

theorem SameParties.cancelled_iff : Cancelled after id ↔ Cancelled before id := by
  rw [cancelled_iff_party, cancelled_iff_party, same id known]

theorem SameParties.connected_iff : Connected after id ↔ Connected before id := by
  rw [connected_iff_party, connected_iff_party, same id known]

end SameParties

theorem sameParties_of_new {id : Nat} (isNew : calls id = none) (call : Call) :
    SameParties calls (update calls id (some call)) := by
  intro other known
  have distinct : other ≠ id := by
    rintro rfl
    rw [isNew] at known
    cases known
  rw [update_of_ne distinct]

theorem sameParties_of_phase {id : Nat} (found : calls id = some call) (phase : Phase) :
    SameParties calls (update calls id (some { call with phase })) := by
  intro other _
  by_cases same : other = id
  · rw [same, update_self, found]
    rfl
  · rw [update_of_ne same]

theorem sameParties_hand (outcome : Except Stop PackageResult) (callers : List Nat)
    (calls : Nat → Option Call) : SameParties calls (hand outcome callers calls) := by
  intro id _
  unfold hand
  split
  · cases calls id <;> rfl
  · rfl

/-! ## Downloads that shelter those who share them -/

/-- Who shares a download wants its package, and if the leader is gone, so are the clients. -/
structure Shelters (calls : Nat → Option Call) (hash : Str) (flight : Flight Nat Progress) :
    Prop where
  known : ∀ id ∈ flight.callers, ∃ call, calls id = some call ∧ call.entry.hash = hash
  gone : Cancelled calls flight.leader → ∀ id ∈ flight.callers, ¬ Connected calls id

theorem isSome_of_shelters (shelters : Shelters calls hash flight) {id : Nat}
    (shares : id ∈ flight.callers) : (calls id).isSome := by
  obtain ⟨call, found, -⟩ := shelters.known id shares
  exact isSome_of_eq_some found

theorem Shelters.of_sameParties {before after : Nat → Option Call}
    (shelters : Shelters before hash flight) (same : SameParties before after) :
    Shelters after hash flight := by
  constructor
  · intro id shares
    obtain ⟨call, found, wanted⟩ := shelters.known id shares
    have party := same id (isSome_of_eq_some found)
    rw [found] at party
    obtain ⟨changed, atId, parties⟩ := map_eq_some_iff.mp party
    exact ⟨changed, atId, (congrArg Prod.fst parties).trans wanted⟩
  · intro cancelled id shares connected
    have knownLeader := isSome_of_shelters shelters mem_cons_self
    have knownId := isSome_of_shelters shelters shares
    exact shelters.gone ((same.cancelled_iff knownLeader).mp cancelled) id shares
      ((same.connected_iff knownId).mp connected)

theorem not_connected_of_cancelled {id : Nat} (cancelled : Cancelled calls id) :
    ¬ Connected calls id := by
  unfold Cancelled at cancelled
  unfold Connected
  cases found : calls id with
  | none => simp
  | some call =>
    rw [found] at cancelled
    simp_all

/-! ## The invariant -/

/-- Every download shelters those who share it, and no connected client is refused. -/
structure Sheltered (state : State) : Prop where
  shelters : EveryFlight (Shelters state.calls) state.flights
  spared : ∀ id call, state.calls id = some call → Connected state.calls id →
    call.phase.refused = false

section

variable (sheltered : Sheltered state)

include sheltered

/-- A step that changes one caller, and nobody else. -/
theorem Sheltered.setCall {id : Nat}
    (same : SameParties state.calls (update state.calls id (some call)))
    (spared : Connected (update state.calls id (some call)) id →
      call.phase.refused = false) {after : State}
    (calls : after.calls = update state.calls id (some call))
    (flights : after.flights = state.flights) : Sheltered after := by
  constructor
  · rw [calls, flights]
    exact sheltered.shelters.imp fun _ _ shelters => shelters.of_sameParties same
  · rw [calls]
    intro other changed found connected
    by_cases isCaller : other = id
    · subst isCaller
      rw [update_self] at found
      cases found
      exact spared connected
    · rw [update_of_ne isCaller] at found
      have known : (state.calls other).isSome := isSome_of_eq_some found
      exact sheltered.spared other changed found ((same.connected_iff known).mp connected)

theorem sheltered_request {id : Nat} (isNew : state.calls id = none) (entry : Entry)
    (offline : Bool) : Sheltered (request id entry offline state) := by
  have same := sameParties_of_new isNew
  unfold request
  rcases servedEq : serveFromCache entry.hash state.server.cache with ⟨_ | reply, cache⟩
  · refine sheltered.setCall (same _) (fun _ => ?_) rfl rfl
    split <;> rfl
  · exact sheltered.setCall (same _)
      (fun _ => refused_of_serveFromCache (congrArg Prod.fst servedEq)) rfl rfl

theorem sheltered_ask {id : Nat} (found : state.calls id = some call)
    (spares : ∀ flight ∈ state.flights call.entry.hash, Cancelled state.calls flight.leader →
      ¬ Connected state.calls id) : Sheltered (ask id call state) := by
  have same := sameParties_of_phase found Phase.waiting
  have waits : Sheltered (state.setCall id { call with phase := .waiting }) :=
    sheltered.setCall same (fun _ => rfl) rfl rfl
  have isKnown : (state.calls id).isSome := isSome_of_eq_some found
  have isCaller : (state.setCall id { call with phase := .waiting }).calls id =
      some { call with phase := .waiting } := update_self ..
  refine ⟨?_, waits.spared⟩
  apply everyFlight_join waits.shelters
  · intro flight shared
    have shelters := waits.shelters _ flight shared
    constructor
    · intro other shares
      rcases Flight.mem_callers_follow.mp shares with earlier | rfl
      · exact shelters.known other earlier
      · exact ⟨_, isCaller, rfl⟩
    · intro cancelled other shares
      rcases Flight.mem_callers_follow.mp shares with earlier | rfl
      · exact shelters.gone cancelled other earlier
      · have known := isSome_of_shelters (sheltered.shelters _ flight shared) mem_cons_self
        intro connected
        exact spares flight shared ((same.cancelled_iff known).mp cancelled)
          ((same.connected_iff isKnown).mp connected)
  · intro _
    constructor
    · intro other shares
      rw [mem_singleton.mp shares]
      exact ⟨_, isCaller, rfl⟩
    · intro cancelled other shares
      rw [mem_singleton.mp shares]
      exact not_connected_of_cancelled cancelled

theorem sheltered_cancel {id : Nat}
    (spares : ∀ call ∈ state.calls id, ∀ flight ∈ state.flights call.entry.hash,
      flight.leader = id → ∀ other ∈ flight.followers, ¬ Connected state.calls other) :
    Sheltered (state.changeCall id fun call => { call with cancelled := true }) := by
  let after := state.changeCall id fun call => { call with cancelled := true }
  have others : ∀ other, other ≠ id → after.calls other = state.calls other :=
    fun other distinct => update_of_ne distinct ..
  have isGone : ¬ Connected after.calls id := by
    simp only [after, Connected, State.changeCall]
    cases state.calls id <;> simp
  have connected_of : ∀ other, Connected after.calls other →
      other ≠ id ∧ Connected state.calls other := by
    intro other connected
    have distinct : other ≠ id := by
      rintro rfl
      exact isGone connected
    refine ⟨distinct, ?_⟩
    unfold Connected at connected ⊢
    rwa [others other distinct] at connected
  constructor
  · intro hash flight found
    have shelters := sheltered.shelters hash flight found
    constructor
    · intro other shares
      obtain ⟨call, atOther, wanted⟩ := shelters.known other shares
      by_cases isCaller : other = id
      · subst isCaller
        refine ⟨{ call with cancelled := true }, ?_, wanted⟩
        simp only [State.changeCall, update_self, atOther, map_some]
      · exact ⟨call, (others other isCaller).trans atOther, wanted⟩
    · intro cancelled other shares connected
      obtain ⟨distinct, wasConnected⟩ := connected_of other connected
      by_cases leads : flight.leader = id
      · obtain ⟨call, atLeader, wanted⟩ := shelters.known _ mem_cons_self
        rw [leads] at atLeader
        rw [← wanted] at found
        rcases mem_cons.mp shares with isLeader | follows
        · exact distinct (isLeader.trans leads)
        · exact spares call atLeader flight found leads other follows wasConnected
      · unfold Cancelled at cancelled
        rw [others _ leads] at cancelled
        exact shelters.gone cancelled other shares wasConnected
  · intro other call found connected
    obtain ⟨distinct, wasConnected⟩ := connected_of other connected
    rw [others other distinct] at found
    exact sheltered.spared other call found wasConnected

theorem sheltered_advance (sources : Sources) (touched : Option Int)
    (found : state.flights hash = some flight)
    (delivers : flight.progress.stage = .mirror → ¬ Cancelled state.calls flight.leader →
      (fetchMirror settings.lib sources flight.progress.entry state.server).1.isOk = true) :
    Sheltered (advance settings hash flight sources touched state) := by
  have shelters := sheltered.shelters hash flight found
  unfold advance
  cases tried : (tryStage settings sources flight.progress state.server).1 with
  | none =>
    simp only [tried]
    refine ⟨?_, sheltered.spared⟩
    apply everyFlight_proceed sheltered.shelters
    intro sharing isFlight
    rw [found] at isFlight
    cases isFlight
    exact ⟨shelters.known, shelters.gone⟩
  | some outcome =>
    simp only [tried]
    have same := sameParties_hand outcome flight.callers state.calls
    constructor
    · exact everyFlight_finish
        (sheltered.shelters.imp fun _ _ earlier => earlier.of_sameParties same)
    · intro id call atId connected
      obtain ⟨earlier, atEarlier, isHanded⟩ := hand_eq_some atId
      have known : (state.calls id).isSome := isSome_of_eq_some atEarlier
      have wasConnected := (same.connected_iff known).mp connected
      rcases isHanded with ⟨shares, rfl⟩ | rfl
      · rcases outcome with (reason | fault | _) | result
        · -- the mirror failed, so the leader is gone
          obtain ⟨isMirror, failed⟩ := stage_of_failed tried
          by_cases cancelled : Cancelled state.calls flight.leader
          · exact absurd wasConnected (shelters.gone cancelled id shares)
          · rw [delivers isMirror cancelled] at failed
            cases failed
        · rfl
        · rfl
        · rfl
      · exact sheltered.spared id call atEarlier wasConnected

theorem sheltered_answer {id : Nat} {outcome : Except Stop PackageResult}
    (found : state.calls id = some call) (handed : call.phase = .handed outcome) :
    Sheltered (answer id call outcome state) := by
  have same := sameParties_of_phase found
  unfold answer
  split
  · refine sheltered.setCall (same _) (fun connected => ?_) rfl rfl
    have known : (state.calls id).isSome := isSome_of_eq_some found
    have spared := sheltered.spared id call found (((same _).connected_iff known).mp connected)
    rw [handed] at spared
    exact (refused_respond outcome _).trans spared
  · exact sheltered.setCall (same _) (fun _ => rfl) rfl rfl

end

theorem Step.sheltered {event : Event} {after : State} (step : Step settings state event after)
    (sheltered : Sheltered state) (delivers : DeliversUncancelled settings state event)
    (spares : SparesFollowers state event) : Sheltered after := by
  cases step with
  | stays => exact sheltered
  | request id entry offline isNew => exact sheltered_request sheltered isNew entry offline
  | ask id call found asking => exact sheltered_ask sheltered found (spares call found)
  | cancel id => exact sheltered_cancel sheltered spares
  | advance hash sources touched flight found =>
    exact sheltered_advance sheltered sources touched found (delivers flight found)
  | answer id call outcome found handed => exact sheltered_answer sheltered found handed
  | list now listed => exact { sheltered with }
  | retryRow id now fails hash row rest listed isNew =>
    have popped : Sheltered { state with worklist := rest } := { sheltered with }
    unfold Traffic.retryRow
    split
    · exact popped
    · split
      · exact { popped with }
      · exact popped.setCall (sameParties_of_new isNew _) (fun _ => rfl) rfl rfl
  | stopRetries => exact { sheltered with }

/-! ## Runs -/

/-- The status of the response, if there is one. -/
def Call.status (call : Call) : Option Nat :=
  match call.phase with
  | .answered reply => reply.map fun reply => reply.response.status
  | _ => none

theorem status_ne_of_not_refused (spared : call.phase.refused = false) :
    call.status ≠ some 502 := by
  unfold Call.status
  split
  · rename_i reply answered
    rw [answered] at spared
    cases reply with
    | none => simp
    | some reply => exact fun status => of_decide_eq_false spared (some.inj status)
  · simp

/-- If no leader is cancelled while a connected client shares its download, and none joins a
cancelled one, a connected client is not told that its package could not be fetched. -/
theorem not_refused_of_sparesFollowers (settings : Settings) (server : Server)
    (updatedAt : Str → Int) {events : List Event}
    (delivers : StepsMeet (next settings) (DeliversUncancelled settings)
      (State.start server updatedAt) events)
    (spares : StepsMeet (next settings) SparesFollowers (State.start server updatedAt) events)
    {id : Nat} {call : Call}
    (found : (run (next settings) (State.start server updatedAt) events).calls id = some call)
    (isClient : call.client = true) (connected : call.cancelled = false) :
    call.status ≠ some 502 := by
  have start : Sheltered (State.start server updatedAt) := ⟨nofun, nofun⟩
  have sheltered := run_invariant_of_stepsMeet Sheltered
    (fun reached event sheltered allowed =>
      (step_next settings reached event).sheltered sheltered allowed.1 allowed.2)
    start (delivers.and spares)
  have isConnected :
      Connected (run (next settings) (State.start server updatedAt) events).calls id := by
    unfold Connected
    rw [found]
    simp [isClient, connected]
  exact status_ne_of_not_refused (sheltered.spared id call found isConnected)

/-- A mirror alone, with what it sends. -/
def mirrorOnly (stream : Except Str Str) : Sources :=
  { corruptPeers with fleet := none, providers := [], stream }

def smallSettings : Settings :=
  ⟨⟨hexEncode64, id⟩, ⟨4, 16⟩, ⟨3, 3600⟩⟩

/-- Two clients share a download.  Something happens before it is done. -/
def sharedDownload (between : List Event) (stream : Except Str Str) : List Event :=
  [.request 1 twoBytePackage false, .ask 1, .request 2 twoBytePackage false, .ask 2] ++ between ++
    replicate 4 (.advance twoBytePackage.hash (mirrorOnly stream) none) ++
    [.answer 1, .answer 2]

/-- Whether a caller is a client, whether it has hung up, and the status of its response. -/
def outcomeOf (id : Nat) (events : List Event) : Option (Bool × Bool × Option Nat) :=
  ((run (next smallSettings) (State.start emptyServer fun _ => 0) events).calls id).map
    fun call => (call.client, call.cancelled, call.status)

/-- The second client hangs up.  The first one gets its package. -/
theorem first_served_after_second_hangs_up :
    let events := sharedDownload [.cancel 2] (.ok [1, 2])
    ∃ call, (run (next smallSettings) (State.start emptyServer fun _ => 0) events).calls 1 =
        some call ∧ call.status = some 200 ∧ call.status ≠ some 502 := by
  intro events
  have delivers : StepsMeet (next smallSettings) (DeliversUncancelled smallSettings)
      (State.start emptyServer fun _ => 0) events := by
    decide +kernel
  have spares : StepsMeet (next smallSettings) SparesFollowers
      (State.start emptyServer fun _ => 0) events := by
    decide +kernel
  have served : outcomeOf 1 events = some (true, false, some 200) := by
    decide +kernel
  obtain ⟨call, found, parts⟩ := map_eq_some_iff.mp served
  obtain ⟨isClient, connected, status⟩ := Prod.mk.inj parts |>.imp_right Prod.mk.inj
  exact ⟨call, found, status, not_refused_of_sparesFollowers smallSettings emptyServer
    (fun _ => 0) delivers spares found isClient connected⟩

/-- The first client hangs up, and its sources are cancelled.  The second one is refused. -/
theorem second_refused_after_first_hangs_up :
    let events := sharedDownload [.cancel 1] (.error (ofAscii "context canceled"))
    StepsMeet (next smallSettings) (DeliversUncancelled smallSettings)
        (State.start emptyServer fun _ => 0) events ∧
      outcomeOf 2 events = some (true, false, some 502) := by
  intro events
  constructor <;> decide +kernel

end Debswarm.Traffic
