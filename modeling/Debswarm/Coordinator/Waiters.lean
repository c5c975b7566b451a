import Debswarm.Coordinator.Downloads
import Debswarm.Transition.Run

/-!
# Waiters of a coordinator and their channels

Five operations tell the waiters of a download its outcome and close their channels: our
download completes or fails, the fetcher reports that its download did, or the fetcher went
silent.  Each removes the download under the lock, so no channel is reached twice.  The channel
that a call makes for a download which is over before it waits is left out.

Downloads are changed in place for the sake of their waiters, with one exception: a call that
wins its election writes a new entry over the one that is there, and the waiters of that are
not signalled any more.
-/

namespace Debswarm.Coordinator

open Fleet (msgWantPackage msgHavePackage msgFetching msgFetchProgress
  msgFetched msgFetchFailed)
open Function Option Sync Text Transition

universe u

variable {π : Type u}

/-- A coordinator, and the outcomes that came into each channel. -/
structure Watched (π : Type u) where
  coordinator : State π
  outcomes : Nat → List Signal

/-- A step of the coordinator, or a caller takes an outcome out of its channel. -/
inductive Happening (π : Type u)
  | step (event : Event π)
  | take (channel : Nat)

def Watched.new (staleTimeout : Int) (cached : Str → Bool) : Watched π :=
  ⟨.new staleTimeout cached, fun _ => []⟩

def Watched.next [DecidableEq π] (watched : Watched π) : Happening π → Watched π
  | .step event =>
    let after := Coordinator.next watched.coordinator event
    ⟨after, fun channel => watched.outcomes channel ++
      (watched.coordinator.inFlight.channels channel).arrived (after.inFlight.channels channel)⟩
  | .take channel =>
    { watched with
      coordinator :=
        { watched.coordinator with inFlight := watched.coordinator.inFlight.drain channel } }

/-- No channel was told a second outcome, and the open ones were told none. -/
structure ToldOnce (watched : Watched π) : Prop where
  sound : watched.coordinator.inFlight.Sound
  isOpen : ∀ channel, (watched.coordinator.inFlight.channels channel).closed = false →
    (watched.coordinator.inFlight.channels channel).buffer = none ∧
      watched.outcomes channel = []
  once : ∀ channel, (watched.outcomes channel).length ≤ 1

variable {watched : Watched π}

theorem ToldOnce.take (told : ToldOnce watched) [DecidableEq π] (channel : Nat) :
    ToldOnce (watched.next (.take channel)) where
  sound := told.sound.drain channel
  isOpen := by
    intro other isOpen
    simp only [Watched.next, Board.drain] at isOpen ⊢
    by_cases same : other = channel
    · subst same
      rw [update_self] at isOpen ⊢
      exact ⟨rfl, (told.isOpen other isOpen).2⟩
    · rw [update_of_ne same] at isOpen ⊢
      exact told.isOpen other isOpen
  once := told.once

section Peers

variable [DecidableEq π]

/-- A step leaves a channel alone, or tells an open channel its first outcome and closes it. -/
theorem ToldOnce.step_cases (told : ToldOnce watched) (event : Event π) (channel : Nat) :
    let before := watched.coordinator.inFlight.channels channel
    let after := (watched.next (.step event)).coordinator.inFlight.channels channel
    let outcomes := (watched.next (.step event)).outcomes channel
    (after = before ∧ outcomes = watched.outcomes channel) ∨
      (before.closed = false ∧ after.closed = true ∧ ∃ signal, outcomes = [signal]) := by
  intro before after outcomes
  have moved : before.Told after :=
    ((moves_next watched.coordinator event).told told.sound).2 channel
  have added : outcomes = watched.outcomes channel ++ before.arrived after := rfl
  rcases moved with same | ⟨wasOpen, signal, finished⟩
  · left
    refine ⟨same, ?_⟩
    rw [added, same, Channel.arrived]
    split
    · rw [List.append_nil]
    · rename_i empty
      rw [empty, Option.toList_none, List.append_nil]
  · right
    obtain ⟨empty, untold⟩ := told.isOpen channel wasOpen
    refine ⟨wasOpen, by rw [finished]; rfl, signal, ?_⟩
    have emptyBefore : before.buffer = none := empty
    simp [added, untold, finished, Channel.arrived, Channel.finish, emptyBefore]

theorem ToldOnce.step (told : ToldOnce watched) (event : Event π) :
    ToldOnce (watched.next (.step event)) where
  sound := ((moves_next watched.coordinator event).told told.sound).1
  isOpen := by
    intro channel isOpen
    rcases told.step_cases event channel with ⟨same, sameOutcomes⟩ | ⟨-, closed, -⟩
    · rw [same] at isOpen
      rw [same, sameOutcomes]
      exact told.isOpen channel isOpen
    · rw [closed] at isOpen
      cases isOpen
  once := by
    intro channel
    rcases told.step_cases event channel with ⟨-, sameOutcomes⟩ | ⟨-, -, signal, first⟩
    · rw [sameOutcomes]
      exact told.once channel
    · rw [first]
      exact le_rfl

theorem ToldOnce.next (told : ToldOnce watched) (happening : Happening π) :
    ToldOnce (watched.next happening) := by
  cases happening with
  | step event => exact told.step event
  | take channel => exact told.take channel

/-- No closed channel is sent to or closed again, and every channel gets at most one outcome. -/
theorem channels_told_once (staleTimeout : Int) (cached : Str → Bool)
    (happenings : List (Happening π)) :
    let watched := run Watched.next (.new staleTimeout cached) happenings
    watched.coordinator.inFlight.faulty = false ∧
      ∀ channel, (watched.outcomes channel).length ≤ 1 ∧
        ((watched.coordinator.inFlight.channels channel).closed = true →
          ∀ happening,
            ((watched.next happening).coordinator.inFlight.channels channel).closed = true ∧
              (watched.next happening).outcomes channel = watched.outcomes channel) := by
  intro watched
  have told : ToldOnce watched :=
    run_invariant ToldOnce (fun _ happening told => told.next happening)
      (show ToldOnce (Watched.new staleTimeout cached) from
        ⟨Board.sound_empty, fun _ _ => ⟨rfl, rfl⟩, fun _ => Nat.zero_le 1⟩) happenings
  refine ⟨told.sound.noFault, fun channel => ⟨told.once channel, fun closed happening => ?_⟩⟩
  cases happening with
  | step event =>
    rcases told.step_cases event channel with ⟨same, sameOutcomes⟩ | ⟨wasOpen, -⟩
    · rw [same]
      exact ⟨closed, sameOutcomes⟩
    · rw [closed] at wasOpen
      cases wasOpen
  | take other =>
    refine ⟨?_, rfl⟩
    simp only [Watched.next, Board.drain]
    by_cases same : channel = other
    · subst same
      rw [update_self]
      exact closed
    · rw [update_of_ne same]
      exact closed

end Peers

/-! ## Waiters that are signalled -/

/-- Every channel of a call was signalled or waits for the download of the call's hash. -/
structure Attends (state : State π) : Prop where
  sound : state.inFlight.Sound
  waits : ∀ id channel, (state.calls id).phase.channel? = some channel →
    state.inFlight.Attended (state.calls id).hash channel

/-! ## Steps -/

/-- The call has not lost its election to a peer, or nobody waits for the download. -/
def ClaimsFree (state : State π) (call : Call π) : Prop :=
  call.elected = none → state.inFlight.waiters call.hash = []

variable {state : State π} {event : Event π}

section Peers

variable [DecidableEq π]

/-- A call that wins its election in this step finds no download with waiters. -/
def StrandsNobody (state : State π) : Event π → Prop
  | .timeout id _ => (state.calls id).phase = .electing → ClaimsFree state (state.calls id)
  | .readDontHave id _ => (state.calls id).phase = .electing →
      ∀ heard ∈ (state.calls id).lastAnswer, ClaimsFree state heard
  | _ => True

instance decidableClaimsFree (state : State π) (call : Call π) :
    Decidable (ClaimsFree state call) :=
  inferInstanceAs (Decidable (_ → _))

instance (state : State π) (event : Event π) : Decidable (StrandsNobody state event) := by
  cases event <;> unfold StrandsNobody <;> infer_instance

theorem StrandsNobody.waiters_eq_nil (spares : StrandsNobody state event) {hash : Str}
    (claims : state.claims event = some hash) : state.inFlight.waiters hash = [] := by
  cases event with
  | timeout id now =>
    simp only [State.claims, ite_none_right_eq_some, some.injEq] at claims
    obtain ⟨⟨electing, nobody⟩, rfl⟩ := claims
    exact spares electing nobody
  | readDontHave id now =>
    simp only [State.claims, ite_none_right_eq_some, some.injEq] at claims
    obtain ⟨⟨electing, last⟩, rfl⟩ := claims
    obtain ⟨heard, isLast, nobody⟩ := (any_eq_true _ _).mp last
    have sameHash : heard.hash = (state.calls id).hash := Call.hash_of_lastAnswer isLast
    rw [← sameHash]
    exact spares electing heard isLast (of_decide_eq_true nobody)
  | _ => cases claims

/-- A step in which the winners find no waiters keeps every channel attended. -/
theorem Attends.next (attends : Attends state) (spares : StrandsNobody state event) :
    Attends (next state event) := by
  have keeps := (moves_next state event).keeps attends.sound fun _ => spares.waiters_eq_nil
  refine ⟨keeps.sound, fun id channel waits => ?_⟩
  obtain ⟨sameHash, waited | ⟨-, -, joined⟩⟩ := channel_next waits
  · rw [sameHash]
    exact keeps.attended _ channel (attends.waits id channel waited)
  · rw [sameHash]
    exact .inr joined

/-! ## Runs -/

/-- The step completes a download, reports its failure, or reaps it. -/
def EndsFetch (hash : Str) (download : FetchState π) (state : State π) : Event π → Prop
  | .notifyComplete other => other = hash
  | .notifyFailed other _ => other = hash
  | .reapStale now =>
    download.fetcher.isSome = true ∧ download.isStale now state.staleTimeout = true
  | .handle _ _ => state.handling = .idle ∧ ∃ sender message rest,
      state.msgChan = (sender, message) :: rest ∧ message.hash = hash ∧
        download.fetcher = some sender ∧
        (message.type = msgFetched ∨ message.type = msgFetchFailed)
  | _ => False

theorem closed_of_endsFetch (sound : state.inFlight.Sound) {hash : Str}
    {entry : Entry (FetchState π)} (found : state.inFlight.entries.find? hash = some entry)
    {channel : Nat} (mem : channel ∈ entry.waiters) (ends : EndsFetch hash entry.data state event) :
    ((next state event).inFlight.channels channel).closed = true := by
  cases event with
  | notifyComplete other | notifyFailed other error =>
    cases ends
    exact Board.closed_releaseIf found rfl mem
  | reapStale now =>
    refine sound.closed_releaseAll _ found ?_ mem
    simp [ends.1, ends.2]
  | handle giveUp now =>
    obtain ⟨idle, sender, message, rest, queue, rfl, isFetcher, ended⟩ := ends
    simp only [next, handle, idle, queue, handleMessage]
    rcases ended with fetched | failed
    · simp only [fetched, msgFetched, msgWantPackage, msgHavePackage, msgFetching,
        msgFetchProgress, handleFetched, endFetch]
      exact Board.closed_releaseIf found (by simp [isFetcher]) mem
    · simp only [failed, msgFetchFailed, msgFetched, msgWantPackage, msgHavePackage,
        msgFetching, msgFetchProgress, handleFetchFailed, endFetch]
      exact Board.closed_releaseIf found (by simp [isFetcher]) mem
  | _ => cases ends

/-- If winners of elections find no download with waiters, every returned channel that was not
signalled is among the waiters of its download, and whatever ends that signals it. -/
theorem waits_until_signalled (staleTimeout : Int) (cached : Str → Bool) (events : List (Event π))
    (spares : StepsMeet next StrandsNobody (.new staleTimeout cached) events) :
    let state := run next (.new staleTimeout cached) events
    ∀ id channel, (state.calls id).phase = .returned (.waitPeer channel) →
      (state.inFlight.channels channel).closed = false →
        ∃ entry, state.inFlight.entries.find? (state.calls id).hash = some entry ∧
          channel ∈ entry.waiters ∧
          ∀ event, EndsFetch (state.calls id).hash entry.data state event →
            ((next state event).inFlight.channels channel).closed = true := by
  intro state id channel returned unsignalled
  have attends : Attends state :=
    run_invariant_of_stepsMeet Attends (fun _ _ attends spares => attends.next spares)
      ⟨Board.sound_empty, nofun⟩ spares
  have attended := attends.waits id channel (by rw [returned]; rfl)
  have waiting := attended.resolve_left (by simp [unsignalled])
  unfold Board.waiters at waiting
  cases found : state.inFlight.entries.find? (state.calls id).hash with
  | none =>
    rw [found] at waiting
    cases waiting
  | some entry =>
    rw [found] at waiting
    exact ⟨entry, rfl, waiting, fun event ends =>
      closed_of_endsFetch attends.sound found waiting ends⟩

end Peers

/-- One call wins its election, with one peer that never answers, and a second one joins it. -/
def joinedRun : List (Event Nat) :=
  [.want 0 [1] 10, .lookUp 0, .prepare 0 5 [7], .register 0, .broadcast 0 [7], .timeout 0 1,
    .want 1 [1] 10, .lookUp 1, .join 1]

/-- The call that joined is signalled when the download is complete. -/
theorem signalled_after_joinedRun :
    let state := run next (.new 60 fun _ => false) joinedRun
    (state.calls 1).phase = .returned (.waitPeer 0) ∧
      ((next state (.notifyComplete [1])).inFlight.channels 0).closed = true := by
  have spares : StepsMeet next StrandsNobody (.new 60 fun _ => false) joinedRun := by
    decide +kernel
  have returned : ((run next (.new 60 fun _ => false) joinedRun).calls 1).phase =
      .returned (.waitPeer 0) := by decide +kernel
  have unsignalled : ((run next (.new 60 fun _ => false) joinedRun).inFlight.channels 0).closed =
      false := by decide +kernel
  have sameHash : [1] = ((run next (.new 60 fun _ => false) joinedRun).calls 1).hash := by
    decide +kernel
  obtain ⟨entry, -, -, signals⟩ :=
    waits_until_signalled 60 (fun _ => false) joinedRun spares 1 0 returned unsignalled
  exact ⟨returned, signals (.notifyComplete [1]) sameHash⟩

/-- A peer announces its download, a second call waits, and the timer of the first expires. -/
def strandedRun : List (Event Nat) :=
  [.want 0 [1] 10, .lookUp 0, .prepare 0 5 [7], .register 0, .broadcast 0 [7],
    .receive 7 ⟨msgFetching, 9, [1], 10, 0⟩, .handle false 1, .handle false 1, .handle false 1,
    .want 1 [1] 10, .lookUp 1, .join 1, .readFetching 0 2, .timeout 0 3]

/-- The channel is not among the waiters, and the end of the download does not signal it. -/
theorem stranded_after_strandedRun :
    let state := run next (.new 60 fun _ => false) strandedRun
    (state.calls 1).phase = .returned (.waitPeer 0) ∧
      (state.inFlight.channels 0).closed = false ∧
      (state.inFlight.look [1]).isSome = true ∧ state.inFlight.waiters [1] = [] ∧
      ((next state (.notifyComplete [1])).inFlight.channels 0).closed = false := by
  decide +kernel

end Debswarm.Coordinator
