import Debswarm.Coordinator.Core
import Debswarm.Sync.Outcomes

/-!
# Where a call goes

A step moves one call on at most.  Only the handler changes what it is doing, and only calls
change registrations.  A call goes from phase to phase with its own steps, and only the steps
named here begin to wait for a peer, claim a download or end a call.  Whatever happens, the
downloads are changed by operations of the board alone.
-/

namespace Debswarm.Coordinator

open Fleet (WireMessage)
open Function Option Sync Text

universe u

variable {π : Type u}

/-! ## Steps of a call -/

/-- The steps of the handler, and those that register or unregister a call. -/
def Event.usesDesk : Event π → Bool
  | .register _ | .leave _ | .handle _ _ => true
  | _ => false

/-- The call whose step an event is. -/
def Event.call? : Event π → Option Nat
  | .want id _ _ | .lookUp id | .join id | .prepare id _ _ | .register id | .broadcast id _
  | .readHave id | .readWant id | .readFetching id _ | .readDontHave id _ | .timeout id _
  | .cancel id | .leave id => some id
  | .notifyFetching .. | .notifyProgress .. | .notifyComplete _ | .notifyFailed .. | .receive ..
  | .handle .. | .reapStale _ | .cache _ => none

/-- How a step revises downloads: their fetchers stay, unless we announce that we fetch. -/
def Revises (event : Event π) (hash : Str) (before after : FetchState π) : Prop :=
  after.fetcher = before.fetcher ∨
    ((∃ size nonce now, event = .notifyFetching hash size nonce now) ∧ after.fetcher = none)

variable [DecidableEq π]

/-- The call after it has read the answer of the last peer. -/
def Call.lastAnswer (call : Call π) : Option (Call π) :=
  match call.dontHaves with
  | [] => none
  | response :: rest =>
    let heard := call.hear response rest
    if heard.awaiting = [] then some heard else none

theorem Call.hash_of_lastAnswer {call heard : Call π} (isLast : call.lastAnswer = some heard) :
    heard.hash = call.hash := by
  unfold Call.lastAnswer at isLast
  split at isLast
  · cases isLast
  · dsimp only at isLast
    split at isLast
    · cases isLast
      rfl
    · cases isLast

/-- The call that begins to wait for a peer in a step, and that peer. -/
def State.attaches (state : State π) : Event π → Option (Nat × FetchingResponse π)
  | .readFetching id _ =>
    if (state.calls id).phase = .electing then
      match (state.calls id).fetchings with
      | [] => none
      | fetcher :: _ =>
        if fetcher.nonce < (state.calls id).nonce then some (id, fetcher) else none
    else none
  | .readDontHave id _ =>
    if (state.calls id).phase = .electing then
      ((state.calls id).lastAnswer.bind Call.elected).map fun winner => (id, winner)
    else none
  | .timeout id _ =>
    if (state.calls id).phase = .electing then
      (state.calls id).elected.map fun winner => (id, winner)
    else none
  | _ => none

/-- The hash whose download a call claims in a step: nobody was elected. -/
def State.claims (state : State π) : Event π → Option Str
  | .readDontHave id _ =>
    if (state.calls id).phase = .electing ∧
        (state.calls id).lastAnswer.any (fun heard => heard.elected = none) then
      some (state.calls id).hash
    else none
  | .timeout id _ =>
    if (state.calls id).phase = .electing ∧ (state.calls id).elected = none then
      some (state.calls id).hash
    else none
  | _ => none

/-- Where the phase of a call goes in a step. -/
inductive CallStep (state : State π) (event : Event π) (id : Nat) : Phase π → Phase π → Prop
  | stays (phase : Phase π) : CallStep state event id phase phase
  | wants {after : Phase π} (goes : after = .returned (.fetchWAN false) ∨ after = .lookingUp) :
      CallStep state event id .idle after
  | finds (isEvent : event = .lookUp id)
      (found : (state.inFlight.look (state.calls id).hash).isSome = true) :
      CallStep state event id .lookingUp .joining
  | seeks : CallStep state event id .lookingUp .preparing
  | joins (isEvent : event = .join id) (channel : Nat)
      (joined : (state.inFlight.join (state.calls id).hash).1 = some channel) :
      CallStep state event id .joining (.returned (.waitPeer channel))
  | misses : CallStep state event id .joining (.returned (.fetchWAN false))
  | prepares {after : Phase π}
      (goes : after = .returned (.fetchWAN false) ∨ after = .registering) :
      CallStep state event id .preparing after
  | registers (isEvent : event = .register id) :
      CallStep state event id .registering .broadcasting
  | broadcasts {after : Phase π}
      (goes : after = .leaving (.fetchWAN false) ∨ after = .electing) :
      CallStep state event id .broadcasting after
  | decides (result : WantResult π) (noWait : ∀ channel, result ≠ .waitPeer channel) :
      CallStep state event id .electing (.leaving result)
  | attaches (winner : FetchingResponse π) (attached : state.attaches event = some (id, winner)) :
      CallStep state event id .electing (.leaving (.waitPeer state.inFlight.made))
  | closes (result : WantResult π) :
      CallStep state event id (.leaving result) (.unregistering result)
  | returns (isEvent : event = .leave id) (result : WantResult π) :
      CallStep state event id (.unregistering result) (.returned result)

/-- A call keeps its hash. One that begins to wait for a peer joins the download of its hash or
records it, and a download that is claimed is written anew. -/
structure OwnStep (state : State π) (event : Event π) (own : Nat) (after : State π) : Prop where
  others : ∀ id, id ≠ own → after.calls id = state.calls id
  handling : after.handling = state.handling
  desk : event.usesDesk = false → after.pendingWants = state.pendingWants
  hash : (state.calls own).phase ≠ .idle → (after.calls own).hash = (state.calls own).hash
  phase : CallStep state event own (state.calls own).phase (after.calls own).phase
  moves : Board.Moves (fun hash => state.claims event = some hash) (Revises event) state.inFlight
    after.inFlight
  attached : ∀ id winner, state.attaches event = some (id, winner) → id = own ∧
    (state.calls own).phase = .electing ∧
    (after.calls own).phase = .leaving (.waitPeer state.inFlight.made) ∧
    ∃ download : FetchState π, download.fetcher = some winner.peer ∧
      after.inFlight = (state.inFlight.joinOrAdd (state.calls own).hash download).2
  claimed : ∀ hash, state.claims event = some hash →
    ∃ download, after.inFlight = state.inFlight.replace hash download

variable {own id : Nat} {state : State π} {event : Event π}

theorem OwnStep.plain {call : Call π} {inFlight : Board Str (FetchState π) Signal}
    {pendingWants : Table Str Nat} {sent : List (Option π × WireMessage)}
    (quiet : state.attaches event = none ∧ state.claims event = none)
    (goes : CallStep state event own (state.calls own).phase call.phase)
    (hash : (state.calls own).phase ≠ .idle → call.hash = (state.calls own).hash)
    (desk : event.usesDesk = false → pendingWants = state.pendingWants)
    (moves : Board.Moves (fun hash => state.claims event = some hash) (Revises event)
      state.inFlight inFlight) : OwnStep state event own
      { state with calls := update state.calls own call, inFlight, pendingWants, sent } where
  others := fun id different => update_of_ne different ..
  handling := rfl
  desk := desk
  hash := by simpa using hash
  phase := by simpa using goes
  moves := moves
  attached := by simp [quiet.1]
  claimed := by simp [quiet.2]

theorem OwnStep.read (call : Call π) (sameHash : call.hash = (state.calls own).hash)
    (samePhase : call.phase = (state.calls own).phase)
    (quiet : state.attaches event = none ∧ state.claims event = none) :
    OwnStep state event own (state.setCall own call) :=
  .plain quiet (samePhase ▸ .stays _) (fun _ => sameHash) (fun _ => rfl) (.refl _)

theorem OwnStep.refl (own : Nat) (quiet : state.attaches event = none ∧ state.claims event = none) :
    OwnStep state event own state := by
  have read := OwnStep.read (state.calls own) rfl rfl quiet
  rwa [State.setCall, update_eq_self] at read

theorem OwnStep.during {phase : Phase π} {step : State π → State π}
    (quiet : (state.calls own).phase ≠ phase →
      state.attaches event = none ∧ state.claims event = none)
    (goes : (state.calls own).phase = phase → OwnStep state event own (step state)) :
    OwnStep state event own (state.during phase own step) := by
  unfold State.during
  split
  · rename_i inPhase
    exact goes inPhase
  · rename_i elsewhere
    exact .refl own (quiet elsewhere)

theorem OwnStep.plainly {call : Call π} {pendingWants : Table Str Nat}
    {sent : List (Option π × WireMessage)} {phase : Phase π} {step : State π → State π}
    (made : step state = { state with calls := update state.calls own call, pendingWants, sent })
    (goes : CallStep state event own phase call.phase)
    (quiet : state.attaches event = none ∧ state.claims event = none)
    (hash : phase ≠ .idle → call.hash = (state.calls own).hash)
    (desk : event.usesDesk = false → pendingWants = state.pendingWants) :
    OwnStep state event own (state.during phase own step) := by
  refine .during (fun _ => quiet) fun was => ?_
  subst was
  rw [made]
  exact .plain quiet goes hash desk (.refl _)

theorem ownStep_waitFor {winner : FetchingResponse π} (now : Int) {call : Call π}
    (sameHash : call.hash = (state.calls own).hash) (electing : (state.calls own).phase = .electing)
    (attached : state.attaches event = some (own, winner)) (unclaimed : state.claims event = none) :
    OwnStep state event own (waitFor now winner own (state.setCall own call)) where
  others := fun id different => by simp [waitFor, different]
  handling := rfl
  desk := fun _ => rfl
  hash := fun _ => by simp [waitFor, sameHash]
  phase := by
    rw [electing]
    simpa [waitFor, Board.joinOrAdd] using .attaches winner attached
  moves := .joinOrAdd ..
  attached := by
    intro id other isAttached
    cases attached.symm.trans isAttached
    refine ⟨rfl, electing, ?_, .start call.size (some winner.peer) winner.nonce now, rfl, ?_⟩
    · simp [waitFor, Board.joinOrAdd]
    · simp [waitFor, sameHash]
  claimed := by simp [unclaimed]

/-- A call that resolves its claim window waits for the elected peer or claims the download. -/
theorem ownStep_resolve (now : Int) {call : Call π} (sameHash : call.hash = (state.calls own).hash)
    (electing : (state.calls own).phase = .electing)
    (attached : state.attaches event = call.elected.map fun winner => (own, winner))
    (claimed : state.claims event = if call.elected = none then some (state.calls own).hash
      else none) : OwnStep state event own (resolve now own (state.setCall own call)) := by
  cases elected : call.elected with
  | some winner =>
    rw [elected] at attached claimed
    have waits := ownStep_waitFor now sameHash electing attached claimed
    simpa only [resolve, State.setCall, update_self, elected] using waits
  | none =>
    rw [elected] at attached claimed
    simp only [resolve, State.setCall, update_self, elected, sameHash]
    exact
      { others := fun id different => by simp [different]
        handling := rfl
        desk := fun _ => rfl
        hash := fun _ => by simp [sameHash]
        phase := by
          rw [electing]
          simpa [State.goTo] using .decides (.fetchWAN false) (fun _ => by simp)
        moves := .replace _ _ _ claimed
        attached := by simp [attached]
        claimed := by
          intro hash isClaimed
          cases claimed.symm.trans isClaimed
          exact ⟨_, rfl⟩ }

theorem ownStep_next (isOwn : event.call? = some own) :
    OwnStep state event own (next state event) := by
  cases event with
  | want _ hash size =>
    cases isOwn
    exact .plainly rfl (.wants (ite_eq_or_eq ..)) ⟨rfl, rfl⟩ (absurd rfl) fun _ => rfl
  | lookUp _ =>
    cases isOwn
    refine .plainly rfl ?_ ⟨rfl, rfl⟩ (fun _ => rfl) fun _ => rfl
    dsimp only
    split
    · rename_i found
      exact .finds rfl found
    · exact .seeks
  | join _ =>
    cases isOwn
    refine .during (fun _ => ⟨rfl, rfl⟩) fun was => ?_
    unfold Coordinator.join
    split
    · rename_i channel inFlight joined
      have moves : Board.Moves (fun hash => state.claims (.join own) = some hash)
          (Revises (.join own)) state.inFlight _ := .join (state.calls own).hash _
      rw [joined] at moves
      exact .plain ⟨rfl, rfl⟩ (was ▸ .joins rfl channel (by rw [joined])) (fun _ => rfl)
        (fun _ => rfl) moves
    · exact .plain ⟨rfl, rfl⟩ (was ▸ .misses) (fun _ => rfl) (fun _ => rfl) (.refl _)
  | prepare _ nonce fleetPeers =>
    cases isOwn
    exact .plainly rfl (.prepares (ite_eq_or_eq ..)) ⟨rfl, rfl⟩ (fun _ => rfl) fun _ => rfl
  | register _ =>
    cases isOwn
    exact .plainly rfl (.registers rfl) ⟨rfl, rfl⟩ (fun _ => rfl) fun elsewhere => by
      cases elsewhere
  | broadcast _ sentTo =>
    cases isOwn
    exact .plainly rfl (.broadcasts (ite_eq_or_eq ..)) ⟨rfl, rfl⟩ (fun _ => rfl) fun _ => rfl
  | readHave _ =>
    cases isOwn
    refine .during (fun _ => ⟨rfl, rfl⟩) fun was => ?_
    unfold readHave
    dsimp only
    split
    · exact .refl own ⟨rfl, rfl⟩
    · exact .plain ⟨rfl, rfl⟩ (was ▸ .decides _ fun _ => by simp) (fun _ => rfl) (fun _ => rfl)
        (.refl _)
  | readWant _ =>
    cases isOwn
    refine .during (fun _ => ⟨rfl, rfl⟩) fun _ => ?_
    unfold readWant
    dsimp only
    split
    · exact .refl own ⟨rfl, rfl⟩
    · exact .read _ rfl rfl ⟨rfl, rfl⟩
  | readFetching _ now =>
    cases isOwn
    refine .during (fun notElecting => ?_) fun was => ?_
    · simp [State.attaches, State.claims, notElecting]
    unfold readFetching
    dsimp only
    split
    · rename_i none
      exact .refl own (by simp [State.attaches, State.claims, none])
    · rename_i fetcher rest fetchings
      split
      · rename_i lower
        exact ownStep_waitFor now rfl was (by simp [State.attaches, was, fetchings, lower]) rfl
      · rename_i higher
        exact .read _ rfl rfl (by simp [State.attaches, State.claims, fetchings, higher])
  | readDontHave _ now =>
    cases isOwn
    refine .during (fun notElecting => ?_) fun was => ?_
    · simp [State.attaches, State.claims, notElecting]
    unfold readDontHave
    dsimp only
    split
    · rename_i none
      exact .refl own (by simp [State.attaches, State.claims, Call.lastAnswer, none])
    · rename_i response rest dontHaves
      split
      · rename_i last
        refine ownStep_resolve now rfl was ?_ ?_ <;>
          simp [State.attaches, State.claims, Call.lastAnswer, was, dontHaves, last]
      · rename_i more
        exact .read _ rfl rfl (by
          simp [State.attaches, State.claims, Call.lastAnswer, dontHaves, more])
  | timeout _ now =>
    cases isOwn
    refine .during (fun notElecting => ?_) fun was => ?_
    · simp [State.attaches, State.claims, notElecting]
    have resolves : OwnStep state (.timeout own now) own _ := ownStep_resolve now rfl was
      (by simp [State.attaches, was]) (by simp [State.claims, was])
    rwa [State.setCall, update_eq_self] at resolves
  | cancel _ =>
    cases isOwn
    exact .plainly rfl (.decides _ fun _ => by simp) ⟨rfl, rfl⟩ (fun _ => rfl) fun _ => rfl
  | leave _ =>
    cases isOwn
    simp only [next, leave]
    split
    · rename_i result was
      exact .plain ⟨rfl, rfl⟩ (was ▸ .closes result) (fun _ => rfl) (fun _ => rfl) (.refl _)
    · rename_i result was
      exact .plain ⟨rfl, rfl⟩ (was ▸ .returns rfl result) (fun _ => rfl)
        (fun elsewhere => by cases elsewhere) (.refl _)
    · exact .refl own ⟨rfl, rfl⟩
  | _ => cases isOwn

/-! ## The handler -/

omit [DecidableEq π] in
/-- A delivery fills the channels of a call and leaves its hash and its phase alone. -/
theorem deliver_cases (giveUp : Bool) (receiver : Nat) (delivery : Delivery π) (state : State π) :
    ∃ call handling sent, call.hash = (state.calls receiver).hash ∧
      call.phase = (state.calls receiver).phase ∧ deliver giveUp receiver delivery state =
        { state with calls := update state.calls receiver call, handling, sent } := by
  have finished : ∀ call, call.hash = (state.calls receiver).hash →
      call.phase = (state.calls receiver).phase → ∃ other handling sent,
        other.hash = (state.calls receiver).hash ∧
        other.phase = (state.calls receiver).phase ∧
        finishDelivery (state.calls receiver) delivery (state.setCall receiver call) = { state with
            calls := update state.calls receiver other, handling, sent } := by
    intro call sameHash samePhase
    cases delivery <;> exact ⟨call, _, _, sameHash, samePhase, rfl⟩
  have unchanged : state.setCall receiver (state.calls receiver) = state := by
    rw [State.setCall, update_eq_self]
  have given := finished (state.calls receiver) rfl rfl
  rw [unchanged] at given
  unfold deliver
  dsimp only
  split
  · rename_i pushed isPushed
    split
    · exact given
    · exact finished pushed (Call.push_eq isPushed).1 (Call.push_eq isPushed).2
  · split
    · exact given
    · exact ⟨state.calls receiver, _, _, rfl, rfl, unchanged.symm⟩

omit [DecidableEq π] in
theorem handleWantPackage_eq (sender : π) (message : WireMessage) (check : Check)
    (state : State π) : ∃ handling sent,
      handleWantPackage sender message check state = { state with handling, sent } := by
  unfold handleWantPackage
  split <;> split <;> exact ⟨_, _, rfl⟩

/-- The handler changes calls only by delivering to them, and no registration. -/
theorem handle_cases (giveUp : Bool) (now : Int) (state : State π) :
    (handle giveUp now state).pendingWants = state.pendingWants ∧
      ∀ id, ((handle giveUp now state).calls id).hash = (state.calls id).hash ∧
        ((handle giveUp now state).calls id).phase = (state.calls id).phase := by
  unfold handle
  split
  · split
    · exact ⟨rfl, fun _ => ⟨rfl, rfl⟩⟩
    · unfold handleMessage
      repeat' split
      all_goals exact ⟨rfl, fun _ => ⟨rfl, rfl⟩⟩
  · rename_i sender message check _
    obtain ⟨handling, sent, answered⟩ := handleWantPackage_eq sender message check state
    rw [answered]
    exact ⟨rfl, fun _ => ⟨rfl, rfl⟩⟩
  · exact ⟨rfl, fun _ => ⟨rfl, rfl⟩⟩
  · rename_i receiver delivery _
    obtain ⟨call, handling, sent, sameHash, samePhase, delivered⟩ :=
      deliver_cases giveUp receiver delivery state
    rw [delivered]
    refine ⟨rfl, fun id => ?_⟩
    by_cases same : id = receiver
    · subst same
      simp only [update_self]
      exact ⟨sameHash, samePhase⟩
    · simp [same]

/-! ## All steps -/

theorem sameDesk_next (elsewhere : event.usesDesk = false) :
    (next state event).handling = state.handling ∧
      (next state event).pendingWants = state.pendingWants := by
  cases isCall : event.call? with
  | some own => exact ⟨(ownStep_next isCall).handling, (ownStep_next isCall).desk elsewhere⟩
  | none =>
    cases event with
    | receive sender message =>
      simp only [next, receive]
      split <;> exact ⟨rfl, rfl⟩
    | handle giveUp now => cases elsewhere
    | notifyFetching | notifyProgress | notifyComplete | notifyFailed | reapStale | cache =>
      exact ⟨rfl, rfl⟩
    | _ => cases isCall

theorem handling_next (notHandler : ∀ giveUp now, event ≠ .handle giveUp now) :
    (next state event).handling = state.handling := by
  cases usesDesk : event.usesDesk with
  | false => exact (sameDesk_next usesDesk).1
  | true =>
    cases event with
    | register id | leave id => exact (ownStep_next rfl).handling
    | handle giveUp now => exact absurd rfl (notHandler giveUp now)
    | _ => cases usesDesk

theorem calls_next_other (other : event.call? ≠ some id) :
    ((next state event).calls id).hash = (state.calls id).hash ∧
      ((next state event).calls id).phase = (state.calls id).phase := by
  cases isCall : event.call? with
  | some own =>
    have different : id ≠ own := fun same => other (isCall.trans (congrArg some same.symm))
    rw [(ownStep_next isCall).others id different]
    exact ⟨rfl, rfl⟩
  | none =>
    cases event with
    | receive sender message =>
      simp only [next, receive]
      split <;> exact ⟨rfl, rfl⟩
    | handle giveUp now => exact (handle_cases giveUp now state).2 id
    | notifyFetching | notifyProgress | notifyComplete | notifyFailed | reapStale | cache =>
      exact ⟨rfl, rfl⟩
    | _ => cases isCall

theorem callStep_next (state : State π) (event : Event π) (id : Nat) :
    CallStep state event id (state.calls id).phase ((next state event).calls id).phase := by
  by_cases own : event.call? = some id
  · exact (ownStep_next own).phase
  · rw [(calls_next_other own).2]
    exact .stays _

theorem hash_next (event : Event π) (notIdle : (state.calls id).phase ≠ .idle) :
    ((next state event).calls id).hash = (state.calls id).hash := by
  by_cases own : event.call? = some id
  · exact (ownStep_next own).hash notIdle
  · exact (calls_next_other own).1

end Debswarm.Coordinator
