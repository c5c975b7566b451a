import Debswarm.Coordinator.Calls
import Debswarm.Transition.Run

/-!
# What a coordinator answers to a peer that wants a package

The handler of a request looks at the cache, then for a download of our own, then for a call of
our own that waits in its election, each under its own lock.  A call that wins its election
first records our download and is unregistered afterwards.  If both happen between the last two
looks, the peer is told that we do not want the package.

If each call finds its hash unregistered when it registers, and no call is unregistered between
the two looks for its hash, then a peer is never told so while we are waiting in an election or
fetching all along.
-/

namespace Debswarm.Coordinator

open Fleet (WireMessage msgWantPackage msgHavePackage msgFetching msgFetchProgress
  msgFetched msgFetchFailed msgDontHave)
open Sync Table Text Transition

universe u

variable {π : Type u}

section

/-- A call is registered from its registration until it is unregistered. -/
def Phase.isRegistered : Phase π → Bool
  | .broadcasting | .electing | .leaving _ | .unregistering _ => true
  | .idle | .lookingUp | .joining | .preparing | .registering | .returned _ => false

/-- Every call that should be registered is. -/
def Registered (state : State π) : Prop :=
  ∀ id, (state.calls id).phase.isRegistered = true →
    state.pendingWants.find? (state.calls id).hash = some id

variable [DecidableEq π] {state : State π} {event : Event π}

/-- A call that should be registered after a step should have been before, or it registers. -/
theorem CallStep.isRegistered {id : Nat} {before after : Phase π}
    (step : CallStep state event id before after) (isRegistered : after.isRegistered = true) :
    before ≠ .idle ∧
      (before.isRegistered = true ∨ (event = .register id ∧ before = .registering)) := by
  cases step with
  | stays =>
    refine ⟨?_, .inl isRegistered⟩
    rintro rfl
    cases isRegistered
  | registers isEvent => exact ⟨by simp, .inr ⟨isEvent, rfl⟩⟩
  | _ => grind [Phase.isRegistered]

/-- A call registers where no other is, and takes only its own registration away. -/
theorem Registered.find?_next (registered : Registered state) {id : Nat} {hash : Str}
    (found : state.pendingWants.find? hash = some id)
    (free : ∀ own, event = .register own → (state.calls own).phase = .registering →
      state.pendingWants.find? (state.calls own).hash = none)
    (stays : ∀ result, event = .leave id → (state.calls id).phase ≠ .unregistering result) :
    (next state event).pendingWants.find? hash = some id := by
  cases usesDesk : event.usesDesk with
  | false =>
    rw [(sameDesk_next usesDesk).2]
    exact found
  | true =>
    cases event with
    | register own =>
      simp only [next, State.during]
      split
      · rename_i registering
        have otherHash : hash ≠ (state.calls own).hash := by
          intro same
          rw [same, free own rfl registering] at found
          cases found
        simp only [register, State.goTo_pendingWants, find?_set, if_neg otherHash]
        exact found
      · exact found
    | leave own =>
      simp only [next, leave]
      split
      · exact found
      · rename_i result unregistering
        have otherHash : hash ≠ (state.calls own).hash := by
          intro same
          rw [same, registered own (by rw [unregistering]; rfl)] at found
          cases found
          exact stays result rfl unregistering
        simp only [unregister, State.goTo_pendingWants, find?_delete_ne _ otherHash]
        exact found
      · exact found
    | handle giveUp now =>
      rw [next, (handle_cases giveUp now state).1]
      exact found
    | _ => cases usesDesk

/-- Calls that register where no other is registered keep every registration. -/
theorem Registered.next (registered : Registered state)
    (free : ∀ id, event = .register id → (state.calls id).phase = .registering →
      state.pendingWants.find? (state.calls id).hash = none) :
    Registered (next state event) := by
  intro id isRegistered
  obtain ⟨notIdle, was | ⟨isEvent, registering⟩⟩ :=
    (callStep_next state event id).isRegistered isRegistered
  · rw [hash_next event notIdle]
    apply registered.find?_next (registered id was) free
    rintro result rfl unregistering
    simp [Coordinator.next, leave, unregistering, unregister,
      Phase.isRegistered] at isRegistered
  · rw [hash_next event notIdle, isEvent]
    simp [Coordinator.next, State.during, registering, register,
      find?_set]

end

/-! ## Answers -/

/-- We wait in an election for a package, or it is recorded that we fetch it. -/
def Occupied (hash : Str) (state : State π) : Prop :=
  (∃ id, (state.calls id).phase = .electing ∧ (state.calls id).hash = hash) ∨
    ∃ download, state.inFlight.look hash = some download ∧ download.fetcher = none

/-- The package of the request that is being handled. -/
def State.asked? (state : State π) : Option Str :=
  match state.handling with
  | .answering _ message _ => some message.hash
  | .sending id (.want _) => some (state.calls id).hash
  | _ => none

/-- A coordinator, and whether it was occupied with a package since before it handled a request. -/
structure Asked (π : Type u) where
  coordinator : State π
  occupied : Prop

def Asked.new (staleTimeout : Int) (cached : Str → Bool) : Asked π :=
  ⟨.new staleTimeout cached, False⟩

def Asked.next [DecidableEq π] (asked : Asked π) (event : Event π) : Asked π :=
  let after := Coordinator.next asked.coordinator event
  ⟨after,
    match after.asked? with
    | none => False
    | some hash => Occupied hash after ∧
        match asked.coordinator.asked? with
        | none => Occupied hash asked.coordinator
        | some _ => asked.occupied⟩

/-! ## The condition -/

/-- The handler has found no download of our own for a hash and looks for a call next. -/
def BetweenLooks (hash : Str) : Handling π → Bool
  | .answering _ message .pendingWants => message.hash = hash
  | _ => false

/-- A call registers where no other is, and unregisters between no two looks of the handler. -/
def Undisturbed (state : State π) : Event π → Prop
  | .register id => (state.calls id).phase = .registering →
      state.pendingWants.find? (state.calls id).hash = none
  | .leave id => (∃ result, (state.calls id).phase = .unregistering result) →
      BetweenLooks (state.calls id).hash state.handling = false
  | _ => True

/-- What holds between the looks of the handler. -/
structure Attentive (asked : Asked π) : Prop where
  registered : Registered asked.coordinator
  occupied : asked.occupied → ∃ hash, asked.coordinator.asked? = some hash ∧
    Occupied hash asked.coordinator
  wanted : asked.occupied → ∀ hash, BetweenLooks hash asked.coordinator.handling = true →
    (asked.coordinator.pendingWants.find? hash).isSome = true

section Peers

variable [DecidableEq π]

/-! ## Between the looks -/

/-- While the handler is between its looks for a hash, the registration for it stays. -/
theorem isSome_pendingWants_next {state : State π} {event : Event π} {hash : Str}
    (undisturbed : Undisturbed state event) (notHandler : ∀ giveUp now, event ≠ .handle giveUp now)
    (between : BetweenLooks hash state.handling = true)
    (wanted : (state.pendingWants.find? hash).isSome = true) :
    ((next state event).pendingWants.find? hash).isSome = true := by
  cases usesDesk : event.usesDesk with
  | false =>
    rw [(sameDesk_next usesDesk).2]
    exact wanted
  | true =>
    cases event with
    | register id =>
      simp only [next, State.during]
      split
      · simp only [Coordinator.register, State.goTo_pendingWants, Table.find?_set]
        split
        · rfl
        · exact wanted
      · exact wanted
    | leave id =>
      simp only [next, leave]
      split
      · exact wanted
      · rename_i result unregistering
        have otherHash : hash ≠ (state.calls id).hash := by
          intro same
          have notBetween := undisturbed ⟨result, unregistering⟩
          rw [← same, between] at notBetween
          cases notBetween
        simp only [unregister, State.goTo_pendingWants, Table.find?_delete_ne _ otherHash]
        exact wanted
      · exact wanted
    | handle giveUp now => exact absurd rfl (notHandler giveUp now)
    | _ => cases usesDesk

/-- How the handler gets between its looks: it finds no download of our own. -/
theorem between_of_handle {state : State π} {giveUp : Bool} {now : Int} {hash : Str}
    (between : BetweenLooks hash (handle giveUp now state).handling = true) :
    (∃ sender message, state.handling = .answering sender message .inFlight ∧
        message.hash = hash) ∧
      ∀ download, state.inFlight.look hash = some download → download.fetcher ≠ none := by
  cases handling : state.handling with
  | idle =>
    simp only [handle, handling] at between
    split at between
    · simp [handling, BetweenLooks] at between
    · unfold handleMessage route at between
      repeat' split at between
      all_goals simp [BetweenLooks, handleFetching, handleFetchProgress, handleFetched,
        handleFetchFailed, endFetch] at between
  | routing other delivery =>
    simp only [handle, handling, route] at between
    split at between <;> cases between
  | sending id delivery =>
    simp only [handle, handling, deliver] at between
    cases delivery <;> simp only [finishDelivery] at between <;>
      (repeat' split at between) <;>
        simp [BetweenLooks, State.reply, handling] at between
  | answering sender message check =>
    cases check with
    | cache | pendingWants =>
      simp only [handle, handling, handleWantPackage] at between
      split at between <;> cases between
    | inFlight =>
      simp only [handle, handling, handleWantPackage] at between
      split at between
      · cases between
      · rename_i notOurs
        simp only [BetweenLooks, decide_eq_true_eq] at between
        subst between
        refine ⟨⟨sender, message, rfl, rfl⟩, ?_⟩
        rintro ⟨size, fetcher, nonce, offset, startTime, lastUpdate⟩ found isOurs
        cases isOurs
        exact notOurs size nonce offset startTime lastUpdate found

theorem Attentive.next {asked : Asked π} (attentive : Attentive asked) {event : Event π}
    (undisturbed : Undisturbed asked.coordinator event) : Attentive (asked.next event) where
  registered := by
    apply attentive.registered.next
    rintro id rfl
    exact undisturbed
  occupied := by
    intro occupied
    simp only [Asked.next] at occupied ⊢
    split at occupied
    · exact occupied.elim
    · rename_i hash isAsked
      exact ⟨hash, isAsked, occupied.1⟩
  wanted := by
    intro occupied hash between
    simp only [Asked.next] at occupied between ⊢
    split at occupied
    · exact occupied.elim
    · obtain ⟨-, occupiedBefore⟩ := occupied
      by_cases handler : ∃ giveUp now, event = .handle giveUp now
      · obtain ⟨giveUp, now, rfl⟩ := handler
        obtain ⟨⟨sender, message, handling, sameHash⟩, notOurs⟩ := between_of_handle between
        have isAsked : asked.coordinator.asked? = some hash := by
          simp [State.asked?, handling, sameHash]
        rw [isAsked] at occupiedBefore
        obtain ⟨other, isOther, isOccupied⟩ := attentive.occupied occupiedBefore
        rw [isAsked] at isOther
        cases isOther
        rw [Coordinator.next, (handle_cases giveUp now asked.coordinator).1]
        rcases isOccupied with ⟨id, electing, hashEq⟩ | ⟨download, found, isOurs⟩
        · have isRegistered := attentive.registered id (by rw [electing]; rfl)
          rw [← hashEq, isRegistered]
          rfl
        · exact absurd isOurs (notOurs download found)
      · have notHandler : ∀ giveUp now, event ≠ .handle giveUp now :=
          fun giveUp now same => handler ⟨giveUp, now, same⟩
        rw [handling_next notHandler] at between
        have isAsked : ∃ other, asked.coordinator.asked? = some other := by
          unfold BetweenLooks at between
          split at between
          · rename_i sender message handling
            exact ⟨message.hash, by simp only [State.asked?, handling]⟩
          · cases between
        obtain ⟨other, isOther⟩ := isAsked
        rw [isOther] at occupiedBefore
        exact isSome_pendingWants_next undisturbed notHandler between
          (attentive.wanted occupiedBefore hash between)

/-! ## Replies -/

/-- What the handler of a request that finds a registered call says, if it says anything. -/
theorem reply_of_wanted {state : State π} {hash : Str} (isAsked : state.asked? = some hash)
    (wanted : ∀ other, BetweenLooks other state.handling = true →
      (state.pendingWants.find? other).isSome = true)
    {giveUp : Bool} {now : Int} {receiver : π} {reply : WireMessage}
    (sent : (handle giveUp now state).sent = state.sent ++ [(some receiver, reply)]) :
    reply.type ≠ msgDontHave ∨ reply.offset = 1 := by
  have silent : ¬ state.sent = state.sent ++ [(some receiver, reply)] := by
    intro same
    simpa using congrArg List.length same
  have replied : ∀ {asker : π} {message : WireMessage}, (state.reply asker message).sent =
      state.sent ++ [(some receiver, reply)] → message = reply := by
    intro asker message same
    have last := List.append_cancel_left same
    cases last
    rfl
  cases handling : state.handling with
  | idle | routing other delivery => simp [State.asked?, handling] at isAsked
  | answering sender message check =>
    left
    cases check with
    | cache =>
      simp only [handle, handling, handleWantPackage] at sent
      split at sent
      · rw [← replied sent]
        exact (by decide : msgHavePackage ≠ msgDontHave)
      · exact absurd sent silent
    | inFlight =>
      simp only [handle, handling, handleWantPackage] at sent
      split at sent
      · rw [← replied sent]
        exact (by decide : msgFetching ≠ msgDontHave)
      · exact absurd sent silent
    | pendingWants =>
      have isWanted := wanted message.hash (by simp [BetweenLooks, handling])
      obtain ⟨id, found⟩ := Option.isSome_iff_exists.mp isWanted
      simp only [handle, handling, handleWantPackage, found] at sent
      exact absurd sent silent
  | sending id delivery =>
    cases delivery with
    | want response =>
      right
      simp only [handle, handling, deliver, finishDelivery] at sent
      split at sent
      · split at sent <;> rw [← replied sent]
      · split at sent
        · rw [← replied sent]
        · exact absurd sent silent
    | _ => simp [State.asked?, handling] at isAsked

/-- If calls register where no other is, and stay registered between the looks of the handler, a
request that is handled while we elect or fetch is not answered without a mark. -/
theorem dontHave_marked_while_occupied (staleTimeout : Int) (cached : Str → Bool)
    (events : List (Event π))
    (undisturbed : StepsMeet Asked.next (fun asked event => Undisturbed asked.coordinator event)
      (.new staleTimeout cached) events) :
    let asked := run Asked.next (.new staleTimeout cached) events
    asked.occupied → ∀ giveUp now receiver reply,
      (next asked.coordinator (.handle giveUp now)).sent =
          asked.coordinator.sent ++ [(some receiver, reply)] →
        reply.type = msgDontHave → reply.offset = 1 := by
  intro asked occupied giveUp now receiver reply sent isDontHave
  have attentive : Attentive asked :=
    run_invariant_of_stepsMeet Attentive (fun _ _ attentive allowed => attentive.next allowed)
      ⟨nofun, False.elim, False.elim⟩ undisturbed
  obtain ⟨hash, isAsked, -⟩ := attentive.occupied occupied
  exact (reply_of_wanted isAsked (attentive.wanted occupied) sent).resolve_left
    (not_not_intro isDontHave)

end Peers

/-- A call waits in its election, and a peer that wants the package asks for it. -/
def askedRun : List (Event Nat) :=
  [.want 0 [1] 10, .lookUp 0, .prepare 0 5 [7], .register 0, .broadcast 0 [7],
    .receive 8 ⟨msgWantPackage, 9, [1], 10, 0⟩, .handle false 1, .handle false 1, .handle false 1,
    .handle false 1]

/-- The peer is told that we want the package too. -/
theorem marked_after_askedRun :
    let asked := run Asked.next (.new 60 fun _ => false) askedRun
    (next asked.coordinator (.handle false 1)).sent =
        asked.coordinator.sent ++ [(some 8, ⟨msgDontHave, 5, [1], 0, 1⟩)] ∧
      (∀ reply, (next asked.coordinator (.handle false 1)).sent =
          asked.coordinator.sent ++ [(some 8, reply)] →
        reply.type = msgDontHave → reply.offset = 1) := by
  intro asked
  have undisturbed : StepsMeet Asked.next
      (fun asked event => Undisturbed asked.coordinator event) (.new 60 fun _ => false)
      askedRun := by
    exact ⟨trivial, trivial, trivial, fun _ => rfl, trivial, trivial, trivial, trivial, trivial,
      trivial, trivial⟩
  have occupied : asked.occupied :=
    ⟨.inl ⟨0, rfl, rfl⟩, .inl ⟨0, rfl, rfl⟩, .inl ⟨0, rfl, rfl⟩, .inl ⟨0, rfl, rfl⟩,
      .inl ⟨0, rfl, rfl⟩⟩
  refine ⟨by decide +kernel, fun reply sent isDontHave => ?_⟩
  exact dontHave_marked_while_occupied 60 (fun _ => false) askedRun undisturbed occupied false 1 8
    reply sent isDontHave

/-- The same, but between the last two looks of the handler the call records our download. -/
def gapRun : List (Event Nat) :=
  [.want 0 [1] 10, .lookUp 0, .prepare 0 5 [7], .register 0, .broadcast 0 [7],
    .receive 8 ⟨msgWantPackage, 9, [1], 10, 0⟩, .handle false 1, .handle false 1, .handle false 1,
    .timeout 0 2, .leave 0, .leave 0]

/-- We were waiting or fetching all along, and the peer is told that we have no part in it. -/
theorem unmarked_after_gapRun :
    let asked := run Asked.next (.new 60 fun _ => false) gapRun
    asked.occupied ∧ (next asked.coordinator (.handle false 3)).sent =
      asked.coordinator.sent ++ [(some 8, ⟨msgDontHave, 0, [1], 0, 0⟩)] := by
  intro asked
  have occupied : asked.occupied :=
    ⟨.inr ⟨_, rfl, rfl⟩, .inr ⟨_, rfl, rfl⟩, .inr ⟨_, rfl, rfl⟩, .inl ⟨0, rfl, rfl⟩,
      .inl ⟨0, rfl, rfl⟩, .inl ⟨0, rfl, rfl⟩, .inl ⟨0, rfl, rfl⟩⟩
  exact ⟨occupied, by decide +kernel⟩

end Debswarm.Coordinator
