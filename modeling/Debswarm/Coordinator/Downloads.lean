import Debswarm.Coordinator.Calls

/-!
# What one step of a coordinator does to the downloads

A download that somebody waits for keeps its fetcher, unless we announce that we fetch it
ourselves, and a download that is claimed is a new one that nobody waits for.  A call gets its
channel in the step in which it joins the download of its hash, and it has that channel from
then on.
-/

namespace Debswarm.Coordinator

open Fleet (WireMessage)
open Function List Option Sync Text

universe u

variable {π : Type u} [DecidableEq π] {state : State π} {event : Event π} {id channel : Nat}

/-! ## Operations of the board -/

theorem moves_handle (giveUp : Bool) (now : Int) (state : State π)
    {claimed : Str → Prop} {revised : Str → FetchState π → FetchState π → Prop}
    (isRevised : ∀ hash old new, new.fetcher = old.fetcher → revised hash old new) :
    Board.Moves claimed revised state.inFlight (handle giveUp now state).inFlight := by
  unfold handle
  split
  · split
    · exact .refl _
    · unfold handleMessage
      split_ifs
      · exact .refl _
      · exact .refl _
      · exact .reviseOrAdd _ _ _ _ fun _ => isRevised _ _ _ rfl
      · dsimp only [handleFetchProgress]
        refine .revise _ _ _ fun download => isRevised _ _ _ ?_
        split <;> rfl
      · dsimp only [handleFetched, endFetch]
        exact .releaseIf _ _ _ _
      · dsimp only [handleFetchFailed, endFetch]
        exact .releaseIf _ _ _ _
      · exact .refl _
      · exact .refl _
  · rename_i sender message check _
    obtain ⟨handling, sent, answered⟩ := handleWantPackage_eq sender message check state
    rw [answered]
    exact .refl _
  · exact .refl _
  · rename_i receiver delivery _
    obtain ⟨call, handling, sent, -, -, delivered⟩ := deliver_cases giveUp receiver delivery state
    rw [delivered]
    exact .refl _

/-- Every step changes the downloads as the board does, and replaces only a claimed one. -/
theorem moves_next (state : State π) (event : Event π) :
    Board.Moves (fun hash => state.claims event = some hash) (Revises event) state.inFlight
      (next state event).inFlight := by
  cases isCall : event.call? with
  | some own => exact (ownStep_next isCall).moves
  | none =>
    cases event with
    | notifyFetching hash size nonce now =>
      dsimp only [next, notifyFetching]
      exact .reviseOrAdd _ _ _ _ fun _ => .inr ⟨⟨size, nonce, now, rfl⟩, rfl⟩
    | notifyProgress hash offset now =>
      dsimp only [next, notifyProgress]
      exact .revise _ _ _ fun _ => .inl rfl
    | notifyComplete hash =>
      dsimp only [next, notifyComplete]
      exact .releaseIf _ _ _ _
    | notifyFailed hash error =>
      dsimp only [next, notifyFailed]
      exact .releaseIf _ _ _ _
    | receive sender message =>
      simp only [next, receive]
      split <;> exact .refl _
    | handle giveUp now => exact moves_handle giveUp now state fun _ _ _ same => .inl same
    | reapStale now =>
      dsimp only [next, reapStale]
      exact .releaseAll _ _ _
    | cache cached => exact .refl _
    | _ => cases isCall

/-- Downloads with waiters come from before the step, which did not claim them. -/
theorem inherits_next (state : State π) (event : Event π) :
    Board.Inherits (fun hash before after => state.claims event ≠ some hash ∧
      Revises event hash before after) state.inFlight (next state event).inFlight := by
  intro hash entry found channel waits old
  obtain ⟨before, wasThere, waited, carried⟩ :=
    (moves_next state event).inherits hash entry found channel waits old
  refine ⟨before, wasThere, waited, fun claims => ?_, carried.elim (fun same => .inl ?_) id⟩
  · cases isCall : event.call? with
    | some own =>
      obtain ⟨download, replaced⟩ := (ownStep_next isCall).claimed hash claims
      rw [replaced, Board.replace, Table.find?_set, if_pos rfl] at found
      cases found
      cases waits
    | none => cases event <;> cases isCall <;> cases claims
  · rw [same]

theorem next_of_attaches {winner : FetchingResponse π}
    (attached : state.attaches event = some (id, winner)) :
    (state.calls id).phase = .electing ∧
      ((next state event).calls id).phase = .leaving (.waitPeer state.inFlight.made) ∧
      ∃ download : FetchState π, download.fetcher = some winner.peer ∧
        (next state event).inFlight =
          (state.inFlight.joinOrAdd (state.calls id).hash download).2 := by
  cases isCall : event.call? with
  | some own =>
    obtain ⟨rfl, attaches⟩ := (ownStep_next isCall).attached id winner attached
    exact attaches
  | none => cases event <;> cases isCall <;> cases attached

/-! ## The channel of a call -/

/-- The channel of a call that has decided to wait. -/
def Phase.channel? : Phase π → Option Nat
  | .leaving (.waitPeer channel) => some channel
  | .unregistering (.waitPeer channel) => some channel
  | .returned (.waitPeer channel) => some channel
  | _ => none

/-- The channel of a call that waits for the peer it elected and has not returned yet. -/
def Phase.returning? : Phase π → Option Nat
  | .leaving (.waitPeer channel) => some channel
  | .unregistering (.waitPeer channel) => some channel
  | _ => none

section CallStep

variable {before after : Phase π} (step : CallStep state event id before after)

include step

theorem CallStep.looked (notIdle : before ≠ .idle) :
    after ≠ .idle ∧ (before ≠ .lookingUp → after ≠ .lookingUp) := by
  cases step <;> grind

/-- A call had its channel before, or has just joined the download of its hash. -/
theorem CallStep.channel_cases (waits : after.channel? = some channel) :
    before ≠ .idle ∧ (before.channel? = some channel ∨
      (event = .join id ∧ before = .joining ∧
        (state.inFlight.join (state.calls id).hash).1 = some channel) ∨
      (channel = state.inFlight.made ∧ ∃ winner, state.attaches event = some (id, winner))) := by
  cases step with
  | stays =>
    refine ⟨?_, .inl waits⟩
    rintro rfl
    cases waits
  | joins isEvent own joined =>
    cases waits
    exact ⟨by simp, .inr (.inl ⟨isEvent, rfl, joined⟩)⟩
  | attaches winner attached =>
    cases waits
    exact ⟨by simp, .inr (.inr ⟨rfl, winner, attached⟩)⟩
  | closes result | returns isEvent result => cases result <;> exact ⟨by simp, .inl waits⟩
  | decides result noWait =>
    cases result with
    | waitPeer own => exact absurd rfl (noWait own)
    | fetchWAN cancelled | fetchLAN provider => cases waits
  | _ => grind [Phase.channel?]

theorem CallStep.channel_ne_none (waits : before.channel? ≠ none) : after.channel? ≠ none := by
  cases step with
  | stays => exact waits
  | closes result | returns isEvent result => cases result <;> exact waits
  | _ => exact absurd rfl waits

/-- A call had returned its channel, has joined a download, or was about to return it. -/
theorem CallStep.returned_cases (returned : after = .returned (.waitPeer channel)) :
    before = .returned (.waitPeer channel) ∨
      (event = .join id ∧ before = .joining ∧
        (state.inFlight.join (state.calls id).hash).1 = some channel) ∨
      (event = .leave id ∧ before = .unregistering (.waitPeer channel)) := by
  cases step with
  | stays => exact .inl returned
  | joins isEvent own joined =>
    cases returned
    exact .inr (.inl ⟨isEvent, rfl, joined⟩)
  | returns isEvent result =>
    cases returned
    exact .inr (.inr ⟨isEvent, rfl⟩)
  | _ => grind

theorem CallStep.returning_cases (returning : after.returning? = some channel) :
    before.returning? = some channel ∨ (channel = state.inFlight.made ∧ before = .electing ∧
      ∃ winner, state.attaches event = some (id, winner)) := by
  cases step with
  | stays => exact .inl returning
  | attaches winner attached =>
    cases returning
    exact .inr ⟨rfl, rfl, winner, attached⟩
  | closes result => cases result <;> exact .inl returning
  | decides result noWait =>
    cases result with
    | waitPeer own => exact absurd rfl (noWait own)
    | fetchWAN cancelled | fetchLAN provider => cases returning
  | _ => grind [Phase.returning?]

end CallStep

/-- A call had its channel before the step, or has just joined the download of its hash. -/
theorem channel_next (waits : ((next state event).calls id).phase.channel? = some channel) :
    ((next state event).calls id).hash = (state.calls id).hash ∧
      ((state.calls id).phase.channel? = some channel ∨
        (channel = state.inFlight.made ∧
          channel < (next state event).inFlight.made ∧
          channel ∈ (next state event).inFlight.waiters (state.calls id).hash)) := by
  obtain ⟨notIdle, had | ⟨rfl, was, joined⟩ | ⟨rfl, winner, attached⟩⟩ :=
    (callStep_next state event id).channel_cases waits
  · exact ⟨hash_next event notIdle, .inl had⟩
  · refine ⟨hash_next _ notIdle, .inr ?_⟩
    have joinEq : state.inFlight.join (state.calls id).hash =
        (some channel, (state.inFlight.join (state.calls id).hash).2) := Prod.ext joined rfl
    obtain ⟨rfl, made, waiting⟩ := Board.join_eq_some joinEq
    have inFlight : (next state (.join id)).inFlight =
        (state.inFlight.join (state.calls id).hash).2 := by
      simp only [next, State.during, if_pos was, Coordinator.join]
      rw [joinEq]
      rfl
    rw [inFlight, made, waiting]
    exact ⟨rfl, Nat.lt_succ_self _, mem_append_right _ (mem_singleton_self _)⟩
  · obtain ⟨-, -, download, -, inFlight⟩ := next_of_attaches attached
    refine ⟨hash_next event notIdle, .inr ⟨rfl, ?_, ?_⟩⟩
    · rw [inFlight]
      exact Nat.lt_succ_self _
    · rw [inFlight, Board.waiters_joinOrAdd]
      exact mem_append_right _ (mem_singleton_self _)

end Debswarm.Coordinator
