import Mathlib.Data.List.Basic
import Mathlib.Logic.Function.Basic

/-!
# Shared calls

Callers that ask for the same key while a call for it is under way share that call.  The first
of them leads: its function runs, once.  The others follow, and all of them get the same result
when it is there.

A property of every flight is kept by an operation that gives it to the flight it changes.
-/

namespace Debswarm.Sync

open Function

universe u v w

variable {κ : Type u} {ι : Type v} {σ : Type w}

/-- A call under way: who leads it, who shares it, and how far it has come. -/
structure Flight (ι : Type v) (σ : Type w) where
  leader : ι
  followers : List ι
  progress : σ

/-- Everybody who gets the result of a flight. -/
def Flight.callers (flight : Flight ι σ) : List ι :=
  flight.leader :: flight.followers

def Flight.follow (caller : ι) (flight : Flight ι σ) : Flight ι σ :=
  { flight with followers := flight.followers ++ [caller] }

theorem Flight.mem_callers_follow {flight : Flight ι σ} {caller other : ι} :
    other ∈ (flight.follow caller).callers ↔ other ∈ flight.callers ∨ other = caller := by
  simp [Flight.callers, Flight.follow, or_assoc]

/-- Something holds of every flight. -/
def EveryFlight (holds : κ → Flight ι σ → Prop) (flights : κ → Option (Flight ι σ)) : Prop :=
  ∀ key flight, flights key = some flight → holds key flight

variable {holds : κ → Flight ι σ → Prop} {flights : κ → Option (Flight ι σ)} {key : κ}

theorem EveryFlight.imp {other : κ → Flight ι σ → Prop} (every : EveryFlight holds flights)
    (implies : ∀ key flight, holds key flight → other key flight) : EveryFlight other flights :=
  fun key flight found => implies key flight (every key flight found)

variable [DecidableEq κ]

/-- Follow the flight of a key, or lead a new one. -/
def join (key : κ) (caller : ι) (start : σ) (flights : κ → Option (Flight ι σ)) :
    κ → Option (Flight ι σ) :=
  update flights key
    (some (((flights key).map (Flight.follow caller)).getD ⟨caller, [], start⟩))

/-- The flight of a key has come further. -/
def proceed (key : κ) (progress : σ) (flights : κ → Option (Flight ι σ)) :
    κ → Option (Flight ι σ) :=
  update flights key ((flights key).map fun flight => { flight with progress })

/-- The flight of a key is over. -/
def finish (key : κ) (flights : κ → Option (Flight ι σ)) : κ → Option (Flight ι σ) :=
  update flights key none

theorem everyFlight_update {changed : Option (Flight ι σ)} (every : EveryFlight holds flights)
    (atKey : ∀ flight, changed = some flight → holds key flight) :
    EveryFlight holds (update flights key changed) := by
  intro other flight found
  by_cases same : other = key
  · subst same
    rw [update_self] at found
    exact atKey flight found
  · rw [update_of_ne same] at found
    exact every other flight found

/-- A caller joins: it follows a flight or leads one. -/
theorem everyFlight_join {caller : ι} {start : σ} (every : EveryFlight holds flights)
    (follows : ∀ flight, flights key = some flight → holds key (flight.follow caller))
    (leads : flights key = none → holds key ⟨caller, [], start⟩) :
    EveryFlight holds (join key caller start flights) := by
  apply everyFlight_update every
  intro flight joined
  cases found : flights key with
  | none =>
    rw [found] at joined
    cases joined
    exact leads found
  | some earlier =>
    rw [found] at joined
    cases joined
    exact follows earlier found

theorem everyFlight_proceed {progress : σ} (every : EveryFlight holds flights)
    (proceeds : ∀ flight, flights key = some flight → holds key { flight with progress }) :
    EveryFlight holds (proceed key progress flights) := by
  apply everyFlight_update every
  intro flight proceeded
  obtain ⟨earlier, found, rfl⟩ := Option.map_eq_some_iff.mp proceeded
  exact proceeds earlier found

theorem everyFlight_finish (every : EveryFlight holds flights) :
    EveryFlight holds (finish key flights) :=
  everyFlight_update every fun _ found => by cases found

end Debswarm.Sync
