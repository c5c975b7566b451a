import Debswarm.Coordinator.Guidance
import Debswarm.Transition.Run

/-!
# Whom a waiting call downloads from

The channel of a waiting call joins whatever download of the hash is recorded, but its provider
is the peer that won the election.  A peer with a higher nonce that announces its download first
is thus waited for under the name of another peer.

If a call joins only downloads of the peer that it waits for, or the very record that it had
looked up, and no download is taken over between the join and the return, then the provider is
the fetcher of the download that the channel waits for.
-/

namespace Debswarm.Coordinator

open Fleet (WireMessage msgWantPackage msgFetching)
open Function Option Sync Text Transition

universe u

variable {π : Type u}

section Peers

variable [DecidableEq π] {guided : Guided π}

/-! ## Returns -/

/-- Reading the provider names the fetcher of the record and changes nothing else. -/
theorem readProvider_cases (guided : Guided π) (id : Nat) :
    guided.next (.readProvider id) = guided ∨
      ∃ channel found, (guided.coordinator.calls id).phase = .returned (.waitPeer channel) ∧
        guided.provider id = none ∧ guided.found id = some found ∧
        guided.next (.readProvider id) =
          { guided with provider := update guided.provider id (some found.fetcher) } := by
  simp only [Guided.next]
  split
  · rename_i channel found returned unnamed isFound
    exact .inr ⟨channel, found, returned, unnamed, isFound, rfl⟩
  · exact .inl rfl

theorem Guides.readProvider (guides : Guides guided) (id : Nat) :
    Guides (guided.next (.readProvider id)) := by
  rcases readProvider_cases guided id with same | ⟨channel, found, returned, unnamed, -, after⟩
  · rw [same]
    exact guides
  · rw [after]
    refine ⟨guides.sound, guides.own, guides.looked, guides.follows, guides.joining, ?_, ?_, ?_⟩
    · intro other otherChannel otherReturned otherUnnamed
      by_cases same : other = id
      · subst same
        simp at otherUnnamed
      · simp only [update_of_ne same] at otherUnnamed
        exact guides.joined other otherChannel otherReturned otherUnnamed
    · intro other provider isNamed
      by_cases same : other = id
      · subst same
        simp [returned, Phase.channel?]
      · simp only [update_of_ne same] at isNamed
        exact guides.named other provider isNamed
    · intro other otherChannel returning
      have different : other ≠ id := by
        rintro rfl
        rw [returned] at returning
        cases returning
      simp only [update_of_ne different]
      exact guides.chosen other otherChannel returning

theorem Guides.next (guides : Guides guided) {move : Move π} (consistent : Consistent guided move) :
    Guides (guided.next move) := by
  cases move with
  | step event => exact guides.step consistent
  | readProvider id => exact guides.readProvider id

/-- A call that returns a channel and a provider returns the fetcher of what it waits for. -/
theorem Guides.leads_of_returned (guides : Guides guided) {move : Move π}
    (consistent : Consistent guided move) {id channel : Nat} {provider : Option π}
    (before : ∀ channel provider, ¬ guided.Returned id channel provider)
    (after : (guided.next move).Returned id channel provider) :
    (guided.next move).Leads channel provider := by
  obtain ⟨returned, isNamed⟩ := after
  cases move with
  | step event =>
    rcases (callStep_next guided.coordinator event id).returned_cases returned with
      was | ⟨rfl, was, -⟩ | ⟨rfl, was⟩
    · have named : guided.provider id = some provider := by
        rw [← isNamed]
        exact (providerAfter_eq (by simp [was])).symm
      exact absurd ⟨was, named⟩ (before channel provider)
    · have named : guided.provider id = some provider := isNamed
      exact absurd (by rw [was]; rfl) (guides.named id provider named)
    · obtain ⟨chosen, isChosen, leads⟩ := guides.chosen id channel (by rw [was]; rfl)
      have named : guided.provider id = some provider := isNamed
      rw [named] at isChosen
      cases isChosen
      exact leads_step guides consistent (by rw [was]; rfl) leads
  | readProvider reader =>
    rcases readProvider_cases guided reader with same | ⟨own, found, was, unnamed, isFound, next⟩
    · rw [same] at returned isNamed
      exact absurd ⟨returned, isNamed⟩ (before channel provider)
    · rw [next] at returned isNamed ⊢
      by_cases sameCall : id = reader
      · subst sameCall
        simp only [update_self, some.injEq] at isNamed
        subst isNamed
        rw [was] at returned
        cases returned
        intro hash entry isEntry waits
        have waiting := Board.mem_waiters_iff.mpr ⟨entry, isEntry, waits⟩
        have isHash := (guides.own id channel (by rw [was]; rfl)).2 hash waiting
        subst isHash
        obtain ⟨other, isOther, current⟩ := guides.joined id channel was unnamed
        rw [isFound] at isOther
        cases isOther
        obtain ⟨download, isDownload, sameFetcher⟩ :=
          guides.follows id found isFound (current waiting)
        simp only at isEntry
        simp only [Board.look, isEntry, map_some, some.injEq] at isDownload
        rw [isDownload]
        exact sameFetcher
      · simp only [update_of_ne sameCall] at isNamed
        exact absurd ⟨returned, isNamed⟩ (before channel provider)

/-- If calls join only downloads of the peer they wait for, and none is taken over before such a
call returns, the provider of a returned channel is the fetcher of its download. -/
theorem provider_is_fetcher (staleTimeout : Int) (cached : Str → Bool) (moves : List (Move π))
    (move : Move π)
    (consistent : StepsMeet Guided.next Consistent (.new staleTimeout cached) (moves ++ [move])) :
    let guided := run Guided.next (.new staleTimeout cached) moves
    ∀ id channel provider, (∀ channel provider, ¬ guided.Returned id channel provider) →
      (guided.next move).Returned id channel provider →
        ∀ hash entry, (guided.next move).coordinator.inFlight.entries.find? hash = some entry →
          channel ∈ entry.waiters → entry.data.fetcher = provider :=
  event_of_stepsMeet Guides (fun _ _ guides allowed => guides.next allowed)
    (fun guided move => ∀ id channel provider,
      (∀ channel provider, ¬ guided.Returned id channel provider) →
        (guided.next move).Returned id channel provider → (guided.next move).Leads channel provider)
    (fun _ _ guides allowed _ _ _ before after => guides.leads_of_returned allowed before after)
    (guides_new staleTimeout cached) consistent

end Peers

/-- A call waits for a peer with a lower nonce that announces its download, up to its return. -/
def guidedRun : List (Move Nat) :=
  [.step (.want 0 [1] 10), .step (.lookUp 0), .step (.prepare 0 5 [7, 8]), .step (.register 0),
    .step (.broadcast 0 [7, 8]), .step (.receive 7 ⟨msgFetching, 3, [1], 10, 0⟩),
    .step (.handle false 1), .step (.handle false 1), .step (.handle false 1),
    .step (.readFetching 0 2), .step (.leave 0)]

/-- It returns with that peer as its provider, and waits for the download of that peer. -/
theorem provider_after_guidedRun :
    let guided := run Guided.next (.new 60 fun _ => false) guidedRun
    (guided.next (.step (.leave 0))).Returned 0 0 (some 7) ∧
      ∃ entry, (guided.next (.step (.leave 0))).coordinator.inFlight.entries.find? [1] =
        some entry ∧ 0 ∈ entry.waiters ∧ entry.data.fetcher = some 7 := by
  intro guided
  have consistent : StepsMeet Guided.next Consistent (.new 60 fun _ => false)
      (guidedRun ++ [.step (.leave 0)]) :=
    ⟨⟨by decide +kernel, trivial⟩, ⟨by decide +kernel, trivial⟩, ⟨by decide +kernel, trivial⟩,
      ⟨by decide +kernel, trivial⟩, ⟨by decide +kernel, trivial⟩, ⟨by decide +kernel, trivial⟩,
      ⟨by decide +kernel, trivial⟩, ⟨by decide +kernel, trivial⟩, ⟨by decide +kernel, trivial⟩,
      ⟨by decide +kernel, trivial⟩, ⟨by decide +kernel, trivial⟩, ⟨by decide +kernel, trivial⟩,
      trivial⟩
  have returned : (guided.next (.step (.leave 0))).Returned 0 0 (some 7) :=
    ⟨by decide +kernel, by decide +kernel⟩
  have notYet : ∀ channel provider, ¬ guided.Returned 0 channel provider := by
    rintro channel provider ⟨phase, -⟩
    have unregistering : (guided.coordinator.calls 0).phase = .unregistering (.waitPeer 0) := by
      decide +kernel
    rw [unregistering] at phase
    cases phase
  have recorded : ∃ entry, (guided.next (.step (.leave 0))).coordinator.inFlight.entries.find?
      [1] = some entry ∧ 0 ∈ entry.waiters := ⟨_, rfl, by decide +kernel⟩
  obtain ⟨entry, found, waits⟩ := recorded
  exact ⟨returned, entry, found, waits,
    provider_is_fetcher 60 (fun _ => false) guidedRun (.step (.leave 0)) consistent 0 0 (some 7)
      notYet returned [1] entry found waits⟩

/-- A peer announces its download, one with a lower nonce asks, and the claim timer expires. -/
def misledRun : List (Move Nat) :=
  [.step (.want 0 [1] 10), .step (.lookUp 0), .step (.prepare 0 5 [7, 8]), .step (.register 0),
    .step (.broadcast 0 [7, 8]), .step (.receive 7 ⟨msgFetching, 9, [1], 10, 0⟩),
    .step (.handle false 1), .step (.handle false 1), .step (.handle false 1),
    .step (.readFetching 0 2), .step (.receive 8 ⟨msgWantPackage, 3, [1], 10, 0⟩),
    .step (.handle false 3), .step (.handle false 3), .step (.handle false 3),
    .step (.handle false 3), .step (.handle false 3), .step (.readWant 0), .step (.timeout 0 4),
    .step (.leave 0)]

/-- The call names the second peer as its provider and waits for the download of the first. -/
theorem other_provider_after_misledRun :
    let guided := run Guided.next (.new 60 fun _ => false) misledRun
    (guided.coordinator.calls 0).phase = .unregistering (.waitPeer 0) ∧
      (guided.next (.step (.leave 0))).Returned 0 0 (some 8) ∧
      ∃ entry, (guided.next (.step (.leave 0))).coordinator.inFlight.entries.find? [1] =
        some entry ∧ 0 ∈ entry.waiters ∧ entry.data.fetcher = some 7 := by
  intro guided
  exact ⟨by decide +kernel, ⟨by decide +kernel, by decide +kernel⟩, _, rfl, by decide +kernel,
    by decide +kernel⟩

end Debswarm.Coordinator
