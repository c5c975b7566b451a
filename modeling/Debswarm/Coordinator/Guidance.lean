import Debswarm.Coordinator.Downloads

/-!
# Records and providers of waiting calls

A call that returns a wait channel names a provider with it: the peer that won the election, or
the fetcher of the record that the call had looked up before it joined a download.  The
coordinator does not keep it, so it is kept here beside the coordinator.

If calls wait only for peers whose downloads are recorded, or on the very record that they had
looked up, then a step keeps each channel with a provider at a download of that provider.
-/

namespace Debswarm.Coordinator

open Bool Option Sync Text

universe u

variable {π : Type u}

/-! ## Records and providers -/

/-- The record that a call looked up: its fetcher, and whether it is still that of its hash. -/
structure Found (π : Type u) where
  fetcher : Option π
  current : Bool
  deriving DecidableEq, Repr

/-- The record after a step. One that was removed or written over does not change any more. -/
def Found.follow (claimed : Bool) (download : Option (FetchState π)) (found : Found π) :
    Found π :=
  match download with
  | none => { found with current := false }
  | some download =>
    if found.current && !claimed then ⟨download.fetcher, true⟩
    else { found with current := false }

/-- A coordinator with the records that its calls looked up and the providers they name. -/
structure Guided (π : Type u) where
  coordinator : State π
  found : Nat → Option (Found π)
  provider : Nat → Option (Option π)

/-- A step of the coordinator, or a call reads the fetcher of the record it joined. -/
inductive Move (π : Type u)
  | step (event : Event π)
  | readProvider (id : Nat)

def Guided.new (staleTimeout : Int) (cached : Str → Bool) : Guided π :=
  ⟨.new staleTimeout cached, fun _ => none, fun _ => none⟩

/-- The call looks a download up in this step. -/
def State.looksUp (state : State π) (id : Nat) : Event π → Bool
  | .lookUp other => other = id && (match (state.calls id).phase with
      | .lookingUp => true
      | _ => false)
  | _ => false

variable {channel id : Nat} {found : Found π}

section Peers

variable [DecidableEq π]

section

variable (guided : Guided π)

/-- What a call has looked up after a step. -/
def Guided.foundAfter (event : Event π) (id : Nat) : Option (Found π) :=
  let hash := (guided.coordinator.calls id).hash
  let seen :=
    if guided.coordinator.looksUp id event then
      (guided.coordinator.inFlight.look hash).map fun download => ⟨download.fetcher, true⟩
    else guided.found id
  seen.map (Found.follow (guided.coordinator.claims event = some hash)
    ((next guided.coordinator event).inFlight.look hash))

def Guided.providerAfter (event : Event π) (id : Nat) : Option (Option π) :=
  match guided.coordinator.attaches event with
  | some (own, winner) => if id = own then some (some winner.peer) else guided.provider id
  | none => guided.provider id

def Guided.next : Move π → Guided π
  | .step event =>
    { coordinator := Coordinator.next guided.coordinator event
      found := guided.foundAfter event
      provider := guided.providerAfter event }
  | .readProvider id =>
    match (guided.coordinator.calls id).phase, guided.provider id, guided.found id with
    | .returned (.waitPeer _), none, some found =>
      { guided with provider := Function.update guided.provider id (some found.fetcher) }
    | _, _, _ => guided

/-- The call has returned a wait channel and a provider. -/
def Guided.Returned (id channel : Nat) (provider : Option π) : Prop :=
  (guided.coordinator.calls id).phase = .returned (.waitPeer channel) ∧
    guided.provider id = some provider

/-- Every download that the channel waits for has the provider as its fetcher. -/
def Guided.Leads (channel : Nat) (provider : Option π) : Prop :=
  ∀ hash entry, guided.coordinator.inFlight.entries.find? hash = some entry →
    channel ∈ entry.waiters → entry.data.fetcher = provider

/-! ## The condition -/

/-- A call that begins to wait for a peer finds no download of another; it joins the record that it
looked up; and we announce no download that a returning call waits for. -/
def Consistent : Move π → Prop
  | .step event =>
    (∀ waiting ∈ guided.coordinator.attaches event,
      ∀ download ∈ guided.coordinator.inFlight.look (guided.coordinator.calls waiting.1).hash,
        download.fetcher = some waiting.2.peer) ∧
    match event with
    | .join id => (guided.coordinator.calls id).phase = .joining →
        ∀ found ∈ guided.found id,
          (guided.coordinator.inFlight.look (guided.coordinator.calls id).hash).isSome = true →
            found.current = true
    | .notifyFetching hash _ _ _ => ∀ id channel,
        (guided.coordinator.calls id).phase.returning? = some channel →
          channel ∉ guided.coordinator.inFlight.waiters hash
    | _ => True
  | .readProvider _ => True

end

/-! ## Invariant -/

/-- What holds of the channels and providers of calls on their way. -/
structure Guides (guided : Guided π) : Prop where
  sound : guided.coordinator.inFlight.Sound
  own : ∀ id channel, (guided.coordinator.calls id).phase.channel? = some channel →
    channel < guided.coordinator.inFlight.made ∧
      ∀ hash, channel ∈ guided.coordinator.inFlight.waiters hash →
        hash = (guided.coordinator.calls id).hash
  looked : ∀ id found, guided.found id = some found →
    (guided.coordinator.calls id).phase ≠ .idle ∧
      (guided.coordinator.calls id).phase ≠ .lookingUp
  follows : ∀ id found, guided.found id = some found → found.current = true →
    ∃ download, guided.coordinator.inFlight.look (guided.coordinator.calls id).hash =
      some download ∧ download.fetcher = found.fetcher
  joining : ∀ id, (guided.coordinator.calls id).phase = .joining →
    ∃ found, guided.found id = some found
  joined : ∀ id channel, (guided.coordinator.calls id).phase = .returned (.waitPeer channel) →
    guided.provider id = none → ∃ found, guided.found id = some found ∧
      (channel ∈ guided.coordinator.inFlight.waiters (guided.coordinator.calls id).hash →
        found.current = true)
  named : ∀ id provider, guided.provider id = some provider →
    (guided.coordinator.calls id).phase.channel? ≠ none
  chosen : ∀ id channel, (guided.coordinator.calls id).phase.returning? = some channel →
    ∃ provider, guided.provider id = some provider ∧ guided.Leads channel provider

omit [DecidableEq π] in
theorem guides_new (staleTimeout : Int) (cached : Str → Bool) :
    Guides (Guided.new staleTimeout cached : Guided π) where
  sound := Board.sound_empty
  own := by
    intro id channel waits
    cases waits
  looked := by
    intro id found isFound
    cases isFound
  follows := by
    intro id found isFound
    cases isFound
  joining := by
    intro id isJoining
    cases isJoining
  joined := by
    intro id channel returned
    cases returned
  named := by
    intro id provider isNamed
    cases isNamed
  chosen := by
    intro id channel returning
    cases returning

/-! ## Steps -/

variable {guided : Guided π} {event : Event π}

/-- An old channel that waits after a step waited before it, for a download that was not claimed,
unless we announced it. -/
theorem waits_before {state : State π} {hash : Str} {entry : Entry (FetchState π)}
    (found : (Coordinator.next state event).inFlight.entries.find? hash = some entry)
    (waits : channel ∈ entry.waiters) (old : channel < state.inFlight.made) :
    ∃ before, state.inFlight.entries.find? hash = some before ∧ channel ∈ before.waiters ∧
      state.claims event ≠ some hash ∧ Revises event hash before.data entry.data :=
  inherits_next state event hash entry found channel waits old

theorem providerAfter_eq (notElecting : (guided.coordinator.calls id).phase ≠ .electing) :
    guided.providerAfter event id = guided.provider id := by
  unfold Guided.providerAfter
  split
  · rename_i own winner attached
    rw [if_neg]
    rintro rfl
    exact notElecting (next_of_attaches attached).1
  · rfl

theorem Guides.own_step (guides : Guides guided)
    (waits : ((Coordinator.next guided.coordinator event).calls id).phase.channel? =
      some channel) :
    channel < (Coordinator.next guided.coordinator event).inFlight.made ∧
      ∀ hash, channel ∈ (Coordinator.next guided.coordinator event).inFlight.waiters hash →
        hash = ((Coordinator.next guided.coordinator event).calls id).hash := by
  have moves := moves_next guided.coordinator event
  obtain ⟨sameHash, old | ⟨-, made, joined⟩⟩ := channel_next waits
  · obtain ⟨wasMade, own⟩ := guides.own id channel old
    refine ⟨lt_of_lt_of_le wasMade moves.made_le, fun hash waiting => ?_⟩
    obtain ⟨entry, found, mem⟩ := Board.mem_waiters_iff.mp waiting
    obtain ⟨before, wasThere, waited, -⟩ := waits_before found mem wasMade
    rw [sameHash]
    exact own hash (Board.mem_waiters_iff.mpr ⟨before, wasThere, waited⟩)
  · refine ⟨made, fun hash waiting => ?_⟩
    rw [sameHash]
    exact (moves.told guides.sound).1.apart hash _ channel waiting joined

omit [DecidableEq π] in
theorem looksUp_eq_true {state : State π} (looks : state.looksUp id event = true) :
    event = .lookUp id ∧ (state.calls id).phase = .lookingUp := by
  unfold State.looksUp at looks
  split at looks
  · rw [and_eq_true, decide_eq_true_eq] at looks
    obtain ⟨rfl, lookingUp⟩ := looks
    split at lookingUp
    · rename_i isLookingUp
      exact ⟨rfl, isLookingUp⟩
    · cases lookingUp
  · cases looks

theorem foundAfter_of_found (isFound : guided.found id = some found)
    (notLooking : (guided.coordinator.calls id).phase ≠ .lookingUp) :
    guided.foundAfter event id = some (found.follow
      (guided.coordinator.claims event = some (guided.coordinator.calls id).hash)
      ((Coordinator.next guided.coordinator event).inFlight.look
        (guided.coordinator.calls id).hash)) := by
  unfold Guided.foundAfter
  have notNow : guided.coordinator.looksUp id event = false := by
    rw [← not_eq_true]
    exact fun looks => notLooking (looksUp_eq_true looks).2
  simp [notNow, isFound]

theorem foundAfter_of_lookUp (lookingUp : (guided.coordinator.calls id).phase = .lookingUp) :
    guided.foundAfter (.lookUp id) id =
      (guided.coordinator.inFlight.look (guided.coordinator.calls id).hash).map fun download =>
        ⟨download.fetcher, true⟩ := by
  have sameInFlight : (next guided.coordinator (.lookUp id)).inFlight =
      guided.coordinator.inFlight := by
    simp [next, State.during, lookUp, lookingUp]
  have now : guided.coordinator.looksUp id (.lookUp id) = true := by
    simp [State.looksUp, lookingUp]
  simp only [Guided.foundAfter, now, if_true, sameInFlight, State.claims]
  cases guided.coordinator.inFlight.look (guided.coordinator.calls id).hash with
  | none | some download => rfl

theorem foundAfter_cases (isFound : guided.foundAfter event id = some found) :
    (event = .lookUp id ∧ (guided.coordinator.calls id).phase = .lookingUp) ∨
      ∃ before, guided.found id = some before := by
  cases looks : guided.coordinator.looksUp id event with
  | true => exact .inl (looksUp_eq_true looks)
  | false =>
    right
    simp only [Guided.foundAfter, looks, false_eq_true, if_false, map_eq_some_iff] at isFound
    obtain ⟨before, wasFound, -⟩ := isFound
    exact ⟨before, wasFound⟩

omit [DecidableEq π] in
theorem Found.follow_current {claimed : Bool} {download : Option (FetchState π)}
    (current : (found.follow claimed download).current = true) :
    ∃ now, download = some now ∧ (found.follow claimed download).fetcher = now.fetcher := by
  unfold Found.follow at current ⊢
  cases download with
  | none => cases current
  | some now =>
    dsimp only at current ⊢
    split at current
    · rename_i stays
      rw [if_pos stays]
      exact ⟨now, rfl, rfl⟩
    · cases current

theorem Guides.follows_step (guides : Guides guided)
    (isFound : guided.foundAfter event id = some found) :
    (((Coordinator.next guided.coordinator event).calls id).phase ≠ .idle ∧
      ((Coordinator.next guided.coordinator event).calls id).phase ≠ .lookingUp) ∧
    (found.current = true → ∃ download,
      (Coordinator.next guided.coordinator event).inFlight.look
          ((Coordinator.next guided.coordinator event).calls id).hash = some download ∧
        download.fetcher = found.fetcher) := by
  rcases foundAfter_cases isFound with ⟨rfl, lookingUp⟩ | ⟨before, wasFound⟩
  · have notIdle : (guided.coordinator.calls id).phase ≠ .idle := by simp [lookingUp]
    have nextEq : Coordinator.next guided.coordinator (.lookUp id) =
        lookUp id guided.coordinator := by
      simp [Coordinator.next, State.during, lookingUp]
    rw [foundAfter_of_lookUp lookingUp, map_eq_some_iff] at isFound
    obtain ⟨download, isDownload, rfl⟩ := isFound
    rw [hash_next _ notIdle, nextEq]
    have goes : ((lookUp id guided.coordinator).calls id).phase = .joining := by
      simp [lookUp, isDownload]
    rw [goes]
    exact ⟨⟨by simp, by simp⟩, fun _ => ⟨download, isDownload, rfl⟩⟩
  · obtain ⟨notIdle, notLooking⟩ := guides.looked id before wasFound
    obtain ⟨stillNotIdle, stillNotLooking⟩ :=
      (callStep_next guided.coordinator event id).looked notIdle
    refine ⟨⟨stillNotIdle, stillNotLooking notLooking⟩, fun current => ?_⟩
    rw [foundAfter_of_found wasFound notLooking, some.injEq] at isFound
    subst isFound
    obtain ⟨download, isDownload, sameFetcher⟩ := Found.follow_current current
    rw [hash_next event notIdle]
    exact ⟨download, isDownload, sameFetcher.symm⟩

theorem Guides.joining_step (guides : Guides guided)
    (isJoining : ((Coordinator.next guided.coordinator event).calls id).phase = .joining) :
    ∃ found, guided.foundAfter event id = some found := by
  have step := callStep_next guided.coordinator event id
  rw [isJoining] at step
  generalize was : (guided.coordinator.calls id).phase = before at step
  cases step with
  | stays =>
    obtain ⟨found, isFound⟩ := guides.joining id was
    exact ⟨_, foundAfter_of_found isFound (by simp [was])⟩
  | finds isEvent isSome =>
    subst isEvent
    obtain ⟨download, isDownload⟩ := isSome_iff_exists.mp isSome
    rw [foundAfter_of_lookUp was, isDownload]
    exact ⟨_, rfl⟩
  | wants goes | prepares goes | broadcasts goes => simp at goes

omit [DecidableEq π] in
/-- A record that is still there and not claimed stays the record of its hash. -/
theorem Found.current_follow {download : FetchState π} (current : found.current = true) :
    (found.follow false (some download)).current = true := by
  simp [Found.follow, current]

theorem Guides.joined_step (guides : Guides guided) (consistent : Consistent guided (.step event))
    (returned : ((Coordinator.next guided.coordinator event).calls id).phase =
      .returned (.waitPeer channel)) (unnamed : guided.providerAfter event id = none) :
    ∃ found, guided.foundAfter event id = some found ∧
      (channel ∈ (Coordinator.next guided.coordinator event).inFlight.waiters
        ((Coordinator.next guided.coordinator event).calls id).hash → found.current = true) := by
  have was := (callStep_next guided.coordinator event id).returned_cases returned
  have wasUnnamed : (guided.coordinator.calls id).phase ≠ .electing →
      guided.provider id = none := fun notElecting => providerAfter_eq notElecting ▸ unnamed
  rcases was with was | ⟨rfl, was, joined⟩ | ⟨rfl, was⟩
  · obtain ⟨found, isFound, current⟩ := guides.joined id channel was (wasUnnamed (by simp [was]))
    refine ⟨_, foundAfter_of_found isFound (by simp [was]), fun waits => ?_⟩
    rw [hash_next event (by simp [was])] at waits
    obtain ⟨entry, isEntry, mem⟩ := Board.mem_waiters_iff.mp waits
    have old := (guides.own id channel (by rw [was]; rfl)).1
    obtain ⟨before, wasThere, waited, unclaimed, -⟩ := waits_before isEntry mem old
    have stillCurrent := current (Board.mem_waiters_iff.mpr ⟨before, wasThere, waited⟩)
    simp only [Board.look, isEntry, map_some, decide_eq_false unclaimed]
    exact Found.current_follow stillCurrent
  · obtain ⟨found, isFound⟩ := guides.joining id was
    refine ⟨_, foundAfter_of_found isFound (by simp [was]), fun waits => ?_⟩
    rw [hash_next _ (by simp [was])] at waits
    obtain ⟨entry, isEntry, -⟩ := Board.mem_waiters_iff.mp waits
    have isThere : (guided.coordinator.inFlight.look (guided.coordinator.calls id).hash).isSome =
        true := by
      unfold Board.join at joined
      cases found :
          guided.coordinator.inFlight.entries.find? (guided.coordinator.calls id).hash with
      | none => simp [found] at joined
      | some old => simp [Board.look, found]
    have stillCurrent := consistent.2 was found isFound isThere
    simp only [Board.look, isEntry, map_some, State.claims, reduceCtorEq, decide_false]
    exact Found.current_follow stillCurrent
  · obtain ⟨provider, isNamed, -⟩ := guides.chosen id channel (by rw [was]; rfl)
    rw [wasUnnamed (by simp [was])] at isNamed
    cases isNamed

theorem Guides.named_step (guides : Guides guided) {provider : Option π}
    (isNamed : guided.providerAfter event id = some provider) :
    ((Coordinator.next guided.coordinator event).calls id).phase.channel? ≠ none := by
  cases attached : guided.coordinator.attaches event with
  | none =>
    simp only [Guided.providerAfter, attached] at isNamed
    exact (callStep_next guided.coordinator event id).channel_ne_none
      (guides.named id provider isNamed)
  | some waiting =>
    obtain ⟨own, winner⟩ := waiting
    simp only [Guided.providerAfter, attached] at isNamed
    split at isNamed
    · rename_i isOwn
      subst isOwn
      rw [(next_of_attaches attached).2.1]
      exact some_ne_none _
    · exact (callStep_next guided.coordinator event id).channel_ne_none
        (guides.named id provider isNamed)

section

variable (guides : Guides guided) (consistent : Consistent guided (.step event))

include guides consistent

/-- A call that waits for a peer where no other fetcher is recorded waits for its download. -/
theorem leads_of_attaches {winner : FetchingResponse π}
    (attached : guided.coordinator.attaches event = some (id, winner)) :
    (guided.next (.step event)).Leads guided.coordinator.inFlight.made (some winner.peer) := by
  intro hash entry found waits
  obtain ⟨-, -, download, isWinner, inFlight⟩ := next_of_attaches attached
  have notOld : ∀ {other : Str} {old : Entry (FetchState π)},
      guided.coordinator.inFlight.entries.find? other = some old →
        guided.coordinator.inFlight.made ∉ old.waiters := by
    intro other old wasThere mem
    have isOld := guides.sound.isOpen other _ (Board.mem_waiters_iff.mpr ⟨old, wasThere, mem⟩)
    exact Nat.lt_irrefl _ isOld.1
  simp only [Guided.next, inFlight, Board.joinOrAdd, Table.find?_insertOrUpdate] at found
  split at found
  · rename_i isHash
    subst isHash
    cases wasThere : guided.coordinator.inFlight.entries.find?
        (guided.coordinator.calls id).hash with
    | none =>
      rw [wasThere] at found
      cases found
      exact isWinner
    | some old =>
      rw [wasThere] at found
      cases found
      exact consistent.1 _ attached old.data (by simp [Board.look, wasThere])
  · exact absurd waits (notOld found)

theorem leads_step {provider : Option π}
    (returning : (guided.coordinator.calls id).phase.returning? = some channel)
    (leads : guided.Leads channel provider) :
    (guided.next (.step event)).Leads channel provider := by
  intro hash entry found waits
  have waiting : (guided.coordinator.calls id).phase.channel? = some channel := by
    unfold Phase.returning? at returning
    split at returning
    · rename_i phase
      rw [phase]
      exact returning
    · rename_i phase
      rw [phase]
      exact returning
    · cases returning
  have old := (guides.own id channel waiting).1
  obtain ⟨before, wasThere, waited, -, carried⟩ := waits_before found waits old
  rcases carried with same | ⟨⟨size, nonce, now, rfl⟩, -⟩
  · rw [same]
    exact leads hash before wasThere waited
  · exact absurd (Board.mem_waiters_iff.mpr ⟨before, wasThere, waited⟩)
      (consistent.2 id channel returning)

theorem Guides.chosen_step
    (returning : ((next guided.coordinator event).calls id).phase.returning? =
      some channel) :
    ∃ provider, guided.providerAfter event id = some provider ∧
      (guided.next (.step event)).Leads channel provider := by
  rcases (callStep_next guided.coordinator event id).returning_cases returning with
    was | ⟨rfl, electing, winner, attached⟩
  · obtain ⟨provider, isNamed, leads⟩ := guides.chosen id channel was
    refine ⟨provider, ?_, leads_step guides consistent was leads⟩
    rw [providerAfter_eq]
    · exact isNamed
    · intro electing
      rw [electing] at was
      cases was
  · exact ⟨some winner.peer, by simp [Guided.providerAfter, attached],
      leads_of_attaches guides consistent attached⟩

theorem Guides.step :
    Guides (guided.next (.step event)) where
  sound := ((moves_next guided.coordinator event).told guides.sound).1
  own := fun _ _ waits => guides.own_step waits
  looked := fun _ _ isFound => (guides.follows_step isFound).1
  follows := fun _ _ isFound => (guides.follows_step isFound).2
  joining := fun _ isJoining => guides.joining_step isJoining
  joined := fun _ _ returned unnamed => guides.joined_step consistent returned unnamed
  named := fun _ _ isNamed => guides.named_step isNamed
  chosen := fun _ _ returning => guides.chosen_step consistent returning

end

end Peers

end Debswarm.Coordinator
