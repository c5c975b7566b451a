import Debswarm.Fleet.Racing
import Debswarm.Transition.Run

/-!
# Agreement on the winner

Every step of a race keeps what holds of its nodes and messages, so in every run the calls
agree: the lowest nonce fetches, and all others wait for it.
-/

namespace Debswarm.Fleet

open Function List Member Option Transition

variable {n : Nat} {nonces : Fin n → Nonce} {winner : Fin n}

namespace Race

variable {race : Race n}

/-- One node has changed, and fair messages may have been sent. -/
theorem Fair.change (fair : race.Fair nonces winner) {after : Race n} (node : Fin n)
    (racing : (after.state.members node).Racing nonces winner node (after.took node)
      (after.results node))
    (others : ∀ other, other ≠ node → after.state.members other = race.state.members other ∧
      after.took other = race.took other ∧ after.results other = race.results other)
    (network : ∀ envelope ∈ after.state.network,
      envelope ∈ race.state.network ∨ envelope.Fair nonces winner) :
    after.Fair nonces winner := by
  constructor
  · intro other
    by_cases same : other = node
    · rw [same]
      exact racing
    · obtain ⟨sameMember, sameTook, sameResult⟩ := others other same
      rw [sameMember, sameTook, sameResult]
      exact fair.members other
  · intro envelope mem
    rcases network envelope mem with old | isFair
    · exact fair.network envelope old
    · exact isFair

variable {node : Fin n} {event : Event n}

section

variable (fair : race.Fair nonces winner)

include fair

theorem Fair.set {member : Member n} (sent : List (Envelope n))
    (racing : member.Racing nonces winner node (race.took node) (race.results node))
    (isFair : ∀ envelope ∈ sent, envelope.Fair nonces winner) :
    { race with state := race.state.set node member sent }.Fair nonces winner := by
  apply fair.change node
  · simpa only [State.set, update_self] using racing
  · intro other different
    simp only [State.set, update_of_ne different, and_self]
  · intro envelope mem
    rcases mem_append.mp mem with old | new
    · exact .inl old
    · exact .inr (isFair envelope new)

theorem Fair.act {allowed : Bool} {change : Member n → Member n}
    (racing : allowed = true → (change (race.state.members node)).Racing nonces winner node
      (race.took node) (race.results node)) :
    { race with state := race.state.act node allowed change }.Fair nonces winner := by
  unfold State.act
  split
  · rename_i isAllowed
    exact fair.set [] (racing isAllowed) (fun _ mem => by cases mem)
  · exact fair

theorem Fair.call (isCaller : event.caller = some node)
    (electing : (race.state.members node).phase = .electing) {state : State n}
    (racing : (state.members node).Racing nonces winner node
      ((race.state.members node).takes event ++ race.took node)
      ((race.results node).or ((race.state.members node).returns event)))
    (others : ∀ other, other ≠ node → state.members other = race.state.members other)
    (network : ∀ envelope ∈ state.network, envelope ∈ race.state.network) :
    { race.note event with state := state }.Fair nonces winner := by
  unfold note
  simp only [isCaller, if_pos electing]
  apply fair.change node
  · simpa only [update_self] using racing
  · intro other different
    simp only [others other different, update_of_ne different, and_self]
  · exact fun envelope mem => .inl (network envelope mem)

theorem Fair.callSet (isCaller : event.caller = some node)
    (electing : (race.state.members node).phase = .electing) {member : Member n}
    (racing : member.Racing nonces winner node
      ((race.state.members node).takes event ++ race.took node)
      ((race.results node).or ((race.state.members node).returns event))) :
    { race.note event with state := race.state.set node member [] }.Fair nonces winner := by
  apply fair.call isCaller electing
  · simpa only [State.set, update_self] using racing
  · intro other different
    simp only [State.set, update_of_ne different]
  · intro envelope mem
    simpa only [State.set, append_nil] using mem

theorem Fair.skip (isCaller : event.caller = some node)
    (notElecting : (race.state.members node).phase ≠ .electing) {state : State n}
    (same : state = race.state) : { race.note event with state := state }.Fair nonces winner := by
  have unnoted : race.note event = race := by
    simp only [note, isCaller, if_neg notElecting]
  rw [unnoted, same]
  exact fair

theorem Fair.lose (position : Nat) :
    (race.next (.lose position)).Fair nonces winner := by
  refine ⟨fair.members, ?_⟩
  intro envelope mem
  exact fair.network envelope (mem_of_mem_eraseIdx mem)

theorem Fair.deliver (position : Nat) :
    { race with state := Fleet.next race.state (.deliver position) }.Fair nonces winner := by
  unfold Fleet.next
  dsimp only
  split
  · exact fair
  · rename_i sender receiver message taken
    split
    · exact fair
    · have isFair := fair.network _ (mem_of_getElem? taken)
      exact (fair.lose position).set [] ((fair.members receiver).handleMessage isFair)
        fun _ mem => by cases mem

/-- An answer goes to the node that asked, and nobody has the package. -/
theorem Fair.answer (node : Fin n)
    (quiet : ∀ envelope ∈ (Fleet.next race.state (.answer node)).network,
      envelope.message ≠ .have) :
    { race with state := Fleet.next race.state (.answer node) }.Fair nonces winner := by
  unfold Fleet.next at quiet ⊢
  dsimp only at quiet ⊢
  split
  · exact fair
  · rename_i request isRequest
    obtain ⟨racing, replies⟩ := (fair.members node).handleWantPackage isRequest
    simp only [isRequest, answerRequest] at quiet
    unfold answerRequest
    cases handled : handleWantPackage request (race.state.members node) with
    | mk member reply =>
      rw [handled] at racing replies quiet
      have changed := fair.set [] racing fun _ mem => by cases mem
      cases reply with
      | none => exact changed
      | some reply =>
        have noHave := quiet ⟨node, request.peer, reply⟩ (by simp [State.set])
        apply changed.set
        · exact { changed.members request.peer with }
        · intro envelope mem
          rw [mem_singleton.mp mem]
          exact replies reply rfl noHave

theorem Fair.read (isCaller : event.caller = some node)
    {change : Member n → Member n} (reads : Fleet.next race.state event =
      race.state.act node ((race.state.members node).phase = .electing) change)
    (racing : (race.state.members node).phase = .electing →
      (change (race.state.members node)).Racing nonces winner node
        ((race.state.members node).takes event ++ race.took node)
        ((race.results node).or ((race.state.members node).returns event))) :
    (race.next (.step event)).Fair nonces winner := by
  by_cases electing : (race.state.members node).phase = .electing
  · simp only [next, reads, State.act, electing, decide_true, if_true]
    exact fair.callSet isCaller electing (racing electing)
  · exact fair.skip isCaller electing (by simp [reads, State.act, electing])

end

theorem Fair.timeout (distinct : Function.Injective nonces)
    (isLowest : ∀ other, nonces winner ≤ nonces other) (fair : race.Fair nonces winner)
    (inTurn : race.InTurn (.step (.timeout node))) :
    (race.next (.step (.timeout node))).Fair nonces winner := by
  have racing := fair.members node
  by_cases electing : (race.state.members node).phase = .electing
  · simp only [next, Fleet.next, State.act, electing, decide_true, Bool.true_and]
    split
    · rename_i allHeard
      have taken : ∀ peer ∈ peers node, peer ∈ race.took node := by
        have taken := inTurn.1 node (by
          simp only [resolves, Member.returns, if_pos allHeard]
          simp [electing])
        simpa [next, note, Event.caller, electing, Member.takes] using taken
      apply fair.callSet rfl electing
      rw [Member.returns, if_pos allHeard]
      exact racing.decideAction distinct isLowest taken
    · rename_i notAllHeard
      apply fair.call rfl electing
      · rw [Member.returns, if_neg notAllHeard, or_none]
        exact racing
      · exact fun _ _ => rfl
      · exact fun _ => id
  · exact fair.skip rfl electing (by simp [Fleet.next, State.act, electing])

section

variable (fair : race.Fair nonces winner)

include fair

theorem Fair.notifyFetching (node : Fin n) (nonce : Nonce) :
    (race.next (.step (.notifyFetching node nonce))).Fair nonces winner := by
  have racing := fair.members node
  simp only [next, Fleet.next]
  split
  · rename_i fetching
    have wins : node = winner := racing.fetches (by rw [fetching]; rfl)
    apply fair.set
    · refine { racing with
        begun := ⟨rfl, nofun⟩
        fetches := fun _ => wins
        records := fun _ _ _ => wins
        ended := ?_ }
      intro _
      exact racing.ended (by rw [fetching]; nofun)
    · intro envelope mem
      obtain ⟨peer, isPeer, rfl⟩ := mem_map.mp mem
      exact ⟨(mem_peers.mp isPeer).symm, wins⟩
  · exact fair

/-- While calls are undecided, no fetch is announced as complete. -/
theorem Fair.notifyComplete (inTurn : race.InTurn (.step (.notifyComplete node))) :
    (race.next (.step (.notifyComplete node))).Fair nonces winner := by
  have racing := fair.members node
  obtain ⟨-, quiet⟩ := inTurn
  simp only [next, Fleet.next] at quiet ⊢
  split
  · rename_i allowed
    rw [if_pos allowed] at quiet
    apply fair.set
    · refine { racing with
        begun := ⟨rfl, nofun⟩
        fetches := nofun
        records := nofun
        ended := ?_ }
      intro _
      exact racing.ended (by rw [allowed.1]; nofun)
    · intro envelope mem
      obtain ⟨peer, isPeer, rfl⟩ := mem_map.mp mem
      have sent := (quiet ⟨node, peer, .fetched⟩ (mem_append_right _ mem)).2
      exact (sent rfl).elim
  · exact fair

theorem Fair.obtain (node : Fin n) :
    (race.next (.step (.obtain node))).Fair nonces winner := by
  unfold next Fleet.next
  apply fair.act
  intro allowed
  refine { fair.members node with
    begun := ⟨rfl, nofun⟩
    fetches := nofun
    ended := ?_ }
  intro _
  apply (fair.members node).ended
  intro electing
  rw [electing] at allowed
  cases allowed

end

section

variable (distinct : Function.Injective nonces) (isLowest : ∀ other, nonces winner ≤ nonces other)

include distinct isLowest

theorem fair_step (fair : race.Fair nonces winner) (event : Event n)
    (inTurn : race.InTurn (.step event)) : (race.next (.step event)).Fair nonces winner := by
  have racing := fair.members
  cases event with
  | want node =>
    apply fair.act
    intro allowed
    have idle := of_decide_eq_true allowed
    have begun := (racing node).begun.1
    rw [idle] at begun
    cases begun
  | register node nonce =>
    have begun := (racing node).begun.1
    have notStarting : (race.state.members node).phase ≠ .starting := by
      intro starting
      rw [starting] at begun
      cases begun
    simp only [next, Fleet.next, if_neg notStarting]
    exact fair
  | attach node =>
    apply fair.act
    intro allowed
    exact absurd (of_decide_eq_true allowed) (racing node).begun.2
  | deliver position => exact fair.deliver position
  | answer node => exact fair.answer node fun envelope mem => (inTurn.2 envelope mem).1
  | readHave node =>
    apply fair.read rfl rfl
    intro _
    have none := (racing node).haves
    rw [Member.returns, Member.readHave, none, head?_nil, map_none, or_none]
    exact racing node
  | readWant node =>
    apply fair.read rfl rfl
    intro _
    have goesOn : (race.state.members node).returns (.readWant node) = none := rfl
    rw [goesOn, or_none]
    exact (racing node).readWant
  | readFetching node => exact fair.read rfl rfl fun _ => (racing node).readFetching
  | readDontHave node =>
    apply fair.read rfl rfl
    intro electing
    apply (racing node).readDontHave distinct isLowest
    intro ends
    have taken := inTurn.1 node (by simp [resolves, Member.returns, electing, ends])
    simpa [next, note, Event.caller, electing] using taken
  | timeout node => exact Fair.timeout distinct isLowest fair inTurn
  | release node =>
    unfold next Fleet.next
    apply fair.act
    intro _
    exact { racing node with pending := fun _ mem => by cases mem }
  | notifyFetching node nonce => exact fair.notifyFetching node nonce
  | store node =>
    unfold next Fleet.next
    apply fair.act
    intro _
    exact { racing node with }
  | notifyComplete node => exact fair.notifyComplete inTurn
  | obtain node => exact fair.obtain node

theorem Fair.expire (fair : race.Fair nonces winner)
    (complete : (race.state.members node).phase = .electing →
      ∀ peer ∈ peers node, peer ∈ race.took node) :
    (race.next (.expire node)).Fair nonces winner := by
  unfold next
  dsimp only
  split
  · rename_i electing
    have racing := fair.members node
    have isRight := racing.decision_eq distinct isLowest (complete electing)
    have decided := racing.decideAction distinct isLowest (complete electing)
    apply fair.change node
    · simp only [State.set, update_self]
      refine { decided with right := ?_, ended := fun _ => some_ne_none _ }
      rintro returned ⟨rfl⟩
      exact isRight
    · intro other different
      simp only [State.set, update_of_ne different, and_self]
    · intro envelope mem
      rw [State.set, append_nil] at mem
      exact .inl mem
  · exact fair

theorem fair_next (race : Race n) (event : RaceEvent n) (fair : race.Fair nonces winner)
    (inTurn : race.InTurn event) : (race.next event).Fair nonces winner := by
  cases event with
  | step event => exact fair_step distinct isLowest fair event inTurn
  | expire node =>
    apply fair.expire distinct isLowest
    intro electing
    have taken := inTurn.1 node (by simp [resolves, electing])
    simpa [next, electing] using taken
  | lose position => exact fair.lose position

end

theorem fair_start {reaches : Fin n → Fin n → Bool} (reached : ∀ node, sentTo reaches node ≠ []) :
    (start nonces reaches).Fair nonces winner := by
  constructor
  · intro node
    simp only [start, if_neg (reached node)]
    constructor <;> simp [register, new, Phase.isNew, Phase.isFetchingWAN]
  · intro envelope mem
    obtain ⟨node, _, isSent⟩ := mem_flatMap.mp mem
    obtain ⟨peer, isPeer, rfl⟩ := mem_map.mp isSent
    exact ⟨(mem_peers.mp (mem_of_mem_filter isPeer)).symm, rfl⟩

/-- If nonces are distinct and every call that resolves its window has taken all wants, the node
with the lowest nonce fetches and every other node waits for it. -/
theorem results_eq_outcome (distinct : Function.Injective nonces)
    (isLowest : ∀ other, nonces winner ≤ nonces other) {reaches : Fin n → Fin n → Bool}
    (reached : ∀ node, sentTo reaches node ≠ []) {events : List (RaceEvent n)}
    (inTurn : StepsMeet next InTurn (start nonces reaches) events) (node : Fin n) :
    let race := run next (start nonces reaches) events
    (∀ result, race.results node = some result → result = outcome winner node) ∧
      ((∀ peer ∈ peers node, peer ∈ race.took node) →
        (race.next (.expire node)).results node = some (outcome winner node)) := by
  intro race
  have fair : race.Fair nonces winner :=
    run_invariant_of_stepsMeet (Fair nonces winner) (fair_next distinct isLowest)
      (fair_start reached) inTurn
  constructor
  · exact (fair.members node).right
  · intro complete
    have expired := (fair.expire distinct isLowest fun _ => complete).members node
    have ended : ((race.next (.expire node)).state.members node).phase ≠ .electing := by
      unfold next
      dsimp only
      split
      · simp only [State.set, update_self, decideAction]
        split <;> exact Phase.noConfusion
      · assumption
    obtain ⟨result, isResult⟩ := ne_none_iff_exists'.mp (expired.ended ended)
    rw [isResult, expired.right result isResult]

/-- Three nodes with the nonces 500, 100 and 300. -/
def threeNonces (node : Fin 3) : Nonce :=
  if node = 0 then 500 else if node = 1 then 100 else 300

/-- Node 0 does not reach node 2. -/
def almostAll (sender receiver : Fin 3) : Bool :=
  !(sender = 0 && receiver = 2)

/-- Node 1 has all answers first, and announces its fetch under a nonce too high for node 2. -/
def threeNodes : List (RaceEvent 3) :=
  let answer (node : Fin 3) : List (RaceEvent 3) :=
    [.step (.deliver 0), .step (.answer node), .step (.answer node), .step (.answer node)]
  answer 1 ++ answer 0 ++ answer 2 ++ answer 0 ++ answer 1 ++
    [.lose 0, .step (.deliver 0), .step (.deliver 0), .step (.readDontHave 1),
      .step (.readDontHave 1), .step (.notifyFetching 1 400), .step (.deliver 2),
      .step (.readFetching 0), .step (.deliver 2), .step (.readFetching 2), .step (.deliver 0),
      .step (.deliver 0), .step (.readDontHave 2), .step (.readDontHave 2)]

theorem results_of_threeNodes :
    let race := run next (start threeNonces almostAll) threeNodes
    race.results 0 = some (.waitPeer 1) ∧ race.results 1 = some .fetchWAN ∧
      race.results 2 = some (.waitPeer 1) ∧
      ∀ result, race.results 2 = some result → result = outcome 1 2 :=
  ⟨by decide +kernel, by decide +kernel, by decide +kernel,
    (results_eq_outcome (by unfold Function.Injective; decide) (by decide) (by decide)
      (by decide +kernel) 2).1⟩

end Race

end Debswarm.Fleet
