import Mathlib.Data.List.Basic
import Mathlib.Data.List.Infix

/-!
# Runs of an event machine

A machine consumes one event at a time.  The rules of this module turn a fact
about one event into a fact about every run: an unconditional invariant rule, a
rule for runs whose events all meet a side condition in the state they are
consumed in, and an exact rule for side conditions that are also necessary.
-/

namespace Debswarm.Transition

open List

universe u v

section

variable {σ : Type u} {ε : Type v}

/-- Consume a list of events from left to right. -/
def run (next : σ → ε → σ) (start : σ) (events : List ε) : σ :=
  events.foldl next start

/-- Every event of the run meets `allowed` in the state it is consumed in. -/
def StepsMeet (next : σ → ε → σ) (allowed : σ → ε → Prop) : σ → List ε → Prop
  | _, [] => True
  | state, event :: rest =>
    allowed state event ∧ StepsMeet next allowed (next state event) rest

instance decidableStepsMeet (next : σ → ε → σ) (allowed : σ → ε → Prop)
    [∀ state event, Decidable (allowed state event)] :
    ∀ (state : σ) (events : List ε), Decidable (StepsMeet next allowed state events)
  | _, [] => inferInstanceAs (Decidable True)
  | state, event :: rest =>
    have := decidableStepsMeet next allowed (next state event) rest
    inferInstanceAs (Decidable (_ ∧ _))

variable {next : σ → ε → σ} {allowed : σ → ε → Prop} {start : σ} {events : List ε}

/-- A prefix of a run meets the side condition whenever the run does. -/
theorem StepsMeet.of_isPrefix {before : List ε} (meets : StepsMeet next allowed start events)
    (isPrefix : before <+: events) : StepsMeet next allowed start before := by
  induction before generalizing start events with
  | nil => trivial
  | cons event before ih =>
    cases events with
    | nil => simp at isPrefix
    | cons first rest =>
      obtain ⟨rfl, restPrefix⟩ := cons_prefix_cons.mp isPrefix
      exact ⟨meets.1, ih meets.2 restPrefix⟩

/-- A side condition that does not look at the state is met by a run of such events. -/
theorem stepsMeet_of_forall {allowed : ε → Prop} (every : ∀ event ∈ events, allowed event)
    (start : σ) : StepsMeet next (fun _ event => allowed event) start events := by
  induction events generalizing start with
  | nil => trivial
  | cons event events ih =>
    exact ⟨every event mem_cons_self,
      ih (fun later mem => every later (mem_cons_of_mem event mem)) _⟩

theorem StepsMeet.mono {weaker : σ → ε → Prop}
    (follows : ∀ state event, allowed state event → weaker state event)
    (meets : StepsMeet next allowed start events) : StepsMeet next weaker start events := by
  induction events generalizing start with
  | nil => trivial
  | cons event events ih => exact ⟨follows start event meets.1, ih meets.2⟩

theorem StepsMeet.and {other : σ → ε → Prop} (meets : StepsMeet next allowed start events)
    (meetsOther : StepsMeet next other start events) :
    StepsMeet next (fun state event => allowed state event ∧ other state event) start
      events := by
  induction events generalizing start with
  | nil => trivial
  | cons event events ih => exact ⟨⟨meets.1, meetsOther.1⟩, ih meets.2 meetsOther.2⟩

/-- A property of the start that every event preserves holds after every run. -/
theorem run_invariant (inv : σ → Prop)
    (preserved : ∀ state event, inv state → inv (next state event)) (initial : inv start)
    (events : List ε) : inv (run next start events) := by
  induction events generalizing start with
  | nil => exact initial
  | cons event events ih => exact ih (preserved start event initial)

/-- What every allowed event preserves holds after every run of allowed events. -/
theorem run_invariant_of_stepsMeet (inv : σ → Prop)
    (preserved : ∀ state event, inv state → allowed state event → inv (next state event))
    (initial : inv start) (meets : StepsMeet next allowed start events) :
    inv (run next start events) := by
  induction events generalizing start with
  | nil => exact initial
  | cons event events ih =>
    exact ih (preserved start event initial meets.1) meets.2

/-- What each allowed event shows in a state with the invariant holds at every event of a run. -/
theorem event_of_stepsMeet (inv : σ → Prop)
    (preserved : ∀ state event, inv state → allowed state event → inv (next state event))
    (fact : σ → ε → Prop)
    (factual : ∀ state event, inv state → allowed state event → fact state event)
    (initial : inv start) {before after : List ε} {event : ε}
    (meets : StepsMeet next allowed start (before ++ event :: after)) :
    fact (run next start before) event := by
  induction before generalizing start with
  | nil => exact factual start event initial meets.1
  | cons first before ih => exact ih (preserved start first initial meets.1) meets.2

/-- If `allowed` is what an event needs to preserve the property, it holds all along a run iff every
event is allowed. -/
theorem invariant_along_iff_stepsMeet (inv : σ → Prop)
    (stepIff : ∀ state event, inv state → (inv (next state event) ↔ allowed state event))
    (initial : inv start) (events : List ε) :
    (∀ before, before <+: events → inv (run next start before)) ↔
      StepsMeet next allowed start events := by
  induction events generalizing start with
  | nil =>
    constructor
    · intro _
      trivial
    · intro _ before isPrefix
      rw [prefix_nil.mp isPrefix]
      exact initial
  | cons event events ih =>
    constructor
    · intro along
      have stepped : inv (next start event) :=
        along [event] (prefix_append [event] events)
      refine ⟨(stepIff start event initial).mp stepped, (ih stepped).mp ?_⟩
      intro before isPrefix
      exact along (event :: before) (cons_prefix_cons.mpr ⟨rfl, isPrefix⟩)
    · rintro ⟨first, rest⟩ before isPrefix
      have stepped := (stepIff start event initial).mpr first
      cases before with
      | nil => exact initial
      | cons head tail =>
        obtain ⟨rfl, tailPrefix⟩ := cons_prefix_cons.mp isPrefix
        exact (ih stepped).mpr rest tail tailPrefix

/-- Two conditions agree along a run if they agree under an invariant that the first keeps. -/
theorem stepsMeet_iff_of_invariant {fact : σ → ε → Prop} (inv : σ → Prop)
    (stepIff : ∀ state event, inv state → (fact state event ↔ allowed state event))
    (preserved : ∀ state event, inv state → fact state event → inv (next state event))
    (initial : inv start) :
    StepsMeet next fact start events ↔ StepsMeet next allowed start events := by
  induction events generalizing start with
  | nil => exact Iff.rfl
  | cons event events ih =>
    constructor
    · rintro ⟨meets, rest⟩
      exact ⟨(stepIff start event initial).mp meets,
        (ih (preserved start event initial meets)).mp rest⟩
    · rintro ⟨isAllowed, rest⟩
      have meets := (stepIff start event initial).mpr isAllowed
      exact ⟨meets, (ih (preserved start event initial meets)).mpr rest⟩

end

/-! ## Working through a list until a goal is met -/

variable {State Item : Type*} (goal : State → Prop) [DecidablePred goal]
variable (act : State → Item → State)

/-- Act on items one by one until the goal is met. -/
def drain : List Item → State → State
  | [], state => state
  | item :: rest, state => if goal state then state else drain rest (act state item)

/-- The items that such a pass acts on. -/
def drained : List Item → State → List Item
  | [], _ => []
  | item :: rest, state => if goal state then [] else item :: drained rest (act state item)

theorem drain_eq_foldl (items : List Item) (state : State) :
    drain goal act items state = (drained goal act items state).foldl act state := by
  induction items generalizing state with
  | nil => rfl
  | cons item rest ih =>
    by_cases met : goal state
    · simp only [drain, drained, if_pos met, foldl_nil]
    · simp only [drain, drained, if_neg met, foldl_cons]
      exact ih (act state item)

/-- A pass acts on the items from the first one on. -/
theorem drained_isPrefix (items : List Item) (state : State) :
    drained goal act items state <+: items := by
  induction items generalizing state with
  | nil => exact nil_prefix
  | cons item rest ih =>
    rw [drained]
    split
    · exact nil_prefix
    · exact cons_prefix_cons.mpr ⟨rfl, ih (act state item)⟩

/-- A pass ends with its goal met, or with all items acted on. -/
theorem goal_drain_or_drained_eq (items : List Item) (state : State) :
    goal (drain goal act items state) ∨ drained goal act items state = items := by
  induction items generalizing state with
  | nil => exact .inr rfl
  | cons item rest ih =>
    rw [drain, drained]
    split
    · rename_i met
      exact .inl met
    · exact (ih (act state item)).imp_right (congrArg (item :: ·))

/-- A pass acts on an item only if acting on those ahead of it does not meet the goal. -/
theorem not_goal_of_drained_eq {items front rest : List Item} {item : Item} {state : State}
    (acted : drained goal act items state = front ++ item :: rest) :
    ¬ goal (front.foldl act state) := by
  induction items generalizing state front with
  | nil => cases front <;> cases acted
  | cons first items ih =>
    rw [drained] at acted
    split at acted
    · cases front <;> cases acted
    · rename_i unmet
      cases front with
      | nil => exact unmet
      | cons other front =>
        obtain ⟨rfl, later⟩ := cons.inj acted
        rw [foldl_cons]
        exact ih later

/-- The goal is met at the end if acting on some of the items, from the first one on, meets it. -/
theorem goal_drain_iff_exists (items : List Item) (state : State) :
    goal (drain goal act items state) ↔
      ∃ front, front <+: items ∧ goal (front.foldl act state) := by
  induction items generalizing state with
  | nil => simp [drain]
  | cons item rest ih =>
    by_cases met : goal state
    · simp only [drain, if_pos met]
      exact iff_of_true met ⟨[], nil_prefix, met⟩
    · rw [drain, if_neg met, ih]
      constructor
      · rintro ⟨front, isPrefix, later⟩
        exact ⟨item :: front, cons_prefix_cons.mpr ⟨rfl, isPrefix⟩, later⟩
      · rintro ⟨front, isPrefix, later⟩
        cases front with
        | nil => exact absurd later met
        | cons first front =>
          obtain ⟨rfl, restPrefix⟩ := cons_prefix_cons.mp isPrefix
          exact ⟨front, restPrefix, later⟩

/-- An item of some kind is acted on iff acting on items ahead of the first never meets the goal. -/
theorem any_drained_iff_forall (kind : Item → Bool) (items : List Item) (state : State) :
    (drained goal act items state).any kind = true ↔
      items.any kind = true ∧ ∀ front, front <+: (items.takeWhile fun item => !kind item) →
        ¬ goal (front.foldl act state) := by
  induction items generalizing state with
  | nil => simp [drained]
  | cons item rest ih =>
    by_cases met : goal state
    · rw [drained, if_pos met]
      exact iff_of_false Bool.false_ne_true fun ahead => ahead.2 [] nil_prefix met
    · rw [drained, if_neg met, any_cons, any_cons]
      cases isKind : kind item with
      | true => simpa [isKind] using met
      | false =>
        simp only [Bool.false_or, ih, takeWhile_cons, isKind, Bool.not_false, if_true]
        refine and_congr_right fun _ => ⟨fun unmet front isPrefix => ?_, fun unmet front isPrefix =>
          unmet (item :: front) (cons_prefix_cons.mpr ⟨rfl, isPrefix⟩)⟩
        cases front with
        | nil => exact met
        | cons first front =>
          obtain ⟨rfl, restPrefix⟩ := cons_prefix_cons.mp isPrefix
          exact unmet front restPrefix

section Monotone

variable {goal act} (inv : State → Prop)
  (preserved : ∀ state item, inv state → inv (act state item))
  (keeps : ∀ state item, inv state → goal state → goal (act state item)) (items : List Item)
  (state : State) (holds : inv state)

include preserved keeps holds

omit [DecidablePred goal] in
theorem goal_foldl (met : goal state) : goal (items.foldl act state) := by
  induction items generalizing state with
  | nil => exact met
  | cons item rest ih => exact ih _ (preserved state item holds) (keeps state item holds met)

omit [DecidablePred goal] in
/-- A goal that stays met is met by all items if some of them, from the first one on, meet it. -/
theorem exists_goal_foldl_iff :
    (∃ front, front <+: items ∧ goal (front.foldl act state)) ↔ goal (items.foldl act state) := by
  refine ⟨?_, fun met => ⟨items, prefix_rfl, met⟩⟩
  rintro ⟨front, ⟨rest, rfl⟩, met⟩
  rw [foldl_append]
  exact goal_foldl inv preserved keeps rest _ (run_invariant inv preserved holds front) met

/-- A goal that stays met is met at the end if acting on all items meets it. -/
theorem goal_drain_iff : goal (drain goal act items state) ↔ goal (items.foldl act state) :=
  (goal_drain_iff_exists goal act items state).trans
    (exists_goal_foldl_iff inv preserved keeps items state holds)

/-- If the goal stays met, an item of some kind is acted on iff there is one, and acting on the
items ahead of the first does not meet the goal. -/
theorem any_drained_iff (kind : Item → Bool) :
    (drained goal act items state).any kind = true ↔
      items.any kind = true ∧
        ¬ goal ((items.takeWhile fun item => !kind item).foldl act state) := by
  rw [any_drained_iff_forall, ← exists_goal_foldl_iff inv preserved keeps _ state holds]
  simp only [not_exists, not_and]

end Monotone

end Debswarm.Transition
