import Debswarm.Text.Search
import Mathlib.Data.List.Basic

/-!
# Lexical paths

A path is a walk over directory names: some steps go up, the others go down into a name.  Going
up from the root stays at the root; going up from the start of a relative walk leads out of it.
Cleaning a path renders the shortest path to the same place, and joining paths concatenates
their walks and cleans the result, without a look at any file system.
-/

namespace Debswarm.Path

open List Text

section

variable {ν : Type*}

/-- One component of a path. -/
inductive Move (ν : Type*)
  | up
  | down (name : ν)
  deriving DecidableEq, Repr

/-- Where a walk has led: up a number of times from its start, and then down some names. -/
structure Place (ν : Type*) where
  ups : Nat
  names : List ν
  deriving DecidableEq, Repr

def Place.start : Place ν :=
  ⟨0, []⟩

/-- Take one step.  Where the start is the root there is nothing above it. -/
def Place.step (rooted : Bool) (place : Place ν) : Move ν → Place ν
  | .down name => ⟨place.ups, place.names ++ [name]⟩
  | .up =>
    if place.names = [] then ⟨if rooted then place.ups else place.ups + 1, []⟩
    else ⟨place.ups, place.names.dropLast⟩

def Place.walk (rooted : Bool) (place : Place ν) (moves : List (Move ν)) : Place ν :=
  moves.foldl (Place.step rooted) place

def Place.climb (rooted : Bool) (count : Nat) (place : Place ν) : Place ν :=
  ⟨if rooted then place.ups else place.ups + (count - place.names.length),
    place.names.take (place.names.length - count)⟩

/-- Go to a place that is given relative to another one. -/
def Place.follow (rooted : Bool) (place relative : Place ν) : Place ν :=
  let top := place.climb rooted relative.ups
  ⟨top.ups, top.names ++ relative.names⟩

variable (rooted : Bool) (place : Place ν) (moves : List (Move ν))

@[simp]
theorem Place.walk_append (first second : List (Move ν)) :
    place.walk rooted (first ++ second) = (place.walk rooted first).walk rooted second :=
  foldl_append ..

@[simp]
theorem Place.follow_start : place.follow rooted .start = place := by
  cases rooted <;> simp [follow, climb, start]

/-- A step from a place that was reached by a relative walk is the step of that walk. -/
theorem Place.step_follow (relative : Place ν) (move : Move ν) :
    (place.follow rooted relative).step rooted move =
      place.follow rooted (relative.step false move) := by
  cases move with
  | down name => simp [step, follow, climb]
  | up =>
    by_cases atTop : relative.names = []
    · by_cases used : place.names.length ≤ relative.ups
      · -- Everything below the start is climbed: this step leads above it.
        have noneLeft : place.names.length - (relative.ups + 1) = 0 := by omega
        cases rooted with
        | true => simp [step, follow, climb, atTop, used, noneLeft]
        | false =>
          simp [step, follow, climb, atTop, Nat.sub_eq_zero_of_le used]
          omega
      · have left : place.names.take (place.names.length - relative.ups) ≠ [] := by
          rw [ne_eq, take_eq_nil_iff, not_or]
          constructor
          · omega
          · rintro empty
            simp [empty] at used
        have shorter : (place.names.take (place.names.length - relative.ups)).dropLast =
            place.names.take (place.names.length - (relative.ups + 1)) := by
          rw [dropLast_eq_take, take_take, length_take]
          congr 1
          omega
        have notOut : relative.ups - place.names.length = 0 ∧
            relative.ups + 1 - place.names.length = 0 := by omega
        simp [step, follow, climb, atTop, left, shorter, notOut]
    · simp [step, follow, climb, atTop, dropLast_append_of_ne_nil]

/-- A walk leads where its normal form, taken on its own, leads. -/
theorem Place.walk_eq_follow :
    place.walk rooted moves = place.follow rooted (Place.start.walk false moves) := by
  have general : ∀ relative : Place ν, (place.follow rooted relative).walk rooted moves =
        place.follow rooted (relative.walk false moves) := by
    induction moves with
    | nil => exact fun relative => rfl
    | cons move moves ih =>
      intro relative
      have stepped := ih (relative.step false move)
      rw [← step_follow] at stepped
      exact stepped
  have fromStart := general .start
  rwa [follow_start] at fromStart

def Place.Below (place directory : Place ν) : Prop :=
  place.ups = directory.ups ∧ ∃ rest, rest ≠ [] ∧ place.names = directory.names ++ rest

/-- A relative place leads strictly below its origin if it first goes down the names that it climbed
out of, and then on. -/
theorem Place.follow_below_iff (directory relative : Place ν) :
    (directory.follow rooted relative).Below directory ↔
      (rooted = true ∨ relative.ups ≤ directory.names.length) ∧
        ∃ rest, rest ≠ [] ∧
          relative.names =
            directory.names.drop (directory.names.length - relative.ups) ++ rest := by
  have cut := take_append_drop (directory.names.length - relative.ups) directory.names
  have names : ∀ rest,
      directory.names.take (directory.names.length - relative.ups) ++ relative.names =
          directory.names ++ rest ↔
        relative.names = directory.names.drop (directory.names.length - relative.ups) ++ rest := by
    intro rest
    nth_rewrite 3 [← cut]
    rw [append_assoc, append_cancel_left_eq]
  have ups : (directory.follow rooted relative).ups = directory.ups ↔
      rooted = true ∨ relative.ups ≤ directory.names.length := by
    cases rooted with
    | true => simp [follow, climb]
    | false =>
      simp [follow, climb]
      omega
  unfold Below
  rw [ups]
  simp only [follow, climb, names]

@[simp]
theorem Place.walk_down (names : List ν) :
    place.walk rooted (names.map .down) = ⟨place.ups, place.names ++ names⟩ := by
  induction names generalizing place with
  | nil => simp [walk]
  | cons name names ih =>
    have walked := ih (place.step rooted (.down name))
    simpa [walk, step] using walked

@[simp]
theorem Place.walk_up (count : Nat) :
    (Place.start : Place ν).walk false (replicate count .up) = ⟨count, []⟩ := by
  induction count with
  | zero => rfl
  | succ count ih =>
    rw [replicate_succ', walk_append, ih]
    simp [walk, step]

@[simp]
theorem Place.ups_walk_rooted : (place.walk true moves).ups = place.ups := by
  induction moves generalizing place with
  | nil => rfl
  | cons move moves ih =>
    refine (ih _).trans ?_
    cases move with
    | down name => rfl
    | up =>
      simp only [step]
      split <;> rfl

/-- The names of a place are names that were walked down. -/
theorem Place.mem_names_walk {rooted : Bool} {place : Place ν} {moves : List (Move ν)} {name : ν}
    (mem : name ∈ (place.walk rooted moves).names) : name ∈ place.names ∨ .down name ∈ moves := by
  induction moves generalizing place with
  | nil => exact .inl mem
  | cons move moves ih =>
    rcases ih mem with earlier | later
    · cases move with
      | down last =>
        simp only [step, mem_append, mem_singleton] at earlier
        rcases earlier with before | rfl
        · exact .inl before
        · exact .inr mem_cons_self
      | up =>
        simp only [step] at earlier
        split at earlier
        · cases earlier
        · exact .inl (dropLast_subset _ earlier)
    · exact .inr (mem_cons_of_mem _ later)

end

/-! ## Paths as strings -/

/-- What one component of a path does, if anything. -/
def component (text : Str) : Option (Move Str) :=
  if text = [] ∨ text = ofAscii "." then none
  else if text = ofAscii ".." then some .up
  else some (.down text)

/-- The walk that a path describes. -/
def moves (path : Str) : List (Move Str) :=
  (splitByte 47 path).filterMap component

/-- Whether a path begins at the root. -/
def isRooted (path : Str) : Bool :=
  path.head? = some 47

/-- The place that a path names, from the root or from where it is resolved. -/
def place (path : Str) : Place Str :=
  Place.start.walk (isRooted path) (moves path)

/-- The shortest path to a place. -/
def render (rooted : Bool) (place : Place Str) : Str :=
  let body := intercalate [47] (replicate place.ups (ofAscii "..") ++ place.names)
  if rooted then 47 :: body else if body = [] then ofAscii "." else body

/-- The shortest path that names the same place. -/
def clean (path : Str) : Str :=
  render (isRooted path) (place path)

/-- Join path elements and clean the result.  Leading empty elements are left out. -/
def join (elements : List Str) : Str :=
  match elements.dropWhile (· = []) with
  | [] => []
  | first :: rest => clean (intercalate [47] (first :: rest))

@[simp]
theorem moves_append_slash (first second : Str) :
    moves (first ++ 47 :: second) = moves first ++ moves second := by
  rw [moves, splitByte_append_cons, filterMap_append]
  rfl

/-- The walk of a joined path is the walks of its elements, one after the other. -/
theorem moves_intercalate (first : Str) (rest : List Str) :
    moves (intercalate [47] (first :: rest)) = (first :: rest).flatMap moves := by
  induction rest generalizing first with
  | nil => simp
  | cons second rest ih =>
    have joined : intercalate [47] (first :: second :: rest) =
        first ++ 47 :: intercalate [47] (second :: rest) := by
      simp [intercalate]
    rw [joined, moves_append_slash, ih second]
    rfl

/-- A name that can stand for itself in a path. -/
def IsName (name : Str) : Prop :=
  component name = some (.down name) ∧ 47 ∉ name

theorem moves_of_isName {name : Str} (isName : IsName name) : moves name = [.down name] := by
  rw [moves, splitByte_of_not_mem isName.2]
  simp [isName.1]

/-- The names that a path walks down can stand for themselves. -/
theorem isName_of_down_mem {path name : Str} (mem : .down name ∈ moves path) : IsName name := by
  obtain ⟨piece, isPiece, down⟩ := mem_filterMap.mp mem
  have same : piece = name := by
    unfold component at down
    split at down
    · cases down
    · split at down
      · cases down
      · exact Move.down.inj (Option.some.inj down)
  rw [same] at down isPiece
  exact ⟨down, not_mem_of_mem_splitByte isPiece⟩

theorem isName_of_mem_place {path name : Str} (mem : name ∈ (place path).names) : IsName name := by
  rcases Place.mem_names_walk mem with atStart | walked
  · cases atStart
  · exact isName_of_down_mem walked

theorem ups_place_of_isRooted {path : Str} (rooted : isRooted path = true) :
    (place path).ups = 0 := by
  rw [place, rooted]
  exact Place.ups_walk_rooted ..

/-- The walk of the shortest path to a place goes up and then down. -/
theorem moves_intercalate_place (ups : Nat) {names : List Str}
    (areNames : ∀ name ∈ names, IsName name) :
    moves (intercalate [47] (replicate ups (ofAscii "..") ++ names)) =
      replicate ups .up ++ names.map .down := by
  have upMoves : moves (ofAscii "..") = [.up] := by decide
  have elements : (replicate ups (ofAscii "..") ++ names).flatMap moves =
      replicate ups .up ++ names.map .down := by
    rw [flatMap_append]
    congr 1
    · induction ups with
      | zero => rfl
      | succ ups ih => simp [replicate_succ, upMoves, ih]
    · induction names with
      | nil => rfl
      | cons name names ih =>
        rw [flatMap_cons, moves_of_isName (areNames name mem_cons_self),
          ih fun other mem => areNames other (mem_cons_of_mem _ mem)]
        rfl
  cases whole : replicate ups (ofAscii "..") ++ names with
  | nil =>
    rw [whole] at elements
    rw [← elements]
    decide
  | cons first rest => rw [moves_intercalate, ← whole, elements]

theorem intercalate_cons_eq_append (separator first : Str) (rest : List Str) :
    ∃ tail, intercalate separator (first :: rest) = first ++ tail := by
  cases rest with
  | nil => exact ⟨[], by simp [intercalate]⟩
  | cons second rest =>
    exact ⟨separator ++ intercalate separator (second :: rest), by simp [intercalate]⟩

theorem isRooted_intercalate_place (ups : Nat) {names : List Str}
    (areNames : ∀ name ∈ names, IsName name) :
    isRooted (intercalate [47] (replicate ups (ofAscii "..") ++ names)) = false := by
  cases whole : replicate ups (ofAscii "..") ++ names with
  | nil => rfl
  | cons first rest =>
    obtain ⟨tail, joined⟩ := intercalate_cons_eq_append [47] first rest
    have mem : first ∈ replicate ups (ofAscii "..") ++ names := by
      rw [whole]
      exact mem_cons_self
    have relative : first ≠ [] ∧ 47 ∉ first := by
      rcases mem_append.mp mem with up | name
      · rw [eq_of_mem_replicate up]
        decide
      · have isName := areNames first name
        refine ⟨?_, isName.2⟩
        rintro rfl
        exact absurd isName.1 (by decide)
    rw [joined]
    cases first with
    | nil => exact absurd rfl relative.1
    | cons byte first =>
      have notSlash : byte ≠ 47 := fun slash => relative.2 (slash ▸ mem_cons_self)
      simp [isRooted, notSlash]

theorem moves_render {rooted : Bool} {place : Place Str}
    (areNames : ∀ name ∈ place.names, IsName name) :
    moves (render rooted place) = replicate place.ups .up ++ place.names.map .down := by
  have body := moves_intercalate_place place.ups areNames
  unfold render
  cases rooted with
  | true =>
    rw [← body]
    exact moves_append_slash [] _
  | false =>
    simp only [Bool.false_eq_true, if_false]
    split
    · rename_i empty
      rw [empty] at body
      rw [← body]
      decide
    · exact body

theorem isRooted_render {rooted : Bool} {place : Place Str}
    (areNames : ∀ name ∈ place.names, IsName name) : isRooted (render rooted place) = rooted := by
  have body := isRooted_intercalate_place place.ups areNames
  unfold render
  cases rooted with
  | true => rfl
  | false =>
    simp only [Bool.false_eq_true, if_false]
    split
    · decide
    · exact body

@[simp]
theorem isRooted_clean (path : Str) : isRooted (clean path) = isRooted path :=
  isRooted_render fun _ mem => isName_of_mem_place mem

/-- A cleaned path names the same place. -/
@[simp]
theorem place_clean (path : Str) : place (clean path) = place path := by
  have walked : moves (clean path) =
      replicate (place path).ups .up ++ (place path).names.map .down :=
    moves_render fun _ mem => isName_of_mem_place mem
  rw [place, isRooted_clean, walked]
  cases rooted : isRooted path with
  | true =>
    have noUps := ups_place_of_isRooted rooted
    rw [noUps, replicate_zero, nil_append, Place.walk_down]
    simp [Place.start, ← noUps]
  | false =>
    rw [Place.walk_append, Place.walk_up, Place.walk_down]
    rfl

/-- A joined path names the place where the walks of its elements lead. -/
theorem place_join {first : Str} (rest : List Str) (present : first ≠ []) :
    isRooted (join (first :: rest)) = isRooted first ∧
      place (join (first :: rest)) =
        Place.start.walk (isRooted first) ((first :: rest).flatMap moves) := by
  have kept : (first :: rest).dropWhile (· = []) = first :: rest :=
    dropWhile_cons_of_neg (by simpa using present)
  obtain ⟨tail, joined⟩ := intercalate_cons_eq_append [47] first rest
  have sameRoot : isRooted (intercalate [47] (first :: rest)) = isRooted first := by
    rw [joined]
    cases first with
    | nil => exact absurd rfl present
    | cons byte first => rfl
  simp only [join, kept]
  constructor
  · rw [isRooted_clean, sameRoot]
  · rw [place_clean, place, sameRoot, moves_intercalate]

/-- Joining more elements walks on from where the first ones lead. -/
theorem place_join_append {elements : List Str} (more : List Str)
    (present : ∃ element ∈ elements, element ≠ []) :
    isRooted (join (elements ++ more)) = isRooted (join elements) ∧
      place (join (elements ++ more)) =
        (place (join elements)).walk (isRooted (join elements)) (more.flatMap moves) := by
  induction elements with
  | nil =>
    obtain ⟨element, mem, -⟩ := present
    cases mem
  | cons first rest ih =>
    by_cases empty : first = []
    · have skipped : ∀ others, join (first :: others) = join others := by
        intro others
        simp [join, empty]
      rw [cons_append, skipped, skipped]
      apply ih
      obtain ⟨element, mem, nonempty⟩ := present
      rcases mem_cons.mp mem with rfl | later
      · exact absurd empty nonempty
      · exact ⟨element, later, nonempty⟩
    · obtain ⟨rootedAll, placeAll⟩ := place_join (rest ++ more) empty
      obtain ⟨rootedFirst, placeFirst⟩ := place_join rest empty
      rw [cons_append, rootedAll, rootedFirst, placeAll, placeFirst, ← Place.walk_append,
        ← cons_append, flatMap_append]
      exact ⟨rfl, rfl⟩

theorem isName_of_plain {text : Str} (nonempty : text ≠ []) (noDot : 46 ∉ text)
    (noSlash : 47 ∉ text) : IsName text := by
  have notDot : text ≠ ofAscii "." := by
    rintro rfl
    exact noDot (by decide)
  have notDots : text ≠ ofAscii ".." := by
    rintro rfl
    exact noDot (by decide)
  exact ⟨by simp [component, nonempty, notDot, notDots], noSlash⟩

end Debswarm.Path
