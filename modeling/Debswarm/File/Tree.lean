import Debswarm.Text.Bytes

/-!
# Walking a directory tree

A tree of files, directories and symbolic links, and the walk that calls a visitor for
each of its nodes in order.  Links are not followed.  The visitor is told when a node
cannot be read, and it can skip a directory or stop the walk.
-/

namespace Debswarm.File

open Text

universe u v w

mutual

/-- A file with its modification time, a directory, maybe unreadable, a link, or nothing. -/
inductive Node (α : Type u)
  | file (modTime : Int) (content : α)
  | directory (readable : Bool) (entries : Entries α)
  | link (modTime : Int) (target : Node α)
  | missing

/-- The entries of a directory, in the order of their names. -/
inductive Entries (α : Type u)
  | nil
  | cons (name : Str) (node : Node α) (rest : Entries α)

end

variable {α : Type u} {σ : Type v} {β : Type w}

def Node.isDirectory : Node α → Bool
  | .directory _ _ => true
  | _ => false

/-- Follow symbolic links. -/
def Node.resolve : Node α → Node α
  | .link _ target => target.resolve
  | node => node

theorem Node.resolve_ne_link (node : Node α) (modTime : Int) (target : Node α) :
    node.resolve ≠ .link modTime target := by
  cases node with
  | link ownTime ownTarget =>
    rw [Node.resolve]
    exact ownTarget.resolve_ne_link modTime target
  | _ => simp [Node.resolve]

theorem Node.resolve_of_isDirectory {node : Node α} (isDirectory : node.isDirectory = true) :
    node.resolve = node := by
  cases node with
  | directory readable entries => simp [Node.resolve]
  | _ => cases isDirectory

/-- The modification time of a file or link; nothing reads that of other nodes. -/
def Node.modTime : Node α → Int
  | .file modTime _ => modTime
  | .link modTime _ => modTime
  | _ => 0

/-- The path of an entry of a directory. -/
def join (path name : Str) : Str :=
  path ++ 47 :: name

/-- What a visitor wants next. -/
inductive Signal
  | proceed
  | skipDir
  | stop
  deriving DecidableEq, Repr

/-- Skipping what is not a directory to be entered is going on. -/
def Signal.settle : Signal → Signal
  | .skipDir => .proceed
  | signal => signal

mutual

/-- Visit a node and what is below it, telling the visitor whether it could be read. -/
def walk (visit : Str → Node α → Bool → σ → Signal × σ) (path : Str) :
    Node α → σ → Signal × σ
  | .missing, state =>
    let (signal, next) := visit path .missing true state
    (signal.settle, next)
  | .directory readable entries, state =>
    match visit path (.directory readable entries) (!readable) state with
    | (.proceed, next) =>
      if readable then walkEntries visit path entries next else (.proceed, next)
    | (signal, next) => (signal, next)
  | node, state => visit path node false state

/-- Visit the entries of a directory. -/
def walkEntries (visit : Str → Node α → Bool → σ → Signal × σ) (path : Str) :
    Entries α → σ → Signal × σ
  | .nil, state => (.proceed, state)
  | .cons name node rest, state =>
    match walk visit (join path name) node state with
    | (.proceed, next) => walkEntries visit path rest next
    | (.skipDir, next) =>
      if node.isDirectory then walkEntries visit path rest next else (.skipDir, next)
    | (.stop, next) => (.stop, next)

end

/-! ## Visitors that collect -/

/-- The visitor that stops at an unreadable node, enters some directories and collects the rest. -/
def collector (enter : Str → Bool) (emit : Str → Node α → List β) (path : Str) (node : Node α)
    (unreadable : Bool) (found : List β) : Signal × List β :=
  if unreadable then (.stop, found)
  else if node.isDirectory then (if enter path then .proceed else .skipDir, found)
  else (.proceed, found ++ emit path node)

mutual

/-- Whether a walk with this visitor meets only what it can read. -/
def walkable (enter : Str → Bool) (path : Str) : Node α → Bool
  | .missing => false
  | .directory readable entries =>
    readable && (!enter path || walkableEntries enter path entries)
  | _ => true

def walkableEntries (enter : Str → Bool) (path : Str) : Entries α → Bool
  | .nil => true
  | .cons name node rest =>
    walkable enter (join path name) node && walkableEntries enter path rest

end

mutual

/-- The files and links below a node, through the directories to be entered. -/
def leaves (enter : Str → Bool) (path : Str) : Node α → List (Str × Node α)
  | .missing => []
  | .directory _ entries => if enter path then leavesOfEntries enter path entries else []
  | node => [(path, node)]

def leavesOfEntries (enter : Str → Bool) (path : Str) : Entries α → List (Str × Node α)
  | .nil => []
  | .cons name node rest =>
    leaves enter (join path name) node ++ leavesOfEntries enter path rest

end

mutual

/-- The walk stops if it meets something unreadable, and otherwise collects from every
leaf. -/
theorem walk_collector (enter : Str → Bool) (emit : Str → Node α → List β) (path : Str)
    (node : Node α) (found : List β) :
    (walkable enter path node = false →
      (walk (collector enter emit) path node found).1 = .stop) ∧
    (walkable enter path node = true →
      walk (collector enter emit) path node found =
        (if node.isDirectory && !enter path then .skipDir else .proceed,
          found ++ (leaves enter path node).flatMap fun leaf => emit leaf.1 leaf.2)) := by
  cases node with
  | file modTime content | link modTime target =>
    simp [walkable, walk, collector, leaves, Node.isDirectory]
  | missing => simp [walkable, walk, collector, Signal.settle]
  | directory readable entries =>
    have below := walkEntries_collector enter emit path entries found
    cases readable with
    | false => simp [walkable, walk, collector]
    | true =>
      by_cases entered : enter path = true
      · simpa [walkable, walk, collector, leaves, Node.isDirectory, entered] using below
      · simp [walkable, walk, collector, leaves, Node.isDirectory, entered]

theorem walkEntries_collector (enter : Str → Bool) (emit : Str → Node α → List β) (path : Str)
    (entries : Entries α) (found : List β) :
    (walkableEntries enter path entries = false →
      (walkEntries (collector enter emit) path entries found).1 = .stop) ∧
    (walkableEntries enter path entries = true →
      walkEntries (collector enter emit) path entries found =
        (.proceed, found ++ (leavesOfEntries enter path entries).flatMap fun leaf =>
          emit leaf.1 leaf.2)) := by
  cases entries with
  | nil => simp [walkableEntries, walkEntries, leavesOfEntries]
  | cons name node rest =>
    obtain ⟨stops, collects⟩ := walk_collector enter emit (join path name) node found
    cases first : walkable enter (join path name) node with
    | false =>
      have stopped := stops first
      simp only [walkableEntries, first, Bool.false_and, walkEntries]
      rcases walkEq : walk (collector enter emit) (join path name) node found with
        ⟨signal, next⟩
      rw [walkEq] at stopped
      subst stopped
      simp
    | true =>
      have later := walkEntries_collector enter emit path rest
        (found ++ (leaves enter (join path name) node).flatMap fun leaf => emit leaf.1 leaf.2)
      simp only [walkableEntries, first, Bool.true_and, walkEntries, collects first,
        leavesOfEntries, List.flatMap_append]
      rw [← List.append_assoc]
      by_cases skipped : (node.isDirectory && !enter (join path name)) = true
      · rw [if_pos skipped]
        dsimp only
        rw [if_pos (Bool.and_eq_true_iff.mp skipped).1]
        exact later
      · rw [if_neg skipped]
        exact later

end

end Debswarm.File
