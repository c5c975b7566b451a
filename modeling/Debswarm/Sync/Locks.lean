import Mathlib.Data.List.Basic
import Mathlib.Logic.Function.Basic

/-!
# Read-write locks

A read-write lock is held by any number of readers or by one writer.  Threads say in which mode
they hold the lock; as long as each of them changes its mode only by an operation of the lock,
the lock covers what the threads say, and a thread that writes shares the lock with nobody.

Nothing is assumed about fairness: a lock that is free for a thread may be given to it, whoever
else waits.
-/

namespace Debswarm.Sync

open Function List Option

universe u

/-- In which mode a thread holds a lock. -/
inductive Mode
  | free
  | read
  | write
  deriving DecidableEq, Repr

/-- The threads that hold a lock. -/
structure RWLock (θ : Type u) where
  readers : List θ
  writer : Option θ
  exclusive : writer ≠ none → readers = []

variable {θ : Type u}

namespace RWLock

/-- A lock that nobody holds. -/
def unlocked : RWLock θ :=
  ⟨[], none, fun _ => rfl⟩

/-- Lock for reading, unless a thread writes. -/
def rlock (thread : θ) (lock : RWLock θ) : Option (RWLock θ) :=
  if noWriter : lock.writer.isNone then
    some
      { lock with
        readers := thread :: lock.readers
        exclusive := fun written => absurd (isNone_iff_eq_none.mp noWriter) written }
  else none

/-- Give up a lock for reading. -/
def runlock [DecidableEq θ] (thread : θ) (lock : RWLock θ) : RWLock θ :=
  { lock with
    readers := lock.readers.erase thread
    exclusive := fun written => by rw [lock.exclusive written, erase_nil] }

/-- Lock for writing, unless another thread holds the lock. -/
def lock (thread : θ) (lock : RWLock θ) : Option (RWLock θ) :=
  if lock.writer.isNone && lock.readers.isEmpty then some ⟨[], some thread, fun _ => rfl⟩
  else none

/-- Give up a lock for writing. -/
def unlock (lock : RWLock θ) : RWLock θ :=
  { lock with
    writer := none
    exclusive := fun written => absurd rfl written }

/-! ## What the threads hold -/

/-- A lock covers the modes of the threads when they hold it in these modes. -/
def Covers (lock : RWLock θ) (modes : θ → Mode) : Prop :=
  ∀ thread, (modes thread = .read → thread ∈ lock.readers) ∧
    (modes thread = .write → lock.writer = some thread)

/-- How a thread changes its mode, and what becomes of the lock. -/
inductive Moves [DecidableEq θ] (thread : θ) (lock : RWLock θ) : Mode → Mode → RWLock θ → Prop
  | stays (mode : Mode) : Moves thread lock mode mode lock
  | rlock {locked : RWLock θ} (step : lock.rlock thread = some locked) :
      Moves thread lock .free .read locked
  | runlock : Moves thread lock .read .free (lock.runlock thread)
  | lock {locked : RWLock θ} (step : lock.lock thread = some locked) :
      Moves thread lock .free .write locked
  | unlock : Moves thread lock .write .free lock.unlock

variable {lock : RWLock θ} {modes : θ → Mode}

theorem covers_unlocked : (unlocked : RWLock θ).Covers fun _ => .free :=
  fun _ => ⟨Mode.noConfusion, Mode.noConfusion⟩

theorem Covers.not_read (covers : lock.Covers modes) {writer : θ} (writes : modes writer = .write)
    (thread : θ) : modes thread ≠ .read := by
  intro reads
  have held := (covers thread).1 reads
  have alone : lock.readers = [] := lock.exclusive (by simp [(covers writer).2 writes])
  rw [alone] at held
  exact not_mem_nil held

theorem Covers.writer_unique (covers : lock.Covers modes) {first second : θ}
    (firstWrites : modes first = .write) (secondWrites : modes second = .write) : first = second :=
  some.inj (((covers first).2 firstWrites).symm.trans ((covers second).2 secondWrites))

/-- A lock that covers the other threads, and one of them in its new mode. -/
theorem covers_update [DecidableEq θ] {thread : θ} {mode : Mode}
    (own : (mode = .read → thread ∈ lock.readers) ∧ (mode = .write → lock.writer = some thread))
    (others : ∀ other, other ≠ thread → (modes other = .read → other ∈ lock.readers) ∧
      (modes other = .write → lock.writer = some other)) :
    lock.Covers (update modes thread mode) := by
  intro other
  by_cases same : other = thread
  · subst same
    rw [update_self]
    exact own
  · rw [update_of_ne same]
    exact others other same

/-- A lock covers the modes of the threads after every change of mode. -/
theorem Covers.moves [DecidableEq θ] (covers : lock.Covers modes) {thread : θ} {old mode : Mode}
    {moved : RWLock θ} (held : modes thread = old) (moves : lock.Moves thread old mode moved) :
    moved.Covers (update modes thread mode) := by
  cases moves with
  | stays =>
    rw [← held, update_eq_self]
    exact covers
  | rlock step =>
    unfold RWLock.rlock at step
    split at step
    · cases step
      exact covers_update ⟨fun _ => mem_cons_self, Mode.noConfusion⟩ fun other _ =>
        ⟨fun reads => mem_cons_of_mem thread ((covers other).1 reads), (covers other).2⟩
    · cases step
  | runlock =>
    exact covers_update ⟨Mode.noConfusion, Mode.noConfusion⟩ fun other differ =>
      ⟨fun reads => (mem_erase_of_ne differ).mpr ((covers other).1 reads), (covers other).2⟩
  | lock step =>
    unfold RWLock.lock at step
    split at step
    · rename_i noHolder
      cases step
      obtain ⟨noWriter, noReader⟩ : lock.writer = none ∧ lock.readers = [] := by
        simpa using noHolder
      refine covers_update ⟨Mode.noConfusion, fun _ => rfl⟩ fun other _ => ⟨?_, ?_⟩
      · intro reads
        have held := (covers other).1 reads
        rw [noReader] at held
        exact absurd held not_mem_nil
      · intro writes
        have written := (covers other).2 writes
        rw [noWriter] at written
        cases written
    · cases step
  | unlock =>
    refine covers_update ⟨Mode.noConfusion, Mode.noConfusion⟩ fun other differ => ⟨?_, ?_⟩
    · exact fun reads => absurd reads (covers.not_read held other)
    · exact fun writes => absurd (covers.writer_unique writes held) differ

end RWLock

/-! ## Threads in a list -/

section Threads

variable {τ : Type u} {threads : List τ} {index : Nat} {old : τ}

theorem getElem?_set_cases {place : Nat} {new thread : τ}
    (found : (threads.set index new)[place]? = some thread) :
    (place = index ∧ thread = new) ∨ (place ≠ index ∧ threads[place]? = some thread) := by
  by_cases same : place = index
  · subst same
    rw [getElem?_set_self'] at found
    obtain ⟨_, _, rfl⟩ := map_eq_some_iff.mp found
    exact .inl ⟨rfl, rfl⟩
  · rw [getElem?_set_ne (Ne.symm same)] at found
    exact .inr ⟨same, found⟩

theorem getElem?_concat_cases {place : Nat} {new thread : τ}
    (found : (threads ++ [new])[place]? = some thread) :
    thread = new ∨ threads[place]? = some thread := by
  by_cases before : place < threads.length
  · rw [getElem?_append_left before] at found
    exact .inr found
  · rw [getElem?_append_right (Nat.le_of_not_lt before)] at found
    exact .inl (mem_singleton.mp (mem_of_getElem? found))

/-- The modes of the threads, each known by its place. -/
def modesOf (mode : τ → Mode) (threads : List τ) (thread : Nat) : Mode :=
  (threads[thread]?.map mode).getD .free

variable {mode : τ → Mode}

theorem modesOf_eq (found : threads[index]? = some old) :
    modesOf mode threads index = mode old := by
  rw [modesOf, found]
  rfl

theorem modesOf_set (found : threads[index]? = some old) (new : τ) :
    modesOf mode (threads.set index new) =
      update (modesOf mode threads) index (mode new) := by
  funext place
  by_cases same : place = index
  · subst same
    rw [update_self, modesOf, getElem?_set_self', found]
    rfl
  · rw [update_of_ne same, modesOf, getElem?_set_ne (Ne.symm same), modesOf]

theorem modesOf_concat {new : τ} (isFree : mode new = .free) :
    modesOf mode (threads ++ [new]) = modesOf mode threads := by
  funext place
  by_cases before : place < threads.length
  · rw [modesOf, getElem?_append_left before, modesOf]
  · have absent : threads[place]? = none := getElem?_eq_none (Nat.le_of_not_lt before)
    rw [modesOf, modesOf, absent]
    cases found : (threads ++ [new])[place]? with
    | none => rfl
    | some thread =>
      obtain rfl | held := getElem?_concat_cases found
      · exact isFree
      · rw [absent] at held
        cases held

theorem toNat_eq_ite (value : Bool) : value.toNat = if value then 1 else 0 := by
  cases value <;> rfl

/-- How many threads have a property when one of them has changed. -/
theorem countP_set_add (found : threads[index]? = some old) (new : τ) (counted : τ → Bool) :
    (threads.set index new).countP counted + (counted old).toNat =
      threads.countP counted + (counted new).toNat := by
  induction threads generalizing index with
  | nil => simp at found
  | cons first rest ih =>
    cases index with
    | zero =>
      cases found
      simp only [set_cons_zero, countP_cons, toNat_eq_ite]
      omega
    | succ index =>
      have later := ih (by simpa using found)
      simp only [set_cons_succ, countP_cons]
      omega

theorem countP_concat (counted : τ → Bool) (threads : List τ) (new : τ) :
    (threads ++ [new]).countP counted = threads.countP counted + (counted new).toNat := by
  rw [countP_append, countP_singleton, toNat_eq_ite]

end Threads

end Debswarm.Sync
