import Debswarm.Cache.Calls
import Debswarm.Cache.Contents

/-!
# What a part of a call can do

A call that goes on changes where it is and, at most, the lock, the cache, the count of one hash
and one reader.  This module says so once for all parts of all calls; whatever holds of the
interleaved calls is derived from it.
-/

namespace Debswarm.Cache.Calls

open Function Sync Text

/-! ## What a call holds -/

/-- In which mode a call holds the lock. -/
def Phase.mode : Phase → Mode
  | .inside _ | .counted _ _ | .recorded _ _ | .undoing _ _ | .leaving _ _ => .read
  | .deleting _ _ | .storing _ _ | .unlocking _ _ => .write
  | _ => .free

/-- The hash for which a get has counted itself, until it returns or gives the count back. -/
def Phase.counted? : Phase → Option Str
  | .counted hash _ | .recorded hash _ | .undoing hash _ => some hash
  | .leaving hash (.ok _) | .returning hash (.ok _) => some hash
  | _ => none

/-- The file that a deletion is about to remove. -/
def Removal.unlinks? : Removal → Option Str
  | .unlink hash _ => some hash
  | _ => none

/-- The file that an eviction is about to remove. -/
def Commit.unlinks? : Commit → Option Str
  | .removing removal _ => removal.unlinks?
  | _ => none

/-- The file that a call is about to remove. -/
def Phase.unlinks? : Phase → Option Str
  | .deleting _ removal => removal.unlinks?
  | .storing _ commit => commit.unlinks?
  | _ => none

/-- Whether a get has counted itself for a hash. -/
def Phase.countsFor (hash : Str) (phase : Phase) : Bool :=
  decide (phase.counted? = some hash)

/-- Whether a reader of a hash has not given the count back. -/
def Reader.countsFor (hash : Str) (reader : Reader) : Bool :=
  decide (reader.hash = hash) && decide (reader.closing ≠ .released)

/-- The gets that have counted themselves for a hash. -/
def World.countedGets (hash : Str) (world : World) : Nat :=
  world.calls.countP (Phase.countsFor hash)

/-- The returned readers of a hash whose first close has not given the count back. -/
def World.openReaders (hash : Str) (world : World) : Nat :=
  world.readers.countP (Reader.countsFor hash)

theorem Phase.mode_of_unlinks? {phase : Phase} {hash : Str} (unlinks : phase.unlinks? = some hash) :
    phase.mode = .write := by
  cases phase with
  | deleting | storing => rfl
  | _ => cases unlinks

/-! ## What a part of a call can do -/

/-- Every file but one stays where it is. -/
def KeepsFiles (except : Option Str) (before after : State) : Prop :=
  ∀ hash, except ≠ some hash → (before.files hash).isSome → (after.files hash).isSome

theorem keepsFiles_of_eq {except : Option Str} {before after : State}
    (same : after.files = before.files) : KeepsFiles except before after := by
  intro hash _ present
  rw [same]
  exact present

/-- A deletion or commit is about to remove a file only if it read a count not positive. -/
inductive Careful {φ : Type} (activeReaders : Str → Int) (unlinks? : φ → Option Str)
    (except : Option Str) (before : State) : State × (φ ⊕ Except Failure Unit) → Prop
  | ends (after : State) (result : Except Failure Unit)
      (keeps : KeepsFiles except before after) :
      Careful activeReaders unlinks? except before (after, .inr result)
  | goesOn (after : State) (further : φ) (keeps : KeepsFiles except before after)
      (clear : ∀ hash, unlinks? further = some hash → activeReaders hash ≤ 0) :
      Careful activeReaders unlinks? except before (after, .inl further)

section Parts

variable {φ : Type} {activeReaders : Str → Int} {unlinks? : φ → Option Str} {except : Option Str}
  {before after : State}

theorem careful_of_ends (result : Except Failure Unit) (same : after.files = before.files) :
    Careful activeReaders unlinks? except before (after, .inr result) :=
  .ends after result (keepsFiles_of_eq same)

theorem careful_of_goesOn {further : φ} (same : after.files = before.files)
    (harmless : unlinks? further = none) :
    Careful activeReaders unlinks? except before (after, .inl further) :=
  .goesOn after further (keepsFiles_of_eq same) fun _ unlinks => by
    rw [harmless] at unlinks
    cases unlinks

end Parts

theorem careful_removal (faults : Faults) (fails : Bool) (activeReaders : Str → Int)
    (cache : State) (removal : Removal) :
    Careful activeReaders Removal.unlinks? removal.unlinks? cache
      (removal.step faults fails activeReaders cache) := by
  cases removal with
  | check hash sizeHint =>
    -- the one place where a count is read
    have goesOn : ∀ size, ¬ 0 < activeReaders hash →
        Careful activeReaders Removal.unlinks? none cache (cache, .inl (.unlink hash size)) := by
      intro size notRead
      refine .goesOn _ _ (keepsFiles_of_eq rfl) fun other unlinks => ?_
      cases unlinks
      exact not_lt.mp notRead
    simp only [Removal.step]
    split
    · exact careful_of_ends _ rfl
    · rename_i notRead
      split
      · exact goesOn _ notRead
      · split
        · exact careful_of_ends _ rfl
        · exact goesOn _ notRead
  | unlink hash size =>
    simp only [Removal.step]
    split
    · exact careful_of_ends _ rfl
    · refine .goesOn _ _ (fun other differ present => ?_) fun _ unlinks => by cases unlinks
      have apart : other ≠ hash := fun same => differ (congrArg some same.symm)
      simpa only [update_of_ne apart] using present
  | dropRow hash size =>
    simp only [Removal.step]
    split <;> exact careful_of_ends _ rfl

theorem keepsFiles_moveIntoPlace {faults : Faults} {filePath hash : Str} {cache moved : State}
    (step : moveIntoPlace faults filePath hash cache = some moved) (except : Option Str) :
    KeepsFiles except cache moved := by
  obtain sameFiles | ⟨content, _, placed⟩ := files_moveIntoPlace step
  · exact keepsFiles_of_eq sameFiles
  · intro other _ present
    rw [placed]
    by_cases same : other = hash
    · rw [same, update_self]
      rfl
    · rw [update_of_ne same]
      exact present

theorem careful_commit (lib : Libraries) (store : Store) (fails : Bool)
    (activeReaders : Str → Int) (cache : State) (commit : Commit) :
    Careful activeReaders Commit.unlinks? commit.unlinks? cache
      (commit.step lib store fails activeReaders cache) := by
  cases commit with
  | flush => exact careful_of_goesOn rfl rfl
  | rank =>
    simp only [Commit.step]
    split
    · exact careful_of_ends _ rfl
    · split
      · exact careful_of_goesOn rfl rfl
      · split
        · exact careful_of_ends _ rfl
        · exact careful_of_goesOn rfl rfl
  | evict rest =>
    simp only [Commit.step]
    split
    · exact careful_of_ends _ rfl
    · split
      · split
        · exact careful_of_goesOn rfl rfl
        · exact careful_of_ends _ rfl
      · split
        · exact careful_of_goesOn rfl rfl
        · split
          · exact careful_of_ends _ rfl
          · exact careful_of_goesOn rfl rfl
  | removing removal rest =>
    have careful := careful_removal store.faults fails activeReaders cache removal
    simp only [Commit.step]
    generalize removal.step store.faults fails activeReaders cache = result at careful
    cases careful with
    | ends after result keeps =>
      exact .goesOn _ _ keeps fun _ unlinks => by cases unlinks
    | goesOn after further keeps clear => exact .goesOn _ _ keeps clear
  | place =>
    simp only [Commit.step]
    split
    · exact careful_of_ends _ rfl
    · split
      · exact careful_of_ends _ rfl
      · rename_i moved moveEq
        exact .goesOn _ _ (keepsFiles_moveIntoPlace moveEq _) fun _ unlinks => by cases unlinks
  | record => exact careful_of_ends _ (recordPackage_files lib _ _ _ _ cache).1

/-- What an event can do. A call changes its place, the lock, the cache, counts and readers. -/
inductive Turn (world : World) : World → Prop
  | tends (cache : State) (keeps : KeepsFiles none world.cache cache) :
      Turn world { world with cache }
  | begins (cache : State) (phase : Phase) (keeps : KeepsFiles none world.cache cache)
      (isFree : phase.mode = .free) (uncounted : phase.counted? = none) :
      Turn world { world with cache, calls := world.calls ++ [phase] }
  | goesOn (call : Nat) (old new : Phase) (cache : State) (mu : RWLock Nat)
      (found : world.calls[call]? = some old)
      (moves : world.mu.Moves call old.mode new.mode mu)
      (sameCount : new.counted? = old.counted?)
      (clear : ∀ hash, new.unlinks? = some hash → world.activeReaders hash ≤ 0)
      (keeps : KeepsFiles old.unlinks? world.cache cache) :
      Turn world { world with cache, mu, calls := world.calls.set call new }
  | counts (call : Nat) (hash content : Str) (found : world.calls[call]? = some (.inside hash)) :
      Turn world
        { world with
          activeReaders := addReader hash world.activeReaders
          calls := world.calls.set call (.counted hash content) }
  | undoes (call : Nat) (hash : Str) (failure : Failure)
      (found : world.calls[call]? = some (.undoing hash failure)) :
      Turn world
        { world with
          activeReaders := dropReader hash world.activeReaders
          calls := world.calls.set call (.leaving hash (.error failure)) }
  | returns (call : Nat) (hash content : Str) (row : PackageRow)
      (found : world.calls[call]? = some (.returning hash (.ok (content, row)))) :
      Turn world
        { world with
          readers := world.readers ++ [⟨hash, content, .open⟩]
          calls := world.calls.set call .returned }
  | closes (id : Nat) (hash content : Str)
      (returned : world.readers[id]? = some ⟨hash, content, .open⟩) :
      Turn world { world with readers := world.readers.set id ⟨hash, content, .begun⟩ }
  | releases (id : Nat) (hash content : Str)
      (returned : world.readers[id]? = some ⟨hash, content, .begun⟩) :
      Turn world
        { world with
          activeReaders := dropReader hash world.activeReaders
          readers := world.readers.set id ⟨hash, content, .released⟩ }

section Turns

variable {world : World} {call : Nat}

theorem turn_stays : Turn world world :=
  .tends world.cache (keepsFiles_of_eq rfl)

theorem turn_goOn {old new : Phase} {cache : State} {mu : RWLock Nat}
    (found : world.calls[call]? = some old) (moves : world.mu.Moves call old.mode new.mode mu)
    (sameCount : new.counted? = old.counted?) (harmless : new.unlinks? = none)
    (sameFiles : cache.files = world.cache.files) :
    Turn world { world with cache, mu, calls := world.calls.set call new } := by
  refine .goesOn call old new cache mu found moves sameCount ?_ (keepsFiles_of_eq sameFiles)
  intro hash unlinks
  rw [harmless] at unlinks
  cases unlinks

theorem turn_act (lib : Libraries) (fails : Bool) {phase : Phase}
    (found : world.calls[call]? = some phase) : Turn world (act lib call fails world phase) := by
  cases phase with
  | entering hash =>
    simp only [act]
    split
    · exact turn_stays
    · rename_i locked lockEq
      exact turn_goOn found (.rlock lockEq) rfl rfl rfl
  | inside hash =>
    simp only [act]
    split
    · exact turn_goOn found (.stays _) rfl rfl rfl
    · split
      · exact turn_goOn found (.stays _) rfl rfl rfl
      · exact .counts call hash _ found
  | counted hash content => exact turn_goOn found (.stays _) rfl rfl rfl
  | recorded hash content =>
    simp only [act]
    split
    · exact turn_goOn found (.stays _) rfl rfl rfl
    · split <;> exact turn_goOn found (.stays _) rfl rfl rfl
  | undoing hash failure => exact .undoes call hash failure found
  | leaving hash result =>
    cases result with
    | error failure | ok package => exact turn_goOn found .runlock rfl rfl rfl
  | returning hash result =>
    cases result with
    | error failure => exact turn_goOn found (.stays _) rfl rfl rfl
    | ok package => exact .returns call hash package.1 package.2 found
  | waiting job =>
    simp only [act]
    split
    · exact turn_stays
    · rename_i locked lockEq
      cases job with
      | delete faults hash | store request => exact turn_goOn found (.lock lockEq) rfl rfl rfl
  | deleting faults removal =>
    have careful := careful_removal faults fails world.activeReaders world.cache removal
    simp only [act]
    generalize removal.step faults fails world.activeReaders world.cache = result at careful
    cases careful with
    | ends after result keeps =>
      exact .goesOn call _ _ after world.mu found (.stays _) rfl
        (fun _ unlinks => by cases unlinks) keeps
    | goesOn after further keeps clear =>
      exact .goesOn call _ _ after world.mu found (.stays _) rfl clear keeps
  | storing store commit =>
    have careful := careful_commit lib store fails world.activeReaders world.cache commit
    simp only [act]
    generalize commit.step lib store fails world.activeReaders world.cache = result at careful
    cases careful with
    | ends after result keeps =>
      exact .goesOn call _ _ after world.mu found (.stays _) rfl
        (fun _ unlinks => by cases unlinks) keeps
    | goesOn after further keeps clear =>
      exact .goesOn call _ _ after world.mu found (.stays _) rfl clear keeps
  | unlocking leftover result =>
    cases leftover with
    | none | some path => exact turn_goOn found .unlock rfl rfl rfl
  | cleaning path => exact turn_goOn found (.stays _) rfl rfl rfl
  | returned => exact turn_stays

theorem turn_begin {phase : Phase} (isFree : phase.mode = .free)
    (uncounted : phase.counted? = none) : Turn world (world.begin phase) :=
  .begins world.cache phase (keepsFiles_of_eq rfl) isFree uncounted

theorem turn_next (lib : Libraries) (event : Event) : Turn world (next lib world event) := by
  cases event with
  | get hash => exact turn_begin rfl rfl
  | close id =>
    simp only [next, World.close]
    split
    · rename_i hash content returned
      exact .closes id hash content returned
    · exact turn_stays
  | release id =>
    simp only [next, World.release]
    split
    · rename_i hash content returned
      exact .releases id hash content returned
    · exact turn_stays
  | delete faults hash => exact turn_begin rfl rfl
  | put faults pendingPath data expectedHash filename =>
    simp only [next]
    split
    · exact turn_stays
    · exact .begins _ _ (keepsFiles_of_eq rfl) rfl rfl
  | putFile faults filePath hash filename size => exact turn_begin rfl rfl
  | goOn call fails =>
    simp only [next]
    split
    · exact turn_stays
    · rename_i phase found
      exact turn_act lib fails found
  | flusherSwap =>
    obtain ⟨pendingAccess, flushing, swapped⟩ := flusherSwap_eq world.cache
    exact .tends _ (keepsFiles_of_eq (by rw [swapped]))
  | flusherCommit faults => exact .tends _ (keepsFiles_of_eq (by rw [flusherCommit_eq]))
  | advance seconds => exact .tends _ (keepsFiles_of_eq rfl)

end Turns

end Debswarm.Cache.Calls
