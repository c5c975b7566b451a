import Debswarm.Table.Core
import Mathlib.Logic.Function.Basic

/-!
# Entries that callers wait for

A board holds entries under keys.  A caller that waits for an entry makes a channel of capacity
one and adds it to the waiters of the entry.  When the entry is removed, every waiter is told
the outcome and its channel is closed; sending on a closed channel and closing it again is a
fault.

A channel is attended under a key if it is closed or waits for the entry of the key.  Every
operation keeps channels attended, except that an entry must have no waiters when it is
replaced.
-/

namespace Debswarm.Sync

open Function List Table

universe u v w

variable {κ : Type u} {δ : Type v} {σ : Type w}

/-- A channel of capacity one that is closed after its only message. -/
structure Channel (σ : Type w) where
  buffer : Option σ
  closed : Bool
  deriving DecidableEq, Repr

def Channel.fresh : Channel σ :=
  ⟨none, false⟩

/-- Send without blocking, and close. -/
def Channel.finish (signal : σ) (channel : Channel σ) : Channel σ :=
  ⟨channel.buffer.or (some signal), true⟩

/-- What is stored under a key, and the channels of those who wait for it. -/
structure Entry (δ : Type v) where
  data : δ
  waiters : List Nat
  deriving DecidableEq, Repr

/-- The entries, the channels and their number, and whether a closed one was used again. -/
structure Board (κ : Type u) (δ : Type v) (σ : Type w) where
  entries : Table κ (Entry δ)
  channels : Nat → Channel σ
  made : Nat
  faulty : Bool

namespace Board

def empty : Board κ δ σ :=
  ⟨Table.empty, fun _ => .fresh, 0, false⟩

variable {key : κ} {channel : Nat} {board before after : Board κ δ σ}

section Operations

variable [DecidableEq κ]

/-! ## Operations -/

/-- The data stored under a key. -/
def look (key : κ) (board : Board κ δ σ) : Option δ :=
  (board.entries.find? key).map Entry.data

/-- The channels that wait for the entry of a key. -/
def waiters (key : κ) (board : Board κ δ σ) : List Nat :=
  (board.entries.find? key).elim [] Entry.waiters

theorem mem_waiters_iff :
    channel ∈ board.waiters key ↔
      ∃ entry, board.entries.find? key = some entry ∧ channel ∈ entry.waiters := by
  unfold waiters
  cases board.entries.find? key with
  | none | some entry => simp

/-- Change the data stored under a key. -/
def revise (key : κ) (change : δ → δ) (board : Board κ δ σ) : Board κ δ σ :=
  { board with
    entries := board.entries.update key fun entry => { entry with data := change entry.data } }

/-- Store data under a key, or change the data that is there. -/
def reviseOrAdd (key : κ) (data : δ) (change : δ → δ) (board : Board κ δ σ) : Board κ δ σ :=
  { board with
    entries := board.entries.insertOrUpdate key ⟨data, []⟩ fun entry =>
      { entry with data := change entry.data } }

/-- Store data under a key, whatever was there. -/
def replace (key : κ) (data : δ) (board : Board κ δ σ) : Board κ δ σ :=
  { board with entries := board.entries.set key ⟨data, []⟩ }

/-- Wait for the entry of a key on a new channel. -/
def join (key : κ) (board : Board κ δ σ) : Option Nat × Board κ δ σ :=
  match board.entries.find? key with
  | none => (none, board)
  | some _ =>
    (some board.made,
      { board with
        entries := board.entries.update key fun entry =>
          { entry with waiters := entry.waiters ++ [board.made] }
        made := board.made + 1 })

/-- Wait for the entry of a key on a new channel, and store data for it if there is none. -/
def joinOrAdd (key : κ) (data : δ) (board : Board κ δ σ) : Nat × Board κ δ σ :=
  (board.made,
    { board with
      entries := board.entries.insertOrUpdate key ⟨data, [board.made]⟩ fun entry =>
        { entry with waiters := entry.waiters ++ [board.made] }
      made := board.made + 1 })

/-- Tell some channels the outcome and close them. -/
def finishAll (signal : σ) : List Nat → Board κ δ σ → Board κ δ σ
  | [], board => board
  | channel :: rest, board =>
    finishAll signal rest
      { board with
        channels := update board.channels channel
          ((board.channels channel).finish signal)
        faulty := board.faulty || (board.channels channel).closed }

/-- Remove the entry of a key if its data passes a test, and tell its waiters the outcome. -/
def releaseIf (test : δ → Bool) (signal : σ) (key : κ) (board : Board κ δ σ) : Board κ δ σ :=
  match board.entries.find? key with
  | none => board
  | some entry =>
    if test entry.data then
      finishAll signal entry.waiters { board with entries := board.entries.delete key }
    else board

/-- Remove every entry whose data passes a test. -/
def releaseAll (test : δ → Bool) (signal : σ) (board : Board κ δ σ) : Board κ δ σ :=
  (board.entries.rows.map Prod.fst).foldl (fun board key => board.releaseIf test signal key) board

/-! ## Invariant -/

/-- Nothing was closed twice, and every waiter is an open channel that waits once, for one
key. -/
structure Sound (board : Board κ δ σ) : Prop where
  noFault : board.faulty = false
  fresh : ∀ channel, board.made ≤ channel → (board.channels channel).closed = false
  isOpen : ∀ key, ∀ channel ∈ board.waiters key,
    channel < board.made ∧ (board.channels channel).closed = false
  once : ∀ key, (board.waiters key).Nodup
  apart : ∀ key other channel, channel ∈ board.waiters key → channel ∈ board.waiters other →
    key = other

/-- The channel is closed or waits for the entry of the key. -/
def Attended (key : κ) (channel : Nat) (board : Board κ δ σ) : Prop :=
  (board.channels channel).closed = true ∨ channel ∈ board.waiters key

/-- The board after some operations is sound, and the attended channels still are. -/
structure Keeps (before after : Board κ δ σ) : Prop where
  sound : after.Sound
  attended : ∀ key channel, before.Attended key channel → after.Attended key channel

theorem Keeps.refl (sound : board.Sound) : Keeps board board :=
  ⟨sound, fun _ _ attended => attended⟩

theorem Keeps.trans {first second third : Board κ δ σ} (keeps : Keeps first second)
    (later : Keeps second third) : Keeps first third :=
  ⟨later.sound, fun key channel attended =>
    later.attended key channel (keeps.attended key channel attended)⟩

theorem sound_empty : (empty : Board κ δ σ).Sound where
  noFault := rfl
  fresh := fun _ _ => rfl
  isOpen := fun _ _ mem => by cases mem
  once := fun _ => List.nodup_nil
  apart := fun _ _ _ mem => by cases mem

/-- An operation that adds no waiters and leaves the channels alone. -/
theorem Sound.of_sublist (sound : before.Sound)
    (fewer : ∀ key, (after.waiters key).Sublist (before.waiters key))
    (sameChannels : after.channels = before.channels) (sameMade : after.made = before.made)
    (sameFault : after.faulty = before.faulty) : after.Sound where
  noFault := by
    rw [sameFault]
    exact sound.noFault
  fresh := by
    rw [sameChannels, sameMade]
    exact sound.fresh
  isOpen := by
    intro key channel waits
    rw [sameChannels, sameMade]
    exact sound.isOpen key channel ((fewer key).subset waits)
  once := fun key => (sound.once key).sublist (fewer key)
  apart := fun key other channel waits waitsToo =>
    sound.apart key other channel ((fewer key).subset waits) ((fewer other).subset waitsToo)

/-- An operation that leaves the waiters and the channels alone. -/
theorem Sound.keeps_of_waiters_eq (sound : before.Sound)
    (sameWaiters : ∀ key, after.waiters key = before.waiters key)
    (sameChannels : after.channels = before.channels) (sameMade : after.made = before.made)
    (sameFault : after.faulty = before.faulty) : Keeps before after where
  sound := sound.of_sublist (fun key => by rw [sameWaiters]) sameChannels sameMade sameFault
  attended := by
    intro key channel attended
    rw [Attended, sameWaiters, sameChannels]
    exact attended

theorem Sound.revise (sound : board.Sound) (key : κ) (change : δ → δ) :
    Keeps board (board.revise key change) := by
  refine sound.keeps_of_waiters_eq (fun other => ?_) rfl rfl rfl
  simp only [waiters, Board.revise, find?_update]
  split
  next same =>
    subst same
    cases board.entries.find? other <;> rfl
  next => rfl

theorem Sound.reviseOrAdd (sound : board.Sound) (key : κ) (data : δ) (change : δ → δ) :
    Keeps board (board.reviseOrAdd key data change) := by
  refine sound.keeps_of_waiters_eq (fun other => ?_) rfl rfl rfl
  simp only [waiters, Board.reviseOrAdd, find?_insertOrUpdate]
  split
  next same =>
    subst same
    cases board.entries.find? other <;> rfl
  next => rfl

theorem Sound.replace (sound : board.Sound) (data : δ) (noWaiters : board.waiters key = []) :
    Keeps board (board.replace key data) := by
  refine sound.keeps_of_waiters_eq (fun other => ?_) rfl rfl rfl
  simp only [waiters, Board.replace, find?_set]
  split
  next same =>
    subst same
    exact noWaiters.symm
  next => rfl

/-! ## Waiting -/

/-- A new channel waits for the entry of a key. -/
theorem Sound.keeps_of_joined (sound : before.Sound)
    (joined : after.waiters key = before.waiters key ++ [before.made])
    (others : ∀ other, other ≠ key → after.waiters other = before.waiters other)
    (sameChannels : after.channels = before.channels) (oneMade : after.made = before.made + 1)
    (sameFault : after.faulty = before.faulty) :
    Keeps before after ∧ after.Attended key before.made := by
  have isNew : ∀ other, before.made ∉ before.waiters other := fun other mem =>
    absurd (sound.isOpen other _ mem).1 (Nat.lt_irrefl _)
  have waits : ∀ other channel, channel ∈ after.waiters other →
      channel ∈ before.waiters other ∨ (other = key ∧ channel = before.made) := by
    intro other channel mem
    by_cases same : other = key
    · subst same
      rw [joined, mem_append, mem_singleton] at mem
      exact mem.imp_right fun last => ⟨rfl, last⟩
    · rw [others other same] at mem
      exact .inl mem
  refine ⟨⟨⟨?_, ?_, ?_, ?_, ?_⟩, ?_⟩, ?_⟩
  · rw [sameFault]
    exact sound.noFault
  · intro channel later
    rw [sameChannels]
    exact sound.fresh channel (by omega)
  · intro other channel mem
    rw [sameChannels, oneMade]
    rcases waits other channel mem with waited | ⟨-, rfl⟩
    · exact ⟨Nat.lt_succ_of_lt (sound.isOpen other channel waited).1,
        (sound.isOpen other channel waited).2⟩
    · exact ⟨Nat.lt_succ_self _, sound.fresh _ le_rfl⟩
  · intro other
    by_cases same : other = key
    · subst same
      rw [joined]
      refine (sound.once other).append (nodup_singleton _) ?_
      rw [disjoint_singleton]
      exact isNew other
    · rw [others other same]
      exact sound.once other
  · intro first second channel firstMem secondMem
    rcases waits first channel firstMem with inFirst | ⟨rfl, rfl⟩
    · rcases waits second channel secondMem with inSecond | ⟨rfl, rfl⟩
      · exact sound.apart first second channel inFirst inSecond
      · exact absurd inFirst (isNew first)
    · rcases waits second _ secondMem with inSecond | ⟨rfl, -⟩
      · exact absurd inSecond (isNew second)
      · rfl
  · intro other channel attended
    rw [Attended, sameChannels]
    refine attended.imp_right fun waited => ?_
    by_cases same : other = key
    · subst same
      rw [joined]
      exact mem_append_left _ waited
    · rw [others other same]
      exact waited
  · right
    rw [joined]
    exact mem_append_right _ (mem_singleton_self _)

@[simp]
theorem waiters_joinOrAdd (key : κ) (data : δ) (board : Board κ δ σ) :
    (board.joinOrAdd key data).2.waiters key = board.waiters key ++ [board.made] := by
  simp only [waiters, Board.joinOrAdd, find?_insertOrUpdate_self]
  cases board.entries.find? key <;> rfl

/-- The channel of a caller that joined is new and waits for the entry. -/
theorem join_eq_some (joined : board.join key = (some channel, after)) :
    channel = board.made ∧ after.made = board.made + 1 ∧
      after.waiters key = board.waiters key ++ [board.made] := by
  unfold Board.join at joined
  cases found : board.entries.find? key with
  | none => simp [found] at joined
  | some entry =>
    rw [found] at joined
    cases joined
    exact ⟨rfl, rfl, by simp [waiters, found]⟩

theorem join_eq_none (joined : board.join key = (none, after)) : after = board := by
  unfold Board.join at joined
  split at joined
  · cases joined
    rfl
  · cases joined

theorem Sound.joinOrAdd (sound : board.Sound) (key : κ) (data : δ) :
    Keeps board (board.joinOrAdd key data).2 ∧
      (board.joinOrAdd key data).2.Attended key (board.joinOrAdd key data).1 := by
  apply sound.keeps_of_joined
  · exact waiters_joinOrAdd key data board
  · intro other different
    simp only [waiters, Board.joinOrAdd, find?_insertOrUpdate_ne _ different]
  · rfl
  · rfl
  · rfl

theorem Sound.join (sound : board.Sound) (joined : board.join key = (some channel, after)) :
    Keeps board after ∧ after.Attended key channel := by
  obtain ⟨rfl, -, waiting⟩ := join_eq_some joined
  unfold Board.join at joined
  cases found : board.entries.find? key with
  | none => simp [found] at joined
  | some entry =>
    rw [found] at joined
    cases joined
    apply sound.keeps_of_joined
    · exact waiting
    · intro other different
      simp only [waiters, find?_update_ne _ different]
    · rfl
    · rfl
    · rfl

/-! ## Releasing -/

omit [DecidableEq κ] in
theorem finishAll_entries (signal : σ) (list : List Nat) (board : Board κ δ σ) :
    (finishAll signal list board).entries = board.entries ∧
      (finishAll signal list board).made = board.made := by
  induction list generalizing board with
  | nil => exact ⟨rfl, rfl⟩
  | cons channel rest ih => exact ih _

omit [DecidableEq κ] in
/-- Exactly the listed channels get closed. -/
theorem closed_finishAll (signal : σ) (list : List Nat) (board : Board κ δ σ) (channel : Nat) :
    ((finishAll signal list board).channels channel).closed =
      (decide (channel ∈ list) || (board.channels channel).closed) := by
  induction list generalizing board with
  | nil => rfl
  | cons first rest ih =>
    rw [finishAll, ih]
    by_cases same : channel = first
    · subst same
      simp [Channel.finish]
    · simp [same]

omit [DecidableEq κ] in
/-- Channels that are listed once are told the outcome once. -/
theorem channels_finishAll (signal : σ) {list : List Nat} (once : list.Nodup) (channel : Nat) :
    (finishAll signal list board).channels channel =
      if channel ∈ list then (board.channels channel).finish signal
      else board.channels channel := by
  induction list generalizing board with
  | nil => rfl
  | cons first rest ih =>
    obtain ⟨notLater, onceLater⟩ := nodup_cons.mp once
    rw [finishAll, ih onceLater]
    by_cases same : channel = first
    · subst same
      simp [notLater]
    · simp [same]

omit [DecidableEq κ] in
/-- Open channels that are listed once are closed without a fault. -/
theorem faulty_finishAll (signal : σ) {list : List Nat} (once : list.Nodup)
    (isOpen : ∀ channel ∈ list, (board.channels channel).closed = false) :
    (finishAll signal list board).faulty = board.faulty := by
  induction list generalizing board with
  | nil => rfl
  | cons first rest ih =>
    obtain ⟨notLater, onceLater⟩ := nodup_cons.mp once
    rw [finishAll, ih onceLater]
    · simp [isOpen first mem_cons_self]
    · intro channel mem
      have different : channel ≠ first := fun same => notLater (same ▸ mem)
      simp only [update_of_ne different]
      exact isOpen channel (mem_cons_of_mem _ mem)

theorem closed_releaseIf {test : δ → Bool} {signal : σ} {entry : Entry δ}
    (found : board.entries.find? key = some entry) (passes : test entry.data = true)
    (mem : channel ∈ entry.waiters) :
    ((board.releaseIf test signal key).channels channel).closed = true := by
  rw [releaseIf, found]
  simp only [if_pos passes, closed_finishAll, mem, decide_true, Bool.true_or]

/-- Remove the entry of a key and close its waiters. -/
def remove (signal : σ) (key : κ) (board : Board κ δ σ) : Board κ δ σ :=
  finishAll signal (board.waiters key) { board with entries := board.entries.delete key }

@[simp]
theorem waiters_remove (signal : σ) (key other : κ) (board : Board κ δ σ) :
    (board.remove signal key).waiters other = if other = key then [] else board.waiters other := by
  simp only [waiters, remove, (finishAll_entries ..).1, find?_delete]
  split <;> rfl

section

variable (sound : board.Sound)

include sound

/-- Who still waits after a removal waited before it, and not for the entry that is gone. -/
theorem Sound.mem_waiters_remove {signal : σ} {other : κ}
    (waits : channel ∈ (board.remove signal key).waiters other) :
    channel ∈ board.waiters other ∧ channel ∉ board.waiters key := by
  rw [waiters_remove] at waits
  split at waits
  · cases waits
  · rename_i different
    exact ⟨waits, fun gone => different (sound.apart other key channel waits gone)⟩

theorem Sound.remove (signal : σ) (key : κ) :
    Keeps board (board.remove signal key) := by
  have closed : ∀ channel, ((board.remove signal key).channels channel).closed =
      (decide (channel ∈ board.waiters key) || (board.channels channel).closed) :=
    closed_finishAll signal _ _
  have made : (board.remove signal key).made = board.made := (finishAll_entries ..).2
  refine ⟨⟨?_, ?_, ?_, ?_, ?_⟩, ?_⟩
  · have once : (board.waiters key).Nodup := sound.once key
    rw [Board.remove, faulty_finishAll signal once]
    · exact sound.noFault
    · exact fun channel waits => (sound.isOpen key channel waits).2
  · intro channel later
    rw [made] at later
    rw [closed, sound.fresh channel later, Bool.or_false, decide_eq_false_iff_not]
    intro waits
    exact absurd later (Nat.not_le.mpr (sound.isOpen key channel waits).1)
  · intro other channel waits
    obtain ⟨waited, notGone⟩ := sound.mem_waiters_remove waits
    obtain ⟨earlier, isOpen⟩ := sound.isOpen other channel waited
    rw [made, closed]
    exact ⟨earlier, by simp [notGone, isOpen]⟩
  · intro other
    rw [waiters_remove]
    split
    · exact nodup_nil
    · exact sound.once other
  · intro first second channel inFirst inSecond
    exact sound.apart first second channel (sound.mem_waiters_remove inFirst).1
      (sound.mem_waiters_remove inSecond).1
  · intro other channel attended
    rw [Attended, closed, waiters_remove]
    rcases attended with wasClosed | waited
    · exact .inl (by simp [wasClosed])
    · by_cases same : other = key
      · subst same
        exact .inl (by simp [waited])
      · rw [if_neg same]
        exact .inr waited

theorem Sound.releaseIf (test : δ → Bool) (signal : σ) (key : κ) :
    Keeps board (board.releaseIf test signal key) := by
  unfold Board.releaseIf
  cases found : board.entries.find? key with
  | none => exact .refl sound
  | some entry =>
    have waiting : board.waiters key = entry.waiters := by simp [waiters, found]
    have removed := sound.remove signal key
    rw [Board.remove, waiting] at removed
    dsimp only
    split
    · exact removed
    · exact .refl sound

theorem Sound.releaseKeys (test : δ → Bool) (signal : σ) (keys : List κ) :
    Keeps board (keys.foldl (fun board key => board.releaseIf test signal key) board) := by
  induction keys generalizing board with
  | nil => exact .refl sound
  | cons key keys ih =>
    have first := sound.releaseIf test signal key
    exact first.trans (ih first.sound)

theorem Sound.releaseAll (test : δ → Bool) (signal : σ) :
    Keeps board (board.releaseAll test signal) :=
  sound.releaseKeys test signal _

end

theorem find?_releaseIf (test : δ → Bool) (signal : σ) (key other : κ) (board : Board κ δ σ) :
    (board.releaseIf test signal key).entries.find? other =
      if other = key then (board.entries.find? key).filter fun entry => !test entry.data
      else board.entries.find? other := by
  by_cases same : other = key
  · subst same
    rw [if_pos rfl, releaseIf]
    cases found : board.entries.find? other with
    | none => simpa using found
    | some entry =>
      cases passes : test entry.data with
      | true => simp [passes, (finishAll_entries ..).1, Option.filter]
      | false => simp [passes, found, Option.filter]
  · rw [if_neg same, releaseIf]
    cases board.entries.find? key with
    | none => rfl
    | some entry =>
      simp only
      split
      · rw [(finishAll_entries ..).1, Table.find?_delete_ne _ same]
      · rfl

theorem find?_releaseKeys (test : δ → Bool) (signal : σ) (keys : List κ) (other : κ)
    (board : Board κ δ σ) :
    (keys.foldl (fun board key => board.releaseIf test signal key) board).entries.find? other =
      if other ∈ keys then (board.entries.find? other).filter fun entry => !test entry.data
      else board.entries.find? other := by
  induction keys generalizing board with
  | nil => rfl
  | cons key keys ih =>
    rw [List.foldl_cons, ih, find?_releaseIf]
    by_cases same : other = key
    · subst same
      simp [Option.filter_filter]
    · simp [same]

/-- Removing every entry that passes a test closes the waiters of those entries. -/
theorem Sound.closed_releaseAll (sound : board.Sound) {test : δ → Bool} (signal : σ)
    {entry : Entry δ} (found : board.entries.find? key = some entry)
    (passes : test entry.data = true) (mem : channel ∈ entry.waiters) :
    ((board.releaseAll test signal).channels channel).closed = true := by
  have attended : board.Attended key channel := .inr (by simp [waiters, found, mem])
  refine ((sound.releaseAll test signal).attended key channel attended).resolve_right ?_
  have listed : key ∈ board.entries.rows.map Prod.fst :=
    List.mem_map.mpr ⟨_, Table.find?_eq_some_iff.mp found, rfl⟩
  simp [waiters, Board.releaseAll, find?_releaseKeys, listed, found, passes, Option.filter]

end Operations

end Board

end Debswarm.Sync
