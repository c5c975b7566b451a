import Debswarm.Sync.Board

/-!
# What an operation does to channels and entries

Whatever operation is applied to a sound board, it stays sound, and each channel is left alone
or, while it is open, told one outcome and closed.  This also holds when an entry is replaced,
which only makes the channels that wait for it wait forever.  If the entry of a key has a waiter
that is not new after an operation, then it had that waiter before.
-/

namespace Debswarm.Sync

universe u v w

variable {κ : Type u} {δ : Type v} {σ : Type w}

/-- The channel is left alone, or it was open and is told one outcome. -/
def Channel.Told (before after : Channel σ) : Prop :=
  after = before ∨ (before.closed = false ∧ ∃ signal, after = before.finish signal)

theorem Channel.Told.trans {first second third : Channel σ} (told : first.Told second)
    (later : second.Told third) : first.Told third := by
  rcases told with rfl | ⟨wasOpen, signal, rfl⟩
  · exact later
  · rcases later with rfl | ⟨stillOpen, -⟩
    · exact .inr ⟨wasOpen, signal, rfl⟩
    · cases stillOpen

/-- The outcome that came into a channel. -/
def Channel.arrived (before after : Channel σ) : List σ :=
  match before.buffer with
  | some _ => []
  | none => after.buffer.toList

/-- The receiver takes the outcome out of a channel. -/
def Channel.drained (channel : Channel σ) : Channel σ :=
  { channel with buffer := none }

namespace Board

/-- The receiver of a channel takes the outcome. -/
def drain (channel : Nat) (board : Board κ δ σ) : Board κ δ σ :=
  { board with
    channels := Function.update board.channels channel (board.channels channel).drained }

variable [DecidableEq κ]

/-- One operation or none was applied. Only entries of claimed keys are replaced. -/
inductive Moves (claimed : κ → Prop) (revised : κ → δ → δ → Prop) :
    Board κ δ σ → Board κ δ σ → Prop
  | refl (board) : Moves claimed revised board board
  | revise (key change board) (isRevised : ∀ data, revised key data (change data)) :
      Moves claimed revised board (board.revise key change)
  | reviseOrAdd (key data change board) (isRevised : ∀ data, revised key data (change data)) :
      Moves claimed revised board (board.reviseOrAdd key data change)
  | replace (key data board) (isClaimed : claimed key) :
      Moves claimed revised board (board.replace key data)
  | join (key board) : Moves claimed revised board (board.join key).2
  | joinOrAdd (key data board) : Moves claimed revised board (board.joinOrAdd key data).2
  | releaseIf (test signal key board) :
      Moves claimed revised board (board.releaseIf test signal key)
  | releaseAll (test signal board) : Moves claimed revised board (board.releaseAll test signal)

variable {claimed : κ → Prop} {revised : κ → δ → δ → Prop}

variable {board before after : Board κ δ σ}

theorem Sound.replaced (sound : board.Sound) (key : κ) (data : δ) :
    (board.replace key data).Sound := by
  refine sound.of_sublist (fun other => ?_) rfl rfl rfl
  simp only [waiters, Board.replace, Table.find?_set]
  split
  · exact List.nil_sublist _
  · exact List.Sublist.refl _

@[simp]
theorem channels_join (key : κ) (board : Board κ δ σ) :
    (board.join key).2.channels = board.channels := by
  unfold Board.join
  split <;> rfl

theorem Sound.keeps_join (sound : board.Sound) (key : κ) : Keeps board (board.join key).2 := by
  cases joined : board.join key with
  | mk channel after =>
    cases channel with
    | some channel => exact (sound.join joined).1
    | none =>
      rw [join_eq_none joined]
      exact .refl sound

theorem Sound.told_releaseIf (sound : board.Sound) (test : δ → Bool) (signal : σ) (key : κ)
    (channel : Nat) :
    (board.channels channel).Told ((board.releaseIf test signal key).channels channel) := by
  unfold Board.releaseIf
  cases found : board.entries.find? key with
  | none => exact .inl rfl
  | some entry =>
    have waiting : board.waiters key = entry.waiters := by simp [waiters, found]
    have once := sound.once key
    rw [waiting] at once
    dsimp only
    split
    · rw [channels_finishAll signal once]
      split
      · rename_i waits
        rw [← waiting] at waits
        exact .inr ⟨(sound.isOpen key channel waits).2, signal, rfl⟩
      · exact .inl rfl
    · exact .inl rfl

theorem Sound.told_releaseAll (sound : board.Sound) (test : δ → Bool) (signal : σ) (channel : Nat) :
    (board.channels channel).Told ((board.releaseAll test signal).channels channel) := by
  unfold Board.releaseAll
  generalize board.entries.rows.map Prod.fst = keys
  induction keys generalizing board with
  | nil => exact .inl rfl
  | cons key keys ih =>
    exact (sound.told_releaseIf test signal key channel).trans
      (ih (sound.releaseIf test signal key).sound)

section

variable (moves : Moves claimed revised before after)

include moves

/-- An operation keeps a board sound and tells each open channel at most one outcome. -/
theorem Moves.told (sound : before.Sound) :
    after.Sound ∧ ∀ channel, (before.channels channel).Told (after.channels channel) := by
  cases moves with
  | refl => exact ⟨sound, fun _ => .inl rfl⟩
  | revise key change => exact ⟨(sound.revise key change).sound, fun _ => .inl rfl⟩
  | reviseOrAdd key data change =>
    exact ⟨(sound.reviseOrAdd key data change).sound, fun _ => .inl rfl⟩
  | replace key data => exact ⟨sound.replaced key data, fun _ => .inl rfl⟩
  | join key =>
    exact ⟨(sound.keeps_join key).sound, fun channel => .inl (by rw [channels_join])⟩
  | joinOrAdd key data => exact ⟨(sound.joinOrAdd key data).1.sound, fun _ => .inl rfl⟩
  | releaseIf test signal key =>
    exact ⟨(sound.releaseIf test signal key).sound, sound.told_releaseIf test signal key⟩
  | releaseAll test signal =>
    exact ⟨(sound.releaseAll test signal).sound, sound.told_releaseAll test signal⟩

/-- If the entries of claimed keys have no waiters, attended channels stay attended. -/
theorem Moves.keeps (sound : before.Sound)
    (free : ∀ key, claimed key → before.waiters key = []) : Keeps before after := by
  cases moves with
  | refl => exact .refl sound
  | revise key change => exact sound.revise key change
  | reviseOrAdd key data change => exact sound.reviseOrAdd key data change
  | replace key data _ isClaimed => exact sound.replace data (free key isClaimed)
  | join key => exact sound.keeps_join key
  | joinOrAdd key data => exact (sound.joinOrAdd key data).1
  | releaseIf test signal key => exact sound.releaseIf test signal key
  | releaseAll test signal => exact sound.releaseAll test signal

theorem Moves.made_le : before.made ≤ after.made := by
  have released : ∀ (test : δ → Bool) (signal : σ) (key : κ) (board : Board κ δ σ),
      (board.releaseIf test signal key).made = board.made := by
    intro test signal key board
    unfold Board.releaseIf
    split
    · rfl
    · split
      · exact (finishAll_entries ..).2
      · rfl
  cases moves with
  | refl | revise key change | reviseOrAdd key data change | replace key data => exact le_rfl
  | join key =>
    unfold Board.join
    split
    · exact le_rfl
    · exact Nat.le_succ _
  | joinOrAdd key data => exact Nat.le_succ _
  | releaseIf test signal key => exact (released test signal key before).ge
  | releaseAll test signal =>
    unfold Board.releaseAll
    generalize before.entries.rows.map Prod.fst = keys
    induction keys generalizing before with
    | nil => exact le_rfl
    | cons key keys ih =>
      rw [← released test signal key before]
      exact ih

end

theorem Sound.drain (sound : board.Sound) (channel : Nat) : (board.drain channel).Sound := by
  have closed : ∀ other, ((board.drain channel).channels other).closed =
      (board.channels other).closed := by
    intro other
    by_cases same : other = channel
    · subst same
      simp [Board.drain, Channel.drained]
    · simp [Board.drain, same]
  constructor
  · exact sound.noFault
  · intro other later
    rw [closed]
    exact sound.fresh other later
  · intro key other waits
    rw [closed]
    exact sound.isOpen key other waits
  · exact sound.once
  · exact sound.apart

end Board

end Debswarm.Sync

namespace Debswarm.Sync.Board

open List Option Table

universe u v w

variable {κ : Type u} {δ : Type v} {σ : Type w} [DecidableEq κ]

/-- Every entry with an old waiter was there before, with related data. -/
def Inherits (related : κ → δ → δ → Prop) (before after : Board κ δ σ) : Prop :=
  ∀ key entry, after.entries.find? key = some entry → ∀ channel ∈ entry.waiters,
    channel < before.made → ∃ old, before.entries.find? key = some old ∧
      channel ∈ old.waiters ∧ related key old.data entry.data

variable {related : κ → δ → δ → Prop} {board after : Board κ δ σ} {key : κ}

/-- The entries are those before, or fewer. -/
theorem inherits_of_find? (same : ∀ key data, related key data data)
    (fewer : ∀ key entry, after.entries.find? key = some entry →
      board.entries.find? key = some entry) : Inherits related board after :=
  fun key entry found _ waits _ => ⟨entry, fewer key entry found, waits, same key _⟩

/-- One entry changes, or is added. -/
theorem inherits_of_own (same : ∀ other data, related other data data)
    (others : ∀ other, other ≠ key → after.entries.find? other = board.entries.find? other)
    (own : ∀ entry, after.entries.find? key = some entry → ∀ channel ∈ entry.waiters,
      channel < board.made → ∃ old, board.entries.find? key = some old ∧
        channel ∈ old.waiters ∧ related key old.data entry.data) :
    Inherits related board after := by
  intro other entry found channel waits isOld
  by_cases isKey : other = key
  · subst isKey
    exact own entry found channel waits isOld
  · rw [others other isKey] at found
    exact ⟨entry, found, waits, same other _⟩

omit [DecidableEq κ] in
theorem mem_of_mem_append_made {channel : Nat} {waiters : List Nat}
    (waits : channel ∈ waiters ++ [board.made]) (isOld : channel < board.made) :
    channel ∈ waiters :=
  (mem_append.mp waits).resolve_right fun isNew =>
    Nat.ne_of_lt isOld (mem_singleton.mp isNew)

/-- An operation leaves the data of entries with old waiters alone, or revises it. -/
theorem Moves.inherits {claimed : κ → Prop} {revised : κ → δ → δ → Prop}
    (moves : Moves claimed revised board after) :
    Inherits (fun key old new => new = old ∨ revised key old new) board after := by
  have same (key : κ) (data : δ) : data = data ∨ revised key data data := .inl rfl
  cases moves with
  | refl => exact inherits_of_find? same fun _ _ found => found
  | revise key change _ isRevised =>
    refine inherits_of_own same (fun other different => find?_update_ne _ different _)
      fun entry found channel waits _ => ?_
    simp only [Board.revise, find?_update_self, map_eq_some_iff] at found
    obtain ⟨old, wasThere, rfl⟩ := found
    exact ⟨old, wasThere, waits, .inr (isRevised old.data)⟩
  | reviseOrAdd key data change _ isRevised =>
    refine inherits_of_own same
      (fun other different => find?_insertOrUpdate_ne _ different _ _)
      fun entry found channel waits _ => ?_
    simp only [Board.reviseOrAdd, find?_insertOrUpdate_self, some.injEq] at found
    subst found
    cases wasThere : board.entries.find? key with
    | none => simp [wasThere] at waits
    | some old =>
      simp only [wasThere, elim_some] at waits ⊢
      exact ⟨old, rfl, waits, .inr (isRevised old.data)⟩
  | replace key data =>
    refine inherits_of_own same (fun other (different : other ≠ key) => ?_)
      fun entry found channel waits _ => ?_
    · rw [Board.replace, find?_set, if_neg different]
    · rw [Board.replace, find?_set, if_pos rfl] at found
      cases found
      cases waits
  | join key =>
    unfold Board.join
    split
    · exact inherits_of_find? same fun _ _ found => found
    · refine inherits_of_own same (fun other different => find?_update_ne _ different _)
        fun entry found channel waits isOld => ?_
      simp only [find?_update_self, map_eq_some_iff] at found
      obtain ⟨old, wasThere, rfl⟩ := found
      exact ⟨old, wasThere, mem_of_mem_append_made waits isOld, .inl rfl⟩
  | joinOrAdd key data =>
    refine inherits_of_own same
      (fun other different => find?_insertOrUpdate_ne _ different _ _)
      fun entry found channel waits isOld => ?_
    simp only [Board.joinOrAdd, find?_insertOrUpdate_self, some.injEq] at found
    subst found
    cases wasThere : board.entries.find? key with
    | none =>
      rw [wasThere] at waits
      exact absurd (@mem_of_mem_append_made _ _ _ board _ [] waits isOld) not_mem_nil
    | some old =>
      simp only [wasThere, elim_some] at waits ⊢
      exact ⟨old, rfl, mem_of_mem_append_made waits isOld, .inl rfl⟩
  | releaseIf test signal key =>
    refine inherits_of_find? same fun other entry found => ?_
    rw [find?_releaseIf] at found
    split at found
    · rename_i isKey
      rw [isKey]
      exact (filter_eq_some_iff.mp found).1
    · exact found
  | releaseAll test signal =>
    refine inherits_of_find? same fun other entry found => ?_
    rw [Board.releaseAll, find?_releaseKeys] at found
    split at found
    · exact (filter_eq_some_iff.mp found).1
    · exact found

end Debswarm.Sync.Board
