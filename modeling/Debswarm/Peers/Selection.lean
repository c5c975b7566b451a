import Debswarm.Peers.Blacklist

/-!
# Diverse choices

A diverse choice starts with the best ranked peers and goes on with some of the next ones, as
long as twice the number asked for is a machine integer.
-/

namespace Debswarm.Peers

open List Option

universe u v

theorem length_everyNth {α : Type u} {step room : Nat} {list : List α}
    (enough : room * step < list.length + step) : (everyNth step room list).length = room := by
  induction room generalizing list with
  | zero => rfl
  | succ room ih =>
    rw [Nat.succ_mul] at enough
    cases list with
    | nil => simp at enough
    | cons first rest =>
      have left : room * step < ((first :: rest).drop step).length + step := by
        rw [length_drop]
        omega
      simp only [everyNth, length_cons, ih left]

/-- The first `first` elements of a longer list and some later ones are `n` elements of it. -/
theorem explored {α : Type u} (list chosen : List α) {n first : Nat} (within : first ≤ n)
    (more : n < list.length)
    (made : chosen = list.take first ++ if 0 < n - first ∧ first < list.length then
      everyNth (max ((list.drop first).length / (n - first)) 1) (n - first) (list.drop first)
      else []) :
    chosen.length = n ∧ chosen.Sublist list ∧ list.take first <+: chosen := by
  subst made
  refine ⟨?_, ?_, prefix_append _ _⟩
  · split
    · have steps := Nat.div_mul_le_self (list.length - first) (n - first)
      rw [length_append, length_take, length_everyNth, min_eq_left (by omega)]
      · omega
      · rw [length_drop, mul_comm]
        rcases max_cases ((list.length - first) / (n - first)) 1 with ⟨larger, _⟩ | ⟨larger, _⟩
        · rw [larger]
          omega
        · rw [larger]
          omega
    · rw [append_nil, length_take]
      omega
  · conv_rhs => rw [← take_append_drop first list]
    apply Sublist.append_left
    split
    · exact everyNth_sublist (le_max_right ..) ..
    · exact nil_sublist _

variable {π : Type u} [DecidableEq π] {ν : Type v} (scoring : Scoring ν) (sorter : Sorter π ν)
  (now : Int) (candidates : List (AddrInfo π)) (scorer : Scorer π ν)

/-- The sort puts higher scores first. -/
def Sorter.Descends : Prop :=
  ∀ scored, (sorter.sort scored).Pairwise fun first second => scoring.atLeast first.2 second.2

/-- The candidates that can be chosen. -/
def eligible : List (AddrInfo π) :=
  candidates.filter fun candidate => !isBlacklisted now candidate.id scorer &&
    scoring.atLeast (getScore scoring now candidate.id scorer) scoring.scoreBlacklist

/-- The choice of `n` peers out of the ranked eligible candidates. -/
structure IsDiverse (n : Nat) (ranked chosen : List (AddrInfo π)) : Prop where
  selected : selectDiverse scoring sorter now candidates n scorer = some chosen
  eligible : ranked.Perm (eligible scoring now candidates scorer)
  descending : ranked.Pairwise fun first second => scoring.atLeast
    (getScore scoring now first.id scorer) (getScore scoring now second.id scorer)
  length : chosen.length = min n ranked.length
  ordered : chosen.Sublist (ranked.take (2 * n))
  top : ranked.take (max (n * 7 / 10) 1) <+: chosen

variable {scoring sorter} in
theorem exists_ranked (descends : sorter.Descends scoring) (some : candidates ≠ []) :
    ∃ ranked : List (AddrInfo π), ranked.Perm (eligible scoring now candidates scorer) ∧
      (ranked.Pairwise fun first second => scoring.atLeast
        (getScore scoring now first.id scorer) (getScore scoring now second.id scorer)) ∧
      ∀ n : Nat, selectBest scoring sorter now candidates n scorer = ranked.take n := by
  let rated := fun candidate : AddrInfo π => (candidate, getScore scoring now candidate.id scorer)
  let ranked := sorter.sort ((eligible scoring now candidates scorer).map rated)
  have perm : ranked.Perm _ := sorter.perm _
  refine ⟨ranked.map Prod.fst, ?_, ?_, ?_⟩
  · simpa [rated, Function.comp_def] using perm.map Prod.fst
  · refine pairwise_map.mpr ((descends _).imp_of_mem ?_)
    intro first second firstMem secondMem ordered
    obtain ⟨_, -, rfl⟩ := List.mem_map.mp (perm.mem_iff.mp firstMem)
    obtain ⟨_, -, rfl⟩ := List.mem_map.mp (perm.mem_iff.mp secondMem)
    exact ordered
  · intro n
    have scored := filterMap_filter (l := candidates) (p := fun candidate =>
        !isBlacklisted now candidate.id scorer && scoring.atLeast
          (getScore scoring now candidate.id scorer) scoring.scoreBlacklist)
      (f := Option.some ∘ rated)
    rw [filterMap_eq_map] at scored
    simp only [selectBest, if_neg some, ranked, eligible, scored, Int.toNat_natCast,
      if_neg (Int.natCast_nonneg n).not_gt]
    congr 5
    funext candidate
    cases isBlacklisted now candidate.id scorer <;> rfl

/-- A choice is diverse iff there are no candidates or twice its size is a machine integer. -/
theorem exists_isDiverse_iff (n : Nat) (descends : sorter.Descends scoring) (positive : 1 ≤ n)
    (machine : n < 2 ^ 63) :
    (∃ ranked chosen, IsDiverse scoring sorter now candidates scorer n ranked chosen) ↔
      candidates = [] ∨ n < 2 ^ 62 := by
  by_cases none : candidates = []
  · subst none
    refine iff_of_true ⟨[], [], rfl, .refl _, .nil, ?_, ?_, ?_⟩ (.inl rfl) <;> simp
  · rw [or_iff_right none]
    constructor
    · rintro ⟨ranked, chosen, selected, -⟩
      rw [selectDiverse, if_neg none] at selected
      obtain ⟨best, isBest, -⟩ := map_eq_some_iff.mp selected
      by_contra large
      rw [selectBest, if_neg none, if_pos] at isBest
      · cases isBest
      · rw [Int.bmod_def]
        omega
    · intro small
      have doubled : ((n : Int) * 2).bmod (2 ^ 64) = (2 * n : Nat) := by
        rw [Int.bmod_def]
        omega
      obtain ⟨ranked, perm, descending, isBest⟩ := exists_ranked now candidates scorer descends none
      have selected := selectDiverse.eq_1 scoring sorter now candidates n scorer
      simp only [if_neg none, doubled, isBest, Option.map_some, Int.toNat_natCast] at selected
      split at selected
      next few =>
        rw [length_take] at few
        have all : ranked.take (2 * n) = ranked := take_of_length_le (by omega)
        refine ⟨ranked, ranked, all ▸ selected, perm, descending, by omega, ?_, take_prefix _ _⟩
        rw [all]
      next many =>
        have top : ranked.take (max (n * 7 / 10) 1) =
            (ranked.take (2 * n)).take (max (n * 7 / 10) 1) := by
          rw [take_take, min_eq_left (by omega)]
        have within : max (n * 7 / 10) 1 ≤ n := by omega
        obtain ⟨length, ordered, first⟩ := explored (ranked.take (2 * n)) _ within (by omega) rfl
        rw [length_take] at many
        exact ⟨ranked, _, selected, perm, descending, by omega, ordered, top ▸ first⟩

/-- A sort for scores in percents. -/
def merging : Sorter Nat Int where
  sort := fun scored => scored.mergeSort fun first second => second.2 ≤ first.2
  perm := fun _ => mergeSort_perm _ _

theorem merging_descends : merging.Descends percents := by
  intro scored
  apply pairwise_mergeSort <;> simp only [percents, Bool.or_eq_true, decide_eq_true_eq] <;> omega

theorem exists_isDiverse_of_two : ∃ ranked chosen,
    IsDiverse percents merging 0 [⟨1, []⟩, ⟨2, []⟩] .new 1 ranked chosen :=
  (exists_isDiverse_iff percents merging 0 [⟨1, []⟩, ⟨2, []⟩] .new 1 merging_descends (by decide)
    (by decide)).mpr (.inr (by decide))

theorem not_isDiverse_of_many : ¬ ∃ ranked chosen,
    IsDiverse percents merging 0 [⟨1, []⟩] .new (2 ^ 62) ranked chosen := by
  rintro ⟨ranked, chosen, selected, -⟩
  have panics : selectDiverse percents merging 0 [⟨1, []⟩] (2 ^ 62 : Nat) .new = none := by
    decide +kernel
  cases panics.symm.trans selected

end Debswarm.Peers
