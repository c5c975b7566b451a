import Mathlib.Algebra.Order.BigOperators.Group.List
import Mathlib.Data.List.Nodup
import Mathlib.Data.List.Sort
import Mathlib.Data.Int.Basic
import Mathlib.Tactic.Ring

/-!
# Tables under a primary key

A table is a list of keyed rows in insertion order together with the proof that
no key occurs twice, so a table that breaks its primary key cannot be built.
The operations are the statements a store issues against such a table: a keyed
lookup, a keyed update, a keyed deletion, an insertion that updates on a
conflict, a filtered ordered selection and a column sum.
-/

namespace Debswarm

open List

universe u v

@[simp]
theorem optionFilter_true {α : Type u} (found : Option α) :
    found.filter (fun _ => true) = found := by
  cases found <;> rfl

/-- Rows in insertion order under a primary key. -/
structure Table (κ : Type u) (ρ : Type v) where
  rows : List (κ × ρ)
  keysNodup : (rows.map Prod.fst).Nodup

namespace Table

variable {κ : Type u} {ρ : Type v}

@[ext]
theorem ext {first second : Table κ ρ} (rowsEq : first.rows = second.rows) : first = second := by
  cases first
  cases second
  cases rowsEq
  rfl

/-- The table without rows. -/
def empty : Table κ ρ :=
  ⟨[], nodup_nil⟩

/-- Sum of an integer column. -/
def total (table : Table κ ρ) (column : ρ → Int) : Int :=
  (table.rows.map fun row => column row.2).sum

variable {column : ρ → Int} {table : Table κ ρ} {row : ρ} {key other : κ} {rest : List (κ × Nat)}

theorem total_nonneg (table : Table κ ρ) (columnNonneg : ∀ row, 0 ≤ column row) :
    0 ≤ table.total column := by
  apply sum_nonneg
  intro value mem
  obtain ⟨row, -, rfl⟩ := mem_map.mp mem
  exact columnNonneg row.2

/-- The rows that satisfy a filter, in ascending order, equal ones as they were inserted. -/
def select (table : Table κ ρ) (filter : κ × ρ → Bool) (order : ρ → ρ → Prop)
    [DecidableRel order] : List (κ × ρ) :=
  (table.rows.filter filter).insertionSort fun first second => order first.2 second.2

theorem select_perm (table : Table κ ρ) (filter : κ × ρ → Bool) (order : ρ → ρ → Prop)
    [DecidableRel order] : (table.select filter order).Perm (table.rows.filter filter) :=
  perm_insertionSort _ _

theorem mem_select_iff {filter : κ × ρ → Bool} {order : ρ → ρ → Prop} [DecidableRel order]
    {row : κ × ρ} : row ∈ table.select filter order ↔ row ∈ table.rows ∧ filter row = true := by
  rw [(table.select_perm filter order).mem_iff, mem_filter]

theorem select_keysNodup (table : Table κ ρ) (filter : κ × ρ → Bool) (order : ρ → ρ → Prop)
    [DecidableRel order] : ((table.select filter order).map Prod.fst).Nodup := by
  have permuted := (table.select_perm filter order).map Prod.fst
  rw [permuted.nodup_iff]
  exact (filter_sublist.map Prod.fst).nodup table.keysNodup

variable [DecidableEq κ]

/-- The row stored under a key. -/
def find? (table : Table κ ρ) (key : κ) : Option ρ :=
  (table.rows.find? fun row => row.1 = key).map Prod.snd

@[simp]
theorem find?_empty (key : κ) : (empty : Table κ ρ).find? key = none :=
  rfl

/-- A lookup finds exactly the row that stands in the table. -/
theorem find?_eq_some_iff :
    table.find? key = some row ↔ (key, row) ∈ table.rows := by
  obtain ⟨rows, keysNodup⟩ := table
  simp only [find?]
  induction rows with
  | nil => simp
  | cons first rest ih =>
    obtain ⟨firstKey, firstRow⟩ := first
    simp only [List.map_cons, List.nodup_cons] at keysNodup
    by_cases equal : firstKey = key
    · subst equal
      have absent : (firstKey, row) ∉ rest := fun mem =>
        keysNodup.1 (List.mem_map_of_mem (f := Prod.fst) mem)
      simp [absent, eq_comm]
    · have distinct : (key, row) ≠ (firstKey, firstRow) := fun same =>
        equal (congrArg Prod.fst same).symm
      simp only [List.find?_cons, equal, decide_false, List.mem_cons, distinct, false_or]
      exact ih keysNodup.2

theorem find?_eq_none_iff :
    table.find? key = none ↔ key ∉ table.rows.map Prod.fst := by
  rw [Option.eq_none_iff_forall_not_mem]
  simp only [Option.mem_def, find?_eq_some_iff, List.mem_map, Prod.exists, not_exists, not_and]
  constructor
  · rintro absent _ row mem rfl
    exact absent row mem
  · intro absent row mem
    exact absent key row mem rfl

/-! ## Keyed update -/

private theorem map_fst_update (rows : List (κ × ρ)) (key : κ) (change : ρ → ρ) :
    (rows.map fun row => if row.1 = key then (row.1, change row.2) else row).map Prod.fst =
      rows.map Prod.fst := by
  rw [List.map_map]
  apply List.map_congr_left
  intro row _
  simp only [Function.comp_apply]
  split <;> rfl

/-- Change the row stored under a key. -/
def update (table : Table κ ρ) (key : κ) (change : ρ → ρ) : Table κ ρ where
  rows := table.rows.map fun row => if row.1 = key then (row.1, change row.2) else row
  keysNodup := by
    rw [map_fst_update]
    exact table.keysNodup

theorem keys_update (table : Table κ ρ) (key : κ) (change : ρ → ρ) :
    (table.update key change).rows.map Prod.fst = table.rows.map Prod.fst :=
  map_fst_update table.rows key change

theorem mem_update_iff {change : ρ → ρ} :
    (other, row) ∈ (table.update key change).rows ↔
      if other = key then ∃ old, (key, old) ∈ table.rows ∧ change old = row
      else (other, row) ∈ table.rows := by
  simp only [update, List.mem_map, Prod.exists]
  constructor
  · rintro ⟨key', old, mem, eq⟩
    split at eq
    · rename_i equal
      subst equal
      obtain ⟨rfl, rfl⟩ := Prod.mk.inj eq
      rw [if_pos rfl]
      exact ⟨old, mem, rfl⟩
    · rename_i distinct
      obtain ⟨rfl, rfl⟩ := Prod.mk.inj eq
      rwa [if_neg distinct]
  · split
    · rename_i equal
      subst equal
      rintro ⟨old, mem, rfl⟩
      exact ⟨other, old, mem, by simp⟩
    · rename_i distinct
      intro mem
      exact ⟨other, row, mem, by simp [distinct]⟩

theorem find?_update (table : Table κ ρ) (key other : κ) (change : ρ → ρ) :
    (table.update key change).find? other =
      if other = key then (table.find? key).map change else table.find? other := by
  apply Option.ext
  intro row
  rw [find?_eq_some_iff, mem_update_iff]
  split
  · simp only [Option.map_eq_some_iff, find?_eq_some_iff]
  · rw [find?_eq_some_iff]

@[simp]
theorem find?_update_self (table : Table κ ρ) (key : κ) (change : ρ → ρ) :
    (table.update key change).find? key = (table.find? key).map change := by
  simp [find?_update]

theorem find?_update_ne (table : Table κ ρ) (distinct : other ≠ key) (change : ρ → ρ) :
    (table.update key change).find? other = table.find? other := by
  simp [find?_update, distinct]

theorem total_update_of_column_eq (table : Table κ ρ) (key : κ) {change : ρ → ρ}
    (columnEq : ∀ row, column (change row) = column row) :
    (table.update key change).total column = table.total column := by
  simp only [total, update, List.map_map]
  congr 1
  apply List.map_congr_left
  intro row _
  simp only [Function.comp_apply]
  split <;> simp [columnEq]

/-! ## Keyed deletion -/

/-- Drop the row stored under a key. -/
def delete (table : Table κ ρ) (key : κ) : Table κ ρ where
  rows := table.rows.filter fun row => row.1 ≠ key
  keysNodup := (filter_sublist.map Prod.fst).nodup table.keysNodup

theorem mem_delete_iff :
    (other, row) ∈ (table.delete key).rows ↔ other ≠ key ∧ (other, row) ∈ table.rows := by
  simp [delete, and_comm]

theorem find?_delete (table : Table κ ρ) (key other : κ) :
    (table.delete key).find? other = if other = key then none else table.find? other := by
  apply Option.ext
  intro row
  rw [find?_eq_some_iff, mem_delete_iff]
  by_cases equal : other = key <;> simp [equal, find?_eq_some_iff]

@[simp]
theorem find?_delete_self (table : Table κ ρ) (key : κ) : (table.delete key).find? key = none := by
  simp [find?_delete]

@[simp]
theorem find?_delete_ne (table : Table κ ρ) (distinct : other ≠ key) :
    (table.delete key).find? other = table.find? other := by
  simp [find?_delete, distinct]

/-- Change or drop every row. -/
def filterMap (table : Table κ ρ) (change : ρ → Option ρ) : Table κ ρ where
  rows := table.rows.filterMap fun row => (change row.2).map fun changed => (row.1, changed)
  keysNodup := by
    have keys : ((table.rows.filterMap fun row =>
        (change row.2).map fun changed => (row.1, changed)).map Prod.fst).Sublist
          (table.rows.map Prod.fst) := by
      induction table.rows with
      | nil => exact .slnil
      | cons row rest ih =>
        rw [filterMap_cons]
        cases change row.2 with
        | none => exact ih.cons row.1
        | some changed => exact ih.cons_cons row.1
    exact keys.nodup table.keysNodup

theorem find?_filterMap (table : Table κ ρ) (change : ρ → Option ρ) (key : κ) :
    (table.filterMap change).find? key = (table.find? key).bind change := by
  apply Option.ext
  intro row
  rw [find?_eq_some_iff, Option.bind_eq_some_iff]
  simp only [filterMap, List.mem_filterMap, Option.map_eq_some_iff, find?_eq_some_iff]
  constructor
  · rintro ⟨⟨other, old⟩, mem, changed, isChanged, same⟩
    cases same
    exact ⟨old, mem, isChanged⟩
  · rintro ⟨old, mem, isChanged⟩
    exact ⟨(key, old), mem, row, isChanged, rfl⟩

/-- Drop the row stored under a key if it passes a test. -/
def deleteIf (table : Table κ ρ) (key : κ) (test : ρ → Bool) : Table κ ρ :=
  match table.find? key with
  | some row => if test row then table.delete key else table
  | none => table

theorem find?_deleteIf (table : Table κ ρ) (key other : κ) (test : ρ → Bool) :
    (table.deleteIf key test).find? other =
      (table.find? other).filter fun row => !(decide (other = key) && test row) := by
  by_cases same : other = key
  · subst same
    cases found : table.find? other with
    | none => simp [deleteIf, found]
    | some row =>
      by_cases passes : test row = true <;> simp [deleteIf, found, passes, Option.filter]
  · simp only [same, decide_false, Bool.false_and, Bool.not_false, optionFilter_true]
    unfold deleteIf
    split
    · split
      · exact find?_delete_ne table same
      · rfl
    · rfl

/-! ## Listed rows -/

/-- A list of distinct keys, each with the value that a column has at its row. -/
def Lists (table : Table κ ρ) (column : ρ → Nat) (listed : List (κ × Nat)) : Prop :=
  (listed.map Prod.fst).Nodup ∧
    ∀ entry ∈ listed, ∃ row, table.find? entry.1 = some row ∧ column row = entry.2

theorem lists_select (table : Table κ ρ) (column : ρ → Nat) (filter : κ × ρ → Bool)
    (order : ρ → ρ → Prop) [DecidableRel order] :
    table.Lists column
      ((table.select filter order).map fun row => (row.1, column row.2)) := by
  constructor
  · have keys := table.select_keysNodup filter order
    simpa [Function.comp_def] using keys
  · intro entry mem
    obtain ⟨⟨key, row⟩, selected, rfl⟩ := mem_map.mp mem
    have stored := (mem_select_iff.mp selected).1
    exact ⟨row, find?_eq_some_iff.mpr stored, rfl⟩

theorem Lists.head {column : ρ → Nat} {value : Nat}
    (lists : table.Lists column ((key, value) :: rest)) :
    ∃ row, table.find? key = some row ∧ column row = value :=
  lists.2 (key, value) mem_cons_self

theorem Lists.tail {column : ρ → Nat} {entry : κ × Nat}
    (lists : table.Lists column (entry :: rest)) : table.Lists column rest := by
  obtain ⟨nodup, stored⟩ := lists
  rw [map_cons, nodup_cons] at nodup
  exact ⟨nodup.2, fun other mem => stored other (mem_cons_of_mem entry mem)⟩

/-- Deleting the first listed key leaves the others listed. -/
theorem Lists.tail_delete {column : ρ → Nat} {value : Nat}
    (lists : table.Lists column ((key, value) :: rest)) : (table.delete key).Lists column rest := by
  obtain ⟨nodup, stored⟩ := lists.tail
  refine ⟨nodup, fun other mem => ?_⟩
  obtain ⟨row, found, valueEq⟩ := stored other mem
  have distinct : other.1 ≠ key := by
    intro same
    have fresh : key ∉ rest.map Prod.fst := (nodup_cons.mp lists.1).1
    rw [← same] at fresh
    exact fresh (mem_map_of_mem mem)
  exact ⟨row, (find?_delete_ne table distinct).trans found, valueEq⟩

/-! ## Column sums -/

/-- The column value of the row under a key, zero when there is none. -/
def columnAt (table : Table κ ρ) (key : κ) (column : ρ → Int) : Int :=
  (table.find? key).elim 0 column

theorem columnAt_of_find? (found : table.find? key = some row) :
    table.columnAt key column = column row := by
  simp [columnAt, found]

/-- Splitting a column sum at one key. -/
theorem total_delete_add_columnAt (table : Table κ ρ) (key : κ) (column : ρ → Int) :
    (table.delete key).total column + table.columnAt key column = table.total column := by
  obtain ⟨rows, keysNodup⟩ := table
  simp only [total, delete, columnAt, find?]
  induction rows with
  | nil => simp
  | cons first rest ih =>
    obtain ⟨firstKey, firstRow⟩ := first
    simp only [List.map_cons, List.nodup_cons] at keysNodup
    have restSplit := ih keysNodup.2
    by_cases equal : firstKey = key
    · subst equal
      have keptAll : rest.filter (fun row => decide (row.1 ≠ firstKey)) = rest := by
        apply List.filter_eq_self.mpr
        intro row mem
        simp only [ne_eq, decide_not, Bool.not_eq_eq_eq_not, Bool.not_true, decide_eq_false_iff_not]
        intro same
        exact keysNodup.1 (same ▸ List.mem_map_of_mem (f := Prod.fst) mem)
      simp only [ne_eq, not_true_eq_false, decide_false, List.filter_cons, Bool.false_eq_true,
        if_false, List.find?_cons, decide_true, Option.map_some, Option.elim_some,
        List.map_cons, List.sum_cons]
      simp only [ne_eq] at keptAll
      rw [keptAll]
      ring
    · simp only [ne_eq, equal, not_false_eq_true, decide_true, List.filter_cons, if_true,
        List.map_cons, List.sum_cons, List.find?_cons, decide_false]
      simp only [ne_eq] at restSplit
      rw [← restSplit]
      ring

theorem columnAt_nonneg (table : Table κ ρ) (key : κ) (columnNonneg : ∀ row, 0 ≤ column row) :
    0 ≤ table.columnAt key column := by
  rw [columnAt]
  cases table.find? key with
  | none => exact le_rfl
  | some row => exact columnNonneg row

theorem columnAt_le_total (table : Table κ ρ) (key : κ) (columnNonneg : ∀ row, 0 ≤ column row) :
    table.columnAt key column ≤ table.total column := by
  have rest := (table.delete key).total_nonneg columnNonneg
  rw [← total_delete_add_columnAt table key column]
  exact le_add_of_nonneg_left rest

theorem total_delete (table : Table κ ρ) (key : κ) (column : ρ → Int) :
    (table.delete key).total column = table.total column - table.columnAt key column := by
  rw [← total_delete_add_columnAt table key column]
  ring

/-! ## Insertion that updates on a conflict -/

/-- Insert a row, or change the one already stored under the key. -/
def insertOrUpdate (table : Table κ ρ) (key : κ) (fresh : ρ) (change : ρ → ρ) :
    Table κ ρ :=
  if absent : key ∈ table.rows.map Prod.fst then
    table.update key change
  else
    { rows := table.rows ++ [(key, fresh)]
      keysNodup := by
        rw [map_append, nodup_append]
        refine ⟨table.keysNodup, by simp, ?_⟩
        intro stored storedMem added addedMem
        simp only [map_cons, map_nil, mem_singleton] at addedMem
        rintro rfl
        exact absent (addedMem ▸ storedMem) }

theorem insertOrUpdate_of_find? (fresh : ρ) (change : ρ → ρ) (found : table.find? key = some row) :
    table.insertOrUpdate key fresh change = table.update key change := by
  have present : key ∈ table.rows.map Prod.fst :=
    mem_map_of_mem (f := Prod.fst) (find?_eq_some_iff.mp found)
  simp only [insertOrUpdate, present, dite_true]

theorem insertOrUpdate_rows_of_absent (fresh : ρ) (change : ρ → ρ)
    (absent : table.find? key = none) :
    (table.insertOrUpdate key fresh change).rows = table.rows ++ [(key, fresh)] := by
  have missing := find?_eq_none_iff.mp absent
  simp only [insertOrUpdate, missing, dite_false]

theorem find?_insertOrUpdate (table : Table κ ρ) (key other : κ) (fresh : ρ) (change : ρ → ρ) :
    (table.insertOrUpdate key fresh change).find? other =
      if other = key then some ((table.find? key).elim fresh change)
      else table.find? other := by
  cases found : table.find? key with
  | some row =>
    rw [insertOrUpdate_of_find? fresh change found, find?_update]
    simp [found]
  | none =>
    apply Option.ext
    intro row
    rw [find?_eq_some_iff, insertOrUpdate_rows_of_absent fresh change found,
      List.mem_append, ← find?_eq_some_iff]
    by_cases equal : other = key
    · subst equal
      simp [found, eq_comm]
    · simp [equal]

@[simp]
theorem find?_insertOrUpdate_self (table : Table κ ρ) (key : κ) (fresh : ρ) (change : ρ → ρ) :
    (table.insertOrUpdate key fresh change).find? key =
      some ((table.find? key).elim fresh change) := by
  simp [find?_insertOrUpdate]

theorem find?_insertOrUpdate_ne (table : Table κ ρ) (distinct : other ≠ key) (fresh : ρ)
    (change : ρ → ρ) : (table.insertOrUpdate key fresh change).find? other = table.find? other := by
  simp [find?_insertOrUpdate, distinct]

/-! ## Assignment -/

/-- Store a value under a key, whatever was there. -/
def set (table : Table κ ρ) (key : κ) (value : ρ) : Table κ ρ :=
  table.insertOrUpdate key value fun _ => value

theorem find?_set (table : Table κ ρ) (key other : κ) (value : ρ) :
    (table.set key value).find? other = if other = key then some value else table.find? other := by
  rw [set, find?_insertOrUpdate]
  cases table.find? key <;> rfl

theorem eq_empty_of_rows_eq_nil (noRows : table.rows = []) (key : κ) : table.find? key = none := by
  rw [find?, noRows]
  rfl

/-! ## Column sums after a write

A write at one key leaves the rest of the table alone, so a column sum moves by
exactly what happens to the column at that key.
-/

@[simp]
theorem delete_update (table : Table κ ρ) (key : κ) (change : ρ → ρ) :
    (table.update key change).delete key = table.delete key := by
  apply Table.ext
  simp only [delete, update]
  induction table.rows with
  | nil => rfl
  | cons first rest ih =>
    by_cases equal : first.1 = key <;> simpa [equal] using ih

@[simp]
theorem delete_insertOrUpdate (table : Table κ ρ) (key : κ) (fresh : ρ) (change : ρ → ρ) :
    (table.insertOrUpdate key fresh change).delete key = table.delete key := by
  cases found : table.find? key with
  | some row => rw [insertOrUpdate_of_find? fresh change found, delete_update]
  | none =>
    apply Table.ext
    simp only [delete, insertOrUpdate_rows_of_absent fresh change found, filter_append]
    simp

theorem total_insertOrUpdate (table : Table κ ρ) (key : κ) (fresh : ρ) (change : ρ → ρ)
    (column : ρ → Int) :
    (table.insertOrUpdate key fresh change).total column =
      table.total column - table.columnAt key column +
        column ((table.find? key).elim fresh change) := by
  have after := total_delete_add_columnAt (table.insertOrUpdate key fresh change) key column
  rw [delete_insertOrUpdate, total_delete,
    columnAt_of_find? (table.find?_insertOrUpdate_self key fresh change)] at after
  exact after.symm

end Table

end Debswarm
