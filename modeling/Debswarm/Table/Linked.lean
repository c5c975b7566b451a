import Debswarm.Table.Core

/-!
# Two tables under a foreign key

Parents are stored under a key, children under the key of their parent and one of their own.  A
database that enforces the foreign key inserts a child only where its parent is, and deletes the
children of the parents it deletes.  A database that does not enforce it leaves the children
alone, and they can outlive their parents.
-/

namespace Debswarm

universe u v w x

namespace Table

variable {κ : Type u} {ρ : Type v}

/-! ## Statements about many rows -/

/-- Keep the rows that pass a test. -/
def filter (table : Table κ ρ) (test : κ → ρ → Bool) : Table κ ρ where
  rows := table.rows.filter fun row => test row.1 row.2
  keysNodup := (List.filter_sublist.map Prod.fst).nodup table.keysNodup

/-- Change every row. -/
def mapRows (table : Table κ ρ) (change : κ → ρ → ρ) : Table κ ρ where
  rows := table.rows.map fun row => (row.1, change row.1 row.2)
  keysNodup := by
    rw [List.map_map]
    exact table.keysNodup

variable [DecidableEq κ]

theorem find?_filter (table : Table κ ρ) (test : κ → ρ → Bool) (key : κ) :
    (table.filter test).find? key = (table.find? key).filter (test key) := by
  apply Option.ext
  intro row
  rw [find?_eq_some_iff, Option.filter_eq_some_iff, find?_eq_some_iff]
  exact List.mem_filter

theorem find?_mapRows (table : Table κ ρ) (change : κ → ρ → ρ) (key : κ) :
    (table.mapRows change).find? key = (table.find? key).map (change key) := by
  apply Option.ext
  intro row
  rw [find?_eq_some_iff, Option.map_eq_some_iff]
  simp only [mapRows, List.mem_map, find?_eq_some_iff]
  constructor
  · rintro ⟨⟨other, old⟩, mem, same⟩
    cases same
    exact ⟨old, mem, rfl⟩
  · rintro ⟨old, mem, rfl⟩
    exact ⟨(key, old), mem, rfl⟩

/-- Insert a row under a key that is not taken. -/
def insert? (table : Table κ ρ) (key : κ) (row : ρ) : Option (Table κ ρ) :=
  if (table.find? key).isSome then none else some (table.set key row)

variable {key : κ}

theorem insert?_of_absent {table : Table κ ρ} (absent : table.find? key = none) (row : ρ) :
    table.insert? key row = some (table.set key row) := by
  simp [insert?, absent]

theorem insert?_eq_some {table after : Table κ ρ} {row : ρ}
    (inserted : table.insert? key row = some after) :
    table.find? key = none ∧ after = table.set key row := by
  unfold insert? at inserted
  split at inserted
  · cases inserted
  · rename_i absent
    exact ⟨by simpa using absent, (Option.some.inj inserted).symm⟩

end Table

/-- Parents and children, and whether the foreign key between them is enforced. -/
structure LinkedTables (κ : Type u) (ι : Type v) (ρ : Type w) (τ : Type x) where
  enforced : Bool
  parents : Table κ ρ
  children : Table (κ × ι) τ

namespace LinkedTables

variable {κ : Type u} {ι : Type v} {ρ : Type w} {τ : Type x}

/-! ## Statements -/

/-- Both tables without rows. -/
def empty (enforced : Bool) : LinkedTables κ ι ρ τ :=
  ⟨enforced, .empty, .empty⟩

def updateParents (change : κ → ρ → ρ) (tables : LinkedTables κ ι ρ τ) :
    LinkedTables κ ι ρ τ :=
  { tables with parents := tables.parents.mapRows change }

def updateChildren (change : κ × ι → τ → τ) (tables : LinkedTables κ ι ρ τ) :
    LinkedTables κ ι ρ τ :=
  { tables with children := tables.children.mapRows change }

variable [DecidableEq κ]

def deleteChildren (key : κ) (tables : LinkedTables κ ι ρ τ) : LinkedTables κ ι ρ τ :=
  { tables with children := tables.children.filter fun child _ => child.1 ≠ key }

/-- Delete the parents that pass a test, and their children where the foreign key is enforced. -/
def deleteParents (test : κ → ρ → Bool) (tables : LinkedTables κ ι ρ τ) :
    LinkedTables κ ι ρ τ :=
  { tables with
    parents := tables.parents.filter fun key row => !test key row
    children :=
      if tables.enforced then
        tables.children.filter fun child _ => !(tables.parents.find? child.1).any (test child.1)
      else tables.children }

def insertParent (key : κ) (row : ρ) (tables : LinkedTables κ ι ρ τ) :
    Option (LinkedTables κ ι ρ τ) :=
  (tables.parents.insert? key row).map fun parents => { tables with parents }

variable [DecidableEq ι]

/-- Insert a child under a free key, whose parent must be there if that is enforced. -/
def insertChild (key : κ) (index : ι) (row : τ) (tables : LinkedTables κ ι ρ τ) :
    Option (LinkedTables κ ι ρ τ) :=
  if tables.enforced && (tables.parents.find? key).isNone then none
  else (tables.children.insert? (key, index) row).map fun children => { tables with children }

/-- Insert children of one parent, one after the other. -/
def insertChildren (key : κ) (rows : List (ι × τ)) (tables : LinkedTables κ ι ρ τ) :
    Option (LinkedTables κ ι ρ τ) :=
  rows.foldlM (fun tables row => tables.insertChild key row.1 row.2) tables

/-! ## Integrity -/

/-- Every child has a parent. -/
def Integral (tables : LinkedTables κ ι ρ τ) : Prop :=
  ∀ key index, (tables.children.find? (key, index)).isSome = true →
    (tables.parents.find? key).isSome = true

theorem integral_empty (enforced : Bool) : (empty enforced : LinkedTables κ ι ρ τ).Integral := by
  intro key index isChild
  cases isChild

variable {tables : LinkedTables κ ι ρ τ} {key : κ} {rows : List (ι × τ)}

section

variable (integral : tables.Integral)

include integral

theorem Integral.absent (noParent : tables.parents.find? key = none)
    (index : ι) : tables.children.find? (key, index) = none := by
  cases isChild : tables.children.find? (key, index) with
  | none => rfl
  | some row =>
    have isParent := integral key index (by rw [isChild]; rfl)
    rw [noParent] at isParent
    cases isParent

theorem Integral.updateParents (change : κ → ρ → ρ) :
    (tables.updateParents change).Integral := by
  intro key index isChild
  simp only [LinkedTables.updateParents, Table.find?_mapRows, Option.isSome_map]
  exact integral key index isChild

theorem Integral.updateChildren (change : κ × ι → τ → τ) :
    (tables.updateChildren change).Integral := by
  intro key index isChild
  simp only [LinkedTables.updateChildren, Table.find?_mapRows, Option.isSome_map] at isChild
  exact integral key index isChild

theorem Integral.deleteChildren (key : κ) :
    (tables.deleteChildren key).Integral := by
  intro other index isChild
  simp only [LinkedTables.deleteChildren, Table.find?_filter] at isChild
  exact integral other index (Option.isSome_of_isSome_filter _ _ isChild)

/-- Deleting parents keeps the database integral iff the foreign key is enforced or no parent that
is deleted has children. -/
theorem Integral.deleteParents_iff (test : κ → ρ → Bool) :
    (tables.deleteParents test).Integral ↔ tables.enforced = true ∨
      ∀ key index, (tables.children.find? (key, index)).isSome = true →
        (tables.parents.find? key).any (test key) = false := by
  have kept : ∀ key, ((tables.deleteParents test).parents.find? key).isSome = true ↔
      (tables.parents.find? key).isSome = true ∧
        (tables.parents.find? key).any (test key) = false := by
    intro key
    simp only [LinkedTables.deleteParents, Table.find?_filter]
    cases tables.parents.find? key with
    | none => simp
    | some row => cases test key row <;> simp
  unfold Integral
  simp only [kept]
  cases enforced : tables.enforced with
  | true =>
    refine iff_of_true (fun key index isChild => ?_) (.inl rfl)
    simp only [LinkedTables.deleteParents, enforced, if_true, Table.find?_filter] at isChild
    refine ⟨integral key index (Option.isSome_of_isSome_filter _ _ isChild), ?_⟩
    cases deleted : (tables.parents.find? key).any (test key) with
    | false => rfl
    | true =>
      cases found : tables.children.find? (key, index) with
      | none => simp [found] at isChild
      | some row => simp [found, deleted] at isChild
  | false =>
    simp only [LinkedTables.deleteParents, enforced, Bool.false_eq_true, if_false, false_or]
    exact ⟨fun after key index isChild => (after key index isChild).2,
      fun spared key index isChild => ⟨integral key index isChild, spared key index isChild⟩⟩

end

omit [DecidableEq ι] in
theorem insertParent_of_absent (absent : tables.parents.find? key = none) (row : ρ) :
    tables.insertParent key row = some { tables with parents := tables.parents.set key row } := by
  simp [LinkedTables.insertParent, Table.insert?_of_absent absent]

variable {after : LinkedTables κ ι ρ τ}

omit [DecidableEq ι] in
theorem insertParent_eq_some {row : ρ} (inserted : tables.insertParent key row = some after) :
    tables.parents.find? key = none ∧
      after = { tables with parents := tables.parents.set key row } := by
  obtain ⟨parents, insertedRow, rfl⟩ := Option.map_eq_some_iff.mp inserted
  obtain ⟨absent, rfl⟩ := Table.insert?_eq_some insertedRow
  exact ⟨absent, rfl⟩

theorem Integral.setParent (integral : tables.Integral) (key : κ) (row : ρ) :
    Integral { tables with parents := tables.parents.set key row } := by
  intro other index isChild
  simp only [Table.find?_set]
  split
  · rfl
  · exact integral other index isChild

/-! ## Children of one parent -/

theorem insertChild_of_absent {index : ι} (isParent : (tables.parents.find? key).isSome = true)
    (absent : tables.children.find? (key, index) = none) (row : τ) :
    tables.insertChild key index row =
      some { tables with children := tables.children.set (key, index) row } := by
  have parentFound : (tables.parents.find? key).isNone = false := by
    rw [Option.isNone_eq_false_iff]
    exact isParent
  simp [insertChild, parentFound, Table.insert?_of_absent absent]

/-- Children with different keys that are not taken can be inserted. -/
theorem insertChildren_of_absent (isParent : (tables.parents.find? key).isSome = true)
    (distinct : (rows.map Prod.fst).Nodup)
    (absent : ∀ index ∈ rows.map Prod.fst, tables.children.find? (key, index) = none) :
    ∃ after, tables.insertChildren key rows = some after := by
  induction rows generalizing tables with
  | nil => exact ⟨tables, rfl⟩
  | cons row rows ih =>
    rw [List.map_cons, List.nodup_cons] at distinct
    have restAbsent : ∀ index ∈ rows.map Prod.fst,
        (tables.children.set (key, row.1) row.2).find? (key, index) = none := by
      intro index mem
      have different : (key, index) ≠ (key, row.1) := by
        rintro same
        cases same
        exact distinct.1 mem
      rw [Table.find?_set, if_neg different]
      exact absent index (List.mem_cons_of_mem _ mem)
    obtain ⟨after, inserted⟩ :=
      @ih { tables with children := tables.children.set (key, row.1) row.2 } isParent distinct.2
        restAbsent
    refine ⟨after, ?_⟩
    rw [insertChildren, List.foldlM_cons,
      insertChild_of_absent isParent (absent row.1 List.mem_cons_self)]
    exact inserted

theorem insertChild_eq_some {index : ι} {row : τ}
    (inserted : tables.insertChild key index row = some after) :
    tables.children.find? (key, index) = none ∧
      after = { tables with children := tables.children.set (key, index) row } := by
  unfold insertChild at inserted
  split at inserted
  · cases inserted
  · obtain ⟨children, insertedRow, rfl⟩ := Option.map_eq_some_iff.mp inserted
    obtain ⟨absent, rfl⟩ := Table.insert?_eq_some insertedRow
    exact ⟨absent, rfl⟩

/-- Children that are inserted come after the rows that are there, and nothing else changes. -/
theorem insertChildren_eq_some (inserted : tables.insertChildren key rows = some after) :
    ∃ children, after = { tables with children } ∧
      children.rows = tables.children.rows ++ rows.map fun row => ((key, row.1), row.2) := by
  induction rows generalizing tables with
  | nil =>
    cases inserted
    exact ⟨_, rfl, (List.append_nil _).symm⟩
  | cons row rows ih =>
    rw [LinkedTables.insertChildren, List.foldlM_cons] at inserted
    obtain ⟨first, insertedFirst, insertedRest⟩ := Option.bind_eq_some_iff.mp inserted
    obtain ⟨absent, rfl⟩ := insertChild_eq_some insertedFirst
    obtain ⟨children, rfl, rowsEq⟩ := ih insertedRest
    refine ⟨children, rfl, ?_⟩
    rw [rowsEq, Table.set, Table.insertOrUpdate_rows_of_absent _ _ absent, List.append_assoc]
    rfl

/-- Children of a parent that is there keep the database integral. -/
theorem Integral.insertChildren (integral : tables.Integral)
    (isParent : (tables.parents.find? key).isSome = true)
    (inserted : tables.insertChildren key rows = some after) : after.Integral := by
  obtain ⟨children, rfl, rowsEq⟩ := insertChildren_eq_some inserted
  intro other index isChild
  obtain ⟨row, found⟩ := Option.isSome_iff_exists.mp isChild
  have mem := Table.find?_eq_some_iff.mp found
  rw [rowsEq, List.mem_append] at mem
  rcases mem with old | new
  · apply integral other index
    rw [Table.find?_eq_some_iff.mpr old]
    rfl
  · obtain ⟨added, -, same⟩ := List.mem_map.mp new
    cases same
    exact isParent

end LinkedTables

end Debswarm
