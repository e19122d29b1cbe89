import SchemaDiagram.Schema.Basic

/-! # Keys — what a table's keys say about its relationships

      * `Table.isIdentifying`    — the parent is part of the row's identity
      * `Table.isUniqueByKey`    — a parent row has at most one row here
      * `Table.isAssociative`    — the table only links two others
      * `tableNames`             — the names of some tables
      * `associativeTables`      — those of the linking tables among them

    Each test comes with the condition that it decides (`isIdentifying_iff`,
    `isUniqueByKey_iff`, `isAssociative_iff`). -/

namespace SchemaDiagram

namespace Table

/-- Whether the columns of `key` all belong to the primary key: without its
    parent the row has no identity.  A key without columns identifies
    nothing. -/
def isIdentifying (t : Table) (key : ForeignKey) : Bool :=
  !key.columns.isEmpty && key.columns.all t.isPrimary

/-- Whether the columns of `key` are the whole primary key, so that each
    parent row has at most one row in this table: as many columns as it has,
    each counted once, and all of them in it. -/
def isUniqueByKey (t : Table) (key : ForeignKey) : Bool :=
  !key.columns.isEmpty && key.columnSet.size == t.primaryKeys.size
    && key.columnSet.subset t.primaryKeys

/-- Whether `t` only links two different tables among `known`: it has exactly
    two foreign keys, and its primary key is made of two or more of their
    columns. -/
def isAssociative (known : List Text) (t : Table) : Bool :=
  match t.foreignKeys with
  | [first, second] =>
    2 ≤ t.primaryKeys.size && t.primaryKeys.subset t.foreignKeyColumns
      && first.refTable != second.refTable
      && known.contains first.refTable && known.contains second.refTable
  | _ => false

end Table

/-- The names of `tables`, in order. -/
def tableNames (tables : List Table) : List Text := tables.map (·.name)

/-- The names of the tables that only link two others of `tables`. -/
def associativeTables (tables : List Table) : NameSet :=
  NameSet.ofList (tableNames (tables.filter (Table.isAssociative (tableNames tables))))

/-! ### Laws -/

namespace Table

variable {t : Table} {key : ForeignKey}

theorem isIdentifying_iff :
    t.isIdentifying key = true ↔
      key.columns ≠ [] ∧ ∀ column ∈ key.columns, column ∈ t.primaryKeys := by
  simp [isIdentifying]

/-- **Counting is enough**: the key is unique when its columns are those of a
    primary key that is there. -/
theorem isUniqueByKey_iff :
    t.isUniqueByKey key = true ↔
      (∀ column, column ∈ key.columns ↔ column ∈ t.primaryKeys) ∧
        ∃ column, column ∈ t.primaryKeys := by
  simp only [isUniqueByKey, ForeignKey.columnSet, Bool.and_eq_true, Bool.not_eq_true',
    List.isEmpty_eq_false_iff, beq_iff_eq, NameSet.subset_iff]
  constructor
  · rintro ⟨⟨hne, hsize⟩, hsub⟩
    have heq : NameSet.ofList key.columns = t.primaryKeys :=
      NameSet.eq_of_subset_of_size_le hsub (Nat.le_of_eq hsize.symm)
    have hmem : ∀ column, column ∈ key.columns ↔ column ∈ t.primaryKeys := fun column => by
      rw [← heq, NameSet.mem_ofList]
    obtain ⟨column, hcolumn⟩ := List.exists_mem_of_ne_nil _ hne
    exact ⟨hmem, column, (hmem column).1 hcolumn⟩
  · rintro ⟨hmem, column, hcolumn⟩
    have heq : NameSet.ofList key.columns = t.primaryKeys := NameSet.ext fun x => by
      rw [NameSet.mem_ofList, hmem]
    exact ⟨⟨List.ne_nil_of_mem ((hmem column).2 hcolumn), congrArg NameSet.size heq⟩,
      fun x hx => heq ▸ hx⟩

/-- A key that is the whole primary key is part of it. -/
theorem isIdentifying_of_isUniqueByKey (h : t.isUniqueByKey key = true) :
    t.isIdentifying key = true := by
  obtain ⟨hmem, column, hcolumn⟩ := isUniqueByKey_iff.1 h
  exact isIdentifying_iff.2
    ⟨List.ne_nil_of_mem ((hmem column).2 hcolumn), fun x hx => (hmem x).1 hx⟩

/-- **What a linking table is.** -/
theorem isAssociative_iff {known : List Text} :
    t.isAssociative known = true ↔
      ∃ first second, t.foreignKeys = [first, second] ∧ 2 ≤ t.primaryKeys.size ∧
        (∀ column ∈ t.primaryKeys, column ∈ t.foreignKeyColumns) ∧
        first.refTable ≠ second.refTable ∧ first.refTable ∈ known ∧ second.refTable ∈ known := by
  unfold isAssociative
  split
  · next first second hkeys =>
    simp only [Bool.and_eq_true, decide_eq_true_eq, NameSet.subset_iff, bne_iff_ne,
      List.contains_iff_mem]
    constructor
    · rintro ⟨⟨⟨⟨hsize, hsub⟩, hne⟩, hfirst⟩, hsecond⟩
      exact ⟨first, second, hkeys, hsize, hsub, hne, hfirst, hsecond⟩
    · rintro ⟨first', second', hkeys', hsize, hsub, hne, hfirst, hsecond⟩
      obtain ⟨rfl, htail⟩ := List.cons.inj (hkeys.symm.trans hkeys')
      obtain ⟨rfl, _⟩ := List.cons.inj htail
      exact ⟨⟨⟨⟨hsize, hsub⟩, hne⟩, hfirst⟩, hsecond⟩
  · next hother =>
    refine iff_of_false Bool.false_ne_true ?_
    rintro ⟨first, second, hkeys, _⟩
    exact hother first second hkeys

end Table

theorem mem_tableNames {tables : List Table} {name : Text} :
    name ∈ tableNames tables ↔ ∃ t ∈ tables, t.name = name := List.mem_map

theorem mem_associativeTables {tables : List Table} {name : Text} :
    name ∈ associativeTables tables ↔
      ∃ t ∈ tables, t.isAssociative (tableNames tables) = true ∧ t.name = name := by
  simp [associativeTables, tableNames, and_assoc]

end SchemaDiagram
