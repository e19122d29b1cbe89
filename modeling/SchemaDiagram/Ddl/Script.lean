import SchemaDiagram.Ddl.Definition
import SchemaDiagram.Ddl.Statement
import SchemaDiagram.Schema.Reconcile

/-! # Script — from the text of a script to its schema

    Reading never fails.  What cannot be understood becomes a warning.

      * `Declaration`                 — a table's name and definitions
      * `Table.record`                — a table with one more definition
      * `declare`                     — tables with one more declaration
      * `schemaOf`                    — the schema of some declarations
      * `parseSchema`                 — the schema of a script

    Statements of the same name add to one table, which keeps the place of
    the first of them.  Keys are reconciled with columns only when all
    statements have been read, for a key may come before its columns. -/

namespace SchemaDiagram

/-! ### Recording definitions -/

namespace Table

open Ddl (Definition)

/-- `t` with what one more definition says about it. -/
def record (t : Table) : Definition → Table
  | .primaryKey columns => { t with primaryKeys := t.primaryKeys.insertAll columns }
  | .foreignKey key => { t with foreignKeys := t.foreignKeys ++ [key] }
  | .column c =>
    { t with
      columns := t.columns ++ [c.column]
      primaryKeys := if c.isPrimary then t.primaryKeys.insert c.column.name else t.primaryKeys
      foreignKeys := t.foreignKeys ++ c.references.toList }
  | .metadata => t
  | .unrecognized _ => t

@[simp] theorem name_record (t : Table) (d : Definition) : (t.record d).name = t.name := by
  cases d <;> rfl

/-- `t` with what several definitions say about it, in order. -/
def recordAll (t : Table) (definitions : List Definition) : Table := definitions.foldl record t

@[simp] theorem name_recordAll (t : Table) (ds : List Definition) :
    (t.recordAll ds).name = t.name := by
  induction ds generalizing t with
  | nil => rfl
  | cons d ds ih => exact (ih (t.record d)).trans (name_record t d)

end Table

namespace Ddl

/-! ### Declarations -/

/-- A statement whose body has been read. -/
structure Declaration where
  table : Text
  definitions : List Definition
  deriving DecidableEq, Repr

/-- The declaration that a statement makes. -/
def Statement.declaration (s : Statement) : Declaration :=
  ⟨s.name, (splitTopLevel ',' s.body).map classify⟩

/-- `tables` with one more declaration: recorded in the table of its name, or
    in a new one at the end. -/
def declare (d : Declaration) : List Table → List Table
  | [] => [(Table.named d.table).recordAll d.definitions]
  | t :: ts => if t.name = d.table then t.recordAll d.definitions :: ts else t :: declare d ts

/-- The warnings about the definitions of a declaration. -/
def Declaration.warnings (d : Declaration) : List Warning :=
  d.definitions.filterMap fun
    | .unrecognized text => some (.unrecognized text)
    | _ => none

/-! ### Schemas -/

/-- The tables of some declarations, their keys as they were written. -/
def declaredTables (ds : List Declaration) : List Table :=
  ds.foldl (fun tables d => declare d tables) []

/-- The schema of some declarations. -/
def schemaOf (ds : List Declaration) : Schema :=
  let tables := declaredTables ds
  { tables := tables.map Table.reconciled
    warnings := ds.flatMap (·.warnings) ++ tables.flatMap Table.discrepancies }

/-- The schema that a script declares. -/
def parseSchema (script : Text) : Schema :=
  schemaOf ((scriptStatements script).map Statement.declaration)

end Ddl

end SchemaDiagram
