import SchemaDiagram.Schema.Basic

/-! # Reconcile — keys brought into line with the columns of their table

    A key may spell a column in another letter case than its declaration, or
    name a column that is never declared.

      * `Table.respelled?`        — a foreign key in the spelling of the columns
      * `Table.reconciled`        — a table with the keys that its columns support
      * `Table.discrepancies`     — the warnings about the others -/

namespace SchemaDiagram.Table

/-- `key` with its columns in the spelling of their declaration, if all of
    them are declared. -/
def respelled? (t : Table) (key : ForeignKey) : Option ForeignKey :=
  (key.columns.mapM t.declaredColumn?).map fun columns => { key with columns }

/-- `t` with the keys that its columns support. -/
def reconciled (t : Table) : Table :=
  { t with
    primaryKeys := NameSet.ofList (t.primaryKeys.toList.filterMap t.declaredColumn?)
    foreignKeys := t.foreignKeys.filterMap t.respelled? }

/-- The warnings about the keys that `reconciled` leaves out: first the names
    in the primary key, then the foreign keys. -/
def discrepancies (t : Table) : List Warning :=
  (t.primaryKeys.toList.filter fun column => (t.declaredColumn? column).isNone).map
      (.undeclaredPrimaryKey · t.name)
    ++ (t.foreignKeys.filter fun key => (t.respelled? key).isNone).map
      fun key => .undeclaredForeignKey key.columns t.name

end SchemaDiagram.Table
