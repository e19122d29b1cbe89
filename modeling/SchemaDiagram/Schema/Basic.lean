import SchemaDiagram.Text.LetterCase
import SchemaDiagram.Schema.NameSet

/-! # Schema — tables, their columns and their keys

      * `Column`, `ForeignKey`, `Table`   — the relational model
      * `Table.declaredColumn?`           — a column's own spelling of its name
      * `Table.isPrimary`                 — membership in the primary key
      * `Table.foreignKeyColumns`         — the columns of all foreign keys
      * `findTable?`                      — a table by its name
      * `Warning`                         — what a script's reader complains about
      * `Schema`                          — tables and warnings

    The model itself forbids nothing: tables may share a name and keys may
    speak of columns that do not exist.  What a parsed script guarantees
    beyond that is said where scripts are parsed. -/

namespace SchemaDiagram

/-- A column of a table. -/
structure Column where
  name : Text
  /-- the type, as it was written -/
  declaredType : Text
  /-- whether the column admits NULL -/
  nullable : Bool
  deriving DecidableEq, Repr

/-- A reference from some columns of a table to columns of a parent table. -/
structure ForeignKey where
  /-- the referring columns, matched by position with `refColumns` -/
  columns : List Text
  /-- the name of the parent table -/
  refTable : Text
  /-- the columns referred to -/
  refColumns : List Text
  constraintName : Option Text
  deriving DecidableEq, Repr

/-- A table. -/
structure Table where
  name : Text
  /-- the columns, in the order of their declaration -/
  columns : List Column
  /-- the names of the primary key's columns -/
  primaryKeys : NameSet
  foreignKeys : List ForeignKey
  deriving DecidableEq, Repr

/-- The first table of that name. -/
def findTable? (tables : List Table) (name : Text) : Option Table :=
  tables.find? (·.name = name)

namespace ForeignKey

/-- The referring columns, as a set. -/
def columnSet (key : ForeignKey) : NameSet := NameSet.ofList key.columns

end ForeignKey

namespace Table

/-- A table of which nothing but the name is known. -/
def named (name : Text) : Table := ⟨name, [], ∅, []⟩

/-- How the table itself spells the column `name`: the name of the first
    column that agrees with it up to the case of ASCII letters. -/
def declaredColumn? (t : Table) (name : Text) : Option Text :=
  (t.columns.find? fun c => Text.equalsIgnoringCase c.name name).map (·.name)

/-- Whether `column` belongs to the primary key, in this very spelling. -/
def isPrimary (t : Table) (column : Text) : Bool := column ∈ t.primaryKeys

/-- The referring columns of all foreign keys. -/
def foreignKeyColumns (t : Table) : NameSet := NameSet.ofList (t.foreignKeys.flatMap (·.columns))

/-! ### Laws -/

@[simp] theorem isPrimary_iff {t : Table} {column : Text} :
    t.isPrimary column = true ↔ column ∈ t.primaryKeys := by
  simp [isPrimary]

@[simp] theorem mem_foreignKeyColumns {t : Table} {column : Text} :
    column ∈ t.foreignKeyColumns ↔ ∃ key ∈ t.foreignKeys, column ∈ key.columns := by
  simp [foreignKeyColumns]

end Table

/-! ### Schemas -/

/-- A complaint about a script. -/
inductive Warning where
  | unrecognized (definition : Text)
  /-- a primary key names a column that its table does not declare -/
  | undeclaredPrimaryKey (column table : Text)
  /-- a foreign key uses a column that its table does not declare -/
  | undeclaredForeignKey (columns : List Text) (table : Text)
  deriving DecidableEq, Repr

namespace Warning

/-- How many characters of an unrecognized definition a warning quotes. -/
def quotedLength : Nat := 120

/-- The wording of a warning. -/
def message : Warning → Text
  | unrecognized definition => "unrecognized definition: " ++ definition.take quotedLength
  | undeclaredPrimaryKey column table =>
    "primary key column \x60" ++ column ++ "\x60 is not declared in table \x60" ++ table ++ "\x60"
  | undeclaredForeignKey columns table =>
    "foreign key (" ++ Text.joined ", " columns ++ ") on table \x60" ++ table
      ++ "\x60 uses undeclared columns"

end Warning

/-- What a script declares. -/
structure Schema where
  tables : List Table
  warnings : List Warning
  deriving DecidableEq, Repr

end SchemaDiagram
