import SchemaDiagram.Schema.Basic

/-! # Printer — tables as the statements that declare them

    Names are written in backticks, and keys behind the columns.

      * `quotedName`, `nameList`           — names, alone and in parentheses
      * `Column.toDefinition`              — the definition of a column
      * `Table.primaryKeyDefinition?`      — the definition of a primary key
      * `ForeignKey.toDefinition`          — the definition of a foreign key
      * `Table.toStatement`                — the statement that declares a table
      * `printScript`                      — the statements of some tables -/

namespace SchemaDiagram

namespace Ddl

/-- A name in backticks. -/
def quotedName (name : Text) : Text := "\x60" ++ name ++ "\x60"

/-- Names in parentheses. -/
def nameList (names : List Text) : Text :=
  "(" ++ Text.joined ", " (names.map quotedName) ++ ")"

end Ddl

open Ddl (quotedName nameList)

/-- The definition of a column. -/
def Column.toDefinition (c : Column) : Text :=
  quotedName c.name ++ " " ++ c.declaredType ++ if c.nullable then ("" : Text) else " NOT NULL"

/-- The definition of a foreign key. -/
def ForeignKey.toDefinition (key : ForeignKey) : Text :=
  (match key.constraintName with
    | some name => "CONSTRAINT " ++ quotedName name ++ " "
    | none => [])
    ++ "FOREIGN KEY " ++ nameList key.columns
    ++ " REFERENCES " ++ quotedName key.refTable ++ " " ++ nameList key.refColumns

namespace Table

/-- The definition of a primary key, if the table has one. -/
def primaryKeyDefinition? (t : Table) : Option Text :=
  if t.primaryKeys.toList = [] then none
  else some ("PRIMARY KEY " ++ nameList t.primaryKeys.toList)

/-- The definitions of a table: columns, primary key, foreign keys. -/
def toDefinitions (t : Table) : List Text :=
  t.columns.map Column.toDefinition ++ t.primaryKeyDefinition?.toList
    ++ t.foreignKeys.map ForeignKey.toDefinition

/-- The statement that declares a table. -/
def toStatement (t : Table) : Text :=
  "CREATE TABLE " ++ quotedName t.name ++ " (" ++ Text.joined ", " t.toDefinitions ++ ");"

end Table

/-- The statements that declare some tables, each on a line of its own. -/
def Ddl.printScript (tables : List Table) : Text :=
  Text.joined "\n" (tables.map Table.toStatement)

end SchemaDiagram
