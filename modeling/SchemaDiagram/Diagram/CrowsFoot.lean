import SchemaDiagram.Diagram.Identifier
import SchemaDiagram.Diagram.TypeToken
import SchemaDiagram.Schema.Keys

/-! # CrowsFoot — the crow's-foot diagram of some tables

    Every table is a block that lists its columns, and every foreign key
    whose parent is among the tables is a connection from the parent to the
    child.  The diagram is written as a Mermaid `erDiagram`.

      * `Field`, `Block`, `Connection`, `CrowsFoot`   — the diagram
      * `CrowsFoot.ofTables`                          — the diagram of some tables
      * `CrowsFoot.render`                            — its text -/

namespace SchemaDiagram

namespace CrowsFoot

/-- A column, as its block shows it. -/
structure Field where
  typeToken : Text
  name : Text
  isPrimary : Bool
  isForeign : Bool
  deriving DecidableEq, Repr

/-- A table, as the diagram shows it. -/
structure Block where
  id : Text
  fields : List Field
  deriving DecidableEq, Repr

/-- A foreign key, as the diagram shows it. -/
structure Connection where
  parent : Text
  child : Text
  /-- the key belongs to the identity of the child's rows -/
  isIdentifying : Bool
  refColumns : List Text
  columns : List Text
  deriving DecidableEq, Repr

end CrowsFoot

/-- A crow's-foot diagram. -/
structure CrowsFoot where
  blocks : List CrowsFoot.Block
  connections : List CrowsFoot.Connection
  deriving DecidableEq, Repr

namespace CrowsFoot

/-! ### The diagram of some tables -/

/-- The identifiers of the tables' blocks, by name. -/
def blockIds (tables : List Table) : List (Text × Text) :=
  Naming.eval <| tables.mapM fun t => do return (t.name, ← claimEntityName t.name)

/-- The field that shows a column. -/
def field (t : Table) (c : Column) : Field where
  typeToken := SchemaDiagram.typeToken c.declaredType
  name := c.name
  isPrimary := t.isPrimary c.name
  isForeign := c.name ∈ t.foreignKeyColumns

/-- The block that shows a table.  Tables of one name share the identifier of
    the first. -/
def block? (ids : List (Text × Text)) (t : Table) : Option Block :=
  (ids.lookup t.name).map fun id => ⟨id, t.columns.map (field t)⟩

/-- The connection that shows a foreign key of `t`, if its parent is shown. -/
def connection? (ids : List (Text × Text)) (t : Table) (key : ForeignKey) : Option Connection := do
  let parent ← ids.lookup key.refTable
  let child ← ids.lookup t.name
  some
    { parent, child, isIdentifying := t.isIdentifying key
      refColumns := key.refColumns, columns := key.columns }

/-- The diagram that shows `tables`. -/
def ofTables (tables : List Table) : CrowsFoot :=
  let ids := blockIds tables
  { blocks := tables.filterMap (block? ids)
    connections := tables.flatMap fun t => t.foreignKeys.filterMap (connection? ids t) }

/-! ### Its text -/

/-- The line of a field. -/
def Field.line (f : Field) : Text :=
  "        " ++ f.typeToken ++ " " ++ f.name
    ++ (if f.isPrimary then (" PK" : Text) else "") ++ (if f.isForeign then (" FK" : Text) else "")

/-- The line that opens a block. -/
def Block.openingLine (b : Block) : Text := "    " ++ b.id ++ " \x7b"

/-- The line that closes a block. -/
def Block.closingLine : Text := "    \x7d"

/-- The lines of a block. -/
def Block.lines (b : Block) : List Text :=
  b.openingLine :: b.fields.map Field.line ++ [Block.closingLine]

/-- A label may not hold the mark that ends it; the entity code stands for
    it. -/
def label (text : Text) : Text := text.flatMap fun c => if c = '\x22' then "#quot;" else [c]

/-- The line of a connection. -/
def Connection.line (c : Connection) : Text :=
  "    " ++ c.parent ++ " ||--" ++ (if c.isIdentifying then ("||" : Text) else "o\x7b")
    ++ " " ++ c.child ++ " : \"" ++ label (Text.joined ", " c.refColumns) ++ " -> "
    ++ label (Text.joined ", " c.columns) ++ "\""

/-- The first line of every diagram. -/
def heading : Text := "erDiagram"

/-- The lines of a diagram. -/
def lines (d : CrowsFoot) : List Text :=
  heading :: d.blocks.flatMap Block.lines ++ d.connections.map Connection.line

/-- The text of a diagram. -/
def render (d : CrowsFoot) : Text := Text.joined "\n" d.lines

end CrowsFoot

end SchemaDiagram
