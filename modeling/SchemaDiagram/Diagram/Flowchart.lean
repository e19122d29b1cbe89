import SchemaDiagram.Diagram.Chen

/-! # Flowchart — the text of a Chen graph

    Entities are boxes, attributes are rounded, relationships are rhombs.
    The graph is written as a Mermaid `flowchart`.

      * `classDefinitions`           — the styles of the shapes
      * `label`                      — a name between double quotes
      * `attributeLines`, `entityLines`, `relationshipLines`
      * `ChenGraph.render`           — the text -/

namespace SchemaDiagram

namespace ChenGraph

/-- The styles of the shapes. -/
def classDefinitions : List Text :=
  ["    classDef entity fill:#ffffff,stroke:#111111,stroke-width:2px,color:#111111;",
   "    classDef relationship fill:#ffffff,stroke:#111111,stroke-width:2px,color:#111111;",
   "    classDef attribute fill:#ffffff,stroke:#111111,stroke-width:1.6px,color:#111111;",
   "    classDef pk stroke:#111111,stroke-width:3px;"]

/-- A name as a label: a backslash in front of every backslash and every
    double quote. -/
def label (name : Text) : Text :=
  name.flatMap fun c => if c = '\\' ∨ c = '\x22' then ['\\', c] else [c]

/-- How a cardinality is written on an edge. -/
def Cardinality.mark : Cardinality → Text
  | one => "1"
  | many => "N"

/-- The lines of an attribute of the node `owner`. -/
def attributeLines (owner : Text) (a : Attribute) : List Text :=
  let text := if a.isPrimary then a.name ++ " (PK)" else a.name
  let style : Text := if a.isPrimary then "attribute,pk" else "attribute"
  ["    " ++ a.id ++ "([\"" ++ label text ++ "\"])",
   "    class " ++ a.id ++ " " ++ style ++ ";",
   "    " ++ owner ++ " --- " ++ a.id]

/-- The lines of an entity, without its attributes. -/
def entityLines (e : Entity) : List Text :=
  ["    " ++ e.id ++ "[\"" ++ label e.name ++ "\"]",
   "    class " ++ e.id ++ " entity;"]

/-- An edge between two nodes, with the cardinality of an end on it. -/
def edgeLine (first : Text) (cardinality : Cardinality) (second : Text) : Text :=
  "    " ++ first ++ " ---|" ++ cardinality.mark ++ "| " ++ second

/-- The edges of a relationship.  They run from the ends to the relationship;
    only that to the child of a foreign key runs the other way. -/
def edgeLines (r : Relationship) : List Text :=
  match r.origin, r.endpoints with
  | .foreignKey, [parent, child] =>
    [edgeLine parent.entityId parent.cardinality r.id,
     edgeLine r.id child.cardinality child.entityId]
  | _, ends => ends.map fun e => edgeLine e.entityId e.cardinality r.id

/-- The lines of a relationship. -/
def relationshipLines (r : Relationship) : List Text :=
  ["    " ++ r.id ++ "\x7b\"" ++ label r.name ++ "\"\x7d",
   "    class " ++ r.id ++ " relationship;"]
    ++ edgeLines r ++ r.attributes.flatMap (attributeLines r.id)

/-- The first line of every text. -/
def heading : Text := "flowchart LR"

/-- The lines of a graph. -/
def lines (g : ChenGraph) : List Text :=
  heading :: classDefinitions
    ++ g.entities.flatMap entityLines
    ++ g.entities.flatMap (fun e => e.attributes.flatMap (attributeLines e.id))
    ++ g.relationships.flatMap relationshipLines

/-- The text of a graph. -/
def render (g : ChenGraph) : Text := Text.joined "\n" g.lines

end ChenGraph

end SchemaDiagram
