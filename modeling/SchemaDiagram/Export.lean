import SchemaDiagram.Diagram.Overview
import SchemaDiagram.Json

/-! # Export — the library's values as JSON

    Each value is an object whose fields stand in a fixed order.  The origin
    of a relationship is not exported: its ends and attributes show it.

      * `Column.toJson`, `ForeignKey.toJson`, `Table.toJson`, `Schema.toJson`
      * `ChenGraph.toJson` and those of its parts
      * `Overview.toJson` -/

namespace SchemaDiagram

/-- An array of strings. -/
def Json.strings (texts : List Text) : Json := .array (texts.map .string)

/-- A column. -/
def Column.toJson (c : Column) : Json :=
  .object
    [("name", .string c.name), ("declaredType", .string c.declaredType),
     ("nullable", .bool c.nullable)]

/-- A foreign key; a key without a name has the name null. -/
def ForeignKey.toJson (key : ForeignKey) : Json :=
  .object
    [("columns", .strings key.columns), ("refTable", .string key.refTable),
     ("refColumns", .strings key.refColumns),
     ("constraintName",
      match key.constraintName with
      | some name => .string name
      | none => .null)]

/-- A table. -/
def Table.toJson (t : Table) : Json :=
  .object
    [("name", .string t.name), ("columns", .array (t.columns.map Column.toJson)),
     ("primaryKeys", .strings t.primaryKeys.toList),
     ("foreignKeys", .array (t.foreignKeys.map ForeignKey.toJson))]

/-- A schema, its warnings as they are worded. -/
def Schema.toJson (s : Schema) : Json :=
  .object
    [("tables", .array (s.tables.map Table.toJson)),
     ("warnings", .strings (s.warnings.map Warning.message))]

namespace ChenGraph

/-- An attribute. -/
def Attribute.toJson (a : Attribute) : Json :=
  .object [("id", .string a.id), ("name", .string a.name), ("isPrimary", .bool a.isPrimary)]

/-- An entity. -/
def Entity.toJson (e : Entity) : Json :=
  .object
    [("id", .string e.id), ("name", .string e.name),
     ("attributes", .array (e.attributes.map Attribute.toJson))]

/-- One end of a relationship. -/
def Endpoint.toJson (e : Endpoint) : Json :=
  .object [("entityId", .string e.entityId), ("cardinality", .string e.cardinality.mark)]

/-- A relationship. -/
def Relationship.toJson (r : Relationship) : Json :=
  .object
    [("id", .string r.id), ("name", .string r.name),
     ("endpoints", .array (r.endpoints.map Endpoint.toJson)),
     ("attributes", .array (r.attributes.map Attribute.toJson))]

/-- A Chen graph. -/
def toJson (g : ChenGraph) : Json :=
  .object
    [("entities", .array (g.entities.map Entity.toJson)),
     ("relationships", .array (g.relationships.map Relationship.toJson))]

end ChenGraph

/-- The overview.  The crow's-foot text appears twice, the second time under
    the name that says which notation it is. -/
def Overview.toJson (o : Overview) : Json :=
  .object
    [("mermaid", .string o.crowsFoot), ("mermaidCrow", .string o.crowsFoot),
     ("mermaidChen", .string o.chen), ("chenModel", o.chenGraph.toJson),
     ("tableCount", .number o.tableCount),
     ("warnings", .strings (o.warnings.map Warning.message))]

end SchemaDiagram
