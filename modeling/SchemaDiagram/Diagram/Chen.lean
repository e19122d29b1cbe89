import SchemaDiagram.Diagram.Identifier
import SchemaDiagram.Schema.Keys

/-! # Chen — the entities, relationships and attributes of some tables

    A table that only links two others becomes a relationship between them;
    every other table becomes an entity, and each of its foreign keys whose
    parent is an entity becomes a relationship.

      * `Attribute`, `Entity`, `Endpoint`, `Relationship`   — the parts
      * `ChenGraph`                                         — the graph
      * `ChenGraph.ofTables`                                — that of some tables

    All identifiers of a graph come from one registry. -/

namespace SchemaDiagram

namespace ChenGraph

/-! ### The parts of a graph -/

/-- A property of an entity or relationship. -/
structure Attribute where
  id : Text
  name : Text
  isPrimary : Bool
  deriving DecidableEq, Repr

/-- A kind of thing that the tables speak of. -/
structure Entity where
  id : Text
  name : Text
  attributes : List Attribute
  deriving DecidableEq, Repr

/-- How many rows may take part at one end of a relationship. -/
inductive Cardinality where
  | one
  | many
  deriving DecidableEq, Repr

/-- One end of a relationship. -/
structure Endpoint where
  entityId : Text
  cardinality : Cardinality
  deriving DecidableEq, Repr

/-- What a relationship was made from. -/
inductive Origin where
  /-- one foreign key: the ends are the parent and the child -/
  | foreignKey
  /-- a linking table: one end for each of its foreign keys -/
  | associative
  deriving DecidableEq, Repr

/-- A connection between entities. -/
structure Relationship where
  id : Text
  name : Text
  endpoints : List Endpoint
  attributes : List Attribute
  origin : Origin
  deriving DecidableEq, Repr

end ChenGraph

/-- The graph that Chen's notation draws. -/
structure ChenGraph where
  entities : List ChenGraph.Entity
  relationships : List ChenGraph.Relationship
  deriving DecidableEq, Repr

namespace ChenGraph

/-! ### Entities -/

/-- The attribute that shows a column; `kind` starts its identifier. -/
def columnAttribute (kind : Text) (t : Table) (c : Column) : Naming Attribute := do
  let id ← claimNodeId kind (t.name ++ "_" ++ c.name)
  return { id, name := c.name, isPrimary := t.isPrimary c.name }

/-- The entity that shows a table. -/
def tableEntity (t : Table) : Naming Entity := do
  let id ← claimNodeId "E" t.name
  let attributes ← t.columns.mapM (columnAttribute "A" t)
  return { id, name := t.name, attributes }

/-- The identifier of the entity of that name; of several, the last. -/
def entityId? (entities : List Entity) (name : Text) : Option Text :=
  (entities.reverse.find? (·.name = name)).map (·.id)

/-! ### Relationships from foreign keys -/

/-- How many rows of `t` may refer to one parent row through `key`. -/
def cardinalityOf (t : Table) (key : ForeignKey) : Cardinality :=
  if t.isUniqueByKey key then .one else .many

/-- The end of a relationship at the parent of `key`, if the parent is an
    entity; its cardinality is that of the rows that refer to it. -/
def parentEndpoint? (entities : List Entity) (t : Table) (key : ForeignKey) : Option Endpoint :=
  (entityId? entities key.refTable).map fun parent => ⟨parent, cardinalityOf t key⟩

/-- The name of the relationship that shows the foreign key at position
    `index` of `t`, counted from one. -/
def relationshipName (t : Table) (key : ForeignKey) (index : Nat) : Text :=
  key.constraintName.getD (t.name ++ "_" ++ key.refTable ++ "_" ++ Text.decimal index)

/-- The names and ends of the relationships that show the foreign keys of
    `t`.  A key whose parent is no entity is not shown. -/
def links (entities : List Entity) (t : Table) : List (Text × List Endpoint) :=
  (t.foreignKeys.zipIdx 1).filterMap fun (key, index) => do
    let parent ← entityId? entities key.refTable
    let child ← entityId? entities t.name
    some (relationshipName t key index, [⟨parent, .one⟩, ⟨child, cardinalityOf t key⟩])

/-- The relationship that shows a foreign key. -/
def keyRelationship (name : Text) (endpoints : List Endpoint) : Naming Relationship := do
  let id ← claimNodeId "R" name
  return { id, name, endpoints, attributes := [], origin := .foreignKey }

/-! ### Relationships from linking tables -/

/-- The columns of `t` that belong to no foreign key. -/
def ownColumns (t : Table) : List Column := t.columns.filter fun c => c.name ∉ t.foreignKeyColumns

/-- The relationship that shows a linking table.  When one of the tables that
    it links is no entity, nothing shows it, though its identifiers are
    used up. -/
def association? (entities : List Entity) (t : Table) : Naming (Option Relationship) := do
  let id ← claimNodeId "R_ASSOC" t.name
  let attributes ← (ownColumns t).mapM (columnAttribute "A_ASSOC" t)
  let endpoints := t.foreignKeys.filterMap (parentEndpoint? entities t)
  return if endpoints.length < 2 then none
    else some { id, name := t.name, endpoints, attributes, origin := .associative }

/-! ### The graph -/

/-- Whether `t` shares its name with a table that only links two others. -/
def isLinking (tables : List Table) (t : Table) : Bool := t.name ∈ associativeTables tables

/-- The graph of `tables`, as a computation that asks for identifiers:
    first for the entities, then for the foreign keys, last for the linking
    tables. -/
def build (tables : List Table) : Naming ChenGraph := do
  -- the order of the three steps is the order in which identifiers are handed out
  let plain := tables.filter fun t => !isLinking tables t
  let entities ← plain.mapM tableEntity
  let relationships ← (plain.flatMap (links entities)).mapM fun (name, ends) =>
    keyRelationship name ends
  let associations ← (tables.filter (isLinking tables)).mapM (association? entities)
  return { entities, relationships := relationships ++ associations.filterMap id }

/-- The graph that shows `tables`. -/
def ofTables (tables : List Table) : ChenGraph := (build tables).eval

end ChenGraph

end SchemaDiagram
