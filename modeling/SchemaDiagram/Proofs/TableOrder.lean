import Mathlib.Data.List.Perm.Basic
import SchemaDiagram.Proofs.Accounting

/-! # TableOrder — what does not depend on the order of the tables

    Identifiers and the order of the parts of a Chen graph follow the order of
    the tables.  What the parts say does not: with identifiers left out, and
    endpoints written as the names of their entities, tables in another order
    have a graph with the same parts.

      * `ForeignKey.Alike`, `Table.Alike`
                                     — the same columns and parents of keys, in
                                       whatever order
      * `Table.isAssociative_iff_unordered`
                                     — linking tables, without regard to order
      * `associativeTables_perm`,
        `associativeTables_forall₂`  — they are the same in any order
      * `Entity.content`,
        `Relationship.content`       — what the parts of a graph say
      * `tableContent`,
        `relationshipContents`       — the same, told from the tables
      * `content_ofTables_perm`      — it does not depend on the order -/

namespace SchemaDiagram

/-! ### Linking tables, without regard to order -/

/-- `key'` refers to the parent of `key` through the same columns, in any order
    and each of them any number of times. -/
structure ForeignKey.Alike (key key' : ForeignKey) : Prop where
  refTable : key.refTable = key'.refTable
  columns : ∀ column, column ∈ key.columns ↔ column ∈ key'.columns

namespace Table

/-- `t'` has the name, the primary key and the foreign keys of `t`, the last in
    any order and with their columns in any order. -/
structure Alike (t t' : Table) : Prop where
  name : t.name = t'.name
  primaryKeys : t.primaryKeys = t'.primaryKeys
  foreignKeys : ∃ keys, t.foreignKeys.Perm keys ∧ List.Forall₂ ForeignKey.Alike keys t'.foreignKeys

/-- **What a linking table is**, without regard to the order of its keys. -/
theorem isAssociative_iff_unordered {known : List Text} {t : Table} :
    t.isAssociative known = true ↔
      t.foreignKeys.length = 2 ∧ 2 ≤ t.primaryKeys.size ∧
        (∀ column ∈ t.primaryKeys, column ∈ t.foreignKeyColumns) ∧
        (t.foreignKeys.map (·.refTable)).Nodup ∧
        ∀ parent ∈ t.foreignKeys.map (·.refTable), parent ∈ known := by
  rw [isAssociative_iff]
  constructor
  · rintro ⟨first, second, hkeys, hsize, hcolumns, hne, hfirst, hsecond⟩
    refine ⟨by rw [hkeys]; rfl, hsize, hcolumns, ?_, ?_⟩
    · simpa [hkeys] using hne
    · simpa [hkeys] using ⟨hfirst, hsecond⟩
  · rintro ⟨hlength, hsize, hcolumns, hnodup, hknown⟩
    obtain ⟨first, second, hkeys⟩ := List.length_eq_two.1 hlength
    have hne : first.refTable ≠ second.refTable := by simpa [hkeys] using hnodup
    obtain ⟨hfirst, hsecond⟩ : first.refTable ∈ known ∧ second.refTable ∈ known := by
      simpa [hkeys] using hknown
    exact ⟨first, second, hkeys, hsize, hcolumns, hne, hfirst, hsecond⟩

namespace Alike

theorem refl (t : Table) : t.Alike t :=
  ⟨rfl, rfl, t.foreignKeys, .refl _, List.forall₂_same.2 fun _ _ => ⟨rfl, fun _ => Iff.rfl⟩⟩

section

variable {t t' : Table} (h : t.Alike t')
include h

theorem refTables_perm :
    (t.foreignKeys.map (·.refTable)).Perm (t'.foreignKeys.map (·.refTable)) := by
  obtain ⟨keys, hperm, hkeys⟩ := h.foreignKeys
  have hmap : keys.map (·.refTable) = t'.foreignKeys.map (·.refTable) :=
    map_eq_map_of_forall₂ hkeys fun _ _ _ halike => halike.refTable
  exact hmap ▸ hperm.map _

theorem mem_foreignKeyColumns_iff {column : Text} :
    column ∈ t.foreignKeyColumns ↔ column ∈ t'.foreignKeyColumns := by
  obtain ⟨keys, hperm, hkeys⟩ := h.foreignKeys
  rw [mem_foreignKeyColumns, mem_foreignKeyColumns]
  constructor
  · rintro ⟨key, hkey, hcolumn⟩
    obtain ⟨key', hkey', halike⟩ := exists_right_of_mem hkeys (hperm.mem_iff.1 hkey)
    exact ⟨key', hkey', (halike.columns column).1 hcolumn⟩
  · rintro ⟨key', hkey', hcolumn⟩
    obtain ⟨key, hkey, halike⟩ := exists_left_of_mem hkeys hkey'
    exact ⟨key, hperm.mem_iff.2 hkey, (halike.columns column).2 hcolumn⟩

/-- Whether a table is a linking table does not depend on the order of its
    keys, nor on how their columns are listed. -/
theorem isAssociative_eq {known known' : List Text} (hknown : ∀ name, name ∈ known ↔ name ∈ known') :
    t.isAssociative known = t'.isAssociative known' := by
  have hlength : t.foreignKeys.length = t'.foreignKeys.length := by
    simpa using h.refTables_perm.length_eq
  have hcolumns : (∀ column ∈ t.primaryKeys, column ∈ t.foreignKeyColumns) ↔
      ∀ column ∈ t'.primaryKeys, column ∈ t'.foreignKeyColumns := by
    rw [h.primaryKeys]
    exact forall₂_congr fun _ _ => h.mem_foreignKeyColumns_iff
  have hparents : (∀ parent ∈ t.foreignKeys.map (·.refTable), parent ∈ known) ↔
      ∀ parent ∈ t'.foreignKeys.map (·.refTable), parent ∈ known' :=
    forall_congr' fun parent =>
      imp_congr h.refTables_perm.mem_iff (hknown parent)
  rw [Bool.eq_iff_iff, isAssociative_iff_unordered, isAssociative_iff_unordered, hlength, hcolumns,
    hparents, h.primaryKeys, h.refTables_perm.nodup_iff]

end

end Alike

end Table

/-- **The order of the tables** does not matter to which of them are linking
    tables. -/
theorem associativeTables_perm {tables tables' : List Table} (h : tables.Perm tables') :
    associativeTables tables = associativeTables tables' := by
  have hnames : ∀ name, name ∈ tableNames tables ↔ name ∈ tableNames tables' := fun _ =>
    (h.map _).mem_iff
  refine NameSet.ext fun name => ?_
  rw [mem_associativeTables, mem_associativeTables]
  refine exists_congr fun t => and_congr h.mem_iff ?_
  rw [(Table.Alike.refl t).isAssociative_eq hnames]

/-- **Nor does the order of their keys**, or of the columns in these. -/
theorem associativeTables_forall₂ {tables tables' : List Table}
    (h : List.Forall₂ Table.Alike tables tables') :
    associativeTables tables = associativeTables tables' := by
  have hnames : tableNames tables = tableNames tables' :=
    map_eq_map_of_forall₂ h fun _ _ _ halike => halike.name
  refine NameSet.ext fun name => ?_
  rw [mem_associativeTables, mem_associativeTables, hnames]
  constructor
  · rintro ⟨t, ht, hlinking, rfl⟩
    obtain ⟨t', ht', halike⟩ := exists_right_of_mem h ht
    rw [halike.isAssociative_eq fun _ => Iff.rfl] at hlinking
    exact ⟨t', ht', hlinking, halike.name.symm⟩
  · rintro ⟨t', ht', hlinking, rfl⟩
    obtain ⟨t, ht, halike⟩ := exists_left_of_mem h ht'
    rw [← halike.isAssociative_eq fun _ => Iff.rfl] at hlinking
    exact ⟨t, ht, hlinking, halike.name⟩

namespace ChenGraph

/-! ### What the parts of a graph say -/

/-- What an entity says: its name, and the names of its attributes with their
    primary flags. -/
def Entity.content (e : Entity) : Text × List (Text × Bool) :=
  (e.name, e.attributes.map fun a => (a.name, a.isPrimary))

/-- The name of the entity with the identifier `id`. -/
def entityName? (entities : List Entity) (id : Text) : Option Text :=
  (entities.find? (·.id = id)).map (·.name)

/-- What a relationship says, with no identifier in it. -/
structure Content where
  origin : Origin
  name : Text
  /-- the entities at its ends, by their names -/
  endpoints : List (Option Text × Cardinality)
  attributes : List Text
  deriving DecidableEq, Repr

/-- An endpoint, by the name of its entity. -/
def endpointContent (entities : List Entity) (endpoint : Endpoint) : Option Text × Cardinality :=
  (entityName? entities endpoint.entityId, endpoint.cardinality)

/-- What a relationship between some of `entities` says. -/
def Relationship.content (entities : List Entity) (r : Relationship) : Content where
  origin := r.origin
  name := r.name
  endpoints := r.endpoints.map (endpointContent entities)
  attributes := r.attributes.map (·.name)

/-- What the relationship of a link says. -/
def linkContent (entities : List Entity) (link : Text × List Endpoint) : Content where
  origin := .foreignKey
  name := link.1
  endpoints := link.2.map (endpointContent entities)
  attributes := []

/-! ### The same, told from the tables -/

/-- What the entity of a table says. -/
def tableContent (t : Table) : Text × List (Text × Bool) :=
  (t.name, t.columns.map fun c => (c.name, t.isPrimary c.name))

/-- Whether a table of that name is an entity. -/
def isEntityName (tables : List Table) (name : Text) : Bool :=
  (tableNames tables).contains name && name ∉ associativeTables tables

theorem isEntityName_iff {tables : List Table} {name : Text} :
    isEntityName tables name = true ↔
      name ∈ tableNames tables ∧ name ∉ associativeTables tables := by
  rw [isEntityName, Bool.and_eq_true, List.contains_iff_mem, decide_eq_true_iff]

/-- What the relationships of a table's foreign keys say, when `isEntity` tells
    the names of entities. -/
def linkContents (isEntity : Text → Bool) (t : Table) : List Content :=
  (t.foreignKeys.zipIdx 1).filterMap fun (key, index) =>
    if isEntity key.refTable && isEntity t.name then
      some
        { origin := .foreignKey
          name := relationshipName t key index
          endpoints := [(some key.refTable, .one), (some t.name, cardinalityOf t key)]
          attributes := [] }
    else none

/-- What the relationship of a linking table says. -/
def associationContent (isEntity : Text → Bool) (t : Table) : Content where
  origin := .associative
  name := t.name
  endpoints := (t.foreignKeys.filter (isEntity ·.refTable)).map fun key =>
    (some key.refTable, cardinalityOf t key)
  attributes := (ownColumns t).map (·.name)

/-- Whether a linking table is shown: both its parents are entities. -/
def isShown (isEntity : Text → Bool) (t : Table) : Bool :=
  2 ≤ (t.foreignKeys.filter (isEntity ·.refTable)).length

/-- What the relationships of a graph of `tables` say: first those of foreign
    keys, then those of linking tables. -/
def relationshipContents (tables : List Table) : List Content :=
  (plainTables tables).flatMap (linkContents (isEntityName tables))
    ++ ((tables.filter (isLinking tables)).filter (isShown (isEntityName tables))).map
      (associationContent (isEntityName tables))

/-! ### Both agree -/

/-- An identifier leads to one entity only. -/
theorem entityName?_of_mem {entities : List Entity} (hids : (entities.map (·.id)).Nodup)
    {e : Entity} (he : e ∈ entities) : entityName? entities e.id = some e.name := by
  rw [entityName?]
  cases hfind : entities.find? (·.id = e.id) with
  | none => exact absurd (List.find?_eq_none.1 hfind e he) (by simp)
  | some found =>
    have hid : found.id = e.id := by simpa using List.find?_some hfind
    rw [List.inj_on_of_nodup_map hids (List.mem_of_find?_eq_some hfind) he hid]
    rfl

section Depicts

variable {tables : List Table} {g : ChenGraph} (h : Depicts tables g)
include h

theorem entities_content :
    g.entities.map Entity.content = (plainTables tables).map tableContent := by
  symm
  refine map_eq_map_of_forall₂ h.entities fun t _ e hshows => ?_
  have hattributes : t.columns.map (fun c => (c.name, t.isPrimary c.name)) =
      e.attributes.map fun a => (a.name, a.isPrimary) := by
    refine map_eq_map_of_forall₂ hshows.attributes fun c _ a hcolumn => ?_
    have hprimary : t.isPrimary c.name = a.isPrimary := by
      rw [Bool.eq_iff_iff, hcolumn.isPrimary, Table.isPrimary_iff]
    rw [hcolumn.name, hprimary]
  rw [tableContent, Entity.content, hshows.name, hattributes]

section Ids

variable (hids : (g.entities.map (·.id)).Nodup)
include hids

/-- A name is looked up when it is that of an entity, and what is found leads
    back to the name. -/
theorem entityId?_cases (name : Text) :
    (isEntityName tables name = true ∧ ∃ id, entityId? g.entities name = some id ∧
        entityName? g.entities id = some name) ∨
      isEntityName tables name = false ∧ entityId? g.entities name = none := by
  -- a linking table has a name but no entity
  by_cases hname : name ∈ tableNames tables ∧ name ∉ associativeTables tables
  · obtain ⟨e, he, rfl, hid⟩ := exists_entityId? h hname.1 hname.2
    exact Or.inl ⟨isEntityName_iff.2 hname, e.id, hid, entityName?_of_mem hids he⟩
  · exact Or.inr ⟨Bool.eq_false_iff.2 (mt isEntityName_iff.1 hname), entityId?_eq_none h hname⟩

theorem map_links (t : Table) :
    (links g.entities t).map (linkContent g.entities) = linkContents (isEntityName tables) t := by
  rw [links, linkContents, List.map_filterMap]
  -- key by key: both sides ask the same of its two ends
  refine List.filterMap_congr fun ⟨key, index⟩ _ => ?_
  rcases entityId?_cases h hids key.refTable with ⟨hparent, p, hp, hpname⟩ | ⟨hparent, hp⟩
  · rcases entityId?_cases h hids t.name with ⟨hchild, c, hc, hcname⟩ | ⟨hchild, hc⟩
    · simp [hparent, hp, hchild, hc, linkContent, endpointContent, hpname, hcname]
    · simp [hchild, hc]
  · simp [hparent, hp]

theorem map_parentEndpoints (t : Table) :
    (parentEndpoints g.entities t).map (endpointContent g.entities) =
      (t.foreignKeys.filter (isEntityName tables ·.refTable)).map fun key =>
        (some key.refTable, cardinalityOf t key) := by
  rw [parentEndpoints, List.map_filterMap, ← List.filterMap_eq_map, List.filterMap_filter]
  refine List.filterMap_congr fun key _ => ?_
  rcases entityId?_cases h hids key.refTable with ⟨hparent, p, hp, hpname⟩ | ⟨hparent, hp⟩
  · simp [parentEndpoint?, hparent, hp, endpointContent, hpname]
  · simp [parentEndpoint?, hparent, hp]

theorem isConnected_eq_isShown (t : Table) :
    isConnected g.entities t = isShown (isEntityName tables) t := by
  have hlength := congrArg List.length (map_parentEndpoints h hids t)
  rw [List.length_map, List.length_map] at hlength
  rw [isConnected, isShown, hlength]

/-- **What the relationships say** can be told from the tables. -/
theorem relationships_content :
    (g.relationships.map (Relationship.content g.entities)).Perm (relationshipContents tables) := by
  -- the graph may hold the two kinds in any order, so each is told apart
  have hlinks : (g.relationships.filter (·.origin = .foreignKey)).map
        (Relationship.content g.entities) =
      (plainTables tables).flatMap (linkContents (isEntityName tables)) := by
    have hshown : ((plainTables tables).flatMap (links g.entities)).map (linkContent g.entities) =
        (g.relationships.filter (·.origin = .foreignKey)).map
          (Relationship.content g.entities) := by
      refine map_eq_map_of_forall₂ h.links fun link _ r hshows => ?_
      rw [Relationship.content, hshows.name, hshows.endpoints, hshows.attributes, hshows.origin]
      rfl
    rw [← hshown, List.map_flatMap]
    exact List.flatMap_congr fun t _ => map_links h hids t
  have hassociations : (g.relationships.filter (·.origin = .associative)).map
        (Relationship.content g.entities) =
      ((tables.filter (isLinking tables)).filter (isShown (isEntityName tables))).map
        (associationContent (isEntityName tables)) := by
    have hfilter : isConnected g.entities = isShown (isEntityName tables) :=
      funext (isConnected_eq_isShown h hids)
    rw [← hfilter]
    symm
    refine map_eq_map_of_forall₂ h.associations fun t _ r hshows => ?_
    have hattributes : (ownColumns t).map (·.name) = r.attributes.map (·.name) :=
      map_eq_map_of_forall₂ hshows.attributes fun _ _ _ hcolumn => hcolumn.name.symm
    rw [associationContent, Relationship.content, hshows.name, hshows.endpoints, hshows.origin,
      ← hattributes, map_parentEndpoints h hids]
  have hsplit : (g.relationships.filter (·.origin = .foreignKey)
      ++ g.relationships.filter (·.origin = .associative)).Perm g.relationships := by
    have hother : g.relationships.filter (·.origin = .associative) =
        g.relationships.filter fun r => !decide (r.origin = .foreignKey) :=
      List.filter_congr fun r _ => by cases r.origin <;> rfl
    rw [hother]
    exact List.filter_append_perm _ _
  rw [relationshipContents, ← hlinks, ← hassociations, ← List.map_append]
  exact (hsplit.map _).symm

end Ids

end Depicts

/-! ### The order does not matter -/

section Perm

variable {tables tables' : List Table} (h : tables.Perm tables')
include h

theorem isLinking_perm : isLinking tables = isLinking tables' := by
  funext t
  rw [isLinking, isLinking, associativeTables_perm h]

theorem isEntityName_perm : isEntityName tables = isEntityName tables' := by
  funext name
  have hname : name ∈ tableNames tables ↔ name ∈ tableNames tables' := (h.map _).mem_iff
  rw [Bool.eq_iff_iff, isEntityName_iff, isEntityName_iff, hname, associativeTables_perm h]

theorem plainTables_perm : (plainTables tables).Perm (plainTables tables') := by
  rw [plainTables, plainTables, isLinking_perm h]
  exact h.filter _

theorem relationshipContents_perm :
    (relationshipContents tables).Perm (relationshipContents tables') := by
  have hlinking : (tables.filter (isLinking tables)).Perm (tables'.filter (isLinking tables')) := by
    rw [isLinking_perm h]
    exact h.filter _
  rw [relationshipContents, relationshipContents, isEntityName_perm h]
  exact ((plainTables_perm h).flatMap_right _).append ((hlinking.filter _).map _)

end Perm

/-- **The order of the tables does not matter** to what their graph says: the
    same entities and relationships are there, each as often, and only their
    identifiers and places differ.  The linking tables are the same as well, and
    they stay the same when the foreign keys of tables change places, or the
    columns in a foreign key do, or when such a column is listed again. -/
theorem content_ofTables_perm {tables tables' : List Table} (h : tables.Perm tables') :
    ((ofTables tables).entities.map Entity.content).Perm
        ((ofTables tables').entities.map Entity.content) ∧
      ((ofTables tables).relationships.map (Relationship.content (ofTables tables).entities)).Perm
        ((ofTables tables').relationships.map
          (Relationship.content (ofTables tables').entities)) ∧
      associativeTables tables = associativeTables tables' ∧
      ∀ rearranged, List.Forall₂ Table.Alike tables' rearranged →
        associativeTables tables = associativeTables rearranged := by
  have hd := depicts_ofTables tables
  have hd' := depicts_ofTables tables'
  refine ⟨?_, ?_, associativeTables_perm h, fun rearranged halike => ?_⟩
  · rw [entities_content hd, entities_content hd']
    exact (plainTables_perm h).map _
  · -- each graph says what its own tables say, and these differ in order only
    have hleft := relationships_content hd (nodup_entityIds tables)
    have hright := relationships_content hd' (nodup_entityIds tables')
    exact hleft.trans ((relationshipContents_perm h).trans hright.symm)
  · rw [associativeTables_perm h, associativeTables_forall₂ halike]

/-- Two tables whose names become one identifier, and a table that links them;
    its keys change places, and a column of one is listed again. -/
theorem content_ofTables_perm_reversed :
    let first : ForeignKey := ⟨["a"], "x y", [], none⟩
    let second : ForeignKey := ⟨["b", "c"], "x_y", [], some "k"⟩
    let again : ForeignKey := ⟨["c", "b", "c"], "x_y", [], some "k"⟩
    let linking (keys : List ForeignKey) : Table :=
      { name := "z", columns := [], primaryKeys := NameSet.ofList ["a", "b"], foreignKeys := keys }
    let tables := [.named "x y", linking [first, second], .named "x_y"]
    let reversed := [.named "x_y", linking [first, second], .named "x y"]
    let rearranged := [.named "x_y", linking [again, first], .named "x y"]
    tables.Perm reversed ∧
      ((ofTables tables).relationships.map (Relationship.content (ofTables tables).entities)).Perm
        ((ofTables reversed).relationships.map
          (Relationship.content (ofTables reversed).entities)) ∧
      associativeTables rearranged = NameSet.ofList ["z"] := by
  intro first second again linking tables reversed rearranged
  have hperm : tables.Perm reversed := (List.reverse_perm tables).symm
  have hkeys : (linking [first, second]).Alike (linking [again, first]) :=
    ⟨rfl, rfl, [second, first], .swap _ _ _, .cons ⟨rfl, by simp [second, again, or_comm]⟩
      (.cons ⟨rfl, fun _ => Iff.rfl⟩ .nil)⟩
  obtain ⟨_, hcontents, _, hrearranged⟩ := content_ofTables_perm hperm
  have hlinking : associativeTables tables = NameSet.ofList ["z"] := by decide
  refine ⟨hperm, hcontents, ?_⟩
  rw [← hrearranged rearranged (.cons (.refl _) (.cons hkeys (.cons (.refl _) .nil))), hlinking]

end ChenGraph

end SchemaDiagram
