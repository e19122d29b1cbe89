import SchemaDiagram.Diagram.Chen
import SchemaDiagram.Proofs.Identifiers
import SchemaDiagram.Proofs.Matching

/-! # GraphParts — what the graph of some tables consists of

    Each step of building a graph returns parts that show a column, a table,
    a foreign key or a linking table, and hands out the identifiers of these
    parts.

      * `ids`                     — the identifiers in a graph
      * `ShowsColumn`, `ShowsTable`, `ShowsLink`, `ShowsAssociation`
                                  — what a part shows
      * `Depicts`                 — what a whole graph shows
      * `yields_build`            — building a graph, in these terms
      * `depicts_ofTables`        — the graph of some tables shows them
      * `nodup_ids_ofTables`, `isIdentifier_of_mem_ids`
                                  — its identifiers
      * `exists_entity_of_endpoint` — its endpoints
      * `ofTables_wellReferenced` — identifiers are unique and endpoints lead
                                    to entities, whatever the tables are -/

namespace SchemaDiagram.ChenGraph

open Naming (Yields)

/-! ### The identifiers in a graph -/

/-- The identifier of an entity, then those of its attributes. -/
def Entity.ids (e : Entity) : List Text := e.id :: e.attributes.map (·.id)

/-- The identifier of a relationship, then those of its attributes. -/
def Relationship.ids (r : Relationship) : List Text := r.id :: r.attributes.map (·.id)

/-- The identifiers of all nodes of a graph. -/
def ids (g : ChenGraph) : List Text :=
  g.entities.flatMap Entity.ids ++ g.relationships.flatMap Relationship.ids

theorem Entity.id_mem_ids {g : ChenGraph} {e : Entity} (h : e ∈ g.entities) : e.id ∈ g.ids :=
  List.mem_append_left _ (List.mem_flatMap.2 ⟨e, h, List.mem_cons_self⟩)

theorem Relationship.id_mem_ids {g : ChenGraph} {r : Relationship} (h : r ∈ g.relationships) :
    r.id ∈ g.ids :=
  List.mem_append_right _ (List.mem_flatMap.2 ⟨r, h, List.mem_cons_self⟩)

theorem Entity.attribute_mem_ids {g : ChenGraph} {e : Entity} (h : e ∈ g.entities)
    {a : Attribute} (ha : a ∈ e.attributes) : a.id ∈ g.ids :=
  List.mem_append_left _
    (List.mem_flatMap.2 ⟨e, h, List.mem_cons_of_mem _ (List.mem_map_of_mem ha)⟩)

theorem Relationship.attribute_mem_ids {g : ChenGraph} {r : Relationship}
    (h : r ∈ g.relationships) {a : Attribute} (ha : a ∈ r.attributes) : a.id ∈ g.ids :=
  List.mem_append_right _
    (List.mem_flatMap.2 ⟨r, h, List.mem_cons_of_mem _ (List.mem_map_of_mem ha)⟩)

/-! ### What a part shows -/

/-- `a` shows the column `c` of `t`. -/
structure ShowsColumn (t : Table) (c : Column) (a : Attribute) : Prop where
  name : a.name = c.name
  isPrimary : a.isPrimary = true ↔ c.name ∈ t.primaryKeys

/-- `e` shows `t` with all its columns. -/
structure ShowsTable (t : Table) (e : Entity) : Prop where
  name : e.name = t.name
  attributes : List.Forall₂ (ShowsColumn t) t.columns e.attributes

/-- `r` shows a foreign key, with the name and the ends of `link`. -/
structure ShowsLink (link : Text × List Endpoint) (r : Relationship) : Prop where
  name : r.name = link.1
  endpoints : r.endpoints = link.2
  attributes : r.attributes = []
  origin : r.origin = .foreignKey

/-- The ends of the relationship that shows a linking table: the parents that
    are entities. -/
def parentEndpoints (entities : List Entity) (t : Table) : List Endpoint :=
  t.foreignKeys.filterMap (parentEndpoint? entities t)

/-- `r` shows the linking table `t`. -/
structure ShowsAssociation (entities : List Entity) (t : Table) (r : Relationship) : Prop where
  name : r.name = t.name
  endpoints : r.endpoints = parentEndpoints entities t
  attributes : List.Forall₂ (ShowsColumn t) (ownColumns t) r.attributes
  origin : r.origin = .associative

/-- Whether enough parents of a linking table are entities. -/
def isConnected (entities : List Entity) (t : Table) : Bool :=
  2 ≤ (parentEndpoints entities t).length

/-- The tables that are no linking tables. -/
def plainTables (tables : List Table) : List Table := tables.filter fun t => !isLinking tables t

/-- `g` shows `tables`, each part of it exactly what it has to show. -/
structure Depicts (tables : List Table) (g : ChenGraph) : Prop where
  entities : List.Forall₂ ShowsTable (plainTables tables) g.entities
  links : List.Forall₂ ShowsLink ((plainTables tables).flatMap (links g.entities))
    (g.relationships.filter (·.origin = .foreignKey))
  associations : List.Forall₂ (ShowsAssociation g.entities)
    ((tables.filter (isLinking tables)).filter (isConnected g.entities))
    (g.relationships.filter (·.origin = .associative))

/-! ### Building the parts -/

theorem yields_columnAttribute {kind : Text} (h : isIdentifier kind = true) (t : Table)
    (c : Column) :
    Yields (columnAttribute kind t c) fun a handedOut =>
      ShowsColumn t c a ∧ Issued [a.id] handedOut := by
  refine (yields_claimNodeId h _).bind fun id handedOut hid => .pure ⟨⟨rfl, ?_⟩, ?_⟩
  · exact Table.isPrimary_iff
  · rwa [List.append_nil]

theorem yields_columnAttributes {kind : Text} (h : isIdentifier kind = true) (t : Table)
    (cs : List Column) :
    Yields (cs.mapM (columnAttribute kind t)) fun attributes handedOut =>
      List.Forall₂ (ShowsColumn t) cs attributes ∧ Issued (attributes.map (·.id)) handedOut := by
  refine (Yields.mapM (yields_columnAttribute h t) cs).mono fun attributes handedOut ha => ?_
  have hids : attributes.flatMap (fun a => [a.id]) = attributes.map (·.id) :=
    List.flatMap_pure_eq_map _ _
  exact hids ▸ ha

theorem yields_tableEntity (t : Table) :
    Yields (tableEntity t) fun e handedOut => ShowsTable t e ∧ Issued e.ids handedOut := by
  refine (yields_claimNodeId (by decide) _).bind fun id first hid => ?_
  refine (yields_columnAttributes (by decide) t t.columns).bind fun attributes second ha => ?_
  refine .pure ⟨⟨rfl, ha.1⟩, ?_⟩
  rw [List.append_nil]
  exact hid.append ha.2

theorem yields_keyRelationship (link : Text × List Endpoint) :
    Yields (keyRelationship link.1 link.2) fun r handedOut =>
      ShowsLink link r ∧ Issued r.ids handedOut := by
  refine (yields_claimNodeId (by decide) _).bind fun id handedOut hid => ?_
  refine .pure ⟨⟨rfl, rfl, rfl, rfl⟩, ?_⟩
  rwa [List.append_nil]

/-- The relationship that shows a linking table, if it is connected. -/
structure ShowsConnected (entities : List Entity) (t : Table) (shown : Option Relationship) :
    Prop where
  isSome : shown.isSome = isConnected entities t
  shows : ∀ r ∈ shown, ShowsAssociation entities t r

theorem yields_association? (entities : List Entity) (t : Table) :
    Yields (association? entities t) fun shown handedOut =>
      ShowsConnected entities t shown ∧
        Issued (shown.toList.flatMap Relationship.ids) handedOut := by
  refine (yields_claimNodeId (by decide) _).bind fun id first hid => ?_
  refine (yields_columnAttributes (by decide) t (ownColumns t)).bind fun attributes second ha => ?_
  refine .pure ?_
  rw [List.append_nil]
  have hissued := hid.append ha.2
  by_cases hends : (parentEndpoints entities t).length < 2
  · -- the relationship is left out, but its identifiers are used up
    have hno : isConnected entities t = false := decide_eq_false (Nat.not_le_of_lt hends)
    simp only [parentEndpoints] at hends
    rw [if_pos hends]
    exact ⟨⟨hno.symm, by simp⟩, hissued.unused⟩
  · have hyes : isConnected entities t = true := decide_eq_true (Nat.le_of_not_lt hends)
    simp only [parentEndpoints] at hends
    rw [if_neg hends]
    refine ⟨⟨hyes.symm, ?_⟩, ?_⟩
    · rintro r hr
      obtain rfl := Option.some.inj hr
      exact ⟨rfl, rfl, ha.1, rfl⟩
    · simpa [Relationship.ids] using hissued

/-! ### The whole graph -/

/-- The relationships of connected linking tables are those that are there. -/
theorem forall₂_filterMap_shown {entities : List Entity} {tables : List Table}
    {shown : List (Option Relationship)}
    (h : List.Forall₂ (ShowsConnected entities) tables shown) :
    List.Forall₂ (ShowsAssociation entities) (tables.filter (isConnected entities))
      (shown.filterMap id) := by
  induction h with
  | nil => exact .nil
  | @cons t o tables shown ho _ ih =>
    cases o with
    | none =>
      have hno : isConnected entities t = false := ho.isSome.symm
      rw [List.filter_cons_of_neg (by simp [hno])]
      exact ih
    | some r =>
      have hyes : isConnected entities t = true := ho.isSome.symm
      rw [List.filter_cons_of_pos hyes]
      exact .cons (ho.shows r rfl) ih

/-- What was made from foreign keys and what from linking tables can be told
    apart. -/
theorem filter_origin_append {links associations : List Relationship}
    (hl : ∀ r ∈ links, r.origin = .foreignKey) (ha : ∀ r ∈ associations, r.origin = .associative) :
    (links ++ associations).filter (·.origin = .foreignKey) = links ∧
      (links ++ associations).filter (·.origin = .associative) = associations := by
  constructor
  · rw [List.filter_append, List.filter_eq_self.2 (by simpa using hl),
      List.filter_eq_nil_iff.2 (by simp +contextual [ha]), List.append_nil]
  · rw [List.filter_append, List.filter_eq_nil_iff.2 (by simp +contextual [hl]),
      List.filter_eq_self.2 (by simpa using ha), List.nil_append]

/-- **Building a graph** gives one that shows the tables, and hands out the
    identifiers in it. -/
theorem yields_build (tables : List Table) :
    Yields (build tables) fun g handedOut => Depicts tables g ∧ Issued g.ids handedOut := by
  refine (Yields.mapM yields_tableEntity _).bind fun entities first hentities => ?_
  refine (Yields.mapM yields_keyRelationship _).bind fun links second hlinks => ?_
  refine (Yields.mapM (yields_association? entities) _).bind fun shown third hshown => ?_
  have hassociations := forall₂_filterMap_shown hshown.1
  have horigin : (∀ r ∈ links, r.origin = .foreignKey) ∧
      ∀ r ∈ shown.filterMap id, r.origin = .associative := by
    constructor
    · intro r hr
      obtain ⟨_, _, hlink⟩ := exists_left_of_mem hlinks.1 hr
      exact hlink.origin
    · intro r hr
      obtain ⟨_, _, hassociation⟩ := exists_left_of_mem hassociations hr
      exact hassociation.origin
  have hfilter := filter_origin_append horigin.1 horigin.2
  refine .pure ⟨⟨hentities.1, ?_, ?_⟩, ?_⟩
  · rw [hfilter.1]
    exact hlinks.1
  · rw [hfilter.2]
    exact hassociations
  · have hids : (shown.filterMap id).flatMap Relationship.ids =
        shown.flatMap fun o => o.toList.flatMap Relationship.ids := by
      rw [List.filterMap_eq_flatMap_toList, List.flatMap_assoc]
      rfl
    show Issued (entities.flatMap Entity.ids ++ (links ++ shown.filterMap id).flatMap _) _
    rw [List.append_nil, List.flatMap_append, hids, ← List.append_assoc,
      ← List.append_assoc first]
    exact (hentities.2.append hlinks.2).append hshown.2

/-- **The graph of some tables shows them.** -/
theorem depicts_ofTables (tables : List Table) : Depicts tables (ofTables tables) := by
  obtain ⟨_, _, hdepicts, _⟩ := (yields_build tables).eval
  exact hdepicts

theorem nodup_ids_ofTables (tables : List Table) : (ofTables tables).ids.Nodup := by
  obtain ⟨_, hnodup, _, hissued⟩ := (yields_build tables).eval
  exact hnodup.sublist hissued.sublist

theorem isIdentifier_of_mem_ids {tables : List Table} {id : Text}
    (h : id ∈ (ofTables tables).ids) : isIdentifier id = true := by
  obtain ⟨_, _, _, hissued⟩ := (yields_build tables).eval
  exact hissued.isIdentifier id (hissued.sublist.subset h)

/-! ### Endpoints -/

theorem exists_entity_of_entityId? {entities : List Entity} {name id : Text}
    (h : entityId? entities name = some id) : ∃ e ∈ entities, e.name = name ∧ e.id = id := by
  obtain ⟨e, he, rfl⟩ := Option.map_eq_some_iff.1 h
  exact ⟨e, List.mem_reverse.1 (List.mem_of_find?_eq_some he), by simpa using List.find?_some he,
    rfl⟩

/-- The foreign key behind a relationship. -/
theorem exists_link {tables : List Table} {g : ChenGraph} (h : Depicts tables g)
    {r : Relationship} (hr : r ∈ g.relationships) (horigin : r.origin = .foreignKey) :
    ∃ t ∈ plainTables tables, ∃ link ∈ links g.entities t, ShowsLink link r := by
  obtain ⟨link, hlink, hshows⟩ :=
    exists_left_of_mem h.links (List.mem_filter.2 ⟨hr, decide_eq_true horigin⟩)
  obtain ⟨t, ht, hlink⟩ := List.mem_flatMap.1 hlink
  exact ⟨t, ht, link, hlink, hshows⟩

/-- A link shows a foreign key whose parent and child are entities. -/
theorem mem_links {entities : List Entity} {t : Table} {link : Text × List Endpoint}
    (h : link ∈ links entities t) :
    ∃ key ∈ t.foreignKeys, ∃ index parent child, entityId? entities key.refTable = some parent ∧
      entityId? entities t.name = some child ∧
      link = (relationshipName t key index, [⟨parent, .one⟩, ⟨child, cardinalityOf t key⟩]) := by
  obtain ⟨⟨key, index⟩, hkey, hlink⟩ := List.mem_filterMap.1 h
  simp only [Option.bind_eq_bind, Option.bind_eq_some_iff, Option.some.injEq] at hlink
  obtain ⟨parent, hparent, child, hchild, hlink⟩ := hlink
  exact ⟨key, List.fst_mem_of_mem_zipIdx hkey, index, parent, child, hparent, hchild, hlink.symm⟩

/-- The ends of a link lead to entities. -/
theorem exists_entity_of_mem_links {entities : List Entity} {t : Table}
    {link : Text × List Endpoint} (h : link ∈ links entities t) :
    ∀ endpoint ∈ link.2, ∃ e ∈ entities, e.id = endpoint.entityId := by
  obtain ⟨key, _, index, parent, child, hparent, hchild, rfl⟩ := mem_links h
  intro endpoint hmem
  rcases List.mem_cons.1 hmem with rfl | hmem
  · obtain ⟨e, he, _, hid⟩ := exists_entity_of_entityId? hparent
    exact ⟨e, he, hid⟩
  · obtain rfl := List.mem_singleton.1 hmem
    obtain ⟨e, he, _, hid⟩ := exists_entity_of_entityId? hchild
    exact ⟨e, he, hid⟩

theorem exists_entity_of_mem_parentEndpoints {entities : List Entity} {t : Table} :
    ∀ endpoint ∈ parentEndpoints entities t, ∃ e ∈ entities, e.id = endpoint.entityId := by
  intro endpoint hmem
  obtain ⟨key, _, hkey⟩ := List.mem_filterMap.1 hmem
  obtain ⟨parent, hparent, rfl⟩ := Option.map_eq_some_iff.1 hkey
  obtain ⟨e, he, _, hid⟩ := exists_entity_of_entityId? hparent
  exact ⟨e, he, hid⟩

/-- **Endpoints lead to entities** of the same graph. -/
theorem exists_entity_of_endpoint {tables : List Table} {g : ChenGraph} (h : Depicts tables g)
    {r : Relationship} (hr : r ∈ g.relationships) :
    ∀ endpoint ∈ r.endpoints, ∃ e ∈ g.entities, e.id = endpoint.entityId := by
  cases horigin : r.origin with
  | foreignKey =>
    obtain ⟨t, _, link, hlink, hshows⟩ := exists_link h hr horigin
    exact hshows.endpoints ▸ exists_entity_of_mem_links hlink
  | associative =>
    obtain ⟨t, _, hshows⟩ :=
      exists_left_of_mem h.associations (List.mem_filter.2 ⟨hr, decide_eq_true horigin⟩)
    exact hshows.endpoints ▸ exists_entity_of_mem_parentEndpoints

/-- **Identifiers are unique and endpoints lead to entities**, whatever the
    tables are: they may share names, have none, or refer to nothing. -/
theorem ofTables_wellReferenced (tables : List Table) :
    (ofTables tables).ids.Nodup ∧
      (∀ id ∈ (ofTables tables).ids, isIdentifier id = true) ∧
      ∀ r ∈ (ofTables tables).relationships, ∀ endpoint ∈ r.endpoints,
        ∃ e ∈ (ofTables tables).entities, e.id = endpoint.entityId :=
  ⟨nodup_ids_ofTables tables, fun _ h => isIdentifier_of_mem_ids h,
    fun _ h => exists_entity_of_endpoint (depicts_ofTables tables) h⟩

end SchemaDiagram.ChenGraph
