import SchemaDiagram.Proofs.FigureText
import SchemaDiagram.Proofs.GraphParts

/-! # Drawing — a graph from the figures of its drawing

    A drawing shows attributes and edges one by one; which node they belong
    to is said by identifiers alone.  As no two nodes share an identifier,
    gathering the figures that speak of a node gives back the node.

      * `Readable`                — the graphs whose drawings can be read
      * `ofFigures`               — the graph that some figures draw
      * `ofFigures_figures`       — drawing and reading gives the same graph
      * `render_inj`              — readable graphs with the same text are equal
      * `readable_ofTables`       — the graph of any tables is readable
      * `render_ofTables_eq_iff`  — graphs of tables are equal just when their
                                    texts are -/

namespace SchemaDiagram.ChenGraph

/-- A graph whose drawing can be read. -/
structure Readable (g : ChenGraph) : Prop where
  nodup_ids : g.ids.Nodup
  isIdentifier : ∀ id ∈ g.ids, isIdentifier id = true
  /-- endpoints lead to entities of the graph -/
  endpoints : ∀ r ∈ g.relationships, ∀ endpoint ∈ r.endpoints,
    ∃ e ∈ g.entities, e.id = endpoint.entityId
  /-- the direction of an edge tells the child from the parent -/
  twoEnds : ∀ r ∈ g.relationships, r.origin = .foreignKey →
    ∃ parent child, r.endpoints = [parent, child]

/-! ### Nodes -/

/-- The nodes of a graph, with their attributes. -/
def nodes (g : ChenGraph) : List (Text × List Attribute) :=
  g.entities.map (fun e => (e.id, e.attributes))
    ++ g.relationships.map fun r => (r.id, r.attributes)

section Readable

variable {g : ChenGraph} (h : g.Readable)
include h

theorem nodup_nodes : (g.nodes.map (·.1)).Nodup := by
  refine h.nodup_ids.sublist ?_
  rw [nodes, List.map_append, List.map_map, List.map_map]
  exact (map_sublist_flatMap Entity.id _ _).append (map_sublist_flatMap Relationship.id _ _)

theorem nodup_relationships : (g.relationships.map (·.id)).Nodup := by
  refine h.nodup_ids.sublist ?_
  exact (map_sublist_flatMap Relationship.id _ _).trans (List.sublist_append_right _ _)

/-- No entity is called like a relationship. -/
theorem endpoint_ne {q r : Relationship} (hq : q ∈ g.relationships) (hr : r ∈ g.relationships)
    {endpoint : Endpoint} (hend : endpoint ∈ r.endpoints) : endpoint.entityId ≠ q.id := by
  obtain ⟨e, he, hid⟩ := h.endpoints r hr endpoint hend
  have hentity : e.id ∈ g.entities.flatMap Entity.ids :=
    List.mem_flatMap.2 ⟨e, he, List.mem_cons_self⟩
  have hrelationship : q.id ∈ g.relationships.flatMap Relationship.ids :=
    List.mem_flatMap.2 ⟨q, hq, List.mem_cons_self⟩
  exact hid ▸ (List.nodup_append.1 h.nodup_ids).2.2 _ hentity _ hrelationship

end Readable

/-! ### Reading a drawing -/

/-- The attribute that a figure shows, if it belongs to the node `owner`. -/
def Figure.attributeOf? (owner : Text) : Figure → Option Attribute
  | .oval node a => if node = owner then some a else none
  | _ => none

/-- Whether a figure is an edge at the node `id`. -/
def Figure.isEdgeAt (id : Text) : Figure → Bool
  | .edge first _ second => first = id || second = id
  | _ => false

/-- Whether a figure is an edge that runs from the node `id`. -/
def Figure.isEdgeFrom (id : Text) : Figure → Bool
  | .edge first _ _ => first = id
  | _ => false

/-- The other end of an edge at the node `id`. -/
def Figure.farEnd? (id : Text) : Figure → Option Endpoint
  | .edge first cardinality second => some ⟨if first = id then second else first, cardinality⟩
  | _ => none

/-- The attributes of a node. -/
def attributesOf (owner : Text) (figures : List Figure) : List Attribute :=
  figures.filterMap (Figure.attributeOf? owner)

/-- The entity that a figure shows. -/
def entityOf? (figures : List Figure) : Figure → Option Entity
  | .box id name => some ⟨id, name, attributesOf id figures⟩
  | _ => none

/-- What a relationship was made from: only foreign keys have an edge that
    runs from the relationship. -/
def originOf (id : Text) (edges : List Figure) : Origin :=
  if edges.any (Figure.isEdgeFrom id) then .foreignKey else .associative

/-- The relationship that a figure shows. -/
def relationshipOf? (figures : List Figure) : Figure → Option Relationship
  | .rhomb id name =>
    let edges := figures.filter (Figure.isEdgeAt id)
    some
      { id, name
        endpoints := edges.filterMap (Figure.farEnd? id)
        attributes := attributesOf id figures
        origin := originOf id edges }
  | _ => none

/-- The graph that some figures draw. -/
def ofFigures (figures : List Figure) : ChenGraph where
  entities := figures.filterMap (entityOf? figures)
  relationships := figures.filterMap (relationshipOf? figures)

/-! ### The figures of a node -/

/-- Each edge of a relationship joins it to one of its ends. -/
theorem exists_endpoint_of_mem_edges {r : Relationship} {f : Figure} (h : f ∈ r.edges) :
    ∃ endpoint ∈ r.endpoints, f = .edge endpoint.entityId endpoint.cardinality r.id ∨
      f = .edge r.id endpoint.cardinality endpoint.entityId := by
  unfold Relationship.edges at h
  split at h
  · next parent child _ hends =>
    rw [hends]
    rcases List.mem_cons.1 h with rfl | h
    · exact ⟨parent, by simp, Or.inl rfl⟩
    · obtain rfl := List.mem_singleton.1 h
      exact ⟨child, by simp, Or.inr rfl⟩
  · obtain ⟨endpoint, hend, rfl⟩ := List.mem_map.1 h
    exact ⟨endpoint, hend, Or.inl rfl⟩

theorem edges_of_foreignKey {r : Relationship} (horigin : r.origin = .foreignKey)
    {parent child : Endpoint} (hends : r.endpoints = [parent, child]) :
    r.edges = [.edge parent.entityId parent.cardinality r.id,
      .edge r.id child.cardinality child.entityId] := by
  simp only [Relationship.edges, horigin, hends]

theorem edges_of_associative {r : Relationship} (horigin : r.origin = .associative) :
    r.edges = r.endpoints.map fun e => .edge e.entityId e.cardinality r.id := by
  simp only [Relationship.edges, horigin]

/-- What is read from the edges of a relationship, when only other figures
    are read. -/
theorem filterMap_edges {β : Type} {read : Figure → Option β}
    (hread : ∀ first cardinality second, read (.edge first cardinality second) = none)
    (r : Relationship) : r.edges.filterMap read = [] := by
  refine List.filterMap_eq_nil_iff.2 fun f hf => ?_
  obtain ⟨endpoint, _, rfl | rfl⟩ := exists_endpoint_of_mem_edges hf
  · exact hread _ _ _
  · exact hread _ _ _

/-- What is read from a drawing is what is read from its entities, its
    attributes and its relationships. -/
theorem filterMap_figures {β : Type} (read : Figure → Option β) (g : ChenGraph) :
    g.figures.filterMap read =
      g.entities.filterMap (fun e => read (.box e.id e.name))
        ++ (g.entities.flatMap fun e => e.attributes.filterMap fun a => read (.oval e.id a))
        ++ g.relationships.flatMap fun r => r.figures.filterMap read := by
  simp only [figures, List.filterMap_append, List.filterMap_map, List.filterMap_flatMap,
    Function.comp_def]

/-- The ovals of a node belong to that node only. -/
theorem filterMap_attributeOf? (owner id : Text) (attributes : List Attribute) :
    attributes.filterMap (fun a => Figure.attributeOf? owner (.oval id a)) =
      if id = owner then attributes else [] := by
  split
  · next h => simp [Figure.attributeOf?, h]
  · next h => simp [Figure.attributeOf?, h]

/-- The ovals of `owner` in a drawing are the attributes of all nodes that are
    called so. -/
theorem attributesOf_figures (owner : Text) (g : ChenGraph) :
    attributesOf owner g.figures =
      g.nodes.flatMap fun node => if node.1 = owner then node.2 else [] := by
  have hboxes : g.entities.filterMap (fun e => Figure.attributeOf? owner (.box e.id e.name)) =
      [] :=
    List.filterMap_eq_nil_iff.2 fun _ _ => rfl
  have hfigures : ∀ r : Relationship, r.figures.filterMap (Figure.attributeOf? owner) =
      if r.id = owner then r.attributes else [] := by
    intro r
    rw [Relationship.figures, List.filterMap_cons_none rfl, List.filterMap_append,
      filterMap_edges (fun _ _ _ => rfl), List.nil_append, List.filterMap_map]
    exact filterMap_attributeOf? owner r.id r.attributes
  rw [attributesOf, filterMap_figures, hboxes, List.nil_append, nodes, List.flatMap_append,
    List.flatMap_map, List.flatMap_map]
  simp only [filterMap_attributeOf?, hfigures]

theorem filter_ovals (id owner : Text) (attributes : List Attribute) :
    (attributes.map (.oval owner)).filter (Figure.isEdgeAt id) = [] := by
  refine List.filter_eq_nil_iff.2 fun f hf => ?_
  obtain ⟨a, _, rfl⟩ := List.mem_map.1 hf
  exact Bool.false_ne_true

section Readable

variable {g : ChenGraph} (h : g.Readable)
include h

theorem attributesOf_entity {e : Entity} (he : e ∈ g.entities) :
    attributesOf e.id g.figures = e.attributes := by
  have hnode : (e.id, e.attributes) ∈ g.nodes :=
    List.mem_append_left _ (List.mem_map_of_mem he)
  rw [attributesOf_figures]
  exact gather (nodup_nodes h) hnode

theorem attributesOf_relationship {r : Relationship} (hr : r ∈ g.relationships) :
    attributesOf r.id g.figures = r.attributes := by
  have hnode : (r.id, r.attributes) ∈ g.nodes :=
    List.mem_append_right _ (List.mem_map_of_mem hr)
  rw [attributesOf_figures]
  exact gather (nodup_nodes h) hnode

/-- The edges of one relationship are no edges at another. -/
theorem filter_edges {q r : Relationship} (hq : q ∈ g.relationships) (hr : r ∈ g.relationships) :
    r.edges.filter (Figure.isEdgeAt q.id) = if r.id = q.id then r.edges else [] := by
  have hat : ∀ f ∈ r.edges, Figure.isEdgeAt q.id f = decide (r.id = q.id) := by
    intro f hf
    obtain ⟨endpoint, hend, rfl | rfl⟩ := exists_endpoint_of_mem_edges hf
    · simp [Figure.isEdgeAt, endpoint_ne h hq hr hend]
    · simp [Figure.isEdgeAt, endpoint_ne h hq hr hend]
  rw [List.filter_congr hat]
  split
  · next he => simp [he]
  · next he => simp [he]

theorem filter_figures {q : Relationship} (hq : q ∈ g.relationships) :
    g.figures.filter (Figure.isEdgeAt q.id) = q.edges := by
  have hboxes : (g.entities.map fun e => Figure.box e.id e.name).filter (Figure.isEdgeAt q.id) =
      [] := by
    simp [Figure.isEdgeAt]
  have hovals : (g.entities.flatMap fun e => e.attributes.map (.oval e.id)).filter
      (Figure.isEdgeAt q.id) = [] := by
    rw [List.filter_flatMap]
    exact List.flatMap_eq_nil_iff.2 fun e _ => filter_ovals q.id e.id e.attributes
  have hfigures : ∀ r ∈ g.relationships, r.figures.filter (Figure.isEdgeAt q.id) =
      if r.id = q.id then r.edges else [] := by
    intro r hr
    rw [Relationship.figures, List.filter_cons_of_neg (by simp [Figure.isEdgeAt]),
      List.filter_append, filter_edges h hq hr, filter_ovals, List.append_nil]
  rw [figures, List.filter_append, List.filter_append, hboxes, hovals, List.filter_flatMap,
    List.nil_append, List.nil_append]
  exact (List.flatMap_congr hfigures).trans (gather (nodup_relationships h) hq)

/-- The edges of a relationship lead to its ends. -/
theorem filterMap_farEnd? {r : Relationship} (hr : r ∈ g.relationships) :
    r.edges.filterMap (Figure.farEnd? r.id) = r.endpoints := by
  cases horigin : r.origin with
  | foreignKey =>
    obtain ⟨parent, child, hends⟩ := h.twoEnds r hr horigin
    have hparent : parent.entityId ≠ r.id := endpoint_ne h hr hr (by simp [hends])
    rw [edges_of_foreignKey horigin hends, hends]
    simp [Figure.farEnd?, hparent]
  | associative =>
    have hfar : ∀ endpoint ∈ r.endpoints, Figure.farEnd? r.id
        (.edge endpoint.entityId endpoint.cardinality r.id) = some endpoint := by
      intro endpoint hend
      simp [Figure.farEnd?, endpoint_ne h hr hr hend]
    rw [edges_of_associative horigin, List.filterMap_map]
    exact (List.filterMap_congr hfar).trans List.filterMap_some

/-- The direction of its edges tells what a relationship was made from. -/
theorem originOf_edges {r : Relationship} (hr : r ∈ g.relationships) :
    originOf r.id r.edges = r.origin := by
  cases horigin : r.origin with
  | foreignKey =>
    obtain ⟨parent, child, hends⟩ := h.twoEnds r hr horigin
    rw [edges_of_foreignKey horigin hends]
    simp [originOf, Figure.isEdgeFrom]
  | associative =>
    have hfrom : ∀ endpoint ∈ r.endpoints, endpoint.entityId ≠ r.id :=
      fun endpoint hend => endpoint_ne h hr hr hend
    rw [edges_of_associative horigin]
    simpa [originOf, Figure.isEdgeFrom] using hfrom

/-! ### Drawing and reading -/

theorem entityOf?_box {e : Entity} (he : e ∈ g.entities) :
    entityOf? g.figures (.box e.id e.name) = some e := by
  rw [entityOf?, attributesOf_entity h he]

theorem relationshipOf?_rhomb {r : Relationship} (hr : r ∈ g.relationships) :
    relationshipOf? g.figures (.rhomb r.id r.name) = some r := by
  simp only [relationshipOf?, filter_figures h hr, filterMap_farEnd? h hr, originOf_edges h hr,
    attributesOf_relationship h hr]

theorem filterMap_entityOf? : g.figures.filterMap (entityOf? g.figures) = g.entities := by
  have hboxes : g.entities.filterMap (fun e => entityOf? g.figures (.box e.id e.name)) =
      g.entities :=
    (List.filterMap_congr fun e he => entityOf?_box h he).trans List.filterMap_some
  have hfigures : ∀ r : Relationship, r.figures.filterMap (entityOf? g.figures) = [] := by
    intro r
    rw [Relationship.figures, List.filterMap_cons_none rfl, List.filterMap_append,
      filterMap_edges (fun _ _ _ => rfl), List.nil_append, List.filterMap_map]
    exact List.filterMap_eq_nil_iff.2 fun _ _ => rfl
  rw [filterMap_figures, hboxes]
  simp [entityOf?, hfigures]

theorem filterMap_relationshipOf? :
    g.figures.filterMap (relationshipOf? g.figures) = g.relationships := by
  have hfigures : ∀ r ∈ g.relationships,
      r.figures.filterMap (relationshipOf? g.figures) = [r] := by
    intro r hr
    have hovals : (r.attributes.map (.oval r.id)).filterMap (relationshipOf? g.figures) = [] := by
      rw [List.filterMap_map]
      exact List.filterMap_eq_nil_iff.2 fun _ _ => rfl
    rw [Relationship.figures, List.filterMap_cons_some (relationshipOf?_rhomb h hr),
      List.filterMap_append, filterMap_edges (fun _ _ _ => rfl), hovals]
    rfl
  have hboxes : g.entities.filterMap (fun e => relationshipOf? g.figures (.box e.id e.name)) = [] :=
    List.filterMap_eq_nil_iff.2 fun _ _ => rfl
  have hovals : (g.entities.flatMap fun e => e.attributes.filterMap fun a =>
      relationshipOf? g.figures (.oval e.id a)) = [] :=
    List.flatMap_eq_nil_iff.2 fun _ _ => List.filterMap_eq_nil_iff.2 fun _ _ => rfl
  rw [filterMap_figures, hboxes, hovals, List.flatMap_congr hfigures]
  simp

/-- **Drawing and reading** gives the same graph. -/
theorem ofFigures_figures : ofFigures g.figures = g := by
  rw [ofFigures, filterMap_entityOf? h, filterMap_relationshipOf? h]

theorem isIdentifier_of_endpoint {r : Relationship} (hr : r ∈ g.relationships) {endpoint : Endpoint}
    (hend : endpoint ∈ r.endpoints) : isIdentifier endpoint.entityId = true := by
  obtain ⟨e, he, hid⟩ := h.endpoints r hr endpoint hend
  exact hid ▸ h.isIdentifier _ (Entity.id_mem_ids he)

theorem proper_of_mem_figures : ∀ f ∈ g.figures, f.Proper := by
  intro f hf
  rcases List.mem_append.1 hf with hf | hf
  · rcases List.mem_append.1 hf with hf | hf
    · obtain ⟨e, he, rfl⟩ := List.mem_map.1 hf
      exact h.isIdentifier _ (Entity.id_mem_ids he)
    · obtain ⟨e, he, hf⟩ := List.mem_flatMap.1 hf
      obtain ⟨a, ha, rfl⟩ := List.mem_map.1 hf
      exact ⟨h.isIdentifier _ (Entity.id_mem_ids he),
        h.isIdentifier _ (Entity.attribute_mem_ids he ha)⟩
  · obtain ⟨r, hr, hf⟩ := List.mem_flatMap.1 hf
    have hid := h.isIdentifier _ (Relationship.id_mem_ids hr)
    rcases List.mem_cons.1 hf with rfl | hf
    · exact hid
    · rcases List.mem_append.1 hf with hf | hf
      · obtain ⟨endpoint, hend, rfl | rfl⟩ := exists_endpoint_of_mem_edges hf
        · exact ⟨isIdentifier_of_endpoint h hr hend, hid⟩
        · exact ⟨hid, isIdentifier_of_endpoint h hr hend⟩
      · obtain ⟨a, ha, rfl⟩ := List.mem_map.1 hf
        exact ⟨hid, h.isIdentifier _ (Relationship.attribute_mem_ids hr ha)⟩

end Readable

/-- **Readable graphs with the same text are equal.** -/
theorem render_inj {g g' : ChenGraph} (h : g.Readable) (h' : g'.Readable)
    (htext : g.render = g'.render) : g = g' := by
  rw [render_eq, render_eq] at htext
  have hfigures : g.figures = g'.figures :=
    Figure.flatMap_text_inj (proper_of_mem_figures h) (proper_of_mem_figures h')
      (List.append_cancel_left htext)
  calc g = ofFigures g.figures := (ofFigures_figures h).symm
    _ = ofFigures g'.figures := by rw [hfigures]
    _ = g' := ofFigures_figures h'

/-! ### Graphs of tables -/

/-- **The graph of any tables is readable.** -/
theorem readable_ofTables (tables : List Table) : (ofTables tables).Readable where
  nodup_ids := nodup_ids_ofTables tables
  isIdentifier := fun _ hid => isIdentifier_of_mem_ids hid
  endpoints := fun _ hr => exists_entity_of_endpoint (depicts_ofTables tables) hr
  twoEnds := fun r hr horigin => by
    obtain ⟨t, _, link, hlink, hshows⟩ := exists_link (depicts_ofTables tables) hr horigin
    obtain ⟨key, _, index, parent, child, _, _, rfl⟩ := mem_links hlink
    exact ⟨_, _, hshows.endpoints⟩

/-- **Nothing is lost in a drawing**: graphs of tables are equal just when
    their texts are, whatever the names in the tables hold. -/
theorem render_ofTables_eq_iff (tables tables' : List Table) :
    (ofTables tables).render = (ofTables tables').render ↔ ofTables tables = ofTables tables' :=
  ⟨render_inj (readable_ofTables tables) (readable_ofTables tables'), fun h => by rw [h]⟩

end SchemaDiagram.ChenGraph
