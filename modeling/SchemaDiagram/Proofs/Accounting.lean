import SchemaDiagram.Proofs.GraphParts

/-! # Accounting — what becomes of each table in a Chen graph

    When no two tables share a name, each table is an entity, or a
    relationship between two entities, or not in the graph at all, and the
    graph holds nothing else.

      * `refersToLinking`            — a table that refers to a linking table
      * `joinsEntities`              — a linking table between two entities
      * `exists_entity_iff`          — the names of entities
      * `isSome_entityId?_eq`        — the look-up that finds them
      * `JoinsParents`, `JoinsChild` — the two kinds of relationships
      * `forall₂_associations`       — the linking tables that are shown
      * `missing_iff`                — the tables that are not shown
      * `ofTables_accounts`          — the account of a whole graph -/

namespace SchemaDiagram.ChenGraph

/-! ### Linking tables -/

/-- Whether `t` refers to a table that only links others. -/
def refersToLinking (tables : List Table) (t : Table) : Bool :=
  t.foreignKeys.any fun key => key.refTable ∈ associativeTables tables

/-- Whether `t` only links two tables, neither of which is a linking table
    itself. -/
def joinsEntities (tables : List Table) (t : Table) : Bool :=
  t.isAssociative (tableNames tables) && !refersToLinking tables t

section Distinct

variable {tables : List Table} (hnames : (tableNames tables).Nodup)
include hnames

theorem eq_of_name_eq {t u : Table} (ht : t ∈ tables) (hu : u ∈ tables) (h : t.name = u.name) :
    t = u :=
  List.inj_on_of_nodup_map hnames ht hu h

/-- Names tell linking tables from others. -/
theorem name_mem_associativeTables {t : Table} (ht : t ∈ tables) :
    t.name ∈ associativeTables tables ↔ t.isAssociative (tableNames tables) = true := by
  rw [mem_associativeTables]
  constructor
  · rintro ⟨u, hu, hlinking, hname⟩
    rwa [← eq_of_name_eq hnames hu ht hname]
  · intro hlinking
    exact ⟨t, ht, hlinking, rfl⟩

theorem isLinking_eq {t : Table} (ht : t ∈ tables) :
    isLinking tables t = t.isAssociative (tableNames tables) := by
  rw [Bool.eq_iff_iff, isLinking, decide_eq_true_iff, name_mem_associativeTables hnames ht]

theorem plainTables_eq :
    plainTables tables = tables.filter fun t => !t.isAssociative (tableNames tables) :=
  List.filter_congr fun _ ht => by rw [isLinking_eq hnames ht]

end Distinct

/-! ### The names of entities -/

theorem isSome_entityId?_iff {entities : List Entity} {name : Text} :
    (entityId? entities name).isSome = true ↔ ∃ e ∈ entities, e.name = name := by
  simp [entityId?]

theorem parentEndpoints_eq {entities : List Entity} {t : Table} {first second : ForeignKey}
    (hkeys : t.foreignKeys = [first, second]) :
    parentEndpoints entities t = (parentEndpoint? entities t first).toList
      ++ (parentEndpoint? entities t second).toList := by
  rw [parentEndpoints, hkeys, List.filterMap_eq_flatMap_toList]
  simp

section Depicts

variable {tables : List Table} {g : ChenGraph} (h : Depicts tables g)
include h

/-- **The names of entities** are those of tables that are no linking tables. -/
theorem exists_entity_iff {name : Text} :
    (∃ e ∈ g.entities, e.name = name) ↔
      name ∈ tableNames tables ∧ name ∉ associativeTables tables := by
  constructor
  · rintro ⟨e, he, rfl⟩
    obtain ⟨t, ht, hshows⟩ := exists_left_of_mem h.entities he
    obtain ⟨ht, hplain⟩ := List.mem_filter.1 ht
    rw [hshows.name]
    exact ⟨List.mem_map_of_mem ht, by simpa [isLinking] using hplain⟩
  · rintro ⟨hname, hplain⟩
    obtain ⟨t, ht, rfl⟩ := mem_tableNames.1 hname
    obtain ⟨e, he, hshows⟩ := exists_right_of_mem h.entities
      (List.mem_filter.2 ⟨ht, by simpa [isLinking] using hplain⟩)
    exact ⟨e, he, hshows.name⟩

/-- The look-up finds the tables that are no linking tables. -/
theorem isSome_entityId?_eq {name : Text} (hname : name ∈ tableNames tables) :
    (entityId? g.entities name).isSome = decide (name ∉ associativeTables tables) := by
  rw [Bool.eq_iff_iff, isSome_entityId?_iff, exists_entity_iff h, decide_eq_true_iff]
  exact and_iff_right hname

theorem exists_entityId? {name : Text} (hname : name ∈ tableNames tables)
    (hplain : name ∉ associativeTables tables) :
    ∃ e ∈ g.entities, e.name = name ∧ entityId? g.entities name = some e.id := by
  have hsome := isSome_entityId?_eq h hname
  rw [decide_eq_true hplain, Option.isSome_iff_exists] at hsome
  obtain ⟨id, hid⟩ := hsome
  obtain ⟨e, he, hname, rfl⟩ := exists_entity_of_entityId? hid
  exact ⟨e, he, hname, hid⟩

theorem entityId?_eq_none {name : Text}
    (hname : ¬ (name ∈ tableNames tables ∧ name ∉ associativeTables tables)) :
    entityId? g.entities name = none := by
  rw [← Option.not_isSome_iff_eq_none, isSome_entityId?_iff, exists_entity_iff h]
  exact hname

/-- The relationship of a linking table has its two ends just when both
    parents are entities. -/
theorem isConnected_eq {t : Table} (ht : t.isAssociative (tableNames tables) = true) :
    isConnected g.entities t = !refersToLinking tables t := by
  obtain ⟨first, second, hkeys, _, _, _, hfirst, hsecond⟩ := Table.isAssociative_iff.1 ht
  have hp := isSome_entityId?_eq h hfirst
  have hq := isSome_entityId?_eq h hsecond
  have hlinking : refersToLinking tables t =
      (decide (first.refTable ∈ associativeTables tables) ||
        decide (second.refTable ∈ associativeTables tables)) := by
    simp [refersToLinking, hkeys]
  rw [isConnected, parentEndpoints_eq hkeys, hlinking]
  cases hfirst : entityId? g.entities first.refTable <;>
    cases hsecond : entityId? g.entities second.refTable <;>
      simp_all [parentEndpoint?]

end Depicts

/-! ### Relationships -/

/-- `r` shows the linking table `t` as a relationship between two entities,
    the parents of its two foreign keys.  No attribute of it is primary. -/
structure JoinsParents (g : ChenGraph) (t : Table) (r : Relationship) : Prop where
  name : r.name = t.name
  endpoints : ∃ first second, t.foreignKeys = [first, second] ∧
    ∃ p ∈ g.entities, ∃ q ∈ g.entities,
      p.name = first.refTable ∧ q.name = second.refTable ∧ p.id ≠ q.id ∧
      r.endpoints = [⟨p.id, cardinalityOf t first⟩, ⟨q.id, cardinalityOf t second⟩]
  attributes : List.Forall₂ (fun c a => a.name = c.name ∧ a.isPrimary = false)
    (t.columns.filter fun c => t.foreignKeys.all fun key => c.name ∉ key.columns) r.attributes

/-- `r` shows a foreign key of some table as a relationship between two
    entities, the parent first. -/
structure JoinsChild (tables : List Table) (g : ChenGraph) (r : Relationship) : Prop where
  endpoints : ∃ t ∈ tables, t.isAssociative (tableNames tables) = false ∧
    ∃ key ∈ t.foreignKeys, ∃ parent ∈ g.entities, ∃ child ∈ g.entities,
      parent.name = key.refTable ∧ child.name = t.name ∧
      r.endpoints = [⟨parent.id, .one⟩, ⟨child.id, cardinalityOf t key⟩]
  attributes : r.attributes = []

theorem ownColumns_eq (t : Table) :
    ownColumns t = t.columns.filter fun c => t.foreignKeys.all fun key => c.name ∉ key.columns :=
  List.filter_congr fun c _ => by
    rw [Bool.eq_iff_iff]
    simp

/-- The own columns of a linking table are not primary. -/
theorem isPrimary_eq_false {known : List Text} {t : Table} (ht : t.isAssociative known = true)
    {c : Column} (hc : c ∈ ownColumns t) {a : Attribute} (ha : ShowsColumn t c a) :
    a.isPrimary = false := by
  obtain ⟨_, _, _, _, hsub, _⟩ := Table.isAssociative_iff.1 ht
  have hown : c.name ∉ t.foreignKeyColumns := by simpa using (List.mem_filter.1 hc).2
  rw [Bool.eq_false_iff]
  exact fun hprimary => hown (hsub _ (ha.isPrimary.1 hprimary))

theorem refersToLinking_iff {tables : List Table} {t : Table} :
    refersToLinking tables t = true ↔ ∃ key ∈ t.foreignKeys, ∃ u ∈ tables,
      u.name = key.refTable ∧ u.isAssociative (tableNames tables) = true := by
  simp [refersToLinking, mem_associativeTables, and_comm]

section Depicts

variable {tables : List Table} {g : ChenGraph} (h : Depicts tables g)
include h

/-- The entity at the parent of a key. -/
theorem exists_parent {t : Table} {key : ForeignKey} (hkey : key ∈ t.foreignKeys)
    (hknown : key.refTable ∈ tableNames tables) (ht : refersToLinking tables t = false) :
    ∃ p ∈ g.entities, p.name = key.refTable ∧
      parentEndpoint? g.entities t key = some ⟨p.id, cardinalityOf t key⟩ := by
  have hplain : key.refTable ∉ associativeTables tables := by
    simp only [refersToLinking, List.any_eq_false, decide_eq_true_eq] at ht
    exact ht key hkey
  obtain ⟨p, hp, hname, hid⟩ := exists_entityId? h hknown hplain
  exact ⟨p, hp, hname, by rw [parentEndpoint?, hid, Option.map_some]⟩

theorem joinsParents_of_shows (hids : (g.entities.map (·.id)).Nodup) {t : Table}
    (ht : joinsEntities tables t = true) {r : Relationship}
    (hr : ShowsAssociation g.entities t r) : JoinsParents g t r := by
  simp only [joinsEntities, Bool.and_eq_true, Bool.not_eq_true'] at ht
  obtain ⟨hlinking, hplain⟩ := ht
  obtain ⟨first, second, hkeys, _, _, hne, hfirst, hsecond⟩ := Table.isAssociative_iff.1 hlinking
  obtain ⟨p, hp, hpname, hpend⟩ := exists_parent h (by simp [hkeys]) hfirst hplain
  obtain ⟨q, hq, hqname, hqend⟩ := exists_parent h (by simp [hkeys]) hsecond hplain
  refine ⟨hr.name, ⟨first, second, hkeys, p, hp, q, hq, hpname, hqname, fun hid => hne ?_, ?_⟩, ?_⟩
  · -- two entities with one identifier are one entity, but the parents have different names
    rw [← hpname, ← hqname, List.inj_on_of_nodup_map hids hp hq hid]
  · rw [hr.endpoints, parentEndpoints_eq hkeys, hpend, hqend]
    rfl
  · rw [← ownColumns_eq]
    exact forall₂_imp_of_mem hr.attributes fun c hc a ha =>
      ⟨ha.name, isPrimary_eq_false hlinking hc ha⟩

theorem joinsChild_of_origin (hnames : (tableNames tables).Nodup) {r : Relationship}
    (hr : r ∈ g.relationships) (horigin : r.origin = .foreignKey) : JoinsChild tables g r := by
  obtain ⟨t, ht, link, hlink, hshows⟩ := exists_link h hr horigin
  rw [plainTables_eq hnames, List.mem_filter, Bool.not_eq_true'] at ht
  obtain ⟨key, hkey, _, _, _, hparent, hchild, rfl⟩ := mem_links hlink
  obtain ⟨parent, hp, hpname, rfl⟩ := exists_entity_of_entityId? hparent
  obtain ⟨child, hc, hcname, rfl⟩ := exists_entity_of_entityId? hchild
  exact ⟨⟨t, ht.1, ht.2, key, hkey, parent, hp, child, hc, hpname, hcname, hshows.endpoints⟩,
    hshows.attributes⟩

/-- **The linking tables that are shown** are those between two entities. -/
theorem forall₂_associations (hnames : (tableNames tables).Nodup) :
    List.Forall₂ (ShowsAssociation g.entities) (tables.filter (joinsEntities tables))
      (g.relationships.filter (·.origin = .associative)) := by
  have hfilter : (tables.filter (isLinking tables)).filter (isConnected g.entities) =
      tables.filter (joinsEntities tables) := by
    rw [List.filter_filter]
    refine List.filter_congr fun t ht => ?_
    rw [isLinking_eq hnames ht, joinsEntities, Bool.and_comm]
    cases hlinking : t.isAssociative (tableNames tables) with
    | false => rfl
    | true => rw [isConnected_eq h hlinking]
  exact hfilter ▸ h.associations

/-- The linking table behind a relationship. -/
theorem exists_association (hnames : (tableNames tables).Nodup) {r : Relationship}
    (hr : r ∈ g.relationships) (horigin : r.origin = .associative) :
    ∃ t ∈ tables, joinsEntities tables t = true ∧ r.name = t.name := by
  obtain ⟨t, ht, hshows⟩ := exists_left_of_mem (forall₂_associations h hnames)
    (List.mem_filter.2 ⟨hr, decide_eq_true horigin⟩)
  obtain ⟨ht, hjoins⟩ := List.mem_filter.1 ht
  exact ⟨t, ht, hjoins, hshows.name⟩

/-- A table is not in the graph when it is a linking table that refers to
    a linking table. -/
theorem missing_iff (hnames : (tableNames tables).Nodup) {t : Table} (ht : t ∈ tables) :
    ((∀ e ∈ g.entities, e.name ≠ t.name) ∧
        ∀ r ∈ g.relationships, r.origin = .associative → r.name ≠ t.name) ↔
      t.isAssociative (tableNames tables) = true ∧ refersToLinking tables t = true := by
  have hentity : (∃ e ∈ g.entities, e.name = t.name) ↔
      t.isAssociative (tableNames tables) = false := by
    rw [exists_entity_iff h, name_mem_associativeTables hnames ht, Bool.not_eq_true]
    exact and_iff_right (List.mem_map_of_mem ht)
  have hrelationship : (∃ r ∈ g.relationships, r.origin = .associative ∧ r.name = t.name) ↔
      joinsEntities tables t = true := by
    constructor
    · rintro ⟨r, hr, horigin, hname⟩
      obtain ⟨u, hu, hjoins, huname⟩ := exists_association h hnames hr horigin
      rwa [← eq_of_name_eq hnames hu ht (huname.symm.trans hname)]
    · intro hjoins
      obtain ⟨r, hr, hshows⟩ := exists_right_of_mem (forall₂_associations h hnames)
        (List.mem_filter.2 ⟨ht, hjoins⟩)
      obtain ⟨hr, horigin⟩ := List.mem_filter.1 hr
      exact ⟨r, hr, of_decide_eq_true horigin, hshows.name⟩
  have hnone : ((∀ e ∈ g.entities, e.name ≠ t.name) ∧
        ∀ r ∈ g.relationships, r.origin = .associative → r.name ≠ t.name) ↔
      ¬ (∃ e ∈ g.entities, e.name = t.name) ∧
        ¬ ∃ r ∈ g.relationships, r.origin = .associative ∧ r.name = t.name := by
    push Not
    rfl
  rw [hnone, hentity, hrelationship, joinsEntities]
  cases t.isAssociative (tableNames tables) <;> simp

end Depicts

/-! ### The account -/

theorem nodup_entityIds (tables : List Table) :
    ((ofTables tables).entities.map (·.id)).Nodup :=
  ((nodup_ids_ofTables tables).sublist (List.sublist_append_left _ _)).sublist
    (map_sublist_flatMap _ _ _)

/-- **What becomes of each table**, when no two share a name.  The entities
    are the tables that are no linking tables, with all their columns; a
    relationship shows a linking table between two entities or one foreign
    key.  So a table is missing just when it is a linking table that refers to
    a linking table, be it to itself. -/
theorem ofTables_accounts (tables : List Table) (hnames : (tableNames tables).Nodup) :
    List.Forall₂ ShowsTable (tables.filter fun t => !t.isAssociative (tableNames tables))
        (ofTables tables).entities ∧
      List.Forall₂ (JoinsParents (ofTables tables)) (tables.filter (joinsEntities tables))
        ((ofTables tables).relationships.filter (·.origin = .associative)) ∧
      (∀ r ∈ (ofTables tables).relationships, r.origin = .foreignKey →
        JoinsChild tables (ofTables tables) r) ∧
      ∀ t ∈ tables,
        (((∀ e ∈ (ofTables tables).entities, e.name ≠ t.name) ∧
            ∀ r ∈ (ofTables tables).relationships, r.origin = .associative → r.name ≠ t.name) ↔
          t.isAssociative (tableNames tables) = true ∧ ∃ key ∈ t.foreignKeys, ∃ u ∈ tables,
            u.name = key.refTable ∧ u.isAssociative (tableNames tables) = true) := by
  have h := depicts_ofTables tables
  refine ⟨?_, ?_, fun r hr horigin => joinsChild_of_origin h hnames hr horigin, fun t ht => ?_⟩
  · rw [← plainTables_eq hnames]
    exact h.entities
  · exact forall₂_imp_of_mem (forall₂_associations h hnames) fun t ht r hr =>
      joinsParents_of_shows h (nodup_entityIds tables) (List.mem_filter.1 ht).2 hr
  · rw [missing_iff h hnames ht, refersToLinking_iff]

/-- Enrolments link students to courses and are shown; grades link enrolments
    to courses and are missing. -/
theorem ofTables_accounts_grades :
    let linking (name first second : Text) : Table :=
      { name, columns := [], primaryKeys := NameSet.ofList ["a", "b"]
        foreignKeys := [⟨["a"], first, [], none⟩, ⟨["b"], second, [], none⟩] }
    let enrolment := linking "enrolment" "student" "course"
    let grade := linking "grade" "enrolment" "course"
    let tables := [.named "student", .named "course", enrolment, grade]
    (tableNames tables).Nodup ∧
      List.Forall₂ (JoinsParents (ofTables tables)) [enrolment]
        ((ofTables tables).relationships.filter (·.origin = .associative)) ∧
      (∀ e ∈ (ofTables tables).entities, e.name ≠ grade.name) ∧
      ∀ r ∈ (ofTables tables).relationships, r.origin = .associative → r.name ≠ grade.name := by
  intro linking enrolment grade tables
  have hnames : (tableNames tables).Nodup := by decide
  have hshown : tables.filter (joinsEntities tables) = [enrolment] := by decide
  obtain ⟨_, hassociations, _, hmissing⟩ := ofTables_accounts tables hnames
  exact ⟨hnames, hshown ▸ hassociations, (hmissing grade (by decide)).2 (by decide)⟩

end SchemaDiagram.ChenGraph
