import SchemaDiagram.Diagram.CrowsFoot
import SchemaDiagram.Proofs.Accounting

/-! # Notations — the foreign keys in the two kinds of diagram

    Crow's foot draws a line for each foreign key that refers to one of the
    tables.  A Chen graph shows the same keys in two ways, as relationships
    and as ends of relationships, and leaves some of them out.

      * `resolvedKeys`                — the keys that crow's foot draws
      * `Draws`, `IsBarred`           — a key's line
      * `forall₂_draws`               — the lines of a diagram
      * `EndsAt`, `Relates`           — how a Chen graph shows a key
      * `forall₂_relationships`       — the keys that are relationships
      * `forall₂_parentEndpoints`     — the keys that are ends
      * `Shows`, `not_shows`          — the keys that are left out
      * `Agrees`                      — the bar of a line against a cardinality
      * `IsRelationshipOf`, `IsEndOf` — a line against its part of the graph
      * `notations_agree`             — one diagram against the other -/

namespace SchemaDiagram

open ChenGraph (Endpoint Relationship Cardinality Depicts joinsEntities cardinalityOf
  parentEndpoints)
open CrowsFoot (Connection blockIds)
open Naming (Yields)

/-! ### The keys of some tables -/

/-- A foreign key and the table that it belongs to. -/
structure OwnedKey where
  child : Table
  key : ForeignKey
  deriving DecidableEq, Repr

/-- The foreign keys of `t` that refer to one of `tables`. -/
def keysOf (tables : List Table) (t : Table) : List OwnedKey :=
  (t.foreignKeys.filter fun key => (tableNames tables).contains key.refTable).map (OwnedKey.mk t)

/-- The foreign keys of `tables` that refer to one of them, in order. -/
def resolvedKeys (tables : List Table) : List OwnedKey := tables.flatMap (keysOf tables)

/-- Whether neither the child nor the parent of `k` is a linking table. -/
def OwnedKey.isBetweenEntities (tables : List Table) (k : OwnedKey) : Bool :=
  !k.child.isAssociative (tableNames tables) && k.key.refTable ∉ associativeTables tables

theorem mem_keysOf {tables : List Table} {t : Table} {k : OwnedKey} :
    k ∈ keysOf tables t ↔
      k.child = t ∧ k.key ∈ t.foreignKeys ∧ k.key.refTable ∈ tableNames tables := by
  cases k with
  | mk child key =>
    simp only [keysOf, List.mem_map, List.mem_filter, List.contains_iff_mem, OwnedKey.mk.injEq]
    constructor
    · rintro ⟨_, hkey, rfl, rfl⟩
      exact ⟨rfl, hkey⟩
    · rintro ⟨rfl, hkey⟩
      exact ⟨key, hkey, rfl, rfl⟩

/-- The keys of one table among all keys. -/
theorem filter_child {tables : List Table} (hnodup : tables.Nodup) {t : Table} (ht : t ∈ tables) :
    (resolvedKeys tables).filter (·.child = t) = keysOf tables t := by
  have hpart : ∀ u ∈ tables,
      (keysOf tables u).filter (·.child = t) = if u = t then keysOf tables u else [] := by
    intro u _
    by_cases hu : u = t
    · rw [if_pos hu, List.filter_eq_self]
      intro k hk
      simpa [hu] using (mem_keysOf.1 hk).1
    · rw [if_neg hu, List.filter_eq_nil_iff]
      intro k hk
      simpa [(mem_keysOf.1 hk).1] using hu
  have hid : (tables.map id).Nodup := by rwa [List.map_id]
  rw [resolvedKeys, List.filter_flatMap, List.flatMap_congr hpart]
  exact gather hid ht

/-! ### Lines -/

/-- `c` is the line of `k`: it leads from the block of the parent to that of
    the child and names the columns of both. -/
structure Draws (tables : List Table) (k : OwnedKey) (c : Connection) : Prop where
  parent : (blockIds tables).lookup k.key.refTable = some c.parent
  child : (blockIds tables).lookup k.child.name = some c.child
  isIdentifying : c.isIdentifying = k.child.isIdentifying k.key
  refColumns : c.refColumns = k.key.refColumns
  columns : c.columns = k.key.columns

/-- The line of `c` has a double bar at the child. -/
def IsBarred (c : Connection) : Prop := ("    " ++ c.parent ++ " ||--||" : Text) <+: c.line

/-- **Identifying keys have a double bar**, and no others. -/
theorem isBarred_iff {c : Connection} : IsBarred c ↔ c.isIdentifying = true := by
  unfold IsBarred Connection.line
  simp only [List.append_assoc, List.prefix_append_right_inj]
  cases c.isIdentifying with
  | false => simp
  | true => simp

theorem yields_blockIds (tables : List Table) :
    Yields (tables.mapM fun t => do return (t.name, ← claimEntityName t.name))
      fun ids handedOut => List.Forall₂ (fun t id => t.name = id.1) tables ids ∧
        Issued (ids.map (·.2)) handedOut := by
  have hblock : ∀ t : Table, Yields (do return (t.name, ← claimEntityName t.name))
      fun (id : Text × Text) handedOut => t.name = id.1 ∧ Issued [id.2] handedOut := fun t =>
    (yields_claimEntityName t.name).bind fun _ _ hid => .pure ⟨rfl, by rwa [List.append_nil]⟩
  refine (Yields.mapM hblock tables).mono fun ids handedOut hids => ?_
  rwa [← List.flatMap_pure_eq_map]

/-- No two blocks have the same identifier. -/
theorem nodup_blockIds (tables : List Table) : ((blockIds tables).map (·.2)).Nodup := by
  obtain ⟨_, hnodup, _, hissued⟩ := (yields_blockIds tables).eval
  exact hnodup.sublist hissued.sublist

theorem keys_blockIds (tables : List Table) :
    (blockIds tables).map (·.1) = tableNames tables := by
  obtain ⟨_, _, hnames, _⟩ := (yields_blockIds tables).eval
  exact (map_eq_map_of_forall₂ hnames fun _ _ _ hname => hname).symm

theorem exists_blockId_iff {tables : List Table} {name : Text} :
    (∃ id, (blockIds tables).lookup name = some id) ↔ name ∈ tableNames tables := by
  rw [← Option.isSome_iff_exists, List.lookup_isSome_iff, ← keys_blockIds, List.mem_map]
  exact exists_congr fun p => and_congr_right fun _ => beq_iff_eq.trans eq_comm

/-- **The lines of a diagram** are those of the resolved keys, in order. -/
theorem forall₂_draws (tables : List Table) :
    List.Forall₂ (Draws tables) (resolvedKeys tables) (CrowsFoot.ofTables tables).connections := by
  refine forall₂_flatMap fun t ht => List.forall₂_map_left_iff.2 ?_
  refine forall₂_filter_filterMap (fun key _ hkey => ?_) fun key _ hkey => ?_
  · obtain ⟨parent, hparent⟩ := exists_blockId_iff.2 (List.contains_iff_mem.1 hkey)
    obtain ⟨child, hchild⟩ := exists_blockId_iff.2 (List.mem_map_of_mem ht)
    refine ⟨⟨parent, child, t.isIdentifying key, key.refColumns, key.columns⟩, ?_,
      ⟨hparent, hchild, rfl, rfl, rfl⟩⟩
    simp [CrowsFoot.connection?, hparent, hchild]
  · have hnone : (blockIds tables).lookup key.refTable = none := by
      rw [← Option.not_isSome_iff_eq_none, Option.isSome_iff_exists, exists_blockId_iff,
        ← List.contains_iff_mem, hkey]
      exact Bool.false_ne_true
    simp [CrowsFoot.connection?, hnone]

/-! ### Keys in a Chen graph -/

/-- The end leads to the entity of the parent of `k`. -/
def EndsAt (g : ChenGraph) (k : OwnedKey) (endpoint : Endpoint) : Prop :=
  ∃ parent ∈ g.entities, parent.name = k.key.refTable ∧ endpoint.entityId = parent.id

/-- The ends lead to the entities of the parent and the child of `k`, with
    the cardinality `own` at the child. -/
def Relates (g : ChenGraph) (k : OwnedKey) (ends : List Endpoint) (own : Cardinality) : Prop :=
  ∃ parent ∈ g.entities, ∃ child ∈ g.entities,
    parent.name = k.key.refTable ∧ child.name = k.child.name ∧
      ends = [⟨parent.id, .one⟩, ⟨child.id, own⟩]

/-- `r` shows `k`, as a relationship or as one of its ends. -/
def Shows (g : ChenGraph) (k : OwnedKey) (r : Relationship) : Prop :=
  match r.origin with
  | .foreignKey => ∃ own, Relates g k r.endpoints own
  | .associative => r.name = k.child.name ∧ ∃ endpoint ∈ r.endpoints, EndsAt g k endpoint

section Depicts

variable {tables : List Table} {g : ChenGraph} (h : Depicts tables g)
include h

/-- The keys of a table that is an entity. -/
theorem forall₂_links (hnames : (tableNames tables).Nodup) {t : Table} (ht : t ∈ tables)
    (hplain : t.isAssociative (tableNames tables) = false) :
    List.Forall₂ (fun k link => Relates g k link.2 (cardinalityOf k.child k.key))
      ((keysOf tables t).filter (·.isBetweenEntities tables)) (ChenGraph.links g.entities t) := by
  have hkeys : (keysOf tables t).filter (·.isBetweenEntities tables) =
      (t.foreignKeys.filter fun key => key.refTable ∈ tableNames tables ∧
        key.refTable ∉ associativeTables tables).map (OwnedKey.mk t) := by
    rw [keysOf, List.filter_map, List.filter_filter]
    refine congrArg _ (List.filter_congr fun key _ => ?_)
    simp [OwnedKey.isBetweenEntities, hplain, Bool.and_comm]
  rw [hkeys, List.forall₂_map_left_iff, ← List.zipIdx_map_fst 1 t.foreignKeys, List.filter_map,
    List.forall₂_map_left_iff]
  have hname : t.name ∉ associativeTables tables := by
    rw [ChenGraph.name_mem_associativeTables hnames ht, hplain]
    exact Bool.false_ne_true
  obtain ⟨child, hchild, hcname, hcid⟩ :=
    ChenGraph.exists_entityId? h (List.mem_map_of_mem ht) hname
  refine forall₂_filter_filterMap (fun key _ hkey => ?_) fun key _ hkey => ?_
  · obtain ⟨hresolved, hparent⟩ := of_decide_eq_true hkey
    obtain ⟨parent, hparent, hpname, hpid⟩ := ChenGraph.exists_entityId? h hresolved hparent
    refine ⟨(ChenGraph.relationshipName t key.1 key.2,
      [⟨parent.id, .one⟩, ⟨child.id, cardinalityOf t key.1⟩]), ?_,
      parent, hparent, child, hchild, hpname, hcname, rfl⟩
    simp [hpid, hcid]
  · have hnone := ChenGraph.entityId?_eq_none h (of_decide_eq_false hkey)
    simp [hnone]

/-- **The keys between entities are relationships**, in the same order. -/
theorem forall₂_relationships (hnames : (tableNames tables).Nodup) :
    List.Forall₂ (fun k r => Relates g k r.endpoints (cardinalityOf k.child k.key))
      ((resolvedKeys tables).filter (·.isBetweenEntities tables))
      (g.relationships.filter (·.origin = .foreignKey)) := by
  have hlinks : List.Forall₂ (fun k link => Relates g k link.2 (cardinalityOf k.child k.key))
      ((resolvedKeys tables).filter (·.isBetweenEntities tables))
      ((ChenGraph.plainTables tables).flatMap (ChenGraph.links g.entities)) := by
    rw [resolvedKeys, List.filter_flatMap]
    refine forall₂_flatMap_filter (fun t ht hplain => ?_) fun t ht hlinking => ?_
    · rw [Bool.not_eq_true', ChenGraph.isLinking_eq hnames ht] at hplain
      exact forall₂_links h hnames ht hplain
    · rw [Bool.not_eq_false', ChenGraph.isLinking_eq hnames ht] at hlinking
      rw [List.filter_eq_nil_iff]
      intro k hk
      simp [OwnedKey.isBetweenEntities, (mem_keysOf.1 hk).1, hlinking]
  refine (forall₂_comp hlinks h.links).imp fun k r hk => ?_
  obtain ⟨link, hends, hshows⟩ := hk
  exact hshows.endpoints ▸ hends

/-- **The keys of a linking table are the ends** of its relationship, in the
    same order. -/
theorem forall₂_parentEndpoints {t : Table} (ht : joinsEntities tables t = true) :
    List.Forall₂ (fun k endpoint => EndsAt g k endpoint ∧
        endpoint.cardinality = cardinalityOf k.child k.key)
      (keysOf tables t) (parentEndpoints g.entities t) := by
  simp only [joinsEntities, Bool.and_eq_true, Bool.not_eq_true'] at ht
  refine List.forall₂_map_left_iff.2 (forall₂_filter_filterMap (fun key hkey hknown => ?_) ?_)
  · obtain ⟨p, hp, hname, hend⟩ :=
      ChenGraph.exists_parent h hkey (List.contains_iff_mem.1 hknown) ht.2
    exact ⟨_, hend, ⟨p, hp, hname, rfl⟩, rfl⟩
  · intro key _ hunknown
    have hname : key.refTable ∉ tableNames tables := by
      rw [← List.contains_iff_mem, hunknown]
      exact Bool.false_ne_true
    rw [ChenGraph.parentEndpoint?, ChenGraph.entityId?_eq_none h fun hplain => hname hplain.1,
      Option.map_none]

/-- **All other keys are left out.** -/
theorem not_shows (hnames : (tableNames tables).Nodup) {k : OwnedKey} (hk : k.child ∈ tables)
    (hbetween : k.isBetweenEntities tables = false)
    (hjoins : joinsEntities tables k.child = false) {r : Relationship} (hr : r ∈ g.relationships) :
    ¬ Shows g k r := by
  unfold Shows
  split
  · rintro ⟨_, parent, hparent, child, hchild, hpname, hcname, _⟩
    have hp := (ChenGraph.exists_entity_iff h).1 ⟨parent, hparent, hpname⟩
    have hc := (ChenGraph.exists_entity_iff h).1 ⟨child, hchild, hcname⟩
    have hplain := hc.2
    rw [ChenGraph.name_mem_associativeTables hnames hk, Bool.not_eq_true] at hplain
    simp [OwnedKey.isBetweenEntities, hplain, hp.2] at hbetween
  · next horigin =>
    rintro ⟨hname, _⟩
    obtain ⟨t, ht, htjoins, htname⟩ := ChenGraph.exists_association h hnames hr horigin
    rw [ChenGraph.eq_of_name_eq hnames ht hk (htname.symm.trans hname), hjoins] at htjoins
    exact Bool.false_ne_true htjoins

end Depicts

/-! ### The two notations -/

/-- The line `c` of the key `k` fits the cardinality `own` at the end of the
    key's own table.  A bar says less than the cardinality one, which asks for
    the whole primary key. -/
structure Agrees (k : OwnedKey) (c : Connection) (own : Cardinality) : Prop where
  isBarred : own = .one → IsBarred c
  eq_one_iff : IsBarred c → (own = .one ↔
    (∀ column, column ∈ k.key.columns ↔ column ∈ k.child.primaryKeys) ∧
      ∃ column, column ∈ k.child.primaryKeys)

theorem cardinalityOf_eq_one_iff {t : Table} {key : ForeignKey} :
    cardinalityOf t key = .one ↔ t.isUniqueByKey key = true := by
  simp [cardinalityOf]

theorem Draws.agrees {tables : List Table} {k : OwnedKey} {c : Connection}
    (h : Draws tables k c) : Agrees k c (cardinalityOf k.child k.key) where
  isBarred hone := by
    rw [isBarred_iff, h.isIdentifying]
    exact Table.isIdentifying_of_isUniqueByKey (cardinalityOf_eq_one_iff.1 hone)
  eq_one_iff _ := cardinalityOf_eq_one_iff.trans Table.isUniqueByKey_iff

/-- The keys that crow's foot draws, each with its line. -/
def drawnKeys (tables : List Table) : List (OwnedKey × Connection) :=
  (resolvedKeys tables).zip (CrowsFoot.ofTables tables).connections

/-- `r` is the relationship of a drawn key, and fits its line. -/
def IsRelationshipOf (g : ChenGraph) (line : OwnedKey × Connection) (r : Relationship) : Prop :=
  ∃ own, Relates g line.1 r.endpoints own ∧ Agrees line.1 line.2 own

/-- `endpoint` is the end of a drawn key, and fits its line. -/
def IsEndOf (g : ChenGraph) (line : OwnedKey × Connection) (endpoint : Endpoint) : Prop :=
  EndsAt g line.1 endpoint ∧ Agrees line.1 line.2 endpoint.cardinality

/-- **The two notations agree**, when no two tables share a name.  Of the
    keys that crow's foot draws, those between two entities are the
    relationships of the Chen graph, those of a linking table between two
    entities are the ends of its relationship, and no other is in the graph.
    Each line fits the cardinality that the graph gives to its key. -/
theorem notations_agree (tables : List Table) (hnames : (tableNames tables).Nodup) :
    List.Forall₂ (Draws tables) (resolvedKeys tables) (CrowsFoot.ofTables tables).connections ∧
      List.Forall₂ (IsRelationshipOf (ChenGraph.ofTables tables))
        ((drawnKeys tables).filter (·.1.isBetweenEntities tables))
        ((ChenGraph.ofTables tables).relationships.filter (·.origin = .foreignKey)) ∧
      List.Forall₂
        (fun t r => r.name = t.name ∧ List.Forall₂ (IsEndOf (ChenGraph.ofTables tables))
          ((drawnKeys tables).filter (·.1.child = t)) r.endpoints)
        (tables.filter (joinsEntities tables))
        ((ChenGraph.ofTables tables).relationships.filter (·.origin = .associative)) ∧
      ∀ k ∈ resolvedKeys tables,
        k.isBetweenEntities tables = false → joinsEntities tables k.child = false →
        ∀ r ∈ (ChenGraph.ofTables tables).relationships,
          ¬ Shows (ChenGraph.ofTables tables) k r := by
  have h := ChenGraph.depicts_ofTables tables
  have hdraws := forall₂_draws tables
  refine ⟨hdraws, ?_, ?_, fun k hk hbetween hjoins r hr => ?_⟩
  · refine (forall₂_zip_filter hdraws (forall₂_relationships h hnames)).imp fun line r hline => ?_
    exact ⟨_, hline.2, hline.1.agrees⟩
  · refine forall₂_imp_of_mem (ChenGraph.forall₂_associations h hnames) fun t ht r hr => ?_
    obtain ⟨ht, hjoins⟩ := List.mem_filter.1 ht
    have hends := forall₂_parentEndpoints h hjoins
    rw [← filter_child (hnames.of_map _) ht, ← hr.endpoints] at hends
    refine ⟨hr.name, (forall₂_zip_filter hdraws hends).imp fun line endpoint hline => ?_⟩
    obtain ⟨hdraws, hends, hcardinality⟩ := hline
    exact ⟨hends, hcardinality ▸ hdraws.agrees⟩
  · obtain ⟨t, ht, hk⟩ := List.mem_flatMap.1 hk
    exact not_shows h hnames ((mem_keysOf.1 hk).1 ▸ ht) hbetween hjoins hr

/-- Enrolments link students to courses.  Crow's foot draws both of their keys
    and that of the notes on them; the Chen graph has one relationship for the
    enrolments and leaves out the key of the notes. -/
theorem notations_agree_notes :
    let enrolment : Table :=
      { name := "enrolment", columns := [], primaryKeys := NameSet.ofList ["a", "b"]
        foreignKeys := [⟨["a"], "student", [], none⟩, ⟨["b"], "course", [], none⟩] }
    let key : ForeignKey := ⟨["a"], "enrolment", [], none⟩
    let note : Table := { name := "note", columns := [], primaryKeys := ∅, foreignKeys := [key] }
    let tables := [.named "student", .named "course", enrolment, note]
    (tableNames tables).Nodup ∧ (CrowsFoot.ofTables tables).connections.length = 3 ∧
      ((ChenGraph.ofTables tables).relationships.filter (·.origin = .associative)).length = 1 ∧
      ∀ r ∈ (ChenGraph.ofTables tables).relationships,
        ¬ Shows (ChenGraph.ofTables tables) ⟨note, key⟩ r := by
  intro enrolment key note tables
  have hnames : (tableNames tables).Nodup := by decide
  have hkeys : (resolvedKeys tables).length = 3 := by decide
  have hjoining : (tables.filter (joinsEntities tables)).length = 1 := by decide
  obtain ⟨hlines, _, hends, hothers⟩ := notations_agree tables hnames
  exact ⟨hnames, hlines.length_eq ▸ hkeys, hends.length_eq ▸ hjoining,
    hothers ⟨note, key⟩ (by decide) (by decide) (by decide)⟩

end SchemaDiagram
