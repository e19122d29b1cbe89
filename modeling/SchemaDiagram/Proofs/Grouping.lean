import Mathlib.Data.List.Basic
import Mathlib.Data.List.Induction
import SchemaDiagram.Ddl.Script
import SchemaDiagram.Proofs.ByteOrder

/-! # Grouping — a schema as its declarations, gathered by table

    Reading a script goes over its declarations once and adds each to the
    table of its name.  The same schema can be described without a pass:
    every table is made of the definitions that all declarations of its name
    hold, in their order.

      * `Definition.column?`, `foreignKeys`,
        `primaryKeyNames`, `unrecognized?`    — what one definition contributes
      * `declaredNames`, `definitionsOf`      — the tables that are declared, and
                                                the definitions of each
      * `spelling?`                           — how a table spells a column
      * `groupedTable`, `groupedKeyWarnings`  — a table, and the warnings about it
      * `declaredTables_eq`                   — the pass builds the groups
      * `parseSchema_eq_grouped`              — a script's schema is its grouping -/

namespace SchemaDiagram.Ddl

/-! ### What one definition contributes -/

namespace Definition

/-- The column that a definition declares, if it declares one. -/
def column? : Definition → Option Column
  | .column c => some c.column
  | _ => none

/-- The foreign keys of a definition: itself, or that of the column it
    declares. -/
def foreignKeys : Definition → List ForeignKey
  | .foreignKey key => [key]
  | .column c => c.references.toList
  | _ => []

/-- The names that a definition puts into the primary key. -/
def primaryKeyNames : Definition → List Text
  | .primaryKey columns => columns
  | .column c => if c.isPrimary then [c.column.name] else []
  | _ => []

/-- The text of a definition that could not be read. -/
def unrecognized? : Definition → Option Text
  | .unrecognized text => some text
  | _ => none

end Definition

/-! ### Groups -/

/-- The names of the declared tables, in the order of their first
    declarations. -/
def declaredNames (ds : List Declaration) : List Text := (ds.map (·.table)).eraseDups

/-- The definitions of the table `name`: those of all declarations of that
    name, in order. -/
def definitionsOf (ds : List Declaration) (name : Text) : List Definition :=
  (ds.filter fun d => d.table = name).flatMap (·.definitions)

/-- The columns that some definitions declare, repetitions included. -/
def columnsOf (definitions : List Definition) : List Column :=
  definitions.filterMap Definition.column?

/-- The names that some definitions put into the primary key. -/
def primaryKeyNamesOf (definitions : List Definition) : List Text :=
  definitions.flatMap Definition.primaryKeyNames

/-- The foreign keys of some definitions. -/
def foreignKeysOf (definitions : List Definition) : List ForeignKey :=
  definitions.flatMap Definition.foreignKeys

/-- The first name among `columns` that agrees with `name` up to the case of
    ASCII letters. -/
def spelling? (columns : List Column) (name : Text) : Option Text :=
  (columns.map (·.name)).find? fun declared => Text.equalsIgnoringCase declared name

/-- Whether every local column of `key` is one of `columns`, in some
    spelling. -/
def isSupported (columns : List Column) (key : ForeignKey) : Bool :=
  key.columns.all fun name => (spelling? columns name).isSome

/-- `key` with each local column in the spelling of `columns`. -/
def respell (columns : List Column) (key : ForeignKey) : ForeignKey :=
  { key with columns := key.columns.map fun name => (spelling? columns name).getD name }

/-- The table that some definitions add up to. -/
def groupedTable (name : Text) (definitions : List Definition) : Table :=
  let columns := columnsOf definitions
  { name, columns
    primaryKeys := NameSet.ofList ((primaryKeyNamesOf definitions).filterMap (spelling? columns))
    foreignKeys :=
      ((foreignKeysOf definitions).filter (isSupported columns)).map (respell columns) }

/-- The warnings about the keys of a table: one for each name in its primary
    key that is no column, in the order of their bytes, and one for each
    foreign key that is left out. -/
def groupedKeyWarnings (name : Text) (definitions : List Definition) : List Warning :=
  let columns := columnsOf definitions
  ((inByteOrder (primaryKeyNamesOf definitions)).filter fun column =>
      (spelling? columns column).isNone).map (.undeclaredPrimaryKey · name)
    ++ ((foreignKeysOf definitions).filter fun key => !isSupported columns key).map
      fun key => .undeclaredForeignKey key.columns name

/-! ### Recording -/

theorem insertAll_append (s : NameSet) (xs ys : List Text) :
    s.insertAll (xs ++ ys) = (s.insertAll xs).insertAll ys := List.foldl_append

/-- One more definition adds what it contributes at the end. -/
theorem record_eq (t : Table) (d : Definition) :
    t.record d =
      { t with
        columns := t.columns ++ d.column?.toList
        primaryKeys := t.primaryKeys.insertAll d.primaryKeyNames
        foreignKeys := t.foreignKeys ++ d.foreignKeys } := by
  cases d
  case column c =>
    cases hp : c.isPrimary <;>
      simp [Table.record, Definition.column?, Definition.primaryKeyNames, Definition.foreignKeys,
        NameSet.insertAll, hp]
  all_goals
    simp [Table.record, Definition.column?, Definition.primaryKeyNames, Definition.foreignKeys,
      NameSet.insertAll]

/-- Several definitions add what each of them contributes, in order. -/
theorem recordAll_eq (t : Table) (ds : List Definition) :
    t.recordAll ds =
      { t with
        columns := t.columns ++ columnsOf ds
        primaryKeys := t.primaryKeys.insertAll (primaryKeyNamesOf ds)
        foreignKeys := t.foreignKeys ++ foreignKeysOf ds } := by
  induction ds generalizing t with
  | nil => simp [Table.recordAll, columnsOf, primaryKeyNamesOf, foreignKeysOf, NameSet.insertAll]
  | cons d ds ih =>
    show (t.record d).recordAll ds = _
    rw [ih, record_eq]
    have hc : d.column?.toList ++ columnsOf ds = columnsOf (d :: ds) := by
      cases h : d.column? <;> simp [columnsOf, h]
    simp only [Table.mk.injEq, true_and]
    refine ⟨?_, ?_, ?_⟩
    · rw [List.append_assoc, hc]
    · rw [← insertAll_append]
      rfl
    · rw [List.append_assoc]
      rfl

theorem recordAll_append (t : Table) (xs ys : List Definition) :
    t.recordAll (xs ++ ys) = (t.recordAll xs).recordAll ys := List.foldl_append

/-! ### The pass over the declarations -/

/-- One more declaration changes the table of its name and no other. -/
theorem declare_map_of_mem {d : Declaration} {names : List Text} {table : Text → Table}
    (hname : ∀ n, (table n).name = n) (hnodup : names.Nodup) (hd : d.table ∈ names) :
    declare d (names.map table) =
      names.map fun n => if n = d.table then (table n).recordAll d.definitions else table n := by
  induction names with
  | nil => cases hd
  | cons n ns ih =>
    obtain ⟨hn, hns⟩ := List.nodup_cons.1 hnodup
    rw [List.map_cons, List.map_cons, declare, hname]
    by_cases h : n = d.table
    · rw [if_pos h, if_pos h]
      -- the name does not come again, so the rest stays as it is
      have hrest : ns.map table =
          ns.map fun m => if m = d.table then (table m).recordAll d.definitions else table m := by
        refine List.map_congr_left fun m hm => ?_
        rw [if_neg]
        intro hmd
        exact hn (h.trans hmd.symm ▸ hm)
      rw [hrest]
    · rw [if_neg h, if_neg h]
      have hd' : d.table ∈ ns := (List.mem_cons.1 hd).resolve_left fun h' => h h'.symm
      rw [ih hns hd']

/-- A declaration of a name that is not there yet makes a new table. -/
theorem declare_map_of_not_mem {d : Declaration} {names : List Text} {table : Text → Table}
    (hname : ∀ n, (table n).name = n) (hd : d.table ∉ names) :
    declare d (names.map table) =
      names.map table ++ [(Table.named d.table).recordAll d.definitions] := by
  induction names with
  | nil => rfl
  | cons n ns ih =>
    obtain ⟨hn, hns⟩ := not_or.1 (mt List.mem_cons.2 hd)
    rw [List.map_cons, declare, hname, if_neg (Ne.symm hn), ih hns, List.cons_append]

theorem declaredTables_concat (ds : List Declaration) (d : Declaration) :
    declaredTables (ds ++ [d]) = declare d (declaredTables ds) := by
  simp [declaredTables]

theorem mem_declaredNames {ds : List Declaration} {name : Text} :
    name ∈ declaredNames ds ↔ ∃ d ∈ ds, d.table = name := by
  simp [declaredNames]

theorem nodup_declaredNames (ds : List Declaration) : (declaredNames ds).Nodup :=
  nodup_eraseDups _

theorem declaredNames_append (ds es : List Declaration) :
    declaredNames (ds ++ es) =
      declaredNames ds ++ ((es.map (·.table)).removeAll (ds.map (·.table))).eraseDups := by
  simp [declaredNames, List.eraseDups_append]

theorem definitionsOf_append (ds es : List Declaration) (name : Text) :
    definitionsOf (ds ++ es) name = definitionsOf ds name ++ definitionsOf es name := by
  simp [definitionsOf]

theorem definitionsOf_eq_nil {ds : List Declaration} {name : Text}
    (h : name ∉ declaredNames ds) : definitionsOf ds name = [] := by
  have hfilter : ds.filter (fun d => d.table = name) = [] := by
    rw [List.filter_eq_nil_iff]
    intro d hd hdn
    exact h (mem_declaredNames.2 ⟨d, hd, of_decide_eq_true hdn⟩)
  rw [definitionsOf, hfilter, List.flatMap_nil]

theorem definitionsOf_singleton (d : Declaration) (name : Text) :
    definitionsOf [d] name = if d.table = name then d.definitions else [] := by
  by_cases h : d.table = name <;> simp [definitionsOf, h]

/-- **The pass builds the groups.** After any number of declarations there is
    one table for each declared name, and it has recorded the definitions of
    all declarations of that name. -/
theorem declaredTables_eq (ds : List Declaration) :
    declaredTables ds =
      (declaredNames ds).map fun name => (Table.named name).recordAll (definitionsOf ds name) := by
  -- induction from the end: the last declaration is the last step of the pass
  induction ds using List.reverseRecOn with
  | nil => rfl
  | append_singleton ds d ih =>
    rw [declaredTables_concat, ih]
    have hname : ∀ n, ((Table.named n).recordAll (definitionsOf ds n)).name = n := by
      intro n
      rw [Table.name_recordAll]
      rfl
    -- a declaration adds its definitions to its own group only
    have hgroup : ∀ n, (Table.named n).recordAll (definitionsOf (ds ++ [d]) n) =
        if n = d.table then ((Table.named n).recordAll (definitionsOf ds n)).recordAll d.definitions
        else (Table.named n).recordAll (definitionsOf ds n) := by
      intro n
      rw [definitionsOf_append, definitionsOf_singleton]
      by_cases h : d.table = n
      · rw [if_pos h, if_pos h.symm, recordAll_append]
      · rw [if_neg h, if_neg (Ne.symm h), List.append_nil]
    rw [declaredNames_append]
    by_cases hd : d.table ∈ declaredNames ds
    · have hnew : ([d].map (·.table)).removeAll (ds.map (·.table)) = [] := by
        have hmem := mem_declaredNames.1 hd
        simpa [List.removeAll] using hmem
      rw [declare_map_of_mem hname (nodup_declaredNames ds) hd, hnew, List.eraseDups_nil,
        List.append_nil]
      exact List.map_congr_left fun n _ => (hgroup n).symm
    · have hnew : ([d].map (·.table)).removeAll (ds.map (·.table)) = [d.table] := by
        have hmem := mt mem_declaredNames.2 hd
        simpa [List.removeAll] using hmem
      rw [declare_map_of_not_mem hname hd, hnew, List.map_append]
      congr 1
      · refine List.map_congr_left fun n hn => ?_
        rw [hgroup, if_neg]
        rintro rfl
        exact hd hn
      · have hone : [d.table].eraseDups = [d.table] := by simp [List.eraseDups_cons]
        rw [hone, List.map_singleton, hgroup, if_pos rfl, definitionsOf_eq_nil hd]
        rfl

/-! ### Reconciliation -/

theorem declaredColumn?_eq (t : Table) : t.declaredColumn? = spelling? t.columns := by
  funext name
  rw [Table.declaredColumn?, spelling?, List.find?_map]
  rfl

/-- A list whose items all have an image is taken to its images; one item
    without an image is enough to have none. -/
theorem mapM_eq_ite {α : Type} (f : α → Option α) (l : List α) :
    l.mapM f =
      if l.all fun x => (f x).isSome then some (l.map fun x => (f x).getD x) else none := by
  induction l with
  | nil => rfl
  | cons x xs ih =>
    rw [List.mapM_cons, ih]
    cases hx : f x with
    | none => simp [hx]
    | some y =>
      cases hxs : xs.all fun x => (f x).isSome <;> simp [hx, hxs]

theorem respelled?_eq (t : Table) (key : ForeignKey) :
    t.respelled? key =
      if isSupported t.columns key then some (respell t.columns key) else none := by
  rw [Table.respelled?, declaredColumn?_eq, mapM_eq_ite]
  unfold isSupported respell
  split <;> rfl

/-- The keys that can be respelled are those that are supported. -/
theorem filterMap_respelled? (t : Table) (keys : List ForeignKey) :
    keys.filterMap t.respelled? =
      (keys.filter (isSupported t.columns)).map (respell t.columns) := by
  induction keys with
  | nil => rfl
  | cons key keys ih =>
    rw [List.filterMap_cons, respelled?_eq, List.filter_cons]
    by_cases h : isSupported t.columns key = true
    · rw [if_pos h, if_pos h, List.map_cons, ih]
    · rw [if_neg h, if_neg h, ih]

theorem recordAll_named (name : Text) (ds : List Definition) :
    (Table.named name).recordAll ds =
      ⟨name, columnsOf ds, NameSet.ofList (primaryKeyNamesOf ds), foreignKeysOf ds⟩ := by
  rw [recordAll_eq]
  rfl

/-- Reconciling a recorded table keeps what its columns support. -/
theorem reconciled_recordAll (name : Text) (ds : List Definition) :
    ((Table.named name).recordAll ds).reconciled = groupedTable name ds := by
  rw [recordAll_named, Table.reconciled, groupedTable, declaredColumn?_eq]
  have hkeys : NameSet.ofList
      ((NameSet.ofList (primaryKeyNamesOf ds)).toList.filterMap (spelling? (columnsOf ds))) =
      NameSet.ofList ((primaryKeyNamesOf ds).filterMap (spelling? (columnsOf ds))) := by
    refine NameSet.ext fun x => ?_
    simp only [NameSet.mem_ofList, List.mem_filterMap, ← NameSet.mem_def]
  rw [hkeys]
  exact congrArg _ (filterMap_respelled? _ _)

/-- Reconciling a recorded table complains about the rest. -/
theorem discrepancies_recordAll (name : Text) (ds : List Definition) :
    ((Table.named name).recordAll ds).discrepancies = groupedKeyWarnings name ds := by
  rw [recordAll_named, Table.discrepancies, groupedKeyWarnings, declaredColumn?_eq,
    NameSet.toList_ofList]
  have hnone : ∀ key, (Table.respelled?
      ⟨name, columnsOf ds, NameSet.ofList (primaryKeyNamesOf ds), foreignKeysOf ds⟩ key).isNone =
      !isSupported (columnsOf ds) key := by
    intro key
    rw [respelled?_eq]
    cases isSupported (columnsOf ds) key <;> rfl
  simp only [hnone]

/-! ### Schemas -/

/-- The tables of some declarations are their groups. -/
theorem tables_schemaOf (ds : List Declaration) :
    (schemaOf ds).tables =
      (declaredNames ds).map fun name => groupedTable name (definitionsOf ds name) := by
  show (declaredTables ds).map Table.reconciled = _
  rw [declaredTables_eq, List.map_map]
  exact List.map_congr_left fun name _ => reconciled_recordAll name _

/-- One declaration makes one table. -/
theorem tables_schemaOf_singleton (d : Declaration) :
    (schemaOf [d]).tables = [groupedTable d.table d.definitions] := by
  have hnames : declaredNames [d] = [d.table] := rfl
  rw [tables_schemaOf, hnames, List.map_singleton, definitionsOf_singleton, if_pos rfl]

/-- The warnings of some declarations: first about definitions, in order,
    then about keys, group by group. -/
theorem warnings_schemaOf (ds : List Declaration) :
    (schemaOf ds).warnings =
      (ds.flatMap (·.definitions)).filterMap (fun d => d.unrecognized?.map .unrecognized)
        ++ (declaredNames ds).flatMap
          fun name => groupedKeyWarnings name (definitionsOf ds name) := by
  show ds.flatMap Declaration.warnings ++ (declaredTables ds).flatMap Table.discrepancies = _
  congr 1
  · rw [List.filterMap_flatMap]
    refine List.flatMap_congr fun d _ => ?_
    rw [Declaration.warnings]
    congr 1
    funext definition
    cases definition <;> rfl
  · rw [declaredTables_eq, List.flatMap_map]
    exact List.flatMap_congr fun name _ => discrepancies_recordAll name _

/-! ### Nothing is lost or doubled -/

/-- Gathering the declarations of distinct names only reorders them. -/
theorem perm_flatMap_filter (ds : List Declaration) {names : List Text} (h : names.Nodup) :
    (names.flatMap fun name => ds.filter fun d => d.table = name).Perm
      (ds.filter fun d => d.table ∈ names) := by
  induction names with
  | nil => simp
  | cons n ns ih =>
    obtain ⟨hn, hns⟩ := List.nodup_cons.1 h
    have hfirst : (ds.filter fun d => d.table ∈ n :: ns).filter (fun d => d.table = n) =
        ds.filter fun d => d.table = n := by
      rw [List.filter_filter]
      refine List.filter_congr fun d _ => ?_
      by_cases hd : d.table = n <;> simp [hd]
    have hrest : (ds.filter fun d => d.table ∈ n :: ns).filter (fun d => !decide (d.table = n)) =
        ds.filter fun d => d.table ∈ ns := by
      rw [List.filter_filter]
      refine List.filter_congr fun d _ => ?_
      by_cases hd : d.table = n
      · simp [hd, hn]
      · simp [hd]
    have hsplit := List.filter_append_perm (fun d : Declaration => decide (d.table = n))
      (ds.filter fun d => d.table ∈ n :: ns)
    rw [hfirst, hrest] at hsplit
    rw [List.flatMap_cons]
    exact ((ih hns).append_left _).trans hsplit

/-- The groups of all declared names share out the definitions. -/
theorem perm_flatMap_definitionsOf (ds : List Declaration) :
    ((declaredNames ds).flatMap (definitionsOf ds)).Perm (ds.flatMap (·.definitions)) := by
  have hall : ds.filter (fun d => d.table ∈ declaredNames ds) = ds := by
    refine List.filter_eq_self.2 fun d hd => ?_
    exact decide_eq_true (mem_declaredNames.2 ⟨d, hd, rfl⟩)
  have hperm := perm_flatMap_filter ds (nodup_declaredNames ds)
  rw [hall] at hperm
  have hdef := hperm.flatMap_right (·.definitions)
  rw [List.flatMap_assoc] at hdef
  exact hdef

/-- **A script's schema is the grouping of its statements.** Each statement
    declares the definitions that stand between the commas of its body.  The
    tables are those of the distinct names of the statements.  The warnings quote 120
    characters of each definition that could not be read, in order, and then
    speak of the keys, table by table.  The groups share out the definitions
    of all statements, so none is lost and none counts twice. -/
theorem parseSchema_eq_grouped (script : Text) :
    let ds := (scriptStatements script).map fun s =>
      Declaration.mk s.name ((splitTopLevel ',' s.body).map classify)
    (parseSchema script).tables =
        (declaredNames ds).map (fun name => groupedTable name (definitionsOf ds name)) ∧
      (parseSchema script).warnings.map Warning.message =
        ((ds.flatMap (·.definitions)).filterMap Definition.unrecognized?).map
            (fun text => ("unrecognized definition: " : Text) ++ text.take 120)
          ++ (declaredNames ds).flatMap (fun name =>
            (groupedKeyWarnings name (definitionsOf ds name)).map Warning.message) ∧
      ((declaredNames ds).flatMap (definitionsOf ds)).Perm (ds.flatMap (·.definitions)) := by
  intro ds
  refine ⟨tables_schemaOf ds, ?_, perm_flatMap_definitionsOf ds⟩
  show (schemaOf ds).warnings.map Warning.message = _
  rw [warnings_schemaOf, List.map_append, List.map_flatMap, List.map_filterMap, List.map_filterMap]
  congr 1
  refine List.filterMap_congr fun definition _ => ?_
  cases definition <;> rfl

end SchemaDiagram.Ddl
