import SchemaDiagram.Proofs.Composition
import SchemaDiagram.Proofs.Printing

/-! # RoundTrip — printed tables, read back

    A script that was printed from some tables declares these tables and
    nothing else, and nothing in it is complained about.

      * `Table.Printable`             — tables that can be printed and read back
      * `IsPrintedDefinition`         — definitions that the scans of a script
                                        leave whole
      * `parseSchema_statementText`   — what a statement of such definitions
                                        declares
      * `scriptStatements_printScript`
                                      — the statements of a printed script
      * `declaration_bodyText`        — what each of them declares
      * `schemaOf_declarations`       — the schema of such declarations
      * `parseSchema_printScript`     — parsing undoes printing -/

namespace SchemaDiagram

open Ddl (IsQuotable IsPrintableColumn IsQuotableKey isQuotable_of_isPlain quotedName)

/-- A table that can be printed and read back.  Its names may hold commas,
    quotes, line ends and keywords. -/
structure Table.Printable (t : Table) : Prop where
  name : IsQuotable t.name
  columns : ∀ c ∈ t.columns, IsPrintableColumn c
  /-- a key finds a column by its name in any letter case -/
  columns_distinct :
    t.columns.Pairwise fun c d => Text.equalsIgnoringCase c.name d.name = false
  primaryKeys_declared : ∀ name ∈ t.primaryKeys, ∃ c ∈ t.columns, c.name = name
  foreignKeys_declared :
    ∀ key ∈ t.foreignKeys, ∀ name ∈ key.columns, ∃ c ∈ t.columns, c.name = name
  refTables : ∀ key ∈ t.foreignKeys, IsQuotable key.refTable
  refColumns : ∀ key ∈ t.foreignKeys, ∀ name ∈ key.refColumns, IsQuotable name
  constraintNames : ∀ key ∈ t.foreignKeys, ∀ name ∈ key.constraintName, IsQuotable name

namespace Ddl

open Text (joined trim Trimmed trim_eq_self)

/-! ### Definitions -/

theorem fragment_nameList {listed : Bool} {names : List Text}
    (h : ∀ name ∈ names, IsQuotable name) : Fragment listed (nameList names) := by
  have hsep : Fragment true ", " := .append .comma (.free (c := ' ') (by decide))
  have hnames : Fragment true (joined ", " (names.map quotedName)) := by
    refine .joined hsep fun part hpart => ?_
    obtain ⟨name, hname, rfl⟩ := List.mem_map.1 hpart
    exact .name (h name hname)
  exact hnames.group

theorem fragment_columnText {name type tail : Text} (hname : isPlain name = true)
    (htype : IsTypeText type) (htail : Fragment false tail) :
    Fragment false (columnText name type tail) := by
  have hquoted : Fragment false (quotedName name) := .name (isQuotable_of_isPlain hname)
  have hspace : Fragment false [' '] := .free (by decide)
  exact hquoted.append (hspace.append ((fragment_of_isTypeText htype).append htail))

theorem fragment_nullText (nullable : Bool) : Fragment false (nullText nullable) :=
  .of_free (by cases nullable <;> decide)

theorem fragment_primaryKey {names : List Text} (h : ∀ name ∈ names, IsQuotable name) :
    Fragment false ("PRIMARY KEY " ++ nameList names) :=
  .append (.of_free (by decide)) (fragment_nameList h)

theorem fragment_foreignKey {key : ForeignKey} (h : IsQuotableKey key) :
    Fragment false key.toDefinition := by
  have hbody : ∀ {front : Text}, Fragment false front →
      Fragment false (front ++ "FOREIGN KEY " ++ nameList key.columns ++ " REFERENCES "
        ++ quotedName key.refTable ++ " " ++ nameList key.refColumns) := by
    intro front hfront
    have hkey := hfront.append (.of_free (s := "FOREIGN KEY ") (by decide))
    have hcolumns := hkey.append (fragment_nameList h.columns)
    have hreferences := hcolumns.append (.of_free (s := " REFERENCES ") (by decide))
    have htable := hreferences.append (.name h.refTable)
    have hspace := htable.append (.of_free (s := " ") (by decide))
    exact hspace.append (fragment_nameList h.refColumns)
  unfold ForeignKey.toDefinition
  split
  · next name hname =>
    have hquoted : Fragment false (quotedName name) := .name (h.constraintName name hname)
    exact hbody (.append (.append (.of_free (by decide)) hquoted) (.of_free (by decide)))
  · exact hbody .nil

/-- A definition that the scans of a script leave whole. -/
structure IsPrintedDefinition (d : Text) : Prop where
  fragment : Fragment false d
  trimmed : Trimmed d
  ne_nil : d ≠ []

theorem isPrintedDefinition_columnText {name type tail : Text} (hname : isPlain name = true)
    (htype : IsTypeText type) (htail : IsConstraintText tail) (hfragment : Fragment false tail) :
    IsPrintedDefinition (columnText name type tail) where
  fragment := fragment_columnText hname htype hfragment
  trimmed := trimmed_columnText htype htail name
  ne_nil := by simp [columnText, quotedName_ne_nil]

theorem isPrintedDefinition_column {c : Column} (h : IsWrittenColumn c) :
    IsPrintedDefinition c.toDefinition := by
  rw [toDefinition_eq]
  exact isPrintedDefinition_columnText h.name h.declaredType (isConstraintText_nullText c.nullable)
    (fragment_nullText c.nullable)

theorem ne_nil_of_getLast? {s : Text} {c : Char} (h : s.getLast? = some c) : s ≠ [] := by
  rintro rfl
  cases h

theorem isPrintedDefinition_primaryKey {names : List Text} (h : ∀ name ∈ names, IsQuotable name) :
    IsPrintedDefinition ("PRIMARY KEY " ++ nameList names) where
  fragment := fragment_primaryKey h
  trimmed := trimmed_primaryKey names
  ne_nil := ne_nil_of_getLast? (getLast?_nameList _ names)

theorem isPrintedDefinition_foreignKey {key : ForeignKey} (h : IsQuotableKey key) :
    IsPrintedDefinition key.toDefinition where
  fragment := fragment_foreignKey h
  trimmed := trimmed_foreignKey key
  ne_nil := ne_nil_of_getLast? (getLast?_nameList _ key.refColumns)

section Table

variable {t : Table} (h : t.Printable)
include h

/-- The names of a printable primary key are plain. -/
theorem isQuotable_of_mem_primaryKeys : ∀ name ∈ t.primaryKeys.toList, IsQuotable name := by
  intro name hname
  obtain ⟨c, hc, rfl⟩ := h.primaryKeys_declared name hname
  exact isQuotable_of_isPlain (h.columns c hc).name

theorem isQuotableKey_of_mem {key : ForeignKey} (hkey : key ∈ t.foreignKeys) :
    IsQuotableKey key where
  columns := fun name hname => by
    obtain ⟨c, hc, rfl⟩ := h.foreignKeys_declared key hkey name hname
    exact isQuotable_of_isPlain (h.columns c hc).name
  refTable := h.refTables key hkey
  refColumns := h.refColumns key hkey
  constraintName := h.constraintNames key hkey

theorem isPrintedDefinition_of_mem_toDefinitions :
    ∀ d ∈ t.toDefinitions, IsPrintedDefinition d := by
  intro d hd
  rcases List.mem_append.1 hd with hd | hd
  · rcases List.mem_append.1 hd with hd | hd
    · obtain ⟨c, hc, rfl⟩ := List.mem_map.1 hd
      exact isPrintedDefinition_column (h.columns c hc).isWrittenColumn
    · rw [Option.mem_toList, Table.primaryKeyDefinition?] at hd
      split at hd
      · cases hd
      · rw [← Option.mem_some_iff.1 hd]
        exact isPrintedDefinition_primaryKey (isQuotable_of_mem_primaryKeys h)
  · obtain ⟨key, hkey, rfl⟩ := List.mem_map.1 hd
    exact isPrintedDefinition_foreignKey (isQuotableKey_of_mem h hkey)

end Table

/-! ### Statements -/

/-- The statement that declares a table with some definitions. -/
def statementText (name : Text) (definitions : List Text) : Text :=
  "CREATE TABLE " ++ quotedName name ++ " (" ++ joined ", " definitions ++ ");"

/-- The name of a table whose head is a name in backticks. -/
theorem tableName_quotedName (name : Text) :
    tableName (' ' :: (quotedName name ++ [' '])) = bareName (quotedName name) := by
  have htrim : trim (' ' :: (quotedName name ++ [' '])) = quotedName name := by
    have hfront := Text.trim_blanks_append (b := [' ']) (quotedName name ++ [' ']) (by decide)
    have hback := Text.trim_append_blanks (quotedName name) (b := [' ']) (by decide)
    rw [hback, trim_eq_self (trimmed_quotedName name)] at hfront
    exact hfront
  -- the head starts with a backtick, and so not with the word IF
  have hdrop : dropIfNotExists (quotedName name) = quotedName name := rfl
  rw [tableName, htrim, hdrop]

section Statement

variable {definitions : List Text} (h : ∀ d ∈ definitions, IsPrintedDefinition d)
include h

theorem fragment_definitions : Fragment true (joined ", " definitions) :=
  .joined (.append .comma (.free (c := ' ') (by decide))) fun d hd => (h d hd).fragment.toListed

/-- The definitions of a statement are found again. -/
theorem splitTopLevel_definitions : splitTopLevel ',' (joined ", " definitions) = definitions := by
  refine splitTopLevel_joined fun d hd => ⟨?_, (h d hd).trimmed, (h d hd).ne_nil⟩
  exact sealed_of_fragment (h d hd).fragment (by simp)

variable {name : Text} (hname : IsQuotable name)
include hname

/-- A statement is the next one of a text that starts with it. -/
theorem nextStatement?_statementText (rest : Text) :
    nextStatement? (statementText name definitions ++ rest) =
      some (⟨name, joined ", " definitions⟩, ';' :: rest) := by
  have htext : statementText name definitions ++ rest = "CREATE TABLE" ++
      ((' ' :: (quotedName name ++ [' '])) ++ '(' :: (joined ", " definitions ++
        ')' :: ';' :: rest)) := by
    have hphrase : ("CREATE TABLE " : Text) = "CREATE TABLE" ++ [' '] := rfl
    have hopen : (" (" : Text) = [' ', '('] := rfl
    have hclose : (");" : Text) = [')', ';'] := rfl
    unfold statementText
    rw [hphrase, hopen, hclose]
    simp only [List.append_assoc, List.cons_append, List.nil_append]
  have hhead : '(' ∉ ' ' :: (quotedName name ++ [' ']) := by
    have hmark := not_mem_of_isQuotable (d := '(') hname (by decide)
    simp [quotedName_eq, hmark]
  have hclose : closeGroup? 0 (joined ", " definitions ++ ')' :: ';' :: rest) =
      some (joined ", " definitions, ';' :: rest) := by
    rw [closeGroup?_append_of_fragment (fragment_definitions h), closeGroup?.eq_2, Option.map_some]
    show some (joined ", " definitions ++ [], ';' :: rest) = _
    rw [List.append_nil]
  rw [htext, nextStatement?_of_parts hhead hclose, tableName_quotedName, bareName_quotedName hname]

theorem fragment_statementText : Fragment true (statementText name definitions) := by
  have hquoted : Fragment true (quotedName name) := .name hname
  have hhead := Fragment.append (.of_free (s := "CREATE TABLE ") (by decide)) hquoted
  have hspace := hhead.append (.of_free (s := " ") (by decide))
  have hgroup := hspace.append (fragment_definitions h).group
  have hstatement := hgroup.append (.of_free (s := ";") (by decide))
  have htext : statementText name definitions =
      "CREATE TABLE " ++ quotedName name ++ " " ++ '(' :: (joined ", " definitions ++ [')'])
        ++ ";" := by
    have hopen : (" (" : Text) = " " ++ ['('] := rfl
    have hclose : (");" : Text) = [')'] ++ ";" := rfl
    unfold statementText
    rw [hopen, hclose]
    simp only [List.append_assoc, List.cons_append, List.nil_append]
  rw [htext]
  exact hstatement

/-- A statement alone is a script of one statement. -/
theorem statements_statementText :
    statements (statementText name definitions) = [⟨name, joined ", " definitions⟩] := by
  have hlast : statements [';'] = [] := statements_of_none rfl
  have hnext := statements_of_some (nextStatement?_statementText h hname [])
  rwa [List.append_nil, if_neg hname.ne_nil, hlast] at hnext

/-- **What a statement declares** is what its definitions are classified as. -/
theorem parseSchema_statementText :
    parseSchema (statementText name definitions) =
      schemaOf [⟨name, definitions.map classify⟩] := by
  have hplain := stripComments_of_fragment (fragment_statementText h hname)
  rw [parseSchema, scriptStatements, hplain, statements_statementText h hname, List.map_singleton,
    Statement.declaration, splitTopLevel_definitions h]

end Statement

/-! ### Declarations -/

/-- The body of a printed table. -/
def bodyText (t : Table) : Text := joined ", " t.toDefinitions

/-- What a printed table declares. -/
def declarationOf (t : Table) : Declaration where
  table := t.name
  definitions :=
    t.columns.map (fun c => .column ⟨c, false, none⟩)
      ++ (if t.primaryKeys.toList = [] then [] else [.primaryKey t.primaryKeys.toList])
      ++ t.foreignKeys.map .foreignKey

/-- **A printed statement declares its table.** -/
theorem declaration_bodyText {t : Table} (h : t.Printable) :
    Statement.declaration ⟨t.name, bodyText t⟩ = declarationOf t := by
  have hsplit : splitTopLevel ',' (bodyText t) = t.toDefinitions :=
    splitTopLevel_definitions (isPrintedDefinition_of_mem_toDefinitions h)
  have hcolumns : (t.columns.map Column.toDefinition).map classify =
      t.columns.map fun c => .column ⟨c, false, none⟩ := by
    rw [List.map_map]
    exact List.map_congr_left fun c hc => classify_column (h.columns c hc).isWrittenColumn
  have hprimary : t.primaryKeyDefinition?.toList.map classify =
      if t.primaryKeys.toList = [] then [] else [.primaryKey t.primaryKeys.toList] := by
    rw [Table.primaryKeyDefinition?]
    split
    · rfl
    · exact congrArg (fun d => [d]) (classify_primaryKey (isQuotable_of_mem_primaryKeys h))
  have hforeign : (t.foreignKeys.map ForeignKey.toDefinition).map classify =
      t.foreignKeys.map .foreignKey := by
    rw [List.map_map]
    exact List.map_congr_left fun key hkey => classify_foreignKey (isQuotableKey_of_mem h hkey)
  rw [Statement.declaration, hsplit, Table.toDefinitions, List.map_append, List.map_append,
    hcolumns, hprimary, hforeign]
  rfl

/-! ### Scripts -/

section Script

variable {tables : List Table} (h : ∀ t ∈ tables, t.Printable)
include h

theorem stripComments_printScript : stripComments (printScript tables) = printScript tables := by
  have hprinted : Fragment true (printScript tables) := by
    refine .joined (.of_free (by decide)) fun s hs => ?_
    obtain ⟨t, ht, rfl⟩ := List.mem_map.1 hs
    exact fragment_statementText (isPrintedDefinition_of_mem_toDefinitions (h t ht)) (h t ht).name
  exact stripComments_of_fragment hprinted

theorem statements_printScript :
    statements (printScript tables) = tables.map fun t => ⟨t.name, bodyText t⟩ := by
  induction tables with
  | nil => exact statements_of_none rfl
  | cons t ts ih =>
    obtain ⟨ht, hts⟩ := List.forall_mem_cons.1 h
    have hdefinitions := isPrintedDefinition_of_mem_toDefinitions ht
    cases ts with
    | nil =>
      have htext : printScript [t] = statementText t.name t.toDefinitions :=
        Text.joined_singleton _ _
      rw [htext, statements_statementText hdefinitions ht.name]
      rfl
    | cons u us =>
      -- the end of a statement and the line end behind it start no other statement
      have hskip : statements (';' :: '\n' :: printScript (u :: us)) =
          statements (printScript (u :: us)) := statements_congr rfl
      have hfirst := statements_of_some
        (nextStatement?_statementText hdefinitions ht.name ('\n' :: printScript (u :: us)))
      have htext : printScript (t :: u :: us) =
          statementText t.name t.toDefinitions ++ '\n' :: printScript (u :: us) := by
        show joined "\n" (t.toStatement :: u.toStatement :: us.map Table.toStatement) = _
        rw [Text.joined_cons_cons, List.append_assoc]
        rfl
      rw [if_neg ht.name.ne_nil, hskip, ih hts] at hfirst
      rw [htext, hfirst]
      rfl

/-- **The statements of a printed script** are those of its tables. -/
theorem scriptStatements_printScript :
    scriptStatements (printScript tables) = tables.map fun t => ⟨t.name, bodyText t⟩ := by
  rw [scriptStatements, stripComments_printScript h, statements_printScript h]

end Script

/-! ### Schemas -/

theorem columnsOf_declarationOf (t : Table) :
    columnsOf (declarationOf t).definitions = t.columns := by
  simp only [columnsOf, declarationOf, List.filterMap_append, List.filterMap_map]
  split <;> simp [Function.comp_def, Definition.column?]

theorem primaryKeyNamesOf_declarationOf (t : Table) :
    primaryKeyNamesOf (declarationOf t).definitions = t.primaryKeys.toList := by
  have hcolumns : t.columns.flatMap
      (fun c => Definition.primaryKeyNames (.column ⟨c, false, none⟩)) = [] :=
    List.flatMap_eq_nil_iff.2 fun _ _ => rfl
  have hforeign : t.foreignKeys.flatMap
      (fun key => Definition.primaryKeyNames (.foreignKey key)) = [] :=
    List.flatMap_eq_nil_iff.2 fun _ _ => rfl
  simp only [primaryKeyNamesOf, declarationOf, List.flatMap_append, List.flatMap_map, hcolumns,
    hforeign]
  split
  · next hnil => rw [hnil]; rfl
  · simp [Definition.primaryKeyNames]

theorem foreignKeysOf_declarationOf (t : Table) :
    foreignKeysOf (declarationOf t).definitions = t.foreignKeys := by
  simp only [foreignKeysOf, declarationOf, List.flatMap_append, List.flatMap_map]
  split <;> simp [Definition.foreignKeys]

theorem unrecognized?_declarationOf (t : Table) :
    ∀ d ∈ (declarationOf t).definitions, d.unrecognized? = none := by
  intro d hd
  simp only [declarationOf, List.mem_append, List.mem_map] at hd
  -- a column, the primary key or a foreign key
  rcases hd with (⟨c, _, rfl⟩ | hd) | ⟨key, _, rfl⟩
  · rfl
  · split at hd
    · cases hd
    · rw [List.mem_singleton.1 hd]
      rfl
  · rfl

/-- Columns that differ in more than letter case are found by their names. -/
theorem spelling?_of_mem {columns : List Column}
    (h : columns.Pairwise fun c d => Text.equalsIgnoringCase c.name d.name = false) {c : Column}
    (hc : c ∈ columns) : spelling? columns c.name = some c.name := by
  induction columns with
  | nil => cases hc
  | cons d columns ih =>
    obtain ⟨hd, hcolumns⟩ := List.pairwise_cons.1 h
    rcases List.mem_cons.1 hc with rfl | hc
    · exact List.find?_cons_of_pos (Text.equalsIgnoringCase_refl c.name)
    · rw [spelling?, List.map_cons, List.find?_cons_of_neg (by simp [hd c hc])]
      exact ih hcolumns hc

section Schema

variable {t : Table} (h : t.Printable)
include h

/-- A printable table spells its columns as its keys do. -/
theorem spelling?_of_declared {name : Text} (hname : ∃ c ∈ t.columns, c.name = name) :
    spelling? t.columns name = some name := by
  obtain ⟨c, hc, rfl⟩ := hname
  exact spelling?_of_mem h.columns_distinct hc

theorem isSupported_of_mem {key : ForeignKey} (hkey : key ∈ t.foreignKeys) :
    isSupported t.columns key = true := by
  refine List.all_eq_true.2 fun name hname => ?_
  rw [spelling?_of_declared h (h.foreignKeys_declared key hkey name hname)]
  rfl

theorem respell_of_mem {key : ForeignKey} (hkey : key ∈ t.foreignKeys) :
    respell t.columns key = key := by
  have hcolumns : key.columns.map (fun name => (spelling? t.columns name).getD name) =
      key.columns.map id := by
    refine List.map_congr_left fun name hname => ?_
    rw [spelling?_of_declared h (h.foreignKeys_declared key hkey name hname)]
    rfl
  rw [respell, hcolumns, List.map_id]

/-- **The definitions of a printed table add up to the table.** -/
theorem groupedTable_declarationOf : groupedTable t.name (declarationOf t).definitions = t := by
  have hprimary : NameSet.ofList (t.primaryKeys.toList.filterMap (spelling? t.columns)) =
      t.primaryKeys := by
    refine NameSet.ext fun name => ?_
    rw [NameSet.mem_ofList, List.mem_filterMap]
    constructor
    · rintro ⟨written, hwritten, hname⟩
      rw [spelling?_of_declared h (h.primaryKeys_declared written hwritten)] at hname
      exact Option.some.inj hname ▸ hwritten
    · intro hname
      exact ⟨name, hname, spelling?_of_declared h (h.primaryKeys_declared name hname)⟩
  have hforeign : (t.foreignKeys.filter (isSupported t.columns)).map (respell t.columns) =
      t.foreignKeys := by
    have hall : t.foreignKeys.filter (isSupported t.columns) = t.foreignKeys :=
      List.filter_eq_self.2 fun key hkey => isSupported_of_mem h hkey
    have hid : t.foreignKeys.map (respell t.columns) = t.foreignKeys.map id :=
      List.map_congr_left fun key hkey => respell_of_mem h hkey
    rw [hall, hid, List.map_id]
  simp only [groupedTable, columnsOf_declarationOf, primaryKeyNamesOf_declarationOf,
    foreignKeysOf_declarationOf, hprimary, hforeign]

/-- No key of it is left out. -/
theorem groupedKeyWarnings_declarationOf :
    groupedKeyWarnings t.name (declarationOf t).definitions = [] := by
  have hprimary : (inByteOrder t.primaryKeys.toList).filter
      (fun name => (spelling? t.columns name).isNone) = [] := by
    refine List.filter_eq_nil_iff.2 fun name hname => ?_
    rw [spelling?_of_declared h (h.primaryKeys_declared name (mem_inByteOrder.1 hname))]
    exact Bool.false_ne_true
  have hforeign : t.foreignKeys.filter (fun key => !isSupported t.columns key) = [] := by
    refine List.filter_eq_nil_iff.2 fun key hkey => ?_
    rw [isSupported_of_mem h hkey]
    exact Bool.false_ne_true
  simp only [groupedKeyWarnings, columnsOf_declarationOf, primaryKeyNamesOf_declarationOf,
    foreignKeysOf_declarationOf, hprimary, hforeign, List.map_nil, List.append_nil]

theorem schemaOf_singleton : schemaOf [declarationOf t] = ⟨[t], []⟩ := by
  have hnames : declaredNames [declarationOf t] = [t.name] := rfl
  have hdefinitions : definitionsOf [declarationOf t] t.name = (declarationOf t).definitions := by
    rw [definitionsOf_singleton]
    exact if_pos rfl
  have htables : (schemaOf [declarationOf t]).tables = [t] := by
    rw [tables_schemaOf_singleton]
    exact congrArg (fun u => [u]) (groupedTable_declarationOf h)
  have hread : (declarationOf t).definitions.filterMap
      (fun d => d.unrecognized?.map Warning.unrecognized) = [] := by
    refine List.filterMap_eq_nil_iff.2 fun d hd => ?_
    rw [unrecognized?_declarationOf t d hd]
    rfl
  have hwarnings : (schemaOf [declarationOf t]).warnings = [] := by
    rw [warnings_schemaOf, hnames, List.flatMap_singleton, List.flatMap_singleton, hread,
      hdefinitions, groupedKeyWarnings_declarationOf h]
    rfl
  calc schemaOf [declarationOf t]
      = ⟨(schemaOf [declarationOf t]).tables, (schemaOf [declarationOf t]).warnings⟩ := rfl
    _ = ⟨[t], []⟩ := by rw [htables, hwarnings]

end Schema

/-- **The schema of printed tables** is made of these tables, if no two of them
    share a name. -/
theorem schemaOf_declarations {tables : List Table} (hnames : (tables.map (·.name)).Nodup)
    (h : ∀ t ∈ tables, t.Printable) : schemaOf (tables.map declarationOf) = ⟨tables, []⟩ := by
  induction tables with
  | nil => rfl
  | cons t ts ih =>
    obtain ⟨ht, hts⟩ := List.forall_mem_cons.1 h
    obtain ⟨hname, hnames⟩ := List.nodup_cons.1 hnames
    have hapart : ∀ name ∈ declaredNames [declarationOf t],
        name ∉ declaredNames (ts.map declarationOf) := by
      intro name hleft hright
      obtain ⟨d, hd, rfl⟩ := mem_declaredNames.1 hleft
      obtain ⟨e, he, heq⟩ := mem_declaredNames.1 hright
      obtain ⟨u, hu, rfl⟩ := List.mem_map.1 he
      rw [List.mem_singleton.1 hd] at heq
      exact hname (List.mem_map.2 ⟨u, hu, heq⟩)
    obtain ⟨htables, hwarnings⟩ := schemaOf_append hapart
    rw [schemaOf_singleton ht, ih hnames hts] at htables hwarnings
    calc schemaOf ((t :: ts).map declarationOf)
        = ⟨(schemaOf ([declarationOf t] ++ ts.map declarationOf)).tables,
            (schemaOf ([declarationOf t] ++ ts.map declarationOf)).warnings⟩ := rfl
      _ = ⟨t :: ts, []⟩ := by rw [htables, hwarnings.eq_nil]; rfl

/-- **Parsing undoes printing.** -/
theorem parseSchema_printScript {tables : List Table} (hnames : (tables.map (·.name)).Nodup)
    (h : ∀ t ∈ tables, t.Printable) : parseSchema (printScript tables) = ⟨tables, []⟩ := by
  have hdeclarations : (scriptStatements (printScript tables)).map Statement.declaration =
      tables.map declarationOf := by
    rw [scriptStatements_printScript h, List.map_map]
    exact List.map_congr_left fun t ht => declaration_bodyText (h t ht)
  rw [parseSchema, hdeclarations, schemaOf_declarations hnames h]

/-- Names that hold keywords, quotes, commas and line ends, and a table without
    columns. -/
theorem parseSchema_printScript_keywords :
    let member : Table :=
      { name := "create table, it's"
        columns := [⟨"id", "int", false⟩, ⟨"key$", "Decimal(10, 2)", true⟩]
        primaryKeys := NameSet.ofList ["id"]
        foreignKeys := [⟨["id", "key$"], "primary\nkey /", ["x, y", "-"], some "FOREIGN KEY"⟩] }
    parseSchema (printScript [member, .named "/"]) = ⟨[member, .named "/"], []⟩ := by
  intro member
  have hmember : member.Printable :=
    { name := by decide
      columns := List.forall_mem_cons.2
        ⟨⟨rfl, .unsized (by decide)⟩, List.forall_mem_singleton.2
          ⟨rfl, @IsSizedType.sized "Decimal" "10, 2" (by decide) (List.all_eq_true.1 (by decide))⟩⟩
      columns_distinct := by decide
      primaryKeys_declared := by decide
      foreignKeys_declared := by decide
      refTables := by decide
      refColumns := by decide
      constraintNames := by decide }
  have hempty : (Table.named "/").Printable := by
    constructor
    case columns => exact fun c hc => absurd hc List.not_mem_nil
    all_goals decide
  exact parseSchema_printScript (by decide)
    (List.forall_mem_cons.2 ⟨hmember, List.forall_mem_singleton.2 hempty⟩)

end Ddl

end SchemaDiagram
