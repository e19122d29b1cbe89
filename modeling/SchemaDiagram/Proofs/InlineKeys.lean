import SchemaDiagram.Proofs.RoundTrip

/-! # InlineKeys — keys inside the definition of a column

    A column may be followed by PRIMARY KEY and REFERENCES in its own
    definition.  Its table is then the same as if the two keys were
    definitions of their own, right behind the column.

      * `inlineKeyText`              — the two constraints behind a type
      * `classify_inlineKey`         — what a column with them declares
      * `schemaOf_congr`             — a schema sees of its definitions only what
                                       they contribute
      * `parseSchema_inlineKey`      — both ways of writing declare one schema -/

namespace SchemaDiagram.Ddl

open Text (upper contains contains_eq_false_iff)

/-! ### The constraints of a column -/

/-- What makes a column the primary key and lets it refer to a column of
    another table. -/
def inlineKeyText (refTable refColumn : Text) : Text :=
  " PRIMARY KEY REFERENCES " ++ quotedName refTable ++ " " ++ nameList [refColumn]

/-- The foreign key that these constraints make of the column `name`. -/
def columnKey (name refTable refColumn : Text) : ForeignKey :=
  ⟨[name], refTable, [refColumn], none⟩

/-- The lexemes of the constraints. -/
def inlineKeyLexemes (refTable refColumn : Text) : List Lexeme :=
  wordLexeme [' '] "PRIMARY" :: wordLexeme [' '] "KEY" :: wordLexeme [' '] "REFERENCES" ::
    nameLexeme [' '] refTable :: nameListLexemes [refColumn]

theorem sourceText_inlineKeyLexemes (refTable refColumn : Text) :
    sourceText (inlineKeyLexemes refTable refColumn) = inlineKeyText refTable refColumn := by
  have hphrase : (" PRIMARY KEY REFERENCES " : Text) =
      " PRIMARY" ++ (" KEY" ++ (" REFERENCES" ++ [' '])) := rfl
  rw [inlineKeyLexemes, sourceText_cons, sourceText_cons, sourceText_cons, sourceText_cons,
    sourceText_nameListLexemes]
  unfold inlineKeyText
  rw [hphrase]
  simp [wordLexeme, nameLexeme]

/-- The space in front of the constraints ends the type. -/
theorem isConstraintText_inlineKeyText (refTable refColumn : Text) :
    IsConstraintText (inlineKeyText refTable refColumn) where
  head := by
    intro c hc
    exact Option.some.inj hc ▸ by decide
  last := by
    intro c hc
    have hlast : (inlineKeyText refTable refColumn).getLast? = some ')' :=
      getLast?_nameList _ [refColumn]
    rw [hlast, Option.mem_some_iff] at hc
    exact hc ▸ by decide
  typePart := by
    have hword : Text.firstWord (inlineKeyText refTable refColumn) = "PRIMARY" := rfl
    have hstart : startsConstraint (inlineKeyText refTable refColumn) = true := by
      rw [startsConstraint, hword]
      decide
    exact if_pos hstart

section InlineKey

variable {refTable refColumn : Text} (htable : isPlain refTable = true)
  (hcolumn : isPlain refColumn = true)
include htable hcolumn

theorem isQuotableKey_columnKey {name : Text} (hname : isPlain name = true) :
    IsQuotableKey (columnKey name refTable refColumn) where
  columns := List.forall_mem_singleton.2 (isQuotable_of_isPlain hname)
  refTable := isQuotable_of_isPlain htable
  refColumns := List.forall_mem_singleton.2 (isQuotable_of_isPlain hcolumn)
  constraintName := fun _ h => nomatch h

theorem fragment_inlineKeyText : Fragment false (inlineKeyText refTable refColumn) := by
  have htext : Fragment false " PRIMARY KEY REFERENCES " := .of_free (by decide)
  have hspace : Fragment false " " := .of_free (by decide)
  have hlist : Fragment false (nameList [refColumn]) :=
    fragment_nameList (List.forall_mem_singleton.2 (isQuotable_of_isPlain hcolumn))
  exact ((htext.append (.name (isQuotable_of_isPlain htable))).append hspace).append hlist

theorem lex_inlineKeyText :
    lex (inlineKeyText refTable refColumn) = inlineKeyLexemes refTable refColumn := by
  have hlegible : Legible (inlineKeyLexemes refTable refColumn) [] := by
    refine ⟨legible_wordLexeme (by decide) (by decide) (by decide) rfl,
      legible_wordLexeme (by decide) (by decide) (by decide) rfl,
      legible_wordLexeme (by decide) (by decide) (by decide) rfl,
      legible_nameLexeme (isQuotable_of_isPlain htable) (by decide) ?_,
      legible_nameListLexemes (List.forall_mem_singleton.2 (isQuotable_of_isPlain hcolumn)) []⟩
    rw [sourceText_nameListLexemes]
    simp
  rw [← sourceText_inlineKeyLexemes, lex_sourceText hlegible]

/-- The reference is found behind the words PRIMARY KEY. -/
theorem firstReference?_inlineKeyLexemes :
    firstReference? (inlineKeyLexemes refTable refColumn) = some (refTable, [refColumn]) := by
  have hread : reference? (nameLexeme [' '] refTable :: nameListLexemes [refColumn]) =
      some (refTable, [refColumn]) :=
    reference?_lexemes (isQuotableKey_columnKey htable hcolumn htable)
  have hwords : ∀ l ∈ [wordLexeme [' '] "PRIMARY", wordLexeme [' '] "KEY"],
      l.isWord "REFERENCES" = false := by decide
  have hlexemes : inlineKeyLexemes refTable refColumn =
      [wordLexeme [' '] "PRIMARY", wordLexeme [' '] "KEY"] ++ wordLexeme [' '] "REFERENCES" ::
        nameLexeme [' '] refTable :: nameListLexemes [refColumn] := rfl
  have hfound : (wordLexeme [' '] "REFERENCES").isWord "REFERENCES" = true := by decide
  rw [hlexemes, firstReference?_append hwords, firstReference?, if_pos hfound, hread,
    Option.some_or]

/-- The words NOT NULL do not stand in the constraints, and none of them ends
    in the constraints. -/
theorem not_pair_infix_inlineKeyText :
    ¬ [' ', 'N'] <:+: ' ' :: upper (inlineKeyText refTable refColumn) := by
  -- names hold no spaces, and start with a backtick
  have hquoted : ∀ {name : Text}, isPlain name = true → ¬ [' ', 'N'] <:+: upper (quotedName name) := by
    intro name hname hpair
    have hmem : ' ' ∈ quotedName name := space_mem_of_upper (hpair.subset (by simp))
    have hspace : ' ' ∉ name := fun hin =>
      absurd (isWordChar_of_isPlain hname ' ' hin) (by decide)
    simp [quotedName_eq, hspace] at hmem
  have htext : inlineKeyText refTable refColumn = " PRIMARY KEY REFERENCES " ++
      (quotedName refTable ++ (" (" ++ (quotedName refColumn ++ ")"))) := by
    have hopen : (" (" : Text) = " " ++ "(" := rfl
    unfold inlineKeyText nameList
    simp only [hopen, List.map_singleton, Text.joined_singleton, List.append_assoc]
  have hphrase : upper " PRIMARY KEY REFERENCES " = " PRIMARY KEY REFERENCES " := by
    decide
  have hopen : upper " (" = " (" := by decide
  have hclose : upper ")" = [')'] := by decide
  rw [htext, Text.upper_append, Text.upper_append, Text.upper_append, Text.upper_append, hphrase,
    hopen, hclose, ← List.cons_append]
  have hwords : ¬ [' ', 'N'] <:+: ' ' :: (" PRIMARY KEY REFERENCES " : Text) :=
    contains_eq_false_iff.1 (by decide)
  have hgap : ¬ [' ', 'N'] <:+: (" (" : Text) := contains_eq_false_iff.1 (by decide)
  -- where two parts meet there is a backtick or a parenthesis
  refine not_pair_infix_append hwords (not_pair_infix_append (hquoted htable)
    (not_pair_infix_append hgap (not_pair_infix_append (hquoted hcolumn)
      not_pair_infix_singleton ?_) ?_) ?_) ?_
  · exact fun _ => by decide
  · exact fun hlast => absurd hlast (by decide)
  · simp
  · rw [upper_quotedName, quotedName_eq]
    simp

/-- **A column with both constraints** declares the column, the primary key
    and the foreign key. -/
theorem classify_inlineKey {name type : Text} (hname : isPlain name = true)
    (htype : IsTypeText type) :
    classify (columnText name type (inlineKeyText refTable refColumn)) =
      .column ⟨⟨name, type, true⟩, true, some (columnKey name refTable refColumn)⟩ := by
  have hspace : ' ' ∉ name := fun hin => absurd (isWordChar_of_isPlain hname ' ' hin) (by decide)
  have hnull : contains "NOT NULL"
      (upper (columnText name type (inlineKeyText refTable refColumn))) = false := by
    unfold columnText
    exact not_contains_notNull hspace htype (not_pair_infix_inlineKeyText htable hcolumn)
  rw [classify_columnText hname htype (isConstraintText_inlineKeyText refTable refColumn), hnull,
    lex_inlineKeyText htable hcolumn, firstReference?_inlineKeyLexemes htable hcolumn]
  rfl

end InlineKey

/-! ### What a schema sees of its definitions -/

theorem columnsOf_append (ds es : List Definition) :
    columnsOf (ds ++ es) = columnsOf ds ++ columnsOf es := List.filterMap_append

theorem primaryKeyNamesOf_append (ds es : List Definition) :
    primaryKeyNamesOf (ds ++ es) = primaryKeyNamesOf ds ++ primaryKeyNamesOf es :=
  List.flatMap_append

theorem foreignKeysOf_append (ds es : List Definition) :
    foreignKeysOf (ds ++ es) = foreignKeysOf ds ++ foreignKeysOf es := List.flatMap_append

/-- Some definitions of a table may be replaced by others that contribute the
    same columns, the same names in keys and the same unread definitions. -/
theorem schemaOf_congr (name : Text) (before after : List Definition) {ds es : List Definition}
    (hcolumns : columnsOf ds = columnsOf es)
    (hprimary : primaryKeyNamesOf ds = primaryKeyNamesOf es)
    (hforeign : foreignKeysOf ds = foreignKeysOf es)
    (hunread : ds.filterMap Definition.unrecognized? = es.filterMap Definition.unrecognized?) :
    schemaOf [⟨name, before ++ ds ++ after⟩] = schemaOf [⟨name, before ++ es ++ after⟩] := by
  have htables : (schemaOf [⟨name, before ++ ds ++ after⟩]).tables =
      (schemaOf [⟨name, before ++ es ++ after⟩]).tables := by
    simp only [tables_schemaOf_singleton, groupedTable, columnsOf_append, primaryKeyNamesOf_append,
      foreignKeysOf_append, hcolumns, hprimary, hforeign]
  have hkeys : groupedKeyWarnings name (before ++ ds ++ after) =
      groupedKeyWarnings name (before ++ es ++ after) := by
    simp only [groupedKeyWarnings, columnsOf_append, primaryKeyNamesOf_append,
      foreignKeysOf_append, hcolumns, hprimary, hforeign]
  -- with one statement every warning comes from that statement
  have hnames : ∀ definitions, declaredNames [⟨name, definitions⟩] = [name] := fun _ => rfl
  have hwarnings : (schemaOf [⟨name, before ++ ds ++ after⟩]).warnings =
      (schemaOf [⟨name, before ++ es ++ after⟩]).warnings := by
    simp only [warnings_schemaOf, hnames, List.flatMap_singleton, definitionsOf_singleton, if_true,
      hkeys, ← List.map_filterMap, List.filterMap_append, hunread]
  calc schemaOf [⟨name, before ++ ds ++ after⟩]
      = ⟨(schemaOf [⟨name, before ++ ds ++ after⟩]).tables,
          (schemaOf [⟨name, before ++ ds ++ after⟩]).warnings⟩ := rfl
    _ = schemaOf [⟨name, before ++ es ++ after⟩] := by rw [htables, hwarnings]

/-! ### Both ways of writing -/

/-- The definitions that may stand beside a column: columns, primary keys and
    foreign keys, of names that are declared or not, repeated or not. -/
inductive IsSimpleDefinition : Text → Prop
  | column {c : Column} (h : IsWrittenColumn c) : IsSimpleDefinition c.toDefinition
  | primaryKey {names} (h : ∀ name ∈ names, IsQuotable name) :
      IsSimpleDefinition ("PRIMARY KEY " ++ nameList names)
  | foreignKey {key : ForeignKey} (h : IsQuotableKey key) : IsSimpleDefinition key.toDefinition

theorem isPrintedDefinition_of_isSimpleDefinition {d : Text} (h : IsSimpleDefinition d) :
    IsPrintedDefinition d := by
  cases h with
  | column hc => exact isPrintedDefinition_column hc
  | primaryKey hnames => exact isPrintedDefinition_primaryKey hnames
  | foreignKey hkey => exact isPrintedDefinition_foreignKey hkey

/-- A column that is declared is found, in some spelling. -/
theorem exists_spelling? {columns : List Column} {c : Column} (h : c ∈ columns) :
    ∃ declared, spelling? columns c.name = some declared := by
  refine Option.isSome_iff_exists.1 (List.find?_isSome.2 ?_)
  exact ⟨c.name, List.mem_map_of_mem h, Text.equalsIgnoringCase_refl c.name⟩

/-- The column that one definition declares and the keys of two others are
    part of their table, the keys in the spelling of the declaration that the
    table goes by. -/
theorem keys_of_columnKey (table refTable refColumn : Text) (c : Column)
    (before after : List Definition) :
    let t := groupedTable table (before ++ [.column ⟨c, false, none⟩, .primaryKey [c.name],
      .foreignKey (columnKey c.name refTable refColumn)] ++ after)
    c ∈ t.columns ∧ ∃ declared, t.declaredColumn? c.name = some declared ∧
      declared ∈ t.primaryKeys ∧ columnKey declared refTable refColumn ∈ t.foreignKeys := by
  intro t
  have hcolumn : c ∈ t.columns := by
    show c ∈ columnsOf _
    rw [columnsOf_append, columnsOf_append]
    exact List.mem_append_left _ (List.mem_append_right _ (List.mem_singleton_self c))
  obtain ⟨declared, hdeclared⟩ := exists_spelling? hcolumn
  refine ⟨hcolumn, declared, ?_, ?_, ?_⟩
  · rw [declaredColumn?_eq]
    exact hdeclared
  · refine NameSet.mem_ofList.2 (List.mem_filterMap.2 ⟨c.name, ?_, hdeclared⟩)
    rw [primaryKeyNamesOf_append, primaryKeyNamesOf_append]
    exact List.mem_append_left _ (List.mem_append_right _ (List.mem_singleton_self c.name))
  · -- the column of the key is declared, so the key is not taken away
    have hsupported : isSupported t.columns (columnKey c.name refTable refColumn) = true := by
      simp [isSupported, columnKey, hdeclared]
    refine List.mem_map.2 ⟨columnKey c.name refTable refColumn, List.mem_filter.2 ⟨?_, hsupported⟩, ?_⟩
    · rw [foreignKeysOf_append, foreignKeysOf_append]
      exact List.mem_append_left _ (List.mem_append_right _ (List.mem_singleton_self _))
    · show respell t.columns _ = _
      simp [respell, columnKey, hdeclared]

/-- Definitions that stand among simple ones are read one by one, as they
    are. -/
theorem parseSchema_among {table : Text} {before middle after : List Text}
    (htable : IsQuotable table) (hbefore : ∀ d ∈ before, IsSimpleDefinition d)
    (hmiddle : ∀ d ∈ middle, IsPrintedDefinition d) (hafter : ∀ d ∈ after, IsSimpleDefinition d) :
    parseSchema (statementText table (before ++ middle ++ after)) =
      schemaOf [⟨table,
        before.map classify ++ middle.map classify ++ after.map classify⟩] := by
  have hsimple : ∀ {ds : List Text}, (∀ d ∈ ds, IsSimpleDefinition d) →
      ∀ d ∈ ds, IsPrintedDefinition d := fun h d hd =>
    isPrintedDefinition_of_isSimpleDefinition (h d hd)
  have hall : ∀ d ∈ before ++ middle ++ after, IsPrintedDefinition d :=
    List.forall_mem_append.2
      ⟨List.forall_mem_append.2 ⟨hsimple hbefore, hmiddle⟩, hsimple hafter⟩
  rw [parseSchema_statementText hall htable, List.map_append, List.map_append]

/-- **Keys inside the definition of a column are keys of its table.** A column
    with the constraints PRIMARY KEY and REFERENCES may be written as the
    column alone with both keys behind it, whatever columns and keys stand
    around it: the schema is the same, warnings included.  The column and both
    keys are part of it, each key in the spelling of the first column of that
    name. -/
theorem parseSchema_inlineKey {table name type refTable refColumn : Text}
    {before after : List Text} (htable : IsQuotable table) (hname : isPlain name = true)
    (htype : IsTypeText type) (hrefTable : isPlain refTable = true)
    (hrefColumn : isPlain refColumn = true) (hbefore : ∀ d ∈ before, IsSimpleDefinition d)
    (hafter : ∀ d ∈ after, IsSimpleDefinition d) :
    let column : Column := ⟨name, type, true⟩
    let inside := parseSchema (statementText table
      (before ++ [columnText name type (inlineKeyText refTable refColumn)] ++ after))
    let outside := parseSchema (statementText table
      (before ++ [column.toDefinition, "PRIMARY KEY " ++ nameList [name],
        (columnKey name refTable refColumn).toDefinition] ++ after))
    inside = outside ∧
      ∃ t declared, outside.tables = [t] ∧ t.name = table ∧ column ∈ t.columns ∧
        t.declaredColumn? name = some declared ∧ declared ∈ t.primaryKeys ∧
        columnKey declared refTable refColumn ∈ t.foreignKeys := by
  intro column inside outside
  have hcolumn : IsWrittenColumn column := ⟨hname, htype⟩
  have hnames : ∀ n ∈ [name], IsQuotable n :=
    List.forall_mem_singleton.2 (isQuotable_of_isPlain hname)
  have hkey : IsQuotableKey (columnKey name refTable refColumn) :=
    isQuotableKey_columnKey hrefTable hrefColumn hname
  have hinside : inside = schemaOf [⟨table, before.map classify
      ++ [.column ⟨column, true, some (columnKey name refTable refColumn)⟩]
      ++ after.map classify⟩] := by
    have hinline := isPrintedDefinition_columnText hname htype
      (isConstraintText_inlineKeyText refTable refColumn)
      (fragment_inlineKeyText hrefTable hrefColumn)
    have hparse :=
      parseSchema_among htable hbefore (List.forall_mem_singleton.2 hinline) hafter
    rwa [List.map_singleton, classify_inlineKey hrefTable hrefColumn hname htype] at hparse
  have houtside : outside = schemaOf [⟨table, before.map classify
      ++ [.column ⟨column, false, none⟩, .primaryKey [name],
        .foreignKey (columnKey name refTable refColumn)]
      ++ after.map classify⟩] := by
    have hthree := List.forall_mem_cons.2 ⟨isPrintedDefinition_column hcolumn,
      List.forall_mem_cons.2 ⟨isPrintedDefinition_primaryKey hnames,
        List.forall_mem_singleton.2 (isPrintedDefinition_foreignKey hkey)⟩⟩
    have hparse := parseSchema_among htable hbefore hthree hafter
    rwa [List.map_cons, List.map_cons, List.map_singleton, classify_column hcolumn,
      classify_primaryKey hnames, classify_foreignKey hkey] at hparse
  constructor
  · -- one definition contributes what the three do
    rw [hinside, houtside]
    exact schemaOf_congr table _ _ rfl rfl rfl rfl
  · obtain ⟨hmem, declared, hkeys⟩ := keys_of_columnKey table refTable refColumn column
      (before.map classify) (after.map classify)
    refine ⟨_, declared, ?_, rfl, hmem, hkeys⟩
    rw [houtside, tables_schemaOf_singleton]

/-- A column that repeats another in capitals, with a size behind a space, and
    a key of a column that is not there. -/
theorem parseSchema_inlineKey_repeated :
    let first : Column := ⟨"id", "bigint", false⟩
    let second : Column := ⟨"ID", "Decimal (10, 0)", true⟩
    let gone : Text := "PRIMARY KEY " ++ nameList ["gone"]
    parseSchema (statementText "orders" ([first.toDefinition]
        ++ [columnText "ID" "Decimal (10, 0)" (inlineKeyText "users" "id")] ++ [gone])) =
      parseSchema (statementText "orders" ([first.toDefinition]
        ++ [second.toDefinition, "PRIMARY KEY " ++ nameList ["ID"],
          (columnKey "ID" "users" "id").toDefinition] ++ [gone])) := by
  intro first second gone
  have htype : IsTypeText "Decimal (10, 0)" :=
    @IsTypeText.sized "Decimal" [' '] "10, 0" (by decide) (by simp)
      (List.all_eq_true.1 (by decide))
  have hfirst : IsSimpleDefinition first.toDefinition :=
    .column ⟨rfl, .unsized (by decide)⟩
  have hgone : IsSimpleDefinition gone :=
    .primaryKey (List.forall_mem_singleton.2 (by decide))
  exact (parseSchema_inlineKey (by decide) rfl htype rfl rfl (List.forall_mem_singleton.2 hfirst)
    (List.forall_mem_singleton.2 hgone)).1

end SchemaDiagram.Ddl
