import Mathlib.Data.List.Basic
import SchemaDiagram.Proofs.ForeignKeySpelling
import SchemaDiagram.Proofs.SizedType

/-! # Printing — printed definitions, read back

    Each printed definition is a row of lexemes with single spaces between
    them.  It is read as these lexemes, and they are classified as what was
    printed.  A printed foreign key is one of the spellings of that key.

      * `wordLexeme`, `nameLexeme`,
        `nameListLexemes`                 — the lexemes of keywords and names
      * `identifiers?_nameListLexemes`    — lists of names in parentheses
      * `exists_writtenList`,
        `exists_foreignKeySpelling`       — what is printed is a spelling
      * `classify_columnText`             — a column with any constraints
      * `classify_primaryKey`,
        `classify_foreignKey`,
        `classify_column`                 — keys and columns -/

namespace SchemaDiagram.Ddl

open Text (isBlankText joined trim Trimmed trim_eq_self)

/-! ### Lexemes -/

/-- A bare word behind `gap`. -/
def wordLexeme (gap word : Text) : Lexeme := ⟨gap, word, .word word⟩

/-- A name in backticks behind `gap`. -/
def nameLexeme (gap name : Text) : Lexeme := ⟨gap, quotedName name, .quotedName name⟩

/-- The names of a list, with a comma and a space between neighbours. -/
def itemLexemes : (gap : Text) → List Text → List Lexeme
  | _, [] => []
  | gap, [name] => [nameLexeme gap name]
  | gap, name :: next :: names =>
    nameLexeme gap name :: ⟨[], [','], .comma⟩ :: itemLexemes [' '] (next :: names)

/-- A list of names in parentheses behind a space. -/
def nameListLexemes (names : List Text) : List Lexeme :=
  ⟨[' '], ['('], .openParen⟩ :: (itemLexemes [] names ++ [⟨[], [')'], .closeParen⟩])

/-! ### Their texts -/

theorem sourceText_itemLexemes (gap name : Text) (names : List Text) :
    sourceText (itemLexemes gap (name :: names)) =
      gap ++ joined ", " ((name :: names).map quotedName) := by
  induction names generalizing gap name with
  | nil => simp [itemLexemes, nameLexeme]
  | cons next names ih =>
    rw [itemLexemes, sourceText_cons, sourceText_cons, ih, List.map_cons, List.map_cons,
      List.map_cons, Text.joined_cons_cons]
    simp [nameLexeme]

theorem sourceText_items (names : List Text) :
    sourceText (itemLexemes [] names) = joined ", " (names.map quotedName) := by
  cases names with
  | nil => rfl
  | cons name names => exact sourceText_itemLexemes [] name names

theorem sourceText_nameListLexemes (names : List Text) :
    sourceText (nameListLexemes names) = ' ' :: nameList names := by
  rw [nameListLexemes, sourceText_cons, sourceText_append, sourceText_items]
  rfl

/-! ### They are legible -/

theorem legible_nameLexeme {gap name rest : Text} (h : IsQuotable name)
    (hgap : isBlankText gap = true) (hrest : rest.head? ≠ some '\x60') :
    (nameLexeme gap name).Legible rest := by
  refine legible_quotedName (Or.inl rfl) hgap (fun c hc => ?_) (fun c hc hmark => ?_)
  · exact ⟨ne_of_mem_of_isQuotable h hc (by decide), ne_of_mem_of_isQuotable h hc (by decide)⟩
  · subst hmark
    exact hrest hc

theorem legible_itemLexemes {gap : Text} {names : List Text} (h : ∀ name ∈ names, IsQuotable name)
    (hgap : isBlankText gap = true) {rest : Text} (hrest : rest.head? ≠ some '\x60') :
    Legible (itemLexemes gap names) rest := by
  fun_induction itemLexemes gap names with
  | case1 => trivial
  | case2 gap name => exact ⟨legible_nameLexeme (h name (by simp)) hgap hrest, trivial⟩
  | case3 gap name next names ih =>
    obtain ⟨hname, hnames⟩ := List.forall_mem_cons.1 h
    refine ⟨legible_nameLexeme hname hgap ?_, legible_comma (by decide) _, ih hnames (by decide)⟩
    rw [sourceText_cons]
    simp

theorem legible_nameListLexemes {names : List Text} (h : ∀ name ∈ names, IsQuotable name)
    (rest : Text) : Legible (nameListLexemes names) rest := by
  refine ⟨legible_openParen (by decide) _, legible_append.2 ⟨?_, ?_⟩⟩
  · refine legible_itemLexemes h (by decide) ?_
    rw [sourceText_cons]
    simp
  · exact ⟨legible_closeParen (by decide) _, trivial⟩

/-! ### Lists of names -/

/-- Lexemes without parentheses belong to the group that they stand in. -/
theorem closeGroupText?_append {depth : Nat} {ls : List Lexeme}
    (h : ∀ l ∈ ls, l.token ≠ .openParen ∧ l.token ≠ .closeParen) (rest : List Lexeme) :
    closeGroupText? depth (ls ++ rest) =
      (closeGroupText? depth rest).map fun p => (sourceText ls ++ p.1, p.2) := by
  induction ls with
  | nil => simp
  | cons l ls ih =>
    obtain ⟨⟨hopen, hclose⟩, hls⟩ := List.forall_mem_cons.1 h
    have hskip : closeGroupText? depth (l :: (ls ++ rest)) =
        (closeGroupText? depth (ls ++ rest)).map fun p => (l.gap ++ l.source ++ p.1, p.2) := by
      rw [closeGroupText?.eq_def]
      cases htoken : l.token <;> simp_all
    rw [List.cons_append, hskip, ih hls, Option.map_map]
    simp [Function.comp_def]

theorem token_itemLexemes (gap : Text) (names : List Text) :
    ∀ l ∈ itemLexemes gap names, l.token ≠ .openParen ∧ l.token ≠ .closeParen := by
  fun_induction itemLexemes gap names with
  | case1 => simp
  | case2 gap name => simp [nameLexeme]
  | case3 gap name next names ih =>
    exact List.forall_mem_cons.2 ⟨by simp [nameLexeme], List.forall_mem_cons.2 ⟨by simp, ih⟩⟩

theorem group?_nameListLexemes (names : List Text) (rest : List Lexeme) :
    group? (nameListLexemes names ++ rest) = some (joined ", " (names.map quotedName), rest) := by
  have hclose : closeGroupText? 0 (⟨[], [')'], .closeParen⟩ :: rest) = some ([], rest) := rfl
  rw [nameListLexemes, List.cons_append, group?, if_pos rfl, List.append_assoc,
    closeGroupText?_append (token_itemLexemes [] names), List.singleton_append, hclose,
    sourceText_items, Option.map_some, List.append_nil]

/-! ### Lists as they may be spelled -/

/-- A name in backticks, as a spelling of it. -/
def backticked {name : Text} (h : IsQuotable name) : WrittenName :=
  .quoted '\x60' isNameMark_backtick name h.isMarkable

theorem text_backticked {name : Text} (h : IsQuotable name) :
    (backticked h).text = quotedName name := rfl

/-- A name in backticks as the item of a list, behind `lead`. -/
def backtickedItem (lead : Gap) {name : Text} (h : IsQuotable name) : ListedName :=
  ⟨lead, backticked h, none, Gap.none⟩

theorem text_backtickedItem (lead : Gap) {name : Text} (h : IsQuotable name) :
    (backtickedItem lead h).text = lead.text ++ quotedName name := by
  simp [backtickedItem, ListedName.text, ListedName.core, text_backticked, sizeText, Gap.none]

/-- The comma and the space between neighbours are the comma of the list and a
    blank in front of the next item. -/
theorem exists_listedNames {names : List Text} (h : ∀ name ∈ names, IsQuotable name)
    (hne : names ≠ []) (lead : Gap) :
    ∃ items : List ListedName, joined "," (items.map ListedName.text) =
      lead.text ++ joined ", " (names.map quotedName) ∧ items.map ListedName.name = names := by
  induction names generalizing lead with
  | nil => exact absurd rfl hne
  | cons name names ih =>
    obtain ⟨hname, hnames⟩ := List.forall_mem_cons.1 h
    cases names with
    | nil => exact ⟨[backtickedItem lead hname], by simp [text_backtickedItem], rfl⟩
    | cons next names =>
      obtain ⟨items, hitems, hread⟩ := ih hnames (List.cons_ne_nil _ _) Space.single.toGap
      obtain ⟨second, items, rfl⟩ : ∃ i is, items = i :: is := by
        cases items with
        | nil => cases hread
        | cons i is => exact ⟨i, is, rfl⟩
      refine ⟨backtickedItem lead hname :: second :: items, ?_, congrArg (name :: ·) hread⟩
      rw [List.map_cons] at hitems
      rw [List.map_cons, List.map_cons, List.map_cons, List.map_cons, Text.joined_cons_cons, hitems,
        Text.joined_cons_cons, text_backtickedItem]
      simp [Space.single]

/-- **A printed list is a spelling** of its names. -/
theorem exists_writtenList {names : List Text} (h : ∀ name ∈ names, IsQuotable name) :
    ∃ items, writtenList items = nameList names ∧ items.map ListedName.name = names := by
  rcases eq_or_ne names [] with rfl | hne
  · exact ⟨[], rfl, rfl⟩
  · obtain ⟨items, htext, hread⟩ := exists_listedNames h hne Gap.none
    refine ⟨items, ?_, hread⟩
    rw [writtenList, htext]
    rfl

/-- The names of a printed list. -/
theorem identifierList_joined {names : List Text} (h : ∀ name ∈ names, IsQuotable name) :
    identifierList (joined ", " (names.map quotedName)) = names := by
  rcases eq_or_ne names [] with rfl | hne
  · rfl
  · obtain ⟨items, htext, hread⟩ := exists_listedNames h hne Gap.none
    have hlist := identifierList_writtenList items
    rwa [htext, hread] at hlist

/-- **A printed list of names is read back.** -/
theorem identifiers?_nameListLexemes {names : List Text} (h : ∀ name ∈ names, IsQuotable name)
    (rest : List Lexeme) : identifiers? (nameListLexemes names ++ rest) = some (names, rest) := by
  rw [identifiers?, group?_nameListLexemes, Option.map_some]
  show some (identifierList _, rest) = _
  rw [identifierList_joined h]

/-! ### Primary keys -/

/-- Legible lexemes without blanks around them are classified as what they
    define. -/
theorem classify_sourceText {ls : List Lexeme} {d : Definition} (h : Legible ls [])
    (htrim : Trimmed (sourceText ls)) (hd : definition? ls = some d) :
    classify (sourceText ls) = d := by
  rw [classify, trim_eq_self htrim, lex_sourceText h, hd]
  rfl

theorem legible_wordLexeme {gap word rest : Text} (hgap : isBlankText gap = true) (hne : word ≠ [])
    (hword : word.all isWordChar = true) (hrest : rest.head? = some ' ') :
    (wordLexeme gap word).Legible rest := by
  refine legible_word hgap hne (List.all_eq_true.1 hword) fun c hc => ?_
  rw [hrest, Option.mem_some_iff] at hc
  exact hc ▸ by decide

theorem getLast?_nameList (s : Text) (names : List Text) :
    (s ++ nameList names).getLast? = some ')' := by
  rw [nameList, ← List.append_assoc]
  exact List.getLast?_concat

theorem trimmed_primaryKey (names : List Text) : Trimmed ("PRIMARY KEY " ++ nameList names) :=
  Text.trimmed_of_ends (c := 'P') rfl (getLast?_nameList _ names) (by decide) (by decide)

/-- The lexemes of a primary key. -/
def primaryKeyLexemes (names : List Text) : List Lexeme :=
  wordLexeme [] "PRIMARY" :: wordLexeme [' '] "KEY" :: nameListLexemes names

/-- **A primary key is read back.** -/
theorem classify_primaryKey {names : List Text} (h : ∀ name ∈ names, IsQuotable name) :
    classify ("PRIMARY KEY " ++ nameList names) = .primaryKey names := by
  have htext : sourceText (primaryKeyLexemes names) = "PRIMARY KEY " ++ nameList names := by
    rw [primaryKeyLexemes, sourceText_cons, sourceText_cons, sourceText_nameListLexemes]
    rfl
  have hlegible : Legible (primaryKeyLexemes names) [] :=
    ⟨legible_wordLexeme (by decide) (by decide) (by decide) rfl,
      legible_wordLexeme (by decide) (by decide) (by decide) rfl, legible_nameListLexemes h []⟩
  have hcolumns : primaryKeyColumns (primaryKeyLexemes names) = names := by
    -- the two keywords are words, the parenthesis behind them is not
    have hskip : skipWords (primaryKeyLexemes names) = nameListLexemes names := rfl
    have hread := identifiers?_nameListLexemes h []
    rw [List.append_nil] at hread
    rw [primaryKeyColumns, hskip, hread]
  have hstart : atPrimaryKey (primaryKeyLexemes names) = true := rfl
  rw [← htext]
  refine classify_sourceText hlegible ?_ ?_
  · rw [htext]
    exact trimmed_primaryKey names
  · rw [definition?, if_pos hstart, hcolumns]

/-! ### Foreign keys -/

theorem trimmed_foreignKey (key : ForeignKey) : Trimmed key.toDefinition := by
  have hlast : key.toDefinition.getLast? = some ')' := getLast?_nameList _ key.refColumns
  unfold ForeignKey.toDefinition at hlast ⊢
  split at hlast
  · exact Text.trimmed_of_ends (c := 'C') rfl hlast (by decide) (by decide)
  · exact Text.trimmed_of_ends (c := 'F') rfl hlast (by decide) (by decide)

/-- A constraint as it is printed. -/
def printedConstraint {name : Text} (h : IsQuotable name) : ConstraintSpelling where
  keyword := Keyword.plain "CONSTRAINT"
  lead := Space.single
  written := backticked h
  trail := Space.single
  not_foreign := rfl

/-- A key as it is printed: with single spaces, and no index or database. -/
def printedKey (constraint : Option ConstraintSpelling) (columns : List ListedName)
    (table : WrittenName) (refColumns : List ListedName) : ForeignKeySpelling where
  constraint := constraint
  foreign := Keyword.plain "FOREIGN"
  afterForeign := Space.single
  key := Keyword.plain "KEY"
  index := .absent Space.single.toGap
  columns := columns
  afterColumns := Space.single.toGap
  references := Keyword.plain "REFERENCES"
  afterReferences := Space.single
  qualifier := none
  table := table
  afterTable := Space.single.toGap
  refColumns := refColumns

theorem text_printedConstraint {name : Text} (h : IsQuotable name) :
    (printedConstraint h).text = "CONSTRAINT " ++ quotedName name ++ " " := by
  simp [printedConstraint, ConstraintSpelling.text, Keyword.plain, Space.single, text_backticked]

section PrintedKey

variable (constraint : Option ConstraintSpelling) (columns : List ListedName) (table : WrittenName)
  (refColumns : List ListedName)

theorem bodyText_printedKey : (printedKey constraint columns table refColumns).bodyText =
    "FOREIGN KEY " ++ writtenList columns ++ " REFERENCES " ++ table.text ++ " " ++
      writtenList refColumns := by
  simp [printedKey, ForeignKeySpelling.bodyText, ForeignKeySpelling.columnsText,
    ForeignKeySpelling.referenceText, IndexSpelling.text, Keyword.plain, Space.single]

theorem foreignKey_printedKey : (printedKey constraint columns table refColumns).foreignKey =
    ⟨columns.map ListedName.name, table.name, refColumns.map ListedName.name,
      constraint.map fun c => c.written.name⟩ := rfl

end PrintedKey

/-- A key whose names may all be written in backticks. -/
structure IsQuotableKey (key : ForeignKey) : Prop where
  columns : ∀ name ∈ key.columns, IsQuotable name
  refTable : IsQuotable key.refTable
  refColumns : ∀ name ∈ key.refColumns, IsQuotable name
  constraintName : ∀ name ∈ key.constraintName, IsQuotable name

section ForeignKey

variable {key : ForeignKey} (h : IsQuotableKey key)
include h

theorem reference?_lexemes :
    reference? (nameLexeme [' '] key.refTable :: nameListLexemes key.refColumns) =
      some (key.refTable, key.refColumns) := by
  have hlist := identifiers?_nameListLexemes h.refColumns []
  rw [List.append_nil] at hlist
  -- what follows the name of the table is no dot
  show (identifiers? (nameListLexemes key.refColumns)).bind
    (fun columns => some (bareName key.refTable, columns.1)) = _
  rw [hlist, h.refTable.isMarkable.bareName_eq_self]
  rfl

/-- **A printed key is a spelling** of the key. -/
theorem exists_foreignKeySpelling :
    ∃ k : ForeignKeySpelling, k.text = key.toDefinition ∧ k.foreignKey = key := by
  obtain ⟨columns, hcolumns, hcolumnNames⟩ := exists_writtenList h.columns
  obtain ⟨refColumns, hrefColumns, hrefNames⟩ := exists_writtenList h.refColumns
  have hbody : ∀ constraint,
      (printedKey constraint columns (backticked h.refTable) refColumns).bodyText =
        "FOREIGN KEY " ++ nameList key.columns ++ " REFERENCES " ++ quotedName key.refTable ++ " " ++
          nameList key.refColumns := by
    intro constraint
    rw [bodyText_printedKey, hcolumns, hrefColumns, text_backticked]
  have hread : ∀ constraint,
      (printedKey constraint columns (backticked h.refTable) refColumns).foreignKey =
        { key with constraintName := constraint.map fun c => c.written.name } := by
    intro constraint
    rw [foreignKey_printedKey, hcolumnNames, hrefNames]
    rfl
  cases hname : key.constraintName with
  | none =>
    refine ⟨printedKey none columns _ refColumns, ?_, (hread none).trans ?_⟩
    · rw [ForeignKey.toDefinition, hname]
      exact hbody none
    · rw [Option.map_none, ← hname]
  | some name =>
    have hquotable := h.constraintName name hname
    refine ⟨printedKey (some (printedConstraint hquotable)) columns _ refColumns, ?_,
      (hread _).trans ?_⟩
    · rw [ForeignKey.toDefinition, hname, ForeignKeySpelling.text, hbody]
      show (printedConstraint hquotable).text ++ _ = _
      rw [text_printedConstraint]
      simp
    · show { key with constraintName := some name } = key
      rw [← hname]

/-- **A foreign key is read back.** -/
theorem classify_foreignKey : classify key.toDefinition = .foreignKey key := by
  obtain ⟨k, htext, hkey⟩ := exists_foreignKeySpelling h
  have hread := foreignKey?_spelling k []
  rw [List.append_nil, htext, hkey] at hread
  rw [classify, trim_eq_self (trimmed_foreignKey key), definition?_eq_foreignKey_iff.2 hread]
  rfl

end ForeignKey

/-! ### Columns -/

/-- A column whose name needs no quotes and whose type is found again. -/
structure IsPrintableColumn (c : Column) : Prop where
  name : isPlain c.name = true
  declaredType : IsSizedType c.declaredType

/-- What stands behind the type of a printed column. -/
def nullText (nullable : Bool) : Text := if nullable then "" else " NOT NULL"

/-- The text of a column: its name, its type and what stands behind the
    type. -/
def columnText (name type tail : Text) : Text := quotedName name ++ ' ' :: (type ++ tail)

theorem toDefinition_eq (c : Column) :
    c.toDefinition = columnText c.name c.declaredType (nullText c.nullable) := by
  rw [Column.toDefinition, List.append_assoc, List.append_assoc]
  rfl

/-- A text that may stand behind a type, and that ends it where it starts. -/
structure IsConstraintText (tail : Text) : Prop where
  head : ∀ c ∈ tail.head?, isWordChar c = false
  last : ∀ c ∈ tail.getLast?, Text.isBlank c = false
  typePart : typePart .start tail = []

theorem isConstraintText_nullText (nullable : Bool) : IsConstraintText (nullText nullable) := by
  cases nullable with
  | true => exact ⟨fun _ h => (nomatch h), fun _ h => (nomatch h), rfl⟩
  | false =>
    have hhead : (nullText false).head? = some ' ' := rfl
    have hlast : (nullText false).getLast? = some 'L' := rfl
    refine ⟨fun c hc => ?_, fun c hc => ?_, by decide⟩
    · rw [hhead, Option.mem_some_iff] at hc
      exact hc ▸ by decide
    · rw [hlast, Option.mem_some_iff] at hc
      exact hc ▸ by decide

/-- The constraint NOT NULL is read as two words. -/
theorem lex_nullText (nullable : Bool) :
    lex (nullText nullable) =
      if nullable then [] else [wordLexeme [' '] "NOT", wordLexeme [' '] "NULL"] := by
  cases nullable with
  | true => exact lex_eq_nil rfl
  | false =>
    have hlegible : Legible [wordLexeme [' '] "NOT", wordLexeme [' '] "NULL"] [] :=
      ⟨legible_wordLexeme (by decide) (by decide) (by decide) rfl,
        legible_word (by decide) (by decide) (List.all_eq_true.1 (by decide)) (by simp), trivial⟩
    exact lex_sourceText hlegible

/-- A type name is no keyword that is not itself the name of a type. -/
theorem not_isWord_of_isTypeName {gap word keyword : Text} (h : isTypeName word = true)
    (hkeyword : isTypeName keyword = false) : (wordLexeme gap word).isWord keyword = false := by
  rw [Bool.eq_false_iff]
  intro hword
  have hfold : Text.foldCase word = Text.foldCase keyword := Text.equalsIgnoringCase_iff.1 hword
  -- the two would be names of the same types
  have hsame : Text.equalsIgnoringCase word = Text.equalsIgnoringCase keyword := by
    funext name
    rw [Text.equalsIgnoringCase, hfold, Text.equalsIgnoringCase]
  rw [isTypeName, hsame, ← isTypeName, hkeyword] at h
  cases h

/-- Lexemes without the word PRIMARY declare no primary key. -/
theorem declaresPrimaryKey_append {ls : List Lexeme} (h : ∀ l ∈ ls, l.isWord "PRIMARY" = false)
    (ms : List Lexeme) : declaresPrimaryKey (ls ++ ms) = declaresPrimaryKey ms := by
  induction ls with
  | nil => rfl
  | cons l ls ih =>
    obtain ⟨hl, hls⟩ := List.forall_mem_cons.1 h
    rw [List.cons_append, declaresPrimaryKey, ih hls, atPrimaryKey, atWords, hl]
    rfl

/-- Lexemes without the word REFERENCES hold no reference. -/
theorem firstReference?_append {ls : List Lexeme} (h : ∀ l ∈ ls, l.isWord "REFERENCES" = false)
    (ms : List Lexeme) : firstReference? (ls ++ ms) = firstReference? ms := by
  induction ls with
  | nil => rfl
  | cons l ls ih =>
    obtain ⟨hl, hls⟩ := List.forall_mem_cons.1 h
    rw [List.cons_append, firstReference?, hl, if_neg Bool.false_ne_true, ih hls]

section ColumnText

variable {name type tail : Text} (hname : isPlain name = true) (htype : IsTypeText type)
  (htail : IsConstraintText tail)

include hname htype htail in
/-- The lexemes of a column: its name, the name of its type, others that hold
    no keyword, and what stands behind the type. -/
theorem lex_columnText :
    ∃ word ls, isTypeName word = true ∧
      lex (columnText name type tail) =
        nameLexeme [] name :: wordLexeme [' '] word :: (ls ++ lex tail) ∧
      ∀ l ∈ wordLexeme [' '] word :: ls,
        l.isWord "PRIMARY" = false ∧ l.isWord "REFERENCES" = false := by
  obtain ⟨word, ls, hword, hlex, hkeyword⟩ := lex_isTypeText htype htail.head
  have hlegible : (nameLexeme [] name).Legible (' ' :: (type ++ tail)) :=
    legible_nameLexeme (isQuotable_of_isPlain hname) (by decide) (by simp)
  refine ⟨word, ls, hword, ?_, List.forall_mem_cons.2 ⟨?_, fun l hl => ?_⟩⟩
  · have hread := lex_of_legible hlegible
    rw [hlex] at hread
    exact hread
  · exact ⟨not_isWord_of_isTypeName hword (by decide +kernel),
      not_isWord_of_isTypeName hword (by decide +kernel)⟩
  · exact ⟨hkeyword "PRIMARY" ⟨'p', by decide, by decide⟩ l hl,
      hkeyword "REFERENCES" ⟨'r', by decide, by decide⟩ l hl⟩

include htype htail

theorem trimmed_type_append : Trimmed (type ++ tail) := by
  obtain ⟨hfirst, hlast⟩ := trimmed_of_isTypeText htype
  obtain ⟨d, r, hd⟩ := List.exists_cons_of_ne_nil (ne_nil_of_isTypeText htype)
  refine ⟨fun c hc => hfirst c ?_, fun c hc => ?_⟩
  · rw [hd] at hc ⊢
    exact hc
  · rw [List.getLast?_append] at hc
    cases hend : tail.getLast? with
    | none =>
      rw [hend, Option.none_or] at hc
      exact hlast c hc
    | some e =>
      rw [hend, Option.some_or] at hc
      exact htail.last c (hend.trans hc)

theorem trimmed_columnText (name : Text) : Trimmed (columnText name type tail) := by
  have hne : type ++ tail ≠ [] := by simp [ne_nil_of_isTypeText htype]
  have hlast : (columnText name type tail).getLast? = (type ++ tail).getLast? := by
    rw [columnText, List.append_cons, List.getLast?_append_of_ne_nil _ hne]
  refine ⟨fun c hc => ?_, fun c hc => (trimmed_type_append htype htail).2 c (hlast ▸ hc)⟩
  have hfirst : (columnText name type tail).head? = some '\x60' := rfl
  rw [hfirst, Option.mem_some_iff] at hc
  exact hc ▸ by decide

/-- The type of a column is read back. -/
theorem declaredType_type_append : declaredType (' ' :: (type ++ tail)) = type := by
  have htrim : trim (' ' :: (type ++ tail)) = type ++ tail := by
    have hblank := Text.trim_blanks_append (b := [' ']) (type ++ tail) (by decide)
    rw [trim_eq_self (trimmed_type_append htype htail)] at hblank
    exact hblank
  rw [declaredType, htrim, if_neg (by simp [ne_nil_of_isTypeText htype]),
    typePart_of_isTypeText htype, htail.typePart, List.append_nil,
    trim_eq_self (trimmed_of_isTypeText htype)]

include hname

/-- **A column is read back**, with the keys that stand behind its type. -/
theorem classify_columnText :
    classify (columnText name type tail) =
      .column
        { column := ⟨name, type, !Text.contains "NOT NULL" (Text.upper (columnText name type tail))⟩
          isPrimary := declaresPrimaryKey (lex tail)
          references := (firstReference? (lex tail)).map (inlineKey name) } := by
  have htrim := trimmed_columnText htype htail name
  obtain ⟨word, ls, hword, hlex, hkeyword⟩ := lex_columnText hname htype htail
  have hsource : sourceText (lex (columnText name type tail)) = columnText name type tail :=
    sourceText_lex_eq_self htrim.2
  have hrest : sourceText (wordLexeme [' '] word :: (ls ++ lex tail)) = ' ' :: (type ++ tail) := by
    rw [hlex, columnText, sourceText_cons] at hsource
    exact List.append_cancel_left hsource
  have hprimary : declaresPrimaryKey (wordLexeme [' '] word :: (ls ++ lex tail)) =
      declaresPrimaryKey (lex tail) :=
    declaresPrimaryKey_append (fun l hl => (hkeyword l hl).1) (lex tail)
  have hreference : firstReference? (wordLexeme [' '] word :: (ls ++ lex tail)) =
      firstReference? (lex tail) :=
    firstReference?_append (fun l hl => (hkeyword l hl).2) (lex tail)
  have hcolumn : columnName? (nameLexeme [] name) = some name := if_pos hname
  have hat : atType (wordLexeme [' '] word :: (ls ++ lex tail)) = true := by
    show (true && (isTypeName word || touchesOpenParen (ls ++ lex tail))) = true
    rw [hword]
    rfl
  have hnull : admitsNull (lex (columnText name type tail)) =
      !Text.contains "NOT NULL" (Text.upper (columnText name type tail)) := by
    rw [admitsNull, hsource]
  -- a name in backticks starts nothing but a column
  have hstart : definition? (lex (columnText name type tail)) =
      (columnDefinition? (lex (columnText name type tail))).map .column := by
    rw [hlex]
    rfl
  rw [classify, trim_eq_self htrim, hstart]
  rw [hlex] at hnull ⊢
  simp only [columnDefinition?, hcolumn, hat, if_true, hrest,
    declaredType_type_append htype htail, hnull, hprimary, hreference]
  rfl

end ColumnText

/-- A column as its definition may be written: its type may have spaces in
    front of its size. -/
structure IsWrittenColumn (c : Column) : Prop where
  name : isPlain c.name = true
  declaredType : IsTypeText c.declaredType

theorem IsPrintableColumn.isWrittenColumn {c : Column} (h : IsPrintableColumn c) :
    IsWrittenColumn c := ⟨h.name, h.declaredType.isTypeText⟩

section Column

variable {c : Column} (h : IsWrittenColumn c)
include h

/-- Whether a column admits NULL is read back. -/
theorem contains_notNull_toDefinition :
    Text.contains "NOT NULL" (Text.upper c.toDefinition) = !c.nullable := by
  rw [toDefinition_eq, columnText]
  cases c.nullable with
  | true =>
    have hspace : ' ' ∉ c.name := fun hmem =>
      absurd (isWordChar_of_isPlain h.name ' ' hmem) (by decide)
    exact not_contains_notNull hspace h.declaredType not_pair_infix_singleton
  | false =>
    have hnull : Text.upper (nullText false) = " NOT NULL" := by decide
    rw [Bool.not_false, Text.contains_iff, ← List.cons_append, ← List.append_assoc,
      Text.upper_append, hnull]
    exact List.infix_append_of_infix_right (List.suffix_cons ' ' "NOT NULL".toList).isInfix

/-- **A column is read back.** -/
theorem classify_column : classify c.toDefinition = .column ⟨c, false, none⟩ := by
  have hnull := contains_notNull_toDefinition h
  have hnone : declaresPrimaryKey (lex (nullText c.nullable)) = false ∧
      firstReference? (lex (nullText c.nullable)) = none := by
    rw [lex_nullText]
    cases c.nullable <;> exact ⟨rfl, rfl⟩
  rw [toDefinition_eq] at hnull ⊢
  rw [classify_columnText h.name h.declaredType (isConstraintText_nullText c.nullable), hnull,
    hnone.1, hnone.2, Bool.not_not]
  rfl

end Column

end SchemaDiagram.Ddl
