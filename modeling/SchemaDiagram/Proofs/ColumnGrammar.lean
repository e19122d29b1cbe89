import SchemaDiagram.Proofs.ClauseGrammar
import SchemaDiagram.Proofs.Tokenizing
import SchemaDiagram.Proofs.WellFormed

/-! # ColumnGrammar — which definitions are columns

    A definition is tried as a key, as a named constraint and as metadata
    before it is tried as a column.  In the end its first three tokens
    decide: a column starts with a plain name and, set off by blanks, the name
    of a type.  What it declares as a key stands in the tokens behind its
    name.

      * `barredWords`              — the words that no column starts with
      * `StartsColumn`             — how a column starts
      * `DefinesColumn`            — what it declares
      * `columnDefinition?_iff`    — the reader of columns accepts just these
      * `classify_eq_column_iff`   — and no other reader takes one of them -/

namespace SchemaDiagram.Ddl

open Text (isBlank isBlankText trim)

/-! ### The grammar -/

/-- The words that a definition of a column does not start with. -/
def barredWords : List Text :=
  ["CONSTRAINT", "UNIQUE", "KEY", "INDEX", "CHECK", "FULLTEXT", "SPATIAL"]

/-- `first` and `second`, with `rest` behind them, start the definition of the
    column `name`. -/
structure StartsColumn (name : Text) (first second : Lexeme) (rest : List Lexeme) : Prop where
  writes : first.WritesName name
  plain : isPlain name = true
  not_barred : ∀ word ∈ barredWords, first.isWord word = false
  not_primaryKey : ¬ (first.isWord "PRIMARY" = true ∧ second.isWord "KEY" = true)
  not_foreignKey : ¬ (first.isWord "FOREIGN" = true ∧ second.isWord "KEY" = true)
  /-- a blank stands right behind the name -/
  apart : ∃ c ∈ (sourceText (second :: rest)).head?, isBlank c = true
  /-- a word that is no type by its name is one with a parenthesis right behind
      it -/
  type : ∃ word, second.token = .word word ∧
    (isTypeName word = true ∨ (sourceText rest).head? = some '(')

/-- `first` and `second`, with `rest` behind them, define the column `d`. -/
structure DefinesColumn (first second : Lexeme) (rest : List Lexeme) (d : ColumnDefinition) :
    Prop where
  starts : StartsColumn d.column.name first second rest
  declaredType : d.column.declaredType = declaredType (sourceText (second :: rest))
  nullable : d.column.nullable = admitsNull (first :: second :: rest)
  isPrimary : d.isPrimary = true ↔
    ∃ l m, [l, m] <:+: second :: rest ∧ l.isWord "PRIMARY" = true ∧ m.isWord "KEY" = true
  references : ∀ key, d.references = some key ↔
    ∃ table columns, IsFirstReference (second :: rest) table columns ∧
      key = ⟨[d.column.name], table, columns, none⟩
  no_references : d.references = none ↔ HasNoReference (second :: rest)

/-! ### The start of a column -/

theorem columnName?_eq_some_iff {l : Lexeme} {name : Text} :
    columnName? l = some name ↔ l.WritesName name ∧ isPlain name = true := by
  constructor
  · intro h
    refine ⟨?_, isPlain_of_columnName? h⟩
    unfold columnName? at h
    split at h
    · next w htoken =>
      obtain ⟨-, hw⟩ := Option.ite_none_right_eq_some.1 h
      exact .bare (Option.some.inj hw ▸ htoken)
    · next w htoken =>
      obtain ⟨-, hw⟩ := Option.ite_none_right_eq_some.1 h
      exact .quoted (Option.some.inj hw ▸ htoken)
    · cases h
  · rintro ⟨hname, hplain⟩
    cases hname with
    | bare htoken => rw [columnName?, htoken]; exact if_pos hplain
    | quoted htoken => rw [columnName?, htoken]; exact if_pos hplain

/-- The gap in front of a lexeme is the blank at its start. -/
theorem startsBlank_iff {l : Lexeme} {rest : Text} (h : l.Legible rest) (ls : List Lexeme) :
    (∃ c ∈ (sourceText (l :: ls)).head?, isBlank c = true) ↔ l.gap ≠ [] := by
  obtain ⟨hgap, c, r, hsource, hc, -⟩ := h
  rw [sourceText_cons, hsource]
  cases hl : l.gap with
  | nil => simp [hc]
  | cons b gap =>
    rw [hl, isBlankText, List.all_cons, Bool.and_eq_true] at hgap
    simp [hgap.1]

theorem eq_openParen_of_readToken {c : Char} {r : Text} (h : (readToken c r).value = .openParen) :
    c = '(' := by
  unfold readToken at h
  repeat' split at h
  all_goals simp_all

/-- A parenthesis at the start of a text is a lexeme without a gap. -/
theorem touchesOpenParen_iff {ls : List Lexeme} {rest : Text} (h : Legible ls rest) :
    touchesOpenParen ls = true ↔ (sourceText ls).head? = some '(' := by
  cases ls with
  | nil => simp [touchesOpenParen]
  | cons l ls =>
    obtain ⟨⟨hgap, c, r, hsource, hc, hread⟩, -⟩ := h
    rw [touchesOpenParen, Bool.and_eq_true, beq_iff_eq, beq_iff_eq, sourceText_cons, hsource]
    cases hl : l.gap with
    | nil =>
      have htoken := congrArg Reading.value hread
      simp only [true_and, List.nil_append, List.cons_append, List.head?_cons, Option.some.injEq]
      constructor
      · exact fun hopen => eq_openParen_of_readToken (htoken.trans hopen)
      · rintro rfl
        exact htoken.symm
    | cons b gap =>
      rw [hl, isBlankText, List.all_cons, Bool.and_eq_true] at hgap
      have hb : b ≠ '(' := Text.ne_of_isBlank hgap.1 (by decide)
      simp [hb]

/-- **The type of a column**, where `ls` stands behind its name. -/
theorem atType_iff {ls : List Lexeme} {blanks : Text} (h : Legible ls blanks) :
    atType ls = true ↔ ∃ second rest, ls = second :: rest ∧
      (∃ c ∈ (sourceText (second :: rest)).head?, isBlank c = true) ∧
      ∃ word, second.token = .word word ∧
        (isTypeName word = true ∨ (sourceText rest).head? = some '(') := by
  cases ls with
  | nil => simp [atType]
  | cons second rest =>
    have hgap := startsBlank_iff h.1 rest
    have hopen := touchesOpenParen_iff h.2
    have hsplit : ∀ {p : Lexeme → List Lexeme → Prop},
        (∃ l ls, second :: rest = l :: ls ∧ p l ls) ↔ p second rest := by
      intro p
      constructor
      · rintro ⟨l, ls, heq, hp⟩
        obtain ⟨rfl, rfl⟩ := List.cons.inj heq
        exact hp
      · exact fun hp => ⟨second, rest, rfl, hp⟩
    rw [hsplit, hgap, ← hopen, atType]
    split
    · next word htoken => simp [htoken]
    · next hword =>
      refine iff_of_false Bool.false_ne_true ?_
      rintro ⟨-, word, htoken, -⟩
      exact hword word htoken

/-- **What a column does not start with.** -/
theorem not_constraint_iff {first second : Lexeme} {rest : List Lexeme} :
    atPrimaryKey (first :: second :: rest) = false ∧ atConstraint (first :: second :: rest) = false ↔
      (∀ word ∈ barredWords, first.isWord word = false) ∧
        ¬ (first.isWord "PRIMARY" = true ∧ second.isWord "KEY" = true) ∧
        ¬ (first.isWord "FOREIGN" = true ∧ second.isWord "KEY" = true) := by
  have hprimary : atPrimaryKey (first :: second :: rest) =
      (first.isWord "PRIMARY" && second.isWord "KEY") := rfl
  have hconstraint : atConstraint (first :: second :: rest) =
      (first.isWord "CONSTRAINT" || (first.isWord "FOREIGN" && second.isWord "KEY") ||
        metadataWords.any first.isWord) := rfl
  have hbarred : (∀ word ∈ barredWords, first.isWord word = false) ↔
      first.isWord "CONSTRAINT" = false ∧ metadataWords.any first.isWord = false := by
    have hwords : barredWords = "CONSTRAINT".toList :: metadataWords := rfl
    rw [hwords, List.forall_mem_cons, List.any_eq_false]
    simp only [Bool.not_eq_true]
  rw [hprimary, hconstraint, hbarred, Bool.or_eq_false_iff, Bool.or_eq_false_iff,
    ← Bool.and_eq_true, ← Bool.and_eq_true, Bool.not_eq_true, Bool.not_eq_true]
  constructor
  · exact fun ⟨hpk, ⟨hword, hfk⟩, hany⟩ => ⟨⟨hword, hany⟩, hpk, hfk⟩
  · exact fun ⟨⟨hword, hany⟩, hpk, hfk⟩ => ⟨hpk, ⟨hword, hfk⟩, hany⟩

/-! ### Columns -/

section Column

variable {first second : Lexeme} {rest : List Lexeme} {name blanks : Text}

/-- What a definition that starts like a column is read as. -/
theorem columnDefinition?_of_starts (h : StartsColumn name first second rest)
    (hlegible : Legible (second :: rest) blanks) :
    columnDefinition? (first :: second :: rest) =
      some
        { column := ⟨name, declaredType (sourceText (second :: rest)),
            admitsNull (first :: second :: rest)⟩
          isPrimary := declaresPrimaryKey (second :: rest)
          references := (firstReference? (second :: rest)).map (inlineKey name) } := by
  have hname : columnName? first = some name := columnName?_eq_some_iff.2 ⟨h.writes, h.plain⟩
  have htype : atType (second :: rest) = true :=
    (atType_iff hlegible).2 ⟨second, rest, rfl, h.apart, h.type⟩
  simp only [columnDefinition?, hname, htype, if_true]

theorem exists_startsColumn {ls : List Lexeme} {d : ColumnDefinition}
    (hlegible : Legible ls blanks) (hprimary : atPrimaryKey ls = false)
    (hconstraint : atConstraint ls = false) (h : columnDefinition? ls = some d) :
    ∃ first second rest, ls = first :: second :: rest ∧
      StartsColumn d.column.name first second rest := by
  cases ls with
  | nil => cases h
  | cons first ls =>
    rw [columnDefinition?] at h
    split at h
    · cases h
    · next name hname =>
      split at h
      · next htype =>
        obtain rfl := Option.some.inj h
        obtain ⟨second, rest, rfl, hapart, hword⟩ := (atType_iff hlegible.2).1 htype
        obtain ⟨hwrites, hplain⟩ := columnName?_eq_some_iff.1 hname
        obtain ⟨hbarred, hpk, hfk⟩ := not_constraint_iff.1 ⟨hprimary, hconstraint⟩
        exact ⟨first, second, rest, rfl, hwrites, hplain, hbarred, hpk, hfk, hapart, hword⟩
      · cases h

/-- **What a column declares**, told without the readers. -/
theorem definesColumn_of_starts (h : StartsColumn name first second rest) :
    DefinesColumn first second rest
      { column := ⟨name, declaredType (sourceText (second :: rest)),
          admitsNull (first :: second :: rest)⟩
        isPrimary := declaresPrimaryKey (second :: rest)
        references := (firstReference? (second :: rest)).map (inlineKey name) } where
  starts := h
  declaredType := rfl
  nullable := rfl
  isPrimary := declaresPrimaryKey_iff
  references := by
    intro key
    rw [Option.map_eq_some_iff, Prod.exists]
    refine exists₂_congr fun table columns => ?_
    rw [firstReference?_eq_some_iff, eq_comm (b := key)]
    rfl
  no_references := by
    rw [Option.map_eq_none_iff]
    exact firstReference?_eq_none_iff

/-- A definition declares one column. -/
theorem DefinesColumn.unique {d d' : ColumnDefinition} (h : DefinesColumn first second rest d)
    (h' : DefinesColumn first second rest d') (hname : d.column.name = d'.column.name) : d = d' := by
  obtain ⟨⟨name, type, nullable⟩, isPrimary, references⟩ := d
  obtain ⟨⟨name', type', nullable'⟩, isPrimary', references'⟩ := d'
  obtain rfl : name = name' := hname
  obtain rfl : type = type' := h.declaredType.trans h'.declaredType.symm
  obtain rfl : nullable = nullable' := h.nullable.trans h'.nullable.symm
  obtain rfl : isPrimary = isPrimary' := Bool.eq_iff_iff.2 (h.isPrimary.trans h'.isPrimary.symm)
  obtain rfl : references = references' :=
    Option.ext fun key => (h.references key).trans (h'.references key).symm
  rfl

end Column

/-- **The reader of columns**, behind the others, accepts just what starts like
    a column, and reads what it declares. -/
theorem columnDefinition?_iff {ls : List Lexeme} {blanks : Text} {d : ColumnDefinition}
    (hlegible : Legible ls blanks) :
    atPrimaryKey ls = false ∧ atConstraint ls = false ∧ columnDefinition? ls = some d ↔
      ∃ first second rest, ls = first :: second :: rest ∧ DefinesColumn first second rest d := by
  constructor
  · rintro ⟨hprimary, hconstraint, hd⟩
    obtain ⟨first, second, rest, rfl, hstarts⟩ :=
      exists_startsColumn hlegible hprimary hconstraint hd
    have hread := columnDefinition?_of_starts hstarts hlegible.2
    have hdefines := definesColumn_of_starts hstarts
    rw [← Option.some.inj (hd.symm.trans hread)] at hdefines
    exact ⟨first, second, rest, rfl, hdefines⟩
  · rintro ⟨first, second, rest, rfl, hdefines⟩
    have hstarts := hdefines.starts
    obtain ⟨hprimary, hconstraint⟩ := not_constraint_iff.2
      ⟨hstarts.not_barred, hstarts.not_primaryKey, hstarts.not_foreignKey⟩
    refine ⟨hprimary, hconstraint, ?_⟩
    rw [columnDefinition?_of_starts hstarts hlegible.2]
    exact congrArg some ((definesColumn_of_starts hstarts).unique hdefines rfl)

/-! ### Classification -/

theorem classify_eq_column_iff_definition? {text : Text} {d : ColumnDefinition} :
    classify text = .column d ↔ definition? (lex (trim text)) = some (.column d) := by
  rw [classify]
  cases definition? (lex (trim text)) <;> simp

/-- **The columns are just what the grammar says.** A definition is a column if
    and only if its tokens start like one, whatever the other readers might
    make of them; and then it is the column that they define. -/
theorem classify_eq_column_iff (text : Text) :
    ((∃ d, classify text = .column d) ↔
        ∃ name first second rest, lex (trim text) = first :: second :: rest ∧
          StartsColumn name first second rest) ∧
      ∀ d, classify text = .column d ↔
        ∃ first second rest, lex (trim text) = first :: second :: rest ∧
          DefinesColumn first second rest d := by
  obtain ⟨blanks, -, -, hlegible⟩ := legible_lex (trim text)
  have hread : ∀ d, classify text = .column d ↔
      ∃ first second rest, lex (trim text) = first :: second :: rest ∧
        DefinesColumn first second rest d := by
    intro d
    rw [classify_eq_column_iff_definition?, definition?_eq_column_iff, columnDefinition?_iff hlegible]
  refine ⟨?_, hread⟩
  constructor
  · rintro ⟨d, hd⟩
    obtain ⟨first, second, rest, hlex, hdefines⟩ := (hread d).1 hd
    exact ⟨d.column.name, first, second, rest, hlex, hdefines.starts⟩
  · rintro ⟨name, first, second, rest, hlex, hstarts⟩
    exact ⟨_, (hread _).2 ⟨first, second, rest, hlex, definesColumn_of_starts hstarts⟩⟩

end SchemaDiagram.Ddl
