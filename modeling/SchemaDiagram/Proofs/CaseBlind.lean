import SchemaDiagram.Ddl.Statement
import SchemaDiagram.Proofs.Correspondence
import SchemaDiagram.Proofs.RaiseCase
import SchemaDiagram.Proofs.Scanning

/-! # CaseBlind — letter case never matters to the grammar

    A script in capitals is read as the script is read, in capitals: as the
    same statements and the same definitions, with the letters of every name,
    type and body made capitals.  Each reader commutes with the change, from
    single tokens up to whole scripts.

      * `Lexeme.raiseCase`, `Definition.raiseCase`,
        `Statement.raiseCase`       — what is read, in capitals
      * `lex_raiseCase`             — tokens
      * `raiseCase_correspondence`  — the parts of definitions
      * `classify_raiseCase`        — definitions
      * `stripComments_raiseCase`   — comments
      * `nextStatement?_raiseCase`  — one statement
      * `grammar_caseBlind`         — definitions and scripts -/

namespace SchemaDiagram

/-- A column in capitals. -/
def Column.raiseCase (c : Column) : Column :=
  { c with name := Text.raiseCase c.name, declaredType := Text.raiseCase c.declaredType }

/-- A foreign key in capitals. -/
def ForeignKey.raiseCase (key : ForeignKey) : ForeignKey where
  columns := key.columns.map Text.raiseCase
  refTable := Text.raiseCase key.refTable
  refColumns := key.refColumns.map Text.raiseCase
  constraintName := key.constraintName.map Text.raiseCase

namespace Ddl

open Text (raiseCase isBlank trim cut? toUpper_eq_iff cut?_raiseCase
  takeWhile_raiseCase dropWhile_raiseCase)

/-! ### Tokens -/

/-- A token in capitals. -/
def Token.raiseCase : Token → Token
  | .word text => .word (Text.raiseCase text)
  | .quotedName text => .quotedName (Text.raiseCase text)
  | .literal text => .literal (Text.raiseCase text)
  | .symbol c => .symbol c.toUpper
  | mark => mark

/-- A token in its place, in capitals. -/
def Lexeme.raiseCase (l : Lexeme) : Lexeme :=
  ⟨Text.raiseCase l.gap, Text.raiseCase l.source, l.token.raiseCase⟩

/-- A reading in capitals; `f` does it for what was read. -/
def Reading.raiseCase {α : Type} (f : α → α) (r : Reading α) : Reading α :=
  ⟨f r.value, Text.raiseCase r.source, Text.raiseCase r.rest⟩

theorem Reading.raiseCase_after (r : Reading Text) (characters meaning : Text) :
    (r.after characters meaning).raiseCase Text.raiseCase =
      (r.raiseCase Text.raiseCase).after (Text.raiseCase characters) (Text.raiseCase meaning) := by
  simp [Reading.raiseCase, Reading.after]

theorem readQuoted_raiseCase {mark : Char} (hmark : mark.isAlpha = false) (s : Text) :
    readQuoted mark (raiseCase s) = (readQuoted mark s).raiseCase raiseCase := by
  have hself : mark.toUpper = mark := (toUpper_eq_iff hmark).2 rfl
  have hescape : Char.toUpper '\\' = '\\' := rfl
  have hstay : ∀ {c : Char}, ¬c = mark → ¬c.toUpper = mark := fun hc =>
    mt (toUpper_eq_iff hmark).1 hc
  -- the marks and backslashes of the text are those of the text in capitals
  fun_induction readQuoted mark s with
  | case1 => rfl
  | case2 r ih =>
    rw [Reading.raiseCase_after, ← ih]
    simp only [Text.raiseCase_cons, hself]
    rw [readQuoted.eq_def]
    simp
  | case3 d r hd =>
    simp only [Text.raiseCase_cons, hself]
    rw [readQuoted.eq_def]
    simp [hstay hd, Reading.raiseCase, hself]
  | case4 =>
    rw [Text.raiseCase_cons, hself, readQuoted.eq_def]
    simp [Reading.raiseCase, hself]
  | case5 d r hc ih =>
    rw [Reading.raiseCase_after, ← ih]
    simp only [Text.raiseCase_cons, hescape]
    rw [readQuoted.eq_def]
    simp [hc]
  | case6 hc =>
    rw [Text.raiseCase_cons, hescape, readQuoted.eq_def]
    simp [hc, Reading.raiseCase, hescape]
  | case7 c r hc hslash ih =>
    have hslash' : ¬c.toUpper = '\\' := mt (toUpper_eq_iff (by decide)).1 hslash
    rw [Reading.raiseCase_after, ← ih, Text.raiseCase_cons, readQuoted.eq_def]
    simp [hstay hc, hslash']

theorem isAlpha_of_not_isWordChar {c : Char} (h : isWordChar c = false) : c.isAlpha = false := by
  rw [Bool.eq_false_iff]
  intro hletter
  have halnum : c.isAlphanum = true := by rw [Char.isAlphanum, hletter, Bool.true_or]
  rw [isWordChar, Text.isAlphanumeric_of_isAlphanum halnum] at h
  cases h

/-- **A token in capitals** is read as the token is. -/
theorem readToken_raiseCase (c : Char) (r : Text) :
    readToken c.toUpper (raiseCase r) = (readToken c r).raiseCase Token.raiseCase := by
  cases hword : isWordChar c with
  | true =>
    rw [readToken_word r hword, readToken_word _ (by rwa [isWordChar_toUpper]),
      takeWhile_raiseCase isWordChar_toUpper, dropWhile_raiseCase isWordChar_toUpper]
    rfl
  | false =>
    -- what starts no word is no letter
    have hself : c.toUpper = c := (toUpper_eq_iff (isAlpha_of_not_isWordChar hword)).2 rfl
    cases hquote : isQuote c with
    | true =>
      rw [hself, readToken_quote hquote, readToken_quote hquote,
        readQuoted_raiseCase (isAlpha_of_isQuote hquote)]
      simp only [Reading.raiseCase, quotedToken, Text.raiseCase_cons, hself]
      split <;> rfl
    | false =>
      simp only [isQuote, Bool.or_eq_false_iff, beq_eq_false_iff_ne] at hquote
      obtain ⟨⟨hsingle, hdouble⟩, hback⟩ := hquote
      rw [hself]
      simp only [readToken, hword, hsingle, hdouble, hback]
      repeat' split
      all_goals simp_all [Reading.raiseCase, Token.raiseCase]

/-- **A text in capitals** is read as the same tokens, in capitals. -/
theorem lex_raiseCase (s : Text) : lex (raiseCase s) = (lex s).map Lexeme.raiseCase := by
  have hdrop : ∀ t : Text, (raiseCase t).dropWhile isBlank = raiseCase (t.dropWhile isBlank) :=
    dropWhile_raiseCase Text.isBlank_toUpper
  fun_induction lex s with
  | case1 s h => exact lex_eq_nil (by rw [hdrop, h]; rfl)
  | case2 s c r h ih =>
    have hcons : (raiseCase s).dropWhile isBlank = c.toUpper :: raiseCase r := by
      rw [hdrop, h]
      rfl
    rw [lex_eq_cons hcons, readToken_raiseCase, takeWhile_raiseCase Text.isBlank_toUpper]
    exact congrArg _ ih

@[simp] theorem sourceText_raiseCase (ls : List Lexeme) :
    sourceText (ls.map Lexeme.raiseCase) = raiseCase (sourceText ls) := by
  induction ls with
  | nil => rfl
  | cons l ls ih =>
    rw [List.map_cons, sourceText_cons, sourceText_cons, ih, Text.raiseCase_append,
      Text.raiseCase_append]
    rfl

/-! ### The readers -/

/-- A token in capitals takes the place of the token: as a keyword it is the
    same word. -/
theorem corresponds_raiseCase (t : Token) : t.Corresponds raiseCase t.raiseCase := by
  cases t with
  | word w => exact .word fun keyword => Text.equalsIgnoringCase_raiseCase w keyword
  | quotedName w => exact .quotedName w
  | literal w => exact .literal w _
  | openParen => exact .openParen
  | closeParen => exact .closeParen
  | comma => exact .comma
  | dot => exact .dot
  | symbol c => exact .symbol c _

theorem closeGroupText?_raiseCase (depth : Nat) (ls : List Lexeme) :
    closeGroupText? depth (ls.map Lexeme.raiseCase) =
      (closeGroupText? depth ls).map (Prod.map raiseCase (List.map Lexeme.raiseCase)) := by
  induction ls generalizing depth with
  | nil => rw [List.map_nil, closeGroupText?.eq_1]; rfl
  | cons l ls ih =>
    obtain ⟨gap, source, token⟩ := l
    rw [List.map_cons, closeGroupText?.eq_def, closeGroupText?.eq_def]
    cases token <;> cases depth <;>
      simp [Lexeme.raiseCase, Token.raiseCase, ih, Function.comp_def]

theorem group?_raiseCase (ls : List Lexeme) :
    group? (ls.map Lexeme.raiseCase) =
      (group? ls).map (Prod.map raiseCase (List.map Lexeme.raiseCase)) := by
  cases ls with
  | nil => rfl
  | cons l ls =>
    have htoken : l.raiseCase.token = .openParen ↔ l.token = .openParen :=
      token_eq_iff_of_corresponds (corresponds_raiseCase l.token) (Or.inl rfl)
    simp only [List.map_cons, group?, htoken]
    split
    · exact closeGroupText?_raiseCase 0 ls
    · rfl

theorem identifierList_raiseCase (text : Text) :
    identifierList (raiseCase text) = (identifierList text).map raiseCase := by
  have hkeep : ∀ name : Text, (raiseCase name != []) = (name != []) := by
    intro name
    cases name <;> rfl
  rw [identifierList, identifierList, splitTopLevel_raiseCase (by decide), List.map_map,
    List.filter_map, List.filter_map, List.map_map]
  simp [Function.comp_def, bareName_raiseCase, hkeep]

/-- **Lexemes in capitals** say the same, in capitals. -/
theorem raiseCase_correspondence :
    Correspondence raiseCase fun ls ls' => ls' = ls.map Lexeme.raiseCase where
  bareName := bareName_raiseCase
  isPlain := isPlain_raiseCase
  first := by
    rintro ls _ rfl
    cases ls with
    | nil => exact .nil
    | cons l ls => exact .cons (corresponds_raiseCase l.token) Text.raiseCase_eq_nil_iff rfl
  group? := by
    rintro ls _ rfl
    rw [group?_raiseCase]
    cases group? ls with
    | none => exact .none
    | some p => exact .some ⟨identifierList_raiseCase p.1, rfl⟩

/-! ### Definitions -/

/-- The definition of a column in capitals. -/
def ColumnDefinition.raiseCase (d : ColumnDefinition) : ColumnDefinition :=
  { d with column := d.column.raiseCase, references := d.references.map ForeignKey.raiseCase }

/-- A definition in capitals. -/
def Definition.raiseCase : Definition → Definition
  | .primaryKey columns => .primaryKey (columns.map Text.raiseCase)
  | .foreignKey key => .foreignKey key.raiseCase
  | .column definition => .column definition.raiseCase
  | .metadata => .metadata
  | .unrecognized text => .unrecognized (Text.raiseCase text)

@[simp] theorem admitsNull_raiseCase (ls : List Lexeme) :
    admitsNull (ls.map Lexeme.raiseCase) = admitsNull ls := by
  rw [admitsNull, sourceText_raiseCase, Text.upper_raiseCase]
  rfl

/-- **A column in capitals** is the column, in capitals. -/
theorem columnDefinition?_raiseCase (ls : List Lexeme) :
    columnDefinition? (ls.map Lexeme.raiseCase) =
      (columnDefinition? ls).map ColumnDefinition.raiseCase := by
  cases ls with
  | nil => rfl
  | cons l rest =>
    have c := raiseCase_correspondence
    have hname : columnName? l.raiseCase = (columnName? l).map raiseCase :=
      c.columnName? (corresponds_raiseCase l.token)
    have hnull := admitsNull_raiseCase (l :: rest)
    rw [List.map_cons] at hnull ⊢
    simp only [columnDefinition?, hname, c.atType rfl, sourceText_raiseCase,
      declaredType_raiseCase, hnull, c.declaresPrimaryKey rfl, c.firstReference? rfl]
    cases columnName? l with
    | none => rfl
    | some name =>
      simp only [Option.map_some]
      split
      · cases firstReference? rest <;> rfl
      · rfl

/-! ### Classification -/

theorem definition?_raiseCase (ls : List Lexeme) :
    definition? (ls.map Lexeme.raiseCase) = (definition? ls).map Definition.raiseCase := by
  have hcolumn : Option.Rel (fun d d' => .column d' = (Definition.column d).raiseCase)
      (columnDefinition? ls) (columnDefinition? (ls.map Lexeme.raiseCase)) := by
    rw [columnDefinition?_raiseCase]
    cases columnDefinition? ls with
    | none => exact .none
    | some d => exact .some rfl
  exact eq_map_of_rel (raiseCase_correspondence.definition? rfl (fun _ => rfl) (fun _ => rfl) rfl
    hcolumn)

/-- **A definition in capitals** is classified as the definition, in
    capitals. -/
theorem classify_raiseCase (text : Text) :
    classify (raiseCase text) = (classify text).raiseCase := by
  rw [classify, classify, Text.trim_raiseCase, lex_raiseCase, definition?_raiseCase]
  cases definition? (lex (trim text)) <;> rfl

/-! ### Comments -/

/-- Two marks side by side in a text in capitals stand side by side in the
    text. -/
theorem not_mark_raiseCase {a b c : Char} {r : Text} (ha : a.isAlpha = false)
    (hb : b.isAlpha = false) (h : ∀ r', c = a → r = b :: r' → False) :
    ∀ r', c.toUpper = a → raiseCase r = b :: r' → False := by
  intro r' hc hr
  cases r with
  | nil => cases hr
  | cons d r =>
    obtain ⟨hd, _⟩ := List.cons.inj hr
    exact h r ((toUpper_eq_iff ha).1 hc) (by rw [(toUpper_eq_iff hb).1 hd])

@[simp] theorem closesBlock_raiseCase (s : Text) : closesBlock (raiseCase s) = closesBlock s := by
  fun_induction closesBlock s with
  | case1 r => rfl
  | case2 c r hne ih =>
    rw [Text.raiseCase_cons,
      closesBlock.eq_2 _ _ (not_mark_raiseCase (by decide) (by decide) hne), ih]
  | case3 => rfl

theorem stripBlocks_raiseCase (inside : Bool) (s : Text) :
    stripBlocks inside (raiseCase s) = raiseCase (stripBlocks inside s) := by
  fun_induction stripBlocks inside s with
  | case1 inside => cases inside <;> rfl
  | case2 r ih => exact ih
  | case3 c r hne ih =>
    rw [Text.raiseCase_cons,
      stripBlocks.eq_3 _ _ (not_mark_raiseCase (by decide) (by decide) hne), ih]
  | case4 r hclosed ih =>
    show stripBlocks false ('/' :: '*' :: raiseCase r) = _
    rw [stripBlocks.eq_4, closesBlock_raiseCase, if_pos hclosed, ih]
  | case5 r hclosed =>
    show stripBlocks false ('/' :: '*' :: raiseCase r) = _
    rw [stripBlocks.eq_4, closesBlock_raiseCase, if_neg hclosed]
    rfl
  | case6 c r hne ih =>
    rw [Text.raiseCase_cons,
      stripBlocks.eq_5 _ _ (not_mark_raiseCase (by decide) (by decide) hne), ih,
      Text.raiseCase_cons]

theorem stripToLineEnd_raiseCase {marker : Text} (hmarker : marker.all (!Char.isAlpha ·) = true)
    (inside : Bool) (s : Text) :
    stripToLineEnd marker inside (raiseCase s) = raiseCase (stripToLineEnd marker inside s) := by
  induction s generalizing inside with
  | nil => cases inside <;> rfl
  | cons c r ih =>
    cases inside with
    | true =>
      simp only [Text.raiseCase_cons, stripToLineEnd, ih, toUpper_eq_iff (d := '\n') (by decide)]
      split <;> rfl
    | false =>
      have hprefix := Text.isPrefixOf_raiseCase hmarker (c :: r)
      rw [Text.raiseCase_cons] at hprefix
      simp only [Text.raiseCase_cons, stripToLineEnd, ih, hprefix]
      split <;> rfl

/-- **Comments in capitals** are comments. -/
theorem stripComments_raiseCase (script : Text) :
    stripComments (raiseCase script) = raiseCase (stripComments script) := by
  rw [stripComments, stripBlocks_raiseCase, stripToLineEnd_raiseCase (by decide),
    stripToLineEnd_raiseCase (by decide)]
  rfl

/-! ### Phrases -/

theorem dropPhrase?_raiseCase (phrase s : Text) :
    dropPhrase? phrase (raiseCase s) = (dropPhrase? phrase s).map raiseCase := by
  have htake : (raiseCase s).take phrase.length = raiseCase (s.take phrase.length) :=
    List.map_take.symm
  have hdrop : (raiseCase s).drop phrase.length = raiseCase (s.drop phrase.length) :=
    List.map_drop.symm
  rw [dropPhrase?, htake, hdrop, Text.equalsIgnoringCase_raiseCase, dropPhrase?]
  split <;> rfl

theorem afterPhrase?_raiseCase (phrase s : Text) :
    afterPhrase? phrase (raiseCase s) = (afterPhrase? phrase s).map raiseCase := by
  induction s with
  | nil => rfl
  | cons c r ih =>
    have hdrop := dropPhrase?_raiseCase phrase (c :: r)
    rw [Text.raiseCase_cons] at hdrop ⊢
    rw [afterPhrase?, afterPhrase?, hdrop, ih]
    cases dropPhrase? phrase (c :: r) <;> rfl

theorem dropKeyword?_raiseCase (keyword s : Text) :
    dropKeyword? keyword (raiseCase s) = (dropKeyword? keyword s).map raiseCase := by
  rw [dropKeyword?, dropKeyword?, dropPhrase?_raiseCase]
  rcases dropPhrase? keyword s with _ | _ | ⟨c, r⟩
  · rfl
  · rfl
  · simp only [Option.map_some, Text.raiseCase_cons, Text.isBlank_toUpper,
      Text.trimStart_raiseCase]
    split <;> rfl

/-! ### Statements -/

/-- A statement in capitals. -/
def Statement.raiseCase (s : Statement) : Statement :=
  ⟨Text.raiseCase s.name, Text.raiseCase s.body⟩

theorem dropIfNotExists_raiseCase (head : Text) :
    dropIfNotExists (raiseCase head) = raiseCase (dropIfNotExists head) := by
  rw [dropIfNotExists, dropIfNotExists, dropKeyword?_raiseCase]
  rcases dropKeyword? "if" head with _ | rest
  · rfl
  simp only [Option.map_some, Option.bind_some, dropKeyword?_raiseCase]
  rcases dropKeyword? "not" rest with _ | rest
  · rfl
  simp only [Option.map_some, Option.bind_some, dropKeyword?_raiseCase]
  cases dropKeyword? "exists" rest <;> rfl

theorem tableName_raiseCase (head : Text) :
    tableName (raiseCase head) = raiseCase (tableName head) := by
  rw [tableName, Text.trim_raiseCase, dropIfNotExists_raiseCase, bareName_raiseCase]
  rfl

theorem closeGroup?_raiseCase (depth : Nat) (s : Text) :
    closeGroup? depth (raiseCase s) = (closeGroup? depth s).map (Prod.map raiseCase raiseCase) := by
  fun_induction closeGroup? depth s with
  | case1 depth => rw [Text.raiseCase_nil, closeGroup?.eq_1]; rfl
  | case2 r => rfl
  | case3 depth r ih =>
    show closeGroup? (depth + 1) (')' :: raiseCase r) = _
    rw [closeGroup?.eq_3, ih, Option.map_map, Option.map_map]
    rfl
  | case4 depth r ih =>
    show closeGroup? depth ('(' :: raiseCase r) = _
    rw [closeGroup?.eq_4, ih, Option.map_map, Option.map_map]
    rfl
  | case5 depth c r hzero hsucc hopen ih =>
    have hclose : c.toUpper = ')' → c = ')' := (toUpper_eq_iff (by decide)).1
    have hopen' : c.toUpper = '(' → False := fun hc => hopen ((toUpper_eq_iff (by decide)).1 hc)
    rw [Text.raiseCase_cons, closeGroup?.eq_5 _ _ _ hopen' (fun hd hc => hzero hd (hclose hc))
      fun d hd hc => hsucc d hd (hclose hc), ih, Option.map_map, Option.map_map]
    rfl

/-- **A statement in capitals** is found where the statement is. -/
theorem nextStatement?_raiseCase (script : Text) :
    nextStatement? (raiseCase script) =
      (nextStatement? script).map (Prod.map Statement.raiseCase raiseCase) := by
  unfold nextStatement?
  rw [afterPhrase?_raiseCase]
  cases afterPhrase? "create table" script with
  | none => rfl
  | some afterHead =>
    dsimp only [Option.map_some]
    rw [cut?_raiseCase (by decide)]
    cases cut? '(' afterHead with
    | none => rfl
    | some p =>
      dsimp only [Option.map_some, Prod.map]
      rw [closeGroup?_raiseCase, tableName_raiseCase]
      cases closeGroup? 0 p.2 with
      | none => rfl
      | some q => simp only [Option.map_some, Prod.map, Statement.raiseCase]

theorem statements_raiseCase (script : Text) :
    statements (raiseCase script) = (statements script).map Statement.raiseCase := by
  fun_induction statements script with
  | case1 script h => exact statements_of_none (by rw [nextStatement?_raiseCase, h]; rfl)
  | case2 script s rest h hname ih =>
    have hnext : nextStatement? (raiseCase script) = some (s.raiseCase, raiseCase rest) := by
      rw [nextStatement?_raiseCase, h]
      rfl
    have hname' : s.raiseCase.name = [] := Text.raiseCase_eq_nil_iff.2 hname
    rw [statements_of_some hnext, if_pos hname', ih]
  | case3 script s rest h hname ih =>
    have hnext : nextStatement? (raiseCase script) = some (s.raiseCase, raiseCase rest) := by
      rw [nextStatement?_raiseCase, h]
      rfl
    have hname' : s.raiseCase.name ≠ [] := mt Text.raiseCase_eq_nil_iff.1 hname
    rw [statements_of_some hnext, if_neg hname', ih]
    rfl

/-- **A script in capitals** has the statements of the script, in capitals. -/
theorem scriptStatements_raiseCase (script : Text) :
    scriptStatements (raiseCase script) = (scriptStatements script).map Statement.raiseCase := by
  rw [scriptStatements, stripComments_raiseCase, statements_raiseCase]
  rfl

/-! ### The grammar -/

/-- **Letter case never matters to the grammar.** A definition in capitals is
    of the same kind as the definition, with the same flags and the same names
    in the same places, all of them in capitals; and a script in capitals has
    the same statements, with names and bodies in capitals. -/
theorem grammar_caseBlind :
    (∀ definition : Text, classify (raiseCase definition) = (classify definition).raiseCase) ∧
      ∀ script : Text,
        scriptStatements (raiseCase script) = (scriptStatements script).map Statement.raiseCase :=
  ⟨classify_raiseCase, scriptStatements_raiseCase⟩

end Ddl

end SchemaDiagram
