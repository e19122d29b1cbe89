import SchemaDiagram.Proofs.Escaping
import SchemaDiagram.Proofs.RoundTrip

/-! # References — a table, and a reference that is spelled like it

    The name of a table is read off the text of its statement, and the table
    that a foreign key refers to off the tokens of a definition.  Both ways
    take the marks off the ends of the name.  Only the second undoes doubled
    backticks first, so the two agree on a name just when no backtick is left
    inside it.

      * `selfReferring`                    — a table, and a second one that
                                             refers to it
      * `classify_childBody`               — what the second one's column
                                             declares
      * `scriptStatements_selfReferring`   — the statements of the script
      * `tables_selfReferring`             — and its tables
      * `reference_resolves_iff`           — when the reference finds the table -/

namespace SchemaDiagram.Ddl

open Text (Trimmed joined)

/-! ### The script -/

/-- The definition of the second table's column. -/
def childBody (name : Text) : Text := "x INT REFERENCES " ++ (escapedName name ++ " (id)")

/-- A table, and a second one with a key that refers to the first by the same
    spelling of its name. -/
def selfReferring (name : Text) : Text :=
  "CREATE TABLE " ++ escapedName name ++ " (id INT); CREATE TABLE child (x INT REFERENCES "
    ++ escapedName name ++ " (id));"

/-- The key that the column of the second table declares. -/
def childKey (name : Text) : ForeignKey := ⟨["x"], stripMarks name, ["id"], none⟩

/-! ### The definition of the column -/

/-- The column that the reference names, as a list in parentheses. -/
def idLexemes : List Lexeme :=
  [⟨" ", "(", .openParen⟩, wordLexeme [] "id", ⟨[], ")", .closeParen⟩]

/-- What stands behind the name of the second table's column. -/
def constraintLexemes (name : Text) : List Lexeme :=
  wordLexeme " " "INT" :: wordLexeme " " "REFERENCES" :: escapedLexeme " " name :: idLexemes

/-- The lexemes of the definition. -/
def childLexemes (name : Text) : List Lexeme := wordLexeme [] "x" :: constraintLexemes name

/-- The second table's column.  Whether it admits NULL depends on the name, for
    the words NOT NULL may stand in it. -/
def childColumn (name : Text) : Column where
  name := "x"
  declaredType := declaredType (sourceText (constraintLexemes name))
  nullable := admitsNull (childLexemes name)

/-- What the definition declares: the column, and the key with it. -/
def childDefinition (name : Text) : Definition :=
  .column ⟨childColumn name, false, some (childKey name)⟩

theorem sourceText_childLexemes (name : Text) :
    sourceText (childLexemes name) = childBody name := by
  unfold childLexemes constraintLexemes idLexemes childBody
  simp [wordLexeme, escapedLexeme]

theorem trimmed_childBody (name : Text) : Trimmed (childBody name) := by
  have hlast : (childBody name).getLast? = some ')' := by
    unfold childBody
    rw [List.getLast?_append, List.getLast?_append]
    rfl
  exact Text.trimmed_of_ends (c := 'x') rfl hlast (by decide) (by decide)

theorem fragment_childFront : Fragment false "x INT REFERENCES " := .of_free (by decide)

theorem fragment_childBack : Fragment false " (id)" :=
  .append (.of_free (s := " ") (by decide)) (.group (.of_free (s := "id") (by decide)))

section Referable

variable {name : Text} (h : IsReferable name)
include h

theorem legible_childLexemes : Legible (childLexemes name) [] := by
  refine ⟨legible_wordLexeme rfl (by decide) (by decide) rfl,
    legible_wordLexeme rfl (by decide) (by decide) rfl,
    legible_wordLexeme rfl (by decide) (by decide) rfl,
    legible_escapedLexeme rfl (h.not_mem (by decide)) (by decide), legible_openParen rfl _, ?_,
    legible_closeParen rfl _, trivial⟩
  refine legible_word rfl (by decide) (List.all_eq_true.1 (by decide)) fun c hc => ?_
  obtain rfl : ')' = c := Option.some.inj hc
  decide

/-- **The reference is read as the name** without the marks around it. -/
theorem firstReference?_constraintLexemes :
    firstReference? (constraintLexemes name) = some (stripMarks name, (["id"] : List Text)) := by
  have hlist : identifiers? idLexemes = some ((["id"] : List Text), []) := by decide +kernel
  have hread : reference? (escapedLexeme " " name :: idLexemes) =
      some (stripMarks name, (["id"] : List Text)) := by
    show (identifiers? idLexemes).bind (fun columns => some (bareName name, columns.1)) = _
    rw [hlist, h.bareName_eq]
    rfl
  show (reference? (escapedLexeme " " name :: idLexemes)).or
    (firstReference? (escapedLexeme " " name :: idLexemes)) = _
  rw [hread]
  rfl

/-- **The column declares the key.** -/
theorem classify_childBody : classify (childBody name) = childDefinition name := by
  have hcolumn : definition? (childLexemes name) =
      some (.column ⟨childColumn name, false,
        (firstReference? (constraintLexemes name)).map (inlineKey "x")⟩) := rfl
  rw [firstReference?_constraintLexemes h] at hcolumn
  rw [← sourceText_childLexemes]
  exact classify_sourceText (legible_childLexemes h)
    (sourceText_childLexemes name ▸ trimmed_childBody name) hcolumn

/-! ### The statements -/

theorem sealed_childBody (depth : Nat) : Sealed depth (childBody name) :=
  (sealed_of_fragment fragment_childFront (by simp)).append
    ((h.sealed depth).append (sealed_of_fragment fragment_childBack (by simp)))

theorem declaration_childBody :
    Statement.declaration ⟨"child", childBody name⟩ =
      ⟨"child", [childDefinition name]⟩ := by
  have hsplit : splitTopLevel ',' (joined ", " [childBody name]) = [childBody name] := by
    refine splitTopLevel_joined (List.forall_mem_singleton.2 ⟨sealed_childBody h 0, ?_⟩)
    exact ⟨trimmed_childBody name, by unfold childBody; exact List.cons_ne_nil _ _⟩
  rw [Text.joined_singleton] at hsplit
  rw [Statement.declaration, hsplit, List.map_singleton, classify_childBody h]

theorem closeGroup?_childBody (rest : Text) :
    closeGroup? 0 (childBody name ++ ')' :: rest) = some (childBody name, rest) := by
  unfold childBody
  rw [List.append_assoc, closeGroup?_append_of_fragment fragment_childFront, List.append_assoc,
    h.closeGroup?_append, closeGroup?_append_of_fragment fragment_childBack, closeGroup?.eq_2]
  simp

/-- No comment starts in the script. -/
theorem stripComments_selfReferring : stripComments (selfReferring name) = selfReferring name := by
  have hfirst : Uncommented "CREATE TABLE " := .of_unmarked (by decide)
  have hsecond : Uncommented " (id INT); CREATE TABLE child (x INT REFERENCES " :=
    .of_unmarked (by decide)
  have hend : Uncommented " (id));" := .of_unmarked (by decide)
  exact stripComments_of_uncommented
    ((((hfirst.append h.uncommented).append hsecond).append h.uncommented).append hend)

/-- **The statements of the script.** A name of nothing but marks names no
    table, and its statement is passed over. -/
theorem scriptStatements_selfReferring :
    scriptStatements (selfReferring name) =
      (if stripMarks name = [] then [] else [⟨doubled (stripMarks name), "id INT"⟩])
        ++ [⟨"child", childBody name⟩] := by
  have hchild :
      statements ("CREATE TABLE" ++ (" child " ++ '(' :: (childBody name ++ ')' :: [';']))) =
        [⟨"child", childBody name⟩] := by
    have hname : tableName " child " = "child" := by decide
    have hlast : statements [';'] = [] := statements_of_none rfl
    rw [statements_of_some (nextStatement?_of_parts (by decide) (closeGroup?_childBody h [';'])),
      hname, hlast]
    rfl
  have htext : selfReferring name = "CREATE TABLE" ++
      ((' ' :: (escapedName name ++ [' '])) ++ '(' :: ("id INT" ++ ')' :: (';' :: ' ' ::
        ("CREATE TABLE" ++ (" child " ++ '(' :: (childBody name ++ ')' :: [';'])))))) := by
    unfold selfReferring childBody
    simp only [List.append_assoc, List.cons_append]
    rfl
  have hhead : '(' ∉ ' ' :: (escapedName name ++ [' ']) := by
    have hname := h.not_mem_escapedName (d := '(') (by decide)
    simp [hname]
  have hbody : ∀ rest, closeGroup? 0 ("id INT" ++ ')' :: rest) = some (("id INT" : Text), rest) :=
    fun _ => rfl
  have hname : tableName (' ' :: (escapedName name ++ [' '])) = doubled (stripMarks name) :=
    (tableName_quotedName _).trans h.bareName_escapedName
  -- the end of a statement and the blank behind it start no other statement
  have hskip : ∀ rest, statements (';' :: ' ' :: ("CREATE TABLE" ++ rest)) =
      statements ("CREATE TABLE" ++ rest) := fun _ => statements_congr rfl
  rw [scriptStatements, stripComments_selfReferring h, htext,
    statements_of_some (nextStatement?_of_parts hhead (hbody _)), hskip, hchild, hname]
  simp only [doubled_eq_nil_iff]
  split <;> rfl

end Referable

/-! ### The tables -/

/-- What the definition in the first statement declares. -/
def idDefinition : Definition := .column ⟨⟨"id", "INT", true⟩, false, none⟩

theorem declaration_idBody (name : Text) :
    Statement.declaration ⟨name, "id INT"⟩ = ⟨name, [idDefinition]⟩ := by
  have hdefinitions : (splitTopLevel ',' "id INT").map classify = [idDefinition] := by
    decide +kernel
  rw [Statement.declaration, hdefinitions]

/-- The tables of the script.  A table of the second one's name is the second
    one itself. -/
theorem tables_selfReferring {name : Text} (h : IsReferable name) :
    (parseSchema (selfReferring name)).tables =
      if stripMarks name = [] then [groupedTable "child" [childDefinition name]]
      else if doubled (stripMarks name) = ("child" : Text) then
        [groupedTable "child" [idDefinition, childDefinition name]]
      else [groupedTable (doubled (stripMarks name)) [idDefinition],
        groupedTable "child" [childDefinition name]] := by
  rw [parseSchema, scriptStatements_selfReferring h]
  split
  · rw [List.nil_append, List.map_singleton, declaration_childBody h, tables_schemaOf_singleton]
  · rw [List.map_append, List.map_singleton, List.map_singleton, declaration_idBody,
      declaration_childBody h]
    split
    · next hchild =>
      rw [tables_schemaOf, hchild]
      rfl
    · next hchild =>
      have hapart : ∀ name' ∈ declaredNames [⟨doubled (stripMarks name), [idDefinition]⟩],
          name' ∉ declaredNames [⟨"child", [childDefinition name]⟩] := by
        intro name' hfirst hsecond
        obtain rfl := List.mem_singleton.1 hfirst
        exact hchild (List.mem_singleton.1 hsecond)
      rw [(schemaOf_append hapart).1, tables_schemaOf_singleton, tables_schemaOf_singleton]
      rfl

/-- **When a reference finds the table that is spelled like it.** The key of the
    second table refers to the name without the marks around it.  The first
    table has that name with what is left of its backticks doubled, so the two
    agree just when there are none.  A name of nothing but marks names no
    table at all, and the second is then the first. -/
theorem reference_resolves_iff {name : Text} (h : IsReferable name) :
    let tables := (parseSchema (selfReferring name)).tables
    ∃ first child key, tables.head? = some first ∧ findTable? tables "child" = some child ∧
      child.foreignKeys = [key] ∧ key.refTable = stripMarks name ∧
      first.name = (if stripMarks name = [] then ("child" : Text) else doubled (stripMarks name)) ∧
      (key.refTable = first.name ↔ stripMarks name ≠ [] ∧ '\x60' ∉ stripMarks name) := by
  intro tables
  have htables : tables = _ := tables_selfReferring h
  rw [htables]
  split
  · next hnil =>
    have hother : (childKey name).refTable ≠ ("child" : Text) := by
      rw [childKey, hnil]
      exact (List.cons_ne_nil _ _).symm
    exact ⟨_, _, childKey name, rfl, rfl, rfl, rfl, rfl,
      iff_of_false hother fun hname => hname.1 hnil⟩
  · next hne =>
    have hagree : stripMarks name = doubled (stripMarks name) ↔
        stripMarks name ≠ [] ∧ '\x60' ∉ stripMarks name := by
      rw [eq_comm, doubled_eq_self_iff]
      exact (and_iff_right hne).symm
    split
    · next hchild =>
      exact ⟨_, _, childKey name, rfl, rfl, rfl, rfl, hchild.symm, hchild ▸ hagree⟩
    · next hchild =>
      have hfind : findTable? [groupedTable (doubled (stripMarks name)) [idDefinition],
          groupedTable "child" [childDefinition name]] "child" =
            some (groupedTable "child" [childDefinition name]) := by
        refine (List.find?_cons_of_neg ?_).trans rfl
        exact fun hname => hchild (of_decide_eq_true hname)
      exact ⟨_, _, childKey name, rfl, hfind, rfl, rfl, rfl, hagree⟩

/-- A name with a comma, a keyword and outer backticks. -/
theorem reference_resolves_outer_marks :
    let name : Text := "\x60order, it's not null\x60"
    IsReferable name ∧
      ∃ first child key, (parseSchema (selfReferring name)).tables.head? = some first ∧
        findTable? (parseSchema (selfReferring name)).tables "child" = some child ∧
        child.foreignKeys = [key] ∧ key.refTable = first.name := by
  intro name
  have hname : IsReferable name := by decide
  obtain ⟨first, child, key, hfirst, hchild, hkeys, _, _, hresolves⟩ := reference_resolves_iff hname
  exact ⟨hname, first, child, key, hfirst, hchild, hkeys, hresolves.2 (by decide)⟩

/-- **A backtick inside a name detaches the reference.** It stands doubled in
    the name of the first table, and alone in the key that refers to it. -/
theorem reference_detached_inner_mark :
    let name : Text := "a\x60b"
    let tables := (parseSchema (selfReferring name)).tables
    IsReferable name ∧
      ∃ first child key, tables.head? = some first ∧ findTable? tables "child" = some child ∧
        child.foreignKeys = [key] ∧ key.refTable = name ∧ first.name = ("a\x60\x60b" : Text) ∧
        key.refTable ≠ first.name := by
  intro name tables
  have htables : tables =
      [⟨"a\x60\x60b", [⟨"id", "INT", true⟩], ∅, []⟩,
        ⟨"child", [⟨"x", "INT", true⟩], ∅, [⟨["x"], name, ["id"], none⟩]⟩] := by
    decide +kernel
  rw [htables]
  exact ⟨by decide, _, _, _, rfl, rfl, rfl, rfl, rfl, by decide⟩

end SchemaDiagram.Ddl
