import SchemaDiagram.Proofs.ForeignKeySpelling

/-! # PrimaryKeySpelling — which spellings of a primary key keep its columns

    Like a foreign key, a primary key may name an index between its keywords
    and its columns.  The reader of primary keys passes over all bare words
    there, and over nothing else: a bare name is no obstacle, but behind a
    name in marks it finds no list, and takes the key to have no columns.

      * `PrimaryKeySpelling`            — the ways to write a primary key
      * `identifiers?_skipWords`        — the columns, from behind the keywords
      * `classify_primaryKeySpelling`   — what a primary key is read as
      * `primaryKey_lost_behind_marks`  — a key that loses its columns -/

namespace SchemaDiagram.Ddl

open Text (joined trimEnd Trimmed)

/-! ### Spellings -/

/-- A primary key as it is written. -/
structure PrimaryKeySpelling where
  primary : Keyword "PRIMARY"
  afterPrimary : Space
  key : Keyword "KEY"
  index : IndexSpelling
  columns : List ListedName

/-- Whether the name stands in marks. -/
def WrittenName.inMarks : WrittenName → Bool
  | bare _ _ => false
  | quoted _ _ _ _ => true

/-- Whether an index is named, and its name stands in marks. -/
def IndexSpelling.inMarks : IndexSpelling → Bool
  | absent _ => false
  | named _ written _ => written.inMarks

namespace PrimaryKeySpelling

variable (k : PrimaryKeySpelling)

/-- The key from behind its keywords on. -/
def columnsText : Text := k.index.text ++ writtenList k.columns

/-- The whole key. -/
def text : Text := k.primary.text ++ (k.afterPrimary.text ++ (k.key.text ++ k.columnsText))

/-- The columns that are written. -/
def names : List Text := k.columns.map ListedName.name

/-- A key ends with a parenthesis. -/
theorem getLast?_text : k.text.getLast? = some ')' := by
  have hlist : writtenList k.columns = '(' :: joined "," (k.columns.map ListedName.text) ++ [')'] :=
    rfl
  simp only [text, columnsText, hlist, ← List.append_assoc]
  exact List.getLast?_concat

/-- A key starts with a keyword. -/
theorem trimmed_text : Trimmed k.text := by
  refine ⟨k.primary.isBlank_head?_append (by decide) _, ?_⟩
  intro c hc
  rw [k.getLast?_text, Option.mem_some_iff] at hc
  exact hc ▸ by decide

theorem ne_nil_text : k.text ≠ [] := by
  intro hnil
  have hlast := k.getLast?_text
  rw [hnil] at hlast
  cases hlast

end PrimaryKeySpelling

/-! ### The key is read -/

/-- No word stands in front of a group. -/
theorem skipWords_of_isGroup {ls rest : List Lexeme} {text : Text} (h : IsGroup ls text rest) :
    skipWords ls = ls := by
  cases h with
  | intro hopen _ _ => rw [skipWords, hopen]

section PrimaryKey

variable (k : PrimaryKeySpelling) (tail : Text)

/-- **The columns of a key** are found behind a bare name of an index, or
    without one.  Behind a name in marks nothing is found. -/
theorem identifiers?_skipWords (i : IndexSpelling) (columns : List ListedName) (rest : Text) :
    identifiers? (skipWords (lex (i.text ++ (writtenList columns ++ rest)))) =
      if i.inMarks = true then none else some (columns.map ListedName.name, lex rest) := by
  have hlist : ∀ g : Gap, identifiers? (skipWords (lex (g.text ++ (writtenList columns ++ rest)))) =
      some (columns.map ListedName.name, lex rest) := by
    intro g
    rw [skipWords_of_isGroup (isGroup_writtenList g columns rest)]
    exact identifiers?_writtenList g columns rest
  cases i with
  | absent gap => exact hlist gap
  | named lead written trail =>
    have hread := written.lex_append lead.toGap
      (trail.apart_append (apart_writtenList columns rest))
    rw [IndexSpelling.text, List.append_assoc, List.append_assoc, hread]
    cases written with
    | bare name plain => exact hlist trail
    | quoted mark isMark name markable => rfl

/-- **What a primary key is read as**, whatever stands behind it: a key with
    just the columns that are written, unless it names an index in marks.  A
    key that does is read as one without columns. -/
theorem classify_primaryKeySpelling :
    classify (k.text ++ tail) =
      .primaryKey (if k.index.inMarks = true then [] else k.names) := by
  have hindex : Apart (k.index.text ++ (writtenList k.columns ++ trimEnd tail)) :=
    k.index.apart_append (apart_writtenList _ _)
  have htext : k.text ++ trimEnd tail = Gap.none.text ++ (k.primary.text ++ (k.afterPrimary.text ++
      (k.key.text ++ (k.index.text ++ (writtenList k.columns ++ trimEnd tail))))) := by
    simp [PrimaryKeySpelling.text, PrimaryKeySpelling.columnsText, Gap.none]
  have hlex : lex (k.text ++ trimEnd tail) = k.primary.lexeme [] :: k.key.lexeme k.afterPrimary.text ::
      lex (k.index.text ++ (writtenList k.columns ++ trimEnd tail)) := by
    rw [htext, k.primary.lex_append (by decide) Gap.none (k.afterPrimary.apart_append _),
      k.key.lex_append (by decide) k.afterPrimary.toGap hindex]
    rfl
  have hstart : atPrimaryKey (lex (k.text ++ trimEnd tail)) = true := by
    rw [hlex]
    show ((k.primary.lexeme []).isWord "PRIMARY" && (k.key.lexeme k.afterPrimary.text).isWord "KEY") =
      true
    rw [k.primary.isWord_lexeme, k.key.isWord_lexeme]
    rfl
  -- both keywords are words, and are passed over
  have hskip : skipWords (lex (k.text ++ trimEnd tail)) =
      skipWords (lex (k.index.text ++ (writtenList k.columns ++ trimEnd tail))) := by
    rw [hlex]
    rfl
  have hcolumns : primaryKeyColumns (lex (k.text ++ trimEnd tail)) =
      if k.index.inMarks = true then [] else k.names := by
    rw [primaryKeyColumns, hskip, identifiers?_skipWords]
    by_cases hmarks : k.index.inMarks = true
    · rw [if_pos hmarks, if_pos hmarks]
    · rw [if_neg hmarks, if_neg hmarks]
      rfl
  rw [classify, Text.trim_append k.trimmed_text k.ne_nil_text, definition?, if_pos hstart, hcolumns]
  rfl

end PrimaryKey

/-- A key that names an index in backticks. -/
def indexedKey : PrimaryKeySpelling where
  primary := .plain "PRIMARY"
  afterPrimary := .single
  key := .plain "KEY"
  index := .named .single (.quoted '\x60' isNameMark_backtick "pk" (isMarkable_of_isPlain rfl))
    Space.single.toGap
  columns := [⟨.none, .bare "id" rfl, none, .none⟩]

/-- **A key loses its columns** behind an index in marks, and it is still taken
    for a primary key. -/
theorem primaryKey_lost_behind_marks :
    indexedKey.text = "PRIMARY KEY \x60pk\x60 (id)" ∧ indexedKey.names = ["id"] ∧
      classify indexedKey.text = .primaryKey [] ∧
      classify indexedKey.text ≠ .primaryKey indexedKey.names := by
  decide +kernel

end SchemaDiagram.Ddl
