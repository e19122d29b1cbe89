import SchemaDiagram.Proofs.Spelling
import SchemaDiagram.Proofs.WellFormed

/-! # ForeignKeySpelling — every spelling of a foreign key is read

    A foreign key may have a name, may name an index, and may qualify the
    table that it refers to.  With any blanks between its parts, its keywords
    in any letter case and its names bare or in marks, it declares the same
    key, whatever stands behind it.

      * `ForeignKeySpelling`         — the ways to write a foreign key
      * `ForeignKeySpelling.foreignKey`
                                     — what is written
      * `constraintName?_spelling`,
        `index_spelling`,
        `reference?_spelling`        — the parts are read back
      * `classify_foreignKeySpelling`
                                     — and so is the key -/

namespace SchemaDiagram.Ddl

open Text (isBlank joined trimEnd Trimmed)

/-! ### Spellings -/

/-- CONSTRAINT and the name of a foreign key.  A bare name is not FOREIGN, which
    would be read as the next keyword. -/
structure ConstraintSpelling where
  keyword : Keyword "CONSTRAINT"
  lead : Space
  written : WrittenName
  trail : Space
  not_foreign : written.isKeyword "FOREIGN" = false

/-- What stands between FOREIGN KEY and the columns: blanks, and with them the
    name of an index. -/
inductive IndexSpelling where
  | absent (gap : Gap)
  | named (lead : Space) (written : WrittenName) (trail : Gap)

/-- The name of a database in front of the name of a table. -/
structure QualifierSpelling where
  written : WrittenName
  beforeDot : Gap
  afterDot : Gap

/-- A foreign key as it is written. -/
structure ForeignKeySpelling where
  constraint : Option ConstraintSpelling
  foreign : Keyword "FOREIGN"
  afterForeign : Space
  key : Keyword "KEY"
  index : IndexSpelling
  columns : List ListedName
  afterColumns : Gap
  references : Keyword "REFERENCES"
  afterReferences : Space
  qualifier : Option QualifierSpelling
  table : WrittenName
  afterTable : Gap
  refColumns : List ListedName

def ConstraintSpelling.text (c : ConstraintSpelling) : Text :=
  c.keyword.text ++ (c.lead.text ++ (c.written.text ++ c.trail.text))

def IndexSpelling.text : IndexSpelling → Text
  | absent gap => gap.text
  | named lead written trail => lead.text ++ (written.text ++ trail.text)

def QualifierSpelling.text (q : QualifierSpelling) : Text :=
  q.written.text ++ (q.beforeDot.text ++ '.' :: q.afterDot.text)

namespace ForeignKeySpelling

variable (k : ForeignKeySpelling)

/-- The table with its qualifier, and its columns. -/
def referenceText : Text :=
  (k.qualifier.map QualifierSpelling.text).getD [] ++
    (k.table.text ++ (k.afterTable.text ++ writtenList k.refColumns))

/-- The key from the word KEY on. -/
def columnsText : Text :=
  k.key.text ++ (k.index.text ++ (writtenList k.columns ++ (k.afterColumns.text ++
    (k.references.text ++ (k.afterReferences.text ++ k.referenceText)))))

/-- The key from the word FOREIGN on. -/
def bodyText : Text := k.foreign.text ++ (k.afterForeign.text ++ k.columnsText)

/-- The whole key. -/
def text : Text := (k.constraint.map ConstraintSpelling.text).getD [] ++ k.bodyText

/-- The key that is written. -/
def foreignKey : ForeignKey where
  columns := k.columns.map ListedName.name
  refTable := k.table.name
  refColumns := k.refColumns.map ListedName.name
  constraintName := k.constraint.map fun c => c.written.name

end ForeignKeySpelling

/-! ### The parts are read back -/

theorem identifiers?_writtenList (g : Gap) (items : List ListedName) (rest : Text) :
    identifiers? (lex (g.text ++ (writtenList items ++ rest))) =
      some (items.map ListedName.name, lex rest) :=
  identifiers?_eq_some_iff.2
    ⟨_, isGroup_writtenList g items rest, identifierList_writtenList items⟩

theorem apart_writtenList (items : List ListedName) (rest : Text) :
    Apart (writtenList items ++ rest) := apart_openParen _

/-- **The columns of a key** are found behind the name of an index, or without
    one. -/
theorem index_spelling (i : IndexSpelling) (columns : List ListedName) (rest : Text) :
    ∃ g : Gap,
      (if atOpenParen (lex (i.text ++ (writtenList columns ++ rest))) = true then
          some (lex (i.text ++ (writtenList columns ++ rest)))
        else (identifier? (lex (i.text ++ (writtenList columns ++ rest)))).map (·.2)) =
        some (lex (g.text ++ (writtenList columns ++ rest))) := by
  cases i with
  | absent gap =>
    exact ⟨gap, if_pos (atOpenParen_of_isGroup (isGroup_writtenList gap columns rest))⟩
  | named lead written trail =>
    have hapart : Apart (trail.text ++ (writtenList columns ++ rest)) :=
      trail.apart_append (apart_writtenList columns rest)
    have hread := identifier?_writtenName written lead.toGap hapart
    have hnot : atOpenParen (lex (lead.text ++ (written.text ++
        (trail.text ++ (writtenList columns ++ rest))))) = false := by
      rw [written.lex_append lead.toGap hapart]
      cases written <;> rfl
    refine ⟨trail, ?_⟩
    simp only [IndexSpelling.text, List.append_assoc, hnot, Bool.false_eq_true, if_false]
    rw [hread]
    rfl

section ForeignKey

variable (k : ForeignKeySpelling) (tail : Text)

/-- **The table and its columns** are read back, with a qualifier or without
    one. -/
theorem reference?_spelling (g : Gap) :
    reference? (lex (g.text ++ (k.referenceText ++ tail))) =
      some (k.table.name, k.refColumns.map ListedName.name) := by
  have hgroup := isGroup_writtenList k.afterTable k.refColumns tail
  have hapart : Apart (k.afterTable.text ++ (writtenList k.refColumns ++ tail)) :=
    k.afterTable.apart_append (apart_writtenList k.refColumns tail)
  rw [reference?_eq_some_iff, ← k.table.isMarkable.bareName_eq_self,
    ← identifierList_writtenList k.refColumns]
  unfold ForeignKeySpelling.referenceText
  cases k.qualifier with
  | none =>
    simp only [Option.map_none, Option.getD_none, List.nil_append, List.append_assoc]
    rw [k.table.lex_append g hapart]
    exact .plain (k.table.writesName_lexeme g.text) hgroup
  | some q =>
    have hdot := lex_of_legible (legible_dot q.beforeDot.blank
      (q.afterDot.text ++ (k.table.text ++ (k.afterTable.text ++ (writtenList k.refColumns ++ tail)))))
    have hbefore : Apart (q.beforeDot.text ++ '.' :: (q.afterDot.text ++
        (k.table.text ++ (k.afterTable.text ++ (writtenList k.refColumns ++ tail))))) :=
      q.beforeDot.apart_append (apart_cons (by decide) (by decide) _)
    rw [List.append_assoc, List.singleton_append] at hdot
    simp only [Option.map_some, Option.getD_some, QualifierSpelling.text, List.append_assoc,
      List.cons_append]
    rw [q.written.lex_append g hbefore, hdot, k.table.lex_append q.afterDot hapart]
    exact .qualified (q.written.writesName_lexeme g.text) rfl
      (k.table.writesName_lexeme q.afterDot.text) hgroup

/-- **The name of a key** is read back, if it has one. -/
theorem constraintName?_spelling :
    ∃ g : Gap, constraintName? (lex (k.text ++ tail)) =
      some (k.foreignKey.constraintName, lex (g.text ++ (k.bodyText ++ tail))) := by
  unfold ForeignKeySpelling.text ForeignKeySpelling.foreignKey
  cases k.constraint with
  | none =>
    refine ⟨Gap.none, ?_⟩
    have hbody : k.bodyText ++ tail =
        Gap.none.text ++ (k.foreign.text ++ (k.afterForeign.text ++ (k.columnsText ++ tail))) := by
      simp [ForeignKeySpelling.bodyText, Gap.none]
    have hnone : dropWord? "CONSTRAINT" (lex (k.bodyText ++ tail)) = none := by
      rw [hbody, k.foreign.lex_append (by decide) Gap.none (k.afterForeign.apart_append _), dropWord?,
        k.foreign.isWord_lexeme]
      rfl
    simp only [Option.map_none, Option.getD_none, List.nil_append, constraintName?, hnone]
    rfl
  | some c =>
    have hname : Apart (c.trail.text ++ (k.bodyText ++ tail)) := c.trail.apart_append _
    have htext : c.text ++ k.bodyText ++ tail = Gap.none.text ++ (c.keyword.text ++
        (c.lead.text ++ (c.written.text ++ (c.trail.text ++ (k.bodyText ++ tail))))) := by
      simp [ConstraintSpelling.text, Gap.none]
    have hdrop := dropWord?_keyword c.keyword (by decide) Gap.none (c.lead.apart_append
      (c.written.text ++ (c.trail.text ++ (k.bodyText ++ tail))))
    have hread := identifier?_writtenName c.written c.lead.toGap hname
    have hnot : atWord "FOREIGN" (lex (c.lead.text ++
        (c.written.text ++ (c.trail.text ++ (k.bodyText ++ tail))))) = false := by
      rw [c.written.lex_append c.lead.toGap hname]
      exact (c.written.isWord_lexeme _ _).trans c.not_foreign
    refine ⟨c.trail.toGap, ?_⟩
    simp only [Option.map_some, Option.getD_some]
    rw [htext, constraintName?, hdrop]
    simp only [hnot, Bool.false_eq_true, if_false, hread, Option.map_some,
      c.written.isMarkable.bareName_eq_self]

/-- What the parts of a key make together. -/
theorem foreignKey?_of_parts {ls ls₁ ls₂ ls₃ ls₄ ls₅ ls₆ : List Lexeme} {name : Option Text}
    {columns : List Text} {reference : Text × List Text}
    (hname : constraintName? ls = some (name, ls₁)) (hforeign : dropWord? "FOREIGN" ls₁ = some ls₂)
    (hkey : dropWord? "KEY" ls₂ = some ls₃)
    (hindex : (if atOpenParen ls₃ = true then some ls₃ else (identifier? ls₃).map (·.2)) = some ls₄)
    (hcolumns : identifiers? ls₄ = some (columns, ls₅))
    (hreferences : dropWord? "REFERENCES" ls₅ = some ls₆)
    (hreference : reference? ls₆ = some reference) :
    foreignKey? ls = some ⟨columns, reference.1, reference.2, name⟩ := by
  unfold foreignKey?
  simp only [hname, hforeign, hkey, Option.bind_eq_bind, Option.bind_some]
  split at hindex
  · next hopen =>
    obtain rfl := Option.some.inj hindex
    simp only [hopen, if_true, hcolumns, hreferences, hreference, Option.bind_some]
  · next hopen =>
    simp only [hopen, hindex, hcolumns, hreferences, hreference, Option.bind_some]
    rfl

theorem IndexSpelling.apart_append (i : IndexSpelling) {rest : Text} (h : Apart rest) :
    Apart (i.text ++ rest) := by
  cases i with
  | absent gap => exact gap.apart_append h
  | named lead written trail =>
    rw [IndexSpelling.text, List.append_assoc]
    exact lead.apart_append _

theorem foreignKey?_spelling : foreignKey? (lex (k.text ++ tail)) = some k.foreignKey := by
  obtain ⟨g, hname⟩ := constraintName?_spelling k tail
  obtain ⟨g', hindex⟩ := index_spelling k.index k.columns
    (k.afterColumns.text ++ (k.references.text ++ (k.afterReferences.text ++
      (k.referenceText ++ tail))))
  have hbody : k.bodyText ++ tail = k.foreign.text ++ (k.afterForeign.text ++ (k.key.text ++
      (k.index.text ++ (writtenList k.columns ++ (k.afterColumns.text ++ (k.references.text ++
        (k.afterReferences.text ++ (k.referenceText ++ tail)))))))) := by
    simp only [ForeignKeySpelling.bodyText, ForeignKeySpelling.columnsText, List.append_assoc]
  rw [hbody] at hname
  exact foreignKey?_of_parts hname
    (dropWord?_keyword k.foreign (by decide) g (k.afterForeign.apart_append _))
    (dropWord?_keyword k.key (by decide) k.afterForeign.toGap
      (k.index.apart_append (apart_writtenList _ _)))
    hindex (identifiers?_writtenList g' k.columns _)
    (dropWord?_keyword k.references (by decide) k.afterColumns (k.afterReferences.apart_append _))
    (reference?_spelling k tail k.afterReferences.toGap)

/-! ### The key is read back -/

/-- A key ends with a parenthesis. -/
theorem ForeignKeySpelling.getLast?_text : k.text.getLast? = some ')' := by
  have hlist : writtenList k.refColumns =
      '(' :: joined "," (k.refColumns.map ListedName.text) ++ [')'] := rfl
  simp only [text, bodyText, columnsText, referenceText, hlist, ← List.append_assoc]
  exact List.getLast?_concat

/-- A key starts with a keyword. -/
theorem ForeignKeySpelling.trimmed_text : Trimmed k.text := by
  constructor
  · -- the keyword is CONSTRAINT if the key has a name, and FOREIGN if it has none
    unfold text
    cases k.constraint with
    | none => exact k.foreign.isBlank_head?_append (by decide) _
    | some c =>
      show ∀ d ∈ (c.text ++ k.bodyText).head?, isBlank d = false
      rw [ConstraintSpelling.text, List.append_assoc]
      exact c.keyword.isBlank_head?_append (by decide) _
  · intro c hc
    rw [k.getLast?_text, Option.mem_some_iff] at hc
    exact hc ▸ by decide

theorem ForeignKeySpelling.ne_nil_text : k.text ≠ [] := by
  intro hnil
  have hlast := k.getLast?_text
  rw [hnil] at hlast
  cases hlast

/-- **Every spelling of a foreign key is read as that key**, whatever stands
    behind it. -/
theorem classify_foreignKeySpelling : classify (k.text ++ tail) = .foreignKey k.foreignKey := by
  rw [classify, Text.trim_append k.trimmed_text k.ne_nil_text,
    definition?_eq_foreignKey_iff.2 (foreignKey?_spelling k (trimEnd tail))]
  rfl

end ForeignKey

/-- A key with all that a key may have: a name, which is a keyword in marks, an
    index, a database, lengths, and a column whose name holds a comma. -/
def fullKey : ForeignKeySpelling where
  constraint := some
    { keyword := ⟨"Constraint", rfl⟩
      lead := .single
      written := .quoted '\x60' isNameMark_backtick "FOREIGN" (isMarkable_of_isPlain rfl)
      trail := .single
      not_foreign := rfl }
  foreign := ⟨"foreign", rfl⟩
  afterForeign := .single
  key := ⟨"key", rfl⟩
  index := .named .single (.bare "idx" rfl) .none
  columns :=
    [⟨.none, .bare "a" rfl, some ⟨Space.single.toGap, "10", List.all_eq_true.1 rfl⟩, .none⟩,
      ⟨.none, .quoted '\x22' isNameMark_doubleQuote "b,c" (IsQuotable.isMarkable (by decide)), none,
        .none⟩]
  afterColumns := .none
  references := ⟨"references", rfl⟩
  afterReferences := .single
  qualifier := some ⟨.bare "db" rfl, Space.single.toGap, Space.single.toGap⟩
  table := .bare "t" rfl
  afterTable := .none
  refColumns :=
    [⟨Space.single.toGap, .bare "x" rfl, some ⟨.none, "5", List.all_eq_true.1 rfl⟩, .none⟩]

/-- Marks let a name be a keyword or hold a comma.  The index, the database, the
    lengths and what stands behind the key leave no trace. -/
theorem classify_foreignKeySpelling_full :
    fullKey.text =
        "Constraint \x60FOREIGN\x60 foreign key idx(a (10),\x22b,c\x22)references db . t( x(5))" ∧
      classify (fullKey.text ++ " ON DELETE SET NULL") =
        .foreignKey ⟨["a", "b,c"], "t", ["x"], some "FOREIGN"⟩ :=
  ⟨rfl, classify_foreignKeySpelling fullKey _⟩

end SchemaDiagram.Ddl
