import SchemaDiagram.Proofs.Grouping
import SchemaDiagram.Proofs.Lexing
import SchemaDiagram.Proofs.Trimming

/-! # WellFormed — what holds of every table that a script declares

    The relational model forbids nothing.  The reader of scripts does: it
    passes over statements without a name, takes only plain names for
    columns, and reconciles keys with columns at the end.

      * `Table.WellFormed`          — a table with a name, proper columns, and
                                      keys that speak of its own columns
      * `definition?_eq_foreignKey_iff`,
        `definition?_eq_column_iff` — which lexemes are read as a foreign key,
                                      and which as a column
      * `column_of_classify`        — what a definition can declare as a column
      * `parseSchema_wellFormed`    — every script's tables are well formed, and
                                      no two of them share a name -/

namespace SchemaDiagram

open Text (equalsIgnoringCase trim Trimmed trimmed_trim trim_eq_nil_iff isBlank)

/-- A table as a script can declare it. -/
structure Table.WellFormed (t : Table) : Prop where
  name_ne_nil : t.name ≠ []
  /-- column names need no quotes -/
  isPlain_name : ∀ c ∈ t.columns, Ddl.isPlain c.name = true
  /-- column types say something -/
  declaredType_ne_nil : ∀ c ∈ t.columns, c.declaredType ≠ []
  /-- column types have no blanks around them -/
  trimmed_declaredType : ∀ c ∈ t.columns, Trimmed c.declaredType
  /-- the primary key is spelled like the columns -/
  primaryKeys_declared : ∀ name ∈ t.primaryKeys, ∃ c ∈ t.columns, c.name = name
  /-- foreign keys are spelled like the columns -/
  foreignKeys_declared : ∀ key ∈ t.foreignKeys, ∀ name ∈ key.columns, ∃ c ∈ t.columns, c.name = name

namespace Ddl

/-! ### Columns -/

/-- The type part of a text starts like the text, unless that is a blank. -/
theorem typePart_cons_of_not_blank (n : Nesting) {c : Char} (r : Text) (hc : isBlank c = false) :
    typePart n (c :: r) = c :: typePart (n.step c) r := by
  simp [typePart, hc]

/-- **A declared type says something**, if only that it is not known. -/
theorem declaredType_spec (text : Text) :
    declaredType text ≠ [] ∧ Trimmed (declaredType text) := by
  unfold declaredType
  by_cases h : trim text = []
  · rw [if_pos h]
    exact ⟨by decide, by decide⟩
  · rw [if_neg h]
    refine ⟨?_, trimmed_trim _⟩
    intro hnil
    -- the first character of a trimmed text is in its type part and is no blank
    obtain ⟨c, r, hcr⟩ := List.exists_cons_of_ne_nil h
    have hc : isBlank c = false := (trimmed_trim text).1 c (by rw [hcr]; rfl)
    rw [hcr, typePart_cons_of_not_blank _ r hc, trim_eq_nil_iff] at hnil
    have := List.all_eq_true.1 hnil c (by simp)
    rw [hc] at this
    exact Bool.false_ne_true this

theorem isPlain_of_columnName? {l : Lexeme} {name : Text} (h : columnName? l = some name) :
    isPlain name = true := by
  unfold columnName? at h
  split at h
  · split at h
    · cases h
      assumption
    · cases h
  · split at h
    · cases h
      assumption
    · cases h
  · cases h

/-- What a column's definition can say about the column. -/
theorem columnDefinition?_spec {ls : List Lexeme} {c : ColumnDefinition}
    (h : columnDefinition? ls = some c) :
    isPlain c.column.name = true ∧ c.column.declaredType ≠ [] ∧ Trimmed c.column.declaredType := by
  unfold columnDefinition? at h
  split at h
  · cases h
  · next l rest =>
    split at h
    · cases h
    · next name hname =>
      split at h
      · cases h
        exact ⟨isPlain_of_columnName? hname, declaredType_spec _⟩
      · cases h

/-! ### Classification -/

/-- Behind CONSTRAINT and a name stands a primary key or metadata. -/
theorem eq_of_namedConstraint? {ls : List Lexeme} {d : Definition}
    (h : namedConstraint? ls = some d) : (∃ columns, d = .primaryKey columns) ∨ d = .metadata := by
  simp only [namedConstraint?, Option.bind_eq_bind, Option.bind_eq_some_iff] at h
  obtain ⟨ls₁, _, h⟩ := h
  -- the name may be left out; what follows it decides either way
  split at h <;>
  · obtain ⟨ls₂, _, h⟩ := Option.bind_eq_some_iff.1 h
    split at h
    · exact Or.inl ⟨_, (Option.some.inj h).symm⟩
    · split at h
      · exact Or.inr (Option.some.inj h).symm
      · cases h

theorem dropWord?_of_not_atWord {keyword : Text} {ls : List Lexeme}
    (h : atWord keyword ls = false) : dropWord? keyword ls = none := by
  cases ls with
  | nil => rfl
  | cons l ls => exact if_neg (by rw [← Bool.not_eq_true] at h; exact h)

theorem dropWord?_bind_of_not_atWords {first second : Text} {ls : List Lexeme}
    (h : atWords first second ls = false) :
    (dropWord? first ls).bind (dropWord? second) = none := by
  cases ls with
  | nil => rfl
  | cons l ls =>
    rw [atWords, Bool.and_eq_false_iff] at h
    rw [dropWord?]
    split
    · next hfirst => exact dropWord?_of_not_atWord (h.resolve_left (by rw [hfirst]; decide))
    · rfl

/-- What does not start like a constraint is none. -/
theorem foreignKey?_of_not_atConstraint {ls : List Lexeme} (h : atConstraint ls = false) :
    foreignKey? ls = none ∧ namedConstraint? ls = none := by
  simp only [atConstraint, Bool.or_eq_false_iff] at h
  obtain ⟨⟨hconstraint, hforeign⟩, -⟩ := h
  have hdrop := dropWord?_of_not_atWord hconstraint
  have hname : constraintName? ls = some (none, ls) := by rw [constraintName?, hdrop]
  constructor
  · have hkey := dropWord?_bind_of_not_atWords hforeign
    rw [foreignKey?, hname]
    simp only [Option.bind_eq_bind, Option.bind_some, ← Option.bind_assoc, hkey, Option.bind_none]
  · rw [namedConstraint?, hdrop]
    rfl

/-- What starts like a primary key is no foreign key. -/
theorem foreignKey?_of_atPrimaryKey {ls : List Lexeme} (h : atPrimaryKey ls = true) :
    foreignKey? ls = none := by
  cases ls with
  | nil => cases h
  | cons l ls =>
    rw [atPrimaryKey, atWords, Bool.and_eq_true] at h
    have hother : ∀ keyword, equalsIgnoringCase "PRIMARY" keyword = false →
        dropWord? keyword (l :: ls) = none := fun keyword hne =>
      dropWord?_of_not_atWord ((isWord_congr h.1 keyword).trans hne)
    have hname : constraintName? (l :: ls) = some (none, l :: ls) := by
      rw [constraintName?, hother "CONSTRAINT" (by decide)]
    rw [foreignKey?, hname]
    simp only [Option.bind_eq_bind, Option.bind_some, hother "FOREIGN" (by decide), Option.bind_none]

/-- **None of the other readers takes a foreign key**, and it takes nothing from
    them. -/
theorem definition?_eq_foreignKey_iff {ls : List Lexeme} {key : ForeignKey} :
    definition? ls = some (.foreignKey key) ↔ foreignKey? ls = some key := by
  constructor
  · intro h
    unfold definition? at h
    split at h
    · cases h
    · split at h
      · next hkey =>
        cases h
        exact hkey
      · split at h
        · next d hd =>
          cases h
          obtain ⟨_, hd⟩ | hd := eq_of_namedConstraint? hd <;> cases hd
        · split at h
          · split at h <;> cases h
          · obtain ⟨_, _, he⟩ := Option.map_eq_some_iff.1 h
            cases he
  · intro h
    have hprimary : atPrimaryKey ls = false :=
      Bool.eq_false_iff.2 fun hstart => by cases (foreignKey?_of_atPrimaryKey hstart).symm.trans h
    rw [definition?, hprimary, h]
    rfl

/-- **None of the other readers takes a column**, and it takes nothing from
    them: what starts like a constraint is no column. -/
theorem definition?_eq_column_iff {ls : List Lexeme} {c : ColumnDefinition} :
    definition? ls = some (.column c) ↔
      atPrimaryKey ls = false ∧ atConstraint ls = false ∧ columnDefinition? ls = some c := by
  constructor
  · intro h
    unfold definition? at h
    split at h
    · cases h
    · next hprimary =>
      split at h
      · cases h
      · split at h
        · next d hd =>
          cases h
          obtain ⟨_, hd⟩ | hd := eq_of_namedConstraint? hd <;> cases hd
        · split at h
          · split at h <;> cases h
          · next hconstraint =>
            obtain ⟨c', hc', he⟩ := Option.map_eq_some_iff.1 h
            cases he
            exact ⟨Bool.eq_false_iff.2 hprimary, Bool.eq_false_iff.2 hconstraint, hc'⟩
  · rintro ⟨hprimary, hconstraint, hc⟩
    obtain ⟨hforeign, hnamed⟩ := foreignKey?_of_not_atConstraint hconstraint
    rw [definition?, hprimary, hforeign, hnamed, hconstraint, hc]
    rfl

/-- **What a definition can declare as a column.** -/
theorem column_of_classify {text : Text} {c : ColumnDefinition} (h : classify text = .column c) :
    isPlain c.column.name = true ∧ c.column.declaredType ≠ [] ∧ Trimmed c.column.declaredType := by
  unfold classify at h
  cases hd : definition? (lex (trim text)) with
  | none =>
    rw [hd] at h
    cases h
  | some d =>
    rw [hd] at h
    obtain rfl : d = .column c := h
    exact columnDefinition?_spec (definition?_eq_column_iff.1 hd).2.2

/-! ### Tables -/

/-- A statement that is not passed over has a name. -/
theorem name_ne_nil_of_mem_statements {script : Text} {s : Statement} (h : s ∈ statements script) :
    s.name ≠ [] := by
  fun_induction statements script with
  | case1 script hnone => cases h
  | case2 script first rest hnext hname ih => exact ih h
  | case3 script first rest hnext hname ih =>
    rcases List.mem_cons.1 h with rfl | h
    · exact hname
    · exact ih h

/-- A spelling is the name of a column. -/
theorem exists_column_of_spelling? {columns : List Column} {name declared : Text}
    (h : spelling? columns name = some declared) : ∃ c ∈ columns, c.name = declared := by
  have hmem := List.mem_of_find?_eq_some h
  simpa using hmem

/-- The columns of a group come from definitions of columns. -/
theorem mem_columnsOf {definitions : List Definition} {column : Column}
    (h : column ∈ columnsOf definitions) :
    ∃ c : ColumnDefinition, .column c ∈ definitions ∧ c.column = column := by
  obtain ⟨d, hd, hc⟩ := List.mem_filterMap.1 h
  cases d with
  | column c =>
    simp only [Definition.column?, Option.some.injEq] at hc
    exact ⟨c, hd, hc⟩
  | _ => simp [Definition.column?] at hc

/-- **Groups are well formed**, if they have a name and their definitions
    have been classified. -/
theorem wellFormed_groupedTable {name : Text} {definitions : List Definition} (hname : name ≠ [])
    (hclass : ∀ d ∈ definitions, ∃ text, classify text = d) :
    (groupedTable name definitions).WellFormed := by
  have hcolumn : ∀ column ∈ columnsOf definitions, isPlain column.name = true ∧
      column.declaredType ≠ [] ∧ Trimmed column.declaredType := by
    intro column hmem
    obtain ⟨c, hc, rfl⟩ := mem_columnsOf hmem
    obtain ⟨text, ht⟩ := hclass _ hc
    exact column_of_classify ht
  constructor
  case name_ne_nil => exact hname
  case isPlain_name => exact fun c hc => (hcolumn c hc).1
  case declaredType_ne_nil => exact fun c hc => (hcolumn c hc).2.1
  case trimmed_declaredType => exact fun c hc => (hcolumn c hc).2.2
  case primaryKeys_declared =>
    intro x hx
    obtain ⟨written, _, hw⟩ := List.mem_filterMap.1 (NameSet.mem_ofList.1 hx)
    exact exists_column_of_spelling? hw
  case foreignKeys_declared =>
    intro key hkey x hx
    obtain ⟨written, hwritten, rfl⟩ := List.mem_map.1 hkey
    obtain ⟨w, hw, rfl⟩ := List.mem_map.1 hx
    -- the key was kept, so the look-up of each of its columns succeeds
    have hsupported := List.all_eq_true.1 (List.mem_filter.1 hwritten).2 w hw
    obtain ⟨declared, hd⟩ := Option.isSome_iff_exists.1 hsupported
    obtain ⟨c, hc, hcn⟩ := exists_column_of_spelling? hd
    exact ⟨c, hc, by rw [hd, hcn]; rfl⟩

/-- **Every script declares well-formed tables of distinct names.** -/
theorem parseSchema_wellFormed (script : Text) :
    ((parseSchema script).tables.map (·.name)).Nodup ∧
      ∀ t ∈ (parseSchema script).tables, t.WellFormed := by
  have htables := tables_schemaOf ((scriptStatements script).map Statement.declaration)
  rw [← parseSchema] at htables
  constructor
  · have hnames : ∀ ds : List Declaration,
        ((declaredNames ds).map fun name => groupedTable name (definitionsOf ds name)).map (·.name)
          = declaredNames ds := by
      intro ds
      rw [List.map_map]
      exact List.map_id _
    rw [htables, hnames]
    exact nodup_declaredNames _
  · intro t ht
    rw [htables] at ht
    obtain ⟨name, hname, rfl⟩ := List.mem_map.1 ht
    refine wellFormed_groupedTable ?_ ?_
    · obtain ⟨d, hd, rfl⟩ := mem_declaredNames.1 hname
      obtain ⟨s, hs, rfl⟩ := List.mem_map.1 hd
      exact name_ne_nil_of_mem_statements hs
    · intro definition hdef
      obtain ⟨d, hd, hmem⟩ := List.mem_flatMap.1 hdef
      obtain ⟨s, _, rfl⟩ := List.mem_map.1 (List.mem_filter.1 hd).1
      obtain ⟨text, _, ht⟩ := List.mem_map.1 hmem
      exact ⟨text, ht⟩

end Ddl

end SchemaDiagram
