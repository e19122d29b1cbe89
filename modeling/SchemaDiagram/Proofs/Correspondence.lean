import SchemaDiagram.Ddl.Definition

/-! # Correspondence — lexemes that every reader treats alike

    A definition may be changed without changing what it says, or in such a
    way that only the names in it change.  It is enough that its lexemes
    correspond one by one, and that the groups in parentheses hold the same
    names: every reader then reads the same, up to the change of names.

      * `Token.Corresponds`      — one token in the place of another
      * `Correspondence`         — what a relation between lists of lexemes
                                   must keep
      * `Correspondence.reference?`,
        `Correspondence.foreignKey?`,
        `Correspondence.columnDefinition?`, …
                                 — what the readers make of it
      * `Correspondence.definition?`
                                 — the classification as a whole -/

namespace SchemaDiagram

/-- A foreign key with other names. -/
def ForeignKey.mapNames (name : Text → Text) (key : ForeignKey) : ForeignKey where
  columns := key.columns.map name
  refTable := name key.refTable
  refColumns := key.refColumns.map name
  constraintName := key.constraintName.map name

namespace Ddl

open Text (equalsIgnoringCase)

/-! ### Two results -/

section Results

variable {α β γ δ : Type} {r : α → β → Prop} {r' : γ → δ → Prop} {x : Option α} {y : Option β}

/-- Readers that go on from related results. -/
theorem rel_bind (h : Option.Rel r x y) {f : α → Option γ} {g : β → Option δ}
    (hfg : ∀ a b, r a b → Option.Rel r' (f a) (g b)) : Option.Rel r' (x.bind f) (y.bind g) := by
  cases h with
  | some hab => exact hfg _ _ hab
  | none => exact .none

theorem rel_map (h : Option.Rel r x y) {f : α → γ} {g : β → δ}
    (hfg : ∀ a b, r a b → r' (f a) (g b)) : Option.Rel r' (x.map f) (y.map g) := by
  cases h with
  | some hab => exact .some (hfg _ _ hab)
  | none => exact .none

theorem rel_imp {r' : α → β → Prop} (h : Option.Rel r x y) (hrr' : ∀ a b, r a b → r' a b) :
    Option.Rel r' x y := by
  cases h with
  | some hab => exact .some (hrr' _ _ hab)
  | none => exact .none

theorem eq_map_of_rel {f : α → β} (h : Option.Rel (fun a b => b = f a) x y) : y = x.map f := by
  cases h with
  | some hab => exact congrArg some hab
  | none => rfl

theorem map_eq_map_of_rel {f : α → γ} {g : β → γ} (h : Option.Rel (fun a b => g b = f a) x y) :
    y.map g = x.map f := by
  cases h with
  | some hab => exact congrArg some hab
  | none => rfl

end Results

/-! ### Tokens and lists of lexemes -/

/-- A token and one that takes its place when `name` changes all names: as a
    keyword, a word must not change. -/
inductive Token.Corresponds (name : Text → Text) : Token → Token → Prop
  | word {w} (hword : ∀ keyword, equalsIgnoringCase (name w) keyword = equalsIgnoringCase w keyword) :
      Corresponds name (.word w) (.word (name w))
  | quotedName (w) : Corresponds name (.quotedName w) (.quotedName (name w))
  | literal (v w) : Corresponds name (.literal v) (.literal w)
  | openParen : Corresponds name .openParen .openParen
  | closeParen : Corresponds name .closeParen .closeParen
  | comma : Corresponds name .comma .comma
  | dot : Corresponds name .dot .dot
  | symbol (c d) : Corresponds name (.symbol c) (.symbol d)

/-- Two lists whose first lexemes correspond and whose other lexemes are
    related. -/
inductive FirstCorresponds (name : Text → Text) (rel : List Lexeme → List Lexeme → Prop) :
    List Lexeme → List Lexeme → Prop
  | nil : FirstCorresponds name rel [] []
  | cons {l l' ls ls'} (htoken : l.token.Corresponds name l'.token)
      (hgap : l'.gap = [] ↔ l.gap = []) (hrest : rel ls ls') :
      FirstCorresponds name rel (l :: ls) (l' :: ls')

/-- `rel` relates lists of lexemes that say the same, up to the change `name` of
    the names in them. -/
structure Correspondence (name : Text → Text) (rel : List Lexeme → List Lexeme → Prop) : Prop where
  bareName : ∀ w, bareName (name w) = name (bareName w)
  isPlain : ∀ w, isPlain (name w) = isPlain w
  first : ∀ {ls ls'}, rel ls ls' → FirstCorresponds name rel ls ls'
  /-- groups end at the same place and hold the same names -/
  group? : ∀ {ls ls'}, rel ls ls' →
    Option.Rel (fun p p' => identifierList p'.1 = (identifierList p.1).map name ∧ rel p.2 p'.2)
      (group? ls) (group? ls')

/-! ### Keywords -/

section Keywords

variable {name : Text → Text} {rel : List Lexeme → List Lexeme → Prop} {l l' : Lexeme}
  {ls ls' : List Lexeme}

theorem isWord_of_corresponds (h : l.token.Corresponds name l'.token) (keyword : Text) :
    l'.isWord keyword = l.isWord keyword := by
  unfold Lexeme.isWord
  generalize l.token = t, l'.token = t' at h
  cases h with
  | word hword => exact hword keyword
  | _ => rfl

/-- What stands in the place of a mark is that mark. -/
theorem token_eq_iff_of_corresponds (h : l.token.Corresponds name l'.token) {mark : Token}
    (hmark : mark = .openParen ∨ mark = .dot) : l'.token = mark ↔ l.token = mark := by
  generalize l.token = t, l'.token = t' at h
  cases h <;> rcases hmark with rfl | rfl <;> simp

namespace Correspondence

variable (c : Correspondence name rel) (h : rel ls ls')
include c h

theorem atWord (keyword : Text) : atWord keyword ls' = atWord keyword ls := by
  cases c.first h with
  | nil => rfl
  | cons htoken _ _ => exact isWord_of_corresponds htoken keyword

theorem atWords (first second : Text) : atWords first second ls' = atWords first second ls := by
  cases c.first h with
  | nil => rfl
  | cons htoken _ hrest => rw [Ddl.atWords, Ddl.atWords, isWord_of_corresponds htoken, c.atWord hrest]

theorem atPrimaryKey : atPrimaryKey ls' = atPrimaryKey ls := c.atWords h _ _

theorem atMetadata : atMetadata ls' = atMetadata ls := by
  simp only [Ddl.atMetadata, c.atWord h]

theorem atConstraint : atConstraint ls' = atConstraint ls := by
  simp only [Ddl.atConstraint, c.atWord h, c.atWords h, c.atMetadata h]

theorem dropWord? (keyword : Text) :
    Option.Rel rel (dropWord? keyword ls) (dropWord? keyword ls') := by
  cases c.first h with
  | nil => exact .none
  | cons htoken _ hrest =>
    rw [Ddl.dropWord?, Ddl.dropWord?, isWord_of_corresponds htoken]
    split
    · exact .some hrest
    · exact .none

/-! ### Names and groups -/

theorem atOpenParen : atOpenParen ls' = atOpenParen ls := by
  cases c.first h with
  | nil => rfl
  | cons htoken _ _ =>
    rw [Ddl.atOpenParen, Ddl.atOpenParen, Bool.eq_iff_iff, beq_iff_eq, beq_iff_eq,
      token_eq_iff_of_corresponds htoken (Or.inl rfl)]

theorem identifier? :
    Option.Rel (fun p p' => p'.1 = name p.1 ∧ rel p.2 p'.2) (identifier? ls) (identifier? ls') := by
  cases c.first h with
  | nil => exact .none
  | @cons l l' _ _ htoken _ hrest =>
    simp only [Ddl.identifier?]
    generalize l.token = t, l'.token = t' at htoken
    cases htoken with
    | word => exact .some ⟨rfl, hrest⟩
    | quotedName => exact .some ⟨rfl, hrest⟩
    | _ => exact .none

theorem identifiers? :
    Option.Rel (fun p p' => p'.1 = p.1.map name ∧ rel p.2 p'.2)
      (identifiers? ls) (identifiers? ls') :=
  rel_map (c.group? h) fun _ _ hp => hp

theorem skipWords : rel (skipWords ls) (skipWords ls') := by
  induction ls generalizing ls' with
  | nil =>
    cases hfirst : c.first h
    exact h
  | cons l ls ih =>
    cases c.first h with
    | @cons _ l' _ ls' htoken _ hrest =>
      have hstep := ih hrest
      unfold Ddl.skipWords
      generalize l.token = t, l'.token = t' at htoken
      cases htoken with
      | word => exact hstep
      | _ => exact h

/-- **What REFERENCES refers to.** -/
theorem reference? :
    reference? ls' = (reference? ls).map (Prod.map name (List.map name)) := by
  -- behind the name of the table
  have hcolumns : ∀ (table : Text) {ls ls' : List Lexeme}, rel ls ls' →
      Option.Rel (fun a b => b = Prod.map name (List.map name) a)
        ((Ddl.identifiers? ls).bind fun p => some (Ddl.bareName table, p.1))
        ((Ddl.identifiers? ls').bind fun p => some (Ddl.bareName (name table), p.1)) := by
    intro table ls ls' hls
    refine rel_bind (c.identifiers? hls) fun p p' hp => .some ?_
    rw [hp.1, c.bareName]
    rfl
  refine eq_map_of_rel (rel_bind (c.identifier? h) ?_)
  rintro ⟨first, rest⟩ ⟨_, rest'⟩ ⟨rfl, hrest⟩
  dsimp only at hrest
  cases c.first hrest with
  | nil => exact hcolumns first hrest
  | cons htoken _ hbehind =>
    simp only [token_eq_iff_of_corresponds htoken (Or.inr rfl)]
    split
    · -- the first name was a qualifier
      refine rel_bind (c.identifier? hbehind) ?_
      rintro ⟨table, ls⟩ ⟨_, ls'⟩ ⟨rfl, hls⟩
      exact hcolumns table hls
    · exact hcolumns first hrest

/-! ### Keys -/

theorem primaryKeyColumns : primaryKeyColumns ls' = (primaryKeyColumns ls).map name := by
  have hcolumns := c.identifiers? (c.skipWords h)
  unfold Ddl.primaryKeyColumns
  generalize Ddl.identifiers? (Ddl.skipWords ls) = x, Ddl.identifiers? (Ddl.skipWords ls') = y
    at hcolumns
  cases hcolumns with
  | some hp => exact hp.1
  | none => rfl

theorem constraintName? :
    Option.Rel (fun p p' => p'.1 = p.1.map name ∧ rel p.2 p'.2)
      (constraintName? ls) (constraintName? ls') := by
  have hdrop := c.dropWord? h "CONSTRAINT"
  unfold Ddl.constraintName?
  generalize Ddl.dropWord? "CONSTRAINT" ls = x, Ddl.dropWord? "CONSTRAINT" ls' = y at hdrop
  cases hdrop with
  | none => exact .some ⟨rfl, h⟩
  | some hrest =>
    simp only [c.atWord hrest]
    split
    · exact .some ⟨rfl, hrest⟩
    · refine rel_map (c.identifier? hrest) fun p p' hp => ⟨?_, hp.2⟩
      rw [hp.1, c.bareName]
      rfl

/-- **A foreign key.** -/
theorem foreignKey? :
    foreignKey? ls' = (foreignKey? ls).map (ForeignKey.mapNames name) := by
  -- from the columns of the key on
  have hcolumns : ∀ (constraintName : Option Text) {ls ls' : List Lexeme}, rel ls ls' →
      Option.Rel (fun a b => b = ForeignKey.mapNames name a)
        ((Ddl.identifiers? ls).bind fun p =>
          (Ddl.dropWord? "REFERENCES" p.2).bind fun rest => (Ddl.reference? rest).bind fun q =>
            some (⟨p.1, q.1, q.2, constraintName⟩ : ForeignKey))
        ((Ddl.identifiers? ls').bind fun p =>
          (Ddl.dropWord? "REFERENCES" p.2).bind fun rest => (Ddl.reference? rest).bind fun q =>
            some (⟨p.1, q.1, q.2, constraintName.map name⟩ : ForeignKey)) := by
    intro constraintName ls ls' hls
    refine rel_bind (c.identifiers? hls) fun p p' hp => ?_
    refine rel_bind (c.dropWord? hp.2 _) fun rest rest' hrest => ?_
    rw [hp.1, c.reference? hrest]
    cases Ddl.reference? rest with
    | none => exact .none
    | some _ => exact .some rfl
  refine eq_map_of_rel (rel_bind (c.constraintName? h) ?_)
  rintro ⟨constraintName, ls₁⟩ ⟨_, ls₁'⟩ ⟨rfl, h₁⟩
  refine rel_bind (c.dropWord? h₁ _) fun ls₂ ls₂' h₂ => ?_
  refine rel_bind (c.dropWord? h₂ _) fun ls₃ ls₃' h₃ => ?_
  rw [c.atOpenParen h₃]
  split
  · exact hcolumns constraintName h₃
  · -- the name of an index stands in front of the columns
    have hindex : Option.Rel rel ((Ddl.identifier? ls₃).map (·.2))
        ((Ddl.identifier? ls₃').map (·.2)) :=
      rel_map (c.identifier? h₃) fun _ _ hp => hp.2
    exact rel_bind hindex fun _ _ h₄ => hcolumns constraintName h₄

/-- **A named constraint** that is no foreign key. -/
theorem namedConstraint? {r : Definition → Definition → Prop}
    (hprimary : ∀ columns, r (.primaryKey columns) (.primaryKey (columns.map name)))
    (hmetadata : r .metadata .metadata) :
    Option.Rel r (namedConstraint? ls) (namedConstraint? ls') := by
  -- behind the name of the constraint
  have hbody : ∀ ls ls' : List Lexeme, rel ls ls' →
      Option.Rel r
        (if Ddl.atPrimaryKey ls = true then some (Definition.primaryKey (Ddl.primaryKeyColumns ls))
          else if Ddl.atMetadata ls = true then some .metadata else none)
        (if Ddl.atPrimaryKey ls' = true then some (Definition.primaryKey (Ddl.primaryKeyColumns ls'))
          else if Ddl.atMetadata ls' = true then some .metadata else none) := by
    intro ls ls' hls
    rw [c.atPrimaryKey hls, c.atMetadata hls, c.primaryKeyColumns hls]
    repeat' split
    · exact .some (hprimary _)
    · exact .some hmetadata
    · exact .none
  refine rel_bind (c.dropWord? h _) fun ls₁ ls₁' h₁ => ?_
  rw [c.atPrimaryKey h₁, c.atMetadata h₁]
  split
  · exact hbody _ _ h₁
  · exact rel_bind (rel_map (c.identifier? h₁) fun _ _ hp => hp.2) hbody

/-! ### Columns -/

theorem touchesOpenParen : touchesOpenParen ls' = touchesOpenParen ls := by
  cases c.first h with
  | nil => rfl
  | cons htoken hgap _ =>
    rw [Ddl.touchesOpenParen, Ddl.touchesOpenParen, Bool.eq_iff_iff, Bool.and_eq_true,
      Bool.and_eq_true, beq_iff_eq, beq_iff_eq, beq_iff_eq, beq_iff_eq, hgap,
      token_eq_iff_of_corresponds htoken (Or.inl rfl)]

theorem atType : atType ls' = atType ls := by
  cases c.first h with
  | nil => rfl
  | @cons l l' _ _ htoken hgap hrest =>
    have hblank : (l'.gap != []) = (l.gap != []) := by
      rw [Bool.eq_iff_iff, bne_iff_ne, bne_iff_ne, Ne, Ne, hgap]
    simp only [Ddl.atType, hblank, isTypeName, c.touchesOpenParen hrest]
    generalize l.token = t, l'.token = t' at htoken
    cases htoken with
    | word hword =>
      have hname := funext hword
      simp only [hname]
    | _ => rfl

theorem declaresPrimaryKey : declaresPrimaryKey ls' = declaresPrimaryKey ls := by
  induction ls generalizing ls' with
  | nil =>
    cases hfirst : c.first h
    rfl
  | cons l ls ih =>
    have hstart := c.atPrimaryKey h
    cases c.first h with
    | cons _ _ hrest => rw [Ddl.declaresPrimaryKey, Ddl.declaresPrimaryKey, hstart, ih hrest]

theorem firstReference? :
    firstReference? ls' = (firstReference? ls).map (Prod.map name (List.map name)) := by
  induction ls generalizing ls' with
  | nil =>
    cases hfirst : c.first h
    rfl
  | cons l ls ih =>
    cases c.first h with
    | cons htoken _ hrest =>
      simp only [Ddl.firstReference?, isWord_of_corresponds htoken, ih hrest, c.reference? hrest]
      split
      · cases Ddl.reference? ls <;> rfl
      · rfl

omit h in
theorem columnName? (htoken : l.token.Corresponds name l'.token) :
    columnName? l' = (columnName? l).map name := by
  unfold Ddl.columnName?
  generalize l.token = t, l'.token = t' at htoken
  cases htoken with
  | word =>
    simp only [c.isPlain]
    split <;> rfl
  | quotedName =>
    simp only [c.isPlain]
    split <;> rfl
  | _ => rfl

/-- **A column**, as far as names and keys go. -/
theorem columnDefinition? :
    Option.Rel (fun d d' => d'.column.name = name d.column.name ∧ d'.isPrimary = d.isPrimary ∧
        d'.references = d.references.map (ForeignKey.mapNames name))
      (columnDefinition? ls) (columnDefinition? ls') := by
  cases c.first h with
  | nil => exact .none
  | @cons l l' rest rest' htoken _ hrest =>
    simp only [Ddl.columnDefinition?, c.columnName? htoken, c.atType hrest]
    cases Ddl.columnName? l with
    | none => exact .none
    | some column =>
      dsimp only [Option.map_some]
      split
      · refine .some ⟨rfl, c.declaresPrimaryKey hrest, ?_⟩
        dsimp only
        rw [c.firstReference? hrest, Option.map_map, Option.map_map]
        rfl
      · exact .none

/-! ### Definitions -/

/-- **The classification** of corresponding lexemes. -/
theorem definition? {r : Definition → Definition → Prop}
    (hprimary : ∀ columns, r (.primaryKey columns) (.primaryKey (columns.map name)))
    (hforeign : ∀ key, r (.foreignKey key) (.foreignKey (key.mapNames name)))
    (hmetadata : r .metadata .metadata)
    (hcolumn : Option.Rel (fun d d' => r (.column d) (.column d'))
      (Ddl.columnDefinition? ls) (Ddl.columnDefinition? ls')) :
    Option.Rel r (definition? ls) (definition? ls') := by
  have hnamed := c.namedConstraint? h hprimary hmetadata
  unfold Ddl.definition?
  rw [c.atPrimaryKey h, c.primaryKeyColumns h, c.foreignKey? h, c.atConstraint h, c.atMetadata h]
  split
  · exact .some (hprimary _)
  · cases Ddl.foreignKey? ls with
    | some key => exact .some (hforeign key)
    | none =>
      dsimp only [Option.map_none]
      generalize Ddl.namedConstraint? ls = x, Ddl.namedConstraint? ls' = y at hnamed
      cases hnamed with
      | some hd => exact .some hd
      | none =>
        dsimp only
        split
        · split
          · exact .some hmetadata
          · exact .none
        · exact rel_map hcolumn fun _ _ hd => hd

end Correspondence

end Keywords

end Ddl

end SchemaDiagram
