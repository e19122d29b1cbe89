import Mathlib.Data.List.Basic
import SchemaDiagram.Proofs.Composition
import SchemaDiagram.Proofs.Leftovers
import SchemaDiagram.Proofs.Splitting
import SchemaDiagram.Proofs.WellFormed

/-! # Provenance — what the names of a schema are made of

    A schema says nothing that its script does not say.  Each stage of the
    reader picks out parts of what it is given, and whatever characters end
    up in a name come from the text between the comments.  So a character
    that the removal of comments takes out everywhere is in no name.

      * `hash_not_mem_stripComments`     — there is no `#` between comments
      * `body_subset_of_mem_statements`,
        `subset_of_mem_splitTopLevel`,
        `bareName_subset`                — what statements, items and names are
                                           made of
      * `reference?_subset`,
        `foreignKey?_subset`             — what the readers of references return
      * `refColumns_subset_of_classify`  — what the keys of a definition are
                                           made of
      * `exists_definitions`             — every table comes from definitions
      * `hash_not_mem_refColumns`        — the names that a foreign key refers
                                           to are free of `#` -/

namespace SchemaDiagram.Ddl

open Text (trim cut?_eq_some_iff)

/-! ### Texts -/

/-- Parts make up the text that is put together from them. -/
theorem subset_joined_of_mem (separator : Text) {part : Text} {parts : List Text}
    (h : part ∈ parts) : part ⊆ Text.joined separator parts := by
  induction parts with
  | nil => cases h
  | cons p ps ih =>
    cases ps with
    | nil =>
      obtain rfl := List.mem_singleton.1 h
      rw [Text.joined_singleton]
      exact List.Subset.refl _
    | cons q qs =>
      rw [Text.joined_cons_cons, List.append_assoc]
      rcases List.mem_cons.1 h with rfl | h
      · exact List.subset_append_left _ _
      · exact List.Subset.trans (ih h)
          (List.Subset.trans (List.subset_append_right _ _) (List.subset_append_right _ _))

/-! ### Comments -/

/-- **Between comments there is no `#`**, for each of them opens a comment. -/
theorem hash_not_mem_stripComments (script : Text) : '#' ∉ stripComments script := by
  intro h
  obtain ⟨before, behind, hs⟩ := List.append_of_mem h
  exact not_infix_stripComments (Or.inr rfl) script ⟨before, behind, by rw [hs]; simp⟩

/-! ### Statements -/

theorem afterPhrase?_subset {phrase s rest : Text} (h : afterPhrase? phrase s = some rest) :
    rest ⊆ s := by
  induction s with
  | nil => cases h
  | cons c r ih =>
    rw [afterPhrase?] at h
    split at h
    · next rest' hd =>
      obtain ⟨found, hs, _⟩ := dropPhrase?_eq_some_iff.1 hd
      obtain rfl := Option.some.inj h
      rw [hs]
      exact List.subset_append_right _ _
    · exact List.subset_cons_of_subset c (ih h)

theorem nextStatement?_subset {script rest : Text} {s : Statement}
    (h : nextStatement? script = some (s, rest)) : s.body ⊆ script ∧ rest ⊆ script := by
  unfold nextStatement? at h
  split at h
  · cases h
  · next afterHead hphrase =>
    split at h
    · cases h
    · next head afterOpen hopen =>
      obtain ⟨⟨body, rest'⟩, hclose, he⟩ := Option.map_eq_some_iff.1 h
      obtain ⟨rfl, rfl⟩ := Prod.mk.inj he
      have hgroup : afterOpen ⊆ script := by
        refine List.Subset.trans ?_ (afterPhrase?_subset hphrase)
        rw [(cut?_eq_some_iff.1 hopen).1]
        exact List.subset_append_of_subset_right _ (List.subset_cons_self _ _)
      rw [closeGroup?_append hclose] at hgroup
      exact ⟨List.Subset.trans (List.subset_append_left _ _) hgroup,
        List.Subset.trans (List.subset_append_of_subset_right _ (List.subset_cons_self _ _)) hgroup⟩

theorem body_subset_of_mem_statements {script : Text} {s : Statement} (h : s ∈ statements script) :
    s.body ⊆ script := by
  fun_induction statements script with
  | case1 script hnone => cases h
  | case2 script first rest hnext hname ih =>
    exact List.Subset.trans (ih h) (nextStatement?_subset hnext).2
  | case3 script first rest hnext hname ih =>
    rcases List.mem_cons.1 h with rfl | h
    · exact (nextStatement?_subset hnext).1
    · exact List.Subset.trans (ih h) (nextStatement?_subset hnext).2

theorem subset_of_mem_splitTopLevel {delimiter : Char} {s item : Text}
    (h : item ∈ splitTopLevel delimiter s) : item ⊆ s := by
  obtain ⟨p, hp, rfl⟩ := mem_splitTopLevel h
  have hpart := subset_joined_of_mem [delimiter] hp
  rw [joined_pieces] at hpart
  exact List.Subset.trans (Text.trim_subset p) hpart

/-! ### Names -/

theorem dropTrailingGroup_subset (s : Text) : dropTrailingGroup s ⊆ s := by
  unfold dropTrailingGroup
  split
  · next inner hs =>
    have hinner : inner ⊆ s := fun c hc => by
      rw [← List.mem_reverse, hs]
      exact List.mem_cons_of_mem _ hc
    dsimp only
    split
    · next head rest hcut =>
      refine List.append_subset.2 ⟨fun c hc => hinner ?_, fun c hc => hinner ?_⟩
      · exact (List.dropWhile_suffix _).subset (List.mem_reverse.1 hc)
      · have hgroup : c ∈ (inner.takeWhile (· != ')')).reverse := by
          rw [(cut?_eq_some_iff.1 hcut).1]
          exact List.mem_append_left _ hc
        exact (List.takeWhile_prefix _).subset (List.mem_reverse.1 hgroup)
    · exact List.Subset.refl s
  · exact List.Subset.refl s

theorem stripMarks_subset (s : Text) : stripMarks s ⊆ s := by
  intro c hc
  have hend := (List.dropWhile_suffix _).subset (List.mem_reverse.1 hc)
  exact (List.dropWhile_suffix _).subset (List.mem_reverse.1 hend)

/-- **A bare name is made of what was written.** -/
theorem bareName_subset (written : Text) : bareName written ⊆ written := by
  have hname : trim (dropTrailingGroup (trim written)) ⊆ written :=
    List.Subset.trans (Text.trim_subset _)
      (List.Subset.trans (dropTrailingGroup_subset _) (Text.trim_subset _))
  unfold bareName
  dsimp only
  split
  · next part hpart =>
    have hmem := (List.mem_filter.1 (List.mem_of_getLast? hpart)).1
    have hsplit := subset_joined_of_mem ['.'] hmem
    rw [Text.joined, List.intercalate_splitOn] at hsplit
    exact List.Subset.trans (stripMarks_subset _)
      (List.Subset.trans (Text.trim_subset part) (List.Subset.trans hsplit hname))
  · exact List.Subset.trans (stripMarks_subset _) hname

theorem subset_of_mem_identifierList {text name : Text} (h : name ∈ identifierList text) :
    name ⊆ text := by
  obtain ⟨item, hitem, rfl⟩ := List.mem_map.1 (List.mem_filter.1 h).1
  exact List.Subset.trans (bareName_subset item) (subset_of_mem_splitTopLevel hitem)

/-! ### Readers -/

theorem sourceText_subset {ls ms : List Lexeme} (h : ls <:+ ms) :
    sourceText ls ⊆ sourceText ms := by
  obtain ⟨front, rfl⟩ := h
  rw [sourceText_append]
  exact List.subset_append_right _ _

theorem closeGroupText?_subset {depth : Nat} {ls rest : List Lexeme} {text : Text}
    (h : closeGroupText? depth ls = some (text, rest)) :
    text ⊆ sourceText ls ∧ rest <:+ ls := by
  induction ls generalizing depth text with
  | nil => cases h
  | cons l ls ih =>
    have hkeep : ∀ d, (closeGroupText? d ls).map
        (fun p => (l.gap ++ l.source ++ p.1, p.2)) = some (text, rest) →
        text ⊆ sourceText (l :: ls) ∧ rest <:+ l :: ls := by
      intro d hd
      obtain ⟨⟨inside, rest'⟩, hclose, he⟩ := Option.map_eq_some_iff.1 hd
      obtain ⟨rfl, rfl⟩ := Prod.mk.inj he
      obtain ⟨hsub, hsuffix⟩ := ih hclose
      exact ⟨List.append_subset.2 ⟨List.subset_append_left _ _,
        List.subset_append_of_subset_right _ hsub⟩, hsuffix.trans (List.suffix_cons l ls)⟩
    unfold closeGroupText? at h
    dsimp only at h
    split at h
    · obtain ⟨rfl, rfl⟩ := Prod.mk.inj (Option.some.inj h)
      refine ⟨?_, List.suffix_cons l _⟩
      rw [sourceText_cons, List.append_assoc]
      exact List.subset_append_left _ _
    · exact hkeep _ h
    · exact hkeep _ h
    · exact hkeep _ h

theorem identifiers?_subset {ls rest : List Lexeme} {names : List Text}
    (h : identifiers? ls = some (names, rest)) : ∀ name ∈ names, name ⊆ sourceText ls := by
  obtain ⟨⟨text, rest'⟩, hgroup, he⟩ := Option.map_eq_some_iff.1 h
  obtain ⟨rfl, rfl⟩ := Prod.mk.inj he
  intro name hname
  cases ls with
  | nil => cases hgroup
  | cons l ls =>
    rw [group?] at hgroup
    split at hgroup
    · exact List.Subset.trans (subset_of_mem_identifierList hname)
        (List.Subset.trans (closeGroupText?_subset hgroup).1
          (sourceText_subset (List.suffix_cons l ls)))
    · cases hgroup

theorem identifier?_suffix {ls rest : List Lexeme} {name : Text}
    (h : identifier? ls = some (name, rest)) : rest <:+ ls := by
  unfold identifier? at h
  split at h
  · next l ls =>
    split at h
    · obtain ⟨rfl, rfl⟩ := Prod.mk.inj (Option.some.inj h)
      exact List.suffix_cons l _
    · obtain ⟨rfl, rfl⟩ := Prod.mk.inj (Option.some.inj h)
      exact List.suffix_cons l _
    · cases h
  · cases h

theorem dropWord?_suffix {keyword : Text} {ls rest : List Lexeme}
    (h : dropWord? keyword ls = some rest) : rest <:+ ls := by
  unfold dropWord? at h
  split at h
  · split at h
    · obtain rfl := Option.some.inj h
      exact List.suffix_cons _ _
    · cases h
  · cases h

theorem identifiers?_suffix {ls rest : List Lexeme} {names : List Text}
    (h : identifiers? ls = some (names, rest)) : rest <:+ ls := by
  obtain ⟨⟨text, rest'⟩, hgroup, he⟩ := Option.map_eq_some_iff.1 h
  obtain ⟨rfl, rfl⟩ := Prod.mk.inj he
  cases ls with
  | nil => cases hgroup
  | cons l ls =>
    rw [group?] at hgroup
    split at hgroup
    · exact (closeGroupText?_subset hgroup).2.trans (List.suffix_cons l ls)
    · cases hgroup

theorem reference?_subset {ls : List Lexeme} {reference : Text × List Text}
    (h : reference? ls = some reference) : ∀ name ∈ reference.2, name ⊆ sourceText ls := by
  simp only [reference?, Option.bind_eq_bind, Option.bind_eq_some_iff] at h
  obtain ⟨⟨first, ls₁⟩, hfirst, h⟩ := h
  have hcolumns : ∀ table ls₂, ls₂ <:+ ls₁ →
      (identifiers? ls₂).bind (fun p => some (bareName table, p.1)) = some reference →
      ∀ name ∈ reference.2, name ⊆ sourceText ls := by
    intro table ls₂ hsuffix hread name hname
    obtain ⟨⟨names, rest⟩, hnames, he⟩ := Option.bind_eq_some_iff.1 hread
    obtain rfl := Option.some.inj he
    exact List.Subset.trans (identifiers?_subset hnames name hname)
      (sourceText_subset (hsuffix.trans (identifier?_suffix hfirst)))
  cases ls₁ with
  | nil => exact hcolumns first [] (List.suffix_refl _) h
  | cons l rest =>
    dsimp only at h
    split at h
    · -- what has been read so far was the name of a database
      obtain ⟨⟨table, ls₂⟩, htable, h⟩ := Option.bind_eq_some_iff.1 h
      exact hcolumns table ls₂ ((identifier?_suffix htable).trans (List.suffix_cons l rest)) h
    · exact hcolumns first (l :: rest) (List.suffix_refl _) h

theorem firstReference?_subset {ls : List Lexeme} {reference : Text × List Text}
    (h : firstReference? ls = some reference) : ∀ name ∈ reference.2, name ⊆ sourceText ls := by
  induction ls with
  | nil => cases h
  | cons l ls ih =>
    have hrest := sourceText_subset (List.suffix_cons l ls)
    intro name hname
    refine List.Subset.trans ?_ hrest
    rw [firstReference?] at h
    split at h
    · rcases Option.or_eq_some_iff.1 h with hread | ⟨_, hlater⟩
      · exact reference?_subset hread name hname
      · exact ih hlater name hname
    · exact ih h name hname

theorem constraintName?_suffix {ls rest : List Lexeme} {name : Option Text}
    (h : constraintName? ls = some (name, rest)) : rest <:+ ls := by
  unfold constraintName? at h
  split at h
  · obtain ⟨_, rfl⟩ := Prod.mk.inj (Option.some.inj h)
    exact List.suffix_refl _
  · next ls₁ hword =>
    refine List.IsSuffix.trans ?_ (dropWord?_suffix hword)
    split at h
    · obtain ⟨_, rfl⟩ := Prod.mk.inj (Option.some.inj h)
      exact List.suffix_refl _
    · obtain ⟨⟨written, ls₂⟩, hname, he⟩ := Option.map_eq_some_iff.1 h
      obtain ⟨_, rfl⟩ := Prod.mk.inj he
      exact identifier?_suffix hname

theorem foreignKey?_subset {ls : List Lexeme} {key : ForeignKey} (h : foreignKey? ls = some key) :
    ∀ name ∈ key.refColumns, name ⊆ sourceText ls := by
  simp only [foreignKey?, Option.bind_eq_bind, Option.bind_eq_some_iff] at h
  obtain ⟨⟨constraint, ls₁⟩, h₁, ls₂, h₂, ls₃, h₃, h⟩ := h
  have hfront : ls₃ <:+ ls :=
    (dropWord?_suffix h₃).trans ((dropWord?_suffix h₂).trans (constraintName?_suffix h₁))
  have hreference : ∀ ls₄, ls₄ <:+ ls →
      ((identifiers? ls₄).bind fun columns => (dropWord? "REFERENCES" columns.2).bind fun ls₅ =>
        (reference? ls₅).bind fun parent =>
          some ⟨columns.1, parent.1, parent.2, constraint⟩) = some key →
      ∀ name ∈ key.refColumns, name ⊆ sourceText ls := by
    intro ls₄ hsuffix hread name hname
    obtain ⟨⟨columns, ls₅⟩, hcolumns, hread⟩ := Option.bind_eq_some_iff.1 hread
    obtain ⟨ls₆, hword, hread⟩ := Option.bind_eq_some_iff.1 hread
    obtain ⟨parent, hparent, he⟩ := Option.bind_eq_some_iff.1 hread
    obtain rfl := Option.some.inj he
    exact List.Subset.trans (reference?_subset hparent name hname)
      (sourceText_subset ((dropWord?_suffix hword).trans
        ((identifiers?_suffix hcolumns).trans hsuffix)))
  split at h
  · exact hreference ls₃ hfront h
  · obtain ⟨ls₄, hindex, h⟩ := Option.bind_eq_some_iff.1 h
    obtain ⟨⟨index, _⟩, hname, rfl⟩ := Option.map_eq_some_iff.1 hindex
    exact hreference _ ((identifier?_suffix hname).trans hfront) h

/-! ### Definitions -/

theorem sourceText_lex_subset (s : Text) : sourceText (lex s) ⊆ s := by
  obtain ⟨blanks, _, hs⟩ := sourceText_lex s
  intro c hc
  rw [hs]
  exact List.mem_append_left _ hc

theorem foreignKeys_of_namedConstraint? {ls : List Lexeme} {d : Definition}
    (h : namedConstraint? ls = some d) : d.foreignKeys = [] := by
  obtain ⟨columns, rfl⟩ | rfl := eq_of_namedConstraint? h <;> rfl

theorem refColumns_subset_of_columnDefinition? {ls : List Lexeme} {c : ColumnDefinition}
    (h : columnDefinition? ls = some c) :
    ∀ key ∈ c.references, ∀ name ∈ key.refColumns, name ⊆ sourceText ls := by
  unfold columnDefinition? at h
  split at h
  · cases h
  · next l rest =>
    split at h
    · cases h
    · split at h
      · obtain rfl := Option.some.inj h
        intro key hkey name hname
        obtain ⟨reference, hread, rfl⟩ := Option.map_eq_some_iff.1 hkey
        exact List.Subset.trans (firstReference?_subset hread name hname)
          (sourceText_subset (List.suffix_cons l rest))
      · cases h

/-- **What the keys of a definition refer to** is written in the definition. -/
theorem refColumns_subset_of_definition? {ls : List Lexeme} {d : Definition}
    (h : definition? ls = some d) :
    ∀ key ∈ d.foreignKeys, ∀ name ∈ key.refColumns, name ⊆ sourceText ls := by
  unfold definition? at h
  split at h
  · cases h
    simp [Definition.foreignKeys]
  · split at h
    · next key hread =>
      cases h
      simpa [Definition.foreignKeys] using foreignKey?_subset hread
    · split at h
      · next d' hread =>
        cases h
        simp [foreignKeys_of_namedConstraint? hread]
      · split at h
        · split at h
          · cases h
            simp [Definition.foreignKeys]
          · cases h
        · obtain ⟨c, hread, rfl⟩ := Option.map_eq_some_iff.1 h
          simpa [Definition.foreignKeys] using refColumns_subset_of_columnDefinition? hread

theorem refColumns_subset_of_classify {text : Text} {key : ForeignKey}
    (h : key ∈ (classify text).foreignKeys) : ∀ name ∈ key.refColumns, name ⊆ text := by
  unfold classify at h
  cases hd : definition? (lex (trim text)) with
  | none =>
    rw [hd] at h
    cases h
  | some d =>
    rw [hd] at h
    intro name hname
    exact List.Subset.trans (refColumns_subset_of_definition? hd key h name hname)
      (List.Subset.trans (sourceText_lex_subset _) (Text.trim_subset text))

/-! ### Tables -/

/-- **Every table of a script comes from definitions** in the bodies of its
    statements. -/
theorem exists_definitions {script : Text} {t : Table} (h : t ∈ (parseSchema script).tables) :
    ∃ definitions, t.name ≠ [] ∧ t = groupedTable t.name definitions ∧
      ∀ d ∈ definitions, ∃ s ∈ scriptStatements script, ∃ item ∈ splitTopLevel ',' s.body,
        classify item = d := by
  rw [parseSchema, tables_schemaOf] at h
  obtain ⟨name, hname, rfl⟩ := List.mem_map.1 h
  refine ⟨definitionsOf _ name, ?_, rfl, fun definition hdef => ?_⟩
  · obtain ⟨d, hd, rfl⟩ := mem_declaredNames.1 hname
    obtain ⟨s, hs, rfl⟩ := List.mem_map.1 hd
    exact name_ne_nil_of_mem_statements hs
  · obtain ⟨d, hd, hmem⟩ := List.mem_flatMap.1 hdef
    obtain ⟨s, hs, rfl⟩ := List.mem_map.1 (List.mem_filter.1 hd).1
    obtain ⟨item, hitem, hclass⟩ := List.mem_map.1 hmem
    exact ⟨s, hs, item, hitem, hclass⟩

theorem wellFormed_of_mem {script : Text} {t : Table} (h : t ∈ (parseSchema script).tables) :
    t.WellFormed := by
  obtain ⟨definitions, hname, ht, hclass⟩ := exists_definitions h
  rw [ht]
  refine wellFormed_groupedTable hname fun d hd => ?_
  obtain ⟨_, _, item, _, hitem⟩ := hclass d hd
  exact ⟨item, hitem⟩

theorem nodup_tableNames (script : Text) : ((parseSchema script).tables.map (·.name)).Nodup := by
  rw [tableNames_parseSchema]
  exact nodup_declaredNames _

/-- **Names that a foreign key refers to** come from between the comments. -/
theorem refColumns_subset {script : Text} {t : Table} (ht : t ∈ (parseSchema script).tables)
    {key : ForeignKey} (hkey : key ∈ t.foreignKeys) :
    ∀ name ∈ key.refColumns, name ⊆ stripComments script := by
  obtain ⟨definitions, _, htable, hclass⟩ := exists_definitions ht
  rw [htable] at hkey
  -- respelling its own columns leaves the names that a key refers to as they are
  obtain ⟨written, hwritten, rfl⟩ := List.mem_map.1 hkey
  obtain ⟨d, hd, hkeys⟩ := List.mem_flatMap.1 (List.mem_filter.1 hwritten).1
  obtain ⟨s, hs, item, hitem, rfl⟩ := hclass d hd
  intro name hname
  exact List.Subset.trans (refColumns_subset_of_classify hkeys name hname)
    (List.Subset.trans (subset_of_mem_splitTopLevel hitem) (body_subset_of_mem_statements hs))

theorem hash_not_mem_refColumns {script : Text} {t : Table} (ht : t ∈ (parseSchema script).tables)
    {key : ForeignKey} (hkey : key ∈ t.foreignKeys) : ∀ name ∈ key.refColumns, '#' ∉ name :=
  fun name hname hhash =>
    hash_not_mem_stripComments script (refColumns_subset ht hkey name hname hhash)

end SchemaDiagram.Ddl
