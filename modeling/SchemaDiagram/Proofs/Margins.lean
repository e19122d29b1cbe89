import SchemaDiagram.Export
import SchemaDiagram.Proofs.BlockComments
import SchemaDiagram.Proofs.Fragment
import SchemaDiagram.Proofs.Scanning
import SchemaDiagram.Proofs.Trimming

/-! # Margins — blanks around a script declare nothing

    The overview of a script is made from the script without its outer
    blanks, while its schema is also shown on its own, from the script as it
    stands.  The two agree, for no pass over a script turns an outer blank
    into anything else: blanks complete no comment mark, no phrase and no
    group.  A line comment at the end of a script takes the blanks behind it
    along, and a block comment that is never closed leaves them where they
    are.

      * `stripComments_blanks_append`,
        `stripComments_append_blanks`   — comments and outer blanks
      * `statements_blanks_append`,
        `statements_append_blanks`      — statements and outer blanks
      * `parseSchema_trim`              — a script declares what it declares
                                          without its outer blanks
      * `Overview.Describes`            — what an overview says about a schema
      * `overview_describes`            — when a script has an overview, and
                                          which -/

namespace SchemaDiagram

open Text (isBlank isBlankText ne_of_isBlank not_mem_of_isBlankText foldCase cut? cut?_eq_none_iff trim)

namespace Ddl

/-! ### Comments -/

theorem head?_ne_of_isBlankText {b : Text} (hb : isBlankText b = true) {c : Char}
    (hc : isBlank c = false) : b.head? ≠ some c := fun h =>
  not_mem_of_isBlankText hb hc (List.mem_of_mem_head? h)

theorem stripBlocks_blanks_append {b : Text} (hb : isBlankText b = true) (s : Text) :
    stripBlocks false (b ++ s) = b ++ stripBlocks false s := by
  induction b with
  | nil => rfl
  | cons c r ih =>
    simp only [isBlankText, List.all_cons, Bool.and_eq_true] at hb
    have hne : ∀ r', c = '/' → r ++ s = '*' :: r' → False := fun _ hc _ =>
      ne_of_isBlank hb.1 (by decide) hc
    rw [List.cons_append, stripBlocks.eq_5 c _ hne, ih hb.2, List.cons_append]

/-- Blanks behind a script stand behind it without its block comments, too. -/
theorem stripBlocks_append_blanks (s : Text) {b : Text} (hb : isBlankText b = true) :
    stripBlocks false (s ++ b) = stripBlocks false s ++ b := by
  have hmark : ¬ ("*/" : Text) <:+: b := fun h =>
    not_mem_of_isBlankText hb (by decide) (h.subset List.mem_cons_self)
  exact stripBlocks_append hmark (head?_ne_of_isBlankText hb (by decide)) s

section LineComments

variable {marker : Text} (hmarker : marker ≠ []) (hchars : ∀ c ∈ marker, isBlank c = false)
include hchars

theorem isPrefixOf_blank_cons {c : Char} (hmarker : marker ≠ []) (hc : isBlank c = true)
    (r : Text) : marker.isPrefixOf (c :: r) = false := by
  obtain ⟨m, ms, rfl⟩ := List.exists_cons_of_ne_nil hmarker
  have hm : (m == c) = false :=
    beq_false_of_ne (ne_of_isBlank hc (hchars m List.mem_cons_self)).symm
  rw [List.isPrefixOf_cons_cons, hm, Bool.false_and]

include hmarker in
theorem stripToLineEnd_blanks_append {b : Text} (hb : isBlankText b = true) (s : Text) :
    stripToLineEnd marker false (b ++ s) = b ++ stripToLineEnd marker false s := by
  induction b with
  | nil => rfl
  | cons c r ih =>
    simp only [isBlankText, List.all_cons, Bool.and_eq_true] at hb
    rw [List.cons_append, stripToLineEnd, isPrefixOf_blank_cons hchars hmarker hb.1,
      if_neg Bool.false_ne_true, ih hb.2, List.cons_append]

/-- Of the blanks behind a script some are taken away with a comment in front
    of them. -/
theorem stripToLineEnd_append_blanks (inside : Bool) (s : Text) {b : Text}
    (hb : isBlankText b = true) : ∃ b', isBlankText b' = true ∧
      stripToLineEnd marker inside (s ++ b) = stripToLineEnd marker inside s ++ b' := by
  have hseam : ∀ c ∈ b.head?, c ∉ marker := fun c hc hmem =>
    not_mem_of_isBlankText hb (hchars c hmem) (List.mem_of_mem_head? hc)
  induction s generalizing inside with
  | nil =>
    refine ⟨stripToLineEnd marker inside b, ?_, by cases inside <;> rfl⟩
    exact List.all_eq_true.2 fun c hc =>
      List.all_eq_true.1 hb c ((stripToLineEnd_sublist inside b).subset hc)
  | cons c r ih =>
    cases inside with
    | true =>
      rw [List.cons_append, stripToLineEnd, stripToLineEnd]
      split
      · obtain ⟨b', hb', h⟩ := ih false
        exact ⟨b', hb', by rw [h, List.cons_append]⟩
      · exact ih true
    | false =>
      have hprefix := isPrefixOf_append hseam (c :: r)
      rw [List.cons_append] at hprefix ⊢
      rw [stripToLineEnd, stripToLineEnd, hprefix]
      split
      · exact ih true
      · obtain ⟨b', hb', h⟩ := ih false
        exact ⟨b', hb', by rw [h, List.cons_append]⟩

end LineComments

theorem isBlank_of_mem_marker {marker : Text} (h : marker.all (!isBlank ·) = true) :
    ∀ c ∈ marker, isBlank c = false := by
  intro c hc
  simpa using List.all_eq_true.1 h c hc

theorem stripComments_blanks_append {b : Text} (hb : isBlankText b = true) (s : Text) :
    stripComments (b ++ s) = b ++ stripComments s := by
  rw [stripComments, stripBlocks_blanks_append hb,
    stripToLineEnd_blanks_append (by decide) (isBlank_of_mem_marker (by decide)) hb,
    stripToLineEnd_blanks_append (by decide) (isBlank_of_mem_marker (by decide)) hb]
  rfl

/-- **Blanks behind a script** are still blanks once its comments are gone. -/
theorem stripComments_append_blanks (s : Text) {b : Text} (hb : isBlankText b = true) :
    ∃ b', isBlankText b' = true ∧ stripComments (s ++ b) = stripComments s ++ b' := by
  have hdash : ∀ c ∈ ("--" : Text), isBlank c = false := isBlank_of_mem_marker (by decide)
  have hhash : ∀ c ∈ ("#" : Text), isBlank c = false := isBlank_of_mem_marker (by decide)
  obtain ⟨b₁, hb₁, h₁⟩ := stripToLineEnd_append_blanks hdash false (stripBlocks false s) hb
  obtain ⟨b₂, hb₂, h₂⟩ := stripToLineEnd_append_blanks hhash false
    (stripToLineEnd "--" false (stripBlocks false s)) hb₁
  refine ⟨b₂, hb₂, ?_⟩
  rw [stripComments, stripBlocks_append_blanks s hb, h₁, h₂]
  rfl

/-! ### Phrases -/

/-- Blanks have no letter case. -/
theorem toLower_of_isBlank {c : Char} (h : isBlank c = true) : c.toLower = c := by
  unfold Char.toLower
  split
  · next hupper =>
    simp [isBlank, Text.inRanges, Text.blankRanges] at h
    simp [UInt32.le_iff_toNat_le] at hupper
    omega
  · rfl

theorem foldCase_of_isBlankText {b : Text} (hb : isBlankText b = true) : foldCase b = b := by
  have hcase : ∀ c ∈ b, c.toLower = id c := fun c hc =>
    toLower_of_isBlank (List.all_eq_true.1 hb c hc)
  rw [foldCase, List.map_congr_left hcase, List.map_id]

/-- No phrase starts in the blanks in front of a text. -/
theorem afterPhrase?_blanks_append {w : Char} {ws b : Text} (hw : isBlank w.toLower = false)
    (hb : isBlankText b = true) (s : Text) :
    afterPhrase? (w :: ws) (b ++ s) = afterPhrase? (w :: ws) s := by
  induction b with
  | nil => rfl
  | cons c r ih =>
    simp only [isBlankText, List.all_cons, Bool.and_eq_true] at hb
    have hnone : dropPhrase? (w :: ws) (c :: (r ++ s)) = none := by
      rw [Option.eq_none_iff_forall_not_mem]
      intro rest hrest
      obtain ⟨found, hs, hfound⟩ := dropPhrase?_eq_some_iff.1 hrest
      cases found with
      | nil => cases hfound
      | cons d ds =>
        obtain ⟨rfl, _⟩ := List.cons.inj hs
        have hcase : c.toLower = w.toLower := (List.cons.inj hfound).1
        rw [toLower_of_isBlank hb.1] at hcase
        exact ne_of_isBlank hb.1 hw hcase
    rw [List.cons_append, afterPhrase?, hnone]
    exact ih hb.2

/-- No phrase that ends in a letter reaches into the blanks behind a text. -/
theorem afterPhrase?_append_blanks {phrase s b : Text} {w : Char}
    (hlast : (foldCase phrase).getLast? = some w) (hw : isBlank w = false)
    (hb : isBlankText b = true) (h : afterPhrase? phrase s = none) :
    afterPhrase? phrase (s ++ b) = none := by
  have hne : phrase ≠ [] := by
    rintro rfl
    cases hlast
  have hnot : w ∉ foldCase b := by
    rw [foldCase_of_isBlankText hb]
    exact not_mem_of_isBlankText hb hw
  rw [afterPhrase?_eq_none_iff hne] at h ⊢
  rw [foldCase_append]
  intro hin
  rcases List.infix_append_iff_ne_nil.1 hin with hin | hin | ⟨l₁, l₂, _, hne₂, hl, _, hright⟩
  · exact h hin
  · exact hnot (hin.subset (List.mem_of_getLast? hlast))
  · -- the phrase would end among the blanks
    rw [hl, List.getLast?_append, Option.or_eq_some_iff] at hlast
    rcases hlast with hlast | ⟨hnone, _⟩
    · exact hnot (hright.subset (List.mem_of_getLast? hlast))
    · exact hne₂ (List.getLast?_eq_none_iff.1 hnone)

/-! ### Statements -/

theorem closeGroup?_append_blanks {depth : Nat} {s b : Text} (hb : isBlankText b = true)
    (h : closeGroup? depth s = none) : closeGroup? depth (s ++ b) = none := by
  fun_induction closeGroup? depth s with
  | case1 depth =>
    have hnot : ∀ c ∈ b, c ≠ '(' ∧ c ≠ ')' := fun c hc =>
      ⟨ne_of_isBlank (List.all_eq_true.1 hb c hc) (by decide),
        ne_of_isBlank (List.all_eq_true.1 hb c hc) (by decide)⟩
    have hpass := closeGroup?_append_of_noParen hnot depth []
    rw [List.append_nil] at hpass
    rw [List.nil_append, hpass, closeGroup?]
    rfl
  | case2 r => cases h
  | case3 depth r ih =>
    rw [Option.map_eq_none_iff] at h
    simp [closeGroup?, ih h]
  | case4 depth r ih =>
    rw [Option.map_eq_none_iff] at h
    simp [closeGroup?, ih h]
  | case5 depth c r h₀ h₁ h₂ ih =>
    rw [Option.map_eq_none_iff] at h
    simp [closeGroup?, ih h]

theorem statements_blanks_append {b : Text} (hb : isBlankText b = true) (script : Text) :
    statements (b ++ script) = statements script := by
  refine statements_congr ?_
  have hphrase : afterPhrase? "create table" (b ++ script) = afterPhrase? "create table" script :=
    afterPhrase?_blanks_append (w := 'c') (by decide) hb script
  rw [nextStatement?, nextStatement?, hphrase]

/-- Where no statement is found, none is found with blanks behind the text. -/
theorem nextStatement?_append_blanks {script b : Text} (hb : isBlankText b = true)
    (h : nextStatement? script = none) : nextStatement? (script ++ b) = none := by
  unfold nextStatement? at h ⊢
  cases hphrase : afterPhrase? "create table" script with
  | none =>
    have hlast : (foldCase "create table").getLast? = some 'e' := by decide
    rw [afterPhrase?_append_blanks hlast (by decide) hb hphrase]
  | some afterHead =>
    rw [afterPhrase?_append hphrase b]
    cases hopen : cut? '(' afterHead with
    | none =>
      have hnot : '(' ∉ afterHead ++ b := by
        rw [List.mem_append, not_or]
        exact ⟨cut?_eq_none_iff.1 hopen, not_mem_of_isBlankText hb (by decide)⟩
      simp only [cut?_eq_none_iff.2 hnot]
    | some parts =>
      obtain ⟨head, afterOpen⟩ := parts
      simp only [hphrase, hopen, Option.map_eq_none_iff] at h
      simp only [cut?_append hopen b, closeGroup?_append_blanks hb h, Option.map_none]

/-- **Blanks behind a text** without comments hold no statement and finish
    none. -/
theorem statements_append_blanks (script : Text) {b : Text} (hb : isBlankText b = true) :
    statements (script ++ b) = statements script := by
  fun_induction statements script with
  | case1 script hnone => exact statements_of_none (nextStatement?_append_blanks hb hnone)
  | case2 script s rest hnext hname ih =>
    rw [statements_of_some (nextStatement?_append hnext b), if_pos hname, ih]
  | case3 script s rest hnext hname ih =>
    rw [statements_of_some (nextStatement?_append hnext b), if_neg hname, ih]

/-! ### Schemas -/

/-- **Outer blanks declare nothing.** -/
theorem parseSchema_trim (script : Text) : parseSchema (trim script) = parseSchema script := by
  obtain ⟨front, back, hfront, hback, hscript⟩ := Text.exists_trim_eq script
  obtain ⟨back', hback', hcomments⟩ := stripComments_append_blanks (trim script) hback
  have hstatements : scriptStatements script = scriptStatements (trim script) := by
    calc scriptStatements script
        = statements (stripComments (front ++ (trim script ++ back))) := by
          rw [← hscript, scriptStatements]
      _ = statements (front ++ (stripComments (trim script) ++ back')) := by
          rw [stripComments_blanks_append hfront, hcomments]
      _ = statements (stripComments (trim script)) := by
          rw [statements_blanks_append hfront, statements_append_blanks _ hback']
  rw [parseSchema, parseSchema, hstatements]

end Ddl

/-! ### Overviews -/

/-- The overview `o` says about a schema how many tables it has, what its
    reader complained about, and how each notation draws it. -/
structure Overview.Describes (o : Overview) (s : Schema) : Prop where
  tableCount : o.tableCount = s.tables.length
  warnings : o.warnings = s.warnings
  crowsFoot : o.crowsFoot = (CrowsFoot.ofTables s.tables).render
  chenGraph : o.chenGraph = ChenGraph.ofTables s.tables
  chen : o.chen = (ChenGraph.ofTables s.tables).render
  /-- the crow's-foot text is exported under two names -/
  toJson : o.toJson = .object
    [("mermaid", .string (CrowsFoot.ofTables s.tables).render),
     ("mermaidCrow", .string (CrowsFoot.ofTables s.tables).render),
     ("mermaidChen", .string (ChenGraph.ofTables s.tables).render),
     ("chenModel", (ChenGraph.ofTables s.tables).toJson),
     ("tableCount", .number s.tables.length),
     ("warnings", .strings (s.warnings.map Warning.message))]

theorem Schema.describes_overview (s : Schema) : s.overview.Describes s :=
  ⟨rfl, rfl, rfl, rfl, rfl, rfl⟩

/-- The overview of a script, told by the script itself and not by what is
    left of it without its outer blanks. -/
theorem overview_eq (script : Text) : overview script =
    if isBlankText script = true then .error .emptyInput
    else if (Ddl.parseSchema script).tables = [] then .error .noTables
    else .ok (Ddl.parseSchema script).overview := by
  unfold overview
  simp only [Ddl.parseSchema_trim, Text.trim_eq_nil_iff]

/-- **An overview describes the schema of its script.**  A script is refused
    as empty just if it is blank, and for want of tables just if it is not
    blank and declares none.  Every other script has an overview, and it
    describes what the script declares as it stands, outer blanks and all. -/
theorem overview_describes (script : Text) :
    (overview script = .error .emptyInput ↔ isBlankText script = true) ∧
      (overview script = .error .noTables ↔
        isBlankText script = false ∧ (Ddl.parseSchema script).tables = []) ∧
      (isBlankText script = false → (Ddl.parseSchema script).tables ≠ [] →
        ∃ o, overview script = .ok o ∧ o.Describes (Ddl.parseSchema script)) := by
  rw [overview_eq]
  by_cases hblank : isBlankText script = true
  · simp [hblank]
  · by_cases htables : (Ddl.parseSchema script).tables = []
    · simp [hblank, htables]
    · refine ⟨by simp [hblank, htables], by simp [hblank, htables], fun _ _ => ?_⟩
      rw [if_neg hblank, if_neg htables]
      exact ⟨_, rfl, Schema.describes_overview _⟩

/-- An ideographic space in front, and behind the statement a line comment
    whose line end is an outer blank. -/
theorem overview_describes_commented :
    let script : Text := "\u3000CREATE TABLE a (id INT); -- the last\n\u2028"
    ∃ o, overview script = .ok o ∧ o.Describes (Ddl.parseSchema script) := by
  intro script
  exact (overview_describes script).2.2 (by decide +kernel) (by decide +kernel)

end SchemaDiagram
