import SchemaDiagram.Proofs.Grouping
import SchemaDiagram.Proofs.Scanning

/-! # Composition — what two scripts declare together

    Two scripts are put together with a line end between them.

      * `endsProperly`                — no statement of a script is broken off
      * `schemaOf_append`             — declarations of different tables do not
                                        touch each other
      * `scriptStatements_newline`    — the comments of one script do not reach
                                        into the other
      * `parseSchema_compose`         — statements, tables and warnings of two
                                        scripts together -/

namespace SchemaDiagram.Ddl

open Text (contains contains_iff contains_eq_false_iff foldCase)

/-- Whether the search for statements in a text without comments ends because
    no CREATE TABLE is left, and not at a statement that is broken off. -/
def endsProperly (script : Text) : Bool := !contains "create table" (foldCase (scanEnd script))

theorem endsProperly_iff {script : Text} :
    endsProperly script = true ↔ afterPhrase? "create table" (scanEnd script) = none := by
  have hphrase : foldCase "create table" = ("create table" : Text) := by decide
  rw [afterPhrase?_eq_none_iff (by decide), hphrase, ← contains_iff, endsProperly]
  simp

/-! ### Declarations of different tables -/

section Disjoint

variable {ds es : List Declaration} (h : ∀ name ∈ declaredNames ds, name ∉ declaredNames es)
include h

theorem declaredNames_append_of_disjoint :
    declaredNames (ds ++ es) = declaredNames ds ++ declaredNames es := by
  have hkeep : (es.map (·.table)).removeAll (ds.map (·.table)) = es.map (·.table) := by
    refine List.filter_eq_self.2 fun name hname => ?_
    have hes : name ∈ declaredNames es := List.mem_eraseDups.2 hname
    have hds : name ∉ ds.map (·.table) := fun hd => h name (List.mem_eraseDups.2 hd) hes
    simpa using hds
  rw [declaredNames_append, hkeep]
  rfl

theorem definitionsOf_append_left {name : Text} (hname : name ∈ declaredNames ds) :
    definitionsOf (ds ++ es) name = definitionsOf ds name := by
  rw [definitionsOf_append, definitionsOf_eq_nil (h name hname), List.append_nil]

theorem definitionsOf_append_right {name : Text} (hname : name ∈ declaredNames es) :
    definitionsOf (ds ++ es) name = definitionsOf es name := by
  have hds : name ∉ declaredNames ds := fun hd => h name hd hname
  rw [definitionsOf_append, definitionsOf_eq_nil hds, List.nil_append]

/-- **Declarations of different tables do not touch each other.** The tables
    of the first come before those of the second.  So do the warnings about
    definitions and the warnings about keys, each kind for itself. -/
theorem schemaOf_append :
    (schemaOf (ds ++ es)).tables = (schemaOf ds).tables ++ (schemaOf es).tables ∧
      (schemaOf (ds ++ es)).warnings.Perm ((schemaOf ds).warnings ++ (schemaOf es).warnings) := by
  constructor
  · rw [tables_schemaOf, tables_schemaOf, tables_schemaOf, declaredNames_append_of_disjoint h,
      List.map_append]
    congr 1
    · refine List.map_congr_left fun name hname => ?_
      rw [definitionsOf_append_left h hname]
    · refine List.map_congr_left fun name hname => ?_
      rw [definitionsOf_append_right h hname]
  · rw [warnings_schemaOf, warnings_schemaOf, warnings_schemaOf,
      declaredNames_append_of_disjoint h, List.flatMap_append, List.flatMap_append,
      List.filterMap_append]
    have hleft : (declaredNames ds).flatMap
          (fun name => groupedKeyWarnings name (definitionsOf (ds ++ es) name)) =
        (declaredNames ds).flatMap fun name => groupedKeyWarnings name (definitionsOf ds name) :=
      List.flatMap_congr fun name hname => by rw [definitionsOf_append_left h hname]
    have hright : (declaredNames es).flatMap
          (fun name => groupedKeyWarnings name (definitionsOf (ds ++ es) name)) =
        (declaredNames es).flatMap fun name => groupedKeyWarnings name (definitionsOf es name) :=
      List.flatMap_congr fun name hname => by rw [definitionsOf_append_right h hname]
    rw [hleft, hright, List.append_assoc, List.append_assoc]
    -- the second script's definitions and the first script's keys change places
    refine List.Perm.append_left _ ?_
    rw [← List.append_assoc, ← List.append_assoc]
    exact List.perm_append_comm.append_right _

end Disjoint

/-! ### Scripts -/

theorem tableNames_parseSchema (script : Text) :
    (parseSchema script).tables.map (·.name) =
      declaredNames ((scriptStatements script).map Statement.declaration) := by
  rw [parseSchema, tables_schemaOf, List.map_map]
  exact List.map_id _

section Newline

variable {s₁ s₂ : Text} (h : contains "/*" (stripBlocks false s₁) = false)
include h

theorem stripComments_newline :
    stripComments (s₁ ++ '\n' :: s₂) = stripComments s₁ ++ '\n' :: stripComments s₂ :=
  have hopen : false = true → closesBlock s₁ = true := fun hf => absurd hf Bool.false_ne_true
  stripComments_append_newline
    (closesBlocks_of_not_mark hopen (contains_eq_false_iff.1 h)) s₂

/-- The statements of the second script are added, if no statement of the
    first is broken off. -/
theorem scriptStatements_newline (hend : endsProperly (stripComments s₁) = true) :
    scriptStatements (s₁ ++ '\n' :: s₂) = scriptStatements s₁ ++ scriptStatements s₂ := by
  rw [scriptStatements, stripComments_newline h]
  exact statements_append_newline (endsProperly_iff.1 hend) _

end Newline

/-- **Scripts compose.** If the first script leaves no block comment open, its
    statements come first among those of both.  If none of its statements is
    broken off, the statements of both are those of the one and then those of
    the other.  If moreover the two declare different tables, the same holds
    of the tables, and the warnings are those of both. -/
theorem parseSchema_compose {s₁ : Text} (h : contains "/*" (stripBlocks false s₁) = false)
    (s₂ : Text) :
    scriptStatements s₁ <+: scriptStatements (s₁ ++ '\n' :: s₂) ∧
      (endsProperly (stripComments s₁) = true →
        scriptStatements (s₁ ++ '\n' :: s₂) = scriptStatements s₁ ++ scriptStatements s₂ ∧
        ((∀ name ∈ (parseSchema s₁).tables.map (·.name),
            name ∉ (parseSchema s₂).tables.map (·.name)) →
          (parseSchema (s₁ ++ '\n' :: s₂)).tables =
              (parseSchema s₁).tables ++ (parseSchema s₂).tables ∧
            (parseSchema (s₁ ++ '\n' :: s₂)).warnings.Perm
              ((parseSchema s₁).warnings ++ (parseSchema s₂).warnings))) := by
  refine ⟨?_, fun hend => ⟨scriptStatements_newline h hend, fun hnames => ?_⟩⟩
  · have hprefix := statements_isPrefix_append (stripComments s₁) ('\n' :: stripComments s₂)
    rw [← stripComments_newline h] at hprefix
    exact hprefix
  · rw [tableNames_parseSchema, tableNames_parseSchema] at hnames
    have hsplit : parseSchema (s₁ ++ '\n' :: s₂) =
        schemaOf ((scriptStatements s₁).map Statement.declaration ++
          (scriptStatements s₂).map Statement.declaration) := by
      rw [parseSchema, scriptStatements_newline h hend, List.map_append]
    rw [hsplit]
    exact schemaOf_append hnames

/-- The first script ends in a comment that quotes CREATE TABLE, and the second
    in a statement that is broken off. -/
theorem parseSchema_compose_commented :
    let s₁ : Text := "/* old */ CREATE TABLE a (id INT, KEY); -- CREATE TABLE x ("
    let s₂ : Text := "CREATE TABLE b (x NUMBER); CREATE TABLE c ("
    (parseSchema (s₁ ++ '\n' :: s₂)).tables = (parseSchema s₁).tables ++ (parseSchema s₂).tables ∧
      (parseSchema (s₁ ++ '\n' :: s₂)).warnings.Perm
        ((parseSchema s₁).warnings ++ (parseSchema s₂).warnings) :=
  ((parseSchema_compose (by decide +kernel) _).2 (by decide +kernel)).2 (by decide +kernel)

end SchemaDiagram.Ddl
