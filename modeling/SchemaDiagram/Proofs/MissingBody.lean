import SchemaDiagram.Proofs.Composition
import SchemaDiagram.Proofs.Fragment
import SchemaDiagram.Proofs.StatementGrammar

/-! # MissingBody — a CREATE TABLE that has no column list

    The body of a statement starts at the first opening parenthesis behind
    its head, and a semicolon does not stop the search for it.  A statement
    that is written without a column list therefore ends the search only
    where nothing behind it can be taken for one.  Otherwise the column list
    of a later statement is taken, and the name of the table is read off all
    the text in front of it.

      * `bodylessScript`                — a statement without a column list
                                          between two texts
      * `FirstGroup`                    — what is taken for the body
      * `scriptStatements_bodyless_append`
                                        — the search goes on with that statement
      * `statements_bodyless_of_firstGroup`,
        `statements_bodyless_eq_nil`    — and takes the group, if there is one
      * `scriptStatements_bodyless`     — the statements of the whole script
      * `scriptStatements_bodyless_takes_next`
                                        — a table that is lost in this way -/

namespace SchemaDiagram.Ddl

open Text (contains contains_eq_false_iff cut? cut?_eq_some_iff cut?_eq_none_iff)

/-! ### The script -/

/-- A statement without a column list, on a line between two texts. -/
def bodylessScript (before head after : Text) : Text :=
  before ++ "\n" ++ "CREATE TABLE " ++ head ++ ";" ++ "\n" ++ after

/-- What may stand between CREATE TABLE and the semicolon: anything without an
    opening parenthesis and without a comment. -/
structure IsBodylessHead (head : Text) : Prop where
  no_open : '(' ∉ head
  no_hash : '#' ∉ head
  no_lineComment : contains "--" head = false
  no_blockComment : contains "/*" head = false

instance (head : Text) : Decidable (IsBodylessHead head) :=
  decidable_of_iff
    ('(' ∉ head ∧ '#' ∉ head ∧ contains "--" head = false ∧ contains "/*" head = false)
    ⟨fun ⟨h₁, h₂, h₃, h₄⟩ => ⟨h₁, h₂, h₃, h₄⟩, fun ⟨h₁, h₂, h₃, h₄⟩ => ⟨h₁, h₂, h₃, h₄⟩⟩

/-- `s` starts with `lead` and a group in parentheses, the first that it opens;
    `rest` is what follows. -/
structure FirstGroup (s lead body rest : Text) : Prop where
  split : s = lead ++ '(' :: (body ++ ')' :: rest)
  lead : '(' ∉ lead
  body : Balanced body

/-- The statement of that name and body, if it has a name. -/
def namedStatement (name body : Text) : List Statement :=
  if name = [] then [] else [⟨name, body⟩]

theorem namedStatement_append_eq_nil_iff {name body : Text} {rest : List Statement} :
    namedStatement name body ++ rest = [] ↔ name = [] ∧ rest = [] := by
  unfold namedStatement
  split <;> simp_all

/-! ### The statement by itself -/

/-- The text of the statement with `after` behind it. -/
def bodylessText (head after : Text) : Text :=
  "CREATE TABLE" ++ ' ' :: (head ++ ';' :: '\n' :: after)

section Head

variable {head : Text} (h : IsBodylessHead head)
include h

/-- Comments start in what follows only. -/
theorem stripComments_bodylessText (after : Text) :
    stripComments (bodylessText head after) = bodylessText head (stripComments after) := by
  have hpair : ∀ {a b : Char}, ¬ [a, b] <:+: "CREATE TABLE ".toList → ¬ [a, b] <:+: head →
      a ≠ ' ' → b ≠ ';' → ¬ [a, b] <:+: "CREATE TABLE " ++ (head ++ [';']) := by
    intro a b hphrase hhead ha hb
    refine not_pair_infix_append hphrase
      (not_pair_infix_append hhead not_pair_infix_singleton ?_) ?_
    · exact fun _ hhd => hb (Option.some.inj hhd).symm
    · exact fun hlast => absurd (Option.some.inj hlast).symm ha
  have hblock : ¬ ("/*" : Text) <:+: "CREATE TABLE " ++ (head ++ [';']) :=
    hpair (contains_eq_false_iff.1 (by decide)) (contains_eq_false_iff.1 h.no_blockComment)
      (by decide) (by decide)
  have hdashes : ¬ ("--" : Text) <:+: "CREATE TABLE " ++ (head ++ [';']) :=
    hpair (contains_eq_false_iff.1 (by decide)) (contains_eq_false_iff.1 h.no_lineComment)
      (by decide) (by decide)
  have hhash : ¬ ("#" : Text) <:+: "CREATE TABLE " ++ (head ++ [';']) := by
    intro hin
    have hmem : '#' ∈ "CREATE TABLE " ++ (head ++ [';']) := hin.subset (by simp)
    simp [h.no_hash] at hmem
  have hclosed : closesBlocks false ("CREATE TABLE " ++ (head ++ [';'])) = true := by
    refine closesBlocks_of_not_mark (fun hf => absurd hf Bool.false_ne_true) ?_
    rwa [stripBlocks_eq_self hblock]
  have htext : ∀ t, bodylessText head t = "CREATE TABLE " ++ (head ++ [';']) ++ '\n' :: t := by
    intro t
    unfold bodylessText
    simp only [List.append_assoc, List.cons_append, List.nil_append]
    rfl
  rw [htext, htext, stripComments_append_newline hclosed, stripComments_eq_self hblock hdashes hhash]

/-- The text in front of a group behind the statement opens no other. -/
theorem not_mem_head_append {lead : Text} (hlead : '(' ∉ lead) :
    '(' ∉ ' ' :: (head ++ ';' :: '\n' :: lead) := by
  simp [h.no_open, hlead]

/-- **A group behind the statement is taken for its body.** -/
theorem statements_bodyless_of_firstGroup {s lead body rest : Text}
    (hs : FirstGroup s lead body rest) :
    statements (bodylessText head s) =
      namedStatement (tableName (head ++ ';' :: '\n' :: lead)) body ++ statements rest := by
  have hclose : closeGroup? 0 (body ++ ')' :: rest) = some (body, rest) :=
    closeGroup?_of_staysInside hs.body.never_below hs.body.level.symm rest
  have htext : bodylessText head s =
      "CREATE TABLE" ++ ((' ' :: (head ++ ';' :: '\n' :: lead)) ++ '(' :: (body ++ ')' :: rest)) := by
    obtain ⟨rfl, -, -⟩ := hs
    unfold bodylessText
    simp only [List.append_assoc, List.cons_append]
  have hname : tableName (' ' :: (head ++ ';' :: '\n' :: lead)) =
      tableName (head ++ ';' :: '\n' :: lead) := by
    have htrim := Text.trim_blanks_append (b := [' ']) (head ++ ';' :: '\n' :: lead) (by decide)
    rw [tableName, tableName, ← htrim]
    rfl
  rw [htext, statements_of_some (nextStatement?_of_parts (not_mem_head_append h hs.lead) hclose),
    hname, namedStatement]
  split <;> rfl

/-- **Without such a group the search ends here.** -/
theorem statements_bodyless_eq_nil {s : Text}
    (hs : ∀ lead body rest, ¬ FirstGroup s lead body rest) :
    statements (bodylessText head s) = [] := by
  have hphrase : ∀ behind, StandsFirst "create table" [] "CREATE TABLE" behind := fun _ =>
    .of_found (by decide)
  refine statements_of_none (nextStatement?_eq_none_iff.2 ?_)
  cases hcut : cut? '(' s with
  | none =>
    exact .noBody (hphrase _) (not_mem_head_append h (cut?_eq_none_iff.1 hcut))
  | some parts =>
    obtain ⟨lead, inside⟩ := parts
    obtain ⟨rfl, hlead⟩ := cut?_eq_some_iff.1 hcut
    have hstays : StaysInside 0 inside := by
      -- a group that is closed would be the first one
      rw [← closeGroup?_eq_none_iff, Option.eq_none_iff_forall_ne_some]
      rintro ⟨body, rest⟩ hclose
      obtain ⟨rfl, hinside, hlevel⟩ := closeGroup?_eq_some_iff.1 hclose
      exact hs lead body rest ⟨rfl, hlead, hinside, hlevel.symm⟩
    have hends := Ends.neverClosed (hphrase _) (not_mem_head_append h hlead) hstays
    rw [List.nil_append, List.cons_append, List.append_assoc, List.cons_append,
      List.cons_append] at hends
    exact hends

/-! ### The whole script -/

/-- The search comes to the statement without a column list. -/
theorem scriptStatements_bodyless_append {before : Text} (hblocks : closesBlocks false before = true)
    (hend : endsProperly (stripComments before) = true) (after : Text) :
    scriptStatements (bodylessScript before head after) =
      scriptStatements before ++ statements (bodylessText head (stripComments after)) := by
  have htext : bodylessScript before head after = before ++ '\n' :: bodylessText head after := by
    unfold bodylessScript bodylessText
    simp only [List.append_assoc]
    rfl
  rw [scriptStatements, htext, stripComments_append_newline hblocks,
    statements_append_newline (endsProperly_iff.1 hend), stripComments_bodylessText h]
  rfl

/-- **A statement without a column list takes the next one.** Behind a script
    that has come to its proper end, it gets the first group of what follows
    for its body, and its name is read off all the text in front of that
    group.  So the statements are those of the script before it just when no
    such group is closed, or when the group makes a statement without a name
    and nothing is declared behind it. -/
theorem scriptStatements_bodyless {before : Text} (hblocks : closesBlocks false before = true)
    (hend : endsProperly (stripComments before) = true) (after : Text) :
    (∀ lead body rest, FirstGroup (stripComments after) lead body rest →
        scriptStatements (bodylessScript before head after) =
          scriptStatements before
            ++ (namedStatement (tableName (head ++ ';' :: '\n' :: lead)) body
              ++ statements rest)) ∧
      (scriptStatements (bodylessScript before head after) = scriptStatements before ↔
        ∀ lead body rest, FirstGroup (stripComments after) lead body rest →
          tableName (head ++ ';' :: '\n' :: lead) = [] ∧ statements rest = []) := by
  have happend := scriptStatements_bodyless_append h hblocks hend after
  refine ⟨fun lead body rest hgroup => ?_, ?_⟩
  · rw [happend, statements_bodyless_of_firstGroup h hgroup]
  · rw [happend, List.append_right_eq_self]
    constructor
    · intro hnil lead body rest hgroup
      rw [statements_bodyless_of_firstGroup h hgroup] at hnil
      exact namedStatement_append_eq_nil_iff.1 hnil
    · intro hall
      by_cases hgroup : ∃ lead body rest, FirstGroup (stripComments after) lead body rest
      · obtain ⟨lead, body, rest, hgroup⟩ := hgroup
        rw [statements_bodyless_of_firstGroup h hgroup, namedStatement_append_eq_nil_iff]
        exact hall lead body rest hgroup
      · push Not at hgroup
        exact statements_bodyless_eq_nil h hgroup

end Head

/-- A group in a comment is no body, so the search ends at the statement. -/
theorem scriptStatements_bodyless_last :
    let before : Text := "CREATE TABLE users (id INT); /* CREATE TABLE x */"
    let head : Text := "IF NOT EXISTS orders"
    let after : Text := "DROP TABLE orders; -- (id INT)"
    (closesBlocks false before = true ∧ endsProperly (stripComments before) = true ∧
        IsBodylessHead head) ∧
      scriptStatements (bodylessScript before head after) = scriptStatements before := by
  intro before head after
  have hblocks : closesBlocks false before = true := by decide +kernel
  have hend : endsProperly (stripComments before) = true := by decide +kernel
  have hhead : IsBodylessHead head := by decide
  refine ⟨⟨hblocks, hend, hhead⟩, (scriptStatements_bodyless hhead hblocks hend after).2.2 ?_⟩
  intro lead body rest hgroup
  have hmem : '(' ∈ stripComments after := by
    rw [hgroup.split]
    simp
  exact absurd hmem (by decide +kernel)

/-- **The statement behind is lost.** Its column list goes to a table whose name
    runs over two statements. -/
theorem scriptStatements_bodyless_takes_next :
    let before : Text := "CREATE TABLE users (id INT);"
    let head : Text := "a"
    let after : Text := "CREATE TABLE b (id INT);"
    (closesBlocks false before = true ∧ endsProperly (stripComments before) = true ∧
        IsBodylessHead head) ∧
      scriptStatements before = [⟨"users", "id INT"⟩] ∧
      scriptStatements (bodylessScript before head after) =
        [⟨"users", "id INT"⟩, ⟨"a;\nCREATE TABLE b", "id INT"⟩] ∧
      scriptStatements (bodylessScript before head after) ≠ scriptStatements before := by
  decide +kernel

end SchemaDiagram.Ddl
