import SchemaDiagram.Ddl.Comment
import SchemaDiagram.Ddl.Name
import SchemaDiagram.Ddl.Phrase

/-! # Statement — the CREATE TABLE statements of a script

      * `Statement`          — a table's name and the text of its body
      * `tableName`          — the name that a statement's head gives
      * `closeGroup?`        — a body, up to the parenthesis that closes it
      * `nextStatement?`     — the first statement of a text
      * `statements`         — all of them, in a text without comments
      * `scriptStatements`   — all of them, in a script

    A head without an opening parenthesis after it, or a body that is never
    closed, ends the search: what was found before it stands.  Parentheses
    are matched without regard to quotes. -/

namespace SchemaDiagram.Ddl

open Text (trim cut?)

/-- A table as a script declares it. -/
structure Statement where
  name : Text
  /-- the text between the parentheses -/
  body : Text
  deriving DecidableEq, Repr

/-- `head` without the words IF NOT EXISTS at its start. -/
def dropIfNotExists (head : Text) : Text :=
  match (dropKeyword? "if" head).bind fun rest =>
      (dropKeyword? "not" rest).bind (dropKeyword? "exists") with
  | some rest => rest
  | none => head

/-- The name of a table, from the text between CREATE TABLE and the body. -/
def tableName (head : Text) : Text := bareName (dropIfNotExists (trim head))

/-- A text with `depth + 1` parentheses open before it: what stands before
    the parenthesis that closes the outermost of them, and what follows. -/
def closeGroup? : (depth : Nat) → Text → Option (Text × Text)
  | _, [] => none
  | 0, ')' :: r => some ([], r)
  | depth + 1, ')' :: r => (closeGroup? depth r).map fun (inside, rest) => (')' :: inside, rest)
  | depth, '(' :: r => (closeGroup? (depth + 1) r).map fun (inside, rest) => ('(' :: inside, rest)
  | depth, c :: r => (closeGroup? depth r).map fun (inside, rest) => (c :: inside, rest)

/-- The first CREATE TABLE of a text that holds no comments, and the text
    behind its body. -/
def nextStatement? (script : Text) : Option (Statement × Text) :=
  match afterPhrase? "create table" script with
  | none => none
  | some afterHead =>
    match cut? '(' afterHead with
    | none => none
    | some (head, afterOpen) =>
      (closeGroup? 0 afterOpen).map fun (body, rest) => (⟨tableName head, body⟩, rest)

/-! ### The search makes progress -/

theorem closeGroup?_append {depth : Nat} {s inside rest : Text}
    (h : closeGroup? depth s = some (inside, rest)) : s = inside ++ ')' :: rest := by
  fun_induction closeGroup? depth s generalizing inside with
  | case1 => simp at h
  | case2 r =>
    simp only [Option.some.injEq, Prod.mk.injEq] at h
    simp [h.1.symm, h.2]
  | case3 depth r ih =>
    simp only [Option.map_eq_some_iff, Prod.mk.injEq, Prod.exists] at h
    obtain ⟨i, _, h', rfl, rfl⟩ := h
    simp [ih h']
  | case4 depth r ih =>
    simp only [Option.map_eq_some_iff, Prod.mk.injEq, Prod.exists] at h
    obtain ⟨i, _, h', rfl, rfl⟩ := h
    simp [ih h']
  | case5 depth c r _ _ _ ih =>
    simp only [Option.map_eq_some_iff, Prod.mk.injEq, Prod.exists] at h
    obtain ⟨i, _, h', rfl, rfl⟩ := h
    simp [ih h']

theorem length_rest_lt {script rest : Text} {s : Statement}
    (h : nextStatement? script = some (s, rest)) : rest.length < script.length := by
  unfold nextStatement? at h
  split at h
  · cases h
  · next afterHead h₁ =>
    split at h
    · cases h
    · next head afterOpen h₂ =>
      simp only [Option.map_eq_some_iff, Prod.mk.injEq, Prod.exists] at h
      obtain ⟨body, rest', h₃, _, rfl⟩ := h
      have l₁ := length_afterPhrase_le h₁
      have l₂ := Text.length_after_lt h₂
      have l₃ := congrArg List.length (closeGroup?_append h₃)
      simp only [List.length_append, List.length_cons] at l₃
      omega

/-! ### All statements -/

/-- The statements of a text that holds no comments, in order.  One whose
    name is empty is passed over. -/
def statements (script : Text) : List Statement :=
  match _h : nextStatement? script with
  | none => []
  | some (s, rest) => if s.name = [] then statements rest else s :: statements rest
termination_by script.length
decreasing_by all_goals exact length_rest_lt _h

/-- The statements of a script, in order. -/
def scriptStatements (script : Text) : List Statement := statements (stripComments script)

end SchemaDiagram.Ddl
