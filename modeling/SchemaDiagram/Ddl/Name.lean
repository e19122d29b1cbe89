import SchemaDiagram.Text.Blank

/-! # Name — from a written identifier to its bare name

    Identifiers are written with a qualifier, in quotes, or with a length
    behind them: each of the texts shop.users, "public".users and users(10)
    names users.

      * `dropTrailingGroup`   — the text without a parenthesised group at its end
      * `stripMarks`          — the text without backticks and double quotes
                                around it
      * `bareName`            — the last part of a dotted name, bare
      * `isPlain`             — names that need no quotes -/

namespace SchemaDiagram.Ddl

open Text (trim isBlankText cut?)

/-- `s` without a group in parentheses at its end.  The group is the last
    one: it holds no closing parenthesis, and starts at the first opening
    parenthesis after the closing parenthesis before it. -/
def dropTrailingGroup (s : Text) : Text :=
  match s.reverse with
  | ')' :: inner =>
    -- read from the end: the last group, then what stands before it
    let before := (inner.dropWhile (· != ')')).reverse
    match cut? '(' (inner.takeWhile (· != ')')).reverse with
    | some (head, _) => before ++ head
    | none => s
  | _ => s

/-- The marks that may stand around a name. -/
def isNameMark (c : Char) : Bool := c == '\x60' || c == '\x22'

/-- `s` without the name marks at its two ends. -/
def stripMarks (s : Text) : Text :=
  (((s.dropWhile isNameMark).reverse).dropWhile isNameMark).reverse

/-- The name that an identifier as it was written stands for: its last part
    that is not blank, without blanks and marks around it.  What has no such
    part names what is left of it without its marks. -/
def bareName (written : Text) : Text :=
  let name := trim (dropTrailingGroup (trim written))
  let parts := (name.splitOn '.').filter fun part => !isBlankText part
  match parts.getLast? with
  | some part => stripMarks (trim part)
  | none => stripMarks name

/-- Whether `name` is an ASCII letter or underscore followed by ASCII
    letters, digits, underscores and dollar signs. -/
def isPlain (name : Text) : Bool :=
  match name with
  | [] => false
  | c :: r => (c.isAlpha || c == '_') && r.all fun d => d.isAlphanum || d == '_' || d == '$'

end SchemaDiagram.Ddl
