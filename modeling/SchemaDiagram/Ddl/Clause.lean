import SchemaDiagram.Ddl.Name
import SchemaDiagram.Ddl.Split
import SchemaDiagram.Ddl.Token
import SchemaDiagram.Text.LetterCase

/-! # Clause — the small parts that definitions are made of

    Each reader below takes the lexemes that are still to be read.  A reader
    of a part returns what the part says and the lexemes behind it, or
    nothing if the part is not there.

      * `Lexeme.isWord`, `atWord`, `dropWord?`   — keywords
      * `identifier?`                            — a name, bare or quoted
      * `group?`                                 — the text between a parenthesis
                                                   and the one that closes it
      * `identifierList`                         — the names in such a text
      * `reference?`                             — what follows REFERENCES

    Keywords are bare words, in any letter case: a quoted name or a literal
    is never a keyword. -/

namespace SchemaDiagram.Ddl

open Text (equalsIgnoringCase)

/-! ### Keywords -/

/-- Whether the lexeme is the bare word `keyword`, in any letter case. -/
def Lexeme.isWord (keyword : Text) (l : Lexeme) : Bool :=
  match l.token with
  | .word w => equalsIgnoringCase w keyword
  | _ => false

/-- Whether `keyword` is next. -/
def atWord (keyword : Text) : List Lexeme → Bool
  | l :: _ => l.isWord keyword
  | [] => false

/-- Whether `first` and then `second` are next. -/
def atWords (first second : Text) : List Lexeme → Bool
  | l :: ls => l.isWord first && atWord second ls
  | [] => false

/-- What follows `keyword`, if it is next. -/
def dropWord? (keyword : Text) : List Lexeme → Option (List Lexeme)
  | l :: ls => if l.isWord keyword then some ls else none
  | [] => none

/-! ### Names and groups -/

/-- The name that is next, bare or quoted. -/
def identifier? : List Lexeme → Option (Text × List Lexeme)
  | l :: ls =>
    match l.token with
    | .word w => some (w, ls)
    | .quotedName w => some (w, ls)
    | _ => none
  | [] => none

/-- Whether an opening parenthesis is next. -/
def atOpenParen : List Lexeme → Bool
  | l :: _ => l.token == .openParen
  | [] => false

/-- Lexemes with `depth + 1` parentheses open before them: the text up to the
    parenthesis that closes the outermost of these, and the lexemes behind
    it. -/
def closeGroupText? : (depth : Nat) → List Lexeme → Option (Text × List Lexeme)
  | _, [] => none
  | depth, l :: ls =>
    let keep := fun (p : Text × List Lexeme) => (l.gap ++ l.source ++ p.1, p.2)
    match l.token, depth with
    | .closeParen, 0 => some (l.gap, ls)
    | .closeParen, depth + 1 => (closeGroupText? depth ls).map keep
    | .openParen, depth => (closeGroupText? (depth + 1) ls).map keep
    | _, depth => (closeGroupText? depth ls).map keep

/-- The text between the parenthesis that is next and the one that closes
    it. -/
def group? : List Lexeme → Option (Text × List Lexeme)
  | l :: ls => if l.token = .openParen then closeGroupText? 0 ls else none
  | [] => none

/-- The names of a list in parentheses.  Items that name nothing are left
    out. -/
def identifierList (text : Text) : List Text :=
  ((splitTopLevel ',' text).map bareName).filter (· != [])

/-- The names in the group that is next. -/
def identifiers? (ls : List Lexeme) : Option (List Text × List Lexeme) :=
  (group? ls).map fun (text, rest) => (identifierList text, rest)

/-! ### References -/

/-- The parent table and its columns, from behind the word REFERENCES.  The
    table may be qualified with the name of its database. -/
def reference? (ls : List Lexeme) : Option (Text × List Text) := do
  let (first, ls) ← identifier? ls
  let (table, ls) ←
    match ls with
    | l :: rest => if l.token = .dot then identifier? rest else some (first, ls)
    | [] => some (first, ls)
  let (columns, _) ← identifiers? ls
  some (bareName table, columns)

end SchemaDiagram.Ddl
