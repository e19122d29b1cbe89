import SchemaDiagram.Ddl.Clause
import SchemaDiagram.Ddl.ColumnType
import SchemaDiagram.Schema.Basic

/-! # Definition — what one entry of a table's body declares

    The body of a table is a list of definitions.  Each declares a key, a
    column, or something that has no place in a diagram.

      * `Definition`, `ColumnDefinition`   — what a definition can say
      * `primaryKeyColumns`                — the names in PRIMARY KEY (…)
      * `foreignKey?`                      — [CONSTRAINT name] FOREIGN KEY …
      * `namedConstraint?`                 — CONSTRAINT name, then a primary key
                                             or metadata
      * `columnDefinition?`                — name, type and constraints
      * `classify`                         — the first of these that fits -/

namespace SchemaDiagram.Ddl

open Text (trim upper)

/-- A column with what its own definition says about keys. -/
structure ColumnDefinition where
  column : Column
  /-- the definition holds the words PRIMARY KEY -/
  isPrimary : Bool
  /-- the foreign key that a REFERENCES clause makes of the column -/
  references : Option ForeignKey
  deriving DecidableEq, Repr

/-- One entry of a table's body. -/
inductive Definition where
  | primaryKey (columns : List Text)
  | foreignKey (key : ForeignKey)
  | column (definition : ColumnDefinition)
  /-- an index, a check or the like: known, and of no use to a diagram -/
  | metadata
  | unrecognized (text : Text)
  deriving DecidableEq, Repr

/-! ### How definitions start -/

/-- The words that a metadata definition starts with. -/
def metadataWords : List Text :=
  ["UNIQUE", "KEY", "INDEX", "CHECK", "FULLTEXT", "SPATIAL"]

/-- Whether a metadata word is next. -/
def atMetadata (ls : List Lexeme) : Bool := metadataWords.any (atWord · ls)

/-- Whether the words PRIMARY KEY are next. -/
def atPrimaryKey (ls : List Lexeme) : Bool := atWords "PRIMARY" "KEY" ls

/-- Whether the definition cannot declare a column because of its first
    words. -/
def atConstraint (ls : List Lexeme) : Bool :=
  atWord "CONSTRAINT" ls || atWords "FOREIGN" "KEY" ls || atMetadata ls

/-! ### Keys -/

/-- The lexemes from the first one on that is no bare word. -/
def skipWords : List Lexeme → List Lexeme
  | l :: ls =>
    match l.token with
    | .word _ => skipWords ls
    | _ => l :: ls
  | [] => []

/-- The columns of a primary key: the names in the group behind the words at
    its start.  Without such a group there are none. -/
def primaryKeyColumns (ls : List Lexeme) : List Text :=
  match identifiers? (skipWords ls) with
  | some (columns, _) => columns
  | none => []

/-- The name that CONSTRAINT gives to a foreign key.  The word may be absent,
    and the name may be left out behind it. -/
def constraintName? (ls : List Lexeme) : Option (Option Text × List Lexeme) :=
  match dropWord? "CONSTRAINT" ls with
  | none => some (none, ls)
  | some rest =>
    if atWord "FOREIGN" rest then some (none, rest)
    else (identifier? rest).map fun (name, rest) => (some (bareName name), rest)

/-- A foreign key.  Between FOREIGN KEY and its columns an index may be
    named. -/
def foreignKey? (ls : List Lexeme) : Option ForeignKey := do
  let (constraintName, ls) ← constraintName? ls
  let ls ← dropWord? "FOREIGN" ls
  let ls ← dropWord? "KEY" ls
  let ls ← if atOpenParen ls then some ls else (identifier? ls).map (·.2)
  let (columns, ls) ← identifiers? ls
  let ls ← dropWord? "REFERENCES" ls
  let (refTable, refColumns) ← reference? ls
  some { columns, refTable, refColumns, constraintName }

/-- A primary key or metadata behind CONSTRAINT and a name; the name may be
    left out. -/
def namedConstraint? (ls : List Lexeme) : Option Definition := do
  let ls ← dropWord? "CONSTRAINT" ls
  let ls ← if atPrimaryKey ls || atMetadata ls then some ls else (identifier? ls).map (·.2)
  if atPrimaryKey ls then some (.primaryKey (primaryKeyColumns ls))
  else if atMetadata ls then some .metadata
  else none

/-! ### Columns -/

/-- The name of a column: bare or quoted, but of a shape that needs no
    quotes. -/
def columnName? (l : Lexeme) : Option Text :=
  match l.token with
  | .word w => if isPlain w then some w else none
  | .quotedName w => if isPlain w then some w else none
  | _ => none

/-- Whether an opening parenthesis is next, without a blank in front. -/
def touchesOpenParen : List Lexeme → Bool
  | l :: _ => l.gap == [] && l.token == .openParen
  | [] => false

/-- Whether a type is next, set off by blanks: a bare word that is the name
    of a type, or that has a parenthesis directly behind it. -/
def atType : List Lexeme → Bool
  | l :: ls =>
    match l.token with
    | .word w => l.gap != [] && (isTypeName w || touchesOpenParen ls)
    | _ => false
  | [] => false

/-- Whether the words PRIMARY KEY stand somewhere in `ls`. -/
def declaresPrimaryKey : List Lexeme → Bool
  | l :: ls => atPrimaryKey (l :: ls) || declaresPrimaryKey ls
  | [] => false

/-- The first reference in `ls` that can be read. -/
def firstReference? : List Lexeme → Option (Text × List Text)
  | l :: ls =>
    if l.isWord "REFERENCES" then (reference? ls).or (firstReference? ls) else firstReference? ls
  | [] => none

/-- The foreign key that a reference makes of the column `name`. -/
def inlineKey (name : Text) (reference : Text × List Text) : ForeignKey where
  columns := [name]
  refTable := reference.1
  refColumns := reference.2
  constraintName := none

/-- Whether the column that `ls` defines admits NULL: the words NOT NULL, one
    space between them, stand nowhere in the text of the definition. -/
def admitsNull (ls : List Lexeme) : Bool := !Text.contains "NOT NULL" (upper (sourceText ls))

/-- A column: its name, its type and its constraints. -/
def columnDefinition? (ls : List Lexeme) : Option ColumnDefinition :=
  match ls with
  | [] => none
  | l :: rest =>
    match columnName? l with
    | none => none
    | some name =>
      if atType rest then
        some
          { column := ⟨name, declaredType (sourceText rest), admitsNull ls⟩
            isPrimary := declaresPrimaryKey rest
            references := (firstReference? rest).map (inlineKey name) }
      else none

/-! ### Classification -/

/-- What some lexemes define, if they define anything that is known. -/
def definition? (ls : List Lexeme) : Option Definition :=
  if atPrimaryKey ls then some (.primaryKey (primaryKeyColumns ls))
  else
    -- a foreign key may start with CONSTRAINT, so it is tried before the others that may
    match foreignKey? ls with
    | some key => some (.foreignKey key)
    | none =>
      match namedConstraint? ls with
      | some definition => some definition
      | none =>
        -- what starts like a constraint is never a column, even if it cannot be read
        if atConstraint ls then if atMetadata ls then some .metadata else none
        else (columnDefinition? ls).map .column

/-- What the text of a definition declares. -/
def classify (text : Text) : Definition :=
  (definition? (lex (trim text))).getD (.unrecognized (trim text))

end SchemaDiagram.Ddl
