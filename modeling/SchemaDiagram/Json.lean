import SchemaDiagram.Text.Basic

/-! # Json — JSON values and how they are written

      * `Json`            — a value; objects keep the order of their fields
      * `escapeChar`      — a character between double quotes
      * `Layout`          — on one line, or indented by two spaces a level
      * `Json.write`      — the text of a value -/

namespace SchemaDiagram

/-- A JSON value. -/
inductive Json where
  | null
  | bool (value : Bool)
  | number (value : Nat)
  | string (value : Text)
  | array (items : List Json)
  | object (fields : List (Text × Json))

namespace Json

/-! ### Strings -/

/-- A character as it stands in a string: double quotes, backslashes and the
    controls below U+0020 are escaped, everything else stands as it is. -/
def escapeChar (c : Char) : Text :=
  if c = '\x22' then "\\\""
  else if c = '\\' then "\\\\"
  else if c = '\x08' then "\\b"
  else if c = '\x0c' then "\\f"
  else if c = '\n' then "\\n"
  else if c = '\r' then "\\r"
  else if c = '\t' then "\\t"
  else if c.toNat < 0x20 then
    "\\u00" ++ [Nat.digitChar (c.toNat / 16), Nat.digitChar (c.toNat % 16)]
  else [c]

/-- A string between double quotes. -/
def quote (s : Text) : Text := '\x22' :: s.flatMap escapeChar ++ ['\x22']

/-! ### Values -/

/-- How a value is laid out. -/
inductive Layout where
  /-- on one line, without blanks -/
  | compact
  /-- each item on its own line, indented by two spaces a level -/
  | indented
  deriving DecidableEq, Repr

namespace Layout

/-- What stands in front of an item at that depth. -/
def lineBreak : Layout → (depth : Nat) → Text
  | compact, _ => []
  | indented, depth => '\n' :: List.replicate (2 * depth) ' '

/-- What stands between the name of a field and its value. -/
def colon : Layout → Text
  | compact => ":"
  | indented => ": "

/-- Items between two brackets; without items, nothing stands between
    them. -/
def bracket (layout : Layout) (depth : Nat) (opening closing : Char) (items : List Text) : Text :=
  if items = [] then [opening, closing]
  else
    opening :: Text.joined "," (items.map (layout.lineBreak (depth + 1) ++ ·))
      ++ layout.lineBreak depth ++ [closing]

end Layout

mutual

/-- The text of a value that stands `depth` levels deep. -/
def write (layout : Layout) (depth : Nat) : Json → Text
  | null => "null"
  | bool true => "true"
  | bool false => "false"
  | number n => Text.decimal n
  | string s => quote s
  | array items => layout.bracket depth '[' ']' (writeItems layout (depth + 1) items)
  | object fields => layout.bracket depth '\x7b' '\x7d' (writeFields layout (depth + 1) fields)

/-- The texts of the items of an array. -/
def writeItems (layout : Layout) (depth : Nat) : List Json → List Text
  | [] => []
  | item :: items => write layout depth item :: writeItems layout depth items

/-- The texts of the fields of an object. -/
def writeFields (layout : Layout) (depth : Nat) : List (Text × Json) → List Text
  | [] => []
  | (name, value) :: fields =>
    (quote name ++ layout.colon ++ write layout depth value) :: writeFields layout depth fields

end

/-- The text of a value. -/
def toText (layout : Layout) (value : Json) : Text := write layout 0 value

end Json

end SchemaDiagram
