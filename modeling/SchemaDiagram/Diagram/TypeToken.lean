import SchemaDiagram.Text.Blank
import SchemaDiagram.Text.LetterCase

/-! # TypeToken — a declared type as one word of a diagram

    Diagrams name types by words of ASCII capitals, digits and underscores.

      * `isTypeTokenChar`     — the characters of such a word
      * `reduceType`          — runs of blanks folded, other characters dropped
      * `typeToken`           — the word for a declared type -/

namespace SchemaDiagram

open Text (isBlank trim upper)

/-- Whether `c` may stand in a type word. -/
def isTypeTokenChar (c : Char) : Bool := c.isUpper || c.isDigit || c == '_'

/-- A text in capitals with each run of blanks made one underscore, and
    everything else that may not stand in a type word left out.  `inGap` says
    that the character before was a blank. -/
def reduceType (inGap : Bool) : Text → Text
  | [] => []
  | c :: r =>
    if isBlank c then if inGap then reduceType true r else '_' :: reduceType true r
    else if isTypeTokenChar c then c :: reduceType false r
    else reduceType false r

/-- The word for a declared type: in capitals, without what stands in
    parentheses behind it, words joined by underscores.  A type of which
    nothing is left is UNKNOWN. -/
def typeToken (declared : Text) : Text :=
  let base := (upper (trim declared)).takeWhile (· != '(')
  if reduceType false base = [] then "UNKNOWN" else reduceType false base

end SchemaDiagram
