import SchemaDiagram.Text.Basic

/-! # Nesting — where a scan stands with respect to quotes and parentheses

    A table body is cut into definitions, and a column's text into its type
    and its constraints, at characters that stand outside quotes and outside
    parentheses.  Both scans carry the state described here.

      * `isQuote`           — the three quote marks
      * `Nesting`           — the state: parenthesis depth and open quote
      * `Nesting.step`      — one character
      * `Nesting.run`       — a text, character by character
      * `Nesting.atTop`     — outside quotes, at depth zero

    Inside quotes a backslash hides the character after it; only the mark
    that opened the quote closes it.  Outside, a closing parenthesis without
    an opening one leaves the depth at zero. -/

namespace SchemaDiagram.Ddl

/-- Whether `c` opens quoted text: an apostrophe, a double quote or a
    backtick. -/
def isQuote (c : Char) : Bool := c == '\x27' || c == '\x22' || c == '\x60'

/-- Quoted text that has been opened and not yet closed. -/
structure OpenQuote where
  /-- the mark that opened it and that will close it -/
  mark : Char
  /-- the last character was a backslash, so the next one is hidden -/
  escaped : Bool
  deriving DecidableEq, Repr

/-- The state of a scan. -/
structure Nesting where
  /-- how many parentheses are open -/
  depth : Nat
  /-- the quoted text that the scan is in, if it is in one -/
  quote : Option OpenQuote
  deriving DecidableEq, Repr

namespace Nesting

/-- Where every scan starts. -/
def start : Nesting := ⟨0, none⟩

/-- Outside quotes and at depth zero. -/
def atTop (n : Nesting) : Bool := n.quote.isNone && n.depth == 0

/-- The quoted text after one more character, if it is still open. -/
def stepQuote (q : OpenQuote) (c : Char) : Option OpenQuote :=
  if q.escaped then some { q with escaped := false }
  else if c = '\\' then some { q with escaped := true }
  else if c = q.mark then none
  else some q

/-- The parenthesis depth after one more character outside quotes. -/
def stepDepth (depth : Nat) (c : Char) : Nat :=
  if c = '(' then depth + 1 else if c = ')' then depth - 1 else depth

/-- The state after one more character. -/
def step (n : Nesting) (c : Char) : Nesting :=
  match n.quote with
  | some q => { n with quote := stepQuote q c }
  | none =>
    if isQuote c then { n with quote := some ⟨c, false⟩ }
    else { n with depth := stepDepth n.depth c }

/-- The state after a whole text. -/
def run (n : Nesting) (s : Text) : Nesting := s.foldl step n

@[simp] theorem run_nil (n : Nesting) : n.run [] = n := rfl

@[simp] theorem run_cons (n : Nesting) (c : Char) (r : Text) :
    n.run (c :: r) = (n.step c).run r := rfl

@[simp] theorem run_append (n : Nesting) (s t : Text) : n.run (s ++ t) = (n.run s).run t :=
  List.foldl_append

end Nesting

end SchemaDiagram.Ddl
