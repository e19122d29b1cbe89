import SchemaDiagram.Text.Blank
import SchemaDiagram.Ddl.Nesting

/-! # Split — cutting a list at its top-level delimiters

      * `isCut`                — a delimiter here separates two pieces
      * `pieces`               — the text between the cuts, untouched
      * `splitTopLevel`        — the pieces trimmed, blank ones left out

    A quote mark or a parenthesis keeps its meaning even when it is given as
    the delimiter, and so never separates anything. -/

namespace SchemaDiagram.Ddl

/-- Whether `c`, read in the state `n`, separates two pieces of a list with
    the given delimiter. -/
def isCut (delimiter : Char) (n : Nesting) (c : Char) : Bool :=
  c == delimiter && n.atTop && !(isQuote c || c == '(' || c == ')')

/-- The text between the cuts, for a scan that enters it in the state `n`.
    There is one piece more than there are cuts. -/
def pieces (delimiter : Char) (n : Nesting) : Text → List Text
  | [] => [[]]
  | c :: r =>
    let rest := pieces delimiter (n.step c) r
    if isCut delimiter n c then [] :: rest
    else (c :: rest.headD []) :: rest.tail

/-- The items of a list: its pieces without outer blanks, blank pieces left
    out. -/
def splitTopLevel (delimiter : Char) (input : Text) : List Text :=
  ((pieces delimiter .start input).map Text.trim).filter (· != [])

/-! ### Laws -/

theorem pieces_ne_nil (delimiter : Char) (n : Nesting) (s : Text) :
    pieces delimiter n s ≠ [] := by
  cases s with
  | nil => simp [pieces]
  | cons c r => simp only [pieces]; split <;> simp

/-- **Nothing is lost.** The pieces with the delimiter between neighbours are
    the text again. -/
theorem joined_pieces (delimiter : Char) (n : Nesting) (s : Text) :
    Text.joined [delimiter] (pieces delimiter n s) = s := by
  induction s generalizing n with
  | nil => simp [pieces, Text.joined, List.intercalate]
  | cons c r ih =>
    have hr := ih (n.step c)
    have hne := pieces_ne_nil delimiter (n.step c) r
    simp only [pieces]
    cases hp : pieces delimiter (n.step c) r with
    | nil => exact absurd hp hne
    | cons p ps =>
      rw [hp] at hr
      by_cases hc : isCut delimiter n c = true
      · have hcd : c = delimiter := by
          simp only [isCut, Bool.and_eq_true, beq_iff_eq] at hc
          exact hc.1.1
        simp [hc, Text.joined, List.intercalate] at hr ⊢
        exact ⟨hcd.symm, hr⟩
      · cases ps with
        | nil => simpa [hc, Text.joined, List.intercalate] using hr
        | cons q qs =>
          simpa [hc, Text.joined, List.intercalate, List.intersperse] using hr

end SchemaDiagram.Ddl
