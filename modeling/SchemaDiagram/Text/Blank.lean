import SchemaDiagram.Text.Basic

/-! # Blank — white space, trimming and words

    Blanks are the characters with the Unicode property `White_Space`.  The
    set holds the ideographic space and the line and paragraph separators;
    it does not hold the zero-width space, the byte-order mark or the four
    information separators U+001C to U+001F.

      * `inRanges`                          — membership in a table of ranges
      * `isBlank`, `isBlankText`            — the property, on a character
                                              and on every character of a text
      * `trimStart`, `trimEnd`, `trim`      — removal of outer blanks
      * `firstWord`                         — the first blank-delimited word -/

namespace SchemaDiagram.Text

/-- `ranges` lists inclusive ranges; `c` lies in one of them. -/
def inRanges (ranges : List (Nat × Nat)) (c : Char) : Bool :=
  ranges.any fun (low, high) => low ≤ c.toNat && c.toNat ≤ high

/-- The code points with the Unicode property `White_Space`. -/
def blankRanges : List (Nat × Nat) :=
  [(0x09, 0x0D), (0x20, 0x20), (0x85, 0x85), (0xA0, 0xA0), (0x1680, 0x1680),
   (0x2000, 0x200A), (0x2028, 0x2029), (0x202F, 0x202F), (0x205F, 0x205F), (0x3000, 0x3000)]

/-- Whether `c` is white space. -/
def isBlank (c : Char) : Bool := inRanges blankRanges c

/-- Whether `s` holds nothing but white space. -/
def isBlankText (s : Text) : Bool := s.all isBlank

/-- `s` without its leading blanks. -/
def trimStart (s : Text) : Text := s.dropWhile isBlank

/-- `s` without its trailing blanks. -/
def trimEnd (s : Text) : Text := (s.reverse.dropWhile isBlank).reverse

/-- `s` without its leading and trailing blanks. -/
def trim (s : Text) : Text := trimEnd (trimStart s)

/-- The first word of `s`, where words are the runs between blanks; empty
    when `s` has no word. -/
def firstWord (s : Text) : Text := (trimStart s).takeWhile fun c => !isBlank c

/-! ### Laws -/

theorem trimStart_cons (c : Char) (r : Text) :
    trimStart (c :: r) = if isBlank c then trimStart r else c :: r := by
  unfold trimStart
  rw [List.dropWhile_cons]

theorem trimStart_eq_nil_iff {s : Text} : trimStart s = [] ↔ isBlankText s = true := by
  induction s with
  | nil => simp [trimStart, isBlankText]
  | cons c r ih =>
    rw [trimStart_cons]
    by_cases hc : isBlank c = true
    · simpa [hc, isBlankText] using ih
    · simp [hc, isBlankText]

end SchemaDiagram.Text
