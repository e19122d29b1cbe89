import SchemaDiagram.Text.Basic

/-! # LetterCase — comparing and raising letters

    Keywords are compared in two ways.  Tokens ignore the case of the ASCII
    letters alone; type texts are raised to upper case by the full Unicode
    mapping and then compared with words of ASCII capitals.

      * `foldCase`, `equalsIgnoringCase`   — ASCII case forgotten
      * `asciiCapitals`                    — the characters outside ASCII whose
                                             capital form holds an ASCII letter
      * `capital`, `upper`                 — the Unicode mapping, as far as
                                             ASCII results go -/

namespace SchemaDiagram.Text

/-- `s` with its ASCII capitals made small. -/
def foldCase (s : Text) : Text := s.map Char.toLower

/-- Whether `s` and `t` agree once the case of ASCII letters is forgotten. -/
def equalsIgnoringCase (s t : Text) : Bool := foldCase s == foldCase t

/-- The characters outside ASCII whose capital form holds an ASCII letter,
    each with that form: the sharp s, the dotless i, the long s, the letters
    with a capital made of a letter and a mark, and the Latin ligatures. -/
def asciiCapitals : List (Char × Text) :=
  [('\u00DF', "SS"), ('\u0131', "I"), ('\u0149', "\u02BCN"), ('\u017F', "S"),
   ('\u01F0', "J\u030C"), ('\u1E96', "H\u0331"), ('\u1E97', "T\u0308"), ('\u1E98', "W\u030A"),
   ('\u1E99', "Y\u030A"), ('\u1E9A', "A\u02BE"), ('\uFB00', "FF"), ('\uFB01', "FI"),
   ('\uFB02', "FL"), ('\uFB03', "FFI"), ('\uFB04', "FFL"), ('\uFB05', "ST"), ('\uFB06', "ST")]

/-- The capital form of `c`.  Letters whose capital form lies wholly outside
    ASCII stand for themselves: raised texts are only ever compared with
    ASCII words or reduced to their ASCII capitals, digits and underscores,
    and neither can tell such a letter from its capital. -/
def capital (c : Char) : Text :=
  if c.toNat < 128 then [c.toUpper] else (asciiCapitals.lookup c).getD [c]

/-- `s` in capitals; one character may become several. -/
def upper (s : Text) : Text := s.flatMap capital

/-! ### Laws -/

theorem equalsIgnoringCase_iff {s t : Text} :
    equalsIgnoringCase s t = true ↔ foldCase s = foldCase t := by
  simp [equalsIgnoringCase]

@[simp] theorem equalsIgnoringCase_refl (s : Text) : equalsIgnoringCase s s = true := by
  simp [equalsIgnoringCase]

@[simp] theorem upper_nil : upper [] = [] := rfl

@[simp] theorem upper_append (s t : Text) : upper (s ++ t) = upper s ++ upper t := by
  simp [upper]

end SchemaDiagram.Text
