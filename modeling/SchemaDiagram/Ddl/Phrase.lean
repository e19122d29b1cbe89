import SchemaDiagram.Text.Blank
import SchemaDiagram.Text.LetterCase

/-! # Phrase — finding words in running text

    A script is searched for its statements before anything in it has been
    read as a token.  Words are compared without regard to the case of ASCII
    letters.

      * `dropPhrase?`     — the text behind a phrase that it starts with
      * `afterPhrase?`    — the text behind the first occurrence of a phrase
      * `dropKeyword?`    — the text behind a word and the blanks after it -/

namespace SchemaDiagram.Ddl

open Text (isBlank trimStart equalsIgnoringCase)

/-- What follows `phrase` at the start of `s`, if `s` starts with it. -/
def dropPhrase? (phrase s : Text) : Option Text :=
  if equalsIgnoringCase (s.take phrase.length) phrase then some (s.drop phrase.length) else none

/-- What follows the first occurrence of `phrase` in a text. -/
def afterPhrase? (phrase : Text) : Text → Option Text
  | [] => none
  | c :: r =>
    match dropPhrase? phrase (c :: r) with
    | some rest => some rest
    | none => afterPhrase? phrase r

/-- What follows `keyword` and the blanks after it at the start of `s`; a
    keyword without a blank after it does not count. -/
def dropKeyword? (keyword s : Text) : Option Text :=
  match dropPhrase? keyword s with
  | some (c :: r) => if isBlank c then some (trimStart r) else none
  | _ => none

/-! ### Laws -/

theorem length_dropPhrase_le {phrase s rest : Text} (h : dropPhrase? phrase s = some rest) :
    rest.length ≤ s.length := by
  unfold dropPhrase? at h
  split at h
  · cases h
    simp
  · cases h

theorem length_afterPhrase_le {phrase s rest : Text} (h : afterPhrase? phrase s = some rest) :
    rest.length ≤ s.length := by
  induction s with
  | nil => simp [afterPhrase?] at h
  | cons c r ih =>
    simp only [afterPhrase?] at h
    split at h
    · next h' =>
      cases h
      exact length_dropPhrase_le h'
    · exact Nat.le_succ_of_le (ih h)

end SchemaDiagram.Ddl
