import SchemaDiagram.Text.Alphanumeric

/-! # Token — the words, names, literals and marks of a definition

      * `Token`            — what a token is
      * `Lexeme`           — a token with the text it was read from and the
                             blanks in front of it
      * `readQuoted`       — quoted text, from behind its opening mark
      * `readToken`        — one token
      * `lex`              — the tokens of a text
      * `sourceText`       — the text that a list of lexemes was read from

    No character is lost on the way: gaps and sources, one after the other,
    are the text again, up to the blanks behind the last token
    (`sourceText_lex`). -/

namespace SchemaDiagram.Ddl

open Text (isBlank isAlphanumeric isBlankText)

/-- A token of a definition. -/
inductive Token where
  /-- a bare run of word characters: keyword, identifier or number -/
  | word (text : Text)
  /-- a name in backticks or double quotes, without them -/
  | quotedName (text : Text)
  /-- a literal in apostrophes, without them -/
  | literal (text : Text)
  | openParen
  | closeParen
  | comma
  | dot
  /-- any other character -/
  | symbol (c : Char)
  deriving DecidableEq, Repr

/-- A token in its place. -/
structure Lexeme where
  /-- the blanks between the token before and this one -/
  gap : Text
  /-- the characters that were read as this token -/
  source : Text
  token : Token
  deriving DecidableEq, Repr

/-- The characters of bare words. -/
def isWordChar (c : Char) : Bool := isAlphanumeric c || c == '_' || c == '$'

/-! ### Reading one token -/

/-- A part read from the front of a text: what it means, the characters it
    took, and what is left. -/
structure Reading (α : Type) where
  value : α
  source : Text
  rest : Text

namespace Reading

/-- The reading of a text that has `characters` in front, which stand for
    `meaning`. -/
def after (characters meaning : Text) (r : Reading Text) : Reading Text :=
  { r with value := meaning ++ r.value, source := characters ++ r.source }

end Reading

/-- Quoted text, read from behind its opening mark up to its closing mark.
    A doubled mark stands for the mark, and a backslash for the character
    after it; text that is never closed runs to the end. -/
def readQuoted (mark : Char) : Text → Reading Text
  | [] => ⟨[], [], []⟩
  | c :: r =>
    if c = mark then
      -- a second mark right behind the first does not close the text
      match r with
      | d :: r' => if d = mark then (readQuoted mark r').after [c, d] [d] else ⟨[], [c], d :: r'⟩
      | [] => ⟨[], [c], []⟩
    else if c = '\\' then
      match r with
      | d :: r' => (readQuoted mark r').after [c, d] [d]
      | [] => ⟨[], [c], []⟩
    else (readQuoted mark r).after [c] [c]

/-- The token that starts with `c`, where `c` is no blank and `r` follows. -/
def readToken (c : Char) (r : Text) : Reading Token :=
  if c = '(' then ⟨.openParen, [c], r⟩
  else if c = ')' then ⟨.closeParen, [c], r⟩
  else if c = ',' then ⟨.comma, [c], r⟩
  else if c = '.' then ⟨.dot, [c], r⟩
  else if c = '\x60' || c = '\x22' then
    let q := readQuoted c r
    ⟨.quotedName q.value, c :: q.source, q.rest⟩
  else if c = '\x27' then
    let q := readQuoted c r
    ⟨.literal q.value, c :: q.source, q.rest⟩
  else if isWordChar c then
    let word := c :: r.takeWhile isWordChar
    ⟨.word word, word, r.dropWhile isWordChar⟩
  else ⟨.symbol c, [c], r⟩

/-! ### Nothing is lost in reading -/

theorem readQuoted_source_append (mark : Char) (s : Text) :
    (readQuoted mark s).source ++ (readQuoted mark s).rest = s := by
  fun_induction readQuoted mark s <;> simp_all [Reading.after]

theorem readToken_source_append (c : Char) (r : Text) :
    (readToken c r).source ++ (readToken c r).rest = c :: r := by
  unfold readToken
  repeat' split
  all_goals simp [readQuoted_source_append]

theorem readToken_source_ne_nil (c : Char) (r : Text) : (readToken c r).source ≠ [] := by
  unfold readToken
  repeat' split
  all_goals simp

theorem length_readToken_rest_lt (c : Char) (r : Text) :
    (readToken c r).rest.length < (c :: r).length := by
  have h := congrArg List.length (readToken_source_append c r)
  have hne := List.length_pos_iff.2 (readToken_source_ne_nil c r)
  rw [List.length_append] at h
  omega

/-! ### Reading all tokens -/

/-- The tokens of `s`, each with its place. -/
def lex (s : Text) : List Lexeme :=
  match _h : s.dropWhile isBlank with
  | [] => []
  | c :: r =>
    ⟨s.takeWhile isBlank, (readToken c r).source, (readToken c r).value⟩
      :: lex (readToken c r).rest
termination_by s.length
decreasing_by
  have h₁ := length_readToken_rest_lt c r
  have h₂ := (List.dropWhile_suffix isBlank (l := s)).length_le
  rw [_h] at h₂
  exact Nat.lt_of_lt_of_le h₁ h₂

/-- The text that `ls` was read from. -/
def sourceText (ls : List Lexeme) : Text := ls.flatMap fun l => l.gap ++ l.source

theorem lex_eq_nil {s : Text} (h : s.dropWhile isBlank = []) : lex s = [] := by
  rw [lex]
  split
  · rfl
  · next h' => simp [h] at h'

theorem lex_eq_cons {s : Text} {c : Char} {r : Text} (h : s.dropWhile isBlank = c :: r) :
    lex s = ⟨s.takeWhile isBlank, (readToken c r).source, (readToken c r).value⟩
      :: lex (readToken c r).rest := by
  rw [lex]
  split
  · next h' => simp [h] at h'
  · next h' =>
    rw [h] at h'
    cases h'
    rfl

@[simp] theorem sourceText_nil : sourceText [] = [] := rfl

@[simp] theorem sourceText_cons (l : Lexeme) (ls : List Lexeme) :
    sourceText (l :: ls) = l.gap ++ l.source ++ sourceText ls := rfl

/-- **Nothing is lost.** A text is what its lexemes were read from, followed
    by nothing but blanks. -/
theorem sourceText_lex (s : Text) :
    ∃ blanks, isBlankText blanks = true ∧ s = sourceText (lex s) ++ blanks := by
  cases h : s.dropWhile isBlank with
  | nil =>
    refine ⟨s, ?_, by simp [lex_eq_nil h]⟩
    exact Text.trimStart_eq_nil_iff.1 h
  | cons c r =>
    obtain ⟨blanks, hb, hs⟩ := sourceText_lex (readToken c r).rest
    refine ⟨blanks, hb, ?_⟩
    rw [lex_eq_cons h, sourceText_cons, List.append_assoc, List.append_assoc, ← hs,
      readToken_source_append, ← h]
    exact List.takeWhile_append_dropWhile.symm
termination_by s.length
decreasing_by
  have h₁ := length_readToken_rest_lt c r
  have h₂ := (List.dropWhile_suffix isBlank (l := s)).length_le
  rw [h] at h₂
  exact Nat.lt_of_lt_of_le h₁ h₂

end SchemaDiagram.Ddl
