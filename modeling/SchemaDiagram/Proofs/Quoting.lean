import SchemaDiagram.Proofs.Tokenizing

/-! # Quoting — texts that are written between marks and read back

    A text that is to stand between two marks may hold the mark itself and
    backslashes.  Each of these is hidden by a character in front of it: by a
    second one of its kind, or by a backslash.  The tokenizer takes that
    character away again, and what stands behind the closing mark is read as
    if it stood alone.

      * `Spells.legible`        — a quoted text is a token
      * `readQuoted_spells`     — a quoted text that is closed is a spelling of
                                  what it is read as
      * `Escape`                — the two ways of hiding
      * `Escape.quote`          — a text between marks
      * `Escape.lex_quote`      — quoting is undone -/

namespace SchemaDiagram.Ddl

open Text (isBlankText)

/-! ### Quoted texts as tokens -/

/-- A quoted text is legible where its closing mark is not doubled. -/
theorem Spells.legible {mark : Char} {gap s w rest : Text} (h : Spells mark s w)
    (hmark : isQuote mark = true) (hgap : isBlankText gap = true)
    (hrest : ∀ c ∈ rest.head?, c ≠ mark) :
    Lexeme.Legible ⟨gap, mark :: (s ++ [mark]), quotedToken mark w⟩ rest := by
  refine ⟨hgap, mark, s ++ [mark], rfl, ?_, ?_⟩
  · rw [Bool.eq_false_iff]
    intro hblank
    rw [isQuote_of_isBlank hblank] at hmark
    cases hmark
  · rw [readToken_quote hmark, List.append_assoc, List.singleton_append, h.readQuoted_append hrest]

theorem ne_backslash_of_isQuote {mark : Char} (h : isQuote mark = true) : mark ≠ '\\' := by
  rintro rfl
  cases h

/-- **A quoted text that is closed is a spelling of what it is read as.** There
    is nothing behind one that is never closed. -/
theorem readQuoted_spells {mark : Char} (hmark : isQuote mark = true) (s : Text) :
    (readQuoted mark s).rest = [] ∨
      ∃ t, (readQuoted mark s).source = t ++ [mark] ∧ Spells mark t (readQuoted mark s).value := by
  fun_induction readQuoted mark s with
  | case1 => exact Or.inl rfl
  | case2 r ih =>
    refine ih.imp_right ?_
    rintro ⟨t, hsource, hspells⟩
    exact ⟨mark :: mark :: t, by simp [Reading.after, hsource], .doubled hspells⟩
  | case3 d r hd => exact Or.inr ⟨[], rfl, .nil⟩
  | case4 => exact Or.inl rfl
  | case5 d r hne ih =>
    refine ih.imp_right ?_
    rintro ⟨t, hsource, hspells⟩
    exact ⟨'\\' :: d :: t, by simp [Reading.after, hsource],
      .escaped (ne_backslash_of_isQuote hmark) d hspells⟩
  | case6 => exact Or.inl rfl
  | case7 c r hc hescape ih =>
    refine ih.imp_right ?_
    rintro ⟨t, hsource, hspells⟩
    exact ⟨c :: t, by simp [Reading.after, hsource], .plain hc hescape hspells⟩

/-! ### Hiding marks and backslashes -/

/-- What is put in front of a mark or a backslash to hide it. -/
inductive Escape where
  /-- a second one of its kind -/
  | doubling
  /-- a backslash -/
  | backslash
  deriving DecidableEq, Repr

namespace Escape

variable (e : Escape)

/-- The character that hides `c`. -/
def sign (c : Char) : Char :=
  match e with
  | doubling => c
  | backslash => '\\'

/-- `w` as it is written between two of `mark`. -/
def spell (mark : Char) (w : Text) : Text :=
  w.flatMap fun c => if c = mark ∨ c = '\\' then [e.sign c, c] else [c]

/-- `w` between two of `mark`. -/
def quote (mark : Char) (w : Text) : Text := mark :: (e.spell mark w ++ [mark])

theorem spell_cons (mark c : Char) (r : Text) :
    e.spell mark (c :: r) =
      (if c = mark ∨ c = '\\' then [e.sign c, c] else [c]) ++ e.spell mark r := rfl

/-- **What is written between the marks stands for the text**, in both ways. -/
theorem spells_spell {mark : Char} (hmark : mark ≠ '\\') (w : Text) :
    Spells mark (e.spell mark w) w := by
  induction w with
  | nil => exact .nil
  | cons c r ih =>
    rw [spell_cons]
    split
    · next hhidden =>
      cases e with
      | backslash => exact .escaped hmark c ih
      | doubling =>
        -- a second backslash is a backslash in front as well
        rcases hhidden with rfl | rfl
        · exact .doubled ih
        · exact .escaped hmark '\\' ih
    · next hplain =>
      obtain ⟨hc, hescape⟩ := not_or.1 hplain
      exact .plain hc hescape ih

/-- **Reading undoes quoting.**  A text in quotes, its marks and backslashes
    hidden in either way, is read as one token that holds the text itself.
    The tokens behind it are those of the text behind it. -/
theorem lex_quote {mark : Char} (hmark : isQuote mark = true) (w : Text) {rest : Text}
    (hrest : rest.head? ≠ some mark) :
    lex (e.quote mark w ++ rest) = ⟨[], e.quote mark w, quotedToken mark w⟩ :: lex rest := by
  have hspells : Spells mark (e.spell mark w) w := e.spells_spell (ne_backslash_of_isQuote hmark) w
  have hclose : ∀ c ∈ rest.head?, c ≠ mark := fun c hc heq => hrest (heq ▸ hc)
  have hlegible : Lexeme.Legible ⟨[], e.quote mark w, quotedToken mark w⟩ rest :=
    hspells.legible hmark rfl hclose
  exact lex_of_legible hlegible

/-- Marks and backslashes at both ends, and another quoted text directly behind. -/
theorem lex_quote_ends :
    let w : Text := "'\\it's\\'"
    let rest : Text := "\"x\"'y'"
    isQuote '\x27' = true ∧ rest.head? ≠ some '\x27' ∧
      doubling.quote '\x27' w = ("'''\\\\it''s\\\\'''" : Text) ∧
      lex ("'''\\\\it''s\\\\'''\"x\"'y'" : Text) =
        ⟨[], "'''\\\\it''s\\\\'''", .literal w⟩ :: lex rest ∧
      backslash.quote '\x27' w = ("'\\'\\\\it\\'s\\\\\\''" : Text) ∧
      lex ("'\\'\\\\it\\'s\\\\\\''\"x\"'y'" : Text) =
        ⟨[], "'\\'\\\\it\\'s\\\\\\''", .literal w⟩ :: lex rest := by
  intro w rest
  have hmark : isQuote '\x27' = true := rfl
  have hrest : rest.head? ≠ some '\x27' := by decide
  exact ⟨hmark, hrest, rfl, doubling.lex_quote hmark w hrest, rfl,
    backslash.lex_quote hmark w hrest⟩

end Escape

end SchemaDiagram.Ddl
