import Mathlib.Data.List.TakeWhile
import SchemaDiagram.Ddl.Clause

/-! # Lexing — what a text that has been written token by token is read as

    A lexeme is legible before a text if it is read back when that text
    stands behind it.  What follows can matter only to words and to quoted
    text: a word ends where no word character follows, and a quoted text
    where its closing mark is not doubled.

      * `Lexeme.Legible`, `Legible`   — one lexeme, and several in a row
      * `lex_sourceText_append`       — legible lexemes are read back
      * `Spells`,
        `Spells.readQuoted_append`    — the texts that may stand between two
                                        marks are read back
      * `legible_word`,
        `legible_quotedName`, …       — which lexemes are legible
      * `lex_append_of_unquoted`      — a text without quotes is read the same
                                        whatever mark follows it -/

namespace SchemaDiagram.Ddl

open Text (isBlank isBlankText isAlphanumeric alphanumericRanges blankRanges inRanges foldCase
  equalsIgnoringCase equalsIgnoringCase_iff)

/-! ### Legible lexemes -/

/-- `l` is read from its own text when `rest` stands behind it. -/
def Lexeme.Legible (l : Lexeme) (rest : Text) : Prop :=
  isBlankText l.gap = true ∧
    ∃ c r, l.source = c :: r ∧ isBlank c = false ∧
      readToken c (r ++ rest) = ⟨l.token, l.source, rest⟩

/-- Each of the lexemes is legible before the text of those that follow it,
    with `rest` at the end. -/
def Legible : List Lexeme → Text → Prop
  | [], _ => True
  | l :: ls, rest => l.Legible (sourceText ls ++ rest) ∧ Legible ls rest

theorem sourceText_append (ls ms : List Lexeme) :
    sourceText (ls ++ ms) = sourceText ls ++ sourceText ms := List.flatMap_append

theorem legible_append {ls ms : List Lexeme} {rest : Text} :
    Legible (ls ++ ms) rest ↔ Legible ls (sourceText ms ++ rest) ∧ Legible ms rest := by
  induction ls with
  | nil => simp [Legible]
  | cons l ls ih =>
    simp only [List.cons_append, Legible, ih, sourceText_append, List.append_assoc]
    rw [and_assoc]

/-- Lexemes are read from some text. -/
theorem sourceText_ne_nil {ls : List Lexeme} {rest : Text} (h : Legible ls rest) (hne : ls ≠ []) :
    sourceText ls ≠ [] := by
  obtain ⟨l, ls, rfl⟩ := List.exists_cons_of_ne_nil hne
  obtain ⟨-, c, r, hsource, -⟩ := h.1
  simp [hsource]

/-- A legible lexeme is the first that is read. -/
theorem lex_of_legible {l : Lexeme} {rest : Text} (h : l.Legible rest) :
    lex (l.gap ++ l.source ++ rest) = l :: lex rest := by
  obtain ⟨hgap, c, r, hsource, hc, hread⟩ := h
  -- the gap ends where the source starts, for that is no blank
  have hblank : ∀ b ∈ l.gap, isBlank b = true := List.all_eq_true.1 hgap
  have hdrop : (l.gap ++ l.source ++ rest).dropWhile isBlank = c :: (r ++ rest) := by
    rw [List.append_assoc, List.dropWhile_append_of_pos hblank, hsource, List.cons_append,
      List.dropWhile_cons_of_neg (by simp [hc])]
  have htake : (l.gap ++ l.source ++ rest).takeWhile isBlank = l.gap := by
    rw [List.append_assoc, List.takeWhile_append_of_pos hblank, hsource, List.cons_append,
      List.takeWhile_cons_of_neg (by simp [hc]), List.append_nil]
  rw [lex_eq_cons hdrop, htake, hread]

/-- **Legible lexemes are read back**, and then what stands behind them. -/
theorem lex_sourceText_append {ls : List Lexeme} {rest : Text} (h : Legible ls rest) :
    lex (sourceText ls ++ rest) = ls ++ lex rest := by
  induction ls with
  | nil => rfl
  | cons l ls ih =>
    rw [sourceText_cons, List.append_assoc, lex_of_legible h.1, ih h.2, List.cons_append]

theorem lex_sourceText {ls : List Lexeme} (h : Legible ls []) : lex (sourceText ls) = ls := by
  have hread := lex_sourceText_append h
  have hnil : lex [] = [] := lex_eq_nil rfl
  rwa [List.append_nil, hnil, List.append_nil] at hread

/-! ### Words -/

/-- The blanks above U+0020 and the alphanumeric characters above U+007F lie in
    different ranges. -/
theorem blankRanges_disjoint :
    blankRanges.all (fun blank => alphanumericRanges.all fun range =>
      blank.2 < range.1 || range.2 < blank.1) = true := by
  decide +kernel

/-- ASCII letters and digits lie above the ASCII blanks. -/
theorem toNat_ge_of_isAlphanum {c : Char} (h : c.isAlphanum = true) : 48 ≤ c.toNat := by
  delta Char.isAlphanum Char.isAlpha Char.isUpper Char.isLower Char.isDigit at h
  simp only [Bool.or_eq_true, Bool.and_eq_true, decide_eq_true_eq, ge_iff_le,
    UInt32.le_iff_toNat_le] at h
  rcases h with (⟨h, _⟩ | ⟨h, _⟩) | ⟨h, _⟩ <;> simp at h <;> omega

/-- **Word characters are no blanks.** -/
theorem isBlank_of_isWordChar {c : Char} (h : isWordChar c = true) : isBlank c = false := by
  rw [isWordChar, Bool.or_eq_true, Bool.or_eq_true, beq_iff_eq, beq_iff_eq] at h
  rcases h with (h | rfl) | rfl
  · rw [Bool.eq_false_iff]
    intro hblank
    rw [isAlphanumeric] at h
    split at h
    · next hascii =>
      -- below U+0080 the blanks come before all letters and digits
      have hlow := toNat_ge_of_isAlphanum h
      simp [isBlank, inRanges, blankRanges] at hblank
      omega
    · -- from there on the two tables have no range in common
      obtain ⟨blank, hmem, hin⟩ := List.any_eq_true.1 hblank
      obtain ⟨range, hrange, hin'⟩ := List.any_eq_true.1 h
      have hapart :=
        List.all_eq_true.1 (List.all_eq_true.1 blankRanges_disjoint blank hmem) range hrange
      simp only [Bool.and_eq_true, Bool.or_eq_true, decide_eq_true_eq] at hin hin' hapart
      omega
  · decide
  · decide

/-- The characters that start something else than a word. -/
theorem ne_of_isWordChar {c d : Char} (h : isWordChar c = true) (hd : isWordChar d = false) :
    c ≠ d := by
  rintro rfl
  rw [h] at hd
  exact Bool.noConfusion hd

theorem readToken_word {c : Char} (r : Text) (hc : isWordChar c = true) :
    readToken c r =
      ⟨.word (c :: r.takeWhile isWordChar), c :: r.takeWhile isWordChar,
        r.dropWhile isWordChar⟩ := by
  -- `c` is none of the marks that are tried before words
  have hopen : c ≠ '(' := ne_of_isWordChar hc (by decide)
  have hclose : c ≠ ')' := ne_of_isWordChar hc (by decide)
  have hcomma : c ≠ ',' := ne_of_isWordChar hc (by decide)
  have hdot : c ≠ '.' := ne_of_isWordChar hc (by decide)
  have hback : c ≠ '\x60' := ne_of_isWordChar hc (by decide)
  have hdouble : c ≠ '\x22' := ne_of_isWordChar hc (by decide)
  have hsingle : c ≠ '\x27' := ne_of_isWordChar hc (by decide)
  simp [readToken, hc, hopen, hclose, hcomma, hdot, hback, hdouble, hsingle]

section Stop

variable {p : Char → Bool} {rest : Text} (hrest : ∀ c ∈ rest.head?, p c = false) (r : Text)
include hrest

theorem takeWhile_append_of_head? : (r ++ rest).takeWhile p = r.takeWhile p := by
  induction r with
  | nil =>
    cases rest with
    | nil => rfl
    | cons d rest => exact List.takeWhile_cons_of_neg (by simp [hrest d rfl])
  | cons c r ih => rw [List.cons_append, List.takeWhile_cons, List.takeWhile_cons, ih]

theorem dropWhile_append_of_head? : (r ++ rest).dropWhile p = r.dropWhile p ++ rest := by
  induction r with
  | nil =>
    cases rest with
    | nil => rfl
    | cons d rest => exact List.dropWhile_cons_of_neg (by simp [hrest d rfl])
  | cons c r ih =>
    rw [List.cons_append, List.dropWhile_cons, List.dropWhile_cons, ih]
    split <;> rfl

end Stop

/-- A word is legible where no word character follows. -/
theorem legible_word {gap word rest : Text} (hgap : isBlankText gap = true) (hne : word ≠ [])
    (hword : ∀ c ∈ word, isWordChar c = true) (hrest : ∀ c ∈ rest.head?, isWordChar c = false) :
    Lexeme.Legible ⟨gap, word, .word word⟩ rest := by
  obtain ⟨c, r, rfl⟩ := List.exists_cons_of_ne_nil hne
  obtain ⟨hc, hr⟩ := List.forall_mem_cons.1 hword
  refine ⟨hgap, c, r, rfl, isBlank_of_isWordChar hc, ?_⟩
  have htake : r.takeWhile isWordChar = r := List.takeWhile_eq_self_iff.2 hr
  have hdrop : r.dropWhile isWordChar = [] := List.dropWhile_eq_nil_iff.2 hr
  rw [readToken_word _ hc, takeWhile_append_of_head? hrest, dropWhile_append_of_head? hrest,
    htake, hdrop, List.nil_append]

/-! ### Quoted text -/

/-- `s` stands for `w` between two of `mark`.  A character stands for itself,
    but a mark has another mark or a backslash in front, and a backslash has a
    backslash in front.  So may have every other character. -/
inductive Spells (mark : Char) : Text → Text → Prop
  | nil : Spells mark [] []
  | plain {s w : Text} {c : Char} (hmark : c ≠ mark) (hescape : c ≠ '\\') (h : Spells mark s w) :
      Spells mark (c :: s) (c :: w)
  | doubled {s w : Text} (h : Spells mark s w) : Spells mark (mark :: mark :: s) (mark :: w)
  | escaped {s w : Text} (hmark : mark ≠ '\\') (c : Char) (h : Spells mark s w) :
      Spells mark ('\\' :: c :: s) (c :: w)

/-- Text without the mark and without backslashes stands for itself. -/
theorem spells_self {mark : Char} {w : Text} (h : ∀ c ∈ w, c ≠ mark ∧ c ≠ '\\') :
    Spells mark w w := by
  induction w with
  | nil => exact .nil
  | cons c r ih =>
    obtain ⟨⟨hmark, hescape⟩, hr⟩ := List.forall_mem_cons.1 h
    exact .plain hmark hescape (ih hr)

/-- **What stands between two marks is read as what it stands for**, where the
    closing mark is not doubled. -/
theorem Spells.readQuoted_append {mark : Char} {s w rest : Text} (h : Spells mark s w)
    (hrest : ∀ c ∈ rest.head?, c ≠ mark) :
    readQuoted mark (s ++ mark :: rest) = ⟨w, s ++ [mark], rest⟩ := by
  induction h with
  | nil =>
    cases rest with
    | nil => simp [readQuoted]
    | cons d rest =>
      -- what follows the closing mark does not double it
      have hd : d ≠ mark := hrest d rfl
      simp [readQuoted, hd]
  | plain hmark hescape _ ih =>
    rw [List.cons_append, readQuoted.eq_def]
    simp only [if_neg hmark, if_neg hescape, ih]
    rfl
  | doubled _ ih => simp [readQuoted, ih, Reading.after]
  | escaped hmark c _ ih => simp [readQuoted, hmark.symm, ih, Reading.after]

/-! ### Quoted names -/

/-- A name in quotes is legible where its closing mark is not doubled. -/
theorem legible_quotedName {mark : Char} {gap name rest : Text}
    (hmark : mark = '\x60' ∨ mark = '\x22') (hgap : isBlankText gap = true)
    (hname : ∀ c ∈ name, c ≠ mark ∧ c ≠ '\\') (hrest : ∀ c ∈ rest.head?, c ≠ mark) :
    Lexeme.Legible ⟨gap, mark :: (name ++ [mark]), .quotedName name⟩ rest := by
  refine ⟨hgap, mark, name ++ [mark], rfl, ?_, ?_⟩
  · rcases hmark with rfl | rfl <;> decide
  · have hread := (spells_self hname).readQuoted_append hrest
    rw [List.append_assoc, List.singleton_append]
    rcases hmark with rfl | rfl <;> simp [readToken, hread]

/-! ### Marks -/

section Marks

variable {gap : Text} (hgap : isBlankText gap = true) (rest : Text)
include hgap

theorem legible_openParen : Lexeme.Legible ⟨gap, ['('], .openParen⟩ rest :=
  ⟨hgap, '(', [], rfl, by decide, rfl⟩

theorem legible_closeParen : Lexeme.Legible ⟨gap, [')'], .closeParen⟩ rest :=
  ⟨hgap, ')', [], rfl, by decide, rfl⟩

theorem legible_comma : Lexeme.Legible ⟨gap, [','], .comma⟩ rest :=
  ⟨hgap, ',', [], rfl, by decide, rfl⟩

theorem legible_dot : Lexeme.Legible ⟨gap, ['.'], .dot⟩ rest :=
  ⟨hgap, '.', [], rfl, by decide, rfl⟩

end Marks

/-! ### Texts without quotes -/

/-- A character that starts neither a word nor quoted text is a token of its
    own. -/
theorem readToken_mark {c : Char} (hword : isWordChar c = false) (hquote : isQuote c = false) :
    ∃ token, ∀ r, readToken c r = ⟨token, [c], r⟩ := by
  simp only [isQuote, Bool.or_eq_false_iff, beq_eq_false_iff_ne] at hquote
  obtain ⟨⟨hsingle, hdouble⟩, hback⟩ := hquote
  refine ⟨(readToken c []).value, fun r => ?_⟩
  simp only [readToken, hword, hsingle, hdouble, hback]
  repeat' split
  all_goals simp_all

/-- A token that is no quoted text ends before anything but a word
    character. -/
theorem readToken_append {c : Char} {r t : Text} (hc : isQuote c = false)
    (ht : ∀ d ∈ t.head?, isWordChar d = false) :
    readToken c (r ++ t) = { readToken c r with rest := (readToken c r).rest ++ t } := by
  cases hword : isWordChar c with
  | true =>
    rw [readToken_word _ hword, readToken_word _ hword, takeWhile_append_of_head? ht,
      dropWhile_append_of_head? ht]
  | false =>
    obtain ⟨token, hread⟩ := readToken_mark hword hc
    rw [hread, hread]

/-- **A text without quotes is read the same whatever mark follows it.** The
    blanks at its end become the gap in front of what follows. -/
theorem lex_append_of_unquoted {s t : Text} (hs : ∀ c ∈ s, isQuote c = false)
    (ht : ∀ d ∈ t.head?, isWordChar d = false) :
    ∃ blanks, isBlankText blanks = true ∧ lex (s ++ t) = lex s ++ lex (blanks ++ t) := by
  fun_induction lex s with
  | case1 s h => exact ⟨s, Text.trimStart_eq_nil_iff.1 h, (List.nil_append _).symm⟩
  | case2 s c r h ih =>
    have hsuffix : c :: r <:+ s := h ▸ List.dropWhile_suffix isBlank
    have hc : isQuote c = false := hs c (hsuffix.subset (by simp))
    -- the first token ends where it did before, and what is left has no quotes either
    have hrest : ∀ d ∈ (readToken c r).rest, isQuote d = false := by
      intro d hd
      refine hs d (hsuffix.subset ?_)
      rw [← readToken_source_append c r]
      exact List.mem_append_right _ hd
    obtain ⟨blanks, hb, hlex⟩ := ih hrest
    refine ⟨blanks, hb, ?_⟩
    have hemp : (s.dropWhile isBlank).isEmpty = false := by rw [h]; rfl
    have hdrop : (s ++ t).dropWhile isBlank = c :: (r ++ t) := by
      rw [List.dropWhile_append, hemp, if_neg Bool.false_ne_true, h, List.cons_append]
    have htake : (s ++ t).takeWhile isBlank = s.takeWhile isBlank := by
      have hlen : ¬ (s.takeWhile isBlank).length = s.length := by
        have hsplit := congrArg List.length
          (List.takeWhile_append_dropWhile (p := isBlank) (l := s))
        rw [h, List.length_append, List.length_cons] at hsplit
        omega
      rw [List.takeWhile_append, if_neg hlen]
    rw [lex_eq_cons hdrop, htake, readToken_append hc ht, hlex, List.cons_append]

/-! ### What was read -/

/-- A text that does not end in a blank is what its lexemes were read from. -/
theorem sourceText_lex_eq_self {s : Text} (h : ∀ c ∈ s.getLast?, isBlank c = false) :
    sourceText (lex s) = s := by
  obtain ⟨blanks, hblanks, hs⟩ := sourceText_lex s
  have hnil : blanks = [] := by
    cases hb : blanks.getLast? with
    | none => exact List.getLast?_eq_none_iff.1 hb
    | some c =>
      -- blanks behind the last lexeme would be the end of the text
      have hlast : s.getLast? = some c := by
        rw [hs, List.getLast?_append, hb]
        rfl
      have hblank := List.all_eq_true.1 hblanks c (List.mem_of_getLast? hb)
      rw [h c hlast] at hblank
      exact Bool.noConfusion hblank
  rw [hnil, List.append_nil] at hs
  exact hs.symm

theorem source_subset_of_mem_lex {s : Text} {l : Lexeme} (h : l ∈ lex s) : l.source ⊆ s := by
  obtain ⟨blanks, _, hs⟩ := sourceText_lex s
  intro c hc
  rw [hs]
  refine List.mem_append_left _ (List.mem_flatMap.2 ⟨l, h, ?_⟩)
  exact List.mem_append_right _ hc

/-- A word is read from itself. -/
theorem source_readToken_of_word {c : Char} {r word : Text}
    (h : (readToken c r).value = .word word) : (readToken c r).source = word := by
  unfold readToken at h ⊢
  repeat' split at h
  all_goals simp_all

theorem source_of_word_mem_lex {s word : Text} {l : Lexeme} (h : l ∈ lex s)
    (hword : l.token = .word word) : l.source = word := by
  fun_induction lex s with
  | case1 s hnil => cases h
  | case2 s c r hcons ih =>
    rcases List.mem_cons.1 h with rfl | h
    · exact source_readToken_of_word hword
    · exact ih h

/-- One word is another up to the case of letters. -/
theorem isWord_congr {word : Text} {l : Lexeme} (h : l.isWord word = true) (other : Text) :
    l.isWord other = equalsIgnoringCase word other := by
  unfold Lexeme.isWord at h ⊢
  split at h
  · rw [equalsIgnoringCase, equalsIgnoringCase, equalsIgnoringCase_iff.1 h]
  · cases h

/-- A keyword is read only from a text that has all its letters. -/
theorem foldCase_subset_of_isWord {s keyword : Text} {l : Lexeme} (h : l ∈ lex s)
    (hword : l.isWord keyword = true) : foldCase keyword ⊆ foldCase s := by
  unfold Lexeme.isWord at hword
  split at hword
  · next word htoken =>
    -- a word is its own source, and so lies in the text
    have hsource := source_subset_of_mem_lex h
    rw [source_of_word_mem_lex h htoken] at hsource
    rw [← equalsIgnoringCase_iff.1 hword]
    exact List.map_subset _ hsource
  · cases hword

end SchemaDiagram.Ddl
