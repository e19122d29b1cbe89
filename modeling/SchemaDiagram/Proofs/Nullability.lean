import Mathlib.Data.List.Infix
import SchemaDiagram.Proofs.Capitals
import SchemaDiagram.Proofs.ColumnGrammar
import SchemaDiagram.Proofs.Covering

/-! # Nullability — which columns admit NULL

    Whether a column admits NULL is read off the text of its definition, raised
    to capitals, and not off its tokens: the text must not hold NOT NULL, with
    one space between the words.  In terms of tokens, this text stands across
    the space between two words, or it lies within one quoted text.

      * `exists_word_of_suffix_upper`,
        `exists_word_of_prefix_upper`      — what ends or starts with a word in
                                             capitals has a word there
      * `WritesNotNull`                    — two words with NOT NULL across them
      * `Lexeme.QuotesNotNull`             — a quoted text with NOT NULL in it
      * `notNull_infix_iff`                — there is no third way
      * `nullable_eq_false_iff`            — which columns do not admit NULL -/

namespace SchemaDiagram.Ddl

open Text (trim upper contains_iff)

/-! ### Words at the ends of a text in capitals -/

section Words

variable {p : Text} (hp : ∀ c ∈ p, isWordChar c = true) (hne : p ≠ [])
include hp hne

/-- **A text that ends with a word in capitals** has a word for its last
    lexeme, which ends so. -/
theorem exists_word_of_suffix_upper {ls : List Lexeme} {rest : Text} (h : Legible ls rest)
    (hrest : rest ≠ []) (hsuffix : p <:+ upper (sourceText ls)) :
    ∃ front l w, ls = front ++ [l] ∧ l.token = .word w ∧ p <:+ upper w := by
  rcases List.eq_nil_or_concat ls with rfl | ⟨front, l, rfl⟩
  · exact absurd (List.suffix_nil.1 hsuffix) hne
  · rw [List.concat_eq_append] at h hsuffix ⊢
    obtain ⟨hfront, hl, -⟩ := legible_append.1 h
    have htext : sourceText (front ++ [l]) = sourceText front ++ l.gap ++ l.source := by
      simp [sourceText_append]
    rw [htext] at hsuffix
    by_cases hword : ∃ w, l.token = .word w
    · obtain ⟨w, htoken⟩ := hword
      obtain ⟨rfl, hwne, hchars, -⟩ := hl.word_of_token htoken
      rw [sourceText_cons, List.append_assoc, List.append_assoc] at hfront
      have hgap := isWordChar_getLast?_gap hfront hl.1 (by simp [hwne]) (by
        intro c hc
        rw [List.head?_append_of_ne_nil _ hwne] at hc
        exact hchars c (List.mem_of_mem_head? hc))
      exact ⟨front, l, l.source, rfl, htoken, suffix_upper_of_append hp (Or.inl hgap) hsuffix⟩
    · -- otherwise the text ends in no word character
      obtain ⟨c, hc, hnot⟩ := hl.getLast?_source hrest fun w htoken => hword ⟨w, htoken⟩
      refine absurd hsuffix (not_suffix_upper hp hne ⟨c, ?_, hnot⟩)
      rw [List.getLast?_append, hc]
      rfl

/-- **A text that starts with a word in capitals** has a word for its first
    lexeme, which starts so. -/
theorem exists_word_of_prefix_upper {l : Lexeme} {rest : Text} (h : l.Legible rest)
    (hstart : p <+: upper (l.source ++ rest)) : ∃ w, l.token = .word w ∧ p <+: upper w := by
  by_cases hhead : ∀ c ∈ l.source.head?, isWordChar c = true
  · have htoken := h.token_of_head? hhead
    obtain ⟨-, -, -, hend⟩ := h.word_of_token htoken
    exact ⟨l.source, htoken, prefix_upper_of_append hp (Or.inl hend) hstart⟩
  · -- otherwise the text starts with no word character
    obtain ⟨-, c, r, hsource, -⟩ := h
    rw [hsource] at hhead hstart
    exact absurd hstart (not_prefix_upper hp hne ⟨c, rfl, by simpa using hhead⟩)

end Words

/-! ### NOT NULL -/

/-- The words `l` and `m`, one space between them, have NOT NULL across them, in
    any letter case. -/
def WritesNotNull (l m : Lexeme) : Prop :=
  ∃ v w, l.token = .word v ∧ m.token = .word w ∧ m.gap = [' '] ∧
    ("NOT" : Text) <:+ upper v ∧ ("NULL" : Text) <+: upper w

/-- `l` is a quoted name or a literal with NOT NULL in it, in any letter
    case. -/
def Lexeme.QuotesNotNull (l : Lexeme) : Prop :=
  (∃ w, l.token = .quotedName w ∨ l.token = .literal w) ∧ ("NOT NULL" : Text) <:+: upper l.source

theorem isWordChar_of_mem_not : ∀ c ∈ ("NOT" : Text), isWordChar c = true :=
  List.all_eq_true.1 (by decide)

theorem isWordChar_of_mem_null : ∀ c ∈ ("NULL" : Text), isWordChar c = true :=
  List.all_eq_true.1 (by decide)

/-- NOT NULL stands in a text, in any letter case, where NOT stands in front of
    a space and NULL behind it. -/
theorem notNull_infix_upper_iff {s : Text} : ("NOT NULL" : Text) <:+: upper s ↔
    ∃ x y, s = x ++ ' ' :: y ∧ ("NOT" : Text) <:+ upper x ∧ ("NULL" : Text) <+: upper y := by
  constructor
  · rintro ⟨front, back, h⟩
    have hsplit : upper s = (front ++ "NOT".toList) ++ ' ' :: ("NULL".toList ++ back) := by
      rw [← h]
      simp
    obtain ⟨x, y, rfl, hx, hy⟩ := exists_split_of_upper hsplit
    exact ⟨x, y, rfl, ⟨front, hx.symm⟩, ⟨back, hy.symm⟩⟩
  · rintro ⟨x, y, rfl, ⟨front, hx⟩, ⟨back, hy⟩⟩
    refine ⟨front, back, ?_⟩
    rw [Text.upper_append, upper_cons, ← hx, ← hy]
    show _ = _ ++ ([' '] ++ _)
    simp

/-- A space between NOT and NULL that belongs to a lexeme belongs to a quoted
    text, and both words lie within it. -/
theorem Lexeme.Legible.quotesNotNull {l : Lexeme} {rest front x y : Text} (h : l.Legible rest)
    (hspace : l.source = x ++ ' ' :: y) (hx : ("NOT" : Text) <:+ upper (front ++ x))
    (hy : ("NULL" : Text) <+: upper (y ++ rest)) : l.QuotesNotNull := by
  have hmem : ' ' ∈ l.source := by
    rw [hspace]
    simp
  cases h.kind with
  | word hne hchars htoken hend => exact absurd (hchars ' ' hmem) (by decide)
  | mark c hblank hnot hquote hsource htoken =>
    rw [hsource, List.mem_singleton] at hmem
    rw [← hmem] at hblank
    exact absurd hblank (by decide)
  | quoted mark s hmark hsource htoken hend =>
    have hnot := isWordChar_of_isQuote hmark
    have hne : ' ' ≠ mark := by
      rintro rfl
      cases hmark
    -- NOT does not start in front of the mark that opens the text
    have hopen : x.head? = some mark := by
      cases x with
      | nil => exact absurd (List.cons.inj (hspace.symm.trans hsource)).1 hne
      | cons d x => exact congrArg some (List.cons.inj (hspace.symm.trans hsource)).1
    have hfront := suffix_upper_of_append isWordChar_of_mem_not (Or.inr ⟨mark, hopen, hnot⟩) hx
    -- and NULL does not end behind the one that closes it
    have hclose : (∀ c ∈ rest.head?, isWordChar c = false) ∨ ∃ c ∈ y.getLast?, isWordChar c = false := by
      by_cases hrest : rest = []
      · exact Or.inl (by simp [hrest])
      · right
        refine ⟨mark, ?_, hnot⟩
        have hlast : l.source.getLast? = some mark := by
          rw [hsource, List.getLast?_cons, getLast?_readQuoted hmark (hend ▸ hrest)]
          rfl
        rw [hspace, List.getLast?_append, List.getLast?_cons] at hlast
        cases hc : y.getLast? with
        | none =>
          rw [hc] at hlast
          exact absurd (Option.some.inj hlast) hne
        | some c =>
          rw [hc] at hlast
          exact hlast
    have hback := prefix_upper_of_append isWordChar_of_mem_null hclose hy
    refine ⟨⟨(readQuoted mark s).value, ?_⟩, notNull_infix_upper_iff.2 ⟨x, y, hspace, hfront, hback⟩⟩
    rw [htoken, quotedToken]
    split <;> simp

/-- A space between NOT and NULL that belongs to a gap is the whole gap, with
    the two words on its sides. -/
theorem exists_writesNotNull {before after : List Lexeme} {l : Lexeme} {x y : Text}
    (h : Legible (before ++ l :: after) []) (hspace : l.gap = x ++ ' ' :: y)
    (hx : ("NOT" : Text) <:+ upper (sourceText before ++ x))
    (hy : ("NULL" : Text) <+: upper (y ++ (l.source ++ sourceText after))) :
    ∃ front k, before = front ++ [k] ∧ WritesNotNull k l := by
  obtain ⟨hbefore, hl, -⟩ := legible_append.1 h
  rw [List.append_nil] at hbefore hl
  have hgap : ∀ c ∈ l.gap, isWordChar c = false := fun c hc =>
    isWordChar_of_isBlank (List.all_eq_true.1 hl.1 c hc)
  rw [hspace] at hgap
  -- no blank stands in front of the space or behind it
  have hxnil : x = [] := by
    cases hlast : x.getLast? with
    | none => exact List.getLast?_eq_none_iff.1 hlast
    | some c =>
      have hc : isWordChar c = false := hgap c (List.mem_append_left _ (List.mem_of_getLast? hlast))
      refine absurd hx (not_suffix_upper isWordChar_of_mem_not (by decide) ⟨c, ?_, hc⟩)
      rw [List.getLast?_append, hlast]
      rfl
  have hynil : y = [] := by
    cases y with
    | nil => rfl
    | cons c y =>
      have hc : isWordChar c = false := hgap c (by simp)
      exact absurd hy (not_prefix_upper isWordChar_of_mem_null (by decide) ⟨c, rfl, hc⟩)
  subst hxnil hynil
  rw [List.append_nil] at hx
  obtain ⟨front, k, v, rfl, hv, hnot⟩ := exists_word_of_suffix_upper isWordChar_of_mem_not
    (by decide) hbefore (sourceText_ne_nil (legible_append.1 h).2 (List.cons_ne_nil l after)) hx
  obtain ⟨w, hw, hnull⟩ := exists_word_of_prefix_upper isWordChar_of_mem_null (by decide) hl hy
  exact ⟨front, k, rfl, v, w, hv, hw, hspace, hnot, hnull⟩

/-- **NOT NULL stands across two words or in a quoted text**; there is no third
    way for a text to hold it. -/
theorem notNull_infix_iff {ls : List Lexeme} (h : Legible ls []) :
    ("NOT NULL" : Text) <:+: upper (sourceText ls) ↔
      (∃ l m, [l, m] <:+: ls ∧ WritesNotNull l m) ∨ ∃ l ∈ ls, l.QuotesNotNull := by
  constructor
  · intro hin
    obtain ⟨x, y, hsplit, hx, hy⟩ := notNull_infix_upper_iff.1 hin
    obtain ⟨before, l, after, u, v, rfl, hl, rfl, rfl⟩ := exists_of_flatMap_eq_append_cons hsplit
    obtain ⟨-, hlegible, -⟩ := legible_append.1 h
    rw [List.append_nil] at hlegible
    rcases List.append_eq_append_iff.1 hl with ⟨s, rfl, hsource⟩ | ⟨g, hgap, hrest⟩
    · right
      rw [← List.append_assoc] at hx
      exact ⟨l, by simp, hlegible.quotesNotNull hsource hx hy⟩
    · left
      cases g with
      | nil =>
        -- a lexeme does not start with a space
        obtain ⟨-, c, r, hsource, hc, -⟩ := hlegible
        rw [hsource] at hrest
        obtain ⟨rfl, -⟩ := List.cons.inj hrest
        exact absurd hc (by decide)
      | cons c g =>
        obtain rfl : ' ' = c := (List.cons.inj hrest).1
        obtain rfl : v = g ++ l.source := (List.cons.inj hrest).2
        rw [List.append_assoc] at hy
        obtain ⟨front, k, rfl, hwrites⟩ := exists_writesNotNull h hgap hx hy
        exact ⟨k, l, ⟨front, after, by simp⟩, hwrites⟩
  · rintro (⟨l, m, ⟨before, after, rfl⟩, v, w, hv, hw, hgap, hnot, hnull⟩ | ⟨l, hl, -, hin⟩)
    · rw [List.append_assoc] at h ⊢
      obtain ⟨-, hl, hm, -⟩ := legible_append.1 h
      obtain ⟨rfl, -⟩ := hl.word_of_token hv
      obtain ⟨rfl, -⟩ := hm.word_of_token hw
      refine notNull_infix_upper_iff.2 ⟨sourceText before ++ l.gap ++ l.source,
        m.source ++ sourceText after, by simp [sourceText_append, hgap], ?_, ?_⟩
      · rw [Text.upper_append]
        exact hnot.trans (List.suffix_append _ _)
      · rw [Text.upper_append]
        exact hnull.trans (List.prefix_append _ _)
    · obtain ⟨before, after, rfl⟩ := List.append_of_mem hl
      have hsource : l.source <:+: sourceText (before ++ l :: after) :=
        ⟨sourceText before ++ l.gap, sourceText after, by simp [sourceText_append]⟩
      exact hin.trans (List.IsInfix.flatMap hsource Text.capital)

/-! ### Columns -/

/-- **Which columns do not admit NULL**: those in whose definition two words
    have NOT NULL across them, one space between, or a quoted text has it in
    it. -/
theorem nullable_eq_false_iff {text : Text} {d : ColumnDefinition} (h : classify text = .column d) :
    d.column.nullable = false ↔
      (∃ l m, [l, m] <:+: lex (trim text) ∧ WritesNotNull l m) ∨
        ∃ l ∈ lex (trim text), l.QuotesNotNull := by
  obtain ⟨first, second, rest, hlex, hdefines⟩ := ((classify_eq_column_iff text).2 d).1 h
  have hlegible := legible_lex_nil (Text.trimmed_trim text).2
  rw [hlex] at hlegible ⊢
  rw [hdefines.nullable, admitsNull, Bool.not_eq_false', contains_iff]
  exact notNull_infix_iff hlegible

/-- The two words may be longer than the keywords. -/
theorem nullable_eq_false_longer_words :
    let text : Text := "rope INT COLLATE knot nullsafe"
    let d : ColumnDefinition := ⟨⟨"rope", "INT", false⟩, false, none⟩
    classify text = .column d ∧
      ((∃ l m, [l, m] <:+: lex (trim text) ∧ WritesNotNull l m) ∨
        ∃ l ∈ lex (trim text), l.QuotesNotNull) := by
  intro text d
  have hcolumn : classify text = .column d := by decide +kernel
  exact ⟨hcolumn, (nullable_eq_false_iff hcolumn).1 rfl⟩

/-- The keywords NOT and NULL stand side by side in `ls`. -/
def HasNotNull (ls : List Lexeme) : Prop :=
  ∃ l m, [l, m] <:+: ls ∧ l.isWord "NOT" = true ∧ m.isWord "NULL" = true

/-- So two spaces between the keywords hide them, and a literal is taken for
    them. -/
theorem nullable_ne_keywords :
    (∃ d, classify "id INT NOT  NULL".toList = .column d ∧ d.column.nullable = true ∧
        HasNotNull (lex (trim "id INT NOT  NULL".toList)).tail) ∧
      ∃ d, classify "id INT COMMENT 'NOT NULL'".toList = .column d ∧ d.column.nullable = false ∧
        ¬ HasNotNull (lex (trim "id INT COMMENT 'NOT NULL'".toList)).tail := by
  constructor
  · refine ⟨⟨⟨"id", "INT", true⟩, false, none⟩, by decide +kernel, rfl, ?_⟩
    exact ⟨⟨[' '], "NOT", .word "NOT"⟩, ⟨[' ', ' '], "NULL", .word "NULL"⟩,
      ⟨[⟨[' '], "INT", .word "INT"⟩], [], by decide +kernel⟩, by decide, by decide⟩
  · refine ⟨⟨⟨"id", "INT", false⟩, false, none⟩, by decide +kernel, rfl, ?_⟩
    rintro ⟨l, m, hin, hl, -⟩
    have hnone : ∀ l ∈ (lex (trim "id INT COMMENT 'NOT NULL'".toList)).tail,
        l.isWord "NOT" = false := by decide +kernel
    rw [hnone l (hin.subset List.mem_cons_self)] at hl
    cases hl

end SchemaDiagram.Ddl
