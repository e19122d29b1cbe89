import Mathlib.Data.List.Basic
import SchemaDiagram.Proofs.ByteOrder
import SchemaDiagram.Proofs.ClauseGrammar
import SchemaDiagram.Proofs.Quoting

/-! # Covering — where the tokens of a text stand in it

    The tokenizer goes through a text once.  Each token takes the characters
    of its source, and nothing but blanks stands between two of them.  So a
    token has a place, from one byte of the text up to another, and what lies
    between two places can be cut out of the text.

      * `Text.slice?`            — the part of a text between two bytes
      * `IsWordRun`              — a run of word characters that does not go on
      * `isWordRun_of_legible`   — a word is such a run
      * `Lexeme.Legible.alone`   — a token is read from its source alone
      * `Lexeme.span`            — the place of a token
      * `Covers`                 — what tokens have to do with a text
      * `covers_of_legible`      — legible lexemes cover their text
      * `covers_lex`             — the tokens of every text cover it -/

namespace SchemaDiagram

/-! ### Parts of a text by their bytes -/

namespace Text

/-- How many bytes `s` takes in UTF-8. -/
def byteLength (s : Text) : Nat := (utf8 s).length

@[simp] theorem byteLength_nil : byteLength [] = 0 := rfl

@[simp] theorem byteLength_cons (c : Char) (r : Text) :
    byteLength (c :: r) = c.utf8Size + byteLength r := by
  rw [byteLength, utf8, List.flatMap_cons, List.length_append, String.length_utf8EncodeChar]
  rfl

@[simp] theorem byteLength_append (s t : Text) :
    byteLength (s ++ t) = byteLength s + byteLength t := by
  rw [byteLength, utf8, List.flatMap_append, List.length_append]
  rfl

theorem byteLength_pos {s : Text} (h : s ≠ []) : 0 < byteLength s := by
  obtain ⟨c, r, rfl⟩ := List.exists_cons_of_ne_nil h
  rw [byteLength_cons]
  exact Nat.add_pos_left c.utf8Size_pos _

theorem byteLength_eq_zero_iff {s : Text} : byteLength s = 0 ↔ s = [] := by
  cases s with
  | nil => simp
  | cons c r => simp [c.utf8Size_pos.ne']

/-- The text in front of the byte `n` and the text from there on, if a
    character starts or the text ends at that byte. -/
def cutAt? : (n : Nat) → Text → Option (Text × Text)
  | 0, s => some ([], s)
  | _ + 1, [] => none
  | n + 1, c :: r =>
    if c.utf8Size ≤ n + 1 then
      (cutAt? (n + 1 - c.utf8Size) r).map fun (before, after) => (c :: before, after)
    else none

/-- The part of `s` from the byte `start` up to the byte `stop`, if both are
    ends of characters, in this order. -/
def slice? (s : Text) (start stop : Nat) : Option Text := do
  let (front, _) ← cutAt? stop s
  let (_, part) ← cutAt? start front
  some part

/-- **What a cut means**: the two sides make up the text, and the first has that
    many bytes. -/
theorem cutAt?_eq_some_iff {n : Nat} {s before after : Text} :
    cutAt? n s = some (before, after) ↔ s = before ++ after ∧ byteLength before = n := by
  fun_induction cutAt? n s generalizing before with
  | case1 s =>
    rw [byteLength_eq_zero_iff, Option.some.injEq, Prod.mk.injEq]
    constructor
    · rintro ⟨rfl, rfl⟩
      exact ⟨rfl, rfl⟩
    · rintro ⟨rfl, rfl⟩
      exact ⟨rfl, rfl⟩
  | case2 n =>
    refine iff_of_false (by simp) ?_
    rintro ⟨hnil, hlen⟩
    rw [(List.nil_eq_append_iff.1 hnil).1] at hlen
    cases hlen
  | case3 n c r hfits ih =>
    simp only [Option.map_eq_some_iff, Prod.exists, Prod.mk.injEq]
    constructor
    · rintro ⟨front, _, hcut, rfl, rfl⟩
      obtain ⟨rfl, hlen⟩ := ih.1 hcut
      exact ⟨rfl, by rw [byteLength_cons]; omega⟩
    · rintro ⟨hs, hlen⟩
      cases before with
      | nil => cases hlen
      | cons d front =>
        obtain ⟨rfl, rfl⟩ := List.cons.inj hs
        rw [byteLength_cons] at hlen
        exact ⟨front, after, ih.2 ⟨rfl, by omega⟩, rfl, rfl⟩
  | case4 n c r hfits =>
    -- the byte lies within the first character
    refine iff_of_false (by simp) ?_
    rintro ⟨hs, hlen⟩
    cases before with
    | nil => cases hlen
    | cons d front =>
      obtain ⟨rfl, -⟩ := List.cons.inj hs
      rw [byteLength_cons] at hlen
      omega

/-- **What a slice means**: so many bytes stand in front of it, and so many up to
    its end. -/
theorem slice?_eq_some_iff {s part : Text} {start stop : Nat} :
    slice? s start stop = some part ↔ ∃ before after, s = before ++ part ++ after ∧
      byteLength before = start ∧ byteLength (before ++ part) = stop := by
  simp only [slice?, Option.bind_eq_bind, Option.bind_eq_some_iff, Prod.exists,
    cutAt?_eq_some_iff, Option.some.injEq]
  constructor
  · rintro ⟨_, after, ⟨rfl, hstop⟩, before, _, ⟨rfl, hstart⟩, rfl⟩
    exact ⟨before, after, rfl, hstart, hstop⟩
  · rintro ⟨before, after, rfl, hstart, hstop⟩
    exact ⟨before ++ part, after, ⟨rfl, hstop⟩, before, part, ⟨rfl, hstart⟩, rfl⟩

/-- Bytes are counted, and no slice starts within a character. -/
example : slice? "é INT" 3 6 = some ("INT" : Text) ∧ slice? "é INT" 1 6 = none := by decide +kernel

/-- A part of a text stands where the text in front of it ends. -/
theorem slice?_append (before part after : Text) :
    slice? (before ++ part ++ after) (byteLength before) (byteLength (before ++ part)) =
      some part :=
  slice?_eq_some_iff.2 ⟨before, after, rfl, rfl, rfl⟩

/-- **A slice lies in its text**, and takes the bytes from its start to its
    stop. -/
theorem bounds_of_slice? {s part : Text} {start stop : Nat} (h : slice? s start stop = some part) :
    start + byteLength part = stop ∧ stop ≤ byteLength s := by
  obtain ⟨before, after, rfl, rfl, rfl⟩ := slice?_eq_some_iff.1 h
  simp

end Text

namespace Ddl

open Text (bounds_of_slice? byteLength isBlankText slice? slice?_append)

/-! ### Where words start and end -/

/-- A quoted text ends with its mark, if something is left behind it. -/
theorem getLast?_readQuoted {mark : Char} (hmark : isQuote mark = true) {s : Text}
    (h : (readQuoted mark s).rest ≠ []) : (readQuoted mark s).source.getLast? = some mark := by
  obtain ⟨t, hsource, -⟩ := (readQuoted_spells hmark s).resolve_left h
  rw [hsource, List.getLast?_concat]

/-- A lexeme that is no word ends in no word character, if something stands
    behind it. -/
theorem Lexeme.Legible.getLast?_source {l : Lexeme} {rest : Text} (h : l.Legible rest)
    (hrest : rest ≠ []) (hword : ∀ w, l.token ≠ .word w) :
    ∃ c, l.source.getLast? = some c ∧ isWordChar c = false := by
  cases h.kind with
  | word hne hchars htoken hend => exact absurd htoken (hword l.source)
  | quoted mark s hmark hsource htoken hend =>
    refine ⟨mark, ?_, isWordChar_of_isQuote hmark⟩
    have hlast := getLast?_readQuoted hmark (hend ▸ hrest)
    rw [hsource, ← List.singleton_append, List.getLast?_append, hlast]
    rfl
  | mark c hblank hnot hquote hsource htoken => exact ⟨c, by rw [hsource]; rfl, hnot⟩

/-- No word character stands in front of a word. -/
theorem isWordChar_getLast?_gap {before : List Lexeme} {gap t : Text}
    (h : Legible before (gap ++ t)) (hgap : isBlankText gap = true) (hne : t ≠ [])
    (ht : ∀ c ∈ t.head?, isWordChar c = true) :
    ∀ c ∈ (sourceText before ++ gap).getLast?, isWordChar c = false := by
  intro c hc
  cases hlast : gap.getLast? with
  | some d =>
    rw [List.getLast?_append, hlast] at hc
    obtain rfl := Option.some.inj hc
    exact isWordChar_of_isBlank (List.all_eq_true.1 hgap _ (List.mem_of_getLast? hlast))
  | none =>
    obtain rfl := List.getLast?_eq_none_iff.1 hlast
    rw [List.append_nil] at hc
    rcases List.eq_nil_or_concat before with rfl | ⟨front, k, rfl⟩
    · cases hc
    · rw [List.concat_eq_append] at h hc
      obtain ⟨-, hk, -⟩ := legible_append.1 h
      -- the lexeme in front is no word, for a word would go on into this one
      have hword : ∀ w, k.token ≠ .word w := by
        intro w htoken
        obtain ⟨-, -, -, hend⟩ := hk.word_of_token htoken
        obtain ⟨d, r, rfl⟩ := List.exists_cons_of_ne_nil hne
        have hnot : isWordChar d = false := hend d rfl
        rw [ht d rfl] at hnot
        cases hnot
      obtain ⟨d, hd, hnot⟩ := hk.getLast?_source (by simpa using hne) hword
      rw [sourceText_append, sourceText_cons, sourceText_nil, List.append_nil, ← List.append_assoc,
        List.getLast?_append, hd] at hc
      obtain rfl := Option.some.inj hc
      exact hnot

/-- A run of word characters with `before` in front of it and `after` behind
    it, of neither of which it could take one more character. -/
structure IsWordRun (before word after : Text) : Prop where
  ne_nil : word ≠ []
  isWordChar : ∀ c ∈ word, isWordChar c = true
  starts : ∀ c ∈ before.getLast?, Ddl.isWordChar c = false
  ends : ∀ c ∈ after.head?, Ddl.isWordChar c = false

/-- **A word is its source**, and a run of word characters that does not go on. -/
theorem isWordRun_of_legible {before after : List Lexeme} {l : Lexeme} {tail w : Text}
    (h : Legible (before ++ l :: after) tail) (htoken : l.token = .word w) :
    l.source = w ∧ IsWordRun (sourceText before ++ l.gap) w (sourceText after ++ tail) := by
  obtain ⟨hbefore, hl, -⟩ := legible_append.1 h
  obtain ⟨rfl, hne, hchars, hend⟩ := hl.word_of_token htoken
  have hhead : ∀ c ∈ (l.source ++ (sourceText after ++ tail)).head?, isWordChar c = true := by
    intro c hc
    rw [List.head?_append_of_ne_nil _ hne] at hc
    exact hchars c (List.mem_of_mem_head? hc)
  rw [sourceText_cons, List.append_assoc, List.append_assoc] at hbefore
  exact ⟨rfl, hne, hchars, isWordChar_getLast?_gap hbefore hl.1 (by simp [hne]) hhead, hend⟩

/-! ### The source of a token -/

/-- **A token is read from its source alone**, as the same token. -/
theorem Lexeme.Legible.alone {l : Lexeme} {rest : Text} (h : l.Legible rest) :
    l.source ≠ [] ∧ lex l.source = [{ l with gap := [] }] := by
  have hend : l.Legible [] := h.before (Or.inl rfl)
  have hbare : Lexeme.Legible { l with gap := [] } [] := ⟨rfl, hend.2⟩
  have hnil : lex [] = [] := lex_eq_nil rfl
  have hread := lex_of_legible hbare
  rw [List.append_nil, List.nil_append, hnil] at hread
  obtain ⟨-, c, r, hsource, -⟩ := h
  exact ⟨hsource ▸ List.cons_ne_nil c r, hread⟩

/-! ### Places -/

/-- Where a part of a text starts and where it stops, in bytes. -/
structure Span where
  start : Nat
  stop : Nat
  deriving DecidableEq, Repr

/-- The place of `l` in a text that was read as `before`, then `l`, then others. -/
def Lexeme.span (before : List Lexeme) (l : Lexeme) : Span where
  start := byteLength (sourceText before ++ l.gap)
  stop := byteLength (sourceText before ++ l.gap ++ l.source)

section Slices

variable (before : List Lexeme) (l : Lexeme) (after : List Lexeme) (tail : Text)

/-- The source of a token stands at its place. -/
theorem slice?_span : slice? (sourceText (before ++ l :: after) ++ tail)
    (l.span before).start (l.span before).stop = some l.source := by
  have hslice := slice?_append (sourceText before ++ l.gap) l.source (sourceText after ++ tail)
  simpa [Lexeme.span, sourceText_append] using hslice

theorem slice?_behind : slice? (sourceText (before ++ l :: after) ++ tail)
    (l.span before).stop (byteLength (sourceText (before ++ l :: after) ++ tail)) =
      some (sourceText after ++ tail) := by
  have hslice :=
    slice?_append (sourceText before ++ l.gap ++ l.source) (sourceText after ++ tail) []
  simpa [Lexeme.span, sourceText_append] using hslice

theorem slice?_between (inside : List Lexeme) (m : Lexeme) (after : List Lexeme) (tail : Text) :
    slice? (sourceText (before ++ l :: (inside ++ m :: after)) ++ tail)
      (l.span before).stop (m.span (before ++ l :: inside)).start =
        some (sourceText inside ++ m.gap) := by
  have hslice := slice?_append (sourceText before ++ l.gap ++ l.source)
    (sourceText inside ++ m.gap) (m.source ++ sourceText after ++ tail)
  simpa [Lexeme.span, sourceText_append] using hslice

end Slices

/-! ### Covering -/

/-- `ls`, with `tail` behind them, cover `d`: no character of `d` is left out or
    belongs to two of them. -/
structure Covers (d : Text) (ls : List Lexeme) (tail : Text) : Prop where
  /-- the text is gaps and sources, one after the other, and the tail -/
  text_eq : d = sourceText ls ++ tail
  gap_blank : ∀ l ∈ ls, isBlankText l.gap = true
  tail_blank : isBlankText tail = true
  /-- a source is not empty, and it is read as its own token -/
  alone : ∀ l ∈ ls, l.source ≠ [] ∧ lex l.source = [{ l with gap := [] }]
  /-- the source of a token stands at the place of the token -/
  place : ∀ before l after, ls = before ++ l :: after →
    (l.span before).start < (l.span before).stop ∧ (l.span before).stop ≤ byteLength d ∧
      slice? d (l.span before).start (l.span before).stop = some l.source
  /-- two places do not overlap, and what lies between them can be cut out -/
  between : ∀ before l inside m after, ls = before ++ l :: (inside ++ m :: after) →
    (l.span before).stop ≤ (m.span (before ++ l :: inside)).start ∧
      slice? d (l.span before).stop (m.span (before ++ l :: inside)).start =
        some (sourceText inside ++ m.gap)
  /-- so can what lies behind a place -/
  behind : ∀ before l after, ls = before ++ l :: after →
    slice? d (l.span before).stop (byteLength d) = some (sourceText after ++ tail)
  /-- a group in parentheses is what lies between the places of the two -/
  group : ∀ before first ms text rest, ls = before ++ first :: ms →
    group? (first :: ms) = some (text, rest) → ∃ inside last, ms = inside ++ last :: rest ∧
      slice? d (first.span before).stop (last.span (before ++ first :: inside)).start = some text
  /-- a word is its source, and it ends only where no word character follows -/
  word : ∀ before l after w, ls = before ++ l :: after → l.token = .word w →
    l.source = w ∧ IsWordRun (sourceText before ++ l.gap) w (sourceText after ++ tail)

/-- **Legible lexemes cover the text that they were read from.** -/
theorem covers_of_legible {ls : List Lexeme} {tail : Text} (h : Legible ls tail)
    (htail : isBlankText tail = true) : Covers (sourceText ls ++ tail) ls tail := by
  have hlegible : ∀ l ∈ ls, ∃ rest, l.Legible rest := by
    intro l hl
    obtain ⟨before, after, rfl⟩ := List.append_of_mem hl
    exact ⟨_, (legible_append.1 h).2.1⟩
  have halone : ∀ l ∈ ls, l.source ≠ [] ∧ lex l.source = [{ l with gap := [] }] := by
    intro l hl
    obtain ⟨_, hl⟩ := hlegible l hl
    exact hl.alone
  constructor
  case text_eq => rfl
  case tail_blank => exact htail
  case alone => exact halone
  case gap_blank =>
    intro l hl
    obtain ⟨_, hl⟩ := hlegible l hl
    exact hl.1
  case place =>
    rintro before l after rfl
    have hslice := slice?_span before l after tail
    obtain ⟨hlen, hstop⟩ := bounds_of_slice? hslice
    have hpos := Text.byteLength_pos (halone l (by simp)).1
    exact ⟨by omega, hstop, hslice⟩
  case between =>
    rintro before l inside m after rfl
    have hslice := slice?_between before l inside m after tail
    obtain ⟨hlen, -⟩ := bounds_of_slice? hslice
    exact ⟨by omega, hslice⟩
  case behind =>
    rintro before l after rfl
    exact slice?_behind before l after tail
  case group =>
    rintro before first ms text rest rfl hgroup
    cases group?_eq_some_iff.1 hgroup with
    | @intro _ inside last _ _ _ _ =>
      exact ⟨inside, last, rfl, slice?_between before first inside last rest tail⟩
  case word =>
    rintro before l after w rfl htoken
    exact isWordRun_of_legible h htoken

/-- **The tokens of a text cover it.**  The text is blanks and sources in turn;
    each source is read as its token, and stands at its place; places do not
    overlap, and what lies between them can be cut out; words are as long as
    they can be. -/
theorem covers_lex (d : Text) : ∃ tail, Covers d (lex d) tail := by
  obtain ⟨tail, htail, hd, hlegible⟩ := legible_lex d
  have hcovers := covers_of_legible hlegible htail
  rw [← hd] at hcovers
  exact ⟨tail, hcovers⟩

end Ddl

end SchemaDiagram
