import SchemaDiagram.Proofs.Fragment
import SchemaDiagram.Proofs.Lexing

/-! # Tokenizing — a text seen as its lexemes, one after the other

    Every text is a row of lexemes and then blanks, and each lexeme is
    legible before what follows it.  A fact about all texts is proved along
    that row: it is enough to know what the scans for quotes and parentheses
    do over one lexeme, and that they are where the lexeme ends.

      * `lexeme_induction`           — induction on the lexemes of a text
      * `legible_lex`                — all of them are legible where they stand
      * `run_readQuoted`,
        `pieces_readQuoted`,
        `readQuoted_source`          — the scan for quotes keeps step with the
                                       reading of a quoted text
      * `Lexeme.Kind`                — a lexeme is a word, a quoted text or a
                                       mark
      * `Lexeme.Legible.run_eq`,
        `Lexeme.Legible.pieces_eq`   — what the scans do over a lexeme
      * `Lexeme.Legible.before`      — what may stand behind it instead
      * `tokens`, `tokenDepth`       — the tokens of a text, and the depth of
                                       parentheses behind them
      * `run_eq_foldl_tokenDepth`    — the scan has the same depth
      * `lex_append`,
        `tokens_append`              — two texts side by side
      * `tokens_trim`                — outer blanks are no tokens -/

namespace SchemaDiagram.Ddl

open Text (isBlank isBlankText ne_of_isBlank trim exists_trim_eq)

/-! ### Blanks -/

theorem isQuote_of_isBlank {c : Char} (h : isBlank c = true) : isQuote c = false := by
  have hsingle : c ≠ '\x27' := ne_of_isBlank h (by decide)
  have hdouble : c ≠ '\x22' := ne_of_isBlank h (by decide)
  have hback : c ≠ '\x60' := ne_of_isBlank h (by decide)
  simp [isQuote, hsingle, hdouble, hback]

theorem isWordChar_of_isQuote {c : Char} (h : isQuote c = true) : isWordChar c = false := by
  simp only [isQuote, Bool.or_eq_true, beq_iff_eq] at h
  rcases h with (rfl | rfl) | rfl <;> decide

theorem isWordChar_of_isBlank {c : Char} (h : isBlank c = true) : isWordChar c = false := by
  rw [Bool.eq_false_iff]
  intro hword
  rw [isBlank_of_isWordChar hword] at h
  cases h

/-- Blanks open nothing, and they are no delimiter. -/
theorem sealed_of_isBlankText (depth : Nat) {s : Text} (h : isBlankText s = true) :
    Sealed depth s := by
  induction s with
  | nil => exact .nil depth
  | cons c r ih =>
    simp only [isBlankText, List.all_cons, Bool.and_eq_true] at h
    have hc : Sealed depth [c] :=
      .singleton (isQuote_of_isBlank h.1) (ne_of_isBlank h.1 (by decide))
        (ne_of_isBlank h.1 (by decide)) (Or.inl (ne_of_isBlank h.1 (by decide)))
    exact hc.append (ih h.2)

theorem sealed_of_forall_isWordChar (depth : Nat) {s : Text}
    (h : ∀ c ∈ s, isWordChar c = true) : Sealed depth s := by
  have hfree : s.all isFree = true := List.all_eq_true.2 fun c hc => isFree_of_isWordChar (h c hc)
  have hs : Fragment false s := .of_free hfree
  exact sealed_of_fragment hs (by simp)

/-! ### Reading lexeme by lexeme -/

/-- What is read first is legible before what is left. -/
theorem legible_first {s : Text} {c : Char} {r : Text} (h : s.dropWhile isBlank = c :: r) :
    Lexeme.Legible ⟨s.takeWhile isBlank, (readToken c r).source, (readToken c r).value⟩
      (readToken c r).rest := by
  have hblank : isBlank c = false := Text.head?_trimStart s c (by rw [Text.trimStart, h]; rfl)
  have happend := readToken_source_append c r
  obtain ⟨d, r', hsource⟩ := List.exists_cons_of_ne_nil (readToken_source_ne_nil c r)
  rw [hsource, List.cons_append, List.cons.injEq] at happend
  obtain ⟨rfl, hrest⟩ := happend
  refine ⟨Text.isBlankText_takeWhile s, d, r', hsource, hblank, ?_⟩
  rw [hrest]

/-- **Induction on the lexemes of a text.** A text is blank, or it is a
    lexeme and then a text before which that lexeme is legible. -/
@[elab_as_elim]
theorem lexeme_induction {motive : Text → Prop}
    (blanks : ∀ s, isBlankText s = true → motive s)
    (lexeme : ∀ (l : Lexeme) (rest : Text), l.Legible rest → motive rest →
      motive (l.gap ++ l.source ++ rest)) (s : Text) : motive s := by
  fun_induction lex s with
  | case1 s h => exact blanks s (Text.trimStart_eq_nil_iff.1 h)
  | case2 s c r h ih =>
    have hstep := lexeme _ _ (legible_first h) ih
    have hs : s.takeWhile isBlank ++ (readToken c r).source ++ (readToken c r).rest = s := by
      rw [List.append_assoc, readToken_source_append, ← h]
      exact List.takeWhile_append_dropWhile
    rwa [hs] at hstep

/-- **Every text is a row of lexemes and blanks**, and each of them is legible
    where it stands. -/
theorem legible_lex (s : Text) : ∃ blanks, isBlankText blanks = true ∧
    s = sourceText (lex s) ++ blanks ∧ Legible (lex s) blanks := by
  induction s using lexeme_induction with
  | blanks s h =>
    rw [lex_eq_nil (Text.trimStart_eq_nil_iff.2 h)]
    exact ⟨s, h, rfl, trivial⟩
  | lexeme l rest h ih =>
    obtain ⟨blanks, hblanks, hrest, hlegible⟩ := ih
    rw [lex_of_legible h]
    refine ⟨blanks, hblanks, ?_, ?_, hlegible⟩
    · rw [sourceText_cons, List.append_assoc _ (sourceText (lex rest)) blanks, ← hrest]
    · rwa [← hrest]

/-- The lexemes of a text that does not end in a blank. -/
theorem legible_lex_nil {s : Text} (h : ∀ c ∈ s.getLast?, isBlank c = false) : Legible (lex s) [] := by
  obtain ⟨blanks, -, hs, hlegible⟩ := legible_lex s
  rw [sourceText_lex_eq_self h] at hs
  rwa [List.append_right_eq_self.1 hs.symm] at hlegible

/-! ### The scan for quotes -/

/-- Whether a quote is open behind a text does not depend on the parentheses
    before it. -/
theorem quote_run_congr {n m : Nesting} (h : n.quote = m.quote) (s : Text) :
    (n.run s).quote = (m.run s).quote := by
  induction s generalizing n m with
  | nil => exact h
  | cons c r ih =>
    rw [Nesting.run_cons, Nesting.run_cons]
    apply ih
    unfold Nesting.step
    rw [h]
    cases m.quote with
    | some q => rfl
    | none =>
      dsimp only
      split <;> rfl

/-- Only quote marks open quotes. -/
theorem isQuote_mark_run {n : Nesting} (h : ∀ q ∈ n.quote, isQuote q.mark = true) (s : Text) :
    ∀ q ∈ (n.run s).quote, isQuote q.mark = true := by
  induction s generalizing n with
  | nil => exact h
  | cons c r ih =>
    rw [Nesting.run_cons]
    apply ih
    obtain ⟨d, q⟩ := n
    cases q with
    | none =>
      intro q' hq'
      unfold Nesting.step at hq'
      dsimp only at hq'
      split at hq'
      · next hc =>
        obtain rfl := Option.some.inj hq'
        exact hc
      · cases hq'
    | some q =>
      have hq : isQuote q.mark = true := h q rfl
      intro q' hq'
      simp only [Nesting.step, Nesting.stepQuote, Option.mem_def] at hq'
      repeat' split at hq'
      · exact Option.some.inj hq' ▸ hq
      · exact Option.some.inj hq' ▸ hq
      · cases hq'
      · exact Option.some.inj hq' ▸ hq

/-- Blanks close no quote. -/
theorem quote_eq_none_of_run_blanks {n : Nesting} (hn : ∀ q ∈ n.quote, isQuote q.mark = true)
    {b : Text} (hb : isBlankText b = true) (h : (n.run b).quote = none) : n.quote = none := by
  induction b generalizing n with
  | nil => exact h
  | cons c r ih =>
    simp only [isBlankText, List.all_cons, Bool.and_eq_true] at hb
    have hstep : (n.step c).quote = none := ih (isQuote_mark_run hn [c]) hb.2 h
    obtain ⟨d, q⟩ := n
    cases q with
    | none => rfl
    | some q =>
      have hmark : c ≠ q.mark := by
        rintro rfl
        have hq := hn q rfl
        rw [isQuote_of_isBlank hb.1] at hq
        cases hq
      simp only [Nesting.step, Nesting.stepQuote, if_neg hmark] at hstep
      repeat' split at hstep
      all_goals cases hstep

section Steps

variable (depth : Nat) {mark : Char}

theorem step_openMark (hmark : isQuote mark = true) :
    Nesting.step ⟨depth, none⟩ mark = ⟨depth, some ⟨mark, false⟩⟩ := by
  simp [Nesting.step, hmark]

theorem step_closeMark (hmark : isQuote mark = true) :
    Nesting.step ⟨depth, some ⟨mark, false⟩⟩ mark = ⟨depth, none⟩ := by
  have hne : mark ≠ '\\' := by
    rintro rfl
    cases hmark
  simp [Nesting.step, Nesting.stepQuote, hne]

theorem step_backslash :
    Nesting.step ⟨depth, some ⟨mark, false⟩⟩ '\\' = ⟨depth, some ⟨mark, true⟩⟩ := by
  simp [Nesting.step, Nesting.stepQuote]

theorem step_escaped (c : Char) :
    Nesting.step ⟨depth, some ⟨mark, true⟩⟩ c = ⟨depth, some ⟨mark, false⟩⟩ := by
  simp [Nesting.step, Nesting.stepQuote]

theorem step_quoted {c : Char} (hmark : c ≠ mark) (hescape : c ≠ '\\') :
    Nesting.step ⟨depth, some ⟨mark, false⟩⟩ c = ⟨depth, some ⟨mark, false⟩⟩ := by
  simp [Nesting.step, Nesting.stepQuote, hmark, hescape]

end Steps

theorem isCut_quoted (delimiter : Char) (depth : Nat) (q : OpenQuote) (c : Char) :
    isCut delimiter ⟨depth, some q⟩ c = false := by
  simp [isCut, Nesting.atTop]

theorem isCut_mark (delimiter : Char) (n : Nesting) {mark : Char} (hmark : isQuote mark = true) :
    isCut delimiter n mark = false := by
  simp [isCut, hmark]

/-! ### Quoted texts -/

section Quoted

variable {mark : Char} (hmark : isQuote mark = true) (s : Text)
include hmark

/-- **The scan leaves the quote where its reading ends**, unless the text is
    never closed.  At a doubled mark the scan leaves the quote and enters it
    again, while the reading stays in it. -/
theorem run_readQuoted (depth : Nat) :
    Nesting.run ⟨depth, some ⟨mark, false⟩⟩ (readQuoted mark s).source = ⟨depth, none⟩ ∨
      (readQuoted mark s).rest = [] ∧
        (Nesting.run ⟨depth, some ⟨mark, false⟩⟩ (readQuoted mark s).source).quote ≠ none := by
  have hclose := step_closeMark depth hmark
  have hopen := step_openMark depth hmark
  fun_induction readQuoted mark s with
  | case1 => exact Or.inr ⟨rfl, by simp⟩
  | case2 r ih => simpa [Reading.after, hclose, hopen] using ih
  | case3 e r he => exact Or.inl (by simp [hclose])
  | case4 => exact Or.inl (by simp [hclose])
  | case5 e r hne ih => simpa [Reading.after, step_backslash, step_escaped] using ih
  | case6 hne => exact Or.inr ⟨rfl, by simp [step_backslash]⟩
  | case7 c r hc hescape ih => simpa [Reading.after, step_quoted depth hc hescape] using ih

/-- A quoted text is not divided. -/
theorem pieces_readQuoted (delimiter : Char) (depth : Nat) :
    pieces delimiter ⟨depth, some ⟨mark, false⟩⟩ (readQuoted mark s).source =
      [(readQuoted mark s).source] := by
  have hclose := step_closeMark depth hmark
  have hopen := step_openMark depth hmark
  have hcut : ∀ q c, isCut delimiter ⟨depth, some q⟩ c = false := isCut_quoted delimiter depth
  have hcut' := isCut_mark delimiter ⟨depth, none⟩ hmark
  fun_induction readQuoted mark s with
  | case1 => rfl
  | case2 r ih => simp [Reading.after, pieces, hcut, hcut', hclose, hopen, ih]
  | case3 e r he => simp [pieces, hcut]
  | case4 => simp [pieces, hcut]
  | case5 e r hne ih => simp [Reading.after, pieces, hcut, step_backslash, step_escaped, ih]
  | case6 hne => simp [pieces, hcut]
  | case7 c r hc hescape ih => simp [Reading.after, pieces, hcut, step_quoted depth hc hescape, ih]

/-- **A quoted text is read from its own source** before any text that is
    empty, that starts like the one behind it, or that does not double the
    mark that closes it. -/
theorem readQuoted_source {t : Text}
    (ht : t = [] ∨ t.head? = (readQuoted mark s).rest.head? ∨
      (Nesting.run ⟨0, some ⟨mark, false⟩⟩ (readQuoted mark s).source).quote = none ∧
        ∀ c ∈ t.head?, c ≠ mark) :
    readQuoted mark ((readQuoted mark s).source ++ t) =
      ⟨(readQuoted mark s).value, (readQuoted mark s).source, t⟩ := by
  have hclose := step_closeMark 0 hmark
  have hopen := step_openMark 0 hmark
  fun_induction readQuoted mark s with
  | case1 =>
    have hnil : t = [] := by simpa using ht
    rw [hnil]
    rfl
  | case2 r ih =>
    have ih' := ih (by simpa [Reading.after, hclose, hopen] using ht)
    simp [Reading.after, readQuoted, ih']
  | case3 e r he =>
    cases t with
    | nil => simp [readQuoted]
    | cons f t =>
      have hf : f ≠ mark := by
        rcases ht with ht | ht | ht
        · cases ht
        · obtain rfl : f = e := Option.some.inj ht
          exact he
        · exact ht.2 f rfl
      simp [readQuoted, hf]
  | case4 =>
    cases t with
    | nil => simp [readQuoted]
    | cons f t =>
      have hf : f ≠ mark := by
        rcases ht with ht | ht | ht
        · cases ht
        · cases ht
        · exact ht.2 f rfl
      simp [readQuoted, hf]
  | case5 e r hne ih =>
    have ih' := ih (by simpa [Reading.after, step_backslash, step_escaped] using ht)
    simp [Reading.after, readQuoted, ih', hne]
  | case6 hne =>
    have hnil : t = [] := by simpa [step_backslash] using ht
    simp [hnil, readQuoted, hne]
  | case7 c r hc hescape ih =>
    have ih' := ih (by simpa [Reading.after, step_quoted 0 hc hescape] using ht)
    rw [readQuoted.eq_def]
    simp [Reading.after, hc, hescape, ih']

end Quoted

/-! ### Kinds of lexemes -/

/-- The token of the text `w` between two marks. -/
def quotedToken (mark : Char) (w : Text) : Token :=
  if mark = '\x27' then .literal w else .quotedName w

/-- The parenthesis depth behind a token. -/
def tokenDepth (depth : Nat) : Token → Nat
  | .openParen => depth + 1
  | .closeParen => depth - 1
  | _ => depth

theorem readToken_quote {mark : Char} (hmark : isQuote mark = true) (r : Text) :
    readToken mark r =
      ⟨quotedToken mark (readQuoted mark r).value, mark :: (readQuoted mark r).source,
        (readQuoted mark r).rest⟩ := by
  simp only [isQuote, Bool.or_eq_true, beq_iff_eq] at hmark
  rcases hmark with (rfl | rfl) | rfl <;> rfl

theorem tokenDepth_quotedToken (depth : Nat) (mark : Char) (w : Text) :
    tokenDepth depth (quotedToken mark w) = depth := by
  unfold quotedToken
  split <;> rfl

theorem quotedToken_ne_comma (mark : Char) (w : Text) : quotedToken mark w ≠ .comma := by
  unfold quotedToken
  split <;> simp

theorem quotedToken_ne_word (mark : Char) (w word : Text) : quotedToken mark w ≠ .word word := by
  unfold quotedToken
  split <;> simp

section Mark

variable {c : Char} (hword : isWordChar c = false) (hquote : isQuote c = false) (r : Text)
include hword hquote

theorem readToken_mark_comma : (readToken c r).value = .comma ↔ c = ',' := by
  simp only [isQuote, Bool.or_eq_false_iff, beq_eq_false_iff_ne] at hquote
  obtain ⟨⟨hsingle, hdouble⟩, hback⟩ := hquote
  simp only [readToken, hword, hsingle, hdouble, hback]
  repeat' split
  all_goals simp_all

theorem readToken_mark_ne_word (w : Text) : (readToken c r).value ≠ .word w := by
  simp only [isQuote, Bool.or_eq_false_iff, beq_eq_false_iff_ne] at hquote
  obtain ⟨⟨hsingle, hdouble⟩, hback⟩ := hquote
  simp only [readToken, hword, hsingle, hdouble, hback]
  repeat' split
  all_goals simp_all

theorem tokenDepth_readToken_mark (depth : Nat) :
    tokenDepth depth (readToken c r).value = Nesting.stepDepth depth c := by
  simp only [isQuote, Bool.or_eq_false_iff, beq_eq_false_iff_ne] at hquote
  obtain ⟨⟨hsingle, hdouble⟩, hback⟩ := hquote
  simp only [readToken, hword, hsingle, hdouble, hback]
  repeat' split
  all_goals simp_all [tokenDepth, Nesting.stepDepth]

end Mark

/-- The three ways in which a lexeme is read before `rest`: as a word, as a
    quoted text, and as a mark. -/
inductive Lexeme.Kind (l : Lexeme) (rest : Text) : Prop
  | word (hsource : l.source ≠ []) (hword : ∀ c ∈ l.source, isWordChar c = true)
      (htoken : l.token = .word l.source) (hrest : ∀ c ∈ rest.head?, isWordChar c = false)
  | quoted (mark : Char) (s : Text) (hmark : isQuote mark = true)
      (hsource : l.source = mark :: (readQuoted mark s).source)
      (htoken : l.token = quotedToken mark (readQuoted mark s).value)
      (hrest : rest = (readQuoted mark s).rest)
  | mark (c : Char) (hblank : isBlank c = false) (hword : isWordChar c = false)
      (hquote : isQuote c = false) (hsource : l.source = [c])
      (htoken : l.token = (readToken c rest).value)

theorem Lexeme.Legible.kind {l : Lexeme} {rest : Text} (h : l.Legible rest) : l.Kind rest := by
  obtain ⟨hgap, c, r, hsource, hblank, hread⟩ := h
  cases hword : isWordChar c with
  | true =>
    rw [readToken_word _ hword, Reading.mk.injEq] at hread
    obtain ⟨htoken, hsource', hrest⟩ := hread
    refine .word (by simp [hsource]) ?_ (by rw [← htoken, hsource']) ?_
    · rw [← hsource']
      exact List.forall_mem_cons.2 ⟨hword, fun d hd => List.mem_takeWhile_imp hd⟩
    · rw [← hrest]
      intro d hd
      have hstop := List.head?_dropWhile_not isWordChar (r ++ rest)
      rw [hd] at hstop
      simpa using hstop
  | false =>
    cases hquote : isQuote c with
    | true =>
      rw [readToken_quote hquote, Reading.mk.injEq] at hread
      obtain ⟨htoken, hsource', hrest⟩ := hread
      exact .quoted c (r ++ rest) hquote hsource'.symm htoken.symm hrest.symm
    | false =>
      obtain ⟨token, hmark⟩ := readToken_mark hword hquote
      rw [hmark, Reading.mk.injEq] at hread
      refine .mark c hblank hword hquote hread.2.1.symm ?_
      rw [hmark, hread.1]

namespace Lexeme.Legible

variable {l : Lexeme} {rest : Text} (h : l.Legible rest)
include h

/-- **A word is its own source**, and no word character stands behind it. -/
theorem word_of_token {w : Text} (htoken : l.token = .word w) :
    l.source = w ∧ w ≠ [] ∧ (∀ c ∈ w, isWordChar c = true) ∧
      ∀ c ∈ rest.head?, isWordChar c = false := by
  cases h.kind with
  | word hne hword htoken' hrest =>
    obtain rfl : l.source = w := Token.word.inj (htoken'.symm.trans htoken)
    exact ⟨rfl, hne, hword, hrest⟩
  | quoted mark s hmark hsource htoken' hrest =>
    exact absurd (htoken'.symm.trans htoken) (quotedToken_ne_word _ _ _)
  | mark c hblank hword hquote hsource htoken' =>
    exact absurd (htoken'.symm.trans htoken) (readToken_mark_ne_word hword hquote rest w)

/-- A lexeme that starts with a word character is a word. -/
theorem token_of_head? (hhead : ∀ c ∈ l.source.head?, isWordChar c = true) :
    l.token = .word l.source := by
  cases h.kind with
  | word hne hword htoken hrest => exact htoken
  | quoted mark s hmark hsource htoken hrest =>
    have hword : isWordChar mark = true := hhead mark (by rw [hsource]; rfl)
    rw [isWordChar_of_isQuote hmark] at hword
    cases hword
  | mark c hblank hword hquote hsource htoken =>
    have hword' : isWordChar c = true := hhead c (by rw [hsource]; rfl)
    rw [hword] at hword'
    cases hword'

end Lexeme.Legible

/-- No token in front of `t` goes on into `t`: a word would go on into a word
    character, and a quoted text into a quote mark. -/
def Apart (t : Text) : Prop := ∀ c ∈ t.head?, isWordChar c = false ∧ isQuote c = false

theorem apart_of_isBlankText {b : Text} (h : isBlankText b = true) : Apart b := by
  intro c hc
  have hblank : isBlank c = true := List.all_eq_true.1 h c (List.mem_of_mem_head? hc)
  exact ⟨isWordChar_of_isBlank hblank, isQuote_of_isBlank hblank⟩

theorem apart_cons {c : Char} (hword : isWordChar c = false) (hquote : isQuote c = false) (r : Text) :
    Apart (c :: r) := by
  intro d hd
  obtain rfl := Option.some.inj hd
  exact ⟨hword, hquote⟩

theorem apart_append {s t : Text} (hs : Apart s) (ht : s = [] → Apart t) : Apart (s ++ t) := by
  cases s with
  | nil => exact ht rfl
  | cons c r => exact hs

/-- `l`, which is legible before `rest`, does not go on into `t` either: there
    is nothing to go on into, `t` starts like `rest`, or it starts with a mark
    and `l` is closed. -/
def Lexeme.MayPrecede (l : Lexeme) (rest t : Text) : Prop :=
  t = [] ∨ t.head? = rest.head? ∨ ((Nesting.start.run l.source).quote = none ∧ Apart t)

namespace Lexeme.Legible

variable {l : Lexeme} {rest : Text} (h : l.Legible rest)
include h

theorem source_comma (hcomma : l.token = .comma) : l.source = [','] := by
  cases h.kind with
  | word hsource hword htoken hrest => rw [hcomma] at htoken; cases htoken
  | quoted mark s hmark hsource htoken hrest =>
    exact absurd (htoken.symm.trans hcomma) (quotedToken_ne_comma _ _)
  | mark c hblank hword hquote hsource htoken =>
    rw [hcomma] at htoken
    rw [hsource, (readToken_mark_comma hword hquote rest).1 htoken.symm]

/-- **No lexeme is divided**, except that a comma divides a list. -/
theorem pieces_eq {depth : Nat} (hcut : l.token = .comma → depth ≠ 0) :
    pieces ',' ⟨depth, none⟩ l.source = [l.source] := by
  cases h.kind with
  | word hsource hword htoken hrest => exact (sealed_of_forall_isWordChar depth hword).pieces_eq
  | quoted mark s hmark hsource htoken hrest =>
    rw [hsource, pieces, isCut_mark _ _ hmark, step_openMark depth hmark, pieces_readQuoted hmark]
    rfl
  | mark c hblank hword hquote hsource htoken =>
    have hnot : isCut ',' ⟨depth, none⟩ c = false := by
      rw [Bool.eq_false_iff]
      intro hc
      simp only [isCut, Nesting.atTop, Bool.and_eq_true, beq_iff_eq] at hc
      have hcomma := (readToken_mark_comma hword hquote rest).2 hc.1.1
      exact hcut (htoken.trans hcomma) hc.1.2.2
    simp [hsource, pieces, hnot]

/-- **The scan is outside quotes behind every lexeme**, with the parentheses
    that its token leaves open; only a quoted text that is never closed keeps
    it inside, and there is nothing behind that. -/
theorem run_eq (depth : Nat) :
    Nesting.run ⟨depth, none⟩ l.source = ⟨tokenDepth depth l.token, none⟩ ∨
      rest = [] ∧ (Nesting.run ⟨depth, none⟩ l.source).quote ≠ none := by
  cases h.kind with
  | word hsource hword htoken hrest =>
    left
    rw [(sealed_of_forall_isWordChar depth hword).run_eq, htoken]
    rfl
  | quoted mark s hmark hsource htoken hrest =>
    rw [hsource, Nesting.run_cons, step_openMark depth hmark, htoken, tokenDepth_quotedToken, hrest]
    exact run_readQuoted hmark s depth
  | mark c hblank hword hquote hsource htoken =>
    left
    rw [hsource, htoken, tokenDepth_readToken_mark hword hquote]
    simp [Nesting.step, hquote]

/-- A lexeme that is no comma and no parenthesis, with a text behind it. -/
theorem sealed (hrest : rest ≠ []) (hcomma : l.token ≠ .comma) {depth : Nat}
    (hdepth : tokenDepth depth l.token = depth) : Sealed depth l.source where
  run_eq := by
    rcases h.run_eq depth with hrun | ⟨hnil, _⟩
    · rw [hrun, hdepth]
    · exact absurd hnil hrest
  pieces_eq := h.pieces_eq fun hc => absurd hc hcomma

/-- **What may stand behind a lexeme.** -/
theorem before {t : Text} (ht : l.MayPrecede rest t) : l.Legible t := by
  cases h.kind with
  | word hsource hword htoken hrest =>
    have hlegible : Lexeme.Legible ⟨l.gap, l.source, .word l.source⟩ t := by
      refine legible_word h.1 hsource hword ?_
      rcases ht with rfl | ht | ht
      · simp
      · rwa [ht]
      · exact fun c hc => (ht.2 c hc).1
    rwa [← htoken] at hlegible
  | quoted mark s hmark hsource htoken hrest =>
    have hread : readQuoted mark ((readQuoted mark s).source ++ t) =
        ⟨(readQuoted mark s).value, (readQuoted mark s).source, t⟩ := by
      refine readQuoted_source hmark s ?_
      rcases ht with ht | ht | ⟨hclosed, ht⟩
      · exact Or.inl ht
      · exact Or.inr (Or.inl (hrest ▸ ht))
      · refine Or.inr (Or.inr ⟨?_, ?_⟩)
        · rw [hsource, Nesting.run_cons, Nesting.start, step_openMark 0 hmark] at hclosed
          exact hclosed
        · -- what follows is no quote mark, so it does not double this one
          rintro c hc rfl
          have hnot := (ht c hc).2
          rw [hmark] at hnot
          cases hnot
    refine ⟨h.1, mark, _, hsource, ?_, ?_⟩
    · rw [Bool.eq_false_iff]
      intro hblank
      rw [isQuote_of_isBlank hblank] at hmark
      cases hmark
    · rw [readToken_quote hmark, hread, htoken, hsource]
  | mark c hblank hword hquote hsource htoken =>
    obtain ⟨token, hmark⟩ := readToken_mark hword hquote
    refine ⟨h.1, c, [], hsource, hblank, ?_⟩
    rw [List.nil_append, hmark, htoken, hmark, hsource]

end Lexeme.Legible

/-! ### The tokens of a text -/

/-- The tokens of a text, without their places. -/
def tokens (s : Text) : List Token := (lex s).map (·.token)

theorem tokens_blank {s : Text} (h : isBlankText s = true) : tokens s = [] := by
  rw [tokens, lex_eq_nil (Text.trimStart_eq_nil_iff.2 h)]
  rfl

theorem tokens_lexeme {l : Lexeme} {rest : Text} (h : l.Legible rest) :
    tokens (l.gap ++ l.source ++ rest) = l.token :: tokens rest := by
  rw [tokens, lex_of_legible h]
  rfl

/-- Blanks in front of a text are no tokens. -/
theorem tokens_blanks_append {b : Text} (hb : isBlankText b = true) (s : Text) :
    tokens (b ++ s) = tokens s := by
  have hdrop : (b ++ s).dropWhile isBlank = s.dropWhile isBlank :=
    List.dropWhile_append_of_pos (List.all_eq_true.1 hb)
  cases hd : s.dropWhile isBlank with
  | nil => rw [tokens, tokens, lex_eq_nil hd, lex_eq_nil (hdrop.trans hd)]
  | cons c r =>
    rw [tokens, tokens, lex_eq_cons hd, lex_eq_cons (hdrop.trans hd)]
    rfl

/-- Behind a text that leaves no quote open, each of its lexemes has left none
    open either. -/
theorem Lexeme.Legible.closed_of_closed {l : Lexeme} {rest : Text} (h : l.Legible rest) {depth : Nat}
    (hs : (Nesting.run ⟨depth, none⟩ (l.gap ++ l.source ++ rest)).quote = none) :
    Nesting.run ⟨depth, none⟩ (l.gap ++ l.source) = ⟨tokenDepth depth l.token, none⟩ ∧
      (Nesting.run ⟨tokenDepth depth l.token, none⟩ rest).quote = none := by
  have hgap := (sealed_of_isBlankText depth h.1).run_eq
  rw [Nesting.run_append] at hs
  have hsource : Nesting.run ⟨depth, none⟩ (l.gap ++ l.source) = ⟨tokenDepth depth l.token, none⟩ := by
    rw [Nesting.run_append, hgap]
    rw [Nesting.run_append, hgap] at hs
    -- a lexeme that is never closed would leave its quote open behind the text
    rcases h.run_eq depth with hrun | ⟨rfl, hrun⟩
    · exact hrun
    · exact absurd hs hrun
  rw [hsource] at hs
  exact ⟨hsource, hs⟩

/-- **The scan and the tokens agree on depth**, behind a text that leaves no
    quote open. -/
theorem run_eq_foldl_tokenDepth {depth : Nat} {s : Text}
    (hs : (Nesting.run ⟨depth, none⟩ s).quote = none) :
    Nesting.run ⟨depth, none⟩ s = ⟨(tokens s).foldl tokenDepth depth, none⟩ := by
  induction s using lexeme_induction generalizing depth with
  | blanks s h =>
    rw [tokens_blank h]
    exact (sealed_of_isBlankText depth h).run_eq
  | lexeme l rest h ih =>
    obtain ⟨hsource, hrest⟩ := h.closed_of_closed hs
    rw [Nesting.run_append, hsource, ih hrest, tokens_lexeme h, List.foldl_cons]

/-- **Two texts side by side** are read one after the other, if the first
    leaves no quote open and no token goes on into the second.  The blanks at
    the end of the first stand in front of what follows. -/
theorem lex_append {s : Text} (hs : (Nesting.start.run s).quote = none) :
    ∃ blanks, isBlankText blanks = true ∧ s = sourceText (lex s) ++ blanks ∧
      ∀ t, Apart t → lex (s ++ t) = lex s ++ lex (blanks ++ t) := by
  induction s using lexeme_induction with
  | blanks s h =>
    have hnil : lex s = [] := lex_eq_nil (Text.trimStart_eq_nil_iff.2 h)
    exact ⟨s, h, by rw [hnil]; rfl, fun t _ => by rw [hnil, List.nil_append]⟩
  | lexeme l rest h ih =>
    obtain ⟨hsource, hclosed⟩ := h.closed_of_closed hs
    have hquote : (Nesting.start.run l.source).quote = none := by
      have hgap : Nesting.start.run l.gap = .start := (sealed_of_isBlankText 0 h.1).run_eq
      rw [← hgap, ← Nesting.run_append, Nesting.start, hsource]
    have hrest : (Nesting.start.run rest).quote = none := by
      rw [← hclosed]
      exact quote_run_congr (n := .start) (m := ⟨tokenDepth 0 l.token, none⟩) rfl rest
    obtain ⟨blanks, hblanks, htext, hlex⟩ := ih hrest
    refine ⟨blanks, hblanks, ?_, fun t ht => ?_⟩
    · rw [lex_of_legible h, sourceText_cons, List.append_assoc _ (sourceText (lex rest)) blanks,
        ← htext]
    · have hnext : l.MayPrecede rest (rest ++ t) := by
        cases rest with
        | nil => exact Or.inr (Or.inr ⟨hquote, ht⟩)
        | cons c r => exact Or.inr (Or.inl rfl)
      rw [List.append_assoc _ rest t, lex_of_legible (h.before hnext), lex_of_legible h, hlex t ht,
        List.cons_append]

theorem tokens_append {s t : Text} (hs : (Nesting.start.run s).quote = none) (ht : Apart t) :
    tokens (s ++ t) = tokens s ++ tokens t := by
  obtain ⟨blanks, hblanks, -, hlex⟩ := lex_append hs
  rw [← tokens_blanks_append hblanks t, tokens, hlex t ht, List.map_append]
  rfl

/-! ### Outer blanks -/

theorem quote_run_trim {s : Text} (h : (Nesting.start.run s).quote = none) :
    (Nesting.start.run (trim s)).quote = none := by
  obtain ⟨front, back, hfront, hback, hs⟩ := exists_trim_eq s
  have hstart : Nesting.start.run front = .start := (sealed_of_isBlankText 0 hfront).run_eq
  rw [hs, Nesting.run_append, Nesting.run_append, hstart] at h
  exact quote_eq_none_of_run_blanks (isQuote_mark_run (by simp [Nesting.start]) _) hback h

/-- **Outer blanks are no tokens** of a text that leaves no quote open. -/
theorem tokens_trim {s : Text} (h : (Nesting.start.run s).quote = none) :
    tokens (trim s) = tokens s := by
  obtain ⟨front, back, hfront, hback, hs⟩ := exists_trim_eq s
  calc tokens (trim s)
      = tokens (trim s) ++ tokens back := by rw [tokens_blank hback, List.append_nil]
    _ = tokens (trim s ++ back) :=
        (tokens_append (quote_run_trim h) (apart_of_isBlankText hback)).symm
    _ = tokens (front ++ (trim s ++ back)) := (tokens_blanks_append hfront _).symm
    _ = tokens s := by rw [← hs]

/-- A quote that is left open holds all blanks behind it, so the text must not
    end in one. -/
theorem tokens_trim_of_getLast? {s : Text} (h : ∀ c ∈ s.getLast?, isBlank c = false) :
    tokens (trim s) = tokens s := by
  have hread := tokens_blanks_append (Text.isBlankText_takeWhile s) (Text.trimStart s)
  rw [Text.takeWhile_append_trimStart] at hread
  rw [Text.trim_eq_trimStart h, hread]

end SchemaDiagram.Ddl
