import SchemaDiagram.Proofs.Capitals
import SchemaDiagram.Proofs.ColumnGrammar
import SchemaDiagram.Proofs.TypeExtent

/-! # ConstraintWords — the constraint words that a type takes in

    A column's type ends in front of a constraint word only if this word has
    blanks on both sides.  A constraint word that touches what stands behind it
    or in front of it does not end the type, and so becomes a part of it: the
    type of `id INT DEFAULT(5)` is `INT DEFAULT(5)`.

      * `Lexeme.EndsType`               — a constraint word between blanks
      * `opensConstraint_iff_endsType`  — constraints open at such words, and
                                          nowhere else
      * `DividesRow`                    — a row of lexemes, divided in front of
                                          the first of them
      * `exists_dividesRow_of_column`   — a column's type and what stands behind it
      * `HoldsWord`, `StaysInType`      — a type has a constraint word in it, and
                                          why
      * `holdsWord_declaredType_iff`    — which constraint words a type holds -/

namespace SchemaDiagram

namespace Text

/-- A word goes on up to the next blank. -/
theorem firstWord_append_of_not_blank {w : Text} (hne : w ≠ [])
    (hw : ∀ c ∈ w, isBlank c = false) (t : Text) :
    firstWord (w ++ t) = w ++ t.takeWhile fun c => !isBlank c := by
  have hhead : ∀ c ∈ (w ++ t).head?, isBlank c = false := by
    intro c hc
    rw [List.head?_append_of_ne_nil _ hne] at hc
    exact hw c (List.mem_of_mem_head? hc)
  rw [firstWord, trimStart_eq_self hhead]
  exact List.takeWhile_append_of_pos fun c hc => by rw [hw c hc]; rfl

/-- A word ends where a blank follows it, or nothing does. -/
theorem firstWord_append_eq_self_iff {w : Text} (hne : w ≠ []) (hw : ∀ c ∈ w, isBlank c = false)
    (t : Text) : firstWord (w ++ t) = w ↔ ∀ c ∈ t.head?, isBlank c = true := by
  rw [firstWord_append_of_not_blank hne hw, List.append_right_eq_self]
  cases t with
  | nil => simp
  | cons c r =>
    rw [List.takeWhile_cons]
    cases hc : isBlank c <;> simp [hc]

end Text

namespace Ddl

open Text (isBlank isBlankText trim Trimmed upper firstWord equalsIgnoringCase)

/-! ### Constraint words between blanks -/

/-- `l` is a constraint word, in any letter case. -/
def Lexeme.IsConstraintWord (l : Lexeme) : Prop :=
  ∃ w, l.token = .word w ∧ upper w ∈ constraintWords

/-- Blanks set `l` apart from the lexeme in front of it and from those behind
    it, which are `after`. -/
def Lexeme.StandsAlone (l : Lexeme) (after : List Lexeme) : Prop :=
  l.gap ≠ [] ∧ ∀ m ∈ after.head?, m.gap ≠ []

/-- The type of a column ends in front of `l`. -/
def Lexeme.EndsType (l : Lexeme) (after : List Lexeme) : Prop :=
  l.IsConstraintWord ∧ l.StandsAlone after

/-- A word that is a constraint word once its letter case is forgotten. -/
theorem isConstraintWord_of_isWord {l : Lexeme} {word : Text} (hword : word ∈ constraintWords)
    (h : l.isWord word = true) : l.IsConstraintWord := by
  have hcapitals : ∀ word ∈ constraintWords, upper word = word := by decide +kernel
  rw [Lexeme.isWord] at h
  split at h
  · next w htoken =>
    refine ⟨w, htoken, ?_⟩
    rw [upper_congr h, hcapitals word hword]
    exact hword
  · cases h

/-- A text whose capital form is a constraint word has word characters only. -/
theorem isWordChar_of_upper_mem {s : Text} (h : upper s ∈ constraintWords) :
    ∀ c ∈ s, isWordChar c = true := by
  have hwords : constraintWords.all (·.all isWordChar) = true := by decide +kernel
  have hword : (upper s).all isWordChar = true := List.all_eq_true.1 hwords _ h
  exact isWordChar_of_upper (List.all_eq_true.1 hword)

/-- What stands behind a lexeme is set apart from it by a blank, or there is
    nothing. -/
theorem forall_gap_ne_nil_iff {ls : List Lexeme} (h : Legible ls []) :
    (∀ m ∈ ls.head?, m.gap ≠ []) ↔ ∀ c ∈ (sourceText ls).head?, isBlank c = true := by
  cases ls with
  | nil => simp
  | cons m ms =>
    have hgap := startsBlank_iff h.1 ms
    have hne : sourceText (m :: ms) ≠ [] := sourceText_ne_nil h (List.cons_ne_nil m ms)
    obtain ⟨c, hc⟩ := Option.ne_none_iff_exists'.1 (mt List.head?_eq_none_iff.1 hne)
    rw [hc] at hgap ⊢
    simpa using hgap.symm

/-- **A first word of word characters** is the lexeme that it starts with, and a
    blank follows it, or nothing does. -/
theorem Lexeme.Legible.token_of_firstWord {l : Lexeme} {rest : Text} (h : l.Legible rest)
    (hchars : ∀ c ∈ firstWord (l.source ++ rest), isWordChar c = true) :
    l.token = .word l.source ∧ ∀ c ∈ rest.head?, isBlank c = true := by
  -- the lexeme starts with a word character, so it is a word
  have htoken : l.token = .word l.source := by
    apply h.token_of_head?
    obtain ⟨-, c, r, hsource, hc, -⟩ := h
    intro d hd
    obtain rfl : c = d := by simpa [hsource] using hd
    apply hchars
    rw [hsource, ← List.singleton_append, List.append_assoc,
      Text.firstWord_append_of_not_blank (by simp) (by simpa using hc)]
    simp
  obtain ⟨-, hne, hsource, hrest⟩ := h.word_of_token htoken
  refine ⟨htoken, ?_⟩
  intro c hc
  by_contra hblank
  -- what follows it would be one more word character
  have hin : c ∈ rest.takeWhile fun c => !isBlank c := by
    obtain ⟨r, hr⟩ := List.head?_eq_some_iff.1 hc
    rw [hr, List.takeWhile_cons_of_pos (by simpa using hblank)]
    exact List.mem_cons_self
  have hword : isWordChar c = true := by
    apply hchars
    rw [Text.firstWord_append_of_not_blank hne fun c hc => isBlank_of_isWordChar (hsource c hc)]
    exact List.mem_append_right _ hin
  rw [hrest c hc] at hword
  cases hword

/-- **Constraints open at constraint words between blanks**, and nowhere
    else. -/
theorem opensConstraint_iff_endsType {l : Lexeme} {ls : List Lexeme} (h : Legible (l :: ls) []) :
    OpensConstraint (sourceText (l :: ls)) ↔ l.EndsType ls := by
  obtain ⟨hl, hls⟩ := h
  rw [List.append_nil] at hl
  have hfront := startsBlank_iff hl ls
  have hback := forall_gap_ne_nil_iff hls
  have hskip : firstWord (sourceText (l :: ls)) = firstWord (l.source ++ sourceText ls) := by
    rw [sourceText_cons, List.append_assoc, Text.firstWord_blanks_append hl.1]
  -- the first word of a word is the word, if a blank follows it
  have hword : ∀ {w}, l.token = .word w → (∀ c ∈ (sourceText ls).head?, isBlank c = true) →
      firstWord (l.source ++ sourceText ls) = w := by
    intro w htoken hend
    obtain ⟨rfl, hne, hsource, -⟩ := hl.word_of_token htoken
    have hnot : ∀ c ∈ l.source, isBlank c = false := fun c hc => isBlank_of_isWordChar (hsource c hc)
    exact (Text.firstWord_append_eq_self_iff hne hnot _).2 hend
  constructor
  · rintro ⟨hblank, hmem⟩
    have hchars := isWordChar_of_upper_mem hmem
    rw [hskip] at hmem hchars
    obtain ⟨htoken, hend⟩ := hl.token_of_firstWord hchars
    rw [hword htoken hend] at hmem
    exact ⟨⟨l.source, htoken, hmem⟩, hfront.1 hblank, hback.2 hend⟩
  · rintro ⟨⟨w, htoken, hmem⟩, hgap, hgaps⟩
    refine ⟨hfront.2 hgap, ?_⟩
    rw [hskip, hword htoken (hback.1 hgaps)]
    exact hmem

/-! ### A row of lexemes and its type -/

/-- The scan behind a row of lexemes has the depth of their tokens, if
    something follows them. -/
theorem Legible.run_sourceText {ls : List Lexeme} {rest : Text} (h : Legible ls rest)
    (hrest : rest ≠ []) (depth : Nat) : Nesting.run ⟨depth, none⟩ (sourceText ls) =
      ⟨(ls.map (·.token)).foldl tokenDepth depth, none⟩ := by
  induction ls generalizing depth with
  | nil => rfl
  | cons l ls ih =>
    have hgap := (sealed_of_isBlankText depth h.1.1).run_eq
    have hne : sourceText ls ++ rest ≠ [] := fun hnil => hrest (List.append_eq_nil_iff.1 hnil).2
    have hsource := (h.1.run_eq depth).resolve_right fun hnil => hne hnil.1
    rw [sourceText_cons, Nesting.run_append, Nesting.run_append, hgap, hsource, ih h.2]
    rfl

/-- Between two lexemes of a row the scan is outside quotes, and so it is where
    it started if the tokens in front leave no parenthesis open. -/
theorem run_sourceText_eq_start_iff {front after : List Lexeme} (h : Legible (front ++ after) [])
    (hne : after ≠ []) : Nesting.start.run (sourceText front) = .start ↔
      (front.map (·.token)).foldl tokenDepth 0 = 0 := by
  obtain ⟨hfront, hafter⟩ := legible_append.1 h
  have htext : sourceText after ++ [] ≠ [] := by
    rw [List.append_nil]
    exact sourceText_ne_nil hafter hne
  have hrun := hfront.run_sourceText htext 0
  rw [Nesting.start, hrun]
  simp

/-- The row `ls` is `type` and then `behind`, divided in front of the first
    lexeme outside parentheses that ends a type, or at the end. -/
structure DividesRow (ls type behind : List Lexeme) : Prop where
  split : ls = type ++ behind
  ended : behind = [] ∨ (type.map (·.token)).foldl tokenDepth 0 = 0 ∧
    ∃ m back, behind = m :: back ∧ m.EndsType back
  first : ∀ front m back, type = front ++ m :: back →
    (front.map (·.token)).foldl tokenDepth 0 = 0 → ¬ m.EndsType (back ++ behind)

/-- The lexemes of a text are those of its type and those of what stands
    behind it. -/
theorem IsTypeOf.lex_eq {text type behind : Text} (h : IsTypeOf text type behind) :
    lex text = lex type ++ lex behind := by
  rw [h.split]
  rcases h.ended with rfl | ⟨hstart, hopens⟩
  · rw [List.append_nil, lex_eq_nil (s := []) rfl, List.append_nil]
  · obtain ⟨blanks, -, htype, hlex⟩ := lex_append (s := type) (by rw [hstart]; rfl)
    rw [sourceText_lex_eq_self h.trimmed.2] at htype
    rw [hlex behind hopens.apart, List.append_right_eq_self.1 htype.symm, List.nil_append]

/-- What stands behind a type ends in no blank either. -/
theorem IsTypeOf.sourceText_lex_behind {text type behind : Text} (h : IsTypeOf text type behind)
    (htext : Trimmed text) : sourceText (lex behind) = behind := by
  have hsource := sourceText_lex_eq_self htext.2
  rw [h.lex_eq, sourceText_append, sourceText_lex_eq_self h.trimmed.2] at hsource
  exact List.append_cancel_left (hsource.trans h.split)

/-- **A type is the front of its row.** Behind the first lexeme, which is no
    parenthesis, the row is divided where the text is. -/
theorem IsTypeOf.exists_dividesRow {text type behind : Text} {k : Lexeme} {ls : List Lexeme}
    (h : IsTypeOf text type behind) (htext : Trimmed text) (hlex : lex text = k :: ls)
    (hk : tokenDepth 0 k.token = 0) :
    ∃ row, lex type = k :: row ∧ DividesRow ls row (lex behind) := by
  have hlegible := legible_lex_nil htext.2
  have hrow := h.lex_eq
  have htype : sourceText (lex type) = type := sourceText_lex_eq_self h.trimmed.2
  have hbehind := h.sourceText_lex_behind htext
  cases hfirst : lex type with
  | nil =>
    rw [hfirst] at htype
    exact absurd htype.symm h.ne_nil
  | cons k' row =>
    rw [hfirst] at hrow htype
    rw [hrow] at hlex hlegible
    obtain ⟨rfl, rfl⟩ := List.cons.inj hlex
    have hscan : ∀ front after, row ++ lex behind = front ++ after → after ≠ [] →
        (Nesting.start.run (sourceText (k' :: front)) = .start ↔
          (front.map (·.token)).foldl tokenDepth 0 = 0) := by
      intro front after hsplit hne
      rw [List.cons_append, hsplit, ← List.cons_append] at hlegible
      have hrun := run_sourceText_eq_start_iff hlegible hne
      rwa [List.map_cons, List.foldl_cons, hk] at hrun
    refine ⟨row, rfl, rfl, ?_, ?_⟩
    · rcases h.ended with rfl | ⟨hstart, hopens⟩
      · exact Or.inl (lex_eq_nil rfl)
      · right
        have hne : lex behind ≠ [] := by
          intro hnil
          rw [hnil] at hbehind
          exact hopens.ne_nil hbehind.symm
        have hdepth := hscan row (lex behind) rfl hne
        rw [htype] at hdepth
        have hafter := (legible_append.1 hlegible).2
        obtain ⟨m, back, hcons⟩ := List.exists_cons_of_ne_nil hne
        rw [← hbehind, hcons] at hopens
        rw [hcons] at hafter
        exact ⟨hdepth.1 hstart, m, back, hcons, (opensConstraint_iff_endsType hafter).1 hopens⟩
    · intro front m back hsplit hdepth hends
      have hrest : row ++ lex behind = front ++ m :: (back ++ lex behind) := by
        rw [hsplit, List.append_assoc, List.cons_append]
      have hstart := (hscan front _ hrest (List.cons_ne_nil _ _)).2 hdepth
      rw [List.cons_append, hrest, ← List.cons_append] at hlegible
      have hafter := (legible_append.1 hlegible).2
      have hopens := (opensConstraint_iff_endsType hafter).2 hends
      rw [← List.cons_append] at hopens hafter
      rw [sourceText_append, hbehind] at hopens
      have hne := sourceText_ne_nil (legible_append.1 hafter).1 (List.cons_ne_nil m back)
      refine h.first (sourceText (k' :: front)) (sourceText (m :: back)) ?_ hne hstart hopens
      rw [← htype, hsplit, ← sourceText_append]
      rfl

/-! ### The words of a type -/

/-- The word `word`, in any letter case, is one of the tokens `ts`, outside
    parentheses and not the first. -/
def HoldsWord (word : Text) (ts : List Token) : Prop :=
  ∃ first before w after, ts = first :: (before ++ .word w :: after) ∧
    (first :: before).foldl tokenDepth 0 = 0 ∧ equalsIgnoringCase w word = true

/-- `l` stands in the row `ls` outside parentheses, with `before` in front of it
    and `after` behind it. -/
structure StandsAt (ls before : List Lexeme) (l : Lexeme) (after : List Lexeme) : Prop where
  split : ls = before ++ l :: after
  outside : (before.map (·.token)).foldl tokenDepth 0 = 0

theorem isWord_iff {l : Lexeme} {word : Text} :
    l.isWord word = true ↔ ∃ w, l.token = .word w ∧ equalsIgnoringCase w word = true := by
  rw [Lexeme.isWord]
  split
  · next w htoken => simp [htoken]
  · next hnot =>
    refine iff_of_false Bool.false_ne_true ?_
    rintro ⟨w, htoken, -⟩
    exact hnot w htoken

theorem holdsWord_cons_iff {word : Text} {k : Lexeme} {ls : List Lexeme}
    (hk : tokenDepth 0 k.token = 0) : HoldsWord word ((k :: ls).map (·.token)) ↔
      ∃ before l after, StandsAt ls before l after ∧ l.isWord word = true := by
  constructor
  · rintro ⟨first, before, w, after, hsplit, hdepth, hword⟩
    obtain ⟨rfl, hrow⟩ := List.cons.inj hsplit
    obtain ⟨front, rest, rfl, rfl, hrest⟩ := List.map_eq_append_iff.1 hrow
    obtain ⟨l, back, rfl, htoken, -⟩ := List.map_eq_cons_iff.1 hrest
    rw [List.foldl_cons, hk] at hdepth
    exact ⟨front, l, back, ⟨rfl, hdepth⟩, isWord_iff.2 ⟨w, htoken, hword⟩⟩
  · rintro ⟨before, l, after, ⟨rfl, hdepth⟩, hword⟩
    obtain ⟨w, htoken, hw⟩ := isWord_iff.1 hword
    refine ⟨k.token, before.map (·.token), w, after.map (·.token), ?_, ?_, hw⟩
    · rw [List.map_cons, List.map_append, List.map_cons, htoken]
    · rw [List.foldl_cons, hk]
      exact hdepth

/-- The places in the front part of a row. -/
theorem standsAt_append_iff {front behind before after : List Lexeme} {l : Lexeme} :
    StandsAt (front ++ behind) before l after ∧ before.length < front.length ↔
      ∃ rest, after = rest ++ behind ∧ StandsAt front before l rest := by
  constructor
  · rintro ⟨⟨hsplit, hdepth⟩, hlt⟩
    rcases List.append_eq_append_iff.1 hsplit with ⟨t, rfl, -⟩ | ⟨t, rfl, hrest⟩
    · rw [List.length_append] at hlt
      omega
    · cases t with
      | nil => simp at hlt
      | cons k t =>
        obtain ⟨rfl, rfl⟩ := List.cons.inj hrest
        exact ⟨t, rfl, rfl, hdepth⟩
  · rintro ⟨rest, rfl, rfl, hdepth⟩
    refine ⟨⟨?_, hdepth⟩, ?_⟩
    · rw [List.append_assoc, List.cons_append]
    · simp

/-- **A place is in front of the division** if and only if all lexemes that end
    a type come behind it. -/
theorem DividesRow.length_lt_iff {ls type behind before after : List Lexeme} {l : Lexeme}
    (h : DividesRow ls type behind) (hl : StandsAt ls before l after) :
    before.length < type.length ↔ ∀ front m back, StandsAt ls front m back → m.EndsType back →
      before.length < front.length := by
  obtain ⟨rfl, hended, hfirst⟩ := h
  constructor
  · intro hlt front m back hm hends
    by_contra hle
    obtain ⟨rest, rfl, hsplit, hdepth⟩ := standsAt_append_iff.1 ⟨hm, by omega⟩
    exact hfirst front m rest hsplit hdepth hends
  · intro hall
    rcases hended with rfl | ⟨hdepth, m, back, rfl, hends⟩
    · have hlen := congrArg List.length hl.split
      simp only [List.length_append, List.length_cons, List.append_nil] at hlen
      omega
    · exact hall type m back ⟨rfl, hdepth⟩ hends

/-- Without the blanks in front of it, a row starts with its first lexeme. -/
theorem trim_sourceText {l : Lexeme} {ls : List Lexeme} (h : Legible (l :: ls) [])
    (hlast : ∀ c ∈ (sourceText (l :: ls)).getLast?, isBlank c = false) :
    trim (sourceText (l :: ls)) = sourceText (⟨[], l.source, l.token⟩ :: ls) ∧
      Legible (⟨[], l.source, l.token⟩ :: ls) [] := by
  obtain ⟨⟨hgap, hfirst⟩, hls⟩ := h
  refine ⟨?_, ⟨rfl, hfirst⟩, hls⟩
  obtain ⟨c, r, hsource, hc, -⟩ := hfirst
  rw [Text.trim_eq_trimStart hlast, sourceText_cons, List.append_assoc, Text.trimStart,
    List.dropWhile_append_of_pos (List.all_eq_true.1 hgap), hsource]
  exact List.dropWhile_cons_of_neg (by simp [hc])

/-- **A column's type is the front of its row**, divided in front of the first
    lexeme that ends a type. -/
theorem exists_dividesRow_of_column {text : Text} {d : ColumnDefinition}
    (h : classify text = .column d) : ∃ k row behind, tokenDepth 0 k.token = 0 ∧
      lex d.column.declaredType = k :: row ∧ DividesRow ((lex (trim text)).drop 2) row behind := by
  obtain ⟨first, second, rest, hlex, hdefines⟩ := ((classify_eq_column_iff text).2 d).1 h
  obtain ⟨word, htoken, -⟩ := hdefines.starts.type
  have hlast := (Text.trimmed_trim text).2
  have hlegible := legible_lex_nil hlast
  have hsource := sourceText_lex_eq_self hlast
  rw [hlex] at hlegible hsource ⊢
  have hne := sourceText_ne_nil hlegible.2 (List.cons_ne_nil second rest)
  have hlast' : ∀ c ∈ (sourceText (second :: rest)).getLast?, isBlank c = false := by
    intro c hc
    apply hlast
    rw [← hsource, sourceText_cons, List.getLast?_append_of_ne_nil _ hne]
    exact hc
  obtain ⟨htrim, hrow⟩ := trim_sourceText hlegible.2 hlast'
  have hblank : isBlankText (sourceText (second :: rest)) = false := by
    rw [Bool.eq_false_iff, Ne, ← Text.trim_eq_nil_iff, htrim]
    exact sourceText_ne_nil hrow (List.cons_ne_nil _ rest)
  obtain ⟨behind, htype⟩ := isTypeOf_declaredType hblank
  have hlex' : lex (trim (sourceText (second :: rest))) = ⟨[], second.source, second.token⟩ :: rest := by
    rw [htrim, lex_sourceText hrow]
  obtain ⟨row, hlextype, hdivides⟩ :=
    htype.exists_dividesRow (Text.trimmed_trim _) hlex' (by rw [htoken]; rfl)
  rw [hdefines.declaredType]
  exact ⟨_, row, lex behind, by rw [htoken]; rfl, hlextype, hdivides⟩

/-- The constraint word `word` stands in `ls` outside parentheses, and it touches
    the lexeme in front of it or the one behind it.  All lexemes outside
    parentheses that end a type come after it. -/
def StaysInType (word : Text) (ls : List Lexeme) : Prop :=
  ∃ before l after, StandsAt ls before l after ∧ l.isWord word = true ∧ ¬ l.StandsAlone after ∧
    ∀ front m back, StandsAt ls front m back → m.EndsType back → before.length < front.length

/-- **Which constraint words a type holds.** The declared type holds a constraint
    word, outside parentheses and not as its first token, if and only if the
    definition has the word behind that token, where it touches what is in
    front of it or behind it, before any constraint word between blanks. -/
theorem holdsWord_declaredType_iff {text : Text} {d : ColumnDefinition} {word : Text}
    (h : classify text = .column d) (hword : word ∈ constraintWords) :
    HoldsWord word (tokens d.column.declaredType) ↔ StaysInType word ((lex (trim text)).drop 2) := by
  obtain ⟨k, row, behind, hk, hlex, hdivides⟩ := exists_dividesRow_of_column h
  rw [tokens, hlex, holdsWord_cons_iff hk]
  constructor
  · rintro ⟨before, l, rest, hl, hisword⟩
    obtain ⟨hstands, hlt⟩ := standsAt_append_iff.2 ⟨rest, rfl, hl⟩
    rw [← hdivides.split] at hstands
    have hall := (hdivides.length_lt_iff hstands).1 hlt
    refine ⟨before, l, rest ++ behind, hstands, hisword, ?_, hall⟩
    intro halone
    -- it would end the type itself
    have hends : l.EndsType (rest ++ behind) := ⟨isConstraintWord_of_isWord hword hisword, halone⟩
    exact Nat.lt_irrefl _ (hall before l (rest ++ behind) hstands hends)
  · rintro ⟨before, l, after, hstands, hisword, -, hall⟩
    have hlt := (hdivides.length_lt_iff hstands).2 hall
    rw [hdivides.split] at hstands
    obtain ⟨rest, -, hl⟩ := standsAt_append_iff.1 ⟨hstands, hlt⟩
    exact ⟨before, l, rest, hl, hisword⟩

/-- The default of this column touches its parenthesis, and so it becomes a part
    of the type; the words NOT NULL end it. -/
theorem holdsWord_declaredType_default :
    let text : Text := "id INT unsigned default(5) NOT NULL"
    let d : ColumnDefinition := ⟨⟨"id", "INT unsigned default(5)", false⟩, false, none⟩
    classify text = .column d ∧ ("DEFAULT" : Text) ∈ constraintWords ∧
      HoldsWord "DEFAULT" (tokens d.column.declaredType) ∧
      StaysInType "DEFAULT" ((lex (trim text)).drop 2) := by
  intro text d
  have hcolumn : classify text = .column d := by decide +kernel
  have hword : ("DEFAULT" : Text) ∈ constraintWords := by decide +kernel
  have hholds : HoldsWord "DEFAULT" (tokens d.column.declaredType) :=
    ⟨.word "INT", [.word "unsigned"], "default", [.openParen, .word "5", .closeParen],
      by decide +kernel, by decide, by decide⟩
  exact ⟨hcolumn, hword, hholds, (holdsWord_declaredType_iff hcolumn hword).1 hholds⟩

/-- So a constraint can become a part of the type. -/
theorem declaredType_keeps_constraint :
    let text : Text := "id INT DEFAULT(5)"
    ∃ d, classify text = .column d ∧ d.column.declaredType = "INT DEFAULT(5)" ∧
      HoldsWord "DEFAULT" (tokens d.column.declaredType) := by
  intro text
  refine ⟨⟨⟨"id", "INT DEFAULT(5)", true⟩, false, none⟩, by decide +kernel, rfl, ?_⟩
  exact ⟨.word "INT", [], "DEFAULT", [.openParen, .word "5", .closeParen], by decide +kernel,
    by decide, by decide⟩

end Ddl

end SchemaDiagram
