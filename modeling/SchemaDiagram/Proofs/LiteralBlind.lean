import SchemaDiagram.Proofs.Correspondence
import SchemaDiagram.Proofs.Quoting

/-! # LiteralBlind — the text of a literal never matters to a key

    A literal outside parentheses, such as a comment or a default, may hold
    any text.  What a definition says about keys and names is the same
    whatever it holds: no reader looks into a literal, and the texts that are
    cut out of a definition lie in parentheses.

      * `literalText`                — a text as a literal
      * `hideLiterals`               — lexemes with the literals outside
                                       parentheses emptied
      * `closeGroupText?_hideLiterals`,
        `hideLiterals_correspondence`
                                     — the readers see no difference
      * `lex_trim_literalText`       — a literal in a text is one lexeme
      * `Definition.keyPart`         — what a definition says about keys
      * `classify_literal_keyPart`   — and what its literals cannot change -/

namespace SchemaDiagram.Ddl

open Text (isBlank isBlankText trim trimStart trimEnd)

/-! ### Literals -/

/-- `w` with its apostrophes and backslashes doubled. -/
def escaped (w : Text) : Text := w.flatMap fun c => if c = '\x27' || c = '\\' then [c, c] else [c]

/-- `w` as a literal, between apostrophes. -/
def literalText (w : Text) : Text := '\x27' :: (escaped w ++ ['\x27'])

/-- A literal stands for its text. -/
theorem spells_escaped (w : Text) : Spells '\x27' (escaped w) w := by
  have hspell : escaped w = Escape.doubling.spell '\x27' w := by
    simp [escaped, Escape.spell, Escape.sign]
  rw [hspell]
  exact Escape.doubling.spells_spell (by decide) w

/-- A literal as a token, behind `gap`. -/
def literalLexeme (gap w : Text) : Lexeme := ⟨gap, literalText w, .literal w⟩

theorem legible_literalLexeme {gap rest : Text} (w : Text) (hgap : isBlankText gap = true)
    (hrest : rest.head? ≠ some '\x27') : (literalLexeme gap w).Legible rest :=
  (spells_escaped w).legible rfl hgap fun _ hc hmark => hrest (hmark ▸ hc)

/-! ### Lexemes without their literals -/

/-- `l` behind `depth` open parentheses, emptied if it is a literal outside of
    all of them. -/
def Lexeme.hideLiteral (depth : Nat) (l : Lexeme) : Lexeme :=
  match l.token, depth with
  | .literal _, 0 => literalLexeme l.gap []
  | _, _ => l

/-- `ls`, behind lexemes that leave `depth` parentheses open, with the literals
    outside parentheses emptied. -/
def hideLiterals : (depth : Nat) → List Lexeme → List Lexeme
  | _, [] => []
  | depth, l :: ls => l.hideLiteral depth :: hideLiterals (tokenDepth depth l.token) ls

theorem hideLiterals_append (depth : Nat) (ls ms : List Lexeme) :
    hideLiterals depth (ls ++ ms) =
      hideLiterals depth ls ++ hideLiterals ((ls.map (·.token)).foldl tokenDepth depth) ms := by
  induction ls generalizing depth with
  | nil => rfl
  | cons l ls ih => simp only [List.cons_append, hideLiterals, ih, List.map_cons, List.foldl_cons]

theorem hideLiteral_succ (depth : Nat) (l : Lexeme) : l.hideLiteral (depth + 1) = l := by
  unfold Lexeme.hideLiteral
  split
  · next hdepth => cases hdepth
  · rfl

@[simp] theorem gap_hideLiteral (depth : Nat) (l : Lexeme) : (l.hideLiteral depth).gap = l.gap := by
  unfold Lexeme.hideLiteral
  split <;> rfl

/-- With `id` for the change of names, a lexeme corresponds to itself, and a
    literal to any other. -/
theorem corresponds_hideLiteral (depth : Nat) (l : Lexeme) :
    l.token.Corresponds id (l.hideLiteral depth).token := by
  unfold Lexeme.hideLiteral
  split
  · next w htoken =>
    rw [htoken]
    exact .literal w []
  · cases l.token with
    | word w => exact .word fun _ => rfl
    | quotedName w => exact .quotedName w
    | literal w => exact .literal w w
    | openParen => exact .openParen
    | closeParen => exact .closeParen
    | comma => exact .comma
    | dot => exact .dot
    | symbol c => exact .symbol c c

/-- **Groups hold what they held.** A literal in a group stands in parentheses,
    and is not emptied; `depth` is what the group leaves open behind it. -/
theorem closeGroupText?_hideLiterals (depth inner : Nat) (ls : List Lexeme) :
    closeGroupText? inner (hideLiterals (depth + inner + 1) ls) =
      (closeGroupText? inner ls).map (Prod.map id (hideLiterals depth)) := by
  induction ls generalizing inner with
  | nil =>
    rw [hideLiterals, closeGroupText?.eq_1]
    rfl
  | cons l ls ih =>
    have hopen := ih (inner + 1)
    rw [← Nat.add_assoc] at hopen
    obtain ⟨gap, source, token⟩ := l
    rw [hideLiterals, hideLiteral_succ, closeGroupText?.eq_def, closeGroupText?.eq_def]
    cases token
    case openParen => simp [tokenDepth, hopen, Function.comp_def]
    case closeParen =>
      cases inner with
      | zero => rfl
      | succ inner => simp [tokenDepth, ← Nat.add_assoc, ih, Function.comp_def]
    all_goals simp [tokenDepth, ih, Function.comp_def]

theorem group?_hideLiterals (depth : Nat) (ls : List Lexeme) :
    group? (hideLiterals depth ls) = (group? ls).map (Prod.map id (hideLiterals depth)) := by
  cases ls with
  | nil => rfl
  | cons l ls =>
    have htoken : (l.hideLiteral depth).token = .openParen ↔ l.token = .openParen :=
      token_eq_iff_of_corresponds (corresponds_hideLiteral depth l) (Or.inl rfl)
    rw [hideLiterals, group?, group?]
    simp only [htoken]
    split
    · next hopen =>
      rw [hopen]
      exact closeGroupText?_hideLiterals depth 0 ls
    · rfl

/-- **No reader sees the difference.** -/
theorem hideLiterals_correspondence :
    Correspondence id fun ls ls' => ∃ depth, ls' = hideLiterals depth ls where
  bareName := fun _ => rfl
  isPlain := fun _ => rfl
  first := by
    rintro ls _ ⟨depth, rfl⟩
    cases ls with
    | nil => exact .nil
    | cons l ls =>
      refine .cons (corresponds_hideLiteral depth l) ?_ ⟨_, rfl⟩
      rw [gap_hideLiteral]
  group? := by
    rintro ls _ ⟨depth, rfl⟩
    rw [group?_hideLiterals]
    cases group? ls with
    | none => exact .none
    | some p => exact .some ⟨(List.map_id _).symm, depth, rfl⟩

/-! ### What a definition says about keys -/

/-- A definition without the texts that literals may be part of: the type of a
    column and whether it admits NULL, and a text that is not recognized. -/
def Definition.keyPart : Definition → Definition
  | .column d => .column { d with column := ⟨d.column.name, [], true⟩ }
  | .unrecognized _ => .unrecognized []
  | definition => definition

theorem mapNames_id (key : ForeignKey) : key.mapNames id = key := by
  simp [ForeignKey.mapNames]

theorem keyPart_definition?_hideLiterals (depth : Nat) (ls : List Lexeme) :
    (definition? (hideLiterals depth ls)).map Definition.keyPart =
      (definition? ls).map Definition.keyPart := by
  have c := hideLiterals_correspondence
  have h : ∃ d, hideLiterals depth ls = hideLiterals d ls := ⟨depth, rfl⟩
  have hrel : Option.Rel (fun d d' : Definition => d'.keyPart = d.keyPart) (definition? ls)
      (definition? (hideLiterals depth ls)) := by
    refine c.definition? h (fun columns => ?_) (fun key => ?_) rfl ?_
    · rw [List.map_id]
    · rw [mapNames_id]
    · refine rel_imp (c.columnDefinition? h) fun d d' ⟨hname, hprimary, href⟩ => ?_
      have hkeys : ForeignKey.mapNames id = id := funext mapNames_id
      rw [hkeys, Option.map_id] at href
      simp only [Definition.keyPart, hname, hprimary, href, id]
  exact map_eq_map_of_rel hrel

/-! ### A literal in a definition -/

/-- **A literal in a text is one lexeme.** The others are the same whatever it
    holds. -/
theorem lex_trim_literalText {before after : Text} (hquote : (Nesting.start.run before).quote = none)
    (hbefore : ∃ c ∈ before.getLast?, isBlank c = true)
    (hafter : ∀ c ∈ after.head?, isBlank c = true) :
    ∃ ls gap ms, ls.map (·.token) = tokens before ∧
      ∀ w, lex (trim (before ++ literalText w ++ after)) = ls ++ literalLexeme gap w :: ms := by
  -- trimming takes blanks off the two texts around the literal
  have htrim : ∀ w, trim (before ++ literalText w ++ after) =
      trimStart before ++ (literalText w ++ trimEnd after) := by
    intro w
    have hlast : (trimStart before ++ literalText w).getLast? = some '\x27' := by
      rw [literalText, List.getLast?_append, ← List.cons_append, List.getLast?_concat]
      rfl
    rw [List.append_assoc, trim, Text.trimStart_append, ← List.append_assoc, Text.trimEnd_append,
      List.append_assoc]
    · rw [hlast]
      exact fun c hc => Option.some.inj hc ▸ by decide
    · exact fun c hc => Option.some.inj hc ▸ by decide
  have hrest : (trimEnd after).head? ≠ some '\x27' := by
    intro hhead
    obtain ⟨r, hr⟩ := List.head?_eq_some_iff.1 hhead
    obtain ⟨t, ht⟩ := Text.trimEnd_prefix after
    rw [hr] at ht
    exact absurd (hafter '\x27' (by rw [← ht]; rfl)) (by decide)
  have hliteral : ∀ {gap : Text} (w : Text), isBlankText gap = true →
      lex (gap ++ (literalText w ++ trimEnd after)) = literalLexeme gap w :: lex (trimEnd after) := by
    intro gap w hgap
    have hread := lex_of_legible (legible_literalLexeme w hgap hrest)
    rwa [List.append_assoc] at hread
  -- what is left of the text in front of the literal
  have hfront : before.takeWhile isBlank ++ trimStart before = before :=
    Text.takeWhile_append_trimStart before
  have hblank : isBlankText (before.takeWhile isBlank) = true := Text.isBlankText_takeWhile before
  have htokens : tokens (trimStart before) = tokens before := by
    rw [← tokens_blanks_append hblank (trimStart before), hfront]
  rcases List.eq_nil_or_concat (trimStart before) with hnil | ⟨s, c, hs⟩
  · refine ⟨[], [], lex (trimEnd after), by rw [← htokens, hnil, tokens_blank rfl, List.map_nil],
      fun w => ?_⟩
    rw [htrim, hnil]
    exact hliteral w rfl
  · -- it ends in a blank, so no token goes on into the literal
    have hc : isBlank c = true := by
      obtain ⟨d, hd, hblank⟩ := hbefore
      rw [← hfront, hs, List.concat_eq_append, ← List.append_assoc, List.getLast?_concat] at hd
      exact Option.some.inj hd ▸ hblank
    have hcBlank : isBlankText [c] = true := by rw [isBlankText, List.all_cons, hc]; rfl
    have hsQuote : (Nesting.start.run s).quote = none := by
      have hstart := (sealed_of_isBlankText 0 hblank).run_eq
      rw [← hfront, Nesting.run_append, Nesting.start, hstart, hs, List.concat_eq_append,
        Nesting.run_append] at hquote
      exact quote_eq_none_of_run_blanks (isQuote_mark_run (by simp [Nesting.start]) s) hcBlank hquote
    obtain ⟨blanks, hblanks, -, hlex⟩ := lex_append hsQuote
    refine ⟨lex s, blanks ++ [c], lex (trimEnd after), ?_, fun w => ?_⟩
    · have happend := tokens_append hsQuote (apart_of_isBlankText hcBlank)
      rw [tokens_blank hcBlank, List.append_nil] at happend
      rw [← htokens, hs, List.concat_eq_append, happend]
      rfl
    · have hgap : isBlankText (blanks ++ [c]) = true := by
        rw [isBlankText, List.all_append, Bool.and_eq_true]
        exact ⟨hblanks, hcBlank⟩
      have hnext : Apart ([c] ++ (literalText w ++ trimEnd after)) := by
        intro d hd
        exact apart_of_isBlankText hcBlank d hd
      rw [htrim, hs, List.concat_eq_append, List.append_assoc, hlex _ hnext, ← List.append_assoc,
        hliteral w hgap]

/-! ### Classification -/

theorem keyPart_classify (text : Text) :
    (classify text).keyPart =
      ((definition? (lex (trim text))).map Definition.keyPart).getD (.unrecognized []) := by
  rw [classify]
  cases definition? (lex (trim text)) <;> rfl

/-- **The text of a literal does not steer the classification.** With one text
    or another in a literal that stands outside parentheses, with blanks
    around it, a definition is of the same kind, and has the same keys and the
    same name. -/
theorem classify_literal_keyPart {before after : Text}
    (hquote : (Nesting.start.run before).quote = none)
    (hdepth : (tokens before).foldl tokenDepth 0 = 0)
    (hbefore : ∃ c ∈ before.getLast?, isBlank c = true)
    (hafter : ∀ c ∈ after.head?, isBlank c = true) (v w : Text) :
    (classify (before ++ literalText v ++ after)).keyPart =
      (classify (before ++ literalText w ++ after)).keyPart := by
  obtain ⟨ls, gap, ms, hls, hlex⟩ := lex_trim_literalText hquote hbefore hafter
  -- without its text the literal is the same in both
  have hhide : ∀ u, hideLiterals 0 (lex (trim (before ++ literalText u ++ after))) =
      hideLiterals 0 ls ++ literalLexeme gap [] :: hideLiterals 0 ms := by
    intro u
    rw [hlex, hideLiterals_append, hls, hdepth]
    rfl
  rw [keyPart_classify, keyPart_classify, ← keyPart_definition?_hideLiterals 0 (lex _), hhide v,
    ← hhide w, keyPart_definition?_hideLiterals]

/-- Keywords, a group and marks in a comment make no key, and hide none. -/
theorem classify_literal_keyPart_comment :
    let before : Text := "owner INT COMMENT "
    let after : Text := " REFERENCES person (id)"
    let key : ForeignKey := ⟨["owner"], "person", ["id"], none⟩
    ((Nesting.start.run before).quote = none ∧ (tokens before).foldl tokenDepth 0 = 0 ∧
        (∃ c ∈ before.getLast?, isBlank c = true) ∧ ∀ c ∈ after.head?, isBlank c = true) ∧
      (classify (before ++ literalText "'PRIMARY KEY' REFERENCES t(id) \\ (" ++ after)).keyPart =
        .column ⟨⟨"owner", [], true⟩, false, some key⟩ := by
  intro before after key
  have hquote : (Nesting.start.run before).quote = none := by decide +kernel
  have hdepth : (tokens before).foldl tokenDepth 0 = 0 := by decide +kernel
  have hbefore : ∃ c ∈ before.getLast?, isBlank c = true := ⟨' ', by decide, by decide⟩
  have hafter : ∀ c ∈ after.head?, isBlank c = true := by
    intro c hc
    obtain rfl : ' ' = c := Option.some.inj hc
    decide
  refine ⟨⟨hquote, hdepth, hbefore, hafter⟩, ?_⟩
  rw [classify_literal_keyPart hquote hdepth hbefore hafter _ []]
  decide +kernel

end SchemaDiagram.Ddl
