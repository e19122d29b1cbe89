import SchemaDiagram.Proofs.ClauseGrammar
import SchemaDiagram.Proofs.Naming
import SchemaDiagram.Proofs.SizedType
import SchemaDiagram.Proofs.Tokenizing

/-! # Spelling — the ways to write the parts of a definition

    A definition may be written with any blanks between its parts, its
    keywords in any letter case, and its names bare or in marks of either
    kind.  A spelling holds these choices and the proof that they are
    allowed.  Each part is read as the same token, whatever its spelling.

      * `Gap`, `Space`              — blanks
      * `Keyword`                   — a word in some letter case
      * `WrittenName`               — a name, bare or in marks
      * `ListedName`, `writtenList` — a list of names in parentheses
      * `dropWord?_keyword`,
        `identifier?_writtenName`   — keywords and names are read back
      * `isGroup_writtenList`,
        `identifierList_writtenList`
                                    — and so are lists -/

namespace SchemaDiagram.Ddl

open Text (isBlank isBlankText equalsIgnoringCase equalsIgnoringCase_iff equalsIgnoringCase_refl foldCase
  joined trim Trimmed)

/-! ### Blanks -/

/-- Blanks, or nothing. -/
structure Gap where
  text : Text
  blank : isBlankText text = true

/-- One blank or more. -/
structure Space extends Gap where
  ne_nil : text ≠ []

/-- No blanks. -/
def Gap.none : Gap := ⟨[], rfl⟩

/-- One space. -/
def Space.single : Space := ⟨⟨[' '], rfl⟩, List.cons_ne_nil _ _⟩

theorem Gap.apart_append (g : Gap) {rest : Text} (h : Apart rest) : Apart (g.text ++ rest) :=
  Ddl.apart_append (apart_of_isBlankText g.blank) fun _ => h

theorem Space.apart_append (s : Space) (rest : Text) : Apart (s.text ++ rest) :=
  Ddl.apart_append (apart_of_isBlankText s.blank) fun hnil => absurd hnil s.ne_nil

theorem apart_openParen (rest : Text) : Apart ('(' :: rest) := apart_cons (by decide) (by decide) rest

theorem apart_closeParen (rest : Text) : Apart (')' :: rest) :=
  apart_cons (by decide) (by decide) rest

/-! ### Keywords -/

/-- `word` in some letter case. -/
structure Keyword (word : Text) where
  text : Text
  equals : equalsIgnoringCase text word = true

/-- `word` as it stands. -/
def Keyword.plain (word : Text) : Keyword word := ⟨word, equalsIgnoringCase_refl word⟩

/-- Words that are made of ASCII letters and digits. -/
def IsAsciiWord (word : Text) : Prop := word ≠ [] ∧ (foldCase word).all Char.isAlphanum = true

instance (word : Text) : Decidable (IsAsciiWord word) := inferInstanceAs (Decidable (_ ∧ _))

namespace Keyword

variable {word : Text} (k : Keyword word)

/-- The keyword as a token behind `gap`. -/
def lexeme (gap : Text) : Lexeme := ⟨gap, k.text, .word k.text⟩

/-- Which keyword it is does not depend on its spelling. -/
theorem isWord_lexeme (gap other : Text) :
    (k.lexeme gap).isWord other = equalsIgnoringCase word other := by
  have hword : (k.lexeme gap).isWord word = true := k.equals
  exact isWord_congr hword other

variable (hword : IsAsciiWord word)
include hword

theorem ne_nil : k.text ≠ [] := by
  intro hnil
  have hfold := equalsIgnoringCase_iff.1 k.equals
  rw [hnil] at hfold
  exact hword.1 (List.map_eq_nil_iff.1 hfold.symm)

theorem isWordChar : ∀ c ∈ k.text, isWordChar c = true := by
  intro c hc
  have hlower : c.toLower ∈ foldCase word := by
    rw [← equalsIgnoringCase_iff.1 k.equals]
    exact List.mem_map_of_mem hc
  have halnum := isAlphanum_of_toLower (List.all_eq_true.1 hword.2 _ hlower)
  rw [Ddl.isWordChar, Text.isAlphanumeric_of_isAlphanum halnum]
  rfl

/-- A text that starts with a keyword starts with no blank. -/
theorem isBlank_head?_append (rest : Text) : ∀ c ∈ (k.text ++ rest).head?, isBlank c = false := by
  intro c hc
  rw [List.head?_append_of_ne_nil _ (k.ne_nil hword)] at hc
  exact isBlank_of_isWordChar (k.isWordChar hword c (List.mem_of_mem_head? hc))

theorem lex_append (g : Gap) {rest : Text} (hrest : Apart rest) :
    lex (g.text ++ (k.text ++ rest)) = k.lexeme g.text :: lex rest := by
  have hlegible : (k.lexeme g.text).Legible rest :=
    legible_word g.blank (k.ne_nil hword) (k.isWordChar hword) fun c hc => (hrest c hc).1
  have hread := lex_of_legible hlegible
  rwa [List.append_assoc] at hread

end Keyword

/-- **A keyword is read in any letter case.** -/
theorem dropWord?_keyword {word : Text} (k : Keyword word) (hword : IsAsciiWord word) (g : Gap)
    {rest : Text} (hrest : Apart rest) :
    dropWord? word (lex (g.text ++ (k.text ++ rest))) = some (lex rest) := by
  rw [k.lex_append hword g hrest, dropWord?, k.isWord_lexeme, equalsIgnoringCase_refl]
  rfl

/-! ### Names -/

/-- A name as it is written: bare if it is plain, or in marks. -/
inductive WrittenName where
  | bare (name : Text) (plain : isPlain name = true)
  | quoted (mark : Char) (isMark : isNameMark mark = true) (name : Text) (markable : IsMarkable name)

namespace WrittenName

/-- The name itself. -/
def name : WrittenName → Text
  | bare name _ => name
  | quoted _ _ name _ => name

/-- How it is written. -/
def text : WrittenName → Text
  | bare name _ => name
  | quoted mark _ name _ => mark :: (name ++ [mark])

/-- The token that it is read as. -/
def token : WrittenName → Token
  | bare name _ => .word name
  | quoted _ _ name _ => .quotedName name

/-- Whether it would be read as a keyword: a name in marks never is. -/
def isKeyword (keyword : Text) : WrittenName → Bool
  | bare name _ => equalsIgnoringCase name keyword
  | quoted _ _ _ _ => false

/-- The name as a token behind `gap`. -/
def lexeme (gap : Text) (n : WrittenName) : Lexeme := ⟨gap, n.text, n.token⟩

theorem isMarkable (n : WrittenName) : IsMarkable n.name := by
  cases n with
  | bare name plain => exact isMarkable_of_isPlain plain
  | quoted mark isMark name markable => exact markable

theorem writesName_lexeme (gap : Text) (n : WrittenName) : (n.lexeme gap).WritesName n.name := by
  cases n with
  | bare name plain => exact .bare rfl
  | quoted mark isMark name markable => exact .quoted rfl

theorem isWord_lexeme (keyword gap : Text) (n : WrittenName) :
    (n.lexeme gap).isWord keyword = n.isKeyword keyword := by
  cases n <;> rfl

theorem legible_lexeme (n : WrittenName) (g : Gap) {rest : Text} (hrest : Apart rest) :
    (n.lexeme g.text).Legible rest := by
  cases n with
  | bare name plain =>
    exact legible_word g.blank (ne_nil_of_isPlain plain) (isWordChar_of_isPlain plain)
      fun c hc => (hrest c hc).1
  | quoted mark isMark name markable =>
    refine legible_quotedName (eq_of_isNameMark isMark) g.blank (fun c hc => ⟨?_, ?_⟩) fun c hc => ?_
    · rintro rfl
      rcases eq_of_isNameMark isMark with rfl | rfl <;> exact markable.not_mem (by decide) hc
    · rintro rfl
      exact markable.not_mem (by decide) hc
    · rintro rfl
      have hquote := (hrest c hc).2
      rcases eq_of_isNameMark isMark with rfl | rfl <;> cases hquote

theorem lex_append (n : WrittenName) (g : Gap) {rest : Text} (hrest : Apart rest) :
    lex (g.text ++ (n.text ++ rest)) = n.lexeme g.text :: lex rest := by
  have hread := lex_of_legible (n.legible_lexeme g hrest)
  rwa [List.append_assoc] at hread

end WrittenName

/-- **A name is read in either spelling.** -/
theorem identifier?_writtenName (n : WrittenName) (g : Gap) {rest : Text} (hrest : Apart rest) :
    identifier? (lex (g.text ++ (n.text ++ rest))) = some (n.name, lex rest) := by
  rw [n.lex_append g hrest]
  exact identifier?_eq_some_iff.2 ⟨_, rfl, n.writesName_lexeme g.text⟩

/-! ### Lists of names -/

/-- A length in parentheses behind a name. -/
structure Size where
  gap : Gap
  digits : Text
  isDigit : ∀ c ∈ digits, c.isDigit = true

/-- A name in a list, with a length behind it or without. -/
structure ListedName where
  lead : Gap
  written : WrittenName
  size : Option Size
  trail : Gap

def Size.text (s : Size) : Text := s.gap.text ++ '(' :: (s.digits ++ [')'])

/-- The length behind a name, if it has one. -/
def sizeText : Option Size → Text
  | some s => s.text
  | none => []

namespace ListedName

def name (i : ListedName) : Text := i.written.name

/-- The item without the blanks around it. -/
def core (i : ListedName) : Text := i.written.text ++ sizeText i.size

def text (i : ListedName) : Text := i.lead.text ++ (i.core ++ i.trail.text)

end ListedName

/-- A list of names in parentheses. -/
def writtenList (items : List ListedName) : Text :=
  '(' :: (joined "," (items.map ListedName.text) ++ [')'])

/-! ### No scan divides an item -/

namespace Size

variable (s : Size)

theorem isWordChar : ∀ c ∈ s.digits, isWordChar c = true := by
  intro c hc
  have halnum : c.isAlphanum = true := by simp [Char.isAlphanum, s.isDigit c hc]
  rw [Ddl.isWordChar, Text.isAlphanumeric_of_isAlphanum halnum]
  rfl

theorem closeParen_not_mem : ')' ∉ s.digits := fun hmem => absurd (s.isDigit _ hmem) (by decide)

theorem sealed_text : Sealed 0 s.text :=
  (sealed_of_isBlankText 0 s.gap.blank).append
    (Sealed.group (sealed_of_forall_isWordChar 1 s.isWordChar))

theorem apart_append (rest : Text) : Apart (s.text ++ rest) := by
  rw [text, List.append_assoc]
  exact s.gap.apart_append (apart_openParen _)

end Size

theorem WrittenName.sealed_text (n : WrittenName) : Sealed 0 n.text := by
  cases n with
  | bare name plain => exact sealed_of_forall_isWordChar 0 (isWordChar_of_isPlain plain)
  | quoted mark isMark name markable =>
    have hspace : Apart [' '] := apart_of_isBlankText (by decide)
    have hread := (WrittenName.quoted mark isMark name markable).legible_lexeme Gap.none hspace
    exact hread.sealed (by simp) (by simp [lexeme, token]) rfl

theorem sealed_sizeText (size : Option Size) : Sealed 0 (sizeText size) := by
  cases size with
  | none => exact .nil 0
  | some s => exact s.sealed_text

theorem ListedName.sealed_text (i : ListedName) : Sealed 0 i.text :=
  (sealed_of_isBlankText 0 i.lead.blank).append
    ((i.written.sealed_text.append (sealed_sizeText i.size)).append
      (sealed_of_isBlankText 0 i.trail.blank))

/-! ### The parentheses of an item -/

/-- A run of word characters holds no parenthesis, whatever follows it. -/
theorem outline_tokens_word {w rest : Text} (hw : ∀ c ∈ w, isWordChar c = true)
    (hrest : Apart rest) : outline (tokens (w ++ rest)) = outline (tokens rest) := by
  cases w with
  | nil => rfl
  | cons c r =>
    have hlegible : Lexeme.Legible ⟨[], c :: r, .word (c :: r)⟩ rest :=
      legible_word rfl (List.cons_ne_nil c r) hw fun d hd => (hrest d hd).1
    have hread := tokens_lexeme hlegible
    rw [List.nil_append] at hread
    rw [hread]
    rfl

theorem outline_tokens_size (s : Size) (rest : Text) :
    outline (tokens (s.text ++ rest)) = '(' :: ')' :: outline (tokens rest) := by
  have hopen := tokens_lexeme (legible_openParen s.gap.blank (s.digits ++ ')' :: rest))
  have hclose : tokens (')' :: rest) = .closeParen :: tokens rest :=
    tokens_lexeme (legible_closeParen Gap.none.blank rest)
  have htext : s.text ++ rest = s.gap.text ++ ['('] ++ (s.digits ++ ')' :: rest) := by
    simp [Size.text]
  rw [htext, hopen, outline_cons, outline_tokens_word s.isWordChar (apart_closeParen rest), hclose]
  rfl

/-- **An item closes the parentheses that it opens.** -/
theorem ListedName.closes_tokens (i : ListedName) : Closes 0 (outline (tokens i.text)) := by
  have hblank := tokens_blank i.trail.blank
  have hapart : Apart (sizeText i.size ++ i.trail.text) := by
    cases i.size with
    | none => exact apart_of_isBlankText i.trail.blank
    | some s => exact s.apart_append _
  have hread : outline (tokens i.text) = outline (tokens (sizeText i.size ++ i.trail.text)) := by
    rw [text, core, List.append_assoc, tokens, i.written.lex_append i.lead hapart]
    show i.written.token.outline ++ _ = _
    cases i.written <;> rfl
  rw [hread]
  cases i.size with
  | none =>
    show Closes 0 (outline (tokens i.trail.text))
    rw [hblank]
    exact closes_nil_iff.2 rfl
  | some s =>
    show Closes 0 (outline (tokens (s.text ++ i.trail.text)))
    rw [outline_tokens_size s, hblank]
    exact closes_open.2 (closes_close.2 (closes_nil_iff.2 rfl))

/-! ### Lists are read back -/

section Joined

variable {ps : List Text} (h : ∀ p ∈ ps, Sealed 0 p)
include h

theorem run_joined : Nesting.start.run (joined "," ps) = .start := by
  induction ps with
  | nil => rfl
  | cons p ps ih =>
    obtain ⟨hp, hps⟩ := List.forall_mem_cons.1 h
    have hrun : Nesting.start.run p = .start := hp.run_eq
    cases ps with
    | nil => rw [Text.joined_singleton, hrun]
    | cons q qs =>
      have hcomma : Nesting.start.run "," = .start := rfl
      rw [Text.joined_cons_cons, Nesting.run_append, Nesting.run_append, hrun, hcomma, ih hps]

/-- What closes its parentheses item by item does so as a whole. -/
theorem closes_tokens_joined (hcloses : ∀ p ∈ ps, Closes 0 (outline (tokens p))) :
    Closes 0 (outline (tokens (joined "," ps))) := by
  induction ps with
  | nil =>
    have hnil : tokens (joined "," []) = [] := tokens_blank rfl
    rw [hnil]
    exact closes_nil_iff.2 rfl
  | cons p ps ih =>
    obtain ⟨hp, hps⟩ := List.forall_mem_cons.1 h
    obtain ⟨hclose, hcloses⟩ := List.forall_mem_cons.1 hcloses
    cases ps with
    | nil =>
      rw [Text.joined_singleton]
      exact hclose
    | cons q qs =>
      have hquote : (Nesting.start.run p).quote = none := by
        rw [Nesting.start, hp.run_eq]
      have hcomma : tokens (',' :: joined "," (q :: qs)) = .comma :: tokens (joined "," (q :: qs)) :=
        tokens_lexeme (l := ⟨[], [','], .comma⟩) (legible_comma rfl _)
      have happend := tokens_append (s := p) (t := ',' :: joined "," (q :: qs)) hquote
        (apart_cons (by decide) (by decide) _)
      rw [Text.joined_cons_cons, List.append_assoc]
      show Closes 0 (outline (tokens (p ++ ',' :: joined "," (q :: qs))))
      rw [happend, hcomma, outline_append]
      exact hclose.append (ih hps hcloses)

end Joined

theorem forall_sealed (items : List ListedName) :
    ∀ p ∈ items.map ListedName.text, Sealed 0 p := by
  intro p hp
  obtain ⟨i, -, rfl⟩ := List.mem_map.1 hp
  exact i.sealed_text

/-- **A list in parentheses is a group**, whatever follows it. -/
theorem isGroup_writtenList (g : Gap) (items : List ListedName) (rest : Text) :
    IsGroup (lex (g.text ++ (writtenList items ++ rest)))
      (joined "," (items.map ListedName.text)) (lex rest) := by
  have hsealed := forall_sealed items
  have hcloses : ∀ p ∈ items.map ListedName.text, Closes 0 (outline (tokens p)) := by
    intro p hp
    obtain ⟨i, -, rfl⟩ := List.mem_map.1 hp
    exact i.closes_tokens
  have hinside := closes_tokens_joined hsealed hcloses
  have hrun := run_joined hsealed
  rw [writtenList]
  generalize joined "," (items.map ListedName.text) = body at hrun hinside
  obtain ⟨blanks, hblanks, hbody, hlex⟩ := lex_append (s := body) (by rw [hrun]; rfl)
  -- the blanks at the end of the list stand in front of the closing parenthesis
  have hclose := lex_of_legible (legible_closeParen hblanks rest)
  have hopen := lex_of_legible (legible_openParen g.blank (body ++ ')' :: rest))
  have htext : g.text ++ ('(' :: (body ++ [')']) ++ rest) =
      g.text ++ ['('] ++ (body ++ ')' :: rest) := by simp
  rw [List.append_assoc, List.singleton_append] at hclose
  rw [htext, hopen, hlex _ (apart_closeParen rest), hclose]
  have hgroup : IsGroup (⟨g.text, ['('], .openParen⟩ ::
      (lex body ++ ⟨blanks, [')'], .closeParen⟩ :: lex rest)) (sourceText (lex body) ++ blanks)
      (lex rest) := .intro rfl (balanced_iff_closes.2 hinside) rfl
  rwa [← hbody] at hgroup

/-! ### Names are read back -/

theorem WrittenName.trimmed_text (n : WrittenName) : Trimmed n.text := by
  cases n with
  | bare name plain => exact (isMarkable_of_isPlain plain).trimmed
  | quoted mark isMark name markable => exact trimmed_marked isMark name

theorem WrittenName.ne_nil_text (n : WrittenName) : n.text ≠ [] := by
  cases n with
  | bare name plain => exact ne_nil_of_isPlain plain
  | quoted mark isMark name markable => exact List.cons_ne_nil _ _

theorem WrittenName.not_mem_text {c : Char} (hc : c = '(' ∨ c = ')') (n : WrittenName) :
    c ∉ n.text := by
  have hname : c ∉ n.name := n.isMarkable.not_mem (by rcases hc with rfl | rfl <;> decide)
  cases n with
  | bare name plain => exact hname
  | quoted mark isMark name markable =>
    have hmark : c ≠ mark := by
      rcases eq_of_isNameMark isMark with rfl | rfl <;> rcases hc with rfl | rfl <;> decide
    simp only [WrittenName.name] at hname
    simp [text, hmark, hname]

/-- **A name is what is left of its spelling.** -/
theorem bareName_writtenName (n : WrittenName) : bareName n.text = n.name := by
  cases n with
  | bare name plain => exact (isMarkable_of_isPlain plain).bareName_eq_self
  | quoted mark isMark name markable => exact markable.bareName_marked isMark

namespace ListedName

variable (i : ListedName)

theorem bareName_core : bareName i.core = i.name := by
  rw [core, name, ← bareName_writtenName i.written]
  cases i.size with
  | none => rw [sizeText, List.append_nil]
  | some s =>
    have hnot {c : Char} (hc : c = '(' ∨ c = ')') : c ∉ i.written.text ++ s.gap.text := by
      have hblank : isBlank c = false := by rcases hc with rfl | rfl <;> decide
      rw [List.mem_append, not_or]
      exact ⟨i.written.not_mem_text hc, Text.not_mem_of_isBlankText s.gap.blank hblank⟩
    rw [sizeText, Size.text, ← List.append_assoc,
      bareName_append_group (hnot (Or.inl rfl)) (hnot (Or.inr rfl)) s.closeParen_not_mem,
      bareName_append_blanks _ s.gap.blank]

theorem trimmed_core : Trimmed i.core := by
  obtain ⟨c, r, hc⟩ := List.exists_cons_of_ne_nil i.written.ne_nil_text
  have htrim := i.written.trimmed_text
  rw [core]
  cases i.size with
  | none => rwa [sizeText, List.append_nil]
  | some s =>
    refine Text.trimmed_of_ends (c := c) (d := ')') ?_ ?_ (htrim.1 c (by rw [hc]; rfl)) (by decide)
    · rw [hc]
      rfl
    · rw [sizeText, Size.text, ← List.cons_append, ← List.append_assoc, ← List.append_assoc,
        List.getLast?_concat]

theorem trim_text : trim i.text = i.core := by
  rw [text, Text.trim_blanks_append _ i.lead.blank, Text.trim_append_blanks _ i.trail.blank,
    Text.trim_eq_self i.trimmed_core]

theorem ne_nil_core : i.core ≠ [] := by
  rw [core]
  simp [i.written.ne_nil_text]

end ListedName

/-- **The names of a list are read back**, each without its blanks, its marks and
    its length. -/
theorem identifierList_writtenList (items : List ListedName) :
    identifierList (joined "," (items.map ListedName.text)) = items.map ListedName.name := by
  have hsealed := forall_sealed items
  have hpieces (hne : items.map ListedName.text ≠ []) :
      pieces ',' .start (joined "," (items.map ListedName.text)) = items.map ListedName.text :=
    pieces_joined rfl hne (fun p hp => (hsealed p hp).pieces_eq) fun p hp =>
      (hsealed p (List.dropLast_subset _ hp)).run_eq
  have hsplit : splitTopLevel ',' (joined "," (items.map ListedName.text)) =
      items.map ListedName.core := by
    cases items with
    | nil => rfl
    | cons i items =>
      rw [splitTopLevel, hpieces (by simp), List.map_map,
        List.map_congr_left fun i _ => i.trim_text, List.filter_eq_self]
      intro p hp
      obtain ⟨j, -, rfl⟩ := List.mem_map.1 hp
      simpa using j.ne_nil_core
  rw [identifierList, hsplit, List.map_map, List.map_congr_left fun i _ => i.bareName_core,
    List.filter_eq_self]
  intro name hname
  obtain ⟨i, -, rfl⟩ := List.mem_map.1 hname
  exact bne_iff_ne.2 i.written.isMarkable.ne_nil

end SchemaDiagram.Ddl
