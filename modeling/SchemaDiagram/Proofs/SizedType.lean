import Mathlib.Data.List.Basic
import SchemaDiagram.Ddl.ColumnType
import SchemaDiagram.Proofs.Capitals
import SchemaDiagram.Proofs.Fragment

/-! # SizedType — types that are found again behind a column's name

    A type name, with numbers in parentheses behind it or without, is read
    back as it was written, whether a constraint follows it or not.

      * `IsTypeText`               — such types
      * `IsSizedType`              — those with nothing in front of the numbers
      * `fragment_of_isTypeText`   — they are printed texts
      * `typePart_of_isTypeText`   — the type part of a column's text goes over
                                     all of them
      * `lex_isTypeText`           — they are read as a type name and lexemes
                                     without keywords
      * `not_contains_notNull`     — the words NOT NULL do not stand in the text
                                     of a column unless they stand behind its
                                     type -/

namespace SchemaDiagram.Ddl

open Text (isBlank foldCase upper capital equalsIgnoringCase_iff Trimmed contains contains_iff
  trimStart firstWord)

/-! ### Types and their characters -/

/-- The characters between the parentheses behind a type. -/
def isSizeChar (c : Char) : Bool := c.isDigit || c == ',' || c == ' '

/-- A type name in any letter case, and numbers in parentheses directly behind
    it, or none. -/
inductive IsSizedType : Text → Prop
  | unsized {word} (hword : isTypeName word = true) : IsSizedType word
  | sized {word numbers} (hword : isTypeName word = true)
      (hnumbers : ∀ c ∈ numbers, isSizeChar c = true) :
      IsSizedType (word ++ '(' :: (numbers ++ [')']))

/-- A type name in any letter case, and numbers in parentheses behind it, with
    or without spaces in front of them, or none. -/
inductive IsTypeText : Text → Prop
  | unsized {word} (hword : isTypeName word = true) : IsTypeText word
  | sized {word gap numbers} (hword : isTypeName word = true) (hgap : ∀ c ∈ gap, c = ' ')
      (hnumbers : ∀ c ∈ numbers, isSizeChar c = true) :
      IsTypeText (word ++ (gap ++ '(' :: (numbers ++ [')'])))

theorem IsSizedType.isTypeText {type : Text} (h : IsSizedType type) : IsTypeText type := by
  cases h with
  | unsized hword => exact .unsized hword
  | sized hword hnumbers => exact @IsTypeText.sized _ [] _ hword (by simp) hnumbers

theorem isAlphanum_of_toLower {c : Char} (h : c.toLower.isAlphanum = true) :
    c.isAlphanum = true := by
  unfold Char.toLower at h
  split at h
  · next hupper =>
    have hcapital : c.isUpper = true := decide_eq_true hupper
    show ((c.isUpper || c.isLower) || c.isDigit) = true
    rw [hcapital, Bool.true_or, Bool.true_or]
  · exact h

/-- Type names are made of letters and digits. -/
theorem isAlphanum_of_isTypeName {word : Text} (h : isTypeName word = true) :
    ∀ c ∈ word, c.isAlphanum = true := by
  have hnames : typeNames.all (fun name => (foldCase name).all Char.isAlphanum) = true := by
    decide +kernel
  intro c hc
  obtain ⟨name, hname, heq⟩ := List.any_eq_true.1 h
  have hlower : c.toLower ∈ foldCase name := by
    rw [← equalsIgnoringCase_iff.1 heq]
    exact List.mem_map_of_mem hc
  exact isAlphanum_of_toLower (List.all_eq_true.1 (List.all_eq_true.1 hnames name hname) _ hlower)

theorem ne_nil_of_isTypeName {word : Text} (h : isTypeName word = true) : word ≠ [] := by
  rintro rfl
  exact absurd h (by decide +kernel)

section TypeName

variable {word : Text} (h : isTypeName word = true)
include h

theorem isWordChar_of_isTypeName : ∀ c ∈ word, isWordChar c = true := by
  intro c hc
  rw [isWordChar, Text.isAlphanumeric_of_isAlphanum (isAlphanum_of_isTypeName h c hc)]
  rfl

theorem isBlank_of_isTypeName : ∀ c ∈ word, isBlank c = false := fun c hc =>
  isBlank_of_isWordChar (isWordChar_of_isTypeName h c hc)

theorem fragment_of_isTypeName : Fragment false word :=
  .of_free (List.all_eq_true.2 fun c hc => isFree_of_isWordChar (isWordChar_of_isTypeName h c hc))

end TypeName

/-- What stands between the parentheses is a list of free characters. -/
theorem isFree_or_comma {c : Char} (h : isSizeChar c = true) : isFree c = true ∨ c = ',' := by
  simp only [isSizeChar, Bool.or_eq_true, beq_iff_eq] at h
  rcases h with (h | h) | rfl
  · have halnum : c.isAlphanum = true := by simp [Char.isAlphanum, h]
    refine Or.inl (isFree_of_isWordChar ?_)
    rw [isWordChar, Text.isAlphanumeric_of_isAlphanum halnum]
    rfl
  · exact Or.inr h
  · exact Or.inl (by decide)

theorem fragment_of_numbers {numbers : Text} (h : ∀ c ∈ numbers, isSizeChar c = true) :
    Fragment true numbers := by
  induction numbers with
  | nil => exact .nil
  | cons c r ih =>
    obtain ⟨hc, hr⟩ := List.forall_mem_cons.1 h
    rcases isFree_or_comma hc with hc | rfl
    · exact .append (.free hc) (ih hr)
    · exact .append .comma (ih hr)

/-- **A type is a printed text.** -/
theorem fragment_of_isTypeText {type : Text} (h : IsTypeText type) : Fragment false type := by
  cases h with
  | unsized hword => exact fragment_of_isTypeName hword
  | @sized word gap numbers hword hgap hnumbers =>
    have hspaces : Fragment false gap :=
      .of_free (List.all_eq_true.2 fun c hc => hgap c hc ▸ by decide)
    exact (fragment_of_isTypeName hword).append (hspaces.append (fragment_of_numbers hnumbers).group)

theorem ne_nil_of_isTypeText {type : Text} (h : IsTypeText type) : type ≠ [] := by
  cases h with
  | unsized hword => exact ne_nil_of_isTypeName hword
  | sized hword => simp

/-- **A type has no blanks around it.** -/
theorem trimmed_of_isTypeText {type : Text} (h : IsTypeText type) : Trimmed type := by
  cases h with
  | unsized hword =>
    have hblank := isBlank_of_isTypeName hword
    exact ⟨fun c hc => hblank c (List.mem_of_mem_head? hc),
      fun c hc => hblank c (List.mem_of_mem_getLast? hc)⟩
  | @sized word gap numbers hword hgap hnumbers =>
    obtain ⟨d, r, rfl⟩ := List.exists_cons_of_ne_nil (ne_nil_of_isTypeName hword)
    refine Text.trimmed_of_ends (c := d) (d := ')') rfl ?_
      (isBlank_of_isTypeName hword d (by simp)) (by decide)
    rw [← List.cons_append, ← List.append_assoc, ← List.append_assoc, List.getLast?_concat]

/-! ### The type part of a column's text -/

/-- A text without blanks outside quotes and parentheses belongs to the type
    part as a whole. -/
theorem typePart_append {n : Nesting} {s : Text}
    (h : ∀ before c after, s = before ++ c :: after → isBlank c = true →
      (n.run before).atTop = false) (t : Text) :
    typePart n (s ++ t) = s ++ typePart (n.run s) t := by
  induction s generalizing n with
  | nil => rfl
  | cons c r ih =>
    have hc : (n.atTop && isBlank c) = false := by
      cases hblank : isBlank c with
      | false => exact Bool.and_false _
      | true =>
        have htop : n.atTop = false := h [] c r rfl hblank
        rw [htop, Bool.false_and]
    have hr : typePart (n.step c) (r ++ t) = r ++ typePart ((n.step c).run r) t := by
      refine ih fun before d after hbefore hblank => ?_
      exact h (c :: before) d after (by rw [hbefore, List.cons_append]) hblank
    rw [List.cons_append, typePart, hc, Bool.false_and, if_neg Bool.false_ne_true, hr,
      Nesting.run_cons, List.cons_append]

theorem typePart_append_of_not_blank (n : Nesting) {s : Text} (h : ∀ c ∈ s, isBlank c = false)
    (t : Text) : typePart n (s ++ t) = s ++ typePart (n.run s) t := by
  refine typePart_append (fun before c after hs hblank => ?_) t
  have hc : isBlank c = false := h c (by simp [hs])
  rw [hblank] at hc
  cases hc

theorem typePart_append_of_numbers {numbers : Text} (h : ∀ c ∈ numbers, isSizeChar c = true)
    (t : Text) : typePart ⟨1, none⟩ (numbers ++ t) = numbers ++ typePart ⟨1, none⟩ t := by
  have hrun : ∀ {s : Text}, (∀ c ∈ s, isSizeChar c = true) →
      Nesting.run ⟨1, none⟩ s = ⟨1, none⟩ := fun hs =>
    (sealed_of_fragment (fragment_of_numbers hs) (by simp)).run_eq
  rw [typePart_append, hrun h]
  intro before c after hnumbers _
  have hbefore : ∀ d ∈ before, isSizeChar d = true := fun d hd => h d (by simp [hnumbers, hd])
  rw [hrun hbefore]
  rfl

/-- What starts with a parenthesis behind some spaces is no constraint. -/
theorem startsConstraint_openParen {gap : Text} (hgap : ∀ c ∈ gap, c = ' ') (t : Text) :
    startsConstraint (gap ++ '(' :: t) = false := by
  have htrim : trimStart (gap ++ '(' :: t) = '(' :: t :=
    List.dropWhile_append_of_pos fun c hc => hgap c hc ▸ by decide
  have hword : firstWord (gap ++ '(' :: t) = '(' :: t.takeWhile fun c => !isBlank c := by
    rw [firstWord, htrim]
    rfl
  have hwords : ∀ word ∈ constraintWords, word.head? ≠ some '(' := by decide
  rw [startsConstraint, hword, Bool.eq_false_iff, Ne, List.contains_iff_mem]
  exact fun hmem => hwords _ hmem rfl

/-- So the type part goes over the spaces as well. -/
theorem typePart_spaces_append {gap : Text} (hgap : ∀ c ∈ gap, c = ' ') (t : Text) :
    typePart .start (gap ++ '(' :: t) = gap ++ typePart .start ('(' :: t) := by
  induction gap with
  | nil => rfl
  | cons c gap ih =>
    have hnot : startsConstraint (c :: (gap ++ '(' :: t)) = false :=
      startsConstraint_openParen hgap t
    obtain ⟨rfl, hspaces⟩ := List.forall_mem_cons.1 hgap
    rw [List.cons_append, typePart, hnot, Bool.and_false, if_neg Bool.false_ne_true]
    exact congrArg (' ' :: ·) (ih hspaces)

/-- **The type part goes over all of a type.** -/
theorem typePart_of_isTypeText {type : Text} (h : IsTypeText type) (t : Text) :
    typePart .start (type ++ t) = type ++ typePart .start t := by
  -- only the size may hold blanks, or have them in front, and it stands in parentheses
  have hword : ∀ {word : Text}, isTypeName word = true → ∀ u,
      typePart .start (word ++ u) = word ++ typePart .start u := by
    intro word hword u
    have hrun : Nesting.start.run word = .start :=
      (sealed_of_fragment (fragment_of_isTypeName hword) (by simp)).run_eq
    rw [typePart_append_of_not_blank _ (isBlank_of_isTypeName hword), hrun]
  cases h with
  | unsized hname => exact hword hname t
  | @sized word gap numbers hname hgap hnumbers =>
    have hopen : ∀ u, typePart .start ('(' :: u) = '(' :: typePart ⟨1, none⟩ u := fun u =>
      typePart_append_of_not_blank .start (s := ['(']) (List.forall_mem_singleton.2 (by decide)) u
    have hclose : typePart ⟨1, none⟩ (')' :: t) = ')' :: typePart .start t :=
      typePart_append_of_not_blank ⟨1, none⟩ (s := [')']) (List.forall_mem_singleton.2 (by decide)) t
    rw [List.append_assoc, hword hname, List.append_assoc, List.cons_append, List.append_assoc,
      List.singleton_append, typePart_spaces_append hgap, hopen,
      typePart_append_of_numbers hnumbers, hclose]
    simp

/-! ### The lexemes of a column's type -/

theorem toNat_lt_of_isSizeChar {c : Char} (h : isSizeChar c = true) : c.toNat < 128 := by
  simp only [isSizeChar, Bool.or_eq_true, beq_iff_eq] at h
  rcases h with (h | rfl) | rfl
  · simp only [Char.isDigit, Bool.and_eq_true, decide_eq_true_eq, UInt32.le_iff_toNat_le] at h
    have hhigh : c.toNat ≤ 57 := h.2
    omega
  · decide
  · decide

/-- The characters of a size are no letters and have no letter case. -/
theorem caseless_of_isSizeChar {c : Char} (h : isSizeChar c = true) :
    c.toLower.isAlpha = false ∧ capital c = [c] := by
  have htest := forall_ascii (p := fun c => !isSizeChar c || !c.toLower.isAlpha && capital c == [c])
    (by decide +kernel) (toNat_lt_of_isSizeChar h)
  simpa [h] using htest

/-- No keyword is read from numbers. -/
theorem not_isWord_of_numbers {s keyword : Text} {l : Lexeme}
    (h : ∀ c ∈ s, c = '(' ∨ isSizeChar c = true)
    (hkeyword : ∃ c ∈ foldCase keyword, c.isAlpha = true)
    (hl : l ∈ lex s) : l.isWord keyword = false := by
  rw [Bool.eq_false_iff]
  intro hword
  obtain ⟨c, hc, hletter⟩ := hkeyword
  obtain ⟨d, hd, rfl⟩ := List.mem_map.1 (foldCase_subset_of_isWord hl hword hc)
  have hnot : d.toLower.isAlpha = false := by
    rcases h d hd with rfl | hsize
    · decide
    · exact (caseless_of_isSizeChar hsize).1
  rw [hletter] at hnot
  cases hnot

/-- **A type is read as a type name and lexemes without keywords**, and what
    follows it is read as it would be by itself. -/
theorem lex_isTypeText {type tail : Text} (h : IsTypeText type)
    (htail : ∀ c ∈ tail.head?, isWordChar c = false) :
    ∃ word ls, isTypeName word = true ∧
      lex (' ' :: (type ++ tail)) = ⟨[' '], word, .word word⟩ :: (ls ++ lex tail) ∧
      ∀ keyword : Text, (∃ c ∈ foldCase keyword, c.isAlpha = true) →
        ∀ l ∈ ls, l.isWord keyword = false := by
  have hname : ∀ {word : Text}, isTypeName word = true → ∀ rest : Text,
      (∀ c ∈ rest.head?, isWordChar c = false) →
      lex (' ' :: (word ++ rest)) = ⟨[' '], word, .word word⟩ :: lex rest := by
    intro word hword rest hrest
    have hlegible : Lexeme.Legible ⟨[' '], word, .word word⟩ rest :=
      legible_word (by decide) (ne_nil_of_isTypeName hword) (isWordChar_of_isTypeName hword) hrest
    exact lex_of_legible hlegible
  cases h with
  | unsized hword => exact ⟨type, [], hword, hname hword tail htail, by simp⟩
  | @sized word gap numbers hword hgap hnumbers =>
    have hsize : ∀ c ∈ gap ++ '(' :: numbers, c = '(' ∨ isSizeChar c = true := by
      refine List.forall_mem_append.2 ⟨fun c hc => Or.inr (hgap c hc ▸ by decide), ?_⟩
      exact List.forall_mem_cons.2 ⟨Or.inl rfl, fun c hc => Or.inr (hnumbers c hc)⟩
    -- up to its closing parenthesis the size is a text without quotes
    have hunquoted : ∀ c ∈ gap ++ '(' :: numbers, isQuote c = false := by
      intro c hc
      rcases hsize c hc with rfl | hc
      · decide
      · rcases isFree_or_comma hc with hfree | rfl
        · exact isQuote_of_isFree hfree
        · decide
    have hhead : ∀ t : Text, ∀ c ∈ (gap ++ '(' :: t).head?, isWordChar c = false := by
      intro t c hc
      cases gap with
      | nil => exact Option.some.inj hc ▸ by decide
      | cons d gap => exact Option.some.inj hc ▸ hgap d (by simp) ▸ by decide
    obtain ⟨blanks, hblanks, hlex⟩ :=
      lex_append_of_unquoted (t := ')' :: tail) hunquoted (by simp; decide)
    have hclose : lex (blanks ++ ')' :: tail) = ⟨blanks, [')'], .closeParen⟩ :: lex tail := by
      have hread := lex_of_legible (legible_closeParen hblanks tail)
      simpa using hread
    refine ⟨word, lex (gap ++ '(' :: numbers) ++ [⟨blanks, [')'], .closeParen⟩], hword, ?_, ?_⟩
    · have hfirst := hname hword (gap ++ '(' :: (numbers ++ ')' :: tail)) (hhead _)
      rw [List.append_assoc, List.cons_append] at hlex
      rw [hlex, hclose] at hfirst
      simpa using hfirst
    · intro keyword hkeyword l hl
      rcases List.mem_append.1 hl with hl | hl
      · exact not_isWord_of_numbers hsize hkeyword hl
      · rw [List.mem_singleton.1 hl]
        rfl

/-! ### The words NOT NULL -/

theorem upper_quotedName (name : Text) : upper (quotedName name) = quotedName (upper name) := by
  rw [quotedName_eq, quotedName_eq, ← List.singleton_append, Text.upper_append, Text.upper_append]
  rfl

/-- No capital N with a space in front of it stands in a type, whatever the
    letter case. -/
theorem not_pair_infix_upper {type : Text} (h : IsTypeText type) :
    ¬ [' ', 'N'] <:+: upper type := by
  have hword : ∀ {word : Text}, isTypeName word = true → ' ' ∉ upper word := by
    intro word hname hmem
    have hblank := isBlank_of_isTypeName hname ' ' (space_mem_of_upper hmem)
    exact absurd hblank (by decide)
  have hname : ∀ {word : Text}, isTypeName word = true → ¬ [' ', 'N'] <:+: upper word :=
    fun hname hpair => hword hname (hpair.subset (by simp))
  cases h with
  | unsized htype => exact hname htype
  | @sized word gap numbers htype hgap hnumbers =>
    have hcaseless : ∀ c ∈ gap ++ '(' :: (numbers ++ [')']), capital c = [c] ∧ c ≠ 'N' := by
      refine List.forall_mem_append.2 ⟨fun c hc => hgap c hc ▸ by decide, ?_⟩
      refine List.forall_mem_cons.2 ⟨by decide, List.forall_mem_append.2 ⟨fun c hc => ?_, ?_⟩⟩
      · refine ⟨(caseless_of_isSizeChar (hnumbers c hc)).2, ?_⟩
        rintro rfl
        exact absurd (hnumbers 'N' hc) (by decide)
      · exact List.forall_mem_singleton.2 (by decide)
    rw [Text.upper_append, upper_eq_self fun c hc => (hcaseless c hc).1]
    refine not_pair_infix_append (hname htype) (fun hpair => ?_) fun hlast => ?_
    · exact (hcaseless 'N' (hpair.subset (by simp))).2 rfl
    · exact absurd (List.mem_of_getLast? hlast) (hword htype)

/-- **The words NOT NULL do not stand in the text of a column** unless they
    stand behind its type. -/
theorem not_contains_notNull {name type tail : Text} (hname : ' ' ∉ name) (htype : IsTypeText type)
    (htail : ¬ [' ', 'N'] <:+: ' ' :: upper tail) :
    contains "NOT NULL" (upper (quotedName name ++ ' ' :: (type ++ tail))) = false := by
  have hspace : upper (' ' :: (type ++ tail)) = ' ' :: (upper type ++ upper tail) := by
    rw [← List.singleton_append, Text.upper_append, Text.upper_append]
    rfl
  -- behind the name, the space between the two words would have a capital N behind it
  have hpair : ¬ [' ', 'N'] <:+: upper type ++ upper tail := by
    refine not_pair_infix_append (not_pair_infix_upper htype) (fun hpair => ?_) fun _ hhead => ?_
    · exact htail (List.infix_cons hpair)
    · obtain ⟨rest, hrest⟩ := List.head?_eq_some_iff.1 hhead
      exact htail (hrest ▸ ⟨[], rest, rfl⟩)
  have hwords : [' ', 'N'] <:+: ("NOT NULL" : Text) := ⟨"NOT", "ULL", rfl⟩
  rw [Text.upper_append, hspace, Bool.eq_false_iff]
  intro hin
  rcases List.infix_append_iff_ne_nil.1 (contains_iff.1 hin) with h | h | ⟨l, m, hne, _, hl, h, _⟩
  · have hmem : ' ' ∈ quotedName name := space_mem_of_upper (h.subset (by decide))
    simp [quotedName_eq, hname] at hmem
  · rcases List.infix_cons_iff.1 h with h | h
    · exact absurd (List.cons_prefix_cons.1 h).1 (by decide)
    · exact hpair (hwords.trans h)
  · -- what stands in the name and goes on behind it holds the closing backtick
    have hlast : l.getLast? = some '\x60' := by
      obtain ⟨front, hfront⟩ := h
      rw [← List.getLast?_append_of_ne_nil front hne, hfront, upper_quotedName,
        getLast?_quotedName]
    have hmem : '\x60' ∈ ("NOT NULL" : Text) := by
      rw [hl]
      exact List.mem_append_left _ (List.mem_of_getLast? hlast)
    exact absurd hmem (by decide)

end SchemaDiagram.Ddl
