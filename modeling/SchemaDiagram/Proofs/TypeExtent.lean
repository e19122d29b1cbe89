import SchemaDiagram.Proofs.Splitting
import SchemaDiagram.Proofs.WellFormed

/-! # TypeExtent — where the type of a column ends

    The type of a column ends in front of the first blank that stands outside
    quotes and parentheses and has a constraint word behind it.  This place is
    described here without the scan that looks for it, and there is only one.
    What else is known of types follows: no quoted part is divided, and the
    type of a type is the type itself.

      * `OpensConstraint`       — a text starts with blanks and a constraint
                                  word
      * `IsTypePart`            — a front of a text that ends where the first
                                  constraint opens
      * `IsTypePart.unique`     — no text has two of them
      * `isTypePart_typePart`   — the scan finds it
      * `IsTypeOf`              — the type of a text without outer blanks
      * `IsTypeOf.self`         — a type is its own type
      * `declaredType_cut`      — types are cut cleanly, and stay as they are -/

namespace SchemaDiagram

namespace Text

/-- Blanks in front of a word do not belong to it. -/
theorem firstWord_blanks_append {b : Text} (hb : isBlankText b = true) (s : Text) :
    firstWord (b ++ s) = firstWord s := by
  have hstart : trimStart (b ++ s) = trimStart s :=
    List.dropWhile_append_of_pos (List.all_eq_true.1 hb)
  rw [firstWord, hstart]
  rfl

/-- What follows a word and its blanks does not belong to it either. -/
theorem firstWord_append {s t : Text} (hs : isBlankText s = false)
    (ht : ∀ c ∈ t.head?, isBlank c = true) : firstWord (s ++ t) = firstWord s := by
  have hstop : ∀ c ∈ t.head?, (!isBlank c) = false := fun c hc => by rw [ht c hc]; rfl
  rw [firstWord, trimStart_append_of_not_blank hs, Ddl.takeWhile_append_of_head? hstop]
  rfl

end Text

namespace Ddl

open Text (isBlank isBlankText trim Trimmed upper firstWord)

/-! ### Where constraints open -/

/-- `s` starts with blanks, and the word behind them is a constraint word, in
    any letter case. -/
structure OpensConstraint (s : Text) : Prop where
  blank : ∃ c ∈ s.head?, isBlank c = true
  word : upper (firstWord s) ∈ constraintWords

theorem opensConstraint_cons_iff {c : Char} {r : Text} :
    OpensConstraint (c :: r) ↔ isBlank c = true ∧ startsConstraint (c :: r) = true := by
  rw [startsConstraint, List.contains_iff_mem]
  constructor
  · rintro ⟨⟨d, hd, hblank⟩, hword⟩
    obtain rfl := Option.some.inj hd
    exact ⟨hblank, hword⟩
  · rintro ⟨hblank, hword⟩
    exact ⟨⟨c, rfl, hblank⟩, hword⟩

theorem OpensConstraint.ne_nil {s : Text} (h : OpensConstraint s) : s ≠ [] := by
  rintro rfl
  obtain ⟨c, hc, -⟩ := h.blank
  cases hc

/-- Nothing goes on into a constraint. -/
theorem OpensConstraint.apart {s : Text} (h : OpensConstraint s) : Apart s := by
  intro d hd
  obtain ⟨c, hc, hblank⟩ := h.blank
  obtain rfl := Option.some.inj (hc.symm.trans hd)
  exact ⟨isWordChar_of_isBlank hblank, isQuote_of_isBlank hblank⟩

/-- One blank more in front of a constraint. -/
theorem OpensConstraint.cons {c : Char} {s : Text} (hc : isBlank c = true) (h : OpensConstraint s) :
    OpensConstraint (c :: s) := by
  refine ⟨⟨c, rfl, hc⟩, ?_⟩
  have hblank : isBlankText [c] = true := List.all_eq_true.2 (by simpa using hc)
  rw [← List.singleton_append, Text.firstWord_blanks_append hblank]
  exact h.word

/-- A constraint that opens in a part opens in the whole, where a blank follows
    the part or nothing does. -/
theorem OpensConstraint.append {s t : Text} (hs : isBlankText s = false)
    (ht : ∀ c ∈ t.head?, isBlank c = true) (h : OpensConstraint s) : OpensConstraint (s ++ t) := by
  constructor
  · obtain ⟨c, hc, hblank⟩ := h.blank
    refine ⟨c, ?_, hblank⟩
    rw [List.head?_append_of_ne_nil _ h.ne_nil]
    exact hc
  · rw [Text.firstWord_append hs ht]
    exact h.word

/-! ### The part in front of the first constraint -/

/-- `part` is the front of `text`, entered in the state `n`, up to the first
    constraint that opens outside quotes and parentheses, and `behind` is the
    rest; where no constraint opens there, `part` is the whole. -/
structure IsTypePart (n : Nesting) (text part behind : Text) : Prop where
  split : text = part ++ behind
  ended : behind = [] ∨ n.run part = .start ∧ OpensConstraint behind
  first : ∀ before after, part = before ++ after → after ≠ [] → n.run before = .start →
    ¬ OpensConstraint (after ++ behind)

/-- Of two such parts neither is longer. -/
theorem IsTypePart.eq_nil_of_append {n : Nesting} {text part rest behind behind' : Text}
    (h : IsTypePart n text part behind) (h' : IsTypePart n text (part ++ rest) behind')
    (hrest : behind = rest ++ behind') : rest = [] := by
  by_contra hne
  rcases h.ended with hnil | ⟨hstart, hopens⟩
  · rw [hrest, List.append_eq_nil_iff] at hnil
    exact hne hnil.1
  · rw [hrest] at hopens
    exact h'.first part rest rfl hne hstart hopens

/-- **There is only one such part.** -/
theorem IsTypePart.unique {n : Nesting} {text part part' behind behind' : Text}
    (h : IsTypePart n text part behind) (h' : IsTypePart n text part' behind') : part = part' := by
  have hsplit := h.split.symm.trans h'.split
  rcases List.append_eq_append_iff.1 hsplit with ⟨rest, rfl, hrest⟩ | ⟨rest, rfl, hrest⟩
  · rw [h.eq_nil_of_append h' hrest, List.append_nil]
  · rw [h'.eq_nil_of_append h hrest, List.append_nil]

/-- **The scan finds it.** -/
theorem isTypePart_typePart (n : Nesting) (text : Text) :
    ∃ behind, IsTypePart n text (typePart n text) behind := by
  induction text generalizing n with
  | nil =>
    refine ⟨[], rfl, Or.inl rfl, ?_⟩
    intro before after hsplit hne
    exact absurd (List.append_eq_nil_iff.1 hsplit.symm).2 hne
  | cons c r ih =>
    have htest : (n.atTop && isBlank c && startsConstraint (c :: r)) = true ↔
        n = .start ∧ OpensConstraint (c :: r) := by
      rw [Bool.and_eq_true, Bool.and_eq_true, opensConstraint_cons_iff, and_assoc]
      refine and_congr_left' ⟨eq_start_of_atTop, ?_⟩
      rintro rfl
      rfl
    rw [typePart]
    by_cases hstop : n = .start ∧ OpensConstraint (c :: r)
    · -- the constraint opens here, and nothing stands in front of it
      rw [if_pos (htest.2 hstop)]
      refine ⟨c :: r, rfl, Or.inr hstop, ?_⟩
      intro before after hsplit hne
      exact absurd (List.append_eq_nil_iff.1 hsplit.symm).2 hne
    · rw [if_neg (mt htest.1 hstop)]
      obtain ⟨behind, hsplit, hended, hfirst⟩ := ih (n.step c)
      have hwhole : c :: r = c :: typePart (n.step c) r ++ behind := congrArg (c :: ·) hsplit
      refine ⟨behind, hwhole, hended, ?_⟩
      intro before after hpart hne hrun
      cases before with
      | nil =>
        rw [List.nil_append] at hpart
        rw [← hpart, ← hwhole]
        exact fun hopens => hstop ⟨hrun, hopens⟩
      | cons d before =>
        obtain ⟨rfl, hrest⟩ := List.cons.inj hpart
        exact hfirst before after hrest hne hrun

/-! ### Types -/

/-- `type` is the type at the front of `text`, and `behind` is what stands
    behind it. -/
structure IsTypeOf (text type behind : Text) : Prop extends IsTypePart .start text type behind where
  ne_nil : type ≠ []
  trimmed : Trimmed type

/-- A blank does not bring the scan back from quotes or parentheses. -/
theorem eq_start_of_run_concat_blank {s : Text} {c : Char} (hc : isBlank c = true)
    (h : Nesting.start.run (s ++ [c]) = .start) : Nesting.start.run s = .start := by
  have hblank : isBlankText [c] = true := by simpa [isBlankText] using hc
  have hmark := isQuote_mark_run (n := .start) (by simp [Nesting.start]) s
  rw [Nesting.run_append] at h
  generalize Nesting.start.run s = n at h hmark
  have hquote : n.quote = none := quote_eq_none_of_run_blanks hmark hblank (by rw [h]; rfl)
  obtain ⟨depth, quote⟩ := n
  obtain rfl : quote = none := hquote
  rw [(sealed_of_isBlankText depth hblank).run_eq] at h
  exact h

namespace IsTypePart

variable {text part behind : Text} (h : IsTypePart .start text part behind) (htrim : Trimmed text)
include h htrim

/-- No constraint opens with the first character of a text, which is no blank. -/
theorem part_ne_nil (hne : text ≠ []) : part ≠ [] := by
  rintro rfl
  have hsplit : text = behind := h.split
  rcases h.ended with hnil | ⟨-, hopens⟩
  · exact hne (hsplit.trans hnil)
  · obtain ⟨c, hc, hblank⟩ := hopens.blank
    rw [← hsplit] at hc
    rw [htrim.1 c hc] at hblank
    cases hblank

/-- The part ends at the first of the blanks in front of the constraint. -/
theorem trimmed_part (hne : part ≠ []) : Trimmed part := by
  constructor
  · intro c hc
    refine htrim.1 c ?_
    rw [h.split, List.head?_append_of_ne_nil _ hne]
    exact hc
  · intro c hc
    rw [Bool.eq_false_iff]
    intro hblank
    obtain ⟨front, rfl⟩ := List.getLast?_eq_some_iff.1 hc
    rcases h.ended with rfl | ⟨hstart, hopens⟩
    · -- the last blank would be the end of the text
      have hlast : text.getLast? = some c := by
        rw [h.split, List.append_nil]
        exact hc
      rw [htrim.2 c hlast] at hblank
      cases hblank
    · -- the constraint would open in front of the last blank
      have hfront := eq_start_of_run_concat_blank hblank hstart
      exact h.first front [c] rfl (by simp) hfront (hopens.cons hblank)

end IsTypePart

theorem isBlankText_eq_false {s : Text} (hne : s ≠ []) (htrim : Trimmed s) : isBlankText s = false := by
  rw [Bool.eq_false_iff, Ne, ← Text.trim_eq_nil_iff, Text.trim_eq_self htrim]
  exact hne

/-- **The declared type is the type** at the front of what is declared. -/
theorem isTypeOf_declaredType {text : Text} (h : isBlankText text = false) :
    ∃ behind, IsTypeOf (trim text) (declaredType text) behind := by
  have hne : trim text ≠ [] := by
    rw [Ne, Text.trim_eq_nil_iff, h]
    exact Bool.false_ne_true
  obtain ⟨behind, hpart⟩ := isTypePart_typePart .start (trim text)
  have htrim := Text.trimmed_trim text
  have hpartne := hpart.part_ne_nil htrim hne
  have hparttrim := hpart.trimmed_part htrim hpartne
  have htype : declaredType text = typePart .start (trim text) := by
    rw [declaredType, if_neg hne, Text.trim_eq_self hparttrim]
  rw [htype]
  exact ⟨behind, hpart, hpartne, hparttrim⟩

namespace IsTypeOf

variable {text type behind : Text} (h : IsTypeOf text type behind)
include h

theorem head?_behind : ∀ c ∈ behind.head?, isBlank c = true := by
  intro c hc
  rcases h.ended with rfl | ⟨-, hopens⟩
  · cases hc
  · obtain ⟨d, hd, hblank⟩ := hopens.blank
    obtain rfl := Option.some.inj (hd.symm.trans hc)
    exact hblank

/-- **A type is its own type.** -/
theorem self : IsTypeOf type type [] where
  split := (List.append_nil type).symm
  ended := Or.inl rfl
  first := by
    intro before after hsplit hne hrun hopens
    rw [List.append_nil] at hopens
    refine h.first before after hsplit hne hrun (hopens.append ?_ h.head?_behind)
    -- the type does not end in a blank
    obtain ⟨c, hc⟩ := Option.ne_none_iff_exists'.1 (mt List.getLast?_eq_none_iff.1 hne)
    have hlast : type.getLast? = some c := by
      rw [hsplit, List.getLast?_append, hc]
      rfl
    rw [Bool.eq_false_iff]
    intro hblank
    have hcblank := List.all_eq_true.1 hblank c (List.mem_of_getLast? hc)
    rw [h.trimmed.2 c hlast] at hcblank
    cases hcblank
  ne_nil := h.ne_nil
  trimmed := h.trimmed

theorem declaredType_eq_self : declaredType type = type := by
  have htrim := Text.trim_eq_self h.trimmed
  obtain ⟨behind', htype⟩ := isTypeOf_declaredType (isBlankText_eq_false h.ne_nil h.trimmed)
  rw [htrim] at htype
  exact htype.toIsTypePart.unique h.self.toIsTypePart

/-- **No token is divided** between the type and what stands behind it. -/
theorem tokens_eq : tokens text = tokens type ++ tokens behind := by
  rw [h.split]
  rcases h.ended with rfl | ⟨hstart, hopens⟩
  · rw [tokens_blank (s := []) rfl, List.append_nil, List.append_nil]
  · exact tokens_append (by rw [hstart]; rfl) hopens.apart

/-- The type closes the parentheses that it opens, if anything follows it. -/
theorem depth_eq_zero (hne : behind ≠ []) : (tokens type).foldl tokenDepth 0 = 0 := by
  obtain ⟨hstart, -⟩ := h.ended.resolve_left hne
  have hclosed : (Nesting.run ⟨0, none⟩ type).quote = none := congrArg Nesting.quote hstart
  have hdepth := run_eq_foldl_tokenDepth hclosed
  exact congrArg Nesting.depth (hdepth.symm.trans hstart)

end IsTypeOf

/-- **Types are cut cleanly, and stay as they are.** The declared type is the
    front of the text up to the first constraint that opens outside quotes and
    parentheses, without outer blanks.  It has the first tokens of the text,
    and what stands behind it has the others.  It leaves no parenthesis open
    for a constraint, and it is its own type. -/
theorem declaredType_cut {text : Text} (h : isBlankText text = false) :
    (∃ behind, IsTypeOf (trim text) (declaredType text) behind ∧
        tokens (trim text) = tokens (declaredType text) ++ tokens behind ∧
        (behind ≠ [] → (tokens (declaredType text)).foldl tokenDepth 0 = 0)) ∧
      declaredType (declaredType text) = declaredType text := by
  obtain ⟨behind, htype⟩ := isTypeOf_declaredType h
  exact ⟨⟨behind, htype, htype.tokens_eq, htype.depth_eq_zero⟩, htype.declaredType_eq_self⟩

/-- Quotes and parentheses hide a constraint word; the blanks in front of one do
    not belong to the type. -/
theorem declaredType_cut_enum :
    let text : Text := "  ENUM ('a) not null', (as \x60on)\x60))\tunsigned \n DEFAULT 'x' "
    let type : Text := "ENUM ('a) not null', (as \x60on)\x60))\tunsigned"
    isBlankText text = false ∧ declaredType text = type ∧
      (∃ behind, IsTypeOf (trim text) type behind) ∧ declaredType type = type := by
  intro text type
  have hblank : isBlankText text = false := by decide +kernel
  have htype : declaredType text = type := by decide +kernel
  obtain ⟨⟨behind, hbehind, -⟩, hself⟩ := declaredType_cut hblank
  rw [htype] at hbehind hself
  exact ⟨hblank, htype, ⟨behind, hbehind⟩, hself⟩

end Ddl

end SchemaDiagram
