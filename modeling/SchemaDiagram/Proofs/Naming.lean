import Mathlib.Data.List.Basic
import SchemaDiagram.Ddl.Name
import SchemaDiagram.Ddl.Printer
import SchemaDiagram.Proofs.Lexing
import SchemaDiagram.Proofs.Trimming

/-! # Naming — names that survive being written in marks

    An identifier is reduced to its last part, without a group behind it and
    without blanks and marks around it.  A name that has none of these is its
    own bare name, in marks or not.

      * `IsQuotable`                    — names that may be printed in backticks
      * `isQuotable_of_isPlain`         — plain names may
      * `bareName_marked`               — what is left of a name in marks
      * `bareName_append_dot`           — what stands before the last dot does
                                          not matter
      * `bareName_append_group`         — neither does a group behind a name
      * `IsPart`                        — names that may be a part of others
      * `IsPart.bareName_eq_self`,
        `IsPart.bareName_marked`        — such a name is found again
      * `IsMarkable`                    — names that may be written in marks
                                          and read as one token -/

namespace SchemaDiagram.Ddl

open Text (contains contains_iff cut? trim trimEnd trimStart Trimmed trim_eq_self trim_eq_nil_iff
  isBlank isBlankText)

/-! ### Names in backticks -/

/-- The characters that a name in backticks cannot hold: they would qualify
    it, end it, hide what follows, or be taken for a mark by a scan that does
    not know quotes. -/
def reservedChars : Text := ".\x60\x22\\()#"

/-- Names that are found again when they are written in backticks. -/
structure IsQuotable (name : Text) : Prop where
  ne_nil : name ≠ []
  /-- the reader trims names, in quotes or not -/
  trimmed : Trimmed name
  not_reserved : ∀ c ∈ name, c ∉ reservedChars
  no_lineComment : contains "--" name = false
  no_blockComment : contains "/*" name = false

instance (name : Text) : Decidable (IsQuotable name) :=
  decidable_of_iff
    (name ≠ [] ∧ Trimmed name ∧ name.all (fun c => decide (c ∉ reservedChars)) = true ∧
      contains "--" name = false ∧ contains "/*" name = false)
    ⟨fun ⟨h₁, h₂, h₃, h₄, h₅⟩ => ⟨h₁, h₂, by simpa using h₃, h₄, h₅⟩,
      fun ⟨h₁, h₂, h₃, h₄, h₅⟩ => ⟨h₁, h₂, by simpa using h₃, h₄, h₅⟩⟩

theorem quotedName_eq (name : Text) : quotedName name = '\x60' :: (name ++ ['\x60']) := rfl

theorem forall_mem_quotedName {p : Char → Prop} {name : Text} :
    (∀ c ∈ quotedName name, p c) ↔ p '\x60' ∧ ∀ c ∈ name, p c := by
  simp [quotedName_eq, or_imp, forall_and, and_comm]

theorem quotedName_ne_nil (name : Text) : quotedName name ≠ [] := List.cons_ne_nil _ _

theorem getLast?_quotedName (name : Text) : (quotedName name).getLast? = some '\x60' := by
  rw [quotedName_eq, ← List.cons_append, List.getLast?_concat]

theorem trimmed_quotedName (name : Text) : Trimmed (quotedName name) :=
  Text.trimmed_of_ends rfl (getLast?_quotedName name) (by decide) (by decide)

theorem ne_of_mem_of_isQuotable {name : Text} {c d : Char} (h : IsQuotable name) (hc : c ∈ name)
    (hd : d ∈ reservedChars) : c ≠ d := by
  rintro rfl
  exact h.not_reserved c hc hd

theorem not_mem_of_isQuotable {name : Text} {d : Char} (h : IsQuotable name)
    (hd : d ∈ reservedChars) : d ∉ name := fun hmem => h.not_reserved d hmem hd

/-! ### Plain names -/

theorem ne_nil_of_isPlain {name : Text} (h : isPlain name = true) : name ≠ [] := by
  rintro rfl
  cases h

/-- A plain name is a word. -/
theorem isWordChar_of_isPlain {name : Text} (h : isPlain name = true) :
    ∀ c ∈ name, isWordChar c = true := by
  have hword : ∀ c : Char, (c.isAlphanum || c == '_' || c == '$') = true → isWordChar c = true := by
    intro c hc
    simp only [Bool.or_eq_true] at hc
    rcases hc with (hc | hc) | hc
    · simp [isWordChar, Text.isAlphanumeric_of_isAlphanum hc]
    · simp [isWordChar, hc]
    · simp [isWordChar, hc]
  cases name with
  | nil => simp
  | cons c r =>
    simp only [isPlain, Bool.and_eq_true] at h
    refine List.forall_mem_cons.2 ⟨hword c ?_, fun d hd => hword d (List.all_eq_true.1 h.2 d hd)⟩
    have hc := h.1
    simp only [Char.isAlphanum, Bool.or_eq_true] at hc ⊢
    rcases hc with hc | hc <;> simp [hc]

/-- **Plain names may be written in backticks.** -/
theorem isQuotable_of_isPlain {name : Text} (h : isPlain name = true) : IsQuotable name := by
  -- none of the characters that are ruled out is a word character
  have hword := isWordChar_of_isPlain h
  have hnot : ∀ d, isWordChar d = false → d ∉ name := by
    intro d hd hmem
    rw [hword d hmem] at hd
    cases hd
  constructor
  case ne_nil => exact ne_nil_of_isPlain h
  case trimmed =>
    exact ⟨fun c hc => isBlank_of_isWordChar (hword c (List.mem_of_mem_head? hc)),
      fun c hc => isBlank_of_isWordChar (hword c (List.mem_of_mem_getLast? hc))⟩
  case not_reserved =>
    have hreserved : reservedChars.all (!isWordChar ·) = true := by decide
    exact fun c hc hmem => hnot c (by simpa using List.all_eq_true.1 hreserved c hmem) hc
  case no_lineComment =>
    rw [Bool.eq_false_iff]
    exact fun hin => hnot '-' (by decide) ((contains_iff.1 hin).subset (by simp))
  case no_blockComment =>
    rw [Bool.eq_false_iff]
    exact fun hin => hnot '*' (by decide) ((contains_iff.1 hin).subset (by simp))

/-! ### Bare names -/

theorem dropTrailingGroup_eq_self {s : Text} (h : s.getLast? ≠ some ')') :
    dropTrailingGroup s = s := by
  unfold dropTrailingGroup
  split
  · next inner hrev =>
    rw [← List.head?_reverse, hrev] at h
    exact absurd rfl h
  · rfl

/-- An identifier of one part, with no group behind it and no blanks around it,
    loses nothing but the marks around it. -/
theorem bareName_of_simple {written : Text} (hne : written ≠ []) (htrim : Trimmed written)
    (hdot : '.' ∉ written) (hlast : written.getLast? ≠ some ')') :
    bareName written = stripMarks written := by
  have hblank : isBlankText written = false := by
    rw [Bool.eq_false_iff, Ne, ← trim_eq_nil_iff, trim_eq_self htrim]
    exact hne
  have hparts : (written.splitOn '.').filter (fun part => !isBlankText part) = [written] := by
    rw [List.splitOn_eq_singleton hdot]
    simp [hblank]
  unfold bareName
  simp only [trim_eq_self htrim, dropTrailingGroup_eq_self hlast, hparts]
  rw [List.getLast?_singleton]
  simp only [trim_eq_self htrim]

theorem bareName_trim (s : Text) : bareName (trim s) = bareName s := by
  unfold bareName
  rw [Text.trim_trim]

theorem bareName_append_blanks (s : Text) {b : Text} (hb : isBlankText b = true) :
    bareName (s ++ b) = bareName s := by
  rw [← bareName_trim, Text.trim_append_blanks s hb, bareName_trim]

theorem bareName_of_undotted {s : Text} (hblank : isBlankText s = false) (hdot : '.' ∉ s)
    (hclose : ')' ∉ s) : bareName s = stripMarks (trim s) := by
  have hsubset := Text.trim_subset s
  have hne : trim s ≠ [] := by
    rw [Ne, trim_eq_nil_iff, hblank]
    exact Bool.false_ne_true
  rw [← bareName_trim]
  exact bareName_of_simple hne (Text.trimmed_trim s) (fun h => hdot (hsubset h)) fun hlast =>
    hclose (hsubset (List.mem_of_getLast? hlast))

/-- **What stands before the last dot** does not matter, if something stands
    behind it. -/
theorem bareName_append_dot (s : Text) {t : Text} (hblank : isBlankText t = false) (hdot : '.' ∉ t)
    (hclose : ')' ∉ t) : bareName (s ++ '.' :: t) = bareName t := by
  have hsubset : trimEnd t ⊆ t := (Text.trimEnd_prefix t).subset
  have htrim : trim (s ++ '.' :: t) = trimStart s ++ '.' :: trimEnd t :=
    Text.trim_around (by decide) s t
  have hwhole : trim (trimStart s ++ '.' :: trimEnd t) = trimStart s ++ '.' :: trimEnd t := by
    rw [← htrim, Text.trim_trim]
  have hlast : (trimStart s ++ '.' :: trimEnd t).getLast? ≠ some ')' := by
    intro hlast
    rw [List.getLast?_append_cons] at hlast
    rcases List.mem_cons.1 (List.mem_of_getLast? hlast) with heq | hmem
    · exact absurd heq (by decide)
    · exact hclose (hsubset hmem)
  -- the last part is what is left of `t`
  have hparts : ((trimStart s ++ '.' :: trimEnd t).splitOn '.').filter (!isBlankText ·) =
      ((trimStart s).splitOn '.').filter (!isBlankText ·) ++ [trimEnd t] := by
    rw [List.splitOn_append_cons_self, List.splitOn_eq_singleton fun h => hdot (hsubset h),
      List.filter_append]
    simp [Text.isBlankText_trimEnd, hblank]
  rw [bareName_of_undotted hblank hdot hclose]
  unfold bareName
  simp only [htrim, dropTrailingGroup_eq_self hlast, hwhole, hparts, List.getLast?_concat,
    Text.trim_trimEnd]

/-- Marks of one kind around a text are the first to be taken off. -/
theorem stripMarks_marked {mark : Char} (hmark : isNameMark mark = true) (s : Text) :
    stripMarks (mark :: (s ++ [mark])) = stripMarks s := by
  have hfront : (mark :: (s ++ [mark])).dropWhile isNameMark = (s ++ [mark]).dropWhile isNameMark :=
    List.dropWhile_cons_of_pos hmark
  rw [stripMarks, hfront, List.dropWhile_append]
  split
  · next hall =>
    -- nothing but marks: the closing one goes with the others
    rw [stripMarks, List.isEmpty_iff.1 hall, List.dropWhile_cons_of_pos hmark]
    rfl
  · rw [List.reverse_concat, List.dropWhile_cons_of_pos hmark]
    rfl

/-- A text without marks loses none. -/
theorem stripMarks_of_unmarked {s : Text} (h : ∀ c ∈ s, isNameMark c = false) :
    stripMarks s = s := by
  have hkeep : ∀ t : Text, (∀ c ∈ t, c ∈ s) → t.dropWhile isNameMark = t := by
    intro t ht
    cases t with
    | nil => rfl
    | cons c r =>
      have hc := h c (ht c List.mem_cons_self)
      exact List.dropWhile_cons_of_neg (by simp [hc])
  rw [stripMarks, hkeep s fun _ hc => hc, hkeep s.reverse fun _ hc => List.mem_reverse.1 hc,
    List.reverse_reverse]

theorem isNameMark_backtick : isNameMark '\x60' = true := rfl

theorem isNameMark_doubleQuote : isNameMark '\x22' = true := rfl

theorem eq_of_isNameMark {mark : Char} (h : isNameMark mark = true) :
    mark = '\x60' ∨ mark = '\x22' := by
  simpa [isNameMark] using h

theorem trimmed_marked {mark : Char} (hmark : isNameMark mark = true) (s : Text) :
    Trimmed (mark :: (s ++ [mark])) := by
  have hlast : (mark :: (s ++ [mark])).getLast? = some mark := by
    rw [← List.cons_append, List.getLast?_concat]
  rcases eq_of_isNameMark hmark with rfl | rfl <;>
    exact Text.trimmed_of_ends rfl hlast (by decide) (by decide)

/-- A name in marks, with no dot in it. -/
theorem bareName_marked {mark : Char} (hmark : isNameMark mark = true) {s : Text} (hdot : '.' ∉ s) :
    bareName (mark :: (s ++ [mark])) = stripMarks s := by
  rw [bareName_of_simple (List.cons_ne_nil _ _) (trimmed_marked hmark s) ?_ ?_,
    stripMarks_marked hmark]
  · rcases eq_of_isNameMark hmark with rfl | rfl <;> simp [hdot]
  · rw [← List.cons_append, List.getLast?_concat]
    rcases eq_of_isNameMark hmark with rfl | rfl <;> decide

theorem bareName_quotedName_of_not_mem {s : Text} (hdot : '.' ∉ s) :
    bareName (quotedName s) = stripMarks s := bareName_marked (by decide) hdot

/-! ### Groups behind names -/

/-- **A group at the end is dropped.** -/
theorem dropTrailingGroup_append {s group : Text} (hopen : '(' ∉ s) (hclose : ')' ∉ s)
    (hgroup : ')' ∉ group) : dropTrailingGroup (s ++ '(' :: (group ++ [')'])) = s := by
  have hreverse : (s ++ '(' :: (group ++ [')'])).reverse = ')' :: (s ++ '(' :: group).reverse := by
    rw [← List.cons_append, ← List.append_assoc, List.reverse_concat]
  -- read from the end, no other closing parenthesis comes up
  have hall : ∀ c ∈ (s ++ '(' :: group).reverse, (c != ')') = true := by
    intro c hc
    rw [bne_iff_ne]
    rintro rfl
    simp [hclose, hgroup] at hc
  have hcut : cut? '(' (s ++ '(' :: group) = some (s, group) :=
    Text.cut?_eq_some_iff.2 ⟨rfl, hopen⟩
  rw [dropTrailingGroup, hreverse]
  simp only [List.takeWhile_eq_self_iff.2 hall, List.dropWhile_eq_nil_iff.2 hall,
    List.reverse_reverse, hcut]
  rfl

/-- **A group behind an identifier** does not matter. -/
theorem bareName_append_group {s group : Text} (hopen : '(' ∉ s) (hclose : ')' ∉ s)
    (hgroup : ')' ∉ group) : bareName (s ++ '(' :: (group ++ [')'])) = bareName s := by
  have hend : trimEnd (group ++ [')']) = group ++ [')'] := by
    refine Text.trimEnd_eq_self fun c hc => ?_
    rw [List.getLast?_concat] at hc
    exact Option.some.inj hc ▸ by decide
  have htrim : trim (s ++ '(' :: (group ++ [')'])) = trimStart s ++ '(' :: (group ++ [')']) := by
    rw [Text.trim_around (by decide), hend]
  have hsubset : trimStart s ⊆ s := (List.dropWhile_suffix isBlank).subset
  have hdrop : dropTrailingGroup (trimStart s ++ '(' :: (group ++ [')'])) = trimStart s :=
    dropTrailingGroup_append (fun h => hopen (hsubset h)) (fun h => hclose (hsubset h)) hgroup
  have hlast : (trim s).getLast? ≠ some ')' := fun hlast =>
    hclose (Text.trim_subset s (List.mem_of_getLast? hlast))
  unfold bareName
  simp only [htrim, hdrop, Text.trim_trimStart, dropTrailingGroup_eq_self hlast, Text.trim_trim]

/-! ### Parts of identifiers -/

/-- Names that may be a part of an identifier, bare or between marks. -/
structure IsPart (name : Text) : Prop where
  ne_nil : name ≠ []
  trimmed : Trimmed name
  not_reserved : ∀ c ∈ name, c ∉ (".\x60\x22()" : Text)

instance (name : Text) : Decidable (IsPart name) :=
  decidable_of_iff
    (name ≠ [] ∧ Trimmed name ∧ name.all (fun c => decide (c ∉ (".\x60\x22()" : Text))) = true)
    ⟨fun ⟨h₁, h₂, h₃⟩ => ⟨h₁, h₂, by simpa using h₃⟩,
      fun ⟨h₁, h₂, h₃⟩ => ⟨h₁, h₂, by simpa using h₃⟩⟩

namespace IsPart

variable {name : Text} (h : IsPart name)
include h

theorem not_mem {c : Char} (hc : c ∈ (".\x60\x22()" : Text)) : c ∉ name :=
  fun hmem => h.not_reserved c hmem hc

/-- Such a name has no marks around it. -/
theorem stripMarks_eq_self : stripMarks name = name := by
  refine stripMarks_of_unmarked fun c hc => ?_
  have hback : c ≠ '\x60' := fun heq => h.not_mem (by decide) (heq ▸ hc)
  have hdouble : c ≠ '\x22' := fun heq => h.not_mem (by decide) (heq ▸ hc)
  simp [isNameMark, hback, hdouble]

/-- **It is its own bare name.** -/
theorem bareName_eq_self : bareName name = name := by
  have hlast : name.getLast? ≠ some ')' := fun hlast =>
    h.not_mem (by decide) (List.mem_of_getLast? hlast)
  rw [bareName_of_simple h.ne_nil h.trimmed (h.not_mem (by decide)) hlast, h.stripMarks_eq_self]

/-- **In marks it has the same bare name.** -/
theorem bareName_marked {mark : Char} (hmark : isNameMark mark = true) :
    bareName (mark :: (name ++ [mark])) = name := by
  rw [Ddl.bareName_marked hmark (h.not_mem (by decide)), h.stripMarks_eq_self]

end IsPart

/-! ### Names in marks -/

/-- Names that may be written between backticks or double quotes. -/
structure IsMarkable (name : Text) : Prop where
  ne_nil : name ≠ []
  trimmed : Trimmed name
  not_reserved : ∀ c ∈ name, c ∉ (".\x60\x22\\()" : Text)

/-- What may be printed in backticks may be written in either mark. -/
theorem IsQuotable.isMarkable {name : Text} (h : IsQuotable name) : IsMarkable name := by
  have happend : reservedChars = (".\x60\x22\\()" : Text) ++ "#" := rfl
  refine ⟨h.ne_nil, h.trimmed, fun c hc hmem => h.not_reserved c hc ?_⟩
  rw [happend]
  exact List.mem_append_left _ hmem

theorem isMarkable_of_isPlain {name : Text} (h : isPlain name = true) : IsMarkable name :=
  (isQuotable_of_isPlain h).isMarkable

namespace IsMarkable

variable {name : Text} (h : IsMarkable name)
include h

theorem not_mem {c : Char} (hc : c ∈ (".\x60\x22\\()" : Text)) : c ∉ name :=
  fun hmem => h.not_reserved c hmem hc

/-- The backslash is reserved for the reading of tokens alone. -/
theorem isPart : IsPart name := by
  have hreserved : (".\x60\x22()" : Text).isSublist ".\x60\x22\\()" = true := by decide
  exact ⟨h.ne_nil, h.trimmed, fun c hc hmem =>
    h.not_reserved c hc ((List.isSublist_iff_sublist.1 hreserved).subset hmem)⟩

theorem bareName_eq_self : bareName name = name := h.isPart.bareName_eq_self

theorem bareName_marked {mark : Char} (hmark : isNameMark mark = true) :
    bareName (mark :: (name ++ [mark])) = name := h.isPart.bareName_marked hmark

end IsMarkable

theorem bareName_quotedName {name : Text} (h : IsQuotable name) :
    bareName (quotedName name) = name := h.isMarkable.bareName_marked (by decide)

end SchemaDiagram.Ddl
