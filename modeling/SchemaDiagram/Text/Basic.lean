/-! # Text — the strings that every other module works on

    A text is a list of characters (Unicode scalar values), so that every
    operation on it can be read and proved by recursion on the list.

      * `Text`           — the type, with string literals read as texts
      * `Text.decimal`   — a natural number in base ten
      * `Text.joined`    — texts with a separator between neighbours
      * `Text.cut?`      — what stands before and after the first occurrence
                           of one character
      * `Text.contains`  — whether one text occurs in another -/

namespace SchemaDiagram

/-- A text: its characters, in order. -/
abbrev Text : Type := List Char

instance : Coe String Text := ⟨String.toList⟩

namespace Text

/-- The decimal digits of `n`, without leading zeros. -/
def decimal (n : Nat) : Text := Nat.toDigits 10 n

theorem decimal_inj {m n : Nat} (h : decimal m = decimal n) : m = n := by
  have hm := Nat.ofDigitChars_toDigits (b := 10) (n := m) (by decide) (by decide)
  have hn := Nat.ofDigitChars_toDigits (b := 10) (n := n) (by decide) (by decide)
  rw [← hm, ← hn]
  exact congrArg (Nat.ofDigitChars 10 · 0) h

/-- `parts` one after the other, with `separator` between neighbours. -/
def joined (separator : Text) (parts : List Text) : Text := separator.intercalate parts

@[simp] theorem joined_nil (separator : Text) : joined separator [] = [] := rfl

@[simp] theorem joined_singleton (separator part : Text) : joined separator [part] = part :=
  List.intercalate_singleton

theorem joined_cons_cons (separator part next : Text) (parts : List Text) :
    joined separator (part :: next :: parts) =
      part ++ separator ++ joined separator (next :: parts) :=
  List.intercalate_cons_cons

/-- The text before the first `mark` and the text after it, if `mark` occurs. -/
def cut? (mark : Char) : Text → Option (Text × Text)
  | [] => none
  | c :: r =>
    if c = mark then some ([], r)
    else (cut? mark r).map fun (before, after) => (c :: before, after)

/-- **What a cut means.** The two sides and the mark make up the text, and
    the mark does not occur before the cut. -/
theorem cut?_eq_some_iff {mark : Char} {s before after : Text} :
    cut? mark s = some (before, after) ↔ s = before ++ mark :: after ∧ mark ∉ before := by
  induction s generalizing before with
  | nil => simp [cut?]
  | cons c r ih =>
    by_cases hc : c = mark
    · subst hc
      constructor
      · intro h
        simp only [cut?, if_true, Option.some.injEq, Prod.mk.injEq] at h
        obtain ⟨rfl, rfl⟩ := h
        simp
      · rintro ⟨h, hb⟩
        cases before with
        | nil => simp_all [cut?]
        | cons b bs => simp_all
    · constructor
      · intro h
        simp only [cut?, hc, if_false, Option.map_eq_some_iff, Prod.mk.injEq, Prod.exists] at h
        obtain ⟨b, a, h', rfl, rfl⟩ := h
        have := ih.1 h'
        simp [this.1, this.2, Ne.symm hc]
      · rintro ⟨h, hb⟩
        cases before with
        | nil => simp_all
        | cons b bs =>
          simp only [List.cons_append, List.cons.injEq, List.mem_cons, not_or] at h hb
          obtain ⟨rfl, rfl⟩ := h
          have := ih.2 ⟨rfl, hb.2⟩
          simp [cut?, hc, this]

theorem cut?_eq_none_iff {mark : Char} {s : Text} : cut? mark s = none ↔ mark ∉ s := by
  induction s with
  | nil => simp [cut?]
  | cons c r ih =>
    by_cases hc : c = mark
    · simp [cut?, hc]
    · simp [cut?, hc, ih, Ne.symm hc]

/-- A cut leaves less than the whole. -/
theorem length_after_lt {mark : Char} {s before after : Text}
    (h : cut? mark s = some (before, after)) : after.length < s.length := by
  rw [(cut?_eq_some_iff.1 h).1]
  simp
  omega

/-- Whether `part` occurs in a text. -/
def contains (part : Text) : Text → Bool
  | [] => part.isEmpty
  | c :: r => part.isPrefixOf (c :: r) || contains part r

theorem contains_iff {part s : Text} : contains part s = true ↔ part <:+: s := by
  induction s with
  | nil => simp [contains]
  | cons c r ih => simp [contains, ih, List.infix_cons_iff]

theorem contains_eq_false_iff {part s : Text} : contains part s = false ↔ ¬ part <:+: s := by
  rw [← contains_iff, Bool.not_eq_true]

end Text

end SchemaDiagram
