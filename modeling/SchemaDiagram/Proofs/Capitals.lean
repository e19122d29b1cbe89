import Mathlib.Data.List.Basic
import SchemaDiagram.Proofs.Lexing

/-! # Capitals — texts raised to capitals

    Only word characters have another capital form, and only a mark is raised
    to a mark.  So the capital form of a text shows where the words of the
    text end and where its spaces are.

      * `forall_ascii`                  — tests on ASCII characters, one by one
      * `capital_of_not_isWordChar`     — marks and blanks stay
      * `forall_mem_capital`            — tests on characters and their capitals
      * `eq_of_mem_capital`             — and nothing else becomes a mark
      * `isBlank_of_mem_capital`        — or a blank
      * `upper_congr`                   — letter case does not matter
      * `exists_split_of_upper`         — a space comes from a space
      * `prefix_upper_of_append`,
        `suffix_upper_of_append`        — a word stays within the text that it
                                          starts or ends -/

namespace SchemaDiagram.Ddl

open Text (capital upper asciiCapitals foldCase equalsIgnoringCase equalsIgnoringCase_iff isBlank)

/-! ### Characters -/

/-- What a test finds of the ASCII characters, one by one, holds of all of
    them. -/
theorem forall_ascii {p : Char → Bool}
    (h : (List.range 128).all (fun n => p (Char.ofNat n)) = true) {c : Char}
    (hc : c.toNat < 128) : p c = true := by
  have hn := List.all_eq_true.1 h c.toNat (List.mem_range.2 hc)
  rwa [Char.ofNat_toNat] at hn

/-- Beyond ASCII, the capital form of a character is in the table, or the
    character is its own. -/
theorem capital_cases {c : Char} (hc : ¬ c.toNat < 128) :
    (c, capital c) ∈ asciiCapitals ∨ capital c = [c] := by
  rw [capital, if_neg hc]
  cases h : asciiCapitals.lookup c with
  | none => exact Or.inr rfl
  | some capitals =>
    obtain ⟨l₁, l₂, hl, -⟩ := List.lookup_eq_some_iff.1 h
    left
    rw [hl]
    simp

/-- **What is no word character stays.** -/
theorem capital_of_not_isWordChar {c : Char} (h : isWordChar c = false) : capital c = [c] := by
  by_cases hc : c.toNat < 128
  · have htest := forall_ascii (p := fun c => isWordChar c || capital c == [c]) (by decide +kernel) hc
    simpa [h] using htest
  · refine (capital_cases hc).resolve_left fun hmem => ?_
    have hkeys : ∀ p ∈ asciiCapitals, isWordChar p.1 = true := by decide +kernel
    have hword : isWordChar c = true := hkeys _ hmem
    rw [h] at hword
    cases hword

/-- **What tests find of the ASCII characters and of the table** holds of each
    character and its capitals, if it holds of each character and itself. -/
theorem forall_mem_capital {p : Char → Char → Bool}
    (hascii : (List.range 128).all (fun n => (capital (Char.ofNat n)).all (p (Char.ofNat n))) = true)
    (htable : asciiCapitals.all (fun q => q.2.all (p q.1)) = true) (hself : ∀ c, p c c = true)
    {c d : Char} (h : d ∈ capital c) : p c d = true := by
  by_cases hc : c.toNat < 128
  · have htest := forall_ascii (p := fun c => (capital c).all (p c)) hascii hc
    exact List.all_eq_true.1 htest d h
  · rcases capital_cases hc with hmem | hcapital
    · have htest : (capital c).all (p c) = true := List.all_eq_true.1 htable _ hmem
      exact List.all_eq_true.1 htest d h
    · rw [hcapital] at h
      rw [List.mem_singleton.1 h]
      exact hself c

/-- **Only an ASCII mark is raised to that mark.** -/
theorem eq_of_mem_capital {c d : Char} (hascii : d.toNat < 128) (hmark : d.isAlpha = false)
    (h : d ∈ capital c) : c = d := by
  have htest := forall_mem_capital (p := fun c d => d.isAlpha || d == c || 128 ≤ d.toNat)
    (by decide +kernel) (by decide +kernel) (by simp) h
  simp only [hmark, Bool.false_or, Bool.or_eq_true, beq_iff_eq, decide_eq_true_eq] at htest
  rcases htest with heq | hhigh
  · exact heq.symm
  · omega

theorem toLower_eq_self {c : Char} (h : 128 ≤ c.toNat) : c.toLower = c := by
  unfold Char.toLower
  split
  · next hupper =>
    have hhigh : c.toNat ≤ 90 := hupper.2
    omega
  · rfl

/-- A letter and its small form have the same capital form. -/
theorem capital_toLower (c : Char) : capital c.toLower = capital c := by
  by_cases hc : c.toNat < 128
  · have htest := forall_ascii (p := fun c => capital c.toLower == capital c) (by decide +kernel) hc
    simpa using htest
  · rw [toLower_eq_self (Nat.le_of_not_lt hc)]

/-- The capital form of a character is blank if the character is. -/
theorem isBlank_of_mem_capital {c d : Char} (h : d ∈ capital c) : isBlank d = isBlank c := by
  have htest := forall_mem_capital (p := fun c d => isBlank d == isBlank c) (by decide +kernel)
    (by decide +kernel) (by simp) h
  exact beq_iff_eq.1 htest

theorem capital_ne_nil (c : Char) : capital c ≠ [] := by
  by_cases hc : c.toNat < 128
  · rw [capital, if_pos hc]
    exact List.cons_ne_nil _ _
  · rcases capital_cases hc with hmem | hself
    · have hnone : ∀ p ∈ asciiCapitals, p.2 ≠ [] := by decide
      exact hnone _ hmem
    · rw [hself]
      exact List.cons_ne_nil _ _

/-! ### Texts -/

theorem upper_cons (c : Char) (r : Text) : upper (c :: r) = capital c ++ upper r := List.flatMap_cons

theorem upper_eq_self {s : Text} (h : ∀ c ∈ s, capital c = [c]) : upper s = s := by
  induction s with
  | nil => rfl
  | cons c r ih =>
    obtain ⟨hc, hr⟩ := List.forall_mem_cons.1 h
    rw [upper_cons, hc, ih hr]
    rfl

/-- Raising to capitals makes no spaces. -/
theorem space_mem_of_upper {s : Text} (h : ' ' ∈ upper s) : ' ' ∈ s := by
  obtain ⟨c, hc, hspace⟩ := List.mem_flatMap.1 h
  exact eq_of_mem_capital (by decide) (by decide) hspace ▸ hc

theorem upper_foldCase (s : Text) : upper (foldCase s) = upper s := by
  induction s with
  | nil => rfl
  | cons c r ih =>
    show upper (c.toLower :: foldCase r) = upper (c :: r)
    rw [upper_cons, upper_cons, capital_toLower, ih]

/-- **Texts that differ in letter case alone** are raised to the same
    capitals. -/
theorem upper_congr {s t : Text} (h : equalsIgnoringCase s t = true) : upper s = upper t := by
  rw [← upper_foldCase s, equalsIgnoringCase_iff.1 h, upper_foldCase]

/-- A text has word characters only if its capital form does. -/
theorem isWordChar_of_upper {s : Text} (h : ∀ c ∈ upper s, isWordChar c = true) :
    ∀ c ∈ s, isWordChar c = true := by
  intro c hc
  by_contra hnot
  have hself := capital_of_not_isWordChar (Bool.not_eq_true _ ▸ hnot)
  have hmem : c ∈ upper s := List.mem_flatMap.2 ⟨c, hc, by rw [hself]; simp⟩
  exact hnot (h c hmem)

/-! ### Where spaces and words are -/

/-- A character of some texts, one after the other, is a character of one of
    them. -/
theorem exists_of_flatMap_eq_append_cons {α β : Type} {f : α → List β} {xs : List α}
    {front back : List β} {b : β} (h : xs.flatMap f = front ++ b :: back) :
    ∃ before x after u v, xs = before ++ x :: after ∧ f x = u ++ b :: v ∧
      front = before.flatMap f ++ u ∧ back = v ++ after.flatMap f := by
  induction xs generalizing front with
  | nil =>
    cases front <;> cases h
  | cons x xs ih =>
    rw [List.flatMap_cons] at h
    -- the character stands behind the first of the texts, or in it
    rcases List.append_eq_append_iff.1 h with ⟨front', rfl, hrest⟩ | ⟨v, hx, hback⟩
    · obtain ⟨before, y, after, u, v, rfl, hy, rfl, rfl⟩ := ih hrest
      exact ⟨x :: before, y, after, u, v, rfl, hy, by simp, rfl⟩
    · cases v with
      | nil =>
        have hrest : xs.flatMap f = [] ++ b :: back := hback.symm
        obtain ⟨before, y, after, u, w, rfl, hy, hnil, rfl⟩ := ih hrest
        refine ⟨x :: before, y, after, u, w, rfl, hy, ?_, rfl⟩
        rw [List.append_nil] at hx
        rw [List.flatMap_cons, List.append_assoc, ← hnil, List.append_nil, hx]
      | cons c v =>
        obtain ⟨rfl, rfl⟩ := List.cons.inj hback
        exact ⟨[], x, xs, front, v, rfl, hx, rfl, rfl⟩

/-- **A space in the capital form** comes from a space of the text. -/
theorem exists_split_of_upper {s front back : Text} (h : upper s = front ++ ' ' :: back) :
    ∃ x y, s = x ++ ' ' :: y ∧ upper x = front ∧ upper y = back := by
  obtain ⟨x, c, y, u, v, rfl, hc, rfl, rfl⟩ := exists_of_flatMap_eq_append_cons h
  obtain rfl : c = ' ' := eq_of_mem_capital (by decide) (by decide) (by rw [hc]; simp)
  have hsplit : [' '] = u ++ ' ' :: v := hc
  obtain ⟨rfl, rfl⟩ : u = [] ∧ v = [] := by
    cases u with
    | nil => exact ⟨rfl, (List.cons.inj hsplit).2.symm⟩
    | cons d u => cases u <;> cases hsplit
  exact ⟨x, y, rfl, (List.append_nil _).symm, rfl⟩

/-- What a text starts with stops in front of a character that it does not
    hold. -/
theorem prefix_of_prefix_append {α : Type} {p a b : List α} (h : p <+: a ++ b)
    (hb : ∀ c ∈ b.head?, c ∉ p) : p <+: a := by
  rcases List.prefix_or_prefix_of_prefix h (List.prefix_append a b) with hp | ⟨t, rfl⟩
  · exact hp
  · cases t with
    | nil => simp
    | cons c t =>
      have ht : c :: t <+: b := (List.prefix_append_right_inj a).1 h
      have hc : b.head? = some c := by
        obtain ⟨u, rfl⟩ := ht
        rfl
      exact absurd (by simp) (hb c hc)

/-- What a text ends with starts behind a character that it does not hold. -/
theorem suffix_of_suffix_append {α : Type} {p a b : List α} (h : p <:+ a ++ b)
    (ha : ∀ c ∈ a.getLast?, c ∉ p) : p <:+ b := by
  rw [← List.reverse_prefix, List.reverse_append] at h
  rw [← List.reverse_prefix]
  refine prefix_of_prefix_append h fun c hc => ?_
  rw [List.head?_reverse] at hc
  rw [List.mem_reverse]
  exact ha c hc

section Words

variable {p s t : Text} (hp : ∀ c ∈ p, isWordChar c = true)
include hp

/-- **A word that starts a text in capitals** ends where no word character
    follows, or in front of another character. -/
theorem prefix_upper_of_append
    (hseam : (∀ c ∈ t.head?, isWordChar c = false) ∨ ∃ c ∈ s.getLast?, isWordChar c = false)
    (h : p <+: upper (s ++ t)) : p <+: upper s := by
  have hstop : ∀ {u c v}, isWordChar c = false → p <+: upper (u ++ c :: v) → p <+: upper u := by
    intro u c v hc hu
    rw [Text.upper_append] at hu
    apply prefix_of_prefix_append hu
    intro d hd hmem
    rw [upper_cons, capital_of_not_isWordChar hc] at hd
    obtain rfl := Option.some.inj hd
    rw [hp c hmem] at hc
    cases hc
  rcases hseam with ht | ⟨c, hlast, hc⟩
  · cases t with
    | nil => rwa [List.append_nil] at h
    | cons c t => exact hstop (ht c rfl) h
  · obtain ⟨front, rfl⟩ := List.getLast?_eq_some_iff.1 hlast
    rw [List.append_assoc] at h
    rw [Text.upper_append]
    exact (hstop hc h).trans (List.prefix_append _ _)

/-- **A word that ends a text in capitals** starts where no word character is in
    front, or behind another character. -/
theorem suffix_upper_of_append
    (hseam : (∀ c ∈ s.getLast?, isWordChar c = false) ∨ ∃ c ∈ t.head?, isWordChar c = false)
    (h : p <:+ upper (s ++ t)) : p <:+ upper t := by
  have hstop : ∀ {u c v}, isWordChar c = false → p <:+ upper (u ++ c :: v) → p <:+ upper v := by
    intro u c v hc hu
    rw [← List.singleton_append, ← List.append_assoc, Text.upper_append, Text.upper_append] at hu
    apply suffix_of_suffix_append hu
    intro d hd hmem
    rw [upper_cons, capital_of_not_isWordChar hc, Text.upper_nil, List.append_nil,
      List.getLast?_concat] at hd
    obtain rfl := Option.some.inj hd
    rw [hp c hmem] at hc
    cases hc
  rcases hseam with hs | ⟨c, hhead, hc⟩
  · cases hlast : s.getLast? with
    | none => rwa [List.getLast?_eq_none_iff.1 hlast] at h
    | some c =>
      obtain ⟨front, rfl⟩ := List.getLast?_eq_some_iff.1 hlast
      rw [List.append_assoc] at h
      exact hstop (hs c hlast) h
  · obtain ⟨back, rfl⟩ := List.head?_eq_some_iff.1 hhead
    rw [upper_cons]
    exact (hstop hc h).trans (List.suffix_append _ _)

/-- No word starts a text that starts with another character. -/
theorem not_prefix_upper (hne : p ≠ []) (ht : ∃ c ∈ t.head?, isWordChar c = false) :
    ¬ p <+: upper t := by
  intro h
  obtain ⟨c, hc, hnot⟩ := ht
  have hstop : ∀ d ∈ t.head?, isWordChar d = false := fun d hd =>
    Option.some.inj (hc.symm.trans hd) ▸ hnot
  exact hne (List.prefix_nil.1 (prefix_upper_of_append hp (s := []) (Or.inl hstop) h))

/-- No word ends a text that ends with another character. -/
theorem not_suffix_upper (hne : p ≠ []) (hs : ∃ c ∈ s.getLast?, isWordChar c = false) :
    ¬ p <:+ upper s := by
  intro h
  obtain ⟨c, hc, hnot⟩ := hs
  have hstop : ∀ d ∈ s.getLast?, isWordChar d = false := fun d hd =>
    Option.some.inj (hc.symm.trans hd) ▸ hnot
  rw [← List.append_nil s] at h
  exact hne (List.suffix_nil.1 (suffix_upper_of_append hp (Or.inl hstop) h))

end Words

end SchemaDiagram.Ddl
