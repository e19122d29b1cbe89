import Mathlib.Data.List.TakeWhile
import SchemaDiagram.Text.Blank

/-! # Trimming — texts without outer blanks

      * `Trimmed`               — neither end of a text is a blank
      * `trimmed_trim`          — trimming gives such a text
      * `trim_eq_self`          — and leaves such a text alone
      * `trim_blanks_append`,
        `trim_append_blanks`    — what stands around a text and is blank does
                                  not matter
      * `trim_between`,
        `trim_around`           — what stands inside a text stays
      * `exists_trim_eq`        — what trimming takes away -/

namespace SchemaDiagram.Text

theorem ne_of_isBlank {c d : Char} (h : isBlank c = true) (hd : isBlank d = false) : c ≠ d := by
  rintro rfl
  rw [h] at hd
  exact Bool.noConfusion hd

/-- A character that is no blank does not stand among blanks. -/
theorem not_mem_of_isBlankText {b : Text} (hb : isBlankText b = true) {c : Char}
    (hc : isBlank c = false) : c ∉ b := by
  intro hmem
  have hblank := List.all_eq_true.1 hb c hmem
  rw [hc] at hblank
  cases hblank

/-- Neither the first nor the last character of `s` is a blank. -/
def Trimmed (s : Text) : Prop :=
  (∀ c ∈ s.head?, isBlank c = false) ∧ ∀ c ∈ s.getLast?, isBlank c = false

instance (s : Text) : Decidable (Trimmed s) :=
  decidable_of_iff ((s.head?.all (!isBlank ·) && s.getLast?.all (!isBlank ·)) = true)
    (by simp [Trimmed, Option.all_eq_true])

/-- A text whose first and last characters are known. -/
theorem trimmed_of_ends {s : Text} {c d : Char} (hfirst : s.head? = some c)
    (hlast : s.getLast? = some d) (hc : isBlank c = false) (hd : isBlank d = false) :
    Trimmed s := by
  constructor
  · intro e he
    rw [hfirst, Option.mem_some_iff] at he
    exact he ▸ hc
  · intro e he
    rw [hlast, Option.mem_some_iff] at he
    exact he ▸ hd

/-! ### One end -/

theorem trimStart_eq_self {s : Text} (h : ∀ c ∈ s.head?, isBlank c = false) : trimStart s = s := by
  cases s with
  | nil => rfl
  | cons c r =>
    have hc : isBlank c = false := h c rfl
    rw [trimStart_cons, hc, if_neg Bool.false_ne_true]

theorem head?_trimStart (s : Text) : ∀ c ∈ (trimStart s).head?, isBlank c = false := by
  induction s with
  | nil => simp [trimStart]
  | cons c r ih =>
    rw [trimStart_cons]
    split
    · exact ih
    · next hc => simpa using hc

/-- What starts with no blank is not trimmed in front. -/
theorem trimStart_append (s : Text) {t : Text} (ht : ∀ c ∈ t.head?, isBlank c = false) :
    trimStart (s ++ t) = trimStart s ++ t := by
  induction s with
  | nil => exact trimStart_eq_self ht
  | cons c r ih =>
    rw [List.cons_append, trimStart_cons, trimStart_cons]
    split
    · exact ih
    · rfl

/-- The first character that is no blank stops the trimming in front. -/
theorem trimStart_append_of_not_blank {s : Text} (hs : isBlankText s = false) (t : Text) :
    trimStart (s ++ t) = trimStart s ++ t := by
  have hne : ¬ trimStart s = [] := by
    rw [trimStart_eq_nil_iff, hs]
    exact Bool.false_ne_true
  have hemp : (s.dropWhile isBlank).isEmpty = false := by simpa [trimStart] using hne
  show (s ++ t).dropWhile isBlank = _
  rw [List.dropWhile_append, hemp, if_neg Bool.false_ne_true]
  rfl

theorem trimEnd_eq_reverse (s : Text) : trimEnd s = (trimStart s.reverse).reverse := rfl

theorem trimEnd_prefix (s : Text) : trimEnd s <+: s := by
  rw [trimEnd_eq_reverse, ← List.reverse_suffix, List.reverse_reverse]
  exact List.dropWhile_suffix isBlank

theorem trimEnd_eq_self {s : Text} (h : ∀ c ∈ s.getLast?, isBlank c = false) : trimEnd s = s := by
  rw [trimEnd_eq_reverse, trimStart_eq_self, List.reverse_reverse]
  rwa [List.head?_reverse]

/-- What ends in no blank is not trimmed at the end. -/
theorem trimEnd_append {s : Text} (hs : ∀ c ∈ s.getLast?, isBlank c = false) (t : Text) :
    trimEnd (s ++ t) = s ++ trimEnd t := by
  rw [trimEnd_eq_reverse, List.reverse_append, trimStart_append, List.reverse_append,
    List.reverse_reverse, ← trimEnd_eq_reverse]
  rwa [List.head?_reverse]

theorem getLast?_trimEnd (s : Text) : ∀ c ∈ (trimEnd s).getLast?, isBlank c = false := by
  rw [trimEnd_eq_reverse, List.getLast?_reverse]
  exact head?_trimStart s.reverse

/-- Trimming the end keeps a first character that is no blank. -/
theorem trimEnd_cons_of_not_blank {c : Char} (r : Text) (hc : isBlank c = false) :
    ∃ r', trimEnd (c :: r) = c :: r' := by
  have hne : trimEnd (c :: r) ≠ [] := by
    intro h
    rw [trimEnd_eq_reverse, List.reverse_eq_nil_iff, trimStart_eq_nil_iff] at h
    have hall := List.all_eq_true.1 h c (by simp)
    rw [hc] at hall
    exact Bool.false_ne_true hall
  obtain ⟨d, r', hd⟩ := List.exists_cons_of_ne_nil hne
  have hpre := trimEnd_prefix (c :: r)
  rw [hd, List.cons_prefix_cons] at hpre
  exact ⟨r', by rw [hd, hpre.1]⟩

/-- The last character that is no blank stops the trimming at the end. -/
theorem trimEnd_append_of_not_blank (s : Text) {t : Text} (ht : isBlankText t = false) :
    trimEnd (s ++ t) = s ++ trimEnd t := by
  have ht' : isBlankText t.reverse = false := by rwa [isBlankText, List.all_reverse]
  rw [trimEnd_eq_reverse, List.reverse_append, trimStart_append_of_not_blank ht' s.reverse,
    List.reverse_append, List.reverse_reverse, ← trimEnd_eq_reverse]

/-! ### Both ends -/

/-- **Trimming trims.** -/
theorem trimmed_trim (s : Text) : Trimmed (trim s) := by
  refine ⟨?_, getLast?_trimEnd (trimStart s)⟩
  cases h : trimStart s with
  | nil => simp [trim, h, trimEnd]
  | cons c r =>
    have hc : isBlank c = false := head?_trimStart s c (by rw [h]; rfl)
    obtain ⟨r', hr⟩ := trimEnd_cons_of_not_blank r hc
    intro d hd
    rw [trim, h, hr, List.head?_cons, Option.mem_some_iff] at hd
    exact hd ▸ hc

/-- **A trimmed text stays as it is.** -/
theorem trim_eq_self {s : Text} (h : Trimmed s) : trim s = s := by
  rw [trim, trimStart_eq_self h.1, trimEnd_eq_self h.2]

theorem trim_trim (s : Text) : trim (trim s) = trim s := trim_eq_self (trimmed_trim s)

/-- What is trimmed already stays, whatever stands behind it. -/
theorem trim_append {s : Text} (h : Trimmed s) (hne : s ≠ []) (t : Text) :
    trim (s ++ t) = s ++ trimEnd t := by
  obtain ⟨c, r, rfl⟩ := List.exists_cons_of_ne_nil hne
  have hstart : trimStart (c :: r ++ t) = c :: r ++ t := trimStart_eq_self h.1
  rw [trim, hstart, trimEnd_append h.2]

/-- What stands between two texts that are not blank is not trimmed. -/
theorem trim_between {s t : Text} (hs : isBlankText s = false) (ht : isBlankText t = false)
    (m : Text) : trim (s ++ (m ++ t)) = trimStart s ++ (m ++ trimEnd t) := by
  rw [trim, trimStart_append_of_not_blank hs, ← List.append_assoc, trimEnd_append_of_not_blank _ ht,
    List.append_assoc]

/-- What stands on either side of a character that is no blank is trimmed at its
    outer end only. -/
theorem trim_around {c : Char} (hc : isBlank c = false) (s t : Text) :
    trim (s ++ c :: t) = trimStart s ++ c :: trimEnd t := by
  have hstart : trimStart (s ++ c :: t) = trimStart s ++ c :: t :=
    trimStart_append s fun d hd => Option.some.inj hd ▸ hc
  have hlast : ∀ d ∈ (trimStart s ++ [c]).getLast?, isBlank d = false := by
    rw [List.getLast?_concat]
    exact fun d hd => Option.some.inj hd ▸ hc
  rw [trim, hstart, List.append_cons, trimEnd_append hlast, ← List.append_cons]

/-- Blanks in front do not matter. -/
theorem trim_blanks_append {b : Text} (s : Text) (hb : isBlankText b = true) :
    trim (b ++ s) = trim s := by
  have hstart : trimStart (b ++ s) = trimStart s :=
    List.dropWhile_append_of_pos (List.all_eq_true.1 hb)
  rw [trim, hstart, trim]

/-- What is trimmed to nothing holds nothing but blanks. -/
theorem trim_eq_nil_iff {s : Text} : trim s = [] ↔ isBlankText s = true := by
  rw [← trimStart_eq_nil_iff]
  constructor
  · intro h
    cases hs : trimStart s with
    | nil => rfl
    | cons c r =>
      have hc : isBlank c = false := head?_trimStart s c (by rw [hs]; rfl)
      obtain ⟨r', hr⟩ := trimEnd_cons_of_not_blank r hc
      rw [trim, hs, hr] at h
      cases h
  · intro h
    rw [trim, h]
    rfl

/-- Blanks behind a text do not matter. -/
theorem trim_append_blanks (s : Text) {b : Text} (hb : isBlankText b = true) :
    trim (s ++ b) = trim s := by
  by_cases hs : isBlankText s = true
  · have hsb : isBlankText (s ++ b) = true := by
      rw [isBlankText, List.all_append, Bool.and_eq_true]
      exact ⟨hs, hb⟩
    rw [trim_eq_nil_iff.2 hs, trim_eq_nil_iff.2 hsb]
  · have hstart : trimStart (s ++ b) = trimStart s ++ b :=
      trimStart_append_of_not_blank (Bool.not_eq_true _ ▸ hs) b
    have hend : trimEnd (trimStart s ++ b) = trimEnd (trimStart s) := by
      rw [trimEnd_eq_reverse, trimEnd_eq_reverse, List.reverse_append]
      have hb' : ∀ c ∈ b.reverse, isBlank c = true := fun c hc =>
        List.all_eq_true.1 hb c (List.mem_reverse.1 hc)
      exact congrArg List.reverse (List.dropWhile_append_of_pos hb')
    rw [trim, hstart, hend, trim]

/-! ### What is taken away -/

theorem isBlankText_takeWhile (s : Text) : isBlankText (s.takeWhile isBlank) = true :=
  List.all_eq_true.2 fun _ hc => List.mem_takeWhile_imp hc

theorem takeWhile_append_trimStart (s : Text) : s.takeWhile isBlank ++ trimStart s = s :=
  List.takeWhile_append_dropWhile

theorem exists_trimEnd_eq (s : Text) :
    ∃ back, isBlankText back = true ∧ s = trimEnd s ++ back := by
  refine ⟨(s.reverse.takeWhile isBlank).reverse, ?_, ?_⟩
  · rw [isBlankText, List.all_reverse]
    exact isBlankText_takeWhile s.reverse
  · rw [trimEnd, ← List.reverse_append, List.takeWhile_append_dropWhile, List.reverse_reverse]

theorem trim_trimStart (s : Text) : trim (trimStart s) = trim s := by
  rw [← trim_blanks_append (trimStart s) (isBlankText_takeWhile s), takeWhile_append_trimStart]

theorem trim_trimEnd (s : Text) : trim (trimEnd s) = trim s := by
  obtain ⟨back, hback, hs⟩ := exists_trimEnd_eq s
  rw [← trim_append_blanks (trimEnd s) hback, ← hs]

theorem isBlankText_trimEnd (s : Text) : isBlankText (trimEnd s) = isBlankText s := by
  obtain ⟨back, hback, hs⟩ := exists_trimEnd_eq s
  calc isBlankText (trimEnd s)
      = (isBlankText (trimEnd s) && isBlankText back) := by rw [hback, Bool.and_true]
    _ = isBlankText (trimEnd s ++ back) := List.all_append.symm
    _ = isBlankText s := by rw [← hs]

/-- **What trimming takes away** is blank. -/
theorem exists_trim_eq (s : Text) : ∃ front back, isBlankText front = true ∧
    isBlankText back = true ∧ s = front ++ (trim s ++ back) := by
  obtain ⟨back, hback, ht⟩ := exists_trimEnd_eq (trimStart s)
  refine ⟨s.takeWhile isBlank, back, isBlankText_takeWhile s, hback, ?_⟩
  rw [trim, ← ht, takeWhile_append_trimStart]

theorem trim_subset (s : Text) : trim s ⊆ s := by
  obtain ⟨front, back, _, _, hs⟩ := exists_trim_eq s
  intro c hc
  rw [hs]
  exact List.mem_append_right _ (List.mem_append_left _ hc)

/-- A text that does not end in a blank is trimmed in front only. -/
theorem trim_eq_trimStart {s : Text} (h : ∀ c ∈ s.getLast?, isBlank c = false) :
    trim s = trimStart s := by
  apply trimEnd_eq_self
  intro c hc
  apply h
  rw [← takeWhile_append_trimStart s, List.getLast?_append, hc]
  rfl

end SchemaDiagram.Text
