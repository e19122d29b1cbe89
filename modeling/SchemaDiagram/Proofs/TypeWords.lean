import SchemaDiagram.Diagram.TypeToken
import SchemaDiagram.Proofs.RaiseCase

/-! # TypeWords — the words that diagrams have for types

    The word for a type is made in one walk over the capitals of the type, up
    to the first parenthesis.  All that the walk remembers is whether the
    character before was a blank.  So a run of blanks counts for one blank,
    and a type word, which has none, is its own word.

    Blanks around a type are taken away before the size is.  A blank in front
    of the size is then inside the type, and at the end of what is left
    without the size: it stays in the word as an underscore.

      * `gapAfter`, `reduceType_append`   — the walk over two texts side by side
      * `reduceType_blanks`               — the walk over a run of blanks
      * `typeToken_spec`,
        `typeToken_eq_self`               — type words, and that they stay
      * `Respaced`                        — another run of blanks in a place
      * `typeToken_canonical`             — the word is one, and does not depend
                                            on letter case or kinds of blanks
      * `EndsInGap`                       — a blank in front of the size
      * `typeToken_sized_iff`             — the size shows just if there is one -/

namespace SchemaDiagram

open Text (isBlank isBlankText trim trimStart upper capital equalsIgnoringCase exists_trimEnd_eq)

/-! ### Characters -/

/-- **Characters of type words** are capitals of themselves, neither blanks
    nor parentheses. -/
theorem stays_of_isTypeTokenChar {c : Char} (h : isTypeTokenChar c = true) :
    capital c = [c] ∧ isBlank c = false ∧ c ≠ '(' := by
  have hascii : c.toNat < 128 := by
    simp only [isTypeTokenChar, Bool.or_eq_true, beq_iff_eq] at h
    rcases h with (h | h) | rfl
    · have hhigh : c.toNat ≤ 90 := (of_decide_eq_true h).2
      omega
    · simp only [Char.isDigit, Bool.and_eq_true, decide_eq_true_eq] at h
      have hhigh : c.toNat ≤ 57 := h.2
      omega
    · decide
  have htest := Ddl.forall_ascii
    (p := fun c => !isTypeTokenChar c || capital c == [c] && !isBlank c && c != '(')
    (by decide +kernel) hascii
  simpa [h, and_assoc] using htest

/-- Blanks are capitals of themselves. -/
theorem upper_of_isBlankText {b : Text} (hb : isBlankText b = true) : upper b = b := by
  apply Ddl.upper_eq_self
  intro c hc
  exact Ddl.capital_of_not_isWordChar (Ddl.isWordChar_of_isBlank (List.all_eq_true.1 hb c hc))

/-- Only a parenthesis is raised to a parenthesis. -/
theorem paren_mem_upper_iff {s : Text} : '(' ∈ upper s ↔ '(' ∈ s := by
  constructor
  · intro h
    obtain ⟨c, hc, hparen⟩ := List.mem_flatMap.1 h
    exact Ddl.eq_of_mem_capital (by decide) (by decide) hparen ▸ hc
  · intro h
    exact List.mem_flatMap.2 ⟨'(', h, by decide⟩

/-! ### The walk over a type -/

/-- Whether the walk has seen a blank last, behind `s`. -/
def gapAfter (inGap : Bool) : Text → Bool
  | [] => inGap
  | c :: r => gapAfter (isBlank c) r

theorem gapAfter_append (inGap : Bool) (s t : Text) :
    gapAfter inGap (s ++ t) = gapAfter (gapAfter inGap s) t := by
  induction s generalizing inGap with
  | nil => rfl
  | cons c r ih => exact ih (isBlank c)

/-- The last character decides, and here any character tells what it is. -/
theorem gapAfter_of_forall {inGap b : Bool} {s : Text} (hne : s ≠ [])
    (h : ∀ c ∈ s, isBlank c = b) : gapAfter inGap s = b := by
  induction s generalizing inGap with
  | nil => exact absurd rfl hne
  | cons c r ih =>
    obtain ⟨hc, hr⟩ := List.forall_mem_cons.1 h
    show gapAfter (isBlank c) r = b
    cases r with
    | nil => exact hc
    | cons d r => exact ih (List.cons_ne_nil d r) hr

theorem gapAfter_upper (inGap : Bool) (s : Text) : gapAfter inGap (upper s) = gapAfter inGap s := by
  induction s generalizing inGap with
  | nil => rfl
  | cons c r ih =>
    have hc : gapAfter inGap (capital c) = isBlank c :=
      gapAfter_of_forall (Ddl.capital_ne_nil c) fun d hd => Ddl.isBlank_of_mem_capital hd
    rw [Ddl.upper_cons, gapAfter_append, hc, ih]
    rfl

/-- A text that does not end in a blank leaves none behind. -/
theorem gapAfter_of_getLast? {s : Text} (h : ∀ c ∈ s.getLast?, isBlank c = false) :
    gapAfter false s = false := by
  rcases List.eq_nil_or_concat s with rfl | ⟨r, c, rfl⟩
  · rfl
  · rw [List.concat_eq_append] at h ⊢
    rw [gapAfter_append]
    exact h c (List.getLast?_concat ..)

/-- **Two texts side by side** are walked over one after the other. -/
theorem reduceType_append (inGap : Bool) (s t : Text) :
    reduceType inGap (s ++ t) = reduceType inGap s ++ reduceType (gapAfter inGap s) t := by
  induction s generalizing inGap with
  | nil => rfl
  | cons c r ih =>
    simp only [List.cons_append, reduceType, gapAfter]
    by_cases hc : isBlank c = true
    · cases inGap <;> simp [hc, ih]
    · by_cases htoken : isTypeTokenChar c = true <;> simp [hc, htoken, ih]

/-- **A run of blanks** leaves one underscore, or none if a blank is in front
    of it. -/
theorem reduceType_blanks (inGap : Bool) {b : Text} (hb : isBlankText b = true) (hne : b ≠ []) :
    reduceType inGap b = if inGap then [] else "_" := by
  have hgap : ∀ r : Text, isBlankText r = true → reduceType true r = [] := by
    intro r hr
    induction r with
    | nil => rfl
    | cons c r ih =>
      simp only [isBlankText, List.all_cons, Bool.and_eq_true] at hr
      rw [reduceType, if_pos hr.1, if_pos rfl, ih hr.2]
  obtain ⟨c, r, rfl⟩ := List.exists_cons_of_ne_nil hne
  simp only [isBlankText, List.all_cons, Bool.and_eq_true] at hb
  rw [reduceType, if_pos hb.1, hgap r hb.2]
  rfl

/-- **Any run of blanks** in a place makes the same underscore, or none. -/
theorem reduceType_respaced (inGap : Bool) (x y : Text) {b b' : Text} (hb : isBlankText b = true)
    (hne : b ≠ []) (hb' : isBlankText b' = true) (hne' : b' ≠ []) :
    reduceType inGap (x ++ (b ++ y)) = reduceType inGap (x ++ (b' ++ y)) := by
  have hgap : ∀ {b : Text}, isBlankText b = true → b ≠ [] → ∀ g, gapAfter g b = true :=
    fun hb hne _ => gapAfter_of_forall hne (List.all_eq_true.1 hb)
  simp only [reduceType_append, reduceType_blanks _ hb hne, reduceType_blanks _ hb' hne',
    hgap hb hne, hgap hb' hne']

/-! ### Type words -/

theorem isTypeTokenChar_of_mem_reduceType {inGap : Bool} {s : Text} :
    ∀ c ∈ reduceType inGap s, isTypeTokenChar c = true := by
  induction s generalizing inGap with
  | nil => simp [reduceType]
  | cons c r ih =>
    unfold reduceType
    split
    · split
      · exact ih
      · exact List.forall_mem_cons.2 ⟨by decide, ih⟩
    · split
      · next hc => exact List.forall_mem_cons.2 ⟨hc, ih⟩
      · exact ih

/-- **A type word** is a word of capitals, digits and underscores. -/
theorem typeToken_spec (declared : Text) :
    typeToken declared ≠ [] ∧ ∀ c ∈ typeToken declared, isTypeTokenChar c = true := by
  unfold typeToken
  dsimp only
  split
  · exact ⟨by decide, List.all_eq_true.1 (by decide)⟩
  · next hne => exact ⟨hne, isTypeTokenChar_of_mem_reduceType⟩

/-- The walk keeps what may stand in a type word. -/
theorem reduceType_eq_self {s : Text} (h : ∀ c ∈ s, isTypeTokenChar c = true) :
    reduceType false s = s := by
  induction s with
  | nil => rfl
  | cons c r ih =>
    obtain ⟨hc, hr⟩ := List.forall_mem_cons.1 h
    have hblank : ¬ isBlank c = true := by
      rw [(stays_of_isTypeTokenChar hc).2.1]
      exact Bool.false_ne_true
    rw [reduceType, if_neg hblank, if_pos hc, ih hr]

/-- **A type word is its own word.** -/
theorem typeToken_eq_self {s : Text} (hne : s ≠ []) (h : ∀ c ∈ s, isTypeTokenChar c = true) :
    typeToken s = s := by
  have htrim : trim s = s := by
    apply Text.trim_eq_self
    exact ⟨fun c hc => (stays_of_isTypeTokenChar (h c (List.mem_of_head? hc))).2.1,
      fun c hc => (stays_of_isTypeTokenChar (h c (List.mem_of_getLast? hc))).2.1⟩
  have hupper : upper s = s := Ddl.upper_eq_self fun c hc => (stays_of_isTypeTokenChar (h c hc)).1
  have hbase : s.takeWhile (· != '(') = s := by
    apply List.takeWhile_eq_self_iff.2
    intro c hc
    exact bne_iff_ne.2 (stays_of_isTypeTokenChar (h c hc)).2.2
  unfold typeToken
  dsimp only
  rw [htrim, hupper, hbase, reduceType_eq_self h, if_neg hne]

/-- What the walk keeps of a type. -/
def typeRest (s : Text) : Text := reduceType false ((upper (trim s)).takeWhile (· != '('))

/-- The word for a type is what the walk keeps of it, if that is anything. -/
theorem typeToken_eq (s : Text) :
    typeToken s = if typeRest s = [] then ("UNKNOWN" : Text) else typeRest s := rfl

/-- The ASCII letters of a type count the same in either case. -/
theorem typeRest_congr {s t : Text} (h : equalsIgnoringCase s t = true) :
    typeRest s = typeRest t := by
  have hraise : ∀ u : Text, typeRest (Text.raiseCase u) = typeRest u := by
    intro u
    rw [typeRest, Text.trim_raiseCase, Text.upper_raiseCase]
    rfl
  rw [← hraise s, Text.raiseCase_congr h, hraise]

/-! ### Blanks inside a type -/

/-- `t` is `s` with a run of blanks in the place of another. -/
inductive Respaced : (s t : Text) → Prop where
  | run {x b b' y : Text} : isBlankText b = true → b ≠ [] → isBlankText b' = true → b' ≠ [] →
      Respaced (x ++ (b ++ y)) (x ++ (b' ++ y))

/-- No size starts in a run of blanks. -/
theorem takeWhile_blanks_append {b : Text} (hb : isBlankText b = true) (y : Text) :
    (b ++ y).takeWhile (· != '(') = b ++ y.takeWhile (· != '(') := by
  apply List.takeWhile_append_of_pos
  intro c hc
  exact bne_iff_ne.2 (Text.ne_of_isBlank (List.all_eq_true.1 hb c hc) (by decide))

/-- **The walk up to the size** does not tell runs of blanks apart. -/
theorem reduceType_takeWhile_respaced (x y : Text) {b b' : Text} (hb : isBlankText b = true)
    (hne : b ≠ []) (hb' : isBlankText b' = true) (hne' : b' ≠ []) :
    reduceType false ((x ++ (b ++ y)).takeWhile (· != '(')) =
      reduceType false ((x ++ (b' ++ y)).takeWhile (· != '(')) := by
  by_cases hx : '(' ∈ x
  · -- it does not come as far as the blanks
    obtain ⟨x₁, x₂, rfl⟩ := List.append_of_mem hx
    simp [List.takeWhile_append]
  · have hpass : ∀ c ∈ x, (c != '(') = true := by
      intro c hc
      exact bne_iff_ne.2 fun heq => hx (heq ▸ hc)
    rw [List.takeWhile_append_of_pos hpass, List.takeWhile_append_of_pos hpass,
      takeWhile_blanks_append hb, takeWhile_blanks_append hb']
    exact reduceType_respaced false x _ hb hne hb' hne'

/-- **Runs of blanks are not told apart**, wherever they stand. -/
theorem typeRest_respaced {s t : Text} (h : Respaced s t) : typeRest s = typeRest t := by
  cases h with
  | @run x b b' y hb hne hb' hne' =>
  unfold typeRest
  by_cases hx : isBlankText x = true
  · -- in front of the type they are trimmed
    rw [Text.trim_blanks_append _ hx, Text.trim_blanks_append _ hx, Text.trim_blanks_append _ hb,
      Text.trim_blanks_append _ hb']
  · by_cases hy : isBlankText y = true
    · have hbehind : ∀ {b : Text}, isBlankText b = true → isBlankText (b ++ y) = true := by
        intro b hb
        rw [isBlankText, List.all_append, Bool.and_eq_true]
        exact ⟨hb, hy⟩
      rw [Text.trim_append_blanks _ (hbehind hb), Text.trim_append_blanks _ (hbehind hb')]
    · rw [Bool.not_eq_true] at hx hy
      rw [Text.trim_between hx hy, Text.trim_between hx hy, Text.upper_append, Text.upper_append,
        Text.upper_append, Text.upper_append, upper_of_isBlankText hb, upper_of_isBlankText hb']
      exact reduceType_takeWhile_respaced _ _ hb hne hb' hne'

/-- **The word for a type is safe and canonical.** It is not empty and made of
    ASCII capitals, digits and underscores; it is its own word; and it does not
    depend on the case of ASCII letters, nor on the kind and number of the
    blanks in any place where there are blanks. -/
theorem typeToken_canonical (s : Text) :
    (typeToken s ≠ [] ∧ ∀ c ∈ typeToken s, isTypeTokenChar c = true) ∧
      typeToken (typeToken s) = typeToken s ∧
      (∀ t, equalsIgnoringCase s t = true → typeToken t = typeToken s) ∧
      ∀ t, Respaced s t → typeToken t = typeToken s := by
  obtain ⟨hne, hchars⟩ := typeToken_spec s
  refine ⟨⟨hne, hchars⟩, typeToken_eq_self hne hchars, ?_, ?_⟩
  · intro t h
    rw [typeToken_eq, typeToken_eq, typeRest_congr h]
  · intro t h
    rw [typeToken_eq, typeToken_eq, typeRest_respaced h]

/-- A ligature becomes two letters, and a mark between two runs of blanks is
    dropped while both runs count. -/
theorem typeToken_canonical_ligature :
    let s : Text := "\uFB01xed \u3000- point(3)"
    typeToken s = ("FIXED__POINT" : Text) ∧ typeToken "FIXED__POINT" = ("FIXED__POINT" : Text) ∧
      typeToken "\uFB01XED \u3000- Point(3)" = typeToken s ∧
      typeToken "\uFB01xed\n- point(3)" = typeToken s := by
  intro s
  have hs : typeToken s = ("FIXED__POINT" : Text) := by decide +kernel
  obtain ⟨-, hself, hcase, hblanks⟩ := typeToken_canonical s
  refine ⟨hs, hs ▸ hself, hcase _ (by decide +kernel), hblanks _ ?_⟩
  exact @Respaced.run "\uFB01xed" " \u3000" "\n" "- point(3)" (by decide) (by decide) (by decide)
    (by decide)

/-! ### Sizes -/

/-- A blank ends the text, and the text is not blank. -/
def EndsInGap (s : Text) : Prop := isBlankText s = false ∧ ∃ c ∈ s.getLast?, isBlank c = true

/-- Up to its first parenthesis a text in capitals is the capital form of what
    stands in front of that. -/
theorem takeWhile_upper_append {t : Text} (h : '(' ∉ t) {r : Text}
    (hr : ∀ c ∈ r.head?, c = '(') : (upper (t ++ r)).takeWhile (· != '(') = upper t := by
  have hpass : ∀ c ∈ upper t, (c != '(') = true := by
    intro c hc
    exact bne_iff_ne.2 fun heq => h (paren_mem_upper_iff.1 (heq ▸ hc))
  rw [Text.upper_append, List.takeWhile_append_of_pos hpass]
  cases r with
  | nil => rw [Text.upper_nil, List.takeWhile_nil, List.append_nil]
  | cons c r =>
    obtain rfl := hr c rfl
    have hparen : upper ('(' :: r) = '(' :: upper r := Ddl.upper_cons '(' r
    rw [hparen, List.takeWhile_cons_of_neg (by decide), List.append_nil]

section Sized

variable {base : Text} (h : '(' ∉ base)
include h

/-- A type without a size is walked over as it is trimmed. -/
theorem typeRest_unsized : typeRest base = reduceType false (upper (trim base)) := by
  have htrim : '(' ∉ trim base := fun hmem => h (Text.trim_subset base hmem)
  have hwalk := takeWhile_upper_append htrim (r := []) (by simp)
  rw [List.append_nil] at hwalk
  rw [typeRest, hwalk]

/-- In front of a size a type is trimmed at its start alone. -/
theorem typeRest_sized (hblank : isBlankText base = false) (tail : Text) :
    typeRest (base ++ '(' :: tail) = reduceType false (upper (trimStart base)) := by
  obtain ⟨r, hr⟩ := Text.trimEnd_cons_of_not_blank (c := '(') tail (by decide)
  have hsize : isBlankText ('(' :: tail) = false := by
    rw [isBlankText, List.all_cons]
    rfl
  have htrim : trim (base ++ '(' :: tail) = trimStart base ++ '(' :: r := by
    rw [trim, Text.trimStart_append_of_not_blank hblank, Text.trimEnd_append_of_not_blank _ hsize, hr]
  have hstart : '(' ∉ trimStart base := fun hmem =>
    h ((List.dropWhile_suffix isBlank).subset hmem)
  rw [typeRest, htrim, takeWhile_upper_append hstart (by simp)]

/-- Without a blank in front of it the size does not show. -/
theorem typeRest_sized_of_not_endsInGap (hgap : ¬ EndsInGap base) (tail : Text) :
    typeRest (base ++ '(' :: tail) = typeRest base := by
  by_cases hblank : isBlankText base = true
  · -- nothing but a size
    obtain ⟨r, hr⟩ := Text.trimEnd_cons_of_not_blank (c := '(') tail (by decide)
    have htrim : trim (base ++ '(' :: tail) = '(' :: r := by
      rw [Text.trim_blanks_append _ hblank]
      exact hr
    have hwalk := takeWhile_upper_append (t := []) (by simp) (r := '(' :: r) (by simp)
    rw [List.nil_append] at hwalk
    rw [typeRest_unsized h, Text.trim_eq_nil_iff.2 hblank, typeRest, htrim, hwalk]
  · rw [Bool.not_eq_true] at hblank
    have hlast : ∀ c ∈ base.getLast?, isBlank c = false := by
      intro c hc
      rw [Bool.eq_false_iff]
      exact fun hb => hgap ⟨hblank, c, hc, hb⟩
    rw [typeRest_sized h hblank, typeRest_unsized h, Text.trim_eq_trimStart hlast]

/-- A blank in front of the size stays as an underscore. -/
theorem typeRest_sized_of_endsInGap (hgap : EndsInGap base) (tail : Text) :
    typeRest (base ++ '(' :: tail) = typeRest base ++ "_" := by
  obtain ⟨hblank, c, hc, hcblank⟩ := hgap
  obtain ⟨back, hback, hsplit⟩ := exists_trimEnd_eq (trimStart base)
  have hsplit' : trimStart base = trim base ++ back := hsplit
  have hne : back ≠ [] := by
    intro hnil
    have hstart : trimStart base ≠ [] := by
      rw [Ne, Text.trimStart_eq_nil_iff, hblank]
      exact Bool.false_ne_true
    rw [← Text.takeWhile_append_trimStart base, List.getLast?_append_of_ne_nil _ hstart, hsplit',
      hnil, List.append_nil] at hc
    rw [(Text.trimmed_trim base).2 c hc] at hcblank
    cases hcblank
  have hlast : gapAfter false (upper (trim base)) = false := by
    rw [gapAfter_upper]
    exact gapAfter_of_getLast? (Text.trimmed_trim base).2
  rw [typeRest_sized h hblank, hsplit', Text.upper_append, upper_of_isBlankText hback,
    reduceType_append, hlast, reduceType_blanks false hback hne, typeRest_unsized h]
  rfl

end Sized

/-- **When the size of a type shows.** The word for a type with a size is the
    word for the type without it if and only if no blank separates the two.  If
    one does, the word ends in an underscore that stands for it. -/
theorem typeToken_sized_iff {base : Text} (h : '(' ∉ base) (tail : Text) :
    (typeToken (base ++ '(' :: tail) = typeToken base ↔ ¬ EndsInGap base) ∧
      (EndsInGap base → typeToken (base ++ '(' :: tail) = typeRest base ++ "_") := by
  have hshown : EndsInGap base → typeToken (base ++ '(' :: tail) = typeRest base ++ "_" := by
    intro hgap
    rw [typeToken_eq, typeRest_sized_of_endsInGap h hgap, if_neg (by simp)]
  refine ⟨⟨?_, ?_⟩, hshown⟩
  · intro heq hgap
    rw [hshown hgap, typeToken_eq] at heq
    split at heq
    · next hnil =>
      rw [hnil] at heq
      exact absurd heq (by decide)
    · exact absurd (congrArg List.length heq) (by simp)
  · intro hgap
    rw [typeToken_eq, typeToken_eq, typeRest_sized_of_not_endsInGap h hgap]

/-- The blank in front of this size is no ASCII space. -/
theorem typeToken_sized_iff_decimal :
    let base : Text := " decimal\u00A0"
    let tail : Text := "8, 2) unsigned"
    '(' ∉ base ∧ EndsInGap base ∧ typeToken (base ++ '(' :: tail) = ("DECIMAL_" : Text) ∧
      typeToken (base ++ '(' :: tail) ≠ typeToken base := by
  intro base tail
  have hbase : '(' ∉ base := by decide
  have hgap : EndsInGap base := ⟨by decide, '\u00A0', rfl, by decide⟩
  have hrest : typeRest base = ("DECIMAL" : Text) := by decide +kernel
  obtain ⟨hiff, hshown⟩ := typeToken_sized_iff hbase tail
  have hword := hshown hgap
  rw [hrest] at hword
  exact ⟨hbase, hgap, hword, fun heq => hiff.1 heq hgap⟩

/-- So a type with a blank in front of its size is not drawn like the same type
    without a size. -/
theorem typeToken_shows_gap :
    let base : Text := "INT "
    '(' ∉ base ∧ typeToken (base ++ "(11)") = ("INT_" : Text) ∧ typeToken base = ("INT" : Text) ∧
      typeToken (base ++ "(11)") ≠ typeToken base := by
  intro base
  have hsized : typeToken (base ++ "(11)") = ("INT_" : Text) := by decide +kernel
  have hbase : typeToken base = ("INT" : Text) := by decide +kernel
  refine ⟨by decide, hsized, hbase, ?_⟩
  rw [hsized, hbase]
  decide

end SchemaDiagram
