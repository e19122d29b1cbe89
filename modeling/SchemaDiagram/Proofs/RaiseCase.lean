import SchemaDiagram.Ddl.ColumnType
import SchemaDiagram.Ddl.Name
import SchemaDiagram.Ddl.Split
import SchemaDiagram.Proofs.SizedType
import SchemaDiagram.Proofs.Tokenizing

/-! # RaiseCase — texts with their ASCII letters in capitals

    Making the ASCII letters of a text capitals touches no mark, no blank and
    no digit.  So a scan that looks for marks and blanks finds them where they
    were, and a comparison that ignores letter case comes out the same.

      * `raiseCase`                 — the text in ASCII capitals
      * `apply_toUpper`             — what a test finds of a letter, it finds of
                                      its capital
      * `toUpper_eq_iff`            — marks stay, and nothing else becomes one
      * `trim_raiseCase`,
        `cut?_raiseCase`, …         — texts
      * `bareName_raiseCase`        — names
      * `splitTopLevel_raiseCase`   — lists
      * `declaredType_raiseCase`    — types -/

namespace SchemaDiagram

namespace Text

/-! ### Characters -/

/-- `s` with its ASCII letters made capitals; all other characters stay. -/
def raiseCase (s : Text) : Text := s.map Char.toUpper

theorem toUpper_eq_self {c : Char} (h : 128 ≤ c.toNat) : c.toUpper = c := by
  unfold Char.toUpper
  split
  · next hlower =>
    have hhigh : c.toNat ≤ 122 := hlower.2
    omega
  · rfl

/-- **What a test finds of the ASCII letters and their capitals alike**, it
    finds of all characters and their capitals alike. -/
theorem apply_toUpper {α : Type} [DecidableEq α] {f : Char → α}
    (h : (List.range 128).all (fun n => f (Char.ofNat n).toUpper = f (Char.ofNat n)) = true)
    (c : Char) : f c.toUpper = f c := by
  -- beyond ASCII a character is its own capital
  by_cases hc : c.toNat < 128
  · exact of_decide_eq_true
      (Ddl.forall_ascii (p := fun c => decide (f c.toUpper = f c)) h hc)
  · rw [toUpper_eq_self (Nat.le_of_not_lt hc)]

/-- **Marks stay, and nothing else becomes one.** -/
theorem toUpper_eq_iff {c d : Char} (hd : d.isAlpha = false) : c.toUpper = d ↔ c = d := by
  have hcases : c.toUpper = c ∨ c.isAlpha = true ∧ c.toUpper.isAlpha = true := by
    by_cases hc : c.toNat < 128
    · have htest := Ddl.forall_ascii
        (p := fun c => c.toUpper == c || c.isAlpha && c.toUpper.isAlpha) (by decide) hc
      simpa using htest
    · exact Or.inl (toUpper_eq_self (Nat.le_of_not_lt hc))
  rcases hcases with hc | ⟨hc, hupper⟩
  · rw [hc]
  · -- a letter is no mark, and neither is its capital
    constructor
    · rintro rfl
      rw [hupper] at hd
      cases hd
    · rintro rfl
      rw [hc] at hd
      cases hd

theorem toUpper_beq {c d : Char} (hd : d.isAlpha = false) : (c.toUpper == d) = (c == d) := by
  rw [Bool.eq_iff_iff, beq_iff_eq, beq_iff_eq, toUpper_eq_iff hd]

@[simp] theorem isBlank_toUpper (c : Char) : isBlank c.toUpper = isBlank c :=
  apply_toUpper (by decide) c

@[simp] theorem toLower_toUpper (c : Char) : c.toUpper.toLower = c.toLower :=
  apply_toUpper (by decide) c

@[simp] theorem capital_toUpper (c : Char) : capital c.toUpper = capital c :=
  apply_toUpper (by decide) c

/-! ### Texts -/

@[simp] theorem raiseCase_nil : raiseCase [] = [] := rfl

@[simp] theorem raiseCase_cons (c : Char) (r : Text) :
    raiseCase (c :: r) = c.toUpper :: raiseCase r := rfl

@[simp] theorem raiseCase_append (s t : Text) : raiseCase (s ++ t) = raiseCase s ++ raiseCase t :=
  List.map_append

@[simp] theorem raiseCase_reverse (s : Text) : raiseCase s.reverse = (raiseCase s).reverse :=
  List.map_reverse

@[simp] theorem raiseCase_eq_nil_iff {s : Text} : raiseCase s = [] ↔ s = [] := List.map_eq_nil_iff

section Scan

variable {p : Char → Bool} (hp : ∀ c, p c.toUpper = p c) (s : Text)
include hp

theorem all_raiseCase : (raiseCase s).all p = s.all p := by
  have hcomp : p ∘ Char.toUpper = p := funext hp
  rw [raiseCase, List.all_map, hcomp]

theorem takeWhile_raiseCase : (raiseCase s).takeWhile p = raiseCase (s.takeWhile p) := by
  have hcomp : p ∘ Char.toUpper = p := funext hp
  rw [raiseCase, List.takeWhile_map, hcomp]
  rfl

theorem dropWhile_raiseCase : (raiseCase s).dropWhile p = raiseCase (s.dropWhile p) := by
  have hcomp : p ∘ Char.toUpper = p := funext hp
  rw [raiseCase, List.dropWhile_map, hcomp]
  rfl

end Scan

@[simp] theorem isBlankText_raiseCase (s : Text) : isBlankText (raiseCase s) = isBlankText s :=
  all_raiseCase isBlank_toUpper s

@[simp] theorem trimStart_raiseCase (s : Text) : trimStart (raiseCase s) = raiseCase (trimStart s) :=
  dropWhile_raiseCase isBlank_toUpper s

@[simp] theorem trimEnd_raiseCase (s : Text) : trimEnd (raiseCase s) = raiseCase (trimEnd s) := by
  rw [trimEnd, ← raiseCase_reverse, dropWhile_raiseCase isBlank_toUpper, ← raiseCase_reverse]
  rfl

@[simp] theorem trim_raiseCase (s : Text) : trim (raiseCase s) = raiseCase (trim s) := by
  rw [trim, trimStart_raiseCase, trimEnd_raiseCase]
  rfl

theorem firstWord_raiseCase (s : Text) : firstWord (raiseCase s) = raiseCase (firstWord s) := by
  rw [firstWord, trimStart_raiseCase, takeWhile_raiseCase (fun c => by rw [isBlank_toUpper])]
  rfl

@[simp] theorem foldCase_raiseCase (s : Text) : foldCase (raiseCase s) = foldCase s := by
  rw [foldCase, raiseCase, List.map_map]
  exact List.map_congr_left fun c _ => toLower_toUpper c

theorem toUpper_toLower (c : Char) : c.toLower.toUpper = c.toUpper := by
  by_cases hc : c.toNat < 128
  · have htest := Ddl.forall_ascii (p := fun c => c.toLower.toUpper == c.toUpper) (by decide) hc
    exact beq_iff_eq.1 htest
  · rw [Ddl.toLower_eq_self (Nat.le_of_not_lt hc)]

/-- **Texts that differ in letter case alone** have the same capitals. -/
theorem raiseCase_congr {s t : Text} (h : equalsIgnoringCase s t = true) :
    raiseCase s = raiseCase t := by
  have hfold : ∀ u : Text, raiseCase (foldCase u) = raiseCase u := by
    intro u
    rw [foldCase, raiseCase, List.map_map]
    exact List.map_congr_left fun c _ => toUpper_toLower c
  rw [← hfold s, equalsIgnoringCase_iff.1 h, hfold]

@[simp] theorem equalsIgnoringCase_raiseCase (s t : Text) :
    equalsIgnoringCase (raiseCase s) t = equalsIgnoringCase s t := by
  rw [equalsIgnoringCase, foldCase_raiseCase]
  rfl

@[simp] theorem upper_raiseCase (s : Text) : upper (raiseCase s) = upper s := by
  rw [upper, raiseCase, List.flatMap_map]
  exact List.flatMap_congr fun c _ => capital_toUpper c

section Mark

variable {mark : Char} (hmark : mark.isAlpha = false)
include hmark

theorem cut?_raiseCase (s : Text) :
    cut? mark (raiseCase s) = (cut? mark s).map (Prod.map raiseCase raiseCase) := by
  induction s with
  | nil => rfl
  | cons c r ih =>
    rw [raiseCase_cons, cut?, cut?, ih]
    by_cases hc : c = mark
    · rw [if_pos ((toUpper_eq_iff hmark).2 hc), if_pos hc]
      rfl
    · rw [if_neg (mt (toUpper_eq_iff hmark).1 hc), if_neg hc, Option.map_map, Option.map_map]
      rfl

theorem splitOn_raiseCase (s : Text) :
    (raiseCase s).splitOn mark = (s.splitOn mark).map raiseCase := by
  simp only [List.splitOn_eq_splitOnP]
  induction s with
  | nil => rfl
  | cons c r ih =>
    rw [raiseCase_cons, List.splitOnP_cons_eq_if_modifyHead, List.splitOnP_cons_eq_if_modifyHead,
      ih, toUpper_beq hmark]
    split
    · rfl
    · cases r.splitOnP (· == mark) <;> rfl

end Mark

/-- A marker without letters starts a text if it starts the text in
    capitals. -/
theorem isPrefixOf_raiseCase {marker : Text} (hmarker : marker.all (!Char.isAlpha ·) = true)
    (s : Text) : marker.isPrefixOf (raiseCase s) = marker.isPrefixOf s := by
  induction marker generalizing s with
  | nil => rfl
  | cons m marker ih =>
    rw [List.all_cons, Bool.and_eq_true, Bool.not_eq_true'] at hmarker
    obtain ⟨hm, hmarker⟩ := hmarker
    cases s with
    | nil => rfl
    | cons c r =>
      have hbeq : (m == c.toUpper) = (m == c) := by
        rw [Bool.beq_comm, toUpper_beq hm, Bool.beq_comm]
      rw [raiseCase_cons, List.isPrefixOf, List.isPrefixOf, hbeq, ih hmarker]

end Text

namespace Ddl

open Text (raiseCase trim cut? isBlankText toUpper_eq_iff toUpper_beq apply_toUpper cut?_raiseCase
  splitOn_raiseCase takeWhile_raiseCase dropWhile_raiseCase)

/-! ### Names -/

@[simp] theorem isWordChar_toUpper (c : Char) : isWordChar c.toUpper = isWordChar c :=
  apply_toUpper (by decide) c

@[simp] theorem isQuote_toUpper (c : Char) : isQuote c.toUpper = isQuote c :=
  apply_toUpper (by decide) c

@[simp] theorem isNameMark_toUpper (c : Char) : isNameMark c.toUpper = isNameMark c :=
  apply_toUpper (by decide) c

theorem dropTrailingGroup_raiseCase (s : Text) :
    dropTrailingGroup (raiseCase s) = raiseCase (dropTrailingGroup s) := by
  have hclose : ∀ c : Char, (c.toUpper != ')') = (c != ')') := fun c =>
    congrArg not (toUpper_beq (by decide))
  have htake := takeWhile_raiseCase (p := (· != ')')) hclose
  have hdrop := dropWhile_raiseCase (p := (· != ')')) hclose
  rw [dropTrailingGroup, dropTrailingGroup, ← Text.raiseCase_reverse]
  cases s.reverse with
  | nil => rfl
  | cons c inner =>
    rw [Text.raiseCase_cons]
    by_cases hc : c = ')'
    · subst hc
      have hmark : Char.toUpper ')' = ')' := rfl
      simp only [hmark, htake, hdrop, ← Text.raiseCase_reverse]
      rw [cut?_raiseCase (by decide)]
      cases cut? '(' (inner.takeWhile (· != ')')).reverse with
      | none => rfl
      | some p => simp
    · have hupper : c.toUpper ≠ ')' := mt (toUpper_eq_iff (by decide)).1 hc
      split
      · next h => exact absurd (List.cons.inj h).1 hupper
      · split
        · next h => exact absurd (List.cons.inj h).1 hc
        · rfl

theorem stripMarks_raiseCase (s : Text) : stripMarks (raiseCase s) = raiseCase (stripMarks s) := by
  rw [stripMarks, dropWhile_raiseCase isNameMark_toUpper, ← Text.raiseCase_reverse,
    dropWhile_raiseCase isNameMark_toUpper, ← Text.raiseCase_reverse]
  rfl

/-- **A name in capitals is found in capitals.** -/
theorem bareName_raiseCase (s : Text) : bareName (raiseCase s) = raiseCase (bareName s) := by
  have hparts : ∀ t : Text, ((raiseCase t).splitOn '.').filter (fun part => !isBlankText part) =
      ((t.splitOn '.').filter fun part => !isBlankText part).map raiseCase := by
    intro t
    rw [splitOn_raiseCase (by decide), List.filter_map]
    simp [Function.comp_def]
  unfold bareName
  simp only [Text.trim_raiseCase, dropTrailingGroup_raiseCase, hparts, List.getLast?_map]
  cases ((trim (dropTrailingGroup (trim s))).splitOn '.' |>.filter
      fun part => !isBlankText part).getLast? with
  | none => exact stripMarks_raiseCase _
  | some part => simp [stripMarks_raiseCase]

@[simp] theorem isPlain_raiseCase (s : Text) : isPlain (raiseCase s) = isPlain s := by
  have hfirst : ∀ c : Char, (c.toUpper.isAlpha || c.toUpper == '_') = (c.isAlpha || c == '_') :=
    apply_toUpper (f := fun c => c.isAlpha || c == '_') (by decide)
  have hrest : ∀ c : Char, (c.toUpper.isAlphanum || c.toUpper == '_' || c.toUpper == '$') =
      (c.isAlphanum || c == '_' || c == '$') :=
    apply_toUpper (f := fun c => c.isAlphanum || c == '_' || c == '$') (by decide)
  cases s with
  | nil => rfl
  | cons c r =>
    rw [Text.raiseCase_cons, isPlain, isPlain, hfirst, Text.all_raiseCase hrest]

/-! ### Lists -/

/-- The quoted text that is open, if any, was opened by a quote mark. -/
def Nesting.Marked (n : Nesting) : Prop := ∀ q ∈ n.quote, isQuote q.mark = true

theorem Nesting.marked_start : Nesting.start.Marked := fun _ h => nomatch h

theorem Nesting.Marked.step {n : Nesting} (h : n.Marked) (c : Char) : (n.step c).Marked :=
  isQuote_mark_run h [c]

/-- Quote marks are no letters. -/
theorem isAlpha_of_isQuote {c : Char} (h : isQuote c = true) : c.isAlpha = false := by
  simp only [isQuote, Bool.or_eq_true, beq_iff_eq] at h
  rcases h with (rfl | rfl) | rfl <;> decide

/-- **The scan for quotes and parentheses** does not see letter case. -/
theorem Nesting.step_toUpper {n : Nesting} (h : n.Marked) (c : Char) :
    n.step c.toUpper = n.step c := by
  obtain ⟨depth, quote⟩ := n
  cases quote with
  | some q =>
    -- the mark that closes the text is no letter
    have hmark : c.toUpper = q.mark ↔ c = q.mark := toUpper_eq_iff (isAlpha_of_isQuote (h q rfl))
    have hescape : c.toUpper = '\\' ↔ c = '\\' := toUpper_eq_iff (by decide)
    simp only [Nesting.step, Nesting.stepQuote, hmark, hescape]
  | none =>
    have hopen : c.toUpper = '(' ↔ c = '(' := toUpper_eq_iff (by decide)
    have hclose : c.toUpper = ')' ↔ c = ')' := toUpper_eq_iff (by decide)
    cases hquote : isQuote c with
    | true =>
      have hself : c.toUpper = c := (toUpper_eq_iff (isAlpha_of_isQuote hquote)).2 rfl
      rw [hself]
    | false => simp [Nesting.step, Nesting.stepDepth, hquote, hopen, hclose]

theorem isCut_toUpper {delimiter : Char} (hdelimiter : delimiter.isAlpha = false) (n : Nesting)
    (c : Char) : isCut delimiter n c.toUpper = isCut delimiter n c := by
  have hopen : (c.toUpper == '(') = (c == '(') := toUpper_beq (by decide)
  have hclose : (c.toUpper == ')') = (c == ')') := toUpper_beq (by decide)
  rw [isCut, toUpper_beq hdelimiter, isQuote_toUpper, hopen, hclose]
  rfl

theorem pieces_raiseCase {delimiter : Char} (hdelimiter : delimiter.isAlpha = false) {n : Nesting}
    (h : n.Marked) (s : Text) :
    pieces delimiter n (raiseCase s) = (pieces delimiter n s).map raiseCase := by
  induction s generalizing n with
  | nil => rfl
  | cons c r ih =>
    rw [Text.raiseCase_cons, pieces, pieces, Nesting.step_toUpper h, ih (h.step c),
      isCut_toUpper hdelimiter]
    split
    · rfl
    · cases pieces delimiter (n.step c) r <;> rfl

/-- **A list in capitals** has its items in capitals. -/
theorem splitTopLevel_raiseCase {delimiter : Char} (hdelimiter : delimiter.isAlpha = false)
    (s : Text) :
    splitTopLevel delimiter (raiseCase s) = (splitTopLevel delimiter s).map raiseCase := by
  have hkeep : ∀ t : Text, (raiseCase t != []) = (t != []) := by
    intro t
    cases t <;> rfl
  rw [splitTopLevel, splitTopLevel, pieces_raiseCase hdelimiter Nesting.marked_start, List.map_map,
    List.filter_map, List.filter_map, List.map_map]
  simp [Function.comp_def, hkeep]

/-! ### Types -/

theorem startsConstraint_raiseCase (s : Text) :
    startsConstraint (raiseCase s) = startsConstraint s := by
  rw [startsConstraint, Text.firstWord_raiseCase, Text.upper_raiseCase]
  rfl

theorem typePart_raiseCase {n : Nesting} (h : n.Marked) (s : Text) :
    typePart n (raiseCase s) = raiseCase (typePart n s) := by
  induction s generalizing n with
  | nil => rfl
  | cons c r ih =>
    have hstart : startsConstraint (c.toUpper :: raiseCase r) = startsConstraint (c :: r) :=
      startsConstraint_raiseCase (c :: r)
    rw [Text.raiseCase_cons, typePart, typePart, Text.isBlank_toUpper, hstart,
      Nesting.step_toUpper h, ih (h.step c)]
    split <;> rfl

/-- **A type in capitals** ends where the type ends. -/
theorem declaredType_raiseCase (s : Text) :
    declaredType (raiseCase s) = raiseCase (declaredType s) := by
  rw [declaredType, declaredType, Text.trim_raiseCase, typePart_raiseCase Nesting.marked_start,
    Text.trim_raiseCase]
  simp only [Text.raiseCase_eq_nil_iff]
  split
  · decide
  · rfl

end Ddl

end SchemaDiagram
