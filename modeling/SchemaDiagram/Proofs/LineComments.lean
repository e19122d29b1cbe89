import Mathlib.Data.List.Forall2
import SchemaDiagram.Ddl.Script
import SchemaDiagram.Proofs.BlockComments

/-! # LineComments — scripts without block comments, line by line

    The two passes over line comments run one after the other over the whole
    text.  Together they do the same to each line: they keep what stands in
    front of its first mark, of whichever kind it is.  So a line that starts
    with a mark leaves an empty line behind.

    The pass over block comments comes first and does not know the lines.  A
    block that is opened in a line comment, and closed further on, takes along
    what stands between, and the line comment goes on behind it.

      * `stripLines`               — the two passes over line comments
      * `IsBeforeMark`             — the text in front of the first mark
      * `exists_isBeforeMark`      — which is what they leave of a line
      * `splitOn_stripLines`       — the lines of what they leave of a text
      * `stripComments_linewise`   — comments, told line by line
      * `stripComments_marked`     — a line comment in a script
      * `parseSchema_lineComment`  — declares nothing and hides nothing, as
                                     long as no block is opened in it -/

namespace SchemaDiagram.Ddl

open Text (joined)

/-! ### One line -/

/-- `s` without its line comments. -/
def stripLines (s : Text) : Text := stripToLineEnd "#" false (stripToLineEnd "--" false s)

theorem stripComments_eq_stripLines (s : Text) :
    stripComments s = stripLines (stripBlocks false s) := rfl

/-- A line comment starts with the first character of `s`. -/
def OpensLineComment (s : Text) : Prop := ("--" : Text) <+: s ∨ ("#" : Text) <+: s

instance (s : Text) : Decidable (OpensLineComment s) :=
  inferInstanceAs (Decidable (("--" : Text) <+: s ∨ ("#" : Text) <+: s))

/-- `front` is what stands in `line` in front of its first mark, and `behind` the
    rest.  In a line without marks it is all of the line. -/
structure IsBeforeMark (line front behind : Text) : Prop where
  split : line = front ++ behind
  ended : behind = [] ∨ OpensLineComment behind
  first : ∀ a b, front = a ++ b → b ≠ [] → ¬ OpensLineComment (b ++ behind)

theorem stripLines_sublist (s : Text) : (stripLines s).Sublist s :=
  (stripToLineEnd_sublist false _).trans (stripToLineEnd_sublist false s)

/-- In a comment nothing of a line is kept. -/
theorem stripToLineEnd_inside {marker s : Text} (h : '\n' ∉ s) :
    stripToLineEnd marker true s = [] := by
  induction s with
  | nil => rfl
  | cons c r ih =>
    rw [List.mem_cons, not_or] at h
    rw [stripToLineEnd, if_neg (Ne.symm h.1), ih h.2]

/-- **The two passes look for one mark or the other** at each character of a
    line. -/
theorem stripLines_cons {c : Char} {r : Text} (h : '\n' ∉ c :: r) :
    stripLines (c :: r) = if OpensLineComment (c :: r) then [] else c :: stripLines r := by
  have hr : '\n' ∉ r := fun hmem => h (List.mem_cons_of_mem c hmem)
  have hrest : '\n' ∉ stripToLineEnd "--" false r := fun hmem =>
    hr ((stripToLineEnd_sublist false r).subset hmem)
  -- the other mark is one character, so what the first pass has done behind it does not count
  have hhash (t : Text) : ("#" : Text).isPrefixOf (c :: t) = true ↔ ("#" : Text) <+: c :: r := by
    rw [List.isPrefixOf_iff_prefix]
    show ['#'] <+: c :: t ↔ ['#'] <+: c :: r
    simp only [List.cons_prefix_cons, List.nil_prefix]
  rw [stripLines, stripToLineEnd]
  by_cases hdash : ("--" : Text) <+: c :: r
  · have hopens : OpensLineComment (c :: r) := Or.inl hdash
    rw [if_pos hopens, if_pos (List.isPrefixOf_iff_prefix.2 hdash), stripToLineEnd_inside hr]
    rfl
  · rw [if_neg (mt List.isPrefixOf_iff_prefix.1 hdash), stripToLineEnd]
    by_cases hmark : ("#" : Text) <+: c :: r
    · have hopens : OpensLineComment (c :: r) := Or.inr hmark
      rw [if_pos hopens, if_pos ((hhash _).2 hmark), stripToLineEnd_inside hrest]
    · have hopens : ¬ OpensLineComment (c :: r) := not_or.2 ⟨hdash, hmark⟩
      rw [if_neg hopens, if_neg (mt (hhash _).1 hmark), stripLines]

/-- **Of a line the text in front of its first mark is left.** -/
theorem exists_isBeforeMark {line : Text} (h : '\n' ∉ line) :
    ∃ behind, IsBeforeMark line (stripLines line) behind := by
  induction line with
  | nil =>
    refine ⟨[], rfl, Or.inl rfl, fun a b hab hne => absurd ?_ hne⟩
    exact (List.append_eq_nil_iff.1 hab.symm).2
  | cons c r ih =>
    rw [stripLines_cons h]
    split
    · next hopens =>
      refine ⟨c :: r, rfl, Or.inr hopens, fun a b hab hne => absurd ?_ hne⟩
      exact (List.append_eq_nil_iff.1 hab.symm).2
    · next hopens =>
      obtain ⟨behind, hbehind⟩ := ih fun hmem => h (List.mem_cons_of_mem c hmem)
      refine ⟨behind, by rw [List.cons_append, ← hbehind.split], hbehind.ended, fun a b hab hne => ?_⟩
      cases a with
      | nil =>
        obtain rfl : c :: stripLines r = b := hab
        rwa [List.cons_append, ← hbehind.split]
      | cons d a => exact hbehind.first a b (List.cons.inj hab).2 hne

/-! ### All lines -/

theorem stripLines_append_newline (s t : Text) :
    stripLines (s ++ '\n' :: t) = stripLines s ++ '\n' :: stripLines t := by
  rw [stripLines, stripToLineEnd_append_newline (by decide) (by decide),
    stripToLineEnd_append_newline (by decide) (by decide)]
  rfl

theorem stripLines_joined (lines : List Text) :
    stripLines (joined ['\n'] lines) = joined ['\n'] (lines.map stripLines) := by
  induction lines with
  | nil => rfl
  | cons line lines ih =>
    cases lines with
    | nil => rw [Text.joined_singleton, List.map_singleton, Text.joined_singleton]
    | cons next lines =>
      rw [Text.joined_cons_cons, List.append_assoc, List.singleton_append,
        stripLines_append_newline, ih]
      simp only [List.map_cons, Text.joined_cons_cons, List.append_assoc, List.singleton_append]

theorem not_mem_of_mem_splitOn {mark : Char} {s part : Text} (h : part ∈ s.splitOn mark) :
    mark ∉ part := by
  induction s generalizing part with
  | nil =>
    obtain rfl : part = [] := by simpa using h
    exact List.not_mem_nil
  | cons c r ih =>
    obtain ⟨first, others, hparts⟩ := List.exists_cons_of_ne_nil (List.splitOn_ne_nil mark r)
    rw [hparts] at ih
    rw [List.splitOn_cons_eq_if_modifyHead, hparts] at h
    split at h
    · rcases List.mem_cons.1 h with rfl | h
      · exact List.not_mem_nil
      · exact ih h
    · next hc =>
      rcases List.mem_cons.1 h with rfl | h
      · rw [List.mem_cons, not_or]
        exact ⟨fun hmark => hc (by simp [hmark]), ih List.mem_cons_self⟩
      · exact ih (List.mem_cons_of_mem first h)

/-- **The lines of what is left** are what is left of the lines. -/
theorem splitOn_stripLines (s : Text) :
    (stripLines s).splitOn '\n' = (s.splitOn '\n').map stripLines := by
  have hs : joined ['\n'] (s.splitOn '\n') = s := List.intercalate_splitOn '\n'
  have hlines : ∀ line ∈ (s.splitOn '\n').map stripLines, '\n' ∉ line := by
    intro line hline
    obtain ⟨whole, hwhole, rfl⟩ := List.mem_map.1 hline
    exact fun hmem => not_mem_of_mem_splitOn hwhole ((stripLines_sublist whole).subset hmem)
  have hne : (s.splitOn '\n').map stripLines ≠ [] := by
    rw [Ne, List.map_eq_nil_iff]
    exact List.splitOn_ne_nil '\n' s
  calc (stripLines s).splitOn '\n'
      = (joined ['\n'] ((s.splitOn '\n').map stripLines)).splitOn '\n' := by
        rw [← stripLines_joined, hs]
    _ = (s.splitOn '\n').map stripLines := List.splitOn_intercalate '\n' hlines hne

/-- **Comments, told line by line.**  A script is the texts around its block
    comments, put together.  Each of the lines of these is cut at its first
    mark, and the lines are put together again.  They are the lines of the
    result: none is lost, none is added, and no two become one. -/
theorem stripComments_linewise (s : Text) :
    ∃ fronts last lines, AroundBlocks s fronts last ∧
      List.Forall₂ (fun line front => ∃ behind, IsBeforeMark line front behind)
        ((fronts.flatten ++ last).splitOn '\n') lines ∧
      stripComments s = joined ['\n'] lines ∧
      (stripComments s).splitOn '\n' = lines := by
  obtain ⟨fronts, last, haround⟩ := exists_aroundBlocks s
  have hstrip : stripComments s = stripLines (fronts.flatten ++ last) := by
    rw [stripComments_eq_stripLines, stripBlocks_aroundBlocks haround]
  refine ⟨fronts, last, _, haround, ?_, ?_, rfl⟩
  · rw [hstrip, splitOn_stripLines, List.forall₂_map_right_iff, List.forall₂_same]
    exact fun line hline => exists_isBeforeMark (not_mem_of_mem_splitOn hline)
  · exact (List.intercalate_splitOn '\n').symm

/-! ### A line that is a comment -/

section Marked

variable {mark c : Text} (hmark : mark = ("-- " : Text) ∨ mark = ("# " : Text))
include hmark

theorem stripBlocks_marked (t : Text) : stripBlocks false (mark ++ t) = mark ++ stripBlocks false t := by
  rcases hmark with rfl | rfl <;> simp [stripBlocks]

theorem stripLines_marked (hc : '\n' ∉ c) : stripLines (mark ++ c) = [] := by
  rcases hmark with rfl | rfl
  · have hline : '\n' ∉ '-' :: '-' :: ' ' :: c := by simpa using hc
    exact (stripLines_cons hline).trans (if_pos (Or.inl ⟨' ' :: c, rfl⟩))
  · have hline : '\n' ∉ '#' :: ' ' :: c := by simpa using hc
    exact (stripLines_cons hline).trans (if_pos (Or.inr ⟨' ' :: c, rfl⟩))

/-- A comment hides the same whatever else it says. -/
theorem stripLines_marked_append (hc : '\n' ∉ c) (t : Text) :
    stripLines (mark ++ (c ++ t)) = stripLines (mark ++ t) := by
  by_cases ht : '\n' ∈ t
  · obtain ⟨line, rest, rfl, hline⟩ := List.eq_append_cons_of_mem ht
    have hboth : '\n' ∉ c ++ line := by simp [hc, hline]
    rw [← List.append_assoc c, ← List.append_assoc mark (c ++ line),
      ← List.append_assoc mark line, stripLines_append_newline, stripLines_append_newline,
      stripLines_marked hmark hboth, stripLines_marked hmark hline]
  · have hboth : '\n' ∉ c ++ t := by simp [hc, ht]
    rw [stripLines_marked hmark hboth, stripLines_marked hmark ht]

/-- **A line comment leaves an empty line**, unless a block is opened in it and
    closed behind it. -/
theorem stripComments_marked (hc : '\n' ∉ c) {t : Text}
    (hblock : closesBlocks false c = true ∨ ¬ ("*/" : Text) <:+: t) :
    stripComments (mark ++ (c ++ '\n' :: t)) = '\n' :: stripComments t := by
  have hkept : '\n' ∉ stripBlocks false c := fun hmem => hc ((stripBlocks_sublist c).subset hmem)
  rw [stripComments_eq_stripLines, stripBlocks_marked hmark, stripBlocks_append_line hblock,
    ← List.append_assoc, stripLines_append_newline, stripLines_marked hmark hkept]
  rfl

/-- **A block that is opened in a line comment** takes along what stands in front
    of its closing mark, and the line comment goes on behind it. -/
theorem stripComments_marked_leftOpen (hc : '\n' ∉ c) (hblock : closesBlocks false c = false)
    {x : Text} (hx : ¬ ("*/" : Text) <:+: x) (y : Text) :
    stripComments (mark ++ (c ++ '\n' :: (x ++ '*' :: '/' :: y))) = stripComments (mark ++ y) := by
  obtain ⟨kept, hkept, hopen⟩ := stripBlocks_leftOpen hblock
  have hline : '\n' ∉ kept := fun hmem => hc (hkept.subset hmem)
  rw [stripComments_eq_stripLines, stripBlocks_marked hmark, hopen x y hx,
    stripLines_marked_append hmark hline, ← stripBlocks_marked hmark, stripComments_eq_stripLines]

end Marked

theorem parseSchema_congr {s t : Text} (h : stripComments s = stripComments t) :
    parseSchema s = parseSchema t := by
  rw [parseSchema, parseSchema, scriptStatements, scriptStatements, h]

/-- **A line comment is invisible**, behind a text that leaves no block open, as
    long as no block is opened in it and closed behind it.  Where that is so, the
    block hides what stands in front of its closing mark, and the line comment
    the rest of the line behind it. -/
theorem parseSchema_lineComment {mark s₁ c : Text}
    (hmark : mark = ("-- " : Text) ∨ mark = ("# " : Text)) (h : closesBlocks false s₁ = true)
    (hc : '\n' ∉ c) (s₂ : Text) :
    (closesBlocks false c = true ∨ ¬ ("*/" : Text) <:+: s₂ →
        parseSchema (s₁ ++ '\n' :: (mark ++ (c ++ '\n' :: s₂))) =
          parseSchema (s₁ ++ '\n' :: '\n' :: s₂)) ∧
      (closesBlocks false c = false → ∀ x y, s₂ = x ++ '*' :: '/' :: y → ¬ ("*/" : Text) <:+: x →
        parseSchema (s₁ ++ '\n' :: (mark ++ (c ++ '\n' :: s₂))) =
          parseSchema (s₁ ++ '\n' :: (mark ++ y))) := by
  have hline (t : Text) : stripComments ('\n' :: t) = '\n' :: stripComments t :=
    stripComments_append_newline (s := []) rfl t
  constructor
  · intro hblock
    apply parseSchema_congr
    rw [stripComments_append_newline h, stripComments_append_newline h, hline,
      stripComments_marked hmark hc hblock]
  · rintro hblock x y rfl hx
    apply parseSchema_congr
    rw [stripComments_append_newline h, stripComments_append_newline h,
      stripComments_marked_leftOpen hmark hc hblock hx]

/-- A comment that quotes a statement and both kinds of marks, and one that
    opens a block in front of a table. -/
theorem parseSchema_lineComment_quotes :
    let s₁ : Text := "/* old */ CREATE TABLE a (id INT);"
    let closed : Text := "see /* here */ -- CREATE TABLE x (id INT);"
    let left : Text := "see /* below"
    let s₂ : Text := "CREATE TABLE b (id INT); /* last */ CREATE TABLE c (id INT);\n"
    parseSchema (s₁ ++ '\n' :: ("-- " ++ (closed ++ '\n' :: s₂))) =
        parseSchema (s₁ ++ '\n' :: '\n' :: s₂) ∧
      parseSchema (s₁ ++ '\n' :: ("# " ++ (left ++ '\n' :: s₂))) =
        parseSchema (s₁ ++ '\n' :: ("# " ++ " CREATE TABLE c (id INT);\n")) := by
  intro s₁ closed left s₂
  have hs₁ : closesBlocks false s₁ = true := by decide +kernel
  have hclosed : '\n' ∉ closed := by decide +kernel
  have hleft : '\n' ∉ left := by decide +kernel
  constructor
  · exact (parseSchema_lineComment (Or.inl rfl) hs₁ hclosed s₂).1 (Or.inl (by decide +kernel))
  · exact (parseSchema_lineComment (Or.inr rfl) hs₁ hleft s₂).2 (by decide +kernel)
      "CREATE TABLE b (id INT); /* last " _ (by decide +kernel) (by decide +kernel)

/-- The comment line opens a block that a later comment closes, and the table
    between them is lost. -/
theorem parseSchema_lineComment_hides :
    let c : Text := "see /* below"
    let s₂ : Text := "CREATE TABLE a (id INT); /* first */\nCREATE TABLE b (id INT);"
    closesBlocks false [] = true ∧ '\n' ∉ c ∧
      (parseSchema ('\n' :: ("-- " ++ (c ++ '\n' :: s₂)))).tables.map (·.name) = [("b" : Text)] ∧
      (parseSchema ('\n' :: '\n' :: s₂)).tables.map (·.name) = [("a" : Text), "b"] ∧
      parseSchema ([] ++ '\n' :: ("-- " ++ (c ++ '\n' :: s₂))) ≠
        parseSchema ([] ++ '\n' :: '\n' :: s₂) := by
  decide +kernel

end SchemaDiagram.Ddl
