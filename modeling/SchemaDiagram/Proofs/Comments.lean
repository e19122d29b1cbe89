import SchemaDiagram.Ddl.Comment

/-! # Comments — how the removal of comments treats parts of a script

    A line end separates two parts of a script for the passes over line
    comments.  For the pass over block comments it does so when the first
    part leaves no block open.

      * `closesBlock_iff`                 — what closes a block
      * `closesBlocks`                    — no block of a text is left open
      * `stripBlocks_append_newline`      — block comments, part by part
      * `stripToLineEnd_append_newline`   — line comments, part by part
      * `stripComments_append_newline`    — all comments, part by part
      * `stripBlocks_eq_self`,
        `stripToLineEnd_eq_self`          — a text without marks stays as it is -/

namespace SchemaDiagram.Ddl

/-! ### Block comments -/

/-- A block is closed by an occurrence of its closing mark. -/
theorem closesBlock_iff {s : Text} : closesBlock s = true ↔ ("*/" : Text) <:+: s := by
  fun_induction closesBlock s with
  | case1 r => simp [List.infix_cons_iff]
  | case2 c r hne ih =>
    rw [ih, List.infix_cons_iff]
    refine ⟨Or.inr, fun h => h.resolve_left ?_⟩
    rintro ⟨t, ht⟩
    obtain ⟨rfl, hr⟩ := List.cons.inj ht
    exact hne t rfl hr.symm
  | case3 => simp

/-- A block that is closed stays closed, whatever follows. -/
theorem closesBlock_append {s : Text} (h : closesBlock s = true) (t : Text) :
    closesBlock (s ++ t) = true :=
  closesBlock_iff.2 ((closesBlock_iff.1 h).trans (List.prefix_append s t).isInfix)

/-- A text completes no mark in front of it, unless it starts with the second
    half of one. -/
theorem not_mark_append {a b c : Char} {r t : Text} (ht : t.head? ≠ some b)
    (h : ∀ r', c = a → r = b :: r' → False) : ∀ r', c = a → r ++ t = b :: r' → False := by
  intro r' hc hr
  cases r with
  | nil =>
    rw [List.nil_append] at hr
    exact ht (by rw [hr]; rfl)
  | cons d r'' =>
    obtain ⟨rfl, _⟩ := List.cons.inj hr
    exact h r'' hc rfl

/-- A text without a mark does not start with one. -/
theorem not_mark_of_unmarked {a b c : Char} {r : Text} (h : ¬ [a, b] <:+: c :: r) :
    ∀ r', c = a → r = b :: r' → False := by
  rintro r' rfl rfl
  exact h (List.prefix_append [c, b] r').isInfix

/-- Whether every block that the text opens is closed in it.  `inside` says
    that the text before this point has opened a block. -/
def closesBlocks (inside : Bool) : Text → Bool
  | [] => !inside
  | c :: r =>
    match inside, c, r with
    | true, '*', '/' :: r' => closesBlocks false r'
    | true, _, r => closesBlocks true r
    | false, '/', '*' :: r' => closesBlocks true r'
    | false, _, r => closesBlocks false r

theorem closesBlock_of_closesBlocks {s : Text} (h : closesBlocks true s = true) :
    closesBlock s = true := by
  fun_induction closesBlock s with
  | case1 r => rfl
  | case2 c r hne ih =>
    rw [closesBlocks.eq_3 c r hne] at h
    exact ih h
  | case3 => cases h

/-- A pass that leaves no opening mark has found every block closed. -/
theorem closesBlocks_of_not_mark {inside : Bool} {s : Text}
    (hinside : inside = true → closesBlock s = true)
    (h : ¬ ("/*" : Text) <:+: stripBlocks inside s) : closesBlocks inside s = true := by
  fun_induction stripBlocks inside s with
  | case1 inside => cases inside with
    | true => cases hinside rfl
    | false => rfl
  | case2 r' ih => exact ih (fun hf => absurd hf Bool.false_ne_true) h
  | case3 c r hne ih =>
    rw [closesBlocks.eq_3 c r hne]
    refine ih (fun _ => ?_) h
    have hcr := hinside rfl
    rwa [closesBlock.eq_2 c r hne] at hcr
  | case4 r' hc ih => exact ih (fun _ => hc) h
  | case5 r' hc =>
    -- an open block would have left its mark
    exact absurd (List.prefix_append _ _).isInfix h
  | case6 c r hne ih =>
    rw [closesBlocks.eq_5 c r hne]
    exact ih (fun hf => absurd hf Bool.false_ne_true) fun hr =>
      h (hr.trans (List.suffix_cons c _).isInfix)

/-- **Block comments, part by part.** If no block of the first part is left
    open, the pass treats what follows on the next line as a text of its
    own. -/
theorem stripBlocks_append_newline {inside : Bool} {s : Text}
    (h : closesBlocks inside s = true) (t : Text) :
    stripBlocks inside (s ++ '\n' :: t) = stripBlocks inside s ++ '\n' :: stripBlocks false t := by
  fun_induction stripBlocks inside s with
  | case1 inside =>
    cases inside with
    | true => cases h
    | false => simp [stripBlocks]
  | case2 r' ih => exact ih h
  | case3 c r hne ih =>
    rw [closesBlocks.eq_3 c r hne] at h
    rw [List.cons_append, stripBlocks.eq_3 c _ (not_mark_append (by simp) hne)]
    exact ih h
  | case4 r' hc ih =>
    show stripBlocks false ('/' :: '*' :: (r' ++ '\n' :: t)) = _
    rw [stripBlocks.eq_4, if_pos (closesBlock_append hc _)]
    exact ih h
  | case5 r' hc => exact absurd (closesBlock_of_closesBlocks h) hc
  | case6 c r hne ih =>
    rw [closesBlocks.eq_5 c r hne] at h
    rw [List.cons_append, stripBlocks.eq_5 c _ (not_mark_append (by simp) hne), List.cons_append,
      ih h]

/-- A text without opening marks has no blocks. -/
theorem stripBlocks_eq_self {s : Text} (h : ¬ ("/*" : Text) <:+: s) : stripBlocks false s = s := by
  induction s with
  | nil => rfl
  | cons c r ih =>
    rw [stripBlocks.eq_5 c r (not_mark_of_unmarked h),
      ih fun hr => h (hr.trans (List.suffix_cons c r).isInfix)]

/-! ### Line comments -/

/-- A marker does not go on into a text that starts with none of its
    characters. -/
theorem isPrefixOf_append {marker t : Text} (ht : ∀ c ∈ t.head?, c ∉ marker) (s : Text) :
    marker.isPrefixOf (s ++ t) = marker.isPrefixOf s := by
  induction marker generalizing s with
  | nil => simp
  | cons m ms ih =>
    have hms : ∀ c ∈ t.head?, c ∉ ms := fun c hc hmem => ht c hc (List.mem_cons_of_mem m hmem)
    cases s with
    | nil =>
      cases t with
      | nil => rfl
      | cons c t =>
        have hm : (m == c) = false :=
          beq_false_of_ne fun h => ht c rfl (h ▸ List.mem_cons_self)
        simp [List.isPrefixOf, hm]
    | cons c r =>
      rw [List.cons_append, List.isPrefixOf_cons_cons, List.isPrefixOf_cons_cons, ih hms]

/-- **Line comments, part by part.** The next line is a text of its own. -/
theorem stripToLineEnd_append_newline {marker : Text} (hm : '\n' ∉ marker) (hne : marker ≠ [])
    (inside : Bool) (s t : Text) :
    stripToLineEnd marker inside (s ++ '\n' :: t) =
      stripToLineEnd marker inside s ++ '\n' :: stripToLineEnd marker false t := by
  have hline : ∀ c ∈ ('\n' :: t).head?, c ∉ marker := by simpa using hm
  induction s generalizing inside with
  | nil =>
    cases inside with
    | true => simp [stripToLineEnd]
    | false =>
      have hpre : marker.isPrefixOf ('\n' :: t) = false := by
        have h := isPrefixOf_append hline []
        rw [List.nil_append] at h
        rw [h]
        cases marker with
        | nil => exact absurd rfl hne
        | cons m ms => rfl
      simp [stripToLineEnd, hpre]
  | cons c r ih =>
    cases inside with
    | true =>
      rw [List.cons_append]
      simp only [stripToLineEnd]
      split
      · rw [ih, List.cons_append]
      · rw [ih]
    | false =>
      have hpre := isPrefixOf_append hline (c :: r)
      rw [List.cons_append] at hpre ⊢
      simp only [stripToLineEnd, hpre]
      split
      · rw [ih]
      · rw [ih, List.cons_append]

/-- A text without the marker has no comments. -/
theorem stripToLineEnd_eq_self {marker s : Text} (h : ¬ marker <:+: s) :
    stripToLineEnd marker false s = s := by
  induction s with
  | nil => rfl
  | cons c r ih =>
    have hpre : ¬ marker.isPrefixOf (c :: r) = true := fun hp =>
      h (List.isPrefixOf_iff_prefix.1 hp).isInfix
    rw [stripToLineEnd, if_neg hpre, ih fun hr => h (hr.trans (List.suffix_cons c r).isInfix)]

/-- What is kept of a text stands in it, in the same order. -/
theorem stripToLineEnd_sublist {marker : Text} (inside : Bool) (s : Text) :
    (stripToLineEnd marker inside s).Sublist s := by
  induction s generalizing inside with
  | nil => cases inside <;> exact .slnil
  | cons c r ih =>
    cases inside with
    | true =>
      rw [stripToLineEnd]
      split
      · exact (ih false).cons_cons c
      · exact (ih true).cons c
    | false =>
      rw [stripToLineEnd]
      split
      · exact (ih true).cons c
      · exact (ih false).cons_cons c

/-! ### The three passes -/

/-- **Comments, part by part.** A script whose first part leaves no block
    comment open loses its comments line by line. -/
theorem stripComments_append_newline {s : Text} (h : closesBlocks false s = true) (t : Text) :
    stripComments (s ++ '\n' :: t) = stripComments s ++ '\n' :: stripComments t := by
  rw [stripComments, stripBlocks_append_newline h,
    stripToLineEnd_append_newline (by decide) (by decide),
    stripToLineEnd_append_newline (by decide) (by decide)]
  rfl

/-- A script without marks has no comments. -/
theorem stripComments_eq_self {s : Text} (hblock : ¬ ("/*" : Text) <:+: s)
    (hdash : ¬ ("--" : Text) <:+: s) (hhash : ¬ ("#" : Text) <:+: s) : stripComments s = s := by
  rw [stripComments, stripBlocks_eq_self hblock, stripToLineEnd_eq_self hdash,
    stripToLineEnd_eq_self hhash]

end SchemaDiagram.Ddl
