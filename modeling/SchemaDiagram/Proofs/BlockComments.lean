import SchemaDiagram.Proofs.Comments

/-! # BlockComments — the texts around the block comments of a script

    The pass over block comments is told here by the text alone.  The first
    opening mark and the first closing mark behind it make a block comment,
    and behind the block the same holds of what is left, until no opening mark
    is left that is closed.

      * `HasBlock`                 — a block comment occurs in a text
      * `AroundBlocks`             — the texts between the block comments
      * `exists_aroundBlocks`      — every text is made of such texts
      * `stripBlocks_aroundBlocks` — which are what the pass leaves
      * `closesBlocks_iff`         — when no block is left open
      * `AroundBlocks.append`      — more text goes on with the last of them
      * `stripBlocks_append`       — what follows on the next line
      * `AroundBlocks.seam`        — a block in what is left was no block before -/

namespace SchemaDiagram.Ddl

/-! ### Marks -/

/-- A mark that occurs in a text has a first occurrence. -/
theorem exists_first {mark s : Text} (hne : mark ≠ []) (h : mark <:+: s) :
    ∃ before behind, s = before ++ (mark ++ behind) ∧ ¬ mark <:+: before := by
  induction s with
  | nil => exact absurd (List.infix_nil.1 h) hne
  | cons c r ih =>
    by_cases hpre : mark <+: c :: r
    · obtain ⟨behind, hbehind⟩ := hpre
      exact ⟨[], behind, hbehind.symm, fun hnil => hne (List.infix_nil.1 hnil)⟩
    · obtain ⟨before, behind, rfl, hbefore⟩ := ih ((List.infix_cons_iff.1 h).resolve_left hpre)
      refine ⟨c :: before, behind, rfl, fun hin => ?_⟩
      rcases List.infix_cons_iff.1 hin with hfirst | hin
      · exact hpre (hfirst.trans (List.prefix_append (c :: before) _))
      · exact hbefore hin

/-- What stands behind some opening mark stands behind the first of them. -/
theorem suffix_of_first {before t u v : Text} (hbefore : ¬ ("/*" : Text) <:+: before)
    (h : before ++ '/' :: '*' :: t = u ++ '/' :: '*' :: v) : v <:+ t := by
  rcases List.append_eq_append_iff.1 h with ⟨a, rfl, ha⟩ | ⟨a, rfl, ha⟩
  · have hlen := congrArg List.length ha
    have hv : v <:+ '/' :: '*' :: t := ⟨a ++ ['/', '*'], by rw [ha]; simp⟩
    have ht : t <:+ '/' :: '*' :: t := ⟨['/', '*'], rfl⟩
    refine List.suffix_of_suffix_length_le hv ht ?_
    simp only [List.length_cons, List.length_append] at hlen
    omega
  · -- the other mark would start in front of the first
    match a, ha with
    | [], ha =>
      obtain ⟨-, htail⟩ := List.cons.inj ha
      exact (List.cons.inj htail).2 ▸ List.suffix_rfl
    | [_], ha => simp at ha
    | _ :: _ :: a, ha =>
      obtain ⟨rfl, htail⟩ := List.cons.inj ha
      obtain ⟨rfl, -⟩ := List.cons.inj htail
      exact absurd (List.infix_append' u ['/', '*'] a) (by simpa using hbefore)

/-! ### Texts around blocks -/

/-- A block comment occurs in `s`: an opening mark, and a closing mark somewhere
    behind it. -/
def HasBlock (s : Text) : Prop :=
  ∃ before behind, s = before ++ '/' :: '*' :: behind ∧ ("*/" : Text) <:+: behind

/-- The text `s` is the texts `fronts`, each with a block comment behind it, and
    then `last`, in which no block comment is closed.  Each block starts at the
    first opening mark and ends at the first closing mark behind that. -/
inductive AroundBlocks : (s : Text) → (fronts : List Text) → (last : Text) → Prop
  | last {s} (h : ¬ HasBlock s) : AroundBlocks s [] s
  | block {before inside rest fronts last} (hbefore : ¬ ("/*" : Text) <:+: before)
      (hinside : ¬ ("*/" : Text) <:+: inside) (hrest : AroundBlocks rest fronts last) :
      AroundBlocks (before ++ '/' :: '*' :: (inside ++ '*' :: '/' :: rest)) (before :: fronts) last

/-- **Every text is made of texts around its blocks.** -/
theorem exists_aroundBlocks (s : Text) : ∃ fronts last, AroundBlocks s fronts last := by
  induction hlen : s.length using Nat.strongRecOn generalizing s with
  | ind len ih =>
    subst hlen
    by_cases hblock : HasBlock s
    · obtain ⟨u, v, hs, hclosed⟩ := hblock
      have hopen : ("/*" : Text) <:+: s := by
        rw [hs]
        exact List.infix_append' u ['/', '*'] v |>.trans (by simp)
      obtain ⟨before, t, rfl, hbefore⟩ := exists_first (by decide) hopen
      have hclosed' : ("*/" : Text) <:+: t := hclosed.trans (suffix_of_first hbefore hs).isInfix
      obtain ⟨inside, rest, rfl, hinside⟩ := exists_first (by decide) hclosed'
      obtain ⟨fronts, last, hrest⟩ := ih rest.length (by simp; omega) rest rfl
      exact ⟨before :: fronts, last, .block hbefore hinside hrest⟩
    · exact ⟨[], s, .last hblock⟩

/-! ### The pass -/

/-- Texts in front of an opening mark are kept. -/
theorem stripBlocks_before {before t : Text} (h : ¬ ("/*" : Text) <:+: before)
    (ht : t.head? ≠ some '*') : stripBlocks false (before ++ t) = before ++ stripBlocks false t := by
  induction before with
  | nil => rfl
  | cons c r ih =>
    have hne := not_mark_of_unmarked h
    rw [List.cons_append, stripBlocks.eq_5 c _ (not_mark_append ht hne), List.cons_append,
      ih fun hr => h (hr.trans (List.suffix_cons c r).isInfix)]

/-- Texts in front of a closing mark go with their block. -/
theorem stripBlocks_inside {inside : Text} (h : ¬ ("*/" : Text) <:+: inside) (rest : Text) :
    stripBlocks true (inside ++ '*' :: '/' :: rest) = stripBlocks false rest := by
  induction inside with
  | nil => rfl
  | cons c r ih =>
    have hne := not_mark_of_unmarked h
    rw [List.cons_append, stripBlocks.eq_3 c _ (not_mark_append (by simp) hne),
      ih fun hr => h (hr.trans (List.suffix_cons c r).isInfix)]

theorem mark_of_hasBlock {s : Text} (h : HasBlock s) : ("*/" : Text) <:+: s := by
  obtain ⟨before, behind, rfl, hclosed⟩ := h
  exact hclosed.trans ⟨before ++ ['/', '*'], [], by simp⟩

/-- A text without block comments stays as it is. -/
theorem stripBlocks_of_not_hasBlock {s : Text} (h : ¬ HasBlock s) : stripBlocks false s = s := by
  by_cases hopen : ("/*" : Text) <:+: s
  · obtain ⟨before, t, rfl, hbefore⟩ := exists_first (by decide) hopen
    have hclosed : ¬ closesBlock t = true := fun hc => h ⟨before, t, rfl, closesBlock_iff.1 hc⟩
    rw [stripBlocks_before hbefore (by simp)]
    show before ++ stripBlocks false ('/' :: '*' :: t) = before ++ '/' :: '*' :: t
    rw [stripBlocks.eq_4, if_neg hclosed]
  · exact stripBlocks_eq_self hopen

/-- **The pass leaves the texts around the blocks.** -/
theorem stripBlocks_aroundBlocks {s last : Text} {fronts : List Text}
    (h : AroundBlocks s fronts last) : stripBlocks false s = fronts.flatten ++ last := by
  induction h with
  | last h => exact stripBlocks_of_not_hasBlock h
  | @block before inside rest fronts last hbefore hinside _ ih =>
    have hclosed : closesBlock (inside ++ '*' :: '/' :: rest) = true :=
      closesBlock_iff.2 ⟨inside, rest, by simp⟩
    rw [stripBlocks_before hbefore (by simp), stripBlocks.eq_4, if_pos hclosed,
      stripBlocks_inside hinside, ih, List.flatten_cons, List.append_assoc]

namespace AroundBlocks

variable {s last : Text} {fronts : List Text} (h : AroundBlocks s fronts last)
include h

theorem not_hasBlock_last : ¬ HasBlock last := by
  induction h with
  | last h => exact h
  | block _ _ _ ih => exact ih

/-- What stands around the blocks stands in the text, in the same order. -/
theorem sublist : (fronts.flatten ++ last).Sublist s := by
  induction h with
  | last => exact List.Sublist.refl _
  | @block before inside rest fronts last _ _ _ ih =>
    rw [List.flatten_cons, List.append_assoc]
    refine (List.Sublist.refl before).append (ih.trans ?_)
    exact (List.suffix_append ('/' :: '*' :: (inside ++ ['*', '/'])) rest).sublist.trans (by simp)

/-- **More text goes on with the last** of the texts around blocks. -/
theorem append {t last' : Text} {fronts' : List Text} (ht : AroundBlocks (last ++ t) fronts' last') :
    AroundBlocks (s ++ t) (fronts ++ fronts') last' := by
  induction h with
  | last => exact ht
  | @block before inside rest fronts last hbefore hinside _ ih =>
    have hstep := AroundBlocks.block hbefore hinside (ih ht)
    simpa using hstep

/-- **A block in what is left was no block before**: its opening mark has come
    together from both sides of blocks. -/
theorem seam {u t : Text} (hopen : fronts.flatten ++ last = u ++ '/' :: '*' :: t)
    (hclosed : ("*/" : Text) <:+: t) :
    ∃ left right, fronts ++ [last] = left ++ right ∧
      left.flatten = u ++ ['/'] ∧ right.flatten = '*' :: t := by
  induction h generalizing u with
  | last h => exact absurd ⟨u, t, hopen, hclosed⟩ h
  | @block before inside rest fronts last hbefore hinside _ ih =>
    rw [List.flatten_cons, List.append_assoc] at hopen
    rcases List.append_eq_append_iff.1 hopen with ⟨a, rfl, ha⟩ | ⟨a, rfl, ha⟩
    · obtain ⟨left, right, hparts, hleft, hright⟩ := ih ha
      exact ⟨before :: left, right, by rw [List.cons_append, hparts, List.cons_append],
        by rw [List.flatten_cons, hleft, List.append_assoc], hright⟩
    · cases a with
      | nil =>
        obtain ⟨left, right, hparts, hleft, hright⟩ := ih (u := []) ha.symm
        exact ⟨(u ++ []) :: left, right, by rw [List.cons_append, hparts, List.cons_append],
          by rw [List.flatten_cons, hleft, List.append_nil, List.nil_append], hright⟩
      | cons c a =>
        obtain ⟨rfl, htail⟩ := List.cons.inj ha
        cases a with
        | nil => exact ⟨[u ++ ['/']], fronts ++ [last], rfl, by simp, by simpa using htail.symm⟩
        | cons d a =>
          -- the mark would stand in one of the texts
          obtain ⟨rfl, -⟩ := List.cons.inj htail
          exact absurd (List.infix_append' u ['/', '*'] a) (by simpa using hbefore)

end AroundBlocks

theorem stripBlocks_sublist (s : Text) : (stripBlocks false s).Sublist s := by
  obtain ⟨fronts, last, h⟩ := exists_aroundBlocks s
  rw [stripBlocks_aroundBlocks h]
  exact h.sublist

/-! ### Blocks left open -/

theorem closesBlocks_before {before t : Text} (h : ¬ ("/*" : Text) <:+: before)
    (ht : t.head? ≠ some '*') : closesBlocks false (before ++ t) = closesBlocks false t := by
  induction before with
  | nil => rfl
  | cons c r ih =>
    have hne := not_mark_of_unmarked h
    rw [List.cons_append, closesBlocks.eq_5 c _ (not_mark_append ht hne),
      ih fun hr => h (hr.trans (List.suffix_cons c r).isInfix)]

theorem closesBlocks_inside {inside : Text} (h : ¬ ("*/" : Text) <:+: inside) (rest : Text) :
    closesBlocks true (inside ++ '*' :: '/' :: rest) = closesBlocks false rest := by
  induction inside with
  | nil => rfl
  | cons c r ih =>
    have hne := not_mark_of_unmarked h
    rw [List.cons_append, closesBlocks.eq_3 c _ (not_mark_append (by simp) hne),
      ih fun hr => h (hr.trans (List.suffix_cons c r).isInfix)]

/-- **No block is left open** just if no opening mark is left behind the last
    block. -/
theorem closesBlocks_iff {s last : Text} {fronts : List Text} (h : AroundBlocks s fronts last) :
    closesBlocks false s = true ↔ ¬ ("/*" : Text) <:+: last := by
  induction h with
  | @last s h =>
    constructor
    · intro hcloses hopen
      obtain ⟨before, t, rfl, hbefore⟩ := exists_first (by decide) hopen
      rw [closesBlocks_before hbefore (by simp)] at hcloses
      exact h ⟨before, t, rfl, closesBlock_iff.1 (closesBlock_of_closesBlocks hcloses)⟩
    · intro hopen
      refine closesBlocks_of_not_mark (fun hf => absurd hf Bool.false_ne_true) ?_
      rwa [stripBlocks_eq_self hopen]
  | @block before inside rest fronts last hbefore hinside _ ih =>
    rw [closesBlocks_before hbefore (by simp), closesBlocks.eq_4, closesBlocks_inside hinside, ih]

/-! ### Text behind a text -/

/-- Text without a closing mark closes nothing in front of it. -/
theorem closesBlock_append_of_not_mark {t : Text} (ht : ¬ ("*/" : Text) <:+: t)
    (hslash : t.head? ≠ some '/') (s : Text) : closesBlock (s ++ t) = closesBlock s := by
  fun_induction closesBlock s with
  | case1 r => rfl
  | case2 c r hne ih =>
    rw [List.cons_append, closesBlock.eq_2 c _ (not_mark_append hslash hne), ih]
  | case3 => rwa [List.nil_append, Bool.eq_false_iff, Ne, closesBlock_iff]

theorem not_hasBlock_append {s t : Text} (hs : ¬ HasBlock s) (ht : ¬ ("*/" : Text) <:+: t)
    (hslash : t.head? ≠ some '/') : ¬ HasBlock (s ++ t) := by
  rintro ⟨u, v, hopen, hclosed⟩
  rcases List.append_eq_append_iff.1 hopen with ⟨a, rfl, rfl⟩ | ⟨a, rfl, ha⟩
  · exact ht (mark_of_hasBlock ⟨a, v, rfl, hclosed⟩)
  · match a, ha with
    | [], ha => exact ht (hclosed.trans ⟨['/', '*'], [], by simpa using ha⟩)
    | [_], ha => exact ht (hclosed.trans ⟨['*'], [], by simpa using (List.cons.inj ha).2⟩)
    | _ :: _ :: a, ha =>
      obtain ⟨rfl, htail⟩ := List.cons.inj ha
      obtain ⟨rfl, rfl⟩ := List.cons.inj htail
      have hclosed' := closesBlock_iff.2 hclosed
      rw [List.append_eq, closesBlock_append_of_not_mark ht hslash] at hclosed'
      exact hs ⟨u, a, rfl, closesBlock_iff.1 hclosed'⟩

theorem not_mark_newline {t : Text} (h : ¬ ("*/" : Text) <:+: t) : ¬ ("*/" : Text) <:+: '\n' :: t := by
  rw [List.infix_cons_iff, not_or]
  exact ⟨by simp, h⟩

/-- **Text without a closing mark is kept**, whatever the text in front of it has
    left open. -/
theorem stripBlocks_append {t : Text} (ht : ¬ ("*/" : Text) <:+: t) (hslash : t.head? ≠ some '/')
    (s : Text) : stripBlocks false (s ++ t) = stripBlocks false s ++ t := by
  obtain ⟨fronts, last, h⟩ := exists_aroundBlocks s
  have hlast := not_hasBlock_append h.not_hasBlock_last ht hslash
  rw [stripBlocks_aroundBlocks (h.append (.last hlast)), stripBlocks_aroundBlocks h,
    List.append_nil, List.append_assoc]

/-- **The next line is a text of its own**, unless it closes a block that was
    left open in front of it. -/
theorem stripBlocks_append_line {s t : Text}
    (h : closesBlocks false s = true ∨ ¬ ("*/" : Text) <:+: t) :
    stripBlocks false (s ++ '\n' :: t) = stripBlocks false s ++ '\n' :: stripBlocks false t := by
  rcases h with hs | ht
  · exact stripBlocks_append_newline hs t
  · have hkeep : stripBlocks false t = t :=
      stripBlocks_of_not_hasBlock fun hblock => ht (mark_of_hasBlock hblock)
    rw [stripBlocks_append (not_mark_newline ht) (by simp), hkeep]

/-- **A block that is left open** reaches to the first closing mark behind it. -/
theorem stripBlocks_leftOpen {s : Text} (h : closesBlocks false s = false) :
    ∃ kept : Text, kept.Sublist s ∧ ∀ x y, ¬ ("*/" : Text) <:+: x →
      stripBlocks false (s ++ '\n' :: (x ++ '*' :: '/' :: y)) = kept ++ stripBlocks false y := by
  obtain ⟨fronts, last, haround⟩ := exists_aroundBlocks s
  have hopen : ("/*" : Text) <:+: last := by
    rw [← Bool.not_eq_true, closesBlocks_iff haround] at h
    exact Decidable.not_not.1 h
  obtain ⟨before, inside, rfl, hbefore⟩ := exists_first (by decide) hopen
  refine ⟨fronts.flatten ++ before, ?_, fun x y hx => ?_⟩
  · refine (List.Sublist.append (List.Sublist.refl _) ?_).trans haround.sublist
    exact (List.prefix_append before _).sublist
  · -- the block goes on over the line end and up to the mark
    have hinside : ¬ ("*/" : Text) <:+: inside ++ '\n' :: x := by
      rw [← closesBlock_iff, closesBlock_append_of_not_mark (not_mark_newline hx) (by simp),
        closesBlock_iff]
      exact fun hclosed => haround.not_hasBlock_last ⟨before, inside, rfl, hclosed⟩
    obtain ⟨fronts', last', hy⟩ := exists_aroundBlocks y
    have hblock := AroundBlocks.block hbefore hinside hy
    rw [List.append_assoc] at hblock
    have hwhole := haround.append (t := '\n' :: (x ++ '*' :: '/' :: y)) (by simpa using hblock)
    rw [stripBlocks_aroundBlocks hwhole, stripBlocks_aroundBlocks hy]
    simp

end SchemaDiagram.Ddl
