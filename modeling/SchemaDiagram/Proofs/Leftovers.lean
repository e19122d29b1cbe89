import SchemaDiagram.Proofs.LineComments

/-! # Leftovers — what looks like a comment in a script without comments

    No line comment is left when the comments of a script are gone, for each
    line ends in front of its first mark.  A block comment can be left: where
    blocks are taken out, a slash in front of them and an asterisk behind them
    come together, and the pass does not look at them again.  The passes over
    line comments bring no characters of a line together, so nothing else
    makes a block.

      * `not_infix_stripComments`    — no mark of a line comment is left
      * `mark_of_stripToLineEnd`     — a mark that is left was there before
      * `hasBlock_of_stripLines`     — and so was a block
      * `exists_seam`                — where a block that is left comes from
      * `stripComments_eq_self_iff`  — when a second run changes nothing
      * `stripComments_leftovers`    — all of this together -/

namespace SchemaDiagram.Ddl

open Text (joined)

/-! ### Marks of line comments -/

/-- A text of one line that occurs in two lines occurs in one of them. -/
theorem infix_of_infix_append_newline {p s t : Text} (hp : '\n' ∉ p) (hne : p ≠ [])
    (h : p <:+: s ++ '\n' :: t) : p <:+: s ∨ p <:+: t := by
  rcases List.infix_append_iff_ne_nil.1 h with h | h | ⟨l₁, l₂, -, hne₂, rfl, -, hright⟩
  · exact Or.inl h
  · refine Or.inr ((List.infix_cons_iff.1 h).resolve_left ?_)
    rintro ⟨u, hu⟩
    obtain ⟨c, r, rfl⟩ := List.exists_cons_of_ne_nil hne
    obtain ⟨rfl, -⟩ := List.cons.inj hu
    exact hp List.mem_cons_self
  · -- what reaches into the second line holds the line end
    obtain ⟨u, hu⟩ := hright
    obtain ⟨c, r, rfl⟩ := List.exists_cons_of_ne_nil hne₂
    obtain ⟨rfl, -⟩ := List.cons.inj hu
    exact absurd (List.mem_append_right l₁ List.mem_cons_self) hp

theorem exists_line_of_infix {p : Text} (hp : '\n' ∉ p) (hne : p ≠ []) {lines : List Text}
    (h : p <:+: joined ['\n'] lines) : ∃ line ∈ lines, p <:+: line := by
  induction lines with
  | nil => exact absurd (List.infix_nil.1 h) hne
  | cons line lines ih =>
    cases lines with
    | nil => exact ⟨line, List.mem_cons_self, by rwa [Text.joined_singleton] at h⟩
    | cons next lines =>
      rw [Text.joined_cons_cons, List.append_assoc, List.singleton_append] at h
      rcases infix_of_infix_append_newline hp hne h with h | h
      · exact ⟨line, List.mem_cons_self, h⟩
      · obtain ⟨other, hmem, hother⟩ := ih h
        exact ⟨other, List.mem_cons_of_mem line hmem, hother⟩

/-- No mark stands in front of the first mark. -/
theorem IsBeforeMark.front_unmarked {line front behind mark : Text}
    (h : IsBeforeMark line front behind) (hmark : ∀ t, OpensLineComment (mark ++ t))
    (hne : mark ≠ []) : ¬ mark <:+: front := by
  rintro ⟨a, b, rfl⟩
  refine h.first a (mark ++ b) (List.append_assoc a mark b) (by simp [hne]) ?_
  rw [List.append_assoc]
  exact hmark (b ++ behind)

/-- **No mark of a line comment is left.** -/
theorem not_infix_stripComments {mark : Text} (hmark : mark = ("--" : Text) ∨ mark = ("#" : Text))
    (s : Text) : ¬ mark <:+: stripComments s := by
  have hline : '\n' ∉ mark := by rcases hmark with rfl | rfl <;> decide
  have hne : mark ≠ [] := by rcases hmark with rfl | rfl <;> decide
  have hopens : ∀ t, OpensLineComment (mark ++ t) := by
    intro t
    rcases hmark with rfl | rfl
    · exact Or.inl (List.prefix_append _ t)
    · exact Or.inr (List.prefix_append _ t)
  intro h
  have hlines : joined ['\n'] ((stripComments s).splitOn '\n') = stripComments s :=
    List.intercalate_splitOn '\n'
  rw [← hlines] at h
  obtain ⟨front, hfront, hin⟩ := exists_line_of_infix hline hne h
  rw [stripComments_eq_stripLines, splitOn_stripLines] at hfront
  obtain ⟨line, hmem, rfl⟩ := List.mem_map.1 hfront
  obtain ⟨behind, hbefore⟩ := exists_isBeforeMark (not_mem_of_mem_splitOn hmem)
  exact hbefore.front_unmarked hopens hne hin

/-! ### Blocks -/

/-- A comment goes on up to a line end. -/
theorem head?_stripToLineEnd_inside (marker s : Text) :
    ∀ c ∈ (stripToLineEnd marker true s).head?, c = '\n' := by
  induction s with
  | nil => simp [stripToLineEnd]
  | cons d r ih =>
    rw [stripToLineEnd]
    split
    · next hd => simpa using hd
    · exact ih

/-- A first character that is left, and is no line end, was the first before. -/
theorem cons_of_stripToLineEnd {marker : Text} {b : Char} (hb : b ≠ '\n') {t w : Text}
    (h : stripToLineEnd marker false t = b :: w) :
    ∃ w', t = b :: w' ∧ stripToLineEnd marker false w' = w := by
  cases t with
  | nil => simp [stripToLineEnd] at h
  | cons d r =>
    rw [stripToLineEnd] at h
    split at h
    · exact absurd (head?_stripToLineEnd_inside marker r b (by rw [h]; rfl)) hb
    · obtain ⟨rfl, hw⟩ := List.cons.inj h
      exact ⟨r, rfl, hw⟩

/-- **A mark that is left was there before**, and what is left behind it is what
    is left of the text behind it. -/
theorem mark_of_stripToLineEnd {marker : Text} {a b : Char} (ha : a ≠ '\n') (hb : b ≠ '\n')
    {inside : Bool} {t u w : Text} (h : stripToLineEnd marker inside t = u ++ a :: b :: w) :
    ∃ u' w', t = u' ++ a :: b :: w' ∧ stripToLineEnd marker false w' = w := by
  induction t generalizing inside u with
  | nil => cases inside <;> simp [stripToLineEnd] at h
  | cons c r ih =>
    -- where the mark does not start with the first character, it lies in the rest
    have hrest {inside : Bool} {u : Text} (h : stripToLineEnd marker inside r = u ++ a :: b :: w) :
        ∃ u' w', c :: r = u' ++ a :: b :: w' ∧ stripToLineEnd marker false w' = w := by
      obtain ⟨u', w', rfl, hw⟩ := ih h
      exact ⟨c :: u', w', rfl, hw⟩
    cases inside with
    | true =>
      rw [stripToLineEnd] at h
      split at h
      · next hc =>
        cases u with
        | nil => exact absurd (hc.symm.trans (List.cons.inj h).1) ha.symm
        | cons d u => exact hrest (List.cons.inj h).2
      · exact hrest h
    | false =>
      rw [stripToLineEnd] at h
      split at h
      · exact hrest h
      · cases u with
        | nil =>
          obtain ⟨rfl, hr⟩ := List.cons.inj h
          obtain ⟨w', rfl, hw⟩ := cons_of_stripToLineEnd hb hr
          exact ⟨[], w', rfl, hw⟩
        | cons d u => exact hrest (List.cons.inj h).2

theorem hasBlock_of_stripToLineEnd {marker t : Text}
    (h : HasBlock (stripToLineEnd marker false t)) : HasBlock t := by
  obtain ⟨u, v, hopen, p, q, hclose⟩ := h
  obtain ⟨u', v', rfl, hv⟩ := mark_of_stripToLineEnd (by decide) (by decide) hopen
  have hmark : v = p ++ '*' :: '/' :: q := by simpa using hclose.symm
  rw [hmark] at hv
  obtain ⟨p', q', rfl, -⟩ := mark_of_stripToLineEnd (by decide) (by decide) hv
  exact ⟨u', p' ++ '*' :: '/' :: q', rfl, p', q', by simp⟩

/-- **The passes over line comments make no block.** -/
theorem hasBlock_of_stripLines {t : Text} (h : HasBlock (stripLines t)) : HasBlock t :=
  hasBlock_of_stripToLineEnd (hasBlock_of_stripToLineEnd h)

/-- **A block that is left comes from a seam**: blocks have been taken out
    between its slash and its asterisk. -/
theorem exists_seam {s last : Text} {fronts : List Text} (h : AroundBlocks s fronts last)
    (hblock : HasBlock (stripComments s)) :
    ∃ left right, fronts ++ [last] = left ++ right ∧
      left.flatten.getLast? = some '/' ∧ right.flatten.head? = some '*' := by
  rw [stripComments_eq_stripLines, stripBlocks_aroundBlocks h] at hblock
  obtain ⟨u, t, hopen, hclosed⟩ := hasBlock_of_stripLines hblock
  obtain ⟨left, right, hparts, hleft, hright⟩ := h.seam hopen hclosed
  exact ⟨left, right, hparts, by rw [hleft, List.getLast?_concat], by rw [hright]; rfl⟩

/-! ### A second run -/

/-- A block that is taken out makes a text shorter. -/
theorem length_stripBlocks_lt {s : Text} (h : HasBlock s) : (stripBlocks false s).length < s.length := by
  obtain ⟨fronts, last, haround⟩ := exists_aroundBlocks s
  rw [stripBlocks_aroundBlocks haround]
  cases haround with
  | last hnot => exact absurd h hnot
  | block _ _ hrest =>
    have hlen := hrest.sublist.length_le
    simp only [List.flatten_cons, List.append_assoc, List.length_append, List.length_cons] at hlen ⊢
    omega

/-- **A second run changes nothing** just if no block is left. -/
theorem stripComments_eq_self_iff (s : Text) :
    stripComments (stripComments s) = stripComments s ↔ ¬ HasBlock (stripComments s) := by
  constructor
  · intro h hblock
    have hshorter := length_stripBlocks_lt hblock
    have hlen := (stripLines_sublist (stripBlocks false (stripComments s))).length_le
    rw [← stripComments_eq_stripLines, h] at hlen
    omega
  · intro hblock
    rw [stripComments_eq_stripLines (stripComments s), stripBlocks_of_not_hasBlock hblock, stripLines,
      stripToLineEnd_eq_self (not_infix_stripComments (Or.inl rfl) s),
      stripToLineEnd_eq_self (not_infix_stripComments (Or.inr rfl) s)]

/-- **What is left of comments.**  No mark of a line comment is left.  A block
    comment is left only where a slash and an asterisk have come together from
    both sides of the blocks that were taken out.  A second run takes out
    something just if a block is left. -/
theorem stripComments_leftovers (s : Text) :
    ¬ ("--" : Text) <:+: stripComments s ∧ ¬ ("#" : Text) <:+: stripComments s ∧
      (∃ fronts last, AroundBlocks s fronts last ∧
        (HasBlock (stripComments s) → ∃ left right, fronts ++ [last] = left ++ right ∧
          left.flatten.getLast? = some '/' ∧ right.flatten.head? = some '*')) ∧
      (stripComments (stripComments s) = stripComments s ↔ ¬ HasBlock (stripComments s)) := by
  obtain ⟨fronts, last, haround⟩ := exists_aroundBlocks s
  exact ⟨not_infix_stripComments (Or.inl rfl) s, not_infix_stripComments (Or.inr rfl) s,
    ⟨fronts, last, haround, exists_seam haround⟩, stripComments_eq_self_iff s⟩

/-- An empty block between a slash and an asterisk leaves a block behind, and a
    second run takes it out. -/
theorem stripComments_leaves_block :
    let s : Text := "//**/* x */"
    stripComments s = ("/* x */" : Text) ∧ HasBlock (stripComments s) ∧
      stripComments (stripComments s) ≠ stripComments s := by
  intro s
  have hs : stripComments s = ("/* x */" : Text) := by decide +kernel
  rw [hs]
  exact ⟨rfl, ⟨[], " x */", rfl, by decide⟩, by decide +kernel⟩

end SchemaDiagram.Ddl
