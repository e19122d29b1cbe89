import SchemaDiagram.Text.Basic

/-! # Delimiting — where a part of a text ends

    Diagrams and lists are written part after part.  The parts are found
    again if each of them ends where something stands that it cannot hold.

      * `run_append_inj`          — a run of characters of one kind
      * `append_firstMark_inj`,
        `append_lastMark_inj`     — what stands before a mark, and behind it
      * `Delimited`               — parts that can be read back one by one
      * `Delimited.flatMap_append_inj`
                                  — and one after the other
      * `joined_cons`             — all but the first part have a separator in
                                    front of them
      * `joined_comma_inj`        — the items of a list -/

namespace SchemaDiagram.Text

/-- **Where a run ends.** What follows starts with a character of another
    kind, or is empty. -/
theorem run_append_inj {p : Char → Bool} {w w' s s' : Text} (hw : ∀ c ∈ w, p c = true)
    (hw' : ∀ c ∈ w', p c = true) (hs : ∀ c ∈ s.head?, p c = false)
    (hs' : ∀ c ∈ s'.head?, p c = false) (h : w ++ s = w' ++ s') : w = w' ∧ s = s' := by
  induction w generalizing w' with
  | nil =>
    cases w' with
    | nil => exact ⟨rfl, h⟩
    | cons d r =>
      -- the second run would go on into `s`
      rw [List.nil_append] at h
      have hd := hs d (by rw [h]; rfl)
      rw [hw' d List.mem_cons_self] at hd
      exact absurd hd (by decide)
  | cons c r ih =>
    cases w' with
    | nil =>
      rw [List.nil_append] at h
      have hc := hs' c (by rw [← h]; rfl)
      rw [hw c List.mem_cons_self] at hc
      exact absurd hc (by decide)
    | cons d r' =>
      obtain ⟨rfl, htail⟩ := List.cons.inj h
      obtain ⟨rfl, hss⟩ :=
        ih (List.forall_mem_cons.1 hw).2 (List.forall_mem_cons.1 hw').2 htail
      exact ⟨rfl, hss⟩

/-! ### Marks -/

section Marks

variable {mark : Char} {w w' s s' : Text}

theorem forall_ne_of_not_mem (h : mark ∉ w) : ∀ c ∈ w, (c != mark) = true := by
  intro c hc
  rw [bne_iff_ne]
  rintro rfl
  exact h hc

/-- The first mark divides a text in one way. -/
theorem append_firstMark_inj (hw : mark ∉ w) (hw' : mark ∉ w')
    (h : w ++ mark :: s = w' ++ mark :: s') : w = w' ∧ s = s' := by
  have hmark : ∀ t : Text, ∀ c ∈ (mark :: t).head?, (c != mark) = false := by simp
  obtain ⟨rfl, hrest⟩ := run_append_inj (forall_ne_of_not_mem hw) (forall_ne_of_not_mem hw')
    (hmark s) (hmark s') h
  exact ⟨rfl, (List.cons.inj hrest).2⟩

/-- So does the last. -/
theorem append_lastMark_inj (hs : mark ∉ s) (hs' : mark ∉ s')
    (h : w ++ mark :: s = w' ++ mark :: s') : w = w' ∧ s = s' := by
  -- read from the end, it is the first
  have hreverse := congrArg List.reverse h
  rw [List.reverse_append, List.reverse_append, List.reverse_cons, List.reverse_cons,
    List.append_assoc, List.append_assoc] at hreverse
  obtain ⟨hs, hw⟩ := append_firstMark_inj (by simpa using hs) (by simpa using hs') hreverse
  exact ⟨List.reverse_inj.1 hw, List.reverse_inj.1 hs⟩

end Marks

/-! ### Parts -/

section Parts

variable {α β : Type}

/-- `f` writes the parts that are `p` in such a way that `g` of them is read
    back, and with it where they end, whenever the text behind them is `q`. -/
structure Delimited (f : α → Text) (g : α → β) (p : α → Prop) (q : Text → Prop) : Prop where
  append_inj : ∀ {x y : α} {s t : Text}, p x → p y → q s → q t → f x ++ s = f y ++ t →
    g x = g y ∧ s = t
  /-- other parts may stand behind a part -/
  follows : ∀ {x : α} (s : Text), p x → q (f x ++ s)

/-- `s` may stand behind parts, and does not start with one. -/
structure EndsParts (f : α → Text) (p : α → Prop) (q : Text → Prop) (s : Text) : Prop where
  follows : q s
  ne_append : ∀ {x : α} (t : Text), p x → f x ++ t ≠ s

variable {f : α → Text} {g : α → β} {p : α → Prop} {q : Text → Prop} {xs ys : List α} {s t : Text}

theorem endsParts_nil (hnil : q []) (hne : ∀ {x : α}, p x → f x ≠ []) : EndsParts f p q [] :=
  ⟨hnil, fun _ hx h => hne hx (List.append_eq_nil_iff.1 h).1⟩

theorem Delimited.follows_flatMap (h : Delimited f g p q) (hxs : ∀ x ∈ xs, p x) (hs : q s) :
    q (xs.flatMap f ++ s) := by
  cases xs with
  | nil => exact hs
  | cons x xs =>
    rw [List.flatMap_cons, List.append_assoc]
    exact h.follows _ (List.forall_mem_cons.1 hxs).1

/-- **Parts one after the other** are read back like each of them, if it can be
    told where the last of them ends. -/
theorem Delimited.map_flatMap_append_inj (h : Delimited f g p q) (hxs : ∀ x ∈ xs, p x)
    (hys : ∀ y ∈ ys, p y) (hs : EndsParts f p q s) (ht : EndsParts f p q t)
    (heq : xs.flatMap f ++ s = ys.flatMap f ++ t) : xs.map g = ys.map g ∧ s = t := by
  induction xs generalizing ys with
  | nil =>
    cases ys with
    | nil => exact ⟨rfl, heq⟩
    | cons y ys =>
      rw [List.flatMap_cons, List.append_assoc] at heq
      exact absurd heq.symm (hs.ne_append _ (List.forall_mem_cons.1 hys).1)
  | cons x xs ih =>
    cases ys with
    | nil =>
      rw [List.flatMap_cons, List.append_assoc] at heq
      exact absurd heq (ht.ne_append _ (List.forall_mem_cons.1 hxs).1)
    | cons y ys =>
      obtain ⟨hx, hxs⟩ := List.forall_mem_cons.1 hxs
      obtain ⟨hy, hys⟩ := List.forall_mem_cons.1 hys
      rw [List.flatMap_cons, List.flatMap_cons, List.append_assoc, List.append_assoc] at heq
      obtain ⟨hfirst, hrest⟩ := h.append_inj hx hy (h.follows_flatMap hxs hs.follows)
        (h.follows_flatMap hys ht.follows) heq
      obtain ⟨hmap, hst⟩ := ih hxs hys hrest
      exact ⟨by rw [List.map_cons, List.map_cons, hfirst, hmap], hst⟩

/-- Parts that are read back completely. -/
theorem Delimited.flatMap_append_inj (h : Delimited f id p q) (hxs : ∀ x ∈ xs, p x)
    (hys : ∀ y ∈ ys, p y) (hs : EndsParts f p q s) (ht : EndsParts f p q t)
    (heq : xs.flatMap f ++ s = ys.flatMap f ++ t) : xs = ys ∧ s = t := by
  have hread := h.map_flatMap_append_inj hxs hys hs ht heq
  rwa [List.map_id, List.map_id] at hread

/-- Parts with nothing behind them. -/
theorem Delimited.flatMap_inj (h : Delimited f id p q) (hxs : ∀ x ∈ xs, p x)
    (hys : ∀ y ∈ ys, p y) (hnil : EndsParts f p q []) (heq : xs.flatMap f = ys.flatMap f) :
    xs = ys :=
  (h.flatMap_append_inj hxs hys hnil hnil (by rw [heq])).1

end Parts

/-! ### Lists -/

/-- All parts but the first have a separator in front of them. -/
theorem joined_cons (separator first : Text) (parts : List Text) :
    joined separator (first :: parts) = first ++ parts.flatMap (separator ++ ·) := by
  induction parts generalizing first with
  | nil => simp
  | cons part parts ih =>
    rw [joined_cons_cons, ih, List.flatMap_cons, List.append_assoc, List.append_assoc]

theorem mem_joined {separator : Text} {parts : List Text} {c : Char}
    (h : c ∈ joined separator parts) : c ∈ separator ∨ ∃ part ∈ parts, c ∈ part := by
  cases parts with
  | nil => cases h
  | cons part parts =>
    rw [joined_cons, List.mem_append, List.mem_flatMap] at h
    rcases h with h | ⟨other, hother, h⟩
    · exact Or.inr ⟨part, List.mem_cons_self, h⟩
    · rcases List.mem_append.1 h with h | h
      · exact Or.inl h
      · exact Or.inr ⟨other, List.mem_cons_of_mem _ hother, h⟩

/-- Items without commas, each behind a separator. -/
theorem delimited_comma : Delimited ((", " : Text) ++ ·) id (',' ∉ ·)
    (fun s => ∀ c ∈ s.head?, (c != ',') = false) where
  append_inj hx hy hs ht h := by
    rw [List.append_assoc, List.append_assoc] at h
    exact run_append_inj (forall_ne_of_not_mem hx) (forall_ne_of_not_mem hy) hs ht
      (List.append_cancel_left h)
  follows s _ := by simp

/-- **The items of a list** that holds neither commas nor empty items. -/
theorem joined_comma_inj {items items' : List Text} (h : ∀ item ∈ items, item ≠ [] ∧ ',' ∉ item)
    (h' : ∀ item ∈ items', item ≠ [] ∧ ',' ∉ item)
    (heq : joined ", " items = joined ", " items') : items = items' := by
  cases items with
  | nil =>
    cases items' with
    | nil => rfl
    | cons item' items' =>
      rw [joined_nil, joined_cons] at heq
      exact absurd (List.append_eq_nil_iff.1 heq.symm).1 (h' item' List.mem_cons_self).1
  | cons item items =>
    cases items' with
    | nil =>
      rw [joined_nil, joined_cons] at heq
      exact absurd (List.append_eq_nil_iff.1 heq).1 (h item List.mem_cons_self).1
    | cons item' items' =>
      -- with a separator in front of the first item, too, each item has one
      refine delimited_comma.flatMap_inj (fun i hi => (h i hi).2) (fun i hi => (h' i hi).2)
        (endsParts_nil (by simp) fun _ => List.cons_ne_nil _ _) ?_
      rw [joined_cons, joined_cons] at heq
      rw [List.flatMap_cons, List.flatMap_cons, List.append_assoc, List.append_assoc, heq]

end SchemaDiagram.Text
