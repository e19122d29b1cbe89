import Mathlib.Data.List.Forall2
import Mathlib.Data.List.Nodup

/-! # Matching — lists that agree item by item

    Diagrams show the parts of a schema in order, some of them left out.
    Such a correspondence is a relation between the items of two lists of the
    same length, `List.Forall₂`.

      * `exists_left_of_mem`, `exists_right_of_mem` — the partner of an item
      * `forall₂_imp_of_mem`, `forall₂_comp`,
        `forall₂_flatMap_filter`,
        `forall₂_flatMap`                           — one correspondence from others
      * `forall₂_filter_filterMap`,
        `forall₂_filterMap`                         — an item is kept just when
                                                      it has a partner
      * `forall₂_zip_filter`                        — two correspondences at once
      * `map_eq_map_of_forall₂`,
        `forall₂_iff_map_eq_map`                    — what partners have in common
      * `gather`                                    — one key's part of what many
                                                      keys contribute -/

namespace SchemaDiagram

variable {α β γ : Type} {R : α → β → Prop} {as : List α} {bs : List β} {cs : List γ}

theorem exists_left_of_mem (h : List.Forall₂ R as bs) {b : β} (hb : b ∈ bs) :
    ∃ a ∈ as, R a b := by
  induction h with
  | nil => cases hb
  | @cons a b' as bs hab _ ih =>
    rcases List.mem_cons.1 hb with rfl | hb
    · exact ⟨a, List.mem_cons_self, hab⟩
    · obtain ⟨a', ha', hr⟩ := ih hb
      exact ⟨a', List.mem_cons_of_mem _ ha', hr⟩

theorem exists_right_of_mem (h : List.Forall₂ R as bs) {a : α} (ha : a ∈ as) :
    ∃ b ∈ bs, R a b :=
  exists_left_of_mem (R := fun b a => R a b) h.flip ha

theorem forall₂_append {as' : List α} {bs' : List β} (h : List.Forall₂ R as bs)
    (h' : List.Forall₂ R as' bs') : List.Forall₂ R (as ++ as') (bs ++ bs') := by
  induction h with
  | nil => exact h'
  | cons hab _ ih => exact .cons hab ih

/-- A correspondence may use what is known of the items on the left. -/
theorem forall₂_imp_of_mem {S : α → β → Prop} (h : List.Forall₂ R as bs)
    (himp : ∀ a ∈ as, ∀ b, R a b → S a b) : List.Forall₂ S as bs := by
  induction h with
  | nil => exact .nil
  | cons hab _ ih =>
    obtain ⟨ha, has⟩ := List.forall_mem_cons.1 himp
    exact .cons (ha _ hab) (ih has)

/-- Items correspond through their partners in a third list. -/
theorem forall₂_comp {S : β → γ → Prop} (h : List.Forall₂ R as bs) (hs : List.Forall₂ S bs cs) :
    List.Forall₂ (fun a c => ∃ b, R a b ∧ S b c) as cs := by
  induction h generalizing cs with
  | nil =>
    cases hs
    exact .nil
  | cons hab _ ih =>
    cases hs with
    | cons hbc hs => exact .cons ⟨_, hab, hbc⟩ (ih hs)

/-- Lists that correspond part by part, where some items contribute nothing. -/
theorem forall₂_flatMap_filter {xs : List γ} {p : γ → Bool} {f : γ → List α} {g : γ → List β}
    (h : ∀ x ∈ xs, p x = true → List.Forall₂ R (f x) (g x))
    (hnil : ∀ x ∈ xs, p x = false → f x = []) :
    List.Forall₂ R (xs.flatMap f) ((xs.filter p).flatMap g) := by
  induction xs with
  | nil => exact .nil
  | cons x xs ih =>
    obtain ⟨hx, hxs⟩ := List.forall_mem_cons.1 h
    obtain ⟨hnx, hnxs⟩ := List.forall_mem_cons.1 hnil
    rw [List.flatMap_cons]
    cases hp : p x with
    | false =>
      rw [List.filter_cons_of_neg (by simp [hp]), hnx hp]
      exact ih hxs hnxs
    | true =>
      rw [List.filter_cons_of_pos hp, List.flatMap_cons]
      exact forall₂_append (hx hp) (ih hxs hnxs)

/-- Lists that correspond part by part. -/
theorem forall₂_flatMap {xs : List γ} {f : γ → List α} {g : γ → List β}
    (h : ∀ x ∈ xs, List.Forall₂ R (f x) (g x)) :
    List.Forall₂ R (xs.flatMap f) (xs.flatMap g) := by
  have hall := forall₂_flatMap_filter (p := fun _ => true) (fun x hx _ => h x hx)
    fun _ _ hfalse => absurd hfalse (by decide)
  rwa [List.filter_true] at hall

/-- What is kept corresponds to what is there, when an item is kept just when
    it has a partner. -/
theorem forall₂_filter_filterMap {p : α → Bool} {f : α → Option β}
    (hsome : ∀ a ∈ as, p a = true → ∃ b, f a = some b ∧ R a b)
    (hnone : ∀ a ∈ as, p a = false → f a = none) :
    List.Forall₂ R (as.filter p) (as.filterMap f) := by
  induction as with
  | nil => exact .nil
  | cons a as ih =>
    obtain ⟨ha, has⟩ := List.forall_mem_cons.1 hsome
    obtain ⟨hna, hnas⟩ := List.forall_mem_cons.1 hnone
    cases hp : p a with
    | false =>
      rw [List.filter_cons_of_neg (by simp [hp]), List.filterMap_cons_none (hna hp)]
      exact ih has hnas
    | true =>
      obtain ⟨b, hb, hab⟩ := ha hp
      rw [List.filter_cons_of_pos hp, List.filterMap_cons_some hb]
      exact .cons hab (ih has hnas)

/-- Every item has a partner. -/
theorem forall₂_filterMap {f : α → Option β} (h : ∀ a ∈ as, ∃ b, f a = some b ∧ R a b) :
    List.Forall₂ R as (as.filterMap f) := by
  have hall := forall₂_filter_filterMap (p := fun _ => true) (fun a ha _ => h a ha)
    fun _ _ hfalse => absurd hfalse (by decide)
  rwa [List.filter_true] at hall

/-- Two correspondences of one list, the second only of a part of it. -/
theorem forall₂_zip_filter {S : α → γ → Prop} {p : α → Bool} (h : List.Forall₂ R as bs)
    (hs : List.Forall₂ S (as.filter p) cs) :
    List.Forall₂ (fun ab c => R ab.1 ab.2 ∧ S ab.1 c) ((as.zip bs).filter fun ab => p ab.1) cs := by
  induction h generalizing cs with
  | nil =>
    cases hs
    exact .nil
  | @cons a b as bs hab _ ih =>
    cases hp : p a with
    | false =>
      rw [List.filter_cons_of_neg (by simp [hp])] at hs
      rw [List.zip_cons_cons, List.filter_cons_of_neg (by simp [hp])]
      exact ih hs
    | true =>
      rw [List.filter_cons_of_pos hp] at hs
      rw [List.zip_cons_cons, List.filter_cons_of_pos (by exact hp)]
      cases hs with
      | cons hac hs => exact .cons ⟨hab, hac⟩ (ih hs)

/-- Lists whose items say the same, each as its partner. -/
theorem map_eq_map_of_forall₂ {f : α → γ} {g : β → γ} (h : List.Forall₂ R as bs)
    (hfg : ∀ a ∈ as, ∀ b, R a b → f a = g b) : as.map f = bs.map g := by
  induction h with
  | nil => rfl
  | @cons a b as bs hab _ ih =>
    obtain ⟨ha, has⟩ := List.forall_mem_cons.1 hfg
    rw [List.map_cons, List.map_cons, ha b hab, ih has]

/-- When partners are those that say the same. -/
theorem forall₂_iff_map_eq_map {f : α → γ} {g : β → γ} (h : ∀ a b, R a b ↔ f a = g b) :
    List.Forall₂ R as bs ↔ as.map f = bs.map g := by
  constructor
  · intro hall
    exact map_eq_map_of_forall₂ hall fun a _ b => (h a b).1
  · intro hmap
    have hall : List.Forall₂ Eq (as.map f) (bs.map g) := by rw [hmap, List.forall₂_eq_eq_eq]
    rw [List.forall₂_map_left_iff, List.forall₂_map_right_iff] at hall
    exact hall.imp fun a b => (h a b).2

/-- **One key's part** of what many keys contribute. -/
theorem gather {κ : Type} [DecidableEq κ] {key : α → κ} {f : α → List β}
    (hnodup : (as.map key).Nodup) {a : α} (ha : a ∈ as) :
    as.flatMap (fun x => if key x = key a then f x else []) = f a := by
  induction as with
  | nil => cases ha
  | cons x as ih =>
    obtain ⟨hx, has⟩ := List.nodup_cons.1 hnodup
    rw [List.flatMap_cons]
    rcases List.mem_cons.1 ha with rfl | ha
    · have hrest : as.flatMap (fun x => if key x = key a then f x else []) = [] := by
        refine List.flatMap_eq_nil_iff.2 fun y hy => if_neg fun he => hx ?_
        exact he ▸ List.mem_map_of_mem hy
      rw [if_pos rfl, hrest, List.append_nil]
    · have hne : key x ≠ key a := fun he => hx (he ▸ List.mem_map_of_mem ha)
      rw [if_neg hne, List.nil_append, ih has ha]

theorem map_sublist_flatMap (key : α → β) (rest : α → List β) (xs : List α) :
    (xs.map key).Sublist (xs.flatMap fun x => key x :: rest x) := by
  induction xs with
  | nil => exact .slnil
  | cons x xs ih =>
    exact (ih.trans (List.sublist_append_right (rest x) _)).cons_cons (key x)

end SchemaDiagram
