import SchemaDiagram.Text.Basic

/-! # Order — the order of names

    Texts are ordered like the words of a dictionary, character by character,
    and characters by their code points.  That is also the order of their
    UTF-8 bytes.

      * `precedes`                                    — the order
      * `precedes_irrefl`, `precedes_trans`,
        `precedes_of_ne`                              — it is strict and total -/

namespace SchemaDiagram.Text

/-- Whether `s` stands before `t`. -/
def precedes : Text → Text → Bool
  | _, [] => false
  | [], _ :: _ => true
  | a :: s, b :: t => a.toNat < b.toNat || (a == b && precedes s t)

theorem precedes_cons {a b : Char} {s t : Text} :
    precedes (a :: s) (b :: t) = true ↔ a.toNat < b.toNat ∨ a = b ∧ precedes s t = true := by
  simp [precedes]

/-- Nothing stands before itself. -/
theorem precedes_irrefl (s : Text) : precedes s s = false := by
  induction s with
  | nil => rfl
  | cons a s ih => simp [precedes, ih]

/-- What stands before something stands before all that follows it. -/
theorem precedes_trans {s t u : Text} (hst : precedes s t = true) (htu : precedes t u = true) :
    precedes s u = true := by
  induction s generalizing t u with
  | nil =>
    cases u with
    | nil => cases t <;> simp [precedes] at htu
    | cons c u => rfl
  | cons a s ih =>
    cases t with
    | nil => simp [precedes] at hst
    | cons b t =>
      cases u with
      | nil => simp [precedes] at htu
      | cons c u =>
        rw [precedes_cons] at hst htu ⊢
        rcases hst with hab | ⟨rfl, hst⟩
        · rcases htu with hbc | ⟨rfl, _⟩
          · exact Or.inl (Nat.lt_trans hab hbc)
          · exact Or.inl hab
        · rcases htu with hbc | ⟨rfl, htu⟩
          · exact Or.inl hbc
          · exact Or.inr ⟨rfl, ih hst htu⟩

/-- Of two different texts one stands before the other. -/
theorem precedes_of_ne {s t : Text} (hne : s ≠ t) (hst : precedes s t = false) :
    precedes t s = true := by
  induction s generalizing t with
  | nil =>
    cases t with
    | nil => exact absurd rfl hne
    | cons b t => simp [precedes] at hst
  | cons a s ih =>
    cases t with
    | nil => rfl
    | cons b t =>
      rw [precedes_cons]
      have hst' : ¬ (a.toNat < b.toNat ∨ a = b ∧ precedes s t = true) := by
        rw [← precedes_cons, hst]
        exact Bool.false_ne_true
      by_cases hab : a = b
      · subst hab
        -- equal heads: the tails decide
        refine Or.inr ⟨rfl, ih (fun h => hne (h ▸ rfl)) ?_⟩
        exact Bool.eq_false_iff.2 fun h => hst' (Or.inr ⟨rfl, h⟩)
      · have hlt : ¬ a.toNat < b.toNat := fun h => hst' (Or.inl h)
        have hne' : a.toNat ≠ b.toNat := fun h => hab (Char.toNat_inj.1 h)
        exact Or.inl (by omega)

end SchemaDiagram.Text
