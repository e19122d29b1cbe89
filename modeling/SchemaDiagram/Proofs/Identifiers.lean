import Mathlib.Data.List.Forall2
import SchemaDiagram.Diagram.Identifier

/-! # Identifiers — what a computation hands out

    A registry keeps identifiers apart.  That they are identifiers at all
    comes from what they are made of, and which of them end up in a diagram
    from the computation that asks for them.

      * `isIdentifier`           — the shape of an identifier
      * `isIdentifier_sanitize`, `isIdentifier_fresh`
                                 — what gives an identifier
      * `exists_fresh_eq_candidate`
                                 — which candidate is handed out
      * `Issued`                 — a list that is a part of what was handed out
      * `Naming.Yields`          — what a computation returns, together with
                                   what it hands out meanwhile
      * `Naming.Yields.mapM`     — the same for a computation on each item
      * `yields_claimNodeId`, `yields_claimEntityName`
                                 — the two kinds of identifier

    `Naming.Yields` speaks of the part of the registry that a computation
    adds, so that specifications of parts combine to that of the whole. -/

namespace SchemaDiagram

/-! ### The shape of an identifier -/

/-- Whether a text is an ASCII letter or underscore followed by ASCII
    letters, digits and underscores. -/
def isIdentifier : Text → Bool
  | [] => false
  | c :: r => (c.isAlpha || c == '_') && r.all isIdentifierChar

theorem isIdentifierChar_of_mem {s : Text} (h : isIdentifier s = true) :
    ∀ c ∈ s, isIdentifierChar c = true := by
  cases s with
  | nil => exact absurd h (by decide)
  | cons c r =>
    simp only [isIdentifier, Bool.and_eq_true] at h
    refine List.forall_mem_cons.2 ⟨?_, List.all_eq_true.1 h.2⟩
    have hc := h.1
    simp only [Bool.or_eq_true] at hc
    rcases hc with hc | hc <;> simp [isIdentifierChar, Char.isAlphanum, hc]

/-- What follows an identifier without a break belongs to one. -/
theorem isIdentifier_append {s t : Text} (hs : isIdentifier s = true)
    (ht : ∀ c ∈ t, isIdentifierChar c = true) : isIdentifier (s ++ t) = true := by
  cases s with
  | nil => exact absurd hs (by decide)
  | cons c r =>
    simp only [isIdentifier, Bool.and_eq_true, List.cons_append, List.all_append] at hs ⊢
    exact ⟨hs.1, hs.2, List.all_eq_true.2 ht⟩

theorem isIdentifier_append_underscore {s : Text} (h : isIdentifier s = true) :
    isIdentifier (s ++ "_") = true := by
  have hmark : isIdentifier "_" = true := by decide
  exact isIdentifier_append h (isIdentifierChar_of_mem hmark)

theorem isIdentifierChar_of_mem_sanitize {fallback : Text}
    (h : ∀ c ∈ fallback, isIdentifierChar c = true) (raw : Text) :
    ∀ c ∈ sanitize fallback raw, isIdentifierChar c = true := by
  have hmap : ∀ c ∈ raw.map fun c => if isIdentifierChar c then c else '_',
      isIdentifierChar c = true := by
    intro c hc
    obtain ⟨d, _, rfl⟩ := List.mem_map.1 hc
    by_cases hd : isIdentifierChar d = true
    · rw [if_pos hd]
      exact hd
    · rw [if_neg hd]
      decide
  intro c hc
  unfold sanitize at hc
  split at hc
  · exact h c hc
  · next d r hdr =>
    rw [hdr] at hmap
    split at hc
    · -- a leading digit: the fallback stands in front
      simp only [List.append_assoc, List.mem_append] at hc
      rcases hc with hc | hc | hc
      · exact h c hc
      · exact List.mem_singleton.1 hc ▸ by decide
      · exact hmap c hc
    · exact hmap c hc

/-- **Reducing a name to an identifier** gives one, if its fallback is. -/
theorem isIdentifier_sanitize {fallback : Text} (h : isIdentifier fallback = true) (raw : Text) :
    isIdentifier (sanitize fallback raw) = true := by
  have hchars := isIdentifierChar_of_mem_sanitize (isIdentifierChar_of_mem h) raw
  unfold sanitize at hchars ⊢
  split
  · exact h
  · next c r hcr =>
    rw [hcr] at hchars
    by_cases hc : c.isDigit = true
    · simp only [if_pos hc] at hchars ⊢
      rw [List.append_assoc] at hchars ⊢
      exact isIdentifier_append h (List.forall_mem_append.1 hchars).2
    · simp only [if_neg hc] at hchars ⊢
      obtain ⟨hfirst, hrest⟩ := List.forall_mem_cons.1 hchars
      rw [Bool.not_eq_true] at hc
      simp only [isIdentifierChar, Char.isAlphanum, hc, Bool.or_false] at hfirst
      rw [isIdentifier, hfirst, Bool.true_and]
      exact List.all_eq_true.2 hrest

/-- **What a node is called by** is an identifier, if its kind is. -/
theorem isIdentifier_nodeBase {kind : Text} (h : isIdentifier kind = true) (raw : Text) :
    isIdentifier (kind ++ "_" ++ sanitize "N" raw) = true := by
  have hname : isIdentifier (sanitize "N" raw) = true := isIdentifier_sanitize (by decide) raw
  exact isIdentifier_append (isIdentifier_append_underscore h) (isIdentifierChar_of_mem hname)

theorem isIdentifierChar_of_mem_decimal (n : Nat) :
    ∀ c ∈ Text.decimal n, isIdentifierChar c = true := by
  intro c hc
  have hdigit := Nat.isDigit_of_mem_toDigits (by decide) (by decide) hc
  simp [isIdentifierChar, Char.isAlphanum, hdigit]

/-- **What is handed out for `base`** is the first of its candidates that is
    free, and it stands among the first `issued.length + 1` of them. -/
theorem exists_fresh_eq_candidate (issued : List Text) (base : Text) :
    ∃ i ≤ issued.length, fresh issued base = candidate base i ∧
      ∀ j < i, candidate base j ∈ issued := by
  unfold fresh
  rw [List.find?_map]
  cases h : (List.range (issued.length + 1)).find? ((· ∉ issued) ∘ candidate base) with
  | none =>
    obtain ⟨i, hi, hfree⟩ := exists_candidate_not_mem issued base
    have htaken := List.find?_eq_none.1 h i hi
    exact absurd (decide_eq_true hfree) htaken
  | some i =>
    obtain ⟨-, hi, hleast⟩ := List.find?_range_eq_some.1 h
    refine ⟨i, Nat.lt_succ_iff.1 (List.mem_range.1 hi), rfl, ?_⟩
    intro j hj
    simpa using hleast j hj

theorem isIdentifier_candidate {base : Text} (h : isIdentifier base = true) (i : Nat) :
    isIdentifier (candidate base i) = true := by
  cases i with
  | zero => exact h
  | succ i =>
    exact isIdentifier_append (isIdentifier_append_underscore h)
      (isIdentifierChar_of_mem_decimal (i + 2))

/-- **Numbering an identifier gives one.** -/
theorem isIdentifier_fresh {base : Text} (h : isIdentifier base = true) (issued : List Text) :
    isIdentifier (fresh issued base) = true := by
  obtain ⟨i, -, hi, -⟩ := exists_fresh_eq_candidate issued base
  exact hi ▸ isIdentifier_candidate h i

/-! ### Lists of identifiers -/

/-- All that was handed out are identifiers, and `ids` are some of them, in
    order. -/
structure Issued (ids handedOut : List Text) : Prop where
  sublist : ids.Sublist handedOut
  isIdentifier : ∀ id ∈ handedOut, isIdentifier id = true

namespace Issued

theorem nil : Issued [] [] := ⟨.slnil, by simp⟩

theorem singleton {id : Text} (h : SchemaDiagram.isIdentifier id = true) : Issued [id] [id] :=
  ⟨.refl _, by simpa using h⟩

theorem append {ids₁ ids₂ handedOut₁ handedOut₂ : List Text} (h₁ : Issued ids₁ handedOut₁)
    (h₂ : Issued ids₂ handedOut₂) : Issued (ids₁ ++ ids₂) (handedOut₁ ++ handedOut₂) where
  sublist := h₁.sublist.append h₂.sublist
  isIdentifier := List.forall_mem_append.2 ⟨h₁.isIdentifier, h₂.isIdentifier⟩

/-- What was handed out need not be used. -/
theorem unused {ids handedOut : List Text} (h : Issued ids handedOut) : Issued [] handedOut :=
  ⟨List.nil_sublist _, h.isIdentifier⟩

end Issued

/-! ### Computations that ask for identifiers -/

/-- Whatever has been handed out before, `P` relates the result of `x` to the
    list of identifiers that it adds to the registry. -/
def Naming.Yields {α : Type} (x : Naming α) (P : α → List Text → Prop) : Prop :=
  ∀ r : Registry, ∃ handedOut, (x.run r).2.issued = r.issued ++ handedOut ∧ P (x.run r).1 handedOut

namespace Naming.Yields

variable {α β : Type} {P Q : α → List Text → Prop}

protected theorem pure {a : α} (h : P a []) : Yields (pure a) P := fun r =>
  ⟨[], (List.append_nil r.issued).symm, h⟩

theorem mono {x : Naming α} (hx : Yields x P) (h : ∀ a handedOut, P a handedOut → Q a handedOut) :
    Yields x Q := by
  intro r
  obtain ⟨handedOut, hissued, hP⟩ := hx r
  exact ⟨handedOut, hissued, h _ _ hP⟩

protected theorem bind {x : Naming α} {f : α → Naming β} {Q : β → List Text → Prop}
    (hx : Yields x P)
    (hf : ∀ a first, P a first → Yields (f a) fun b second => Q b (first ++ second)) :
    Yields (x >>= f) Q := by
  intro r
  obtain ⟨first, hfirst, hP⟩ := hx r
  obtain ⟨second, hsecond, hQ⟩ := hf _ _ hP (x.run r).2
  refine ⟨first ++ second, ?_, hQ⟩
  show ((f (x.run r).1).run (x.run r).2).2.issued = _
  rw [hsecond, hfirst, List.append_assoc]

/-- **A computation on each item** returns an item for each, and what the
    returned items use has been handed out in their order. -/
protected theorem mapM {f : α → Naming β} {R : α → β → Prop} {ids : β → List Text}
    (h : ∀ a, Yields (f a) fun b handedOut => R a b ∧ Issued (ids b) handedOut) (as : List α) :
    Yields (as.mapM f) fun bs handedOut =>
      List.Forall₂ R as bs ∧ Issued (bs.flatMap ids) handedOut := by
  induction as with
  | nil => exact .pure ⟨.nil, .nil⟩
  | cons a as ih =>
    rw [List.mapM_cons]
    refine (h a).bind fun b first hb => ih.bind fun bs second hbs => .pure ⟨.cons hb.1 hbs.1, ?_⟩
    rw [List.append_nil]
    exact hb.2.append hbs.2

/-- Nothing is handed out twice. -/
theorem eval {x : Naming α} (hx : Yields x P) :
    ∃ handedOut : List Text, handedOut.Nodup ∧ P x.eval handedOut := by
  obtain ⟨handedOut, hissued, hP⟩ := hx Registry.empty
  refine ⟨handedOut, ?_, hP⟩
  have hnodup := (x.run Registry.empty).2.nodup
  rwa [hissued] at hnodup

end Naming.Yields

open Naming (Yields)

theorem yields_claim {base : Text} (h : isIdentifier base = true) :
    Yields (claim base) fun id handedOut => Issued [id] handedOut := fun r =>
  ⟨[fresh r.issued base], rfl, .singleton (isIdentifier_fresh h r.issued)⟩

/-- **A node's identifier** is one, if its kind is. -/
theorem yields_claimNodeId {kind : Text} (h : isIdentifier kind = true) (raw : Text) :
    Yields (claimNodeId kind raw) fun id handedOut => Issued [id] handedOut :=
  yields_claim (isIdentifier_nodeBase h raw)

/-- **An entity's identifier** is one. -/
theorem yields_claimEntityName (raw : Text) :
    Yields (claimEntityName raw) fun id handedOut => Issued [id] handedOut :=
  yields_claim (isIdentifier_sanitize (by decide) raw)

end SchemaDiagram
