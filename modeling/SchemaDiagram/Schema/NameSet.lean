import SchemaDiagram.Text.Order

/-! # NameSet — finite sets of names, in order

    A set is the list of its members in the order of names, each once, so two
    sets with the same members are equal (`NameSet.ext`).

      * `NameSet`                        — the type; `∈` is membership in the list
      * `insert`, `ofList`, `insertAll`  — building a set
      * `size`, `toList`                 — reading one
      * `subset`                         — inclusion, as a test -/

namespace SchemaDiagram

open Text (precedes precedes_irrefl precedes_trans precedes_of_ne)

namespace NameSet

/-- Each name stands before all that follow it. -/
def Increasing (names : List Text) : Prop := names.Pairwise fun x y => precedes x y = true

/-- A strictly increasing list with `x` put in its place. -/
def insertSorted (x : Text) : List Text → List Text
  | [] => [x]
  | y :: ys =>
    if precedes x y then x :: y :: ys
    else if x = y then y :: ys
    else y :: insertSorted x ys

theorem mem_insertSorted {x z : Text} {l : List Text} :
    z ∈ insertSorted x l ↔ z = x ∨ z ∈ l := by
  induction l with
  | nil => simp [insertSorted]
  | cons y ys ih =>
    unfold insertSorted
    split
    · simp
    · split
      · next h => subst h; simp
      · simp only [List.mem_cons, ih]
        constructor
        · rintro (h | h | h) <;> simp [h]
        · rintro (h | h | h) <;> simp [h]

theorem increasing_insertSorted {x : Text} {l : List Text} (h : Increasing l) :
    Increasing (insertSorted x l) := by
  induction l with
  | nil => simp [insertSorted, Increasing]
  | cons y ys ih =>
    obtain ⟨hy, hys⟩ := List.pairwise_cons.1 h
    unfold insertSorted
    split
    · next hxy =>
      refine List.pairwise_cons.2 ⟨fun z hz => ?_, h⟩
      rcases List.mem_cons.1 hz with rfl | hz
      · exact hxy
      · exact precedes_trans hxy (hy z hz)
    · next hxy =>
      split
      · exact h
      · next hne =>
        refine List.pairwise_cons.2 ⟨fun z hz => ?_, ih hys⟩
        rcases mem_insertSorted.1 hz with rfl | hz
        · exact precedes_of_ne hne (Bool.eq_false_iff.2 hxy)
        · exact hy z hz

end NameSet

/-- A finite set of names. -/
structure NameSet where
  /-- the members, in increasing order -/
  toList : List Text
  /-- each member is listed once, and in its place -/
  sorted : NameSet.Increasing toList
  deriving DecidableEq

namespace NameSet

instance : Membership Text NameSet := ⟨fun s x => x ∈ s.toList⟩

instance (x : Text) (s : NameSet) : Decidable (x ∈ s) :=
  decidable_of_iff (s.toList.contains x = true) List.contains_iff_mem

instance : Repr NameSet := ⟨fun s n => reprPrec s.toList n⟩

/-- The set without members. -/
def empty : NameSet := ⟨[], List.Pairwise.nil⟩

instance : EmptyCollection NameSet := ⟨empty⟩

instance : Inhabited NameSet := ⟨empty⟩

/-- `s` with `x` as a member. -/
def insert (s : NameSet) (x : Text) : NameSet :=
  ⟨insertSorted x s.toList, increasing_insertSorted s.sorted⟩

/-- `s` with all of `names` as members. -/
def insertAll (s : NameSet) (names : List Text) : NameSet := names.foldl insert s

/-- The set of the names in a list. -/
def ofList (names : List Text) : NameSet := empty.insertAll names

/-- The number of members. -/
def size (s : NameSet) : Nat := s.toList.length

/-- Whether every member of `s` is a member of `t`. -/
def subset (s t : NameSet) : Bool := s.toList.all (· ∈ t)

/-! ### Laws -/

theorem mem_def {x : Text} {s : NameSet} : x ∈ s ↔ x ∈ s.toList := Iff.rfl

@[simp] theorem not_mem_empty (x : Text) : x ∉ (∅ : NameSet) := List.not_mem_nil

@[simp] theorem mem_insert {x z : Text} {s : NameSet} : z ∈ s.insert x ↔ z = x ∨ z ∈ s :=
  mem_insertSorted

@[simp] theorem mem_insertAll {z : Text} {s : NameSet} {names : List Text} :
    z ∈ s.insertAll names ↔ z ∈ s ∨ z ∈ names := by
  induction names generalizing s with
  | nil => simp [insertAll]
  | cons x xs ih =>
    show z ∈ (s.insert x).insertAll xs ↔ _
    rw [ih, mem_insert, List.mem_cons]
    constructor
    · rintro ((h | h) | h) <;> simp [h]
    · rintro (h | h | h) <;> simp [h]

@[simp] theorem mem_ofList {z : Text} {names : List Text} : z ∈ ofList names ↔ z ∈ names := by
  show z ∈ empty.insertAll names ↔ _
  rw [mem_insertAll]
  exact or_iff_right (not_mem_empty z)

theorem subset_iff {s t : NameSet} : s.subset t = true ↔ ∀ x ∈ s, x ∈ t := by
  simp [subset, mem_def]

/-- **Sets are their members.** -/
theorem ext {s t : NameSet} (h : ∀ x, x ∈ s ↔ x ∈ t) : s = t := by
  have key : ∀ {l₁ l₂ : List Text}, Increasing l₁ → Increasing l₂ →
      (∀ x, x ∈ l₁ ↔ x ∈ l₂) → l₁ = l₂ := by
    intro l₁
    induction l₁ with
    | nil =>
      intro l₂ _ _ hm
      cases l₂ with
      | nil => rfl
      | cons y ys => exact absurd ((hm y).2 (by simp)) (by simp)
    | cons x xs ih =>
      intro l₂ h₁ h₂ hm
      cases l₂ with
      | nil => exact absurd ((hm x).1 (by simp)) (by simp)
      | cons y ys =>
        obtain ⟨hx, hxs⟩ := List.pairwise_cons.1 h₁
        obtain ⟨hy, hys⟩ := List.pairwise_cons.1 h₂
        have hxy : x = y := by
          rcases List.mem_cons.1 ((hm x).1 (by simp)) with h | h
          · exact h
          · rcases List.mem_cons.1 ((hm y).2 (by simp)) with h' | h'
            · exact h'.symm
            · exact absurd (precedes_trans (hy x h) (hx y h')) (by simp [precedes_irrefl])
        subst hxy
        congr 1
        refine ih hxs hys fun z => ⟨fun hz => ?_, fun hz => ?_⟩
        · rcases List.mem_cons.1 ((hm z).1 (by simp [hz])) with rfl | h
          · exact absurd (hx z hz) (by simp [precedes_irrefl])
          · exact h
        · rcases List.mem_cons.1 ((hm z).2 (by simp [hz])) with rfl | h
          · exact absurd (hy z hz) (by simp [precedes_irrefl])
          · exact h
  cases s with
  | mk l hl =>
    cases t with
    | mk m hm =>
      have : l = m := key hl hm h
      subst this
      rfl

theorem nodup_toList (s : NameSet) : s.toList.Nodup := by
  refine List.Pairwise.imp (fun hxy he => ?_) s.sorted
  subst he
  exact absurd hxy (by simp [precedes_irrefl])

/-- A part of a set that has as many members is the set. -/
theorem eq_of_subset_of_size_le {s t : NameSet} (hsub : ∀ x ∈ s, x ∈ t) (hsize : t.size ≤ s.size) :
    s = t := by
  refine ext fun x => ⟨hsub x, fun hx => Classical.byContradiction fun hn => ?_⟩
  -- else `x` and the members of `s` are too many for `t`
  have hnodup : (x :: s.toList).Nodup := List.nodup_cons.2 ⟨hn, s.nodup_toList⟩
  have hsubset : x :: s.toList ⊆ t.toList := List.cons_subset.2 ⟨hx, hsub⟩
  have hle := hnodup.length_le_of_subset hsubset
  rw [List.length_cons] at hle
  unfold size at hsize
  omega

end NameSet

end SchemaDiagram
