import SchemaDiagram.Text.Basic

/-! # Identifier — names that a diagram can use

    The nodes of a diagram are called by identifiers: an ASCII letter or
    underscore, then letters, digits and underscores.  Names from a script
    are reduced to that form and then kept apart by numbers.

      * `sanitize`                     — any text to an identifier
      * `candidate`, `fresh`           — the identifiers tried for a base, and
                                         the first that is still free
      * `Registry`                     — the identifiers handed out so far, no
                                         two of them equal
      * `Naming`                       — a computation that asks for identifiers
      * `claim`                        — one identifier more
      * `claimNodeId`, `claimEntityName` — the two kinds of identifier

    Among `n + 1` candidates one is free when `n` identifiers have been
    handed out, so the search is over a finite list (`fresh_not_mem`). -/

namespace SchemaDiagram

/-! ### Identifiers from names -/

/-- Whether `c` may stand in an identifier. -/
def isIdentifierChar (c : Char) : Bool := c.isAlphanum || c == '_'

/-- `raw` as an identifier: what may not stand in one becomes an underscore.
    The empty text becomes `fallback`, and a leading digit gets `fallback`
    and an underscore in front. -/
def sanitize (fallback raw : Text) : Text :=
  match raw.map fun c => if isIdentifierChar c then c else '_' with
  | [] => fallback
  | c :: r => if c.isDigit then fallback ++ "_" ++ c :: r else c :: r

/-! ### Free identifiers -/

/-- The identifiers tried for `base`, in order: itself, then with `_2`, `_3`
    and so on behind it. -/
def candidate (base : Text) : Nat → Text
  | 0 => base
  | i + 1 => base ++ "_" ++ Text.decimal (i + 2)

theorem candidate_inj {base : Text} {i j : Nat} (h : candidate base i = candidate base j) :
    i = j := by
  cases i with
  | zero =>
    cases j with
    | zero => rfl
    | succ j =>
      have := congrArg List.length h
      simp [candidate] at this
  | succ i =>
    cases j with
    | zero =>
      have := congrArg List.length h
      simp [candidate] at this
    | succ j =>
      have := Text.decimal_inj (List.append_cancel_left h)
      omega

/-- The first candidate for `base` that is not in `issued`. -/
def fresh (issued : List Text) (base : Text) : Text :=
  (((List.range (issued.length + 1)).map (candidate base)).find? (· ∉ issued)).getD base

/-- One of `issued.length + 1` candidates is free. -/
theorem exists_candidate_not_mem (issued : List Text) (base : Text) :
    ∃ i ∈ List.range (issued.length + 1), candidate base i ∉ issued := by
  refine Classical.byContradiction fun h => ?_
  have hsub : (List.range (issued.length + 1)).map (candidate base) ⊆ issued := by
    intro x hx
    obtain ⟨i, hi, rfl⟩ := List.mem_map.1 hx
    exact Classical.byContradiction fun hn => h ⟨i, hi, hn⟩
  have hnodup : ((List.range (issued.length + 1)).map (candidate base)).Nodup := by
    rw [List.Nodup, List.pairwise_map]
    exact List.nodup_range.imp fun hne he => hne (candidate_inj he)
  have hle := hnodup.length_le_of_subset hsub
  rw [List.length_map, List.length_range] at hle
  omega

/-- **What is handed out is free.** -/
theorem fresh_not_mem (issued : List Text) (base : Text) : fresh issued base ∉ issued := by
  unfold fresh
  cases h : ((List.range (issued.length + 1)).map (candidate base)).find? (· ∉ issued) with
  | some x => simpa using List.find?_some h
  | none =>
    obtain ⟨i, hi, hn⟩ := exists_candidate_not_mem issued base
    have := List.find?_eq_none.1 h (candidate base i) (List.mem_map_of_mem hi)
    simp [hn] at this

/-! ### The registry -/

/-- The identifiers of one diagram that have been handed out, in order. -/
structure Registry where
  issued : List Text
  nodup : issued.Nodup

namespace Registry

/-- Nothing has been handed out. -/
def empty : Registry := ⟨[], List.nodup_nil⟩

instance : Inhabited Registry := ⟨empty⟩

/-- The registry after `fresh r.issued base` has been handed out. -/
def issue (r : Registry) (base : Text) : Registry where
  issued := r.issued ++ [fresh r.issued base]
  nodup := by
    refine List.nodup_append.2 ⟨r.nodup, by simp, ?_⟩
    intro x hx y hy hxy
    rw [List.mem_singleton.1 hy] at hxy
    exact fresh_not_mem r.issued base (hxy ▸ hx)

end Registry

/-- A computation that asks for identifiers of one diagram. -/
abbrev Naming : Type → Type := StateM Registry

/-- An identifier for `base` that has not been handed out. -/
def claim (base : Text) : Naming Text := fun r => (fresh r.issued base, r.issue base)

/-- An identifier for a node of the kind `kind` that stands for `raw`. -/
def claimNodeId (kind raw : Text) : Naming Text := claim (kind ++ "_" ++ sanitize "N" raw)

/-- An identifier for an entity that is called by nothing but its name. -/
def claimEntityName (raw : Text) : Naming Text := claim (sanitize "T" raw)

/-- The result of a computation that has a registry of its own. -/
def Naming.eval {α : Type} (x : Naming α) : α := (x.run Registry.empty).1

end SchemaDiagram
