import SchemaDiagram.Proofs.Printing
import SchemaDiagram.Proofs.Quoting

/-! # Escaping — names in backticks that may hold backticks themselves

    In a name in backticks a doubled backtick stands for one.  Every scan
    passes over such a name as over any other, and the reading of tokens
    undoes the doubling.  Taking the marks off its two ends does not: what is
    doubled inside stays doubled.

      * `doubled`, `escapedName`      — a name written in this way
      * `doubled_eq_self_iff`         — when that makes a difference
      * `stripMarks_doubled`          — its ends are stripped, and no more
      * `spells_doubled`              — the reading of tokens undoes it
      * `IsReferable`                 — names that no scan misunderstands
      * `IsReferable.sealed`,
        `IsReferable.uncommented`     — what the scans see of them -/

namespace SchemaDiagram.Ddl

open Text (contains contains_eq_false_iff isBlankText Trimmed)

/-! ### Doubling -/

/-- `name` with every backtick doubled. -/
def doubled (name : Text) : Text :=
  name.flatMap fun c => if c = '\x60' then ['\x60', '\x60'] else [c]

/-- A name in backticks, its own backticks doubled. -/
def escapedName (name : Text) : Text := quotedName (doubled name)

theorem doubled_cons (c : Char) (r : Text) :
    doubled (c :: r) = (if c = '\x60' then ['\x60', '\x60'] else [c]) ++ doubled r := rfl

theorem doubled_mark (r : Text) : doubled ('\x60' :: r) = '\x60' :: '\x60' :: doubled r := rfl

theorem doubled_cons_of_ne {c : Char} (h : c ≠ '\x60') (r : Text) :
    doubled (c :: r) = c :: doubled r := by
  rw [doubled_cons, if_neg h]
  rfl

theorem doubled_reverse (s : Text) : doubled s.reverse = (doubled s).reverse := by
  rw [doubled, doubled, List.reverse_flatMap]
  congr 1
  funext c
  by_cases h : c = '\x60' <;> simp [h]

@[simp] theorem mem_doubled {c : Char} {s : Text} : c ∈ doubled s ↔ c ∈ s := by
  rw [doubled, List.mem_flatMap]
  constructor
  · rintro ⟨d, hd, hc⟩
    by_cases h : d = '\x60' <;> simp_all
  · intro hc
    refine ⟨c, hc, ?_⟩
    by_cases h : c = '\x60' <;> simp [h]

theorem head?_doubled (s : Text) : (doubled s).head? = s.head? := by
  cases s with
  | nil => rfl
  | cons c r => by_cases h : c = '\x60' <;> simp [doubled_cons, h]

theorem doubled_eq_nil_iff {s : Text} : doubled s = [] ↔ s = [] := by
  rw [← List.head?_eq_none_iff, head?_doubled, List.head?_eq_none_iff]

theorem length_doubled (s : Text) : (doubled s).length = s.length + s.count '\x60' := by
  induction s with
  | nil => rfl
  | cons c r ih =>
    by_cases h : c = '\x60'
    · subst h
      simp only [doubled_mark, List.length_cons, List.count_cons_self, ih]
      omega
    · simp only [doubled_cons_of_ne h, List.length_cons, List.count_cons_of_ne h, ih]
      omega

/-- **Doubling changes every name that holds a backtick**, and no other. -/
theorem doubled_eq_self_iff {s : Text} : doubled s = s ↔ '\x60' ∉ s := by
  constructor
  · intro h
    have hlen := congrArg List.length h
    rw [length_doubled] at hlen
    exact List.count_eq_zero.1 (by omega)
  · intro h
    induction s with
    | nil => rfl
    | cons c r ih =>
      obtain ⟨hc, hr⟩ := not_or.1 (mt List.mem_cons.2 h)
      rw [doubled_cons_of_ne (Ne.symm hc), ih hr]

/-! ### Stripping -/

theorem dropWhile_doubled (s : Text) :
    (doubled s).dropWhile isNameMark = doubled (s.dropWhile isNameMark) := by
  induction s with
  | nil => rfl
  | cons c r ih =>
    by_cases h : c = '\x60'
    · subst h
      -- both copies are dropped
      exact ih
    · rw [doubled_cons_of_ne h, List.dropWhile_cons, List.dropWhile_cons]
      split
      · exact ih
      · exact (doubled_cons_of_ne h r).symm

/-- **Stripping takes the outer marks off**, and leaves the others doubled. -/
theorem stripMarks_doubled (s : Text) : stripMarks (doubled s) = doubled (stripMarks s) := by
  rw [stripMarks, dropWhile_doubled, ← doubled_reverse, dropWhile_doubled, ← doubled_reverse,
    stripMarks]

/-! ### Reading -/

/-- **Reading undoes the doubling**: what is doubled stands for the name. -/
theorem spells_doubled {name : Text} (hname : '\\' ∉ name) : Spells '\x60' (doubled name) name := by
  have hspell : doubled name = Escape.doubling.spell '\x60' name := by
    refine List.flatMap_congr fun c hc => ?_
    have hescape : c ≠ '\\' := fun heq => hname (heq ▸ hc)
    by_cases h : c = '\x60' <;> simp [h, hescape, Escape.sign]
  rw [hspell]
  exact Escape.doubling.spells_spell (by decide) name

/-- An escaped name as a token, behind `gap`. -/
def escapedLexeme (gap name : Text) : Lexeme := ⟨gap, escapedName name, .quotedName name⟩

theorem legible_escapedLexeme {gap name rest : Text} (hgap : isBlankText gap = true)
    (hname : '\\' ∉ name) (hrest : rest.head? ≠ some '\x60') :
    (escapedLexeme gap name).Legible rest :=
  (spells_doubled hname).legible rfl hgap fun _ hc hmark => hrest (hmark ▸ hc)

/-! ### Names that no scan misunderstands -/

/-- Names that may be escaped: nothing in them qualifies them or is taken for
    a mark by a scan that does not know quotes. -/
structure IsReferable (name : Text) : Prop where
  ne_nil : name ≠ []
  trimmed : Trimmed name
  not_reserved : ∀ c ∈ name, c ∉ (".\x22\\()#" : Text)
  no_lineComment : contains "--" name = false
  no_blockComment : contains "/*" name = false

instance (name : Text) : Decidable (IsReferable name) :=
  decidable_of_iff
    (name ≠ [] ∧ Trimmed name ∧ name.all (fun c => decide (c ∉ (".\x22\\()#" : Text))) = true ∧
      contains "--" name = false ∧ contains "/*" name = false)
    ⟨fun ⟨h₁, h₂, h₃, h₄, h₅⟩ => ⟨h₁, h₂, by simpa using h₃, h₄, h₅⟩,
      fun ⟨h₁, h₂, h₃, h₄, h₅⟩ => ⟨h₁, h₂, by simpa using h₃, h₄, h₅⟩⟩

/-- Two neighbours other than backticks are neighbours before the doubling. -/
theorem not_pair_infix_doubled {a b : Char} {name : Text} (h : ¬ [a, b] <:+: name)
    (ha : a ≠ '\x60') : ¬ [a, b] <:+: doubled name := by
  induction name with
  | nil => exact h
  | cons c r ih =>
    have hr : ¬ [a, b] <:+: r := fun hr => h (hr.trans (List.suffix_cons c r).isInfix)
    by_cases hc : c = '\x60'
    · subst hc
      have hmarks : ¬ [a, b] <:+: ['\x60', '\x60'] := fun hin =>
        ha (by simpa using hin.subset List.mem_cons_self)
      refine not_pair_infix_append (s := ['\x60', '\x60']) hmarks (ih hr) fun hlast => ?_
      exact absurd (Option.some.inj hlast).symm ha
    · rw [doubled_cons_of_ne hc]
      refine not_pair_infix_append (s := [c]) not_pair_infix_singleton (ih hr) fun hlast hhead => ?_
      -- the pair would stand at the front of the name
      obtain rfl : c = a := Option.some.inj hlast
      have hhead := (head?_doubled r).symm.trans hhead
      obtain ⟨r', rfl⟩ := List.head?_eq_some_iff.1 hhead
      exact h (List.prefix_append [c, b] r').isInfix

namespace IsReferable

variable {name : Text} (h : IsReferable name)
include h

theorem not_mem {d : Char} (hd : d ∈ (".\x22\\()#" : Text)) : d ∉ name :=
  fun hmem => h.not_reserved d hmem hd

theorem not_mem_escapedName {d : Char} (hd : d ∈ (".\x22\\()#" : Text)) : d ∉ escapedName name := by
  have hmark : d ≠ '\x60' := by
    rintro rfl
    revert hd
    decide
  simp [escapedName, quotedName_eq, hmark, h.not_mem hd]

theorem uncommented : Uncommented (escapedName name) :=
  .quotedName (not_pair_infix_doubled (contains_eq_false_iff.1 h.no_blockComment) (by decide))
    (not_pair_infix_doubled (contains_eq_false_iff.1 h.no_lineComment) (by decide))
    (by simpa using h.not_mem (by decide))

theorem sealed (depth : Nat) : Sealed depth (escapedName name) := by
  have hread : (escapedLexeme [] name).Legible [' '] :=
    legible_escapedLexeme rfl (h.not_mem (by decide)) (by decide)
  exact hread.sealed (by simp) (by simp [escapedLexeme]) rfl

/-- The search for the end of a group passes over the name. -/
theorem closeGroup?_append (depth : Nat) (rest : Text) :
    closeGroup? depth (escapedName name ++ rest) =
      (closeGroup? depth rest).map fun (inside, after) => (escapedName name ++ inside, after) := by
  refine closeGroup?_append_of_noParen (fun c hc => ⟨?_, ?_⟩) depth rest
  · rintro rfl
    exact h.not_mem_escapedName (by decide) hc
  · rintro rfl
    exact h.not_mem_escapedName (by decide) hc

theorem bareName_eq : bareName name = stripMarks name := by
  refine bareName_of_simple h.ne_nil h.trimmed (h.not_mem (by decide)) fun hlast => ?_
  exact h.not_mem (by decide) (List.mem_of_getLast? hlast)

theorem bareName_escapedName : bareName (escapedName name) = doubled (stripMarks name) := by
  rw [escapedName, bareName_quotedName_of_not_mem (by simpa using h.not_mem (by decide)),
    stripMarks_doubled]

end IsReferable

end SchemaDiagram.Ddl
