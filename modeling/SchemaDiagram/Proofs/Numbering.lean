import Mathlib.Data.List.Nodup
import SchemaDiagram.Proofs.Identifiers

/-! # Numbering — how a registry answers a list of calls

    An identifier that is taken is tried with `_2`, `_3` and so on behind it,
    and nothing bounds the number.  A name may have ended in a number from
    the start, so a numbered identifier can be taken as well.  The trials end
    because no two candidates are equal: each that fails meets another of the
    identifiers handed out before.

      * `Search`              — the trials, one after the other
      * `search_fresh`        — they end with what is handed out
      * `Call`, `answers`     — calls of both kinds, and what they return
      * `Answers`             — what the answer to one call has to be
      * `answers_fresh`       — one call
      * `Answered`            — the same for a list of calls
      * `answered_run`        — a list of calls, from any registry
      * `registry_answers`    — a list of calls, from the start -/

namespace SchemaDiagram

/-! ### The search -/

/-- The search for a free identifier from the `i`-th candidate for `base` on:
    it looks at `trials` candidates, one after the other, and ends with `id`,
    the first of them that has not been issued. -/
inductive Search (issued : List Text) (base : Text) : (i trials : Nat) → (id : Text) → Prop where
  | free {i : Nat} : candidate base i ∉ issued → Search issued base i 1 (candidate base i)
  | taken {i trials : Nat} {id : Text} : candidate base i ∈ issued →
      Search issued base (i + 1) trials id → Search issued base i (trials + 1) id

section Search

variable {issued : List Text} {base : Text}

/-- The search passes over the candidates that are taken and stops at the
    first that is free. -/
theorem Search.of_least {i k : Nat} (hfree : candidate base (i + k) ∉ issued)
    (htaken : ∀ j < k, candidate base (i + j) ∈ issued) :
    Search issued base i (k + 1) (candidate base (i + k)) := by
  induction k generalizing i with
  | zero => exact .free hfree
  | succ k ih =>
    have hshift : ∀ j, i + (j + 1) = i + 1 + j := by
      intro j
      omega
    rw [hshift] at hfree ⊢
    refine .taken (htaken 0 (Nat.succ_pos k)) (ih hfree ?_)
    intro j hj
    rw [← hshift]
    exact htaken (j + 1) (by omega)

end Search

/-- **The search ends**, after one trial more than there are identifiers
    issued at the latest. -/
theorem search_fresh (issued : List Text) (base : Text) :
    ∃ trials ≤ issued.length + 1, Search issued base 0 trials (fresh issued base) := by
  obtain ⟨k, hk, heq, htaken⟩ := exists_fresh_eq_candidate issued base
  refine ⟨k + 1, by omega, ?_⟩
  have hfree := fresh_not_mem issued base
  rw [heq] at hfree ⊢
  have hsearch : Search issued base 0 (k + 1) (candidate base (0 + k)) := by
    apply Search.of_least
    · rwa [Nat.zero_add]
    · intro j hj
      rw [Nat.zero_add]
      exact htaken j hj
  rwa [Nat.zero_add] at hsearch

/-! ### Calls -/

/-- A call for an identifier. -/
inductive Call where
  /-- of a node of the kind `kind` that stands for `raw` -/
  | node (kind raw : Text)
  /-- of an entity that is called by its name alone -/
  | entity (raw : Text)
  deriving DecidableEq, Repr

namespace Call

/-- The identifier that a call returns if it is free. -/
def base : Call → Text
  | node kind raw => kind ++ "_" ++ sanitize "N" raw
  | entity raw => sanitize "T" raw

/-- The computation that a call is. -/
def claim : Call → Naming Text
  | node kind raw => claimNodeId kind raw
  | entity raw => claimEntityName raw

/-- The kind of a node is an identifier itself. -/
def HasKind : Call → Prop
  | node kind _ => isIdentifier kind = true
  | entity _ => True

theorem claim_eq (call : Call) : call.claim = SchemaDiagram.claim call.base := by
  cases call <;> rfl

theorem isIdentifier_base {call : Call} (h : call.HasKind) : isIdentifier call.base = true := by
  cases call with
  | node kind raw => exact isIdentifier_nodeBase h raw
  | entity raw => exact isIdentifier_sanitize (by decide) raw

end Call

/-- What the calls return, one after the other, if nothing has been handed
    out before. -/
def answers (calls : List Call) : List Text := (calls.mapM Call.claim).eval

/-! ### One call -/

/-- What a call has to return, once the identifiers `before` have been handed
    out. -/
structure Answers (before : List Text) (call : Call) (id : Text) : Prop where
  not_mem : id ∉ before
  /-- what the call asks for, if it is free -/
  eq_base : call.base ∉ before → id = call.base
  /-- otherwise with the least number from two on that makes it free -/
  eq_numbered : call.base ∈ before → ∃ k ≥ 2, id = call.base ++ "_" ++ Text.decimal k ∧
    ∀ j ≥ 2, j < k → call.base ++ "_" ++ Text.decimal j ∈ before
  /-- and it is found by the search, which needs no bound -/
  search : ∃ trials ≤ before.length + 1, Search before call.base 0 trials id
  isIdentifier : call.HasKind → SchemaDiagram.isIdentifier id = true

/-- **One call is answered.** -/
theorem answers_fresh (before : List Text) (call : Call) :
    Answers before call (fresh before call.base) := by
  obtain ⟨i, -, heq, htaken⟩ := exists_fresh_eq_candidate before call.base
  have hfree := fresh_not_mem before call.base
  refine ⟨hfree, ?_, ?_, search_fresh before call.base, fun h => ?_⟩
  · intro hbase
    cases i with
    | zero => exact heq
    | succ i => exact absurd (htaken 0 (Nat.succ_pos i)) hbase
  · intro hbase
    cases i with
    | zero => exact absurd (heq ▸ hbase) hfree
    | succ i =>
      refine ⟨i + 2, by omega, heq, ?_⟩
      intro j hj hlt
      obtain ⟨j, rfl⟩ := Nat.exists_eq_add_of_le' hj
      exact htaken (j + 1) (by omega)
  · exact isIdentifier_fresh (Call.isIdentifier_base h) before

/-! ### All calls -/

/-- `ids` are what the calls have to return, each in view of those before. -/
inductive Answered : (before : List Text) → List Call → (ids : List Text) → Prop where
  | nil {before : List Text} : Answered before [] []
  | cons {before : List Text} {call : Call} {calls : List Call} {id : Text} {ids : List Text} :
      Answers before call id → Answered (before ++ [id]) calls ids →
      Answered before (call :: calls) (id :: ids)

/-- Answers differ from all that was handed out before, so no two are equal. -/
theorem Answered.nodup {before ids : List Text} {calls : List Call} (h : Answered before calls ids)
    (hbefore : before.Nodup) : (before ++ ids).Nodup := by
  induction h with
  | nil => simpa using hbefore
  | @cons before call calls id ids hid _ ih =>
    have hnodup : (before.concat id).Nodup := List.Nodup.concat hid.not_mem hbefore
    rw [List.concat_eq_append] at hnodup
    rw [List.append_cons]
    exact ih hnodup

/-- **A list of calls is answered**, whatever has been handed out before. -/
theorem answered_run (calls : List Call) (r : Registry) :
    Answered r.issued calls ((calls.mapM Call.claim).run r).1 := by
  induction calls generalizing r with
  | nil => exact .nil
  | cons call calls ih =>
    have hrun : (((call :: calls).mapM Call.claim).run r).1 =
        fresh r.issued call.base :: ((calls.mapM Call.claim).run (r.issue call.base)).1 := by
      rw [List.mapM_cons, Call.claim_eq]
      rfl
    rw [hrun]
    exact .cons (answers_fresh r.issued call) (ih (r.issue call.base))

/-- **Every call of a registry is answered, and no answer is given twice.**
    A call returns the identifier it asks for or, if that has been returned
    before, the same with the least free number from two on, which is found
    after as many trials as there were answers before, and one more, at the
    latest; and what it returns is an identifier. -/
theorem registry_answers (calls : List Call) :
    (answers calls).Nodup ∧ Answered [] calls (answers calls) := by
  have hrun : Answered [] calls (answers calls) := answered_run calls Registry.empty
  exact ⟨hrun.nodup List.nodup_nil, hrun⟩

/-- A name that ends in a number takes that number from another. -/
example : answers [.entity "a 2", .entity "a", .entity "a", .node "a" "2"] =
    ["a_2", "a", "a_3", "a_N_2"] := by decide

end SchemaDiagram
