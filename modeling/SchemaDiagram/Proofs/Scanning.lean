import SchemaDiagram.Ddl.Statement
import SchemaDiagram.Proofs.Comments

/-! # Scanning — the search for statements in a text with more behind it

    Whatever the search finds in a text it finds at the same place when more
    text follows.  Where it finds nothing, a line end keeps the two texts
    apart: no phrase of one line reaches over it.

      * `afterPhrase?_eq_none_iff`       — when a phrase does not occur
      * `nextStatement?_append`          — a statement that has been found stays
      * `scanEnd`                        — what the search leaves behind it
      * `statements_isPrefix_append`     — text behind a script adds statements
      * `statements_append_newline`      — and adds just its own, when the search
                                           has come to its proper end -/

namespace SchemaDiagram.Ddl

open Text (foldCase equalsIgnoringCase_iff cut? cut?_eq_some_iff)

/-! ### Phrases -/

@[simp] theorem length_foldCase (s : Text) : (foldCase s).length = s.length := List.length_map _

theorem foldCase_append (s t : Text) : foldCase (s ++ t) = foldCase s ++ foldCase t :=
  List.map_append

theorem foldCase_take (n : Nat) (s : Text) : foldCase (s.take n) = (foldCase s).take n :=
  List.map_take

/-- A phrase stands at the start of a text, up to letter case. -/
theorem dropPhrase?_eq_some_iff {phrase s rest : Text} :
    dropPhrase? phrase s = some rest ↔
      ∃ found, s = found ++ rest ∧ foldCase found = foldCase phrase := by
  unfold dropPhrase?
  constructor
  · intro h
    split at h
    · next heq =>
      cases h
      exact ⟨s.take phrase.length, (List.take_append_drop _ _).symm, equalsIgnoringCase_iff.1 heq⟩
    · cases h
  · rintro ⟨found, rfl, hf⟩
    have hlen : found.length = phrase.length := by
      rw [← length_foldCase, hf, length_foldCase]
    rw [← hlen, List.take_left, List.drop_left, if_pos (equalsIgnoringCase_iff.2 hf)]

/-- A phrase at the start of a text is there with more text behind it. -/
theorem dropPhrase?_append {phrase s rest : Text} (h : dropPhrase? phrase s = some rest)
    (t : Text) : dropPhrase? phrase (s ++ t) = some (rest ++ t) := by
  obtain ⟨found, rfl, hf⟩ := dropPhrase?_eq_some_iff.1 h
  exact dropPhrase?_eq_some_iff.2 ⟨found, List.append_assoc _ _ _, hf⟩

/-- More text behind a text that is long enough makes no phrase at its start. -/
theorem dropPhrase?_append_eq_none {phrase s : Text} (h : dropPhrase? phrase s = none)
    (hlen : phrase.length ≤ s.length) (t : Text) : dropPhrase? phrase (s ++ t) = none := by
  unfold dropPhrase? at h ⊢
  rw [List.take_append_of_le_length hlen]
  split
  · next heq => simp [heq] at h
  · rfl

/-- A phrase at the start of a text is its first occurrence. -/
theorem afterPhrase?_of_dropPhrase? {phrase s rest : Text} (hne : s ≠ [])
    (h : dropPhrase? phrase s = some rest) : afterPhrase? phrase s = some rest := by
  obtain ⟨c, r, rfl⟩ := List.exists_cons_of_ne_nil hne
  rw [afterPhrase?, h]

/-- A phrase that occurs is no longer than the text. -/
theorem length_le_of_afterPhrase? {phrase s rest : Text} (h : afterPhrase? phrase s = some rest) :
    phrase.length ≤ s.length := by
  induction s with
  | nil => simp [afterPhrase?] at h
  | cons c r ih =>
    simp only [afterPhrase?] at h
    split at h
    · next rest' hd =>
      obtain ⟨found, hs, hf⟩ := dropPhrase?_eq_some_iff.1 hd
      have hlen : found.length = phrase.length := by
        rw [← length_foldCase, hf, length_foldCase]
      rw [hs, List.length_append]
      omega
    · exact Nat.le_succ_of_le (ih h)

/-- The first occurrence of a phrase is still the first with more text behind
    it. -/
theorem afterPhrase?_append {phrase s rest : Text} (h : afterPhrase? phrase s = some rest)
    (t : Text) : afterPhrase? phrase (s ++ t) = some (rest ++ t) := by
  induction s with
  | nil => simp [afterPhrase?] at h
  | cons c r ih =>
    simp only [afterPhrase?] at h
    split at h
    · next rest' hd =>
      cases h
      have hd' := dropPhrase?_append hd t
      rw [List.cons_append] at hd' ⊢
      simp only [afterPhrase?, hd']
    · next hd =>
      -- the occurrence lies further on, so there is room for the phrase here
      have hlen : phrase.length ≤ (c :: r).length :=
        Nat.le_succ_of_le (length_le_of_afterPhrase? h)
      have hd' := dropPhrase?_append_eq_none hd hlen t
      rw [List.cons_append] at hd' ⊢
      simp only [afterPhrase?, hd']
      exact ih h

/-- **When a phrase does not occur.** -/
theorem afterPhrase?_eq_none_iff {phrase s : Text} (hne : phrase ≠ []) :
    afterPhrase? phrase s = none ↔ ¬ foldCase phrase <:+: foldCase s := by
  induction s with
  | nil => simpa [afterPhrase?, foldCase] using hne
  | cons c r ih =>
    have hfold : foldCase (c :: r) = c.toLower :: foldCase r := rfl
    rw [hfold, List.infix_cons_iff, not_or, ← ih, ← hfold]
    simp only [afterPhrase?]
    cases hd : dropPhrase? phrase (c :: r) with
    | some rest =>
      obtain ⟨found, hs, hf⟩ := dropPhrase?_eq_some_iff.1 hd
      have hpre : foldCase phrase <+: foldCase (c :: r) := by
        rw [hs, foldCase_append, hf]
        exact List.prefix_append _ _
      simp [hpre]
    | none =>
      have hpre : ¬ foldCase phrase <+: foldCase (c :: r) := by
        rintro hp
        have htake : foldCase phrase = (foldCase (c :: r)).take phrase.length := by
          have := List.prefix_iff_eq_take.1 hp
          rwa [length_foldCase] at this
        unfold dropPhrase? at hd
        rw [if_pos] at hd
        · cases hd
        · rw [equalsIgnoringCase_iff, foldCase_take, htake]
      simp [hpre]

/-- A phrase of one line does not reach over a line end. -/
theorem dropPhrase?_append_newline {phrase s : Text} (hline : '\n' ∉ foldCase phrase)
    (h : dropPhrase? phrase s = none) (t : Text) :
    dropPhrase? phrase (s ++ '\n' :: t) = none := by
  rw [Option.eq_none_iff_forall_not_mem]
  intro rest hrest
  obtain ⟨found, hs, hf⟩ := dropPhrase?_eq_some_iff.1 hrest
  rcases List.append_eq_append_iff.1 hs with ⟨a, rfl, ha⟩ | ⟨a, rfl, ha⟩
  · -- the phrase would hold the line end, or the whole of `s`
    cases a with
    | nil =>
      rw [List.append_nil] at hf
      have hs' : dropPhrase? phrase s = some [] :=
        dropPhrase?_eq_some_iff.2 ⟨s, (List.append_nil s).symm, hf⟩
      rw [h] at hs'
      cases hs'
    | cons d a' =>
      obtain ⟨rfl, _⟩ := List.cons.inj ha
      apply hline
      rw [← hf, foldCase_append]
      exact List.mem_append_right _ List.mem_cons_self
  · have hs' : dropPhrase? phrase (found ++ a) = some a :=
      dropPhrase?_eq_some_iff.2 ⟨found, rfl, hf⟩
    rw [h] at hs'
    cases hs'

/-- Where a phrase of one line does not occur, it is looked for behind the
    line end. -/
theorem afterPhrase?_append_newline {phrase s : Text} (hne : phrase ≠ [])
    (hline : '\n' ∉ foldCase phrase) (h : afterPhrase? phrase s = none) (t : Text) :
    afterPhrase? phrase (s ++ '\n' :: t) = afterPhrase? phrase t := by
  induction s with
  | nil =>
    have hd : dropPhrase? phrase [] = none := by
      rw [Option.eq_none_iff_forall_not_mem]
      intro rest hrest
      obtain ⟨found, hs, hf⟩ := dropPhrase?_eq_some_iff.1 hrest
      obtain ⟨rfl, _⟩ := List.append_eq_nil_iff.1 hs.symm
      exact hne (List.map_eq_nil_iff.1 hf.symm)
    have hd' := dropPhrase?_append_newline hline hd t
    rw [List.nil_append] at hd' ⊢
    simp only [afterPhrase?, hd']
  | cons c r ih =>
    simp only [afterPhrase?] at h
    split at h
    · cases h
    · next hd =>
      have hd' := dropPhrase?_append_newline hline hd t
      rw [List.cons_append] at hd' ⊢
      simp only [afterPhrase?, hd']
      exact ih h

/-! ### Statements -/

theorem cut?_append {mark : Char} {s before after : Text} (h : cut? mark s = some (before, after))
    (t : Text) : cut? mark (s ++ t) = some (before, after ++ t) := by
  obtain ⟨rfl, hb⟩ := cut?_eq_some_iff.1 h
  refine cut?_eq_some_iff.2 ⟨?_, hb⟩
  rw [List.append_assoc, List.cons_append]

/-- A group that has been closed stays as it is with more text behind it. -/
theorem closeGroup?_append_right {depth : Nat} {s inside rest : Text}
    (h : closeGroup? depth s = some (inside, rest)) (t : Text) :
    closeGroup? depth (s ++ t) = some (inside, rest ++ t) := by
  fun_induction closeGroup? depth s generalizing inside with
  | case1 => simp at h
  | case2 r =>
    obtain ⟨rfl, rfl⟩ := Prod.mk.inj (Option.some.inj h)
    rfl
  | case3 depth r ih =>
    obtain ⟨⟨i, r'⟩, hi, he⟩ := Option.map_eq_some_iff.1 h
    obtain ⟨rfl, rfl⟩ := Prod.mk.inj he
    simp [closeGroup?, ih hi]
  | case4 depth r ih =>
    obtain ⟨⟨i, r'⟩, hi, he⟩ := Option.map_eq_some_iff.1 h
    obtain ⟨rfl, rfl⟩ := Prod.mk.inj he
    simp [closeGroup?, ih hi]
  | case5 depth c r h₀ h₁ h₂ ih =>
    obtain ⟨⟨i, r'⟩, hi, he⟩ := Option.map_eq_some_iff.1 h
    obtain ⟨rfl, rfl⟩ := Prod.mk.inj he
    simp [closeGroup?, ih hi]

/-- A statement that has been found stays, with more text behind it. -/
theorem nextStatement?_append {script rest : Text} {s : Statement}
    (h : nextStatement? script = some (s, rest)) (t : Text) :
    nextStatement? (script ++ t) = some (s, rest ++ t) := by
  unfold nextStatement? at h
  split at h
  · cases h
  · next afterHead h₁ =>
    split at h
    · cases h
    · next head afterOpen h₂ =>
      obtain ⟨⟨body, rest'⟩, h₃, he⟩ := Option.map_eq_some_iff.1 h
      obtain ⟨rfl, rfl⟩ := Prod.mk.inj he
      rw [nextStatement?, afterPhrase?_append h₁ t]
      simp only [cut?_append h₂ t, closeGroup?_append_right h₃ t, Option.map_some]

/-- A statement at the start of a text, part by part. -/
theorem nextStatement?_of_parts {head body rest : Text} (hhead : '(' ∉ head)
    (hclose : closeGroup? 0 (body ++ ')' :: rest) = some (body, rest)) :
    nextStatement? ("CREATE TABLE" ++ (head ++ '(' :: (body ++ ')' :: rest))) =
      some (⟨tableName head, body⟩, rest) := by
  have hfold : foldCase "CREATE TABLE" = foldCase "create table" := by decide
  have hphrase : afterPhrase? "create table"
      ("CREATE TABLE" ++ (head ++ '(' :: (body ++ ')' :: rest))) =
        some (head ++ '(' :: (body ++ ')' :: rest)) :=
    afterPhrase?_of_dropPhrase? (List.cons_ne_nil _ _)
      (dropPhrase?_eq_some_iff.2 ⟨"CREATE TABLE", rfl, hfold⟩)
  have hcut : cut? '(' (head ++ '(' :: (body ++ ')' :: rest)) = some (head, body ++ ')' :: rest) :=
    cut?_eq_some_iff.2 ⟨rfl, hhead⟩
  rw [nextStatement?, hphrase]
  simp only [hcut, hclose, Option.map_some]

theorem statements_of_none {script : Text} (h : nextStatement? script = none) :
    statements script = [] := by
  rw [statements]
  split
  · rfl
  · next h' => simp [h] at h'

theorem statements_of_some {script rest : Text} {s : Statement}
    (h : nextStatement? script = some (s, rest)) :
    statements script = if s.name = [] then statements rest else s :: statements rest := by
  rw [statements]
  split
  · next h' => simp [h] at h'
  · next h' =>
    rw [h] at h'
    obtain ⟨rfl, rfl⟩ := Prod.mk.inj (Option.some.inj h')
    rfl

/-- The statements of a text are decided by where the search for the first of
    them leads. -/
theorem statements_congr {s t : Text} (h : nextStatement? s = nextStatement? t) :
    statements s = statements t := by
  cases ht : nextStatement? t with
  | none => rw [statements_of_none ht, statements_of_none (h.trans ht)]
  | some p => rw [statements_of_some ht, statements_of_some (h.trans ht)]

/-- What the search for statements leaves: the text behind the last of
    them. -/
def scanEnd (script : Text) : Text :=
  match _h : nextStatement? script with
  | none => script
  | some (_, rest) => scanEnd rest
termination_by script.length
decreasing_by exact length_rest_lt _h

/-- **More text adds statements.** Those of the text before it stay. -/
theorem statements_isPrefix_append (script t : Text) :
    statements script <+: statements (script ++ t) := by
  fun_induction statements script with
  | case1 script hnone => exact List.nil_prefix
  | case2 script s rest hnext hname ih =>
    rw [statements_of_some (nextStatement?_append hnext t), if_pos hname]
    exact ih
  | case3 script s rest hnext hname ih =>
    rw [statements_of_some (nextStatement?_append hnext t), if_neg hname]
    exact (List.prefix_cons_inj s).2 ih

/-- **More text adds just its own statements**, if no CREATE TABLE is left
    over from the text before it. -/
theorem statements_append_newline {script : Text}
    (h : afterPhrase? "create table" (scanEnd script) = none) (t : Text) :
    statements (script ++ '\n' :: t) = statements script ++ statements t := by
  fun_induction scanEnd script with
  | case1 script hnone =>
    rw [statements_of_none hnone, List.nil_append]
    refine statements_congr ?_
    rw [nextStatement?, afterPhrase?_append_newline (by decide) (by decide) h]
    rfl
  | case2 script s rest hnext ih =>
    rw [statements_of_some hnext, statements_of_some (nextStatement?_append hnext _)]
    split
    · exact ih h
    · rw [ih h, List.cons_append]

end SchemaDiagram.Ddl
