import SchemaDiagram.Proofs.Matching
import SchemaDiagram.Proofs.Scanning
import SchemaDiagram.Proofs.Trimming

/-! # StatementGrammar — the statements of a script, told without the search

    A text without comments is a row of passages and a tail.  A passage runs
    from where the one before it stops to the parenthesis that closes a body;
    the tail holds no statement that is complete.

      * `StaysInside`                 — no parenthesis closes one before a text
      * `closeGroup?_eq_some_iff`,
        `closeGroup?_eq_none_iff`     — where a group is closed, and when it never is
      * `StandsFirst`                 — the first occurrence of a phrase
      * `IsNamePart`,
        `dropIfNotExists_eq_iff`      — what is left of the text in front of a
                                        body without IF NOT EXISTS
      * `Passage`, `Passage.Proper`   — a statement with the text in front of it
      * `Passage.Declares`            — what it declares
      * `Ends`                        — texts without a complete statement
      * `Reads`                       — a text as passages and a tail
      * `nextStatement?_eq_some_iff`,
        `nextStatement?_eq_none_iff`  — one step of the search
      * `scriptStatements_reads`      — the whole search -/

namespace SchemaDiagram.Ddl

open Text (foldCase trim trimStart isBlank isBlankText cut? cut?_eq_some_iff cut?_eq_none_iff)

/-! ### Parentheses, counted -/

/-- With `depth` parentheses open before it, `s` closes none but these: at no
    point has it closed more than were open.  Quotes do not matter. -/
def StaysInside (depth : Nat) (s : Text) : Prop :=
  ∀ p, p <+: s → p.count ')' ≤ p.count '(' + depth

theorem staysInside_nil (depth : Nat) : StaysInside depth [] := by
  intro p hp
  rw [List.prefix_nil.1 hp]
  exact Nat.zero_le _

/-- One character and the text behind it. -/
theorem staysInside_cons_iff {depth : Nat} {c : Char} {s : Text} :
    StaysInside depth (c :: s) ↔
      ∀ p, p <+: s → (c :: p).count ')' ≤ (c :: p).count '(' + depth := by
  constructor
  · intro h p hp
    exact h (c :: p) (List.cons_prefix_cons.2 ⟨rfl, hp⟩)
  · intro h p hp
    rcases List.prefix_cons_iff.1 hp with rfl | ⟨q, rfl, hq⟩
    · exact Nat.zero_le _
    · exact h q hq

theorem staysInside_open {depth : Nat} {s : Text} :
    StaysInside depth ('(' :: s) ↔ StaysInside (depth + 1) s := by
  rw [staysInside_cons_iff]
  refine forall₂_congr fun p _ => ?_
  rw [List.count_cons_self, List.count_cons_of_ne (by decide)]
  omega

theorem staysInside_close {depth : Nat} {s : Text} :
    StaysInside (depth + 1) (')' :: s) ↔ StaysInside depth s := by
  rw [staysInside_cons_iff]
  refine forall₂_congr fun p _ => ?_
  rw [List.count_cons_self, List.count_cons_of_ne (by decide)]
  omega

theorem not_staysInside_close {s : Text} : ¬ StaysInside 0 (')' :: s) := by
  intro h
  have hfirst := staysInside_cons_iff.1 h [] List.nil_prefix
  exact absurd hfirst (by decide)

theorem staysInside_cons_of_ne {depth : Nat} {c : Char} {s : Text} (hopen : c ≠ '(')
    (hclose : c ≠ ')') : StaysInside depth (c :: s) ↔ StaysInside depth s := by
  rw [staysInside_cons_iff]
  refine forall₂_congr fun p _ => ?_
  rw [List.count_cons_of_ne hopen, List.count_cons_of_ne hclose]

/-- A group that is found closed is level with the parentheses before it, and
    nothing in it closed them earlier. -/
theorem staysInside_of_closeGroup? {depth : Nat} {s inside rest : Text}
    (h : closeGroup? depth s = some (inside, rest)) :
    StaysInside depth inside ∧ inside.count ')' = inside.count '(' + depth := by
  -- along the scan, with the parentheses that are open carried in `depth`
  fun_induction closeGroup? depth s generalizing inside with
  | case1 => cases h
  | case2 r =>
    obtain ⟨rfl, rfl⟩ := Prod.mk.inj (Option.some.inj h)
    exact ⟨staysInside_nil 0, rfl⟩
  | case3 depth r ih =>
    obtain ⟨⟨i, r'⟩, hi, he⟩ := Option.map_eq_some_iff.1 h
    obtain ⟨rfl, rfl⟩ := Prod.mk.inj he
    obtain ⟨hinside, hlevel⟩ := ih hi
    refine ⟨staysInside_close.2 hinside, ?_⟩
    rw [List.count_cons_self, List.count_cons_of_ne (by decide)]
    omega
  | case4 depth r ih =>
    obtain ⟨⟨i, r'⟩, hi, he⟩ := Option.map_eq_some_iff.1 h
    obtain ⟨rfl, rfl⟩ := Prod.mk.inj he
    obtain ⟨hinside, hlevel⟩ := ih hi
    refine ⟨staysInside_open.2 hinside, ?_⟩
    rw [List.count_cons_self, List.count_cons_of_ne (by decide)]
    omega
  | case5 depth c r hzero hsucc hopen ih =>
    obtain ⟨⟨i, r'⟩, hi, he⟩ := Option.map_eq_some_iff.1 h
    obtain ⟨rfl, rfl⟩ := Prod.mk.inj he
    obtain ⟨hinside, hlevel⟩ := ih hi
    have hclose : c ≠ ')' := by
      rintro rfl
      cases depth with
      | zero => exact hzero rfl rfl
      | succ d => exact hsucc d rfl rfl
    refine ⟨(staysInside_cons_of_ne hopen hclose).2 hinside, ?_⟩
    rwa [List.count_cons_of_ne hopen, List.count_cons_of_ne hclose]

/-- And a text of that kind is a group as a whole. -/
theorem closeGroup?_of_staysInside {depth : Nat} {inside : Text} (h : StaysInside depth inside)
    (hlevel : inside.count ')' = inside.count '(' + depth) (rest : Text) :
    closeGroup? depth (inside ++ ')' :: rest) = some (inside, rest) := by
  induction inside generalizing depth with
  | nil =>
    obtain rfl : depth = 0 := by simpa using hlevel.symm
    rfl
  | cons c s ih =>
    by_cases hopen : c = '('
    · subst hopen
      rw [List.count_cons_self, List.count_cons_of_ne (by decide)] at hlevel
      have hs := ih (staysInside_open.1 h) (by omega)
      rw [List.cons_append, closeGroup?.eq_4, hs, Option.map_some]
    · by_cases hclose : c = ')'
      · subst hclose
        cases depth with
        | zero => exact absurd h not_staysInside_close
        | succ d =>
          rw [List.count_cons_self, List.count_cons_of_ne (by decide)] at hlevel
          have hs := ih (staysInside_close.1 h) (by omega)
          rw [List.cons_append, closeGroup?.eq_3, hs, Option.map_some]
      · rw [List.count_cons_of_ne hopen, List.count_cons_of_ne hclose] at hlevel
        have hs := ih ((staysInside_cons_of_ne hopen hclose).1 h) hlevel
        rw [List.cons_append, closeGroup?.eq_5 depth c _ hopen (fun _ => hclose)
          (fun _ _ => hclose), hs, Option.map_some]

/-- **Where a group is closed.** -/
theorem closeGroup?_eq_some_iff {depth : Nat} {s inside rest : Text} :
    closeGroup? depth s = some (inside, rest) ↔
      s = inside ++ ')' :: rest ∧ StaysInside depth inside ∧
        inside.count ')' = inside.count '(' + depth := by
  constructor
  · intro h
    exact ⟨closeGroup?_append h, staysInside_of_closeGroup? h⟩
  · rintro ⟨rfl, hinside, hlevel⟩
    exact closeGroup?_of_staysInside hinside hlevel rest

/-- **When a group is never closed.** -/
theorem closeGroup?_eq_none_iff {depth : Nat} {s : Text} :
    closeGroup? depth s = none ↔ StaysInside depth s := by
  fun_induction closeGroup? depth s with
  | case1 depth => exact iff_of_true rfl (staysInside_nil depth)
  | case2 r => exact iff_of_false (by simp) not_staysInside_close
  | case3 depth r ih => rw [Option.map_eq_none_iff, ih, staysInside_close]
  | case4 depth r ih => rw [Option.map_eq_none_iff, ih, staysInside_open]
  | case5 depth c r hzero hsucc hopen ih =>
    have hclose : c ≠ ')' := by
      rintro rfl
      cases depth with
      | zero => exact hzero rfl rfl
      | succ d => exact hsucc d rfl rfl
    rw [Option.map_eq_none_iff, ih, staysInside_cons_of_ne hopen hclose]

/-! ### The first occurrence of a phrase -/

/-- In the text `lead ++ found ++ behind`, `found` is the phrase in some letter
    case, and the phrase occurs nowhere before it. -/
structure StandsFirst (phrase lead found behind : Text) : Prop where
  isPhrase : foldCase found = foldCase phrase
  isFirst : ∀ before other after, lead ++ (found ++ behind) = before ++ (other ++ after) →
    foldCase other = foldCase phrase → lead.length ≤ before.length

namespace StandsFirst

variable {phrase lead found behind : Text}

theorem length_found (h : StandsFirst phrase lead found behind) :
    found.length = phrase.length := by
  rw [← length_foldCase, h.isPhrase, length_foldCase]

/-- At the start of a text. -/
theorem of_found (h : foldCase found = foldCase phrase) : StandsFirst phrase [] found behind where
  isPhrase := h
  isFirst := fun _ _ _ _ _ => Nat.zero_le _

/-- One character further on, if the phrase does not start at this one. -/
theorem cons_iff {c : Char} :
    StandsFirst phrase (c :: lead) found behind ↔
      dropPhrase? phrase (c :: (lead ++ (found ++ behind))) = none ∧
        StandsFirst phrase lead found behind := by
  constructor
  · intro h
    refine ⟨?_, h.isPhrase, fun before other after htext hother => ?_⟩
    · rw [Option.eq_none_iff_forall_ne_some]
      intro rest hrest
      obtain ⟨other, htext, hother⟩ := dropPhrase?_eq_some_iff.1 hrest
      exact absurd (h.isFirst [] other rest htext hother) (by simp)
    · have hle := h.isFirst (c :: before) other after (congrArg (c :: ·) htext) hother
      exact Nat.le_of_succ_le_succ hle
  · rintro ⟨hnone, h⟩
    refine ⟨h.isPhrase, fun before other after htext hother => ?_⟩
    cases before with
    | nil =>
      have hsome : dropPhrase? phrase (c :: (lead ++ (found ++ behind))) = some after :=
        dropPhrase?_eq_some_iff.2 ⟨other, htext, hother⟩
      rw [hnone] at hsome
      cases hsome
    | cons b before =>
      obtain ⟨_, htext⟩ := List.cons.inj htext
      exact Nat.succ_le_succ (h.isFirst before other after htext hother)

/-- Of a text there is one first occurrence. -/
theorem unique {lead' found' behind' : Text} (h : StandsFirst phrase lead found behind)
    (h' : StandsFirst phrase lead' found' behind')
    (htext : lead ++ (found ++ behind) = lead' ++ (found' ++ behind')) :
    lead = lead' ∧ found = found' ∧ behind = behind' := by
  -- neither stands before the other, and both are as long as the phrase
  have hle := h.isFirst lead' found' behind' htext h'.isPhrase
  have hge := h'.isFirst lead found behind htext.symm h.isPhrase
  obtain ⟨hlead, hrest⟩ := List.append_inj htext (Nat.le_antisymm hle hge)
  have hfound : found.length = found'.length := h.length_found.trans h'.length_found.symm
  obtain ⟨hfound, hbehind⟩ := List.append_inj hrest hfound
  exact ⟨hlead, hfound, hbehind⟩

end StandsFirst

/-- **What the search for a phrase finds.** -/
theorem afterPhrase?_eq_some_iff {phrase s behind : Text} (hne : phrase ≠ []) :
    afterPhrase? phrase s = some behind ↔
      ∃ lead found, s = lead ++ (found ++ behind) ∧ StandsFirst phrase lead found behind := by
  constructor
  · intro h
    induction s with
    | nil => cases h
    | cons c r ih =>
      rw [afterPhrase?] at h
      split at h
      · next rest hd =>
        obtain rfl := Option.some.inj h
        obtain ⟨found, hs, hfound⟩ := dropPhrase?_eq_some_iff.1 hd
        exact ⟨[], found, hs, .of_found hfound⟩
      · next hd =>
        obtain ⟨lead, found, rfl, hfirst⟩ := ih h
        exact ⟨c :: lead, found, rfl, StandsFirst.cons_iff.2 ⟨hd, hfirst⟩⟩
  · rintro ⟨lead, found, rfl, h⟩
    induction lead with
    | nil =>
      have hfound : found ≠ [] := by
        rintro rfl
        exact hne (List.length_eq_zero_iff.1 h.length_found.symm)
      exact afterPhrase?_of_dropPhrase? (by simp [hfound])
        (dropPhrase?_eq_some_iff.2 ⟨found, rfl, h.isPhrase⟩)
    | cons c lead ih =>
      obtain ⟨hd, hlead⟩ := StandsFirst.cons_iff.1 h
      rw [List.cons_append, afterPhrase?, hd]
      exact ih hlead

/-! ### The text in front of a body -/

/-- `s` starts with `keyword`, in some letter case, and blanks; `rest` is what
    follows them. -/
structure StartsWithKeyword (keyword s rest : Text) : Prop where
  split : ∃ word gap, s = word ++ (gap ++ rest) ∧ foldCase word = foldCase keyword ∧
    gap ≠ [] ∧ isBlankText gap = true
  noBlank : ∀ c ∈ rest.head?, isBlank c = false

/-- **What a keyword is** in the text in front of a body. -/
theorem dropKeyword?_eq_some_iff {keyword s rest : Text} :
    dropKeyword? keyword s = some rest ↔ StartsWithKeyword keyword s rest := by
  constructor
  · intro h
    rw [dropKeyword?] at h
    split at h
    · next c r hphrase =>
      obtain ⟨word, rfl, hword⟩ := dropPhrase?_eq_some_iff.1 hphrase
      split at h
      · next hc =>
        obtain rfl := Option.some.inj h
        -- the blank that must follow the word belongs to the gap
        have hgap : isBlankText (c :: r.takeWhile isBlank) = true := by
          rw [isBlankText, List.all_cons, hc, Bool.true_and]
          exact Text.isBlankText_takeWhile r
        refine ⟨⟨word, c :: r.takeWhile isBlank, ?_, hword, List.cons_ne_nil _ _, hgap⟩,
          Text.head?_trimStart r⟩
        rw [List.cons_append, Text.takeWhile_append_trimStart]
      · cases h
    · cases h
  · rintro ⟨⟨word, gap, rfl, hword, hgap, hblank⟩, hrest⟩
    have hphrase : dropPhrase? keyword (word ++ (gap ++ rest)) = some (gap ++ rest) :=
      dropPhrase?_eq_some_iff.2 ⟨word, rfl, hword⟩
    cases gap with
    | nil => exact absurd rfl hgap
    | cons c gap =>
      rw [isBlankText, List.all_cons, Bool.and_eq_true] at hblank
      obtain ⟨hc, hgap⟩ := hblank
      have htrim : trimStart (gap ++ rest) = rest :=
        (List.dropWhile_append_of_pos (List.all_eq_true.1 hgap)).trans
          (Text.trimStart_eq_self hrest)
      rw [dropKeyword?, hphrase]
      simp only [List.cons_append, hc, if_true, htrim]

/-- `head` starts with the words IF NOT EXISTS, and `name` is what follows. -/
def IsConditional (head name : Text) : Prop :=
  ∃ afterIf afterNot, StartsWithKeyword "if" head afterIf ∧
    StartsWithKeyword "not" afterIf afterNot ∧ StartsWithKeyword "exists" afterNot name

/-- `name` is the part of `head` that writes a name: what follows the words
    IF NOT EXISTS, or all of it if it does not start with them. -/
def IsNamePart (head name : Text) : Prop :=
  IsConditional head name ∨ name = head ∧ ∀ other, ¬ IsConditional head other

/-- **What is dropped** from the text in front of a body: IF NOT EXISTS as a
    whole, or nothing. -/
theorem dropIfNotExists_eq_iff {head name : Text} :
    dropIfNotExists head = name ↔ IsNamePart head name := by
  -- the three words in a row are found, each by its own law
  have hread : ∀ other, ((dropKeyword? "if" head).bind fun rest =>
      (dropKeyword? "not" rest).bind (dropKeyword? "exists")) = some other ↔
        IsConditional head other := by
    intro other
    simp only [Option.bind_eq_some_iff, dropKeyword?_eq_some_iff, IsConditional,
      exists_and_left]
  rw [dropIfNotExists]
  split
  · next rest h =>
    have hrest := (hread rest).1 h
    constructor
    · rintro rfl
      exact Or.inl hrest
    · rintro (hname | ⟨-, hnone⟩)
      · rw [(hread name).2 hname] at h
        exact (Option.some.inj h).symm
      · exact absurd hrest (hnone rest)
  · next h =>
    have hnone : ∀ other, ¬ IsConditional head other := by
      intro other hother
      rw [(hread other).2 hother] at h
      cases h
    constructor
    · rintro rfl
      exact Or.inr ⟨rfl, hnone⟩
    · rintro (hname | ⟨rfl, -⟩)
      · exact absurd hname (hnone name)
      · rfl

/-! ### The grammar -/

/-- A text is balanced when no prefix of it holds more closing parentheses than
    opening ones, and the whole holds as many of the one as of the other. -/
structure Balanced (s : Text) : Prop where
  never_below : StaysInside 0 s
  level : s.count '(' = s.count ')'

/-- A statement with the text in front of it. -/
structure Passage where
  /-- the text between the statement before and this one -/
  lead : Text
  /-- the words CREATE TABLE -/
  phrase : Text
  /-- the text between these words and the opening parenthesis -/
  head : Text
  body : Text

namespace Passage

def text (p : Passage) : Text :=
  p.lead ++ (p.phrase ++ (p.head ++ '(' :: (p.body ++ [')'])))

/-- The statement of the passage. -/
def statement (p : Passage) : Statement where
  name := bareName (dropIfNotExists (trim p.head))
  body := p.body

/-- `p` declares the table of `s`, with the body of `s`: its name is written
    between CREATE TABLE and the body, behind IF NOT EXISTS or without it. -/
structure Declares (p : Passage) (s : Statement) : Prop where
  name : ∃ written, IsNamePart (trim p.head) written ∧ s.name = bareName written
  body : s.body = p.body

/-- **A passage declares its statement**, and no other. -/
theorem declares_iff {p : Passage} {s : Statement} : p.Declares s ↔ s = p.statement := by
  constructor
  · rintro ⟨⟨written, hwritten, hname⟩, hbody⟩
    rw [← dropIfNotExists_eq_iff.2 hwritten] at hname
    cases s
    simp only at hname hbody
    rw [hname, hbody, statement]
  · rintro rfl
    exact ⟨⟨dropIfNotExists (trim p.head), dropIfNotExists_eq_iff.1 rfl, by rw [statement]⟩, rfl⟩

theorem forall₂_declares_iff {ps : List Passage} {ss : List Statement} :
    List.Forall₂ Declares ps ss ↔ ss = ps.map statement := by
  have hsame : ∀ p s, Declares p s ↔ p.statement = id s := fun _ _ => declares_iff.trans eq_comm
  rw [forall₂_iff_map_eq_map hsame, List.map_id, eq_comm]

/-- A passage that `rest` follows. -/
structure Proper (p : Passage) (rest : Text) : Prop where
  phrase : StandsFirst "create table" p.lead p.phrase (p.head ++ '(' :: (p.body ++ ')' :: rest))
  head : '(' ∉ p.head
  body : Balanced p.body

theorem text_append (p : Passage) (rest : Text) :
    p.text ++ rest = p.lead ++ (p.phrase ++ (p.head ++ '(' :: (p.body ++ ')' :: rest))) := by
  simp [text]

end Passage

/-- Texts without a complete statement. -/
inductive Ends : Text → Prop
  | noPhrase {s} (h : ¬ ("create table" : Text) <:+: foldCase s) : Ends s
  | noBody {lead phrase behind} (hphrase : StandsFirst "create table" lead phrase behind)
      (hopen : '(' ∉ behind) : Ends (lead ++ (phrase ++ behind))
  | neverClosed {lead phrase head inside}
      (hphrase : StandsFirst "create table" lead phrase (head ++ '(' :: inside))
      (hhead : '(' ∉ head) (hinside : StaysInside 0 inside) :
      Ends (lead ++ (phrase ++ (head ++ '(' :: inside)))

/-- A text that reads as some passages and a tail without a statement. -/
inductive Reads : Text → List Passage → Prop
  | tail {s} (h : Ends s) : Reads s []
  | passage {p rest ps} (h : p.Proper rest) (hrest : Reads rest ps) : Reads (p.text ++ rest) (p :: ps)

/-! ### One step of the search -/

/-- A passage at the front of a text is what the search finds. -/
theorem nextStatement?_of_proper {p : Passage} {rest : Text} (h : p.Proper rest) :
    nextStatement? (p.text ++ rest) = some (p.statement, rest) := by
  have hphrase : afterPhrase? "create table" (p.text ++ rest) =
      some (p.head ++ '(' :: (p.body ++ ')' :: rest)) :=
    (afterPhrase?_eq_some_iff (by decide)).2 ⟨p.lead, p.phrase, p.text_append rest, h.phrase⟩
  have hcut : cut? '(' (p.head ++ '(' :: (p.body ++ ')' :: rest)) =
      some (p.head, p.body ++ ')' :: rest) := cut?_eq_some_iff.2 ⟨rfl, h.head⟩
  have hclose : closeGroup? 0 (p.body ++ ')' :: rest) = some (p.body, rest) :=
    closeGroup?_of_staysInside h.body.never_below h.body.level.symm rest
  rw [nextStatement?, hphrase]
  simp only [hcut, hclose, Option.map_some]
  rfl

/-- **What the search finds** is the passage at the front of the text. -/
theorem nextStatement?_eq_some_iff {s rest : Text} {st : Statement} :
    nextStatement? s = some (st, rest) ↔
      ∃ p : Passage, p.Proper rest ∧ s = p.text ++ rest ∧ st = p.statement := by
  constructor
  · intro h
    rw [nextStatement?] at h
    split at h
    · cases h
    · next afterHead hphrase =>
      split at h
      · cases h
      · next head afterOpen hcut =>
        obtain ⟨⟨body, rest'⟩, hclose, he⟩ := Option.map_eq_some_iff.1 h
        obtain ⟨rfl, rfl⟩ := Prod.mk.inj he
        obtain ⟨rfl, hinside, hlevel⟩ := closeGroup?_eq_some_iff.1 hclose
        obtain ⟨rfl, hhead⟩ := cut?_eq_some_iff.1 hcut
        obtain ⟨lead, phrase, rfl, hfirst⟩ := (afterPhrase?_eq_some_iff (by decide)).1 hphrase
        refine ⟨⟨lead, phrase, head, body⟩, ⟨hfirst, hhead, hinside, hlevel.symm⟩, ?_, rfl⟩
        rw [Passage.text_append]
  · rintro ⟨p, hp, rfl, rfl⟩
    exact nextStatement?_of_proper hp

/-- **Where the search finds nothing** the text ends without a statement. -/
theorem nextStatement?_eq_none_iff {s : Text} : nextStatement? s = none ↔ Ends s := by
  constructor
  · intro h
    rw [nextStatement?] at h
    split at h
    · next hphrase => exact .noPhrase ((afterPhrase?_eq_none_iff (by decide)).1 hphrase)
    · next behind hphrase =>
      obtain ⟨lead, phrase, rfl, hfirst⟩ := (afterPhrase?_eq_some_iff (by decide)).1 hphrase
      split at h
      · next hcut => exact .noBody hfirst (cut?_eq_none_iff.1 hcut)
      · next head inside hcut =>
        obtain ⟨rfl, hhead⟩ := cut?_eq_some_iff.1 hcut
        exact .neverClosed hfirst hhead (closeGroup?_eq_none_iff.1 (Option.map_eq_none_iff.1 h))
  · -- the search stops at the first of its three steps that finds nothing
    have hfound : ∀ {lead phrase behind : Text}, StandsFirst "create table" lead phrase behind →
        afterPhrase? "create table" (lead ++ (phrase ++ behind)) = some behind := fun hfirst =>
      (afterPhrase?_eq_some_iff (by decide)).2 ⟨_, _, rfl, hfirst⟩
    intro h
    cases h with
    | noPhrase hnone =>
      have hphrase : afterPhrase? "create table" s = none :=
        (afterPhrase?_eq_none_iff (by decide)).2 hnone
      rw [nextStatement?, hphrase]
    | noBody hfirst hopen =>
      rw [nextStatement?, hfound hfirst]
      simp only [cut?_eq_none_iff.2 hopen]
    | neverClosed hfirst hhead hinside =>
      rw [nextStatement?, hfound hfirst]
      simp only [cut?_eq_some_iff.2 ⟨rfl, hhead⟩, closeGroup?_eq_none_iff.2 hinside,
        Option.map_none]

/-! ### The whole search -/

/-- A passage at the front of a text is there in one way only. -/
theorem Passage.Proper.unique {p q : Passage} {rest rest' : Text} (hp : p.Proper rest)
    (hq : q.Proper rest') (htext : p.text ++ rest = q.text ++ rest') : p = q ∧ rest = rest' := by
  -- the search finds both, so they have one body and one rest; the remaining
  -- parts are then told by the first occurrence of the phrase
  have hnext := nextStatement?_of_proper hp
  rw [htext, nextStatement?_of_proper hq] at hnext
  obtain ⟨hstatement, rfl⟩ := Prod.mk.inj (Option.some.inj hnext)
  have hbody : q.body = p.body := congrArg Statement.body hstatement
  rw [p.text_append, q.text_append] at htext
  obtain ⟨hlead, hphrase, hbehind⟩ := hp.phrase.unique hq.phrase htext
  have hhead : p.head = q.head := by
    rw [hbody] at hbehind
    exact List.append_cancel_right hbehind
  refine ⟨?_, rfl⟩
  cases p
  cases q
  simp_all

/-- Every text reads in some way. -/
theorem exists_reads (s : Text) : ∃ passages, Reads s passages := by
  fun_induction statements s with
  | case1 s hnone => exact ⟨[], .tail (nextStatement?_eq_none_iff.1 hnone)⟩
  | case2 s st rest hnext hname ih =>
    obtain ⟨p, hp, rfl, rfl⟩ := nextStatement?_eq_some_iff.1 hnext
    obtain ⟨ps, hps⟩ := ih
    exact ⟨p :: ps, .passage hp hps⟩
  | case3 s st rest hnext hname ih =>
    obtain ⟨p, hp, rfl, rfl⟩ := nextStatement?_eq_some_iff.1 hnext
    obtain ⟨ps, hps⟩ := ih
    exact ⟨p :: ps, .passage hp hps⟩

/-- The statements of a text are those of its passages that have a name. -/
theorem statements_of_reads {s : Text} {passages : List Passage} (h : Reads s passages) :
    statements s = (passages.map Passage.statement).filter (·.name ≠ []) := by
  induction h with
  | tail hends => exact statements_of_none (nextStatement?_eq_none_iff.2 hends)
  | @passage p rest ps hp _ ih =>
    rw [statements_of_some (nextStatement?_of_proper hp), ih, List.map_cons]
    split
    · next hname => rw [List.filter_cons_of_neg (by simpa using hname)]
    · next hname => rw [List.filter_cons_of_pos (by simpa using hname)]

/-- And no text reads in two ways. -/
theorem Reads.unique {s : Text} {ps qs : List Passage} (hp : Reads s ps) (hq : Reads s qs) :
    ps = qs := by
  induction hp generalizing qs with
  | tail hends =>
    cases hq with
    | tail => rfl
    | passage hproper =>
      -- where the search finds nothing there is no passage
      have hnone := nextStatement?_eq_none_iff.2 hends
      rw [nextStatement?_of_proper hproper] at hnone
      cases hnone
  | @passage p rest ps hproper _ ih =>
    generalize htext : p.text ++ rest = s at hq
    cases hq with
    | tail hends =>
      have hnone := nextStatement?_eq_none_iff.2 hends
      rw [← htext, nextStatement?_of_proper hproper] at hnone
      cases hnone
    | passage hproper' hrest' =>
      obtain ⟨rfl, rfl⟩ := hproper.unique hproper' htext
      rw [ih hrest']

/-- **The statements of a script** are read off the text that is left when its
    comments are removed: this text is a row of passages and a tail, in one way
    only, and the statements are what the passages declare, in order, without
    those that have no name. -/
theorem scriptStatements_reads (script : Text) :
    ∃ passages declared, Reads (stripComments script) passages ∧
      List.Forall₂ Passage.Declares passages declared ∧
      scriptStatements script = declared.filter (·.name ≠ []) ∧
      ∀ passages' declared', Reads (stripComments script) passages' →
        List.Forall₂ Passage.Declares passages' declared' →
        passages' = passages ∧ declared' = declared := by
  obtain ⟨passages, h⟩ := exists_reads (stripComments script)
  refine ⟨passages, passages.map Passage.statement, h, Passage.forall₂_declares_iff.2 rfl,
    statements_of_reads h, fun passages' declared' hreads hdeclares => ?_⟩
  obtain rfl := hreads.unique h
  exact ⟨rfl, Passage.forall₂_declares_iff.1 hdeclares⟩

end SchemaDiagram.Ddl
