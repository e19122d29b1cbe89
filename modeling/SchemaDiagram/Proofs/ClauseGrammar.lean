import SchemaDiagram.Ddl.Definition
import SchemaDiagram.Proofs.StatementGrammar

/-! # ClauseGrammar — what the small readers accept

    The readers of names, groups and references go through lexemes one after
    the other.  Each of them accepts just the lists that a relation describes
    without such a walk.

      * `outline`                          — the parentheses among tokens
      * `IsGroup`, `group?_eq_some_iff`    — a group in parentheses
      * `Lexeme.WritesName`,
        `identifier?_eq_some_iff`          — a name
      * `IsReference`,
        `reference?_eq_some_iff`           — a table and its columns
      * `IsFirstReference`,
        `firstReference?_eq_some_iff`,
        `firstReference?_eq_none_iff`      — the first REFERENCES that can be read
      * `declaresPrimaryKey_iff`           — the words PRIMARY KEY -/

namespace SchemaDiagram.Ddl

/-! ### Groups -/

/-- The parenthesis that a token is, as a text. -/
def Token.outline : Token → Text
  | .openParen => ['(']
  | .closeParen => [')']
  | _ => []

/-- The parentheses among some tokens, in order. -/
def outline (ts : List Token) : Text := ts.flatMap Token.outline

@[simp] theorem outline_nil : outline [] = [] := rfl

@[simp] theorem outline_cons (t : Token) (ts : List Token) :
    outline (t :: ts) = t.outline ++ outline ts := rfl

@[simp] theorem outline_append (ts us : List Token) :
    outline (ts ++ us) = outline ts ++ outline us := List.flatMap_append

/-- The parentheses among some lexemes. -/
def parens (ls : List Lexeme) : Text := outline (ls.map (·.token))

/-- `s`, with `depth` parentheses open before it, closes all of these and no
    more than these at any point. -/
structure Closes (depth : Nat) (s : Text) : Prop where
  never_below : StaysInside depth s
  level : s.count ')' = s.count '(' + depth

theorem balanced_iff_closes {s : Text} : Balanced s ↔ Closes 0 s :=
  ⟨fun h => ⟨h.never_below, h.level.symm⟩, fun h => ⟨h.never_below, h.level.symm⟩⟩

theorem closes_nil_iff {depth : Nat} : Closes depth [] ↔ depth = 0 := by
  constructor
  · intro h
    simpa using h.level.symm
  · rintro rfl
    exact ⟨staysInside_nil 0, rfl⟩

theorem closes_open {depth : Nat} {s : Text} : Closes depth ('(' :: s) ↔ Closes (depth + 1) s := by
  have hlevel : ('(' :: s).count ')' = ('(' :: s).count '(' + depth ↔
      s.count ')' = s.count '(' + (depth + 1) := by
    rw [List.count_cons_self, List.count_cons_of_ne (by decide)]
    omega
  exact ⟨fun h => ⟨staysInside_open.1 h.1, hlevel.1 h.2⟩,
    fun h => ⟨staysInside_open.2 h.1, hlevel.2 h.2⟩⟩

theorem closes_close {depth : Nat} {s : Text} : Closes (depth + 1) (')' :: s) ↔ Closes depth s := by
  have hlevel : (')' :: s).count ')' = (')' :: s).count '(' + (depth + 1) ↔
      s.count ')' = s.count '(' + depth := by
    rw [List.count_cons_self, List.count_cons_of_ne (by decide)]
    omega
  exact ⟨fun h => ⟨staysInside_close.1 h.1, hlevel.1 h.2⟩,
    fun h => ⟨staysInside_close.2 h.1, hlevel.2 h.2⟩⟩

theorem not_closes_close {s : Text} : ¬ Closes 0 (')' :: s) := fun h =>
  not_staysInside_close h.never_below

/-- What closes its own parentheses may stand in front. -/
theorem Closes.append {depth : Nat} {s t : Text} (hs : Closes 0 s) (ht : Closes depth t) :
    Closes depth (s ++ t) where
  never_below := by
    rintro p ⟨behind, hp⟩
    rcases List.append_eq_append_iff.1 hp with ⟨r, rfl, -⟩ | ⟨q, rfl, ht'⟩
    · exact Nat.le_add_right_of_le (hs.never_below p (List.prefix_append p r))
    · have hlevel := hs.level
      have hbelow := ht.never_below q ⟨behind, ht'.symm⟩
      rw [List.count_append, List.count_append]
      omega
  level := by
    have hlevel := hs.level
    have hlevel' := ht.level
    rw [List.count_append, List.count_append]
    omega

/-- `ls`, behind `depth + 1` open parentheses, closes the outermost of them
    behind `text`, and `rest` follows. -/
def ClosesGroup (depth : Nat) (ls : List Lexeme) (text : Text) (rest : List Lexeme) : Prop :=
  ∃ inside last, ls = inside ++ last :: rest ∧ last.token = .closeParen ∧
    Closes depth (parens inside) ∧ text = sourceText inside ++ last.gap

/-- The first lexeme closes the group, or it belongs to it. -/
theorem closesGroup_cons_iff {depth : Nat} {l : Lexeme} {ls rest : List Lexeme} {text : Text} :
    ClosesGroup depth (l :: ls) text rest ↔
      (l.token = .closeParen ∧ depth = 0 ∧ text = l.gap ∧ ls = rest) ∨
        ∃ inside last, ls = inside ++ last :: rest ∧ last.token = .closeParen ∧
          Closes depth (l.token.outline ++ parens inside) ∧
          text = l.gap ++ l.source ++ (sourceText inside ++ last.gap) := by
  constructor
  · rintro ⟨inside, last, hls, hlast, hcloses, rfl⟩
    cases inside with
    | nil =>
      obtain ⟨rfl, rfl⟩ := List.cons.inj hls
      exact Or.inl ⟨hlast, closes_nil_iff.1 hcloses, rfl, rfl⟩
    | cons m inside =>
      obtain ⟨rfl, rfl⟩ := List.cons.inj hls
      exact Or.inr ⟨inside, last, rfl, hlast, hcloses, by simp⟩
  · rintro (⟨hclose, rfl, rfl, rfl⟩ | ⟨inside, last, rfl, hlast, hcloses, rfl⟩)
    · exact ⟨[], l, rfl, hclose, closes_nil_iff.2 rfl, rfl⟩
    · exact ⟨l :: inside, last, rfl, hlast, hcloses, by simp⟩

/-- **Where a group is closed.** -/
theorem closeGroupText?_eq_some_iff {depth : Nat} {ls rest : List Lexeme} {text : Text} :
    closeGroupText? depth ls = some (text, rest) ↔ ClosesGroup depth ls text rest := by
  induction ls generalizing depth text with
  | nil =>
    rw [closeGroupText?.eq_1]
    refine iff_of_false (by simp) ?_
    rintro ⟨inside, last, hls, -⟩
    simp at hls
  | cons l ls ih =>
    -- a lexeme that does not close the group is put in front of what the rest gives
    have hkeep : ∀ d, ((closeGroupText? d ls).map fun p => (l.gap ++ l.source ++ p.1, p.2)) =
        some (text, rest) ↔ ∃ inside last, ls = inside ++ last :: rest ∧
          last.token = .closeParen ∧ Closes d (parens inside) ∧
          text = l.gap ++ l.source ++ (sourceText inside ++ last.gap) := by
      intro d
      simp only [Option.map_eq_some_iff, Prod.exists, Prod.mk.injEq]
      constructor
      · rintro ⟨t, _, hls, rfl, rfl⟩
        obtain ⟨inside, last, rfl, hlast, hcloses, rfl⟩ := ih.1 hls
        exact ⟨inside, last, rfl, hlast, hcloses, rfl⟩
      · rintro ⟨inside, last, rfl, hlast, hcloses, rfl⟩
        exact ⟨_, rest, ih.2 ⟨inside, last, rfl, hlast, hcloses, rfl⟩, rfl, rfl⟩
    rw [closesGroup_cons_iff]
    obtain ⟨gap, source, token⟩ := l
    cases token
    case openParen =>
      rw [closeGroupText?.eq_def, hkeep]
      simp [Token.outline, closes_open]
    case closeParen =>
      cases depth with
      | zero => simp [closeGroupText?, Token.outline, not_closes_close, eq_comm]
      | succ depth =>
        rw [closeGroupText?.eq_def, hkeep]
        simp [Token.outline, closes_close]
    all_goals
      rw [closeGroupText?.eq_def, hkeep]
      simp [Token.outline]

/-- `ls` is a group in parentheses with `rest` behind it; `text` is what stands
    between the two parentheses. -/
inductive IsGroup : (ls : List Lexeme) → (text : Text) → (rest : List Lexeme) → Prop
  | intro {first inside last rest} (hopen : first.token = .openParen)
      (hinside : Balanced (parens inside)) (hclose : last.token = .closeParen) :
      IsGroup (first :: (inside ++ last :: rest)) (sourceText inside ++ last.gap) rest

/-- **What a group is.** -/
theorem group?_eq_some_iff {ls rest : List Lexeme} {text : Text} :
    group? ls = some (text, rest) ↔ IsGroup ls text rest := by
  constructor
  · intro h
    cases ls with
    | nil => cases h
    | cons l ls =>
      rw [group?] at h
      split at h
      · next hopen =>
        obtain ⟨inside, last, rfl, hlast, hcloses, rfl⟩ := closeGroupText?_eq_some_iff.1 h
        exact .intro hopen (balanced_iff_closes.2 hcloses) hlast
      · cases h
  · rintro ⟨hopen, hinside, hlast⟩
    rw [group?, if_pos hopen]
    exact closeGroupText?_eq_some_iff.2
      ⟨_, _, rfl, hlast, balanced_iff_closes.1 hinside, rfl⟩

theorem atOpenParen_of_isGroup {ls rest : List Lexeme} {text : Text} (h : IsGroup ls text rest) :
    atOpenParen ls = true := by
  cases h with
  | intro hopen _ _ => rw [atOpenParen, hopen]; rfl

theorem identifiers?_eq_some_iff {ls rest : List Lexeme} {names : List Text} :
    identifiers? ls = some (names, rest) ↔
      ∃ text, IsGroup ls text rest ∧ identifierList text = names := by
  simp only [identifiers?, Option.map_eq_some_iff, Prod.exists, Prod.mk.injEq, group?_eq_some_iff]
  constructor
  · rintro ⟨text, _, hgroup, hnames, rfl⟩
    exact ⟨text, hgroup, hnames⟩
  · rintro ⟨text, hgroup, hnames⟩
    exact ⟨text, rest, hgroup, hnames, rfl⟩

/-! ### Names -/

/-- A lexeme that is `name`, bare or quoted. -/
inductive Lexeme.WritesName (l : Lexeme) (name : Text) : Prop
  | bare (h : l.token = .word name)
  | quoted (h : l.token = .quotedName name)

theorem identifier?_eq_some_iff {ls rest : List Lexeme} {name : Text} :
    identifier? ls = some (name, rest) ↔ ∃ l : Lexeme, ls = l :: rest ∧ l.WritesName name := by
  constructor
  · intro h
    cases ls with
    | nil => cases h
    | cons l ls =>
      rw [identifier?] at h
      split at h
      · next w htoken =>
        obtain ⟨rfl, rfl⟩ := Prod.mk.inj (Option.some.inj h)
        exact ⟨l, rfl, .bare htoken⟩
      · next w htoken =>
        obtain ⟨rfl, rfl⟩ := Prod.mk.inj (Option.some.inj h)
        exact ⟨l, rfl, .quoted htoken⟩
      · cases h
  · rintro ⟨l, rfl, hname⟩
    cases hname with
    | bare htoken => rw [identifier?, htoken]
    | quoted htoken => rw [identifier?, htoken]

/-! ### References -/

/-- `ls` starts with the name of `table`, which may be qualified, and a group
    of the names `columns`. -/
inductive IsReference : (ls : List Lexeme) → (table : Text) → (columns : List Text) → Prop
  | plain {l ls name text rest} (hname : Lexeme.WritesName l name) (hgroup : IsGroup ls text rest) :
      IsReference (l :: ls) (bareName name) (identifierList text)
  | qualified {q dot l ls qualifier name text rest} (hqualifier : Lexeme.WritesName q qualifier)
      (hdot : dot.token = .dot) (hname : Lexeme.WritesName l name) (hgroup : IsGroup ls text rest) :
      IsReference (q :: dot :: l :: ls) (bareName name) (identifierList text)

/-- **What REFERENCES may be followed by.** -/
theorem reference?_eq_some_iff {ls : List Lexeme} {table : Text} {columns : List Text} :
    reference? ls = some (table, columns) ↔ IsReference ls table columns := by
  -- behind the name of the table
  have hcolumns : ∀ (name : Text) (ls : List Lexeme),
      ((identifiers? ls).bind fun p => some (bareName name, p.1)) = some (table, columns) ↔
        ∃ text rest, IsGroup ls text rest ∧ bareName name = table ∧ identifierList text = columns := by
    intro name ls
    simp only [Option.bind_eq_some_iff, Prod.exists, Option.some.injEq, Prod.mk.injEq,
      identifiers?_eq_some_iff]
    constructor
    · rintro ⟨_, rest, ⟨text, hgroup, rfl⟩, htable, rfl⟩
      exact ⟨text, rest, hgroup, htable, rfl⟩
    · rintro ⟨text, rest, hgroup, htable, rfl⟩
      exact ⟨_, rest, ⟨text, hgroup, rfl⟩, htable, rfl⟩
  constructor
  · intro h
    obtain ⟨⟨first, ls₁⟩, hfirst, hrest⟩ := Option.bind_eq_some_iff.1 h
    obtain ⟨l, rfl, hl⟩ := identifier?_eq_some_iff.1 hfirst
    cases ls₁ with
    | nil =>
      obtain ⟨text, rest, hgroup, -⟩ := (hcolumns first []).1 hrest
      cases hgroup
    | cons m ms =>
      dsimp only at hrest
      split at hrest
      · next hdot =>
        obtain ⟨⟨name, ls₂⟩, hname, hbehind⟩ := Option.bind_eq_some_iff.1 hrest
        obtain ⟨l', rfl, hl'⟩ := identifier?_eq_some_iff.1 hname
        obtain ⟨text, rest, hgroup, rfl, rfl⟩ := (hcolumns name ls₂).1 hbehind
        exact .qualified hl hdot hl' hgroup
      · obtain ⟨text, rest, hgroup, rfl, rfl⟩ := (hcolumns first (m :: ms)).1 hrest
        exact .plain hl hgroup
  · intro h
    cases h with
    | plain hname hgroup =>
      obtain ⟨hopen, hinside, hclose⟩ := hgroup
      refine Option.bind_eq_some_iff.2
        ⟨_, identifier?_eq_some_iff.2 ⟨_, rfl, hname⟩, ?_⟩
      dsimp only
      rw [if_neg (by rw [hopen]; decide)]
      exact (hcolumns _ _).2 ⟨_, _, .intro hopen hinside hclose, rfl, rfl⟩
    | qualified hqualifier hdot hname hgroup =>
      refine Option.bind_eq_some_iff.2
        ⟨_, identifier?_eq_some_iff.2 ⟨_, rfl, hqualifier⟩, ?_⟩
      dsimp only
      rw [if_pos hdot]
      refine Option.bind_eq_some_iff.2 ⟨_, identifier?_eq_some_iff.2 ⟨_, rfl, hname⟩, ?_⟩
      exact (hcolumns _ _).2 ⟨_, _, hgroup, rfl, rfl⟩

/-- In `ls`, a REFERENCES is followed by a table and its columns, and none
    before it is. -/
def IsFirstReference (ls : List Lexeme) (table : Text) (columns : List Text) : Prop :=
  ∃ before l after, ls = before ++ l :: after ∧ l.isWord "REFERENCES" = true ∧
    IsReference after table columns ∧
    ∀ b m a, before = b ++ m :: a → m.isWord "REFERENCES" = true →
      ∀ t cs, ¬ IsReference (a ++ l :: after) t cs

/-- In `ls`, no REFERENCES is followed by a table and its columns. -/
def HasNoReference (ls : List Lexeme) : Prop :=
  ∀ before l after, ls = before ++ l :: after → l.isWord "REFERENCES" = true →
    ∀ t cs, ¬ IsReference after t cs

/-- The first lexeme starts no reference. -/
def StartsNoReference (l : Lexeme) (ls : List Lexeme) : Prop :=
  l.isWord "REFERENCES" = true → ∀ t cs, ¬ IsReference ls t cs

theorem hasNoReference_cons_iff {l : Lexeme} {ls : List Lexeme} :
    HasNoReference (l :: ls) ↔ StartsNoReference l ls ∧ HasNoReference ls := by
  constructor
  · intro h
    exact ⟨h [] l ls rfl, fun before m after hls => h (l :: before) m after (by rw [hls]; rfl)⟩
  · rintro ⟨hfirst, hrest⟩ before m after hls
    cases before with
    | nil =>
      obtain ⟨rfl, rfl⟩ := List.cons.inj hls
      exact hfirst
    | cons b before => exact hrest before m after (List.cons.inj hls).2

theorem isFirstReference_cons_iff {l : Lexeme} {ls : List Lexeme} {table : Text}
    {columns : List Text} :
    IsFirstReference (l :: ls) table columns ↔
      l.isWord "REFERENCES" = true ∧ IsReference ls table columns ∨
        StartsNoReference l ls ∧ IsFirstReference ls table columns := by
  constructor
  · rintro ⟨before, m, after, hls, hword, href, hfirst⟩
    cases before with
    | nil =>
      obtain ⟨rfl, rfl⟩ := List.cons.inj hls
      exact Or.inl ⟨hword, href⟩
    | cons b before =>
      obtain ⟨rfl, rfl⟩ := List.cons.inj hls
      refine Or.inr ⟨hfirst [] l before rfl, before, m, after, rfl, hword, href, ?_⟩
      exact fun b m a hbefore => hfirst (l :: b) m a (by rw [hbefore]; rfl)
  · rintro (⟨hword, href⟩ | ⟨hnone, before, m, after, rfl, hword, href, hfirst⟩)
    · exact ⟨[], l, ls, rfl, hword, href, fun b m a hbefore => by simp at hbefore⟩
    · refine ⟨l :: before, m, after, rfl, hword, href, fun b n a hbefore => ?_⟩
      cases b with
      | nil =>
        obtain ⟨rfl, rfl⟩ := List.cons.inj hbefore
        exact hnone
      | cons _ b => exact hfirst b n a (List.cons.inj hbefore).2

theorem reference?_eq_none_iff {ls : List Lexeme} :
    reference? ls = none ↔ ∀ t cs, ¬ IsReference ls t cs := by
  rw [Option.eq_none_iff_forall_ne_some, Prod.forall]
  exact forall₂_congr fun t cs => not_congr reference?_eq_some_iff

/-- **What a definition refers to.** -/
theorem firstReference?_eq_some_iff {ls : List Lexeme} {table : Text} {columns : List Text} :
    firstReference? ls = some (table, columns) ↔ IsFirstReference ls table columns := by
  induction ls with
  | nil => simp [firstReference?, IsFirstReference]
  | cons l ls ih =>
    rw [isFirstReference_cons_iff, firstReference?]
    split
    · next hword =>
      rw [Option.or_eq_some_iff, reference?_eq_some_iff, reference?_eq_none_iff, ih]
      simp only [StartsNoReference, hword, true_and, true_implies]
    · next hword =>
      rw [ih]
      simp only [StartsNoReference, hword, Bool.false_eq_true, false_and, false_implies, true_and,
        false_or]

/-- **When it refers to nothing.** -/
theorem firstReference?_eq_none_iff {ls : List Lexeme} :
    firstReference? ls = none ↔ HasNoReference ls := by
  induction ls with
  | nil => simp [firstReference?, HasNoReference]
  | cons l ls ih =>
    rw [hasNoReference_cons_iff, firstReference?]
    split
    · next hword =>
      rw [Option.or_eq_none_iff, reference?_eq_none_iff, ih]
      simp only [StartsNoReference, hword, true_implies]
    · next hword =>
      rw [ih]
      simp only [StartsNoReference, hword, Bool.false_eq_true, false_implies, true_and]

/-! ### The words PRIMARY KEY -/

/-- **Where a column is the primary key**: somewhere PRIMARY has KEY right
    behind it. -/
theorem declaresPrimaryKey_iff {ls : List Lexeme} :
    declaresPrimaryKey ls = true ↔
      ∃ l m, [l, m] <:+: ls ∧ l.isWord "PRIMARY" = true ∧ m.isWord "KEY" = true := by
  induction ls with
  | nil => simp [declaresPrimaryKey]
  | cons l ls ih =>
    rw [declaresPrimaryKey, Bool.or_eq_true, ih]
    have hstart : atPrimaryKey (l :: ls) = true ↔
        ∃ m, m ∈ ls.head? ∧ l.isWord "PRIMARY" = true ∧ m.isWord "KEY" = true := by
      rw [atPrimaryKey, atWords, Bool.and_eq_true]
      cases ls <;> simp [atWord]
    rw [hstart]
    constructor
    · rintro (⟨m, hm, hl, hm'⟩ | ⟨k, m, hin, hk, hm⟩)
      · obtain ⟨r, rfl⟩ := List.head?_eq_some_iff.1 hm
        exact ⟨l, m, (List.prefix_append [l, m] r).isInfix, hl, hm'⟩
      · exact ⟨k, m, List.infix_cons hin, hk, hm⟩
    · rintro ⟨k, m, hin, hk, hm⟩
      rcases List.infix_cons_iff.1 hin with hpre | hin
      · obtain ⟨rfl, hhead⟩ := List.cons_prefix_cons.1 hpre
        exact Or.inl ⟨m, List.singleton_prefix_iff_head?_eq_some.1 hhead, hk, hm⟩
      · exact Or.inr ⟨k, m, hin, hk, hm⟩

end SchemaDiagram.Ddl
