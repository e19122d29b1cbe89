import SchemaDiagram.Ddl.Split
import SchemaDiagram.Ddl.Statement
import SchemaDiagram.Proofs.Comments
import SchemaDiagram.Proofs.Naming

/-! # Fragment — printed texts, as the scans of a script see them

    Three scans go over a script before anything in it is read as a token:
    comments are removed, statements are cut out between parentheses, and
    their bodies are split at commas.  Only the last of them knows quotes.  A
    printed text is made of parts that none of the three can misunderstand.

      * `Fragment`             — free characters, names in backticks, and groups
      * `Uncommented`          — no comment starts in a text
      * `closeGroup?_append_of_fragment`
                               — parentheses are closed where they were opened
      * `Sealed`               — a text is not split, and leaves quotes and
                                 parentheses as it found them
      * `pieces_joined`,
        `splitTopLevel_joined` — a list of such texts is split into them -/

namespace SchemaDiagram.Ddl

open Text (contains_eq_false_iff joined trim Trimmed trim_eq_self trim_blanks_append)

/-! ### Printed texts -/

/-- Characters that are no mark to any scan and cannot be part of one. -/
def isFree (c : Char) : Bool := !isQuote c && !("(),/-#" : Text).contains c

/-- The texts that the printer puts together.  Commas outside parentheses are
    allowed only if the text is `listed`, that is, if it may be a list. -/
inductive Fragment : (listed : Bool) → Text → Prop
  | nil {listed} : Fragment listed []
  | free {listed c} (h : isFree c = true) : Fragment listed [c]
  | comma : Fragment true [',']
  | name {listed name} (h : IsQuotable name) : Fragment listed (quotedName name)
  | group {listed s} (h : Fragment true s) : Fragment listed ('(' :: (s ++ [')']))
  | append {listed s t} (hs : Fragment listed s) (ht : Fragment listed t) : Fragment listed (s ++ t)

namespace Fragment

/-- Where lists are allowed, everything is. -/
theorem toListed {listed : Bool} {s : Text} (h : Fragment listed s) : Fragment true s := by
  induction h with
  | nil => exact nil
  | free hc => exact free hc
  | comma => exact comma
  | name hname => exact name hname
  | group hs _ => exact group hs
  | append _ _ ihs iht => exact append ihs iht

theorem of_free {listed : Bool} {s : Text} (h : s.all isFree = true) : Fragment listed s := by
  induction s with
  | nil => exact nil
  | cons c r ih =>
    rw [List.all_cons, Bool.and_eq_true] at h
    exact append (free h.1) (ih h.2)

theorem joined {listed : Bool} {separator : Text} {parts : List Text}
    (hsep : Fragment listed separator) (hparts : ∀ part ∈ parts, Fragment listed part) :
    Fragment listed (Text.joined separator parts) := by
  induction parts with
  | nil => exact nil
  | cons p ps ih =>
    obtain ⟨hp, hps⟩ := List.forall_mem_cons.1 hparts
    cases ps with
    | nil =>
      rw [Text.joined_singleton]
      exact hp
    | cons q qs =>
      rw [Text.joined_cons_cons]
      exact append (append hp hsep) (ih hps)

end Fragment

theorem ne_of_isFree {c d : Char} (h : isFree c = true) (hd : isFree d = false) : c ≠ d := by
  rintro rfl
  rw [h] at hd
  exact Bool.noConfusion hd

theorem isQuote_of_isFree {c : Char} (h : isFree c = true) : isQuote c = false := by
  rw [isFree, Bool.and_eq_true, Bool.not_eq_true'] at h
  exact h.1

/-- Word characters are free. -/
theorem isFree_of_isWordChar {c : Char} (h : isWordChar c = true) : isFree c = true := by
  have hquote : isQuote c = false := by
    simp only [isQuote, Bool.or_eq_false_iff, beq_eq_false_iff_ne]
    exact ⟨⟨ne_of_isWordChar h (by decide), ne_of_isWordChar h (by decide)⟩,
      ne_of_isWordChar h (by decide)⟩
  have hmark : ("(),/-#" : Text).contains c = false := by
    have hmarks : ("(),/-#" : Text).all (!isWordChar ·) = true := by decide
    rw [Bool.eq_false_iff, Ne, List.contains_iff_mem]
    exact fun hc => ne_of_isWordChar h (by simpa using List.all_eq_true.1 hmarks c hc) rfl
  rw [isFree, hquote, hmark]
  rfl

/-! ### Comments -/

/-- Two characters stand side by side in a text made of two parts only if they
    do so in one of them, or at the seam. -/
theorem not_pair_infix_append {a b : Char} {s t : Text} (hs : ¬ [a, b] <:+: s)
    (ht : ¬ [a, b] <:+: t) (hseam : s.getLast? = some a → t.head? ≠ some b) :
    ¬ [a, b] <:+: s ++ t := by
  intro h
  rcases List.infix_append_iff_ne_nil.1 h with h | h | ⟨l₁, l₂, hne₁, hne₂, hl, hleft, hright⟩
  · exact hs h
  · exact ht h
  · obtain ⟨c, l₁, rfl⟩ := List.exists_cons_of_ne_nil hne₁
    obtain ⟨d, l₂, rfl⟩ := List.exists_cons_of_ne_nil hne₂
    -- the pair lies in neither part, so each of them has one of its characters
    simp only [List.cons_append, List.cons.injEq, List.singleton_eq_append_iff] at hl
    obtain ⟨rfl, hl⟩ := hl
    simp_all [List.singleton_suffix_iff_getLast?_eq_some, List.singleton_prefix_iff_head?_eq_some]

theorem not_pair_infix_singleton {a b c : Char} : ¬ [a, b] <:+: [c] := by
  intro h
  have hlen := h.length_le
  simp at hlen

/-- A pair of other characters than marks stands in a name in backticks only
    if it stands in the name. -/
theorem not_pair_infix_quotedName {a b : Char} {name : Text} (h : ¬ [a, b] <:+: name)
    (ha : a ≠ '\x60') (hb : b ≠ '\x60') : ¬ [a, b] <:+: quotedName name := by
  have hback : ¬ [a, b] <:+: name ++ ['\x60'] := by
    apply not_pair_infix_append h not_pair_infix_singleton
    intro _ hhead
    exact hb (Option.some.inj hhead).symm
  apply not_pair_infix_append (s := ['\x60']) not_pair_infix_singleton hback
  intro hlast
  exact absurd (Option.some.inj hlast).symm ha

/-- No comment starts in `s`, and none that starts with the last character of
    `s` and goes on behind it. -/
structure Uncommented (s : Text) : Prop where
  no_block : ¬ ("/*" : Text) <:+: s
  no_dashes : ¬ ("--" : Text) <:+: s
  no_hash : '#' ∉ s
  last_ne : s.getLast? ≠ some '/' ∧ s.getLast? ≠ some '-'

namespace Uncommented

theorem nil : Uncommented [] where
  no_block := by decide
  no_dashes := by decide
  no_hash := List.not_mem_nil
  last_ne := by decide

theorem singleton {c : Char} (hslash : c ≠ '/') (hdash : c ≠ '-') (hhash : c ≠ '#') :
    Uncommented [c] where
  no_block := not_pair_infix_singleton
  no_dashes := not_pair_infix_singleton
  no_hash := by simpa using hhash.symm
  last_ne := by simp [hslash, hdash]

theorem append {s t : Text} (hs : Uncommented s) (ht : Uncommented t) : Uncommented (s ++ t) := by
  constructor
  case no_block =>
    exact not_pair_infix_append hs.no_block ht.no_block fun hlast => absurd hlast hs.last_ne.1
  case no_dashes =>
    exact not_pair_infix_append hs.no_dashes ht.no_dashes fun hlast => absurd hlast hs.last_ne.2
  case no_hash => simpa using ⟨hs.no_hash, ht.no_hash⟩
  case last_ne =>
    rw [List.getLast?_append]
    cases hlast : t.getLast? with
    | none => exact hs.last_ne
    | some c =>
      have ht' := ht.last_ne
      rw [hlast] at ht'
      exact ht'

/-- A text that holds no character of a comment's marks. -/
theorem of_unmarked {s : Text} (h : s.all (fun c => !("/-#" : Text).contains c) = true) :
    Uncommented s := by
  induction s with
  | nil => exact nil
  | cons c r ih =>
    rw [List.all_cons, Bool.and_eq_true] at h
    have hc : Uncommented [c] := by
      obtain ⟨hslash, hdash, hhash⟩ : c ≠ '/' ∧ c ≠ '-' ∧ c ≠ '#' := by simpa using h.1
      exact singleton hslash hdash hhash
    exact append hc (ih h.2)

theorem quotedName {name : Text} (hblock : ¬ ("/*" : Text) <:+: name)
    (hdashes : ¬ ("--" : Text) <:+: name) (hhash : '#' ∉ name) : Uncommented (quotedName name) where
  no_block := not_pair_infix_quotedName hblock (by decide) (by decide)
  no_dashes := not_pair_infix_quotedName hdashes (by decide) (by decide)
  no_hash := by simp [quotedName_eq, hhash]
  last_ne := by
    rw [getLast?_quotedName]
    decide

end Uncommented

theorem uncommented_of_fragment {listed : Bool} {s : Text} (h : Fragment listed s) :
    Uncommented s := by
  have hsingle : ∀ c, isFree c = true → Uncommented [c] := fun c hc =>
    .singleton (ne_of_isFree hc (by decide)) (ne_of_isFree hc (by decide))
      (ne_of_isFree hc (by decide))
  induction h with
  | nil => exact .nil
  | free hc => exact hsingle _ hc
  | comma => exact .singleton (by decide) (by decide) (by decide)
  | name hname =>
    exact .quotedName (contains_eq_false_iff.1 hname.no_blockComment)
      (contains_eq_false_iff.1 hname.no_lineComment) (not_mem_of_isQuotable hname (by decide))
  | group _ ih =>
    have hopen : Uncommented ['('] := .singleton (by decide) (by decide) (by decide)
    have hclose : Uncommented [')'] := .singleton (by decide) (by decide) (by decide)
    exact hopen.append (ih.append hclose)
  | append _ _ ihs iht => exact ihs.append iht

theorem stripComments_of_uncommented {s : Text} (h : Uncommented s) : stripComments s = s :=
  stripComments_eq_self h.no_block h.no_dashes fun hin => h.no_hash (hin.subset (by simp))

/-- **A printed text holds no comments.** -/
theorem stripComments_of_fragment {listed : Bool} {s : Text} (h : Fragment listed s) :
    stripComments s = s := stripComments_of_uncommented (uncommented_of_fragment h)

/-! ### Parentheses without regard to quotes -/

theorem closeGroup?_append_of_noParen {s : Text} (h : ∀ c ∈ s, c ≠ '(' ∧ c ≠ ')') (depth : Nat)
    (rest : Text) :
    closeGroup? depth (s ++ rest) =
      (closeGroup? depth rest).map fun (inside, after) => (s ++ inside, after) := by
  induction s with
  | nil => simp
  | cons c r ih =>
    obtain ⟨⟨hopen, hclose⟩, hr⟩ := List.forall_mem_cons.1 h
    rw [List.cons_append, closeGroup?.eq_5 depth c _ hopen (fun _ => hclose) (fun _ _ => hclose),
      ih hr, Option.map_map]
    rfl

/-- **Parentheses are closed where they were opened.** The search for the end
    of a group passes over a printed text. -/
theorem closeGroup?_append_of_fragment {listed : Bool} {s : Text} (h : Fragment listed s)
    (depth : Nat) (rest : Text) :
    closeGroup? depth (s ++ rest) =
      (closeGroup? depth rest).map fun (inside, after) => (s ++ inside, after) := by
  induction h generalizing depth rest with
  | nil => simp
  | free hc =>
    refine closeGroup?_append_of_noParen ?_ depth rest
    simpa using ⟨ne_of_isFree hc (by decide), ne_of_isFree hc (by decide)⟩
  | comma => exact closeGroup?_append_of_noParen (by simp) depth rest
  | name hname =>
    refine closeGroup?_append_of_noParen (forall_mem_quotedName.2 ⟨by decide, ?_⟩) depth rest
    intro c hc
    exact ⟨ne_of_mem_of_isQuotable hname hc (by decide),
      ne_of_mem_of_isQuotable hname hc (by decide)⟩
  | group _ ih =>
    -- one level deeper for the opening parenthesis, and back for the closing one
    rw [List.cons_append, List.append_assoc, List.singleton_append, closeGroup?.eq_4, ih,
      closeGroup?.eq_3, Option.map_map, Option.map_map]
    simp [Function.comp_def]
  | append _ _ ihs iht =>
    rw [List.append_assoc, ihs, iht, Option.map_map]
    simp [Function.comp_def]

/-! ### Cuts -/

theorem isCut_iff {delimiter c : Char} {n : Nesting} :
    isCut delimiter n c = true ↔
      c = delimiter ∧ n.atTop = true ∧ isQuote c = false ∧ c ≠ '(' ∧ c ≠ ')' := by
  simp [isCut, and_assoc]

theorem eq_start_of_atTop {n : Nesting} (h : n.atTop = true) : n = .start := by
  obtain ⟨depth, q⟩ := n
  simp only [Nesting.atTop, Bool.and_eq_true, Option.isNone_iff_eq_none, beq_iff_eq] at h
  obtain ⟨rfl, rfl⟩ := h
  rfl

/-- A delimiter does not change where the scan stands. -/
theorem step_of_isCut {delimiter c : Char} {n : Nesting} (h : isCut delimiter n c = true) :
    n.step c = n := by
  obtain ⟨_, htop, hquote, hopen, hclose⟩ := isCut_iff.1 h
  rw [eq_start_of_atTop htop]
  simp [Nesting.start, Nesting.step, Nesting.stepDepth, hquote, hopen, hclose]

/-- A piece that is not cut is the front of the first piece of what it is put
    in front of. -/
theorem pieces_append {delimiter : Char} {n : Nesting} {s : Text}
    (h : pieces delimiter n s = [s]) (t : Text) :
    pieces delimiter n (s ++ t) =
      (s ++ (pieces delimiter (n.run s) t).headD []) :: (pieces delimiter (n.run s) t).tail := by
  induction s generalizing n with
  | nil =>
    obtain ⟨p, ps, hp⟩ := List.exists_cons_of_ne_nil (pieces_ne_nil delimiter n t)
    simp [hp]
  | cons c r ih =>
    rw [pieces] at h
    rw [List.cons_append, pieces]
    split at h
    · cases h
    · next hcut =>
      -- the first character makes no cut, and a cut behind it would give a second piece
      obtain ⟨p, ps, hp⟩ := List.exists_cons_of_ne_nil (pieces_ne_nil delimiter (n.step c) r)
      rw [hp] at h
      have hr : pieces delimiter (n.step c) r = [r] := by
        simp only [List.headD_cons, List.tail_cons, List.cons.injEq, true_and] at h
        rw [hp, h.1, h.2]
      simp [hcut, ih hr]

/-- **The pieces of a list** are the texts between its delimiters, if each of
    them is one piece and all but the last close what they open. -/
theorem pieces_joined {delimiter : Char} (hcut : isCut delimiter .start delimiter = true)
    {ps : List Text} (hne : ps ≠ []) (hwhole : ∀ p ∈ ps, pieces delimiter .start p = [p])
    (hclosed : ∀ p ∈ ps.dropLast, Nesting.start.run p = .start) :
    pieces delimiter .start (joined [delimiter] ps) = ps := by
  induction ps with
  | nil => exact absurd rfl hne
  | cons p ps ih =>
    obtain ⟨hp, hps⟩ := List.forall_mem_cons.1 hwhole
    cases ps with
    | nil => rw [Text.joined_singleton, hp]
    | cons q qs =>
      rw [List.dropLast_cons_of_ne_nil (List.cons_ne_nil q qs)] at hclosed
      obtain ⟨hrun, hclosed⟩ := List.forall_mem_cons.1 hclosed
      have hdelimiter : ∀ t, pieces delimiter .start (delimiter :: t) =
          [] :: pieces delimiter .start t := fun t => by
        rw [pieces, if_pos hcut, step_of_isCut hcut]
      rw [Text.joined_cons_cons, List.append_assoc, pieces_append hp, hrun, List.singleton_append,
        hdelimiter, ih (List.cons_ne_nil q qs) hps hclosed, List.headD_cons, List.tail_cons,
        List.append_nil]

/-! ### Commas -/

/-- `s`, entered outside quotes and inside `depth` parentheses, is left in the
    same way, and no comma cuts it. -/
structure Sealed (depth : Nat) (s : Text) : Prop where
  run_eq : Nesting.run ⟨depth, none⟩ s = ⟨depth, none⟩
  pieces_eq : pieces ',' ⟨depth, none⟩ s = [s]

namespace Sealed

theorem nil (depth : Nat) : Sealed depth [] := ⟨rfl, rfl⟩

theorem append {depth : Nat} {s t : Text} (hs : Sealed depth s) (ht : Sealed depth t) :
    Sealed depth (s ++ t) where
  run_eq := by rw [Nesting.run_append, hs.run_eq, ht.run_eq]
  pieces_eq := by
    rw [pieces_append hs.pieces_eq, hs.run_eq, ht.pieces_eq]
    rfl

/-- A character that is no mark, or a comma inside parentheses. -/
theorem singleton {depth : Nat} {c : Char} (hquote : isQuote c = false) (hopen : c ≠ '(')
    (hclose : c ≠ ')') (hcomma : c ≠ ',' ∨ depth ≠ 0) : Sealed depth [c] where
  run_eq := by simp [Nesting.step, Nesting.stepDepth, hquote, hopen, hclose]
  pieces_eq := by
    have hcut : isCut ',' ⟨depth, none⟩ c = false := by
      rcases hcomma with h | h <;> simp [isCut, Nesting.atTop, h]
    simp [pieces, hcut]

theorem group {depth : Nat} {s : Text} (h : Sealed (depth + 1) s) :
    Sealed depth ('(' :: (s ++ [')'])) where
  run_eq := by
    rw [Nesting.run_cons, Nesting.run_append]
    show Nesting.run (Nesting.run ⟨depth + 1, none⟩ s) [')'] = _
    rw [h.run_eq]
    rfl
  pieces_eq := by
    have hcut : isCut ',' ⟨depth, none⟩ '(' = false := by simp [isCut]
    have hstep : Nesting.step ⟨depth, none⟩ '(' = ⟨depth + 1, none⟩ := rfl
    have hclose : pieces ',' ⟨depth + 1, none⟩ [')'] = [[')']] := by simp [pieces, isCut]
    have hinside : pieces ',' ⟨depth + 1, none⟩ (s ++ [')']) = [s ++ [')']] := by
      rw [pieces_append h.pieces_eq, h.run_eq, hclose]
      rfl
    simp [pieces, hcut, hstep, hinside]

/-- Inside backticks nothing matters until the next of them. -/
theorem in_quotes {depth : Nat} {s : Text} (h : ∀ c ∈ s, c ≠ '\x60' ∧ c ≠ '\\') :
    Nesting.run ⟨depth, some ⟨'\x60', false⟩⟩ (s ++ ['\x60']) = ⟨depth, none⟩ ∧
      pieces ',' ⟨depth, some ⟨'\x60', false⟩⟩ (s ++ ['\x60']) = [s ++ ['\x60']] := by
  induction s with
  | nil => exact ⟨rfl, rfl⟩
  | cons c r ih =>
    obtain ⟨⟨hmark, hescape⟩, hr⟩ := List.forall_mem_cons.1 h
    have hstep : Nesting.step ⟨depth, some ⟨'\x60', false⟩⟩ c = ⟨depth, some ⟨'\x60', false⟩⟩ := by
      simp [Nesting.step, Nesting.stepQuote, hmark, hescape]
    have hcut : isCut ',' ⟨depth, some ⟨'\x60', false⟩⟩ c = false := by
      simp [isCut, Nesting.atTop]
    obtain ⟨hrun, hpieces⟩ := ih hr
    constructor
    · rw [List.cons_append, Nesting.run_cons, hstep, hrun]
    · simp [pieces, hcut, hstep, hpieces]

theorem quotedName {depth : Nat} {name : Text} (h : IsQuotable name) :
    Sealed depth (quotedName name) := by
  have hname : ∀ c ∈ name, c ≠ '\x60' ∧ c ≠ '\\' := fun c hc =>
    ⟨ne_of_mem_of_isQuotable h hc (by decide), ne_of_mem_of_isQuotable h hc (by decide)⟩
  have hstep : Nesting.step ⟨depth, none⟩ '\x60' = ⟨depth, some ⟨'\x60', false⟩⟩ := rfl
  have hcut : isCut ',' ⟨depth, none⟩ '\x60' = false := by simp [isCut, isQuote]
  obtain ⟨hrun, hpieces⟩ := in_quotes hname
  constructor
  · rw [quotedName_eq, Nesting.run_cons, hstep, hrun]
  · simp [quotedName_eq, pieces, hcut, hstep, hpieces]

end Sealed

/-- **A printed text that is no list is one piece.** Inside parentheses the
    same holds of lists. -/
theorem sealed_of_fragment {listed : Bool} {s : Text} (h : Fragment listed s) {depth : Nat}
    (hdepth : listed = true → depth ≠ 0) : Sealed depth s := by
  induction h generalizing depth with
  | nil => exact .nil depth
  | free hc =>
    exact .singleton (isQuote_of_isFree hc) (ne_of_isFree hc (by decide))
      (ne_of_isFree hc (by decide)) (Or.inl (ne_of_isFree hc (by decide)))
  | comma => exact .singleton (by decide) (by decide) (by decide) (Or.inr (hdepth rfl))
  | name hname => exact .quotedName hname
  | group _ ih => exact .group (ih fun _ => Nat.succ_ne_zero depth)
  | append _ _ ihs iht => exact (ihs hdepth).append (iht hdepth)

/-- One more item in front of a list is one more piece. -/
theorem map_trim_pieces_comma {item rest : Text} (h : Sealed 0 item) (htrim : Trimmed item) :
    (pieces ',' .start (item ++ ", " ++ rest)).map trim =
      item :: (pieces ',' .start rest).map trim := by
  have hrun : Nesting.start.run item = .start := h.run_eq
  have hitem : pieces ',' .start item = [item] := h.pieces_eq
  have hcut : pieces ',' .start (", " ++ rest) = [] :: pieces ',' .start (' ' :: rest) := rfl
  have hblank : (pieces ',' .start (' ' :: rest)).map trim = (pieces ',' .start rest).map trim := by
    obtain ⟨p, ps, hp⟩ := List.exists_cons_of_ne_nil (pieces_ne_nil ',' .start rest)
    have hcons : pieces ',' .start (' ' :: rest) = (' ' :: p) :: ps := by
      show (' ' :: (pieces ',' .start rest).headD []) :: (pieces ',' .start rest).tail = _
      rw [hp]
      rfl
    have hspace : trim (' ' :: p) = trim p := trim_blanks_append (b := [' ']) p (by decide)
    rw [hcons, hp, List.map_cons, List.map_cons, hspace]
  -- the comma ends the item, and the space is trimmed off the next one
  rw [List.append_assoc, pieces_append hitem, hrun, hcut, List.headD_cons, List.tail_cons,
    List.append_nil, List.map_cons, hblank, trim_eq_self htrim]

/-- **A list is split into its items**, if each of them is one piece and has no
    blanks around it. -/
theorem splitTopLevel_joined {items : List Text}
    (h : ∀ item ∈ items, Sealed 0 item ∧ Trimmed item ∧ item ≠ []) :
    splitTopLevel ',' (joined ", " items) = items := by
  cases items with
  | nil => rfl
  | cons item items =>
    have hpieces : (pieces ',' .start (joined ", " (item :: items))).map trim = item :: items := by
      induction items generalizing item with
      | nil =>
        obtain ⟨hitem, htrim, _⟩ := h item (by simp)
        rw [Text.joined_singleton, Nesting.start, hitem.pieces_eq, List.map_singleton,
          trim_eq_self htrim]
      | cons next items ih =>
        obtain ⟨⟨hitem, htrim, _⟩, hrest⟩ := List.forall_mem_cons.1 h
        rw [Text.joined_cons_cons, map_trim_pieces_comma hitem htrim, ih next hrest]
    rw [splitTopLevel, hpieces, List.filter_eq_self]
    intro i hi
    simpa using (h i hi).2.2

end SchemaDiagram.Ddl
