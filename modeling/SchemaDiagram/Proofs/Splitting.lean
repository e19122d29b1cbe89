import Mathlib.Data.List.Basic
import SchemaDiagram.Proofs.Tokenizing

/-! # Splitting — the items of a list, and the tokens of its text

    A list is split character by character, and read token by token.  The
    two agree on what is quoted and on what stands in parentheses, so that a
    text is cut at those of its comma tokens that stand outside parentheses,
    and nowhere else.

      * `withoutTopCommas`      — tokens without the commas that divide a list
      * `tokens_pieces`         — the pieces of a text have its tokens
      * `Divided`               — a text cut at delimiters
      * `divided_pieces`        — a text is cut into its pieces
      * `tokens_splitTopLevel`  — the items of a list have its tokens, each of
                                  them reads as one item, and none goes on
                                  into the next -/

namespace SchemaDiagram.Ddl

open Text (isBlank trim exists_trim_eq)

/-! ### Commas -/

/-- `ts`, behind tokens that leave `depth` parentheses open, without the commas
    outside parentheses. -/
def withoutTopCommas : (depth : Nat) → List Token → List Token
  | _, [] => []
  | depth, t :: ts =>
    if t = .comma ∧ depth = 0 then withoutTopCommas depth ts
    else t :: withoutTopCommas (tokenDepth depth t) ts

theorem length_withoutTopCommas_le (depth : Nat) (ts : List Token) :
    (withoutTopCommas depth ts).length ≤ ts.length := by
  induction ts generalizing depth with
  | nil => exact Nat.le_refl 0
  | cons t ts ih =>
    rw [withoutTopCommas]
    split
    · exact Nat.le_succ_of_le (ih depth)
    · exact Nat.succ_le_succ (ih _)

/-- Where no comma is left out, each comma stands in parentheses. -/
theorem tokenDepth_ne_zero_of_comma {depth : Nat} {before after : List Token}
    (h : withoutTopCommas depth (before ++ .comma :: after) = before ++ .comma :: after) :
    before.foldl tokenDepth depth ≠ 0 := by
  induction before generalizing depth with
  | nil =>
    rintro rfl
    -- without its first comma the list would be shorter
    have hlen := length_withoutTopCommas_le 0 after
    rw [List.nil_append, withoutTopCommas, if_pos ⟨rfl, rfl⟩] at h
    rw [h, List.length_cons] at hlen
    omega
  | cons t before ih =>
    rw [List.cons_append, withoutTopCommas] at h
    split at h
    · have hlen := length_withoutTopCommas_le depth (before ++ .comma :: after)
      rw [h, List.length_cons] at hlen
      omega
    · exact ih (List.cons.inj h).2

/-! ### Pieces -/

theorem pieces_head_prefix {delimiter : Char} {n : Nesting} {s p : Text} {ps : List Text}
    (h : pieces delimiter n s = p :: ps) : p <+: s := by
  have hjoin := joined_pieces delimiter n s
  rw [h] at hjoin
  cases ps with
  | nil =>
    rw [Text.joined_singleton] at hjoin
    exact hjoin ▸ List.prefix_rfl
  | cons q qs =>
    rw [Text.joined_cons_cons, List.append_assoc] at hjoin
    exact hjoin ▸ List.prefix_append _ _

/-- **The pieces of a text have its tokens**, except for the commas that
    divide it. -/
theorem tokens_pieces (s : Text) (depth : Nat) :
    withoutTopCommas depth (tokens s) = (pieces ',' ⟨depth, none⟩ s).flatMap tokens := by
  induction s using lexeme_induction generalizing depth with
  | blanks s h =>
    rw [tokens_blank h, (sealed_of_isBlankText depth h).pieces_eq, List.flatMap_singleton,
      tokens_blank h]
    rfl
  | lexeme l rest h ih =>
    have hgap := sealed_of_isBlankText depth h.1
    rw [tokens_lexeme h, withoutTopCommas]
    by_cases hcut : l.token = .comma ∧ depth = 0
    · -- the gap in front of the comma is a piece of its own
      obtain ⟨hcomma, rfl⟩ := hcut
      have hpieces : pieces ',' ⟨0, none⟩ (l.gap ++ l.source ++ rest) =
          l.gap :: pieces ',' ⟨0, none⟩ rest := by
        rw [List.append_assoc, pieces_append hgap.pieces_eq, hgap.run_eq, h.source_comma hcomma]
        show (l.gap ++ []) :: pieces ',' ⟨0, none⟩ rest = _
        rw [List.append_nil]
      rw [if_pos ⟨hcomma, rfl⟩, ih, hpieces, List.flatMap_cons, tokens_blank h.1, List.nil_append]
    · -- the lexeme is the front of the first piece behind it
      have hsource := h.pieces_eq fun hcomma hdepth => hcut ⟨hcomma, hdepth⟩
      obtain ⟨p, ps, hp⟩ := List.exists_cons_of_ne_nil
        (pieces_ne_nil ',' (Nesting.run ⟨depth, none⟩ l.source) rest)
      have hpieces : pieces ',' ⟨depth, none⟩ (l.gap ++ l.source ++ rest) =
          (l.gap ++ l.source ++ p) :: ps := by
        rw [List.append_assoc, pieces_append hgap.pieces_eq, hgap.run_eq, pieces_append hsource, hp,
          List.append_assoc]
        rfl
      have hrest : withoutTopCommas (tokenDepth depth l.token) (tokens rest) =
          tokens p ++ ps.flatMap tokens := by
        rcases h.run_eq depth with hrun | ⟨hnil, hrun⟩
        · rw [ih, ← hrun, hp, List.flatMap_cons]
        · subst hnil
          obtain ⟨rfl, rfl⟩ := List.cons.inj hp
          rw [tokens_blank rfl]
          rfl
      have hfirst : tokens (l.gap ++ l.source ++ p) = l.token :: tokens p := by
        refine tokens_lexeme (h.before ?_)
        cases hpre : p with
        | nil => exact Or.inl rfl
        | cons c r =>
          obtain ⟨t, ht⟩ := pieces_head_prefix hp
          refine Or.inr (Or.inl ?_)
          rw [← ht, hpre]
          rfl
      rw [if_neg hcut, hrest, hpieces, List.flatMap_cons, hfirst, List.cons_append]

/-! ### Cuts -/

/-- **The first cut** stands behind a text that is not cut. -/
theorem exists_of_pieces_eq_cons_cons {delimiter : Char} {n : Nesting} {s p q : Text}
    {ps : List Text} (h : pieces delimiter n s = p :: q :: ps) :
    ∃ t, s = p ++ delimiter :: t ∧ n.run p = .start ∧ pieces delimiter n p = [p] ∧
      pieces delimiter .start t = q :: ps := by
  induction s generalizing n p with
  | nil => simp [pieces] at h
  | cons c r ih =>
    rw [pieces] at h
    by_cases hcut : isCut delimiter n c = true
    · rw [if_pos hcut, step_of_isCut hcut] at h
      obtain ⟨rfl, hrest⟩ := List.cons.inj h
      obtain ⟨rfl, htop, _⟩ := isCut_iff.1 hcut
      have hstart := eq_start_of_atTop htop
      exact ⟨r, rfl, hstart, rfl, hstart ▸ hrest⟩
    · rw [if_neg hcut] at h
      obtain ⟨p', ps', hp'⟩ := List.exists_cons_of_ne_nil (pieces_ne_nil delimiter (n.step c) r)
      rw [hp'] at h
      obtain ⟨rfl, rfl⟩ := List.cons.inj h
      obtain ⟨t, rfl, hstart, hwhole, hrest⟩ := ih hp'
      refine ⟨t, rfl, hstart, ?_, hrest⟩
      simp [pieces, hcut, hwhole]

theorem eq_of_pieces_eq_singleton {delimiter : Char} {n : Nesting} {s p : Text}
    (h : pieces delimiter n s = [p]) : s = p := by
  have hjoin := joined_pieces delimiter n s
  rw [h, Text.joined_singleton] at hjoin
  exact hjoin.symm

/-- The parts of a text that is not cut are not cut. -/
theorem pieces_of_append {delimiter : Char} {n : Nesting} {s t : Text}
    (h : pieces delimiter n (s ++ t) = [s ++ t]) :
    pieces delimiter n s = [s] ∧ pieces delimiter (n.run s) t = [t] := by
  induction s generalizing n with
  | nil => exact ⟨rfl, h⟩
  | cons c r ih =>
    rw [List.cons_append, pieces] at h
    by_cases hcut : isCut delimiter n c = true
    · rw [if_pos hcut] at h
      cases h
    · rw [if_neg hcut] at h
      obtain ⟨p, ps, hp⟩ := List.exists_cons_of_ne_nil
        (pieces_ne_nil delimiter (n.step c) (r ++ t))
      rw [hp, List.headD_cons, List.tail_cons, List.cons.injEq, List.cons.injEq] at h
      obtain ⟨⟨_, rfl⟩, rfl⟩ := h
      obtain ⟨hr, ht⟩ := ih hp
      refine ⟨?_, ht⟩
      simp [pieces, hcut, hr]

theorem pieces_trim {delimiter : Char} {p : Text} (h : pieces delimiter .start p = [p]) :
    pieces delimiter .start (trim p) = [trim p] := by
  obtain ⟨front, back, hfront, _, hp⟩ := exists_trim_eq p
  have hstart : Nesting.start.run front = .start := (sealed_of_isBlankText 0 hfront).run_eq
  rw [hp] at h
  have hrest := (pieces_of_append h).2
  rw [hstart] at hrest
  exact (pieces_of_append hrest).1

/-- **Outer blanks do not move the scan**, if nothing is left open behind them. -/
theorem run_trim {p : Text} (h : Nesting.start.run p = .start) :
    Nesting.start.run (trim p) = .start := by
  obtain ⟨front, back, hfront, hback, hp⟩ := exists_trim_eq p
  have hstart : Nesting.start.run front = .start := (sealed_of_isBlankText 0 hfront).run_eq
  have hquote : (Nesting.start.run (trim p)).quote = none := quote_run_trim (by rw [h]; rfl)
  rw [hp, Nesting.run_append, hstart, Nesting.run_append] at h
  generalize Nesting.start.run (trim p) = n at h hquote
  obtain ⟨depth, quote⟩ := n
  obtain rfl : quote = none := hquote
  rwa [(sealed_of_isBlankText depth hback).run_eq] at h

/-- `ps` are the parts of `s` between cuts, and none of them is cut itself. -/
inductive Divided (delimiter : Char) : (s : Text) → (ps : List Text) → Prop
  | last {p} (hp : pieces delimiter .start p = [p]) : Divided delimiter p [p]
  | cut {p t ps} (hp : pieces delimiter .start p = [p]) (hrun : Nesting.start.run p = .start)
      (ht : Divided delimiter t ps) : Divided delimiter (p ++ delimiter :: t) (p :: ps)

/-- **A text is cut into its pieces.** -/
theorem divided_pieces (delimiter : Char) (s : Text) :
    Divided delimiter s (pieces delimiter .start s) := by
  generalize hps : pieces delimiter .start s = ps
  induction ps generalizing s with
  | nil => exact absurd hps (pieces_ne_nil _ _ _)
  | cons p ps ih =>
    cases ps with
    | nil =>
      obtain rfl := eq_of_pieces_eq_singleton hps
      exact .last hps
    | cons q qs =>
      obtain ⟨t, rfl, hrun, hp, hrest⟩ := exists_of_pieces_eq_cons_cons hps
      exact .cut hp hrun (ih t hrest)

namespace Divided

variable {delimiter : Char} {s : Text} {ps : List Text} (h : Divided delimiter s ps)
include h

theorem ne_nil : ps ≠ [] := by
  cases h <;> simp

theorem whole : ∀ p ∈ ps, pieces delimiter .start p = [p] := by
  induction h with
  | last hp => exact List.forall_mem_singleton.2 hp
  | cut hp _ _ ih => exact List.forall_mem_cons.2 ⟨hp, ih⟩

/-- What stands in front of a cut closes what it opens. -/
theorem run_eq : ∀ p ∈ ps.dropLast, Nesting.start.run p = .start := by
  induction h with
  | last hp => simp
  | cut hp hrun ht ih =>
    rw [List.dropLast_cons_of_ne_nil ht.ne_nil]
    exact List.forall_mem_cons.2 ⟨hrun, ih⟩

/-- Trimming takes no token from a part, unless the last part leaves a quote
    open and ends in a blank. -/
theorem tokens_trim (hs : ∀ c ∈ s.getLast?, isBlank c = false) :
    ∀ p ∈ ps, tokens (trim p) = tokens p := by
  induction h with
  | last hp => exact List.forall_mem_singleton.2 (tokens_trim_of_getLast? hs)
  | @cut p t ps hp hrun ht ih =>
    refine List.forall_mem_cons.2 ⟨Ddl.tokens_trim (by rw [hrun]; rfl), ih fun c hc => hs c ?_⟩
    rw [List.getLast?_append, List.getLast?_cons, hc]
    rfl

end Divided

/-! ### Items -/

theorem mem_dropLast_of_filter {α : Type} {keep : α → Bool} {as : List α} {a : α}
    (h : a ∈ (as.filter keep).dropLast) : a ∈ as.dropLast := by
  induction as with
  | nil => simp at h
  | cons b as ih =>
    by_cases hb : keep b = true
    · rw [List.filter_cons_of_pos hb] at h
      cases hkept : as.filter keep with
      | nil => simp [hkept] at h
      | cons c cs =>
        have hne : as ≠ [] := by
          rintro rfl
          cases hkept
        rw [List.dropLast_cons_of_ne_nil (by simp [hkept]), List.mem_cons] at h
        rw [List.dropLast_cons_of_ne_nil hne, List.mem_cons]
        exact h.imp id ih
    · rw [List.filter_cons_of_neg hb] at h
      have hmem := ih h
      have hne : as ≠ [] := by
        rintro rfl
        cases hmem
      rw [List.dropLast_cons_of_ne_nil hne]
      exact List.mem_cons_of_mem b hmem

theorem mem_splitTopLevel {delimiter : Char} {s item : Text}
    (h : item ∈ splitTopLevel delimiter s) :
    ∃ p ∈ pieces delimiter .start s, trim p = item :=
  List.mem_map.1 (List.mem_filter.1 h).1

/-- Items other than the last close what they open. -/
theorem run_of_mem_splitTopLevel {delimiter : Char} {s item : Text}
    (h : item ∈ (splitTopLevel delimiter s).dropLast) : Nesting.start.run item = .start := by
  have hmem := mem_dropLast_of_filter h
  rw [← List.map_dropLast] at hmem
  obtain ⟨p, hp, rfl⟩ := List.mem_map.1 hmem
  exact run_trim ((divided_pieces delimiter s).run_eq p hp)

theorem closed_of_mem_splitTopLevel {delimiter : Char} {s item : Text}
    (h : item ∈ (splitTopLevel delimiter s).dropLast) :
    (Nesting.start.run item).quote = none := by
  rw [run_of_mem_splitTopLevel h]
  rfl

/-- Blank pieces are left out, and have no tokens. -/
theorem flatMap_filter_ne_nil (ps : List Text) :
    (ps.filter (· != [])).flatMap tokens = ps.flatMap tokens := by
  induction ps with
  | nil => rfl
  | cons p ps ih =>
    cases p with
    | nil => rw [List.flatMap_cons, tokens_blank rfl, List.nil_append, ← ih]; rfl
    | cons c r => rw [List.filter_cons_of_pos rfl, List.flatMap_cons, List.flatMap_cons, ih]

/-- **Splitting and reading agree.** A text that does not end in a blank has
    the tokens of the items it is split into, and besides them just the commas
    outside parentheses.  In the tokens of an item each comma stands in
    parentheses.  And whatever is put behind an item and a comma, the item is
    read as it is by itself, unless it is the last. -/
theorem tokens_splitTopLevel (s : Text) :
    ((∀ c ∈ s.getLast?, isBlank c = false) →
        withoutTopCommas 0 (tokens s) = (splitTopLevel ',' s).flatMap tokens) ∧
      (∀ item ∈ splitTopLevel ',' s, ∀ before after, tokens item = before ++ .comma :: after →
        before.foldl tokenDepth 0 ≠ 0) ∧
      ∀ item ∈ (splitTopLevel ',' s).dropLast, ∀ t,
        tokens (item ++ ',' :: t) = tokens item ++ .comma :: tokens t := by
  refine ⟨fun hs => ?_, fun item hitem before after htokens => ?_, fun item hitem t => ?_⟩
  · calc withoutTopCommas 0 (tokens s)
        = (pieces ',' .start s).flatMap tokens := tokens_pieces s 0
      _ = ((pieces ',' .start s).map trim).flatMap tokens := by
          rw [List.flatMap_map]
          exact List.flatMap_congr fun p hp =>
            ((divided_pieces ',' s).tokens_trim hs p hp).symm
      _ = (splitTopLevel ',' s).flatMap tokens := (flatMap_filter_ne_nil _).symm
  · obtain ⟨p, hp, rfl⟩ := mem_splitTopLevel hitem
    have hwhole := pieces_trim ((divided_pieces ',' s).whole p hp)
    have hitself := tokens_pieces (trim p) 0
    change _ = (pieces ',' .start (trim p)).flatMap tokens at hitself
    rw [hwhole, List.flatMap_singleton, htokens] at hitself
    exact tokenDepth_ne_zero_of_comma hitself
  · have hcomma : tokens (',' :: t) = .comma :: tokens t :=
      tokens_lexeme (l := ⟨[], [','], .comma⟩) (legible_comma rfl t)
    rw [tokens_append (closed_of_mem_splitTopLevel hitem) ?_, hcomma]
    intro c hc
    obtain rfl := Option.some.inj hc
    decide

/-- Doubled marks, a backslash, parentheses and a quote that is never closed:
    three items with ten tokens. -/
theorem tokens_splitTopLevel_quotes :
    let s : Text := "a 'it''s, b' (c, d), \x60e\\\x60, f\x60), \"g, h"
    let items : List Text := ["a 'it''s, b' (c, d)", "\x60e\\\x60, f\x60)", "\"g, h"]
    splitTopLevel ',' s = items ∧
      withoutTopCommas 0 (tokens s) = items.flatMap tokens ∧
      (items.flatMap tokens).length = 10 := by
  intro s items
  have hitems : splitTopLevel ',' s = items := by decide +kernel
  have hlast : s.getLast? = some 'h' := by decide +kernel
  have hblank : ∀ c ∈ s.getLast?, isBlank c = false := by
    intro c hc
    rw [hlast, Option.mem_some_iff] at hc
    exact hc ▸ by decide
  refine ⟨hitems, ?_, by decide +kernel⟩
  rw [← hitems]
  exact (tokens_splitTopLevel s).1 hblank

end SchemaDiagram.Ddl
