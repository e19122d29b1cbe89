import SchemaDiagram.Proofs.Splitting

/-! # Cuts — the places at which a list is divided

    The splitter of a list reads it once, with the state of a scan in hand.
    Its items are told here by the text alone.  Plain characters, parentheses
    and whole quoted texts side by side bring a reader from one depth of
    parentheses to another, and a place is a cut if it holds the delimiter and
    the text in front of it leads from outside all parentheses to outside all
    parentheses.  A delimiter that is a quote mark or a parenthesis itself
    makes no cut.

    Items are pieces without their outer blanks.  A piece in front of a cut
    closes whatever it opens, and so does its item.  Items with delimiters
    between them are therefore cut where they were before.

      * `QuotedBody`, `Leads`        — quoted texts, and texts without open
                                       quotes
      * `leads_iff`                  — what the scan makes of them
      * `IsCutAt`                    — a place at which a text is cut
      * `cuts`, `between`            — all of these places, and the texts
                                       between them
      * `between_cuts`               — these texts are the pieces
      * `splitTopLevel_joined_self`  — items are split into themselves
      * `splitTopLevel_between_cuts` — the items of a text, told by its cuts -/

namespace SchemaDiagram.Ddl

open Text (trim trim_eq_self trimmed_trim joined)

/-! ### Texts without open quotes -/

/-- What may stand between two quote marks: neither the mark nor a backslash,
    except that a backslash may stand there with any character behind it. -/
inductive QuotedBody (mark : Char) : Text → Prop
  | nil : QuotedBody mark []
  | char {c r} (hmark : c ≠ mark) (hescape : c ≠ '\\') (hr : QuotedBody mark r) :
      QuotedBody mark (c :: r)
  | escaped (c) {r} (hr : QuotedBody mark r) : QuotedBody mark ('\\' :: c :: r)

/-- Reading `s` leads from inside `depth` parentheses to inside `depth'`, and all
    quotes of `s` are closed in it. -/
inductive Leads : (depth : Nat) → (s : Text) → (depth' : Nat) → Prop
  | nil {d} : Leads d [] d
  | plain {d e c r} (hquote : isQuote c = false) (hopen : c ≠ '(') (hclose : c ≠ ')')
      (hr : Leads d r e) : Leads d (c :: r) e
  | opening {d e r} (hr : Leads (d + 1) r e) : Leads d ('(' :: r) e
  /-- outside parentheses there is nothing to close -/
  | closing {d e r} (hr : Leads (d - 1) r e) : Leads d (')' :: r) e
  | quoted {d e mark body r} (hmark : isQuote mark = true) (hbody : QuotedBody mark body)
      (hr : Leads d r e) : Leads d (mark :: (body ++ mark :: r)) e

theorem QuotedBody.run_eq {mark : Char} {body : Text} (h : QuotedBody mark body) (depth : Nat) :
    Nesting.run ⟨depth, some ⟨mark, false⟩⟩ body = ⟨depth, some ⟨mark, false⟩⟩ := by
  induction h with
  | nil => rfl
  | char hmark hescape _ ih => rw [Nesting.run_cons, step_quoted depth hmark hescape, ih]
  | escaped c _ ih =>
    rw [Nesting.run_cons, Nesting.run_cons, step_backslash, step_escaped, ih]

theorem Leads.run_eq {d e : Nat} {s : Text} (h : Leads d s e) :
    Nesting.run ⟨d, none⟩ s = ⟨e, none⟩ := by
  induction h with
  | nil => rfl
  | plain hquote hopen hclose _ ih =>
    rw [Nesting.run_cons, ← ih]
    simp [Nesting.step, Nesting.stepDepth, hquote, hopen, hclose]
  | opening _ ih => exact ih
  | closing _ ih => exact ih
  | @quoted d e mark body r hmark hbody _ ih =>
    rw [Nesting.run_cons, step_openMark d hmark, Nesting.run_append, hbody.run_eq d,
      Nesting.run_cons, step_closeMark d hmark, ih]

/-- A scan that comes out of a quote has read a quoted text. -/
theorem exists_quotedBody {mark : Char} (hmark : isQuote mark = true) {d e : Nat} :
    ∀ {s : Text}, Nesting.run ⟨d, some ⟨mark, false⟩⟩ s = ⟨e, none⟩ →
      ∃ body r, s = body ++ mark :: r ∧ QuotedBody mark body ∧ Nesting.run ⟨d, none⟩ r = ⟨e, none⟩
  | [], h => by cases h
  | c :: r, h => by
    by_cases hc : c = mark
    · subst hc
      rw [Nesting.run_cons, step_closeMark d hmark] at h
      exact ⟨[], r, rfl, .nil, h⟩
    · by_cases hescape : c = '\\'
      · subst hescape
        match r, h with
        | [], h =>
          rw [Nesting.run_cons, step_backslash] at h
          cases h
        | c' :: r', h =>
          rw [Nesting.run_cons, Nesting.run_cons, step_backslash, step_escaped] at h
          obtain ⟨body, rest, rfl, hbody, hrest⟩ := exists_quotedBody hmark h
          exact ⟨'\\' :: c' :: body, rest, rfl, .escaped c' hbody, hrest⟩
      · rw [Nesting.run_cons, step_quoted d hc hescape] at h
        obtain ⟨body, rest, rfl, hbody, hrest⟩ := exists_quotedBody hmark h
        exact ⟨c :: body, rest, rfl, .char hc hescape hbody, hrest⟩

/-- **What the scan makes of a text**: outside quotes in front of it and behind
    it, it goes from one depth to the other just if the text leads there. -/
theorem leads_iff {d e : Nat} {s : Text} :
    Leads d s e ↔ Nesting.run ⟨d, none⟩ s = ⟨e, none⟩ := by
  refine ⟨Leads.run_eq, fun h => ?_⟩
  induction hlen : s.length using Nat.strong_induction_on generalizing s d with
  | _ len ih =>
    subst hlen
    cases s with
    | nil =>
      obtain rfl : d = e := congrArg Nesting.depth h
      exact .nil
    | cons c r =>
      rw [Nesting.run_cons] at h
      by_cases hquote : isQuote c = true
      · rw [step_openMark d hquote] at h
        obtain ⟨body, rest, rfl, hbody, hrest⟩ := exists_quotedBody hquote h
        exact .quoted hquote hbody (ih _ (by simp; omega) hrest rfl)
      · rw [Bool.not_eq_true] at hquote
        by_cases hopen : c = '('
        · subst hopen
          exact .opening (ih _ (by simp) h rfl)
        · by_cases hclose : c = ')'
          · subst hclose
            exact .closing (ih _ (by simp) h rfl)
          · refine .plain hquote hopen hclose (ih _ (by simp) ?_ rfl)
            simpa [Nesting.step, Nesting.stepDepth, hquote, hopen, hclose] using h

/-! ### Places -/

/-- The text `s` is cut at the place `i`. -/
structure IsCutAt (delimiter : Char) (s : Text) (i : Nat) : Prop where
  holds : s[i]? = some delimiter
  /-- a quote mark or a parenthesis keeps its meaning and makes no cut -/
  plain : isQuote delimiter = false ∧ delimiter ≠ '(' ∧ delimiter ≠ ')'
  /-- neither quotes nor parentheses are open in front of the place -/
  outside : Leads 0 (s.take i) 0

/-- The places at which a scan that enters `s` in the state `n` cuts it, from
    left to right. -/
def cuts (delimiter : Char) (n : Nesting) (s : Text) : List Nat :=
  (List.range s.length).filter fun i => s[i]?.any (isCut delimiter (n.run (s.take i)))

/-- The texts of `s` from the place `first` on and between the given places,
    which belong to none of them. -/
def between (s : Text) (first : Nat) : (places : List Nat) → List Text
  | [] => [s.drop first]
  | i :: places => (s.take i).drop first :: between s (i + 1) places

theorem mem_cuts {delimiter : Char} {s : Text} {i : Nat} :
    i ∈ cuts delimiter .start s ↔ IsCutAt delimiter s i := by
  rw [cuts, List.mem_filter, List.mem_range, Option.any_eq_true_iff_get]
  constructor
  · rintro ⟨-, hsome, hcut⟩
    obtain ⟨hc, htop, hplain⟩ := isCut_iff.1 hcut
    have holds : s[i]? = some delimiter := by rw [← hc, Option.some_get]
    exact ⟨holds, hc ▸ hplain, leads_iff.2 (eq_start_of_atTop htop)⟩
  · rintro ⟨holds, hplain, houtside⟩
    have hrun : Nesting.start.run (s.take i) = .start := houtside.run_eq
    refine ⟨(List.getElem?_eq_some_iff.1 holds).1, by rw [holds]; rfl, ?_⟩
    simp only [holds, Option.get_some]
    exact isCut_iff.2 ⟨rfl, by rw [hrun]; rfl, hplain⟩

theorem pairwise_cuts (delimiter : Char) (n : Nesting) (s : Text) :
    (cuts delimiter n s).Pairwise (· < ·) :=
  List.pairwise_lt_range.filter _

theorem cuts_cons (delimiter : Char) (n : Nesting) (c : Char) (r : Text) :
    cuts delimiter n (c :: r) =
      (if isCut delimiter n c then [0] else []) ++
        (cuts delimiter (n.step c) r).map (· + 1) := by
  rw [cuts, List.length_cons, List.range_succ_eq_map, List.filter_cons, List.filter_map]
  show (if isCut delimiter n c = true then _ else _) = _
  split <;> rfl

/-! ### The texts between them -/

section Between

variable (c : Char) (r : Text)

theorem between_succ (first : Nat) (places : List Nat) :
    between (c :: r) (first + 1) (places.map (· + 1)) = between r first places := by
  induction places generalizing first with
  | nil => rfl
  | cons i places ih =>
    rw [List.map_cons, between, ih, between]
    rfl

/-- Without a cut at its place a character belongs to the first of the texts. -/
theorem between_zero (places : List Nat) :
    between (c :: r) 0 (places.map (· + 1)) =
      (c :: (between r 0 places).headD []) :: (between r 0 places).tail := by
  cases places with
  | nil => rfl
  | cons i places =>
    rw [List.map_cons, between, between_succ]
    rfl

end Between

/-- **The pieces of a text are the texts between its cuts.** -/
theorem between_cuts (delimiter : Char) (n : Nesting) (s : Text) :
    between s 0 (cuts delimiter n s) = pieces delimiter n s := by
  induction s generalizing n with
  | nil => rfl
  | cons c r ih =>
    rw [cuts_cons, pieces]
    split
    · rw [List.singleton_append, between, between_succ, ih]
      rfl
    · rw [List.nil_append, between_zero, ih]

/-! ### Items side by side -/

section Items

variable {delimiter : Char} {s item : Text}

/-- An item is not cut, has no outer blanks and is not empty. -/
theorem of_mem_splitTopLevel (h : item ∈ splitTopLevel delimiter s) :
    pieces delimiter .start item = [item] ∧ trim item = item ∧ item ≠ [] := by
  obtain ⟨p, hp, rfl⟩ := mem_splitTopLevel h
  refine ⟨pieces_trim ((divided_pieces delimiter s).whole p hp),
    trim_eq_self (trimmed_trim p), ?_⟩
  simpa using (List.mem_filter.1 h).2

theorem pieces_of_not_isCut (h : ¬ isCut delimiter .start delimiter = true) (n : Nesting) :
    pieces delimiter n s = [s] := by
  induction s generalizing n with
  | nil => rfl
  | cons c r ih =>
    have hcut : ¬ isCut delimiter n c = true := by
      intro hc
      obtain ⟨rfl, htop, _⟩ := isCut_iff.1 hc
      exact h (eq_start_of_atTop htop ▸ hc)
    rw [pieces, if_neg hcut, ih]
    rfl

end Items

/-- Items with delimiters between them have just these items as their pieces. -/
theorem pieces_joined_splitTopLevel {delimiter : Char} {s : Text}
    (hne : splitTopLevel delimiter s ≠ []) :
    pieces delimiter .start (joined [delimiter] (splitTopLevel delimiter s)) =
      splitTopLevel delimiter s := by
  by_cases hcut : isCut delimiter .start delimiter = true
  · exact pieces_joined hcut hne (fun item hitem => (of_mem_splitTopLevel hitem).1)
      fun item hitem => run_of_mem_splitTopLevel hitem
  · -- a delimiter that makes no cut leaves the text as its only item
    have hone : splitTopLevel delimiter s = [trim s] := by
      rw [splitTopLevel, pieces_of_not_isCut hcut, List.map_singleton] at hne ⊢
      by_cases hs : trim s = []
      · simp [hs] at hne
      · simp [hs]
    rw [hone, Text.joined_singleton, pieces_of_not_isCut hcut]

/-- **Items are split into themselves.** -/
theorem splitTopLevel_joined_self (delimiter : Char) (s : Text) :
    splitTopLevel delimiter (joined [delimiter] (splitTopLevel delimiter s)) =
      splitTopLevel delimiter s := by
  by_cases hne : splitTopLevel delimiter s = []
  · rw [hne]
    rfl
  · have htrim : (splitTopLevel delimiter s).map trim = (splitTopLevel delimiter s).map id :=
      List.map_congr_left fun item hitem => (of_mem_splitTopLevel hitem).2.1
    rw [splitTopLevel, pieces_joined_splitTopLevel hne, htrim, List.map_id, List.filter_eq_self]
    intro item hitem
    simpa using (of_mem_splitTopLevel hitem).2.2

/-- **The items of a text are what stands between its cuts**, in order, without
    outer blanks and without what is blank.  Nothing of the text is lost at a
    cut but the delimiter.  The items with the delimiter between them are a
    list with the same items. -/
theorem splitTopLevel_between_cuts (delimiter : Char) (s : Text) :
    ∃ places : List Nat,
      places.Pairwise (· < ·) ∧
      (∀ i, i ∈ places ↔ IsCutAt delimiter s i) ∧
      splitTopLevel delimiter s = ((between s 0 places).map trim).filter (· != []) ∧
      joined [delimiter] (between s 0 places) = s ∧
      splitTopLevel delimiter (joined [delimiter] (splitTopLevel delimiter s)) =
        splitTopLevel delimiter s := by
  refine ⟨cuts delimiter .start s, pairwise_cuts delimiter .start s, fun i => mem_cuts, ?_, ?_,
    splitTopLevel_joined_self delimiter s⟩
  · rw [between_cuts, splitTopLevel]
  · rw [between_cuts, joined_pieces]

/-- Semicolons in quotes, behind a backslash and in parentheses make no cut, and
    a closing parenthesis too many opens nothing. -/
example :
    let s : Text := " a);'b\\';' ;; (c;d) "
    cuts ';' .start s = [3, 11, 12] ∧
      splitTopLevel ';' s = ["a)", "'b\\';'", "(c;d)"] := by
  decide +kernel

end SchemaDiagram.Ddl
