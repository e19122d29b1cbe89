import SchemaDiagram.Schema.NameSet

/-! # ByteOrder — the order of names is the order of their bytes

    Names are compared character by character.  Written in UTF-8 they can be
    compared byte by byte instead, and nothing changes.

      * `utf8`                   — the bytes of a text
      * `precedes_iff_utf8_lt`   — the two comparisons agree
      * `inByteOrder`            — the names of a list, each once, in the order
                                   of their bytes
      * `toList_ofList`          — a set lists its members in that order -/

namespace SchemaDiagram

namespace Text

/-- The bytes of `s` in UTF-8. -/
def utf8 (s : Text) : List UInt8 := s.flatMap String.utf8EncodeChar

/-- Of two characters the one with the smaller code point has the smaller
    bytes, whatever follows. -/
theorem utf8EncodeChar_append_lt {a b : Char} (h : a.toNat < b.toNat) (x y : List UInt8) :
    String.utf8EncodeChar a ++ x < String.utf8EncodeChar b ++ y := by
  have hb : b.val.toNat < 1114112 := by
    have := b.valid
    simp only [UInt32.isValidChar, Nat.isValidChar] at this
    omega
  have hab : a.val.toNat < b.val.toNat := h
  have ha : a.val.toNat < 1114112 := by omega
  -- no byte overflows, and each is a digit in base 64 behind its mark
  have hlead : ∀ n, n < 1114112 → (n / 262144 % 8 + 240) % 256 = n / 64 / 64 / 64 + 240 := by
    intro n hn
    omega
  have hthird : ∀ n, (n / 4096 % 64 + 128) % 256 = n / 64 / 64 % 64 + 128 := by
    intro n
    omega
  have htail : ∀ n, (n % 64 + 128) % 256 = n % 64 + 128 := by
    intro n
    omega
  simp only [String.utf8EncodeChar]
  repeat' split
  all_goals
    simp only [List.cons_append, List.nil_append, List.cons_lt_cons_iff, UInt8.lt_iff_toNat_lt,
      ← UInt8.toNat_inj, UInt8.toNat_ofNat', Nat.reducePow, hlead _ ha, hlead _ hb, hthird,
      htail]
    omega

theorem utf8_lt_of_precedes {s t : Text} (h : precedes s t = true) : utf8 s < utf8 t := by
  induction s generalizing t with
  | nil =>
    cases t with
    | nil => simp [precedes] at h
    | cons b t =>
      have hne : utf8 (b :: t) ≠ [] := by simp [utf8, String.utf8EncodeChar_ne_nil]
      obtain ⟨x, xs, hx⟩ := List.exists_cons_of_ne_nil hne
      rw [hx]
      exact List.nil_lt_cons x xs
  | cons a s ih =>
    cases t with
    | nil => simp [precedes] at h
    | cons b t =>
      show String.utf8EncodeChar a ++ utf8 s < String.utf8EncodeChar b ++ utf8 t
      rcases precedes_cons.1 h with hab | ⟨rfl, hst⟩
      · exact utf8EncodeChar_append_lt hab _ _
      · exact List.append_left_lt (ih hst)

/-- **Two readings of one order.** What stands before is what has the
    smaller bytes. -/
theorem precedes_iff_utf8_lt {s t : Text} : precedes s t = true ↔ utf8 s < utf8 t := by
  refine ⟨utf8_lt_of_precedes, fun h => ?_⟩
  by_cases hne : s = t
  · subst hne
    exact absurd h (List.lt_irrefl _)
  · refine Classical.byContradiction fun hst => ?_
    -- of two different texts one stands before the other, here the second
    have hts := precedes_of_ne hne (Bool.eq_false_iff.2 hst)
    exact List.lt_asymm h (utf8_lt_of_precedes hts)

end Text

open Text (utf8 precedes_iff_utf8_lt precedes_of_ne)

/-! ### Lists without repetitions -/

theorem nodup_eraseDups {α : Type} [BEq α] [LawfulBEq α] (l : List α) : l.eraseDups.Nodup := by
  match l with
  | [] => exact List.nodup_nil
  | a :: l =>
    have hlt : (l.filter fun b => !b == a).length < l.length + 1 :=
      Nat.lt_succ_of_le (List.length_filter_le _ l)
    rw [List.eraseDups_cons]
    refine List.nodup_cons.2 ⟨?_, nodup_eraseDups _⟩
    intro ha
    simpa using List.mem_eraseDups.1 ha
termination_by l.length

/-- The names of a list, each once, in the order of their bytes. -/
def inByteOrder (names : List Text) : List Text :=
  names.eraseDups.mergeSort fun s t => decide (utf8 s ≤ utf8 t)

theorem mem_inByteOrder {name : Text} {names : List Text} :
    name ∈ inByteOrder names ↔ name ∈ names := by
  simp [inByteOrder]

theorem increasing_inByteOrder (names : List Text) : NameSet.Increasing (inByteOrder names) := by
  have hle : (inByteOrder names).Pairwise fun s t => decide (utf8 s ≤ utf8 t) = true := by
    refine List.pairwise_mergeSort (fun a b c hab hbc => ?_) (fun a b => ?_) _
    · rw [decide_eq_true_eq] at hab hbc ⊢
      exact List.le_trans hab hbc
    · rw [Bool.or_eq_true, decide_eq_true_eq, decide_eq_true_eq]
      exact List.le_total (utf8 a) (utf8 b)
  have hne : (inByteOrder names).Nodup :=
    (List.mergeSort_perm _ _).nodup_iff.2 (nodup_eraseDups names)
  refine (hle.and hne).imp fun {s t} h => ?_
  refine Classical.byContradiction fun hst => ?_
  have hts := precedes_of_ne h.2 (Bool.eq_false_iff.2 hst)
  exact absurd (precedes_iff_utf8_lt.1 hts) (List.not_lt.2 (of_decide_eq_true h.1))

/-- **Sets list their members in the order of their bytes.** -/
theorem NameSet.toList_ofList (names : List Text) :
    (NameSet.ofList names).toList = inByteOrder names := by
  have h : NameSet.ofList names = ⟨inByteOrder names, increasing_inByteOrder names⟩ := by
    refine NameSet.ext fun x => ?_
    rw [NameSet.mem_ofList, NameSet.mem_def]
    exact mem_inByteOrder.symm
  rw [h]

end SchemaDiagram
