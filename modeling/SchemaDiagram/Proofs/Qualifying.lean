import SchemaDiagram.Proofs.Delimiting
import SchemaDiagram.Proofs.Spelling

/-! # Qualifying — every way to write a qualified name

    The name of a table or a column may have the names of schemas and
    databases in front of it, each bare or in marks, with dots between them
    and blanks around these, and a group in parentheses behind it.  All that
    is left of it is the last name, and that is left of itself.

      * `WrittenPart`, `SpacedPart`      — one name, as it is written
      * `QualifiedName`                  — several, with what may follow
      * `QualifiedName.bareName_eq_last` — the last of them is its bare name -/

namespace SchemaDiagram.Ddl

open Text (isBlank isBlankText joined trim Trimmed)

/-! ### Parts -/

/-- A part of a qualified name: bare, or between marks. -/
inductive WrittenPart where
  | bare (name : Text) (isPart : IsPart name)
  | quoted (mark : Char) (isMark : isNameMark mark = true) (name : Text) (isPart : IsPart name)

namespace WrittenPart

/-- The name itself. -/
def name : WrittenPart → Text
  | bare name _ => name
  | quoted _ _ name _ => name

/-- How it is written. -/
def text : WrittenPart → Text
  | bare name _ => name
  | quoted mark _ name _ => mark :: (name ++ [mark])

variable (p : WrittenPart)

theorem isPart : IsPart p.name := by
  cases p with
  | bare name isPart => exact isPart
  | quoted mark isMark name isPart => exact isPart

theorem trimmed_text : Trimmed p.text := by
  cases p with
  | bare name isPart => exact isPart.trimmed
  | quoted mark isMark name isPart => exact trimmed_marked isMark name

theorem ne_nil_text : p.text ≠ [] := by
  cases p with
  | bare name isPart => exact isPart.ne_nil
  | quoted mark isMark name isPart => exact List.cons_ne_nil _ _

/-- No dot and no parenthesis stands in a part. -/
theorem not_mem_text {c : Char} (hc : c ∈ (".()" : Text)) : c ∉ p.text := by
  have hreserved : (".()" : Text).isSublist ".\x60\x22()" = true := by decide
  have hmarks : (".()" : Text).all (!isNameMark ·) = true := by decide
  have hname : c ∉ p.name :=
    p.isPart.not_mem ((List.isSublist_iff_sublist.1 hreserved).subset hc)
  cases p with
  | bare name isPart => exact hname
  | quoted mark isMark name isPart =>
    have hmark : c ≠ mark := by
      rintro rfl
      simpa [isMark] using List.all_eq_true.1 hmarks c hc
    simp only [WrittenPart.name] at hname
    simp [text, hmark, hname]

/-- **The name is what is left of a part without its marks.** -/
theorem bareName_text : bareName p.text = p.name := by
  cases p with
  | bare name isPart => exact isPart.bareName_eq_self
  | quoted mark isMark name isPart => exact isPart.bareName_marked isMark

end WrittenPart

/-- A part with the blanks around it. -/
structure SpacedPart where
  lead : Gap
  written : WrittenPart
  trail : Gap

namespace SpacedPart

variable (p : SpacedPart)

def name : Text := p.written.name

def text : Text := p.lead.text ++ (p.written.text ++ p.trail.text)

theorem bareName_text : bareName p.text = p.name := by
  rw [text, ← bareName_trim, Text.trim_blanks_append _ p.lead.blank, bareName_trim,
    bareName_append_blanks _ p.trail.blank, p.written.bareName_text, name]

theorem not_mem_text {c : Char} (hc : c ∈ (".()" : Text)) : c ∉ p.text := by
  have hblanks : (".()" : Text).all (!isBlank ·) = true := by decide
  have hc' : isBlank c = false := by simpa using List.all_eq_true.1 hblanks c hc
  simp [text, p.written.not_mem_text hc, Text.not_mem_of_isBlankText p.lead.blank hc',
    Text.not_mem_of_isBlankText p.trail.blank hc']

theorem isBlankText_text : isBlankText p.text = false := by
  have htrim : trim p.text = p.written.text := by
    rw [text, Text.trim_blanks_append _ p.lead.blank, Text.trim_append_blanks _ p.trail.blank,
      Text.trim_eq_self p.written.trimmed_text]
  rw [Bool.eq_false_iff, Ne, ← Text.trim_eq_nil_iff, htrim]
  exact p.written.ne_nil_text

end SpacedPart

/-! ### Qualified names -/

/-- A group in parentheses behind a name, such as a length. -/
structure NameGroup where
  inside : Text
  no_open : '(' ∉ inside
  no_close : ')' ∉ inside

/-- The group behind a name, if it has one. -/
def groupText : Option NameGroup → Text
  | some g => '(' :: (g.inside ++ [')'])
  | none => []

/-- A qualified name as it is written: the qualifiers in front of the last part,
    and what stands behind it. -/
structure QualifiedName where
  qualifiers : List SpacedPart
  last : SpacedPart
  group : Option NameGroup
  trail : Gap

namespace QualifiedName

variable (q : QualifiedName)

/-- The parts with dots between them. -/
def dotted : Text := joined "." ((q.qualifiers ++ [q.last]).map SpacedPart.text)

def text : Text := q.dotted ++ (groupText q.group ++ q.trail.text)

theorem paren_not_mem_dotted {c : Char} (hc : c = '(' ∨ c = ')') : c ∉ q.dotted := by
  have hparens : c ∈ (".()" : Text) := by rcases hc with rfl | rfl <;> decide
  intro hmem
  rcases Text.mem_joined hmem with hdot | ⟨part, hpart, hmem⟩
  · rcases hc with rfl | rfl <;> exact absurd hdot (by decide)
  · obtain ⟨p, -, rfl⟩ := List.mem_map.1 hpart
    exact p.not_mem_text hparens hmem

/-- **The last part is the bare name of all of them.** -/
theorem bareName_dotted : bareName q.dotted = q.last.name := by
  rw [dotted, ← q.last.bareName_text]
  cases q.qualifiers with
  | nil => rw [List.nil_append, List.map_singleton, Text.joined_singleton]
  | cons first others =>
    -- the last part stands behind a dot, and what is in front of that does not matter
    have htext : joined "." ((first :: others ++ [q.last]).map SpacedPart.text) =
        first.text ++ (others.map SpacedPart.text).flatMap (("." : Text) ++ ·) ++
          '.' :: q.last.text := by
      simp [Text.joined_cons]
    rw [htext]
    exact bareName_append_dot _ q.last.isBlankText_text (q.last.not_mem_text (by decide))
      (q.last.not_mem_text (by decide))

/-- **Every spelling of a qualified name is reduced to its last part**, and that
    part is reduced no further. -/
theorem bareName_eq_last : bareName q.text = q.last.name ∧ bareName q.last.name = q.last.name := by
  refine ⟨?_, q.last.written.isPart.bareName_eq_self⟩
  rw [text, ← List.append_assoc, bareName_append_blanks _ q.trail.blank, ← q.bareName_dotted]
  cases q.group with
  | none => rw [groupText, List.append_nil]
  | some g =>
    exact bareName_append_group (q.paren_not_mem_dotted (Or.inl rfl))
      (q.paren_not_mem_dotted (Or.inr rfl)) g.no_close

end QualifiedName

/-- A table of a schema of a database, with blanks, marks and a group. -/
def qualifiedUsers : QualifiedName where
  qualifiers :=
    [⟨Space.single.toGap, .bare "db" (by decide), .none⟩,
      ⟨.none, .quoted '\x60' isNameMark_backtick "my shop" (by decide), Space.single.toGap⟩]
  last :=
    ⟨⟨"\n", rfl⟩, .quoted '\x22' isNameMark_doubleQuote "users" (by decide), Space.single.toGap⟩
  group := some ⟨"a. b", by decide, by decide⟩
  trail := Space.single.toGap

/-- Qualifiers, marks, blanks and a group leave no trace. -/
theorem bareName_eq_last_users :
    qualifiedUsers.text = " db.\x60my shop\x60 .\n\x22users\x22 (a. b) " ∧
      bareName qualifiedUsers.text = "users" ∧ bareName "users" = ("users" : Text) :=
  ⟨rfl, qualifiedUsers.bareName_eq_last⟩

end SchemaDiagram.Ddl
