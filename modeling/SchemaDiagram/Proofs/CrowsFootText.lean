import SchemaDiagram.Proofs.FigureText
import SchemaDiagram.Proofs.Notations
import SchemaDiagram.Proofs.Provenance
import SchemaDiagram.Proofs.TypeWords

/-! # CrowsFootText — reading a crow's-foot diagram back from its text

    Names of tables become identifiers, types become words, and the columns
    of a script have plain names, so that nothing in a block can be taken for
    a part of the text.  The columns that a key refers to are another matter:
    they may be called anything that holds no `#`.  Since that character
    stands for no other in a label, the escape of double quotes loses
    nothing.

      * `Field.Proper`, `Block.Proper`,
        `Connection.Proper`, `Proper`   — diagrams that can be read back
      * `proper_ofTables`               — those of scripts are such
      * `Field.line_inj`,
        `Block.text_append_inj`,
        `Connection.text_append_inj`    — where each part ends, and what it says
      * `Connection.Shown`              — what the line of a connection says
      * `delimited_block`,
        `delimited_connection`          — one after the other, too
      * `ShowsColumn`, `ShowsTable`,
        `IsConnectionLine`              — the form of the text
      * `SameColumn`, `SameColumns`     — what two tables have in common that
                                          look the same
      * `render_ofScript_readable`      — the text of a script's diagram has that
                                          form, and says what the diagram shows -/

namespace SchemaDiagram

open Text (joined append_firstMark_inj append_lastMark_inj joined_comma_inj Delimited EndsParts
  endsParts_nil)
open ChenGraph (endsIdentifier_cons identifier_append_inj joined_newline)
open Ddl (isPlain)

/-! ### Type words -/

theorem isIdentifierChar_of_isTypeTokenChar {c : Char} (h : isTypeTokenChar c = true) :
    isIdentifierChar c = true := by
  have hsplit : isIdentifierChar c = (c.isUpper || c.isLower || c.isDigit || c == '_') := rfl
  rw [hsplit]
  simp only [isTypeTokenChar, Bool.or_eq_true] at h ⊢
  rcases h with (h | h) | h <;> simp [h]

/-- The characters that no plain name holds. -/
theorem not_mem_of_isPlain {name : Text} {c : Char} (h : isPlain name = true)
    (hc : Ddl.isWordChar c = false) : c ∉ name := fun hmem =>
  Ddl.ne_of_isWordChar (Ddl.isWordChar_of_isPlain h c hmem) hc rfl

namespace CrowsFoot

/-! ### Diagrams that can be read back -/

/-- The type of a column is a word, and its name is plain. -/
structure Field.Proper (f : Field) : Prop where
  typeToken_ne_nil : f.typeToken ≠ []
  isTypeTokenChar : ∀ c ∈ f.typeToken, SchemaDiagram.isTypeTokenChar c = true
  isPlain : Ddl.isPlain f.name = true

/-- A block is called by an identifier and shows proper fields. -/
structure Block.Proper (b : Block) : Prop where
  isIdentifier : SchemaDiagram.isIdentifier b.id = true
  fields : ∀ f ∈ b.fields, f.Proper

/-- A connection leads between identifiers.  The names of the columns that it
    refers to need not be plain, but they hold no `#`. -/
structure Connection.Proper (c : Connection) : Prop where
  parent : isIdentifier c.parent = true
  child : isIdentifier c.child = true
  hash_not_mem : ∀ name ∈ c.refColumns, '#' ∉ name
  isPlain : ∀ name ∈ c.columns, Ddl.isPlain name = true

/-- A diagram of proper parts, without two blocks of one identifier, whose
    connections lead between its blocks. -/
structure Proper (d : CrowsFoot) : Prop where
  nodup : (d.blocks.map (·.id)).Nodup
  blocks : ∀ b ∈ d.blocks, b.Proper
  connections : ∀ c ∈ d.connections, c.Proper
  parent_mem : ∀ c ∈ d.connections, c.parent ∈ d.blocks.map (·.id)
  child_mem : ∀ c ∈ d.connections, c.child ∈ d.blocks.map (·.id)

/-! ### Diagrams of scripts -/

/-- **The blocks of a diagram** are those of its tables, in order. -/
theorem forall₂_blocks (tables : List Table) :
    List.Forall₂ (fun t (b : Block) =>
        (blockIds tables).lookup t.name = some b.id ∧ b.fields = t.columns.map (field t))
      tables (ofTables tables).blocks := by
  refine forall₂_filterMap fun t ht => ?_
  obtain ⟨id, hid⟩ := exists_blockId_iff.2 (List.mem_map_of_mem ht)
  exact ⟨⟨id, t.columns.map (field t)⟩, by rw [block?, hid]; rfl, hid, rfl⟩

theorem lookup_eq_some_of_mem {ids : List (Text × Text)} (hnodup : (ids.map (·.1)).Nodup)
    {p : Text × Text} (hp : p ∈ ids) : ids.lookup p.1 = some p.2 := by
  induction ids with
  | nil => cases hp
  | cons q ids ih =>
    obtain ⟨hq, hids⟩ := List.nodup_cons.1 hnodup
    rcases List.mem_cons.1 hp with rfl | hp
    · rw [List.lookup_cons_self]
    · have hne : (p.1 == q.1) = false := by
        rw [beq_eq_false_iff_ne]
        exact fun he => hq (List.mem_map.2 ⟨p, hp, he⟩)
      rw [List.lookup_cons, hne]
      exact ih hids hp

theorem mem_ids_of_lookup {ids : List (Text × Text)} {name id : Text}
    (h : ids.lookup name = some id) : id ∈ ids.map (·.2) := by
  obtain ⟨before, after, rfl, _⟩ := List.lookup_eq_some_iff.1 h
  simp

/-- If no two tables share a name, each block has the identifier that its
    table asked for. -/
theorem map_id_blocks {tables : List Table} (hnames : (tableNames tables).Nodup) :
    (ofTables tables).blocks.map (·.id) = (blockIds tables).map (·.2) := by
  have hids : ∀ t, (block? (blockIds tables) t).map (·.id) = (blockIds tables).lookup t.name := by
    intro t
    rw [block?, Option.map_map]
    exact Option.map_id'
  calc (ofTables tables).blocks.map (·.id)
      = (tableNames tables).filterMap fun name => (blockIds tables).lookup name := by
        rw [tableNames, List.filterMap_map, ofTables, List.map_filterMap]
        exact List.filterMap_congr fun t _ => hids t
    _ = (blockIds tables).filterMap fun p => (blockIds tables).lookup p.1 := by
        rw [← keys_blockIds, List.filterMap_map]
        rfl
    _ = (blockIds tables).filterMap fun p => some p.2 := by
        refine List.filterMap_congr fun p hp => lookup_eq_some_of_mem ?_ hp
        rwa [keys_blockIds]
    _ = (blockIds tables).map (·.2) := congrFun List.filterMap_eq_map' _

theorem isIdentifier_of_lookup {tables : List Table} {name id : Text}
    (h : (blockIds tables).lookup name = some id) : isIdentifier id = true := by
  obtain ⟨_, _, _, hissued⟩ := (yields_blockIds tables).eval
  exact hissued.isIdentifier id (hissued.sublist.subset (mem_ids_of_lookup h))

theorem Draws.proper {script : Text} {k : OwnedKey} {c : Connection}
    (hk : k ∈ resolvedKeys (Ddl.parseSchema script).tables)
    (h : Draws (Ddl.parseSchema script).tables k c) : c.Proper := by
  obtain ⟨t, ht, hk⟩ := List.mem_flatMap.1 hk
  obtain ⟨rfl, hkey, _⟩ := mem_keysOf.1 hk
  constructor
  case parent => exact isIdentifier_of_lookup h.parent
  case child => exact isIdentifier_of_lookup h.child
  case hash_not_mem =>
    rw [h.refColumns]
    exact Ddl.hash_not_mem_refColumns ht hkey
  case isPlain =>
    intro name hname
    have hwell := Ddl.wellFormed_of_mem ht
    obtain ⟨column, hcolumn, rfl⟩ := hwell.foreignKeys_declared _ hkey name (h.columns ▸ hname)
    exact hwell.isPlain_name column hcolumn

/-- **The diagram of a script can be read back.** -/
theorem proper_ofTables (script : Text) : (ofTables (Ddl.parseSchema script).tables).Proper := by
  have hids := map_id_blocks (Ddl.nodup_tableNames script)
  have hdraws := forall₂_draws (Ddl.parseSchema script).tables
  constructor
  case nodup =>
    rw [hids]
    exact nodup_blockIds _
  case blocks =>
    intro b hb
    obtain ⟨t, ht, hid, hfields⟩ := exists_left_of_mem (forall₂_blocks _) hb
    refine ⟨isIdentifier_of_lookup hid, fun f hf => ?_⟩
    rw [hfields] at hf
    obtain ⟨column, hcolumn, rfl⟩ := List.mem_map.1 hf
    obtain ⟨hne, hchars⟩ := typeToken_spec column.declaredType
    exact ⟨hne, hchars, (Ddl.wellFormed_of_mem ht).isPlain_name column hcolumn⟩
  case connections =>
    intro c hc
    obtain ⟨k, hk, hdraw⟩ := exists_left_of_mem hdraws hc
    exact Draws.proper hk hdraw
  case parent_mem =>
    intro c hc
    obtain ⟨k, _, hdraw⟩ := exists_left_of_mem hdraws hc
    rw [hids]
    exact mem_ids_of_lookup hdraw.parent
  case child_mem =>
    intro c hc
    obtain ⟨k, _, hdraw⟩ := exists_left_of_mem hdraws hc
    rw [hids]
    exact mem_ids_of_lookup hdraw.child

/-! ### Fields -/

/-- The marks behind a column. -/
def Field.marks (f : Field) : Text :=
  (if f.isPrimary then (" PK" : Text) else "") ++ (if f.isForeign then (" FK" : Text) else "")

theorem Field.line_eq (f : Field) :
    f.line = "        " ++ (f.typeToken ++ ' ' :: (f.name ++ f.marks)) := by
  unfold Field.line Field.marks
  simp only [List.append_assoc]
  rfl

/-- Marks are set off by a space. -/
theorem Field.head?_marks (f : Field) : ∀ c ∈ f.marks.head?, (c != ' ') = false := by
  obtain ⟨type, name, isPrimary, isForeign⟩ := f
  cases isPrimary <;> cases isForeign <;> simp [Field.marks]

namespace Field.Proper

variable {f f' : Field} (h : f.Proper) (h' : f'.Proper)
include h

theorem newline_not_mem : '\n' ∉ f.line := by
  have htype : '\n' ∉ f.typeToken := fun hmem => absurd (h.isTypeTokenChar _ hmem) (by decide)
  have hname : '\n' ∉ f.name := not_mem_of_isPlain h.isPlain (by decide)
  have hmarks : '\n' ∉ f.marks := by
    unfold Field.marks
    cases f.isPrimary <;> cases f.isForeign <;> decide
  simp [Field.line_eq, htype, hname, hmarks]

include h' in
/-- **A column is read back from its line.** -/
theorem line_inj (heq : f.line = f'.line) : f = f' := by
  obtain ⟨type, name, isPrimary, isForeign⟩ := f
  obtain ⟨type', name', isPrimary', isForeign'⟩ := f'
  rw [Field.line_eq, Field.line_eq] at heq
  have htypes := List.append_cancel_left heq
  obtain ⟨rfl, hnames⟩ := identifier_append_inj
    (fun c hc => isIdentifierChar_of_isTypeTokenChar (h.isTypeTokenChar c hc))
    (fun c hc => isIdentifierChar_of_isTypeTokenChar (h'.isTypeTokenChar c hc))
    (endsIdentifier_cons (by decide) _) (endsIdentifier_cons (by decide) _) htypes
  have hspace : ∀ {n : Text}, Ddl.isPlain n = true → ∀ c ∈ n, (c != ' ') = true := fun hn =>
    Text.forall_ne_of_not_mem (not_mem_of_isPlain hn (by decide))
  obtain ⟨rfl, hmarks⟩ := Text.run_append_inj (hspace h.isPlain) (hspace h'.isPlain)
    (Field.head?_marks _) (Field.head?_marks _) (List.cons.inj hnames).2
  have hflags : isPrimary = isPrimary' ∧ isForeign = isForeign' := by
    cases isPrimary <;> cases isForeign <;> cases isPrimary' <;> cases isForeign' <;>
      simp [Field.marks] at hmarks ⊢
  rw [hflags.1, hflags.2]

end Field.Proper

/-! ### Blocks -/

/-- The lines of some columns, each behind a line end. -/
def fieldsText (fields : List Field) : Text := fields.flatMap fun f => '\n' :: f.line

theorem delimited_fieldLine : Delimited (fun f : Field => '\n' :: f.line) id Field.Proper
    (fun s => ∀ c ∈ s.head?, (c != '\n') = false) where
  append_inj hx hy hs ht h := by
    obtain ⟨hline, hrest⟩ := Text.run_append_inj
      (Text.forall_ne_of_not_mem hx.newline_not_mem) (Text.forall_ne_of_not_mem hy.newline_not_mem)
      hs ht (List.cons.inj h).2
    exact ⟨hx.line_inj hy hline, hrest⟩
  follows s _ := by simp

/-- The line of a column is indented further than the brace that closes the
    block. -/
theorem endsParts_closingLine (s : Text) : EndsParts (fun f : Field => '\n' :: f.line) Field.Proper
    (fun s => ∀ c ∈ s.head?, (c != '\n') = false) ('\n' :: (Block.closingLine ++ s)) where
  follows := by simp
  ne_append {f} t _ hf := by
    have hclosing : Block.closingLine = ("    " : Text) ++ ['\x7d'] := rfl
    have hindent : ("        " : Text) = ("    " : Text) ++ ' ' :: ("   " : Text) := rfl
    rw [hclosing, Field.line_eq, hindent, List.cons_append, List.append_assoc, List.append_assoc,
      List.append_assoc] at hf
    have hnext := List.append_cancel_left (List.cons.inj hf).2
    exact absurd (List.cons.inj hnext).1 (by decide)

/-- **Where the columns of a block end.** -/
theorem fieldsText_append_inj {fields fields' : List Field} {s s' : Text}
    (h : ∀ f ∈ fields, f.Proper) (h' : ∀ f ∈ fields', f.Proper)
    (heq : fieldsText fields ++ '\n' :: (Block.closingLine ++ s) =
      fieldsText fields' ++ '\n' :: (Block.closingLine ++ s')) : fields = fields' ∧ s = s' := by
  obtain ⟨hfields, hclosing⟩ := delimited_fieldLine.flatMap_append_inj h h'
    (endsParts_closingLine s) (endsParts_closingLine s') heq
  exact ⟨hfields, List.append_cancel_left (List.cons.inj hclosing).2⟩

/-- The text of a block.  It starts on a new line. -/
def Block.text (b : Block) : Text := b.lines.flatMap fun line => '\n' :: line

theorem Block.text_eq (b : Block) :
    b.text = '\n' :: ("    " ++ (b.id ++ ' ' :: '\x7b' ::
      (fieldsText b.fields ++ '\n' :: Block.closingLine))) := by
  unfold Block.text Block.lines Block.openingLine fieldsText
  simp only [List.flatMap_append, List.flatMap_cons, List.flatMap_nil, List.flatMap_map,
    List.append_assoc, List.cons_append, List.append_nil]
  rfl

/-- **Where a block ends.** -/
theorem Block.text_append_inj {b b' : Block} {s s' : Text} (h : b.Proper) (h' : b'.Proper)
    (heq : b.text ++ s = b'.text ++ s') : b = b' ∧ s = s' := by
  obtain ⟨id, fields⟩ := b
  obtain ⟨id', fields'⟩ := b'
  simp only [Block.text_eq, List.cons_append, List.append_assoc, List.cons.injEq, true_and] at heq
  obtain ⟨rfl, hrest⟩ := identifier_append_inj (isIdentifierChar_of_mem h.isIdentifier)
    (isIdentifierChar_of_mem h'.isIdentifier) (endsIdentifier_cons (by decide) _)
    (endsIdentifier_cons (by decide) _) (List.append_cancel_left heq)
  simp only [List.cons.injEq, true_and] at hrest
  obtain ⟨rfl, hs⟩ := fieldsText_append_inj h.fields h'.fields hrest
  exact ⟨rfl, hs⟩

/-! ### Labels -/

/-- A character as it stands in a label. -/
def labelChar (c : Char) : Text := if c = '\x22' then "#quot;" else [c]

theorem label_cons (c : Char) (r : Text) : label (c :: r) = labelChar c ++ label r := rfl

/-- No label holds the mark that ends it. -/
theorem quote_not_mem_label (s : Text) : '\x22' ∉ label s := by
  induction s with
  | nil => exact List.not_mem_nil
  | cons c r ih =>
    rw [label_cons, List.mem_append, not_or]
    refine ⟨?_, ih⟩
    unfold labelChar
    split
    · decide
    · next hc => simpa using Ne.symm hc

theorem label_eq_self {s : Text} (h : '\x22' ∉ s) : label s = s := by
  induction s with
  | nil => rfl
  | cons c r ih =>
    rw [List.mem_cons, not_or] at h
    rw [label_cons, labelChar, if_neg (Ne.symm h.1), ih h.2]
    rfl

/-- A character of the text is no escape, for that starts with a `#`. -/
theorem delimited_labelChar : Delimited labelChar id (· ≠ '#') (fun _ => True) where
  append_inj {c d s t} hc hd _ _ h := by
    unfold labelChar at h
    split at h
    · next hquote =>
      split at h
      · next hquote' => exact ⟨hquote.trans hquote'.symm, List.append_cancel_left h⟩
      · exact absurd (List.cons.inj h).1.symm hd
    · split at h
      · exact absurd (List.cons.inj h).1 hc
      · exact List.cons.inj h
  follows _ _ := trivial

theorem labelChar_ne_nil (c : Char) : labelChar c ≠ [] := by
  unfold labelChar
  split <;> exact List.cons_ne_nil _ _

/-- **The escape of double quotes loses nothing** of a text without `#`. -/
theorem label_inj {s s' : Text} (h : '#' ∉ s) (h' : '#' ∉ s') (heq : label s = label s') :
    s = s' := by
  have hhash : ∀ {s : Text}, '#' ∉ s → ∀ c ∈ s, c ≠ '#' := fun hs c hc he => hs (he ▸ hc)
  exact delimited_labelChar.flatMap_inj (hhash h) (hhash h')
    (endsParts_nil trivial fun _ => labelChar_ne_nil _) heq

/-! ### Connections -/

namespace Connection

/-- How the line of a connection ends at the child. -/
def bar (c : Connection) : Text := if c.isIdentifying then "||" else "o\x7b"

/-- What the label of a connection says. -/
def caption (c : Connection) : Text :=
  label (joined ", " c.refColumns) ++ " -> " ++ label (joined ", " c.columns)

/-- The text of a connection.  It starts on a new line. -/
def text (c : Connection) : Text := '\n' :: c.line

theorem text_eq (c : Connection) :
    c.text = '\n' :: ("    " ++ (c.parent ++ ' ' :: ("||--" ++ (c.bar ++ ' ' :: (c.child ++ ' ' ::
      (": \"" ++ (c.caption ++ ['\x22']))))))) := by
  unfold text line bar caption
  simp only [List.append_assoc]
  rfl

theorem bar_append_inj {c c' : Connection} {s s' : Text} (h : c.bar ++ s = c'.bar ++ s') :
    c.isIdentifying = c'.isIdentifying ∧ s = s' := by
  unfold bar at h
  cases hc : c.isIdentifying <;> cases hc' : c'.isIdentifying <;> simp [hc, hc'] at h ⊢
  · exact h
  · exact h

/-- What the line of a connection says: where it leads, how it ends, and the
    columns on both sides.  The columns that are referred to may be called
    anything, so they are told apart only up to how they are listed. -/
structure Shown where
  parent : Text
  child : Text
  isIdentifying : Bool
  refColumns : Text
  columns : List Text
  deriving DecidableEq, Repr

/-- What the line of `c` says. -/
def shown (c : Connection) : Shown :=
  ⟨c.parent, c.child, c.isIdentifying, joined ", " c.refColumns, c.columns⟩

namespace Proper

variable {c c' : Connection} (h : c.Proper) (h' : c'.Proper)
include h

theorem not_mem_joined_columns {d : Char} (hd : Ddl.isWordChar d = false)
    (hseparator : d ∉ (", " : Text)) : d ∉ joined ", " c.columns := by
  intro hmem
  rcases Text.mem_joined hmem with hmem | ⟨name, hname, hmem⟩
  · exact hseparator hmem
  · exact not_mem_of_isPlain (h.isPlain name hname) hd hmem

theorem hash_not_mem_joined : '#' ∉ joined ", " c.refColumns := by
  intro hmem
  rcases Text.mem_joined hmem with hmem | ⟨name, hname, hmem⟩
  · exact absurd hmem (by decide)
  · exact h.hash_not_mem name hname hmem

include h' in
/-- **Both lists of columns are read back from a label.**  The second of them
    holds no `>`, so they are divided at the last one. -/
theorem caption_inj (heq : c.caption = c'.caption) :
    joined ", " c.refColumns = joined ", " c'.refColumns ∧ c.columns = c'.columns := by
  have hplain : ∀ {k : Connection}, k.Proper →
      k.caption =
        (label (joined ", " k.refColumns) ++ " -") ++ '>' :: (' ' :: joined ", " k.columns)
        ∧ '>' ∉ ' ' :: joined ", " k.columns := by
    intro k hk
    constructor
    · rw [caption, label_eq_self (hk.not_mem_joined_columns (by decide) (by decide)),
        List.append_assoc, List.append_assoc]
      rfl
    · rw [List.mem_cons, not_or]
      exact ⟨by decide, hk.not_mem_joined_columns (by decide) (by decide)⟩
  rw [(hplain h).1, (hplain h').1] at heq
  obtain ⟨hrefs, hcolumns⟩ := append_lastMark_inj (hplain h).2 (hplain h').2 heq
  refine ⟨label_inj h.hash_not_mem_joined h'.hash_not_mem_joined
    (List.append_cancel_right hrefs), ?_⟩
  have hitems : ∀ {k : Connection}, k.Proper → ∀ name ∈ k.columns, name ≠ [] ∧ ',' ∉ name :=
    fun hk name hname => ⟨Ddl.ne_nil_of_isPlain (hk.isPlain name hname),
      not_mem_of_isPlain (hk.isPlain name hname) (by decide)⟩
  exact joined_comma_inj (hitems h) (hitems h') (List.cons.inj hcolumns).2

end Proper

theorem quote_not_mem_caption (c : Connection) : '\x22' ∉ c.caption := by
  simp only [caption, List.mem_append, not_or]
  exact ⟨⟨quote_not_mem_label _, by decide⟩, quote_not_mem_label _⟩

/-- **Where a connection ends.** -/
theorem text_append_inj {c c' : Connection} {s s' : Text} (h : c.Proper) (h' : c'.Proper)
    (heq : c.text ++ s = c'.text ++ s') : c.shown = c'.shown ∧ s = s' := by
  simp only [text_eq, List.cons_append, List.append_assoc, List.cons.injEq, true_and,
    List.nil_append] at heq
  obtain ⟨hparent, hrest⟩ := identifier_append_inj (isIdentifierChar_of_mem h.parent)
    (isIdentifierChar_of_mem h'.parent) (endsIdentifier_cons (by decide) _)
    (endsIdentifier_cons (by decide) _) (List.append_cancel_left heq)
  obtain ⟨hbar, hrest⟩ := bar_append_inj (List.append_cancel_left (List.cons.inj hrest).2)
  obtain ⟨hchild, hrest⟩ := identifier_append_inj (isIdentifierChar_of_mem h.child)
    (isIdentifierChar_of_mem h'.child) (endsIdentifier_cons (by decide) _)
    (endsIdentifier_cons (by decide) _) (List.cons.inj hrest).2
  -- the first double quote behind the caption is the one that ends it
  obtain ⟨hcaption, hs⟩ := append_firstMark_inj (quote_not_mem_caption c)
    (quote_not_mem_caption c') (List.append_cancel_left (List.cons.inj hrest).2)
  obtain ⟨hrefs, hcolumns⟩ := h.caption_inj h' hcaption
  refine ⟨?_, hs⟩
  rw [shown, shown, hparent, hchild, hbar, hrefs, hcolumns]

end Connection

/-! ### Diagrams -/

theorem render_eq (d : CrowsFoot) : d.render =
    heading ++ (d.blocks.flatMap Block.text ++ d.connections.flatMap Connection.text) := by
  rw [render, lines, List.cons_append, joined_newline, List.flatMap_append, List.flatMap_assoc,
    List.flatMap_map]
  rfl

/-- The brace of a block stands where a connection has its first bar. -/
theorem Block.text_append_ne {b : Block} {c : Connection} (hb : b.Proper) (hc : c.Proper)
    (s s' : Text) : b.text ++ s ≠ c.text ++ s' := by
  intro heq
  simp only [Block.text_eq, Connection.text_eq, List.cons_append, List.append_assoc,
    List.cons.injEq, true_and] at heq
  obtain ⟨_, hrest⟩ := identifier_append_inj (isIdentifierChar_of_mem hb.isIdentifier)
    (isIdentifierChar_of_mem hc.parent) (endsIdentifier_cons (by decide) _)
    (endsIdentifier_cons (by decide) _) (List.append_cancel_left heq)
  exact absurd (List.cons.inj (List.cons.inj hrest).2).1 (by decide)

theorem delimited_block : Delimited Block.text id Block.Proper (fun _ => True) where
  append_inj hb hb' _ _ h := Block.text_append_inj hb hb' h
  follows _ _ := trivial

theorem delimited_connection :
    Delimited Connection.text Connection.shown Connection.Proper (fun _ => True) where
  append_inj hc hc' _ _ h := Connection.text_append_inj hc hc' h
  follows _ _ := trivial

theorem endsParts_connections {cs : List Connection} (hcs : ∀ c ∈ cs, c.Proper) :
    EndsParts Block.text Block.Proper (fun _ => True) (cs.flatMap Connection.text) where
  follows := trivial
  ne_append t hb := by
    cases cs with
    | nil => simp [Block.text_eq]
    | cons c cs => exact Block.text_append_ne hb (List.forall_mem_cons.1 hcs).1 _ _

/-- **A diagram is read back from its text.** -/
theorem Proper.render_inj {d d' : CrowsFoot} (h : d.Proper) (h' : d'.Proper)
    (heq : d.render = d'.render) :
    d.blocks = d'.blocks ∧
      d.connections.map Connection.shown = d'.connections.map Connection.shown := by
  rw [render_eq, render_eq] at heq
  obtain ⟨hblocks, hconnections⟩ := delimited_block.flatMap_append_inj h.blocks h'.blocks
    (endsParts_connections h.connections) (endsParts_connections h'.connections)
    (List.append_cancel_left heq)
  have hnil : EndsParts Connection.text Connection.Proper (fun _ => True) [] :=
    endsParts_nil trivial fun _ => List.cons_ne_nil _ _
  refine ⟨hblocks, (delimited_connection.map_flatMap_append_inj h.connections h'.connections hnil
    hnil ?_).1⟩
  rw [hconnections]

/-! ### The form of a text -/

/-- The line shows the column `c`: a type of capitals, digits and underscores,
    the name of the column, which is plain, and the marks of keys. -/
def ShowsColumn (c : Column) (line : Text) : Prop :=
  ∃ type marks : Text, type ≠ [] ∧ (∀ d ∈ type, isTypeTokenChar d = true) ∧
    isPlain c.name = true ∧ marks ∈ ([[], " PK", " FK", " PK FK"] : List Text) ∧
    line = "        " ++ type ++ " " ++ c.name ++ marks

/-- The lines show the table `t` as a block that is called `id`. -/
def ShowsTable (t : Table) (id : Text) (lines : List Text) : Prop :=
  isIdentifier id = true ∧ ∃ columns : List Text, List.Forall₂ ShowsColumn t.columns columns ∧
    lines = ("    " ++ id ++ " \x7b" : Text) :: columns ++ [("    \x7d" : Text)]

/-- The line leads from one of the blocks `ids` to one of them. -/
def IsConnectionLine (ids : List Text) (line : Text) : Prop :=
  ∃ parent ∈ ids, ∃ child ∈ ids, ∃ bar ∈ (["||", "o\x7b"] : List Text), ∃ caption : Text,
    '\x22' ∉ caption ∧
      line = "    " ++ parent ++ " ||--" ++ bar ++ " " ++ child ++ " : \"" ++ caption ++ "\""

/-- The text shows `tables`, in order, in blocks that are called `ids`, and then
    connections between these blocks. -/
def ShowsTables (tables : List Table) (ids : List Text) (text : Text) : Prop :=
  ∃ (blocks : List (Text × List Text)) (connections : List Text),
    blocks.map (·.1) = ids ∧
      List.Forall₂ (fun t (id, lines) => ShowsTable t id lines) tables blocks ∧
      (∀ line ∈ connections, IsConnectionLine ids line) ∧
      text = joined "\n" (("erDiagram" : Text) :: blocks.flatMap (·.2) ++ connections)

theorem Field.Proper.showsColumn {t : Table} {c : Column} (h : (field t c).Proper) :
    ShowsColumn c (field t c).line := by
  refine ⟨(field t c).typeToken, (field t c).marks, h.typeToken_ne_nil, h.isTypeTokenChar,
    h.isPlain, ?_, ?_⟩
  · unfold Field.marks
    cases (field t c).isPrimary <;> cases (field t c).isForeign <;> decide
  · rw [Field.line_eq]
    simp only [List.append_assoc]
    rfl

theorem showsTable_lines {t : Table} {b : Block} (h : b.Proper)
    (hfields : b.fields = t.columns.map (field t)) : ShowsTable t b.id b.lines := by
  refine ⟨h.isIdentifier, b.fields.map Field.line, ?_, rfl⟩
  rw [hfields, List.map_map, List.forall₂_map_right_iff, List.forall₂_same]
  intro column hcolumn
  refine Field.Proper.showsColumn (h.fields _ ?_)
  rw [hfields]
  exact List.mem_map_of_mem hcolumn

theorem isConnectionLine_line {ids : List Text} {c : Connection} (hparent : c.parent ∈ ids)
    (hchild : c.child ∈ ids) : IsConnectionLine ids c.line := by
  refine ⟨c.parent, hparent, c.child, hchild, c.bar, ?_, c.caption, c.quote_not_mem_caption, ?_⟩
  · unfold Connection.bar
    cases c.isIdentifying <;> decide
  · unfold Connection.line Connection.bar Connection.caption
    simp only [List.append_assoc]

/-- **The text of a proper diagram** shows its tables. -/
theorem Proper.showsTables {tables : List Table} (h : (ofTables tables).Proper) :
    ShowsTables tables ((ofTables tables).blocks.map (·.id)) (ofTables tables).render := by
  refine ⟨(ofTables tables).blocks.map fun b => (b.id, b.lines),
    (ofTables tables).connections.map Connection.line, ?_, ?_, fun line hline => ?_, ?_⟩
  · rw [List.map_map]
    rfl
  · rw [List.forall₂_map_right_iff]
    have hblocks := forall₂_imp_of_mem (forall₂_blocks tables).flip
      (S := fun b t => ShowsTable t b.id b.lines) fun b hb t ht =>
        showsTable_lines (h.blocks b hb) ht.2
    exact hblocks.flip
  · obtain ⟨c, hc, rfl⟩ := List.mem_map.1 hline
    exact isConnectionLine_line (h.parent_mem c hc) (h.child_mem c hc)
  · rw [render, lines, List.flatMap_map]
    rfl

/-! ### What a text says of the tables -/

/-- The column `c` of `t` and the column `c'` of `t'` have the same type word
    and the same name, and belong to the keys of their tables alike. -/
structure SameColumn (t t' : Table) (c c' : Column) : Prop where
  typeToken : SchemaDiagram.typeToken c.declaredType = SchemaDiagram.typeToken c'.declaredType
  name : c.name = c'.name
  isPrimary : c.name ∈ t.primaryKeys ↔ c'.name ∈ t'.primaryKeys
  isForeign : (∃ key ∈ t.foreignKeys, c.name ∈ key.columns) ↔
    ∃ key ∈ t'.foreignKeys, c'.name ∈ key.columns

/-- The two tables have the same columns, in the same order. -/
def SameColumns (t t' : Table) : Prop :=
  List.Forall₂ (SameColumn t t') t.columns t'.columns

/-- **A field shows just this** of a column. -/
theorem field_eq_iff {t t' : Table} {c c' : Column} :
    field t c = field t' c' ↔ SameColumn t t' c c' := by
  simp only [field, Field.mk.injEq, Table.isPrimary, decide_eq_decide, Table.mem_foreignKeyColumns]
  constructor
  · rintro ⟨htype, hname, hprimary, hforeign⟩
    exact ⟨htype, hname, hprimary, hforeign⟩
  · rintro ⟨htype, hname, hprimary, hforeign⟩
    exact ⟨htype, hname, hprimary, hforeign⟩

/-- **Diagrams with the same blocks** are of tables with the same columns. -/
theorem sameColumns_of_blocks_eq {tables tables' : List Table}
    (h : (ofTables tables).blocks = (ofTables tables').blocks) :
    List.Forall₂ SameColumns tables tables' := by
  have hblocks' := forall₂_blocks tables'
  rw [← h] at hblocks'
  refine (forall₂_comp (forall₂_blocks tables) hblocks'.flip).imp fun t t' hboth => ?_
  obtain ⟨b, ⟨-, hfields⟩, -, hfields'⟩ := hboth
  have hsame : ∀ c c', SameColumn t t' c c' ↔ field t c = field t' c' := fun _ _ =>
    field_eq_iff.symm
  exact (forall₂_iff_map_eq_map hsame).2 (hfields.symm.trans hfields')

/-- The crow's-foot diagram of a script. -/
def ofScript (script : Text) : CrowsFoot := ofTables (Ddl.parseSchema script).tables

/-- **The crow's-foot text of a script can be read back.**  It shows the
    tables of the script in order, in blocks of different identifiers, and then
    connections between these blocks.  And where two scripts have the same
    text, their tables are shown in blocks of the same identifiers and have the
    same columns, down to the type word, the name and the place in the keys,
    and their diagrams have connections that say the same. -/
theorem render_ofScript_readable :
    (∀ script : Text,
        ((ofScript script).blocks.map (·.id)).Nodup ∧
          ShowsTables (Ddl.parseSchema script).tables ((ofScript script).blocks.map (·.id))
            (ofScript script).render) ∧
      ∀ script script' : Text, (ofScript script).render = (ofScript script').render →
        (ofScript script).blocks = (ofScript script').blocks ∧
          List.Forall₂ SameColumns (Ddl.parseSchema script).tables
            (Ddl.parseSchema script').tables ∧
          (ofScript script).connections.map Connection.shown =
            (ofScript script').connections.map Connection.shown := by
  constructor
  · intro script
    have h := proper_ofTables script
    exact ⟨h.nodup, h.showsTables⟩
  · intro script script' heq
    obtain ⟨hblocks, hconnections⟩ :=
      (proper_ofTables script).render_inj (proper_ofTables script') heq
    exact ⟨hblocks, sameColumns_of_blocks_eq hblocks, hconnections⟩

/-- Two scripts with the same text.  The second writes its words in another
    case, gives the type a size, and refers to two columns where the first
    refers to one column whose name holds a comma. -/
theorem render_ofScript_readable_resized :
    let script : Text :=
      "CREATE TABLE a (x INT, PRIMARY KEY (x), FOREIGN KEY (x) REFERENCES a (\x60p, q\x60));"
    let script' : Text := "create table \x60a\x60 (x int(11) primary key references a (p, q))"
    (ofScript script).blocks = (ofScript script').blocks ∧
      List.Forall₂ SameColumns (Ddl.parseSchema script).tables (Ddl.parseSchema script').tables ∧
      (ofScript script).connections.map Connection.shown =
        (ofScript script').connections.map Connection.shown := by
  intro script script'
  exact render_ofScript_readable.2 script script' (by decide +kernel)

end CrowsFoot

end SchemaDiagram
