import SchemaDiagram.Diagram.Flowchart
import SchemaDiagram.Proofs.Delimiting
import SchemaDiagram.Proofs.Identifiers

/-! # FigureText — reading the figures of a drawing back from its text

    The text of a graph is a heading and then one figure after another:
    entities, attributes, relationships, and the edges between them.  Names
    may hold anything, line ends and quotes included, so lines cannot be told
    apart by their ends; a figure is read from its front.

      * `Figure`                  — what one piece of a drawing says
      * `figures`, `render_eq`    — the figures of a graph make up its text
      * `EndsIdentifier`          — an identifier does not go on into a text
      * `identifier_append_inj`, `label_append_inj`
                                  — where an identifier and a label end
      * `text_append_inj`         — where a figure ends
      * `flatMap_text_inj`        — **texts of different figures differ** -/

namespace SchemaDiagram.ChenGraph

/-! ### Figures -/

/-- A piece of a drawing. -/
inductive Figure where
  /-- an entity -/
  | box (id name : Text)
  /-- an attribute of the node `owner` -/
  | oval (owner : Text) (a : Attribute)
  /-- a relationship -/
  | rhomb (id name : Text)
  /-- a line between two nodes -/
  | edge (first : Text) (cardinality : Cardinality) (second : Text)
  deriving DecidableEq, Repr

/-- The edges of a relationship, as figures. -/
def Relationship.edges (r : Relationship) : List Figure :=
  match r.origin, r.endpoints with
  | .foreignKey, [parent, child] =>
    [.edge parent.entityId parent.cardinality r.id, .edge r.id child.cardinality child.entityId]
  | _, ends => ends.map fun e => .edge e.entityId e.cardinality r.id

/-- The figures of a relationship. -/
def Relationship.figures (r : Relationship) : List Figure :=
  .rhomb r.id r.name :: (r.edges ++ r.attributes.map (.oval r.id))

/-- The figures of a graph, in the order in which they are drawn. -/
def figures (g : ChenGraph) : List Figure :=
  g.entities.map (fun e => .box e.id e.name)
    ++ g.entities.flatMap (fun e => e.attributes.map (.oval e.id))
    ++ g.relationships.flatMap Relationship.figures

namespace Figure

/-- What the label of an attribute says. -/
def attributeLabel (a : Attribute) : Text := if a.isPrimary then a.name ++ " (PK)" else a.name

/-- The style of an attribute. -/
def attributeStyle (isPrimary : Bool) : Text := if isPrimary then "attribute,pk" else "attribute"

/-- The node that a figure starts with. -/
def subject : Figure → Text
  | box id _ => id
  | oval _ a => a.id
  | rhomb id _ => id
  | edge first _ _ => first

/-- What a figure says about its subject. -/
def statement : Figure → Text
  | box id name =>
    '[' :: '\x22' :: (label name ++ '\x22' :: ("]\n    class " ++ (id ++ " entity;")))
  | oval owner a =>
    '(' :: '[' :: '\x22' :: (label (attributeLabel a) ++ '\x22' :: ("])\n    class " ++ (a.id ++
      (' ' :: (attributeStyle a.isPrimary ++ (";\n    " ++ (owner ++ ' ' :: ("--- " ++ a.id))))))))
  | rhomb id name =>
    '\x7b' :: '\x22' :: (label name ++ '\x22' :: ("\x7d\n    class " ++ (id ++ " relationship;")))
  | edge _ cardinality second => ' ' :: ("---|" ++ (cardinality.mark ++ ("| " ++ second)))

/-- The text of a figure.  It starts on a new line. -/
def text (f : Figure) : Text := '\n' :: ("    " ++ (f.subject ++ f.statement))

/-- All nodes that a figure speaks of are called by identifiers. -/
def Proper : Figure → Prop
  | box id _ => isIdentifier id = true
  | oval owner a => isIdentifier owner = true ∧ isIdentifier a.id = true
  | rhomb id _ => isIdentifier id = true
  | edge first _ second => isIdentifier first = true ∧ isIdentifier second = true

theorem Proper.subject {f : Figure} (h : f.Proper) : isIdentifier f.subject = true := by
  cases f with
  | box => exact h
  | oval => exact h.2
  | rhomb => exact h
  | edge => exact h.1

end Figure

/-! ### The text of a graph -/

/-- Lines are written with a line end in front of all but the first. -/
theorem joined_newline (first : Text) (lines : List Text) :
    Text.joined "\n" (first :: lines) = first ++ lines.flatMap fun line => '\n' :: line :=
  Text.joined_cons "\n" first lines

theorem entityLines_eq (e : Entity) :
    (entityLines e).flatMap (fun line => '\n' :: line) = (Figure.box e.id e.name).text := by
  simp [entityLines, Figure.text, Figure.subject, Figure.statement]

theorem attributeLines_eq (owner : Text) (a : Attribute) :
    (attributeLines owner a).flatMap (fun line => '\n' :: line) =
      (Figure.oval owner a).text := by
  cases h : a.isPrimary <;>
    simp [attributeLines, Figure.text, Figure.subject, Figure.statement, Figure.attributeLabel,
      Figure.attributeStyle, h]

theorem edgeLine_eq (first : Text) (cardinality : Cardinality) (second : Text) :
    '\n' :: edgeLine first cardinality second = (Figure.edge first cardinality second).text := by
  unfold edgeLine
  simp [Figure.text, Figure.subject, Figure.statement]

theorem edgeLines_eq (r : Relationship) :
    (edgeLines r).flatMap (fun line => '\n' :: line) = r.edges.flatMap Figure.text := by
  obtain ⟨id, name, ends, attributes, origin⟩ := r
  cases origin with
  | associative => simp only [edgeLines, Relationship.edges, List.flatMap_map, edgeLine_eq]
  | foreignKey =>
    rcases ends with _ | ⟨parent, _ | ⟨child, _ | ⟨next, ends⟩⟩⟩ <;>
      simp only [edgeLines, Relationship.edges, List.map_nil, List.map_cons, List.flatMap_nil,
        List.flatMap_cons, List.flatMap_map, edgeLine_eq]

theorem relationshipLines_eq (r : Relationship) :
    (relationshipLines r).flatMap (fun line => '\n' :: line) = r.figures.flatMap Figure.text := by
  have hrhomb : ["    " ++ r.id ++ "\x7b\"" ++ label r.name ++ "\"\x7d",
      "    class " ++ r.id ++ " relationship;"].flatMap (fun line => '\n' :: line) =
      (Figure.rhomb r.id r.name).text := by
    simp [Figure.text, Figure.subject, Figure.statement]
  have hattributes : (r.attributes.flatMap (attributeLines r.id)).flatMap
      (fun line => '\n' :: line) = (r.attributes.map (.oval r.id)).flatMap Figure.text := by
    simp only [List.flatMap_assoc, attributeLines_eq, List.flatMap_map]
  rw [relationshipLines, List.flatMap_append, List.flatMap_append, hrhomb, edgeLines_eq,
    hattributes, Relationship.figures, List.flatMap_cons, List.flatMap_append, List.append_assoc]

/-- What stands in front of the figures. -/
def preamble : Text := Text.joined "\n" (heading :: classDefinitions)

/-- **The figures of a graph make up its text**, behind a preamble that all
    graphs share. -/
theorem render_eq (g : ChenGraph) : g.render = preamble ++ g.figures.flatMap Figure.text := by
  have hentities : (g.entities.flatMap entityLines).flatMap (fun line => '\n' :: line) =
      (g.entities.map fun e => Figure.box e.id e.name).flatMap Figure.text := by
    simp only [List.flatMap_assoc, entityLines_eq, List.flatMap_map]
  have hattributes : (g.entities.flatMap fun e =>
        e.attributes.flatMap (attributeLines e.id)).flatMap (fun line => '\n' :: line) =
      (g.entities.flatMap fun e => e.attributes.map (.oval e.id)).flatMap Figure.text := by
    simp only [List.flatMap_assoc, attributeLines_eq, List.flatMap_map]
  have hrelationships : (g.relationships.flatMap relationshipLines).flatMap
      (fun line => '\n' :: line) =
      (g.relationships.flatMap Relationship.figures).flatMap Figure.text := by
    simp only [List.flatMap_assoc, relationshipLines_eq]
  have hlines : g.lines = heading :: (classDefinitions ++ (g.entities.flatMap entityLines
      ++ (g.entities.flatMap (fun e => e.attributes.flatMap (attributeLines e.id))
      ++ g.relationships.flatMap relationshipLines))) := by
    simp only [lines, List.append_assoc, List.cons_append]
  rw [render, hlines, joined_newline, List.flatMap_append, List.flatMap_append,
    List.flatMap_append, hentities, hattributes, hrelationships, preamble, joined_newline, figures,
    List.flatMap_append, List.flatMap_append, List.append_assoc, List.append_assoc]

/-! ### Where identifiers and labels end -/

/-- No identifier that stands in front of `s` goes on into `s`. -/
def EndsIdentifier (s : Text) : Prop := ∀ c ∈ s.head?, isIdentifierChar c = false

theorem endsIdentifier_cons {c : Char} (h : isIdentifierChar c = false) (s : Text) :
    EndsIdentifier (c :: s) := by
  intro d hd
  obtain rfl := Option.some.inj hd
  exact h

/-- **Where an identifier ends.** -/
theorem identifier_append_inj {id id' s s' : Text} (hid : ∀ c ∈ id, isIdentifierChar c = true)
    (hid' : ∀ c ∈ id', isIdentifierChar c = true) (hs : EndsIdentifier s) (hs' : EndsIdentifier s')
    (h : id ++ s = id' ++ s') : id = id' ∧ s = s' :=
  Text.run_append_inj hid hid' hs hs' h

/-- A character as it stands in a label. -/
def labelChar (c : Char) : Text := if c = '\\' ∨ c = '\x22' then ['\\', c] else [c]

theorem delimited_labelChar :
    Text.Delimited labelChar id (fun _ => True) (fun _ => True) where
  append_inj _ _ _ _ h := by
    unfold labelChar at h
    split at h
    · split at h
      · simpa using h
      · next hd => exact absurd (Or.inl (List.cons.inj h).1.symm) hd
    · next hc =>
      split at h
      · exact absurd (Or.inl (List.cons.inj h).1) hc
      · simpa using h
  follows _ _ := trivial

/-- No character of a label is read as the mark that ends it. -/
theorem endsParts_quote (s : Text) :
    Text.EndsParts labelChar (fun _ => True) (fun _ => True) ('\x22' :: s) where
  follows := trivial
  ne_append t _ := by
    unfold labelChar
    split
    · intro h
      exact absurd (List.cons.inj h).1 (by decide)
    · next hc =>
      intro h
      exact hc (Or.inr (List.cons.inj h).1)

/-- **Where a label ends.**  The first double quote without a backslash of its
    own is the one behind the label. -/
theorem label_append_inj {name name' s s' : Text}
    (h : label name ++ '\x22' :: s = label name' ++ '\x22' :: s') : name = name' ∧ s = s' := by
  obtain ⟨hname, hrest⟩ := delimited_labelChar.flatMap_append_inj (fun _ _ => trivial)
    (fun _ _ => trivial) (endsParts_quote s) (endsParts_quote s') h
  exact ⟨hname, (List.cons.inj hrest).2⟩

/-! ### Where a figure ends -/

namespace Figure

theorem endsIdentifier_statement (f : Figure) (s : Text) : EndsIdentifier (f.statement ++ s) := by
  cases f with
  | box => exact endsIdentifier_cons (by decide) _
  | oval => exact endsIdentifier_cons (by decide) _
  | rhomb => exact endsIdentifier_cons (by decide) _
  | edge => exact endsIdentifier_cons (by decide) _

theorem attributeStyle_append_inj {b b' : Bool} {s s' : Text}
    (h : attributeStyle b ++ (";\n    " ++ s) = attributeStyle b' ++ (";\n    " ++ s')) :
    b = b' ∧ s = s' := by
  cases b <;> cases b' <;> simp [attributeStyle] at h ⊢
  · exact h
  · exact h

theorem mark_append_inj {c c' : Cardinality} {s s' : Text} (h : c.mark ++ s = c'.mark ++ s') :
    c = c' ∧ s = s' := by
  cases c <;> cases c' <;> simp [Cardinality.mark] at h ⊢
  · exact h
  · exact h

theorem attributeLabel_inj {a a' : Attribute} (hp : a.isPrimary = a'.isPrimary)
    (h : attributeLabel a = attributeLabel a') : a.name = a'.name := by
  unfold attributeLabel at h
  rw [hp] at h
  split at h
  · exact List.append_cancel_right h
  · exact h

/-- What is said about one subject determines the figure. -/
theorem statement_append_inj {f f' : Figure} {s s' : Text} (hf : f.Proper) (hf' : f'.Proper)
    (hs : EndsIdentifier s) (hs' : EndsIdentifier s') (hsubject : f.subject = f'.subject)
    (h : f.statement ++ s = f'.statement ++ s') : f = f' ∧ s = s' := by
  cases f with
  | box id name =>
    cases f' with
    | box id' name' =>
      obtain rfl : id = id' := hsubject
      simp only [statement, List.cons_append, List.append_assoc, List.cons.injEq, true_and] at h
      obtain ⟨rfl, hrest⟩ := label_append_inj h
      exact ⟨rfl, by simpa using hrest⟩
    | _ => exact absurd (List.cons.inj h).1 (by decide)
  | rhomb id name =>
    cases f' with
    | rhomb id' name' =>
      obtain rfl : id = id' := hsubject
      simp only [statement, List.cons_append, List.append_assoc, List.cons.injEq, true_and] at h
      obtain ⟨rfl, hrest⟩ := label_append_inj h
      exact ⟨rfl, by simpa using hrest⟩
    | _ => exact absurd (List.cons.inj h).1 (by decide)
  | oval owner a =>
    cases f' with
    | oval owner' a' =>
      have hid : a.id = a'.id := hsubject
      simp only [statement, List.cons_append, List.append_assoc, List.cons.injEq, true_and,
        hid] at h
      obtain ⟨hlabel, hclass⟩ := label_append_inj h
      have hstyle := List.append_cancel_left (List.append_cancel_left hclass)
      -- the style tells whether the label ends in the mark of a primary key
      obtain ⟨hprimary, hlink⟩ := attributeStyle_append_inj (List.cons.inj hstyle).2
      obtain ⟨rfl, hrest⟩ := identifier_append_inj (isIdentifierChar_of_mem hf.1)
        (isIdentifierChar_of_mem hf'.1) (endsIdentifier_cons (by decide) _)
        (endsIdentifier_cons (by decide) _) hlink
      have hname := attributeLabel_inj hprimary hlabel
      have ha : a = a' := by
        cases a
        cases a'
        cases hid
        cases hname
        cases hprimary
        rfl
      have hs := List.append_cancel_left (List.append_cancel_left (List.cons.inj hrest).2)
      exact ⟨ha ▸ rfl, hs⟩
    | _ => exact absurd (List.cons.inj h).1 (by decide)
  | edge first cardinality second =>
    cases f' with
    | edge first' cardinality' second' =>
      obtain rfl : first = first' := hsubject
      simp only [statement, List.cons_append, List.append_assoc, List.cons.injEq, true_and] at h
      obtain ⟨rfl, hsecond⟩ := mark_append_inj (List.append_cancel_left h)
      obtain ⟨rfl, hrest⟩ := identifier_append_inj (isIdentifierChar_of_mem hf.2)
        (isIdentifierChar_of_mem hf'.2) hs hs' (List.append_cancel_left hsecond)
      exact ⟨rfl, hrest⟩
    | _ => exact absurd (List.cons.inj h).1 (by decide)

/-- **Where a figure ends.** -/
theorem text_append_inj {f f' : Figure} {s s' : Text} (hf : f.Proper) (hf' : f'.Proper)
    (hs : EndsIdentifier s) (hs' : EndsIdentifier s') (h : f.text ++ s = f'.text ++ s') :
    f = f' ∧ s = s' := by
  simp only [text, List.cons_append, List.append_assoc, List.cons.injEq, true_and] at h
  obtain ⟨hsubject, hstatement⟩ := identifier_append_inj (isIdentifierChar_of_mem hf.subject)
    (isIdentifierChar_of_mem hf'.subject) (endsIdentifier_statement f s)
    (endsIdentifier_statement f' s') (List.append_cancel_left h)
  exact statement_append_inj hf hf' hs hs' hsubject hstatement

theorem delimited_text : Text.Delimited text id Proper EndsIdentifier where
  append_inj hf hf' hs hs' h := text_append_inj hf hf' hs hs' h
  follows _ _ := endsIdentifier_cons (by decide) _

/-- **Texts of different figures differ.** -/
theorem flatMap_text_inj {figures figures' : List Figure} (hf : ∀ f ∈ figures, f.Proper)
    (hf' : ∀ f ∈ figures', f.Proper) (h : figures.flatMap text = figures'.flatMap text) :
    figures = figures' := by
  have hnil : EndsIdentifier [] := by simp [EndsIdentifier]
  exact delimited_text.flatMap_inj hf hf'
    (Text.endsParts_nil hnil fun _ => List.cons_ne_nil _ _) h

end Figure

end SchemaDiagram.ChenGraph
