import Mathlib.Data.List.Infix
import SchemaDiagram.Command.FileTree

/-! # FileWriting — what writing a file changes

    A directory is a place on the way to a file or to the working directory.
    Every step of a path starts in a directory, so the place that a path leads
    to lies in a place on the way.  A file that is put there brings no
    directory with it, and nothing else is seen to change.

      * `bind_eq_ok_iff`             — computations that succeed
      * `IsOnWay`                    — places that are directories, unless a
                                       file stands there
      * `entry_eq_folder_iff`        — what a directory is
      * `isOnWay_dropLast_of_step`   — one step
      * `isOnWay_dropLast_of_resolve`— a whole path
      * `entry_put_of_ne`            — one file more, seen from another place
      * `resolve_of_folders`         — a path leads where it led as long as
                                       its directories are there
      * `ChangesOnly`                — a write of one file
      * `changesOnly_of_write`       — a write that succeeds is one -/

namespace SchemaDiagram.Command

/-! ### What succeeds -/

section Success

variable {ε α β : Type} {x : Except ε α} {a : α}

/-- Of two computations, one behind the other, both have to succeed. -/
theorem bind_eq_ok_iff {f : α → Except ε β} {b : β} :
    x >>= f = .ok b ↔ ∃ a, x = .ok a ∧ f a = .ok b := by
  cases x with
  | error e => simp [bind, Except.bind]
  | ok a => simp [bind, Except.bind]

/-- Behind a refusal the condition for it does not hold. -/
theorem ite_error_eq_ok_iff {p : Prop} [Decidable p] {e : ε} :
    (if p then .error e else x) = .ok a ↔ ¬ p ∧ x = .ok a := by
  by_cases hp : p
  · simp [hp]
  · simp [hp]

end Success

namespace FileTree

/-! ### Directories -/

/-- A file or the working directory is at `place` or lies below it. -/
def IsOnWay (tree : FileTree) (place : List Text) : Prop :=
  place <+: tree.working ∨ ∃ f ∈ tree.files, place <+: f.1

section Entries

variable {tree tree' : FileTree} {place : List Text}

theorem IsOnWay.above (h : tree.IsOnWay place) {folder : List Text} (hfolder : folder <+: place) :
    tree.IsOnWay folder := by
  rcases h with h | ⟨f, hf, h⟩
  · exact Or.inl (hfolder.trans h)
  · exact Or.inr ⟨f, hf, hfolder.trans h⟩

theorem IsOnWay.dropLast (h : tree.IsOnWay place) : tree.IsOnWay place.dropLast := by
  have hup : place.dropLast <+: place := List.dropLast_prefix place
  exact h.above hup

theorem isOnWay_start (tree : FileTree) (path : Path) : tree.IsOnWay (path.start tree.working) := by
  unfold Path.start
  split
  · exact Or.inl List.nil_prefix
  · exact Or.inl (List.prefix_refl _)

theorem isOnWay_iff : (place.isPrefixOf tree.working ||
    tree.files.any fun (path, _) => place.isPrefixOf path) = true ↔ tree.IsOnWay place := by
  simp [IsOnWay]

/-- A place is a directory if it is on the way and no file stands there. -/
theorem entry_eq_folder_iff :
    tree.entry place = .folder ↔ tree.files.lookup place = none ∧ tree.IsOnWay place := by
  unfold entry
  cases tree.files.lookup place with
  | some content => simp
  | none =>
    by_cases hway : tree.IsOnWay place
    · simp only [if_pos (isOnWay_iff.2 hway), hway, and_self]
    · simp only [if_neg (mt isOnWay_iff.1 hway), hway, and_false, reduceCtorEq]

/-- What a place holds is known from the files there and from the ways. -/
theorem entry_congr (hlookup : tree'.files.lookup place = tree.files.lookup place)
    (hway : tree'.IsOnWay place ↔ tree.IsOnWay place) : tree'.entry place = tree.entry place := by
  rw [← isOnWay_iff, ← isOnWay_iff, ← Bool.eq_iff_iff] at hway
  unfold entry
  rw [hlookup, hway]

theorem requireFolder_eq_ok_iff : tree.requireFolder place = .ok () ↔ tree.entry place = .folder := by
  unfold requireFolder
  cases tree.entry place <;> simp

end Entries

/-! ### Paths -/

section Paths

variable {tree tree' : FileTree}

/-- **One step** starts in a directory; it stays there, goes up or goes down. -/
theorem step_eq_ok {place next : List Text} {name : Text} (h : tree.step place name = .ok next) :
    tree.entry place = .folder ∧
      (next = place ∨ next = place.dropLast ∨ next = place ++ [name]) := by
  obtain ⟨_, hfolder, h⟩ := bind_eq_ok_iff.1 h
  refine ⟨requireFolder_eq_ok_iff.1 hfolder, ?_⟩
  split at h
  · exact Or.inl (Except.ok.inj h).symm
  · split at h
    · exact Or.inr (Or.inl (Except.ok.inj h).symm)
    · obtain ⟨-, h⟩ := ite_error_eq_ok_iff.1 h
      exact Or.inr (Or.inr (Except.ok.inj h).symm)

/-- The place that a step leads to lies in a place on the way. -/
theorem isOnWay_dropLast_of_step {place next : List Text} {name : Text}
    (h : tree.step place name = .ok next) : tree.IsOnWay next.dropLast := by
  obtain ⟨hfolder, hnext⟩ := step_eq_ok h
  have hway := (entry_eq_folder_iff.1 hfolder).2
  have hparent : tree.IsOnWay place.dropLast := hway.dropLast
  rcases hnext with rfl | rfl | rfl
  · exact hparent
  · exact hparent.dropLast
  · rwa [List.dropLast_concat]

/-- So does the place that several steps lead to. -/
theorem isOnWay_dropLast_of_steps {place target : List Text} {names : List Text}
    (hplace : tree.IsOnWay place.dropLast) (h : names.foldlM tree.step place = .ok target) :
    tree.IsOnWay target.dropLast := by
  induction names generalizing place with
  | nil =>
    obtain rfl := Except.ok.inj h
    exact hplace
  | cons name names ih =>
    rw [List.foldlM_cons] at h
    obtain ⟨next, hstep, h⟩ := bind_eq_ok_iff.1 h
    exact ih (isOnWay_dropLast_of_step hstep) h

/-- **The place that a path leads to** lies in a place on the way. -/
theorem isOnWay_dropLast_of_resolve {path : Path} {target : List Text}
    (h : tree.resolve path = .ok target) : tree.IsOnWay target.dropLast := by
  obtain ⟨start, horigin, h⟩ := bind_eq_ok_iff.1 h
  refine isOnWay_dropLast_of_steps ?_ h
  obtain ⟨-, horigin⟩ := ite_error_eq_ok_iff.1 horigin
  obtain ⟨-, horigin⟩ := ite_error_eq_ok_iff.1 horigin
  rw [← Except.ok.inj horigin]
  exact (tree.isOnWay_start path).dropLast

/-- Steps lead where they led, as long as their directories are there. -/
theorem steps_of_folders
    (hfolders : ∀ place, tree.entry place = .folder → tree'.entry place = .folder)
    {place target : List Text} {names : List Text} (h : names.foldlM tree.step place = .ok target) :
    names.foldlM tree'.step place = .ok target := by
  induction names generalizing place with
  | nil => exact h
  | cons name names ih =>
    rw [List.foldlM_cons] at h ⊢
    obtain ⟨next, hstep, h⟩ := bind_eq_ok_iff.1 h
    refine bind_eq_ok_iff.2 ⟨next, ?_, ih h⟩
    have hfolder := (step_eq_ok hstep).1
    rw [← hstep]
    unfold step
    rw [requireFolder_eq_ok_iff.2 hfolder, requireFolder_eq_ok_iff.2 (hfolders place hfolder)]

/-- **A path leads where it led**, as long as its directories are there. -/
theorem resolve_of_folders
    (hfolders : ∀ place, tree.entry place = .folder → tree'.entry place = .folder)
    (hworking : tree'.working = tree.working) {path : Path} {target : List Text}
    (h : tree.resolve path = .ok target) : tree'.resolve path = .ok target := by
  obtain ⟨start, hstart, h⟩ := bind_eq_ok_iff.1 h
  refine bind_eq_ok_iff.2 ⟨start, ?_, steps_of_folders hfolders h⟩
  rw [← hstart]
  unfold origin
  rw [hworking]

end Paths

/-! ### Writing -/

section Writing

variable {tree : FileTree} {target : List Text} (content : ByteArray)

/-- The places on the way, after a file has been put at `target`. -/
theorem isOnWay_put_iff {place : List Text} :
    IsOnWay { tree with files := put target content tree.files } place ↔
      tree.IsOnWay place ∨ place <+: target := by
  have hany : ∀ files : List (List Text × ByteArray),
      (∃ f ∈ put target content files, place <+: f.1) ↔
        (∃ f ∈ files, place <+: f.1) ∨ place <+: target := by
    intro files
    induction files with
    | nil => simp [put]
    | cons f fs ih =>
      by_cases hf : f.1 = target
      · simp only [put, if_pos hf, List.exists_mem_cons_iff]
        rw [hf]
        constructor
        · intro h
          exact Or.inl h
        · intro h
          exact h.elim id Or.inl
      · simp only [put, if_neg hf, List.exists_mem_cons_iff]
        rw [ih, or_assoc]
  unfold IsOnWay
  rw [hany, or_assoc]

/-- A place above `target` is at the place that `target` lies in, or above. -/
theorem prefix_dropLast_of_ne {place target : List Text} (h : place <+: target)
    (hne : place ≠ target) : place <+: target.dropLast := by
  have hlt : place.length < target.length := by
    have hle := h.length_le
    have hlen : place.length ≠ target.length := fun heq => hne (h.eq_of_length heq)
    omega
  rw [List.dropLast_eq_take]
  exact List.prefix_take_iff.2 ⟨h, by omega⟩

/-- **One file more, or another content**, is not seen from another place. -/
theorem entry_put_of_ne (hway : tree.IsOnWay target.dropLast) {place : List Text}
    (hne : place ≠ target) :
    entry { tree with files := put target content tree.files } place = tree.entry place := by
  apply entry_congr
  · exact lookup_put_of_ne hne content tree.files
  · rw [isOnWay_put_iff]
    constructor
    · intro h
      rcases h with h | h
      · exact h
      · -- what lies above the new file was on the way before
        exact hway.above (prefix_dropLast_of_ne h hne)
    · exact Or.inl

theorem entry_put_self :
    entry { tree with files := put target content tree.files } target = .file content := by
  unfold entry
  simp only [lookup_put_self]

end Writing

/-- The tree is as it was before but for the file that the path leads to,
    which holds `content`. -/
structure ChangesOnly (before after : FileTree) (path : Path) (content : ByteArray) : Prop where
  read : after.read path = .ok content
  /-- what was there stays, file or directory, and so does what was not -/
  entry : ∀ place, before.resolve path ≠ .ok place → after.entry place = before.entry place
  working : after.working = before.working

/-- What a write does that succeeds. -/
theorem write_eq_ok {tree tree' : FileTree} {path : Path} {content : ByteArray}
    (h : tree.write path content = .ok tree') :
    path.closed = false ∧ ∃ target, tree.resolve path = .ok target ∧
      tree.entry target ≠ .folder ∧ tree' = { tree with files := put target content tree.files } := by
  unfold write at h
  split at h
  · obtain ⟨_, -, h⟩ := bind_eq_ok_iff.1 h
    cases h
  · next hopen =>
    obtain ⟨target, hresolve, h⟩ := bind_eq_ok_iff.1 h
    refine ⟨eq_false_of_ne_true hopen, target, hresolve, ?_⟩
    split at h
    · cases h
    · next hnot => exact ⟨hnot, (Except.ok.inj h).symm⟩

/-- **A write that succeeds** changes the file that its path leads to, and
    nothing else. -/
theorem changesOnly_of_write {tree tree' : FileTree} {path : Path} {content : ByteArray}
    (h : tree.write path content = .ok tree') : ChangesOnly tree tree' path content := by
  obtain ⟨hopen, target, hresolve, hnot, rfl⟩ := write_eq_ok h
  have hway := isOnWay_dropLast_of_resolve hresolve
  refine ⟨?_, ?_, rfl⟩
  · -- what is put at the end of the path is none of its directories
    have hfolders : ∀ place, tree.entry place = .folder →
        FileTree.entry { tree with files := put target content tree.files } place = .folder := by
      intro place hfolder
      have hne : place ≠ target := by
        rintro rfl
        exact hnot hfolder
      rw [entry_put_of_ne content hway hne, hfolder]
    refine bind_eq_ok_iff.2 ⟨target, resolve_of_folders hfolders rfl hresolve, ?_⟩
    rw [entry_put_self, hopen]
    rfl
  · intro place hne
    apply entry_put_of_ne content hway
    rintro rfl
    exact hne hresolve

end FileTree

end SchemaDiagram.Command
