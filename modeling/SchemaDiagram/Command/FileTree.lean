import SchemaDiagram.Text.Basic

/-! # FileTree — files, and the directory that a program runs in

    A tree is known by its files and by its working directory; its other
    directories are those that a file or the working directory lies in.

      * `FileError`                    — why a file cannot be read or written
      * `Path`, `Path.ofText`          — a written path
      * `FileTree`                     — files by their places, and the place
                                         of the working directory
      * `FileTree.resolve`             — the place that a path leads to
      * `FileTree.parent`              — the directory of its last step
      * `FileTree.read`                — the content of a file
      * `FileTree.write`               — the tree after a file is written

    A place is the list of names from the top of the tree.  A path is
    followed step by step, from the top if it starts with a slash and from
    the working directory otherwise, and each step but the last has to lead
    to a directory.  Two dots lead to the directory above, which may lie
    above the working directory; the top is its own parent.

    A path that ends in a slash names a directory.  Nothing can be written
    to it, whatever its last step is: once the steps before that one have led
    to a directory, the last one is not looked at. -/

namespace SchemaDiagram.Command

/-- Why a file cannot be read or written. -/
inductive FileError where
  | notFound
  | notDirectory
  | isDirectory
  | nameTooLong
  | notText
  /-- what else the system may say -/
  | other (message : Text)
  deriving DecidableEq, Repr

/-- The wording of a file error. -/
def FileError.message : FileError → Text
  | notFound => "No such file or directory (os error 2)"
  | notDirectory => "Not a directory (os error 20)"
  | isDirectory => "Is a directory (os error 21)"
  | nameTooLong => "File name too long (os error 36)"
  | notText => "stream did not contain valid UTF-8"
  | other message => message

/-! ### Texts as bytes -/

/-- The UTF-8 bytes of a text. -/
def encodeUtf8 (s : Text) : ByteArray := (String.ofList s).toUTF8

/-- The text that some bytes are in UTF-8. -/
def decodeUtf8? (bytes : ByteArray) : Option Text := (String.fromUTF8? bytes).map String.toList

/-! ### Paths -/

/-- A path as it is written. -/
structure Path where
  /-- it starts with a slash, so it is followed from the top -/
  absolute : Bool
  /-- its steps; empty steps are left out -/
  steps : List Text
  /-- it ends in a slash, so its last step has to be a directory -/
  closed : Bool
  /-- its length in bytes -/
  size : Nat
  deriving DecidableEq, Repr

/-- The path that a text is. -/
def Path.ofText (s : Text) : Path where
  absolute := s.head? == some '/'
  steps := (s.splitOn '/').filter (· != [])
  closed := s.getLast? == some '/'
  size := (encodeUtf8 s).size

/-- The place that a path is followed from. -/
def Path.start (path : Path) (working : List Text) : List Text :=
  if path.absolute then [] else working

/-! ### Trees -/

/-- Files and a working directory. -/
structure FileTree where
  /-- each file's content, with its place -/
  files : List (List Text × ByteArray)
  /-- the place of the working directory -/
  working : List Text

namespace FileTree

/-- The tree that holds these files and no others, each where its path leads
    from the working directory. -/
def ofFiles (working : List Text) (files : List (Text × ByteArray)) : FileTree where
  files := files.map fun (name, content) =>
    let path := Path.ofText name
    (path.start working ++ path.steps, content)
  working := working

/-- What a place holds. -/
inductive Entry where
  | file (content : ByteArray)
  | folder
  | absent

/-- What `place` holds. -/
def entry (tree : FileTree) (place : List Text) : Entry :=
  match tree.files.lookup place with
  | some content => .file content
  | none =>
    -- the empty place, the top, is a prefix of every place
    if place.isPrefixOf tree.working || tree.files.any (fun (path, _) => place.isPrefixOf path)
    then .folder
    else .absent

/-- The longest name of a file, in bytes. -/
def nameLimit : Nat := 255

/-- The longest path, in bytes. -/
def pathLimit : Nat := 4095

/-- Refuses a place that is no directory. -/
def requireFolder (tree : FileTree) (place : List Text) : Except FileError Unit :=
  match tree.entry place with
  | .absent => .error .notFound
  | .file _ => .error .notDirectory
  | .folder => .ok ()

/-- Where one step leads from `place`, which has to be a directory. -/
def step (tree : FileTree) (place : List Text) (name : Text) : Except FileError (List Text) := do
  tree.requireFolder place
  if name = ['.'] then .ok place
  else if name = ['.', '.'] then .ok place.dropLast
  else if nameLimit < (encodeUtf8 name).size then .error .nameTooLong
  else .ok (place ++ [name])

/-- The place that a path is followed from here.  A path that is empty or too
    long is refused before its first step. -/
def origin (tree : FileTree) (path : Path) : Except FileError (List Text) :=
  if path.size = 0 then .error .notFound
  else if pathLimit < path.size then .error .nameTooLong
  else .ok (path.start tree.working)

/-- The place that a path leads to. -/
def resolve (tree : FileTree) (path : Path) : Except FileError (List Text) := do
  path.steps.foldlM tree.step (← tree.origin path)

/-- The directory in which the last step of a path is taken. -/
def parent (tree : FileTree) (path : Path) : Except FileError (List Text) := do
  let place ← path.steps.dropLast.foldlM tree.step (← tree.origin path)
  tree.requireFolder place
  return place

/-- The content of the file that `path` leads to. -/
def read (tree : FileTree) (path : Path) : Except FileError ByteArray := do
  let place ← tree.resolve path
  match tree.entry place with
  | .file content => if path.closed then .error .notDirectory else .ok content
  | .folder => .error .isDirectory
  | .absent => .error .notFound

/-- The files with the one at `place` replaced, or added at the end. -/
def put (place : List Text) (content : ByteArray) :
    List (List Text × ByteArray) → List (List Text × ByteArray)
  | [] => [(place, content)]
  | (path, old) :: rest =>
    if path = place then (path, content) :: rest else (path, old) :: put place content rest

/-- The tree after `content` has been written to the file that `path` leads
    to.  A path that ends in a slash is refused as a directory as soon as the
    parent of its last step is found. -/
def write (tree : FileTree) (path : Path) (content : ByteArray) : Except FileError FileTree := do
  if path.closed then
    let _ ← tree.parent path
    .error .isDirectory
  else
    let place ← tree.resolve path
    match tree.entry place with
    | .folder => .error .isDirectory
    | _ => .ok { tree with files := put place content tree.files }

/-! ### Laws -/

theorem lookup_put_self (place : List Text) (content : ByteArray)
    (files : List (List Text × ByteArray)) :
    (put place content files).lookup place = some content := by
  induction files with
  | nil => simp [put]
  | cons f fs ih =>
    obtain ⟨path, old⟩ := f
    by_cases h : path = place
    · simp [put, h]
    · have : (place == path) = false := by simpa using fun he => h he.symm
      simp [put, h, List.lookup_cons, this, ih]

theorem lookup_put_of_ne {place other : List Text} (hne : other ≠ place) (content : ByteArray)
    (files : List (List Text × ByteArray)) :
    (put place content files).lookup other = files.lookup other := by
  induction files with
  | nil =>
    have : (other == place) = false := by simpa using hne
    simp [put, List.lookup_cons, this]
  | cons f fs ih =>
    obtain ⟨path, old⟩ := f
    by_cases h : path = place
    · subst h
      have : (other == path) = false := by simpa using hne
      simp [put, List.lookup_cons, this]
    · simp [put, h, List.lookup_cons, ih]

end FileTree

end SchemaDiagram.Command
