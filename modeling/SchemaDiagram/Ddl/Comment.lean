import SchemaDiagram.Text.Basic

/-! # Comment — removal of comments from a script

    Three passes run one after the other: block comments, then `--` comments,
    then `#` comments.  None of them looks at quotes, so a marker inside a
    string literal opens a comment like any other.

      * `closesBlock`          — a block comment that starts here is closed
      * `stripBlocks`          — a block runs from the first opening mark to the
                                 first closing mark after it; an opening mark
                                 that is never closed stays, with all that follows
      * `stripToLineEnd`       — a line comment runs from its marker to the end
                                 of the line; the line end itself stays
      * `stripComments`        — the three passes

    A pass does not look again at what it has already kept: characters that
    become neighbours when a comment between them is removed open no new
    comment for the same pass. -/

namespace SchemaDiagram.Ddl

/-! ### Block comments -/

/-- Whether the closing mark of a block comment occurs in the text. -/
def closesBlock : Text → Bool
  | '*' :: '/' :: _ => true
  | _ :: r => closesBlock r
  | [] => false

/-- The text without its block comments.  `inside` says that the text before
    this point has opened a block that has not been closed yet. -/
def stripBlocks (inside : Bool) : Text → Text
  | [] => []
  | c :: r =>
    match inside, c, r with
    | true, '*', '/' :: r' => stripBlocks false r'
    | true, _, r => stripBlocks true r
    | false, '/', '*' :: r' =>
      -- a block that is never closed is no comment, and neither is anything behind it
      if closesBlock r' then stripBlocks true r' else '/' :: '*' :: r'
    | false, c, r => c :: stripBlocks false r

/-! ### Line comments -/

/-- The text without the comments that start with `marker`.  `inside` says
    that the text before this point has opened a comment on the same line. -/
def stripToLineEnd (marker : Text) : (inside : Bool) → Text → Text
  | _, [] => []
  | true, c :: r =>
    if c = '\n' then c :: stripToLineEnd marker false r else stripToLineEnd marker true r
  | false, c :: r =>
    if marker.isPrefixOf (c :: r) then stripToLineEnd marker true r
    else c :: stripToLineEnd marker false r

/-! ### The three passes -/

/-- `script` without its comments. -/
def stripComments (script : Text) : Text :=
  stripToLineEnd "#" false (stripToLineEnd "--" false (stripBlocks false script))

end SchemaDiagram.Ddl
