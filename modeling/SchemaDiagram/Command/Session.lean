import SchemaDiagram.Command.FileTree
import SchemaDiagram.Command.Options
import SchemaDiagram.Export

/-! # Session — one run of the program

      * `Host`            — what a run needs from its surroundings
      * `Failure`         — why a run fails
      * `Outcome`         — what a run shows: exit code and texts
      * `render`          — an overview in the format that was asked for
      * `perform`         — the run that some options ask for
      * `execute`         — the run that a command line asks for
      * `World`           — surroundings that are values: standard input and
                            files

    The input is read and rendered before anything is written, so a run that
    fails before that leaves every file as it was. -/

namespace SchemaDiagram.Command

/-! ### Surroundings -/

/-- What a run needs from its surroundings. -/
structure Host (m : Type → Type) where
  readStdin : m ByteArray
  readFile : Text → m (Except FileError ByteArray)
  writeFile : Text → ByteArray → m (Except FileError Unit)

/-! ### What a run shows -/

/-- Why a run fails. -/
inductive Failure where
  | cannotReadStdin (error : FileError)
  | cannotRead (path : Text) (error : FileError)
  | cannotDraw (error : OverviewError)
  | cannotWrite (path : Text) (error : FileError)
  deriving DecidableEq, Repr

/-- The wording of a failure. -/
def Failure.message : Failure → Text
  | cannotReadStdin error => "failed to read stdin: " ++ error.message
  | cannotRead path error => "failed to read " ++ path ++ ": " ++ error.message
  | cannotDraw error => error.message
  | cannotWrite path error => "failed to write " ++ path ++ ": " ++ error.message

/-- What a run shows. -/
structure Outcome where
  /-- the exit code -/
  code : Nat
  /-- all that goes to standard output -/
  stdout : Text
  /-- the line that says why the run failed -/
  error : Option Text
  /-- what the script's author should know -/
  warnings : List Warning
  deriving DecidableEq, Repr

namespace Outcome

/-- A run that shows `text`. -/
def success (text : Text) (warnings : List Warning) : Outcome := ⟨0, text, none, warnings⟩

/-- A run that fails. -/
def failed (failure : Failure) (warnings : List Warning) : Outcome :=
  ⟨1, [], some ("error: " ++ failure.message), warnings⟩

/-- A command line that is refused. -/
def refused (error : UsageError) : Outcome := ⟨2, [], some ("error: " ++ error.message), []⟩

end Outcome

/-! ### A run -/

/-- The text of a script. -/
def readScript {m : Type → Type} [Monad m] (host : Host m) (input : Option Text) :
    m (Except Failure Text) := do
  -- a lone hyphen stands for standard input
  match input.filter (· != ['-']) with
  | none =>
    match decodeUtf8? (← host.readStdin) with
    | some script => return .ok script
    | none => return .error (.cannotReadStdin .notText)
  | some path =>
    match ← host.readFile path with
    | .error error => return .error (.cannotRead path error)
    | .ok bytes =>
      match decodeUtf8? bytes with
      | some script => return .ok script
      | none => return .error (.cannotRead path .notText)

/-- The text of a run, without its last line end: the overview of `script` in
    the format that was asked for. -/
def render (options : Options) (script : Text) (o : Overview) : Text :=
  let layout : Json.Layout := if options.pretty then .indented else .compact
  match options.format with
  | .json => o.toJson.toText layout
  | .crow => o.crowsFoot
  | .chen => o.chen
  | .graph => o.chenGraph.toJson.toText layout
  | .schema => (Ddl.parseSchema script).toJson.toText layout

/-- The run that some options ask for. -/
def perform {m : Type → Type} [Monad m] (host : Host m) (options : Options) : m Outcome := do
  match ← readScript host options.input with
  | .error failure => return .failed failure []
  | .ok script =>
    match overview script with
    | .error error => return .failed (.cannotDraw error) []
    | .ok o =>
      -- nothing has been written so far
      let text := render options script o ++ "\n"
      match options.output with
      | none => return .success text o.warnings
      | some path =>
        match ← host.writeFile path (encodeUtf8 text) with
        | .error error => return .failed (.cannotWrite path error) o.warnings
        | .ok () => return .success [] o.warnings

/-- The name and version of the program. -/
def versionLine : Text := "sqlerd 0.1.0\n"

/-- How the program is called. -/
def usage : Text :=
  "Render MySQL CREATE TABLE statements as ER diagrams\n\n"
    ++ "Usage: sqlerd [OPTIONS] [INPUT]\n\n"
    ++ "Arguments:\n"
    ++ "  [INPUT]            SQL file to read (default: stdin)\n\n"
    ++ "Options:\n"
    ++ "  -o, --output FILE      Output file (default: stdout)\n"
    ++ "  -f, --format FORMAT    json, crow, chen, graph or schema (default: json)\n"
    ++ "      --pretty           Pretty-print JSON output\n"
    ++ "  -h, --help             Print help\n"
    ++ "  -V, --version          Print version\n"

/-- The run that a command line asks for. -/
def execute {m : Type → Type} [Monad m] (host : Host m) (arguments : List Text) : m Outcome :=
  match Request.ofArguments arguments with
  | .error error => return .refused error
  | .ok .help => return .success usage []
  | .ok .version => return .success versionLine []
  | .ok (.run options) => perform host options

/-! ### Surroundings that are values -/

/-- Standard input and files. -/
structure World where
  stdin : ByteArray
  tree : FileTree

/-- Runs in a world that is a value. -/
def World.host : Host (StateM World) where
  readStdin := return (← get).stdin
  readFile path := return (← get).tree.read (.ofText path)
  writeFile path content := do
    let world ← get
    match world.tree.write (.ofText path) content with
    | .error error => return .error error
    | .ok tree =>
      set { world with tree }
      return .ok ()

end SchemaDiagram.Command
