import SchemaDiagram.Text.Basic

/-! # Options — reading a command line

    A command line names at most one input and may set an output file, a
    format and the layout.

      * `Format`, `Options`        — what a run is asked to do
      * `Request`                  — a run, or a question about the program
      * `UsageError`               — why a command line is refused
      * `Request.ofArguments`      — reading the arguments, left to right

    An argument that starts with a hyphen is an option; a lone hyphen is a
    name like any other, and everything behind a double hyphen is a name.
    The first fault decides, and a question is answered as soon as it is
    read: what stands behind it is not looked at. -/

namespace SchemaDiagram.Command

open Text (cut?)

/-! ### What can be asked -/

/-- What a run writes. -/
inductive Format where
  /-- all diagrams and warnings, as JSON -/
  | json
  /-- the crow's-foot diagram -/
  | crow
  /-- the Chen diagram -/
  | chen
  /-- the Chen graph, as JSON -/
  | graph
  /-- the tables and warnings, as JSON -/
  | schema
  deriving DecidableEq, Repr

/-- The formats by name. -/
def Format.names : List (Text × Format) :=
  [("json", json), ("crow", crow), ("chen", chen), ("graph", graph), ("schema", schema)]

/-- What a run is asked to do. -/
structure Options where
  /-- the file to read; standard input if there is none -/
  input : Option Text := none
  /-- the file to write; standard output if there is none -/
  output : Option Text := none
  format : Format := .json
  /-- JSON is indented -/
  pretty : Bool := false
  deriving DecidableEq, Repr

/-- What a command line asks for. -/
inductive Request where
  | run (options : Options)
  | help
  | version
  deriving DecidableEq, Repr

/-- Why a command line is refused. -/
inductive UsageError where
  | unknownOption (argument : Text)
  | missingValue (option : Text)
  | repeated (option : Text)
  | unknownFormat (name : Text)
  | emptyName (option : Text)
  | unexpectedValue (option : Text)
  | unexpectedArgument (argument : Text)
  deriving DecidableEq, Repr

/-- The wording of a refusal. -/
def UsageError.message : UsageError → Text
  | unknownOption argument => "unexpected argument '" ++ argument ++ "' found"
  | missingValue option => "a value is required for '" ++ option ++ "' but none was supplied"
  | repeated option => "the argument '" ++ option ++ "' cannot be used multiple times"
  | unknownFormat name => "invalid value '" ++ name ++ "' for '--format <FORMAT>'"
  | emptyName option => "an empty value was given for '" ++ option ++ "'"
  | unexpectedValue option => "no value was expected for '" ++ option ++ "'"
  | unexpectedArgument argument => "unexpected argument '" ++ argument ++ "' found"

/-! ### Settings -/

/-- What has been set so far. -/
structure Draft where
  input : Option Text := none
  output : Option Text := none
  format : Option Format := none
  pretty : Bool := false
  deriving DecidableEq, Repr

/-- The options that have been set, the others at their defaults. -/
def Draft.options (d : Draft) : Options where
  input := d.input
  output := d.output
  format := d.format.getD .json
  pretty := d.pretty

/-- The options that take a value. -/
inductive Setting where
  | output
  | format
  deriving DecidableEq, Repr

/-- How an option is called in messages. -/
def Setting.display : Setting → Text
  | output => "--output <FILE>"
  | format => "--format <FORMAT>"

/-- `d` with a setting set, if it has not been set yet and the value fits. -/
def Draft.set (d : Draft) (setting : Setting) (value : Text) : Except UsageError Draft :=
  match setting with
  | .output =>
    if d.output.isSome then .error (.repeated setting.display)
    else if value = [] then .error (.emptyName setting.display)
    else .ok { d with output := some value }
  | .format =>
    if d.format.isSome then .error (.repeated setting.display)
    else
      match Format.names.lookup value with
      | some format => .ok { d with format := some format }
      | none => .error (.unknownFormat value)

/-- `d` with its input named, if it has not been named yet. -/
def Draft.setInput (d : Draft) (name : Text) : Except UsageError Draft :=
  if d.input.isSome then .error (.unexpectedArgument name)
  else if name = [] then .error (.emptyName "[INPUT]")
  else .ok { d with input := some name }

/-- `d` with indentation asked for, if that has not been asked for yet. -/
def Draft.setPretty (d : Draft) : Except UsageError Draft :=
  if d.pretty then .error (.repeated "--pretty") else .ok { d with pretty := true }

/-! ### Arguments -/

/-- What one argument is. -/
inductive Argument where
  /-- the name of the input -/
  | name (text : Text)
  /-- everything behind it is a name -/
  | onlyNames
  /-- an option that takes a value, with the value if it is attached -/
  | setting (setting : Setting) (value : Option Text)
  | pretty
  | help
  | version
  | fault (error : UsageError)
  deriving DecidableEq, Repr

/-- An option written with two hyphens, and its attached value. -/
def Argument.ofLong (name : Text) (value : Option Text) : Argument :=
  let flag (meaning : Argument) : Argument :=
    if value.isSome then .fault (.unexpectedValue ("--" ++ name)) else meaning
  if name = ("output" : Text) then .setting .output value
  else if name = ("format" : Text) then .setting .format value
  else if name = ("pretty" : Text) then flag .pretty
  else if name = ("help" : Text) then flag .help
  else if name = ("version" : Text) then flag .version
  else .fault (.unknownOption ("--" ++ name))

/-- The value attached to an option written with one hyphen: what follows the
    letter, without an equals sign in front. -/
def attachedValue : Text → Option Text
  | [] => none
  | '=' :: value => some value
  | value => some value

/-- An option written with one hyphen: its letter and what follows. -/
def Argument.ofShort (letter : Char) (rest : Text) : Argument :=
  if letter = 'o' then .setting .output (attachedValue rest)
  else if letter = 'f' then .setting .format (attachedValue rest)
  else if letter = 'h' then .help
  else if letter = 'V' then .version
  else .fault (.unknownOption ['-', letter])

/-- What an argument is. -/
def Argument.ofText : Text → Argument
  | ['-', '-'] => .onlyNames
  | '-' :: '-' :: long =>
    match cut? '=' long with
    | some (option, value) => .ofLong option (some value)
    | none => .ofLong long none
  | '-' :: letter :: rest => .ofShort letter rest
  | text => .name text

/-- Whether an argument may be the value of the option in front of it. -/
def isValue (text : Text) : Bool :=
  match Argument.ofText text with
  | .name _ => true
  | _ => false

/-! ### Command lines -/

namespace Request

/-- The request of the names behind a double hyphen. -/
def ofNames (d : Draft) : List Text → Except UsageError Request
  | [] => .ok (.run d.options)
  | name :: rest => do ofNames (← d.setInput name) rest

/-- The request of the arguments that are still to be read. -/
def ofRest (d : Draft) : List Text → Except UsageError Request
  | [] => .ok (.run d.options)
  | argument :: rest =>
    match Argument.ofText argument, rest with
    | .name text, rest => do ofRest (← d.setInput text) rest
    | .onlyNames, rest => ofNames d rest
    | .setting setting (some value), rest => do ofRest (← d.set setting value) rest
    | .setting setting none, value :: rest => do
      if isValue value then ofRest (← d.set setting value) rest
      else .error (.missingValue setting.display)
    | .setting setting none, [] => .error (.missingValue setting.display)
    | .pretty, rest => do ofRest (← d.setPretty) rest
    | .help, _ => .ok .help
    | .version, _ => .ok .version
    | .fault error, _ => .error error

/-- The request that a command line makes. -/
def ofArguments (arguments : List Text) : Except UsageError Request := ofRest {} arguments

end Request

end SchemaDiagram.Command
