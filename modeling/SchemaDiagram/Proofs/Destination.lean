import SchemaDiagram.Command.Session
import SchemaDiagram.Proofs.FileWriting

/-! # Destination — where the text of a run goes

    A run reads, draws and renders before it writes.  So a run that fails on
    the way has written nothing, and a file that the input was read from can
    be written to.  The text does not depend on where it goes: a run with an
    output file puts there, byte for byte, what the same command without the
    option prints.

      * `withoutOutput`              — a command without its output option
      * `Request.ofRest_withoutOutput` — it asks for the same otherwise
      * `World.script?`              — what there is to read
      * `World.Draws`                — a script that can be drawn
      * `perform_of_not_draws`,
        `perform_of_draws`           — what a run does
      * `FailsUnseen`, `Prints`,
        `Delivers`                   — the ways a run ends
      * `run_destination`            — for every command line -/

namespace SchemaDiagram.Command

/-! ### A command without its output option -/

/-- The arguments without the option that names an output file, and without
    its value. -/
def withoutOutput : List Text → List Text
  | [] => []
  | argument :: rest =>
    match Argument.ofText argument, rest with
    -- everything behind a double hyphen is a name
    | .onlyNames, rest => argument :: rest
    | .setting .output (some _), rest => withoutOutput rest
    | .setting .output none, _ :: rest => withoutOutput rest
    | .setting .format none, value :: rest => argument :: value :: withoutOutput rest
    | _, rest => argument :: withoutOutput rest

/-- The options with standard output as their destination. -/
def Options.toStdout (options : Options) : Options := { options with output := none }

/-- What has been set so far, but for the output. -/
def Draft.toStdout (d : Draft) : Draft := { d with output := none }

namespace Draft

variable {d e : Draft}

theorem toStdout_of_set_output {value : Text} (h : d.set .output value = .ok e) :
    e.toStdout = d.toStdout := by
  obtain ⟨-, h⟩ := ite_error_eq_ok_iff.1 h
  obtain ⟨-, h⟩ := ite_error_eq_ok_iff.1 h
  obtain rfl := Except.ok.inj h
  rfl

theorem toStdout_set_format {value : Text} (h : d.set .format value = .ok e) :
    d.toStdout.set .format value = .ok e.toStdout := by
  obtain ⟨hnew, h⟩ := ite_error_eq_ok_iff.1 h
  refine ite_error_eq_ok_iff.2 ⟨hnew, ?_⟩
  split at h
  · obtain rfl := Except.ok.inj h
    rfl
  · cases h

theorem toStdout_setInput {name : Text} (h : d.setInput name = .ok e) :
    d.toStdout.setInput name = .ok e.toStdout := by
  obtain ⟨hnew, h⟩ := ite_error_eq_ok_iff.1 h
  obtain ⟨hname, h⟩ := ite_error_eq_ok_iff.1 h
  obtain rfl := Except.ok.inj h
  exact ite_error_eq_ok_iff.2 ⟨hnew, ite_error_eq_ok_iff.2 ⟨hname, rfl⟩⟩

theorem toStdout_setPretty (h : d.setPretty = .ok e) : d.toStdout.setPretty = .ok e.toStdout := by
  obtain ⟨hnew, h⟩ := ite_error_eq_ok_iff.1 h
  obtain rfl := Except.ok.inj h
  exact ite_error_eq_ok_iff.2 ⟨hnew, rfl⟩

end Draft

namespace Request

theorem ofNames_toStdout {d : Draft} {names : List Text} {options : Options}
    (h : ofNames d names = .ok (.run options)) :
    ofNames d.toStdout names = .ok (.run options.toStdout) := by
  induction names generalizing d with
  | nil =>
    obtain rfl := Request.run.inj (Except.ok.inj h)
    rfl
  | cons name rest ih =>
    obtain ⟨e, he, hrest⟩ := bind_eq_ok_iff.1 h
    rw [ofNames, Draft.toStdout_setInput he]
    exact ih hrest

/-- **Without its output option** a command asks for the same, on standard
    output. -/
theorem ofRest_withoutOutput {d : Draft} {arguments : List Text} {options : Options}
    (h : ofRest d arguments = .ok (.run options)) :
    ofRest d.toStdout (withoutOutput arguments) = .ok (.run options.toStdout) := by
  -- along the arguments as they are read; only a setting of the output is passed over
  fun_induction ofRest d arguments with
  | case1 d =>
    obtain rfl := Request.run.inj (Except.ok.inj h)
    rfl
  | case2 d argument text rest harg ih =>
    -- the name of the input
    obtain ⟨e, he, hrest⟩ := bind_eq_ok_iff.1 h
    rw [withoutOutput.eq_def]
    simp only [harg]
    rw [ofRest.eq_def]
    simp only [harg, Draft.toStdout_setInput he]
    exact ih e hrest
  | case3 d argument rest harg =>
    -- a double hyphen
    rw [withoutOutput.eq_def]
    simp only [harg]
    rw [ofRest.eq_def]
    simp only [harg]
    exact ofNames_toStdout h
  | case4 d argument setting value rest harg ih =>
    -- a setting with its value attached
    obtain ⟨e, he, hrest⟩ := bind_eq_ok_iff.1 h
    rw [withoutOutput.eq_def]
    cases setting with
    | output =>
      simp only [harg]
      rw [← Draft.toStdout_of_set_output he]
      exact ih e hrest
    | format =>
      simp only [harg]
      rw [ofRest.eq_def]
      simp only [harg, Draft.toStdout_set_format he]
      exact ih e hrest
  | case5 d argument setting value rest harg hvalue ih =>
    -- a setting with its value behind it
    obtain ⟨e, he, hrest⟩ := bind_eq_ok_iff.1 h
    rw [withoutOutput.eq_def]
    cases setting with
    | output =>
      simp only [harg]
      rw [← Draft.toStdout_of_set_output he]
      exact ih e hrest
    | format =>
      simp only [harg]
      rw [ofRest.eq_def]
      simp only [harg, if_pos hvalue, Draft.toStdout_set_format he]
      exact ih e hrest
  | case8 d argument rest harg ih =>
    -- the layout
    obtain ⟨e, he, hrest⟩ := bind_eq_ok_iff.1 h
    rw [withoutOutput.eq_def]
    simp only [harg]
    rw [ofRest.eq_def]
    simp only [harg, Draft.toStdout_setPretty he]
    exact ih e hrest
  -- what is left are faults and questions about the program
  | case6 | case7 | case9 | case10 | case11 => cases h

end Request

/-- What follows a double hyphen is a name and no option. -/
example : withoutOutput ["-o", "a.mmd", "-fcrow", "--output=b", "--", "-o"] =
    ["-fcrow", "--", "-o"] := by decide

/-! ### What there is to read -/

namespace World

/-- The bytes of the input: standard input if no file is named, or if the name
    is a lone hyphen. -/
def input (world : World) (name : Option Text) : Except FileError ByteArray :=
  match name.filter (· != ['-']) with
  | none => .ok world.stdin
  | some path => world.tree.read (.ofText path)

/-- The input, if it can be read as a text in UTF-8. -/
def script? (world : World) (name : Option Text) : Option Text :=
  match world.input name with
  | .ok bytes => decodeUtf8? bytes
  | .error _ => none

/-- The input that `options` name can be read as `script`, and `o` is its
    overview. -/
def Draws (world : World) (options : Options) (script : Text) (o : Overview) : Prop :=
  world.script? options.input = some script ∧ overview script = .ok o

/-- What comes behind an action whose outcome is known. -/
theorem run_bind_of_eq {α β : Type} {x : StateM World α} {f : α → StateM World β} {a : α}
    {world after : World} (h : x.run world = (a, after)) :
    (x >>= f).run world = (f a).run after := by
  rw [StateT.run_bind, h]
  rfl

/-- Reading the input changes nothing. -/
theorem readScript_run (world : World) (name : Option Text) :
    ∃ failure, (readScript World.host name).run world =
      ((world.script? name).elim (.error failure) .ok, world) := by
  unfold readScript script? input
  cases name.filter (· != ['-']) with
  | none =>
    have hstdin : World.host.readStdin.run world = (world.stdin, world) := rfl
    refine ⟨.cannotReadStdin .notText, ?_⟩
    dsimp only
    rw [run_bind_of_eq hstdin]
    cases decodeUtf8? world.stdin <;> rfl
  | some path =>
    have hfile : (World.host.readFile path).run world =
      (world.tree.read (.ofText path), world) := rfl
    dsimp only
    rw [run_bind_of_eq hfile]
    cases world.tree.read (.ofText path) with
    | error e => exact ⟨.cannotRead path e, rfl⟩
    | ok bytes =>
      refine ⟨.cannotRead path .notText, ?_⟩
      dsimp only
      cases decodeUtf8? bytes <;> rfl

section Write

variable {world : World} {file : Text} {content : ByteArray}

/-- A write that is refused changes nothing either. -/
theorem writeFile_error {e : FileError} (h : world.tree.write (.ofText file) content = .error e) :
    (World.host.writeFile file content).run world = (.error e, world) := by
  have hget : (get : StateM World World).run world = (world, world) := rfl
  show StateT.run (get >>= _) world = _
  rw [run_bind_of_eq hget, h]
  rfl

theorem writeFile_ok {tree : FileTree} (h : world.tree.write (.ofText file) content = .ok tree) :
    (World.host.writeFile file content).run world = (.ok (), { world with tree }) := by
  have hget : (get : StateM World World).run world = (world, world) := rfl
  show StateT.run (get >>= _) world = _
  rw [run_bind_of_eq hget, h]
  rfl

end Write

/-- The run that a command line asks for, and what it leaves. -/
def run (world : World) (arguments : List Text) : Outcome × World :=
  (execute World.host arguments).run world

end World

/-! ### What a run does -/

section Runs

variable {world : World} {options : Options}

/-- **A run that has nothing to draw** fails before it writes. -/
theorem perform_of_not_draws (h : ∀ script o, ¬ world.Draws options script o) :
    ∃ failure, (perform World.host options).run world = (.failed failure [], world) := by
  obtain ⟨failure, hread⟩ := world.readScript_run options.input
  unfold perform
  rw [World.run_bind_of_eq hread]
  cases hscript : world.script? options.input with
  | none => exact ⟨failure, rfl⟩
  | some script =>
    cases ho : overview script with
    | error e =>
      refine ⟨.cannotDraw e, ?_⟩
      dsimp only [Option.elim]
      rw [ho]
      rfl
    | ok o => exact absurd ⟨hscript, ho⟩ (h script o)

/-- **A run that has something to draw** comes to the writing with the world
    as it was and with the text in hand. -/
theorem perform_of_draws {script : Text} {o : Overview} (h : world.Draws options script o) :
    let text := render options script o ++ "\n"
    (options.output = none →
      (perform World.host options).run world = (.success text o.warnings, world)) ∧
    ∀ file, options.output = some file →
      (∀ e, world.tree.write (.ofText file) (encodeUtf8 text) = .error e →
        (perform World.host options).run world = (.failed (.cannotWrite file e) o.warnings, world)) ∧
      ∀ tree, world.tree.write (.ofText file) (encodeUtf8 text) = .ok tree →
        (perform World.host options).run world = (.success [] o.warnings, { world with tree }) := by
  intro text
  obtain ⟨failure, hread⟩ := world.readScript_run options.input
  rw [h.1] at hread
  unfold perform
  rw [World.run_bind_of_eq hread]
  dsimp only [Option.elim]
  rw [h.2]
  constructor
  · intro hnone
    rw [hnone]
    rfl
  · intro file hfile
    rw [hfile]
    dsimp only
    constructor
    · intro e hwrite
      rw [World.run_bind_of_eq (World.writeFile_error hwrite)]
      rfl
    · intro tree hwrite
      rw [World.run_bind_of_eq (World.writeFile_ok hwrite)]
      rfl

theorem run_eq_perform {arguments : List Text}
    (h : Request.ofArguments arguments = .ok (.run options)) :
    world.run arguments = (perform World.host options).run world := by
  unfold World.run execute
  rw [h]

end Runs

/-- The run fails, shows nothing and leaves the world as it was: no file has
    been made, changed or emptied. -/
structure FailsUnseen (before : World) (result : Outcome × World) : Prop where
  code : result.1.code = 1
  stdout : result.1.stdout = []
  world : result.2 = before

/-- The run shows `text` and leaves the world as it was. -/
structure Prints (before : World) (text : Text) (result : Outcome × World) : Prop where
  code : result.1.code = 0
  stdout : result.1.stdout = text
  world : result.2 = before

/-- The run shows nothing and writes `text` to `file` and to no other. -/
structure Delivers (before : World) (file text : Text) (result : Outcome × World) : Prop where
  code : result.1.code = 0
  stdout : result.1.stdout = []
  stdin : result.2.stdin = before.stdin
  files : before.tree.ChangesOnly result.2.tree (.ofText file) (encodeUtf8 text)

/-- **Where the text goes.**  A command line that is accepted, in a world where
    there is nothing to draw, fails and changes nothing.  Otherwise the command
    without its output option prints a text, and that text is what the command
    writes to its output file, if it names one that can be written; this may
    be the file that the script was read from. -/
theorem run_destination {arguments : List Text} {options : Options}
    (h : Request.ofArguments arguments = .ok (.run options)) (world : World) :
    ((∀ script o, ¬ world.Draws options script o) → FailsUnseen world (world.run arguments)) ∧
      ∀ script o, world.Draws options script o →
        let plain := world.run (withoutOutput arguments)
        Prints world (render options script o ++ "\n") plain ∧
          (options.output = none → world.run arguments = plain) ∧
          ∀ file tree, options.output = some file →
            world.tree.write (.ofText file) (encodeUtf8 plain.1.stdout) = .ok tree →
            Delivers world file plain.1.stdout (world.run arguments) := by
  rw [run_eq_perform h]
  constructor
  · intro hnone
    obtain ⟨failure, hrun⟩ := perform_of_not_draws hnone
    rw [hrun]
    exact ⟨rfl, rfl, rfl⟩
  · intro script o hdraws plain
    obtain ⟨hprint, hwrite⟩ := perform_of_draws hdraws
    have hplain : plain = (.success (render options script o ++ "\n") o.warnings, world) := by
      -- neither what is read nor its text depends on the output
      have hdraws' : world.Draws options.toStdout script o := hdraws
      show world.run (withoutOutput arguments) = _
      rw [run_eq_perform (Request.ofRest_withoutOutput h)]
      exact (perform_of_draws hdraws').1 rfl
    rw [hplain]
    refine ⟨⟨rfl, rfl, rfl⟩, hprint, ?_⟩
    intro file tree hfile htree
    rw [(hwrite file hfile).2 tree htree]
    exact ⟨rfl, rfl, rfl, FileTree.changesOnly_of_write htree⟩

/-! ### Onto the file that is read -/

/-- What has been encoded can be decoded. -/
theorem decodeUtf8?_encodeUtf8 (s : Text) : decodeUtf8? (encodeUtf8 s) = some s := by
  unfold decodeUtf8? encodeUtf8 String.fromUTF8?
  rw [String.toUTF8_eq_toByteArray, dif_pos (String.ofList s).isValidUTF8]
  show some (String.ofList s).toList = _
  rw [String.toList_ofList]

/-- A directory that holds one script. -/
def World.holding (script : Text) : World where
  stdin := .empty
  tree := .ofFiles ["w"] [("in.sql", encodeUtf8 script)]

theorem World.script?_holding (script : Text) :
    (World.holding script).script? (some "in.sql") = some script := by
  have hread : (World.holding script).input (some "in.sql") = .ok (encodeUtf8 script) := rfl
  unfold script?
  rw [hread]
  exact decodeUtf8?_encodeUtf8 script

/-- A script is replaced by its own diagram; an empty one, which has none,
    stays. -/
theorem run_destination_onto_input :
    let arguments : List Text := ["in.sql", "-fcrow", "-o", "in.sql"]
    let empty := World.holding ""
    let world := World.holding "CREATE TABLE a (id INT);"
    let diagram : Text := "erDiagram\n    a \x7b\n        INT id\n    \x7d\n"
    FailsUnseen empty (empty.run arguments) ∧
      Prints world diagram (world.run ["in.sql", "-fcrow"]) ∧
      Delivers world "in.sql" diagram (world.run arguments) := by
  intro arguments empty world diagram
  have hrequest : Request.ofArguments arguments = .ok (.run ⟨some "in.sql", some "in.sql", .crow,
    false⟩) := by decide
  constructor
  · apply (run_destination hrequest empty).1
    rintro script o ⟨hscript, ho⟩
    obtain rfl := Option.some.inj ((World.script?_holding "").symm.trans hscript)
    cases ho
  · have hcrow : (overview "CREATE TABLE a (id INT);").toOption.map
        (·.crowsFoot ++ ("\n" : Text)) = some diagram := by decide +kernel
    cases ho : overview "CREATE TABLE a (id INT);" with
    | error e =>
      rw [ho] at hcrow
      cases hcrow
    | ok o =>
      rw [ho] at hcrow
      have htext : o.crowsFoot ++ "\n" = diagram := Option.some.inj hcrow
      obtain ⟨hplain, _, hfile⟩ := (run_destination hrequest world).2 _ o
        ⟨World.script?_holding _, ho⟩
      change Prints world (o.crowsFoot ++ "\n") (world.run ["in.sql", "-fcrow"]) at hplain
      rw [htext] at hplain
      refine ⟨hplain, ?_⟩
      rw [← hplain.stdout]
      exact hfile "in.sql" (.ofFiles ["w"] [("in.sql", encodeUtf8 _)]) rfl rfl

end SchemaDiagram.Command
