import SchemaDiagram.Ddl.Script
import SchemaDiagram.Diagram.CrowsFoot
import SchemaDiagram.Diagram.Flowchart

/-! # Overview — all diagrams of one script

      * `Overview`            — the diagrams, with what the reader should know
      * `OverviewError`       — why there is nothing to draw
      * `overview`            — the overview of a script

    Reading a script never fails, but a blank script and a script that
    declares no table are refused here. -/

namespace SchemaDiagram

/-- All diagrams of one script. -/
structure Overview where
  /-- the text of the crow's-foot diagram -/
  crowsFoot : Text
  /-- the text of the Chen diagram -/
  chen : Text
  chenGraph : ChenGraph
  tableCount : Nat
  warnings : List Warning
  deriving DecidableEq, Repr

/-- Why a script has no diagrams. -/
inductive OverviewError where
  | emptyInput
  | noTables
  deriving DecidableEq, Repr

/-- The wording of a refusal. -/
def OverviewError.message : OverviewError → Text
  | emptyInput => "SQL input is empty"
  | noTables => "no CREATE TABLE statement recognized; expected MySQL table DDL"

/-- The overview of a schema. -/
def Schema.overview (s : Schema) : Overview :=
  let graph := ChenGraph.ofTables s.tables
  { crowsFoot := (CrowsFoot.ofTables s.tables).render
    chen := graph.render
    chenGraph := graph
    tableCount := s.tables.length
    warnings := s.warnings }

/-- The overview of a script; blanks around the script do not count. -/
def overview (script : Text) : Except OverviewError Overview :=
  let script := Text.trim script
  if script = [] then .error .emptyInput
  else
    let schema := Ddl.parseSchema script
    if schema.tables = [] then .error .noTables else .ok schema.overview

end SchemaDiagram
