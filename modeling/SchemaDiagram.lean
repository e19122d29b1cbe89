import SchemaDiagram.Main
import SchemaDiagram.Proofs.WellFormed
import SchemaDiagram.Proofs.Drawing
import SchemaDiagram.Proofs.Notations
import SchemaDiagram.Proofs.Splitting
import SchemaDiagram.Proofs.Margins
import SchemaDiagram.Proofs.CrowsFootText
import SchemaDiagram.Proofs.References
import SchemaDiagram.Proofs.StatementGrammar
import SchemaDiagram.Proofs.TableOrder
import SchemaDiagram.Proofs.InlineKeys
import SchemaDiagram.Proofs.RaiseCase
import SchemaDiagram.Proofs.CaseBlind
import SchemaDiagram.Proofs.MissingBody
import SchemaDiagram.Proofs.PrimaryKeySpelling
import SchemaDiagram.Proofs.ColumnGrammar
import SchemaDiagram.Proofs.LiteralBlind
import SchemaDiagram.Proofs.TypeExtent
import SchemaDiagram.Proofs.ConstraintWords
import SchemaDiagram.Proofs.Nullability
import SchemaDiagram.Proofs.Cuts
import SchemaDiagram.Proofs.Leftovers
import SchemaDiagram.Proofs.Numbering
import SchemaDiagram.Proofs.Destination
import SchemaDiagram.Proofs.Qualifying
import SchemaDiagram.Proofs.Covering
import SchemaDiagram.Proofs.Quoting
