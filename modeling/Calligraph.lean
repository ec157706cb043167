import Calligraph.Main
import Calligraph.Outline
import Calligraph.Proofs.Analysis.InlineModule
import Calligraph.Proofs.Analysis.Provenance
import Calligraph.Proofs.Analysis.UnitOrder
import Calligraph.Proofs.Binding.Import
import Calligraph.Proofs.CallGraph.Views
import Calligraph.Proofs.CommandLine.Outcome
import Calligraph.Proofs.Export.ReportText
import Calligraph.Proofs.Files.Collect
import Calligraph.Proofs.Files.Module
import Calligraph.Proofs.Outline.Layout
import Calligraph.Proofs.Project.FirstFailure
import Calligraph.Proofs.Scope.Absolute
import Calligraph.Proofs.Scope.Extension
import Calligraph.Proofs.Sketch.NestedItem
import Calligraph.Proofs.Sketch.Relocation
import Calligraph.Proofs.Sketch.SelfType
import Calligraph.Proofs.Sketch.WhereClause
import Calligraph.Proofs.Syntax.Lifetime
import Calligraph.Proofs.Syntax.Readability
import Calligraph.Proofs.Walk.Traversal
