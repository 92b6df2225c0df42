import CodeAtlas.Main
import CodeAtlas.Proofs.CallGraph
import CodeAtlas.Proofs.FileSystem.Resolution
import CodeAtlas.Proofs.FileSystem.Entries
import CodeAtlas.Proofs.Walk.Tour
import CodeAtlas.Proofs.Walk.Coverage
import CodeAtlas.Proofs.Walk.Selection
import CodeAtlas.Proofs.Repository.RelativeRoot
import CodeAtlas.Proofs.Walk.Aliases
import CodeAtlas.Proofs.Repository.Records
import CodeAtlas.Proofs.Repository.Edges
import CodeAtlas.Proofs.Json.Scalar
import CodeAtlas.Proofs.Json.RoundTrip
import CodeAtlas.Proofs.Wire
import CodeAtlas.Proofs.Extract.LineSpans
import CodeAtlas.Proofs.Lexicographic
import CodeAtlas.Proofs.Syntax.Preorder
import CodeAtlas.Proofs.Extract.Lookup
import CodeAtlas.Proofs.FileSystem.Agreement
import CodeAtlas.Proofs.Walk.Order
import CodeAtlas.Proofs.Repository.Interference
import CodeAtlas.Proofs.FileSystem.Writing
import CodeAtlas.Proofs.Text.Decoding
import CodeAtlas.Proofs.Text.Showing
import CodeAtlas.Proofs.Program
import CodeAtlas.Proofs.Syntax.Nesting
import CodeAtlas.Proofs.Extract.Laminar
import CodeAtlas.Proofs.Repository.LineCount
import CodeAtlas.Proofs.Syntax.Subtree
import CodeAtlas.Proofs.Extract.Calls
import CodeAtlas.Proofs.Extract.Complexity
import CodeAtlas.Proofs.Dialect.Declarators
import CodeAtlas.Proofs.Dialect.NamePlaces
import CodeAtlas.Proofs.Extract.Excerpts
import CodeAtlas.Proofs.CallGraph.Arrangement
import CodeAtlas.Proofs.Repository.Limits
import CodeAtlas.Proofs.Repository.ShownPaths
import CodeAtlas.Proofs.Walk.Stages
import CodeAtlas.Proofs.Json.Grammar
import CodeAtlas.Proofs.Json.Skipping
import CodeAtlas.Proofs.Json.Layouts
import CodeAtlas.Proofs.Json.Refusals
import CodeAtlas.Proofs.Wire.Layouts
import CodeAtlas.Proofs.Extract.EmptyTexts
import CodeAtlas.Proofs.Report
import CodeAtlas.Proofs.Syntax.Traversal
