import DiagramBoard.Board.Connector
import DiagramBoard.Board.Container
import DiagramBoard.Board.DerivedId
import DiagramBoard.Board.Describe
import DiagramBoard.Board.Drawing
import DiagramBoard.Board.Drawing.Edge
import DiagramBoard.Board.Drawing.Node
import DiagramBoard.Board.Drawing.Pen
import DiagramBoard.Board.Element
import DiagramBoard.Board.Encoding
import DiagramBoard.Board.Identity
import DiagramBoard.Board.Item
import DiagramBoard.Board.Live
import DiagramBoard.Board.Managed
import DiagramBoard.Board.Reading
import DiagramBoard.Board.Refresh
import DiagramBoard.Board.Style
import DiagramBoard.Change
import DiagramBoard.CommandLine
import DiagramBoard.CommandLine.Arguments
import DiagramBoard.Decimal.Shortest
import DiagramBoard.Diagram.Basic
import DiagramBoard.Diagram.Encoding
import DiagramBoard.Diagram.Member
import DiagramBoard.Diagram.Prune
import DiagramBoard.Grammar
import DiagramBoard.Grammar.Class
import DiagramBoard.Grammar.Flowchart
import DiagramBoard.Grammar.FlowchartDraft
import DiagramBoard.Grammar.Line
import DiagramBoard.Grammar.Sequence
import DiagramBoard.Grammar.State
import DiagramBoard.Json.Basic
import DiagramBoard.Json.Decode
import DiagramBoard.Json.Ordered
import DiagramBoard.Json.Pointer
import DiagramBoard.Json.Printer
import DiagramBoard.Json.Reader
import DiagramBoard.Layout
import DiagramBoard.Layout.Encoding
import DiagramBoard.Layout.Incremental
import DiagramBoard.Layout.Lanes
import DiagramBoard.Layout.Rank
import DiagramBoard.Layout.Ranked
import DiagramBoard.Layout.Size
import DiagramBoard.Proofs.Board.Coherent
import DiagramBoard.Proofs.Board.HandDrawn
import DiagramBoard.Proofs.Board.Ownership
import DiagramBoard.Proofs.Board.RoundTrip
import DiagramBoard.Proofs.Board.Styles
import DiagramBoard.Proofs.Grammar.WellFormed
import DiagramBoard.Proofs.Reconcile.Bindings
import DiagramBoard.Proofs.Reconcile.Fields
import DiagramBoard.Proofs.Reconcile.History
import DiagramBoard.Proofs.Reconcile.Styling
import DiagramBoard.Proofs.RoundTrip
import DiagramBoard.Proofs.RoundTrip.ClassGraph
import DiagramBoard.Proofs.RoundTrip.FlowchartGraph
import DiagramBoard.Proofs.RoundTrip.Retold
import DiagramBoard.Proofs.RoundTrip.Sequence
import DiagramBoard.Proofs.RoundTrip.StateGraph
import DiagramBoard.Reconcile
import DiagramBoard.Scalar
import DiagramBoard.Session
import DiagramBoard.SyntaxError
import DiagramBoard.Table
import DiagramBoard.Text.Alphanumeric
import DiagramBoard.Text.Blank
import DiagramBoard.Text.Entity
import DiagramBoard.Text.Label
import DiagramBoard.Text.Lowercase
import DiagramBoard.Text.Search
import DiagramBoard.Text.Width
import DiagramBoard.Text.WidthClasses
import DiagramBoard.Writer
import DiagramBoard.Writer.Class
import DiagramBoard.Writer.Flowchart
import DiagramBoard.Writer.Sequence
import DiagramBoard.Writer.State
import DiagramBoard.Main
import DiagramBoard.Proofs.Layout.Layers
import DiagramBoard.Proofs.Board.MadeIds
import DiagramBoard.Proofs.Layout.Clearance
import DiagramBoard.Proofs.Layout.Stable
import DiagramBoard.Proofs.Board.Fitting
import DiagramBoard.Proofs.Change.Nodes
import DiagramBoard.Proofs.Layout.ListingOrder
import DiagramBoard.Proofs.Layout.ReadingOrder
import DiagramBoard.Proofs.Change.Edges
import DiagramBoard.Proofs.Grammar.FlowchartChain
import DiagramBoard.Proofs.Grammar.FlowchartMeaning
import DiagramBoard.Proofs.Grammar.FirstFault
import DiagramBoard.Proofs.Board.Borders
import DiagramBoard.Proofs.Layout.FreePlaces
import DiagramBoard.Proofs.Board.LabelLines
import DiagramBoard.Proofs.Board.Lossless
import DiagramBoard.Proofs.Text.Entities
import DiagramBoard.Proofs.Text.LabelCuts
import DiagramBoard.Proofs.Text.ByteOffsets
