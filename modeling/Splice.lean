import Splice.Action
import Splice.Binary64.Basic
import Splice.Binary64.Shortest
import Splice.CommentStyle
import Splice.Context
import Splice.Diagnostic
import Splice.Encoding
import Splice.Item
import Splice.Json.Basic
import Splice.Json.Printer
import Splice.Json.Reader
import Splice.Json.Sorted
import Splice.Json.Token
import Splice.Loader.Basic
import Splice.Loader.Catalogue
import Splice.Loader.Disk
import Splice.Log
import Splice.Node.Basic
import Splice.Node.Element
import Splice.Node.Json
import Splice.Node.Stored.Basic
import Splice.Node.Stored.Reader
import Splice.Node.Visit
import Splice.Path
import Splice.Place
import Splice.Position
import Splice.Preprocessor
import Splice.Proofs.Address
import Splice.Proofs.Arrangement
import Splice.Proofs.Catalogue
import Splice.Proofs.Comment
import Splice.Proofs.Counting
import Splice.Proofs.Cycle
import Splice.Proofs.Directive
import Splice.Proofs.Event
import Splice.Proofs.Expansion.Basic
import Splice.Proofs.Expansion.Likeness
import Splice.Proofs.Expansion.Refinement
import Splice.Proofs.Expansion.Rendering
import Splice.Proofs.Failure
import Splice.Proofs.Grammar
import Splice.Proofs.Isolation
import Splice.Proofs.Json.RoundTrip
import Splice.Proofs.Line
import Splice.Proofs.Node.Query
import Splice.Proofs.Node.RoundTrip
import Splice.Proofs.Node.Visit
import Splice.Proofs.Placement
import Splice.Proofs.Precedence
import Splice.Proofs.QuotedString
import Splice.Proofs.Resumption
import Splice.Proofs.Scanner
import Splice.Proofs.Segment
import Splice.Proofs.Session.Depth
import Splice.Proofs.Session.Detection
import Splice.Proofs.Session.Directive
import Splice.Proofs.Session.Distinct
import Splice.Proofs.Session.Extension
import Splice.Proofs.Session.Invariant
import Splice.Proofs.Session.Limit
import Splice.Proofs.Session.Locality
import Splice.Proofs.Session.Moment
import Splice.Proofs.Session.Once
import Splice.Proofs.Session.Operation
import Splice.Proofs.Session.Request
import Splice.Proofs.Session.Spelling
import Splice.Proofs.Session.Styles
import Splice.Proofs.Session.Termination
import Splice.Proofs.Session.Trace
import Splice.Proofs.SourceMap
import Splice.Proofs.Stripping
import Splice.Proofs.Tiling
import Splice.Proofs.Token
import Splice.Segment
import Splice.Session.Basic
import Splice.Session.Run
import Splice.Settings
import Splice.Text.Alphanumeric
import Splice.Text.Basic
import Splice.Text.Decimal
import Splice.Text.Printable
import Splice.Text.Quoted
import Splice.Text.Space
import Splice.Token
import Splice.Token.Line
