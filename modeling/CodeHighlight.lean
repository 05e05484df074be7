import CodeHighlight.Html.Fragments
import CodeHighlight.Session.Run
import CodeHighlight.Proofs.Highlighter.Lossless
import CodeHighlight.Proofs.Rule.Acceptance
import CodeHighlight.Proofs.Scan.Leftmost
import CodeHighlight.Proofs.Scan.Locality
import CodeHighlight.Proofs.Rule.Extension
import CodeHighlight.Proofs.Scan.Seam
import CodeHighlight.Proofs.Scan.Resumption
import CodeHighlight.Proofs.Scan.LineByLine
import CodeHighlight.Proofs.Scan.WordRuns
import CodeHighlight.Proofs.Scan.WordLists
import CodeHighlight.Proofs.Scan.Tabs
import CodeHighlight.Proofs.Scan.Refusal
import CodeHighlight.Proofs.Scan.Pool
import CodeHighlight.Proofs.Html.Overlap
import CodeHighlight.Proofs.Html.BlockLines
import CodeHighlight.Proofs.Highlighter.Range
import CodeHighlight.Proofs.Registry.Lookup
import CodeHighlight.Proofs.Session.Builders
import CodeHighlight.Proofs.Html.Pieces
import CodeHighlight.Proofs.Registry.Order
import CodeHighlight.Proofs.Highlighter.Fallback
import CodeHighlight.Proofs.Session.Scopes
import CodeHighlight.Proofs.Html.Tags
import CodeHighlight.Proofs.Scan.Bounds
import CodeHighlight.Proofs.Scan.Horizons
