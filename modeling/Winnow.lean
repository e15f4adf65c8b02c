import Winnow.Method.Draft
import Winnow.Method.Branches
import Winnow.Pattern.Cursor
import Winnow.Report.Grouping
import Winnow.Report.Json
import Winnow.SourceMap.Basic
import Winnow.Json.Reader
import Winnow.Config
import Winnow.Extension.Loader
import Winnow.Builtin
import Winnow.Registry
import Winnow.Proofs.Sorted
import Winnow.Proofs.Navigation
import Winnow.Proofs.Pattern.Meaning
import Winnow.Proofs.Pattern.Position
import Winnow.Proofs.Pattern.Spans
import Winnow.Proofs.Report.Grouping
import Winnow.Proofs.Findings.Basic
import Winnow.Proofs.Findings.Handlers
import Winnow.Proofs.Findings.Ranges
import Winnow.Proofs.Findings.Dispatches
import Winnow.Proofs.Findings.Builtin
import Winnow.Proofs.Scratch
import Winnow.Proofs.Isolation
import Winnow.Proofs.Findings.Competition
import Winnow.Proofs.Report.Order
import Winnow.Proofs.Order
import Winnow.Proofs.Assembly
import Winnow.Proofs.Findings.Replacements
import Winnow.Proofs.Findings.Destinations
import Winnow.Proofs.SourceMap.RoundTrip
import Winnow.Proofs.Extension.Loading
import Winnow.Proofs.Extension.Cache
import Winnow.Proofs.Findings.Resources
import Winnow.Proofs.Findings.Copies
import Winnow.Proofs.Findings.DefaultArms
import Winnow.Proofs.Findings.Comparisons
import Winnow.Proofs.Findings.Composables
import Winnow.Proofs.Boundaries
import Winnow.Proofs.Report.SwitchGroups
import Winnow.Proofs.Report.Coalescing
import Winnow.Proofs.GeneratedLines
import Winnow.Proofs.Findings.InlinedCode
import Winnow.Proofs.Descriptor
import Winnow.Proofs.Findings.MaskTests
import Winnow.Proofs.Extension.Listing
import Winnow.Proofs.SourceMap.FirstBadLine
import Winnow.Proofs.Navigation.Walk
import Winnow.Proofs.Scratch.Calls
