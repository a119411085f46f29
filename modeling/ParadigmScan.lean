import ParadigmScan.Main
import ParadigmScan.Proofs.Listing.Aliases
import ParadigmScan.Proofs.Scan.Completion
import ParadigmScan.Proofs.Syntax.Places
import ParadigmScan.Syntax.Preorder
import ParadigmScan.Tally.Program
import ParadigmScan.Proofs.Encoding.Utf8
import ParadigmScan.Proofs.Toml.Readers
import ParadigmScan.Proofs.Toml.Scalars
import ParadigmScan.Proofs.Table
import ParadigmScan.Proofs.Toml.Documents
import ParadigmScan.Proofs.Settings.Values
import ParadigmScan.Proofs.Settings.Priority
import ParadigmScan.Proofs.Settings.Faults
import ParadigmScan.Proofs.Scan.Fates
import ParadigmScan.Proofs.FileTree.Writing
import ParadigmScan.Proofs.Scan.Interruption
import ParadigmScan.Proofs.CommandLine.Atomicity
import ParadigmScan.Proofs.Listing.Filtering
import ParadigmScan.Proofs.Listing.LinkFree
import ParadigmScan.Proofs.Listing.Reach
import ParadigmScan.Proofs.FileTree.Absolute
import ParadigmScan.Proofs.Settings.Exclusions
import ParadigmScan.Proofs.Scan.Announcement
import ParadigmScan.Proofs.CommandLine.Arguments
import ParadigmScan.Proofs.CommandLine.Agreement
import ParadigmScan.Proofs.Number.Rounding
import ParadigmScan.Proofs.Ratio.Hundredths
import ParadigmScan.Proofs.Ratio.Limits
import ParadigmScan.Proofs.Listing.Subdirectories
import ParadigmScan.Proofs.Scan.Composition
import ParadigmScan.Proofs.Listing.Visible
import ParadigmScan.Proofs.Scan.Noninterference
import ParadigmScan.Proofs.Ratio.Order
import ParadigmScan.Proofs.Encoding.LineEnds
import ParadigmScan.Proofs.Scan.NormalForm
import ParadigmScan.Proofs.Number.Intervals
import ParadigmScan.Proofs.Number.Shortest
import ParadigmScan.Proofs.Number.Notation
import ParadigmScan.Proofs.Number.Numerals
import ParadigmScan.Proofs.Ratio.Display
import ParadigmScan.Proofs.Json.Grammar
import ParadigmScan.Proofs.Json.Reading
import ParadigmScan.Proofs.Json.RoundTrip
import ParadigmScan.Proofs.Syntax.Additivity
import ParadigmScan.Proofs.Syntax.Gaps
import ParadigmScan.Proofs.Syntax.Wrapping
import ParadigmScan.Proofs.FirstUse
import ParadigmScan.Proofs.Tally.Merging
import ParadigmScan.Proofs.Tally.Sharing
import ParadigmScan.Proofs.Scan.Engines
