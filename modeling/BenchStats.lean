import BenchStats.HeapReport.Basic
import BenchStats.Main
import BenchStats.Proofs.Binary64.Arithmetic
import BenchStats.Proofs.Binary64.Error
import BenchStats.Proofs.Binary64.Exchange
import BenchStats.Proofs.Binary64.Order
import BenchStats.Proofs.Binary64.Products
import BenchStats.Proofs.Binary64.Sums
import BenchStats.Proofs.Command.Outputs
import BenchStats.Proofs.Csv.Grammar
import BenchStats.Proofs.Csv.RoundTrip
import BenchStats.Proofs.Decimal.Whole
import BenchStats.Proofs.Files.Documents
import BenchStats.Proofs.Files.Tree
import BenchStats.Proofs.HeapReport.Json
import BenchStats.Proofs.HeapReport.Reading
import BenchStats.Proofs.HeapReport.Rendering
import BenchStats.Proofs.HeapReport.Table
import BenchStats.Proofs.HeapReport.Words
import BenchStats.Proofs.Json.Compact
import BenchStats.Proofs.Json.Readable
import BenchStats.Proofs.Number.Written
import BenchStats.Proofs.Report.Columns
import BenchStats.Proofs.Report.CompleteRuns
import BenchStats.Proofs.Report.Exchange
import BenchStats.Proofs.Report.GroupOrder
import BenchStats.Proofs.Report.Headers
import BenchStats.Proofs.Report.Histogram
import BenchStats.Proofs.Report.KeyOrder
import BenchStats.Proofs.Report.Profiles
import BenchStats.Proofs.Report.Reordering
import BenchStats.Proofs.Report.Tiling
import BenchStats.Proofs.Report.Unchanged
import BenchStats.Proofs.Series.Ascending
import BenchStats.Proofs.Series.CompletePairs
import BenchStats.Proofs.Series.Correlation
import BenchStats.Proofs.Series.Histogram
import BenchStats.Proofs.Series.Mean
import BenchStats.Proofs.Series.Quantile
import BenchStats.Proofs.Series.Variance
import BenchStats.Proofs.Table.Aligned
import BenchStats.Proofs.Table.DirectViews
import BenchStats.Proofs.Table.Grouping
import BenchStats.Proofs.Table.NumericColumns
import BenchStats.Proofs.Table.Partition
import BenchStats.Proofs.Table.Positions
import BenchStats.Proofs.Table.RecordValues
import BenchStats.Proofs.Table.Records
import BenchStats.Proofs.Table.Width
import BenchStats.Report.Columns
import BenchStats.Report.Groups
import BenchStats.Report.Profiles
import BenchStats.Report.Total
import BenchStats.Table.Aligned
import BenchStats.Table.Csv
import BenchStats.Table.Records
import BenchStats.Text.DecimalDigit
import BenchStats.Text.Lines
import BenchStats.Text.Quoted
