import UsageReport.Main
import UsageReport.Run.Overlap
import UsageReport.Run.Timetable
import UsageReport.Session
import UsageReport.Proofs.Parts
import UsageReport.Proofs.LastWrite
import UsageReport.Proofs.ReadOrder
import UsageReport.Proofs.Anonymity
import UsageReport.Proofs.Canonical
import UsageReport.Proofs.Loaded
import UsageReport.Proofs.Counts
import UsageReport.Proofs.Span
import UsageReport.Proofs.DurationGrammar
import UsageReport.Proofs.Delivery
import UsageReport.Proofs.Serialization
import UsageReport.Proofs.Grammar
import UsageReport.Proofs.Written
import UsageReport.Proofs.Rounding
import UsageReport.Proofs.Digits
import UsageReport.Proofs.NumeralValue
import UsageReport.Proofs.ShortestDecimal
import UsageReport.Proofs.RealText
import UsageReport.Proofs.Printed
import UsageReport.Proofs.RoundTrip
import UsageReport.Proofs.StoreText
import UsageReport.Proofs.RunLog
import UsageReport.Proofs.Ticks
import UsageReport.Run.Loop
import UsageReport.Proofs.LoopSimulation
import UsageReport.Proofs.PanicIsolation
import UsageReport.Proofs.DeliveryPaths
import UsageReport.Proofs.ReportText
import UsageReport.Proofs.SavedFiles
import UsageReport.Proofs.Fanout
import UsageReport.Proofs.Surroundings
import UsageReport.Proofs.ListForm
import UsageReport.Proofs.Strictness
import UsageReport.Proofs.Scanned
import UsageReport.Proofs.Stubs
import UsageReport.Proofs.Accepted
import UsageReport.Proofs.StubTrees
import UsageReport.Proofs.Wanted
import UsageReport.Proofs.Truncation
import UsageReport.Proofs.Rejection
import UsageReport.Proofs.Environments
import UsageReport.Proofs.ReadCounts
import UsageReport.Proofs.SnapshotInterval
import UsageReport.Proofs.PageLines
import UsageReport.Proofs.PageLayout
import UsageReport.Proofs.SnapshotLine
import UsageReport.Proofs.Variables
import UsageReport.Proofs.Commands
import UsageReport.Proofs.Interval
import UsageReport.Proofs.CheckedWords
import UsageReport.Proofs.WordLoop
