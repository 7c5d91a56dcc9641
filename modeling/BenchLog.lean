import BenchLog.Main
import BenchLog.Proofs.FifoPairing
import BenchLog.Proofs.Recovery
import BenchLog.Proofs.RunDraft
import BenchLog.Proofs.PairsAndCouples
import BenchLog.Proofs.Noise
import BenchLog.Proofs.AppendedLogs
import BenchLog.Proofs.TimelineRows
import BenchLog.Proofs.SampleSections
import BenchLog.Proofs.DistinctOutputs
import BenchLog.Proofs.AlignmentOutcome
import BenchLog.Proofs.SummaryAgreement
import BenchLog.Proofs.WrittenTables
import BenchLog.Proofs.WrittenSummaries
import BenchLog.Proofs.PairLines
import BenchLog.Proofs.RepeatedRun
import BenchLog.Proofs.DatasetOrder
import BenchLog.Proofs.DurationSums
import BenchLog.Proofs.MarkerBlocks
import BenchLog.Proofs.MergedMetrics
import BenchLog.Proofs.CommandOutcome
import BenchLog.Proofs.ChartChecks
import BenchLog.Proofs.ColumnLookup
import BenchLog.Proofs.LargestMatching
import BenchLog.Proofs.TableLaws
import BenchLog.Proofs.Stretches
import BenchLog.Proofs.FirstReading
import BenchLog.Proofs.LastChoices
import BenchLog.Proofs.ConsumedOnce
import BenchLog.Proofs.ExactValues
import BenchLog.Proofs.AxisMargins
