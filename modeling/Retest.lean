import Retest.Main
import Retest.Run.Rehearsal
import Retest.Proofs.Collection
import Retest.Proofs.ImportGraph
import Retest.Proofs.PathOrder
import Retest.Proofs.Dependents
import Retest.Proofs.CatalogUpdate
import Retest.Proofs.CatalogRuns
import Retest.Proofs.CatalogAgreement
import Retest.Proofs.Docket
import Retest.Proofs.Queue
import Retest.Proofs.ShiftMoves
import Retest.Proofs.ShiftState
import Retest.Proofs.ShiftLedger
import Retest.Proofs.EngineLedger
import Retest.Proofs.OneResult
import Retest.Proofs.QueueRuns
import Retest.Proofs.SessionAccounts
import Retest.Proofs.ClassFormat
import Retest.Proofs.ClassReading
import Retest.Proofs.Decoding
import Retest.Proofs.FileMap
import Retest.Proofs.FileMapRuns
import Retest.Proofs.Connections
import Retest.Proofs.ShiftNumbers
import Retest.Proofs.Shutdown
import Retest.Proofs.FileTree
import Retest.Proofs.ClassSearch
import Retest.Proofs.Scan
import Retest.Proofs.LostChanges
import Retest.Proofs.GraphRuns
import Retest.Proofs.PermitRuns
import Retest.Proofs.PermitBound
import Retest.Proofs.DispatchSteps
import Retest.Proofs.ShiftPermits
import Retest.Proofs.WorkerBound
import Retest.Proofs.PoolRuns
import Retest.Proofs.WakeUps
import Retest.Proofs.Announcements
import Retest.Proofs.SessionEnd
import Retest.Proofs.PathLookup
import Retest.Proofs.Relisting
import Retest.Proofs.ScanExact
import Retest.Proofs.SearchOrder
import Retest.Proofs.ClassMembers
import Retest.Proofs.PackageNames
import Retest.Proofs.ImpactedTests
import Retest.Proofs.FirstPass
import Retest.Proofs.Summaries
import Retest.Proofs.Reports
import Retest.Proofs.RunVerdict
import Retest.Proofs.UpdateEffect
import Retest.Proofs.PatternText
import Retest.Proofs.CatchAll
import Retest.Proofs.DocketRuns
import Retest.Proofs.FailFast
import Retest.Proofs.BatchOrder
import Retest.Proofs.AskedAgain
import Retest.Proofs.Encoding
import Retest.Proofs.Lines
import Retest.Proofs.RulesFile
import Retest.Proofs.Truncation
import Retest.Proofs.OnDemand
import Retest.Proofs.BatchFraming
import Retest.Proofs.EscapeEnding
import Retest.Proofs.BracketEnding
import Retest.Proofs.StepEnding
import Retest.Proofs.Anchoring
import Retest.Proofs.PlainOutput
import Retest.Proofs.NameLookup
import Retest.Proofs.Completion
import Retest.Proofs.Restarts
import Retest.Proofs.Trails
import Retest.Proofs.PathPatterns
import Retest.Proofs.PatternSearch
import Retest.Proofs.PatternReach
import Retest.Proofs.ClassDirs
import Retest.Proofs.Templates
import Retest.Proofs.WorkerCommand
import Retest.Proofs.Descriptors
