import LiveTest.Config.Load
import LiveTest.Editor.Sessions
import LiveTest.Session
import LiveTest.SourceMap
import LiveTest.Wire
import LiveTest.Proofs.AbandonedExpressions
import LiveTest.Proofs.AscendingKeys
import LiveTest.Proofs.BraceDepth
import LiveTest.Proofs.ChargedFiles
import LiveTest.Proofs.CheckedOffsets
import LiveTest.Proofs.CommandEnds
import LiveTest.Proofs.Contradictions
import LiveTest.Proofs.Delivery
import LiveTest.Proofs.DetailsScripts
import LiveTest.Proofs.ErrorViews
import LiveTest.Proofs.Evaluations
import LiveTest.Proofs.FailedBuilds
import LiveTest.Proofs.LineStatuses
import LiveTest.Proofs.ListSelections
import LiveTest.Proofs.NestedCalls
import LiveTest.Proofs.OffsetScan
import LiveTest.Proofs.OpenedDetails
import LiveTest.Proofs.OpenedLists
import LiveTest.Proofs.RunEvents
import LiveTest.Proofs.RunFailures
import LiveTest.Proofs.RunningSessions
import LiveTest.Proofs.SeparateDetails
import LiveTest.Proofs.SessionDisplay
import LiveTest.Proofs.ShownErrors
import LiveTest.Proofs.ShownLabels
import LiveTest.Proofs.ShownStatuses
import LiveTest.Proofs.SourceDecoration
import LiveTest.Proofs.SourcePositions
import LiveTest.Proofs.StaleLines
import LiveTest.Proofs.UnitRecords
import LiveTest.Proofs.UnitRuns
