import BazelMcp.Artifacts
import BazelMcp.BazelPaths
import BazelMcp.BesCapture
import BazelMcp.CleanupRun
import BazelMcp.Clients
import BazelMcp.CoverageView
import BazelMcp.CursorBytes
import BazelMcp.DeferredExpiry
import BazelMcp.EvidenceCounts
import BazelMcp.EvidenceReaders
import BazelMcp.Finalization
import BazelMcp.IndexRuns
import BazelMcp.InspectionCursors
import BazelMcp.LifecycleCompletion
import BazelMcp.LifecycleSafety
import BazelMcp.Measuring
import BazelMcp.Permanence
import BazelMcp.Publication
import BazelMcp.QueryPaging
import BazelMcp.RedactionOrder
import BazelMcp.Reducers
import BazelMcp.ReductionOutcomes
import BazelMcp.RetentionRun
import BazelMcp.Submission
import BazelMcp.TaskStatus
import BazelMcp.Wildcards
