import SmartProctoring.Server.FastHeartbeat
import SmartProctoring.Server.Periods
import SmartProctoring.Server.Charged
import SmartProctoring.Server.SessionEnd
import SmartProctoring.Server.Reports
import SmartProctoring.Server.Reference
import SmartProctoring.Server.Idempotency
import SmartProctoring.Server.SingleSender
import SmartProctoring.Server.NotifiedOnce
import SmartProctoring.Server.EvidenceStore
import SmartProctoring.Server.EvidencePlaces
import SmartProctoring.Server.BurstsDecided
import SmartProctoring.Server.EvidenceWindow
import SmartProctoring.Server.LoginThrottle
import SmartProctoring.Server.SingleUse
import SmartProctoring.Server.FourEyes
import SmartProctoring.Server.VisionQueue
import SmartProctoring.Server.RetentionDays
import SmartProctoring.Server.QuotasKept
import SmartProctoring.Shared.Exceptions
import SmartProctoring.Server.LegalHold
import SmartProctoring.Server.WithdrawnEvidence
import SmartProctoring.Server.EmailAlerts
import SmartProctoring.Web.AnswersKept
import SmartProctoring.Server.LiveUpdates
import SmartProctoring.Server.RemoteRequests
import SmartProctoring.Web.RecordingOutcomes
import SmartProctoring.Server.ReportingGaps
import SmartProctoring.Server.IngestBatch
import SmartProctoring.Server.OneBrowser
import SmartProctoring.Server.LivenessPassed
import SmartProctoring.Web.SamplesAsked
import SmartProctoring.Web.CapturesStopped
import SmartProctoring.Web.MonitoringExact
import SmartProctoring.Web.SegmentsStored
import SmartProctoring.Web.StopFinal
import SmartProctoring.Server.OwnersKept
import SmartProctoring.Detection.DebounceRule
import SmartProctoring.Detection.PeopleEnd
import SmartProctoring.Detection.BrowserSignals
import SmartProctoring.Detection.TriggersKept
import SmartProctoring.Detection.GazeCounts
import SmartProctoring.Server.RequestHash
import SmartProctoring.Detection.AttentionBounds
import SmartProctoring.Detection.TrackerSteps
import SmartProctoring.Server.CheckAssessment
import SmartProctoring.Server.ScimPatch
import SmartProctoring.Server.Totp
import SmartProctoring.Server.Jpeg
import SmartProctoring.Shared.Incidents
import SmartProctoring.Web.Timeline
import SmartProctoring.Server.NetGuard
import SmartProctoring.Server.ExtraTime
import SmartProctoring.Server.NumericAnswers
import SmartProctoring.Server.Regrade
import SmartProctoring.Server.ZipReader
import SmartProctoring.Server.ReportsCsv
