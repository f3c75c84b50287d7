import OwlAprilTagProcessor.Library.Transition
import OwlAprilTagProcessor.ConfigLoader.Config
import OwlAprilTagProcessor.Net.Http
import OwlAprilTagProcessor.Libraries
import OwlAprilTagProcessor.GetImage
import OwlAprilTagProcessor.SendResult
import OwlAprilTagProcessor.Session.Deadlines
import OwlAprilTagProcessor.TagProcessor.Steps
import OwlAprilTagProcessor.TagProcessor.Activity
import OwlAprilTagProcessor.TagProcessor.SingleFlight
import OwlAprilTagProcessor.TagProcessor.Survival
import OwlAprilTagProcessor.TagProcessor.TimeoutCount
import OwlAprilTagProcessor.Library.Linked
import OwlAprilTagProcessor.TagProcessor.Pacing
import OwlAprilTagProcessor.AprilTagData.Agreement
import OwlAprilTagProcessor.TagProcessor.TwoRuns
import OwlAprilTagProcessor.TagProcessor.Correspondence
import OwlAprilTagProcessor.TagProcessor.Refinement
import OwlAprilTagProcessor.Library.History
import OwlAprilTagProcessor.TagProcessor.TimeoutHistory
import OwlAprilTagProcessor.AprilTagData.Center
import OwlAprilTagProcessor.AprilTagData.Report
import OwlAprilTagProcessor.ConfigLoader.TagConfigLoader
import OwlAprilTagProcessor.ConfigLoader.Loading
import OwlAprilTagProcessor.TagProcessor.Ownership
import OwlAprilTagProcessor.Library.MovingAverage
import OwlAprilTagProcessor.TagProcessor.Throughput
import OwlAprilTagProcessor.Library.JsonText
import OwlAprilTagProcessor.Library.JsonDocument
import OwlAprilTagProcessor.Library.JsonLayout
import OwlAprilTagProcessor.ConfigLoader.PrettyPrint
import OwlAprilTagProcessor.TagProcessor.Budget
import OwlAprilTagProcessor.TagProcessor.Rate
import OwlAprilTagProcessor.TagProcessor.Faults
import OwlAprilTagProcessor.Process
import OwlAprilTagProcessor.TagProcessor.Poller
import OwlAprilTagProcessor.TagProcessor.FlushTimer
import OwlAprilTagProcessor.TagProcessor.Receiver
import OwlAprilTagProcessor.TagProcessor.Progress
import OwlAprilTagProcessor.TagProcessor.Completions
import OwlAprilTagProcessor.TagProcessor.Schedule
import OwlAprilTagProcessor.ConfigLoader.Reload
import OwlAprilTagProcessor.TagProcessor.Waste
import OwlAprilTagProcessor.TagProcessor.Overlap
