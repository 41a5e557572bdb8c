import Nospacekey.Library.Runs
import Nospacekey.Ipc.ClauseLaws
import Nospacekey.Ipc.Alternation
import Nospacekey.Engine.ClauseAgreement
import Nospacekey.Clause.Conversion
import Nospacekey.Clause.Invariant
import Nospacekey.Clause.Effects
import Nospacekey.Clause.Replacement
import Nospacekey.Clause.Selection
import Nospacekey.Clause.Requests
import Nospacekey.Clause.Replies
import Nospacekey.Clause.Steps
import Nospacekey.Clause.Freshness
import Nospacekey.Clause.Sessions
import Nospacekey.Clause.Acceptance
import Nospacekey.Clause.Provenance
import Nospacekey.Composer.Replay
import Nospacekey.Input.Module
import Nospacekey.Input.Freshness
import Nospacekey.Input.ComposerCalls
import Nospacekey.Input.PartialCommit
import Nospacekey.Input.Replay
import Nospacekey.Input.CandidatePane
import Nospacekey.Input.Candidates
import Nospacekey.Input.LiveDisplay
import Nospacekey.Prediction.State
import Nospacekey.Prediction.Freshness
import Nospacekey.Outbox.Fates
import Nospacekey.Outbox.AtMostOnce
import Nospacekey.Outbox.Transport
import Nospacekey.Outbox.Watermarks
import Nospacekey.Queue.Accounting
import Nospacekey.Queue.Conservation
import Nospacekey.Background.Sessions
import Nospacekey.Learning.Durability
import Nospacekey.Background.SnapshotRetention
import Nospacekey.Engine.GpuWorkerOwnership
import Nospacekey.Engine.GpuWorkerEscalation
import Nospacekey.Engine.GpuWorkerReaping
import Nospacekey.Engine.BackgroundMaintenance
import Nospacekey.Engine.MaintenanceRuns
import Nospacekey.Engine.DictionaryReload
import Nospacekey.Engine.DictionaryReloadJobs
import Nospacekey.Engine.DictionaryReloadRuns
import Nospacekey.Composer.Slicing
import Nospacekey.Composer.Retention
import Nospacekey.Composer.Lossless
import Nospacekey.Engine.SessionIsolation
import Nospacekey.Learning.ClearSafety
import Nospacekey.Settings.Recovery
import Nospacekey.Composer.CursorEdits
import Nospacekey.Composer.SuffixRetention
import Nospacekey.Clause.Atomicity
import Nospacekey.Clause.Choices
import Nospacekey.Clause.Waits
import Nospacekey.Clause.Deadlines
import Nospacekey.Ipc.ClauseRequests
import Nospacekey.Clause.Sendable
import Nospacekey.Clause.Emissions
import Nospacekey.Clause.EditFrame
import Nospacekey.Engine.SnapshotEnhancement
import Nospacekey.Engine.ComposingText
import Nospacekey.Engine.GpuWorkerWire
import Nospacekey.Library.Index
import Nospacekey.Engine.GpuWorkerReranker
import Nospacekey.Library.StableSort
import Nospacekey.Learning.RecentLearning
import Nospacekey.Learning.RecentRanking
import Nospacekey.Settings.Keymap
import Nospacekey.Input.KeyAction
import Nospacekey.Input.KeyConflicts
import Nospacekey.Input.KeyTest
import Nospacekey.Input.KeyDown
import Nospacekey.Input.KeyWaits
import Nospacekey.Input.KeyDispatch
import Nospacekey.Input.KeyAgreement
import Nospacekey.Library.FirstOfKey
import Nospacekey.Text.Decoding
import Nospacekey.Dictionary.UserDictionary
import Nospacekey.Dictionary.Keys
import Nospacekey.Dictionary.JsonModel
import Nospacekey.Dictionary.Transfer
import Nospacekey.Engine.ClauseNavigation
import Nospacekey.Engine.ClauseNavigationRuns
import Nospacekey.Settings.SettingChanges
import Nospacekey.Settings.SettingsStore
import Nospacekey.Settings.EditsKept
import Nospacekey.Update.Release
import Nospacekey.Update.ReleaseUrls
import Nospacekey.Update.Selection
import Nospacekey.Update.ReleaseGate
import Nospacekey.Download.OperationState
import Nospacekey.Download.ZenzaiModel
import Nospacekey.Download.Exclusion
import Nospacekey.Download.Placement
import Nospacekey.Download.Activation
import Nospacekey.Download.ModelInstall
import Nospacekey.Engine.PredictionAnswers
import Nospacekey.Engine.PredictionRuntimes
