import PredictiveAutoscaler.AdditiveSafety
import PredictiveAutoscaler.BelowCurrent
import PredictiveAutoscaler.HoldBypass
import PredictiveAutoscaler.Pacing
import PredictiveAutoscaler.Api.Registry
import PredictiveAutoscaler.Api.Auth
import PredictiveAutoscaler.ScaleWrite
import PredictiveAutoscaler.ReplicaMath
import PredictiveAutoscaler.Forecasting.Recovery
import PredictiveAutoscaler.Forecasting.Repromotion
import PredictiveAutoscaler.FoldPasses
import PredictiveAutoscaler.Forecasting.Confluence
import PredictiveAutoscaler.Forecasting.Schedule
import PredictiveAutoscaler.Durable
import PredictiveAutoscaler.Forecasting.Contracts
import PredictiveAutoscaler.Forecasting.Maturation
import PredictiveAutoscaler.Forecasting.Store
import PredictiveAutoscaler.Forecasting.Service
import PredictiveAutoscaler.Forecasting.Commits
import PredictiveAutoscaler.Forecasting.Immutability
import PredictiveAutoscaler.Forecasting.Compaction
import PredictiveAutoscaler.Forecasting.ReplayApart
import PredictiveAutoscaler.Forecasting.TruthDeadline
import PredictiveAutoscaler.CanonicalJson
import PredictiveAutoscaler.ForecastV2.Settings
import PredictiveAutoscaler.ForecastV2.SettingsAgreement
import PredictiveAutoscaler.ForecastV2.Lead
import PredictiveAutoscaler.ForecastReuse
import PredictiveAutoscaler.CivilTime
import PredictiveAutoscaler.TimeText
import PredictiveAutoscaler.ForecastV2.Response
import PredictiveAutoscaler.ForecastV2.Authorization
import PredictiveAutoscaler.ForecastCache
import PredictiveAutoscaler.ForecastV2.LeadRun
import PredictiveAutoscaler.Forecasting.ModelSelection
import PredictiveAutoscaler.Coexistence
import PredictiveAutoscaler.Forecasting.FitWorker.Protocol
import PredictiveAutoscaler.Training.BlendSelection
import PredictiveAutoscaler.Training.ServedBlend
import PredictiveAutoscaler.Training.GapFill
import PredictiveAutoscaler.Training.Preflight
import PredictiveAutoscaler.Evaluation.Replay
import PredictiveAutoscaler.Resumption
import PredictiveAutoscaler.Evaluation.ReplayResume
import PredictiveAutoscaler.Evaluation.ReplayForesight
import PredictiveAutoscaler.Evaluation.ReplaySound
import PredictiveAutoscaler.Forecasting.WindowNames
import PredictiveAutoscaler.Forecasting.CalibrationExact
import PredictiveAutoscaler.Forecasting.LedgerWindows
import PredictiveAutoscaler.Forecasting.PairedOnce
import PredictiveAutoscaler.PythonValue
import PredictiveAutoscaler.CrashDisk
import PredictiveAutoscaler.Forecasting.ArtifactFile
import PredictiveAutoscaler.Forecasting.Artifacts
import PredictiveAutoscaler.Models.RelativeProfileAr
import PredictiveAutoscaler.Models.Causality
import PredictiveAutoscaler.Models.Fingerprints
import PredictiveAutoscaler.Models.GenerationCache
import PredictiveAutoscaler.Models.HoltWinters
import PredictiveAutoscaler.Forecasting.Statistical
import PredictiveAutoscaler.Forecasting.StatisticalE1
import PredictiveAutoscaler.OverestimateEpisodes
import PredictiveAutoscaler.ForecastV2.PredictiveExtra
import PredictiveAutoscaler.LeadWindow
import PredictiveAutoscaler.ConversionRange
import PredictiveAutoscaler.DivergedForecast
import PredictiveAutoscaler.Evaluation.OutcomeTiming
import PredictiveAutoscaler.Evaluation.RepeatedReads
import PredictiveAutoscaler.MaximalRuns
import PredictiveAutoscaler.Training.GapRule
import PredictiveAutoscaler.Training.SplitRule
import PredictiveAutoscaler.ForecastV2.Startup
import PredictiveAutoscaler.ForecastV2.StartupHistory
import PredictiveAutoscaler.Training.InferenceWindow
import PredictiveAutoscaler.Forecasting.HoltWintersPieces
import PredictiveAutoscaler.Forecasting.Provenance
import PredictiveAutoscaler.TextPattern
import PredictiveAutoscaler.Forecasting.WireGrammar
import PredictiveAutoscaler.Forecasting.History
import PredictiveAutoscaler.Forecasting.ChunkedHistory
import PredictiveAutoscaler.Migration.Replacement
import PredictiveAutoscaler.Migration.ReplacementCheck
import PredictiveAutoscaler.JsonPaths
import PredictiveAutoscaler.Forecasting.EvidenceSizes
import PredictiveAutoscaler.Forecasting.BoundedEvidence
import PredictiveAutoscaler.Api.Admission
import PredictiveAutoscaler.Api.Middleware
import PredictiveAutoscaler.Api.Accuracy
import PredictiveAutoscaler.Observer.Shadow
import PredictiveAutoscaler.Conversation
import PredictiveAutoscaler.Migration.Commands
import PredictiveAutoscaler.Migration.Handover
import PredictiveAutoscaler.Migration.InterleavedHandover
