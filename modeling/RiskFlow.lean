import RiskFlow.Http.SavedFiles
import RiskFlow.Entrypoint.ServerUploads
import RiskFlow.Entrypoint.ServerDisk
import RiskFlow.Entrypoint.Server
import RiskFlow.Gui.FlowRuns
import RiskFlow.Gui.FlowMapper
import RiskFlow.Service.RowVerdicts
import RiskFlow.Tools.NotesText
import RiskFlow.Tools.FetchedPulls
import RiskFlow.Tools.ReleaseRuns
import RiskFlow.Lib.Sections
import RiskFlow.Service.AskedMappings
import RiskFlow.Http.JobPolling
import RiskFlow.Domain.RecordModelCache
import RiskFlow.Lib.Lru
import RiskFlow.Adapters.SlmCalls
import RiskFlow.Adapters.GroqMapper
import RiskFlow.Service.CorrectionsInForce
import RiskFlow.Service.ConcurrentUploads
import RiskFlow.Entrypoint.SchemaSerial
import RiskFlow.Entrypoint.SchemaReads
import RiskFlow.Entrypoint.SchemaRecovery
import RiskFlow.Lib.Semaphore
import RiskFlow.Lib.Fairness
import RiskFlow.Lib.Recording
import RiskFlow.Tools.ReleaseNotes
import RiskFlow.Tools.VersionBumps
import RiskFlow.Tools.BumpVersion
import RiskFlow.Domain.DateParsers
import RiskFlow.Domain.FormatDetection
import RiskFlow.Python.Calendar
import RiskFlow.Python.Numbers
import RiskFlow.Lib.Lines
import RiskFlow.Lib.Classify
import RiskFlow.Tools.LinterSoundness
import RiskFlow.Tools.HexagonalLinter
import RiskFlow.Lib.Walk
import RiskFlow.Tools.RequiredParameters
import RiskFlow.Http.SchemaNames
import RiskFlow.Adapters.JobPersistence
import RiskFlow.Domain.SessionCalls
import RiskFlow.Lib.Method
import RiskFlow.Adapters.JobListing
import RiskFlow.Service.TextColumns
import RiskFlow.Http.FileKinds
import RiskFlow.Http.CorrectionBatches
import RiskFlow.Entrypoint.SchemasInStep
import RiskFlow.Entrypoint.Main
import RiskFlow.Entrypoint.Application
import RiskFlow.Entrypoint.SessionSchemas
import RiskFlow.Entrypoint.TempFiles
import RiskFlow.Tools.CheckApiChanges
import RiskFlow.Http.SessionColumns
import RiskFlow.Http.SessionCreation
import RiskFlow.Http.SessionShape
import RiskFlow.Http.BatchInteractive
import RiskFlow.Http.Corrections
import RiskFlow.Http.Uploads
import RiskFlow.Http.SchemaCreation
import RiskFlow.Http.Schemas
import RiskFlow.Adapters.SchemaStore
import RiskFlow.Http.SessionEdits
import RiskFlow.Http.SessionFinality
import RiskFlow.Http.Sessions
import RiskFlow.Http.Errors
import RiskFlow.Adapters.SessionStore
import RiskFlow.Domain.Session
import RiskFlow.Lib.Interleaving
import RiskFlow.Service.CacheKey
import RiskFlow.Service.FailedParse
import RiskFlow.Service.MappedColumns
import RiskFlow.Service.RenamedColumns
import RiskFlow.Service.MergedMapping
import RiskFlow.Service.Isolation
import RiskFlow.Service.SharedCache
import RiskFlow.Service.CorrectionTargets
import RiskFlow.Service.CachedMapping
import RiskFlow.Service.History
import RiskFlow.Service.MappingService
import RiskFlow.Adapters.Caches
import RiskFlow.Domain.Correction
import RiskFlow.Http.Jobs
import RiskFlow.Adapters.JobStore
import RiskFlow.Domain.Job
import RiskFlow.Python.Json
import RiskFlow.Service.DateMeaning
import RiskFlow.Service.RowReport
import RiskFlow.Service.RowPartition
import RiskFlow.Domain.OptionalNull
import RiskFlow.Domain.AcceptedRecords
import RiskFlow.Domain.Fingerprint
import RiskFlow.Domain.RecordErrors
import RiskFlow.Service.RowValidation
import RiskFlow.Domain.DateOrdering
import RiskFlow.Domain.RecordModel
import RiskFlow.Domain.RecordFactory
import RiskFlow.Domain.DateFormat
import RiskFlow.Domain.TargetSchema
import RiskFlow.Domain.Schema
import RiskFlow.Python.Value
import RiskFlow.Lib.Extension
import RiskFlow.Lib.Leases
import RiskFlow.Lib.Numbering
import RiskFlow.Lib.Separated
import RiskFlow.Lib.Renaming
import RiskFlow.Lib.Dict
import RiskFlow.Lib.Json
import RiskFlow.Lib.JsonText
