import LfsCloud.Lib.Interaction
import LfsCloud.Lib.JsonText
import LfsCloud.Lib.Lines
import LfsCloud.Lib.Reader
import LfsCloud.Lib.Table
import LfsCloud.Lib.Text
import LfsCloud.Lib.Transition
import LfsCloud.Lib.U64
import LfsCloud.Lfs
import LfsCloud.Providers
import LfsCloud.Metadata.Objects
import LfsCloud.Migration.Checkpoint
import LfsCloud.Migration.CheckpointCrash
import LfsCloud.Server.Transfer
import LfsCloud.Server.ServerState
import LfsCloud.Server.Staging
import LfsCloud.Server.StagingBudget
import LfsCloud.Server.TransferRules
import LfsCloud.Server.UploadOnce
import LfsCloud.Migration.CheckpointText
import LfsCloud.Server.MetadataRepair
import LfsCloud.GoogleDrive.UploadSession
import LfsCloud.Server.BlockingPool
import LfsCloud.Server.UploadDeadlock
import LfsCloud.Sessions.Admission
import LfsCloud.Server.AuthorizationGrants
import LfsCloud.Server.AuthorizationLeak
import LfsCloud.Server.TransferOutcomes
import LfsCloud.LocalCache.GarbageExact
import LfsCloud.GoogleDrive.Query
import LfsCloud.GoogleDrive.NamespaceIsolation
import LfsCloud.GoogleDrive.StoredIdLookup
import LfsCloud.GoogleDrive.Download
import LfsCloud.PointerRoundTrip
import LfsCloud.Server.BatchResponses
import LfsCloud.Server.RoutingRules
import LfsCloud.Server.ActionUrls
import LfsCloud.Sessions.ManagedKeySafety
import LfsCloud.LocalCache.RoundTrip
import LfsCloud.LocalCache.RegistryRules
import LfsCloud.LocalCache.RegistrySafety
import LfsCloud.Lib.SharedLogic
import LfsCloud.LocalCache.DisplacedEdits
import LfsCloud.Lib.Unordered
import LfsCloud.Migration.Upload
import LfsCloud.GoogleDrive.AccessTokenCache
import LfsCloud.Lib.Yaml
import LfsCloud.ServerConfig.ConfigEditSafety
import LfsCloud.Lib.Redact
import LfsCloud.Lib.TextCut
import LfsCloud.RedactionSafety
import LfsCloud.GoogleDrive.LookupDeterminism
import LfsCloud.Migration.SourceEndpoint
import LfsCloud.ChildProcessRuns
import LfsCloud.InitRouteInverse
import LfsCloud.Migration.GitTree
import LfsCloud.GitOutput
import LfsCloud.LocalCache.RegistryPath
import LfsCloud.LocalCache.SharedCacheRuns
import LfsCloud.Lib.Transaction
import LfsCloud.ServerConfig.References
import LfsCloud.Metadata.ConfigSync
import LfsCloud.Metadata.ConfigSyncRules
import LfsCloud.Metadata.ConfigSyncRuns
import LfsCloud.Migration.UploadOutcomes
import LfsCloud.Lib.Recorded
import LfsCloud.Migration.ServerTarget
import LfsCloud.Migration.ServerTargetRuns
import LfsCloud.Lib.Sql
import LfsCloud.Lib.SqlSound
import LfsCloud.Lib.SqlKnowledge
import LfsCloud.Metadata.Migrations
import LfsCloud.Metadata.MigrationsRuns
import LfsCloud.Lib.Memo
import LfsCloud.Migration.History
import LfsCloud.Migration.HistoryWalk
import LfsCloud.Migration.HistoryRuns
import LfsCloud.Migration.BatchObjectReader
import LfsCloud.Migration.TrackedPatterns
import LfsCloud.Migration.HistoryOccurrences
import LfsCloud.ServerConfig.EnvironmentReferences
import LfsCloud.GoogleDrive.RootFolder
import LfsCloud.Migration.CheckoutScan
