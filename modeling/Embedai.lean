import Embedai.AnnotationExport
import Embedai.BlobUrls
import Embedai.ChunkCount
import Embedai.CompleteOnce
import Embedai.CompleteRecovery
import Embedai.ConnectionBound
import Embedai.DatasetDeletion
import Embedai.DatasetIsolation
import Embedai.EpisodePages
import Embedai.ExportCrash
import Embedai.ExportFormats
import Embedai.ExportManifest
import Embedai.ExportPage
import Embedai.ExportTerminal
import Embedai.FrameEpisodes
import Embedai.FrameRequests
import Embedai.GatewayIsolation
import Embedai.LastSeek
import Embedai.LimiterRuns
import Embedai.McapCacheBounds
import Embedai.McapCacheLru
import Embedai.McapCacheOnce
import Embedai.Migrations
import Embedai.PreviewLoads
import Embedai.PreviewPlayback
import Embedai.QualityRange
import Embedai.QualityRemoval
import Embedai.Reprocessing
import Embedai.SealFailures
import Embedai.ServedFrames
import Embedai.ShardPartition
import Embedai.StreamAcks
import Embedai.StreamObject
import Embedai.TaskApproval
import Embedai.TasksPage
import Embedai.TempFiles
import Embedai.TopicCounts
import Embedai.UndecodableFrames
import Embedai.VersionClips
import Embedai.WebhookConcurrency
import Embedai.WebhookMap
