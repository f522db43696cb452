import OmpBundler.Core.OutboundGrammar
import OmpBundler.Core.PoolLeases
import OmpBundler.Core.PoolStranding
import OmpBundler.Core.PoolOwnership
import OmpBundler.Core.PoolCapacity
import OmpBundler.Core.GroupAccounting
import OmpBundler.Core.RegistryCalls
import OmpBundler.Core.PoolSuccession
import OmpBundler.Core.InboundSchema
import OmpBundler.Core.IngestSettling
import OmpBundler.Core.IdempotencyLaws
import OmpBundler.Core.RpcSends
import OmpBundler.Core.ChunkSoundness
import OmpBundler.Core.CronIsolation
import OmpBundler.Core.CronDue
import OmpBundler.Core.CronNext
import OmpBundler.Core.ReplyUsage
import OmpBundler.Pumble.Delivery
import OmpBundler.Cli.Restoration
import OmpBundler.Cli.ScheduleCheck
import OmpBundler.Core.SessionParents
import OmpBundler.Core.SessionOwnership
import OmpBundler.Core.SessionCalls
import OmpBundler.Cli.EventStream
import OmpBundler.Pumble.StoreWrites
import OmpBundler.Pumble.SettingsStore
import OmpBundler.HttpAdapter.EarlyEvents
import OmpBundler.HttpAdapter.Conversations
import OmpBundler.Core.InboundAcceptance
import OmpBundler.Build.RenderModels
import OmpBundler.Cli.PumbleBlock
import OmpBundler.Core.StorageKeys
import OmpBundler.Core.RpcLines
import OmpBundler.Core.SupervisorOrder
import OmpBundler.Core.SupervisorEmitters
import OmpBundler.Pumble.RequestPacing
import OmpBundler.Pumble.OAuthStates
import OmpBundler.Core.AmbientExtension
import OmpBundler.Pumble.DownloadLinks
import OmpBundler.Cli.YamlRoundTrip
import OmpBundler.Cli.ModelAdditions
import OmpBundler.Cli.RunDocker
