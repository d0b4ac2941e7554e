import DragonflySdk.Foundation.Text
import DragonflySdk.Foundation.StableSort
import DragonflySdk.Foundation.Percent
import DragonflySdk.Foundation.Regex
import DragonflySdk.Digest.Query
import DragonflySdk.Errors
import DragonflySdk.Url
import DragonflySdk.IdGenerator
import DragonflySdk.Url.Query
import DragonflySdk.Url.Scheduler
import DragonflySdk.Oci
import DragonflySdk.Request
import DragonflySdk.Proxy.TaskId
import DragonflySdk.Proxy.PreheatImage
import DragonflySdk.Foundation.RingWalk
import DragonflySdk.HashRing
import DragonflySdk.Net
import DragonflySdk.Selector
import DragonflySdk.Foundation.SplitUpdate
import DragonflySdk.Selector.Go
import DragonflySdk.Selector.Update
import DragonflySdk.Selector.Select
import DragonflySdk.Foundation.Retry
import DragonflySdk.Retry
import DragonflySdk.Proxy
import DragonflySdk.Proxy.Preheat
import DragonflySdk.Foundation.FailureStreak
import DragonflySdk.Foundation.Linearization
import DragonflySdk.Proxy.ValidRequest
import DragonflySdk.Selector.Ejection
import DragonflySdk.Selector.EjectionSteps
import DragonflySdk.Foundation.Clockwise
import DragonflySdk.Selector.Movement
import DragonflySdk.Errors.Go
import DragonflySdk.Foundation.SingleFlight
import DragonflySdk.Retry.Go
import DragonflySdk.Proxy.SeedPeers
import DragonflySdk.Proxy.Lookup
import DragonflySdk.Proxy.Replicas
import DragonflySdk.Proxy.Download
import DragonflySdk.Proxy.GetInto
import DragonflySdk.Response.Go
import DragonflySdk.Response.Retry
import DragonflySdk.Url.Frame
import DragonflySdk.Proxy.DigestId
import DragonflySdk.Errors.Wrapped
import DragonflySdk.Retry.Context
import DragonflySdk.Proxy.StatusRetry
import DragonflySdk.Proxy.Reserve
import DragonflySdk.Foundation.LastWrite
import DragonflySdk.Selector.Listing
import DragonflySdk.Selector.Refresh
import DragonflySdk.Proxy.Identity
import DragonflySdk.Net.ReadBack
import DragonflySdk.Proxy.Individual
import DragonflySdk.Foundation.InUse
import DragonflySdk.Proxy.Pool
import DragonflySdk.Foundation.Trace
import DragonflySdk.Foundation.OrInsert
import DragonflySdk.Foundation.IdleCache
import DragonflySdk.Foundation.Retain
import DragonflySdk.Pool
import DragonflySdk.Pool.Go
import DragonflySdk.Pool.Reuse
import DragonflySdk.Pool.Shared
import DragonflySdk.Pool.Capacity
import DragonflySdk.Foundation.TaskSet
import DragonflySdk.Proxy.Image
import DragonflySdk.Foundation.Release
import DragonflySdk.Retry.Cancel
import DragonflySdk.Proxy.Stream
import DragonflySdk.Foundation.ErrGroup
import DragonflySdk.Proxy.GoTasks
import DragonflySdk.Proxy.GoImage
import DragonflySdk.Foundation.Breaker
import DragonflySdk.Proxy.Ejecting
import DragonflySdk.Url.Canonical
import DragonflySdk.Foundation.Copy
import DragonflySdk.Proxy.GoGetInto
import DragonflySdk.Proxy.Endpoints
import DragonflySdk.Foundation.HotRefresh
import DragonflySdk.Foundation.Background
import DragonflySdk.Selector.HotRefresh
import DragonflySdk.Foundation.Holding
import DragonflySdk.Selector.Placement
import DragonflySdk.Proxy.Reclaim
