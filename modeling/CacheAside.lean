import CacheAside.Site
import CacheAside.Clock
import CacheAside.Metrics.Recording
import CacheAside.Pool
import CacheAside.Journal.Line
import CacheAside.Proofs.Number.Packing
import CacheAside.Proofs.Number.Rounding
import CacheAside.Proofs.Number.Nearest
import CacheAside.Proofs.Number.Decimal
import CacheAside.Proofs.Json.Numeral
import CacheAside.Proofs.Json.Strings
import CacheAside.Proofs.Json.RoundTrip
import CacheAside.Proofs.Run.Trace
import CacheAside.Proofs.Store.Sending
import CacheAside.Proofs.Cache.Effect
import CacheAside.Proofs.Run.Record
import CacheAside.Proofs.Cache.Outcome
import CacheAside.Proofs.Cache.Refinement
import CacheAside.Proofs.Cache.Containment
import CacheAside.Proofs.Run.Policy
import CacheAside.Proofs.Invalidation.Announcing
import CacheAside.Proofs.Cache.Guarded
import CacheAside.Proofs.Cache.Standing
import CacheAside.Proofs.Invalidation.Sweeping
import CacheAside.Proofs.Invalidation.Clearing
import CacheAside.Proofs.Resource.Shown
import CacheAside.Proofs.Resource.Traffic
import CacheAside.Proofs.Cache.Counting
import CacheAside.Proofs.Run.Schedule
import CacheAside.Proofs.Run.Conduct
import CacheAside.Proofs.Cache.Shared
import CacheAside.Proofs.Invalidation.Interleaving
import CacheAside.Proofs.Cache.Racing
import CacheAside.Proofs.Invalidation.Overlap
import CacheAside.Proofs.Invalidation.Dropping
import CacheAside.Proofs.Site.Requests
import CacheAside.Proofs.Site.Lifetimes
import CacheAside.Proofs.Resource.Delivered
import CacheAside.Proofs.Site.Answering
import CacheAside.Proofs.Resource.Aside
import CacheAside.Proofs.Site.Ledger
import CacheAside.Proofs.Site.Accounting
import CacheAside.Proofs.Site.Reporting
import CacheAside.Proofs.Site.Outage
import CacheAside.Proofs.Cache.Retrieval
import CacheAside.Proofs.Registry.Governing
import CacheAside.Proofs.Cache.Lasting
import CacheAside.Proofs.Cache.Serving
import CacheAside.Proofs.Cache.Calling
import CacheAside.Proofs.Invalidation.Mentioning
import CacheAside.Proofs.Registry.Agreeing
import CacheAside.Proofs.Resource.Admission
import CacheAside.Proofs.Invalidation.Roster
import CacheAside.Proofs.Invalidation.Dispatch
import CacheAside.Proofs.Store.Passage
import CacheAside.Proofs.Store.Faults
import CacheAside.Proofs.Store.Lifecycle
import CacheAside.Proofs.Invalidation.Isolation
import CacheAside.Proofs.Cache.Buckets
import CacheAside.Proofs.Key.Numbers
import CacheAside.Proofs.Settings.Precedence
