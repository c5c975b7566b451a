import Debswarm.Audit.Recovery
import Debswarm.Cache.Accounting
import Debswarm.Cache.Filenames
import Debswarm.Cache.ReaderCounts
import Debswarm.Cache.Restoring
import Debswarm.Cache.Session
import Debswarm.Cache.Tallies
import Debswarm.Coordinator.Providers
import Debswarm.Coordinator.Replies
import Debswarm.Coordinator.Waiters
import Debswarm.Downloader.Completeness
import Debswarm.Downloader.Resume
import Debswarm.Downloader.Sweeping
import Debswarm.Fleet.Agreement
import Debswarm.Fleet.Exclusion
import Debswarm.Fleet.Stream
import Debswarm.Metadata.Accounting
import Debswarm.Metadata.Healing
import Debswarm.Metadata.Writers
import Debswarm.PackageIndex.Addressing
import Debswarm.PackageIndex.Backing
import Debswarm.PackageIndex.Limit
import Debswarm.Packages.Digests
import Debswarm.Peers.Selection
import Debswarm.Proxy.Bases
import Debswarm.Proxy.Freshness
import Debswarm.Proxy.Likeness
import Debswarm.Proxy.Revalidation
import Debswarm.Proxy.Served
import Debswarm.Ratelimit.PeerLimiter
import Debswarm.Scheduler.Window
import Debswarm.Security.Hosts
import Debswarm.Seed.Completeness
import Debswarm.Traffic.Cancellation
import Debswarm.Traffic.Retries
import Debswarm.Transfer.Containment
import Debswarm.Transfer.Ranges
