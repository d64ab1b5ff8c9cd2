import Ollm.Library.Text
import Ollm.Library.Json
import Ollm.Library.RwLock
import Ollm.Library.Directory
import Ollm.Library.Greedy
import Ollm.Library.Channel
import Ollm.Library.Loop
import Ollm.Library.Runs
import Ollm.Library.Trace
import Ollm.Library.Transition
import Ollm.Library.Guards
import Ollm.Library.Leases
import Ollm.Keying.Names
import Ollm.Keying.Session
import Ollm.Keying.Signature
import Ollm.Keying.Safety
import Ollm.Keying.Sanitize
import Ollm.Quota.Plan
import Ollm.Quota.Order
import Ollm.Quota.Convergence
import Ollm.Quota.Recency
import Ollm.Quota.Minimality
import Ollm.Quota.Listing
import Ollm.Quota.Pairs
import Ollm.Quota.Limit
import Ollm.Quota.Accounting
import Ollm.Quota.Passes
import Ollm.Quota.Health
import Ollm.Proxy.Registry
import Ollm.Proxy.Isolation
import Ollm.Proxy.Forward
import Ollm.Proxy.Chat
import Ollm.Proxy.Steps
import Ollm.Proxy.Steering
import Ollm.Proxy.Admission
import Ollm.Proxy.Pump
import Ollm.Proxy.Delivery
import Ollm.Proxy.Bodies
import Ollm.Proxy.Exclusivity
import Ollm.Proxy.Victims
import Ollm.Proxy.Ownership
import Ollm.Proxy.PendingTurns
import Ollm.Proxy.Serial
import Ollm.Proxy.Provenance
import Ollm.Proxy.Resume
import Ollm.Proxy.Restart
import Ollm.Proxy.Concert
import Ollm.Proxy.SideBySide
import Ollm.Proxy.Offers
import Ollm.Proxy.Backends
import Ollm.Proxy.Gate
import Ollm.Proxy.Handlers
import Ollm.Proxy.Disk
import Ollm.Proxy.Scratch
import Ollm.Proxy.Outages
import Ollm.Store.Calls
import Ollm.Store.Steps
import Ollm.Store.Blobs
import Ollm.Store.Publication
import Ollm.Store.Sidecars
import Ollm.Store.Grace
import Ollm.Store.Frames
import Ollm.Store.Save
import Ollm.Store.Service
import Ollm.Seed.Family
import Ollm.Seed.Dance
import Ollm.Seed.Steps
import Ollm.Seed.Protocol
import Ollm.Seed.Bag
import Ollm.Seed.Files
import Ollm.Seed.SecondSight
import Ollm.Seed.Integrity
import Ollm.Seed.Recovery
import Ollm.Seed.Prepare
import Ollm.Seed.Outcome
import Ollm.Seed.Position
import Ollm.Llama.Wire
import Ollm.Llama.Served
