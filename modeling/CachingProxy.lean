import CachingProxy.Loopback.Home
import CachingProxy.Main
import CachingProxy.Proofs.Session.Turns
import CachingProxy.Proofs.Session.Moves
import CachingProxy.Proofs.Session.Lifecycle
import CachingProxy.Proofs.Session.Progress
import CachingProxy.Proofs.Session.ClientProtocol
import CachingProxy.Proofs.Session.OriginProtocol
import CachingProxy.Proofs.Session.Assembly
import CachingProxy.Proofs.Session.Storing
import CachingProxy.Proofs.Session.Requests
import CachingProxy.Proofs.Session.Forwarding
import CachingProxy.Proofs.Session.Holders
import CachingProxy.Proofs.Session.Pausing
import CachingProxy.Proofs.Session.Silence
import CachingProxy.Proofs.Session.Phases
import CachingProxy.Proofs.Domain.Canonical
import CachingProxy.Proofs.Domain.Hosts
import CachingProxy.Proofs.Session.Stripping
import CachingProxy.Proofs.Routing.Forwarded
import CachingProxy.Proofs.Cache.Entries
import CachingProxy.Proofs.Cache.FirstOffer
import CachingProxy.Proofs.Cache.Touches
import CachingProxy.Proofs.Cache.Accesses
import CachingProxy.Proofs.Cache.Recent
import CachingProxy.Proofs.Cache.Residence
import CachingProxy.Proofs.Session.Independence
import CachingProxy.Proofs.Sharing.World
import CachingProxy.Proofs.Sharing.FirstWriter
import CachingProxy.Proofs.Sharing.Callers
import CachingProxy.Proofs.Exchange.Streams
import CachingProxy.Proofs.Exchange.Pipe
import CachingProxy.Proofs.Exchange.Moves
import CachingProxy.Proofs.Exchange.Trace
import CachingProxy.Proofs.Exchange.Upload
import CachingProxy.Proofs.Exchange.Delivery
import CachingProxy.Proofs.Exchange.Download
import CachingProxy.Proofs.Exchange.Listening
import CachingProxy.Proofs.Exchange.Schedule
import CachingProxy.Proofs.Exchange.Directions
import CachingProxy.Proofs.Exchange.Pacing
import CachingProxy.Proofs.Exchange.Order
import CachingProxy.Proofs.Cache.Names
import CachingProxy.Proofs.Histories
import CachingProxy.Proofs.Sharing.Separation
import CachingProxy.Proofs.Text.Splitting
import CachingProxy.Proofs.Disk.Names
import CachingProxy.Proofs.Disk.Trees
import CachingProxy.Proofs.Disk.Writing
import CachingProxy.Proofs.Disk.Crashes
import CachingProxy.Proofs.Disk.Desk
import CachingProxy.Proofs.Disk.Office
import CachingProxy.Proofs.Disk.Conservation
import CachingProxy.Proofs.Sharing.Persistence
import CachingProxy.Proofs.Exchange.Reports
import CachingProxy.Proofs.Sharing.Heads
import CachingProxy.Proofs.Routing.Agreement
import CachingProxy.Proofs.Text.Encoding
import CachingProxy.Proofs.Text.Digits
import CachingProxy.Proofs.Json.Grammar
import CachingProxy.Proofs.Json.Texts
import CachingProxy.Proofs.Json.Tokens
import CachingProxy.Proofs.Json.Skipping
import CachingProxy.Proofs.Json.Numbers
import CachingProxy.Proofs.Json.Numerals
import CachingProxy.Proofs.Json.Printing
import CachingProxy.Proofs.Json.Values
import CachingProxy.Proofs.Json.Parsing
import CachingProxy.Proofs.Json.Records
import CachingProxy.Proofs.Net.Addresses
import CachingProxy.Proofs.Config.Documents
import CachingProxy.Proofs.Cache.Lookups
import CachingProxy.Proofs.Session.Replaying
import CachingProxy.Proofs.Http.Targets
import CachingProxy.Proofs.Http.Authorities
import CachingProxy.Proofs.Exchange.Contact
import CachingProxy.Proofs.Routing.Redirects
import CachingProxy.Proofs.Routing.OwnNames
import CachingProxy.Proofs.Worker.HeadTags
import CachingProxy.Proofs.Sharing.Observers
import CachingProxy.Proofs.Domain.Forms
import CachingProxy.Proofs.Domain.Endpoints
import CachingProxy.Proofs.Routing.WorkerRoutes
import CachingProxy.Proofs.Worker.Registration
import CachingProxy.Proofs.Peers.Gateways
import CachingProxy.Proofs.Peers.Updates
