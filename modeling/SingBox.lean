import SingBox.Convertor.Adguard
import SingBox.Dns.CacheKey
import SingBox.Dns.FakeIpPool
import SingBox.Dns.Legacy
import SingBox.Dns.Pairing
import SingBox.Dns.PoolRuns
import SingBox.Dns.SaveOrder
import SingBox.Dns.Sequential
import SingBox.Dns.Subnet
import SingBox.Dns.Transparent
import SingBox.Group.Failover
import SingBox.Group.Stability
import SingBox.Group.UrlTest
import SingBox.Manager.Outbound
import SingBox.Manager.Transport
import SingBox.Panel.Ledger
import SingBox.Panel.Mapping
import SingBox.Panel.Overlap
import SingBox.Panel.Recorded
import SingBox.Panel.Store
import SingBox.Panel.Trial
import SingBox.Route.AddressLimit
import SingBox.Route.Closing
import SingBox.Route.Etag
import SingBox.Route.Sniff
import SingBox.Shuttle.Associations
import SingBox.Shuttle.Delivery
import SingBox.Shuttle.Lossless
import SingBox.Shuttle.Pool
import SingBox.Shuttle.Readers
import SingBox.Shuttle.Replay
import SingBox.Shuttle.Reuse
import SingBox.Srs.RoundTrip
import SingBox.Stats.Counter
import SingBox.Stats.Refinement
import SingBox.Dns.Dhcp
import SingBox.Dns.FakeIpMetadata
import SingBox.Websocket.Client
import SingBox.Firefox.Sessions
import SingBox.Realm.Pending
import SingBox.Dialer.Parallel
import SingBox.Ssm.Users
