import Netbird.Account.Allocation
import Netbird.Account.LoginFilter
import Netbird.Client.AclHistory
import Netbird.Client.BestRoute
import Netbird.Client.DomainRefs
import Netbird.Client.Health
import Netbird.Client.LazyConn
import Netbird.Client.RefRestore
import Netbird.Client.RouteManager
import Netbird.Client.Selection
import Netbird.Client.TunnelKeys
import Netbird.Dns.Batch
import Netbird.Dns.History
import Netbird.Dns.Locks
import Netbird.Firewall.LocalIP
import Netbird.Firewall.Nested
import Netbird.Firewall.Pooled
import Netbird.Firewall.Reversal
import Netbird.Firewall.RouteHistory
import Netbird.Firewall.Solicited
import Netbird.Machine.Audit
import Netbird.Machine.Labels
import Netbird.Mtls.Interceptor
import Netbird.Mtls.Oid
import Netbird.NetworkMap.Approval
import Netbird.NetworkMap.DnsAgreement
import Netbird.NetworkMap.Duality
import Netbird.NetworkMap.MachineRoutes
import Netbird.NetworkMap.PolicyOrder
import Netbird.Proxy.Drain
import Netbird.Proxy.Follows
import Netbird.Proxy.OneTime
import Netbird.Proxy.Protected
import Netbird.Proxy.Reconnect
import Netbird.Proxy.Registry
import Netbird.Proxy.TrustedProxy
import Netbird.Relay.Batches
import Netbird.Signal.Linearized
import Netbird.Sync.Debouncer
import Netbird.Sync.Status
