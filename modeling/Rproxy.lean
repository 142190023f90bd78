import Rproxy.Balance.Counted
import Rproxy.Balance.Ejected
import Rproxy.Balance.Offered
import Rproxy.Dpdk.Consistent
import Rproxy.Dpdk.Rewrite
import Rproxy.Global.Guarded
import Rproxy.Global.InUse
import Rproxy.L4.Buffers
import Rproxy.L4.StartTls
import Rproxy.L7.Breaker
import Rproxy.L7.Cache.Leading
import Rproxy.L7.Cache.Private
import Rproxy.L7.ClientIp
import Rproxy.L7.Cors
import Rproxy.L7.Crowdsec
import Rproxy.L7.HostRoutes
import Rproxy.L7.InFlight
import Rproxy.L7.MatcherParse
import Rproxy.L7.RouteCounts
import Rproxy.L7.Shares
import Rproxy.L7.Spelling
import Rproxy.Limits.Budget
import Rproxy.Limits.Permits
import Rproxy.Limits.Sources
import Rproxy.Limits.Throttle
import Rproxy.Net.ProxyStream
import Rproxy.Net.TlsTlvs
import Rproxy.Registry.Owners
import Rproxy.Registry.Prediction
import Rproxy.Registry.PutLimits
import Rproxy.Registry.Stopping
import Rproxy.Rule.Diff
import Rproxy.Rule.Ports
import Rproxy.Rule.Ranges
import Rproxy.Tls.Hello
import Rproxy.Udp.Fairness
import Rproxy.Udp.Inbox
import Rproxy.Upgrade.Blake2b
