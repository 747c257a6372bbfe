import Shahkar.Billing.FreeEdits
import Shahkar.Billing.OnceOnly
import Shahkar.Billing.Overdraft
import Shahkar.Billing.PaidTime
import Shahkar.Billing.StrictestLocks
import Shahkar.Billing.Watermark
import Shahkar.BillingGuard
import Shahkar.Db.UserFields
import Shahkar.DedicatedIp
import Shahkar.FamilyGuard.BlockTargets
import Shahkar.FamilyGuard.Enforcement
import Shahkar.FamilyGuard.WeekWindows
import Shahkar.Ha
import Shahkar.Lifecycle.Grants
import Shahkar.Lifecycle.OnHold
import Shahkar.Lifecycle.Suspension
import Shahkar.LoginLimit
import Shahkar.Migration.Isolation
import Shahkar.Migration.MergedCopies
import Shahkar.Migration.MergedInbounds
import Shahkar.Node.PortShaping
import Shahkar.Services.BulkExtend
import Shahkar.Services.DataLimit
import Shahkar.Services.XrayNode
import Shahkar.Singbox.Attribution
import Shahkar.Singbox.Listeners
import Shahkar.Singbox.Usage
import Shahkar.Subscription.AliasOwners
import Shahkar.Subscription.EndpointOwner
import Shahkar.Subscription.HostRows
import Shahkar.Subscription.QuicLinks
import Shahkar.Subscription.Share
import Shahkar.Sync.Convergence
import Shahkar.Sync.Progress
import Shahkar.Tenant.SubReseller
import Shahkar.Usage.Conservation
import Shahkar.Usage.FinalmaskFlush
import Shahkar.Usage.Hourly
import Shahkar.Usage.Interleaving
import Shahkar.Usage.WireGuard
import Shahkar.Utils.AdminSessions
import Shahkar.Utils.DeviceLimit
import Shahkar.WireGuard.Capacity
import Shahkar.WireGuard.Convergence
import Shahkar.WireGuard.DrainOrder
import Shahkar.WireGuard.FinalmaskShard
import Shahkar.WireGuard.Fingerprints
import Shahkar.WireGuard.Refill
import Shahkar.WireGuard.Slots
import Shahkar.Xray.Builders
import Shahkar.Xray.CoreTimer
import Shahkar.Xray.Metering
import Shahkar.Xray.NodeApi
import Shahkar.Xray.Reconcile
import Shahkar.Xray.TunnelInject
