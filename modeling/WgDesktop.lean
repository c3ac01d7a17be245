import WgDesktop.Linux.WireguardUtils
import WgDesktop.Linux.CgroupChains
import WgDesktop.Linux.Dhcp
import WgDesktop.Linux.ConnectedReports
import WgDesktop.Linux.Handshake
import WgDesktop.Linux.DBusService
import WgDesktop.Linux.LinuxController
import WgDesktop.Linux.MainRoutes
import WgDesktop.Linux.DnsUtils
import WgDesktop.Linux.IPUtils
import WgDesktop.Linux.AppTracker
import WgDesktop.Linux.AppList
import WgDesktop.Client.Disconnect
import WgDesktop.Client.Hops
import WgDesktop.Client.NextStep
import WgDesktop.Client.Navigator
import WgDesktop.Client.Off
import WgDesktop.Client.Principal
import WgDesktop.Client.Retries
import WgDesktop.Client.LocalSocketController
import WgDesktop.Client.WeightedChoice
import WgDesktop.Client.PortChoice
import WgDesktop.Client.RecentConnections
import WgDesktop.Client.DeviceModel
import WgDesktop.Client.ServerLatency
import WgDesktop.Client.ServerNames
import WgDesktop.Client.RecommendedLocations
import WgDesktop.Client.ConnectionHealth
import WgDesktop.Client.CaptivePortal
import WgDesktop.Client.MessageDates
import WgDesktop.WebExt.Bridge
import WgDesktop.WebExt.Handler
import WgDesktop.Settings.Groups
import WgDesktop.Settings.Hkdf
import WgDesktop.Settings.Nonces
import WgDesktop.Settings.Reads
import WgDesktop.Signature.Update
import WgDesktop.Socks5.Segments
import WgDesktop.Socks5.Transparency
import WgDesktop.Socks5.Masque
import WgDesktop.Socks5.Clients
import WgDesktop.Socks5.Relay
import WgDesktop.Logs.Collection
import WgDesktop.Logs.Rotation
import WgDesktop.Net.Exclude
import WgDesktop.Net.Masks
import WgDesktop.Profile.Peers
import WgDesktop.Profile.ProfileModel
import WgDesktop.Profile.Caller
import WgDesktop.Profile.Layout
import WgDesktop.Daemon.Config
import WgDesktop.Daemon.Failures
import WgDesktop.Daemon.Handshakes
import WgDesktop.Daemon.Interface
import WgDesktop.Daemon.Status
import WgDesktop.Daemon.Validation
import WgDesktop.Linux.Import
import WgDesktop.Linux.PingSender
import WgDesktop.Linux.RouteMessages
import WgDesktop.Linux.DnsResolver
import WgDesktop.Linux.SystemdEscape
import WgDesktop.Tasks.TaskScheduler
import WgDesktop.Tasks.TaskGroup
import WgDesktop.Lib.Verdicts
import WgDesktop.Lib.Batches
import WgDesktop.Linux.Mnl
import WgDesktop.Linux.Wireguard
import WgDesktop.Linux.WireguardUapi
import WgDesktop.Linux.WireguardGet
import WgDesktop.Linux.WireguardKeys
import WgDesktop.Windows.Firewall
import WgDesktop.Windows.FirewallVerdicts
import WgDesktop.Linux.LinkEvents
import WgDesktop.Lib.Forwarding
import WgDesktop.Windows.RouteMonitor
import WgDesktop.Windows.CapturedRoutes
import WgDesktop.Windows.ExclusionRoutes
import WgDesktop.Windows.RouteRuns
import WgDesktop.Windows.RouteTargets
import WgDesktop.Lib.TextTable
import WgDesktop.Windows.SplitTunnel
