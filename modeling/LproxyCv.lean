import LproxyCv.Foundation.Run
import LproxyCv.Foundation.Once
import LproxyCv.Foundation.Lifecycle
import LproxyCv.Foundation.Keeper
import LproxyCv.Foundation.Reader
import LproxyCv.Foundation.Endless
import LproxyCv.Foundation.Interleave
import LproxyCv.Foundation.Writer
import LproxyCv.Foundation.DelayQueue
import LproxyCv.Foundation.Generations
import LproxyCv.Foundation.Descriptors
import LproxyCv.Foundation.Desk
import LproxyCv.Foundation.Conversation
import LproxyCv.Foundation.Credit
import LproxyCv.Foundation.Wire
import LproxyCv.Foundation.Tables
import LproxyCv.Foundation.Traversal
import LproxyCv.Foundation.Spawned
import LproxyCv.Foundation.Sorting
import LproxyCv.Foundation.RoundRobin
import LproxyCv.Foundation.Attributes
import LproxyCv.Foundation.Offsets
import LproxyCv.Foundation.Decimal
import LproxyCv.Foundation.Json
import LproxyCv.Foundation.Ring
import LproxyCv.Foundation.BytesMut
import LproxyCv.Lws.Msg
import LproxyCv.Lws.Sink
import LproxyCv.Lws.LwsFramed
import LproxyCv.Lws.FrameStream
import LproxyCv.Lws.Memory
import LproxyCv.Lws.CHandshake
import LproxyCv.Lws.Oversized
import LproxyCv.Lws.Delivery
import LproxyCv.Lws.TcpFramed
import LproxyCv.Net
import LproxyCv.Tunnels.THeader
import LproxyCv.Tunnels.Reqq
import LproxyCv.Tunnels.Handles
import LproxyCv.Tunnels.Tunnel
import LproxyCv.Tunnels.Envelopes
import LproxyCv.Tunnels.ReqServ
import LproxyCv.Tunnels.Ledger
import LproxyCv.Tunnels.Echo
import LproxyCv.Tunnels.TunMgr
import LproxyCv.Tunnels.TunTasks
import LproxyCv.Tunnels.TunSteps
import LproxyCv.Tunnels.Stubs
import LproxyCv.Tunnels.Quota
import LproxyCv.Tunnels.Order
import LproxyCv.Tunnels.Rotation
import LproxyCv.Tunnels.Capacity
import LproxyCv.Tunnels.Requests
import LproxyCv.Tunnels.Conversations
import LproxyCv.Tunnels.Flow
import LproxyCv.Dns.Text
import LproxyCv.Dns.Utf8
import LproxyCv.Dns.DnsPacket
import LproxyCv.Dns.Layout
import LproxyCv.Dns.Names
import LproxyCv.Dns.EndlessNames
import LproxyCv.Dns.DnsWriter
import LproxyCv.Dns.DomainMap
import LproxyCv.Dns.Letters
import LproxyCv.Dns.Ranges
import LproxyCv.Dns.WrittenNumbers
import LproxyCv.Dns.WrittenNames
import LproxyCv.Dns.RoundTrip
import LproxyCv.Dns.Skipped
import LproxyCv.Dns.Query
import LproxyCv.Dns.Lengths
import LproxyCv.Dns.Wire
import LproxyCv.Dns.DnsTunnel
import LproxyCv.Dns.DnsFrames
import LproxyCv.Dns.Forwarder
import LproxyCv.Dns.Resolver
import LproxyCv.Dns.Routing
import LproxyCv.Dns.Long
import LproxyCv.Dns.Netlink
import LproxyCv.Dns.Cidr
import LproxyCv.Dns.MyDns
import LproxyCv.Dns.CaseBlind
import LproxyCv.Dns.Replies
import LproxyCv.Dns.Answers
import LproxyCv.Dns.Rebuild
import LproxyCv.Dns.FwdTasks
import LproxyCv.Htp.Http
import LproxyCv.Versions
import LproxyCv.Upgrades
import LproxyCv.Upkeep
import LproxyCv.Keepalive
import LproxyCv.Udpx.Cache
import LproxyCv.Udpx.UdpxWorld
import LproxyCv.Udpx.Ownership
import LproxyCv.Udpx.Spread
import LproxyCv.Udpx.UdpSock
import LproxyCv.Config
import LproxyCv.JsonRequests
import LproxyCv.Services.AccLog
import LproxyCv.Services.AccReport
import LproxyCv.Services.ReportBytes
import LproxyCv.Services.Service
import LproxyCv.Services.ServiceWorld
import LproxyCv.Services.HeldSet
import LproxyCv.Services.Startup
import LproxyCv.Services.ServerAddress
import LproxyCv.Services.Progress
import LproxyCv.Services.System
import LproxyCv.Services.Host
import LproxyCv.Services.Divert
import LproxyCv.Services.Leftovers
import LproxyCv.Services.Members
import LproxyCv.Services.Gateway
import LproxyCv.Xport.XRequest
import LproxyCv.Xport.XTunnel
import LproxyCv.Xport.XWorld
import LproxyCv.Xport.XTable
import LproxyCv.Xport.XAccounts
import LproxyCv.Xport.XBooks
import LproxyCv.Streams
import LproxyCv.Decoding
