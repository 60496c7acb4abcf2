import WarpSocks.Wire.Varint
import WarpSocks.Wire.Record
import WarpSocks.Wire.Reader
import WarpSocks.Wire.Bits
import WarpSocks.Wire.PrefixCode
import WarpSocks.Io
import WarpSocks.Masque.Frame
import WarpSocks.Masque.Download
import WarpSocks.Masque.Huffman
import WarpSocks.Masque.HuffmanTable
import WarpSocks.Masque.HuffmanExact
import WarpSocks.Masque.HuffmanBounds
import WarpSocks.Masque.Capsule
import WarpSocks.Masque.CapsuleReceive
import WarpSocks.Masque.CapsuleCodec
import WarpSocks.Masque.CapsuleFraming
import WarpSocks.Netstack.Connect
import WarpSocks.Netstack.Eof
import WarpSocks.Masque.Qpack
import WarpSocks.Masque.QpackGrammar
import WarpSocks.Masque.QpackExact
import WarpSocks.Masque.QpackStatus
import WarpSocks.Masque.QpackWidth
import WarpSocks.Masque.QpackInteger
import WarpSocks.Masque.QpackRequest
import WarpSocks.Machine.Loop
import WarpSocks.Net
import WarpSocks.Socks5.Udp
import WarpSocks.Socks5.Isolation
import WarpSocks.Endpoint.State
import WarpSocks.Endpoint.Restart
import WarpSocks.Machine.Trace
import WarpSocks.Netstack.SocketTable
import WarpSocks.Netstack.Ports
import WarpSocks.Netstack.PortSearch
import WarpSocks.Host
import WarpSocks.Relay
import WarpSocks.Socks5.Session
import WarpSocks.Socks5.Replies
import WarpSocks.Socks5.Answers
import WarpSocks.Machine.Tasks
import WarpSocks.Masque.Reconnect
import WarpSocks.Socks5.Egress
import WarpSocks.Socks5.EgressBounds
import WarpSocks.Mixed.Accept
import WarpSocks.Mixed.Withdrawal
import WarpSocks.Netstack.Reactor
import WarpSocks.Netstack.ReactorQueues
import WarpSocks.Netstack.Wake
import WarpSocks.Sync.Bridge
import WarpSocks.Psiphon.Stream
import WarpSocks.Masque.Framed
import WarpSocks.Masque.FramedEnd
import WarpSocks.Psiphon.StreamEnd
import WarpSocks.Dns.Message
import WarpSocks.Wire.Name
import WarpSocks.Dns.Response
import WarpSocks.Dns.Query
import WarpSocks.Dns.Resolve
import WarpSocks.Table.History
import WarpSocks.Dns.Cache
import WarpSocks.Masque.DohCache
import WarpSocks.IpLiteral
import WarpSocks.Table.Distinct
import WarpSocks.Endpoint.Source
import WarpSocks.Endpoint.Normalize
import WarpSocks.Masque.Edge
import WarpSocks.Wire.Delimiter
import WarpSocks.Masque.DohResponse
import WarpSocks.Dns.Answered
import WarpSocks.Socks5.Header
import WarpSocks.HostCase
import WarpSocks.Socks5.Decoders
import WarpSocks.Masque.Exchange
import WarpSocks.Socks4
import WarpSocks.Tunnel.Order
import WarpSocks.Health.Heartbeat
import WarpSocks.Health.Watch
import WarpSocks.IpDisplay
import WarpSocks.Wire.Base64
import WarpSocks.SocketText
import WarpSocks.WgConf
import WarpSocks.Http.Headers
import WarpSocks.Http.Forward
import WarpSocks.Http.Target
import WarpSocks.Http.Service
import WarpSocks.Mixed.Frontends
import WarpSocks.Dataplane
import WarpSocks.Machine.Buffered
import WarpSocks.Outbound.ConnectFirst
import WarpSocks.Sync.Copy
import WarpSocks.Relay.Drain
import WarpSocks.FsUtil
import WarpSocks.Health.HeartbeatFile
import WarpSocks.Supervisor.Prepare
import WarpSocks.Supervisor.Recover
import WarpSocks.Supervisor.Endpoints
import WarpSocks.Supervisor.Region
import WarpSocks.Masque.Dial
import WarpSocks.Masque.DialResolve
import WarpSocks.Outbound.Families
import WarpSocks.Netstack.Stop
import WarpSocks.Netstack.StopRuns
import WarpSocks.Masque.Carrier
import WarpSocks.Masque.CarrierRuns
import WarpSocks.Psiphon.Duplex
import WarpSocks.Psiphon.Session
import WarpSocks.Sync.Tally
import WarpSocks.Dataplane.Windows
import WarpSocks.Masque.FramedDuplex
