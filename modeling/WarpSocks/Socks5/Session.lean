import WarpSocks.Host
import WarpSocks.Machine.Action
import WarpSocks.Relay
import WarpSocks.Socks5.Udp

/-!
# SOCKS5 sessions

`handle_client` up to the point where the stream is handed to the tunnel or the UDP association is set up, and
`dispatch`, which looks at the first byte only.  A session reads from the client and writes to it; the calls of
`connect_tcp` are recorded.  The backend and the sockets of the host are inputs, and the handshake deadline is not
reached.
-/

namespace WarpSocks.Socks5

open Wire (Reader Writer)

def REP_SUCCEEDED : UInt8 := 0x00

def REP_HOST_UNREACHABLE : UInt8 := 0x04

def REP_CMD_NOT_SUPPORTED : UInt8 := 0x07

def REP_ATYP_NOT_SUPPORTED : UInt8 := 0x08

def CMD_CONNECT : UInt8 := 0x01

def CMD_UDP_ASSOCIATE : UInt8 := 0x03

/-- `Connected`, of whose stream only the upload side matters here. -/
structure Connected where
  upstream : Writer IoError
  note : Option String

/-- The backend. -/
structure Outbound where
  name : String
  supportsUdp : Bool
  connectTcp : Host → UInt16 → Except IoError Connected

/-- What the host answers: the local address of the client's connection, and for a relay socket bound to an
address its local address. -/
structure Sockets where
  localAddr : Except IoError SocketAddr
  bindUdp : SocketAddr → Except IoError (Except IoError SocketAddr)

/-- The local address of the relay socket that `handle_udp_associate` binds. -/
def Sockets.relayAddr (sockets : Sockets) : Except Chain SocketAddr := do
  let addr ← orContext ["获取本地地址失败"] sockets.localAddr
  let relaySock ← orContext ["绑定 UDP ASSOCIATE 中继 socket 失败"] (sockets.bindUdp (.new addr.ip 0))
  orContext [] relaySock

/-- The client's stream and the calls of `connect_tcp` so far. -/
structure Session where
  reader : Reader IoError
  writer : Writer IoError
  dialled : List (Host × UInt16)

/-- A session before the first byte, whose writes succeed. -/
def Session.start (bytes : List UInt8) (seg : Wire.Segmentation) (fault : Option IoError) : Session :=
  ⟨⟨bytes, seg, fault⟩, ⟨[], none⟩, []⟩

/-- A fallible action on the session. -/
abbrev SessionM (α : Type) := Machine.Action Chain Session α

/-- `client.read_exact`, into an array of `n` bytes. -/
def readExact (n : Nat) : SessionM (Octets n) := fun s =>
  match h : s.reader.readExact earlyEof n with
  | (.ok bytes, reader) => (.ok ⟨bytes, Reader.length_readExact h⟩, { s with reader })
  | (.error e, reader) => (.error [e.msg], { s with reader })

/-- `client.write_all`. -/
def writeAll (bytes : List UInt8) : SessionM Unit := fun s =>
  match s.writer.writeAll bytes with
  | (.ok (), writer) => (.ok (), { s with writer })
  | (.error e, writer) => (.error [e.msg], { s with writer })

/-- `let _ = action.await`. -/
def ignore (action : SessionM Unit) : SessionM Unit := fun s => (.ok (), (action s).2)

/-- `reply`. -/
def reply (rep : UInt8) : SessionM Unit := writeAll [0x05, rep, 0x00, 0x01, 0, 0, 0, 0, 0, 0]

/-- The message of `reply_with_addr`. -/
def replyMessage (rep : UInt8) : SocketAddr → List UInt8
  | .v4 ip port => [0x05, rep, 0x00, 0x01] ++ ip.val ++ toBeBytes port
  | .v6 ip port _ _ => [0x05, rep, 0x00, 0x04] ++ ip.val ++ toBeBytes port

/-- `Target`. -/
structure Target where
  host : Host
  port : UInt16
  display : String

/-- The port behind an address. -/
def readPort : SessionM UInt16 := do
  let port ← readExact 2
  return fromBeBytes (port.val.getD 0 0) (port.val.getD 1 0)

/-- The target of an address field with `n` octets. -/
def readIp (n : Nat) (ofOctets : Octets n → IpAddr) : SessionM Target := do
  let addr ← readExact n
  let port ← readPort
  let ip := ofOctets addr
  return ⟨.ip ip, port, s!"{IpText.display ip}:{port.toNat}"⟩

/-- The target of an address field with a name. -/
def readName : SessionM Target := do
  let len ← readExact 1
  let name ← readExact (len.val.getD 0 0).toNat
  let port ← readPort
  match stringFromUtf8 name.val with
  | none => throw ["域名不是合法 UTF-8", utf8Error name.val]
  | some name => return ⟨.parse name, port, s!"{name}:{port.toNat}"⟩

/-- `read_target`. -/
def readTarget : UInt8 → SessionM Target
  | 0x01 => readIp 4 .v4
  | 0x04 => readIp 16 .v6
  | 0x03 => readName
  | other => throw [s!"不支持的地址类型: {other.toNat}"]

/-- `skip_target`. -/
def skipTarget : UInt8 → SessionM Unit
  | 0x01 => do
    let _ ← readExact (4 + 2)
  | 0x04 => do
    let _ ← readExact (16 + 2)
  | 0x03 => do
    let len ← readExact 1
    let _ ← readExact ((len.val.getD 0 0).toNat + 2)
  | other => throw [s!"不支持的地址类型: {other.toNat}"]

/-- `Request`. -/
inductive Request where
  | connect (target : Target)
  | udpAssociate

/-- The negotiation of the method, the first part of `read_request`: only "no authentication" is taken. -/
def negotiate : SessionM Unit := do
  let head ← readExact 2
  if head.val.getD 0 0 ≠ 0x05 then throw [s!"不支持的 SOCKS 版本: {(head.val.getD 0 0).toNat}"]
  else
    let methods ← readExact (head.val.getD 1 0).toNat
    if !methods.val.contains 0x00 then
      writeAll [0x05, 0xFF]
      throw ["客户端不支持无认证方式"]
    else writeAll [0x05, 0x00]

/-- The request, the second part of `read_request`. -/
def readCommand : SessionM Request := do
  let req ← readExact 4
  let cmd := req.val.getD 1 0
  let atyp := req.val.getD 3 0
  if req.val.getD 0 0 ≠ 0x05 then throw [s!"不支持的 SOCKS 版本: {(req.val.getD 0 0).toNat}"]
  else if cmd ∉ [CMD_CONNECT, CMD_UDP_ASSOCIATE] then
    ignore (reply REP_CMD_NOT_SUPPORTED)
    throw [s!"不支持的命令: {cmd.toNat}"]
  else if atyp ∉ [0x01, 0x03, 0x04] then
    ignore (reply REP_ATYP_NOT_SUPPORTED)
    throw [s!"不支持的地址类型: {atyp.toNat}"]
  else if cmd = CMD_UDP_ASSOCIATE then
    -- the suggested address does not matter, and its name is not checked
    skipTarget atyp
    return .udpAssociate
  else
    tryCatch (.connect <$> readTarget atyp) fun error => do
      ignore (reply REP_HOST_UNREACHABLE)
      throw error

/-- `read_request`. -/
def readRequest : SessionM Request := do
  negotiate
  readCommand

/-- How a session goes on: with `relay::tunnel_tcp`, or with the loop of the association. -/
inductive Handover where
  | tunnel (display : String) (conn : Connected)
  | associate (relayAddr : SocketAddr)

/-- `handle_connect`, up to the tunnel. -/
def handleConnect (outbound : Outbound) (target : Target) : SessionM Handover := do
  modify fun s => { s with dialled := s.dialled ++ [(target.host, target.port)] }
  match outbound.connectTcp target.host target.port with
  | .error e =>
    ignore (reply REP_HOST_UNREACHABLE)
    throw [s!"隧道内连接 {target.display} 失败", e.msg]
  | .ok conn =>
    reply REP_SUCCEEDED
    return .tunnel target.display conn

/-- `handle_udp_associate`, up to the loop. -/
def handleUdpAssociate (outbound : Outbound) (sockets : Sockets) : SessionM Handover := do
  if !outbound.supportsUdp then
    reply REP_CMD_NOT_SUPPORTED
    throw [s!"{outbound.name} 后端不支持隧道内 UDP，已拒绝 UDP ASSOCIATE"]
  else
    match sockets.relayAddr with
    | .error e => throw e
    | .ok relayAddr =>
      tryCatch (writeAll (replyMessage REP_SUCCEEDED relayAddr)) fun e => throw ("UDP ASSOCIATE 回复失败" :: e)
      return .associate relayAddr

/-- The second part of `handle_client`. -/
def serve (outbound : Outbound) (sockets : Sockets) : Request → SessionM Handover
  | .connect target => handleConnect outbound target
  | .udpAssociate => handleUdpAssociate outbound sockets

/-- `handle_client`, up to the handover. -/
def handleClient (outbound : Outbound) (sockets : Sockets) : SessionM Handover :=
  readRequest >>= serve outbound sockets

/-- `dispatch`, with the handlers of the other protocols.  The first byte is only looked at. -/
def dispatch (socks5 socks4 httpProxy : SessionM Handover) : SessionM (Option Handover) := fun s =>
  match s.reader.bytes, s.reader.fault with
  | [], none => (.ok none, s)
  | [], some e => (.error [e.msg], s)
  | 0x05 :: _, _ => (some <$> socks5) s
  | 0x04 :: _, _ => (some <$> socks4) s
  | _ :: _, _ => (some <$> httpProxy) s

end WarpSocks.Socks5
