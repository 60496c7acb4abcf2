import WarpSocks.Io
import WarpSocks.Machine.Loop
import WarpSocks.Net

/-!
# UDP ASSOCIATE

The header of a relayed datagram (RFC 1928: RSV, FRAG, ATYP, ADDR, PORT) and the loop of `handle_udp_associate`
behind the reply to the request.  The loop waits for the control connection, the relay socket and the replies of
the targets at once, so its events come in any order; what it hands to `UdpEgressSet::send` and what it sends back
to the client are recorded in its state.
-/

namespace WarpSocks.Socks5

/-- The target of a datagram. -/
inductive SocketAddrOrName where
  | addr (a : SocketAddr)
  | name (name : String) (port : UInt16)
  deriving DecidableEq

/-- The big-endian port at `pos`, for a buffer that reaches so far. -/
def portAt (buf : List UInt8) (pos : Nat) : UInt16 := fromBeBytes (buf.getD pos 0) (buf.getD (pos + 1) 0)

/-- The `n` octets at `pos`. -/
def octetsAt (buf : List UInt8) (pos n : Nat) (h : pos + n ≤ buf.length) : Octets n :=
  ⟨(buf.drop pos).take n, by simp only [List.length_take, List.length_drop]; omega⟩

/-- `decode_udp_header`: the target and the length of the header.  Only unfragmented datagrams are taken. -/
def decodeUdpHeader (buf : List UInt8) : Option (SocketAddrOrName × Nat) :=
  if buf.length < 4 ∨ buf.getD 2 0 ≠ 0x00 then none
  else
    match buf.getD 3 0 with
    | 0x01 =>
      if h : buf.length < 4 + 4 + 2 then none
      else some (.addr (.new (.v4 (octetsAt buf 4 4 (by omega))) (portAt buf 8)), 10)
    | 0x04 =>
      if h : buf.length < 4 + 16 + 2 then none
      else some (.addr (.new (.v6 (octetsAt buf 4 16 (by omega))) (portAt buf 20)), 22)
    | 0x03 =>
      if buf.length < 4 + 1 then none
      else
        let len := (buf.getD 4 0).toNat
        if buf.length < 5 + len + 2 then none
        else
          match stringFromUtf8 ((buf.drop 5).take len) with
          | none => none
          | some name => some (.name name.toLower (portAt buf (5 + len)), 5 + len + 2)
    | _ => none

/-- `encode_udp_header`. -/
def encodeUdpHeader : SocketAddr → List UInt8
  | .v4 ip port => [0x00, 0x00, 0x00, 0x01] ++ ip.val ++ toBeBytes port
  | .v6 ip port _ _ => [0x00, 0x00, 0x00, 0x04] ++ ip.val ++ toBeBytes port

/-- `udp_source_allowed`. -/
def udpSourceAllowed (controlPeer : SocketAddr) (learnedClient : Option SocketAddr) (source : SocketAddr) : Bool :=
  source.ip == controlPeer.ip && learnedClient.all (· == source)

/-- What `recv_from` returns: the source, and the front of the buffer it filled. -/
structure Datagram where
  source : SocketAddr
  bytes : List UInt8
  deriving DecidableEq

/-- `UdpReply`, without its budget. -/
structure UdpReply where
  source : SocketAddr
  payload : List UInt8
  deriving DecidableEq

/-- The branches of the `select!`. -/
inductive Event where
  /-- `client.read` on the control connection. -/
  | control (r : Except IoError Nat)
  /-- `relay_sock.recv_from`. -/
  | relay (r : Except IoError Datagram)
  /-- `egress.recv`. -/
  | reply (r : Option UdpReply)

/-- The state of the loop, with the calls of `UdpEgressSet::send` and of `relay_sock.send_to` so far. -/
structure Association where
  clientAddr : Option SocketAddr
  handed : List (SocketAddrOrName × List UInt8)
  replied : List (SocketAddr × List UInt8)
  deriving DecidableEq

/-- The association before the first event. -/
def Association.new : Association := ⟨none, [], []⟩

/-- The `recv_from` branch. -/
def onDatagram (peer : SocketAddr) (s : Association) (d : Datagram) : Association :=
  if !udpSourceAllowed peer s.clientAddr d.source then s
  -- a source other than the first
  else if s.clientAddr.isSome && s.clientAddr != some d.source then s
  else
    match decodeUdpHeader d.bytes with
    | none => s
    | some (target, headerLen) =>
      { s with
        clientAddr := some (s.clientAddr.getD d.source)
        handed := s.handed ++ [(target, d.bytes.drop headerLen)] }

/-- The `egress.recv` branch.  The outcome of `send_to` is ignored. -/
def onReply (s : Association) : Option UdpReply → Association
  | none => s
  | some reply =>
    match s.clientAddr with
    | some clientAddr =>
      { s with replied := s.replied ++ [(clientAddr, encodeUdpHeader reply.source ++ reply.payload)] }
    | none => s

/-- One round of the loop of `handle_udp_associate`.  The end of the control connection ends the association. -/
def step (peer : SocketAddr) (s : Association) : Event → Machine.Round Association (Except String Unit)
  | .control (.ok 0) => .stop (.ok ())
  | .control (.error _) => .stop (.ok ())
  | .control (.ok (_ + 1)) => .next s
  | .relay (.error _) => .stop (.error "UDP ASSOCIATE 中继读失败")
  | .relay (.ok d) => .next (onDatagram peer s d)
  | .reply r => .next (onReply s r)

/-- The loop of `handle_udp_associate`. -/
def relayLoop (peer : SocketAddr) (events : List Event) : Association × Option (Except String Unit) :=
  Machine.run (step peer) .new events

end WarpSocks.Socks5
