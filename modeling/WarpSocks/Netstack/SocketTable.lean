import WarpSocks.Io
import WarpSocks.Net
import WarpSocks.Table.Entries

/-!
# The socket table

`SocketTable` holds the sockets of the IP stack and the cursor for ephemeral ports.  Which ports are taken is not
stored: it is read off the local endpoints of the sockets.  smoltcp is a parameter: a `SocketApi` is any
implementation of its sockets in which a connected or bound socket reports the endpoint it was given.
-/

namespace WarpSocks.Netstack

def EPHEMERAL_PORT_FIRST : UInt16 := 10001

def EPHEMERAL_PORT_LAST : UInt16 := 60000

/-- `smoltcp::wire::IpEndpoint`. -/
structure IpEndpoint where
  addr : IpAddr
  port : UInt16
  deriving DecidableEq

/-- `smoltcp::wire::IpListenEndpoint`. -/
structure IpListenEndpoint where
  addr : Option IpAddr
  port : UInt16
  deriving DecidableEq

/-- smoltcp's sockets, and the handles of its `SocketSet`, which are slot numbers. -/
structure SocketApi where
  Context : Type
  Tcp : Type
  Udp : Type
  newTcp : Tcp
  connect : Tcp → Context → (remote localEnd : IpEndpoint) → Except String Tcp
  localEndpoint : Tcp → Option IpEndpoint
  newUdp : Udp
  bind : Udp → IpListenEndpoint → Except String Udp
  endpoint : Udp → IpListenEndpoint
  /-- The slot `SocketSet::add` takes. -/
  freeSlot : Finset Nat → Nat
  localEndpoint_connect : ∀ {s context remote localEnd s'},
    connect s context remote localEnd = .ok s' → localEndpoint s' = some localEnd
  endpoint_bind : ∀ {s listen s'}, bind s listen = .ok s' → endpoint s' = listen
  freeSlot_notMem : ∀ used, freeSlot used ∉ used

/-- `smoltcp::socket::Socket`. -/
inductive AnySocket (api : SocketApi) where
  | tcp (socket : api.Tcp)
  | udp (socket : api.Udp)

/-- `SocketTable`. -/
structure SocketTable (api : SocketApi) where
  sockets : Finmap fun _ : Nat => AnySocket api
  nextPort : UInt16

/-- `Transport`. -/
inductive Transport where
  | tcp
  | udp
  deriving DecidableEq

/-- `AddressFamily`. -/
inductive AddressFamily where
  | ipv4
  | ipv6
  deriving DecidableEq

/-- `AddressFamily::from`. -/
def AddressFamily.ofAddress : IpAddr → AddressFamily
  | .v4 _ => .ipv4
  | .v6 _ => .ipv6

/-- `AddressFamily::matches`. -/
def AddressFamily.matches : AddressFamily → IpAddr → Bool
  | .ipv4, .v4 _ => true
  | .ipv6, .v6 _ => true
  | _, _ => false

/-- The loop of `select_port`, with the rounds left: the port, and the cursor afterwards. -/
def selectPortLoop (inUse : UInt16 → Bool) : Nat → UInt16 → Except IoError UInt16 × UInt16
  | 0, next => (.error ⟨.addrNotAvailable, "临时端口已耗尽"⟩, next)
  | rounds + 1, candidate =>
    let next := if EPHEMERAL_PORT_LAST ≤ candidate then EPHEMERAL_PORT_FIRST else candidate + 1
    if !inUse candidate then (.ok candidate, next) else selectPortLoop inUse rounds next

/-- `select_port`. -/
def selectPort (next requested : UInt16) (inUse : UInt16 → Bool) : Except IoError UInt16 × UInt16 :=
  if requested ≠ 0 then
    (if !inUse requested then .ok requested else .error ⟨.addrInUse, s!"端口 {requested.toNat} 已被占用"⟩, next)
  else selectPortLoop inUse ((EPHEMERAL_PORT_LAST - EPHEMERAL_PORT_FIRST).toNat + 1) next

namespace SocketTable

variable {api : SocketApi}

/-- `SocketTable::new`. -/
def new : SocketTable api := ⟨∅, EPHEMERAL_PORT_FIRST⟩

/-- `port_in_use`, for one socket. -/
def occupies (transport : Transport) (family : AddressFamily) (port : UInt16) (socket : AnySocket api) : Bool :=
  match transport, socket with
  | .tcp, .tcp socket =>
    (api.localEndpoint socket).any fun endpoint => endpoint.port == port && family.matches endpoint.addr
  | .udp, .udp socket =>
    let endpoint := api.endpoint socket
    endpoint.port == port && endpoint.addr.any fun addr => family.matches addr
  | _, _ => false

/-- `port_in_use`. -/
def portInUse (table : SocketTable api) (transport : Transport) (family : AddressFamily) (port : UInt16) : Bool :=
  table.sockets.anyEntry fun _ socket => occupies transport family port socket

/-- `allocate_port`.  The cursor moves only if a port is found. -/
def allocatePort (table : SocketTable api) (transport : Transport) (family : AddressFamily) (requested : UInt16) :
    Except IoError UInt16 × SocketTable api :=
  match selectPort table.nextPort requested (table.portInUse transport family) with
  | (.ok port, next) => (.ok port, { table with nextPort := next })
  | (.error e, _) => (.error e, table)

/-- `SocketSet::add`. -/
def add (table : SocketTable api) (socket : AnySocket api) : Nat × SocketTable api :=
  let handle := api.freeSlot table.sockets.keys
  (handle, { table with sockets := table.sockets.insert handle socket })

/-- `SocketAllocator::connect_tcp`. -/
def connectTcp (table : SocketTable api) (context : api.Context) (source : IpAddr) (remote : IpEndpoint) :
    Except IoError Nat × SocketTable api :=
  match table.allocatePort .tcp (.ofAddress source) 0 with
  | (.error e, table) => (.error e, table)
  | (.ok port, table) =>
    match api.connect api.newTcp context remote ⟨source, port⟩ with
    | .error e => (.error ⟨.other, e⟩, table)
    | .ok socket =>
      let (handle, table) := table.add (.tcp socket)
      (.ok handle, table)

/-- `SocketAllocator::new_udp`. -/
def newUdp (table : SocketTable api) (source : IpAddr) (requestedPort : UInt16) :
    Except IoError (Nat × UInt16) × SocketTable api :=
  match table.allocatePort .udp (.ofAddress source) requestedPort with
  | (.error e, table) => (.error e, table)
  | (.ok port, table) =>
    match api.bind api.newUdp ⟨some source, port⟩ with
    | .error e => (.error ⟨.other, e⟩, table)
    | .ok socket =>
      let (handle, table) := table.add (.udp socket)
      (.ok (handle, port), table)

/-- `SocketHandle::drop`: `SocketSet::remove`, which panics (`none`) if the handle is not in the set. -/
def dropHandle (table : SocketTable api) (handle : Nat) : Option (SocketTable api) :=
  if handle ∈ table.sockets then some { table with sockets := table.sockets.erase handle } else none

end SocketTable

end WarpSocks.Netstack
