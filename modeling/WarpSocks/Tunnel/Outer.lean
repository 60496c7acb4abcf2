import WarpSocks.Host
import WarpSocks.Netstack.TcpStream

/-!
# The outer datagrams of the WireGuard tunnel

`WgTunnel` of `tunnel.rs` as the device of the netstack: `send_or_queue_network`, `poll_network_flush` and their
callers. boringtun's `Tunn`, the UDP socket and the timer are given from outside, and each answers every call as
it likes.  Two loops of the source run for as long as these let them, so their rounds are counted.
-/

namespace WarpSocks.Tunnel

open Netstack (Poll)

abbrev Packet := List UInt8

def MAX_PENDING_NETWORK_PACKETS : Nat := 256

def MAX_RECEIVE_BURST : Nat := 64

/-! ### The surroundings -/

/-- `boringtun::noise::errors::WireGuardError`. -/
inductive WireGuardError where
  | destinationBufferTooSmall
  | incorrectPacketLength
  | unexpectedPacket
  | wrongPacketType
  | wrongIndex
  | wrongKey
  | invalidTai64nTimestamp
  | wrongTai64nTimestamp
  | invalidMac
  | invalidAeadTag
  | invalidCounter
  | duplicateCounter
  | invalidPacket
  | noCurrentSession
  | lockFailed
  | connectionExpired
  | underLoad
  deriving DecidableEq

/-- Its `Debug`. -/
def WireGuardError.debug : WireGuardError → String
  | destinationBufferTooSmall => "DestinationBufferTooSmall"
  | incorrectPacketLength => "IncorrectPacketLength"
  | unexpectedPacket => "UnexpectedPacket"
  | wrongPacketType => "WrongPacketType"
  | wrongIndex => "WrongIndex"
  | wrongKey => "WrongKey"
  | invalidTai64nTimestamp => "InvalidTai64nTimestamp"
  | wrongTai64nTimestamp => "WrongTai64nTimestamp"
  | invalidMac => "InvalidMac"
  | invalidAeadTag => "InvalidAeadTag"
  | invalidCounter => "InvalidCounter"
  | duplicateCounter => "DuplicateCounter"
  | invalidPacket => "InvalidPacket"
  | noCurrentSession => "NoCurrentSession"
  | lockFailed => "LockFailed"
  | connectionExpired => "ConnectionExpired"
  | underLoad => "UnderLoad"

/-- `boringtun::noise::TunnResult`. -/
inductive TunnResult where
  | done
  | err (error : WireGuardError)
  | writeToNetwork (packet : Packet)
  | writeToTunnelV4 (packet : Packet) (addr : Octets 4)
  | writeToTunnelV6 (packet : Packet) (addr : Octets 16)

/-- The `Debug` of a slice of bytes. -/
def debugBytes (bytes : List UInt8) : String := "[" ++ ", ".intercalate (bytes.map fun b => toString b.toNat) ++ "]"

/-- Its `Debug`. -/
def TunnResult.debug : TunnResult → String
  | done => "Done"
  | err error => s!"Err({error.debug})"
  | writeToNetwork packet => s!"WriteToNetwork({debugBytes packet})"
  | writeToTunnelV4 packet addr => s!"WriteToTunnelV4({debugBytes packet}, {IpText.display (.v4 addr)})"
  | writeToTunnelV6 packet addr => s!"WriteToTunnelV6({debugBytes packet}, {IpText.display (.v6 addr)})"

/-- What `UdpSocket::try_send` returns: the size, `WouldBlock` or another error. -/
inductive TrySend where
  | sent (size : Nat)
  | wouldBlock
  | failed (error : IoError)
  deriving DecidableEq

/-- The `Tunn`, the socket and the timer, with a common state. -/
structure Surroundings (σ : Type) where
  trySend : σ → Packet → σ × TrySend
  pollSendReady : σ → σ × Poll (Except IoError Unit)
  pollRecv : σ → σ × Poll (Except IoError Packet)
  /-- Whether the timer has a tick. -/
  pollTick : σ → σ × Bool
  updateTimers : σ → σ × TunnResult
  formatHandshakeInitiation : σ → σ × TunnResult
  encapsulate : σ → Packet → σ × TunnResult
  decapsulate : σ → Packet → σ × TunnResult

/-! ### The tunnel -/

/-- The counters of `DataPlaneObserver` about the outer datagrams. -/
structure Observer where
  outerTxPackets : UInt64
  outerTxBytes : UInt64
  outerTxDropped : UInt64
  outerBacklogCurrent : UInt64
  outerBacklogPeak : UInt64

namespace Observer

/-- `DataPlaneObserver::new`. -/
def new : Observer := ⟨0, 0, 0, 0, 0⟩

/-- `record_outer_tx`. -/
def recordOuterTx (o : Observer) (bytes : Nat) : Observer :=
  { o with outerTxPackets := o.outerTxPackets + 1, outerTxBytes := o.outerTxBytes + UInt64.ofNat bytes }

/-- `record_outer_tx_dropped`. -/
def recordOuterTxDropped (o : Observer) : Observer := { o with outerTxDropped := o.outerTxDropped + 1 }

/-- `record_outer_backlog`. -/
def recordOuterBacklog (o : Observer) (current : Nat) : Observer :=
  { o with
    outerBacklogCurrent := UInt64.ofNat current
    outerBacklogPeak := max o.outerBacklogPeak (UInt64.ofNat current) }

end Observer

/-- What became of a packet that was given to `send_or_queue_network`. -/
inductive Fate where
  /-- It went to the socket or into the queue. -/
  | accepted
  | dropped
  /-- The caller got the error. -/
  | failed (error : IoError)
  deriving DecidableEq

/-- What has passed: the packets given to `send_or_queue_network`, and the calls of `try_send`. -/
structure Log where
  submitted : List (Packet × Fate)
  tries : List (Packet × TrySend)

namespace Log

/-- The packets that were not dropped and whose caller got no error. -/
def accepted (log : Log) : List Packet := log.submitted.filterMap fun s => if s.2 = .accepted then some s.1 else none

/-- The packets that were dropped. -/
def dropped (log : Log) : List Packet := log.submitted.filterMap fun s => if s.2 = .dropped then some s.1 else none

/-- The datagrams the socket took. -/
def sent (log : Log) : List Packet :=
  log.tries.filterMap fun t =>
    match t.2 with
    | .sent _ => some t.1
    | _ => none

end Log

/-- `WgTunnel`. -/
structure WgTunnel (σ : Type) where
  outside : σ
  reserved : Octets 3
  observer : Observer
  /-- The oldest packet first. -/
  pendingNetwork : List Packet
  log : Log

namespace WgTunnel

variable {σ : Type}

/-- The tunnel as the netstack gets it. -/
def start (outside : σ) (reserved : Octets 3) : WgTunnel σ := ⟨outside, reserved, .new, [], ⟨[], []⟩⟩

/-- `patch_reserved`. -/
def patchReserved (t : WgTunnel σ) (packet : Packet) : Packet :=
  if 3 < packet.length ∧ 0 < packet.getD 0 0 ∧ packet.getD 0 0 < 5 then
    packet.take 1 ++ t.reserved.val ++ packet.drop 4
  else packet

/-- `prepare_network_packet`. -/
def prepareNetworkPacket (t : WgTunnel σ) (packet : Packet) : Packet := t.patchReserved packet

/-- `strip_reserved`. -/
def stripReserved (packet : Packet) : Packet :=
  if 3 < packet.length ∧ 0 < packet.getD 0 0 ∧ packet.getD 0 0 < 5 then packet.take 1 ++ [0, 0, 0] ++ packet.drop 4
  else packet

/-- A packet given to `send_or_queue_network` has met its fate. -/
def settle (t : WgTunnel σ) (packet : Packet) (fate : Fate) : WgTunnel σ :=
  { t with log := { t.log with submitted := t.log.submitted ++ [(packet, fate)] } }

/-- A call of `try_send`, which left the surroundings like this. -/
def tried (t : WgTunnel σ) (outside : σ) (packet : Packet) (result : TrySend) : WgTunnel σ :=
  { t with outside, log := { t.log with tries := t.log.tries ++ [(packet, result)] } }

/-- The part of `send_or_queue_network` about the queue. -/
def queueNetwork (t : WgTunnel σ) (packet : Packet) : WgTunnel σ :=
  if t.pendingNetwork.length = MAX_PENDING_NETWORK_PACKETS then
    { t with observer := t.observer.recordOuterTxDropped }.settle packet .dropped
  else
    { t with
      pendingNetwork := t.pendingNetwork ++ [packet]
      observer := t.observer.recordOuterBacklog (t.pendingNetwork ++ [packet]).length }.settle packet .accepted

variable (world : Surroundings σ)

/-- `send_or_queue_network`. -/
def sendOrQueueNetwork (t : WgTunnel σ) (packet : Packet) : WgTunnel σ × Except IoError Unit :=
  if t.pendingNetwork = [] then
    match world.trySend t.outside packet with
    | (outside, .sent size) =>
      ({ t.tried outside packet (.sent size) with observer := t.observer.recordOuterTx size }.settle packet
        .accepted, .ok ())
    | (outside, .wouldBlock) => ((t.tried outside packet .wouldBlock).queueNetwork packet, .ok ())
    | (outside, .failed e) => ((t.tried outside packet (.failed e)).settle packet (.failed e), .error e)
  else (t.queueNetwork packet, .ok ())

/-- `poll_network_flush`. -/
def pollNetworkFlush (t : WgTunnel σ) : WgTunnel σ × Poll (Except IoError Unit) :=
  match _h : t.pendingNetwork with
  | [] => (t, .ready (.ok ()))
  | packet :: rest =>
    match world.pollSendReady t.outside with
    | (outside, .ready (.error e)) => ({ t with outside }, .ready (.error e))
    | (outside, .pending) => ({ t with outside }, .pending)
    | (outside, .ready (.ok ())) =>
      match world.trySend outside packet with
      | (outside, .sent size) =>
        pollNetworkFlush
          { t.tried outside packet (.sent size) with
            pendingNetwork := rest
            observer := (t.observer.recordOuterTx size).recordOuterBacklog rest.length }
      | (outside, .wouldBlock) => (t.tried outside packet .wouldBlock, .pending)
      | (outside, .failed e) => (t.tried outside packet (.failed e), .ready (.error e))
termination_by t.pendingNetwork.length
decreasing_by rw [_h, List.length_cons]; exact Nat.lt_succ_self _

/-- `try_tick`. -/
def tryTick (t : WgTunnel σ) : WgTunnel σ × Except IoError Unit :=
  match world.updateTimers t.outside with
  | (outside, .writeToNetwork packet) => { t with outside }.sendOrQueueNetwork world (t.prepareNetworkPacket packet)
  | (outside, .err .connectionExpired) =>
    match world.formatHandshakeInitiation outside with
    | (outside, .writeToNetwork packet) => { t with outside }.sendOrQueueNetwork world (t.prepareNetworkPacket packet)
    | (outside, .done) => ({ t with outside }, .ok ())
    | (outside, other) => ({ t with outside }, .error ⟨.other, s!"WireGuard 连接过期后重握手失败: {other.debug}"⟩)
  | (outside, .done) => ({ t with outside }, .ok ())
  | (outside, .err e) => ({ t with outside }, .error ⟨.other, s!"WireGuard timer 处理失败: {e.debug}"⟩)
  | (outside, other) => ({ t with outside }, .error ⟨.other, s!"WireGuard timer 返回异常: {other.debug}"⟩)

/-- The loop of `poll_recv_plaintext`, with the result of the last `decapsulate`; `none` if it has not ended in so
many rounds. -/
def decapsulateLoop : Nat → WgTunnel σ → TunnResult → WgTunnel σ × Option (Except IoError (Option Packet))
  | 0, t, _ => (t, none)
  | rounds + 1, t, result =>
    match result with
    | .done => (t, some (.ok none))
    | .err _ => (t, some (.ok none))
    | .writeToNetwork packet =>
      match t.sendOrQueueNetwork world (t.prepareNetworkPacket packet) with
      | (t, .error e) => (t, some (.error e))
      | (t, .ok ()) =>
        match world.decapsulate t.outside [] with
        | (outside, result) => decapsulateLoop rounds { t with outside } result
    | .writeToTunnelV4 packet _ => (t, some (.ok (some packet)))
    | .writeToTunnelV6 packet _ => (t, some (.ok (some packet)))

/-- `poll_recv_plaintext`. -/
def pollRecvPlaintext (rounds : Nat) (t : WgTunnel σ) : WgTunnel σ × Option (Poll (Except IoError (Option Packet))) :=
  match world.pollRecv t.outside with
  | (outside, .ready (.error e)) => ({ t with outside }, some (.ready (.error e)))
  | (outside, .pending) => ({ t with outside }, some .pending)
  | (outside, .ready (.ok raw)) =>
    match world.decapsulate outside (stripReserved raw) with
    | (outside, result) =>
      match decapsulateLoop world rounds { t with outside } result with
      | (t, result) => (t, result.map .ready)

/-- The loop of `poll_next` about the timer. -/
def tickLoop : Nat → WgTunnel σ → WgTunnel σ × Option (Except IoError Unit)
  | 0, t => (t, none)
  | rounds + 1, t =>
    match world.pollTick t.outside with
    | (outside, false) => ({ t with outside }, some (.ok ()))
    | (outside, true) =>
      match { t with outside }.tryTick world with
      | (t, .error e) => (t, some (.error e))
      | (t, .ok ()) => tickLoop rounds t

/-- The loop of `poll_next` about the packets received. -/
def receiveLoop (rounds : Nat) : Nat → WgTunnel σ → WgTunnel σ × Option (Poll (Except IoError Packet))
  | 0, t => (t, some .pending)
  | burst + 1, t =>
    match t.pollRecvPlaintext world rounds with
    | (t, some (.ready (.ok (some packet)))) => (t, some (.ready (.ok packet)))
    | (t, some (.ready (.ok none))) => receiveLoop rounds burst t
    | (t, some (.ready (.error e))) => (t, some (.ready (.error e)))
    | (t, some .pending) => (t, some .pending)
    | (t, none) => (t, none)

/-- `poll_next`. -/
def pollNext (rounds : Nat) (t : WgTunnel σ) : WgTunnel σ × Option (Poll (Except IoError Packet)) :=
  match t.tickLoop world rounds with
  | (t, none) => (t, none)
  | (t, some (.error e)) => (t, some (.ready (.error e)))
  | (t, some (.ok ())) =>
    match t.pollNetworkFlush world with
    | (t, .ready (.error e)) => (t, some (.ready (.error e)))
    | (t, _) => receiveLoop world rounds MAX_RECEIVE_BURST t

/-- `start_send`. -/
def startSend (t : WgTunnel σ) (packet : Packet) : WgTunnel σ × Except IoError Unit :=
  match world.encapsulate t.outside packet with
  | (outside, .writeToNetwork packet) => { t with outside }.sendOrQueueNetwork world (t.prepareNetworkPacket packet)
  | (outside, .done) => ({ t with outside }, .ok ())
  | (outside, other) => ({ t with outside }, .error ⟨.other, s!"encapsulate 异常: {other.debug}"⟩)

/-- `poll_ready`. -/
def pollReady (t : WgTunnel σ) : WgTunnel σ × Poll (Except IoError Unit) := t.pollNetworkFlush world

/-- `poll_flush`. -/
def pollFlush (t : WgTunnel σ) : WgTunnel σ × Poll (Except IoError Unit) := t.pollNetworkFlush world

/-- `poll_close`. -/
def pollClose (t : WgTunnel σ) : WgTunnel σ × Poll (Except IoError Unit) := t.pollNetworkFlush world

end WgTunnel

end WarpSocks.Tunnel
