import WarpSocks.Netstack.Tcp

/-!
# The TCP stream of the netstack

`poll_connected`, `poll_read` and `poll_shutdown` of `TcpStream` in `netstack.rs`, the connect future, and the way
the reactor cuts what the device delivers into batches.  `stopped` is `Reactor::is_stopped`.
-/

namespace WarpSocks.Netstack

/-- `std::task::Poll`. -/
inductive Poll (α : Type) where
  | ready (value : α)
  | pending
  deriving DecidableEq, Repr

/-- `reactor_stopped`. -/
def reactorStopped : IoError := ⟨.connectionAborted, "WireGuard netstack reactor 已停止"⟩

/-- `poll_connected`; when it is pending it has registered the send waker. -/
def pollConnected (stopped : Bool) (socket : Socket) : Poll (Except IoError Unit) :=
  if stopped then .ready (.error reactorStopped)
  else
    match socket.state with
    | .established => .ready (.ok ())
    | .closed => .ready (.error ⟨.connectionAborted, "TCP 连接建立失败"⟩)
    | _ => .pending

variable (tcp : Smoltcp)

/-- `poll_read` with room for `n` bytes: the bytes read and the socket afterwards. -/
def pollRead (stopped : Bool) (socket : Socket) (n : Nat) : Poll (Except IoError (List UInt8)) × Socket :=
  if stopped then (.ready (.error reactorStopped), socket)
  else if !tcp.mayRecv socket then (.ready (.ok []), socket)
  else if tcp.canRecv socket then
    match tcp.recvSlice socket n with
    | .error e => (.ready (.error ⟨.other, e⟩), socket)
    | .ok (bytes, socket) => (.ready (.ok bytes), socket)
  else (.pending, socket)

/-- `poll_shutdown`. -/
def pollShutdown (stopped : Bool) (socket : Socket) : Poll (Except IoError Unit) × Socket :=
  if stopped then (.ready (.ok ()), socket)
  else
    let socket := if tcp.isOpen socket then tcp.close socket else socket
    if socket.state = .closed then (.ready (.ok ()), socket) else (.pending, socket)

/-! ### Batches -/

/-- `DEFAULT_MAX_BURST_SIZE`. -/
def defaultMaxBurstSize : Nat := 100

/-- The batches `run_reactor` hands to `Interface::poll`, for the results of the device's `poll_next` calls: a
batch ends when the device is pending or the receive queue `queue` is full. -/
def reactorBatches (maxBurst : Nat) : List Event → List (Poll Event) → List (List Event)
  | queue, [] => if queue = [] then [] else [queue]
  | queue, .pending :: device => if queue = [] then reactorBatches maxBurst [] device
      else queue :: reactorBatches maxBurst [] device
  | queue, .ready e :: device => if queue.length + 1 < maxBurst then reactorBatches maxBurst (queue ++ [e]) device
      else (queue ++ [e]) :: reactorBatches maxBurst [] device

/-- One `Interface::poll` consumes a whole batch. -/
def Smoltcp.poll (socket : Socket) (batch : List Event) : Socket := batch.foldl tcp.step socket

/-- Whether a registered send waker is woken in the course of a batch: by the first change of state. -/
def Smoltcp.wakes : Socket → List Event → Bool
  | _, [] => false
  | socket, e :: batch =>
    (tcp.step socket e).state ≠ socket.state || Smoltcp.wakes (tcp.step socket e) batch

/-- The connect future behind a pending poll, which is polled again when a batch has woken it: the number of batches
until it completes and its result, or `none` if it is still pending after the last one. -/
def awaitConnected : Socket → Nat → List (List Event) → Option (Nat × Except IoError Unit)
  | _, _, [] => none
  | socket, done, batch :: batches =>
    if tcp.wakes socket batch then
      match pollConnected false (tcp.poll socket batch) with
      | .ready result => some (done + 1, result)
      | .pending => awaitConnected (tcp.poll socket batch) (done + 1) batches
    else awaitConnected (tcp.poll socket batch) (done + 1) batches

/-- `connect` on a socket whose SYN is on the way. -/
def connect (socket : Socket) (batches : List (List Event)) : Option (Nat × Except IoError Unit) :=
  match pollConnected false socket with
  | .ready result => some (0, result)
  | .pending => awaitConnected tcp socket 0 batches

end WarpSocks.Netstack
