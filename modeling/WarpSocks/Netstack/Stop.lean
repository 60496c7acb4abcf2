import WarpSocks.Net
import WarpSocks.Netstack.TcpStream

/-!
# Stopping the netstack

The calls on the sockets of `netstack.rs` while `Reactor::stop_sockets` runs: `poll_connected`, `poll_read`,
`poll_write`, `poll_flush` and `poll_shutdown` of `TcpStream`, `send_to` and `recv_from` of `UdpSocket`.  A call
reads `is_stopped` first and locks the socket table afterwards; `stop_sockets` sets the reason first and locks the
table afterwards; all of this is interleaved in any way, with any number of sockets and calls, and with what the
IP stack does to the sockets.

smoltcp's sockets are a parameter.  A socket keeps one waker for each side, and stopping it calls both.  For each
side of a socket at most one call is under way: a stream has one task that reads and one that writes, a datagram
socket one that receives and one that sends.  This is an assumption on the callers, in `step`.
-/

namespace WarpSocks.Netstack.Stop

/-! ### Sockets -/

/-- `udp::SendError`. -/
inductive SendError where
  | unaddressable
  | bufferFull

/-- `udp::RecvError`. -/
inductive RecvError where
  | exhausted
  | truncated

/-- smoltcp's sockets: the TCP sockets of `Smoltcp` with a transmit buffer, and UDP sockets. -/
structure Sockets where
  tcp : Smoltcp
  /-- The transmit buffer of a TCP socket. -/
  Tx : Type
  sendQueue : Tx → Nat
  isFull : Tx → Bool
  /-- The number of bytes taken. -/
  enqueue : Tx → List UInt8 → Nat × Tx
  Udp : Type
  /-- The socket is bound. -/
  isOpen : Udp → Bool
  close : Udp → Udp
  payloadSendCapacity : Udp → Nat
  sendSlice : Udp → List UInt8 → SocketAddr → Except SendError Unit × Udp
  recvSlice : Udp → Nat → Except RecvError (List UInt8 × SocketAddr) × Udp
  sendText : SendError → String
  recvText : RecvError → String
  isOpen_close : ∀ u, isOpen (close u) = false
  isOpen_sendSlice : ∀ u buf target, isOpen (sendSlice u buf target).2 = isOpen u
  isOpen_recvSlice : ∀ u n, isOpen (recvSlice u n).2 = isOpen u
  /-- A socket that is not bound sends nothing, and closing has emptied its buffers. -/
  sendSlice_unbound : ∀ u buf target, isOpen u = false → (sendSlice u buf target).1 = .error .unaddressable
  recvSlice_unbound : ∀ u n, isOpen u = false → (recvSlice u n).1 = .error .exhausted

/-- The local side may still send data. -/
def sending : Netstack.State → Bool
  | .established | .closeWait => true
  | _ => false

structure Tcp (api : Sockets) where
  socket : Socket
  tx : api.Tx

namespace Tcp

variable {api : Sockets}

def maySend (s : Tcp api) : Bool := sending s.socket.state

def canSend (s : Tcp api) : Bool := s.maySend && !api.isFull s.tx

/-- `send_slice`. -/
def sendSlice (s : Tcp api) (buf : List UInt8) : Except String (Nat × Tcp api) :=
  if !s.maySend then .error "invalid state"
  else
    let (n, tx) := api.enqueue s.tx buf
    .ok (n, { s with tx })

/-- `abort`. -/
def abort (s : Tcp api) : Tcp api := { s with socket := { s.socket with state := .closed } }

end Tcp

/-- `smoltcp::socket::Socket`. -/
inductive AnySocket (api : Sockets) where
  | tcp (socket : Tcp api)
  | udp (socket : api.Udp)

namespace AnySocket

variable {api : Sockets}

def closed : AnySocket api → Bool
  | tcp s => s.socket.state = .closed
  | udp u => !api.isOpen u

/-- `abort` or `close`. -/
def stop : AnySocket api → AnySocket api
  | tcp s => tcp s.abort
  | udp u => udp (api.close u)

theorem closed_stop (s : AnySocket api) : s.stop.closed = true := by
  cases s with
  | tcp s => simp [stop, closed, Tcp.abort]
  | udp u => simp [stop, closed, api.isOpen_close]

/-- What the IP stack can make of a socket: a closed one stays closed. -/
def mayBecome : AnySocket api → AnySocket api → Bool
  | tcp s, tcp s' => s.socket.state ≠ .closed || s'.socket.state = .closed
  | udp u, udp u' => api.isOpen u || !api.isOpen u'
  | _, _ => false

theorem closed_of_mayBecome {s s' : AnySocket api} (h : s.mayBecome s' = true) (hs : s.closed = true) :
    s'.closed = true := by
  cases s <;> cases s' <;> simp_all [mayBecome, closed]

end AnySocket

/-! ### The calls -/

inductive TcpOperation where
  | connected
  | read (n : Nat)
  | write (buf : List UInt8)
  | flush
  | shutdown

inductive UdpOperation where
  | sendTo (buf : List UInt8) (target : SocketAddr)
  | recvFrom (n : Nat)

inductive Operation where
  | tcp (op : TcpOperation)
  | udp (op : UdpOperation)

/-- `std::io::Error`, also of the kind `InvalidInput`. -/
inductive Failure where
  | io (error : IoError)
  | invalidInput (msg : String)

/-- What a call returns. -/
inductive Reply where
  | done
  | bytes (bytes : List UInt8)
  | written (n : Nat)
  | datagram (bytes : List UInt8) (origin : SocketAddr)

abbrev Outcome := Except Failure Reply

/-- The wakers of a socket. -/
inductive Side where
  | recv
  | send
  deriving DecidableEq

namespace Operation

/-- The waker the call registers. -/
def side : Operation → Side
  | tcp (.read _) | udp (.recvFrom _) => .recv
  | _ => .send

/-- What the call returns when the reactor is stopped. -/
def stopped : Operation → Outcome
  | tcp .shutdown => .ok .done
  | _ => .error (.io reactorStopped)

/-- The call is one on this kind of socket. -/
def fits {api : Sockets} : Operation → AnySocket api → Bool
  | tcp _, .tcp _ => true
  | udp _, .udp _ => true
  | _, _ => false

end Operation

/-- How the part of a poll with the table locked ends. -/
inductive Locked where
  | ready (outcome : Outcome)
  /-- The waker is registered. -/
  | pending
  /-- The table is unlocked and will be locked once more. -/
  | unlocked

section Locked

variable {api : Sockets}

def ofPoll {α : Type} (reply : α → Reply) : Poll (Except IoError α) → Locked
  | .ready (.ok a) => .ready (.ok (reply a))
  | .ready (.error e) => .ready (.error (.io e))
  | .pending => .pending

/-- The end of `poll_shutdown`. -/
def settle (s : Tcp api) : Locked := if s.socket.state = .closed then .ready (.ok .done) else .pending

/-- The poll functions of `TcpStream`, behind the check of `is_stopped`. -/
def lockTcp (op : TcpOperation) (s : Tcp api) : Locked × Tcp api :=
  match op with
  | .connected => (ofPoll (fun _ => .done) (pollConnected false s.socket), s)
  | .read n =>
    let (poll, socket) := pollRead api.tcp false s.socket n
    (ofPoll .bytes poll, { s with socket })
  | .write buf =>
    if !s.maySend then (.ready (.error (.io ⟨.brokenPipe, "broken pipe"⟩)), s)
    else if s.canSend then
      match s.sendSlice buf with
      | .error e => (.ready (.error (.io ⟨.other, e⟩)), s)
      | .ok (n, s) => (.ready (.ok (.written n)), s)
    else (.pending, s)
  | .flush => (if api.sendQueue s.tx = 0 then .ready (.ok .done) else .pending, s)
  | .shutdown =>
    if api.tcp.isOpen s.socket then (.unlocked, { s with socket := api.tcp.close s.socket }) else (settle s, s)

/-- The longest datagram `send_to` takes. -/
def sendLimit (mtu : Nat) (u : api.Udp) (target : SocketAddr) : Nat :=
  let headerSize := if target.isIpv4 then 28 else 48
  min (api.payloadSendCapacity u) (mtu - headerSize)

/-- `send_to` and `recv_from`, behind the check of `is_stopped`. -/
def lockUdp (mtu : Nat) (op : UdpOperation) (u : api.Udp) : Locked × api.Udp :=
  match op with
  | .sendTo buf target =>
    if buf.length > sendLimit mtu u target then
      (.ready (.error (.invalidInput "UDP 数据报超过设备 MTU 或发送缓冲容量")), u)
    else
      match api.sendSlice u buf target with
      | (.error .bufferFull, u) => (.pending, u)
      | (.error e, u) => (.ready (.error (.io ⟨.other, api.sendText e⟩)), u)
      | (.ok (), u) => (.ready (.ok (.written buf.length)), u)
  | .recvFrom n =>
    match api.recvSlice u n with
    | (.error .exhausted, u) => (.pending, u)
    | (.error e, u) => (.ready (.error (.io ⟨.other, api.recvText e⟩)), u)
    | (.ok (bytes, origin), u) => (.ready (.ok (.datagram bytes origin)), u)

end Locked

/-- The part of a poll with the table locked, for a socket of the right kind. -/
def lock {api : Sockets} (mtu : Nat) : Operation → AnySocket api → Option (Locked × AnySocket api)
  | .tcp op, .tcp s => some (Prod.map id .tcp (lockTcp op s))
  | .udp op, .udp u => some (Prod.map id .udp (lockUdp mtu op u))
  | _, _ => none

/-! ### The machine -/

/-- Where a call is. -/
inductive Phase where
  /-- Its task will poll it. -/
  | called
  /-- In a poll: `is_stopped` was false, and the table is not locked yet. -/
  | checked
  /-- In `poll_shutdown`: the socket is closed, and the table is not locked again yet. -/
  | closing
  /-- The last poll was `Pending`. -/
  | waiting
  | returned (outcome : Outcome)
  /-- The future is dropped. -/
  | dropped

/-- The call is neither over nor dropped. -/
def Phase.inFlight : Phase → Bool
  | returned _ | dropped => false
  | _ => true

def Phase.isWaiting : Phase → Bool
  | waiting => true
  | _ => false

/-- Where `is_stopped` is read before the table is locked. -/
def Phase.inPoll : Phase → Bool
  | checked | closing => true
  | _ => false

structure Call where
  handle : Nat
  operation : Operation
  phase : Phase

abbrev Call.side (call : Call) : Side := call.operation.side

/-- A socket with the calls that have registered their wakers. -/
structure Entry (api : Sockets) where
  socket : AnySocket api
  wakers : Side → Option Nat

/-- Why the netstack stops. -/
inductive Cause where
  /-- `Reactor::shutdown`. -/
  | shutdown
  /-- The task of the reactor has ended. -/
  | reactor (result : Except IoError Unit)

/-- The argument of `stop_sockets`. -/
def Cause.reason : Cause → String
  | shutdown => "IP netstack 已主动停止"
  | reactor (.ok ()) => "IP packet device 已结束"
  | reactor (.error e) => s!"IP netstack reactor 已停止: {e.msg}"

structure State (api : Sockets) where
  /-- The value of the watch channel `stopped`. -/
  reason : Option String
  /-- The calls of `stop_sockets` that have set the reason and not locked the table. -/
  stopping : Nat
  table : Nat → Option (Entry api)
  /-- All calls so far. -/
  calls : List Call

def State.initial (api : Sockets) : State api := ⟨none, 0, fun _ => none, []⟩

/-- What moves a call. -/
inductive Action where
  /-- A poll begins: `is_stopped` is read. -/
  | check
  /-- The table is locked. -/
  | lock
  /-- The task is polled for another reason. -/
  | repoll
  | cancel

inductive Event (api : Sockets) where
  /-- `stop_sockets`, up to the lock. -/
  | stop (cause : Cause)
  /-- The loop of `stop_sockets`. -/
  | sweep
  /-- `connect_tcp` and `new_udp`. -/
  | add (handle : Nat) (socket : AnySocket api)
  /-- A `SocketHandle` is dropped. -/
  | remove (handle : Nat)
  | call (handle : Nat) (operation : Operation)
  | act (i : Nat) (action : Action)
  /-- `Interface::poll` changes a socket and wakes some of its wakers. -/
  | device (handle : Nat) (socket : AnySocket api) (wakes : Side → Bool)

def Event.cause {api : Sockets} : Event api → Option Cause
  | stop cause => some cause
  | _ => none

variable {api : Sockets}

def Entry.register (entry : Entry api) (side : Side) (i : Nat) : Entry api :=
  { entry with wakers := fun side' => if side' = side then some i else entry.wakers side' }

def Entry.take (taken : Side → Bool) (entry : Entry api) : Entry api :=
  { entry with wakers := fun side => if taken side then none else entry.wakers side }

/-- What the lock leads to. -/
def Locked.next (i : Nat) (side : Side) (entry : Entry api) : Locked → Phase × Entry api
  | ready outcome => (.returned outcome, entry)
  | pending => (.waiting, entry.register side i)
  | unlocked => (.closing, entry)

/-- The call `i` on the socket of the entry. -/
def advance (mtu : Nat) (stopped : Bool) (i : Nat) (call : Call) (entry : Entry api) :
    Action → Option (Phase × Entry api)
  | .check =>
    match call.phase with
    | .called => some (if stopped then .returned call.operation.stopped else .checked, entry)
    | _ => none
  | .lock =>
    match call.phase with
    | .checked =>
      (lock mtu call.operation entry.socket).map fun r => r.1.next i call.side { entry with socket := r.2 }
    | .closing =>
      match call.operation, entry.socket with
      | .tcp .shutdown, .tcp s => some ((settle s).next i call.side entry)
      | _, _ => none
    | _ => none
  | .repoll =>
    match call.phase with
    | .waiting => some (.called, entry)
    | _ => none
  | .cancel =>
    match call.phase with
    | .called | .waiting => some (.dropped, entry)
    | _ => none

/-- The call `i` has its waker in the table. -/
def State.registered (s : State api) (i : Nat) (call : Call) : Bool :=
  match s.table call.handle with
  | some entry => entry.wakers call.side = some i
  | none => false

/-- A call after some wakers were called. -/
def State.woken (s : State api) (woken : Nat → Side → Bool) (i : Nat) (call : Call) : Call :=
  if call.phase.isWaiting && s.registered i call && woken call.handle call.side then { call with phase := .called }
  else call

/-- Wakers are taken from the table and called: the tasks will poll their calls again. -/
def State.wake (s : State api) (woken : Nat → Side → Bool) : State api :=
  { s with
    table := fun handle => (s.table handle).map (Entry.take (woken handle))
    calls := s.calls.mapIdx (s.woken woken) }

def Entry.stop (entry : Entry api) : Entry api := { entry with socket := entry.socket.stop }

/-- All sockets are stopped, and all wakers are called. -/
def State.stopAll (s : State api) : State api :=
  let s := s.wake fun _ _ => true
  { s with table := fun handle => (s.table handle).map Entry.stop }

/-- A call under way on the socket. -/
def State.busy (s : State api) (handle : Nat) : Bool :=
  s.calls.any fun call => call.phase.inFlight && call.handle = handle

def State.put (s : State api) (handle : Nat) (entry : Option (Entry api)) : State api :=
  { s with table := fun h => if h = handle then entry else s.table h }

theorem State.put_self (s : State api) (handle : Nat) (entry : Option (Entry api)) :
    (s.put handle entry).table handle = entry := if_pos rfl

theorem State.put_ne (s : State api) {handle handle' : Nat} (entry : Option (Entry api)) (h : handle ≠ handle') :
    (s.put handle' entry).table handle = s.table handle := if_neg h

/-- One step; `none` if it cannot be taken. -/
def step (mtu : Nat) (s : State api) : Event api → Option (State api)
  | .stop cause => some { s with reason := s.reason <|> some cause.reason, stopping := s.stopping + 1 }
  | .sweep =>
    match s.stopping with
    | 0 => none
    | stopping + 1 =>
      some { s.stopAll with stopping }
  | .add handle socket =>
    match s.table handle with
    | none => some (s.put handle (some ⟨socket, fun _ => none⟩))
    | some _ => none
  | .remove handle => if s.busy handle then none else some (s.put handle none)
  | .call handle operation =>
    match s.table handle with
    | some entry =>
      -- a stream is read and written by one task each, a datagram socket likewise
      if operation.fits entry.socket &&
          !s.calls.any fun call => call.phase.inFlight && call.handle = handle && call.side = operation.side then
        some { s with calls := s.calls ++ [⟨handle, operation, .called⟩] }
      else none
    | none => none
  | .act i action =>
    match s.calls[i]? with
    | some call =>
      match s.table call.handle with
      | some entry =>
        (advance mtu s.reason.isSome i call entry action).map fun r =>
          { s.put call.handle (some r.2) with calls := s.calls.set i { call with phase := r.1 } }
      | none => none
    | none => none
  | .device handle socket wakes =>
    match s.table handle with
    | some entry =>
      if entry.socket.mayBecome socket then
        some ((s.put handle (some { entry with socket })).wake fun h side => h = handle && wakes side)
      else none
    | none => none

/-! ### A closed socket -/

/-- A call that can be pending on a closed socket. -/
def Operation.strandable : Operation → Bool
  | tcp .flush | udp (.recvFrom _) => true
  | _ => false

/-- What a call returns on a closed socket: only a read, a flush and a shutdown can succeed. -/
def Aftermath (op : Operation) (outcome : Outcome) : Prop :=
  match op with
  | .tcp (.read _) | .tcp .flush => True
  | .tcp .shutdown => outcome = .ok .done
  | _ => ∃ e, outcome = .error e

theorem aftermath_stopped (op : Operation) : Aftermath op op.stopped := by
  rcases op with (_ | _ | _ | _ | _) | (_ | _) <;> simp [Aftermath, Operation.stopped]

/-- The locked part of a poll of a closed socket leaves it closed and ends the poll. -/
structure OnClosed (op : Operation) (r : Locked × AnySocket api) : Prop where
  closed : r.2.closed = true
  unlocked : r.1 ≠ .unlocked
  pending : r.1 = .pending → op.strandable = true
  ready : ∀ outcome, r.1 = .ready outcome → Aftermath op outcome

private theorem OnClosed.of_ready {op : Operation} {outcome : Outcome} {socket : AnySocket api}
    (h : socket.closed = true) (hafter : Aftermath op outcome) : OnClosed op (.ready outcome, socket) where
  closed := h
  unlocked := nofun
  pending := nofun
  ready _ heq := by
    cases heq
    exact hafter

theorem settle_closed {s : Tcp api} (h : s.socket.state = .closed) : settle s = .ready (.ok .done) := if_pos h

private theorem pollRead_closed {socket : Socket} (tcp : Smoltcp) (n : Nat) (h : socket.state = .closed) :
    ∃ result socket', pollRead tcp false socket n = (.ready result, socket') ∧ socket'.state = .closed := by
  unfold pollRead
  rw [tcp.mayRecv_eq, tcp.canRecv_eq, h]
  by_cases hrx : socket.rx = []
  · exact ⟨.ok [], socket, by simp [hrx, State.receiving], h⟩
  · exact ⟨.ok (socket.rx.take n), { socket with rx := socket.rx.drop n },
      by simp [hrx, tcp.recvSlice_eq _ n hrx], h⟩

private theorem lockTcp_closed (op : TcpOperation) {s : Tcp api} (h : s.socket.state = .closed) :
    OnClosed (.tcp op) (Prod.map id AnySocket.tcp (lockTcp op s)) := by
  have hs : (AnySocket.tcp s).closed = true := by simpa [AnySocket.closed] using h
  cases op with
  | connected =>
    have hpoll : lockTcp .connected s = (.ready (.error (.io ⟨.connectionAborted, "TCP 连接建立失败"⟩)), s) := by
      simp [lockTcp, pollConnected, h, ofPoll]
    rw [hpoll]
    exact .of_ready hs ⟨_, rfl⟩
  | read n =>
    obtain ⟨result, socket, hpoll, hstate⟩ := pollRead_closed api.tcp n h
    have hlock : lockTcp (.read n) s = (ofPoll .bytes (.ready result), { s with socket }) := by simp [lockTcp, hpoll]
    rw [hlock]
    cases result <;> exact .of_ready (by simpa [AnySocket.closed] using hstate) trivial
  | write buf =>
    have hpoll : lockTcp (.write buf) s = (.ready (.error (.io ⟨.brokenPipe, "broken pipe"⟩)), s) := by
      simp [lockTcp, Tcp.maySend, sending, h]
    rw [hpoll]
    exact .of_ready hs ⟨_, rfl⟩
  | flush =>
    by_cases hqueue : api.sendQueue s.tx = 0
    · have hpoll : lockTcp .flush s = (.ready (.ok .done), s) := by simp [lockTcp, hqueue]
      rw [hpoll]
      exact .of_ready hs trivial
    · have hpoll : lockTcp .flush s = (.pending, s) := by simp [lockTcp, hqueue]
      rw [hpoll]
      exact ⟨hs, nofun, fun _ => rfl, nofun⟩
  | shutdown =>
    have hopen : api.tcp.isOpen s.socket = false := by
      rw [← Bool.not_eq_true, api.tcp.isOpen_iff]
      exact fun hopen => hopen.1 h
    have hpoll : lockTcp .shutdown s = (.ready (.ok .done), s) := by simp [lockTcp, hopen, settle_closed h]
    rw [hpoll]
    exact .of_ready hs rfl

private theorem lockUdp_closed (mtu : Nat) (op : UdpOperation) {u : api.Udp} (h : api.isOpen u = false) :
    OnClosed (.udp op) (Prod.map id AnySocket.udp (lockUdp mtu op u)) := by
  cases op with
  | sendTo buf target =>
    by_cases hlimit : buf.length > sendLimit mtu u target
    · have hpoll : lockUdp mtu (.sendTo buf target) u =
          (.ready (.error (.invalidInput "UDP 数据报超过设备 MTU 或发送缓冲容量")), u) := by
        simp [lockUdp, hlimit]
      rw [hpoll]
      exact .of_ready (by simpa [AnySocket.closed] using h) ⟨_, rfl⟩
    · have hsend : api.sendSlice u buf target = (.error .unaddressable, (api.sendSlice u buf target).2) :=
        Prod.ext (api.sendSlice_unbound u buf target h) rfl
      have hopen := (api.isOpen_sendSlice u buf target).trans h
      rw [lockUdp, if_neg hlimit, hsend]
      exact .of_ready (by simpa [AnySocket.closed] using hopen) ⟨_, rfl⟩
  | recvFrom n =>
    have hrecv : api.recvSlice u n = (.error .exhausted, (api.recvSlice u n).2) :=
      Prod.ext (api.recvSlice_unbound u n h) rfl
    have hopen := (api.isOpen_recvSlice u n).trans h
    rw [lockUdp, hrecv]
    exact ⟨by simpa [AnySocket.closed] using hopen, nofun, fun _ => rfl, nofun⟩

theorem lock_closed {mtu : Nat} {op : Operation} {socket : AnySocket api} {r : Locked × AnySocket api}
    (h : lock mtu op socket = some r) (hclosed : socket.closed = true) : OnClosed op r := by
  cases op with
  | tcp op =>
    cases socket with
    | tcp s =>
      cases h
      exact lockTcp_closed op (by simpa [AnySocket.closed] using hclosed)
    | udp u => cases h
  | udp op =>
    cases socket with
    | tcp s => cases h
    | udp u =>
      cases h
      exact lockUdp_closed mtu op (by simpa [AnySocket.closed] using hclosed)

theorem fits_lock {mtu : Nat} {op : Operation} {socket : AnySocket api} {r : Locked × AnySocket api}
    (h : lock mtu op socket = some r) : op.fits r.2 = true := by
  cases op <;> cases socket <;> cases h <;> rfl

end WarpSocks.Netstack.Stop
