import WarpSocks.Io
import WarpSocks.Machine.Tasks
import WarpSocks.Machine.Trace
import WarpSocks.Net
import WarpSocks.Sync.Semaphore
import WarpSocks.Sync.Watch

/-!
# Listeners and connection tasks

`serve_managed` and `accept_loop`: the listeners share the permits for connections and each accepted client gets a
task.  A task waits until the supervisor has published an egress, dispatches the client over it, and ends when the
channel changes. The supervisor, the listeners and the tasks run side by side; a task may be interrupted between
any two of its steps.
-/

namespace WarpSocks.Mixed

def MAX_CONNECTIONS : Nat := 64

/-! ### Addresses -/

inductive ListenMode where
  | auto (port : UInt16)
  | explicit (addrs : List SocketAddr)

/-- The addresses `bind_listeners` binds, with `lan_only`. -/
def bindListeners : ListenMode → List (SocketAddr × Bool)
  | .auto port =>
    [(SocketAddr.new (.v4 ⟨List.replicate 4 0, rfl⟩) port, true),
      (SocketAddr.new (.v6 ⟨List.replicate 16 0, rfl⟩) port, true)]
  | .explicit addrs => addrs.map fun addr => (addr, false)

/-- The first two bytes of an address. -/
private def head (bytes : List UInt8) : Nat × Nat := ((bytes.getD 0 0).toNat, (bytes.getD 1 0).toNat)

/-- Loopback, private or link-local, for IPv6 loopback, unique local or unicast link-local. -/
def isLanAddress : IpAddr → Bool
  | .v4 ⟨bytes, _⟩ =>
    match head bytes with
    | (127, _) => true
    | (10, _) => true
    | (172, b) => 16 ≤ b ∧ b ≤ 31
    | (192, 168) => true
    | (169, 254) => true
    | _ => false
  | .v6 ⟨bytes, _⟩ =>
    bytes = List.replicate 15 0 ++ [1] ∨ (head bytes).1 &&& 0xfe = 0xfc ∨
      (head bytes).1 = 0xfe ∧ (head bytes).2 &&& 0xc0 = 0x80

/-- An error of one connection, not of the listener. -/
def isConnectionError : ErrorKind → Bool
  | .connectionRefused | .connectionAborted | .connectionReset => true
  | _ => false

/-! ### Tasks -/

/-- What `dispatch` is given: an egress of the supervisor, or `Unavailable`. -/
inductive Egress (O : Type) where
  | outbound (o : O)
  | unavailable
  deriving DecidableEq

inductive Protocol where
  | socks5
  | socks4
  | http
  deriving DecidableEq

/-- The handler `dispatch` calls for the first byte of the client. -/
def Protocol.ofFirstByte (byte : UInt8) : Protocol :=
  if byte = 0x05 then .socks5 else if byte = 0x04 then .socks4 else .http

/-- Where a task is. -/
inductive Phase (O : Type) where
  /-- Before `borrow_and_update`. -/
  | check
  /-- In `state.changed()`, under the timeout `RECOVERY_WAIT`. -/
  | waiting
  /-- With an egress, before the `select!`. -/
  | ready (outbound : O)
  /-- Without one, before the `select!`. -/
  | failed
  /-- In the `select!`; the protocol is known once the first byte is there. -/
  | dispatching (egress : Egress O) (protocol : Option Protocol)
  /-- Ended, with its permit back. -/
  | done
  deriving DecidableEq

/-- A task, with the version its receiver has seen and what its handler has connected over. -/
structure Task (O : Type) where
  peer : IpAddr
  seen : Nat
  phase : Phase O
  used : List (Egress O)

inductive ListenerPhase where
  | accepting
  /-- In `sleep(ACCEPT_ERROR_BACKOFF)`. -/
  | backoff
  /-- With a permit, before the task is spawned. -/
  | admitted (peer : IpAddr)
  deriving DecidableEq

structure Listener where
  listenAddr : SocketAddr
  lanOnly : Bool
  seen : Nat
  phase : ListenerPhase

structure State (O : Type) where
  channel : Sync.Watch (Option O)
  permits : Sync.Semaphore MAX_CONNECTIONS
  listeners : List Listener
  tasks : List (Task O)

variable {O : Type}

/-- `serve_managed` after `bind_listeners`. -/
def State.initial (mode : ListenMode) (value : Option O) : State O where
  channel := .new value
  permits := .new
  listeners := (bindListeners mode).map fun (listenAddr, lanOnly) => ⟨listenAddr, lanOnly, 0, .accepting⟩
  tasks := []

def State.setTask (s : State O) (i : Nat) (t : Task O) : State O := { s with tasks := s.tasks.set i t }

def State.setListener (s : State O) (l : Nat) (listener : Listener) : State O :=
  { s with listeners := s.listeners.set l listener }

/-- The task ends and drops its permit. -/
def State.finish (s : State O) (i : Nat) (t : Task O) : State O :=
  { s.setTask i { t with phase := .done } with permits := s.permits.release 1 }

inductive TaskStep where
  | borrow
  /-- `state.changed()` returns. -/
  | changed
  | timeout
  /-- The `select!` starts. -/
  | start
  /-- `client.peek` returns. -/
  | peek (byte : Option UInt8)
  /-- The handler uses the egress it was given. -/
  | use
  /-- `dispatch` returns. -/
  | finished
  | abort
  deriving DecidableEq

def taskStep (s : State O) (i : Nat) (t : Task O) : TaskStep → Option (State O)
  | .borrow =>
    match t.phase, s.channel.borrowAndUpdate with
    | .check, (some outbound, seen) => some (s.setTask i { t with seen, phase := .ready outbound })
    | .check, (none, seen) => some (s.setTask i { t with seen, phase := .waiting })
    | _, _ => none
  | .changed =>
    match t.phase, s.channel.changed t.seen with
    | .waiting, .changed seen => some (s.setTask i { t with seen, phase := .check })
    | .waiting, .closed => some (s.setTask i { t with phase := .failed })
    | .dispatching _ _, .changed _ | .dispatching _ _, .closed => some (s.finish i t)
    | _, _ => none
  | .timeout =>
    match t.phase with
    | .waiting => some (s.setTask i { t with phase := .failed })
    -- only the reply of `Unavailable` is under `HANDSHAKE_TIMEOUT` here
    | .dispatching .unavailable _ => some (s.finish i t)
    | _ => none
  | .start =>
    match t.phase with
    | .ready outbound => some (s.setTask i { t with phase := .dispatching (.outbound outbound) none })
    | .failed => some (s.setTask i { t with phase := .dispatching .unavailable none })
    | _ => none
  | .peek byte =>
    match t.phase, byte with
    | .dispatching _ none, none => some (s.finish i t)
    | .dispatching egress none, some byte =>
      some (s.setTask i { t with phase := .dispatching egress (some (.ofFirstByte byte)) })
    | _, _ => none
  | .use =>
    match t.phase with
    | .dispatching egress (some _) => some (s.setTask i { t with used := t.used ++ [egress] })
    | _ => none
  | .finished =>
    match t.phase with
    | .dispatching _ _ => some (s.finish i t)
    | _ => none
  | .abort =>
    match t.phase with
    | .done => none
    | _ => some (s.finish i t)

inductive ListenerStep where
  /-- `listener.accept()` returns. -/
  | accept (result : Except ErrorKind IpAddr)
  /-- The backoff is over. -/
  | retry
  | spawn

def listenerStep (s : State O) (l : Nat) (listener : Listener) : ListenerStep → Option (State O)
  | .accept result =>
    match listener.phase, result with
    | .accepting, .error kind =>
      if isConnectionError kind then some s else some (s.setListener l { listener with phase := .backoff })
    | .accepting, .ok peer =>
      if listener.lanOnly && !isLanAddress peer then some s
      else
        match s.permits.tryAcquire 1 with
        | none => some s
        | some permits => some { s.setListener l { listener with phase := .admitted peer } with permits }
    | _, _ => none
  | .retry =>
    match listener.phase with
    | .backoff => some (s.setListener l { listener with phase := .accepting })
    | _ => none
  | .spawn =>
    match listener.phase with
    | .admitted peer =>
      -- the receiver is cloned with the version it has seen
      some { s.setListener l { listener with phase := .accepting } with
        tasks := s.tasks ++ [⟨peer, listener.seen, .check, []⟩] }
    | _ => none

inductive Event (O : Type) where
  /-- `send_replace` of the supervisor. -/
  | publish (value : Option O)
  /-- The sender is dropped. -/
  | close
  | listener (l : Nat) (step : ListenerStep)
  | task (i : Nat) (step : TaskStep)

def step (s : State O) : Event O → Option (State O)
  | .publish value => some { s with channel := s.channel.send value }
  | .close => some { s with channel := s.channel.close }
  | .listener l st => s.listeners[l]?.bind fun listener => listenerStep s l listener st
  | .task i st => s.tasks[i]?.bind fun t => taskStep s i t st

end WarpSocks.Mixed
