import WarpSocks.Machine.Tasks
import WarpSocks.Machine.Trace
import WarpSocks.Socks5.Udp
import WarpSocks.Sync.Semaphore
import WarpSocks.Table.Entries

/-!
# The egress of UDP associations

`UdpEgressSet`: one worker task for each target of an association, fed by a bounded queue, with the replies of all
of them in one bounded queue.  Two semaphores of the process limit the workers and the bytes of the datagrams that
are held.  The associations and the workers run side by side, so a `send` is a sequence of steps between which the
workers go on: a worker may end between any two of them.
-/

namespace WarpSocks.Socks5

def MAX_UDP_TARGETS_PER_ASSOCIATION : Nat := 64

def UDP_TARGET_CHANNEL_CAPACITY : Nat := 32

def UDP_REPLY_CHANNEL_CAPACITY : Nat := 64

def UDP_QUEUE_BYTES : Nat := 8 * 1024 * 1024

def UDP_WORKERS : Nat := 128

namespace Egress

/-- The payload of a datagram: the buffers of the callers have 64 KiB. -/
abbrev Payload := { bytes : List UInt8 // bytes.length ≤ 65536 }

/-- The permits of `UDP_QUEUE_BYTES` that come with a datagram. -/
def Payload.size (payload : Payload) : Nat := payload.val.length

/-- Where a worker is. -/
inductive Phase where
  /-- In `establish_egress`. -/
  | establishing
  /-- In `run_udp_egress`, waiting for a datagram from either side. -/
  | waiting
  /-- In `egress.send`. -/
  | forwarding (payload : Payload)
  /-- In `replies.send`. -/
  | replying (payload : Payload)
  /-- Its receiver is dropped, its permit is not. -/
  | closing
  | gone

/-- A worker task, with the datagrams it has passed to `egress.send`. -/
structure Worker where
  association : Nat
  target : SocketAddrOrName
  queue : List Payload
  phase : Phase
  forwarded : List Payload

/-- The receiver of the queue is dropped. -/
def Worker.closed (w : Worker) : Bool :=
  match w.phase with
  | .closing | .gone => true
  | _ => false

/-- How far a call of `send` has come. -/
inductive Stage where
  | idle
  /-- Before `UDP_QUEUE_BYTES.try_acquire_many`. -/
  | budget (target : SocketAddrOrName) (payload : Payload)
  /-- With the budget, before the route is used. -/
  | route (target : SocketAddrOrName) (payload : Payload)
  /-- Without a route, before a worker is spawned. -/
  | spawn (target : SocketAddrOrName) (payload : Payload)
  /-- With a new worker, before the first datagram is enqueued. -/
  | enqueue (target : SocketAddrOrName) (payload : Payload) (worker : Nat)

/-- `UdpEgressSet`, with the replies that `recv` has returned and its caller has not dropped. -/
structure EgressSet where
  routes : Finmap fun _ : SocketAddrOrName => Nat
  replies : List Payload
  sending : Stage
  inHand : List Payload
  dropped : Bool

/-- `UdpEgressSet::new`. -/
def EgressSet.new : EgressSet := ⟨∅, [], .idle, [], false⟩

/-- All the associations and workers of the process. -/
structure State where
  queueBytes : Sync.Semaphore UDP_QUEUE_BYTES
  workerPermits : Sync.Semaphore UDP_WORKERS
  sets : List EgressSet
  workers : List Worker

def State.initial : State := ⟨.new, .new, [], []⟩

/-- The outcome of `try_send` on the queue of a worker. -/
inductive TrySend where
  | sent (w : Worker)
  | full
  | closed

def State.trySend (s : State) (worker : Nat) (payload : Payload) : TrySend :=
  match s.workers[worker]? with
  | none => .closed
  | some w =>
    if w.closed then .closed
    else if w.queue.length < UDP_TARGET_CHANNEL_CAPACITY then .sent { w with queue := w.queue ++ [payload] }
    else .full

/-- The route's sender is closed. -/
def State.isClosed (s : State) (worker : Nat) : Bool :=
  match s.workers[worker]? with
  | none => true
  | some w => w.closed

/-- `prune`. -/
def State.prune (s : State) (set : EgressSet) : EgressSet :=
  { set with routes := set.routes.retain fun _ worker => !s.isClosed worker }

/-- The association goes on. -/
def State.setSet (s : State) (a : Nat) (set : EgressSet) : State := { s with sets := s.sets.set a set }

/-- The worker goes on. -/
def State.setWorker (s : State) (i : Nat) (w : Worker) : State := { s with workers := s.workers.set i w }

/-- Datagrams are dropped, and their budget with them. -/
def State.release (s : State) (n : Nat) : State := { s with queueBytes := s.queueBytes.release n }

/-- The next step of a `send`. -/
def sendStep (s : State) (a : Nat) (set : EgressSet) : Option State :=
  match set.sending with
  | .idle => none
  | .budget target payload =>
    match s.queueBytes.tryAcquire payload.size with
    | none => some (s.setSet a { set with sending := .idle })
    | some queueBytes => some { s.setSet a { set with sending := .route target payload } with queueBytes }
  | .route target payload =>
    match set.routes.lookup target with
    | none => some (s.setSet a { set with sending := .spawn target payload })
    | some worker =>
      match s.trySend worker payload with
      | .sent w => some ((s.setSet a { set with sending := .idle }).setWorker worker w)
      | .full => some ((s.setSet a { set with sending := .idle }).release payload.size)
      | .closed =>
        some (s.setSet a { set with routes := set.routes.erase target, sending := .spawn target payload })
  | .spawn target payload =>
    if MAX_UDP_TARGETS_PER_ASSOCIATION ≤ set.routes.size then
      some ((s.setSet a { set with sending := .idle }).release payload.size)
    else
      match s.workerPermits.tryAcquire 1 with
      | none => some ((s.setSet a { set with sending := .idle }).release payload.size)
      | some workerPermits =>
        some { s.setSet a { set with sending := .enqueue target payload s.workers.length } with
          workerPermits
          workers := s.workers ++ [⟨a, target, [], .establishing, []⟩] }
  | .enqueue target payload worker =>
    match s.trySend worker payload with
    | .sent w =>
      some ((s.setSet a { set with routes := set.routes.insert target worker, sending := .idle }).setWorker worker w)
    -- the worker has ended already
    | _ => some ((s.setSet a { set with sending := .idle }).release payload.size)

/-- The steps of a worker. -/
inductive WorkerStep where
  /-- The channel to the target is there. -/
  | established
  /-- `sends.recv` returns the next datagram. -/
  | take
  /-- `egress.send` succeeds. -/
  | sent
  /-- `egress.recv` returns a datagram. -/
  | received (payload : Payload)
  /-- `replies.send` succeeds. -/
  | replied
  /-- The establishment fails or times out, an operation fails or times out, a channel is closed, or the task is
  aborted. -/
  | exit
  /-- The rest of the task is dropped. -/
  | finish

/-- The bytes of the datagram of the current operation. -/
def Phase.held : Phase → Nat
  | .forwarding payload | .replying payload => payload.size
  | _ => 0

/-- The bytes a worker holds, in its queue and in its current operation. -/
def Worker.held (w : Worker) : Nat := (w.queue.map Payload.size).sum + w.phase.held

/-- The bytes of the datagram of a `send`. -/
def Stage.held : Stage → Nat
  | .route _ payload | .spawn _ payload | .enqueue _ payload _ => payload.size
  | _ => 0

/-- The bytes in the hands of an association: of a `send`, and of replies that are being relayed. -/
def EgressSet.handling (set : EgressSet) : Nat := set.sending.held + (set.inHand.map Payload.size).sum

/-- The bytes in the queue of the replies. -/
def EgressSet.queued (set : EgressSet) : Nat := (set.replies.map Payload.size).sum

def workerStep (s : State) (i : Nat) (w : Worker) : WorkerStep → Option State
  | .established =>
    match w.phase with
    | .establishing => some (s.setWorker i { w with phase := .waiting })
    | _ => none
  | .take =>
    match w.phase, w.queue with
    | .waiting, payload :: queue =>
      some (s.setWorker i { w with queue, phase := .forwarding payload, forwarded := w.forwarded ++ [payload] })
    | _, _ => none
  | .sent =>
    match w.phase with
    | .forwarding payload => some ((s.setWorker i { w with phase := .waiting }).release payload.size)
    | _ => none
  | .received payload =>
    match w.phase with
    | .waiting =>
      match s.queueBytes.tryAcquire payload.size with
      | none => some s
      | some queueBytes => some { s.setWorker i { w with phase := .replying payload } with queueBytes }
    | _ => none
  | .replied =>
    match w.phase, s.sets[w.association]? with
    | .replying payload, some set =>
      if !set.dropped && decide (set.replies.length < UDP_REPLY_CHANNEL_CAPACITY) then
        some ((s.setWorker i { w with phase := .waiting }).setSet w.association
          { set with replies := set.replies ++ [payload] })
      else none
    | _, _ => none
  | .exit =>
    if w.closed then none else some ((s.setWorker i { w with queue := [], phase := .closing }).release w.held)
  | .finish =>
    match w.phase with
    | .closing => some { s.setWorker i { w with phase := .gone } with workerPermits := s.workerPermits.release 1 }
    | _ => none

/-- The steps of an association. -/
inductive SetStep where
  | send (target : SocketAddrOrName) (payload : Payload)
  /-- The `send` goes on. -/
  | sendStep
  | prune
  | recv
  /-- The caller of `recv` drops a reply. -/
  | relayed
  | drop

inductive Event where
  | newAssociation
  | association (a : Nat) (step : SetStep)
  | worker (i : Nat) (step : WorkerStep)

/-- An association that has not been dropped and is not in a `send`. -/
def EgressSet.ready (set : EgressSet) : Bool :=
  match set.sending with
  | .idle => !set.dropped
  | _ => false

def setStep (s : State) (a : Nat) (set : EgressSet) : SetStep → Option State
  | .send target payload =>
    if set.ready then some (s.setSet a { s.prune set with sending := .budget target payload }) else none
  | .sendStep => Egress.sendStep s a set
  | .prune => if set.ready then some (s.setSet a (s.prune set)) else none
  | .recv =>
    match set.replies with
    | payload :: replies =>
      if set.ready then some (s.setSet a { set with replies, inHand := set.inHand ++ [payload] }) else none
    | [] => none
  | .relayed =>
    match set.inHand with
    | payload :: inHand => some ((s.setSet a { set with inHand }).release payload.size)
    | [] => none
  | .drop =>
    if set.ready then
      some ((s.setSet a { set with routes := ∅, replies := [], inHand := [], dropped := true }).release
        (set.queued + set.handling))
    else none

def step (s : State) : Event → Option State
  | .newAssociation => some { s with sets := s.sets ++ [.new] }
  | .association a st => s.sets[a]?.bind fun set => setStep s a set st
  | .worker i st => s.workers[i]?.bind fun w => workerStep s i w st

end Egress

end WarpSocks.Socks5
