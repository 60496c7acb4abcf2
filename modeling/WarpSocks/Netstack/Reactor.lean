import WarpSocks.Machine.Trace
import WarpSocks.Netstack.TcpStream
import WarpSocks.Sync.Notify

/-!
# The reactor of the netstack

`BufferDevice`, `poll_send_packets` and `run_reactor` of `netstack.rs`.  The device and the IP stack are given
from outside: a device answers every call as it likes and may change between two calls, and in one
`Interface::poll` the IP stack takes and consumes tokens in any order.  The reactor is a task that is polled when
something has scheduled it; the application calls `Reactor::wake` at any time.
-/

namespace WarpSocks.Netstack.Reactor

abbrev Packet := List UInt8

/-! ### The buffered device -/

/-- `usize::saturating_add(1)`. -/
def saturatingSucc (n : UInt64) : UInt64 := if n.toNat + 1 < UInt64.size then n + 1 else n

/-- `BufferDevice`, with the oldest packet first in both queues. -/
structure BufferDevice where
  maxBurstSize : UInt64
  recvQueue : List Packet
  sendQueue : List Packet
  droppedTx : UInt64

namespace BufferDevice

/-- `BufferDevice::new` for the `max_burst_size` of the capabilities. -/
def new (maxBurstSize : Option UInt64) : BufferDevice :=
  ⟨maxBurstSize.getD (UInt64.ofNat defaultMaxBurstSize), [], [], 0⟩

/-- There is room in the send queue. -/
def canSend (b : BufferDevice) : Bool := b.sendQueue.length < b.maxBurstSize.toNat

/-- `BufferTxToken::consume`, for the packet the IP stack has written. -/
def consume (b : BufferDevice) (packet : Packet) : BufferDevice :=
  if b.canSend then { b with sendQueue := b.sendQueue ++ [packet] }
  else { b with droppedTx := saturatingSucc b.droppedTx }

end BufferDevice

/-! ### The IP stack -/

/-- What the IP stack does with the device in `Interface::poll`. -/
inductive IpAction where
  /-- `receive`: the receive token is consumed or not, the transmit token that comes with it with a response or
  not. -/
  | receive (read : Bool) (response : Option Packet)
  /-- `transmit`: the token is consumed or not. -/
  | transmit (packet : Option Packet)

/-- What has passed between the IP stack and the buffered device. -/
structure Traffic where
  delivered : List Packet
  accepted : List Packet
  /-- The transmit tokens consumed. -/
  consumed : Nat
  /-- The sum of what was taken from `dropped_tx`. -/
  recorded : Nat

def Traffic.none : Traffic := ⟨[], [], 0, 0⟩

/-- A transmit token is consumed with the packet, if there is one. -/
def transmit (b : BufferDevice) (t : Traffic) : Option Packet → BufferDevice × Traffic
  | none => (b, t)
  | some packet =>
    (b.consume packet,
      { t with consumed := t.consumed + 1, accepted := if b.canSend then t.accepted ++ [packet] else t.accepted })

def ipAct : BufferDevice × Traffic → IpAction → BufferDevice × Traffic
  | (b, t), .receive read response =>
    match b.recvQueue with
    | [] => (b, t)
    | packet :: recvQueue =>
      transmit { b with recvQueue }
        { t with delivered := if read then t.delivered ++ [packet] else t.delivered } response
  | (b, t), .transmit packet => if b.canSend then transmit b t packet else (b, t)

/-- `Interface::poll`. -/
def interfacePoll (b : BufferDevice) (t : Traffic) (actions : List IpAction) : BufferDevice × Traffic :=
  actions.foldl ipAct (b, t)

/-! ### The device -/

/-- A packet device: a sink and a stream of packets. -/
structure AsyncDevice (D : Type) where
  pollReady : D → D × Poll (Except IoError Unit)
  startSend : D → Packet → D × Except IoError Unit
  pollFlush : D → D × Poll (Except IoError Unit)
  pollNext : D → D × Poll (Option (Except IoError Packet))

/-- The calls of the device. -/
inductive Call where
  | pollReady
  | startSend (packet : Packet)
  | pollFlush
  | pollNext (result : Poll (Option (Except IoError Packet)))
  deriving DecidableEq

variable {D : Type} (dev : AsyncDevice D)

structure SendPoll (D : Type) where
  device : D
  packets : List Packet
  calls : List Call
  result : Poll (Except IoError Unit)

/-- `poll_send_packets`. -/
def pollSendPackets : D → List Packet → SendPoll D
  | d, [] =>
    match dev.pollFlush d with
    | (d, result) => ⟨d, [], [.pollFlush], result⟩
  | d, packet :: packets =>
    match dev.pollReady d with
    | (d, .pending) => ⟨d, packet :: packets, [.pollReady], .pending⟩
    | (d, .ready (.error e)) => ⟨d, packet :: packets, [.pollReady], .ready (.error e)⟩
    | (d, .ready (.ok ())) =>
      match dev.startSend d packet with
      | (d, .error e) => ⟨d, packets, [.pollReady, .startSend packet], .ready (.error e)⟩
      | (d, .ok ()) =>
        let rest := pollSendPackets d packets
        { rest with calls := .pollReady :: .startSend packet :: rest.calls }

structure RecvPoll (D : Type) where
  device : D
  recvQueue : List Packet
  calls : List Call
  /-- An error, or whether the stream has ended. -/
  result : Except IoError Bool

/-- The receive loop of `run_reactor`, with room for so many packets in the queue. -/
def pollReceive : Nat → D → List Packet → RecvPoll D
  | 0, d, queue => ⟨d, queue, [], .ok false⟩
  | room + 1, d, queue =>
    match dev.pollNext d with
    | (d, .ready (some (.ok packet))) =>
      let rest := pollReceive room d (queue ++ [packet])
      { rest with calls := .pollNext (.ready (some (.ok packet))) :: rest.calls }
    | (d, .ready (some (.error e))) => ⟨d, queue, [.pollNext (.ready (some (.error e)))], .error e⟩
    | (d, .ready none) => ⟨d, queue, [.pollNext (.ready none)], .ok true⟩
    | (d, .pending) => ⟨d, queue, [.pollNext .pending], .ok false⟩

/-- The part of a poll that is about the device. -/
structure DevicePoll (D : Type) where
  device : D
  buffered : BufferDevice
  calls : List Call
  result : Except IoError Bool

def pollDevice (d : D) (b : BufferDevice) : DevicePoll D :=
  let send := pollSendPackets dev d b.sendQueue
  let b := { b with sendQueue := send.packets }
  match send.result with
  | .ready (.error e) => ⟨send.device, b, send.calls, .error e⟩
  -- `Pending` does not return early
  | _ =>
    let recv := pollReceive dev (b.maxBurstSize.toNat - b.recvQueue.length) send.device b.recvQueue
    ⟨recv.device, { b with recvQueue := recv.recvQueue }, send.calls ++ recv.calls, recv.result⟩

/-! ### The reactor -/

inductive ReactorWake where
  | device
  | notify
  | timer
  deriving DecidableEq

inductive Phase where
  /-- At the head of the loop. -/
  | top
  /-- In the `poll_fn`, before the device is polled. -/
  | device (canTransmit : Bool)
  /-- In the `poll_fn`, before `notified` is polled. -/
  | notified (canTransmit : Bool)
  /-- In the `poll_fn`, before the timer is polled. -/
  | timer (canTransmit : Bool)
  /-- The `poll_fn` has returned `Pending`. -/
  | parked (canTransmit : Bool)
  /-- Behind the `poll_fn`, before `Interface::poll`. -/
  | woken (wake : ReactorWake) (streamEnded : Bool)
  /-- In `yield_now`. -/
  | yielding
  | stopped (result : Except IoError Unit)

structure State (D : Type) where
  device : D
  buffered : BufferDevice
  notify : Sync.Notify
  /-- The executor has the task in its queue. -/
  scheduled : Bool
  phase : Phase
  calls : List Call
  traffic : Traffic

def State.initial (d : D) (maxBurstSize : Option UInt64) : State D :=
  ⟨d, .new maxBurstSize, .new, false, .top, [], .none⟩

inductive Event (D : Type) where
  /-- A delay is chosen and `timer` and `notified` are made. -/
  | enter
  | pollDevice
  | pollNotified
  | pollTimer (elapsed : Bool)
  /-- The executor polls the task. -/
  | run
  | interfacePoll (actions : List IpAction)
  /-- `Reactor::wake`, at the end of an operation of the application on a socket. -/
  | wake
  /-- The waker of the task is called by the device, the timer or the stopper. -/
  | schedule
  /-- The device changes by itself. -/
  | change (d : D)
  /-- `Reactor::shutdown`, or the reactor is dropped. -/
  | stop

/-- After the device was polled. -/
def State.devicePolled (s : State D) : State D :=
  let poll := Reactor.pollDevice dev s.device s.buffered
  { s with device := poll.device, buffered := poll.buffered, calls := s.calls ++ poll.calls }

/-- After `Interface::poll`, when `dropped_tx` is taken. -/
def State.interfacePolled (s : State D) (actions : List IpAction) : State D :=
  let (buffered, traffic) := interfacePoll s.buffered s.traffic actions
  { s with
    buffered := { buffered with droppedTx := 0 }
    traffic := { traffic with recorded := traffic.recorded + buffered.droppedTx.toNat } }

def step (s : State D) : Event D → Option (State D)
  | .enter =>
    match s.phase with
    | .top => some { s with notify := s.notify.start, phase := .device s.buffered.canSend }
    | _ => none
  | .pollDevice =>
    match s.phase, (Reactor.pollDevice dev s.device s.buffered).result with
    | .device _, .error e => some { s.devicePolled dev with phase := .stopped (.error e) }
    | .device canTransmit, .ok streamEnded =>
      let queued := s.buffered.sendQueue.length
      let s := s.devicePolled dev
      if streamEnded || !s.buffered.recvQueue.isEmpty || decide (s.buffered.sendQueue.length ≠ queued) then
        some { s with phase := .woken .device streamEnded }
      else some { s with phase := .notified canTransmit }
    | _, _ => none
  | .pollNotified =>
    match s.phase, s.notify.poll with
    | .notified _, (true, notify) => some { s with notify, phase := .woken .notify false }
    | .notified canTransmit, (false, notify) => some { s with notify, phase := .timer canTransmit }
    | _, _ => none
  | .pollTimer elapsed =>
    match s.phase with
    | .timer canTransmit =>
      if canTransmit && elapsed then some { s with phase := .woken .timer false }
      else some { s with phase := .parked canTransmit }
    | _ => none
  | .run =>
    match s.phase, s.scheduled with
    | .parked canTransmit, true => some { s with scheduled := false, phase := .device canTransmit }
    -- the futures of the iteration are dropped behind `yield_now`
    | .yielding, true => some { s with scheduled := false, notify := s.notify.drop, phase := .top }
    | _, _ => none
  | .interfacePoll actions =>
    match s.phase with
    | .woken _ true => some { s.interfacePolled actions with phase := .stopped (.ok ()) }
    | .woken _ false => some { s.interfacePolled actions with scheduled := true, phase := .yielding }
    | _ => none
  | .wake => some { s with notify := s.notify.notifyOne, scheduled := s.scheduled || decide (s.notify = .waiting) }
  | .schedule => some { s with scheduled := true }
  | .change device => some { s with device }
  | .stop =>
    match s.phase with
    | .top | .parked _ | .yielding => some { s with phase := .stopped (.ok ()) }
    | _ => none

/-- The steps of the reactor as a relation: the cases of `step` that are not `none`. -/
inductive Steps (s : State D) : Event D → State D → Prop where
  | enter (hphase : s.phase = .top) :
    Steps s .enter { s with notify := s.notify.start, phase := .device s.buffered.canSend }
  | fail {canTransmit : Bool} {e : IoError} (hphase : s.phase = .device canTransmit) :
    Steps s .pollDevice { s.devicePolled dev with phase := .stopped (.error e) }
  | progress {canTransmit streamEnded : Bool} (hphase : s.phase = .device canTransmit) :
    Steps s .pollDevice { s.devicePolled dev with phase := .woken .device streamEnded }
  | quiet {canTransmit : Bool} (hphase : s.phase = .device canTransmit) :
    Steps s .pollDevice { s.devicePolled dev with phase := .notified canTransmit }
  | notified {canTransmit : Bool} {notify : Sync.Notify} (hphase : s.phase = .notified canTransmit)
    (hpoll : s.notify.poll = (true, notify)) :
    Steps s .pollNotified { s with notify, phase := .woken .notify false }
  | wait {canTransmit : Bool} {notify : Sync.Notify} (hphase : s.phase = .notified canTransmit)
    (hpoll : s.notify.poll = (false, notify)) :
    Steps s .pollNotified { s with notify, phase := .timer canTransmit }
  | timer {canTransmit elapsed : Bool} (hphase : s.phase = .timer canTransmit) :
    Steps s (.pollTimer elapsed) { s with phase := .woken .timer false }
  | park {canTransmit elapsed : Bool} (hphase : s.phase = .timer canTransmit) :
    Steps s (.pollTimer elapsed) { s with phase := .parked canTransmit }
  | resume {canTransmit : Bool} (hphase : s.phase = .parked canTransmit) (hscheduled : s.scheduled = true) :
    Steps s .run { s with scheduled := false, phase := .device canTransmit }
  | again (hphase : s.phase = .yielding) :
    Steps s .run { s with scheduled := false, notify := s.notify.drop, phase := .top }
  | finish {wake : ReactorWake} {actions : List IpAction} (hphase : s.phase = .woken wake true) :
    Steps s (.interfacePoll actions) { s.interfacePolled actions with phase := .stopped (.ok ()) }
  | interface {wake : ReactorWake} {actions : List IpAction} (hphase : s.phase = .woken wake false) :
    Steps s (.interfacePoll actions) { s.interfacePolled actions with scheduled := true, phase := .yielding }
  | wake : Steps s .wake
      { s with notify := s.notify.notifyOne, scheduled := s.scheduled || decide (s.notify = .waiting) }
  | schedule : Steps s .schedule { s with scheduled := true }
  | change {device : D} : Steps s (.change device) { s with device }
  | stop : Steps s .stop { s with phase := .stopped (.ok ()) }

variable {dev} in
theorem steps_of_step {s s' : State D} {e : Event D} (h : step dev s e = some s') : Steps dev s e s' := by
  cases e with
  | enter =>
    simp only [step] at h
    split at h
    · cases h
      exact .enter ‹_›
    · nomatch h
  | pollDevice =>
    simp only [step] at h
    split at h
    · cases h
      exact .fail ‹_›
    · split at h
      · cases h
        exact .progress ‹_›
      · cases h
        exact .quiet ‹_›
    · nomatch h
  | pollNotified =>
    simp only [step] at h
    split at h
    · cases h
      exact .notified ‹_› ‹_›
    · cases h
      exact .wait ‹_› ‹_›
    · nomatch h
  | pollTimer elapsed =>
    simp only [step] at h
    split at h
    · split at h
      · cases h
        exact .timer ‹_›
      · cases h
        exact .park ‹_›
    · nomatch h
  | run =>
    simp only [step] at h
    split at h
    · cases h
      exact .resume ‹_› ‹_›
    · cases h
      exact .again ‹_›
    · nomatch h
  | interfacePoll actions =>
    simp only [step] at h
    split at h
    · cases h
      exact .finish ‹_›
    · cases h
      exact .interface ‹_›
    · nomatch h
  | wake =>
    cases h
    exact .wake
  | schedule =>
    cases h
    exact .schedule
  | change device =>
    cases h
    exact .change
  | stop =>
    simp only [step] at h
    split at h
    · cases h
      exact .stop
    · cases h
      exact .stop
    · cases h
      exact .stop
    · nomatch h

end WarpSocks.Netstack.Reactor
