import WarpSocks.Masque.Capsule
import WarpSocks.Netstack.Reactor

/-!
# The H2 device and its carrier tasks

`H2Device` of `masque/h2.rs`: a packet device between two bounded channels, with three tasks in a `JoinSet`: the
H2 connection, `send_packets`, which turns the packets of one channel into capsules on the H2 stream, and
`receive_packets`, which puts the IP packets of the received capsules into the other channel and drops them when
it is full.  The tasks run side by side with the reactor that polls the device.

A task that comes to an end drops its side of the channel first; that it has ended is known to the `JoinSet`
afterwards. The device holds the other side of both channels and is dropped together with its tasks, so neither
task sees its channel closed.  `w` is the number of bits of a `usize`.
-/

namespace WarpSocks.Masque

open Netstack (Poll)
open Netstack.Reactor (Packet AsyncDevice)
open Capsule (Capacity Data ReceiveError packetMtu maxCapsuleBuffer parseCapsules)

/-- The size both channels are made with. -/
def channelSize : Nat := 64

/-! ### The tasks -/

/-- How a task ends: its result, or the text of the `JoinError`. -/
inductive TaskEnd where
  | done
  | failed (error : String)
  | aborted (error : String)
  deriving DecidableEq

def carrierEnded : IoError := ⟨.unexpectedEof, "MASQUE H2 载体任务已结束"⟩

/-- What `poll_termination` makes of it. -/
def TaskEnd.error : TaskEnd → IoError
  | done => carrierEnded
  | failed e | aborted e => ⟨.other, e⟩

/-- The outermost text of an error of `receive_packets`. -/
def Capsule.ReceiveError.top : ReceiveError → String
  | .data _ => "读取 MASQUE H2 数据失败"
  | e => e.text

/-- Where `send_packets` is. -/
inductive Sender where
  /-- Before `packets.next()`. -/
  | idle
  /-- With a rest of a capsule, before `poll_capacity`. -/
  | sending (remaining : List UInt8)
  | ended
  deriving DecidableEq

/-- Where `receive_packets` is. -/
inductive Receiver where
  /-- Before `stream.data()`. -/
  | reading (buf : List UInt8)
  /-- In the loop over the capsules, with the packets still to be offered; then the new buffer, or an error. -/
  | offering (packets : List Packet) (next : Except String (List UInt8))
  | ended

/-- The device and its tasks, and what has passed. -/
structure Carrier where
  outgoing : List Packet
  incoming : List Packet
  sender : Sender
  receiver : Receiver
  /-- The task of the H2 connection has not ended. -/
  connected : Bool
  /-- The tasks that have ended, before the `JoinSet` knows. -/
  ending : List TaskEnd
  /-- The tasks that have ended and wait for `poll_join_next`. -/
  finished : List TaskEnd
  joined : Nat
  /-- The cooperative budget of the reactor's task is used up: what could be ready is pending. -/
  exhausted : Bool
  /-- The packets `start_send` has put into the channel. -/
  accepted : List Packet
  /-- The bytes passed to `send_data`. -/
  wire : List UInt8
  /-- The bytes of the chunks `stream.data()` has returned. -/
  received : List UInt8
  /-- The packets passed to `try_send`, and how many of them it has refused. -/
  offered : List Packet
  dropped : Nat
  /-- The packets `poll_next` has returned. -/
  delivered : List Packet

namespace Carrier

/-- The device at the end of `dial_one`. -/
def new : Carrier := ⟨[], [], .idle, .reading [], true, [], [], 0, false, [], [], [], [], 0, []⟩

/-- What the tasks do. -/
inductive Event where
  /-- `packets.next()` returns a packet. -/
  | take
  /-- An answer of `poll_capacity`, and the error of `send_data` if it has one. -/
  | capacity (answer : Capacity) (fault : Option String)
  /-- A result of `stream.data()`. -/
  | data (result : Data)
  /-- The end of the H2 stream. -/
  | eof
  /-- `try_send`. -/
  | offer
  /-- The loop over the capsules comes to its end. -/
  | parsed
  /-- The H2 connection comes to its end. -/
  | disconnect (result : TaskEnd)
  /-- The `JoinSet` is told about one of the tasks that have ended. -/
  | finish (i : Nat)
  /-- The budget of the reactor's task is renewed or used up. -/
  | budget (exhausted : Bool)

/-- `send_packets` ends; the packets in its channel are gone. -/
def endSender (c : Carrier) (result : TaskEnd) : Carrier :=
  { c with sender := .ended, outgoing := [], ending := c.ending ++ [result] }

def endReceiver (c : Carrier) (result : TaskEnd) : Carrier :=
  { c with receiver := .ended, ending := c.ending ++ [result] }

/-- Behind `packets.next()`. -/
def startCapsule (c : Carrier) (packet : Packet) (outgoing : List Packet) : Carrier :=
  if packetMtu < packet.length then c.endSender (.failed "IP packet 超过 MASQUE MTU")
  else
    match write [0] packet.length with
    | none => c.endSender (.aborted "varint")
    | some capsule => { c with outgoing, sender := .sending (capsule ++ packet) }

/-- A piece of the capsule is sent; behind the last one the next packet is taken. -/
def sendPiece (c : Carrier) (remaining : List UInt8) (available : Nat) (fault : Option String) : Carrier :=
  let size := min available remaining.length
  match fault with
  | some e => c.endSender (.failed e)
  | none =>
    { c with
      wire := c.wire ++ remaining.take size
      sender := if remaining.drop size = [] then .idle else .sending (remaining.drop size) }

/-- A chunk is buffered and parsed. -/
def parseChunk (w : Nat) (c : Carrier) (buf chunk : List UInt8) : Option Carrier :=
  let c := { c with received := c.received ++ chunk }
  if maxCapsuleBuffer < buf.length + chunk.length then some (c.endReceiver (.failed ReceiveError.bufferLimit.top))
  else
    match parseCapsules w (fun _ => .ok) (buf ++ chunk) 0 [] with
    | (.more consumed, packets) =>
      some { c with receiver := .offering packets (.ok ((buf ++ chunk).drop consumed)) }
    | (.failed e, packets) => some { c with receiver := .offering packets (.error e.top) }
    -- the device has the other side of the channel
    | (.closed, _) => none

/-- One step of the tasks; `none` if it cannot be taken. -/
def step (w : Nat) (c : Carrier) : Event → Option Carrier
  | .take =>
    match c.sender, c.outgoing with
    | .idle, packet :: outgoing => some (c.startCapsule packet outgoing)
    | _, _ => none
  | .capacity answer fault =>
    match c.sender, answer with
    | .sending _, .closed => some (c.endSender (.failed "MASQUE H2 发送流已关闭"))
    | .sending _, .failed e => some (c.endSender (.failed e))
    | .sending _, .granted 0 => some c
    | .sending remaining, .granted available => some (c.sendPiece remaining available fault)
    | _, _ => none
  | .data result =>
    match c.receiver, result with
    | .reading _, .failed cause => some (c.endReceiver (.failed (ReceiveError.data cause).top))
    | .reading _, .unreleased cause => some (c.endReceiver (.failed (ReceiveError.release cause).top))
    | .reading buf, .chunk chunk => c.parseChunk w buf chunk
    | _, _ => none
  | .eof =>
    match c.receiver with
    | .reading _ => some (c.endReceiver (.failed ReceiveError.streamClosed.top))
    | _ => none
  | .offer =>
    match c.receiver with
    | .offering (packet :: packets) next =>
      let c := { c with receiver := .offering packets next, offered := c.offered ++ [packet] }
      if c.incoming.length < channelSize then some { c with incoming := c.incoming ++ [packet] }
      else some { c with dropped := c.dropped + 1 }
    | _ => none
  | .parsed =>
    match c.receiver with
    | .offering [] (.ok buf) => some { c with receiver := .reading buf }
    | .offering [] (.error e) => some (c.endReceiver (.failed e))
    | _ => none
  | .disconnect result =>
    if c.connected then some { c with connected := false, ending := c.ending ++ [result] } else none
  | .finish i =>
    match c.ending[i]? with
    | some result => some { c with ending := c.ending.eraseIdx i, finished := c.finished ++ [result] }
    | none => none
  | .budget exhausted => some { c with exhausted }

end Carrier

/-! ### The device -/

namespace H2Device

/-- `BrokenPipe`: the other side of the channel is gone. -/
def sendStopped : IoError := ⟨.brokenPipe, "MASQUE H2 发送任务已停止"⟩

/-- Of the kind `InvalidData`, which nobody looks at. -/
def packetTooLong : IoError := ⟨.invalidData, "IP packet 超过 MASQUE MTU"⟩

/-- `poll_termination`. -/
def pollTermination (c : Carrier) : Carrier × Poll IoError :=
  match c.finished with
  | result :: finished =>
    if c.exhausted then (c, .pending)
    else ({ c with finished, joined := c.joined + 1 }, .ready result.error)
  -- all three tasks are joined
  | [] => if c.joined = 3 then (c, .ready carrierEnded) else (c, .pending)

/-- `mpsc::Sender::poll_ready`: one packet more than the size of the channel blocks the sender. -/
def senderReady (c : Carrier) : Poll (Except IoError Unit) :=
  if c.sender = .ended then .ready (.error sendStopped)
  else if channelSize < c.outgoing.length then .pending
  else .ready (.ok ())

def pollReady (c : Carrier) : Carrier × Poll (Except IoError Unit) :=
  match pollTermination c with
  | (c, .ready e) => (c, .ready (.error e))
  | (c, .pending) => (c, senderReady c)

def startSend (c : Carrier) (packet : Packet) : Carrier × Except IoError Unit :=
  if packetMtu < packet.length then (c, .error packetTooLong)
  else
    match senderReady c with
    | .ready (.ok ()) => ({ c with outgoing := c.outgoing ++ [packet], accepted := c.accepted ++ [packet] }, .ok ())
    | _ => (c, .error sendStopped)

def pollFlush (c : Carrier) : Carrier × Poll (Except IoError Unit) :=
  match pollTermination c with
  | (c, .ready e) => (c, .ready (.error e))
  | (c, .pending) =>
    match senderReady c with
    -- a sink whose other side is gone counts as flushed
    | .ready _ => (c, .ready (.ok ()))
    | .pending => (c, .pending)

def pollNext (c : Carrier) : Carrier × Poll (Option (Except IoError Packet)) :=
  match pollTermination c with
  | (c, .ready e) => (c, .ready (some (.error e)))
  | (c, .pending) =>
    if c.exhausted then (c, .pending)
    else
      match c.incoming, c.receiver with
      | packet :: incoming, _ =>
        ({ c with incoming, delivered := c.delivered ++ [packet] }, .ready (some (.ok packet)))
      | [], .ended => (c, .ready none)
      | [], _ => (c, .pending)

end H2Device

/-- `H2Device` as a device of the reactor. -/
def h2Device : AsyncDevice Carrier := ⟨H2Device.pollReady, H2Device.startSend, H2Device.pollFlush, H2Device.pollNext⟩

end WarpSocks.Masque
