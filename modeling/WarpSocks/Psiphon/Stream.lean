import WarpSocks.Io
import WarpSocks.Sync.Bridge

/-!
# Psiphon streams

The bridge task of `Psiphon::connect_tcp` and `PsiphonStream::poll_read`.  The task joins two directions:
`receive` takes the events of the SSH channel and writes the data into the pipe, `send` is its own outcome here.
An EOF event sets `received_eof`, shuts the pipe down and ends `receive`; anything else that ends the task is an
error.  The task, the drop of its halves of the pipe, the join handle and the three looks of a read are steps that
come in any order.
-/

namespace WarpSocks.Psiphon

/-- `makiko::ChannelEvent`. -/
inductive ChannelEvent where
  | data (bytes : List UInt8)
  | eof
  | other

/-- The capacity of the duplex pipe. -/
def DUPLEX : Nat := 65536

/-- `PsiphonStream`, with the pipe and the task behind it; the flag is `received_eof`. -/
abbrev PsiphonStream := Sync.Bridge UInt8 IoError DUPLEX

/-- Where `receive` is. -/
inductive Receive where
  /-- In `receiver.recv()`. -/
  | waiting
  /-- In `write.write_all`, with the bytes left. -/
  | writing (rest : List UInt8)
  /-- The flag is set, the pipe is not shut down. -/
  | shutting
  | done

/-- What `receive` has still to write. -/
def Receive.rest : Receive → List UInt8
  | .writing rest => rest
  | _ => []

/-- `receive` with so many bytes left to write. -/
def Receive.ofRest (rest : List UInt8) : Receive := if rest = [] then .waiting else .writing rest

structure State where
  stream : PsiphonStream
  receive : Receive
  /-- `send` has returned. -/
  sent : Bool

def State.initial : State := ⟨.new, .waiting, false⟩

def closedWithoutEof : IoError := ⟨.unexpectedEof, "Psiphon channel closed without EOF"⟩

/-- The steps of the task. -/
inductive TaskStep where
  /-- `receiver.recv()` returns. -/
  | recv (event : Option ChannelEvent)
  | write
  | writeFailed (e : IoError)
  | shutdown
  | sendDone
  | sendFailed (e : IoError)
  /-- `try_join!` returns. -/
  | join
  /-- The task panics or is aborted, which is an error of the join handle. -/
  | cancel (e : IoError)

def State.setTask (s : State) (task : Sync.Task (Except IoError Unit)) : State :=
  { s with stream := s.stream.setTask task }

def taskStep (s : State) : TaskStep → Option State
  | .recv event =>
    match s.receive, event with
    | .waiting, some (.data bytes) => some { s with receive := .ofRest bytes }
    | .waiting, some .eof => some { s with stream := { s.stream with flag := true }, receive := .shutting }
    | .waiting, some .other => some s
    | .waiting, none => some (s.setTask (.returned (.error closedWithoutEof)))
    | _, _ => none
  | .write =>
    match s.receive with
    | .writing rest =>
      let n := s.stream.pipe.room rest
      -- a full pipe is pending
      if n = 0 then none
      else some { s with stream := s.stream.setPipe (s.stream.pipe.write rest), receive := .ofRest (rest.drop n) }
    | _ => none
  | .writeFailed e =>
    match s.receive with
    | .writing _ => some (s.setTask (.returned (.error e)))
    | _ => none
  | .shutdown =>
    match s.receive with
    | .shutting => some { s with stream := s.stream.setPipe s.stream.pipe.close, receive := .done }
    | _ => none
  | .sendDone => if s.sent then none else some { s with sent := true }
  | .sendFailed e => if s.sent then none else some (s.setTask (.returned (.error e)))
  | .join =>
    match s.receive with
    | .done => if s.sent then some (s.setTask (.returned (.ok ()))) else none
    | _ => none
  | .cancel e => some (s.setTask (.returned (.error e)))

inductive Event where
  | task (step : TaskStep)
  /-- The halves of the pipe are dropped, or the join handle becomes ready. -/
  | endTask
  /-- `poll_read` goes on. -/
  | read (step : Sync.Bridge.Step)

def step (s : State) : Event → Option State
  | .task st =>
    match s.stream.task with
    | .running => taskStep s st
    | _ => none
  | .endTask => s.stream.endStep.map fun stream => { s with stream }
  | .read st => (s.stream.readStep st).map fun stream => { s with stream }

end WarpSocks.Psiphon
