import WarpSocks.Masque.Frame
import WarpSocks.Sync.Bridge

/-!
# Framed H3 streams

`wrap_data_framing`, `pump` and `FramedStream::poll_read`.  The pump runs `drain_download`, here step by step with
the waits for the edge and for room in the pipe between the steps, beside the upload, which is its own outcome
here.  The end of the pipe only says that the pump is gone; the reader asks the join handle of the pump whether
the stream has ended well.
-/

namespace WarpSocks.Masque.Framed

open Wire (Reader)

/-- `FramedStream`, with the pipe and the pump behind it; it has no flag. -/
abbrev FramedStream := Sync.Bridge UInt8 IoError relayBuf

/-- Where `drain_download` is. -/
inductive Download where
  /-- Before `read_varint_or_eof`. -/
  | head (recv : Reader IoError)
  /-- Before `read_varint`. -/
  | length (frameType : Nat) (recv : Reader IoError)
  /-- At the inner loop. -/
  | payload (frameType remaining : Nat) (recv : Reader IoError)
  /-- In `out.write_all`, with the bytes left. -/
  | writing (frameType remaining : Nat) (rest : List UInt8) (recv : Reader IoError)
  | done (result : Except IoError Unit)

/-- The next read of `drain_download`. -/
def Download.next : Download → Option Download
  | .head recv =>
    match readVarintOrEof recv with
    | (.error e, _) => some (.done (.error e))
    | (.ok none, _) => some (.done (.ok ()))
    | (.ok (some frameType), recv) => some (.length frameType recv)
  | .length frameType recv =>
    match readVarint recv with
    | (.error e, _) => some (.done (.error e))
    | (.ok remaining, recv) => some (.payload frameType remaining recv)
  | .payload frameType remaining recv =>
    if remaining = 0 then some (.head recv)
    else
      match recv.read (min remaining relayBuf) with
      | (.error e, _) => some (.done (.error e))
      | (.ok [], _) => some (.done (.error ⟨.unexpectedEof, "H3 帧负载意外结束"⟩))
      | (.ok (b :: bs), recv) =>
        if frameType = 0x00 then some (.writing frameType (remaining - (bs.length + 1)) (b :: bs) recv)
        else some (.payload frameType (remaining - (bs.length + 1)) recv)
  | .writing _ _ _ _ | .done _ => none

structure State where
  stream : FramedStream
  download : Download
  /-- The upload has finished, and the `select!` is over. -/
  uploaded : Bool

/-- `wrap_data_framing`. -/
def State.initial (recv : Reader IoError) : State := ⟨.new, .head recv, false⟩

def State.setTask (s : State) (task : Sync.Task (Except IoError Unit)) : State :=
  { s with stream := s.stream.setTask task }

/-- The steps of the pump. -/
inductive PumpStep where
  /-- A read of the download returns. -/
  | receive
  | write
  | writeFailed (e : IoError)
  | uploadDone
  | uploadFailed (e : IoError)
  /-- The pump returns the result of the download. -/
  | finish
  /-- The pump panics or is aborted, which is an error of the join handle. -/
  | cancel (e : IoError)

def pumpStep (s : State) : PumpStep → Option State
  | .receive => s.download.next.map fun download => { s with download }
  | .write =>
    match s.download with
    | .writing frameType remaining rest recv =>
      let n := s.stream.pipe.room rest
      -- a full pipe is pending
      if n = 0 then none
      else some { s with
        stream := s.stream.setPipe (s.stream.pipe.write rest)
        download := if rest.drop n = [] then .payload frameType remaining recv
          else .writing frameType remaining (rest.drop n) recv }
    | _ => none
  | .writeFailed e =>
    match s.download with
    | .writing _ _ _ _ => some { s with download := .done (.error e) }
    | _ => none
  | .uploadDone => if s.uploaded then none else some { s with uploaded := true }
  | .uploadFailed e => if s.uploaded then none else some (s.setTask (.returned (.error e)))
  | .finish =>
    match s.download with
    | .done result => some (s.setTask (.returned result))
    | _ => none
  | .cancel e => some (s.setTask (.returned (.error e)))

inductive Event where
  | pump (step : PumpStep)
  /-- The halves of the pipe are dropped, or the join handle becomes ready. -/
  | endTask
  /-- `poll_read` goes on. -/
  | read (step : Sync.Bridge.Step)

def step (s : State) : Event → Option State
  | .pump st =>
    match s.stream.task with
    | .running => pumpStep s st
    | _ => none
  | .endTask => s.stream.endStep.map fun stream => { s with stream }
  | .read st => (s.stream.readStep st).map fun stream => { s with stream }

end WarpSocks.Masque.Framed
