import WarpSocks.Masque.FramedEnd

/-!
# Both directions of a framed H3 stream

`pump` with its upload as the source has it, the caller's half of the duplex pipe and `Drop` of `FramedStream`.
The upload reads the caller's bytes in chunks and writes a DATA frame for each; the download, the pump and the
reads are those of `Framed.State`, which the whole stream refines (`exec_down`).

`pump` ends as soon as the download does, and quinn ends a stream that is dropped as `finish` does.  So the edge
may be told the end of an upload that was cut; what it can read is a front of what the caller wrote all the same.
-/

namespace WarpSocks.Masque

open Wire (Reader Record wireOf)

/-! ### The payload of a front -/

private theorem Carries.unique {stream p q : List UInt8} (hp : Carries stream p) (hq : Carries stream q) : p = q := by
  have hp := (drainDownload_carries ⟨stream, ⟨fun _ => 1, fun _ => Nat.one_pos⟩, none⟩ hp []).1
  have hq := (drainDownload_carries ⟨stream, ⟨fun _ => 1, fun _ => Nat.one_pos⟩, none⟩ hq []).1
  exact hp.symm.trans hq

private theorem carries_wireOf (rs : List Record) : Carries (wireOf rs) (dataOf rs) :=
  ⟨rs, [], [], (List.append_nil _).symm, .inl ⟨rfl, rfl⟩, (List.append_nil _).symm⟩

private theorem Carries.append_left {stream p : List UInt8} (rs : List Record) (h : Carries stream p) :
    Carries (wireOf rs ++ stream) (dataOf rs ++ p) := by
  obtain ⟨ss, tail, d, rfl, htail, rfl⟩ := h
  refine ⟨rs ++ ss, tail, d, ?_, htail, ?_⟩
  · rw [Wire.wireOf_append, List.append_assoc]
  · rw [dataOf, dataOf, dataOf, List.flatMap_append, List.append_assoc]

private theorem delivered_mono (frameType : Nat) {p q : List UInt8} (h : p <+: q) :
    delivered frameType p <+: delivered frameType q := by
  unfold delivered
  split
  · exact h
  · exact List.prefix_rfl

/-- Of a cut frame the payload that was there is still there with more bytes. -/
private theorem Truncated.append {tail d : List UInt8} (h : Truncated tail d) (y : List UInt8) :
    ∃ p, Carries (tail ++ y) p ∧ d <+: p := by
  cases h with
  | inType hne htype =>
    obtain ⟨p, hp⟩ := exists_carries (tail ++ y)
    exact ⟨p, hp, List.nil_prefix⟩
  | inLength htype hlen =>
    obtain ⟨p, hp⟩ := exists_carries (tail ++ y)
    exact ⟨p, hp, List.nil_prefix⟩
  | @inPayload r payload frameType len htype hlen hlt =>
    have htype := Wire.Varint.decode_append htype y
    have hlen := Wire.Varint.decode_append hlen y
    by_cases hall : len ≤ (payload ++ y).length
    · -- the frame is complete with the bytes behind
      have hsplit : Wire.split (tail ++ y) = some (frameType, (payload ++ y).take len, (payload ++ y).drop len) := by
        simp only [Wire.split, Wire.header_eq_some.2 ⟨_, htype, hlen⟩, if_pos hall]
      obtain ⟨record, hcontent, hwire⟩ := Wire.split_eq_some hsplit
      obtain ⟨p, hp⟩ := exists_carries ((payload ++ y).drop len)
      refine ⟨dataOf [record] ++ p, ?_, ?_⟩
      · rw [hwire, show record.wire = wireOf [record] by simp]
        exact hp.append_left [record]
      · have hdata : dataOf [record] = delivered frameType ((payload ++ y).take len) := by
          simp only [Record.content, Prod.mk.injEq] at hcontent
          rw [dataOf, List.flatMap_singleton, hcontent.1, hcontent.2]
        rw [hdata]
        refine (delivered_mono frameType ?_).trans (List.prefix_append _ _)
        rw [List.take_append, List.take_of_length_le (Nat.le_of_lt hlt)]
        exact List.prefix_append _ _
    · refine ⟨_, ⟨[], tail ++ y, _, rfl, .inr (.inPayload htype hlen (Nat.lt_of_not_le hall)), rfl⟩, ?_⟩
      exact delivered_mono frameType (List.prefix_append _ _)

/-- The payload of a front is a front of the payload. -/
private theorem Carries.mono {x y p q : List UInt8} (hp : Carries x p) (hq : Carries (x ++ y) q) : p <+: q := by
  obtain ⟨rs, tail, d, rfl, htail, rfl⟩ := hp
  rw [List.append_assoc] at hq
  rcases htail with ⟨rfl, rfl⟩ | htail
  · obtain ⟨p, hp⟩ := exists_carries ([] ++ y)
    rw [hq.unique (hp.append_left rs), List.append_nil]
    exact List.prefix_append _ _
  · obtain ⟨p, hp, hd⟩ := htail.append y
    rw [hq.unique (hp.append_left rs)]
    exact (List.prefix_append_right_inj _).2 hd

namespace Framed

/-! ### The stream -/

/-- Where the upload is. -/
inductive Upload where
  /-- In `input.read`. -/
  | reading
  /-- In `send.write_all`, with the bytes of the frame that are not on the stream yet. -/
  | sending (rest : List UInt8)
  /-- Behind `send.finish`. -/
  | finished
  deriving DecidableEq

namespace Upload

def rest : Upload → List UInt8
  | sending rest => rest
  | reading | finished => []

def ofRest (rest : List UInt8) : Upload := if rest = [] then reading else sending rest

private theorem rest_ofRest (bytes : List UInt8) : (ofRest bytes).rest = bytes := by
  unfold ofRest
  split
  · rename_i hnil
    exact hnil.symm
  · rfl

private theorem ofRest_ne_finished (bytes : List UInt8) : ofRest bytes ≠ finished := by
  unfold ofRest
  split
  · exact fun h => by cases h
  · exact fun h => by cases h

end Upload

/-- How the sending half of the QUIC stream has ended. -/
inductive Ending where
  | finish
  | reset
  /-- It was dropped, which the edge sees like `finish`. -/
  | dropped
  deriving DecidableEq

/-- The steps of the pump that are not those of the upload. -/
def PumpStep.ofDownload : PumpStep → Bool
  | receive | write | writeFailed _ | finish => true
  | uploadDone | uploadFailed _ | cancel _ => false

/-- What the join handle of an aborted task gives. -/
def aborted : IoError := ⟨.other, "task was cancelled"⟩

/-- `FramedStream` with the pump and the QUIC stream. -/
structure Duplex where
  /-- The download, the pipe to the caller, the pump and its handle. -/
  down : State
  /-- The pipe from the caller. -/
  up : Sync.Pipe UInt8 relayBuf
  upload : Upload
  /-- The bytes on the QUIC stream. -/
  wire : List UInt8
  ending : Option Ending
  /-- The caller has dropped the stream. -/
  dropped : Bool

namespace Duplex

/-- `wrap_data_framing`. -/
def start (recv : Reader IoError) : Duplex := ⟨.initial recv, .new, .reading, [], none, false⟩

inductive Event where
  /-- The caller writes, as much as there is room for. -/
  | write (bytes : List UInt8)
  | shutdown
  /-- `poll_read` goes on. -/
  | read (step : Sync.Bridge.Step)
  | drop
  /-- The download goes on, or the pump returns its result. -/
  | download (step : PumpStep)
  /-- `input.read` returns a chunk. -/
  | take
  /-- `n` bytes of the frame go to the stream; `write_all` returns behind the last of them. -/
  | transmit (n : Nat)
  | sendFailed (e : IoError)
  /-- `input.read` returns the end, and `finish` is called. -/
  | finish
  | finishFailed (e : IoError)
  /-- The pump sees that it is aborted. -/
  | abort
  | endTask

def running (d : Duplex) : Bool := d.down.stream.task.result.isNone

/-- A step of the pump. -/
def pump (d : Duplex) (st : PumpStep) : Option Duplex :=
  (Framed.step d.down (.pump st)).map fun down => { d with down }

/-- `input.read` returns the end. -/
def inputEnded (d : Duplex) : Bool :=
  match d.upload, d.up.read relayBuf with
  | .reading, .ended => d.running
  | _, _ => false

def step (d : Duplex) : Event → Option Duplex
  -- the other end is gone with the pump
  | .write bytes =>
    if d.up.closed || d.down.stream.task.gone then none else some { d with up := d.up.write bytes }
  | .shutdown => if d.dropped then none else some { d with up := d.up.close }
  | .read st => if d.dropped then none else (Framed.step d.down (.read st)).map fun down => { d with down }
  | .drop => if d.dropped then none else some { d with up := d.up.close, dropped := true }
  | .download st =>
    match st with
    -- nothing can be written to a pipe whose other end is dropped
    | .write => if d.dropped then none else d.pump .write
    | st => if st.ofDownload then d.pump st else none
  | .take =>
    match d.upload, d.up.read relayBuf with
    | .reading, .bytes up =>
      if d.running then (dataFrame [] (d.up.buffer.take relayBuf)).map fun frame =>
        { d with up, upload := .sending frame }
      else none
    | _, _ => none
  | .transmit n =>
    match d.upload with
    | .sending rest =>
      if d.running && n != 0 then some { d with wire := d.wire ++ rest.take n, upload := .ofRest (rest.drop n) }
      else none
    | _ => none
  | .sendFailed e =>
    match d.upload with
    | .sending _ => ({ d with ending := some .reset }).pump (.uploadFailed e)
    | _ => none
  | .finish =>
    if d.inputEnded then ({ d with upload := .finished, ending := some .finish }).pump .uploadDone else none
  | .finishFailed e => if d.inputEnded then d.pump (.uploadFailed e) else none
  | .abort => if d.dropped then d.pump (.cancel aborted) else none
  -- the sending half goes with the pump
  | .endTask =>
    (Framed.step d.down .endTask).map fun down => { d with down, ending := d.ending.or (some .dropped) }

/-- The event as `Framed.State` sees it. -/
def Event.shows : Event → List Framed.Event
  | write _ | shutdown | drop | take | transmit _ => []
  | read st => [.read st]
  | download st => [.pump st]
  | sendFailed e | finishFailed e => [.pump (.uploadFailed e)]
  | finish => [.pump .uploadDone]
  | abort => [.pump (.cancel aborted)]
  | endTask => [.endTask]

variable {d d' : Duplex} {e : Event} {es : List Event} {recv : Reader IoError}

/-! ### What a step can do -/

/-- What a step can do to the stream. -/
inductive Moves (d : Duplex) : Event → Duplex → Prop where
  | write (bytes : List UInt8) (h : d.up.closed = false) : Moves d (.write bytes) { d with up := d.up.write bytes }
  | shutdown : Moves d .shutdown { d with up := d.up.close }
  | drop : Moves d .drop { d with up := d.up.close, dropped := true }
  | take (up : Sync.Pipe UInt8 relayBuf) (frame : List UInt8) (hupload : d.upload = .reading)
      (h : d.up.read relayBuf = .bytes up) (hframe : dataFrame [] (d.up.buffer.take relayBuf) = some frame) :
    Moves d .take { d with up, upload := .sending frame }
  | transmit (n : Nat) (rest : List UInt8) (hupload : d.upload = .sending rest) :
    Moves d (.transmit n) { d with wire := d.wire ++ rest.take n, upload := .ofRest (rest.drop n) }
  | sendFailed (e : IoError) (down : State) (rest : List UInt8) (hupload : d.upload = .sending rest)
      (h : Framed.step d.down (.pump (.uploadFailed e)) = some down) :
    Moves d (.sendFailed e) { d with down, ending := some .reset }
  | finish (down : State) (hupload : d.upload = .reading) (hend : d.up.read relayBuf = .ended)
      (h : Framed.step d.down (.pump .uploadDone) = some down) :
    Moves d .finish { d with down, upload := .finished, ending := some .finish }
  /-- The pump goes on otherwise. -/
  | pump (e : Event) (st : PumpStep) (down : State) (he : e.shows = [.pump st]) (hdone : st ≠ .uploadDone)
      (h : Framed.step d.down (.pump st) = some down) : Moves d e { d with down }
  | read (st : Sync.Bridge.Step) (down : State) (h : Framed.step d.down (.read st) = some down) :
    Moves d (.read st) { d with down }
  | endTask (down : State) (h : Framed.step d.down .endTask = some down) :
    Moves d .endTask { d with down, ending := d.ending.or (some .dropped) }

private theorem moves_pump {st : PumpStep} (he : e.shows = [.pump st]) (hdone : st ≠ .uploadDone)
    (h : d.pump st = some d') :
    Moves d e d' := by
  obtain ⟨down, hdown, rfl⟩ := Option.map_eq_some_iff.1 h
  exact .pump e st down he hdone hdown

private theorem moves_download {st : PumpStep} (h : d.step (.download st) = some d') : Moves d (.download st) d' := by
  simp only [step] at h
  split at h
  · split at h
    · cases h
    · exact moves_pump rfl (fun h => by cases h) h
  · split at h
    · rename_i hdownload
      refine moves_pump rfl (fun h => ?_) h
      rw [h] at hdownload
      cases hdownload
    · cases h

private theorem inputEnded_eq_true (h : d.inputEnded = true) :
    d.upload = .reading ∧ d.up.read relayBuf = .ended ∧ d.running = true := by
  unfold inputEnded at h
  split at h
  · rename_i hupload hend
    exact ⟨hupload, hend, h⟩
  · cases h

private theorem moves_take (h : d.step .take = some d') : Moves d .take d' := by
  simp only [step] at h
  split at h
  · rename_i up hupload hread
    split at h
    · obtain ⟨frame, hframe, rfl⟩ := Option.map_eq_some_iff.1 h
      exact .take up frame hupload hread hframe
    · cases h
  · cases h

private theorem moves_of_step (h : d.step e = some d') : Moves d e d' := by
  cases e with
  | write bytes =>
    simp only [step] at h
    split at h
    · cases h
    · rename_i hopen
      cases h
      exact .write bytes (Bool.or_eq_false_iff.1 (Bool.eq_false_iff.2 hopen)).1
  | shutdown =>
    simp only [step] at h
    split at h
    · cases h
    · cases h
      exact .shutdown
  | read st =>
    simp only [step] at h
    split at h
    · cases h
    · obtain ⟨down, hdown, rfl⟩ := Option.map_eq_some_iff.1 h
      exact .read st down hdown
  | drop =>
    simp only [step] at h
    split at h
    · cases h
    · cases h
      exact .drop
  | download st => exact moves_download h
  | take => exact moves_take h
  | transmit n =>
    simp only [step] at h
    split at h
    · rename_i rest hupload
      split at h
      · cases h
        exact .transmit n rest hupload
      · cases h
    · cases h
  | sendFailed e =>
    simp only [step] at h
    split at h
    · rename_i rest hupload
      obtain ⟨down, hdown, rfl⟩ := Option.map_eq_some_iff.1 h
      exact .sendFailed e down rest hupload hdown
    · cases h
  | finish =>
    simp only [step] at h
    split at h
    · rename_i hended
      obtain ⟨hupload, hend, -⟩ := inputEnded_eq_true hended
      obtain ⟨down, hdown, rfl⟩ := Option.map_eq_some_iff.1 h
      exact .finish down hupload hend hdown
    · cases h
  | finishFailed e =>
    simp only [step] at h
    split at h
    · exact moves_pump rfl (fun h => by cases h) h
    · cases h
  | abort =>
    simp only [step] at h
    split at h
    · exact moves_pump rfl (fun h => by cases h) h
    · cases h
  | endTask =>
    obtain ⟨down, hdown, rfl⟩ := Option.map_eq_some_iff.1 h
    exact .endTask down hdown

/-! ### The refinement -/

private theorem Moves.shows (h : Moves d e d') : Machine.exec Framed.step d.down e.shows = some d'.down := by
  cases h with
  | write bytes hopen => rfl
  | shutdown => rfl
  | drop => rfl
  | take up frame hupload h hframe => rfl
  | transmit n rest hupload => rfl
  | sendFailed e down rest hupload h => exact Machine.exec_single h
  | finish down hupload hend h => exact Machine.exec_single h
  | pump e st down he hdone h =>
    rw [he]
    exact Machine.exec_single h
  | read st down h => exact Machine.exec_single h
  | endTask down h => exact Machine.exec_single h

/-- What the download, the pump and the reader do is a run of their own. -/
theorem exec_down (h : Machine.exec step (start recv) es = some d) :
    Machine.exec Framed.step (.initial recv) (es.flatMap Event.shows) = some d.down :=
  Machine.exec_flatMap (f := Duplex.down) (g := Event.shows) (fun _ _ _ h => (moves_of_step h).shows) h

/-! ### What the rest of the pump knows of the upload -/

section Down

variable {s s' : State} {st : PumpStep}

private theorem pump_running (h : Framed.step s (.pump st) = some s') :
    s.stream.task = .running ∧ Framed.pumpStep s st = some s' := by
  simp only [Framed.step] at h
  split at h
  · rename_i hrun
    exact ⟨hrun, h⟩
  · cases h

private theorem uploaded_uploadDone (h : Framed.step s (.pump .uploadDone) = some s') :
    s' = { s with uploaded := true } := by
  obtain ⟨-, h⟩ := pump_running h
  simp only [pumpStep] at h
  split at h
  · cases h
  · cases h
    rfl

private theorem result_uploadFailed {e : IoError} (h : Framed.step s (.pump (.uploadFailed e)) = some s') :
    s'.stream.task = .returned (.error e) ∧ s'.uploaded = s.uploaded := by
  obtain ⟨-, h⟩ := pump_running h
  simp only [pumpStep] at h
  split at h
  · cases h
  · cases h
    exact ⟨rfl, rfl⟩

/-- Only the end of the upload is told to the pump, and what the pump holds is not dropped by itself. -/
private theorem uploaded_pump (h : Framed.step s (.pump st) = some s') (hdone : st ≠ .uploadDone) :
    s'.uploaded = s.uploaded ∧ s'.stream.task.gone = false := by
  obtain ⟨hrun, h⟩ := pump_running h
  have hgone : s.stream.task.gone = false := by
    rw [hrun]
    rfl
  cases st with
  | receive =>
    obtain ⟨download, -, rfl⟩ := Option.map_eq_some_iff.1 h
    exact ⟨rfl, hgone⟩
  | write =>
    simp only [pumpStep] at h
    split at h
    · split at h
      · cases h
      · cases h
        exact ⟨rfl, hgone⟩
    · cases h
  | writeFailed e =>
    simp only [pumpStep] at h
    split at h
    · cases h
      exact ⟨rfl, hgone⟩
    · cases h
  | uploadDone => exact (hdone rfl).elim
  | uploadFailed e =>
    simp only [pumpStep] at h
    split at h
    · cases h
    · cases h
      exact ⟨rfl, rfl⟩
  | finish =>
    simp only [pumpStep] at h
    split at h
    · cases h
      exact ⟨rfl, rfl⟩
    · cases h
  | cancel e =>
    cases h
    exact ⟨rfl, rfl⟩

private theorem uploaded_read {st : Sync.Bridge.Step} (h : Framed.step s (.read st) = some s') :
    s'.uploaded = s.uploaded ∧ s'.stream.task = s.stream.task := by
  obtain ⟨stream, hread, rfl⟩ := Option.map_eq_some_iff.1 h
  exact ⟨rfl, (Sync.Bridge.frame_readStep hread).task⟩

private theorem uploaded_endTask (h : Framed.step s .endTask = some s') :
    s'.uploaded = s.uploaded ∧ s'.stream.task.gone = true ∧ s'.stream.task.result = s.stream.task.result := by
  obtain ⟨stream, hend, rfl⟩ := Option.map_eq_some_iff.1 h
  obtain ⟨-, hresult, hgone, -⟩ := Sync.Bridge.extends_endStep hend
  exact ⟨rfl, hgone, hresult⟩

end Down

/-! ### The invariant -/

/-- Where the caller's bytes are, and how the sending half has ended. -/
structure Whole (d : Duplex) : Prop where
  /-- The stream and the frame at hand are the frames of what was taken from the caller. -/
  wire : ∃ rs, d.wire ++ d.upload.rest = wireOf rs ∧ dataOf rs = d.up.taken
  finished : d.upload = .finished → d.up.closed = true ∧ d.up.buffer = []
  uploaded : d.down.uploaded = true ↔ d.upload = .finished
  finish : d.ending = some .finish ↔ d.upload = .finished
  reset : d.ending = some .reset → ∃ e, d.down.stream.task.result = some (.error e)
  gone : d.down.stream.task.gone = true → d.ending ≠ none
  ending : d.ending = some .dropped → d.down.stream.task.gone = true
  dropped : d.dropped = true → d.up.closed = true

private theorem whole_start : Whole (start recv) := by
  refine ⟨⟨[], rfl, rfl⟩, fun h => (by cases h), ⟨fun h => (by cases h), fun h => (by cases h)⟩,
    ⟨fun h => (by cases h), fun h => (by cases h)⟩, fun h => (by cases h), fun h => (by cases h),
      fun h => (by cases h),
    fun h => (by cases h)⟩

private theorem Whole.up (h : Whole d) {up : Sync.Pipe UInt8 relayBuf} (htaken : up.taken = d.up.taken)
    (hclosed : d.up.closed = true → up.closed = true)
    (hbuffer : d.up.closed = true → up.buffer = d.up.buffer) : Whole { d with up } := by
  obtain ⟨⟨rs, hwire, hdata⟩, finished, uploaded, finish, reset, gone, ending, dropped⟩ := h
  refine ⟨⟨rs, hwire, hdata.trans htaken.symm⟩, fun hfin => ?_, uploaded, finish, reset, gone, ending,
    fun hd => hclosed (dropped hd)⟩
  obtain ⟨hc, hb⟩ := finished hfin
  exact ⟨hclosed hc, (hbuffer hc).trans hb⟩

/-- The frame of a chunk. -/
private theorem dataFrame_wire {chunk frame : List UInt8} (h : dataFrame [] chunk = some frame) :
    ∃ record : Record, frame = wireOf [record] ∧ dataOf [record] = chunk := by
  unfold dataFrame writeFrame write at h
  rw [if_pos (by decide)] at h
  dsimp only at h
  split at h
  · cases h
  · rename_i out hout
    split at hout
    · rename_i hlen
      cases hout
      cases h
      refine ⟨.shortest 0 chunk (by decide) hlen, ?_, ?_⟩
      · simp [Record.shortest]
      · simp [dataOf, delivered, Record.shortest]
    · cases hout

/-- The upload goes on, with the pump and the end of the stream as they are. -/
private theorem Whole.goOn (h : Whole d) {up : Sync.Pipe UInt8 relayBuf} {upload : Upload} {wire : List UInt8}
    (hbefore : d.upload ≠ .finished) (hafter : upload ≠ .finished) (hclosed : up.closed = d.up.closed)
    (hwire : ∃ rs, wire ++ upload.rest = wireOf rs ∧ dataOf rs = up.taken) : Whole { d with up, upload, wire } := by
  obtain ⟨-, -, uploaded, finish, reset, gone, ending, dropped⟩ := h
  exact ⟨hwire, fun hfin => (hafter hfin).elim,
    ⟨fun hu => (hbefore (uploaded.1 hu)).elim, fun hfin => (hafter hfin).elim⟩,
    ⟨fun hu => (hbefore (finish.1 hu)).elim, fun hfin => (hafter hfin).elim⟩, reset, gone, ending,
    fun hd => hclosed.trans (dropped hd)⟩

private theorem Whole.move (h : Whole d) (hmove : Moves d e d') : Whole d' := by
  cases hmove with
  | write bytes hopen =>
    refine h.up rfl (fun hc => hc) fun hc => ?_
    rw [hopen] at hc
    cases hc
  | shutdown => exact h.up rfl (fun _ => rfl) fun _ => rfl
  | drop =>
    obtain ⟨wire, finished, uploaded, finish, reset, gone, ending, dropped⟩ := h
    exact ⟨wire, fun hfin => ⟨rfl, (finished hfin).2⟩, uploaded, finish, reset, gone, ending, fun _ => rfl⟩
  | take up frame hupload hread hframe =>
    obtain ⟨-, -, hclosed, htaken⟩ := Sync.Pipe.read_bytes hread
    obtain ⟨record, rfl, hdata⟩ := dataFrame_wire hframe
    obtain ⟨rs, hwire, htaken'⟩ := h.wire
    refine h.goOn (by rw [hupload]; exact fun h => by cases h) (fun h => by cases h) hclosed ⟨rs ++ [record], ?_, ?_⟩
    · rw [hupload] at hwire
      rw [Wire.wireOf_append, ← hwire]
      exact congrArg (· ++ _) (List.append_nil _).symm
    · rw [htaken, ← htaken', ← hdata]
      exact List.flatMap_append
  | transmit n rest hupload =>
    obtain ⟨rs, hwire, htaken⟩ := h.wire
    refine h.goOn (by rw [hupload]; exact fun h => by cases h) (Upload.ofRest_ne_finished _) rfl ⟨rs, ?_, htaken⟩
    rw [hupload] at hwire
    rw [Upload.rest_ofRest, List.append_assoc, List.take_append_drop]
    exact hwire
  | sendFailed e down rest hupload hstep =>
    obtain ⟨htask, huploaded⟩ := result_uploadFailed hstep
    obtain ⟨wire, finished, uploaded, finish, -, -, -, dropped⟩ := h
    rw [hupload] at uploaded
    refine ⟨wire, finished, ?_, ⟨fun h => (by cases h), fun hfin => ?_⟩, fun _ => ⟨e, by rw [htask]; rfl⟩,
      fun hgone => ?_, fun h => (by cases h), dropped⟩
    · show down.uploaded = true ↔ _
      rw [huploaded, hupload]
      exact uploaded
    · rw [hupload] at hfin
      cases hfin
    · rw [htask] at hgone
      cases hgone
  | finish down hupload hend hstep =>
    obtain ⟨wire, -, -, -, -, gone, -, dropped⟩ := h
    rw [hupload] at wire
    rw [uploaded_uploadDone hstep]
    exact ⟨wire, fun _ => Sync.Pipe.read_ended hend, ⟨fun _ => rfl, fun _ => rfl⟩, ⟨fun _ => rfl, fun _ => rfl⟩,
      fun h => (by cases h), fun _ h => (by cases h), fun h => (by cases h), dropped⟩
  | pump e st down he hdone hstep =>
    obtain ⟨huploaded, hgone⟩ := uploaded_pump hstep hdone
    have hrun := (pump_running hstep).1
    obtain ⟨wire, finished, uploaded, finish, reset, gone, ending, dropped⟩ := h
    refine ⟨wire, finished, ?_, finish, fun hreset => ?_, fun h => ?_, fun h => ?_, dropped⟩
    · show down.uploaded = true ↔ _
      rw [huploaded]
      exact uploaded
    · obtain ⟨x, hx⟩ := reset hreset
      rw [hrun] at hx
      cases hx
    · rw [hgone] at h
      cases h
    · have := ending h
      rw [hrun] at this
      cases this
  | read st down hstep =>
    obtain ⟨huploaded, htask⟩ := uploaded_read hstep
    obtain ⟨wire, finished, uploaded, finish, reset, gone, ending, dropped⟩ := h
    rw [← huploaded] at uploaded
    rw [← htask] at reset gone ending
    exact ⟨wire, finished, uploaded, finish, reset, gone, ending, dropped⟩
  | endTask down hstep =>
    obtain ⟨huploaded, hgone, hresult⟩ := uploaded_endTask hstep
    obtain ⟨wire, finished, uploaded, finish, reset, gone, ending, dropped⟩ := h
    rw [← huploaded] at uploaded
    rw [← hresult] at reset
    refine ⟨wire, finished, uploaded, ?_, fun h => ?_, fun _ h => ?_, fun _ => hgone, dropped⟩
    · rw [← finish]
      cases hending : d.ending with
      | none => exact ⟨fun h => (by cases h), fun h => (by cases h)⟩
      | some ending => rfl
    · cases hending : d.ending with
      | none =>
        rw [hending] at h
        cases h
      | some ending =>
        rw [hending] at h
        exact reset (hending.trans h)
    · cases hending : d.ending with
      | none =>
        rw [hending] at h
        cases h
      | some ending =>
        rw [hending] at h
        cases h

private theorem whole_exec (h : Machine.exec step (start recv) es = some d) : Whole d :=
  Machine.exec_induction (P := Whole) (fun _ _ _ hd h => hd.move (moves_of_step h)) whole_start h

/-! ### The upload comes to its end -/

/-- The steps of the upload that succeed. -/
def Event.ofUpload : Event → Bool
  | take | transmit _ | finish => true
  | write _ | shutdown | read _ | drop | download _ | sendFailed _ | finishFailed _ | abort | endTask => false

/-- The upload alone can bring the stream to `d'`. -/
def Uploads (d d' : Duplex) : Prop := ∃ fs, (∀ e ∈ fs, e.ofUpload = true) ∧ Machine.exec step d fs = some d'

private theorem Uploads.cons {d₁ : Duplex} (he : e.ofUpload = true) (hstep : d.step e = some d₁) (h : Uploads d₁ d') :
    Uploads d d' :=
  Machine.exec_cons_all he hstep h

/-- What the upload leaves when it is done. -/
structure Uploaded (d d' : Duplex) : Prop where
  upload : d'.upload = .finished
  up : d'.up.sent = d.up.sent
  down : d'.down = { d.down with uploaded := true }

private theorem running_of_task (h : d.down.stream.task = .running) : d.running = true := by
  unfold running
  rw [h]
  rfl

private theorem dataFrame_of_le {chunk : List UInt8} (h : chunk.length ≤ relayBuf) :
    ∃ frame, dataFrame [] chunk = some frame := by
  have hlen : chunk.length < 2 ^ 62 := Nat.lt_of_le_of_lt h (by decide)
  refine ⟨Wire.Varint.encode 0 ++ Wire.Varint.encode chunk.length ++ chunk, ?_⟩
  unfold dataFrame writeFrame
  rw [write_of_lt [] (by decide)]
  dsimp only
  rw [write_of_lt _ hlen]
  rfl

/-- A frame goes out at once. -/
private theorem step_transmit {rest : List UInt8} (hrun : d.down.stream.task = .running)
    (hupload : d.upload = .sending rest) :
    d.step (.transmit (rest.length + 1)) = some { d with wire := d.wire ++ rest, upload := .reading } := by
  have hn : (rest.length + 1 != 0) = true := rfl
  simp only [step, hupload, running_of_task hrun, hn, Bool.and_self, if_true, Upload.ofRest,
    List.take_of_length_le (Nat.le_succ rest.length), List.drop_of_length_le (Nat.le_succ rest.length)]

/-- The upload in `input.read`, with the caller gone or shut down: chunk by chunk to the end of the pipe. -/
private theorem uploads_of_reading (n : Nat) (hn : d.up.buffer.length = n) (hrun : d.down.stream.task = .running)
    (huploaded : d.down.uploaded = false) (hclosed : d.up.closed = true) (hupload : d.upload = .reading) :
    ∃ d', Uploads d d' ∧ Uploaded d d' := by
  induction n using Nat.strongRecOn generalizing d with
  | ind n ih =>
    have hrunning := running_of_task hrun
    by_cases hb : d.up.buffer = []
    · have hread := Sync.Pipe.read_of_closed relayBuf hclosed hb
      have hended : d.inputEnded = true := by simp only [inputEnded, hupload, hread, hrunning]
      have hpump : Framed.step d.down (.pump .uploadDone) = some { d.down with uploaded := true } := by
        simp only [Framed.step, hrun, pumpStep, huploaded, Bool.false_eq_true, if_false]
      have hstep : d.step .finish = some { d with
          down := { d.down with uploaded := true }, upload := .finished, ending := some .finish } := by
        simp only [step, hended, if_true, pump, hpump, Option.map_some]
      exact ⟨_, Uploads.cons rfl hstep ⟨[], fun _ h => (by cases h), rfl⟩, rfl, rfl, rfl⟩
    · obtain ⟨up, hread, -, hlen⟩ := Sync.Pipe.read_of_nonempty (n := relayBuf) (by decide) hb
      obtain ⟨-, hup, hupclosed, -⟩ := Sync.Pipe.read_bytes hread
      obtain ⟨frame, hframe⟩ := dataFrame_of_le (List.length_take_le relayBuf d.up.buffer)
      have htake : d.step .take = some { d with up, upload := .sending frame } := by
        simp only [step, hupload, hread, hrunning, if_true, hframe, Option.map_some]
      obtain ⟨d', huploads, hd'⟩ := ih up.buffer.length (hn ▸ hlen)
        (d := { d with up, upload := .reading, wire := d.wire ++ frame }) rfl hrun huploaded
          (hupclosed.trans hclosed) rfl
      exact ⟨d', Uploads.cons rfl htake (Uploads.cons rfl (step_transmit hrun rfl) huploads), hd'.upload,
        hd'.up.trans hup, hd'.down⟩

private theorem Whole.uploads (h : Whole d) (hrun : d.down.stream.task = .running) (hclosed : d.up.closed = true)
    (hfin : d.upload ≠ .finished) : ∃ d', Uploads d d' ∧ Uploaded d d' := by
  have huploaded : d.down.uploaded = false := Bool.eq_false_iff.2 fun hu => hfin (h.uploaded.1 hu)
  cases hupload : d.upload with
  | reading => exact uploads_of_reading _ rfl hrun huploaded hclosed hupload
  | sending rest =>
    obtain ⟨d', huploads, hd'⟩ :=
      uploads_of_reading (d := { d with wire := d.wire ++ rest, upload := .reading }) _ rfl hrun
      huploaded hclosed rfl
    exact ⟨d', Uploads.cons rfl (step_transmit hrun hupload) huploads, hd'.upload, hd'.up, hd'.down⟩
  | finished => exact (hfin hupload).elim

/-- What the edge can read is a front of what the caller wrote. -/
private theorem Whole.carries_prefix (h : Whole d) {p : List UInt8} (hp : Carries d.wire p) : p <+: d.up.sent := by
  obtain ⟨rs, hwire, hdata⟩ := h.wire
  have hall := carries_wireOf rs
  rw [← hwire] at hall
  refine (hp.mono hall).trans ?_
  rw [hdata]
  exact List.prefix_append _ _

/-- `finish` stands behind everything the caller wrote. -/
private theorem Whole.all_sent (h : Whole d) (hfin : d.upload = .finished) :
    d.up.closed = true ∧ ∃ rs, d.wire = wireOf rs ∧ dataOf rs = d.up.sent := by
  obtain ⟨rs, hwire, hdata⟩ := h.wire
  obtain ⟨hclosed, hbuffer⟩ := h.finished hfin
  rw [hfin] at hwire
  exact ⟨hclosed, rs, (List.append_nil _).symm.trans hwire, hdata.trans (Sync.Pipe.taken_of_drained hbuffer)⟩

/-- What the edge can read of the stream is a front of what the caller wrote, and `finish` is called only behind
frames that carry all of it, when the caller has shut down or dropped the stream; a reset is an error of the pump.
Otherwise the sending half ends only with the pump.  The reader is given a front of the payload of the edge, and
all of it before a clean end.  As long as the pump runs, whatever the download has seen, the upload alone can come
to `finish` once the caller has shut down. -/
theorem masque_duplex_exact (recv : Reader IoError) (es : List Event) (d : Duplex)
    (h : Machine.exec step (start recv) es = some d) :
    (∀ p, Carries d.wire p → p <+: d.up.sent) ∧
    (d.ending = some .finish → d.up.closed = true ∧ ∃ rs, d.wire = wireOf rs ∧ dataOf rs = d.up.sent) ∧
    (d.ending = some .reset → ∃ e, d.down.stream.task.result = some (.error e)) ∧
    (d.ending = some .dropped → d.down.stream.task.gone = true ∧ d.upload ≠ .finished) ∧
    (d.down.stream.task.gone = true → d.ending ≠ none) ∧
    (∀ payload, Carries recv.bytes payload → d.down.stream.pipe.taken <+: payload ∧
      (d.down.stream.terminal = some (.ok ()) →
        recv.fault = none ∧ (∃ rs, recv.bytes = wireOf rs) ∧ d.down.stream.pipe.taken = payload)) ∧
    (d.down.stream.task = .running → d.up.closed = true → d.ending ≠ some .finish → ∃ fs d',
      (∀ e ∈ fs, e.ofUpload = true) ∧ Machine.exec step d fs = some d' ∧ d'.ending = some .finish ∧
      (∃ rs, d'.wire = wireOf rs ∧ dataOf rs = d.up.sent) ∧ d'.down = { d.down with uploaded := true }) := by
  have hd := whole_exec h
  have hdown := faithful_exec (exec_down h)
  refine ⟨fun p hp => hd.carries_prefix hp, fun hfin => hd.all_sent (hd.finish.1 hfin), hd.reset,
    fun hdropped => ⟨hd.ending hdropped, fun hfin => ?_⟩, hd.gone, fun payload hp => ?_, fun hrun hclosed hfin => ?_⟩
  · rw [hd.finish.2 hfin] at hdropped
    cases hdropped
  · have hall : ((Download.head recv).outcome []).2 = payload := (drainDownload_carries recv hp []).1
    refine ⟨?_, fun hr => ?_⟩
    · rw [← hall]
      exact (List.prefix_append _ _).trans hdown.sent
    · obtain ⟨hbuffer, htask⟩ := hdown.terminal hr
      have hresult : d.down.stream.task.result = some (.ok ()) := by
        rw [htask]
        rfl
      obtain ⟨hfault, hframes⟩ := hdown.complete hresult
      refine ⟨hfault, hframes, ?_⟩
      rw [← hall, hdown.ok hresult]
      exact Sync.Pipe.taken_of_drained hbuffer
  · obtain ⟨d', ⟨fs, hfs, hexec⟩, hd'⟩ := hd.uploads hrun hclosed fun hu => hfin (hd.finish.2 hu)
    have hwhole : Whole d' :=
      Machine.exec_induction (P := Whole) (fun _ _ _ hd h => hd.move (moves_of_step h)) hd hexec
    obtain ⟨-, rs, hwire, hdata⟩ := hwhole.all_sent hd'.upload
    exact ⟨fs, d', hfs, hexec, hwhole.finish.2 hd'.upload, ⟨rs, hwire, hdata.trans hd'.up⟩, hd'.down⟩

/-- The edge ends its direction while a frame is on its way: the pump succeeds and takes the sending half with
it. -/
def cutUpload : List Event :=
  [.write [2, 3], .take, .transmit 3, .download .receive, .download .finish, .endTask, .endTask]

/-- An edge that ends its direction without a frame. -/
def silentEdge : Reader IoError := ⟨[], ⟨fun _ => 1, fun _ => Nat.one_pos⟩, none⟩

theorem masque_duplex_exact_cut : ∃ d, Machine.exec step (start silentEdge) cutUpload = some d ∧
    d.down.stream.task = .finished (.ok ()) ∧ d.ending = some .dropped ∧ d.wire = [0, 2, 2] ∧ d.up.sent = [2, 3] ∧
    d.upload ≠ .finished :=
  ⟨_, rfl, rfl, rfl, rfl, rfl, ((masque_duplex_exact silentEdge cutUpload _ rfl).2.2.2.1 rfl).2⟩

end Duplex

end Framed

end WarpSocks.Masque
