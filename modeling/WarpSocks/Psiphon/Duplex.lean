import WarpSocks.Psiphon.StreamEnd

/-!
# Both directions of a Psiphon stream

The bridge task of `Psiphon::connect_tcp` with `send` as the source has it, the caller's half of the duplex pipe
and `Drop` of `PsiphonStream`.  `send` reads the caller's bytes in chunks and puts them on the channel, then the
EOF; `receive`, the task and the reads are those of `Psiphon.State`, which the whole stream refines (`exec_down`).
-/

namespace WarpSocks.Psiphon

/-- The buffer of `send`. -/
def CHUNK : Nat := 16384

/-- Where `send` is. -/
inductive Send where
  /-- In `read.read`. -/
  | reading
  /-- In `send_data`, with the bytes that are not on the channel yet. -/
  | sending (rest : List UInt8)
  /-- In `send_eof`. -/
  | ending
  | done
  deriving DecidableEq

namespace Send

def rest : Send → List UInt8
  | sending rest => rest
  | _ => []

def ofRest (rest : List UInt8) : Send := if rest = [] then reading else sending rest

/-- `send` has seen the end of the pipe. -/
def atEnd : Send → Bool
  | ending | done => true
  | reading | sending _ => false

private theorem rest_ofRest (bytes : List UInt8) : (ofRest bytes).rest = bytes := by
  unfold ofRest
  split
  · rename_i hnil
    exact hnil.symm
  · rfl

private theorem atEnd_ofRest (bytes : List UInt8) : (ofRest bytes).atEnd = false := by
  unfold ofRest
  split <;> rfl

end Send

/-- The steps of the task that are not those of `send`. -/
def TaskStep.ofReceive : TaskStep → Bool
  | recv _ | write | writeFailed _ | shutdown | join => true
  | sendDone | sendFailed _ | cancel _ => false

/-- What the join handle of an aborted task gives. -/
def aborted : IoError := ⟨.other, "task was cancelled"⟩

/-- `PsiphonStream` with the bridge task and the channel. -/
structure Duplex where
  /-- `receive`, the pipe to the caller, the task and its handle. -/
  down : State
  /-- The pipe from the caller. -/
  up : Sync.Pipe UInt8 DUPLEX
  send : Send
  /-- The bytes on the channel. -/
  wire : List UInt8
  /-- The EOF is on the channel. -/
  eof : Bool
  /-- `close` was called on the channel. -/
  closed : Bool
  /-- The caller has dropped the stream. -/
  dropped : Bool

namespace Duplex

def start : Duplex := ⟨.initial, .new, .reading, [], false, false, false⟩

inductive Event where
  /-- The caller writes, as much as there is room for. -/
  | write (bytes : List UInt8)
  | shutdown
  /-- `poll_read` goes on. -/
  | read (step : Sync.Bridge.Step)
  | drop
  /-- `receive` goes on, or `try_join!` returns. -/
  | receive (step : TaskStep)
  /-- `read.read` returns. -/
  | take
  /-- `n` bytes of the chunk go to the channel; `send_data` returns behind the last of them. -/
  | transmit (n : Nat)
  /-- `send_eof` returns. -/
  | sendEof
  | sendFailed (e : IoError)
  /-- The task sees that it is aborted. -/
  | abort
  | endTask

def running (d : Duplex) : Bool := d.down.stream.task.result.isNone

/-- A step of the task.  Behind `try_join!` it closes the channel. -/
def task (d : Duplex) (st : TaskStep) : Option Duplex :=
  (Psiphon.step d.down (.task st)).map fun down =>
    { d with down, closed := d.closed || down.stream.task.result.isSome }

def step (d : Duplex) : Event → Option Duplex
  -- the other end is gone with the task
  | .write bytes =>
    if d.up.closed || d.down.stream.task.gone then none else some { d with up := d.up.write bytes }
  | .shutdown => if d.dropped then none else some { d with up := d.up.close }
  | .read st => if d.dropped then none else (Psiphon.step d.down (.read st)).map fun down => { d with down }
  | .drop => if d.dropped then none else some { d with up := d.up.close, closed := true, dropped := true }
  | .receive st =>
    match st with
    -- nothing can be written to a pipe whose other end is dropped
    | .write => if d.dropped then none else d.task .write
    | st => if st.ofReceive then d.task st else none
  | .take =>
    match d.send with
    | .reading =>
      if d.running then
        match d.up.read CHUNK with
        | .pending => none
        | .ended => some { d with send := .ending }
        | .bytes up => some { d with up, send := .ofRest (d.up.buffer.take CHUNK) }
      else none
    | _ => none
  | .transmit n =>
    match d.send with
    | .sending rest =>
      if d.running && n != 0 then some { d with wire := d.wire ++ rest.take n, send := .ofRest (rest.drop n) }
      else none
    | _ => none
  | .sendEof =>
    match d.send with
    | .ending => ({ d with send := .done, eof := true }).task .sendDone
    | _ => none
  | .sendFailed e =>
    match d.send with
    | .done => none
    | _ => d.task (.sendFailed e)
  | .abort =>
    if d.dropped then (Psiphon.step d.down (.task (.cancel aborted))).map fun down => { d with down } else none
  | .endTask => (Psiphon.step d.down .endTask).map fun down => { d with down }

/-- The event as `Psiphon.State` sees it. -/
def Event.shows : Event → List Psiphon.Event
  | write _ | shutdown | drop | take | transmit _ => []
  | read st => [.read st]
  | receive st => [.task st]
  | sendEof => [.task .sendDone]
  | sendFailed e => [.task (.sendFailed e)]
  | abort => [.task (.cancel aborted)]
  | endTask => [.endTask]

/-- What `receive`, the task and the reader go through. -/
def shown (es : List Event) : List Psiphon.Event := es.flatMap Event.shows

variable {d d' : Duplex} {e : Event} {es : List Event}

/-! ### What a step can do -/

/-- What a step can do to the stream. -/
inductive Moves (d : Duplex) : Event → Duplex → Prop where
  | write (bytes : List UInt8) (h : d.up.closed = false) : Moves d (.write bytes) { d with up := d.up.write bytes }
  | shutdown : Moves d .shutdown { d with up := d.up.close }
  | drop : Moves d .drop { d with up := d.up.close, closed := true, dropped := true }
  | take (up : Sync.Pipe UInt8 DUPLEX) (hsend : d.send = .reading) (h : d.up.read CHUNK = .bytes up) :
    Moves d .take { d with up, send := .ofRest (d.up.buffer.take CHUNK) }
  | ended (hsend : d.send = .reading) (h : d.up.read CHUNK = .ended) : Moves d .take { d with send := .ending }
  | transmit (n : Nat) (rest : List UInt8) (hsend : d.send = .sending rest) :
    Moves d (.transmit n) { d with wire := d.wire ++ rest.take n, send := .ofRest (rest.drop n) }
  | sendEof (down : State) (hsend : d.send = .ending) (h : Psiphon.step d.down (.task .sendDone) = some down) :
    Moves d .sendEof
      { d with down, send := .done, eof := true, closed := d.closed || down.stream.task.result.isSome }
  /-- The task goes on, with the channel closed behind `try_join!`. -/
  | task (e : Event) (st : TaskStep) (down : State) (he : e.shows = [.task st]) (hdone : st ≠ .sendDone)
      (hcancel : ∀ e, st ≠ .cancel e) (h : Psiphon.step d.down (.task st) = some down) :
    Moves d e { d with down, closed := d.closed || down.stream.task.result.isSome }
  | abort (down : State) (hdropped : d.dropped = true) (h : Psiphon.step d.down (.task (.cancel aborted)) =
    some down) :
    Moves d .abort { d with down }
  /-- The caller reads, or the task is at its end. -/
  | down (e : Event) (shown : Psiphon.Event) (down : State) (he : e.shows = [shown]) (htask : ∀ st, shown ≠ .task st)
      (h : Psiphon.step d.down shown = some down) : Moves d e { d with down }

private theorem moves_task {st : TaskStep} (he : e.shows = [.task st]) (hdone : st ≠ .sendDone)
    (hcancel : ∀ e, st ≠ .cancel e) (h : d.task st = some d') : Moves d e d' := by
  obtain ⟨down, hdown, rfl⟩ := Option.map_eq_some_iff.1 h
  exact .task e st down he hdone hcancel hdown

private theorem moves_receive {st : TaskStep} (h : d.step (.receive st) = some d') : Moves d (.receive st) d' := by
  simp only [step] at h
  split at h
  · split at h
    · cases h
    · exact moves_task rfl (fun h => by cases h) (fun _ h => by cases h) h
  · split at h
    · rename_i hreceive
      refine moves_task rfl (fun h => ?_) (fun _ h => ?_) h
      · rw [h] at hreceive
        cases hreceive
      · rw [h] at hreceive
        cases hreceive
    · cases h

private theorem moves_take (h : d.step .take = some d') : Moves d .take d' := by
  simp only [step] at h
  split at h
  · rename_i hsend
    split at h
    · split at h
      · cases h
      · rename_i hended
        cases h
        exact .ended hsend hended
      · rename_i up hbytes
        cases h
        exact .take up hsend hbytes
    · cases h
  · cases h

private theorem moves_of_step (h : d.step e = some d') : Moves d e d' := by
  cases e with
  | write bytes =>
    simp only [step] at h
    split at h
    · cases h
    · rename_i hopen
      cases h
      exact .write bytes (Bool.or_eq_false_iff.1 (Bool.eq_false_iff.2 hopen)).1
  | shutdown =>
    simp only [step] at h
    split at h
    · cases h
    · cases h
      exact .shutdown
  | read st =>
    simp only [step] at h
    split at h
    · cases h
    · obtain ⟨down, hdown, rfl⟩ := Option.map_eq_some_iff.1 h
      exact .down _ _ down rfl (fun _ h => by cases h) hdown
  | drop =>
    simp only [step] at h
    split at h
    · cases h
    · cases h
      exact .drop
  | receive st => exact moves_receive h
  | take => exact moves_take h
  | transmit n =>
    simp only [step] at h
    split at h
    · rename_i rest hsend
      split at h
      · cases h
        exact .transmit n rest hsend
      · cases h
    · cases h
  | sendEof =>
    simp only [step] at h
    split at h
    · rename_i hsend
      obtain ⟨down, hdown, rfl⟩ := Option.map_eq_some_iff.1 h
      exact .sendEof down hsend hdown
    · cases h
  | sendFailed e =>
    simp only [step] at h
    split at h
    · cases h
    · exact moves_task rfl (fun h => by cases h) (fun _ h => by cases h) h
  | abort =>
    simp only [step] at h
    split at h
    · rename_i hdropped
      obtain ⟨down, hdown, rfl⟩ := Option.map_eq_some_iff.1 h
      exact .abort down hdropped hdown
    · cases h
  | endTask =>
    obtain ⟨down, hdown, rfl⟩ := Option.map_eq_some_iff.1 h
    exact .down _ _ down rfl (fun _ h => by cases h) hdown

/-! ### The refinement -/

private theorem Moves.shows (h : Moves d e d') : Machine.exec Psiphon.step d.down e.shows = some d'.down := by
  cases h with
  | write bytes hopen => rfl
  | shutdown => rfl
  | drop => rfl
  | take up hsend h => rfl
  | ended hsend h => rfl
  | transmit n rest hsend => rfl
  | sendEof down hsend h => exact Machine.exec_single h
  | task e st down he hdone hcancel h =>
    rw [he]
    exact Machine.exec_single h
  | abort down hdropped h => exact Machine.exec_single h
  | down e shown down he htask h =>
    rw [he]
    exact Machine.exec_single h

/-- What `receive`, the task and the reader do is a run of their own. -/
theorem exec_down (h : Machine.exec step start es = some d) :
    Machine.exec Psiphon.step .initial (shown es) = some d.down :=
  Machine.exec_flatMap (f := Duplex.down) (g := Event.shows) (fun _ _ _ h => (moves_of_step h).shows) h

/-! ### What the rest of the task knows of `send` -/

section Down

variable {s s' : State} {st : TaskStep}

private theorem task_running {e : TaskStep} (h : Psiphon.step s (.task e) = some s') :
    s.stream.task = .running ∧ taskStep s e = some s' := by
  simp only [Psiphon.step] at h
  split at h
  · rename_i hrun
    exact ⟨hrun, h⟩
  · cases h

private theorem sent_sendDone (h : Psiphon.step s (.task .sendDone) = some s') :
    s'.sent = true ∧ s'.stream = s.stream := by
  obtain ⟨-, h⟩ := task_running h
  simp only [taskStep] at h
  split at h
  · cases h
  · cases h
    exact ⟨rfl, rfl⟩

/-- Only the end of `send` is told to the task, and the task succeeds only behind it. -/
private theorem sent_task (h : Psiphon.step s (.task st) = some s') (hdone : st ≠ .sendDone) :
    s'.sent = s.sent ∧ (s'.stream.task.result = some (.ok ()) → s.sent = true) := by
  obtain ⟨hrun, h⟩ := task_running h
  have hnone : s.stream.task.result ≠ some (.ok ()) := by
    rw [hrun]
    exact fun h => by cases h
  cases st with
  | recv event =>
    simp only [taskStep] at h
    split at h
    · cases h
      exact ⟨rfl, fun hok => (hnone hok).elim⟩
    · cases h
      exact ⟨rfl, fun hok => (hnone hok).elim⟩
    · cases h
      exact ⟨rfl, fun hok => (hnone hok).elim⟩
    · cases h
      exact ⟨rfl, fun hok => by cases hok⟩
    · cases h
  | write =>
    simp only [taskStep] at h
    split at h
    · split at h
      · cases h
      · cases h
        exact ⟨rfl, fun hok => (hnone hok).elim⟩
    · cases h
  | writeFailed e =>
    simp only [taskStep] at h
    split at h
    · cases h
      exact ⟨rfl, fun hok => by cases hok⟩
    · cases h
  | shutdown =>
    simp only [taskStep] at h
    split at h
    · cases h
      exact ⟨rfl, fun hok => (hnone hok).elim⟩
    · cases h
  | sendDone => exact (hdone rfl).elim
  | sendFailed e =>
    simp only [taskStep] at h
    split at h
    · cases h
    · cases h
      exact ⟨rfl, fun hok => by cases hok⟩
  | join =>
    simp only [taskStep] at h
    split at h
    · split at h
      · rename_i hsent
        cases h
        exact ⟨rfl, fun _ => hsent⟩
      · cases h
    · cases h
  | cancel e =>
    cases h
    exact ⟨rfl, fun hok => by cases hok⟩

/-- The reads and the end of the task leave its result. -/
private theorem result_quiet {e : Psiphon.Event} (h : Psiphon.step s e = some s') (he : ∀ st, e ≠ .task st) :
    s'.sent = s.sent ∧ s'.stream.task.result = s.stream.task.result := by
  cases e with
  | task st => exact (he st rfl).elim
  | endTask =>
    obtain ⟨stream, hend, rfl⟩ := Option.map_eq_some_iff.1 h
    obtain ⟨-, hresult, -⟩ := Sync.Bridge.extends_endStep hend
    exact ⟨rfl, hresult⟩
  | read st =>
    obtain ⟨stream, hread, rfl⟩ := Option.map_eq_some_iff.1 h
    obtain ⟨-, -, -, htask⟩ := Sync.Bridge.frame_readStep hread
    exact ⟨rfl, congrArg Sync.Task.result htask⟩

end Down

/-! ### The invariant -/

/-- The task has returned. -/
def hasReturned (d : Duplex) : Bool := d.down.stream.task.result.isSome

/-- Where the caller's bytes, the EOF and the channel are. -/
structure Whole (d : Duplex) : Prop where
  /-- What was taken from the caller is on the channel or in the chunk at hand. -/
  wire : d.wire ++ d.send.rest = d.up.taken
  atEnd : d.send.atEnd = true → d.up.closed = true ∧ d.up.buffer = []
  sent : d.down.sent = true ↔ d.send = .done
  eof : d.eof = true ↔ d.send = .done
  ok : d.down.stream.task.result = some (.ok ()) → d.send = .done
  closed : d.closed = true ↔ d.dropped = true ∨ d.hasReturned = true
  dropped : d.dropped = true → d.up.closed = true

private theorem whole_start : Whole start := by
  refine ⟨rfl, fun h => (by cases h), ⟨fun h => (by cases h), fun h => (by cases h)⟩,
    ⟨fun h => (by cases h), fun h => (by cases h)⟩, fun h => (by cases h), ⟨fun h => (by cases h), fun h => ?_⟩,
    fun h => (by cases h)⟩
  exact h.elim (fun h => by cases h) (fun h => by cases h)

private theorem Whole.up (h : Whole d) {up : Sync.Pipe UInt8 DUPLEX} (htaken : up.taken = d.up.taken)
    (hclosed : d.up.closed = true → up.closed = true)
    (hbuffer : d.up.closed = true → up.buffer = d.up.buffer) : Whole { d with up } := by
  obtain ⟨wire, atEnd, sent, eof, ok, closed, dropped⟩ := h
  refine ⟨wire.trans htaken.symm, fun hend => ?_, sent, eof, ok, closed, fun hd => hclosed (dropped hd)⟩
  obtain ⟨hc, hb⟩ := atEnd hend
  exact ⟨hclosed hc, (hbuffer hc).trans hb⟩

/-- A step of the task other than the end of `send`. -/
private theorem Whole.down (h : Whole d) {down : State} (hsent : down.sent = d.down.sent)
    (hok : down.stream.task.result = some (.ok ()) → d.down.sent = true) {closed : Bool}
    (hclosed : closed = true ↔ d.dropped = true ∨ down.stream.task.result.isSome = true) :
    Whole { d with down, closed } := by
  obtain ⟨wire, atEnd, sent, eof, ok, -, dropped⟩ := h
  refine ⟨wire, atEnd, ?_, eof, fun h => sent.1 (hok h), hclosed, dropped⟩
  show down.sent = true ↔ _
  rw [hsent]
  exact sent

/-- A task that takes a step has not returned. -/
private theorem Whole.closed_task (h : Whole d) {st : TaskStep} {down : State}
    (hstep : Psiphon.step d.down (.task st) = some down) :
    (d.closed || down.stream.task.result.isSome) = true ↔ d.dropped = true ∨
    down.stream.task.result.isSome = true := by
  have hover : d.hasReturned = false := by
    unfold hasReturned
    rw [(task_running hstep).1]
    rfl
  rw [Bool.or_eq_true, h.closed, hover]
  simp only [Bool.false_eq_true, or_false]

private theorem Whole.move (h : Whole d) (hmove : Moves d e d') : Whole d' := by
  cases hmove with
  | write bytes hopen =>
    refine h.up rfl (fun hc => hc) fun hc => ?_
    rw [hopen] at hc
    cases hc
  | shutdown => exact h.up rfl (fun _ => rfl) fun _ => rfl
  | drop =>
    obtain ⟨wire, atEnd, sent, eof, ok, -, -⟩ := h
    exact ⟨wire, fun hend => ⟨rfl, (atEnd hend).2⟩, sent, eof, ok, ⟨fun _ => .inl rfl, fun _ => rfl⟩, fun _ => rfl⟩
  | take up hsend hread =>
    obtain ⟨wire, -, sent, eof, ok, closed, dropped⟩ := h
    obtain ⟨-, -, hclosed, htaken⟩ := Sync.Pipe.read_bytes hread
    rw [hsend] at wire sent eof ok
    have hne : Send.ofRest (d.up.buffer.take CHUNK) ≠ .done := by
      intro hdone
      have := Send.atEnd_ofRest (d.up.buffer.take CHUNK)
      rw [hdone] at this
      cases this
    refine ⟨?_, fun hend => ?_, ?_, ?_, fun hok => ?_, closed, fun hd => hclosed.trans (dropped hd)⟩
    · rw [Send.rest_ofRest, htaken, ← wire]
      exact congrArg (· ++ _) (List.append_nil _).symm
    · rw [Send.atEnd_ofRest] at hend
      cases hend
    · exact ⟨fun hs => (by cases sent.1 hs), fun hd => (hne hd).elim⟩
    · exact ⟨fun hs => (by cases eof.1 hs), fun hd => (hne hd).elim⟩
    · cases ok hok
  | ended hsend hread =>
    obtain ⟨wire, -, sent, eof, ok, closed, dropped⟩ := h
    rw [hsend] at wire sent eof ok
    refine ⟨wire, fun _ => Sync.Pipe.read_ended hread, ?_, ?_, fun hok => ?_, closed, dropped⟩
    · exact ⟨fun hs => (by cases sent.1 hs), fun hd => (by cases hd)⟩
    · exact ⟨fun hs => (by cases eof.1 hs), fun hd => (by cases hd)⟩
    · cases ok hok
  | transmit n rest hsend =>
    obtain ⟨wire, -, sent, eof, ok, closed, dropped⟩ := h
    rw [hsend] at wire sent eof ok
    have hne : Send.ofRest (rest.drop n) ≠ .done := by
      intro hdone
      have := Send.atEnd_ofRest (rest.drop n)
      rw [hdone] at this
      cases this
    refine ⟨?_, fun hend => ?_, ?_, ?_, fun hok => ?_, closed, dropped⟩
    · rw [Send.rest_ofRest, List.append_assoc, List.take_append_drop]
      exact wire
    · rw [Send.atEnd_ofRest] at hend
      cases hend
    · exact ⟨fun hs => (by cases sent.1 hs), fun hd => (hne hd).elim⟩
    · exact ⟨fun hs => (by cases eof.1 hs), fun hd => (hne hd).elim⟩
    · cases ok hok
  | sendEof down hsend hstep =>
    have hclosed := h.closed_task hstep
    obtain ⟨hs, -⟩ := sent_sendDone hstep
    obtain ⟨wire, atEnd, -, -, -, -, dropped⟩ := h
    rw [hsend] at wire atEnd
    exact ⟨wire, fun _ => atEnd rfl, ⟨fun _ => rfl, fun _ => hs⟩, ⟨fun _ => rfl, fun _ => rfl⟩, fun _ => rfl, hclosed,
      dropped⟩
  | task e st down he hdone hcancel hstep =>
    obtain ⟨hsent, hok⟩ := sent_task hstep hdone
    exact h.down hsent hok (h.closed_task hstep)
  | abort down hdropped hstep =>
    obtain ⟨hsent, hok⟩ := sent_task hstep (fun h => by cases h)
    exact h.down hsent hok ⟨fun _ => .inl hdropped, fun _ => h.closed.2 (.inl hdropped)⟩
  | down e shown down he htask hstep =>
    obtain ⟨hsent, hresult⟩ := result_quiet hstep htask
    refine h.down hsent (fun hok => h.sent.2 (h.ok (hresult ▸ hok))) ?_
    rw [hresult]
    exact h.closed

theorem whole_exec (h : Machine.exec step start es = some d) : Whole d :=
  Machine.exec_induction (P := Whole) (fun _ _ _ hd h => hd.move (moves_of_step h)) whole_start h

/-! ### `send` comes to its end -/

/-- The steps of `send` that succeed. -/
def Event.ofSend : Event → Bool
  | take | transmit _ | sendEof => true
  | write _ | shutdown | read _ | drop | receive _ | sendFailed _ | abort | endTask => false

/-- `send` alone can bring the stream to `d'`. -/
def Sends (d d' : Duplex) : Prop := ∃ fs, (∀ e ∈ fs, e.ofSend = true) ∧ Machine.exec step d fs = some d'

private theorem Sends.cons {d₁ : Duplex} (he : e.ofSend = true) (hstep : d.step e = some d₁) (h : Sends d₁ d') :
    Sends d d' :=
  Machine.exec_cons_all he hstep h

private theorem sends_refl (d : Duplex) : Sends d d := ⟨[], fun _ h => (by cases h), rfl⟩

private theorem running_of_task (h : d.down.stream.task = .running) : d.running = true := by
  unfold running
  rw [h]
  rfl

/-- What `send` leaves when it is done. -/
structure Sent (d d' : Duplex) : Prop where
  eof : d'.eof = true
  wire : d'.wire = d.up.sent
  down : d'.down = { d.down with sent := true }

private theorem sends_of_ending (hrun : d.down.stream.task = .running) (hsent : d.down.sent = false)
    (hsend : d.send = .ending) :
    ∃ d', Sends d d' ∧ d'.eof = true ∧ d'.wire = d.wire ∧ d'.down = { d.down with sent := true } := by
  have hdown : Psiphon.step d.down (.task .sendDone) = some { d.down with sent := true } := by
    simp only [Psiphon.step, hrun, taskStep, hsent, Bool.false_eq_true, if_false]
  have hstep : d.step .sendEof = ({ d with send := .done, eof := true } : Duplex).task .sendDone := by
    simp only [step, hsend]
  simp only [task, hdown, Option.map_some] at hstep
  exact ⟨_, Sends.cons rfl hstep (sends_refl _), rfl, rfl, rfl⟩

/-- A chunk goes out at once. -/
private theorem step_transmit {rest : List UInt8} (hrun : d.down.stream.task = .running)
    (hsend : d.send = .sending rest) :
    d.step (.transmit (rest.length + 1)) = some { d with wire := d.wire ++ rest, send := .reading } := by
  have hn : (rest.length + 1 != 0) = true := rfl
  simp only [step, hsend, running_of_task hrun, hn, Bool.and_self, if_true, Send.ofRest,
    List.take_of_length_le (Nat.le_succ rest.length), List.drop_of_length_le (Nat.le_succ rest.length)]

/-- `send` in `read.read`, with the caller gone or shut down: chunk by chunk to the end of the pipe. -/
private theorem sends_of_reading (n : Nat) (hn : d.up.buffer.length = n) (hrun : d.down.stream.task = .running)
    (hsent : d.down.sent = false) (hclosed : d.up.closed = true) (hsend : d.send = .reading)
    (hwire : d.wire = d.up.taken) : ∃ d', Sends d d' ∧ Sent d d' := by
  induction n using Nat.strongRecOn generalizing d with
  | ind n ih =>
    have hrunning := running_of_task hrun
    by_cases hb : d.up.buffer = []
    · have hread := Sync.Pipe.read_of_closed CHUNK hclosed hb
      obtain ⟨d', hsends, heof, hw, hd⟩ := sends_of_ending (d := { d with send := .ending }) hrun hsent rfl
      refine ⟨d', Sends.cons (e := .take) rfl ?_ hsends, heof, ?_, hd⟩
      · simp only [step, hsend, hrunning, if_true, hread]
      · exact hw.trans (hwire.trans (Sync.Pipe.taken_of_drained hb))
    · obtain ⟨up, hread, hchunk, hlen⟩ := Sync.Pipe.read_of_nonempty (n := CHUNK) (by decide) hb
      obtain ⟨-, hup, hupclosed, htaken⟩ := Sync.Pipe.read_bytes hread
      obtain ⟨d', hsends, hsent'⟩ := ih up.buffer.length (hn ▸ hlen)
        (d := { d with up, send := .reading, wire := d.wire ++ d.up.buffer.take CHUNK }) rfl hrun hsent
        (hupclosed.trans hclosed) rfl (by rw [hwire]; exact htaken.symm)
      have htake : d.step .take = some { d with up, send := .sending (d.up.buffer.take CHUNK) } := by
        simp only [step, hsend, hrunning, if_true, hread, Send.ofRest, if_neg hchunk]
      exact ⟨d', Sends.cons rfl htake (Sends.cons rfl (step_transmit hrun rfl) hsends), hsent'.eof,
        hsent'.wire.trans hup, hsent'.down⟩

private theorem Whole.sends (h : Whole d) (hrun : d.down.stream.task = .running) (hclosed : d.up.closed = true)
    (hdone : d.send ≠ .done) : ∃ d', Sends d d' ∧ Sent d d' := by
  have hsent : d.down.sent = false := Bool.eq_false_iff.2 fun hs => hdone (h.sent.1 hs)
  cases hsend : d.send with
  | reading =>
    refine sends_of_reading _ rfl hrun hsent hclosed hsend ?_
    have := h.wire
    rw [hsend] at this
    exact (List.append_nil _).symm.trans this
  | sending rest =>
    have hwire := h.wire
    rw [hsend] at hwire
    obtain ⟨d', hsends, hd'⟩ :=
      sends_of_reading (d := { d with send := .reading, wire := d.wire ++ rest }) _ rfl hrun hsent hclosed rfl hwire
    exact ⟨d', Sends.cons rfl (step_transmit hrun hsend) hsends, hd'.eof, hd'.wire, hd'.down⟩
  | ending =>
    obtain ⟨d', hsends, heof, hw, hd⟩ := sends_of_ending hrun hsent hsend
    refine ⟨d', hsends, heof, hw.trans ?_, hd⟩
    have hwire := h.wire
    have hend := h.atEnd
    rw [hsend] at hwire hend
    exact ((List.append_nil _).symm.trans hwire).trans (Sync.Pipe.taken_of_drained (hend rfl).2)
  | done => exact (hdone hsend).elim

private theorem Whole.wire_prefix (h : Whole d) : d.wire <+: d.up.sent := by
  refine List.IsPrefix.trans ⟨d.send.rest, h.wire⟩ ?_
  exact List.prefix_append _ _

/-- The EOF stands behind everything the caller wrote. -/
private theorem Whole.all_sent (h : Whole d) (hdone : d.send = .done) : d.up.closed = true ∧ d.wire = d.up.sent := by
  have hwire := h.wire
  have hend := h.atEnd
  rw [hdone] at hwire hend
  obtain ⟨hclosed, hbuffer⟩ := hend rfl
  exact ⟨hclosed, ((List.append_nil _).symm.trans hwire).trans (Sync.Pipe.taken_of_drained hbuffer)⟩

/-- The channel carries the caller's bytes in their order and the EOF only behind all of them; the reader is given
the bytes of the channel in their order; the task succeeds only if both directions are complete.  The channel is
closed exactly if the caller has dropped the stream or the task has returned.  The two directions end apart: as
long as the task runs, whatever `receive` has seen, `send` alone can bring everything and the EOF to the channel
once the caller has shut down. -/
theorem psiphon_duplex_exact (es : List Event) (d : Duplex) (h : Machine.exec step start es = some d) :
    d.wire <+: d.up.sent ∧ (d.eof = true → d.up.closed = true ∧ d.wire = d.up.sent) ∧
    d.down.stream.pipe.taken <+: dataOf (shown es) ∧
    (d.down.stream.task.result = some (.ok ()) →
      d.eof = true ∧ d.wire = d.up.sent ∧ Psiphon.Event.eof ∈ shown es ∧
      d.down.stream.pipe.sent = dataOf (shown es)) ∧
    (d.closed = true ↔ d.dropped = true ∨ d.hasReturned = true) ∧
    (d.down.stream.task = .running → d.up.closed = true → d.eof = false → ∃ fs d', (∀ e ∈ fs, e.ofSend = true) ∧
      Machine.exec step d fs = some d' ∧ d'.eof = true ∧ d'.wire = d.up.sent ∧
      d'.down = { d.down with sent := true }) := by
  have hd := whole_exec h
  have hhonest := honest_exec (exec_down h)
  refine ⟨hd.wire_prefix, fun heof => hd.all_sent (hd.eof.1 heof), (List.prefix_append _ _).trans hhonest.sent,
    fun hok => ?_, hd.closed, fun hrun hclosed heof => ?_⟩
  · have hdone := hd.ok hok
    have hflag := hhonest.ok hok
    exact ⟨hd.eof.2 hdone, (hd.all_sent hdone).2, hhonest.flag.1 hflag, hhonest.all hflag⟩
  · have hdone : d.send ≠ .done := by
      intro hdone
      rw [hd.eof.2 hdone] at heof
      cases heof
    obtain ⟨d', ⟨fs, hfs, hexec⟩, hsent⟩ := hd.sends hrun hclosed hdone
    exact ⟨fs, d', hfs, hexec, hsent.eof, hsent.wire, hsent.down⟩

/-- The server ends its direction first; what the caller writes behind its EOF still goes out. -/
def halfClosed : List Event :=
  [.receive (.recv (some (.data [1]))), .receive .write, .receive (.recv (some .eof)), .receive .shutdown,
    .write [2, 3], .take, .transmit 1, .shutdown, .transmit 1, .take, .sendEof, .receive .join]

theorem psiphon_duplex_exact_half_closed : ∃ d, Machine.exec step start halfClosed = some d ∧
    d.wire = [2, 3] ∧ d.eof = true ∧ d.wire = d.up.sent ∧ d.closed = true :=
  ⟨_, rfl, rfl, rfl, ((psiphon_duplex_exact halfClosed _ rfl).2.1 rfl).2, rfl⟩

end Duplex

end WarpSocks.Psiphon
