import WarpSocks.Psiphon.Stream

/-!
# The end of a Psiphon stream

A reader takes the end of the pipe for the end of the stream only behind an EOF event of the channel.  The flag is
set by that event only, when everything before it is in the pipe, and the pipe is closed by the EOF or by the end
of the task (`Honest`); the rest is the rule of `Sync.Bridge` for such a reader.
-/

namespace WarpSocks.Psiphon

/-! ### What the channel has delivered -/

def Event.data : Event → List UInt8
  | .task (.recv (some (.data bytes))) => bytes
  | _ => []

/-- The concatenation of the data events. -/
def dataOf (es : List Event) : List UInt8 := es.flatMap Event.data

/-- The event that tells of the EOF. -/
def Event.eof : Event := .task (.recv (some .eof))

private theorem dataOf_concat (es : List Event) (e : Event) : dataOf (es ++ [e]) = dataOf es ++ e.data := by
  simp [dataOf]

/-! ### The invariant -/

/-- What the stream tells the reader, after the events. -/
structure Honest (es : List Event) (s : State) : Prop where
  sound : s.stream.Sound
  /-- The flag is set by the EOF event only. -/
  flag : s.stream.flag = true ↔ Event.eof ∈ es
  /-- Behind the EOF event nothing is received. -/
  atEof : s.stream.flag = true ↔ s.receive = .shutting ∨ s.receive = .done
  /-- While the task runs, what was written and what is being written is what was received. -/
  running : s.stream.task = .running → s.stream.pipe.sent ++ s.receive.rest = dataOf es
  sent : s.stream.pipe.sent <+: dataOf es
  all : s.stream.flag = true → s.stream.pipe.sent = dataOf es
  /-- The pipe is closed by the EOF or by the end of the task. -/
  closed : s.stream.pipe.closed = true → s.stream.flag = true ∨ s.stream.task.gone = true
  gone : s.stream.task.gone = true → s.stream.pipe.closed = true
  ok : s.stream.task.result = some (.ok ()) → s.stream.flag = true

variable {es : List Event} {s s' : State} {e : Event}

private theorem honest_initial : Honest [] .initial := by
  refine ⟨Sync.Bridge.sound_new, ?_, ?_, fun _ => rfl, List.prefix_rfl, ?_, ?_, ?_, ?_⟩
  · exact ⟨fun h => (nomatch h), fun h => (nomatch h)⟩
  · exact ⟨fun h => (nomatch h), fun h => h.elim (fun h => nomatch h) (fun h => nomatch h)⟩
  · exact fun h => nomatch h
  · exact fun h => nomatch h
  · exact fun h => nomatch h
  · exact fun h => nomatch h

/-- An event that delivers nothing adds nothing to what was delivered. -/
private theorem Honest.quiet (h : Honest es s) (e : Event) (hdata : e.data = []) (heof : e ≠ Event.eof) :
    Honest (es ++ [e]) s := by
  have hes : dataOf (es ++ [e]) = dataOf es := by rw [dataOf_concat, hdata, List.append_nil]
  have hmem : Event.eof ∈ es ++ [e] ↔ Event.eof ∈ es := by
    rw [List.mem_append, List.mem_singleton]
    exact or_iff_left fun he => heof he.symm
  obtain ⟨sound, flag, atEof, running, sent, all, closed, gone, ok⟩ := h
  refine ⟨sound, ?_, atEof, ?_, ?_, ?_, closed, gone, ok⟩
  · rw [hmem]
    exact flag
  · rw [hes]
    exact running
  · rw [hes]
    exact sent
  · rw [hes]
    exact all

/-- The task returns, with success only behind the EOF. -/
private theorem Honest.returned (h : Honest es s) (hrun : s.stream.task = .running) (result : Except IoError Unit)
    (hok : result = .ok () → s.stream.flag = true) : Honest es (s.setTask (.returned result)) := by
  have hgone : s.stream.pipe.closed = true → s.stream.flag = true := by
    intro hc
    rcases h.closed hc with hf | hg
    · exact hf
    · rw [hrun] at hg
      nomatch hg
  refine ⟨?_, h.flag, h.atEof, fun hr => (nomatch hr), h.sent, h.all, fun hc => .inl (hgone hc),
    fun hg => (nomatch hg), ?_⟩
  · exact h.sound.extends (Sync.Bridge.extends_setTask (by rw [hrun]; exact fun _ hf => nomatch hf))
  · intro hr
    exact hok (Option.some.inj hr)

/-- While the task runs and the EOF has not come, the pipe is open. -/
private theorem Honest.open (h : Honest es s) (hrun : s.stream.task = .running) (hflag : s.stream.flag = false) :
    s.stream.pipe.closed = false := by
  cases hc : s.stream.pipe.closed with
  | false => rfl
  | true =>
    rcases h.closed hc with hf | hg
    · rw [hflag] at hf
      nomatch hf
    · rw [hrun] at hg
      nomatch hg

private theorem Honest.flag_false (h : Honest es s) (hreceive : s.receive ≠ .shutting ∧ s.receive ≠ .done) :
    s.stream.flag = false := by
  rw [Bool.eq_false_iff]
  intro hf
  exact (h.atEof.1 hf).elim hreceive.1 hreceive.2

private theorem ofRest_rest (rest : List UInt8) : (Receive.ofRest rest).rest = rest := by
  unfold Receive.ofRest
  split
  · rename_i hnil
    rw [hnil]
    rfl
  · rfl

private theorem ofRest_ne (rest : List UInt8) : Receive.ofRest rest ≠ .shutting ∧ Receive.ofRest rest ≠ .done := by
  unfold Receive.ofRest
  split
  · exact ⟨fun h => (nomatch h), fun h => (nomatch h)⟩
  · exact ⟨fun h => (nomatch h), fun h => (nomatch h)⟩

private theorem Honest.flag_of_waiting (h : Honest es s) (hwait : s.receive = .waiting) : s.stream.flag = false := by
  refine h.flag_false ?_
  rw [hwait]
  exact ⟨fun h => (nomatch h), fun h => (nomatch h)⟩

/-- While `receive` waits, everything it has received is in the pipe. -/
private theorem Honest.sent_of_waiting (h : Honest es s) (hrun : s.stream.task = .running)
    (hwait : s.receive = .waiting) :
    s.stream.pipe.sent = dataOf es := by
  have hall := h.running hrun
  rw [hwait] at hall
  exact (List.append_nil _).symm.trans hall

/-- `receive` takes a data event. -/
private theorem Honest.data (h : Honest es s) (hrun : s.stream.task = .running) (hwait : s.receive = .waiting)
    (bytes : List UInt8) :
    Honest (es ++ [.task (.recv (some (.data bytes)))]) { s with receive := .ofRest bytes } := by
  have hflag := h.flag_of_waiting hwait
  have hsent := h.sent_of_waiting hrun hwait
  refine ⟨h.sound, ?_, ?_, fun _ => ?_, ?_, fun hf => ?_, h.closed, h.gone, h.ok⟩
  · rw [h.flag, List.mem_append, List.mem_singleton]
    exact (or_iff_left fun he => nomatch he).symm
  · rw [hflag]
    exact ⟨fun hf => (nomatch hf), fun hr => (hr.elim (ofRest_ne bytes).1 (ofRest_ne bytes).2).elim⟩
  · rw [dataOf_concat, ofRest_rest]
    exact congrArg (· ++ bytes) hsent
  · rw [dataOf_concat, hsent]
    exact List.prefix_append _ _
  · rw [hflag] at hf
    nomatch hf

/-- `receive` takes the EOF event. -/
private theorem Honest.eof (h : Honest es s) (hrun : s.stream.task = .running) (hwait : s.receive = .waiting) :
    Honest (es ++ [Event.eof]) { s with stream := { s.stream with flag := true }, receive := .shutting } := by
  have hopen := h.open hrun (h.flag_of_waiting hwait)
  have hdata : dataOf (es ++ [Event.eof]) = dataOf es := by
    rw [dataOf_concat]
    exact List.append_nil _
  have hsent := h.sent_of_waiting hrun hwait
  refine ⟨?_, ?_, ⟨fun _ => .inl rfl, fun _ => rfl⟩, ?_, ?_, ?_, fun _ => .inl rfl, h.gone, fun _ => rfl⟩
  · refine h.sound.extends ⟨⟨rfl, rfl, rfl⟩, fun _ => rfl, fun _ => rfl, fun hc => ?_, fun _ hf => hf⟩
    rw [hopen] at hc
    nomatch hc
  · exact ⟨fun _ => List.mem_append_right _ (List.mem_singleton.2 rfl), fun _ => rfl⟩
  · intro _
    rw [hdata]
    exact (List.append_nil _).trans hsent
  · rw [hdata]
    exact hsent ▸ List.prefix_rfl
  · intro _
    rw [hdata]
    exact hsent

/-- `receive` writes as much as there is room for. -/
private theorem Honest.write (h : Honest es s) (hrun : s.stream.task = .running) {rest : List UInt8}
    (hwriting : s.receive = .writing rest) :
    Honest es { s with
      stream := s.stream.setPipe (s.stream.pipe.write rest)
      receive := .ofRest (rest.drop (s.stream.pipe.room rest)) } := by
  have hflag : s.stream.flag = false :=
    h.flag_false (by rw [hwriting]; exact ⟨fun h => (nomatch h), fun h => (nomatch h)⟩)
  have hopen := h.open hrun hflag
  have hsent : (s.stream.pipe.write rest).sent ++ rest.drop (s.stream.pipe.room rest) = dataOf es := by
    rw [Sync.Pipe.sent_write, List.append_assoc, List.take_append_drop]
    have := h.running hrun
    rw [hwriting] at this
    exact this
  refine ⟨?_, h.flag, ?_, fun _ => ?_, ⟨_, hsent⟩, fun hf => ?_, ?_, h.gone, h.ok⟩
  · refine h.sound.extends (Sync.Bridge.extends_setPipe fun hc => ?_)
    rw [hopen] at hc
    nomatch hc
  · rw [show (s.stream.setPipe (s.stream.pipe.write rest)).flag = false from hflag]
    exact ⟨fun hf => (nomatch hf), fun hr => (hr.elim (ofRest_ne _).1 (ofRest_ne _).2).elim⟩
  · rw [ofRest_rest]
    exact hsent
  · rw [show (s.stream.setPipe (s.stream.pipe.write rest)).flag = false from hflag] at hf
    nomatch hf
  · exact h.closed

/-- `receive` shuts the pipe down. -/
private theorem Honest.shutdown (h : Honest es s) (hshut : s.receive = .shutting) :
    Honest es { s with stream := s.stream.setPipe s.stream.pipe.close, receive := .done } := by
  have hflag : s.stream.flag = true := h.atEof.2 (.inl hshut)
  refine ⟨?_, h.flag, ⟨fun _ => .inr rfl, fun _ => hflag⟩, fun _ => ?_, h.sent, h.all, fun _ => .inl hflag, ?_, h.ok⟩
  · exact h.sound.extends (Sync.Bridge.extends_setPipe fun hc => Sync.Pipe.close_of_closed hc)
  · exact (List.append_nil _).trans (h.all hflag)
  · exact fun _ => rfl

private theorem Honest.taskStep {st : TaskStep} (h : Honest es s) (hrun : s.stream.task = .running)
    (hstep : taskStep s st = some s') : Honest (es ++ [.task st]) s' := by
  cases st with
  | recv event =>
    simp only [Psiphon.taskStep] at hstep
    split at hstep
    · rename_i bytes hwait
      cases hstep
      exact h.data hrun hwait bytes
    · rename_i hwait
      cases hstep
      exact h.eof hrun hwait
    · cases hstep
      exact h.quiet (.task (.recv (some .other))) rfl fun he => nomatch he
    · cases hstep
      exact (h.quiet (.task (.recv none)) rfl fun he => nomatch he).returned hrun
        (.error closedWithoutEof) fun hok => nomatch hok
    · nomatch hstep
  | write =>
    simp only [Psiphon.taskStep] at hstep
    split at hstep
    · rename_i rest hwriting
      split at hstep
      · nomatch hstep
      · cases hstep
        exact (h.quiet (.task .write) rfl fun he => nomatch he).write hrun hwriting
    · nomatch hstep
  | writeFailed e =>
    simp only [Psiphon.taskStep] at hstep
    split at hstep
    · cases hstep
      exact (h.quiet (.task (.writeFailed e)) rfl fun he => nomatch he).returned hrun
        (.error e) fun hok => nomatch hok
    · nomatch hstep
  | shutdown =>
    simp only [Psiphon.taskStep] at hstep
    split at hstep
    · rename_i hshut
      cases hstep
      exact (h.quiet (.task .shutdown) rfl fun he => nomatch he).shutdown hshut
    · nomatch hstep
  | sendDone =>
    simp only [Psiphon.taskStep] at hstep
    split at hstep
    · nomatch hstep
    · cases hstep
      obtain ⟨sound, flag, atEof, running, sent, all, closed, gone, ok⟩ := h.quiet (.task .sendDone) rfl
        fun he => nomatch he
      exact ⟨sound, flag, atEof, running, sent, all, closed, gone, ok⟩
  | sendFailed e =>
    simp only [Psiphon.taskStep] at hstep
    split at hstep
    · nomatch hstep
    · cases hstep
      exact (h.quiet (.task (.sendFailed e)) rfl fun he => nomatch he).returned hrun (.error e) fun hok => nomatch hok
  | join =>
    simp only [Psiphon.taskStep] at hstep
    split at hstep
    · rename_i hdone
      split at hstep
      · cases hstep
        exact (h.quiet (.task .join) rfl fun he => nomatch he).returned hrun (.ok ()) fun _ => h.atEof.2 (.inr hdone)
      · nomatch hstep
    · nomatch hstep
  | cancel e =>
    cases hstep
    exact (h.quiet (.task (.cancel e)) rfl fun he => nomatch he).returned hrun (.error e) fun hok => nomatch hok

private theorem Honest.endTask (h : Honest es s) {stream : PsiphonStream} (hend : s.stream.endStep = some stream) :
    Honest es { s with stream } := by
  obtain ⟨hext, hresult, hgone, hrun, hflag, hsent, hclosed, hkeep⟩ := Sync.Bridge.extends_endStep hend
  refine ⟨h.sound.extends hext, ?_, ?_, fun hr => ?_, ?_, ?_, fun _ => .inr hgone, fun _ => ?_, ?_⟩
  · rw [hflag]
    exact h.flag
  · rw [hflag]
    exact h.atEof
  · rw [hr] at hgone
    nomatch hgone
  · rw [hsent]
    exact h.sent
  · rw [hflag, hsent]
    exact h.all
  · cases hg : s.stream.task.gone with
    | false => exact hclosed hg
    | true => exact hkeep (h.gone hg)
  · rw [hresult, hflag]
    exact h.ok

private theorem Honest.read (h : Honest es s) {st : Sync.Bridge.Step} {stream : PsiphonStream}
    (hread : s.stream.readStep st = some stream) : Honest es { s with stream } := by
  obtain ⟨hsent, hclosed, hflag, htask⟩ := Sync.Bridge.frame_readStep hread
  refine ⟨h.sound.readStep hread, ?_, ?_, ?_, ?_, ?_, ?_, ?_, ?_⟩
  · rw [hflag]
    exact h.flag
  · rw [hflag]
    exact h.atEof
  · rw [htask, hsent]
    exact h.running
  · rw [hsent]
    exact h.sent
  · rw [hflag, hsent]
    exact h.all
  · rw [hclosed, hflag, htask]
    exact h.closed
  · rw [htask, hclosed]
    exact h.gone
  · rw [htask, hflag]
    exact h.ok

private theorem Honest.step (h : Honest es s) (hstep : step s e = some s') : Honest (es ++ [e]) s' := by
  cases e with
  | task st =>
    simp only [Psiphon.step] at hstep
    split at hstep
    · rename_i hrun
      exact h.taskStep hrun hstep
    · nomatch hstep
  | endTask =>
    obtain ⟨stream, hend, rfl⟩ := Option.map_eq_some_iff.1 hstep
    exact (h.quiet .endTask rfl fun he => nomatch he).endTask hend
  | read st =>
    obtain ⟨stream, hread, rfl⟩ := Option.map_eq_some_iff.1 hstep
    exact (h.quiet (.read st) rfl fun he => nomatch he).read hread

theorem honest_exec (h : Machine.exec step .initial es = some s) : Honest es s :=
  Machine.exec_induction_events (P := Honest) (fun _ _ _ _ hs h => hs.step h) honest_initial h

/-- A task that has finished without the EOF event has failed. -/
private theorem Honest.failed (h : Honest es s) {result : Except IoError Unit}
    (htask : s.stream.task = .finished result) (heof : Event.eof ∉ es) : ∃ e, result = .error e := by
  cases result with
  | ok u =>
    have hflag := h.ok (by rw [htask]; rfl)
    exact (heof (h.flag.1 hflag)).elim
  | error e => exact ⟨e, rfl⟩

/-- The first terminal result of a reader is a clean end exactly if the channel has delivered an EOF event and the
reader was given the concatenation of all data events.  Another one is the error of a task that has ended without
an EOF event, behind all bytes that were bridged, and a reader of such a task gets it as soon as these are
read. -/
theorem psiphon_end_honest (es : List Event) (s : State) (h : Machine.exec step .initial es = some s) :
    (∀ result, s.stream.terminal = some result →
      (result = .ok () ↔ Event.eof ∈ es ∧ s.stream.pipe.taken = dataOf es)) ∧
    s.stream.pipe.taken <+: dataOf es ∧
    (∀ e, s.stream.terminal = some (.error e) →
      Event.eof ∉ es ∧ s.stream.task = .finished (.error e) ∧ s.stream.pipe.taken = s.stream.pipe.sent) ∧
    (∀ result, s.stream.task = .finished result → Event.eof ∉ es → ∃ e, result = .error e ∧
      (s.stream.terminal = none → s.stream.phase = .idle → ∀ n ≠ 0,
        (s.stream.pipe.buffer ≠ [] → ∃ pipe, s.stream.pipe.read n = .bytes pipe) ∧
        (s.stream.pipe.buffer = [] → ∃ stream,
          Machine.exec Sync.Bridge.readStep s.stream [.read n, .loadFlag, .pollTask] = some stream ∧
          stream.terminal = some (.error e) ∧ stream.pipe = s.stream.pipe))) := by
  have hs := honest_exec h
  refine ⟨fun result hresult => ?_, (List.prefix_append _ _).trans hs.sent, fun e he => ?_,
    fun result htask heof => ?_⟩
  · obtain ⟨⟨_, hbuffer⟩, hcase⟩ := hs.sound.terminal result hresult
    constructor
    · intro hok
      have hflag : s.stream.flag = true := by
        rcases hcase with ⟨hflag, _⟩ | ⟨_, htask⟩
        · exact hflag
        · exact hs.ok (by rw [htask, hok]; rfl)
      exact ⟨hs.flag.1 hflag, (Sync.Pipe.taken_of_drained hbuffer).trans (hs.all hflag)⟩
    · rintro ⟨heof, _⟩
      rcases hcase with ⟨_, hok⟩ | ⟨hflag, _⟩
      · exact hok
      · rw [hs.flag.2 heof] at hflag
        nomatch hflag
  · obtain ⟨⟨_, hbuffer⟩, hcase⟩ := hs.sound.terminal _ he
    rcases hcase with ⟨_, hok⟩ | ⟨hflag, htask⟩
    · nomatch hok
    · refine ⟨fun heof => ?_, htask, Sync.Pipe.taken_of_drained hbuffer⟩
      rw [hs.flag.2 heof] at hflag
      nomatch hflag
  · obtain ⟨e, rfl⟩ := hs.failed htask heof
    refine ⟨e, rfl, fun hnone hidle n hn => ⟨fun hb => ⟨_, if_pos hb⟩, fun hb => ?_⟩⟩
    have hflag : s.stream.flag = false := by
      rw [Bool.eq_false_iff]
      exact fun hf => heof (hs.flag.1 hf)
    have hclosed : s.stream.pipe.closed = true := hs.gone (by rw [htask]; rfl)
    exact hs.sound.reports hn hidle hnone hclosed hb hflag htask

/-- The channel closes in the middle: the reader gets the byte that was bridged, then the error. -/
def cutChannel : List Event :=
  [.task (.recv (some (.data [7]))), .task .write, .task (.recv none), .read (.read 4), .endTask, .read (.read 4),
    .read .loadFlag, .read .pollTask, .endTask, .read (.read 4), .read .loadFlag, .read .pollTask]

theorem psiphon_end_honest_cut_channel : ∃ s, Machine.exec step .initial cutChannel = some s ∧
    s.stream.pipe.taken = [7] ∧ s.stream.terminal = some (.error closedWithoutEof) ∧ Event.eof ∉ cutChannel :=
  ⟨_, rfl, by decide, rfl, ((psiphon_end_honest cutChannel _ rfl).2.2.1 closedWithoutEof rfl).1⟩

end WarpSocks.Psiphon
