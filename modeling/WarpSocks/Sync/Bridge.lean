import WarpSocks.Machine.Trace
import WarpSocks.Sync.Pipe

/-!
# A reader behind a pipe and a task

A task in the background fills a pipe and returns a result.  The reader takes the end of the pipe as the end of
the stream only if the task says so: by a flag it raises before, or by its result, which may become visible later
than the end of the pipe.  A read looks at the pipe, the flag and the task one after the other, and the task may
go on in between.

Whatever the task does to the pipe, the flag and its result within the rules of `Extends`, the first terminal
result of the reader is a clean end if the flag was raised and the result of the task otherwise, behind all that
was written (`Sound`).
-/

namespace Sync

/-- The life of a task: it returns, what it holds is dropped, its result is visible. -/
inductive Task (ρ : Type) where
  | running
  | returned (result : ρ)
  | dropped (result : ρ)
  | finished (result : ρ)
  deriving DecidableEq

namespace Task

variable {ρ : Type}

/-- The result, once the task has returned. -/
def result : Task ρ → Option ρ
  | .running => none
  | .returned r | .dropped r | .finished r => some r

/-- What the task held is dropped. -/
def gone : Task ρ → Bool
  | .dropped _ | .finished _ => true
  | _ => false

end Task

/-- Where a read is. -/
inductive ReadPhase where
  | idle
  /-- The pipe has ended. -/
  | ended
  /-- The flag was not raised. -/
  | asking
  deriving DecidableEq

structure Bridge (α ε : Type) (capacity : Nat) where
  pipe : Pipe α capacity
  flag : Bool
  task : Task (Except ε Unit)
  /-- The reader still has the handle of the task. -/
  handle : Bool
  phase : ReadPhase
  /-- The first end or error that was returned to the reader. -/
  terminal : Option (Except ε Unit)

namespace Bridge

variable {α ε : Type} {capacity : Nat}

def new : Bridge α ε capacity := ⟨.new, false, .running, true, .idle, none⟩

/-- The steps of a read. -/
inductive Step where
  /-- A read into a buffer of `n` begins. -/
  | read (n : Nat)
  | loadFlag
  | pollTask

/-- The read returns an end or an error. -/
def conclude (b : Bridge α ε capacity) (result : Except ε Unit) : Bridge α ε capacity :=
  { b with phase := .idle, terminal := b.terminal.or (some result) }

def readStep (b : Bridge α ε capacity) : Step → Option (Bridge α ε capacity)
  | .read n =>
    match b.phase with
    | .idle =>
      -- nothing is concluded from a read into an empty buffer
      if n = 0 then some b
      else
        match b.pipe.read n with
        | .pending => some b
        | .bytes pipe => some { b with pipe }
        | .ended => some { b with phase := .ended }
    | _ => none
  | .loadFlag =>
    match b.phase with
    | .ended =>
      if b.flag then some (b.conclude (.ok ()))
      else if b.handle then some { b with phase := .asking }
      else some (b.conclude (.ok ()))
    | _ => none
  | .pollTask =>
    match b.phase, b.task with
    | .asking, .finished result => some ({ b with handle := false }.conclude result)
    | .asking, _ => some { b with phase := .idle }
    | _, _ => none

/-- The task goes on. -/
def setTask (b : Bridge α ε capacity) (task : Task (Except ε Unit)) : Bridge α ε capacity := { b with task }

/-- The task writes, or closes the pipe. -/
def setPipe (b : Bridge α ε capacity) (pipe : Pipe α capacity) : Bridge α ε capacity := { b with pipe }

/-- The end of the task: what it holds is dropped, then its result is visible. -/
def endStep (b : Bridge α ε capacity) : Option (Bridge α ε capacity) :=
  match b.task with
  | .returned result => some ((b.setTask (.dropped result)).setPipe b.pipe.close)
  | .dropped result => some (b.setTask (.finished result))
  | _ => none

/-- What the task may do: write until the pipe is closed, raise the flag until then, and keep the result that is
visible. -/
structure Extends (b b' : Bridge α ε capacity) : Prop where
  reader : b'.handle = b.handle ∧ b'.phase = b.phase ∧ b'.terminal = b.terminal
  pipe : b.pipe.closed = true → b'.pipe = b.pipe
  flag : b.flag = true → b'.flag = true
  flagClosed : b.pipe.closed = true → b'.flag = b.flag
  task : ∀ result, b.task = .finished result → b'.task = .finished result

/-- What the reader has concluded is right. -/
structure Sound (b : Bridge α ε capacity) : Prop where
  ended : b.phase ≠ .idle → b.pipe.closed = true ∧ b.pipe.buffer = []
  asking : b.phase = .asking → b.flag = false
  terminal : ∀ result, b.terminal = some result → (b.pipe.closed = true ∧ b.pipe.buffer = []) ∧
    (b.flag = true ∧ result = .ok () ∨ b.flag = false ∧ b.task = .finished result)
  handle : b.handle = false → b.terminal ≠ none

theorem sound_new : Sound (new : Bridge α ε capacity) :=
  ⟨fun h => (h rfl).elim, fun h => (nomatch h), fun _ h => (nomatch h), fun h => (nomatch h)⟩

variable {b b' : Bridge α ε capacity}

theorem Sound.extends (hb : Sound b) (h : Extends b b') : Sound b' := by
  obtain ⟨hhandle, hphase, hterminal⟩ := h.reader
  have hpipe : b.pipe.closed = true ∧ b.pipe.buffer = [] → b'.pipe.closed = true ∧ b'.pipe.buffer = [] := by
    intro hend
    rw [h.pipe hend.1]
    exact hend
  refine ⟨?_, ?_, ?_, ?_⟩
  · rw [hphase]
    exact fun hne => hpipe (hb.ended hne)
  · rw [hphase]
    intro hask
    rw [h.flagClosed (hb.ended (by rw [hask]; exact fun h => nomatch h)).1]
    exact hb.asking hask
  · intro result
    rw [hterminal]
    intro hresult
    obtain ⟨hend, hcase⟩ := hb.terminal result hresult
    refine ⟨hpipe hend, ?_⟩
    rcases hcase with ⟨hflag, hok⟩ | ⟨hflag, htask⟩
    · exact .inl ⟨h.flag hflag, hok⟩
    · exact .inr ⟨(h.flagClosed hend.1).trans hflag, h.task result htask⟩
  · rw [hhandle, hterminal]
    exact hb.handle

theorem extends_setTask {task : Task (Except ε Unit)} (h : ∀ result, b.task ≠ .finished result) :
    Extends b (b.setTask task) :=
  ⟨⟨rfl, rfl, rfl⟩, fun _ => rfl, fun h => h, fun _ => rfl, fun result hf => (h result hf).elim⟩

theorem extends_setPipe {pipe : Pipe α capacity} (h : b.pipe.closed = true → pipe = b.pipe) :
    Extends b (b.setPipe pipe) :=
  ⟨⟨rfl, rfl, rfl⟩, h, fun h => h, fun _ => rfl, fun _ h => h⟩

theorem Extends.trans {b'' : Bridge α ε capacity} (h : Extends b b') (h' : Extends b' b'') : Extends b b'' := by
  have hclosed : b.pipe.closed = true → b'.pipe.closed = true := fun hc => by rw [h.pipe hc]; exact hc
  obtain ⟨hh, hp, ht⟩ := h.reader
  obtain ⟨hh', hp', ht'⟩ := h'.reader
  refine ⟨⟨hh'.trans hh, hp'.trans hp, ht'.trans ht⟩, ?_, ?_, ?_, ?_⟩
  · exact fun hc => (h'.pipe (hclosed hc)).trans (h.pipe hc)
  · exact fun hf => h'.flag (h.flag hf)
  · exact fun hc => (h'.flagClosed (hclosed hc)).trans (h.flagClosed hc)
  · exact fun result hf => h'.task result (h.task result hf)

/-- The end of a task changes neither its result nor what it has written, and closes the pipe. -/
theorem extends_endStep (h : b.endStep = some b') :
    Extends b b' ∧ b'.task.result = b.task.result ∧ b'.task.gone = true ∧ b.task ≠ .running ∧ b'.flag = b.flag ∧
      b'.pipe.sent = b.pipe.sent ∧ (b.task.gone = false → b'.pipe.closed = true) ∧
      (b.pipe.closed = true → b'.pipe.closed = true) := by
  unfold endStep at h
  split at h
  · rename_i result htask
    cases h
    refine ⟨?_, by rw [htask]; rfl, rfl, by rw [htask]; exact fun h => (nomatch h), rfl, rfl, fun _ => rfl,
      fun _ => rfl⟩
    refine (extends_setTask (by rw [htask]; exact fun _ h => nomatch h)).trans (extends_setPipe fun hc => ?_)
    exact Pipe.close_of_closed hc
  · rename_i result htask
    cases h
    refine ⟨extends_setTask (by rw [htask]; exact fun _ h => nomatch h), by rw [htask]; rfl, rfl,
      by rw [htask]; exact fun h => (nomatch h), rfl, rfl, fun h => ?_, fun h => h⟩
    rw [htask] at h
    nomatch h
  · nomatch h

/-- A result that comes first is the one the flag or the task gives. -/
theorem Sound.conclude {handle : Bool} {result : Except ε Unit} (hb : Sound b) (hend : b.phase ≠ .idle)
    (hcase : b.terminal = none → b.flag = true ∧ result = .ok () ∨ b.flag = false ∧ b.task = .finished result) :
    Sound ({ b with handle }.conclude result) := by
  refine ⟨fun h => (h rfl).elim, fun h => (nomatch h), ?_, fun _ h => ?_⟩
  · intro r hr
    refine ⟨hb.ended hend, ?_⟩
    simp only [Bridge.conclude, Option.or_eq_some_iff] at hr
    rcases hr with hold | ⟨hnone, hnew⟩
    · exact (hb.terminal r hold).2
    · cases hnew
      exact hcase hnone
  · simp [Bridge.conclude] at h

theorem Sound.readStep {st : Step} (hb : Sound b) (h : b.readStep st = some b') : Sound b' := by
  cases st with
  | read n =>
    simp only [Bridge.readStep] at h
    split at h
    · rename_i hidle
      split at h
      · cases h
        exact hb
      · split at h
        · cases h
          exact hb
        · rename_i pipe hread
          cases h
          obtain ⟨hne, _, _, _⟩ := Pipe.read_bytes hread
          refine ⟨fun hn => (hn hidle).elim, hb.asking, fun r hr => ?_, hb.handle⟩
          exact (hne (hb.terminal r hr).1.2).elim
        · rename_i hread
          cases h
          exact ⟨fun _ => Pipe.read_ended hread, fun h => (nomatch h), hb.terminal, hb.handle⟩
    · nomatch h
  | loadFlag =>
    simp only [Bridge.readStep] at h
    split at h
    · rename_i hended
      have hne : b.phase ≠ .idle := by rw [hended]; exact fun h => nomatch h
      split at h
      · rename_i hflag
        cases h
        exact hb.conclude hne fun _ => .inl ⟨hflag, rfl⟩
      · rename_i hflag
        split at h
        · cases h
          exact ⟨fun _ => hb.ended hne, fun _ => Bool.eq_false_iff.2 hflag, hb.terminal, hb.handle⟩
        · rename_i hhandle
          cases h
          exact hb.conclude hne fun hnone => (hb.handle (Bool.eq_false_iff.2 hhandle) hnone).elim
    · nomatch h
  | pollTask =>
    simp only [Bridge.readStep] at h
    split at h
    · rename_i result hasking htask
      have hne : b.phase ≠ .idle := by rw [hasking]; exact fun h => nomatch h
      cases h
      exact hb.conclude hne fun _ => .inr ⟨hb.asking hasking, htask⟩
    · rename_i hasking _
      cases h
      exact ⟨fun h => (h rfl).elim, fun h => (nomatch h), hb.terminal, hb.handle⟩
    · nomatch h

/-- A read changes neither what the task has written nor what it says. -/
structure Frame (b b' : Bridge α ε capacity) : Prop where
  sent : b'.pipe.sent = b.pipe.sent
  closed : b'.pipe.closed = b.pipe.closed
  flag : b'.flag = b.flag
  task : b'.task = b.task

theorem frame_readStep {st : Step} (h : b.readStep st = some b') : Frame b b' := by
  cases st with
  | read n =>
    simp only [Bridge.readStep] at h
    split at h
    · split at h
      · cases h
        exact ⟨rfl, rfl, rfl, rfl⟩
      · split at h
        · cases h
          exact ⟨rfl, rfl, rfl, rfl⟩
        · rename_i pipe hread
          cases h
          obtain ⟨_, hsent, hclosed, _⟩ := Pipe.read_bytes hread
          exact ⟨hsent, hclosed, rfl, rfl⟩
        · cases h
          exact ⟨rfl, rfl, rfl, rfl⟩
    · nomatch h
  | loadFlag =>
    simp only [Bridge.readStep] at h
    split at h
    · split at h
      · cases h
        exact ⟨rfl, rfl, rfl, rfl⟩
      · split at h
        · cases h
          exact ⟨rfl, rfl, rfl, rfl⟩
        · cases h
          exact ⟨rfl, rfl, rfl, rfl⟩
    · nomatch h
  | pollTask =>
    simp only [Bridge.readStep] at h
    split at h
    · cases h
      exact ⟨rfl, rfl, rfl, rfl⟩
    · cases h
      exact ⟨rfl, rfl, rfl, rfl⟩
    · nomatch h

/-- Once the task has finished and the pipe is drained, the next read into a buffer returns the result of the
task. -/
theorem Sound.reports {result : Except ε Unit} {n : Nat} (hb : Sound b) (hn : n ≠ 0) (hidle : b.phase = .idle)
    (hnone : b.terminal = none) (hclosed : b.pipe.closed = true) (hbuffer : b.pipe.buffer = [])
    (hflag : b.flag = false) (htask : b.task = .finished result) :
    ∃ b', Machine.exec Bridge.readStep b [.read n, .loadFlag, .pollTask] = some b' ∧ b'.terminal = some result ∧
      b'.pipe = b.pipe := by
  -- the handle is given up only with a terminal result
  have hhandle : b.handle = true := by
    cases hh : b.handle with
    | true => rfl
    | false => exact (hb.handle hh hnone).elim
  have hread : b.readStep (.read n) = some { b with phase := .ended } := by
    simp only [Bridge.readStep, hidle, if_neg hn, Pipe.read_of_closed n hclosed hbuffer]
  have hload : ({ b with phase := .ended } : Bridge α ε capacity).readStep .loadFlag =
      some { b with phase := .asking } := by
    simp only [Bridge.readStep, hflag, hhandle, Bool.false_eq_true, if_false, if_true]
  have hpoll : ({ b with phase := .asking } : Bridge α ε capacity).readStep .pollTask =
      some ({ b with handle := false, phase := .asking }.conclude result) := by
    simp only [Bridge.readStep, htask]
  refine ⟨_, Machine.exec_cons.2 ⟨_, hread, Machine.exec_cons.2 ⟨_, hload, Machine.exec_cons.2 ⟨_, hpoll, rfl⟩⟩⟩,
    ?_, rfl⟩
  simp only [Bridge.conclude, hnone, Option.none_or]

end Bridge

end Sync
