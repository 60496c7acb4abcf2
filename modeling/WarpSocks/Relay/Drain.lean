import WarpSocks.Machine.Trace
import WarpSocks.Relay
import WarpSocks.Sync.Copy
import WarpSocks.Time

/-!
# Both directions of a relay

`copy_with_drain`, poll by poll: the two copies run together until one of them ends; if it is the upload, the
target is told that there will be no more, and the download goes on for at most the drain grace.  The client, the
target and the clock answer in any order.

Neither side is told about an end before it has everything that was read from the other side, and the relay ends
without an error only when the client has the whole download (`copyWithDrain_exact`).
-/

namespace WarpSocks.Relay

open Wire (Reader Writer)

def RELAY_DRAIN_GRACE : Duration := .fromSecs 30

/-- The error at the end of the drain grace. -/
def drainTimeout : IoError := ⟨.timedOut, "客户端半关闭后响应排空超时"⟩

/-- `tokio::io::copy` as a future. -/
abbrev Copy := Sync.Copy UInt8 BUFFER_SIZE

abbrev CopyEvent := Sync.Copy.Event UInt8 IoError

/-- Where `copy_with_drain` is. -/
inductive Phase where
  /-- The first `select!`. -/
  | both
  /-- The second `select!`: the upload is over, and `wo.shutdown()` has not ended. -/
  | closing
  /-- `down.await`. -/
  | draining
  | returned (result : Except IoError Unit)
  deriving DecidableEq

def Phase.running : Phase → Bool
  | returned _ => false
  | _ => true

/-- The state of `copy_with_drain`. -/
structure Drain where
  /-- From the client to the target. -/
  up : Copy
  /-- From the target to the client. -/
  down : Copy
  /-- The download has come to `wc.shutdown()`. -/
  clientShutdown : Bool
  /-- `wo.shutdown()` was called. -/
  outboundShutdown : Bool
  phase : Phase
  /-- In nanoseconds. -/
  now : Nat
  /-- When `timeout` ends. -/
  deadline : Option Nat

/-- What the client, the target and the clock do. -/
inductive Event where
  | up (e : CopyEvent)
  | down (e : CopyEvent)
  | clientShutdown (result : Except IoError Unit)
  /-- A poll of `wo.shutdown()`, which may be pending. -/
  | outboundShutdown (result : Option (Except IoError Unit))
  | tick (nanos : Nat)
  | elapsed

namespace Event

/-- What is read from the client. -/
def upload : Event → List UInt8
  | up e => e.input
  | _ => []

/-- What is read from the target. -/
def download : Event → List UInt8
  | down e => e.input
  | _ => []

/-- The error that a side returns; `writeZero` is the one for a sink that takes nothing. -/
def error? (writeZero : IoError) : Event → Option IoError
  | up e | down e => e.error? writeZero
  | clientShutdown (.error e) => some e
  | outboundShutdown (some (.error e)) => some e
  | _ => none

end Event

namespace Drain

def start : Drain := ⟨.new, .new, false, false, .both, 0, none⟩

variable (writeZero : IoError) (grace : Duration)

/-- One step of `copy_with_drain`; `none` if it does not wait for this event. -/
def step (s : Drain) : Event → Option Drain
  | .up e =>
    match s.phase with
    | .both =>
      match s.up.step writeZero e with
      | some (up, none) => some { s with up }
      | some (up, some (.ok ())) => some { s with up, phase := .closing, deadline := some (s.now + grace.asNanos) }
      | some (up, some (.error e)) => some { s with up, phase := .returned (.error e) }
      | none => none
    | _ => none
  | .down e =>
    if s.phase.running = true ∧ s.clientShutdown = false then
      match s.down.step writeZero e with
      | some (down, none) => some { s with down }
      | some (down, some (.ok ())) => some { s with down, clientShutdown := true }
      | some (down, some (.error e)) => some { s with down, phase := .returned (.error e) }
      | none => none
    else none
  | .clientShutdown result =>
    if s.phase.running = true ∧ s.clientShutdown = true then some { s with phase := .returned result } else none
  | .outboundShutdown result =>
    match s.phase, result with
    | .closing, none => some { s with outboundShutdown := true }
    | .closing, some (.ok ()) => some { s with outboundShutdown := true, phase := .draining }
    | .closing, some (.error e) => some { s with outboundShutdown := true, phase := .returned (.error e) }
    | _, _ => none
  | .tick nanos => some { s with now := s.now + nanos }
  | .elapsed =>
    match s.deadline with
    | some deadline =>
      if s.phase.running = true ∧ deadline ≤ s.now then some { s with phase := .returned (.error drainTimeout) }
      else none
    | none => none

end Drain

/-- The whole upload, or download, of a run. -/
def upload (es : List Event) : List UInt8 := es.flatMap Event.upload

@[inherit_doc upload]
def download (es : List Event) : List UInt8 := es.flatMap Event.download

/-- A copy that is over: the end of its source was read, and its sink has everything. -/
def Complete (c : Copy) : Prop := c.readDone = true ∧ c.flushed = c.taken

/-- Why a relay has failed after the events: a side has, or the grace is over. -/
def Cause (writeZero : IoError) (es : List Event) (s : Drain) (e : IoError) : Prop :=
  (∃ event ∈ es, event.error? writeZero = some e) ∨
    e = drainTimeout ∧ ∃ deadline, s.deadline = some deadline ∧ deadline ≤ s.now

/-- If the grace has begun, the upload is over, and it was so when the grace began. -/
def Since (writeZero : IoError) (grace : Duration) (es : List Event) (s : Drain) : Prop :=
  ∀ deadline, s.deadline = some deadline → Complete s.up ∧
    ∃ front t, front <+: es ∧ Machine.exec (Drain.step writeZero grace) .start front = some t ∧ Complete t.up ∧
      t.now ≤ s.now ∧ deadline = t.now + grace.asNanos

/-- What holds at every instant of a relay. -/
structure Sound (writeZero : IoError) (grace : Duration) (es : List Event) (s : Drain) : Prop where
  reached : Machine.exec (Drain.step writeZero grace) .start es = some s
  up : s.up.taken = upload es
  down : s.down.taken = download es
  since : Since writeZero grace es s
  /-- The upload runs until the grace begins. -/
  both : s.phase.running = true → (s.phase = .both ↔ s.deadline = none)
  outbound : s.outboundShutdown = true → s.deadline ≠ none
  client : s.clientShutdown = true → Complete s.down
  ok : s.phase = .returned (.ok ()) → s.clientShutdown = true
  error : ∀ e, s.phase = .returned (.error e) → Cause writeZero es s e

@[simp] theorem upload_concat (es : List Event) (e : Event) : upload (es ++ [e]) = upload es ++ e.upload := by
  simp [upload]

@[simp] theorem download_concat (es : List Event) (e : Event) : download (es ++ [e]) = download es ++ e.download := by
  simp [download]

section Step

variable {writeZero : IoError} {grace : Duration} {es : List Event} {s s' : Drain} {e : Event}

private theorem sound_start : Sound writeZero grace [] .start :=
  ⟨rfl, rfl, rfl, fun _ h => (nomatch h), fun _ => ⟨fun _ => rfl, fun _ => rfl⟩, fun h => (nomatch h),
    fun h => (nomatch h), fun h => (nomatch h), fun _ h => (nomatch h)⟩

private theorem Since.concat (h : Since writeZero grace es s) (hup : s'.up = s.up)
    (hdeadline : s'.deadline = s.deadline) (hnow : s.now ≤ s'.now) : Since writeZero grace (es ++ [e]) s' := by
  intro deadline hd
  obtain ⟨hcomplete, front, t, hfront, hexec, ht, hle, heq⟩ := h deadline (hdeadline ▸ hd)
  exact ⟨hup ▸ hcomplete, front, t, hfront.trans (List.prefix_append _ _), hexec, ht, Nat.le_trans hle hnow, heq⟩

private theorem Cause.concat {error : IoError} (h : Cause writeZero es s error) (hdeadline : s'.deadline = s.deadline)
    (hnow : s.now ≤ s'.now) : Cause writeZero (es ++ [e]) s' error := by
  rcases h with ⟨event, hmem, herror⟩ | ⟨htimeout, deadline, hd, hle⟩
  · exact .inl ⟨event, List.mem_append_left _ hmem, herror⟩
  · exact .inr ⟨htimeout, deadline, hdeadline.trans hd, Nat.le_trans hle hnow⟩

/-- An error of the event itself. -/
private theorem cause_concat {error : IoError} (h : e.error? writeZero = some error) :
    Cause writeZero (es ++ [e]) s error :=
  .inl ⟨e, by simp, h⟩

private theorem Sound.stepUp (h : Sound writeZero grace es s) {e : CopyEvent}
    (hstep : s.step writeZero grace (.up e) = some s') :
    Sound writeZero grace (es ++ [.up e]) s' := by
  have hreached := Machine.exec_concat.2 ⟨s, h.reached, hstep⟩
  simp only [Drain.step] at hstep
  split at hstep
  · rename_i hphase
    -- the upload runs, so the grace has not begun
    have hnone : s.deadline = none := (h.both (by rw [hphase]; rfl)).1 hphase
    have hdown : s.down.taken = download (es ++ [.up e]) := by simpa [Event.download] using h.down
    have houtbound : s.outboundShutdown ≠ true := fun ho => h.outbound ho hnone
    split at hstep
    · rename_i up hup
      have hsteps := Sync.Copy.step_steps hup
      cases hstep
      refine ⟨hreached, by simpa [h.up, Event.upload] using hsteps.taken, hdown, fun _ hd => ?_, h.both, h.outbound,
        h.client, h.ok, fun _ he => ?_⟩
      · rw [hnone] at hd
        nomatch hd
      · rw [hphase] at he
        nomatch he
    · rename_i up hup
      have hsteps := Sync.Copy.step_steps hup
      cases hstep
      refine ⟨hreached, by simpa [h.up, Event.upload] using hsteps.taken, hdown, fun _ hd => ?_, fun _ => ?_,
        fun _ hd => (nomatch hd), h.client, fun hok => (nomatch hok), fun _ he => (nomatch he)⟩
      · cases hd
        exact ⟨hsteps.ok rfl, _, _, List.prefix_refl _, hreached, hsteps.ok rfl, Nat.le_refl _, rfl⟩
      · exact ⟨fun hp => (nomatch hp), fun hd => (nomatch hd)⟩
    · rename_i up error hup
      have hsteps := Sync.Copy.step_steps hup
      cases hstep
      refine ⟨hreached, by simpa [h.up, Event.upload] using hsteps.taken, hdown, fun _ hd => ?_,
        fun hr => (nomatch hr), fun ho => ?_, h.client, fun hok => (nomatch hok), fun _ he => ?_⟩
      · rw [hnone] at hd
        nomatch hd
      · exact (houtbound ho).elim
      · cases he
        exact cause_concat (hsteps.error error rfl)
    · nomatch hstep
  · nomatch hstep

private theorem Sound.stepDown (h : Sound writeZero grace es s) {e : CopyEvent}
    (hstep : s.step writeZero grace (.down e) = some s') :
    Sound writeZero grace (es ++ [.down e]) s' := by
  have hreached := Machine.exec_concat.2 ⟨s, h.reached, hstep⟩
  simp only [Drain.step, Option.ite_none_right_eq_some] at hstep
  obtain ⟨⟨hrunning, hclient⟩, hstep⟩ := hstep
  have hup : s.up.taken = upload (es ++ [.down e]) := by simpa [Event.upload] using h.up
  split at hstep
  · rename_i down hdown
    have hsteps := Sync.Copy.step_steps hdown
    cases hstep
    refine ⟨hreached, hup, by simpa [h.down, Event.download] using hsteps.taken,
      h.since.concat rfl rfl (Nat.le_refl _), h.both, h.outbound,
      fun hc => ?_, h.ok, fun error he => (h.error error he).concat rfl (Nat.le_refl _)⟩
    rw [hclient] at hc
    nomatch hc
  · rename_i down hdown
    have hsteps := Sync.Copy.step_steps hdown
    cases hstep
    exact ⟨hreached, hup, by simpa [h.down, Event.download] using hsteps.taken,
      h.since.concat rfl rfl (Nat.le_refl _), h.both, h.outbound,
      fun _ => hsteps.ok rfl, fun _ => rfl, fun error he => (h.error error he).concat rfl (Nat.le_refl _)⟩
  · rename_i down error hdown
    have hsteps := Sync.Copy.step_steps hdown
    cases hstep
    refine ⟨hreached, hup, by simpa [h.down, Event.download] using hsteps.taken,
      h.since.concat rfl rfl (Nat.le_refl _),
      fun hr => (nomatch hr), h.outbound, fun hc => ?_, fun hok => (nomatch hok), fun _ he => ?_⟩
    · rw [hclient] at hc
      nomatch hc
    · cases he
      exact cause_concat (hsteps.error error rfl)
  · nomatch hstep

/-- A step that reads nothing and begins no grace. -/
private theorem Sound.stepOther (h : Sound writeZero grace es s) (hstep : s.step writeZero grace e = some s')
    (hinput : e.upload = [] ∧ e.download = []) (hcopies : s'.up = s.up ∧ s'.down = s.down)
    (hdeadline : s'.deadline = s.deadline) (hnow : s.now ≤ s'.now) (hclient : s'.clientShutdown = s.clientShutdown)
    (houtbound : s'.outboundShutdown = true → s.deadline ≠ none)
    (hboth : s'.phase.running = true → (s'.phase = .both ↔ s.deadline = none))
    (hok : s'.phase = .returned (.ok ()) → s.clientShutdown = true)
    (herror : ∀ error, s'.phase = .returned (.error error) → Cause writeZero (es ++ [e]) s' error) :
    Sound writeZero grace (es ++ [e]) s' := by
  refine ⟨Machine.exec_concat.2 ⟨s, h.reached, hstep⟩, ?_, ?_, h.since.concat hcopies.1 hdeadline hnow,
    hdeadline ▸ hboth, hdeadline ▸ houtbound, ?_, hclient ▸ hok, herror⟩
  · rw [hcopies.1, h.up, upload_concat, hinput.1, List.append_nil]
  · rw [hcopies.2, h.down, download_concat, hinput.2, List.append_nil]
  · rw [hclient, hcopies.2]
    exact h.client

private theorem Sound.step (h : Sound writeZero grace es s) (hstep : s.step writeZero grace e = some s') :
    Sound writeZero grace (es ++ [e]) s' := by
  cases e with
  | up e => exact h.stepUp hstep
  | down e => exact h.stepDown hstep
  | clientShutdown result =>
    have hstep' := hstep
    simp only [Drain.step, Option.ite_none_right_eq_some] at hstep
    obtain ⟨⟨hrunning, hclient⟩, heq⟩ := hstep
    cases heq
    refine h.stepOther hstep' ⟨rfl, rfl⟩ ⟨rfl, rfl⟩ rfl (Nat.le_refl _) rfl h.outbound (fun hr => (by cases hr))
      (fun _ => hclient) fun error he => ?_
    cases he
    exact cause_concat rfl
  | outboundShutdown result =>
    have hstep' := hstep
    simp only [Drain.step] at hstep
    have hclosing : s.phase = .closing → s.deadline ≠ none := by
      intro hphase hnone
      have := (h.both (by rw [hphase]; rfl)).2 hnone
      rw [hphase] at this
      cases this
    split at hstep
    · rename_i hphase
      cases hstep
      exact h.stepOther hstep' ⟨rfl, rfl⟩ ⟨rfl, rfl⟩ rfl (Nat.le_refl _) rfl (fun _ => hclosing hphase) h.both h.ok
        fun error he => (h.error error he).concat rfl (Nat.le_refl _)
    · rename_i hphase
      cases hstep
      exact h.stepOther hstep' ⟨rfl, rfl⟩ ⟨rfl, rfl⟩ rfl (Nat.le_refl _) rfl (fun _ => hclosing hphase)
        (fun _ => ⟨fun hp => (by cases hp), fun hd => (hclosing hphase hd).elim⟩) (fun hok => (by cases hok))
        fun _ he => (by cases he)
    · rename_i error hphase
      cases hstep
      refine h.stepOther hstep' ⟨rfl, rfl⟩ ⟨rfl, rfl⟩ rfl (Nat.le_refl _) rfl (fun _ => hclosing hphase)
        (fun hr => (by cases hr)) (fun hok => (by cases hok)) fun _ he => ?_
      cases he
      exact cause_concat rfl
    · cases hstep
  | tick nanos =>
    have hstep' := hstep
    cases hstep
    exact h.stepOther hstep' ⟨rfl, rfl⟩ ⟨rfl, rfl⟩ rfl (Nat.le_add_right _ _) rfl h.outbound h.both h.ok
      fun error he => (h.error error he).concat rfl (Nat.le_add_right _ _)
  | elapsed =>
    have hstep' := hstep
    simp only [Drain.step] at hstep
    split at hstep
    · rename_i deadline hd
      obtain ⟨⟨hrunning, hle⟩, heq⟩ := Option.ite_none_right_eq_some.1 hstep
      cases heq
      refine h.stepOther hstep' ⟨rfl, rfl⟩ ⟨rfl, rfl⟩ rfl (Nat.le_refl _) rfl h.outbound (fun hr => (by cases hr))
        (fun hok => (by cases hok)) fun _ he => ?_
      cases he
      exact .inr ⟨rfl, deadline, hd, hle⟩
    · cases hstep

end Step

/-- Whatever the client, the target and the clock do in whatever order: each side is at every instant given a
front of what was read from the other, and is told about the end only when it has all of it.  A relay that ends
well has given the client the whole download; one that fails has met the error of a side, where a write that takes
nothing is one, or the grace has passed since the target had the whole upload, and it does pass. -/
theorem copyWithDrain_exact (writeZero : IoError) (grace : Duration) (es : List Event) (s : Drain)
    (h : Machine.exec (Drain.step writeZero grace) .start es = some s) :
    (s.up.written <+: upload es ∧ s.down.written <+: download es) ∧
    (s.outboundShutdown = true → s.up.readDone = true ∧ s.up.flushed = upload es) ∧
    (s.clientShutdown = true → s.down.readDone = true ∧ s.down.flushed = download es) ∧
    (s.phase = .returned (.ok ()) → s.clientShutdown = true) ∧
    (∀ e, s.phase = .returned (.error e) → (∃ event ∈ es, event.error? writeZero = some e) ∨
      e = drainTimeout ∧ ∃ front t, front <+: es ∧ Machine.exec (Drain.step writeZero grace) .start front = some t ∧
        Complete t.up ∧ t.now + grace.asNanos ≤ s.now) ∧
    (s.phase = .closing ∨ s.phase = .draining →
      ∃ s', Machine.exec (Drain.step writeZero grace) s [.tick grace.asNanos, .elapsed] = some s' ∧
        s'.phase = .returned (.error drainTimeout)) := by
  have hs : Sound writeZero grace es s :=
    Machine.exec_induction_events (fun _ _ _ _ h hstep => h.step hstep) sound_start h
  refine ⟨⟨hs.up ▸ s.up.written_prefix, hs.down ▸ s.down.written_prefix⟩, fun ho => ?_, fun hc => ?_, hs.ok,
    fun e he => ?_, fun hphase => ?_⟩
  · obtain ⟨deadline, hd⟩ := Option.ne_none_iff_exists'.1 (hs.outbound ho)
    obtain ⟨hdone, hflushed⟩ := (hs.since deadline hd).1
    exact ⟨hdone, hflushed.trans hs.up⟩
  · obtain ⟨hdone, hflushed⟩ := hs.client hc
    exact ⟨hdone, hflushed.trans hs.down⟩
  · rcases hs.error e he with hside | ⟨htimeout, deadline, hd, hle⟩
    · exact .inl hside
    · obtain ⟨-, front, t, hfront, hexec, ht, -, rfl⟩ := hs.since deadline hd
      exact .inr ⟨htimeout, front, t, hfront, hexec, ht, hle⟩
  · have hrunning : s.phase.running = true := by rcases hphase with hp | hp <;> rw [hp] <;> rfl
    have hne : s.deadline ≠ none := by
      intro hnone
      have hboth := (hs.both hrunning).2 hnone
      rcases hphase with hp | hp <;> rw [hp] at hboth <;> nomatch hboth
    obtain ⟨deadline, hd⟩ := Option.ne_none_iff_exists'.1 hne
    obtain ⟨-, front, t, -, -, -, hle, rfl⟩ := hs.since deadline hd
    refine ⟨{ s with now := s.now + grace.asNanos, phase := .returned (.error drainTimeout) }, ?_, rfl⟩
    refine Machine.exec_cons.2 ⟨_, rfl, Machine.exec_cons.2 ⟨_, ?_, rfl⟩⟩
    simp only [Drain.step, hd]
    rw [if_pos ⟨hrunning, Nat.add_le_add_right hle _⟩]

/-- A client that closes its side first still gets what the target sends afterwards. -/
theorem copyWithDrain_exact_half_close :
    let writeZero : IoError := ⟨.other, "write zero byte into writer"⟩
    let es : List Event :=
      [.up (.read [1, 2]), .up (.wrote 1), .up (.read []), .up (.wrote 1), .up .flushed, .outboundShutdown none,
        .down (.read [3]), .outboundShutdown (some (.ok ())), .down (.wrote 1), .down (.read []), .down .flushed,
        .clientShutdown (.ok ())]
    ∃ s, Machine.exec (Drain.step writeZero RELAY_DRAIN_GRACE) .start es = some s ∧ s.phase = .returned (.ok ()) ∧
      s.up.flushed = [1, 2] ∧ s.down.flushed = [3] := by
  intro writeZero es
  obtain ⟨s, hs⟩ := Option.isSome_iff_exists.1
    (by decide +kernel : (Machine.exec (Drain.step writeZero RELAY_DRAIN_GRACE) .start es).isSome = true)
  have hend : (some s).map (fun s => (s.phase, s.outboundShutdown, s.clientShutdown)) =
      some (.returned (.ok ()), true, true) := by
    rw [← hs]
    decide +kernel
  simp only [Option.map_some, Option.some.injEq, Prod.mk.injEq] at hend
  obtain ⟨-, hout, hclient, -⟩ := copyWithDrain_exact _ _ _ s hs
  exact ⟨s, hs, hend.1, (hout hend.2.1).2, (hclient hend.2.2).2⟩

/-! ### Whole rounds -/

/-- The phase behind the result of `copy`. -/
def afterUpload : Option (Except IoError Unit) → Phase
  | none => .both
  | some (.ok ()) => .closing
  | some (.error e) => .returned (.error e)

/-- The rounds of `copy` are polls of the upload, each with one read and one write. -/
theorem copy_traced (writeZero : IoError) (grace : Duration) (rounds : Nat) (r : Reader IoError) (w : Writer IoError)
    (hw : w.fault = none) (s : Drain) (hphase : s.phase = .both) (hempty : s.up.buffer = [])
    (hmore : s.up.readDone = false) (hwritten : s.up.written = w.written) :
    ∃ es s', Machine.exec (Drain.step writeZero grace) s es = some s' ∧ s'.phase = afterUpload (copy rounds r w).1 ∧
      s'.up.written = (copy rounds r w).2.2.written := by
  induction rounds generalizing r w s with
  | zero => exact ⟨[], s, rfl, hphase, hwritten⟩
  | succ rounds ih =>
    have hpos : s.up.pos = 0 := by simpa [hempty] using s.up.le
    by_cases hr : r.bytes = []
    · rw [copy, Reader.read_of_nil (by decide) hr]
      cases r.fault with
      | none =>
        refine ⟨[.up (.read []), .up .flushed], { s with
          up := (s.up.fill []).flush, phase := .closing
          deadline := some (s.now + grace.asNanos) }, ?_, rfl, hwritten⟩
        simp [Machine.exec, Drain.step, hphase, Sync.Copy.step, Sync.Copy.fill, hempty, hmore, BUFFER_SIZE]
      | some e =>
        refine ⟨[.up (.readFailed e)], { s with phase := .returned (.error e) }, ?_, rfl, hwritten⟩
        simp [Machine.exec, Drain.step, hphase, Sync.Copy.step, hempty, hmore, BUFFER_SIZE]
    · obtain ⟨x, y, hx, hlen, -, r', hread, -⟩ := Reader.read_of_ne_nil (n := BUFFER_SIZE) (by decide) hr
      obtain ⟨b, bs, rfl⟩ := List.exists_cons_of_ne_nil hx
      have hcopy : copy (rounds + 1) r w = copy rounds r' ⟨w.written ++ b :: bs, none⟩ := by
        rw [copy, hread]
        simp only [Writer.writeAll_of_none hw]
      have hfill : s.up.step writeZero (.read (b :: bs)) = some (s.up.fill (b :: bs), none) := by
        simp only [Sync.Copy.step]
        rw [if_pos ⟨hmore, by rw [hempty]; decide, by rw [hempty, List.length_nil, Nat.zero_add]; exact hlen⟩]
      have hadvance : (s.up.fill (b :: bs)).step writeZero (.wrote (bs.length + 1)) =
          some ((s.up.fill (b :: bs)).advance (bs.length + 1), none) := by
        simp [Sync.Copy.step, Sync.Copy.fill, hempty, hpos]
      -- the state after the read and the write of the round
      let s₁ : Drain := { s with up := (s.up.fill (b :: bs)).advance (bs.length + 1) }
      have hround : Machine.exec (Drain.step writeZero grace) s
          [.up (.read (b :: bs)), .up (.wrote (bs.length + 1))] = some s₁ := by
        refine Machine.exec_cons.2 ⟨{ s with up := s.up.fill (b :: bs) }, ?_, Machine.exec_cons.2 ⟨s₁, ?_, rfl⟩⟩
        · simp only [Drain.step, hphase, hfill]
        · simp only [Drain.step, hphase, hadvance, s₁]
      obtain ⟨es, s', hexec, hend, hwritten'⟩ := ih r' ⟨w.written ++ b :: bs, none⟩ rfl s₁ hphase
        (by simp [s₁, Sync.Copy.advance, Sync.Copy.fill, hempty, hpos])
        (by simp [s₁, Sync.Copy.advance, Sync.Copy.fill])
        (by simp [s₁, Sync.Copy.advance, Sync.Copy.fill, hempty, hpos, hwritten])
      rw [hcopy]
      exact ⟨_, s', Machine.exec_append.2 ⟨s₁, hround, hexec⟩, hend, hwritten'⟩

end WarpSocks.Relay
