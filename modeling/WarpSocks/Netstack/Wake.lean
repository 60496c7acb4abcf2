import WarpSocks.Netstack.ReactorQueues

/-!
# Wake-ups of the reactor

A call of `Reactor::wake` leaves a notification that stays outstanding until a poll of the reactor returns it or
the reactor is on its way to `Interface::poll` (`Awake`): an iteration that ends because of the device drops its
future, which hands the notification on to the next one.  The reactor parks only behind a poll of the future that
found nothing, so a notification that comes later schedules it.
-/

namespace WarpSocks.Netstack.Reactor

variable {D : Type}

/-- There was a `wake` since the last `Interface::poll`. -/
def WokenSince (es : List (Event D)) : Prop :=
  ∃ es₁ es₂, es = es₁ ++ .wake :: es₂ ∧ ∀ actions, .interfacePoll actions ∉ es₂

private theorem WokenSince.of_concat {es : List (Event D)} {e : Event D} (h : WokenSince (es ++ [e])) :
    e = .wake ∨ WokenSince es ∧ ∀ actions, e ≠ .interfacePoll actions := by
  obtain ⟨es₁, es₂, heq, hnone⟩ := h
  rcases List.eq_nil_or_concat es₂ with rfl | ⟨es₂, e', rfl⟩
  · obtain ⟨_, he⟩ := List.append_inj' heq rfl
    exact .inl (List.singleton_inj.1 he)
  · rw [List.concat_eq_append] at heq hnone
    rw [← List.cons_append, ← List.append_assoc] at heq
    obtain ⟨hes, he⟩ := List.append_inj' heq rfl
    cases List.singleton_inj.1 he
    refine .inr ⟨⟨es₁, es₂, hes, fun actions hmem => ?_⟩, fun actions heq => ?_⟩
    · exact hnone actions (List.mem_append_left _ hmem)
    · exact hnone actions (List.mem_append_right _ (List.mem_singleton.2 heq.symm))

/-- The reactor is on its way to `Interface::poll`, or has stopped. -/
def Phase.polls : Phase → Bool
  | .woken _ _ | .stopped _ => true
  | _ => false

/-- What the phase says about the future `notified`. -/
def Phase.Waits (notify : Sync.Notify) (scheduled : Bool) : Phase → Prop
  | .top => ∃ permit, notify = .idle permit
  | .device _ | .notified _ => ∀ permit, notify ≠ .idle permit
  | .timer _ | .parked _ => notify = .waiting ∨ (∃ permit, notify = .notified permit) ∧ scheduled = true
  | _ => True

/-- What is owed to the application after the events. -/
structure Awake (es : List (Event D)) (s : State D) : Prop where
  owed : WokenSince es → s.notify.outstanding = true ∨ s.phase.polls = true
  waits : s.phase.Waits s.notify s.scheduled

variable {dev : AsyncDevice D} {s s' : State D} {e : Event D} {es : List (Event D)}

private theorem Phase.Waits.wake {notify : Sync.Notify} {scheduled : Bool} {phase : Phase}
    (h : phase.Waits notify scheduled) :
    phase.Waits notify.notifyOne (scheduled || decide (notify = .waiting)) := by
  cases phase with
  | top =>
    obtain ⟨permit, rfl⟩ := h
    exact ⟨true, rfl⟩
  | device canTransmit | notified canTransmit =>
    intro permit
    cases notify with
    | idle permit => exact (h permit rfl).elim
    | _ => exact fun heq => nomatch heq
  | timer canTransmit | parked canTransmit =>
    rcases h with rfl | ⟨⟨permit, rfl⟩, rfl⟩
    · exact .inr ⟨⟨false, rfl⟩, by simp⟩
    · exact .inr ⟨⟨true, rfl⟩, rfl⟩
  | woken wake streamEnded | yielding | stopped result => trivial

private theorem Phase.Waits.schedule {notify : Sync.Notify} {scheduled : Bool} {phase : Phase}
    (h : phase.Waits notify scheduled) : phase.Waits notify true := by
  cases phase with
  | timer canTransmit | parked canTransmit =>
    rcases h with rfl | ⟨hn, _⟩
    · exact .inl rfl
    · exact .inr ⟨hn, rfl⟩
  | _ => exact h

private theorem Awake.step (hs : Awake es s) (h : step dev s e = some s') : Awake (es ++ [e]) s' := by
  obtain ⟨howed, hwaits⟩ := hs
  -- an event that is no `wake` leaves what was owed, unless it is an `Interface::poll`
  have hold : e ≠ .wake → WokenSince (es ++ [e]) →
      (s.notify.outstanding = true ∨ s.phase.polls = true) ∧ ∀ actions, e ≠ .interfacePoll actions := by
    intro hne hw
    rcases hw.of_concat with heq | ⟨hw, hnone⟩
    · exact (hne heq).elim
    · exact ⟨howed hw, hnone⟩
  cases steps_of_step h with
  | enter hphase =>
    rw [hphase] at hwaits hold
    obtain ⟨permit, hidle⟩ := hwaits
    rw [hidle] at hold ⊢
    exact ⟨fun hw => .inl ((hold (nofun) hw).1.resolve_right Bool.false_ne_true), fun _ heq => nomatch heq⟩
  | fail hphase => exact ⟨fun _ => .inr rfl, trivial⟩
  | progress hphase => exact ⟨fun _ => .inr rfl, trivial⟩
  | quiet hphase =>
    rw [hphase] at hwaits hold
    exact ⟨fun hw => (hold (nofun) hw).1, hwaits⟩
  | notified hphase hpoll => exact ⟨fun _ => .inr rfl, trivial⟩
  | wait hphase hpoll =>
    rw [hphase] at hwaits hold
    obtain ⟨rfl, hnone⟩ := Sync.Notify.poll_pending hwaits hpoll
    rw [hnone] at hold
    exact ⟨fun hw => ((hold (nofun) hw).1.elim Bool.false_ne_true Bool.false_ne_true).elim, .inl rfl⟩
  | timer hphase => exact ⟨fun _ => .inr rfl, trivial⟩
  | park hphase =>
    rw [hphase] at hwaits hold
    exact ⟨fun hw => (hold (nofun) hw).1, hwaits⟩
  | resume hphase hscheduled =>
    rw [hphase] at hwaits hold
    refine ⟨fun hw => (hold (nofun) hw).1, fun permit heq => ?_⟩
    rcases hwaits with hn | ⟨⟨p, hn⟩, _⟩
    · rw [hn] at heq
      nomatch heq
    · rw [hn] at heq
      nomatch heq
  | again hphase =>
    rw [hphase] at hold
    refine ⟨fun hw => .inl ?_, ?_⟩
    · rw [Sync.Notify.outstanding_drop]
      exact (hold (nofun) hw).1.resolve_right Bool.false_ne_true
    · cases s.notify with
      | _ => exact ⟨_, rfl⟩
  | finish hphase => exact ⟨fun _ => .inr rfl, trivial⟩
  | interface hphase => exact ⟨fun hw => ((hold (nofun) hw).2 _ rfl).elim, trivial⟩
  | wake => exact ⟨fun _ => .inl (Sync.Notify.outstanding_notifyOne _), hwaits.wake⟩
  | schedule => exact ⟨fun hw => (hold (nofun) hw).1, hwaits.schedule⟩
  | change => exact ⟨fun hw => (hold (nofun) hw).1, hwaits⟩
  | stop => exact ⟨fun _ => .inr rfl, trivial⟩

private theorem awake_exec {d : D} {maxBurstSize : Option UInt64}
    (h : Machine.exec (step dev) (.initial d maxBurstSize) es = some s) : Awake es s := by
  have hinit : Awake [] (State.initial d maxBurstSize) := by
    refine ⟨fun hw => ?_, ⟨false, rfl⟩⟩
    obtain ⟨es₁, es₂, heq, _⟩ := hw
    exact (List.append_ne_nil_of_right_ne_nil es₁ (List.cons_ne_nil _ es₂) heq.symm).elim
  exact Machine.exec_induction_events (P := Awake) (fun _ _ _ _ hs h => hs.step h) hinit h

/-- If there was a `wake` since the last `Interface::poll`, a reactor that is parked has been notified and is
scheduled, and one that polls its future goes on to `Interface::poll`. -/
theorem no_wake_lost (dev : AsyncDevice D) (d : D) (maxBurstSize : Option UInt64) (es : List (Event D)) (s : State D)
    (h : Machine.exec (step dev) (.initial d maxBurstSize) es = some s) (hwoken : WokenSince es) :
    (∀ canTransmit, s.phase = .parked canTransmit → s.scheduled = true ∧ (∃ permit, s.notify = .notified permit) ∧
        (step dev s .run).isSome) ∧
      ∀ s', step dev s .pollNotified = some s' → s'.phase = .woken .notify false := by
  obtain ⟨howed, hwaits⟩ := awake_exec h
  have hout := howed hwoken
  constructor
  · intro canTransmit hphase
    rw [hphase] at hout hwaits
    rcases hwaits with hn | ⟨hn, hscheduled⟩
    · rw [hn] at hout
      exact (hout.elim Bool.false_ne_true Bool.false_ne_true).elim
    · refine ⟨hscheduled, hn, ?_⟩
      simp only [step, hphase, hscheduled]
      rfl
  · intro s' hstep
    cases steps_of_step hstep with
    | notified hphase hpoll => rfl
    | wait hphase hpoll =>
      rw [hphase] at hout hwaits
      rw [(Sync.Notify.poll_pending hwaits hpoll).2] at hout
      exact (hout.elim Bool.false_ne_true Bool.false_ne_true).elim

/-- The reactor parks, a packet ends the iteration without another look at the future, and the `wake` behind the
`Interface::poll` finds that future still waiting: its notification goes to the next iteration. -/
def handedOn : List (Event (List Packet)) :=
  [.enter, .pollDevice, .pollNotified, .pollTimer false, .change [[1]], .schedule, .run, .pollDevice,
    .interfacePoll [.receive true none]] ++ .wake :: [.run, .enter, .pollDevice]

theorem no_wake_lost_handed_on : ∃ s, Machine.exec (step blockedDevice) (.initial [] none) handedOn = some s ∧
    (step blockedDevice s .pollNotified).isSome ∧
    ∀ s', step blockedDevice s .pollNotified = some s' → s'.phase = .woken .notify false :=
  ⟨_, rfl, rfl, (no_wake_lost blockedDevice [] none handedOn _ rfl ⟨_, _, rfl, fun _ h => by simp at h⟩).2⟩

end WarpSocks.Netstack.Reactor
