import WarpSocks.Mixed.Accept

/-!
# Withdrawal of an egress

Over any interleaving of the supervisor, the listeners and the tasks: a task that uses an egress has selected it
when it was the value of the channel (`Traced`), stays with it, and can be cancelled from the first change after
the selection on, since the version it has seen is the one of the selection (`version_exec`).  The tasks that have
not ended never exceed the permits (`balanced_exec`).
-/

namespace WarpSocks.Mixed

variable {O : Type}

/-- A task that has not ended holds a permit. -/
def Task.alive (t : Task O) : Nat :=
  match t.phase with
  | .done => 0
  | _ => 1

/-- A listener holds the permit of the task it is about to spawn. -/
def Listener.holding (listener : Listener) : Nat :=
  match listener.phase with
  | .admitted _ => 1
  | _ => 0

/-- The tasks that have not ended, over all listeners. -/
def State.alive (s : State O) : Nat := (s.tasks.map Task.alive).sum

/-! ### What one step does to a task -/

/-- What a step of a task does to it. -/
inductive Moves (channel : Sync.Watch (Option O)) : TaskStep → Task O → Task O → Prop where
  | select {t : Task O} (o : O) (hphase : t.phase = .check) (hvalue : channel.value = some o) :
    Moves channel .borrow t { t with seen := channel.version, phase := .ready o }
  | wait {t : Task O} (hphase : t.phase = .check) :
    Moves channel .borrow t { t with seen := channel.version, phase := .waiting }
  | recheck {t : Task O} (seen : Nat) (hphase : t.phase = .waiting) :
    Moves channel .changed t { t with seen, phase := .check }
  | giveUp {t : Task O} {st : TaskStep} (hst : st ≠ .borrow) (hphase : t.phase = .waiting) :
    Moves channel st t { t with phase := .failed }
  | start {t : Task O} (o : O) (hphase : t.phase = .ready o) :
    Moves channel .start t { t with phase := .dispatching (.outbound o) none }
  | startUnavailable {t : Task O} (hphase : t.phase = .failed) :
    Moves channel .start t { t with phase := .dispatching .unavailable none }
  | detect {t : Task O} {st : TaskStep} (egress : Egress O) (protocol : Protocol) (hst : st ≠ .borrow)
    (hphase : t.phase = .dispatching egress none) :
    Moves channel st t { t with phase := .dispatching egress (some protocol) }
  | use {t : Task O} (egress : Egress O) (protocol : Protocol)
    (hphase : t.phase = .dispatching egress (some protocol)) :
    Moves channel .use t { t with used := t.used ++ [egress] }
  | finish {t : Task O} {st : TaskStep} (hst : st ≠ .borrow) (hphase : t.phase ≠ .done) :
    Moves channel st t { t with phase := .done }

/-- A task goes on alone. -/
structure TaskMoves (s s' : State O) (i : Nat) (st : TaskStep) (t t' : Task O) : Prop where
  get : s.tasks[i]? = some t
  tasks : s'.tasks = s.tasks.set i t'
  listeners : s'.listeners = s.listeners
  channel : s'.channel = s.channel
  permits : t.alive ≤ s.permits.taken → s'.permits.taken + t.alive = s.permits.taken + t'.alive
  moves : Moves s.channel st t t'

section TaskStep

variable {s s' : State O} {i : Nat} {t : Task O}

private theorem alive_eq_one {t : Task O} (h : t.phase ≠ .done) : t.alive = 1 := by
  unfold Task.alive
  split
  · contradiction
  · rfl

private theorem taskMoves_setTask {st : TaskStep} {t' : Task O} (ht : s.tasks[i]? = some t) (halive : t.phase ≠ .done)
    (halive' : t'.phase ≠ .done) (hmoves : Moves s.channel st t t') : TaskMoves s (s.setTask i t') i st t t' := by
  refine ⟨ht, rfl, rfl, rfl, fun _ => ?_, hmoves⟩
  rw [alive_eq_one halive, alive_eq_one halive']
  rfl

private theorem taskMoves_finish {st : TaskStep} (ht : s.tasks[i]? = some t) (hst : st ≠ .borrow)
    (halive : t.phase ≠ .done) : TaskMoves s (s.finish i t) i st t { t with phase := .done } := by
  refine ⟨ht, rfl, rfl, rfl, fun hle => ?_, .finish hst halive⟩
  have hone := alive_eq_one halive
  have hzero : ({ t with phase := .done } : Task O).alive = 0 := rfl
  rw [hone, hzero]
  rw [hone] at hle
  simp only [State.finish, Sync.Semaphore.taken_release]
  omega

private theorem taskStep_moves {st : TaskStep} (ht : s.tasks[i]? = some t) (h : taskStep s i t st = some s') :
    ∃ t', TaskMoves s s' i st t t' := by
  cases st with
  | borrow =>
    unfold taskStep at h
    dsimp only at h
    split at h
    · rename_i outbound seen hphase hborrow
      cases h
      obtain ⟨hvalue, rfl⟩ := Prod.mk.inj hborrow
      exact ⟨_, taskMoves_setTask ht (by simp [hphase]) (by simp) (.select outbound hphase hvalue)⟩
    · rename_i seen hphase hborrow
      cases h
      obtain ⟨_, rfl⟩ := Prod.mk.inj hborrow
      exact ⟨_, taskMoves_setTask ht (by simp [hphase]) (by simp) (.wait hphase)⟩
    · nomatch h
  | changed =>
    unfold taskStep at h
    dsimp only at h
    split at h
    · rename_i seen hphase _
      cases h
      exact ⟨_, taskMoves_setTask ht (by simp [hphase]) (by simp) (.recheck seen hphase)⟩
    · rename_i hphase _
      cases h
      exact ⟨_, taskMoves_setTask ht (by simp [hphase]) (by simp) (.giveUp (by simp) hphase)⟩
    · rename_i hphase _
      cases h
      exact ⟨_, taskMoves_finish ht (by simp) (by simp [hphase])⟩
    · rename_i hphase _
      cases h
      exact ⟨_, taskMoves_finish ht (by simp) (by simp [hphase])⟩
    · nomatch h
  | timeout =>
    unfold taskStep at h
    dsimp only at h
    split at h
    · rename_i hphase
      cases h
      exact ⟨_, taskMoves_setTask ht (by simp [hphase]) (by simp) (.giveUp (by simp) hphase)⟩
    · rename_i hphase
      cases h
      exact ⟨_, taskMoves_finish ht (by simp) (by simp [hphase])⟩
    · nomatch h
  | start =>
    unfold taskStep at h
    dsimp only at h
    split at h
    · rename_i outbound hphase
      cases h
      exact ⟨_, taskMoves_setTask ht (by simp [hphase]) (by simp) (.start outbound hphase)⟩
    · rename_i hphase
      cases h
      exact ⟨_, taskMoves_setTask ht (by simp [hphase]) (by simp) (.startUnavailable hphase)⟩
    · nomatch h
  | peek byte =>
    unfold taskStep at h
    dsimp only at h
    split at h
    · rename_i hphase
      cases h
      exact ⟨_, taskMoves_finish ht (by simp) (by simp [hphase])⟩
    · rename_i egress byte hphase
      cases h
      exact ⟨_, taskMoves_setTask ht (by simp [hphase]) (by simp) (.detect egress _ (by simp) hphase)⟩
    · nomatch h
  | use =>
    unfold taskStep at h
    dsimp only at h
    split at h
    · rename_i egress protocol hphase
      cases h
      exact ⟨_, taskMoves_setTask ht (by simp [hphase]) (by simp [hphase]) (.use egress protocol hphase)⟩
    · nomatch h
  | finished =>
    unfold taskStep at h
    dsimp only at h
    split at h
    · rename_i hphase
      cases h
      exact ⟨_, taskMoves_finish ht (by simp) (by simp [hphase])⟩
    · nomatch h
  | abort =>
    unfold taskStep at h
    dsimp only at h
    split at h
    · nomatch h
    · rename_i hphase
      cases h
      exact ⟨_, taskMoves_finish ht (by simp) (fun hdone => hphase hdone)⟩

end TaskStep

/-- A listener goes on alone, or spawns a task. -/
structure ListenerMoves (s s' : State O) (l : Nat) (listener listener' : Listener) : Prop where
  get : s.listeners[l]? = some listener
  listeners : s'.listeners = s.listeners.set l listener'
  lanOnly : listener'.lanOnly = listener.lanOnly
  admits : ∀ peer, listener'.phase = .admitted peer → listener.phase = .admitted peer ∨
    (listener.lanOnly = true → isLanAddress peer = true)
  channel : s'.channel = s.channel
  tasks : (s'.tasks = s.tasks ∧ s'.permits.taken + listener.holding = s.permits.taken + listener'.holding) ∨
    ∃ peer, s'.tasks = s.tasks ++ [⟨peer, listener.seen, .check, []⟩] ∧ s'.permits = s.permits ∧
      listener.phase = .admitted peer ∧ listener'.phase = .accepting

section ListenerStep

variable {s s' : State O} {l : Nat} {listener : Listener}

/-- A client that is not served leaves no trace. -/
private theorem listenerMoves_refuse (hl : s.listeners[l]? = some listener) : ListenerMoves s s l listener listener :=
  ⟨hl, (Machine.set_self hl).symm, rfl, fun _ h => .inl h, rfl, .inl ⟨rfl, rfl⟩⟩

private theorem listenerStep_moves {st : ListenerStep} (hl : s.listeners[l]? = some listener)
    (h : listenerStep s l listener st = some s') : ∃ listener', ListenerMoves s s' l listener listener' := by
  cases st with
  | accept result =>
    unfold listenerStep at h
    dsimp only at h
    split at h
    · rename_i kind hphase
      split at h
      · cases h
        exact ⟨listener, listenerMoves_refuse hl⟩
      · cases h
        refine ⟨_, hl, rfl, rfl, fun _ h => (nomatch h), rfl, .inl ⟨rfl, ?_⟩⟩
        simp only [Listener.holding, hphase, State.setListener]
    · rename_i peer hphase
      split at h
      · cases h
        exact ⟨listener, listenerMoves_refuse hl⟩
      · rename_i hlan
        split at h
        · cases h
          exact ⟨listener, listenerMoves_refuse hl⟩
        · rename_i permits hpermit
          cases h
          refine ⟨_, hl, rfl, rfl, fun peer' hp => .inr fun honly => ?_, rfl, .inl ⟨rfl, ?_⟩⟩
          · cases hp
            simpa [honly] using hlan
          · have htaken := Sync.Semaphore.taken_of_tryAcquire hpermit
            simp only [Listener.holding, hphase, htaken]
    · nomatch h
  | retry =>
    unfold listenerStep at h
    dsimp only at h
    split at h
    · rename_i hphase
      cases h
      refine ⟨_, hl, rfl, rfl, fun _ h => (nomatch h), rfl, .inl ⟨rfl, ?_⟩⟩
      simp only [Listener.holding, hphase, State.setListener]
    · nomatch h
  | spawn =>
    unfold listenerStep at h
    dsimp only at h
    split at h
    · rename_i peer hphase
      cases h
      exact ⟨_, hl, rfl, rfl, fun _ h => (nomatch h), rfl, .inr ⟨peer, rfl, rfl, hphase, rfl⟩⟩
    · nomatch h

end ListenerStep

variable {s s' : State O} {e : Event O}

/-- A step is one of the supervisor, of a listener or of a task. -/
private theorem step_cases (h : step s e = some s') :
    (s'.tasks = s.tasks ∧ s'.listeners = s.listeners ∧ s'.permits = s.permits ∧ ∀ i st, e ≠ .task i st) ∨
      (∃ l st listener listener', e = .listener l st ∧ ListenerMoves s s' l listener listener') ∨
      ∃ i st t t', e = .task i st ∧ TaskMoves s s' i st t t' := by
  cases e with
  | publish value =>
    cases h
    exact .inl ⟨rfl, rfl, rfl, fun _ _ h => nomatch h⟩
  | close =>
    cases h
    exact .inl ⟨rfl, rfl, rfl, fun _ _ h => nomatch h⟩
  | listener l st =>
    obtain ⟨listener, hl, hst⟩ := Option.bind_eq_some_iff.1 h
    obtain ⟨listener', hm⟩ := listenerStep_moves hl hst
    exact .inr (.inl ⟨l, st, listener, listener', rfl, hm⟩)
  | task i st =>
    obtain ⟨t, ht, hst⟩ := Option.bind_eq_some_iff.1 h
    obtain ⟨t', hm⟩ := taskStep_moves ht hst
    exact .inr (.inr ⟨i, st, t, t', rfl, hm⟩)

/-! ### Permits -/

/-- The permits taken are those of the tasks that have not ended and of the listeners that are about to spawn
one. -/
def Balanced (s : State O) : Prop := s.permits.taken = s.alive + (s.listeners.map Listener.holding).sum

private theorem Balanced.step (hs : Balanced s) (h : step s e = some s') : Balanced s' := by
  unfold Balanced State.alive at hs ⊢
  rcases step_cases h with ⟨ht, hl, hp, _⟩ | ⟨l, st, listener, listener', rfl, hm⟩ | ⟨i, st, t, t', rfl, hm⟩
  · rw [ht, hl, hp]
    exact hs
  · have hsum := Machine.sum_map_set Listener.holding hm.get listener'
    rw [hm.listeners]
    rcases hm.tasks with ⟨htasks, hpermits⟩ | ⟨peer, htasks, hpermits, hphase, hphase'⟩
    · rw [htasks]
      omega
    · have hone : listener.holding = 1 := by simp only [Listener.holding, hphase]
      have hzero : listener'.holding = 0 := by simp only [Listener.holding, hphase']
      have hnew : (⟨peer, listener.seen, .check, []⟩ : Task O).alive = 1 := rfl
      rw [htasks, hpermits, Machine.sum_map_concat]
      omega
  · have hle := Machine.le_sum_map Task.alive hm.get
    have hsum := Machine.sum_map_set Task.alive hm.get t'
    have hpermits := hm.permits (by omega)
    rw [hm.tasks, hm.listeners]
    omega

theorem balanced_exec {mode : ListenMode} {value : Option O} {es : List (Event O)}
    (h : Machine.exec step (.initial mode value) es = some s) : Balanced s := by
  refine Machine.exec_induction (P := Balanced) (fun _ _ _ hs h => hs.step h) ?_ h
  have hzero : ((State.initial mode value).listeners.map Listener.holding).sum = 0 := by
    apply Machine.sum_map_eq_zero
    intro listener hmem
    obtain ⟨x, _, rfl⟩ := List.mem_map.1 hmem
    rfl
  unfold Balanced
  rw [hzero]
  rfl

/-! ### Automatic listeners -/

/-- All listeners are for the local network, and so are the clients they have let in. -/
structure LanOnly (s : State O) : Prop where
  lanOnly : ∀ (l : Nat) (listener : Listener), s.listeners[l]? = some listener → listener.lanOnly = true ∧
    ∀ peer, listener.phase = .admitted peer → isLanAddress peer = true
  peers : ∀ (i : Nat) (t : Task O), s.tasks[i]? = some t → isLanAddress t.peer = true

private theorem Moves.peer {channel : Sync.Watch (Option O)} {st : TaskStep} {t t' : Task O}
    (h : Moves channel st t t') :
    t'.peer = t.peer := by
  cases h <;> rfl

private theorem LanOnly.step (hs : LanOnly s) (h : step s e = some s') : LanOnly s' := by
  obtain ⟨hlan, hpeers⟩ := hs
  rcases step_cases h with ⟨ht, hl, _, _⟩ | ⟨l, st, listener, listener', rfl, hm⟩ | ⟨i, st, t, t', rfl, hm⟩
  · exact ⟨hl ▸ hlan, ht ▸ hpeers⟩
  · obtain ⟨honly, hadmitted⟩ := hlan l listener hm.get
    constructor
    · intro k other hget
      rw [hm.listeners] at hget
      rcases Machine.getElem?_set_cases hget with ⟨_, rfl⟩ | ⟨_, hget⟩
      · refine ⟨hm.lanOnly.trans honly, fun peer hphase => ?_⟩
        rcases hm.admits peer hphase with hold | hnew
        · exact hadmitted peer hold
        · exact hnew honly
      · exact hlan k other hget
    · intro j u hget
      rcases hm.tasks with ⟨htasks, _⟩ | ⟨peer, htasks, _, hphase, _⟩
      · rw [htasks] at hget
        exact hpeers j u hget
      · rw [htasks] at hget
        rcases Machine.getElem?_concat_cases hget with ⟨_, rfl⟩ | hget
        · exact hadmitted peer hphase
        · exact hpeers j u hget
  · refine ⟨hm.listeners ▸ hlan, fun j u hget => ?_⟩
    rw [hm.tasks] at hget
    rcases Machine.getElem?_set_cases hget with ⟨_, rfl⟩ | ⟨_, hget⟩
    · rw [hm.moves.peer]
      exact hpeers i t hm.get
    · exact hpeers j u hget

/-- In the automatic mode only clients of the local network get a task. -/
theorem auto_lanOnly {port : UInt16} {value : Option O} {es : List (Event O)}
    (h : Machine.exec step (.initial (.auto port) value) es = some s) : LanOnly s := by
  refine Machine.exec_induction (P := LanOnly) (fun _ _ _ hs h => hs.step h) ⟨?_, ?_⟩ h
  · intro l listener hget
    have hmem := List.mem_of_getElem? hget
    simp only [State.initial, bindListeners, List.map_cons, List.map_nil, List.mem_cons, List.not_mem_nil, or_false]
      at hmem
    rcases hmem with rfl | rfl
    · exact ⟨rfl, fun _ h => nomatch h⟩
    · exact ⟨rfl, fun _ h => nomatch h⟩
  · intro i t hget
    nomatch List.getElem?_nil (i := i) ▸ hget

/-! ### Selections -/

def Event.published : Event O → Nat
  | .publish _ => 1
  | _ => 0

/-- The version of the channel counts the publications. -/
theorem version_exec {s₀ : State O} {es : List (Event O)} (h : Machine.exec step s₀ es = some s) :
    s.channel.version = s₀.channel.version + (es.map Event.published).sum := by
  refine Machine.exec_induction_events
    (P := fun es s => s.channel.version = s₀.channel.version + (es.map Event.published).sum) ?_ rfl h
  intro es s e s' hs hstep
  rw [Machine.sum_map_concat, ← Nat.add_assoc, ← hs]
  cases e with
  | publish value =>
    cases hstep
    rfl
  | close =>
    cases hstep
    rfl
  | listener l st =>
    obtain ⟨listener, hl, hst⟩ := Option.bind_eq_some_iff.1 hstep
    obtain ⟨listener', hm⟩ := listenerStep_moves hl hst
    rw [hm.channel]
    rfl
  | task i st =>
    obtain ⟨t, ht, hst⟩ := Option.bind_eq_some_iff.1 hstep
    obtain ⟨t', hm⟩ := taskStep_moves ht hst
    rw [hm.channel]
    rfl

/-- The last `borrow_and_update` of the task found `o` in the channel, at the version. -/
def Selected (s₀ : State O) (es : List (Event O)) (i : Nat) (o : O) (version : Nat) : Prop :=
  ∃ es₁ es₂ s₁, es = es₁ ++ .task i .borrow :: es₂ ∧ Machine.exec step s₀ es₁ = some s₁ ∧
    s₁.channel.value = some o ∧ s₁.channel.version = version ∧ .task i .borrow ∉ es₂

private theorem Selected.concat {s₀ : State O} {es : List (Event O)} {i : Nat} {o : O} {version : Nat}
    (h : Selected s₀ es i o version) (he : e ≠ .task i .borrow) : Selected s₀ (es ++ [e]) i o version := by
  obtain ⟨es₁, es₂, s₁, rfl, hexec, hvalue, hversion, hlast⟩ := h
  refine ⟨es₁, es₂ ++ [e], s₁, by simp, hexec, hvalue, hversion, ?_⟩
  rw [List.mem_append, List.mem_singleton]
  rintro (hmem | heq)
  · exact hlast hmem
  · exact he heq.symm

/-- How a task in the phase has come to use what it has used. -/
def Phase.Traced (s₀ : State O) (es : List (Event O)) (i seen : Nat) (used : List (Egress O)) : Phase O → Prop
  | .check | .waiting | .failed => used = []
  | .ready o => used = [] ∧ Selected s₀ es i o seen
  | .dispatching egress _ => (∀ u ∈ used, u = egress) ∧ ∀ o, egress = .outbound o → Selected s₀ es i o seen
  | .done => ∃ egress, (∀ u ∈ used, u = egress) ∧ ∀ o, egress = .outbound o → ∃ n, Selected s₀ es i o n

def Traced (s₀ : State O) (es : List (Event O)) (i : Nat) (t : Task O) : Prop := t.phase.Traced s₀ es i t.seen t.used

section Trace

variable {s₀ : State O} {es : List (Event O)} {i : Nat} {t t' : Task O}

/-- A task that does not read the channel keeps its trace. -/
private theorem Traced.concat (h : Traced s₀ es i t) (he : e ≠ .task i .borrow) : Traced s₀ (es ++ [e]) i t := by
  unfold Traced at h ⊢
  cases hphase : t.phase with
  | check | waiting | failed =>
    rw [hphase] at h
    exact h
  | ready o =>
    rw [hphase] at h
    exact ⟨h.1, h.2.concat he⟩
  | dispatching egress protocol =>
    rw [hphase] at h
    exact ⟨h.1, fun o ho => (h.2 o ho).concat he⟩
  | done =>
    rw [hphase] at h
    obtain ⟨egress, hused, hsel⟩ := h
    refine ⟨egress, hused, fun o ho => ?_⟩
    obtain ⟨n, hn⟩ := hsel o ho
    exact ⟨n, hn.concat he⟩

/-- Whatever the phase, a task has used at most one egress. -/
private theorem Traced.done (h : Traced s₀ es i t) : Phase.done.Traced s₀ es i t.seen t.used := by
  have hnone : t.used = [] → Phase.done.Traced s₀ es i t.seen t.used := by
    intro hused
    rw [hused]
    exact ⟨.unavailable, fun _ hu => (nomatch hu), fun _ ho => (nomatch ho)⟩
  unfold Traced at h
  cases hphase : t.phase with
  | check | waiting | failed =>
    rw [hphase] at h
    exact hnone h
  | ready o =>
    rw [hphase] at h
    exact hnone h.1
  | dispatching egress protocol =>
    rw [hphase] at h
    exact ⟨egress, h.1, fun o ho => ⟨t.seen, h.2 o ho⟩⟩
  | done =>
    rw [hphase] at h
    exact h

private theorem Moves.traced {st : TaskStep} (hexec : Machine.exec step s₀ es = some s) (h : Traced s₀ es i t)
    (hm : Moves s.channel st t t') : Traced s₀ (es ++ [.task i st]) i t' := by
  have hkeep : st ≠ .borrow → Traced s₀ (es ++ [.task i st]) i t :=
    fun hst => h.concat fun heq => hst (Event.task.inj heq).2
  cases hm with
  | select o hphase hvalue =>
    unfold Traced at h
    rw [hphase] at h
    exact ⟨h, es, [], s, rfl, hexec, hvalue, rfl, List.not_mem_nil⟩
  | wait hphase =>
    unfold Traced at h
    rw [hphase] at h
    exact h
  | recheck seen hphase =>
    unfold Traced at h
    rw [hphase] at h
    exact h
  | giveUp hst hphase =>
    unfold Traced at h
    rw [hphase] at h
    exact h
  | start o hphase =>
    have hold := hkeep (by simp)
    unfold Traced at hold
    rw [hphase] at hold
    obtain ⟨hused, hsel⟩ := hold
    refine ⟨fun u hu => ?_, fun o' ho => ?_⟩
    · rw [hused] at hu
      nomatch hu
    · cases ho
      exact hsel
  | startUnavailable hphase =>
    unfold Traced at h
    rw [hphase] at h
    refine ⟨fun u hu => ?_, fun _ ho => (nomatch ho)⟩
    rw [show t.used = [] from h] at hu
    nomatch hu
  | detect egress protocol hst hphase =>
    have hold := hkeep hst
    unfold Traced at hold
    rw [hphase] at hold
    exact hold
  | use egress protocol hphase =>
    have hold := hkeep (by simp)
    unfold Traced at hold ⊢
    rw [hphase] at hold
    rw [show ({ t with used := t.used ++ [egress] } : Task O).phase = .dispatching egress (some protocol) from hphase]
    refine ⟨fun u hu => ?_, hold.2⟩
    rcases List.mem_append.1 hu with hu | hu
    · exact hold.1 u hu
    · exact List.mem_singleton.1 hu
  | finish hst hphase => exact (hkeep hst).done

private theorem traced_step (hexec : Machine.exec step s₀ es = some s)
    (hs : ∀ (i : Nat) (t : Task O), s.tasks[i]? = some t → Traced s₀ es i t) (h : step s e = some s') (j : Nat)
    (u : Task O) (hu : s'.tasks[j]? = some u) : Traced s₀ (es ++ [e]) j u := by
  rcases step_cases h with ⟨ht, _, _, he⟩ | ⟨l, st, listener, listener', rfl, hm⟩ | ⟨i, st, t, t', rfl, hm⟩
  · rw [ht] at hu
    exact (hs j u hu).concat (he j .borrow)
  · rcases hm.tasks with ⟨htasks, _⟩ | ⟨peer, htasks, _⟩
    · rw [htasks] at hu
      exact (hs j u hu).concat fun heq => nomatch heq
    · rw [htasks] at hu
      rcases Machine.getElem?_concat_cases hu with ⟨_, rfl⟩ | hu
      · rfl
      · exact (hs j u hu).concat fun heq => nomatch heq
  · rw [hm.tasks] at hu
    rcases Machine.getElem?_set_cases hu with ⟨rfl, rfl⟩ | ⟨hne, hu⟩
    · exact hm.moves.traced hexec (hs j t hm.get)
    · exact (hs j u hu).concat fun heq => hne (Event.task.inj heq).1.symm

private theorem traced_exec {mode : ListenMode} {value : Option O}
    (h : Machine.exec step (.initial mode value) es = some s)
    (ht : s.tasks[i]? = some t) : Traced (.initial mode value) es i t := by
  have hboth : Machine.exec step (.initial mode value) es = some s ∧
      ∀ (i : Nat) (t : Task O), s.tasks[i]? = some t → Traced (.initial mode value) es i t := by
    refine Machine.exec_induction_events (P := fun es s => Machine.exec step (.initial mode value) es = some s ∧
      ∀ (i : Nat) (t : Task O), s.tasks[i]? = some t → Traced (.initial mode value) es i t) ?_ ⟨rfl, ?_⟩ h
    · rintro es s e s' ⟨hexec, hs⟩ hstep
      exact ⟨Machine.exec_concat.2 ⟨s, hexec, hstep⟩, traced_step hexec hs hstep⟩
    · intro i t hget
      nomatch List.getElem?_nil (i := i) ▸ hget
  exact hboth.2 i t ht

end Trace

/-! ### Cancellation -/

/-- The task has selected the egress and has not ended. -/
def Task.Over (t : Task O) (o : O) : Prop :=
  t.phase = .ready o ∨ ∃ protocol, t.phase = .dispatching (.outbound o) protocol

private theorem Traced.selected {s₀ : State O} {es : List (Event O)} {i : Nat} {t : Task O} {o : O}
    (h : Traced s₀ es i t) (hover : t.Over o) : Selected s₀ es i o t.seen := by
  unfold Traced at h
  rcases hover with hphase | ⟨protocol, hphase⟩
  · rw [hphase] at h
    exact h.2
  · rw [hphase] at h
    exact h.2 o rfl

/-- A publication after the selection is a version the task has not seen. -/
private theorem seen_ne_version {s₀ s₁ : State O} {es₁ es₂ : List (Event O)} {i : Nat} {value : Option O}
    (h : Machine.exec step s₀ (es₁ ++ .task i .borrow :: es₂) = some s) (h₁ : Machine.exec step s₀ es₁ = some s₁)
    (hmem : .publish value ∈ es₂) : s₁.channel.version ≠ s.channel.version := by
  have hversion := version_exec h
  have hversion₁ := version_exec h₁
  have hone : 1 ≤ (es₂.map Event.published).sum :=
    List.le_sum_of_mem (List.mem_map.2 ⟨_, hmem, rfl⟩)
  rw [List.map_append, List.map_cons, List.sum_append, List.sum_cons] at hversion
  omega

private theorem taskStep_changed_of_ne {i : Nat} {t : Task O} {egress : Egress O} {protocol : Option Protocol}
    (ht : s.tasks[i]? = some t) (hphase : t.phase = .dispatching egress protocol) (hne : t.seen ≠ s.channel.version) :
    step s (.task i .changed) = some (s.finish i t) := by
  show (s.tasks[i]?.bind fun t => taskStep s i t .changed) = _
  rw [ht, Option.bind_some]
  simp only [taskStep, hphase, Sync.Watch.changed_of_ne hne]

/-- In every state the tasks reach, there are at most 64 of them that have not ended, and each of them uses one
egress only: `Unavailable`, or the one that was the value of the channel when the task read it last.  If the
supervisor has published anything since, the cancellation of the task is enabled. -/
theorem withdrawn_egress_cancelled (mode : ListenMode) (value : Option O) (es : List (Event O)) (s : State O)
    (h : Machine.exec step (.initial mode value) es = some s) :
    s.alive ≤ 64 ∧ ∀ (i : Nat) (t : Task O), s.tasks[i]? = some t →
      (∃ egress, (∀ u ∈ t.used, u = egress) ∧
        (∀ e protocol, t.phase = .dispatching e protocol → ∀ u ∈ t.used, u = e) ∧
        ∀ o, egress = .outbound o → ∃ n, Selected (.initial mode value) es i o n) ∧
      ((∀ o n, ¬ Selected (.initial mode value) es i o n) → ∀ u ∈ t.used, u = .unavailable) ∧
      ∀ o, t.Over o → ∃ es₁ es₂ s₁, es = es₁ ++ .task i .borrow :: es₂ ∧ .task i .borrow ∉ es₂ ∧
        Machine.exec step (.initial mode value) es₁ = some s₁ ∧ s₁.channel.value = some o ∧
        ∀ v, .publish v ∈ es₂ → s.channel.changed t.seen = .changed s.channel.version ∧
          ∀ e protocol, t.phase = .dispatching e protocol → step s (.task i .changed) = some (s.finish i t) := by
  have hbalanced := balanced_exec h
  refine ⟨?_, fun i t ht => ?_⟩
  · have hle := s.permits.le
    unfold Balanced at hbalanced
    unfold MAX_CONNECTIONS at hle
    omega
  · have htraced := traced_exec h ht
    obtain ⟨egress, hused, hsel⟩ := htraced.done
    refine ⟨⟨egress, hused, ?_, hsel⟩, ?_, ?_⟩
    · intro e protocol hphase
      unfold Traced at htraced
      rw [hphase] at htraced
      exact htraced.1
    · intro hnone u hu
      cases egress with
      | outbound o =>
        obtain ⟨n, hn⟩ := hsel o rfl
        exact (hnone o n hn).elim
      | unavailable => exact hused u hu
    · intro o hover
      obtain ⟨es₁, es₂, s₁, rfl, hexec, hvalue, hversion, hlast⟩ := htraced.selected hover
      refine ⟨es₁, es₂, s₁, rfl, hlast, hexec, hvalue, fun v hmem => ?_⟩
      have hne : t.seen ≠ s.channel.version := hversion ▸ seen_ne_version h hexec hmem
      exact ⟨Sync.Watch.changed_of_ne hne, fun e protocol hphase => taskStep_changed_of_ne ht hphase hne⟩

/-- A client comes while there is no egress, waits for the first one, and the egress is withdrawn before the
`select!`. -/
def withdrawal : List (Event Nat) :=
  [.listener 0 (.accept (.ok (.v4 ⟨[127, 0, 0, 1], rfl⟩))), .listener 0 .spawn, .task 0 .borrow, .publish (some 7),
    .task 0 .changed, .task 0 .borrow, .publish none, .task 0 .start]

theorem withdrawn_egress_cancelled_before_select :
    ∃ s, Machine.exec step (.initial (.auto 1080) none) withdrawal = some s ∧
    s.alive ≤ 64 ∧ (s.tasks.map fun t => (t.phase, s.channel.changed t.seen)) =
      [(.dispatching (.outbound 7) none, .changed 2)] :=
  ⟨_, rfl, (withdrawn_egress_cancelled (.auto 1080) none withdrawal _ rfl).1, by decide⟩

end WarpSocks.Mixed
