import WarpSocks.Socks5.Egress

/-!
# The kinds of steps of the UDP egress

Every step is of one of six kinds (`step_kind`): a new association, an association or a worker that goes on alone,
a datagram that moves from a `send` to a queue, a new worker, and a reply that moves from a worker to the queue of
replies. The invariants of the egress are proved by kinds, so they do not depend on how the source orders the
checks of a `send`.
-/

namespace WarpSocks.Socks5.Egress

/-- All the bytes an association holds. -/
def EgressSet.held (set : EgressSet) : Nat := set.queued + set.handling

/-- A worker that exists holds one permit. -/
def Worker.alive (w : Worker) : Nat :=
  match w.phase with
  | .gone => 0
  | _ => 1

/-- The datagram of a `send`. -/
def Stage.pending : Stage → Option (SocketAddrOrName × Payload)
  | .idle => none
  | .budget target payload | .route target payload | .spawn target payload | .enqueue target payload _ =>
    some (target, payload)

/-- What a step of an association does to the datagram of its `send`: it comes, or it stays or goes. -/
def SetStep.Pends (old new : Stage) : SetStep → Prop
  | .send target payload => old.pending = none ∧ new.pending = some (target, payload)
  | _ => new.pending = none ∨ new.pending = old.pending

/-- An association goes on alone. -/
structure SetMoves (s s' : State) (a : Nat) (st : SetStep) (set set' : EgressSet) : Prop where
  get : s.sets[a]? = some set
  sets : s'.sets = s.sets.set a set'
  workers : s'.workers = s.workers
  permits : s'.workerPermits = s.workerPermits
  bytes : set.held ≤ s.queueBytes.taken → s'.queueBytes.taken + set.held = s.queueBytes.taken + set'.held
  routes : ∀ target worker, set'.routes.lookup target = some worker → set.routes.lookup target = some worker
  size : set'.routes.size ≤ set.routes.size
  enqueue : ∀ target payload worker, set'.sending = .enqueue target payload worker →
    set.sending = .enqueue target payload worker
  pends : st.Pends set.sending set'.sending

/-- A worker goes on alone. -/
structure WorkerMoves (s s' : State) (i : Nat) (w w' : Worker) : Prop where
  get : s.workers[i]? = some w
  workers : s'.workers = s.workers.set i w'
  sets : s'.sets = s.sets
  permits : w.alive ≤ s.workerPermits.taken →
    s'.workerPermits.taken + w.alive = s.workerPermits.taken + w'.alive
  bytes : w.held ≤ s.queueBytes.taken → s'.queueBytes.taken + w.held = s.queueBytes.taken + w'.held
  association : w'.association = w.association
  target : w'.target = w.target
  order : (w'.forwarded ++ w'.queue).Sublist (w.forwarded ++ w.queue)

/-- The datagram of a `send` moves to the queue of a worker: of the route's, or of the new one, whose route is
made. -/
structure Enqueues (s s' : State) (a : Nat) (set set' : EgressSet) (i : Nat) (w : Worker) (target : SocketAddrOrName)
    (payload : Payload) : Prop where
  getSet : s.sets[a]? = some set
  getWorker : s.workers[i]? = some w
  sets : s'.sets = s.sets.set a set'
  workers : s'.workers = s.workers.set i { w with queue := w.queue ++ [payload] }
  permits : s'.workerPermits = s.workerPermits
  queueBytes : s'.queueBytes = s.queueBytes
  bytes : set'.held + payload.size = set.held
  idle : set'.sending = .idle
  route : set.sending = .route target payload ∧ set.routes.lookup target = some i ∧ set'.routes = set.routes ∨
    set.sending = .enqueue target payload i ∧ set'.routes = set.routes.insert target i

/-- A worker is spawned. -/
structure Spawns (s s' : State) (a : Nat) (set : EgressSet) (target : SocketAddrOrName) (payload : Payload) :
    Prop where
  get : s.sets[a]? = some set
  sending : set.sending = .spawn target payload
  size : set.routes.size < MAX_UDP_TARGETS_PER_ASSOCIATION
  sets : s'.sets = s.sets.set a { set with sending := .enqueue target payload s.workers.length }
  workers : s'.workers = s.workers ++ [⟨a, target, [], .establishing, []⟩]
  permits : s'.workerPermits.taken = s.workerPermits.taken + 1
  queueBytes : s'.queueBytes = s.queueBytes

/-- A reply moves from a worker to the queue of its association. -/
structure Answers (s s' : State) (i : Nat) (w : Worker) (set : EgressSet) (payload : Payload) : Prop where
  getWorker : s.workers[i]? = some w
  getSet : s.sets[w.association]? = some set
  phase : w.phase = .replying payload
  workers : s'.workers = s.workers.set i { w with phase := .waiting }
  sets : s'.sets = s.sets.set w.association { set with replies := set.replies ++ [payload] }
  permits : s'.workerPermits = s.workerPermits
  queueBytes : s'.queueBytes = s.queueBytes

/-- What an event does. -/
inductive Kind (s s' : State) : Event → Prop where
  | create (hs : s' = { s with sets := s.sets ++ [.new] }) : Kind s s' .newAssociation
  | set {a : Nat} {st : SetStep} {set set' : EgressSet} (h : SetMoves s s' a st set set') : Kind s s'
    (.association a st)
  | worker {i : Nat} {st : WorkerStep} {w w' : Worker} (h : WorkerMoves s s' i w w') : Kind s s' (.worker i st)
  | enqueue {a : Nat} {set set' : EgressSet} {i : Nat} {w : Worker} {target : SocketAddrOrName} {payload : Payload}
    (h : Enqueues s s' a set set' i w target payload) : Kind s s' (.association a .sendStep)
  | spawn {a : Nat} {set : EgressSet} {target : SocketAddrOrName} {payload : Payload}
    (h : Spawns s s' a set target payload) : Kind s s' (.association a .sendStep)
  | answer {i : Nat} {w : Worker} {set : EgressSet} {payload : Payload} (h : Answers s s' i w set payload) :
    Kind s s' (.worker i .replied)

section Send

variable {s s' : State} {a : Nat} {set : EgressSet} {target : SocketAddrOrName} {payload : Payload}

private theorem trySend_sent {i : Nat} {w' : Worker} (h : s.trySend i payload = .sent w') :
    ∃ w, s.workers[i]? = some w ∧ w' = { w with queue := w.queue ++ [payload] } := by
  unfold State.trySend at h
  split at h
  · nomatch h
  · rename_i w hw
    split at h
    · nomatch h
    · split at h
      · cases h
        exact ⟨w, hw, rfl⟩
      · nomatch h

/-- The `send` returns and drops its datagram. -/
private theorem setMoves_drop (hset : s.sets[a]? = some set) (hheld : set.sending.held = payload.size) :
    SetMoves s ((s.setSet a { set with sending := .idle }).release payload.size) a .sendStep set
      { set with sending := .idle } := by
  refine ⟨hset, rfl, rfl, rfl, ?_, fun _ _ h => h, Nat.le_refl _, fun _ _ _ h => (nomatch h), .inl rfl⟩
  intro hle
  have hidle : Stage.idle.held = 0 := rfl
  simp only [State.release, State.setSet, Sync.Semaphore.taken_release, EgressSet.held, EgressSet.handling,
    EgressSet.queued, hheld, hidle] at hle ⊢
  omega

/-- The `send` goes on and keeps its datagram. -/
private theorem setMoves_keep {set' : EgressSet} (hset : s.sets[a]? = some set) (hheld : set'.held = set.held)
    (hroutes : ∀ t w, set'.routes.lookup t = some w → set.routes.lookup t = some w)
    (hsize : set'.routes.size ≤ set.routes.size) (hspawn : set'.sending = .spawn target payload)
    (hpending : set.sending.pending = some (target, payload)) :
    SetMoves s (s.setSet a set') a .sendStep set set' := by
  refine ⟨hset, rfl, rfl, rfl, fun _ => ?_, hroutes, hsize, ?_, .inr ?_⟩
  · rw [hheld]
    rfl
  · intro t p w he
    rw [hspawn] at he
    nomatch he
  · rw [hpending, hspawn]
    rfl

private theorem enqueues_of_trySend {set' : EgressSet} {i : Nat} {w' : Worker} (hset : s.sets[a]? = some set)
    (h : s.trySend i payload = .sent w') (hbytes : set'.held + payload.size = set.held)
    (hidle : set'.sending = .idle)
    (hroute : set.sending = .route target payload ∧ set.routes.lookup target = some i ∧ set'.routes = set.routes ∨
      set.sending = .enqueue target payload i ∧ set'.routes = set.routes.insert target i) :
    Kind s ((s.setSet a set').setWorker i w') (.association a .sendStep) := by
  obtain ⟨w, hw, rfl⟩ := trySend_sent h
  exact .enqueue ⟨hset, hw, rfl, rfl, rfl, rfl, hbytes, hidle, hroute⟩

/-- A `send` that returns holds nothing any more. -/
private theorem held_idle {routes : Finmap fun _ : SocketAddrOrName => Nat}
    (hheld : set.sending.held = payload.size) :
    ({ set with routes, sending := .idle } : EgressSet).held + payload.size = set.held := by
  have hidle : Stage.idle.held = 0 := rfl
  simp only [EgressSet.held, EgressSet.handling, EgressSet.queued, hheld, hidle]
  omega

private theorem sendStep_kind (hset : s.sets[a]? = some set) (h : sendStep s a set = some s') :
    Kind s s' (.association a .sendStep) := by
  unfold sendStep at h
  split at h
  · nomatch h
  · rename_i target payload hstage
    have hzero : set.sending.held = 0 := by rw [hstage]; rfl
    split at h
    · cases h
      refine .set ⟨hset, rfl, rfl, rfl, fun _ => ?_, fun _ _ h => h, Nat.le_refl _, fun _ _ _ h => (nomatch h),
        .inl rfl⟩
      have hidle : Stage.idle.held = 0 := rfl
      simp only [State.setSet, EgressSet.held, EgressSet.handling, EgressSet.queued, hzero, hidle]
    · rename_i queueBytes hbudget
      cases h
      refine .set ⟨hset, rfl, rfl, rfl, fun _ => ?_, fun _ _ h => h, Nat.le_refl _, fun _ _ _ h => (nomatch h),
        .inr (by rw [hstage]; rfl)⟩
      have htaken := Sync.Semaphore.taken_of_tryAcquire hbudget
      have hroute : (Stage.route target payload).held = payload.size := rfl
      simp only [EgressSet.held, EgressSet.handling, EgressSet.queued, hzero, hroute, htaken]
      omega
  · rename_i target payload hstage
    have hheld : set.sending.held = payload.size := by rw [hstage]; rfl
    have hpending : set.sending.pending = some (target, payload) := by rw [hstage]; rfl
    split at h
    · cases h
      refine .set (setMoves_keep hset ?_ (fun _ _ h => h) (Nat.le_refl _) rfl hpending)
      simp only [EgressSet.held, EgressSet.handling, EgressSet.queued, hheld]
      rfl
    · rename_i worker hlookup
      split at h
      · rename_i w hsent
        cases h
        exact enqueues_of_trySend hset hsent (held_idle hheld) rfl (.inl ⟨hstage, hlookup, rfl⟩)
      · cases h
        exact .set (setMoves_drop hset hheld)
      · cases h
        refine .set (setMoves_keep hset ?_ (fun _ _ => Finmap.lookup_of_erase)
          (Finmap.size_erase_le _ _) rfl hpending)
        simp only [EgressSet.held, EgressSet.handling, EgressSet.queued, hheld]
        rfl
  · rename_i target payload hstage
    have hheld : set.sending.held = payload.size := by rw [hstage]; rfl
    split at h
    · cases h
      exact .set (setMoves_drop hset hheld)
    · rename_i hsize
      split at h
      · cases h
        exact .set (setMoves_drop hset hheld)
      · rename_i workerPermits hpermit
        cases h
        exact .spawn ⟨hset, hstage, Nat.lt_of_not_le hsize, rfl, rfl, Sync.Semaphore.taken_of_tryAcquire hpermit, rfl⟩
  · rename_i target payload worker hstage
    have hheld : set.sending.held = payload.size := by rw [hstage]; rfl
    split at h
    · rename_i w hsent
      cases h
      exact enqueues_of_trySend hset hsent (held_idle hheld) rfl (.inr ⟨hstage, rfl⟩)
    · cases h
      exact .set (setMoves_drop hset hheld)

end Send

section Steps

variable {s s' : State} {a i : Nat} {set : EgressSet} {w : Worker}

private theorem EgressSet.ready_iff : set.ready = true ↔ set.sending = .idle ∧ set.dropped = false := by
  unfold EgressSet.ready
  split
  · rename_i hidle
    simp [hidle]
  · rename_i hbusy
    exact ⟨fun h => (nomatch h), fun h => (hbusy h.1).elim⟩

private theorem lookup_prune {target : SocketAddrOrName} {worker : Nat}
    (h : (s.prune set).routes.lookup target = some worker) : set.routes.lookup target = some worker := by
  unfold State.prune at h
  rw [Finmap.lookup_retain, Option.filter_eq_some_iff] at h
  exact h.1

private theorem setStep_kind {st : SetStep} (hset : s.sets[a]? = some set) (h : setStep s a set st = some s') :
    Kind s s' (.association a st) := by
  cases st with
  | send target payload =>
    unfold setStep at h
    dsimp only at h
    split at h
    · rename_i hready
      have hidle := (EgressSet.ready_iff.1 hready).1
      cases h
      refine .set ⟨hset, rfl, rfl, rfl, fun _ => ?_, fun _ _ => lookup_prune, Finmap.size_retain_le _ _,
        fun _ _ _ h => (nomatch h), ⟨by rw [hidle]; rfl, rfl⟩⟩
      simp only [EgressSet.held, EgressSet.handling, EgressSet.queued, State.prune, State.setSet, hidle]
      rfl
    · nomatch h
  | sendStep => exact sendStep_kind hset h
  | prune =>
    unfold setStep at h
    dsimp only at h
    split at h
    · cases h
      exact .set ⟨hset, rfl, rfl, rfl, fun _ => rfl, fun _ _ => lookup_prune, Finmap.size_retain_le _ _,
        fun _ _ _ h => h, .inr rfl⟩
    · nomatch h
  | recv =>
    unfold setStep at h
    dsimp only at h
    split at h
    · rename_i payload replies hreplies
      split at h
      · cases h
        refine .set ⟨hset, rfl, rfl, rfl, fun _ => ?_, fun _ _ h => h, Nat.le_refl _, fun _ _ _ h => h, .inr rfl⟩
        simp only [EgressSet.held, EgressSet.handling, EgressSet.queued, State.setSet, hreplies, List.map_cons,
          List.sum_cons, Machine.sum_map_concat]
        omega
      · nomatch h
    · nomatch h
  | relayed =>
    unfold setStep at h
    dsimp only at h
    split at h
    · rename_i payload inHand hhand
      cases h
      refine .set ⟨hset, rfl, rfl, rfl, ?_, fun _ _ h => h, Nat.le_refl _, fun _ _ _ h => h, .inr rfl⟩
      intro hle
      simp only [State.release, State.setSet, Sync.Semaphore.taken_release, EgressSet.held, EgressSet.handling,
        EgressSet.queued, hhand, List.map_cons, List.sum_cons] at hle ⊢
      omega
    · nomatch h
  | drop =>
    unfold setStep at h
    dsimp only at h
    split at h
    · rename_i hready
      have hidle := (EgressSet.ready_iff.1 hready).1
      cases h
      refine .set ⟨hset, rfl, rfl, rfl, ?_, fun _ _ h => ?_, Nat.zero_le _, fun _ _ _ h => h, .inr rfl⟩
      · intro hle
        have hzero : Stage.idle.held = 0 := rfl
        simp only [State.release, State.setSet, Sync.Semaphore.taken_release, EgressSet.held, EgressSet.handling,
          EgressSet.queued, hidle, hzero, List.map_nil, List.sum_nil] at hle ⊢
        omega
      · rw [Finmap.lookup_empty] at h
        nomatch h
    · nomatch h

/-- A worker that stays in its queue and goes from one phase to another. -/
private theorem workerMoves_phase {phase : Phase} {s' : State} (hw : s.workers[i]? = some w)
    (hworkers : s'.workers = s.workers.set i { w with phase }) (hsets : s'.sets = s.sets)
    (hpermits : s'.workerPermits = s.workerPermits) (halive : ({ w with phase } : Worker).alive = w.alive)
    (hbytes : w.phase.held ≤ s.queueBytes.taken → s'.queueBytes.taken + w.phase.held = s.queueBytes.taken +
      phase.held) :
    WorkerMoves s s' i w { w with phase } := by
  refine ⟨hw, hworkers, hsets, fun _ => ?_, fun hle => ?_, rfl, rfl, List.Sublist.refl _⟩
  · rw [hpermits, halive]
  · simp only [Worker.held] at hle ⊢
    have := hbytes (by omega)
    omega

private theorem Worker.alive_of_not_closed (h : w.closed ≠ true) : w.alive = 1 := by
  unfold Worker.closed at h
  unfold Worker.alive
  split
  · rename_i hgone
    simp [hgone] at h
  · rfl

private theorem workerStep_kind {st : WorkerStep} (hw : s.workers[i]? = some w) (h : workerStep s i w st = some s') :
    Kind s s' (.worker i st) := by
  cases st with
  | established =>
    unfold workerStep at h
    dsimp only at h
    split at h
    · rename_i hphase
      cases h
      refine .worker (workerMoves_phase hw rfl rfl rfl ?_ ?_)
      · simp only [Worker.alive, hphase]
      · rw [hphase]
        exact fun _ => rfl
    · nomatch h
  | take =>
    unfold workerStep at h
    dsimp only at h
    split at h
    · rename_i payload queue hphase hqueue
      cases h
      refine .worker ⟨hw, rfl, rfl, fun _ => ?_, fun _ => ?_, rfl, rfl, ?_⟩
      · simp only [Worker.alive, hphase, State.setWorker]
      · simp only [Worker.held, hphase, hqueue, State.setWorker, Phase.held, List.map_cons, List.sum_cons]
        omega
      · rw [hqueue, List.append_assoc]
        exact List.Sublist.refl _
    · nomatch h
  | sent =>
    unfold workerStep at h
    dsimp only at h
    split at h
    · rename_i payload hphase
      cases h
      refine .worker (workerMoves_phase hw rfl rfl rfl ?_ ?_)
      · simp only [Worker.alive, hphase]
      · rw [hphase]
        simp only [State.release, State.setWorker, Sync.Semaphore.taken_release, Phase.held]
        omega
    · nomatch h
  | received payload =>
    unfold workerStep at h
    dsimp only at h
    split at h
    · rename_i hphase
      split at h
      · -- no budget for the reply: it is dropped
        cases h
        exact .worker ⟨hw, (Machine.set_self hw).symm, rfl, fun _ => rfl, fun _ => rfl, rfl, rfl, List.Sublist.refl _⟩
      · rename_i queueBytes hbudget
        cases h
        refine .worker (workerMoves_phase hw rfl rfl rfl ?_ ?_)
        · simp only [Worker.alive, hphase]
        · have htaken := Sync.Semaphore.taken_of_tryAcquire hbudget
          simp only [hphase, Phase.held, htaken]
          omega
    · nomatch h
  | replied =>
    unfold workerStep at h
    dsimp only at h
    split at h
    · rename_i payload set hphase hset
      split at h
      · cases h
        exact .answer ⟨hw, hset, hphase, rfl, rfl, rfl, rfl⟩
      · nomatch h
    · nomatch h
  | exit =>
    unfold workerStep at h
    dsimp only at h
    split at h
    · nomatch h
    · rename_i hopen
      cases h
      refine .worker ⟨hw, rfl, rfl, fun _ => ?_, ?_, rfl, rfl, ?_⟩
      · rw [Worker.alive_of_not_closed hopen]
        rfl
      · simp only [State.release, State.setWorker, Sync.Semaphore.taken_release, Worker.held, Phase.held,
          List.map_nil, List.sum_nil]
        omega
      · rw [List.append_nil]
        exact List.sublist_append_left _ _
  | finish =>
    unfold workerStep at h
    dsimp only at h
    split at h
    · rename_i hphase
      cases h
      refine .worker ⟨hw, rfl, rfl, ?_, fun _ => ?_, rfl, rfl, List.Sublist.refl _⟩
      · simp only [Worker.alive, hphase, Sync.Semaphore.taken_release]
        omega
      · simp only [Worker.held, hphase, State.setWorker, Phase.held]
    · nomatch h

theorem step_kind {e : Event} (h : step s e = some s') : Kind s s' e := by
  cases e with
  | newAssociation =>
    cases h
    exact .create rfl
  | association a st =>
    obtain ⟨set, hset, hst⟩ := Option.bind_eq_some_iff.1 h
    exact setStep_kind hset hst
  | worker i st =>
    obtain ⟨w, hw, hst⟩ := Option.bind_eq_some_iff.1 h
    exact workerStep_kind hw hst

end Steps

end WarpSocks.Socks5.Egress
