import WarpSocks.Socks5.EgressSteps

/-!
# Bounds and routing of the UDP egress

Over any interleaving of the associations and the workers: the permits taken are the bytes held and the workers
that exist (`Balanced`), the routes stay few (`Bounded`) and lead to workers of their target (`Routed`), and what
a worker has forwarded and has queued is, with what is being sent, a subsequence of what was passed to `send`
(`Ordered`).
-/

namespace WarpSocks.Socks5.Egress

/-- The bytes in the target queues and in the current operations of the workers. -/
def State.inWorkers (s : State) : Nat := (s.workers.map Worker.held).sum

/-- The bytes in the queues of the replies. -/
def State.inReplies (s : State) : Nat := (s.sets.map EgressSet.queued).sum

/-- The bytes in the hands of the associations. -/
def State.inHands (s : State) : Nat := (s.sets.map EgressSet.handling).sum

/-- The number of workers that exist. -/
def State.live (s : State) : Nat := (s.workers.map Worker.alive).sum

variable {s s' : State} {e : Event}

/-! ### Permits -/

/-- The permits taken are those of the bytes held and of the workers that exist. -/
structure Balanced (s : State) : Prop where
  bytes : s.queueBytes.taken = s.inWorkers + (s.sets.map EgressSet.held).sum
  workers : s.workerPermits.taken = s.live

private theorem Balanced.setMoves {a : Nat} {st : SetStep} {set set' : EgressSet} (hs : Balanced s)
    (hm : SetMoves s s' a st set set') : Balanced s' := by
  have hbytes := hs.bytes
  have hle := Machine.le_sum_map EgressSet.held hm.get
  have hsum := Machine.sum_map_set EgressSet.held hm.get set'
  have hmove := hm.bytes (by omega)
  constructor
  · rw [State.inWorkers, hm.workers, hm.sets, ← State.inWorkers]
    omega
  · rw [State.live, hm.permits, hm.workers]
    exact hs.workers

private theorem Balanced.workerMoves {i : Nat} {w w' : Worker} (hs : Balanced s) (hm : WorkerMoves s s' i w w') :
    Balanced s' := by
  obtain ⟨hbytes, hworkers⟩ := hs
  unfold State.inWorkers at hbytes
  unfold State.live at hworkers
  have hle := Machine.le_sum_map Worker.held hm.get
  have hsum := Machine.sum_map_set Worker.held hm.get w'
  have hmove := hm.bytes (by omega)
  have hle' := Machine.le_sum_map Worker.alive hm.get
  have hsum' := Machine.sum_map_set Worker.alive hm.get w'
  have hmove' := hm.permits (by omega)
  constructor
  · rw [State.inWorkers, hm.workers, hm.sets]
    omega
  · rw [State.live, hm.workers]
    omega

/-- What the `send` held is held by the worker. -/
private theorem Balanced.enqueues {a : Nat} {set set' : EgressSet} {i : Nat} {w : Worker} {target : SocketAddrOrName}
    {payload : Payload} (hs : Balanced s) (hm : Enqueues s s' a set set' i w target payload) : Balanced s' := by
  obtain ⟨hbytes, hworkers⟩ := hs
  unfold State.inWorkers at hbytes
  unfold State.live at hworkers
  have hsum := Machine.sum_map_set EgressSet.held hm.getSet set'
  have hsum' := Machine.sum_map_set Worker.held hm.getWorker { w with queue := w.queue ++ [payload] }
  have hlive := Machine.sum_map_set Worker.alive hm.getWorker { w with queue := w.queue ++ [payload] }
  have hheld : ({ w with queue := w.queue ++ [payload] } : Worker).held = w.held + payload.size := by
    simp only [Worker.held, Machine.sum_map_concat]
    omega
  have halive : ({ w with queue := w.queue ++ [payload] } : Worker).alive = w.alive := rfl
  have hmove := hm.bytes
  constructor
  · rw [State.inWorkers, hm.workers, hm.sets, hm.queueBytes]
    omega
  · rw [State.live, hm.workers, hm.permits]
    omega

private theorem Balanced.spawns {a : Nat} {set : EgressSet} {target : SocketAddrOrName} {payload : Payload}
    (hs : Balanced s) (hm : Spawns s s' a set target payload) : Balanced s' := by
  obtain ⟨hbytes, hworkers⟩ := hs
  unfold State.inWorkers at hbytes
  unfold State.live at hworkers
  have hsum := Machine.sum_map_set EgressSet.held hm.get
    { set with sending := .enqueue target payload s.workers.length }
  have hheld : ({ set with sending := .enqueue target payload s.workers.length } : EgressSet).held = set.held := by
    simp only [EgressSet.held, EgressSet.handling, EgressSet.queued, hm.sending]
    rfl
  constructor
  · rw [State.inWorkers, hm.workers, hm.sets, hm.queueBytes, Machine.sum_map_concat]
    simp only [Worker.held, Phase.held, List.map_nil, List.sum_nil]
    omega
  · rw [State.live, hm.workers, hm.permits, Machine.sum_map_concat]
    simp only [Worker.alive]
    omega

/-- What the worker held is held by the queue of the replies. -/
private theorem Balanced.answers {i : Nat} {w : Worker} {set : EgressSet} {payload : Payload} (hs : Balanced s)
    (hm : Answers s s' i w set payload) : Balanced s' := by
  obtain ⟨hbytes, hworkers⟩ := hs
  unfold State.inWorkers at hbytes
  unfold State.live at hworkers
  have hsum := Machine.sum_map_set EgressSet.held hm.getSet { set with replies := set.replies ++ [payload] }
  have hsum' := Machine.sum_map_set Worker.held hm.getWorker { w with phase := .waiting }
  have hlive := Machine.sum_map_set Worker.alive hm.getWorker { w with phase := .waiting }
  have hheld : ({ w with phase := .waiting } : Worker).held + payload.size = w.held := by
    simp only [Worker.held, hm.phase, Phase.held]
    omega
  have hreplies : ({ set with replies := set.replies ++ [payload] } : EgressSet).held = set.held + payload.size := by
    simp only [EgressSet.held, EgressSet.handling, EgressSet.queued, Machine.sum_map_concat]
    omega
  have halive : ({ w with phase := .waiting } : Worker).alive = w.alive := by
    simp only [Worker.alive, hm.phase]
  constructor
  · rw [State.inWorkers, hm.workers, hm.sets, hm.queueBytes]
    omega
  · rw [State.live, hm.workers, hm.permits]
    omega

private theorem Balanced.step (hs : Balanced s) (h : step s e = some s') : Balanced s' := by
  cases step_kind h with
  | create hs' =>
    subst hs'
    refine ⟨?_, hs.workers⟩
    rw [Machine.sum_map_concat]
    exact hs.bytes
  | set hm => exact hs.setMoves hm
  | worker hm => exact hs.workerMoves hm
  | enqueue hm => exact hs.enqueues hm
  | spawn hm => exact hs.spawns hm
  | answer hm => exact hs.answers hm

private theorem balanced_exec {es : List Event} (h : Machine.exec step .initial es = some s) : Balanced s :=
  Machine.exec_induction (P := Balanced) (fun _ _ _ hs h => hs.step h) ⟨rfl, rfl⟩ h

private theorem sum_held (s : State) : (s.sets.map EgressSet.held).sum = s.inReplies + s.inHands :=
  List.sum_map_add

/-! ### Routes -/

/-- An association never has more routes than allowed, and fewer while it makes a new one. -/
def Bounded (set : EgressSet) : Prop :=
  set.routes.size ≤ MAX_UDP_TARGETS_PER_ASSOCIATION ∧
    ∀ target payload worker, set.sending = .enqueue target payload worker →
      set.routes.size < MAX_UDP_TARGETS_PER_ASSOCIATION

private theorem bounded_step (hs : ∀ (a : Nat) (set : EgressSet), s.sets[a]? = some set → Bounded set)
    (h : step s e = some s') :
    ∀ (a : Nat) (set : EgressSet), s'.sets[a]? = some set → Bounded set := by
  intro b set₁ hget
  cases step_kind h with
  | create hs' =>
    subst hs'
    rcases Machine.getElem?_concat_cases hget with ⟨_, rfl⟩ | hget
    · exact ⟨Nat.zero_le _, fun _ _ _ h => nomatch h⟩
    · exact hs b _ hget
  | @set a st set set' hm =>
    rw [hm.sets] at hget
    rcases Machine.getElem?_set_cases hget with ⟨_, rfl⟩ | ⟨_, hget⟩
    · have hold := hs a set hm.get
      refine ⟨Nat.le_trans hm.size hold.1, fun target payload worker hq => ?_⟩
      exact Nat.lt_of_le_of_lt hm.size (hold.2 _ _ _ (hm.enqueue _ _ _ hq))
    · exact hs b _ hget
  | worker hm =>
    rw [hm.sets] at hget
    exact hs b _ hget
  | @enqueue a set set' i w target payload hm =>
    rw [hm.sets] at hget
    rcases Machine.getElem?_set_cases hget with ⟨_, rfl⟩ | ⟨_, hget⟩
    · have hold := hs a set hm.getSet
      refine ⟨?_, fun _ _ _ hq => ?_⟩
      · rcases hm.route with ⟨_, _, hr⟩ | ⟨hq, hr⟩
        · rw [hr]
          exact hold.1
        · rw [hr]
          exact Nat.le_trans (Finmap.size_insert_le _ _ _) (hold.2 _ _ _ hq)
      · rw [hm.idle] at hq
        nomatch hq
    · exact hs b _ hget
  | @spawn a set target payload hm =>
    rw [hm.sets] at hget
    rcases Machine.getElem?_set_cases hget with ⟨_, rfl⟩ | ⟨_, hget⟩
    · exact ⟨Nat.le_of_lt hm.size, fun _ _ _ _ => hm.size⟩
    · exact hs b _ hget
  | @answer i w set payload hm =>
    rw [hm.sets] at hget
    rcases Machine.getElem?_set_cases hget with ⟨_, rfl⟩ | ⟨_, hget⟩
    · exact hs _ set hm.getSet
    · exact hs b _ hget

private theorem bounded_exec {es : List Event} (h : Machine.exec step .initial es = some s) {a : Nat}
    {set : EgressSet} (hset : s.sets[a]? = some set) : Bounded set :=
  Machine.exec_induction (P := fun s => ∀ (a : Nat) (set : EgressSet), s.sets[a]? = some set → Bounded set)
    (fun _ _ _ hs h => bounded_step hs h) (fun a _ hget => nomatch List.getElem?_nil (i := a) ▸ hget) h a set hset

/-- The association has a route to the worker, or is about to make it. -/
def EgressSet.Leads (set : EgressSet) (target : SocketAddrOrName) (worker : Nat) : Prop :=
  set.routes.lookup target = some worker ∨ ∃ payload, set.sending = .enqueue target payload worker

/-- The worker was spawned by the association for the target. -/
def Serves (s : State) (worker a : Nat) (target : SocketAddrOrName) : Prop :=
  ∃ w, s.workers[worker]? = some w ∧ w.association = a ∧ w.target = target

/-- Every route leads to a worker that serves its target. -/
def Routed (s : State) : Prop :=
  ∀ a set target worker, s.sets[a]? = some set → set.Leads target worker → Serves s worker a target

/-- No step changes whom a worker serves. -/
private theorem Serves.step {i a : Nat} {target : SocketAddrOrName} (hi : Serves s i a target)
    (h : step s e = some s') :
    Serves s' i a target := by
  obtain ⟨w, hw, ha, ht⟩ := hi
  have hchange : ∀ {j : Nat} {w₀ w₁ : Worker}, s.workers[j]? = some w₀ → s'.workers = s.workers.set j w₁ →
      w₁.association = w₀.association → w₁.target = w₀.target → Serves s' i a target := by
    intro j w₀ w₁ hj hworkers hassoc htarget
    by_cases hij : j = i
    · subst hij
      have : w₀ = w := Option.some.inj (hj.symm.trans hw)
      subst this
      refine ⟨w₁, ?_, hassoc.trans ha, htarget.trans ht⟩
      rw [hworkers, List.getElem?_set_self (List.getElem?_eq_some_iff.1 hj).1]
    · refine ⟨w, ?_, ha, ht⟩
      rw [hworkers, List.getElem?_set_ne hij]
      exact hw
  cases step_kind h with
  | create hs =>
    subst hs
    exact ⟨w, hw, ha, ht⟩
  | set hm => exact ⟨w, hm.workers ▸ hw, ha, ht⟩
  | worker hm => exact hchange hm.get hm.workers hm.association hm.target
  | enqueue hm => exact hchange hm.getWorker hm.workers rfl rfl
  | spawn hm =>
    refine ⟨w, ?_, ha, ht⟩
    rw [hm.workers, List.getElem?_append_left (List.getElem?_eq_some_iff.1 hw).1]
    exact hw
  | answer hm => exact hchange hm.getWorker hm.workers rfl rfl

private theorem Routed.step (hs : Routed s) (h : step s e = some s') : Routed s' := by
  intro b set₁ target₁ worker hget hleads
  -- a route that was there before
  have hkeep : ∀ {set : EgressSet}, s.sets[b]? = some set → set.Leads target₁ worker → Serves s' worker b target₁ :=
    fun hset hl => (hs _ _ _ _ hset hl).step h
  cases step_kind h with
  | create hs' =>
    subst hs'
    rcases Machine.getElem?_concat_cases hget with ⟨_, rfl⟩ | hget
    · rcases hleads with hl | ⟨_, hq⟩
      · rw [EgressSet.new, Finmap.lookup_empty] at hl
        nomatch hl
      · nomatch hq
    · exact hkeep hget hleads
  | @set a st set set' hm =>
    rw [hm.sets] at hget
    rcases Machine.getElem?_set_cases hget with ⟨rfl, rfl⟩ | ⟨_, hget⟩
    · refine hkeep hm.get ?_
      rcases hleads with hl | ⟨payload, hq⟩
      · exact .inl (hm.routes _ _ hl)
      · exact .inr ⟨payload, hm.enqueue _ _ _ hq⟩
    · exact hkeep hget hleads
  | worker hm =>
    rw [hm.sets] at hget
    exact hkeep hget hleads
  | @enqueue a set set' i w target payload hm =>
    rw [hm.sets] at hget
    rcases Machine.getElem?_set_cases hget with ⟨rfl, rfl⟩ | ⟨_, hget⟩
    · refine hkeep hm.getSet ?_
      rcases hleads with hl | ⟨payload, hq⟩
      · rcases hm.route with ⟨_, _, hr⟩ | ⟨hq, hr⟩
        · exact .inl (hr ▸ hl)
        · rw [hr] at hl
          by_cases ht : target₁ = target
          · subst ht
            rw [Finmap.lookup_insert] at hl
            cases hl
            exact .inr ⟨payload, hq⟩
          · rw [Finmap.lookup_insert_of_ne _ ht] at hl
            exact .inl hl
      · rw [hm.idle] at hq
        nomatch hq
    · exact hkeep hget hleads
  | @spawn a set target payload hm =>
    rw [hm.sets] at hget
    rcases Machine.getElem?_set_cases hget with ⟨rfl, rfl⟩ | ⟨_, hget⟩
    · rcases hleads with hl | ⟨_, hq⟩
      · exact hkeep hm.get (.inl hl)
      · cases hq
        exact ⟨⟨b, target₁, [], .establishing, []⟩, by rw [hm.workers, List.getElem?_concat_length], rfl, rfl⟩
    · exact hkeep hget hleads
  | @answer i w set payload hm =>
    rw [hm.sets] at hget
    rcases Machine.getElem?_set_cases hget with ⟨rfl, rfl⟩ | ⟨_, hget⟩
    · exact hkeep hm.getSet hleads
    · exact hkeep hget hleads

private theorem initial_routed : Routed .initial := by
  intro a set target worker hset
  nomatch List.getElem?_nil (i := a) ▸ hset

private theorem routed_exec {es : List Event} (h : Machine.exec step .initial es = some s) : Routed s :=
  Machine.exec_induction (P := Routed) (fun _ _ _ hs h => hs.step h) initial_routed h

/-! ### Order -/

/-- What the event passes to `send` of the association for the target. -/
def Event.sendOf (a : Nat) (target : SocketAddrOrName) : Event → List Payload
  | .association b (.send t payload) => if b = a ∧ t = target then [payload] else []
  | _ => []

/-- What was passed to `send` of the association for the target. -/
def sendsOf (es : List Event) (a : Nat) (target : SocketAddrOrName) : List Payload :=
  es.flatMap (Event.sendOf a target)

/-- What a `send` of the association for the target has in its hands. -/
def Stage.pendingFor (stage : Stage) (target : SocketAddrOrName) : List Payload :=
  match stage.pending with
  | some (t, payload) => if t = target then [payload] else []
  | none => []

def State.pendingFor (s : State) (a : Nat) (target : SocketAddrOrName) : List Payload :=
  match s.sets[a]? with
  | some set => set.sending.pendingFor target
  | none => []

private theorem sendsOf_concat (es : List Event) (e : Event) (a : Nat) (target : SocketAddrOrName) :
    sendsOf (es ++ [e]) a target = sendsOf es a target ++ e.sendOf a target := by
  simp [sendsOf]

/-- Only the `send` of the association that goes on changes. -/
private theorem pendingFor_set {a : Nat} {set set' : EgressSet} (hget : s.sets[a]? = some set)
    (hsets : s'.sets = s.sets.set a set') (b : Nat) (target : SocketAddrOrName) :
    b = a ∧ s.pendingFor b target = set.sending.pendingFor target ∧
        s'.pendingFor b target = set'.sending.pendingFor target ∨
      b ≠ a ∧ s'.pendingFor b target = s.pendingFor b target := by
  unfold State.pendingFor
  rw [hsets]
  by_cases hb : b = a
  · subst hb
    rw [hget, List.getElem?_set_self (List.getElem?_eq_some_iff.1 hget).1]
    exact .inl ⟨rfl, rfl, rfl⟩
  · rw [List.getElem?_set_ne (Ne.symm hb)]
    exact .inr ⟨hb, rfl⟩

private theorem pendingFor_congr (hsets : s'.sets = s.sets) (a : Nat) (target : SocketAddrOrName) :
    s'.pendingFor a target = s.pendingFor a target := by
  unfold State.pendingFor
  rw [hsets]

private theorem SetStep.Pends.sublist {a : Nat} {st : SetStep} {old new : Stage} (h : st.Pends old new)
    (target : SocketAddrOrName) :
    (new.pendingFor target).Sublist (old.pendingFor target ++ Event.sendOf a target (.association a st)) := by
  have hstay : new.pending = none ∨ new.pending = old.pending →
      (new.pendingFor target).Sublist (old.pendingFor target) := by
    unfold Stage.pendingFor
    rintro (hn | hn)
    · rw [hn]
      exact List.nil_sublist _
    · rw [hn]
  cases st with
  | send t payload =>
    obtain ⟨hold, hnew⟩ := h
    simp only [Stage.pendingFor, hold, hnew, Event.sendOf, true_and, List.nil_append]
    exact List.Sublist.refl _
  | _ => exact (hstay h).trans (List.sublist_append_left _ _)

/-- What is being sent was being sent before, or comes with the event. -/
private theorem pendingFor_step (h : step s e = some s') (b : Nat) (target : SocketAddrOrName) :
    (s'.pendingFor b target).Sublist (s.pendingFor b target ++ e.sendOf b target) := by
  have hsame : s'.pendingFor b target = s.pendingFor b target →
      (s'.pendingFor b target).Sublist (s.pendingFor b target ++ e.sendOf b target) := by
    intro heq
    rw [heq]
    exact List.sublist_append_left _ _
  cases step_kind h with
  | create hs =>
    apply hsame
    subst hs
    unfold State.pendingFor
    cases hget : (s.sets ++ [EgressSet.new])[b]? with
    | none => rw [List.getElem?_eq_none (by simp at hget; omega)]
    | some set =>
      rcases Machine.getElem?_concat_cases hget with ⟨rfl, rfl⟩ | hget
      · rw [List.getElem?_eq_none (Nat.le_refl _)]
        rfl
      · rw [hget]
  | @set a st set set' hm =>
    rcases pendingFor_set hm.get hm.sets b target with ⟨rfl, hold, hnew⟩ | ⟨_, heq⟩
    · rw [hold, hnew]
      exact hm.pends.sublist target
    · exact hsame heq
  | worker hm => exact hsame (pendingFor_congr hm.sets b target)
  | @enqueue a set set' i w t payload hm =>
    rcases pendingFor_set hm.getSet hm.sets b target with ⟨rfl, _, hnew⟩ | ⟨_, heq⟩
    · rw [hnew, hm.idle]
      exact List.nil_sublist _
    · exact hsame heq
  | @spawn a set t payload hm =>
    apply hsame
    rcases pendingFor_set hm.get hm.sets b target with ⟨rfl, hold, hnew⟩ | ⟨_, heq⟩
    · rw [hold, hnew, hm.sending]
      rfl
    · exact heq
  | @answer i w set payload hm =>
    apply hsame
    rcases pendingFor_set hm.getSet hm.sets b target with ⟨rfl, hold, hnew⟩ | ⟨_, heq⟩
    · rw [hold, hnew]
    · exact heq

/-- What the worker has forwarded, has queued and is being sent for it. -/
def State.stream (s : State) (w : Worker) : List Payload :=
  w.forwarded ++ w.queue ++ s.pendingFor w.association w.target

/-- What is being sent and the streams of the workers are subsequences of what was passed to `send`. -/
structure Ordered (es : List Event) (s : State) : Prop where
  pending : ∀ a target, (s.pendingFor a target).Sublist (sendsOf es a target)
  stream : ∀ (i : Nat) (w : Worker), s.workers[i]? = some w → (s.stream w).Sublist (sendsOf es w.association w.target)

private theorem Ordered.step {es : List Event} (hr : Routed s) (hs : Ordered es s) (h : step s e = some s') :
    Ordered (es ++ [e]) s' := by
  have hpend : ∀ a target, (s'.pendingFor a target).Sublist (sendsOf (es ++ [e]) a target) := by
    intro a target
    rw [sendsOf_concat]
    exact (pendingFor_step h a target).trans ((hs.pending a target).append_right _)
  refine ⟨hpend, fun i w₁ hget => ?_⟩
  -- a worker that is as before, up to datagrams that have left its queue
  have hkeep : ∀ w, s.workers[i]? = some w → w₁.association = w.association → w₁.target = w.target →
      (w₁.forwarded ++ w₁.queue).Sublist (w.forwarded ++ w.queue) →
      (s'.stream w₁).Sublist (sendsOf (es ++ [e]) w₁.association w₁.target) := by
    intro w hw ha ht hsub
    rw [State.stream, ha, ht, sendsOf_concat]
    refine (hsub.append (pendingFor_step h _ _)).trans ?_
    rw [← List.append_assoc]
    exact (hs.stream i w hw).append_right _
  cases step_kind h with
  | create hs' =>
    subst hs'
    exact hkeep w₁ hget rfl rfl (List.Sublist.refl _)
  | set hm =>
    rw [hm.workers] at hget
    exact hkeep w₁ hget rfl rfl (List.Sublist.refl _)
  | @worker j st w w' hm =>
    rw [hm.workers] at hget
    rcases Machine.getElem?_set_cases hget with ⟨rfl, rfl⟩ | ⟨_, hget⟩
    · exact hkeep w hm.get hm.association hm.target hm.order
    · exact hkeep w₁ hget rfl rfl (List.Sublist.refl _)
  | @enqueue a set set' j w target payload hm =>
    rw [hm.workers] at hget
    rcases Machine.getElem?_set_cases hget with ⟨rfl, rfl⟩ | ⟨_, hget⟩
    · -- the datagram goes from the `send` to the end of the queue: the stream stays as it was
      have hleads : set.Leads target i ∧ set.sending.pendingFor target = [payload] := by
        rcases hm.route with ⟨hq, hl, _⟩ | ⟨hq, _⟩
        · exact ⟨.inl hl, by rw [hq]; exact if_pos rfl⟩
        · exact ⟨.inr ⟨payload, hq⟩, by rw [hq]; exact if_pos rfl⟩
      obtain ⟨w₀, hw₀, ha, ht⟩ := hr a set target i hm.getSet hleads.1
      have hw : w₀ = w := Option.some.inj (hw₀.symm.trans hm.getWorker)
      subst hw
      have hstream : s'.stream { w₀ with queue := w₀.queue ++ [payload] } = s.stream w₀ := by
        unfold State.stream
        rw [ha, ht]
        rcases pendingFor_set hm.getSet hm.sets a target with ⟨_, hold, hnew⟩ | ⟨hne, _⟩
        · rw [hold, hnew, hm.idle, hleads.2]
          simp [Stage.pendingFor, Stage.pending]
        · exact (hne rfl).elim
      rw [hstream, sendsOf_concat]
      exact (hs.stream i w₀ hw₀).trans (List.sublist_append_left _ _)
    · exact hkeep w₁ hget rfl rfl (List.Sublist.refl _)
  | @spawn a set target payload hm =>
    rw [hm.workers] at hget
    rcases Machine.getElem?_concat_cases hget with ⟨_, rfl⟩ | hget
    · exact hpend a target
    · exact hkeep w₁ hget rfl rfl (List.Sublist.refl _)
  | @answer j w set payload hm =>
    rw [hm.workers] at hget
    rcases Machine.getElem?_set_cases hget with ⟨rfl, rfl⟩ | ⟨_, hget⟩
    · exact hkeep w hm.getWorker rfl rfl (List.Sublist.refl _)
    · exact hkeep w₁ hget rfl rfl (List.Sublist.refl _)

private theorem ordered_exec {es : List Event} (h : Machine.exec step .initial es = some s) : Ordered es s := by
  have hboth : Routed s ∧ Ordered es s := by
    refine Machine.exec_induction_events (P := fun es s => Routed s ∧ Ordered es s) ?_ ?_ h
    · rintro es s e s' ⟨hr, ho⟩ hstep
      exact ⟨hr.step hstep, ho.step hr hstep⟩
    · exact ⟨initial_routed, fun _ _ => List.nil_sublist _, fun _ _ h => (nomatch h)⟩
  exact hboth.2

/-! ### The egress as a whole -/

/-- In every state the egress reaches, routes, workers and bytes keep their limits, the permits taken are the
bytes held, each route leads to the one worker of its target, and a worker forwards a subsequence of what was sent
to its target. -/
theorem udp_egress_bounded_and_routed (es : List Event) (s : State) (h : Machine.exec step .initial es = some s) :
    (∀ (a : Nat) (set : EgressSet), s.sets[a]? = some set → set.routes.size ≤ 64) ∧
      s.live ≤ 128 ∧
      s.inWorkers + s.inReplies + s.inHands ≤ 8 * 1024 * 1024 ∧
      s.queueBytes.taken = s.inWorkers + s.inReplies + s.inHands ∧
      ((∀ w ∈ s.workers, w.held = 0) → (∀ set ∈ s.sets, set.queued = 0 ∧ set.handling = 0) → s.queueBytes.taken = 0) ∧
      (∀ (a : Nat) (set : EgressSet) (target : SocketAddrOrName) (worker : Nat), s.sets[a]? = some set →
        set.routes.lookup target = some worker →
        Serves s worker a target ∧
          ∀ (a' : Nat) (set' : EgressSet) (target' : SocketAddrOrName), s.sets[a']? = some set' →
            set'.routes.lookup target' = some worker → a' = a ∧ target' = target) ∧
      ∀ (i : Nat) (w : Worker), s.workers[i]? = some w → w.forwarded.Sublist (sendsOf es w.association w.target) := by
  have hbalanced := balanced_exec h
  have hrouted := routed_exec h
  have htaken : s.queueBytes.taken = s.inWorkers + s.inReplies + s.inHands := by
    rw [hbalanced.bytes, sum_held, Nat.add_assoc]
  refine ⟨fun a set hset => (bounded_exec h hset).1, ?_, ?_, htaken, ?_, ?_, ?_⟩
  · rw [← hbalanced.workers]
    exact s.workerPermits.le
  · rw [← htaken]
    exact s.queueBytes.le
  · intro hworkers hsets
    rw [htaken, State.inWorkers, State.inReplies, State.inHands, Machine.sum_map_eq_zero hworkers,
      Machine.sum_map_eq_zero fun set hset => (hsets set hset).1,
      Machine.sum_map_eq_zero fun set hset => (hsets set hset).2]
  · intro a set target worker hset hl
    obtain ⟨w, hw, ha, ht⟩ := hrouted a set target worker hset (.inl hl)
    refine ⟨⟨w, hw, ha, ht⟩, fun a' set' target' hset' hl' => ?_⟩
    obtain ⟨w', hw', ha', ht'⟩ := hrouted a' set' target' worker hset' (.inl hl')
    have hsame : w' = w := Option.some.inj (hw'.symm.trans hw)
    subst hsame
    exact ⟨ha'.symm.trans ha, ht'.symm.trans ht⟩
  · intro i w hw
    refine List.Sublist.trans ?_ ((ordered_exec h).stream i w hw)
    rw [State.stream, List.append_assoc]
    exact List.sublist_append_left _ _

/-- A datagram is sent to a new target and forwarded, and a reply of one byte comes back and is taken by `recv`. -/
def roundTrip (target : SocketAddrOrName) (payload reply : Payload) : List Event :=
  [.newAssociation, .association 0 (.send target payload), .association 0 .sendStep, .association 0 .sendStep,
    .association 0 .sendStep, .association 0 .sendStep, .worker 0 .established, .worker 0 .take, .worker 0 .sent,
    .worker 0 (.received reply), .worker 0 .replied, .association 0 .recv]

/-- While the caller of `recv` relays the reply, its permits are still taken, and it is in no queue and in no
operation of a worker. -/
theorem reply_in_hand_keeps_permits : ∃ s, Machine.exec step .initial
    (roundTrip (.name "example.com" 53) ⟨[1], by decide⟩ ⟨[7], by decide⟩) = some s ∧
    s.inWorkers + s.inReplies = 0 ∧ s.queueBytes.taken = 1 :=
  ⟨_, rfl, by decide, by decide⟩

theorem udp_egress_bounded_and_routed_round_trip :
    (Machine.exec step .initial (roundTrip (.name "example.com" 53) ⟨[1], by decide⟩ ⟨[7], by decide⟩)).isSome ∧
      ∀ s, Machine.exec step .initial (roundTrip (.name "example.com" 53) ⟨[1], by decide⟩ ⟨[7], by decide⟩) =
        some s →
        s.live ≤ 128 :=
  ⟨by decide, fun s h => (udp_egress_bounded_and_routed _ s h).2.1⟩

end WarpSocks.Socks5.Egress
