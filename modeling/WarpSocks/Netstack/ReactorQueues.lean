import WarpSocks.Netstack.Reactor

/-!
# The packet queues of the reactor

Whatever the device answers and the IP stack does, the queues stay bounded, the device is given what was accepted
in order and once, the IP stack is given what has arrived in order and at most once, and every transmit token
consumed is accepted or counted as dropped (`Queues`).  The counter of drops cannot saturate: it is reset after
every `Interface::poll`, and in one of them a drop takes a packet from the receive queue, which was bounded
before.
-/

namespace WarpSocks.Netstack.Reactor

def Call.started : Call → Option Packet
  | .startSend packet => some packet
  | _ => none

def Call.arrived : Call → Option Packet
  | .pollNext (.ready (some (.ok packet))) => some packet
  | _ => none

/-- The packets passed to `start_send`. -/
def startedOf (calls : List Call) : List Packet := calls.filterMap Call.started

/-- The packets `poll_next` has returned. -/
def arrivedOf (calls : List Call) : List Packet := calls.filterMap Call.arrived

@[simp]
theorem startedOf_append (xs ys : List Call) : startedOf (xs ++ ys) = startedOf xs ++ startedOf ys :=
  List.filterMap_append

@[simp]
theorem arrivedOf_append (xs ys : List Call) : arrivedOf (xs ++ ys) = arrivedOf xs ++ arrivedOf ys :=
  List.filterMap_append

/-! ### Polls of the device -/

section Device

variable {D : Type} (dev : AsyncDevice D)

/-- A send poll takes the packets it passes to the device from the front of the queue, and receives nothing. -/
theorem pollSendPackets_calls (d : D) (packets : List Packet) :
    startedOf (pollSendPackets dev d packets).calls ++ (pollSendPackets dev d packets).packets = packets ∧
      arrivedOf (pollSendPackets dev d packets).calls = [] := by
  induction packets generalizing d with
  | nil => exact ⟨rfl, rfl⟩
  | cons packet packets ih =>
    unfold pollSendPackets
    split
    · exact ⟨rfl, rfl⟩
    · exact ⟨rfl, rfl⟩
    · split
      · exact ⟨rfl, rfl⟩
      · rename_i d _
        obtain ⟨hstarted, harrived⟩ := ih d
        constructor
        · exact congrArg (packet :: ·) hstarted
        · exact harrived

/-- A receive poll appends what has arrived, as far as there is room, and passes nothing to the device. -/
theorem pollReceive_calls (room : Nat) (d : D) (queue : List Packet) :
    (pollReceive dev room d queue).recvQueue = queue ++ arrivedOf (pollReceive dev room d queue).calls ∧
      (arrivedOf (pollReceive dev room d queue).calls).length ≤ room ∧
      startedOf (pollReceive dev room d queue).calls = [] := by
  induction room generalizing d queue with
  | zero => exact ⟨(List.append_nil queue).symm, Nat.le_refl 0, rfl⟩
  | succ room ih =>
    unfold pollReceive
    split
    · rename_i d packet _
      obtain ⟨hqueue, hroom, hstarted⟩ := ih d (queue ++ [packet])
      refine ⟨?_, Nat.succ_le_succ hroom, hstarted⟩
      rw [List.append_assoc] at hqueue
      exact hqueue
    · exact ⟨(List.append_nil queue).symm, Nat.zero_le _, rfl⟩
    · exact ⟨(List.append_nil queue).symm, Nat.zero_le _, rfl⟩
    · exact ⟨(List.append_nil queue).symm, Nat.zero_le _, rfl⟩

/-- With room in the queue the device is asked for a packet. -/
private theorem pollReceive_asks {room : Nat} (hroom : 0 < room) (d : D) (queue : List Packet) :
    ∃ result, .pollNext result ∈ (pollReceive dev room d queue).calls := by
  cases room with
  | zero => exact absurd hroom (Nat.lt_irrefl 0)
  | succ room =>
    unfold pollReceive
    split
    · exact ⟨_, List.mem_cons_self⟩
    · exact ⟨_, List.mem_cons_self⟩
    · exact ⟨_, List.mem_cons_self⟩
    · exact ⟨_, List.mem_cons_self⟩

/-- What a poll of the device does to the queues. -/
structure Polled (b b' : BufferDevice) (calls : List Call) : Prop where
  maxBurstSize : b'.maxBurstSize = b.maxBurstSize
  droppedTx : b'.droppedTx = b.droppedTx
  send : startedOf calls ++ b'.sendQueue = b.sendQueue
  recv : b'.recvQueue = b.recvQueue ++ arrivedOf calls
  room : (arrivedOf calls).length ≤ b.maxBurstSize.toNat - b.recvQueue.length

private theorem pollDevice_polled (d : D) (b : BufferDevice) :
    Polled b (pollDevice dev d b).buffered (pollDevice dev d b).calls := by
  obtain ⟨hsend, hnone⟩ := pollSendPackets_calls dev d b.sendQueue
  unfold pollDevice
  dsimp only
  split
  · refine ⟨rfl, rfl, hsend, ?_, ?_⟩
    · rw [hnone, List.append_nil]
    · rw [hnone]
      exact Nat.zero_le _
  · obtain ⟨hrecv, hroom, hstarted⟩ := pollReceive_calls dev (b.maxBurstSize.toNat - b.recvQueue.length)
      (pollSendPackets dev d b.sendQueue).device b.recvQueue
    refine ⟨rfl, rfl, ?_, ?_, ?_⟩
    · rw [startedOf_append, hstarted, List.append_nil]
      exact hsend
    · rw [arrivedOf_append, hnone, List.nil_append]
      exact hrecv
    · rw [arrivedOf_append, hnone, List.nil_append]
      exact hroom

/-- A pending send does not keep the reactor from asking for packets. -/
private theorem pollDevice_asks {d : D} {b : BufferDevice}
    (hpending : (pollSendPackets dev d b.sendQueue).result = .pending)
    (hroom : b.recvQueue.length < b.maxBurstSize.toNat) :
    ∃ result, .pollNext result ∈ (pollDevice dev d b).calls := by
  unfold pollDevice
  dsimp only
  rw [hpending]
  obtain ⟨result, hmem⟩ := pollReceive_asks dev (Nat.sub_pos_of_lt hroom) (pollSendPackets dev d b.sendQueue).device
    b.recvQueue
  exact ⟨result, List.mem_append_right _ hmem⟩

end Device

/-! ### The IP stack -/

/-- The queues after the calls of the device and the traffic of the IP stack. -/
structure Queues (b : BufferDevice) (t : Traffic) (calls : List Call) : Prop where
  send : b.sendQueue.length ≤ b.maxBurstSize.toNat
  recv : b.recvQueue.length + b.droppedTx.toNat ≤ b.maxBurstSize.toNat
  started : startedOf calls ++ b.sendQueue = t.accepted
  delivered : (t.delivered ++ b.recvQueue).Sublist (arrivedOf calls)
  consumed : t.consumed = t.accepted.length + t.recorded + b.droppedTx.toNat

private theorem toNat_saturatingSucc {n m : UInt64} (h : n.toNat < m.toNat) :
    (saturatingSucc n).toNat = n.toNat + 1 := by
  have hm : m.toNat < UInt64.size := m.toNat_lt
  have hlt : n.toNat + 1 < UInt64.size := by omega
  rw [saturatingSucc, if_pos hlt, UInt64.toNat_add, UInt64.toNat_one]
  exact Nat.mod_eq_of_lt hlt

/-- A transmit token is accepted if there is room.  Otherwise it is counted, which needs room in the counter. -/
private theorem Queues.transmit {b : BufferDevice} {t : Traffic} {calls : List Call} (h : Queues b t calls)
    (hroom : b.canSend = true ∨ b.recvQueue.length + b.droppedTx.toNat < b.maxBurstSize.toNat)
    (packet : Option Packet) :
    Queues (transmit b t packet).1 (transmit b t packet).2 calls := by
  cases packet with
  | none => exact h
  | some packet =>
    unfold Reactor.transmit BufferDevice.consume
    dsimp only
    by_cases hsend : b.canSend = true
    · rw [if_pos hsend, if_pos hsend]
      refine ⟨?_, h.recv, ?_, h.delivered, ?_⟩
      · have hlt : b.sendQueue.length < b.maxBurstSize.toNat := of_decide_eq_true hsend
        simp only [List.length_append, List.length_singleton]
        omega
      · rw [← h.started, List.append_assoc]
      · have := h.consumed
        simp only [List.length_append, List.length_singleton]
        omega
    · rw [if_neg hsend, if_neg hsend]
      have hlt := hroom.resolve_left hsend
      have hsucc : (saturatingSucc b.droppedTx).toNat = b.droppedTx.toNat + 1 :=
        toNat_saturatingSucc (m := b.maxBurstSize) (by omega)
      refine ⟨h.send, ?_, h.started, h.delivered, ?_⟩
      · simp only [hsucc]
        omega
      · have := h.consumed
        simp only [hsucc]
        omega

private theorem Queues.ipAct {x : BufferDevice × Traffic} {calls : List Call} (h : Queues x.1 x.2 calls)
    (action : IpAction) :
    Queues (ipAct x action).1 (ipAct x action).2 calls := by
  obtain ⟨b, t⟩ := x
  cases action with
  | receive read response =>
    unfold Reactor.ipAct
    dsimp only at h ⊢
    split
    · exact h
    · rename_i packet recvQueue hqueue
      have hlen := h.recv
      have hsub := h.delivered
      rw [hqueue] at hlen hsub
      simp only [List.length_cons] at hlen
      apply Queues.transmit
      · refine ⟨h.send, ?_, h.started, ?_, h.consumed⟩
        · simp only
          omega
        · simp only
          split
          · rw [List.append_assoc]
            exact hsub
          · exact ((List.sublist_cons_self packet recvQueue).append_left t.delivered).trans hsub
      · right
        simp only
        omega
  | transmit packet =>
    unfold Reactor.ipAct
    dsimp only at h ⊢
    split
    · rename_i hsend
      exact h.transmit (.inl hsend) packet
    · exact h

private theorem Queues.interfacePoll {b : BufferDevice} {t : Traffic} {calls : List Call} (h : Queues b t calls)
    (actions : List IpAction) :
    Queues (interfacePoll b t actions).1 (interfacePoll b t actions).2 calls := by
  suffices hfold : ∀ x : BufferDevice × Traffic, Queues x.1 x.2 calls →
      Queues (actions.foldl Reactor.ipAct x).1 (actions.foldl Reactor.ipAct x).2 calls from hfold (b, t) h
  induction actions with
  | nil => exact fun _ hx => hx
  | cons action actions ih => exact fun x hx => ih _ (hx.ipAct action)

private theorem maxBurstSize_interfacePoll (b : BufferDevice) (t : Traffic) (actions : List IpAction) :
    (interfacePoll b t actions).1.maxBurstSize = b.maxBurstSize := by
  have htransmit : ∀ (b : BufferDevice) (t : Traffic) (packet : Option Packet),
      (transmit b t packet).1.maxBurstSize = b.maxBurstSize := by
    intro b t packet
    cases packet with
    | none => rfl
    | some packet =>
      show (b.consume packet).maxBurstSize = b.maxBurstSize
      unfold BufferDevice.consume
      split <;> rfl
  have hact : ∀ (x : BufferDevice × Traffic) (action : IpAction), (ipAct x action).1.maxBurstSize =
      x.1.maxBurstSize := by
    rintro ⟨b, t⟩ action
    cases action with
    | receive read response =>
      unfold ipAct
      dsimp only
      split
      · rfl
      · exact htransmit _ _ _
    | transmit packet =>
      unfold ipAct
      dsimp only
      split
      · exact htransmit _ _ _
      · rfl
  suffices hfold : ∀ x : BufferDevice × Traffic, (actions.foldl ipAct x).1.maxBurstSize =
      x.1.maxBurstSize from hfold (b, t)
  induction actions with
  | nil => exact fun _ => rfl
  | cons action actions ih => exact fun x => (ih _).trans (hact x action)

/-! ### Runs -/

section Run

variable {D : Type} {dev : AsyncDevice D} {s s' : State D} {e : Event D}

/-- The queues between two steps, when the drops of the last `Interface::poll` are recorded. -/
structure Sound (maxBurstSize : UInt64) (s : State D) : Prop where
  maxBurstSize : s.buffered.maxBurstSize = maxBurstSize
  queues : Queues s.buffered s.traffic s.calls
  droppedTx : s.buffered.droppedTx = 0

private theorem Polled.queues {b b' : BufferDevice} {t : Traffic} {calls new : List Call} (hb : b.droppedTx = 0)
    (h : Queues b t calls) (hp : Polled b b' new) : Queues b' t (calls ++ new) := by
  have hzero : b.droppedTx.toNat = 0 := by rw [hb]; rfl
  have hroom := hp.room
  have hrecv := h.recv
  have hsend := h.send
  refine ⟨?_, ?_, ?_, ?_, ?_⟩
  · have hlen := congrArg List.length hp.send
    rw [List.length_append] at hlen
    rw [hp.maxBurstSize]
    omega
  · rw [hp.recv, hp.droppedTx, hp.maxBurstSize, List.length_append]
    omega
  · rw [startedOf_append, List.append_assoc, hp.send, h.started]
  · rw [arrivedOf_append, hp.recv, ← List.append_assoc]
    exact h.delivered.append_right _
  · rw [hp.droppedTx]
    exact h.consumed

private theorem Sound.devicePolled {maxBurstSize : UInt64} (hs : Sound maxBurstSize s) (phase : Phase) :
    Sound maxBurstSize { s.devicePolled dev with phase } := by
  have hp := pollDevice_polled dev s.device s.buffered
  refine ⟨?_, hp.queues hs.droppedTx hs.queues, ?_⟩
  · exact hp.maxBurstSize.trans hs.maxBurstSize
  · exact hp.droppedTx.trans hs.droppedTx

private theorem Sound.interfacePolled {maxBurstSize : UInt64} (hs : Sound maxBurstSize s) (actions : List IpAction)
    (scheduled : Bool) (phase : Phase) :
    Sound maxBurstSize { s.interfacePolled actions with scheduled, phase } := by
  have hq := hs.queues.interfacePoll actions
  have hrecv := hq.recv
  have hconsumed := hq.consumed
  refine ⟨?_, ⟨hq.send, ?_, hq.started, hq.delivered, ?_⟩, rfl⟩
  · exact (maxBurstSize_interfacePoll s.buffered s.traffic actions).trans hs.maxBurstSize
  · simp only [State.interfacePolled, UInt64.toNat_zero]
    omega
  · simp only [State.interfacePolled, UInt64.toNat_zero]
    omega

theorem Sound.step {maxBurstSize : UInt64} (hs : Sound maxBurstSize s) (h : step dev s e = some s') :
    Sound maxBurstSize s' := by
  cases steps_of_step h with
  | fail hphase | progress hphase | quiet hphase => exact hs.devicePolled _
  | finish hphase => exact hs.interfacePolled _ _ _
  | interface hphase => exact hs.interfacePolled _ _ _
  | _ => exact ⟨hs.maxBurstSize, hs.queues, hs.droppedTx⟩

private theorem sound_exec {d : D} {maxBurstSize : Option UInt64} {es : List (Event D)}
    (h : Machine.exec (step dev) (.initial d maxBurstSize) es = some s) :
    Sound (BufferDevice.new maxBurstSize).maxBurstSize s := by
  refine Machine.exec_induction (P := Sound (BufferDevice.new maxBurstSize).maxBurstSize)
    (fun _ _ _ hs h => hs.step h) ?_ h
  exact ⟨rfl, ⟨Nat.zero_le _, Nat.zero_le _, rfl, List.nil_sublist _, rfl⟩, rfl⟩

end Run

/-- In every state the reactor reaches, both queues are bounded, also while the IP stack has its tokens; what the
device was given is a prefix of what was accepted; the transmit tokens consumed were accepted or counted as
dropped; the IP stack has read what has arrived in order and at most once; and a poll in which the send is pending
asks the device for a packet while there is room for one. -/
theorem reactor_queues_exact {D : Type} (dev : AsyncDevice D) (d : D) (maxBurstSize : Option UInt64)
    (es : List (Event D)) (s : State D) (h : Machine.exec (step dev) (.initial d maxBurstSize) es = some s) :
    s.buffered.maxBurstSize = (BufferDevice.new maxBurstSize).maxBurstSize ∧
      (∀ actions : List IpAction,
        (interfacePoll s.buffered s.traffic actions).1.recvQueue.length ≤ s.buffered.maxBurstSize.toNat ∧
        (interfacePoll s.buffered s.traffic actions).1.sendQueue.length ≤ s.buffered.maxBurstSize.toNat ∧
        (interfacePoll s.buffered s.traffic actions).2.consumed =
          (interfacePoll s.buffered s.traffic actions).2.accepted.length +
            ((interfacePoll s.buffered s.traffic actions).2.recorded +
              (interfacePoll s.buffered s.traffic actions).1.droppedTx.toNat)) ∧
      startedOf s.calls ++ s.buffered.sendQueue = s.traffic.accepted ∧
      s.traffic.consumed = s.traffic.accepted.length + s.traffic.recorded ∧
      s.traffic.delivered.Sublist (arrivedOf s.calls) ∧
      ∀ s', step dev s .pollDevice = some s' →
        (pollSendPackets dev s.device s.buffered.sendQueue).result = .pending →
        s.buffered.recvQueue.length < s.buffered.maxBurstSize.toNat →
        ∃ calls result, s'.calls = s.calls ++ calls ∧ .pollNext result ∈ calls := by
  have hs := sound_exec h
  have hzero : s.buffered.droppedTx.toNat = 0 := by rw [hs.droppedTx]; rfl
  refine ⟨hs.maxBurstSize, fun actions => ?_, hs.queues.started, ?_, ?_, fun s' hstep hpending hroom => ?_⟩
  · have hq := hs.queues.interfacePoll actions
    have hmax := congrArg UInt64.toNat (maxBurstSize_interfacePoll s.buffered s.traffic actions)
    have hrecv := hq.recv
    have hsend := hq.send
    have hconsumed := hq.consumed
    refine ⟨?_, ?_, ?_⟩
    · omega
    · omega
    · omega
  · have hconsumed := hs.queues.consumed
    omega
  · exact (List.sublist_append_left _ _).trans hs.queues.delivered
  · obtain ⟨result, hmem⟩ := pollDevice_asks dev hpending hroom
    refine ⟨_, result, ?_, hmem⟩
    cases steps_of_step hstep with
    | fail hphase | progress hphase | quiet hphase => rfl

/-- A device that never sends and has the packets to receive. -/
def blockedDevice : AsyncDevice (List Packet) where
  pollReady d := (d, .pending)
  startSend d _ := (d, .ok ())
  pollFlush d := (d, .ready (.ok ()))
  pollNext
    | [] => ([], .pending)
    | packet :: d => (d, .ready (some (.ok packet)))

/-- Two packets arrive one by one, each is answered, and only the first answer finds room. -/
def answered : List (Event (List Packet)) :=
  [.enter, .pollDevice, .interfacePoll [.receive true (some [9]), .transmit (some [8])], .run, .enter, .pollDevice,
    .interfacePoll [.receive true (some [7])]]

theorem reactor_queues_exact_blocked : ∃ s,
    Machine.exec (step blockedDevice) (.initial [[1], [2]] (some 1)) answered = some s ∧
      s.traffic.consumed = s.traffic.accepted.length + s.traffic.recorded ∧
      s.traffic.delivered = [[1], [2]] ∧ s.traffic.accepted = [[9]] ∧ s.traffic.recorded = 1 :=
  ⟨_, rfl, (reactor_queues_exact blockedDevice [[1], [2]] (some 1) answered _ rfl).2.2.2.1, by decide, by decide,
    by decide⟩

end WarpSocks.Netstack.Reactor
