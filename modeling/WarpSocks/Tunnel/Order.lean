import Mathlib.Logic.Relation
import WarpSocks.Tunnel.Outer

/-!
# The order of the outer datagrams

`send_or_queue_network` and `poll_network_flush` are the only functions that touch the queue, so a tunnel is
described by the interleavings of the two (`Reaches`), and everything its callers do is such an interleaving.  The
socket has taken the front of what was accepted and the queue holds the rest (`Sound`), whatever the socket
answers.
-/

namespace WarpSocks.Tunnel

open Netstack (Poll)

variable {σ : Type}

section Logs

variable (t : WgTunnel σ) (packet : Packet)

@[simp] theorem accepted_settle (fate : Fate) :
    (t.settle packet fate).log.accepted = t.log.accepted ++ if fate = .accepted then [packet] else [] := by
  by_cases h : fate = .accepted <;> simp [WgTunnel.settle, Log.accepted, h]

@[simp] theorem dropped_settle (fate : Fate) :
    (t.settle packet fate).log.dropped = t.log.dropped ++ if fate = .dropped then [packet] else [] := by
  by_cases h : fate = .dropped <;> simp [WgTunnel.settle, Log.dropped, h]

@[simp] theorem sent_tried_sent (outside : σ) (size : Nat) :
    (t.tried outside packet (.sent size)).log.sent = t.log.sent ++ [packet] := by
  simp [WgTunnel.tried, Log.sent]

@[simp] theorem sent_tried_wouldBlock (outside : σ) : (t.tried outside packet .wouldBlock).log.sent = t.log.sent := by
  simp [WgTunnel.tried, Log.sent]

@[simp] theorem sent_tried_failed (outside : σ) (e : IoError) :
    (t.tried outside packet (.failed e)).log.sent = t.log.sent := by
  simp [WgTunnel.tried, Log.sent]

end Logs

/-- The socket has taken the front of what was accepted, the queue holds the rest, and the counters agree. -/
structure Sound (t : WgTunnel σ) : Prop where
  bounded : t.pendingNetwork.length ≤ MAX_PENDING_NETWORK_PACKETS
  ordered : t.log.sent ++ t.pendingNetwork = t.log.accepted
  dropped : t.observer.outerTxDropped = UInt64.ofNat t.log.dropped.length
  sent : t.observer.outerTxPackets = UInt64.ofNat t.log.sent.length
  backlog : t.observer.outerBacklogCurrent = UInt64.ofNat t.pendingNetwork.length

private theorem ofNat_length_concat (packets : List Packet) (packet : Packet) :
    UInt64.ofNat (packets ++ [packet]).length = UInt64.ofNat packets.length + 1 := by
  rw [List.length_append, List.length_singleton, UInt64.ofNat_add]
  rfl

namespace Sound

variable {t : WgTunnel σ} {packet : Packet} {outside : σ}

/-- What is outside does not matter. -/
private theorem frame (h : Sound t) (outside : σ) : Sound { t with outside } :=
  ⟨h.bounded, h.ordered, h.dropped, h.sent, h.backlog⟩

private theorem wouldBlock (h : Sound t) : Sound (t.tried outside packet .wouldBlock) := by
  have hsent := sent_tried_wouldBlock t packet outside
  exact ⟨h.bounded, by rw [hsent]; exact h.ordered, h.dropped, by rw [hsent]; exact h.sent, h.backlog⟩

private theorem failed (h : Sound t) (e : IoError) : Sound (t.tried outside packet (.failed e)) := by
  have hsent := sent_tried_failed t packet outside e
  exact ⟨h.bounded, by rw [hsent]; exact h.ordered, h.dropped, by rw [hsent]; exact h.sent, h.backlog⟩

/-- An error that goes to the caller leaves the packet out. -/
private theorem settle_failed (h : Sound t) (e : IoError) : Sound (t.settle packet (.failed e)) := by
  refine ⟨h.bounded, ?_, ?_, h.sent, h.backlog⟩
  · rw [accepted_settle, if_neg (by simp), List.append_nil]
    exact h.ordered
  · rw [dropped_settle, if_neg (by simp), List.append_nil]
    exact h.dropped

private theorem queueNetwork (h : Sound t) (packet : Packet) : Sound (t.queueNetwork packet) := by
  unfold WgTunnel.queueNetwork
  by_cases hfull : t.pendingNetwork.length = MAX_PENDING_NETWORK_PACKETS
  · rw [if_pos hfull]
    refine ⟨h.bounded, ?_, ?_, h.sent, h.backlog⟩
    · rw [accepted_settle, if_neg (by simp), List.append_nil]
      exact h.ordered
    · rw [dropped_settle, if_pos rfl, ofNat_length_concat]
      exact congrArg (· + 1) h.dropped
  · rw [if_neg hfull]
    -- the test for equality is one for the bound, because the queue has never been longer
    have hroom : t.pendingNetwork.length < MAX_PENDING_NETWORK_PACKETS := Nat.lt_of_le_of_ne h.bounded hfull
    refine ⟨?_, ?_, ?_, h.sent, rfl⟩
    · show (t.pendingNetwork ++ [packet]).length ≤ _
      rw [List.length_append, List.length_singleton]
      exact hroom
    · rw [accepted_settle, if_pos rfl]
      show t.log.sent ++ (t.pendingNetwork ++ [packet]) = t.log.accepted ++ [packet]
      rw [← List.append_assoc, h.ordered]
    · rw [dropped_settle, if_neg (by simp), List.append_nil]
      exact h.dropped

/-- A datagram goes past an empty queue. -/
private theorem sent_directly (h : Sound t) (hempty : t.pendingNetwork = []) (size : Nat) :
    Sound ({ t.tried outside packet (.sent size) with observer := t.observer.recordOuterTx size }.settle packet
      .accepted) := by
  have hsent : ({ t.tried outside packet (.sent size) with observer := t.observer.recordOuterTx size }.settle packet
      .accepted).log.sent = t.log.sent ++ [packet] := sent_tried_sent t packet outside size
  have haccepted : t.log.sent = t.log.accepted := by simpa [hempty] using h.ordered
  refine ⟨h.bounded, ?_, ?_, ?_, h.backlog⟩
  · rw [hsent, accepted_settle, if_pos rfl]
    show t.log.sent ++ [packet] ++ t.pendingNetwork = t.log.accepted ++ [packet]
    rw [hempty, List.append_nil, haccepted]
  · rw [dropped_settle, if_neg (by simp), List.append_nil]
    exact h.dropped
  · rw [hsent, ofNat_length_concat]
    exact congrArg (· + 1) h.sent

/-- The first datagram of the queue goes out. -/
private theorem sent_from_queue (h : Sound t) {rest : List Packet} (hqueue : t.pendingNetwork = packet :: rest)
    (size : Nat) :
    Sound { t.tried outside packet (.sent size) with
      pendingNetwork := rest
      observer := (t.observer.recordOuterTx size).recordOuterBacklog rest.length } := by
  have hsent := sent_tried_sent t packet outside size
  refine ⟨?_, ?_, h.dropped, ?_, rfl⟩
  · have := h.bounded
    rw [hqueue, List.length_cons] at this
    exact Nat.le_of_succ_le this
  · show (t.tried outside packet (.sent size)).log.sent ++ rest = t.log.accepted
    rw [hsent, List.append_assoc, ← h.ordered, hqueue]
    rfl
  · show t.observer.outerTxPackets + 1 = UInt64.ofNat (t.tried outside packet (.sent size)).log.sent.length
    rw [hsent, ofNat_length_concat, h.sent]

variable (world : Surroundings σ)

private theorem sendOrQueueNetwork (h : Sound t) (packet : Packet) : Sound (t.sendOrQueueNetwork world packet).1 := by
  unfold WgTunnel.sendOrQueueNetwork
  by_cases hempty : t.pendingNetwork = []
  · rw [if_pos hempty]
    rcases world.trySend t.outside packet with ⟨outside, size | _ | e⟩
    · exact h.sent_directly hempty size
    · exact h.wouldBlock.queueNetwork packet
    · exact (h.failed e).settle_failed e
  · rw [if_neg hempty]
    exact h.queueNetwork packet

private theorem pollNetworkFlush (h : Sound t) : Sound (t.pollNetworkFlush world).1 := by
  fun_induction WgTunnel.pollNetworkFlush world t with
  | case1 t hqueue => exact h
  | case2 t packet rest hqueue outside e hready => exact h.frame outside
  | case3 t packet rest hqueue outside hready => exact h.frame outside
  | case4 t packet rest hqueue outside hready outside' size htry ih => exact ih (h.sent_from_queue hqueue size)
  | case5 t packet rest hqueue outside hready outside' htry => exact h.wouldBlock
  | case6 t packet rest hqueue outside hready outside' e htry => exact h.failed e

end Sound

section Calls

variable (world : Surroundings σ)

/-- Every packet meets one fate: it is dropped exactly at the limit, and an error is the caller's. -/
private theorem sendOrQueueNetwork_fate (t : WgTunnel σ) (packet : Packet) :
    ∃ fate, (t.sendOrQueueNetwork world packet).1.log.submitted = t.log.submitted ++ [(packet, fate)] ∧
      (fate = .dropped ↔ t.pendingNetwork.length = MAX_PENDING_NETWORK_PACKETS) ∧
      ∀ e, fate = .failed e ↔ (t.sendOrQueueNetwork world packet).2 = .error e := by
  have hqueue (t : WgTunnel σ) : ∃ fate, (t.queueNetwork packet).log.submitted = t.log.submitted ++ [(packet, fate)] ∧
      (fate = .dropped ↔ t.pendingNetwork.length = MAX_PENDING_NETWORK_PACKETS) ∧ ∀ e, fate ≠ .failed e := by
    unfold WgTunnel.queueNetwork
    by_cases hfull : t.pendingNetwork.length = MAX_PENDING_NETWORK_PACKETS
    · exact ⟨.dropped, by rw [if_pos hfull]; rfl, by simp [hfull], by simp⟩
    · exact ⟨.accepted, by rw [if_neg hfull]; rfl, by simp [hfull], by simp⟩
  unfold WgTunnel.sendOrQueueNetwork
  by_cases hempty : t.pendingNetwork = []
  · have hroom : t.pendingNetwork.length ≠ MAX_PENDING_NETWORK_PACKETS := by rw [hempty]; decide
    rw [if_pos hempty]
    rcases world.trySend t.outside packet with ⟨outside, size | _ | e⟩
    · exact ⟨.accepted, rfl, by simp [hroom], by simp⟩
    · obtain ⟨fate, hlog, hdropped, hfailed⟩ := hqueue (t.tried outside packet .wouldBlock)
      exact ⟨fate, hlog, hdropped, by simp [hfailed]⟩
    · exact ⟨.failed e, rfl, by simp [hroom], by simp⟩
  · obtain ⟨fate, hlog, hdropped, hfailed⟩ := hqueue t
    rw [if_neg hempty]
    exact ⟨fate, hlog, hdropped, by simp [hfailed]⟩

/-- What a flush has done: packets went out from the front of the queue, and a packet that did not go out when it
was tried is still there. -/
structure Flushed (t t' : WgTunnel σ) (taken : List Packet) (tries : List (Packet × TrySend)) : Prop where
  queue : t.pendingNetwork = taken ++ t'.pendingNetwork
  sent : t'.log.sent = t.log.sent ++ taken
  submitted : t'.log.submitted = t.log.submitted
  logged : t'.log.tries = t.log.tries ++ tries
  kept : ∀ packet result, (packet, result) ∈ tries → (∀ size, result ≠ .sent size) →
    t'.pendingNetwork.head? = some packet

private theorem Flushed.nothing (t : WgTunnel σ) (outside : σ) : Flushed t { t with outside } [] [] :=
  ⟨rfl, (List.append_nil _).symm, rfl, (List.append_nil _).symm, by simp⟩

private theorem Flushed.stuck {t : WgTunnel σ} {packet : Packet} {rest : List Packet}
    (hqueue : t.pendingNetwork = packet :: rest)
    (outside : σ) {result : TrySend} (hsent : (t.tried outside packet result).log.sent = t.log.sent) :
    Flushed t (t.tried outside packet result) [] [(packet, result)] := by
  refine ⟨rfl, hsent.trans (List.append_nil _).symm, rfl, rfl, fun packet' result' hmem _ => ?_⟩
  cases List.mem_singleton.1 hmem
  exact congrArg List.head? hqueue

private theorem Flushed.cons {t t' : WgTunnel σ} {packet : Packet} {rest taken : List Packet}
    {tries : List (Packet × TrySend)}
    (hqueue : t.pendingNetwork = packet :: rest) (outside : σ) (size : Nat) (observer : Observer)
    (h : Flushed { t.tried outside packet (.sent size) with pendingNetwork := rest, observer } t' taken tries) :
    Flushed t t' (packet :: taken) ((packet, .sent size) :: tries) := by
  refine ⟨?_, ?_, h.submitted, ?_, fun packet' result hmem hresult => ?_⟩
  · rw [hqueue, List.cons_append, ← h.queue]
  · rw [h.sent]
    show (t.tried outside packet (.sent size)).log.sent ++ taken = _
    rw [sent_tried_sent, List.append_assoc]
    rfl
  · rw [h.logged]
    exact List.append_assoc _ _ _
  · rcases List.mem_cons.1 hmem with heq | hmem
    · cases heq
      exact absurd rfl (hresult size)
    · exact h.kept packet' result hmem hresult

private theorem pollNetworkFlush_flushed (t : WgTunnel σ) :
    ∃ taken tries, Flushed t (t.pollNetworkFlush world).1 taken tries := by
  fun_induction WgTunnel.pollNetworkFlush world t with
  | case1 t hqueue => exact ⟨[], [], .nothing t t.outside⟩
  | case2 t packet rest hqueue outside e hready => exact ⟨[], [], .nothing t outside⟩
  | case3 t packet rest hqueue outside hready => exact ⟨[], [], .nothing t outside⟩
  | case4 t packet rest hqueue outside hready outside' size htry ih =>
    obtain ⟨taken, tries, hrest⟩ := ih
    exact ⟨packet :: taken, (packet, .sent size) :: tries, hrest.cons hqueue outside' size _⟩
  | case5 t packet rest hqueue outside hready outside' htry =>
    exact ⟨[], _, .stuck hqueue outside' (sent_tried_wouldBlock t packet outside')⟩
  | case6 t packet rest hqueue outside hready outside' e htry =>
    exact ⟨[], _, .stuck hqueue outside' (sent_tried_failed t packet outside' e)⟩

/-! ### Interleavings -/

/-- One call of the two functions, or anything that happens outside. -/
inductive Step : WgTunnel σ → WgTunnel σ → Prop where
  | submit (t : WgTunnel σ) (packet : Packet) : Step t (t.sendOrQueueNetwork world packet).1
  | flush (t : WgTunnel σ) : Step t (t.pollNetworkFlush world).1
  | elsewhere (t : WgTunnel σ) (outside : σ) : Step t { t with outside }

/-- An interleaving of such calls leads from one state to the other. -/
abbrev Reaches : WgTunnel σ → WgTunnel σ → Prop := Relation.ReflTransGen (Step world)

private theorem sound_start (outside : σ) (reserved : Octets 3) : Sound (.start outside reserved) :=
  ⟨Nat.zero_le _, rfl, rfl, rfl, rfl⟩

private theorem sound_of_reaches {t t' : WgTunnel σ} (h : Reaches world t t') (ht : Sound t) : Sound t' := by
  induction h with
  | refl => exact ht
  | tail _ hstep ih =>
    cases hstep with
    | submit packet => exact ih.sendOrQueueNetwork world packet
    | flush => exact ih.pollNetworkFlush world
    | elsewhere outside => exact ih.frame outside

/-! ### The callers -/

variable (t : WgTunnel σ)

private theorem reaches_elsewhere (outside : σ) : Reaches world t { t with outside } := .single (.elsewhere t outside)

private theorem reaches_flush : Reaches world t (t.pollNetworkFlush world).1 := .single (.flush t)

/-- Something outside makes a packet, and it is submitted. -/
private theorem reaches_submit (outside : σ) (packet : Packet) :
    Reaches world t ({ t with outside }.sendOrQueueNetwork world packet).1 :=
  (reaches_elsewhere world t outside).tail (.submit _ packet)

private theorem reaches_startSend (packet : Packet) : Reaches world t (t.startSend world packet).1 := by
  unfold WgTunnel.startSend
  rcases world.encapsulate t.outside packet with ⟨outside, _ | e | packet | ⟨packet, addr⟩ | ⟨packet, addr⟩⟩
  case writeToNetwork => exact reaches_submit world t outside _
  all_goals exact reaches_elsewhere world t outside

private theorem reaches_tryTick : Reaches world t (t.tryTick world).1 := by
  unfold WgTunnel.tryTick
  rcases world.updateTimers t.outside with ⟨outside, _ | e | packet | ⟨packet, addr⟩ | ⟨packet, addr⟩⟩
  case writeToNetwork => exact reaches_submit world t outside _
  case err =>
    cases e
    case connectionExpired =>
      dsimp only
      rcases world.formatHandshakeInitiation outside with ⟨outside, _ | e | packet | ⟨packet, addr⟩ | ⟨packet, addr⟩⟩
      case writeToNetwork => exact reaches_submit world t outside _
      all_goals exact reaches_elsewhere world t outside
    all_goals exact reaches_elsewhere world t outside
  all_goals exact reaches_elsewhere world t outside

private theorem reaches_decapsulateLoop (rounds : Nat) (t : WgTunnel σ) (result : TunnResult) :
    Reaches world t (t.decapsulateLoop world rounds result).1 := by
  induction rounds generalizing t result with
  | zero => exact .refl
  | succ rounds ih =>
    cases result with
    | writeToNetwork packet =>
      have hsubmit : Reaches world t (t.sendOrQueueNetwork world (t.prepareNetworkPacket packet)).1 :=
        reaches_submit world t t.outside _
      rw [WgTunnel.decapsulateLoop]
      generalize t.sendOrQueueNetwork world (t.prepareNetworkPacket packet) = p at hsubmit ⊢
      obtain ⟨t₁, _ | _⟩ := p
      · exact hsubmit
      · exact (hsubmit.trans (reaches_elsewhere world t₁ _)).trans (ih _ _)
    | _ => exact .refl

private theorem reaches_pollRecvPlaintext (rounds : Nat) : Reaches world t (t.pollRecvPlaintext world rounds).1 := by
  unfold WgTunnel.pollRecvPlaintext
  rcases world.pollRecv t.outside with ⟨outside, (e | raw) | _⟩
  · exact reaches_elsewhere world t outside
  · exact (reaches_elsewhere world t _).trans (reaches_decapsulateLoop world rounds _ _)
  · exact reaches_elsewhere world t outside

private theorem reaches_tickLoop (rounds : Nat) (t : WgTunnel σ) : Reaches world t (t.tickLoop world rounds).1 := by
  induction rounds generalizing t with
  | zero => exact .refl
  | succ rounds ih =>
    rw [WgTunnel.tickLoop]
    rcases world.pollTick t.outside with ⟨outside, _ | _⟩
    · exact reaches_elsewhere world t outside
    · have htick := (reaches_elsewhere world t outside).trans (reaches_tryTick world { t with outside })
      dsimp only
      generalize { t with outside }.tryTick world = p at htick ⊢
      obtain ⟨t₁, _ | _⟩ := p
      · exact htick
      · exact htick.trans (ih t₁)

private theorem reaches_receiveLoop (rounds burst : Nat) (t : WgTunnel σ) :
    Reaches world t (t.receiveLoop world rounds burst).1 := by
  induction burst generalizing t with
  | zero => exact .refl
  | succ burst ih =>
    have hrecv := reaches_pollRecvPlaintext world t rounds
    rw [WgTunnel.receiveLoop]
    generalize t.pollRecvPlaintext world rounds = p at hrecv ⊢
    obtain ⟨t₁, _ | ((_ | _ | _) | _)⟩ := p
    case some.ready.ok.none => exact hrecv.trans (ih t₁)
    all_goals exact hrecv

private theorem reaches_pollNext (rounds : Nat) : Reaches world t (t.pollNext world rounds).1 := by
  have htick := reaches_tickLoop world rounds t
  unfold WgTunnel.pollNext
  generalize t.tickLoop world rounds = p at htick ⊢
  obtain ⟨t₁, _ | _ | _⟩ := p
  · exact htick
  · exact htick
  · have hflush := htick.trans (reaches_flush world t₁)
    dsimp only
    generalize t₁.pollNetworkFlush world = q at hflush ⊢
    obtain ⟨t₂, (_ | _) | _⟩ := q
    · exact hflush
    · exact hflush.trans (reaches_receiveLoop world rounds _ t₂)
    · exact hflush.trans (reaches_receiveLoop world rounds _ t₂)

/-- In every interleaving of the two functions, and so in every sequence of calls of the device, the outer
datagrams keep their order. -/
theorem outer_datagrams_keep_order (outside : σ) (reserved : Octets 3)
    (h : Reaches world (.start outside reserved) t) :
    t.pendingNetwork.length ≤ 256 ∧
    (t.log.sent <+: t.log.accepted ∧ t.log.sent ++ t.pendingNetwork = t.log.accepted) ∧
    t.observer.outerTxDropped = UInt64.ofNat t.log.dropped.length ∧
    -- a packet is dropped only at the limit
    (∀ packet, ∃ fate, (t.sendOrQueueNetwork world packet).1.log.submitted = t.log.submitted ++ [(packet, fate)] ∧
      (fate = .dropped ↔ t.pendingNetwork.length = 256) ∧
      ∀ e, fate = .failed e ↔ (t.sendOrQueueNetwork world packet).2 = .error e) ∧
    -- a queued packet that is tried and not sent stays at the front
    (∃ taken tries, Flushed t (t.pollNetworkFlush world).1 taken tries) ∧
    -- the callers do nothing else
    ∀ packet rounds, ∀ t' ∈ [(t.startSend world packet).1, (t.tryTick world).1, (t.pollRecvPlaintext world rounds).1,
        (t.pollNext world rounds).1, (t.pollReady world).1, (t.pollFlush world).1, (t.pollClose world).1],
      Reaches world (.start outside reserved) t' := by
  have hsound := sound_of_reaches world h (sound_start outside reserved)
  refine ⟨hsound.bounded, ⟨⟨_, hsound.ordered⟩, hsound.ordered⟩, hsound.dropped,
    fun packet => sendOrQueueNetwork_fate world t packet, pollNetworkFlush_flushed world t,
      fun packet rounds t' ht' => ?_⟩
  refine h.trans ?_
  simp only [List.mem_cons, List.not_mem_nil, or_false] at ht'
  rcases ht' with rfl | rfl | rfl | rfl | rfl | rfl | rfl
  · exact reaches_startSend world t packet
  · exact reaches_tryTick world t
  · exact reaches_pollRecvPlaintext world t rounds
  · exact reaches_pollNext world t rounds
  all_goals exact reaches_flush world t

end Calls

/-- A socket that is busy for the first packet, with the number of calls of `try_send` as its state. -/
def busyOnce : Surroundings Nat where
  trySend n packet := (n + 1, if n = 0 then .wouldBlock else .sent packet.length)
  pollSendReady n := (n, .ready (.ok ()))
  pollRecv n := (n, .pending)
  pollTick n := (n, false)
  updateTimers n := (n, .done)
  formatHandshakeInitiation n := (n, .done)
  encapsulate n _ := (n, .done)
  decapsulate n _ := (n, .done)

/-- The first packet finds the socket busy, and the second waits behind it although the socket would take it. -/
theorem outer_datagrams_keep_order_busy_once :
    let first := (WgTunnel.start 0 ⟨[0, 0, 0], rfl⟩).sendOrQueueNetwork busyOnce [1]
    let second := first.1.sendOrQueueNetwork busyOnce [2]
    second.1.pendingNetwork = [[1], [2]] ∧ second.1.log.sent ++ second.1.pendingNetwork = second.1.log.accepted := by
  intro first second
  have hfirst : Reaches busyOnce (.start 0 ⟨[0, 0, 0], rfl⟩) first.1 := .single (.submit _ [1])
  have hsecond : Reaches busyOnce (.start 0 ⟨[0, 0, 0], rfl⟩) second.1 := hfirst.tail (.submit _ [2])
  obtain ⟨-, ⟨-, hordered⟩, -⟩ := outer_datagrams_keep_order busyOnce second.1 0 ⟨[0, 0, 0], rfl⟩ hsecond
  exact ⟨rfl, hordered⟩

end WarpSocks.Tunnel
