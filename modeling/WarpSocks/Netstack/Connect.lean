import WarpSocks.Netstack.TcpStream

/-!
# Connecting and batches

The connect future sees only the state a batch leaves behind.  A batch with the SYN|ACK and no FIN leaves the socket
established and the connect succeeds; with the FIN in the same batch the socket is already in `CloseWait`, which
`poll_connected` does not count as connected, and nothing but an RST will ever end the wait, in that batch or later
(`connect_batches`, `connect_hangs`).
-/

namespace WarpSocks.Netstack

/-- What follows a SYN|ACK: data, a FIN, an RST. -/
def Event.isSegment : Event → Bool
  | .data _ _ | .rst => true
  | _ => false

variable (tcp : Smoltcp)

/-! ### The state a batch leaves behind -/

private theorem poll_established {s : Socket} {b : List Event} (hs : s.state = .established)
    (hb : ∀ e ∈ b, ∃ payload, e = .data payload false) : (tcp.poll s b).state = .established := by
  induction b generalizing s with
  | nil => exact hs
  | cons e b ih =>
    obtain ⟨payload, rfl⟩ := hb e List.mem_cons_self
    exact ih (tcp.step_data s payload hs) fun e he => hb e (List.mem_cons_of_mem _ he)

private theorem poll_closed {s : Socket} (b : List Event) (hs : s.state = .closed) :
    (tcp.poll s b).state = .closed := by
  induction b generalizing s with
  | nil => exact hs
  | cons e b ih => exact ih (tcp.step_closed s e hs)

private theorem poll_rst (s : Socket) {b : List Event} (h : .rst ∈ b) : (tcp.poll s b).state = .closed := by
  obtain ⟨b₁, b₂, rfl⟩ := List.append_of_mem h
  rw [Smoltcp.poll, List.foldl_append]
  exact poll_closed tcp b₂ (tcp.step_rst _)

private theorem poll_closeWait {s : Socket} {b : List Event} (hs : s.state = .closeWait)
    (hb : ∀ e ∈ b, e.isSegment ∧ e ≠ .rst) : (tcp.poll s b).state = .closeWait := by
  induction b generalizing s with
  | nil => exact hs
  | cons e b ih =>
    obtain ⟨hseg, hrst⟩ := hb e List.mem_cons_self
    cases e with
    | data payload fin =>
      exact ih (tcp.step_closeWait s payload fin hs) fun e he => hb e (List.mem_cons_of_mem _ he)
    | rst => exact absurd rfl hrst
    | synAck | finAcked | expired => simp [Event.isSegment] at hseg

private theorem poll_fin {s : Socket} {b : List Event} (hs : s.state = .established)
    (hb : ∀ e ∈ b, e.isSegment ∧ e ≠ .rst) (hfin : ∃ e ∈ b, e.isFin) : (tcp.poll s b).state = .closeWait := by
  induction b generalizing s with
  | nil => simp at hfin
  | cons e b ih =>
    obtain ⟨hseg, hrst⟩ := hb e List.mem_cons_self
    have hb' : ∀ e ∈ b, e.isSegment ∧ e ≠ .rst := fun e he => hb e (List.mem_cons_of_mem _ he)
    cases e with
    | data payload fin =>
      cases fin with
      | true =>
        show (tcp.poll (tcp.step s (.data payload true)) b).state = _
        exact poll_closeWait tcp (tcp.step_fin s payload hs) hb'
      | false =>
        refine ih (tcp.step_data s payload hs) hb' ?_
        obtain ⟨e, he, hf⟩ := hfin
        rcases List.mem_cons.1 he with rfl | he
        · simp [Event.isFin] at hf
        · exact ⟨e, he, hf⟩
    | rst => exact absurd rfl hrst
    | synAck | finAcked | expired => simp [Event.isSegment] at hseg

/-! ### The wait -/

private theorem wakes_of_state_ne {s : Socket} {b : List Event} (h : (tcp.poll s b).state ≠ s.state) :
    tcp.wakes s b = true := by
  induction b generalizing s with
  | nil => exact absurd rfl h
  | cons e b ih =>
    by_cases hstep : (tcp.step s e).state = s.state
    · have hrest : tcp.wakes (tcp.step s e) b = true := ih (by rw [hstep]; exact h)
      simp [Smoltcp.wakes, hrest]
    · simp [Smoltcp.wakes, hstep]

private theorem awaitConnected_nil (s : Socket) (k : Nat) (batches : List (List Event)) :
    ∀ done, awaitConnected tcp s done (List.replicate k [] ++ batches) = awaitConnected tcp s (done + k) batches := by
  induction k with
  | zero => intro done; rfl
  | succ k ih =>
    intro done
    rw [List.replicate_succ, List.cons_append, awaitConnected]
    simp only [Smoltcp.wakes, Bool.false_eq_true, ↓reduceIte]
    rw [show tcp.poll s [] = s from rfl, ih, Nat.add_assoc, Nat.add_comm 1]

/-- In `CloseWait` the future waits for ever unless an RST comes, in a later batch. -/
private theorem awaitConnected_closeWait {s : Socket} (hs : s.state = .closeWait) {batches : List (List Event)}
    (hseg : ∀ e ∈ batches.flatten, e.isSegment) (done : Nat) :
    (.rst ∉ batches.flatten → awaitConnected tcp s done batches = none) ∧
    (.rst ∈ batches.flatten → ∃ i result, awaitConnected tcp s done batches = some (i, result) ∧ done < i) := by
  induction batches generalizing s done with
  | nil => exact ⟨fun _ => rfl, fun h => by simp at h⟩
  | cons batch batches ih =>
    rw [List.flatten_cons] at hseg ⊢
    rw [awaitConnected]
    by_cases hrst : .rst ∈ batch
    · have hclosed := poll_rst tcp s hrst
      have hwakes : tcp.wakes s batch = true := wakes_of_state_ne tcp (by rw [hclosed, hs]; decide)
      refine ⟨fun h => absurd (List.mem_append_left _ hrst) h, fun _ => ?_⟩
      refine ⟨done + 1, .error ⟨.connectionAborted, "TCP 连接建立失败"⟩, ?_, Nat.lt_succ_self done⟩
      simp [hwakes, pollConnected, hclosed]
    · have hwait : (tcp.poll s batch).state = .closeWait :=
        poll_closeWait tcp hs fun e he => ⟨hseg e (List.mem_append_left _ he), fun h => hrst (h ▸ he)⟩
      have hpending : pollConnected false (tcp.poll s batch) = .pending := by simp [pollConnected, hwait]
      have hnext := ih hwait (fun e he => hseg e (List.mem_append_right _ he)) (done + 1)
      simp only [hpending, ite_self, List.mem_append, hrst, false_or]
      refine ⟨hnext.1, fun hlater => ?_⟩
      obtain ⟨i, result, hi, hlt⟩ := hnext.2 hlater
      exact ⟨i, result, hi, Nat.lt_of_succ_lt hlt⟩

/-- Every partition of segments behind a SYN|ACK has some empty batches and then the batch with the SYN|ACK. -/
private theorem exists_first_batch {batches : List (List Event)} {xs : List Event}
    (h : batches.flatten = .synAck :: xs) :
    ∃ k b bs, batches = List.replicate k [] ++ (.synAck :: b) :: bs ∧ xs = b ++ bs.flatten := by
  induction batches with
  | nil => cases h
  | cons batch batches ih =>
    cases batch with
    | nil =>
      obtain ⟨k, b, bs, rfl, hxs⟩ := ih h
      exact ⟨k + 1, b, bs, rfl, hxs⟩
    | cons e b =>
      rw [List.flatten_cons, List.cons_append, List.cons.injEq] at h
      obtain ⟨rfl, rfl⟩ := h
      exact ⟨0, b, batches, rfl, rfl⟩

private theorem connect_eq {s : Socket} (hs : s.state = .synSent) (k : Nat) (b : List Event)
    (bs : List (List Event)) :
    connect tcp s (List.replicate k [] ++ (.synAck :: b) :: bs) =
      match pollConnected false (tcp.poll (tcp.step s .synAck) b) with
      | .ready result => some (k + 1, result)
      | .pending => awaitConnected tcp (tcp.poll (tcp.step s .synAck) b) (k + 1) bs := by
  have hwakes : tcp.wakes s (.synAck :: b) = true := by
    have : (tcp.step s .synAck).state ≠ s.state := by rw [tcp.step_synAck s hs, hs]; decide
    simp [Smoltcp.wakes, this]
  have hpending : pollConnected false s = .pending := by simp [pollConnected, hs]
  rw [connect, hpending]
  simp only
  rw [awaitConnected_nil, awaitConnected, if_pos hwakes, Nat.zero_add]
  rfl

/-- An RST in the batch ends the connect. -/
private theorem pollConnected_rst (tcp : Smoltcp) (s : Socket) {b : List Event} (hrst : .rst ∈ b) :
    ∃ result, pollConnected false (tcp.poll s b) = .ready result := by
  simp [pollConnected, poll_rst tcp s hrst]

/-- Behind data alone the connection is still open, and the connect succeeds. -/
private theorem pollConnected_data (tcp : Smoltcp) {s : Socket} (hs : s.state = .established) {b : List Event}
    (hb : ∀ e ∈ b, e.isSegment ∧ e ≠ .rst) (hdata : ∀ e ∈ b, e.isFin = false) :
    pollConnected false (tcp.poll s b) = .ready (.ok ()) := by
  have hopen := poll_established tcp hs fun e he => by
    obtain ⟨hseg, hne⟩ := hb e he
    have hf := hdata e he
    cases e with
    | data payload fin => exact ⟨payload, by rw [show fin = false from hf]⟩
    | rst => exact absurd rfl hne
    | synAck | finAcked | expired => simp [Event.isSegment] at hseg
  simp [pollConnected, hopen]

/-- Connecting and batches.  The segments behind a SYN|ACK are data, possibly a FIN, and possibly an RST, in any
order, and `batches` is any partition of them and the SYN|ACK.  Without an RST the connect succeeds right after
the batch with the SYN|ACK if and only if that batch has no FIN.  With an RST it ends right after that batch if
and only if the batch has no FIN or has the RST; otherwise it goes on waiting and ends only with the RST. -/
theorem connect_batches (tcp : Smoltcp) (s : Socket) (hs : s.state = .synSent) (xs : List Event)
    (hxs : ∀ e ∈ xs, e.isSegment) (batches : List (List Event)) (h : batches.flatten = .synAck :: xs) :
    ∃ k b bs, batches = List.replicate k [] ++ (.synAck :: b) :: bs ∧
      (.rst ∉ xs → (connect tcp s batches = some (k + 1, .ok ()) ↔ ∀ e ∈ b, e.isFin = false)) ∧
      (.rst ∈ xs →
        ((∃ result, connect tcp s batches = some (k + 1, result)) ↔ (∀ e ∈ b, e.isFin = false) ∨ .rst ∈ b) ∧
        ∃ i result, connect tcp s batches = some (i, result)) := by
  obtain ⟨k, b, bs, rfl, rfl⟩ := exists_first_batch h
  refine ⟨k, b, bs, rfl, ?_⟩
  rw [connect_eq tcp hs]
  have hest : (tcp.step s .synAck).state = .established := tcp.step_synAck s hs
  have hb : ∀ e ∈ b, e.isSegment := fun e he => hxs e (List.mem_append_left _ he)
  have hbs : ∀ e ∈ bs.flatten, e.isSegment := fun e he => hxs e (List.mem_append_right _ he)
  by_cases hrst : .rst ∈ b
  · obtain ⟨result, hready⟩ := pollConnected_rst tcp (tcp.step s .synAck) hrst
    simp only [hready]
    exact ⟨fun hno => absurd (List.mem_append_left _ hrst) hno,
      fun _ => ⟨⟨fun _ => .inr hrst, fun _ => ⟨result, rfl⟩⟩, k + 1, result, rfl⟩⟩
  have hb' : ∀ e ∈ b, e.isSegment ∧ e ≠ .rst := fun e he => ⟨hb e he, fun hr => hrst (hr ▸ he)⟩
  by_cases hfin : ∃ e ∈ b, e.isFin
  · -- the FIN has been processed before the future is polled
    have hwait := poll_fin tcp hest hb' hfin
    obtain ⟨hnone, hsome⟩ := awaitConnected_closeWait tcp hwait hbs (k + 1)
    have hpending : pollConnected false (tcp.poll (tcp.step s .synAck) b) = .pending := by simp [pollConnected, hwait]
    have hnotData : ¬∀ e ∈ b, e.isFin = false := by
      obtain ⟨e, he, hf⟩ := hfin
      exact fun hall => by simp [hall e he] at hf
    simp only [hpending, List.mem_append, hrst, false_or]
    refine ⟨fun hno => ?_, fun hlater => ⟨iff_of_false ?_ (not_or_intro hnotData id), ?_⟩⟩
    · rw [hnone hno]
      exact iff_of_false (fun h => nomatch h) hnotData
    · -- the wait goes on behind the batch
      rintro ⟨result, hend⟩
      obtain ⟨i, result', hi, hlate⟩ := hsome hlater
      rw [hi] at hend
      cases hend
      omega
    · obtain ⟨i, result, hi, -⟩ := hsome hlater
      exact ⟨i, result, hi⟩
  · have hdata : ∀ e ∈ b, e.isFin = false := fun e he => by
      cases hf : e.isFin with
      | false => rfl
      | true => exact absurd ⟨e, he, hf⟩ hfin
    simp only [pollConnected_data tcp hest hb' hdata]
    exact ⟨fun _ => ⟨fun _ => hdata, fun _ => trivial⟩,
      fun _ => ⟨⟨fun _ => .inl hdata, fun _ => ⟨_, rfl⟩⟩, _, _, rfl⟩⟩

/-- The packets among the results of the device. -/
def packets : List (Poll Event) → List Event
  | [] => []
  | .ready e :: device => e :: packets device
  | .pending :: device => packets device

/-- The batches are a partition of the packets. -/
private theorem reactorBatches_flatten (maxBurst : Nat) (queue : List Event) (device : List (Poll Event)) :
    (reactorBatches maxBurst queue device).flatten = queue ++ packets device := by
  fun_induction reactorBatches maxBurst queue device with
  | case1 => simp [packets]
  | case2 queue h => simp [packets]
  | case3 device ih => simpa [packets] using ih
  | case4 queue device h ih => simp [packets, ih]
  | case5 queue e device h ih => simp [packets, ih]
  | case6 queue e device h ih => simp [packets, ih]

/-- A SYN|ACK and data in one batch; and a SYN|ACK with a FIN in one batch, two empty polls and an RST. -/
theorem connect_batches_data :
    let late : List (List Event) := [[.synAck, .data [] true], [], [], [.rst]]
    (⟨.synSent, []⟩ : Socket).state = .synSent ∧
    (∃ k b bs, reactorBatches defaultMaxBurstSize [] [.ready .synAck, .ready (.data [0x48] false)] =
        List.replicate k [] ++ (.synAck :: b) :: bs ∧
      (connect reference ⟨.synSent, []⟩
          (reactorBatches defaultMaxBurstSize [] [.ready .synAck, .ready (.data [0x48] false)]) =
            some (k + 1, .ok ()) ↔
        ∀ e ∈ b, e.isFin = false)) ∧
    ∃ k b bs, late = List.replicate k [] ++ (.synAck :: b) :: bs ∧
      ((∃ result, connect reference ⟨.synSent, []⟩ late = some (k + 1, result)) ↔
        (∀ e ∈ b, e.isFin = false) ∨ .rst ∈ b) := by
  intro late
  have h : (reactorBatches defaultMaxBurstSize [] [.ready .synAck, .ready (.data [0x48] false)]).flatten =
      [.synAck, .data [0x48] false] := reactorBatches_flatten _ _ _
  obtain ⟨k, b, bs, hsplit, hok, -⟩ := connect_batches reference ⟨.synSent, []⟩ rfl [.data [0x48] false]
    (by decide) _ h
  obtain ⟨k', b', bs', hsplit', -, hrst⟩ :=
    connect_batches reference ⟨.synSent, []⟩ rfl [.data [] true, .rst] (by decide) late rfl
  exact ⟨rfl, ⟨k, b, bs, hsplit, hok (by decide)⟩, k', b', bs', hsplit', (hrst (by decide)).1⟩

/-- A SYN|ACK and a FIN in two batches connect, in one batch they do not. -/
theorem connect_hangs :
    connect reference ⟨.synSent, []⟩ (reactorBatches defaultMaxBurstSize []
      [.ready .synAck, .pending, .ready (.data [] true), .pending]) = some (1, .ok ()) ∧
    connect reference ⟨.synSent, []⟩ (reactorBatches defaultMaxBurstSize []
      [.ready .synAck, .ready (.data [] true), .pending]) = none := ⟨rfl, rfl⟩

end WarpSocks.Netstack
