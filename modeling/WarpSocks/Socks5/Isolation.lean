import WarpSocks.Socks5.Udp

/-!
# The client of an association

Anyone can send datagrams to the relay socket.  The first one from the address of the control connection whose
header decodes locks the association to its source; from then on only datagrams of that source are handed on, and
replies go nowhere else.  A datagram that is not one of these changes nothing, so a run with any number of them
put in between hands on the same datagrams (`relayLoop_isolates`).
-/

namespace WarpSocks.Socks5

/-- The events that end the loop. -/
def Event.ends : Event → Bool
  | .control (.ok n) => n == 0
  | .control (.error _) => true
  | .relay (.error _) => true
  | .relay (.ok _) => false
  | .reply _ => false

/-- The datagram an event brings. -/
def Event.datagram? : Event → Option Datagram
  | .relay (.ok d) => some d
  | _ => none

/-- The datagrams that arrive before the loop ends. -/
def received (events : List Event) : List Datagram := (events.takeWhile (!·.ends)).filterMap Event.datagram?

/-- A datagram from the IP of the control connection with a header that decodes. -/
def opens (peer : SocketAddr) (d : Datagram) : Bool := d.source.ip == peer.ip && (decodeUdpHeader d.bytes).isSome

/-- The target in a datagram's own header and the bytes behind the header. -/
def content (d : Datagram) : Option (SocketAddrOrName × List UInt8) :=
  (decodeUdpHeader d.bytes).map fun (target, headerLen) => (target, d.bytes.drop headerLen)

/-- A datagram from another IP, with a header that does not decode or, once the client is known, from another
address. -/
def Foreign (peer : SocketAddr) (s : Association) : Event → Prop
  | .relay (.ok d) =>
    d.source.ip ≠ peer.ip ∨ decodeUdpHeader d.bytes = none ∨ ∃ c, s.clientAddr = some c ∧ d.source ≠ c
  | _ => False

section Rounds

variable {peer : SocketAddr} {s : Association} {d : Datagram}

/-- A foreign datagram changes nothing. -/
private theorem onDatagram_foreign (h : Foreign peer s (.relay (.ok d))) : onDatagram peer s d = s := by
  unfold onDatagram udpSourceAllowed
  rcases h with hip | hheader | ⟨c, hc, hne⟩
  · simp [hip]
  · simp [hheader]
  · simp [hc, Ne.symm hne]

/-- Any other datagram is handed on, and its source is the client. -/
private theorem onDatagram_own (h : ¬ Foreign peer s (.relay (.ok d))) :
    d.source.ip = peer.ip ∧ ∃ target headerLen, decodeUdpHeader d.bytes = some (target, headerLen) ∧
      (∀ c, s.clientAddr = some c → c = d.source) ∧
      onDatagram peer s d =
        ⟨some d.source, s.handed ++ [(target, d.bytes.drop headerLen)], s.replied⟩ := by
  simp only [Foreign, not_or, not_exists, not_and, Decidable.not_not] at h
  obtain ⟨hip, hheader, hclient⟩ := h
  cases hd : decodeUdpHeader d.bytes with
  | none => exact absurd hd hheader
  | some r =>
    obtain ⟨target, headerLen⟩ := r
    refine ⟨hip, target, headerLen, rfl, fun c hc => (hclient c hc).symm, ?_⟩
    cases hc : s.clientAddr with
    | none => simp [onDatagram, udpSourceAllowed, hip, hc, hd]
    | some c =>
      obtain rfl := hclient c hc
      simp [onDatagram, udpSourceAllowed, hip, hc, hd]

/-- The client is learned from a datagram that opens the association, and kept. -/
private theorem onDatagram_clientAddr :
    (onDatagram peer s d).clientAddr = s.clientAddr.or (if opens peer d then some d.source else none) := by
  by_cases h : Foreign peer s (.relay (.ok d))
  · rw [onDatagram_foreign h]
    rcases h with hip | hheader | ⟨c, hc, -⟩
    · simp [opens, hip]
    · simp [opens, hheader]
    · simp [hc]
  · obtain ⟨hip, target, headerLen, hd, hclient, hon⟩ := onDatagram_own h
    rw [hon]
    cases hc : s.clientAddr with
    | none => simp [opens, hip, hd]
    | some c => simp [hclient c hc]

private theorem onDatagram_replied : (onDatagram peer s d).replied = s.replied := by
  by_cases h : Foreign peer s (.relay (.ok d))
  · rw [onDatagram_foreign h]
  · obtain ⟨-, target, headerLen, -, -, hon⟩ := onDatagram_own h
    rw [hon]

private theorem onReply_clientAddr (s : Association) (r : Option UdpReply) :
    (onReply s r).clientAddr = s.clientAddr := by
  cases r with
  | none => rfl
  | some r =>
    rw [onReply]
    cases h : s.clientAddr with
    | none => exact h
    | some c => rfl

private theorem onReply_handed (s : Association) (r : Option UdpReply) : (onReply s r).handed = s.handed := by
  cases r with
  | none => rfl
  | some r =>
    rw [onReply]
    split <;> rfl

end Rounds

/-- The state after a round that does not end the loop. -/
def advance (peer : SocketAddr) (s : Association) : Event → Association
  | .relay (.ok d) => onDatagram peer s d
  | .reply r => onReply s r
  | _ => s

private theorem step_ends (peer : SocketAddr) (s : Association) (e : Event) (h : e.ends) :
    ∃ r, step peer s e = .stop r := by
  match e, h with
  | .control (.ok 0), _ => exact ⟨_, rfl⟩
  | .control (.error _), _ => exact ⟨_, rfl⟩
  | .relay (.error _), _ => exact ⟨_, rfl⟩

private theorem step_next (peer : SocketAddr) (s : Association) (e : Event) (h : e.ends = false) :
    step peer s e = .next (advance peer s e) := by
  match e, h with
  | .control (.ok (_ + 1)), _ => rfl
  | .relay (.ok _), _ => rfl
  | .reply _, _ => rfl

section Runs

variable (peer : SocketAddr)

private theorem relayLoop_fst (events : List Event) :
    (relayLoop peer events).1 = (events.takeWhile (!·.ends)).foldl (advance peer) .new :=
  Machine.run_fst_eq_foldl (step peer) (step_ends peer) (step_next peer) .new events

/-- The source of the first datagram that opens the association. -/
def opener (events : List Event) : Option SocketAddr :=
  ((events.filterMap Event.datagram?).find? (opens peer)).map Datagram.source

private theorem opener_cons (e : Event) (events : List Event) :
    opener peer (e :: events) = (opener peer [e]).or (opener peer events) := by
  cases hd : e.datagram? with
  | none => simp [opener, hd]
  | some d => cases ho : opens peer d <;> simp [opener, hd, ho]

private theorem advance_clientAddr (s : Association) (e : Event) :
    (advance peer s e).clientAddr = s.clientAddr.or (opener peer [e]) := by
  match e with
  | .control _ => simp [advance, opener, Event.datagram?]
  | .relay (.error _) => simp [advance, opener, Event.datagram?]
  | .relay (.ok d) =>
    rw [advance, onDatagram_clientAddr]
    cases h : opens peer d <;> simp [opener, Event.datagram?, h]
  | .reply r => simp [advance, opener, Event.datagram?, onReply_clientAddr]

/-- The client is the one there was or the first that opens the association. -/
private theorem foldl_clientAddr (s : Association) (events : List Event) :
    (events.foldl (advance peer) s).clientAddr = s.clientAddr.or (opener peer events) := by
  induction events generalizing s with
  | nil => simp [opener]
  | cons e events ih => rw [List.foldl_cons, ih, advance_clientAddr, Option.or_assoc, ← opener_cons]

/-- A client that is known is kept. -/
private theorem foldl_clientAddr_some {s : Association} {c : SocketAddr} (h : s.clientAddr = some c)
    (events : List Event) :
    (events.foldl (advance peer) s).clientAddr = some c := by
  rw [foldl_clientAddr, h, Option.some_or]

/-- The client has the IP of the control connection. -/
private theorem ip_of_clientAddr {s : Association} (hs : ∀ c, s.clientAddr = some c → c.ip = peer.ip)
    {events : List Event}
    {c : SocketAddr} (h : (events.foldl (advance peer) s).clientAddr = some c) : c.ip = peer.ip := by
  rw [foldl_clientAddr, Option.or_eq_some_iff] at h
  rcases h with h | ⟨-, h⟩
  · exact hs c h
  · obtain ⟨d, hd, rfl⟩ := Option.map_eq_some_iff.1 h
    have := List.find?_some hd
    simp only [opens, Bool.and_eq_true, beq_iff_eq] at this
    exact this.1

/-- What a datagram adds to the calls of `UdpEgressSet::send`, seen from a later state with the client `c`. -/
private theorem onDatagram_handed {s : Association} {d : Datagram} {c : Option SocketAddr}
    (hc : ∀ a, (onDatagram peer s d).clientAddr = some a → c = some a) (hip : ∀ a, c = some a → a.ip = peer.ip) :
    (onDatagram peer s d).handed = s.handed ++ ([d].filter (c = some ·.source)).filterMap content := by
  by_cases h : Foreign peer s (.relay (.ok d))
  · -- the client is another one, or there is nothing to hand on
    have hnone : ([d].filter (c = some ·.source)).filterMap content = [] := by
      by_cases hd : c = some d.source
      · rcases h with hne | hheader | ⟨a, ha, hne⟩
        · exact absurd (hip _ hd) hne
        · simp [hd, content, hheader]
        · rw [onDatagram_foreign (.inr (.inr ⟨a, ha, hne⟩))] at hc
          rw [hc a ha] at hd
          exact absurd (Option.some.inj hd).symm hne
      · simp [hd]
    rw [hnone, onDatagram_foreign h, List.append_nil]
  · obtain ⟨-, target, headerLen, hd, -, hon⟩ := onDatagram_own h
    have hcd : c = some d.source := hc _ (by rw [hon])
    simp [hon, hcd, content, hd]

private theorem advance_handed {s : Association} {e : Event} {c : Option SocketAddr}
    (hc : ∀ a, (advance peer s e).clientAddr = some a → c = some a) (hip : ∀ a, c = some a → a.ip = peer.ip) :
    (advance peer s e).handed = s.handed ++ (e.datagram?.toList.filter (c = some ·.source)).filterMap content := by
  match e with
  | .control _ => simp [advance, Event.datagram?]
  | .relay (.error _) => simp [advance, Event.datagram?]
  | .relay (.ok d) => exact onDatagram_handed peer hc hip
  | .reply r => simp [advance, Event.datagram?, onReply_handed]

/-- Handed on are the datagrams of the client, in order, each with the content of its own header. -/
private theorem foldl_handed {c : Option SocketAddr} (hip : ∀ a, c = some a → a.ip = peer.ip) (s : Association)
    (events : List Event) (hc : (events.foldl (advance peer) s).clientAddr = c) :
    (events.foldl (advance peer) s).handed =
      s.handed ++ ((events.filterMap Event.datagram?).filter (c = some ·.source)).filterMap content := by
  induction events generalizing s with
  | nil => simp
  | cons e events ih =>
    have hfirst := advance_handed peer (c := c) (s := s) (e := e)
      (fun a ha => by rw [← hc, List.foldl_cons, foldl_clientAddr_some peer ha]) hip
    have hsplit : (e :: events).filterMap Event.datagram? =
        e.datagram?.toList ++ events.filterMap Event.datagram? := by
      cases hd : e.datagram? <;> simp [hd]
    rw [List.foldl_cons, ih (advance peer s e) hc, hfirst, hsplit, List.filter_append, List.filterMap_append,
      List.append_assoc]

variable {peer}

private theorem eq_advance_of_step {s s' : Association} {e : Event} (h : step peer s e = .next s') :
    s' = advance peer s e := by
  cases he : e.ends with
  | true =>
    obtain ⟨r, hr⟩ := step_ends peer s e he
    rw [hr] at h
    cases h
  | false =>
    rw [step_next peer s e he] at h
    cases h
    rfl

/-- A client that is known is kept to the end of the run. -/
private theorem relayLoop_clientAddr_append {front : List Event} {c : SocketAddr}
    (h : (relayLoop peer front).1.clientAddr = some c) (back : List Event) :
    (relayLoop peer (front ++ back)).1.clientAddr = some c := by
  rw [relayLoop, Machine.run_append]
  rw [relayLoop] at h
  match hr : Machine.run (step peer) .new front with
  | (s, some r) => rwa [hr] at h
  | (s, none) =>
    rw [hr] at h
    -- every round keeps it
    refine Machine.run_induction (step peer) (P := fun s => s.clientAddr = some c) (fun s e s' hs hstep => ?_) h back
    rw [eq_advance_of_step hstep, advance_clientAddr, hs, Option.some_or]

/-- A round sends to the client, if at all. -/
private theorem advance_replied {s : Association} (hs : ∀ r ∈ s.replied, s.clientAddr = some r.1) (e : Event) :
    ∀ r ∈ (advance peer s e).replied, (advance peer s e).clientAddr = some r.1 := by
  match e with
  | .control _ => exact hs
  | .relay (.error _) => exact hs
  | .relay (.ok d) =>
    intro r hr
    rw [advance, onDatagram_replied] at hr
    rw [advance, onDatagram_clientAddr, hs r hr, Option.some_or]
  | .reply none => exact hs
  | .reply (some reply) =>
    intro r hr
    rw [advance, onReply_clientAddr]
    rw [advance, onReply] at hr
    cases hc : s.clientAddr with
    | none =>
      rw [hc] at hr
      exact hc ▸ hs r hr
    | some c =>
      rw [hc] at hr
      rcases List.mem_append.1 hr with hr | hr
      · exact hc ▸ hs r hr
      · obtain rfl := List.mem_singleton.1 hr
        rfl

/-- Replies have gone to the client only. -/
private theorem replied_to_client (peer : SocketAddr) (events : List Event) :
    ∀ r ∈ (relayLoop peer events).1.replied, (relayLoop peer events).1.clientAddr = some r.1 := by
  refine Machine.run_induction (step peer) (P := fun s => ∀ r ∈ s.replied, s.clientAddr = some r.1)
    (fun s e s' hs hstep => ?_) (by intro r hr; cases hr) events
  rw [eq_advance_of_step hstep]
  exact advance_replied hs e

private theorem step_foreign (s : Association) (e : Event) (h : Foreign peer s e) : step peer s e = .next s := by
  match e, h with
  | .relay (.ok d), h => rw [step, onDatagram_foreign h]

end Runs

/-- The isolation of an association's client, for any control peer and any events in any order.  The client is the
source of the first datagram from the peer's IP with a header that decodes, and stays it; what is handed on are
the datagrams from exactly that address, each with its own target and payload; replies go to it alone, and none
goes out before it is known; and foreign datagrams put in anywhere change neither what is handed on nor the
client. -/
theorem relayLoop_isolates (peer : SocketAddr) (events : List Event) :
    let s := (relayLoop peer events).1
    s.clientAddr = ((received events).find? (opens peer)).map Datagram.source ∧
    (∀ front back c, events = front ++ back → (relayLoop peer front).1.clientAddr = some c → s.clientAddr = some c) ∧
    s.handed = ((received events).filter (s.clientAddr = some ·.source)).filterMap content ∧
    (∀ r ∈ s.replied, s.clientAddr = some r.1) ∧
    (∀ front back, events = front ++ back → (relayLoop peer front).1.clientAddr = none →
      (relayLoop peer front).1.replied = []) ∧
    ∀ padded, Machine.Inserted (step peer) (Foreign peer) .new events padded →
      (relayLoop peer padded).1.handed = s.handed ∧ (relayLoop peer padded).1.clientAddr = s.clientAddr := by
  intro s
  have hclient : s.clientAddr = opener peer (events.takeWhile (!·.ends)) := by
    rw [show s = _ from relayLoop_fst peer events, foldl_clientAddr]
    rfl
  refine ⟨hclient, ?_, ?_, replied_to_client peer events, ?_, ?_⟩
  · rintro front back c rfl hfront
    exact relayLoop_clientAddr_append hfront back
  · have hfst := relayLoop_fst peer events
    have hip : ∀ a, s.clientAddr = some a → a.ip = peer.ip := fun a ha =>
      ip_of_clientAddr peer (s := .new) (fun c hc => nomatch hc) (by rw [← hfst]; exact ha)
    have hhanded := foldl_handed peer hip .new (events.takeWhile (!·.ends)) (by rw [← hfst])
    rwa [← hfst] at hhanded
  · intro front back _ hnone
    apply List.eq_nil_iff_forall_not_mem.2
    intro r hr
    rw [replied_to_client peer front r hr] at hnone
    cases hnone
  · intro padded hpadded
    have hrun : relayLoop peer padded = relayLoop peer events :=
      Machine.run_eq_of_inserted (step peer) step_foreign hpadded
    rw [hrun]
    exact ⟨rfl, rfl⟩

/-- A datagram of the client for `8.8.8.8:53` behind one from another IP and ahead of one from another port. -/
theorem relayLoop_isolates_strangers :
    let peer := SocketAddr.v4 ⟨[127, 0, 0, 1], rfl⟩ 1000
    let bytes : List UInt8 := [0, 0, 0, 1, 8, 8, 8, 8, 0, 53, 97]
    let own := Event.relay (.ok ⟨.v4 ⟨[127, 0, 0, 1], rfl⟩ 2000, bytes⟩)
    let padded := [.relay (.ok ⟨.v4 ⟨[10, 0, 0, 1], rfl⟩ 2000, bytes⟩), own,
      .relay (.ok ⟨.v4 ⟨[127, 0, 0, 1], rfl⟩ 2001, bytes⟩)]
    Machine.Inserted (step peer) (Foreign peer) .new [own] padded ∧
      (relayLoop peer padded).1.handed = [(.addr (.v4 ⟨[8, 8, 8, 8], rfl⟩ 53), [97])] ∧
      (relayLoop peer padded).1.clientAddr = some (.v4 ⟨[127, 0, 0, 1], rfl⟩ 2000) := by
  intro peer bytes own padded
  have hinserted : Machine.Inserted (step peer) (Foreign peer) .new [own] padded := by
    refine .insert (.inl (by decide)) (.keep own fun s' hs' => ?_)
    obtain rfl := eq_advance_of_step hs'
    exact .insert (.inr (.inr ⟨_, rfl, by decide⟩)) (.nil _)
  obtain ⟨-, -, -, -, -, hpadded⟩ := relayLoop_isolates peer [own]
  obtain ⟨hhanded, hclient⟩ := hpadded padded hinserted
  refine ⟨hinserted, hhanded.trans ?_, hclient.trans ?_⟩
  · decide
  · decide

end WarpSocks.Socks5
