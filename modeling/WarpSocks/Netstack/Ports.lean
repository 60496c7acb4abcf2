import WarpSocks.Machine.Trace
import WarpSocks.Netstack.SocketTable

/-!
# Ports over whole runs

The invariant of the socket table (`Consistent`): no two sockets of one transport and family have the same local
port, the cursor is in the ephemeral range, and the slots in use are those of the live handles.  A new socket
takes a port that is free at that moment (`allocatePort_spec`); after that a socket can only lose its endpoint, so
no step makes two sockets meet.
-/

namespace WarpSocks.Netstack

/-- A port of the ephemeral range. -/
def Ephemeral (port : UInt16) : Prop := EPHEMERAL_PORT_FIRST ≤ port ∧ port ≤ EPHEMERAL_PORT_LAST

theorem ephemeral_iff (port : UInt16) : Ephemeral port ↔ 10001 ≤ port.toNat ∧ port.toNat ≤ 60000 := by
  unfold Ephemeral
  rw [UInt16.le_iff_toNat_le, UInt16.le_iff_toNat_le]
  exact Iff.rfl

/-- The successor of a candidate is in the range again. -/
private theorem ephemeral_next {candidate : UInt16} (h : Ephemeral candidate) :
    Ephemeral (if EPHEMERAL_PORT_LAST ≤ candidate then EPHEMERAL_PORT_FIRST else candidate + 1) := by
  rw [ephemeral_iff] at h
  split
  · exact (ephemeral_iff _).2 (by decide)
  · rename_i hlt
    have hlt : ¬60000 ≤ candidate.toNat := fun hle => hlt (UInt16.le_iff_toNat_le.2 hle)
    have hadd : (candidate + 1).toNat = candidate.toNat + 1 := by
      rw [UInt16.toNat_add]
      exact Nat.mod_eq_of_lt (show candidate.toNat + 1 < 65536 by omega)
    rw [ephemeral_iff, hadd]
    omega

/-- Induction on the rounds: the cursor stays in the range, and the port found is a candidate that is not in use. -/
private theorem selectPortLoop_spec {inUse : UInt16 → Bool} {rounds : Nat} {next port next' : UInt16}
    (hnext : Ephemeral next) (h : selectPortLoop inUse rounds next = (.ok port, next')) :
    Ephemeral port ∧ inUse port = false ∧ Ephemeral next' := by
  induction rounds generalizing next with
  | zero => simp [selectPortLoop] at h
  | succ rounds ih =>
    have hn := ephemeral_next hnext
    rw [selectPortLoop] at h
    by_cases hu : inUse next = true
    · rw [hu, Bool.not_true, if_neg Bool.false_ne_true] at h
      exact ih hn h
    · have hfree : inUse next = false := Bool.eq_false_iff.2 hu
      rw [hfree, Bool.not_false, if_pos rfl] at h
      obtain ⟨hport, hcursor⟩ := Prod.mk.inj h
      cases hport
      exact ⟨hnext, hfree, hcursor ▸ hn⟩

private theorem selectPort_spec {inUse : UInt16 → Bool} {next requested port next' : UInt16} (hnext : Ephemeral next)
    (h : selectPort next requested inUse = (.ok port, next')) :
    inUse port = false ∧ Ephemeral next' ∧ (requested = 0 → Ephemeral port) ∧ (requested ≠ 0 → port = requested) := by
  unfold selectPort at h
  by_cases hr : requested = 0
  · rw [if_neg (not_not.2 hr)] at h
    obtain ⟨hp, hfree, hn⟩ := selectPortLoop_spec hnext h
    exact ⟨hfree, hn, fun _ => hp, fun hne => absurd hr hne⟩
  · rw [if_pos hr] at h
    obtain ⟨hport, hcursor⟩ := Prod.mk.inj h
    by_cases hu : inUse requested = true
    · simp [hu] at hport
    · have hfree : inUse requested = false := Bool.eq_false_iff.2 hu
      rw [hfree, Bool.not_false, if_pos rfl] at hport
      cases hport
      exact ⟨hfree, hcursor ▸ hnext, fun h0 => absurd h0 hr, fun _ => rfl⟩

variable {api : SocketApi}

/-- The transport, the family and the local port of a socket that has a local endpoint. -/
def AnySocket.key : AnySocket api → Option (Transport × AddressFamily × UInt16)
  | .tcp socket => (api.localEndpoint socket).map fun endpoint => (.tcp, .ofAddress endpoint.addr, endpoint.port)
  | .udp socket => (api.endpoint socket).addr.map fun addr => (.udp, .ofAddress addr, (api.endpoint socket).port)

private theorem AddressFamily.matches_iff (family : AddressFamily) (addr : IpAddr) :
    family.matches addr ↔ AddressFamily.ofAddress addr = family := by
  cases family <;> cases addr <;> simp [AddressFamily.matches, AddressFamily.ofAddress]

namespace SocketTable

private theorem occupies_iff (transport : Transport) (family : AddressFamily) (port : UInt16)
    (socket : AnySocket api) :
    occupies transport family port socket ↔ socket.key = some (transport, family, port) := by
  cases socket with
  | tcp socket =>
    cases transport with
    | tcp => simp [occupies, AnySocket.key, Option.any_eq_true, AddressFamily.matches_iff, and_comm]
    | udp => simp [occupies, AnySocket.key]
  | udp socket =>
    cases transport with
    | tcp => simp [occupies, AnySocket.key]
    | udp =>
      cases h : (api.endpoint socket).addr with
      | none => simp [occupies, AnySocket.key, h]
      | some addr => simp [occupies, AnySocket.key, h, AddressFamily.matches_iff, and_comm]

/-- A port is in use iff a socket of the same transport and family has it. -/
private theorem portInUse_iff (table : SocketTable api) (transport : Transport) (family : AddressFamily)
    (port : UInt16) :
    table.portInUse transport family port ↔
      ∃ handle socket, table.sockets.lookup handle = some socket ∧ socket.key = some (transport, family, port) := by
  unfold portInUse
  rw [Finmap.anyEntry_iff]
  simp only [occupies_iff]

/-- The sockets stay as they are, and a port that is returned is free; it is the requested one, or one of the
range. -/
theorem allocatePort_spec {table table' : SocketTable api} {transport : Transport} {family : AddressFamily}
    {requested : UInt16} {result : Except IoError UInt16} (hcursor : Ephemeral table.nextPort)
    (h : table.allocatePort transport family requested = (result, table')) :
    table'.sockets = table.sockets ∧ Ephemeral table'.nextPort ∧
      ∀ port, result = .ok port → table.portInUse transport family port = false ∧
        (requested = 0 → Ephemeral port) ∧ (requested ≠ 0 → port = requested) := by
  unfold allocatePort at h
  rcases hs : selectPort table.nextPort requested (table.portInUse transport family) with ⟨res, next⟩
  rw [hs] at h
  cases res with
  | error e =>
    cases h
    exact ⟨rfl, hcursor, fun port hp => nomatch hp⟩
  | ok port =>
    cases h
    obtain ⟨hfree, hn, h0, h1⟩ := selectPort_spec hcursor hs
    refine ⟨rfl, hn, ?_⟩
    intro port' hp
    cases hp
    exact ⟨hfree, h0, h1⟩

private theorem freeSlot_notMem (table : SocketTable api) : api.freeSlot table.sockets.keys ∉ table.sockets := by
  rw [← Finmap.mem_keys]
  exact api.freeSlot_notMem _

/-- An Err leaves the sockets as they are; an Ok adds one socket, with a free port of the range, in a free slot. -/
private theorem connectTcp_spec {table table' : SocketTable api} {context : api.Context} {source : IpAddr}
    {remote : IpEndpoint} {result : Except IoError Nat} (hcursor : Ephemeral table.nextPort)
    (h : table.connectTcp context source remote = (result, table')) :
    Ephemeral table'.nextPort ∧
      ((∃ e, result = .error e ∧ table'.sockets = table.sockets) ∨
        ∃ handle port socket, result = .ok handle ∧ table'.sockets = table.sockets.insert handle socket ∧
          handle ∉ table.sockets ∧ socket.key = some (.tcp, .ofAddress source, port) ∧ Ephemeral port ∧
          table.portInUse .tcp (.ofAddress source) port = false) := by
  unfold connectTcp at h
  rcases ha : table.allocatePort .tcp (.ofAddress source) 0 with ⟨res, table₁⟩
  obtain ⟨hs, hn, hp⟩ := allocatePort_spec hcursor ha
  rw [ha] at h
  cases res with
  | error e =>
    cases h
    exact ⟨hn, .inl ⟨e, rfl, hs⟩⟩
  | ok port =>
    obtain ⟨hfree, hrange, -⟩ := hp port rfl
    cases hc : api.connect api.newTcp context remote ⟨source, port⟩ with
    | error e =>
      simp only [hc] at h
      cases h
      exact ⟨hn, .inl ⟨_, rfl, hs⟩⟩
    | ok socket =>
      simp only [hc, add] at h
      cases h
      refine ⟨hn, .inr ⟨_, port, .tcp socket, rfl, by rw [hs], hs ▸ freeSlot_notMem table₁, ?_, hrange rfl, hfree⟩⟩
      simp [AnySocket.key, api.localEndpoint_connect hc]

/-- The same for UDP: the port is the requested one or, for a request of zero, one of the range. -/
private theorem newUdp_spec {table table' : SocketTable api} {source : IpAddr} {requested : UInt16}
    {result : Except IoError (Nat × UInt16)} (hcursor : Ephemeral table.nextPort)
    (h : table.newUdp source requested = (result, table')) :
    Ephemeral table'.nextPort ∧
      ((∃ e, result = .error e ∧ table'.sockets = table.sockets) ∨
        ∃ handle port socket, result = .ok (handle, port) ∧ table'.sockets = table.sockets.insert handle socket ∧
          handle ∉ table.sockets ∧ socket.key = some (.udp, .ofAddress source, port) ∧
          table.portInUse .udp (.ofAddress source) port = false ∧
          (requested = 0 → Ephemeral port) ∧ (requested ≠ 0 → port = requested)) := by
  unfold newUdp at h
  rcases ha : table.allocatePort .udp (.ofAddress source) requested with ⟨res, table₁⟩
  obtain ⟨hs, hn, hp⟩ := allocatePort_spec hcursor ha
  rw [ha] at h
  cases res with
  | error e =>
    cases h
    exact ⟨hn, .inl ⟨e, rfl, hs⟩⟩
  | ok port =>
    cases hb : api.bind api.newUdp ⟨some source, port⟩ with
    | error e =>
      simp only [hb] at h
      cases h
      exact ⟨hn, .inl ⟨_, rfl, hs⟩⟩
    | ok socket =>
      simp only [hb, add] at h
      cases h
      refine ⟨hn, .inr ⟨_, port, .udp socket, rfl, by rw [hs], hs ▸ freeSlot_notMem table₁, ?_, hp port rfl⟩⟩
      simp [AnySocket.key, api.endpoint_bind hb]

end SocketTable

/-- What may happen to a socket in place, by a reactor step or a stop of the stack: its endpoint stays or is
lost. -/
def AnySocket.evolves : AnySocket api → AnySocket api → Bool
  | .tcp s, .tcp s' => api.localEndpoint s' = api.localEndpoint s || (api.localEndpoint s').isNone
  | .udp s, .udp s' => api.endpoint s' = api.endpoint s || (api.endpoint s').addr.isNone
  | _, _ => false

private theorem AnySocket.key_of_evolves {s s' : AnySocket api} (h : s.evolves s') :
    s'.key = s.key ∨ s'.key = none := by
  cases s with
  | tcp s =>
    cases s' with
    | tcp s' =>
      simp only [evolves, Bool.or_eq_true, decide_eq_true_eq, Option.isNone_iff_eq_none] at h
      rcases h with h | h
      · exact .inl (by simp only [key, h])
      · exact .inr (by simp only [key, h, Option.map_none])
    | udp s' => nomatch h
  | udp s =>
    cases s' with
    | tcp s' => nomatch h
    | udp s' =>
      simp only [evolves, Bool.or_eq_true, decide_eq_true_eq, Option.isNone_iff_eq_none] at h
      rcases h with h | h
      · exact .inl (by simp only [key, h])
      · exact .inr (by simp only [key, h, Option.map_none])

/-- The table and the handles the application holds. -/
structure World (api : SocketApi) where
  table : SocketTable api
  live : List Nat

def World.start : World api := ⟨.new, []⟩

inductive Op (api : SocketApi) where
  | connectTcp (context : api.Context) (source : IpAddr) (remote : IpEndpoint)
  | newUdp (source : IpAddr) (requestedPort : UInt16)
  | drop (handle : Nat)
  | change (handle : Nat) (socket : AnySocket api)

/-- One operation.  Only a live handle can be dropped, and only a socket of the table changes. -/
def World.step (w : World api) : Op api → Option (World api)
  | .connectTcp context source remote =>
    match w.table.connectTcp context source remote with
    | (.ok handle, table) => some ⟨table, handle :: w.live⟩
    | (.error _, table) => some ⟨table, w.live⟩
  | .newUdp source requestedPort =>
    match w.table.newUdp source requestedPort with
    | (.ok (handle, _), table) => some ⟨table, handle :: w.live⟩
    | (.error _, table) => some ⟨table, w.live⟩
  | .drop handle =>
    if handle ∈ w.live then (w.table.dropHandle handle).map fun table => ⟨table, w.live.erase handle⟩ else none
  | .change handle socket' =>
    match w.table.sockets.lookup handle with
    | some socket =>
      if socket.evolves socket' then
        some { w with table := { w.table with sockets := w.table.sockets.insert handle socket' } }
      else none
    | none => none

/-- The invariant. -/
structure Consistent (w : World api) : Prop where
  unique : ∀ h₁ h₂ s₁ s₂ key, w.table.sockets.lookup h₁ = some s₁ → w.table.sockets.lookup h₂ = some s₂ →
    s₁.key = some key → s₂.key = some key → h₁ = h₂
  cursor : Ephemeral w.table.nextPort
  nodup : w.live.Nodup
  live : ∀ handle, handle ∈ w.live ↔ handle ∈ w.table.sockets

namespace Consistent

variable {w w' : World api}

/-- A new socket with a free port, in a free slot. -/
private theorem insert (h : Consistent w) {table : SocketTable api} {handle : Nat} {socket : AnySocket api}
    {transport : Transport} {family : AddressFamily} {port : UInt16} (hcursor : Ephemeral table.nextPort)
    (hs : table.sockets = w.table.sockets.insert handle socket) (hslot : handle ∉ w.table.sockets)
    (hkey : socket.key = some (transport, family, port)) (hfree : w.table.portInUse transport family port = false) :
    Consistent ⟨table, handle :: w.live⟩ := by
  -- no older socket has the key of the new one
  have hnew : ∀ h' s', w.table.sockets.lookup h' = some s' → s'.key ≠ socket.key := by
    intro h' s' hl hk
    have huse := (w.table.portInUse_iff transport family port).2 ⟨h', s', hl, hk.trans hkey⟩
    rw [hfree] at huse
    exact Bool.false_ne_true huse
  refine ⟨?_, hcursor, ?_, ?_⟩
  · intro h₁ h₂ s₁ s₂ key hl₁ hl₂ hk₁ hk₂
    simp only [hs] at hl₁ hl₂
    by_cases e₁ : h₁ = handle
    · by_cases e₂ : h₂ = handle
      · rw [e₁, e₂]
      · rw [Finmap.lookup_insert_of_ne _ e₂] at hl₂
        rw [e₁, Finmap.lookup_insert] at hl₁
        cases hl₁
        exact absurd (hk₂.trans hk₁.symm) (hnew h₂ s₂ hl₂)
    · rw [Finmap.lookup_insert_of_ne _ e₁] at hl₁
      by_cases e₂ : h₂ = handle
      · rw [e₂, Finmap.lookup_insert] at hl₂
        cases hl₂
        exact absurd (hk₁.trans hk₂.symm) (hnew h₁ s₁ hl₁)
      · rw [Finmap.lookup_insert_of_ne _ e₂] at hl₂
        exact h.unique h₁ h₂ s₁ s₂ key hl₁ hl₂ hk₁ hk₂
  · exact List.nodup_cons.2 ⟨fun hmem => hslot ((h.live handle).1 hmem), h.nodup⟩
  · intro h'
    simp only [hs, List.mem_cons, Finmap.mem_insert, h.live]

/-- The cursor alone. -/
private theorem advance (h : Consistent w) {table : SocketTable api} (hcursor : Ephemeral table.nextPort)
    (hs : table.sockets = w.table.sockets) : Consistent ⟨table, w.live⟩ := by
  refine ⟨?_, hcursor, h.nodup, ?_⟩
  · intro h₁ h₂ s₁ s₂ key hl₁ hl₂
    simp only [hs] at hl₁ hl₂
    exact h.unique h₁ h₂ s₁ s₂ key hl₁ hl₂
  · intro handle
    simp only [hs, h.live]

/-- A live handle is in the set, so that removing it does not panic. -/
private theorem dropHandle (h : Consistent w) {handle : Nat} (hlive : handle ∈ w.live) :
    w.table.dropHandle handle = some { w.table with sockets := w.table.sockets.erase handle } :=
  if_pos ((h.live handle).1 hlive)

private theorem erase (h : Consistent w) (handle : Nat) :
    Consistent ⟨{ w.table with sockets := w.table.sockets.erase handle }, w.live.erase handle⟩ := by
  refine ⟨?_, h.cursor, h.nodup.erase handle, ?_⟩
  · intro h₁ h₂ s₁ s₂ key hl₁ hl₂
    exact h.unique h₁ h₂ s₁ s₂ key (Finmap.lookup_of_erase hl₁) (Finmap.lookup_of_erase hl₂)
  · intro h'
    simp only [h.nodup.mem_erase_iff, Finmap.mem_erase, h.live]

private theorem change (h : Consistent w) {handle : Nat} {socket socket' : AnySocket api}
    (hl : w.table.sockets.lookup handle = some socket) (he : socket.evolves socket') :
    Consistent { w with table := { w.table with sockets := w.table.sockets.insert handle socket' } } := by
  -- every key of a socket after the change is a key of the same slot before
  have hold : ∀ h' s' key, (w.table.sockets.insert handle socket').lookup h' = some s' → s'.key = some key →
      ∃ s, w.table.sockets.lookup h' = some s ∧ s.key = some key := by
    intro h' s' key hl' hk
    by_cases e : h' = handle
    · rw [e, Finmap.lookup_insert] at hl'
      cases hl'
      rcases AnySocket.key_of_evolves he with hkey | hkey
      · exact ⟨socket, e ▸ hl, hkey ▸ hk⟩
      · rw [hkey] at hk
        nomatch hk
    · rw [Finmap.lookup_insert_of_ne _ e] at hl'
      exact ⟨s', hl', hk⟩
  refine ⟨?_, h.cursor, h.nodup, ?_⟩
  · intro h₁ h₂ s₁ s₂ key hl₁ hl₂ hk₁ hk₂
    obtain ⟨t₁, ht₁, hkey₁⟩ := hold h₁ s₁ key hl₁ hk₁
    obtain ⟨t₂, ht₂, hkey₂⟩ := hold h₂ s₂ key hl₂ hk₂
    exact h.unique h₁ h₂ t₁ t₂ key ht₁ ht₂ hkey₁ hkey₂
  · intro h'
    have hmem : handle ∈ w.table.sockets := Finmap.mem_of_lookup_eq_some hl
    rw [h.live, Finmap.mem_insert]
    constructor
    · exact .inr
    · rintro (rfl | h')
      · exact hmem
      · exact h'

private theorem step (h : Consistent w) {op : Op api} (hstep : w.step op = some w') : Consistent w' := by
  cases op with
  | connectTcp context source remote =>
    rcases hc : w.table.connectTcp context source remote with ⟨result, table⟩
    simp only [World.step, hc] at hstep
    obtain ⟨hcursor, ⟨e, rfl, hs⟩ | ⟨handle, port, socket, rfl, hs, hslot, hkey, -, hfree⟩⟩ :=
      SocketTable.connectTcp_spec h.cursor hc
    · cases hstep
      exact h.advance hcursor hs
    · cases hstep
      exact h.insert hcursor hs hslot hkey hfree
  | newUdp source requestedPort =>
    rcases hc : w.table.newUdp source requestedPort with ⟨result, table⟩
    simp only [World.step, hc] at hstep
    obtain ⟨hcursor, ⟨e, rfl, hs⟩ | ⟨handle, port, socket, rfl, hs, hslot, hkey, hfree, -⟩⟩ :=
      SocketTable.newUdp_spec h.cursor hc
    · cases hstep
      exact h.advance hcursor hs
    · cases hstep
      exact h.insert hcursor hs hslot hkey hfree
  | drop handle =>
    rw [World.step] at hstep
    split at hstep
    · rename_i hlive
      rw [h.dropHandle hlive] at hstep
      cases hstep
      exact h.erase handle
    · nomatch hstep
  | change handle socket' =>
    rw [World.step] at hstep
    split at hstep
    · rename_i socket hl
      split at hstep
      · rename_i he
        cases hstep
        exact h.change hl he
      · nomatch hstep
    · nomatch hstep

private theorem start : Consistent (World.start : World api) := by
  refine ⟨?_, (ephemeral_iff EPHEMERAL_PORT_FIRST).2 (by decide), List.nodup_nil, ?_⟩
  · intro h₁ h₂ s₁ s₂ key hl₁
    rw [World.start, SocketTable.new, Finmap.lookup_empty] at hl₁
    nomatch hl₁
  · intro handle
    exact iff_of_false List.not_mem_nil Finmap.notMem_empty

end Consistent

/-- After every run: sockets of one transport and family have different ports, the cursor is in the range, the
table has one entry for each live handle, and dropping one does not panic.  The next `connect_tcp` or `new_udp`
leaves the sockets as they are if it fails; otherwise it adds one socket whose port was free and, if chosen
automatically, is in the range. Only sockets of the same transport and family are in the way. -/
theorem socket_table_consistent {ops : List (Op api)} {w : World api}
    (h : Machine.exec World.step World.start ops = some w) :
    (∀ h₁ h₂ s₁ s₂ transport family p₁ p₂, h₁ ≠ h₂ →
      w.table.sockets.lookup h₁ = some s₁ → w.table.sockets.lookup h₂ = some s₂ →
      s₁.key = some (transport, family, p₁) → s₂.key = some (transport, family, p₂) → p₁ ≠ p₂) ∧
    (10001 ≤ w.table.nextPort.toNat ∧ w.table.nextPort.toNat ≤ 60000) ∧
    (w.live.Nodup ∧ ∀ handle, handle ∈ w.live ↔ handle ∈ w.table.sockets) ∧
    (∀ handle ∈ w.live, (w.table.dropHandle handle).isSome) ∧
    (∀ context source remote result table', w.table.connectTcp context source remote = (result, table') →
      (∃ e, result = .error e ∧ table'.sockets = w.table.sockets) ∨
      ∃ handle port socket, result = .ok handle ∧ table'.sockets = w.table.sockets.insert handle socket ∧
        handle ∉ w.table.sockets ∧ socket.key = some (.tcp, .ofAddress source, port) ∧
        (10001 ≤ port.toNat ∧ port.toNat ≤ 60000) ∧ w.table.portInUse .tcp (.ofAddress source) port = false) ∧
    (∀ source requested result table', w.table.newUdp source requested = (result, table') →
      (∃ e, result = .error e ∧ table'.sockets = w.table.sockets) ∨
      ∃ handle port socket, result = .ok (handle, port) ∧ table'.sockets = w.table.sockets.insert handle socket ∧
        handle ∉ w.table.sockets ∧ socket.key = some (.udp, .ofAddress source, port) ∧
        w.table.portInUse .udp (.ofAddress source) port = false ∧
        (requested = 0 → 10001 ≤ port.toNat ∧ port.toNat ≤ 60000) ∧ (requested ≠ 0 → port = requested)) ∧
    ∀ transport family port, w.table.portInUse transport family port ↔
      ∃ handle socket, w.table.sockets.lookup handle = some socket ∧ socket.key = some (transport, family, port) := by
  have hc : Consistent w := Machine.exec_induction (fun _ _ _ hs hstep => hs.step hstep) Consistent.start h
  refine ⟨?_, (ephemeral_iff _).1 hc.cursor, ⟨hc.nodup, hc.live⟩, ?_, ?_, ?_, w.table.portInUse_iff⟩
  · intro h₁ h₂ s₁ s₂ transport family p₁ p₂ hne hl₁ hl₂ hk₁ hk₂ hp
    exact hne (hc.unique h₁ h₂ s₁ s₂ _ hl₁ hl₂ hk₁ (hp ▸ hk₂))
  · intro handle hlive
    rw [hc.dropHandle hlive]
    rfl
  · intro context source remote result table' hres
    simp only [← ephemeral_iff]
    exact (SocketTable.connectTcp_spec hc.cursor hres).2
  · intro source requested result table' hres
    simp only [← ephemeral_iff]
    exact (SocketTable.newUdp_spec hc.cursor hres).2

/-- The first number that is not in use, as `SocketSet::add` looks for it. -/
def firstVacant (used : Finset Nat) : Nat := ((List.range (used.card + 1)).find? fun n => decide (n ∉ used)).getD 0

private theorem firstVacant_notMem (used : Finset Nat) : firstVacant used ∉ used := by
  unfold firstVacant
  cases hfind : (List.range (used.card + 1)).find? fun n => decide (n ∉ used) with
  | some n =>
    have hvacant := List.find?_some hfind
    exact of_decide_eq_true hvacant
  | none =>
    -- more numbers than are in use
    have hsub : Finset.range (used.card + 1) ⊆ used := by
      intro n hn
      have := List.find?_eq_none.1 hfind n (List.mem_range.2 (Finset.mem_range.1 hn))
      simpa using this
    have hcard := Finset.card_le_card hsub
    rw [Finset.card_range] at hcard
    omega

/-- Sockets that are their endpoints; a connect to port zero fails. -/
def SocketApi.plain : SocketApi where
  Context := Unit
  Tcp := Option IpEndpoint
  Udp := IpListenEndpoint
  newTcp := none
  connect _ _ remote localEnd := if remote.port = 0 then .error "unaddressable" else .ok (some localEnd)
  localEndpoint s := s
  newUdp := ⟨none, 0⟩
  bind _ listen := .ok listen
  endpoint s := s
  freeSlot := firstVacant
  localEndpoint_connect := by
    intro s _ remote localEnd s' h
    split at h
    · nomatch h
    · cases h
      rfl
  endpoint_bind := by
    intro s listen s' h
    cases h
    rfl
  freeSlot_notMem := firstVacant_notMem

/-- Two connections, one of them dropped, and a UDP socket that gets its handle, on the port of the other. -/
theorem socket_table_consistent_reuse :
    let source : IpAddr := .v4 ⟨[10, 0, 0, 2], rfl⟩
    let remote : IpEndpoint := ⟨.v4 ⟨[192, 0, 2, 1], rfl⟩, 443⟩
    ∃ w : World SocketApi.plain, Machine.exec World.step World.start
        [.connectTcp () source remote, .connectTcp () source remote, .drop 0, .newUdp source 10002] = some w ∧
      w.live = [0, 1] ∧ w.live.Nodup ∧ w.table.nextPort = 10003 := by
  intro source remote
  refine ⟨_, rfl, rfl, ?_, rfl⟩
  exact (@socket_table_consistent _ [.connectTcp () source remote, .connectTcp () source remote, .drop 0,
    .newUdp source 10002] _ rfl).2.2.1.1

end WarpSocks.Netstack
