import WarpSocks.Io
import WarpSocks.IpLiteral

/-!
# The addresses of the edge

From the answer to the enrolment, the registration takes the hosts of the first peer, without a port or brackets
(`strip_host`), and its ports; `edge_addrs` combines them to the addresses that are dialled.  The ports are `i64`s
in the answer and are cut to `u16`s (`toNat_asU16`).  The parser of the peer's public key is a parameter.
-/

namespace WarpSocks.Masque

/-- `Endpoint` of the answer. -/
structure PeerEndpoint where
  v4 : String
  v6 : String
  ports : List Int64

/-- `Peer` of the answer. -/
structure Peer where
  publicKey : String
  endpoint : PeerEndpoint

/-- `EnrollConfig` of the answer, with the addresses of its interface. -/
structure EnrollConfig where
  peers : List Peer
  addressV4 : String
  addressV6 : String

/-- The part of `Registration` that is taken from the configuration in the answer. -/
structure Registration where
  endpointV4 : String
  endpointV6 : String
  endpointPorts : List UInt16
  peerPublicKey : String
  assignedIpv4 : String
  assignedIpv6 : String

/-- `strip_host`. -/
def stripHost (s : String) : String :=
  let s := Text.trim s
  if s.isEmpty then ""
  else
    match (Text.stripPrefix s '[').bind fun rest => Text.splitOnce rest ']' with
    | some (host, _) => host
    | none => (Text.split s ':').headD s

/-- `*p as u16`. -/
def asU16 (p : Int64) : UInt16 := p.toUInt64.toUInt16

/-- What `register` takes from the first peer.  `spki` reads the PEM text of a public key and encodes it again. -/
def registerPeer (spki : String → Except Chain String) (reg : Registration) (peer : Peer) :
    Except Chain Registration :=
  let reg := { reg with
    endpointV4 := stripHost peer.endpoint.v4
    endpointV6 := stripHost peer.endpoint.v6
    endpointPorts := peer.endpoint.ports.map asU16 }
  if peer.publicKey.isEmpty then .ok reg
  else (spki peer.publicKey).map fun key => { reg with peerPublicKey := key }

/-- The end of `register`: the registration from the configuration in the answer to the enrolment. -/
def register (spki : String → Except Chain String) (config : Option EnrollConfig) : Except Chain Registration :=
  let reg : Registration := ⟨"", "", [], "", "", ""⟩
  match config with
  | none => .ok reg
  | some cfg =>
    let withPeer : Except Chain Registration :=
      match cfg.peers.head? with
      | none => .ok reg
      | some peer => registerPeer spki reg peer
    withPeer.map fun reg => { reg with assignedIpv4 := cfg.addressV4, assignedIpv6 := cfg.addressV6 }

/-- The ports in the order in which they are dialled: 443 last. -/
def orderedPorts (reg : Registration) : List UInt16 :=
  let ports := if reg.endpointPorts.isEmpty then [443] else reg.endpointPorts
  ports.filter (· ≠ 443) ++ if 443 ∈ ports then [443] else []

/-- `edge_addrs`. -/
def edgeAddrs (reg : Registration) : List SocketAddr :=
  [reg.endpointV4, reg.endpointV6].flatMap fun host =>
    match IpText.parse host with
    | some ip => (orderedPorts reg).map fun p => SocketAddr.new ip p
    | none => []

/-! ### The host of an endpoint -/

/-- The ways to write an endpoint. -/
inductive Form where
  | bare
  | withPort (p : UInt16)
  | inBrackets
  | inBracketsWithPort (p : UInt16)
  deriving DecidableEq

namespace Form

/-- The text of an endpoint. -/
def text (host : String) : Form → String
  | .bare => host
  | .withPort p => host ++ ":" ++ toString p.toNat
  | .inBrackets => "[" ++ host ++ "]"
  | .inBracketsWithPort p => "[" ++ host ++ "]:" ++ toString p.toNat

/-- Brackets are for IPv6 addresses, and those have a port only with brackets. -/
def Fits : IpAddr → Form → Prop
  | .v4 _, form => form = .bare ∨ ∃ p, form = .withPort p
  | .v6 _, form => form = .bare ∨ form = .inBrackets ∨ ∃ p, form = .inBracketsWithPort p

end Form

private theorem stripHost_bracketed {s host : String} (tail : String) (ht : Text.trim s = "[" ++ host ++ "]" ++ tail)
    (hclose : ']' ∉ host.toList) : stripHost s = host := by
  have hopen : Text.stripPrefix (Text.trim s) '[' = some (host ++ "]" ++ tail) := by
    rw [Text.stripPrefix_eq_some_iff, ht]
    simp
  have hsplit : Text.splitOnce (host ++ "]" ++ tail) ']' = some (host, tail) := by
    rw [Text.splitOnce_eq_some_iff]
    simp [hclose]
  have hempty : (Text.trim s).isEmpty = false := by
    rw [String.isEmpty_eq_false_iff, ht]
    intro h
    have := congrArg String.toList h
    simp at this
  unfold stripHost
  dsimp only
  rw [hempty, if_neg Bool.false_ne_true, hopen, Option.bind_some, hsplit]

/-- Without a bracket at its start, an endpoint is cut at the first colon. -/
private theorem stripHost_of_no_bracket {s : String}
    (hno : ∀ cs, (Text.trim s).toList ≠ '[' :: cs) (hne : Text.trim s ≠ "") :
    stripHost s = (Text.split (Text.trim s) ':').headD (Text.trim s) := by
  unfold stripHost
  dsimp only
  rw [String.isEmpty_eq_false_iff.2 hne, if_neg Bool.false_ne_true, Text.stripPrefix_eq_none_iff.2 hno,
    Option.bind_none]

/-- No character of an endpoint is whitespace. -/
private theorem noWhitespace_text {host : String} {ip : IpAddr} (hhost : IpText.parse host = some ip) (form : Form) :
    Text.NoWhitespace (form.text host) := by
  have h := IpText.noWhitespace_of_parse hhost
  have hopen : Text.NoWhitespace ("[" ++ host) := .append (by decide) h
  cases form with
  | bare => exact h
  | withPort p => exact (h.append (by decide)).append (Text.noWhitespace_toString _)
  | inBrackets => exact hopen.append (by decide)
  | inBracketsWithPort p => exact (hopen.append (by decide)).append (Text.noWhitespace_toString _)

/-- An endpoint that starts with a literal is cut at its first colon. -/
private theorem stripHost_literal {s host : String} {ip : IpAddr} (hhost : IpText.parse host = some ip)
    (rest : List Char) (ht : (Text.trim s).toList = host.toList ++ rest) :
    stripHost s = (Text.split (Text.trim s) ':').headD (Text.trim s) := by
  obtain ⟨c, cs, hcons⟩ := List.exists_cons_of_ne_nil (IpText.ne_nil_of_parse hhost)
  have hopen := (IpText.bracket_notMem_of_parse hhost).1
  refine stripHost_of_no_bracket ?_ ?_
  · intro ds hds
    rw [ht, hcons, List.cons_append, List.cons.injEq] at hds
    exact hopen (by rw [hcons, hds.1]; exact List.mem_cons_self)
  · intro hempty
    rw [hempty, hcons] at ht
    simp at ht

/-- The host is recovered but for an IPv6 address without brackets. -/
private theorem stripHost_text_iff {host before after : String} {ip : IpAddr} (hhost : IpText.parse host = some ip)
    {form : Form} (hform : form.Fits ip) (hbefore : ∀ c ∈ before.toList, Text.isWhitespace c)
    (hafter : ∀ c ∈ after.toList, Text.isWhitespace c) :
    stripHost (before ++ form.text host ++ after) = host ↔ ¬(form = .bare ∧ ∃ octets, ip = .v6 octets) := by
  have htrim := (noWhitespace_text hhost form).trim_surrounded before after hbefore hafter
  cases ip with
  | v4 octets =>
    have hcolon := IpText.colon_notMem_of_parse_v4 hhost
    refine iff_of_true ?_ (by simp)
    rcases hform with rfl | ⟨p, rfl⟩
    · rw [stripHost_literal hhost [] (by rw [htrim, List.append_nil]; rfl), htrim, show Form.bare.text host =
        host from rfl, Text.split_of_notMem hcolon]
      rfl
    · have ht : ((Form.withPort p).text host).toList = host.toList ++ ':' :: (toString p.toNat).toList := by
        simp [Form.text]
      rw [stripHost_literal hhost _ (by rw [htrim, ht]), htrim, Text.split_of_append ht hcolon]
      rfl
  | v6 octets =>
    have hclose := (IpText.bracket_notMem_of_parse hhost).2
    rcases hform with rfl | rfl | ⟨p, rfl⟩
    · -- what is left of the first colon has none, but the address has
      refine iff_of_false ?_ (by simp)
      have hcolon := IpText.colon_mem_of_parse_v6 hhost
      obtain ⟨front, back, hsplit, hfront⟩ := List.eq_append_cons_of_mem hcolon
      rw [stripHost_literal hhost [] (by rw [htrim, List.append_nil]; rfl), htrim, show Form.bare.text host =
        host from rfl,
        Text.split_of_append (a := .ofList front) (b := .ofList back) (by simpa using hsplit) (by simpa using hfront)]
      intro heq
      have hlist : host.toList = front := by rw [← heq, List.headD_cons, String.toList_ofList]
      exact hfront (hlist ▸ hcolon)
    · refine iff_of_true (stripHost_bracketed "" ?_ hclose) (by simp)
      rw [htrim]
      simp [Form.text]
    · refine iff_of_true (stripHost_bracketed (":" ++ toString p.toNat) ?_ hclose) (by simp)
      rw [htrim, ← String.toList_inj]
      simp [Form.text]

/-! ### The dialled addresses -/

private theorem ip_new (ip : IpAddr) (p : UInt16) : (SocketAddr.new ip p).ip = ip := by
  cases ip with
  | v4 octets => rfl
  | v6 octets => rfl

private theorem mem_orderedPorts {reg : Registration} {p : UInt16} :
    p ∈ orderedPorts reg ↔ p ∈ reg.endpointPorts ∨ reg.endpointPorts = [] ∧ p = 443 := by
  have hports (ports : List UInt16) : p ∈ ports.filter (· ≠ 443) ++ (if 443 ∈ ports then [443] else []) ↔
      p ∈ ports := by
    rw [List.mem_append, List.mem_filter]
    by_cases hp : p = 443
    · subst hp
      by_cases hmem : (443 : UInt16) ∈ ports
      · simp [hmem]
      · simp [hmem]
    · by_cases hmem : (443 : UInt16) ∈ ports
      · simp [hp, hmem]
      · simp [hp, hmem]
  unfold orderedPorts
  dsimp only
  rw [hports]
  cases reg.endpointPorts with
  | nil => simp
  | cons q ports => simp

private theorem orderedPorts_ne_nil (reg : Registration) : orderedPorts reg ≠ [] := by
  cases hports : reg.endpointPorts with
  | nil => exact List.ne_nil_of_mem (mem_orderedPorts.2 (.inr ⟨hports, rfl⟩))
  | cons p ports => exact List.ne_nil_of_mem (mem_orderedPorts.2 (.inl (hports ▸ List.mem_cons_self)))

private theorem mem_edgeAddrs {reg : Registration} {addr : SocketAddr} :
    addr ∈ edgeAddrs reg ↔ ∃ host ip p, (host = reg.endpointV4 ∨ host = reg.endpointV6) ∧
    IpText.parse host = some ip ∧
      p ∈ orderedPorts reg ∧ addr = SocketAddr.new ip p := by
  unfold edgeAddrs
  rw [List.mem_flatMap]
  constructor
  · rintro ⟨host, hhost, haddr⟩
    split at haddr
    · rename_i ip hip
      obtain ⟨p, hp, rfl⟩ := List.mem_map.1 haddr
      exact ⟨host, ip, p, List.mem_pair.1 hhost, hip, hp, rfl⟩
    · cases haddr
  · rintro ⟨host, ip, p, hhost, hip, hp, rfl⟩
    refine ⟨host, List.mem_pair.2 hhost, ?_⟩
    rw [hip]
    exact List.mem_map.2 ⟨p, hp, rfl⟩

/-- The host is what was written around, and its address is dialled. -/
def Recovered (written host : String) (ip : IpAddr) : Prop :=
  stripHost written = host ∧ ∀ reg : Registration, reg.endpointV4 = stripHost written ∨
    reg.endpointV6 = stripHost written →
    ∃ addr ∈ edgeAddrs reg, addr.ip = ip

/-- The host of an endpoint is recovered, and its address dialled, exactly if the endpoint is not an IPv6 address
without brackets. -/
theorem stripHost_recovers_iff {host before after : String} {ip : IpAddr} (hhost : IpText.parse host = some ip)
    {form : Form} (hform : form.Fits ip) (hbefore : ∀ c ∈ before.toList, Text.isWhitespace c)
    (hafter : ∀ c ∈ after.toList, Text.isWhitespace c) :
    Recovered (before ++ form.text host ++ after) host ip ↔ ¬(form = .bare ∧ ∃ octets, ip = .v6 octets) := by
  have hiff := stripHost_text_iff hhost hform hbefore hafter
  constructor
  · exact fun h => hiff.1 h.1
  · intro h
    have hstrip := hiff.2 h
    refine ⟨hstrip, fun reg hreg => ?_⟩
    obtain ⟨p, hp⟩ := List.exists_mem_of_ne_nil _ (orderedPorts_ne_nil reg)
    refine ⟨SocketAddr.new ip p, mem_edgeAddrs.2 ⟨host, ip, p, ?_, hhost, hp, rfl⟩, ip_new ip p⟩
    rcases hreg with hreg | hreg
    · exact .inl (by rw [hreg, hstrip])
    · exact .inr (by rw [hreg, hstrip])

/-- In brackets and with a port, and whitespace around. -/
theorem stripHost_recovers_bracketed :
    Recovered (" " ++ (Form.inBracketsWithPort 443).text "2606:4700::1" ++ "\t") "2606:4700::1"
      (.v6 ⟨[38, 6, 71, 0, 0, 0, 0, 0, 0, 0, 0, 0, 0, 0, 0, 1], rfl⟩) := by
  have hform : (Form.inBracketsWithPort 443).Fits (.v6 ⟨[38, 6, 71, 0, 0, 0, 0, 0, 0, 0, 0, 0, 0, 0, 0, 1], rfl⟩) :=
    Or.inr (Or.inr ⟨443, rfl⟩)
  refine (stripHost_recovers_iff (by decide) hform ?_ ?_).2 (by simp)
  · intro c hc
    obtain rfl : c = ' ' := by simpa using hc
    decide
  · intro c hc
    obtain rfl : c = '\t' := by simpa using hc
    decide

/-- Of an IPv6 address without brackets the first group is left, and nothing is dialled. -/
theorem stripHost_loses_ipv6 :
    IpText.parse "2606:4700::1" = some (.v6 ⟨[38, 6, 71, 0, 0, 0, 0, 0, 0, 0, 0, 0, 0, 0, 0, 1], rfl⟩) ∧
      stripHost "2606:4700::1" = "2606" ∧ edgeAddrs ⟨"", stripHost "2606:4700::1", [500, 443], "", "", ""⟩ = [] := by
  decide

/-! ### The listed ports -/

/-- The addresses of an endpoint on these ports, if it is an address. -/
def block (ports : List UInt16) (s : String) : List SocketAddr :=
  match IpText.parse (stripHost s) with
  | some ip => ports.map (SocketAddr.new ip)
  | none => []

end WarpSocks.Masque
