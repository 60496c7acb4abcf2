import WarpSocks.Http.Service
import WarpSocks.Mixed.Accept
import WarpSocks.Socks4
import WarpSocks.Socks5.Answers

/-!
# One target in three protocols

A client of the mixed port names its target as the text of a host and a port.  In SOCKS5 and SOCKS4a the text is a
field of the request, in HTTP it is in the authority; SOCKS5 also has addresses as octets.  Whatever the client
speaks, the same text leads to the same call of `connect_tcp`.
-/

namespace WarpSocks.Mixed

open Socks5 (Session SessionM Outbound Sockets Handover dispatch Greeting ConnectRequest EncodesTarget)

/-- `dispatch`, with the handlers of the SOCKS protocols. -/
def serveSocks (outbound : Outbound) (sockets : Sockets) (httpProxy : SessionM Handover) :
    SessionM (Option Handover) :=
  dispatch (Socks5.handleClient outbound sockets) (Socks4.handleClient outbound) httpProxy

/-- `dispatch`, with the handlers of all protocols. -/
def serve (env : Http.Surroundings) (sockets : Sockets) (hyper : Session → Http.Served × Session) :
    SessionM (Option Handover) := fun s =>
  match s.reader.bytes.head?.map Protocol.ofFirstByte with
  | some .http => Http.handleClient env hyper s
  | _ => serveSocks env.outbound sockets (throw []) s

/-- The target is dialled once, a tunnel is made of the connection, and it gets what is behind the request. -/
def Dials (outbound : Outbound) (target : Host × UInt16) (payload : List UInt8)
    (run : Except Chain (Option Handover) × Session) : Prop :=
  run.2.dialled = [target] ∧ run.2.reader.bytes = payload ∧
    ∀ conn, outbound.connectTcp target.1 target.2 = .ok conn → ∃ display, run.1 = .ok (some (.tunnel display conn))

/-- The address field of a SOCKS5 request for an address. -/
def addressField : IpAddr → UInt8 × List UInt8
  | .v4 addr => (0x01, addr.val)
  | .v6 addr => (0x04, addr.val)

/-- The address field of a SOCKS5 request for a name. -/
def nameField (text : String) : UInt8 × List UInt8 :=
  (0x03, UInt8.ofNat (Text.asBytes text).length :: Text.asBytes text)

/-- What a SOCKS5 client that offers the methods sends for a target. -/
def socks5Bytes (methods : List UInt8) (field : UInt8 × List UInt8) (port : UInt16) : List UInt8 :=
  [0x05, UInt8.ofNat methods.length] ++ methods ++
    ([0x05, Socks5.CMD_CONNECT, 0x00, field.1] ++ field.2 ++ toBeBytes port)

/-- A text that fits into the fields of all three protocols. -/
structure Name where
  text : String
  clean : Http.Clean text
  noNul : 0 ∉ Text.asBytes text
  fits : (Text.asBytes text).length ≤ Socks4.MAX_DOMAIN_LEN

/-- The request of a SOCKS4a client for a name. -/
def Name.socks4 (name : Name) (port : UInt16) (userId : Socks4.CString Socks4.MAX_USERID_LEN) : Socks4.Request where
  port := port
  userId := userId
  dest := .name 1 (by decide) ⟨Text.asBytes name.text, name.noNul, name.fits⟩ name.text
    (dif_pos name.text.isValidUTF8)

section

variable {outbound : Outbound} {sockets : Sockets} {httpProxy : SessionM Handover} {s : Session}

private theorem map_some_run {result : Except Chain Handover} {s' : Session} {handler : SessionM Handover}
    (h : handler s = (result, s')) : ((some <$> handler) s).2 = s' ∧ ∀ handover, result = .ok handover →
      ((some <$> handler) s).1 = .ok (some handover) := by
  cases result with
  | ok handover =>
    rw [Machine.Action.map_ok h]
    exact ⟨rfl, fun handover' heq => by rw [Except.ok.inj heq]⟩
  | error e =>
    have hrun : (some <$> handler) s = (.error e, s') := Machine.Action.bind_error h
    rw [hrun]
    exact ⟨rfl, fun handover heq => by cases heq⟩

/-- Any CONNECT request of SOCKS5. -/
private theorem dials_socks5 {methods rest payload : List UInt8} {host : Host} {port : UInt16}
    (hstart : s.dialled = [])
    (hw : s.writer.fault = none) (hg : Greeting s.reader.bytes methods rest) (hmethods : 0x00 ∈ methods)
    (hreq : ConnectRequest rest host port payload) :
    Dials outbound (host, port) payload (serveSocks outbound sockets httpProxy s) := by
  have hhead : s.reader.bytes.head? = some 0x05 := by
    obtain ⟨n, -, hb⟩ := hg
    rw [hb]
    rfl
  unfold serveSocks
  rw [Socks5.dispatch_socks5 _ _ _ hhead]
  rcases Socks5.handleClient_cases outbound sockets hw with
    ⟨methods', rest', hg', -, answer, dialled, result, s', hrun, -, hdialled, hexit⟩ |
    ⟨methods', rest', e, s', hg', hno, -⟩ | ⟨hno, -⟩
  · obtain ⟨-, rfl⟩ := hg.unique hg'
    obtain ⟨hd, hunread, htunnel, hconn⟩ := hexit.connect hreq
    obtain ⟨hsession, hresult⟩ := map_some_run hrun
    refine ⟨?_, by rw [hsession, hunread], fun conn hok => ?_⟩
    · rw [hsession, hdialled, hd, hstart]
      rfl
    · have hreply := hexit.succeeded_iff.2 (.inl (hreq.connects_iff.2 ⟨conn, hok⟩))
      obtain ⟨display, conn', hok'⟩ := htunnel.1 hreply
      obtain rfl : conn = conn' := Except.ok.inj (hok.symm.trans (hconn display conn' hok'))
      exact ⟨display, hresult _ hok'⟩
  · obtain ⟨rfl, -⟩ := hg.unique hg'
    exact absurd hmethods hno
  · exact absurd hg (hno methods rest)

/-- A request of SOCKS4 with a marker the code knows. -/
private theorem dials_socks4 {req : Socks4.Request} {payload : List UInt8} (hstart : s.dialled = [])
    (hw : s.writer.fault = none) (hb : s.reader.bytes = req.wire ++ payload) (hreq : req.MarkerKnown) :
    Dials outbound (req.dest.host, req.port) payload (serveSocks outbound sockets httpProxy s) := by
  have hdispatch : serveSocks outbound sockets httpProxy s = (some <$> Socks4.handleClient outbound) s := by
    unfold serveSocks dispatch
    rw [hb]
    rfl
  obtain ⟨display, reader, rfl, hread⟩ := Socks4.readRequest_known req hreq hb
  obtain ⟨result, s', hrun, hdialled, rfl, hconn⟩ := Socks4.handleClient_run outbound hw hread
  obtain ⟨hsession, hresult⟩ := map_some_run hrun
  rw [hdispatch]
  refine ⟨?_, by rw [hsession], fun conn hok => ⟨display, hresult _ (hconn conn hok)⟩⟩
  rw [hsession, hdialled, hstart]
  rfl

end

section

variable {env : Http.Surroundings} {sockets : Sockets} {hyper : Session → Http.Served × Session} {s s' : Session}
    {b : UInt8}

private theorem serve_eq_serveSocks (hb : s.reader.bytes.head? = some b) (hsocks : b = 0x05 ∨ b = 0x04) :
    serve env sockets hyper s = serveSocks env.outbound sockets (throw []) s := by
  unfold serve
  rw [hb]
  rcases hsocks with rfl | rfl <;> rfl

/-- What a client that does not speak SOCKS sends is served as HTTP. -/
private theorem serve_eq_http (hb : s.reader.bytes.head? = some b) (h5 : b ≠ 0x05) (h4 : b ≠ 0x04) :
    serve env sockets hyper s = Http.handleClient env hyper s := by
  have hprotocol : Protocol.ofFirstByte b = .http := by
    unfold Protocol.ofFirstByte
    rw [if_neg h5, if_neg h4]
  unfold serve
  rw [hb, Option.map_some, hprotocol]

/-- A request of HTTP for a target, whatever its method. -/
private theorem dialled_http {r : Http.Request} {result : Except Chain Unit} {host : Host} {port : UInt16}
    {authority : String} (hread : hyper s = (⟨[r], result⟩, s')) (hfresh : s'.dialled = [])
    (htarget : Http.target env.parse r = .ok (host, port, authority)) :
    (Http.handleClient env hyper s).2.dialled = [(host, port)] := by
  have hdialled : (Http.Connection.run env [r]).dialled = [(host, port)] := by
    rw [Http.dialled_run, List.filterMap_cons, Http.Request.named, htarget]
    rfl
  unfold Http.handleClient
  rw [hread]
  cases result with
  | error e => simp only [hfresh, hdialled, List.nil_append]
  | ok _ => simp only [hfresh, hdialled, List.nil_append]

/-- A `CONNECT` request. -/
private theorem dials_http {r : Http.Request} {host : Host} {port : UInt16} {authority : String}
    (hread : hyper s = (⟨[r], .ok ()⟩, s')) (hfresh : s'.dialled = []) (hconnect : r.connect = true)
    (htarget : Http.target env.parse r = .ok (host, port, authority)) :
    Dials env.outbound (host, port) s'.reader.bytes (Http.handleClient env hyper s) := by
  refine ⟨dialled_http hread hfresh htarget, ?_, fun conn hconn => ⟨authority, ?_⟩⟩
  · unfold Http.handleClient
    rw [hread]
  · have hservice := Http.service_connect (c := .new) hconnect htarget hconn rfl
    unfold Http.handleClient
    rw [hread]
    simp only [Http.Connection.run, List.foldl_cons, List.foldl_nil, hservice, Option.map_some]

end

private theorem greeting_socks5Bytes {methods payload : List UInt8} (hlen : methods.length < 256)
    (field : UInt8 × List UInt8) (port : UInt16) :
    Greeting (socks5Bytes methods field port ++ payload) methods
      ([0x05, Socks5.CMD_CONNECT, 0x00, field.1] ++ (field.2 ++ toBeBytes port ++ payload)) := by
  refine ⟨UInt8.ofNat methods.length, (UInt8.toNat_ofNat_of_lt' hlen).symm, ?_⟩
  simp [socks5Bytes]

private theorem connectRequest_of_encodes {field : UInt8 × List UInt8} {host : Host} {port : UInt16}
    {payload : List UInt8} (h : EncodesTarget field.1 (field.2 ++ toBeBytes port) host port) :
    ConnectRequest ([0x05, Socks5.CMD_CONNECT, 0x00, field.1] ++
      (field.2 ++ toBeBytes port ++ payload)) host port payload :=
  ⟨field.1, field.2 ++ toBeBytes port, rfl, h⟩

private theorem encodes_address (ip : IpAddr) (port : UInt16) :
    EncodesTarget (addressField ip).1 ((addressField ip).2 ++ toBeBytes port) (.ip ip) port := by
  cases ip with
  | v4 addr =>
    have h := EncodesTarget.ipv4 addr (UInt8.ofNat (port.toNat / 256)) (UInt8.ofNat port.toNat)
    rw [fromBeBytes_toBeBytes] at h
    exact h
  | v6 addr =>
    have h := EncodesTarget.ipv6 addr (UInt8.ofNat (port.toNat / 256)) (UInt8.ofNat port.toNat)
    rw [fromBeBytes_toBeBytes] at h
    exact h

private theorem encodes_name (name : Name) (port : UInt16) :
    EncodesTarget (nameField name.text).1 ((nameField name.text).2 ++ toBeBytes port) (.parse name.text) port := by
  have hlen : (Text.asBytes name.text).length = (UInt8.ofNat (Text.asBytes name.text).length).toNat :=
    (UInt8.toNat_ofNat_of_lt' (Nat.lt_of_le_of_lt name.fits (by decide))).symm
  have h := EncodesTarget.name _ ⟨Text.asBytes name.text, hlen⟩ (UInt8.ofNat (port.toNat / 256))
    (UInt8.ofNat port.toNat) name.text (dif_pos name.text.isValidUTF8)
  rw [fromBeBytes_toBeBytes] at h
  exact h

private theorem Name.markerKnown (name : Name) (port : UInt16) (userId : Socks4.CString Socks4.MAX_USERID_LEN) :
    (name.socks4 port userId).MarkerKnown := by
  intro x hx
  obtain rfl : 1 = x := by
    have hx : [0, 0, 0, 1] = [0, 0, 0, x] := hx
    simpa using hx
  exact Nat.le_refl _

/-- A name that fits into all three protocols and a port other than 0 are dialled alike, as `Host::parse` reads
the name: by SOCKS5 and by SOCKS4a, however the bytes arrive and whatever is behind them, and by HTTP for what
hyper reads as a request with the authority, `CONNECT` or not; and if the name is the text of an address, by a
SOCKS5 request with the octets of the address too.  The tunnel of the SOCKS protocols and of `CONNECT` is made of
the connection. -/
theorem frontends_agree (env : Http.Surroundings) (sockets : Sockets) (hyper : Session → Http.Served × Session)
    (name : Name) (port : UInt16) (hport : port ≠ 0) :
    let dials (bytes : List UInt8) : Prop :=
      ∀ (payload : List UInt8) (seg : Wire.Segmentation) (fault : Option IoError),
        Dials env.outbound (.parse name.text, port) payload
          (serve env sockets hyper (.start (bytes ++ payload) seg fault))
    (∀ methods : List UInt8, methods.length < 256 → 0x00 ∈ methods →
      dials (socks5Bytes methods (nameField name.text) port) ∧
      ∀ ip, name.text = IpText.display ip → dials (socks5Bytes methods (addressField ip) port)) ∧
    (∀ userId, dials (name.socks4 port userId).wire) ∧
    ∀ (s s' : Session) (b : UInt8) (r : Http.Request) (result : Except Chain Unit),
      s.reader.bytes.head? = some b → b ≠ 0x05 → b ≠ 0x04 → hyper s = (⟨[r], result⟩, s') → s'.dialled = [] →
      r.authority = some ⟨Http.written name.text port⟩ →
      (r.connect = false → ∀ scheme, r.scheme = some scheme → scheme = "http") →
      (serve env sockets hyper s).2.dialled = [(.parse name.text, port)] ∧
      (r.connect = true → result = .ok () →
        Dials env.outbound (.parse name.text, port) s'.reader.bytes (serve env sockets hyper s)) := by
  intro dials
  refine ⟨fun methods hlen hmethods => ⟨fun payload seg fault => ?_, fun ip hip payload seg fault => ?_⟩,
    fun userId payload seg fault => ?_, fun s s' b r result hb h5 h4 hread hfresh hauthority hscheme => ?_⟩
  · rw [serve_eq_serveSocks rfl (.inl rfl)]
    exact dials_socks5 rfl rfl (greeting_socks5Bytes hlen _ port) hmethods
      (connectRequest_of_encodes (encodes_name name port))
  · have hhost : Host.parse name.text = .ip ip := by
      unfold Host.parse
      rw [hip, IpText.parse_display]
    rw [hhost, serve_eq_serveSocks rfl (.inl rfl)]
    exact dials_socks5 rfl rfl (greeting_socks5Bytes hlen _ port) hmethods
      (connectRequest_of_encodes (encodes_address ip port))
  · rw [serve_eq_serveSocks rfl (.inr rfl)]
    exact dials_socks4 rfl rfl rfl (name.markerKnown port userId)
  · obtain ⟨connect, scheme, authority, headers⟩ := r
    obtain rfl : authority = some ⟨Http.written name.text port⟩ := hauthority
    have htarget : Http.target env.parse ⟨connect, scheme, some ⟨Http.written name.text port⟩, headers⟩ =
        .ok (.parse name.text, port, Http.written name.text port) :=
      Http.target_written name.clean connect headers hscheme hport
    rw [serve_eq_http hb h5 h4]
    exact ⟨dialled_http hread hfresh htarget, fun hconnect hok => dials_http (hok ▸ hread) hfresh hconnect htarget⟩

private theorem clean_short : Http.Clean "a" := by
  refine ⟨by decide, fun c hc => ?_⟩
  have hc : c ∈ ['a'] := hc
  rw [List.mem_singleton] at hc
  rw [hc]
  decide

/-- The name `a` on port 80, by SOCKS5, by SOCKS4a, and by a `CONNECT` with bytes behind its head. -/
theorem frontends_agree_short :
    let outbound : Outbound := ⟨"test", false, fun _ _ => .ok ⟨⟨[], none⟩, none⟩⟩
    let env : Http.Surroundings := ⟨outbound, fun text => .ok ⟨text⟩, fun _ _ => .error []⟩
    let sockets : Sockets := ⟨.error earlyEof, fun _ => .error earlyEof⟩
    let head : List UInt8 := Text.asBytes "CONNECT a:80 HTTP/1.1\r\n\r\n"
    let connect : Http.Request := ⟨true, none, some ⟨Http.written "a" 80⟩, ∅⟩
    let hyper (s : Session) : Http.Served × Session :=
      if s.reader.bytes.take head.length = head then
        (⟨[connect], .ok ()⟩, { s with reader := { s.reader with bytes := s.reader.bytes.drop head.length } })
      else (⟨[], .ok ()⟩, s)
    let name : Name := ⟨"a", clean_short, by decide, by decide⟩
    let single : Wire.Segmentation := ⟨fun _ => 1, fun _ => by decide⟩
    socks5Bytes [0] (nameField "a") 80 = [5, 1, 0, 5, 1, 0, 3, 1, 97, 0, 80] ∧
    Dials outbound (.parse "a", 80) [104, 105] (serve env sockets hyper
      (.start (socks5Bytes [0] (nameField "a") 80 ++ [104, 105]) single none)) ∧
    Dials outbound (.parse "a", 80) [104, 105] (serve env sockets hyper
      (.start ((name.socks4 80 ⟨[], by decide, by decide⟩).wire ++ [104, 105]) single none)) ∧
    Dials outbound (.parse "a", 80) [104, 105] (serve env sockets hyper
      (.start (head ++ [104, 105]) single none)) := by
  intro outbound env sockets head connect hyper name single
  obtain ⟨hsocks5, hsocks4, hhttp⟩ := frontends_agree env sockets hyper name 80 (by decide)
  have hread : hyper (.start (head ++ [104, 105]) single none) =
      (⟨[connect], .ok ()⟩, .start [104, 105] single none) := by
    simp only [hyper, Session.start, List.take_left, List.drop_left, if_pos]
  exact ⟨by decide, (hsocks5 [0] (by decide) (by decide)).1 _ _ _, hsocks4 _ _ _ _,
    (hhttp _ _ 67 _ _ (by decide) (by decide) (by decide) hread rfl rfl nofun).2 rfl rfl⟩

end WarpSocks.Mixed
