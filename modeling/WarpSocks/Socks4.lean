import WarpSocks.Socks5.Replies

/-!
# SOCKS4 sessions

`handle_client` of `socks4.rs`, up to the point where the stream is handed to the tunnel.  How many bytes belong
to a request depends on its address: a SOCKS4a request has a name behind the user id and is marked by an address
`0.0.0.x`.  The code knows the marker `0.0.0.1` only, and takes every other address as the target.
-/

namespace WarpSocks.Socks4

open Machine (Action)
open Socks5 (Session SessionM Outbound Handover Target readExact readPort writeAll ignore)

def CMD_CONNECT : UInt8 := 0x01

def GRANTED : UInt8 := 0x5a

def REJECTED : UInt8 := 0x5b

def SOCKS4A_SENTINEL : List UInt8 := [0, 0, 0, 1]

def MAX_USERID_LEN : Nat := 1024

def MAX_DOMAIN_LEN : Nat := 253

/-- `client.read_u8`. -/
def readU8 : SessionM UInt8 := fun s =>
  match s.reader.readExact ⟨.unexpectedEof, "unexpected end of file"⟩ 1 with
  | (.ok bytes, reader) => (.ok (bytes.getD 0 0), { s with reader })
  | (.error e, reader) => (.error [e.msg], { s with reader })

/-- The loop of `read_cstring`, for the number of bytes that still fit into the buffer. -/
def readCstringLoop (maxLen : Nat) : Nat → List UInt8 → SessionM (List UInt8)
  | 0, buf => do
    let b ← readU8
    if b = 0 then return buf
    else throw [s!"SOCKS4 字符串超过 {maxLen} 字节上限"]
  | room + 1, buf => do
    let b ← readU8
    if b = 0 then return buf
    else readCstringLoop maxLen room (buf ++ [b])

/-- `read_cstring`. -/
def readCstring (maxLen : Nat) : SessionM String := stringFromUtf8Lossy <$> readCstringLoop maxLen maxLen []

/-- `reply`. -/
def reply (code : UInt8) : SessionM Unit := writeAll [0x00, code, 0, 0, 0, 0, 0, 0]

/-- The part of the handshake behind the address.  The user id does not matter. -/
def readDestination (port : UInt16) (ip : Octets 4) : SessionM Target := do
  let _username ← readCstring MAX_USERID_LEN
  if ip.val = SOCKS4A_SENTINEL then
    let name ← readCstring MAX_DOMAIN_LEN
    return ⟨.parse name, port, s!"{name}:{port.toNat}"⟩
  else return ⟨.ip (.v4 ip), port, s!"{IpText.display (.v4 ip)}:{port.toNat}"⟩

/-- The handshake of `handle_client`. -/
def readRequest : SessionM Target := do
  -- `dispatch` only looked at the version
  let _version ← readU8
  let cmd ← readU8
  if cmd ≠ CMD_CONNECT then
    ignore (reply REJECTED)
    throw [s!"SOCKS4 不支持的命令: {cmd.toNat}"]
  else
    let port ← readPort
    let ip ← readExact 4
    readDestination port ip

/-- `handle_client`, up to the tunnel. -/
def handleClient (outbound : Outbound) : SessionM Handover := do
  let target ← readRequest
  modify fun s => { s with dialled := s.dialled ++ [(target.host, target.port)] }
  match outbound.connectTcp target.host target.port with
  | .error e =>
    ignore (reply REJECTED)
    throw [s!"隧道内连接 {target.display} 失败", e.msg]
  | .ok conn =>
    reply GRANTED
    return .tunnel target.display conn

/-- A text without NUL that is not too long. -/
structure CString (maxLen : Nat) where
  bytes : List UInt8
  noNul : 0 ∉ bytes
  fits : bytes.length ≤ maxLen

/-- Its bytes, with the NUL that ends it. -/
def CString.wire {maxLen : Nat} (c : CString maxLen) : List UInt8 := c.bytes ++ [0]

/-- The destination of a request: an address, or a name with the marker `0.0.0.x`, where `x` is not zero. -/
inductive Destination where
  | address (ip : Octets 4) (plain : ∀ x, ip.val = [0, 0, 0, x] → x = 0)
  | name (x : UInt8) (marker : x ≠ 0) (domain : CString MAX_DOMAIN_LEN) (text : String)
      (valid : stringFromUtf8 domain.bytes = some text)

namespace Destination

/-- The field DSTIP. -/
def dstIp : Destination → Octets 4
  | address ip _ => ip
  | name x _ _ _ _ => Ipv4Addr.new 0 0 0 x

/-- What stands behind the user id. -/
def suffix : Destination → List UInt8
  | address _ _ => []
  | name _ _ domain _ _ => domain.wire

/-- The host it stands for: a name that spells an address is that address. -/
def host : Destination → Host
  | address ip _ => .ip (.v4 ip)
  | name _ _ _ text _ => .parse text

end Destination

/-- A CONNECT request. -/
structure Request where
  port : UInt16
  userId : CString MAX_USERID_LEN
  dest : Destination

/-- Its bytes. -/
def Request.wire (req : Request) : List UInt8 :=
  [0x04, CMD_CONNECT] ++ (toBeBytes req.port ++ (req.dest.dstIp.val ++ (req.userId.wire ++ req.dest.suffix)))

section Reading

variable {s : Session} {y : List UInt8}

private theorem readU8_run {b : UInt8} (h : s.reader.bytes = b :: y) :
    ∃ reader, reader.bytes = y ∧ readU8 s = (.ok b, s.at reader) := by
  obtain ⟨reader, hread, hb, -⟩ :=
    s.reader.readExact_of_le ⟨.unexpectedEof, "unexpected end of file"⟩ [b] y h
  refine ⟨reader, hb, ?_⟩
  simp only [readU8, show (1 : Nat) = [b].length from rfl, hread]
  rfl

/-- The bytes up to the NUL are appended to the buffer. -/
private theorem readCstringLoop_run (maxLen room : Nat) (buf bytes : List UInt8) (hnul : 0 ∉ bytes)
    (hfits : bytes.length ≤ room) (h : s.reader.bytes = bytes ++ [0] ++ y) :
    ∃ reader, reader.bytes = y ∧ readCstringLoop maxLen room buf s = (.ok (buf ++ bytes), s.at reader) := by
  induction bytes generalizing s room buf with
  | nil =>
    obtain ⟨reader, hb, hread⟩ := readU8_run h
    refine ⟨reader, hb, ?_⟩
    rw [List.append_nil]
    cases room <;> exact Action.bind_ok hread
  | cons b bytes ih =>
    obtain ⟨room, rfl⟩ : ∃ room', room = room' + 1 := ⟨room - 1, by rw [List.length_cons] at hfits; omega⟩
    have hb : b ≠ 0 := fun hb => hnul (hb ▸ List.mem_cons_self)
    obtain ⟨r₁, hb₁, h₁⟩ := readU8_run h
    obtain ⟨r₂, hb₂, h₂⟩ := @ih (s.at r₁) room (buf ++ [b]) (fun hmem => hnul (List.mem_cons_of_mem b hmem))
      (Nat.le_of_succ_le_succ hfits) hb₁
    refine ⟨r₂, hb₂, ?_⟩
    rw [readCstringLoop, Action.bind_ok h₁, if_neg hb, h₂, List.append_assoc]
    rfl

private theorem readCstring_run {maxLen : Nat} (c : CString maxLen) (h : s.reader.bytes = c.wire ++ y) :
    ∃ reader, reader.bytes = y ∧ readCstring maxLen s = (.ok (stringFromUtf8Lossy c.bytes), s.at reader) := by
  obtain ⟨reader, hb, hread⟩ := readCstringLoop_run maxLen maxLen [] c.bytes c.noNul c.fits h
  exact ⟨reader, hb, Action.map_ok hread⟩

private theorem readPort_run {port : UInt16} (h : s.reader.bytes = toBeBytes port ++ y) :
    ∃ reader, reader.bytes = y ∧ readPort s = (.ok port, s.at reader) := by
  obtain ⟨reader, hb, hread⟩ := Socks5.readExact_run (n := 2) (x := ⟨toBeBytes port, rfl⟩) h
  refine ⟨reader, hb, ?_⟩
  rw [readPort, Action.bind_ok hread]
  exact congrArg (fun p => (Except.ok p, s.at reader)) (fromBeBytes_toBeBytes port)

/-- The fields of fixed length are read as they are. -/
private theorem readRequest_fields (port : UInt16) (ip : Octets 4) (version : UInt8)
    (h : s.reader.bytes = version :: CMD_CONNECT :: (toBeBytes port ++ (ip.val ++ y))) :
    ∃ reader, reader.bytes = y ∧ readRequest s = readDestination port ip (s.at reader) := by
  obtain ⟨r₁, hb₁, h₁⟩ := readU8_run h
  obtain ⟨r₂, hb₂, h₂⟩ := @readU8_run (s.at r₁) _ _ hb₁
  obtain ⟨r₃, hb₃, h₃⟩ := @readPort_run (s.at r₂) _ _ hb₂
  obtain ⟨r₄, hb₄, h₄⟩ := @Socks5.readExact_run (s.at r₃) _ ip _ hb₃
  refine ⟨r₄, hb₄, ?_⟩
  rw [readRequest, Action.bind_ok h₁, Action.bind_ok h₂, if_neg (not_not_intro rfl), Action.bind_ok h₃,
    Action.bind_ok h₄]

private theorem readDestination_address {port : UInt16} {ip : Octets 4} (hip : ip.val ≠ SOCKS4A_SENTINEL)
    (userId : CString MAX_USERID_LEN) (h : s.reader.bytes = userId.wire ++ y) :
    ∃ display reader, reader.bytes = y ∧ readDestination port ip s =
      (.ok ⟨.ip (.v4 ip), port, display⟩, s.at reader) := by
  obtain ⟨reader, hb, hread⟩ := readCstring_run userId h
  refine ⟨s!"{IpText.display (.v4 ip)}:{port.toNat}", reader, hb, ?_⟩
  rw [readDestination, Action.bind_ok hread, if_neg hip]
  rfl

private theorem readDestination_name {port : UInt16} {ip : Octets 4} (hip : ip.val = SOCKS4A_SENTINEL)
    (userId : CString MAX_USERID_LEN) (domain : CString MAX_DOMAIN_LEN) {text : String}
    (htext : stringFromUtf8 domain.bytes = some text) (h : s.reader.bytes = userId.wire ++ (domain.wire ++ y)) :
    ∃ display reader, reader.bytes = y ∧ readDestination port ip s =
      (.ok ⟨.parse text, port, display⟩, s.at reader) := by
  obtain ⟨r₁, hb₁, h₁⟩ := readCstring_run userId h
  obtain ⟨r₂, hb₂, h₂⟩ := @readCstring_run (s.at r₁) _ _ domain hb₁
  have hlossy : stringFromUtf8Lossy domain.bytes = text := by rw [stringFromUtf8Lossy, htext]; rfl
  refine ⟨s!"{text}:{port.toNat}", r₂, hb₂, ?_⟩
  rw [readDestination, Action.bind_ok h₁, if_pos hip, Action.bind_ok h₂, hlossy]
  rfl

/-- The marker is one the code knows. -/
def Request.MarkerKnown (req : Request) : Prop := ∀ x, req.dest.dstIp.val = [0, 0, 0, x] → x ≤ 1

/-- A request with a known marker is read as it is meant, and nothing behind it is. -/
theorem readRequest_known (req : Request) (hreq : req.MarkerKnown) (h : s.reader.bytes = req.wire ++ y) :
    ∃ display reader, reader.bytes = y ∧ readRequest s = (.ok ⟨req.dest.host, req.port, display⟩, s.at reader) := by
  obtain ⟨port, userId, dest⟩ := req
  obtain ⟨r₁, hb₁, h₁⟩ := readRequest_fields (y := userId.wire ++ (dest.suffix ++ y)) port dest.dstIp 0x04
    (by rw [h, Request.wire]; simp)
  cases dest with
  | address ip plain =>
    have hip : ip.val ≠ SOCKS4A_SENTINEL := fun hip => absurd (plain 1 hip) (by decide)
    obtain ⟨display, r₂, hb₂, h₂⟩ := @readDestination_address (s.at r₁) y port ip hip userId hb₁
    exact ⟨display, r₂, hb₂, h₁.trans h₂⟩
  | name x marker domain text valid =>
    have hle : x ≤ 1 := hreq x rfl
    obtain rfl : x = 1 := by
      have hpos : x.toNat ≠ 0 := fun hx => marker (UInt8.toNat_inj.1 hx)
      have hle : x.toNat ≤ 1 := hle
      exact UInt8.toNat_inj.1 (by rw [show (1 : UInt8).toNat = 1 from rfl]; omega)
    obtain ⟨display, r₂, hb₂, h₂⟩ :=
      @readDestination_name (s.at r₁) y port (Ipv4Addr.new 0 0 0 1) rfl userId domain text valid hb₁
    exact ⟨display, r₂, hb₂, h₁.trans h₂⟩

/-- Any other marker is taken as the target, and the name is left in the stream. -/
private theorem readRequest_unknown (req : Request) (hreq : ¬req.MarkerKnown) (h : s.reader.bytes = req.wire ++ y) :
    ∃ display reader, reader.bytes = req.dest.suffix ++ y ∧
      readRequest s = (.ok ⟨.ip (.v4 req.dest.dstIp), req.port, display⟩, s.at reader) := by
  obtain ⟨r₁, hb₁, h₁⟩ := readRequest_fields (y := req.userId.wire ++ (req.dest.suffix ++ y)) req.port
    req.dest.dstIp 0x04 (by rw [h, Request.wire]; simp)
  have hip : req.dest.dstIp.val ≠ SOCKS4A_SENTINEL := by
    intro hip
    refine hreq fun x hx => ?_
    cases hip.symm.trans hx
    decide
  obtain ⟨display, r₂, hb₂, h₂⟩ := @readDestination_address (s.at r₁) _ req.port _ hip req.userId hb₁
  exact ⟨display, r₂, hb₂, h₁.trans h₂⟩

end Reading

/-- Behind the handshake the target is dialled once, and nothing more is read. -/
theorem handleClient_run (outbound : Outbound) {s : Session} (hw : s.writer.fault = none) {target : Target}
    {reader : Wire.Reader IoError} (h : readRequest s = (.ok target, s.at reader)) :
    ∃ result s', handleClient outbound s = (result, s') ∧ s'.dialled = s.dialled ++ [(target.host, target.port)] ∧
      s'.reader = reader ∧
      ∀ conn, outbound.connectTcp target.host target.port = .ok conn →
        result = .ok (.tunnel target.display conn) := by
  let dialled : Session := { s.at reader with dialled := s.dialled ++ [(target.host, target.port)] }
  have hdialled :
      (modify fun s : Session => { s with dialled := s.dialled ++ [(target.host, target.port)] } : SessionM Unit)
      (s.at reader) = (.ok (), dialled) := rfl
  have hreply (code : UInt8) : reply code dialled = (.ok (), dialled.answer [0x00, code, 0, 0, 0, 0, 0, 0]) :=
    @Socks5.writeAll_run dialled hw _
  rw [handleClient, Action.bind_ok h, Action.bind_ok hdialled]
  cases hconn : outbound.connectTcp target.host target.port with
  | error e =>
    have hignored : ignore (reply REJECTED) dialled =
        (.ok (), dialled.answer [0x00, REJECTED, 0, 0, 0, 0, 0, 0]) := by
      rw [ignore, hreply]
    exact ⟨_, _, Action.bind_ok hignored, rfl, rfl, fun conn hc => by cases hc⟩
  | ok conn =>
    exact ⟨_, _, Action.bind_ok (hreply GRANTED), rfl, rfl, fun conn' hc => by cases hc; rfl⟩

/-- What the protocol says about a request: its host is dialled on its port, and a tunnel carries the payload from
its first byte on. -/
def Serves (outbound : Outbound) (req : Request) (payload : List UInt8) (s : Session) : Prop :=
  let run := handleClient outbound s
  run.2.dialled = s.dialled ++ [(req.dest.host, req.port)] ∧ run.2.reader.bytes = payload ∧
  ∀ conn, outbound.connectTcp req.dest.host req.port = .ok conn →
    (∃ display, run.1 = .ok (.tunnel display conn)) ∧
    (conn.upstream.fault = none → ∀ rounds,
      let upload := Relay.copy rounds run.2.reader conn.upstream
      upload.2.2.written ++ upload.2.1.bytes = conn.upstream.written ++ payload ∧
        (payload.length < rounds → upload.2.2.written = conn.upstream.written ++ payload))

private theorem serves_of_known (outbound : Outbound) {req : Request} {payload : List UInt8} {s : Session}
    (hw : s.writer.fault = none) (hb : s.reader.bytes = req.wire ++ payload) (hreq : req.MarkerKnown) :
    Serves outbound req payload s := by
  obtain ⟨display, reader, rfl, hread⟩ := readRequest_known req hreq hb
  obtain ⟨result, s', hrun, hdialled, rfl, hconn⟩ := handleClient_run outbound hw hread
  unfold Serves
  simp only [hrun]
  refine ⟨hdialled, trivial, fun conn hc => ⟨⟨display, hconn conn hc⟩, fun hup rounds => ?_⟩⟩
  exact Relay.copy_exact rounds s'.reader conn.upstream hup

/-- The name of an unknown marker is left to the tunnel. -/
private theorem unread_of_unknown (outbound : Outbound) {req : Request} {payload : List UInt8} {s : Session}
    (hw : s.writer.fault = none) (hb : s.reader.bytes = req.wire ++ payload) (hreq : ¬req.MarkerKnown) :
    (handleClient outbound s).2.dialled = s.dialled ++ [(.ip (.v4 req.dest.dstIp), req.port)] ∧
      (handleClient outbound s).2.reader.bytes = req.dest.suffix ++ payload := by
  obtain ⟨display, reader, hunread, hread⟩ := readRequest_unknown req hreq hb
  obtain ⟨result, s', hrun, hdialled, rfl, -⟩ := handleClient_run outbound hw hread
  rw [hrun]
  exact ⟨hdialled, hunread⟩

private theorem suffix_ne_nil {req : Request} (hreq : ¬req.MarkerKnown) : req.dest.suffix ≠ [] := by
  obtain ⟨port, userId, dest⟩ := req
  cases dest with
  | address ip plain =>
    refine absurd (fun x hx => ?_) hreq
    rw [plain x hx]
    decide
  | name x marker domain text valid => exact List.append_ne_nil_of_right_ne_nil _ (List.cons_ne_nil 0 [])

/-- A request is served as the protocol says if and only if its address is not `0.0.0.x` with `x` from 2 on. -/
theorem handleClient_serves_iff (outbound : Outbound) (req : Request) (payload : List UInt8) (seg : Wire.Segmentation)
    (fault : Option IoError) :
    Serves outbound req payload (.start (req.wire ++ payload) seg fault) ↔
      ∀ x : UInt8, req.dest.dstIp.val = [0, 0, 0, x] → x ≤ 1 := by
  refine ⟨fun h => ?_, serves_of_known outbound rfl rfl⟩
  refine Classical.byContradiction fun hreq => ?_
  obtain ⟨-, hunread⟩ := unread_of_unknown outbound (s := .start (req.wire ++ payload) seg fault) rfl rfl hreq
  obtain ⟨-, hserved, -⟩ := h
  exact suffix_ne_nil hreq (List.append_left_eq_self.1 (hunread.symm.trans hserved))

/-- The marker `0.0.0.1`, the name `a`, port 80 and the payload `hi`. -/
theorem handleClient_serves_iff_sentinel :
    let req : Request := ⟨80, ⟨[], by decide, by decide⟩, .name 1 (by decide) ⟨[97], by decide, by decide⟩ "a" rfl⟩
    Serves ⟨"test", false, fun _ _ => .ok ⟨⟨[], none⟩, none⟩⟩ req [104, 105]
      (.start (req.wire ++ [104, 105]) ⟨fun _ => 1, fun _ => by decide⟩ none) :=
  (handleClient_serves_iff _ _ _ _ _).2 fun x hx => by cases hx; decide

/-- With the marker `0.0.0.2` the marker itself is dialled, and the name goes ahead of the payload. -/
theorem handleClient_leaks_name :
    let outbound : Outbound := ⟨"test", false, fun _ _ => .ok ⟨⟨[], none⟩, none⟩⟩
    let req : Request := ⟨80, ⟨[], by decide, by decide⟩, .name 2 (by decide) ⟨[97], by decide, by decide⟩ "a" rfl⟩
    let s : Session := .start (req.wire ++ [104, 105]) ⟨fun _ => 1, fun _ => by decide⟩ none
    req.wire = [4, 1, 0, 80, 0, 0, 0, 2, 0, 97, 0] ∧
      (handleClient outbound s).2.dialled = [(.ip (.v4 (Ipv4Addr.new 0 0 0 2)), 80)] ∧
      (handleClient outbound s).2.reader.bytes = [97, 0, 104, 105] ∧ ¬Serves outbound req [104, 105] s := by
  intro outbound req s
  have hreq : ¬req.MarkerKnown := fun h => absurd (h 2 rfl) (by decide)
  obtain ⟨hdialled, hunread⟩ := unread_of_unknown outbound (s := s) rfl rfl hreq
  refine ⟨by decide, hdialled, hunread, fun hserves => ?_⟩
  have hlen := congrArg List.length (hunread.symm.trans hserves.2.1)
  exact absurd hlen (by decide)

end WarpSocks.Socks4
