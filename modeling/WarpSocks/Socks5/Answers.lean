import WarpSocks.Socks5.Replies

/-!
# One answer, and the stream untouched

Which of the four replies a session sends, as conditions on the bytes of the client and the answers of the
backend, and what the tunnel gets: the bytes behind the request, all of them and no others.
-/

namespace WarpSocks.Socks5

open Machine (Action)

/-- One reply message with the code. -/
def IsReply (rep : UInt8) (answer : List UInt8) : Prop := ∃ addr, answer = replyMessage rep addr

/-- The backend connects to the target of the request. -/
def Connects (outbound : Outbound) (rest : List UInt8) : Prop :=
  ∃ host port tail conn, ConnectRequest rest host port tail ∧ outbound.connectTcp host port = .ok conn

/-- The backend does not connect to the target of the request. -/
def Refuses (outbound : Outbound) (rest : List UInt8) : Prop :=
  ∃ host port tail e, ConnectRequest rest host port tail ∧ outbound.connectTcp host port = .error e

/-- The association can be set up. -/
def Associates (outbound : Outbound) (sockets : Sockets) (rest : List UInt8) : Prop :=
  AssociateRequest rest ∧ outbound.supportsUdp = true ∧ ∃ relayAddr, sockets.relayAddr = .ok relayAddr

private theorem isReply_replyMessage {rep rep' : UInt8} {addr : SocketAddr} :
    IsReply rep (replyMessage rep' addr) ↔ rep = rep' := by
  constructor
  · rintro ⟨addr', h⟩
    have hcode := congrArg (fun m => m.getD 1 0) h
    cases addr <;> cases addr' <;> exact hcode.symm
  · rintro rfl
    exact ⟨addr, rfl⟩

private theorem not_isReply_nil {rep : UInt8} : ¬IsReply rep [] := by
  rintro ⟨addr, h⟩
  cases addr <;> nomatch h

private theorem AddressField.mem {atyp : UInt8} {enc : List UInt8} (h : AddressField atyp enc) :
    atyp ∈ [0x01, 0x03, 0x04] := by
  cases h <;> decide

/-- The kinds of requests. -/
inductive Kind where
  | noHeader
  | command
  | addressType
  | field
  | associate
  | target
  | connect
  deriving DecidableEq

open Classical in
/-- The kind of the request.  The conditions on a request exclude each other because each says of which kind it
is. -/
noncomputable def kindOf (rest : List UInt8) : Kind :=
  match header rest with
  | none => .noHeader
  | some (cmd, atyp, tail) =>
    if cmd ∉ [CMD_CONNECT, CMD_UDP_ASSOCIATE] then .command
    else if atyp ∉ [0x01, 0x03, 0x04] then .addressType
    else if cmd = CMD_UDP_ASSOCIATE then if NoField atyp tail then .field else .associate
    else if NoTarget atyp tail then .target
    else .connect

section Kinds

variable {rest : List UInt8}

@[grind →]
theorem kindOf_eq_noHeader (h : header rest = none) : kindOf rest = .noHeader := by
  simp only [kindOf, h]

@[grind →]
theorem UnsupportedCommand.kind (h : UnsupportedCommand rest) : kindOf rest = .command := by
  obtain ⟨cmd, atyp, tail, hh, hc⟩ := h
  simp only [kindOf, hh]
  rw [if_pos hc]

@[grind →]
theorem UnsupportedAddressType.kind (h : UnsupportedAddressType rest) : kindOf rest = .addressType := by
  obtain ⟨cmd, atyp, tail, hh, hc, ha⟩ := h
  simp only [kindOf, hh]
  rw [if_neg (not_not_intro hc), if_pos ha]

@[grind →]
theorem UnreadableTarget.kind (h : UnreadableTarget rest) : kindOf rest = .target := by
  obtain ⟨atyp, tail, hh, ha, hno⟩ := h
  simp only [kindOf, hh]
  rw [if_neg (by decide), if_neg (not_not_intro ha), if_neg (by decide), if_pos hno]

@[grind →]
theorem UnreadableField.kind (h : UnreadableField rest) : kindOf rest = .field := by
  obtain ⟨atyp, tail, hh, ha, hno⟩ := h
  simp only [kindOf, hh]
  rw [if_neg (by decide), if_neg (not_not_intro ha), if_pos trivial, if_pos hno]

@[grind →]
theorem AssociateRequest.kind (h : AssociateRequest rest) : kindOf rest = .associate := by
  obtain ⟨atyp, enc, tail, hh, hf⟩ := h
  have hno : ¬NoField atyp (enc ++ tail) := fun hno => hno enc tail rfl hf
  simp only [kindOf, hh]
  rw [if_neg (by decide), if_neg (not_not_intro hf.mem), if_pos trivial, if_neg hno]

@[grind →]
theorem ConnectRequest.kind {host : Host} {port : UInt16} {tail : List UInt8}
    (h : ConnectRequest rest host port tail) :
    kindOf rest = .connect := by
  obtain ⟨atyp, enc, hh, he⟩ := h
  have hno : ¬NoTarget atyp (enc ++ tail) := fun hno => hno enc tail host port rfl he
  simp only [kindOf, hh]
  rw [if_neg (by decide), if_neg (not_not_intro he.field.mem), if_neg (by decide), if_neg hno]

/-- Bytes encode at most one target. -/
theorem EncodesTarget.unique {atyp : UInt8} {enc enc' tail tail' : List UInt8} {host host' : Host}
    {port port' : UInt16}
    (h : EncodesTarget atyp enc host port) (h' : EncodesTarget atyp enc' host' port')
    (hb : enc ++ tail = enc' ++ tail') :
    host' = host ∧ port' = port ∧ tail' = tail := by
  cases h with
  | ipv4 addr hi lo =>
    cases h' with
    | ipv4 addr' hi' lo' =>
      simp only [List.append_assoc, List.cons_append, List.nil_append] at hb
      obtain ⟨ha, hb⟩ := List.append_inj hb (by rw [addr.property, addr'.property])
      cases hb
      rw [Subtype.ext ha]
      exact ⟨rfl, rfl, rfl⟩
  | ipv6 addr hi lo =>
    cases h' with
    | ipv6 addr' hi' lo' =>
      simp only [List.append_assoc, List.cons_append, List.nil_append] at hb
      obtain ⟨ha, hb⟩ := List.append_inj hb (by rw [addr.property, addr'.property])
      cases hb
      rw [Subtype.ext ha]
      exact ⟨rfl, rfl, rfl⟩
  | name len name hi lo text htext =>
    cases h' with
    | name len' name' hi' lo' text' htext' =>
      simp only [List.append_assoc, List.cons_append, List.nil_append, List.cons.injEq] at hb
      obtain ⟨rfl, hb⟩ := hb
      obtain ⟨ha, hb⟩ := List.append_inj hb (by rw [name.property, name'.property])
      cases hb
      rw [ha, htext'] at htext
      cases htext
      exact ⟨rfl, rfl, rfl⟩

private theorem ConnectRequest.unique {host host' : Host} {port port' : UInt16} {tail tail' : List UInt8}
    (h : ConnectRequest rest host port tail) (h' : ConnectRequest rest host' port' tail') :
    host' = host ∧ port' = port ∧ tail' = tail := by
  obtain ⟨atyp, enc, hh, he⟩ := h
  obtain ⟨atyp', enc', hh', he'⟩ := h'
  rw [hh] at hh'
  simp only [Option.some.injEq, Prod.mk.injEq, true_and] at hh'
  obtain ⟨rfl, hb⟩ := hh'
  exact he.unique he' hb

theorem ConnectRequest.connects_iff {outbound : Outbound} {host : Host} {port : UInt16} {tail : List UInt8}
    (h : ConnectRequest rest host port tail) :
    Connects outbound rest ↔ ∃ conn, outbound.connectTcp host port = .ok conn := by
  constructor
  · rintro ⟨host', port', tail', conn, h', hc⟩
    obtain ⟨rfl, rfl, -⟩ := h.unique h'
    exact ⟨conn, hc⟩
  · rintro ⟨conn, hc⟩
    exact ⟨host, port, tail, conn, h, hc⟩

private theorem ConnectRequest.refuses_iff {outbound : Outbound} {host : Host} {port : UInt16} {tail : List UInt8}
    (h : ConnectRequest rest host port tail) :
    Refuses outbound rest ↔ ∃ e, outbound.connectTcp host port = .error e := by
  constructor
  · rintro ⟨host', port', tail', e, h', hc⟩
    obtain ⟨rfl, rfl, -⟩ := h.unique h'
    exact ⟨e, hc⟩
  · rintro ⟨e, hc⟩
    exact ⟨host, port, tail, e, h, hc⟩

@[grind →]
theorem Connects.kind {outbound : Outbound} (h : Connects outbound rest) : kindOf rest = .connect := by
  obtain ⟨host, port, tail, conn, h, -⟩ := h
  exact h.kind

@[grind →]
theorem Refuses.kind {outbound : Outbound} (h : Refuses outbound rest) : kindOf rest = .connect := by
  obtain ⟨host, port, tail, e, h, -⟩ := h
  exact h.kind

end Kinds

namespace Exit

variable {outbound : Outbound} {sockets : Sockets} {rest answer unread : List UInt8} {dialled : List (Host × UInt16)}
  {result : Except Chain Handover}

/-- The four codes differ. -/
private theorem codes_ne :
    REP_SUCCEEDED ≠ REP_HOST_UNREACHABLE ∧ REP_SUCCEEDED ≠ REP_CMD_NOT_SUPPORTED ∧
      REP_SUCCEEDED ≠ REP_ATYP_NOT_SUPPORTED ∧ REP_HOST_UNREACHABLE ≠ REP_CMD_NOT_SUPPORTED ∧
      REP_HOST_UNREACHABLE ≠ REP_ATYP_NOT_SUPPORTED ∧ REP_CMD_NOT_SUPPORTED ≠ REP_ATYP_NOT_SUPPORTED := by decide

private theorem at_most_one_reply (h : Exit outbound sockets rest answer dialled result unread) :
    answer = [] ∨ ∃ rep ∈ [REP_SUCCEEDED, REP_HOST_UNREACHABLE, REP_CMD_NOT_SUPPORTED, REP_ATYP_NOT_SUPPORTED],
      IsReply rep answer := by
  cases h <;> simp [isReply_replyMessage]

private theorem succeeded_iff_ok (h : Exit outbound sockets rest answer dialled result unread) :
    IsReply REP_SUCCEEDED answer ↔ ∃ handover, result = .ok handover := by
  have := codes_ne
  cases h <;> simp_all [isReply_replyMessage, not_isReply_nil]

/-- In each case the condition of one exit holds, and the conditions of the others, being of another kind, do
not. -/
private theorem addressType_iff (h : Exit outbound sockets rest answer dialled result unread) :
    IsReply REP_ATYP_NOT_SUPPORTED answer ↔ UnsupportedAddressType rest := by
  have := codes_ne
  cases h <;> simp only [isReply_replyMessage, not_isReply_nil] <;> grind

private theorem unsupported_iff (h : Exit outbound sockets rest answer dialled result unread) :
    IsReply REP_CMD_NOT_SUPPORTED answer ↔
      UnsupportedCommand rest ∨ AssociateRequest rest ∧ outbound.supportsUdp = false := by
  have := codes_ne
  cases h <;> simp only [isReply_replyMessage, not_isReply_nil] <;> grind

private theorem unreachable_iff (h : Exit outbound sockets rest answer dialled result unread) :
    IsReply REP_HOST_UNREACHABLE answer ↔ UnreadableTarget rest ∨ Refuses outbound rest := by
  have := codes_ne
  cases h <;> simp only [isReply_replyMessage, not_isReply_nil] <;> grind [ConnectRequest.refuses_iff]

theorem succeeded_iff (h : Exit outbound sockets rest answer dialled result unread) :
    IsReply REP_SUCCEEDED answer ↔ Connects outbound rest ∨ Associates outbound sockets rest := by
  have := codes_ne
  cases h <;> simp only [isReply_replyMessage, not_isReply_nil] <;> grind [ConnectRequest.connects_iff, Associates]

/-- A CONNECT request is dialled as it says, and a tunnel gets the bytes behind it. -/
theorem connect (h : Exit outbound sockets rest answer dialled result unread) {host : Host} {port : UInt16}
    {tail : List UInt8} (hreq : ConnectRequest rest host port tail) :
    dialled = [(host, port)] ∧ unread = tail ∧
      (IsReply REP_SUCCEEDED answer ↔ ∃ display conn, result = .ok (.tunnel display conn)) ∧
      ∀ display conn, result = .ok (.tunnel display conn) → outbound.connectTcp host port = .ok conn := by
  have := codes_ne
  cases h with
  | refused addr e h hc =>
    obtain ⟨rfl, rfl, rfl⟩ := h.unique hreq
    simp_all [isReply_replyMessage]
  | connected addr display h hc =>
    obtain ⟨rfl, rfl, rfl⟩ := h.unique hreq
    simp_all [isReply_replyMessage]
  | _ => grind

private theorem no_connect (h : Exit outbound sockets rest answer dialled result unread)
    (hreq : ∀ host port tail, ¬ConnectRequest rest host port tail) :
    dialled = [] ∧ ∀ display conn, result ≠ .ok (.tunnel display conn) := by
  cases h with
  | refused addr e h hc => exact absurd h (hreq _ _ _)
  | connected addr display h hc => exact absurd h (hreq _ _ _)
  | _ => simp

end Exit

section Session

variable (outbound : Outbound) (sockets : Sockets)

/-- The greeting decides whether there is a request at all. -/
theorem handleClient_cases {s : Session} (hw : s.writer.fault = none) :
    (∃ methods rest, Greeting s.reader.bytes methods rest ∧ 0x00 ∈ methods ∧
        ∃ answer dialled result s', handleClient outbound sockets s = (result, s') ∧
          s'.writer.written = s.writer.written ++ ([0x05, 0x00] ++ answer) ∧ s'.dialled = s.dialled ++ dialled ∧
          Exit outbound sockets rest answer dialled result s'.reader.bytes) ∨
      (∃ methods rest e s', Greeting s.reader.bytes methods rest ∧ 0x00 ∉ methods ∧
        handleClient outbound sockets s = (.error e, s') ∧ s'.writer.written = s.writer.written ++ [0x05, 0xFF] ∧
        s'.dialled = s.dialled) ∨
      (∀ methods rest, ¬Greeting s.reader.bytes methods rest) ∧
        ∃ e reader, handleClient outbound sockets s = (.error e, s.at reader) := by
  rcases negotiate_cases hw with ⟨methods, r, hg, h0, hrun⟩ | ⟨methods, r, e, hg, h0, hrun⟩ | ⟨hno, e, r, hrun⟩
  · left
    have hread : readRequest s = readCommand ((s.at r).answer [0x05, 0x00]) := Action.bind_ok hrun
    obtain ⟨answer, dialled, result, s', hs, hwritten, hdialled, hexit⟩ :=
      @readCommand_exit outbound sockets ((s.at r).answer [0x05, 0x00]) rfl
    refine ⟨methods, r.bytes, hg, h0, answer, dialled, result, s', (Action.bind_congr hread).trans hs, ?_, hdialled,
      hexit⟩
    rw [hwritten, Session.answer, List.append_assoc]
  · have hread : readRequest s = _ := Action.bind_error hrun
    exact .inr (.inl ⟨methods, r.bytes, e, _, hg, h0, Action.bind_error hread, rfl, rfl⟩)
  · have hread : readRequest s = _ := Action.bind_error hrun
    exact .inr (.inr ⟨hno, e, r, Action.bind_error hread⟩)

/-- The byte that tells the protocol is still there for the session. -/
theorem dispatch_socks5 {s : Session} (socks5 socks4 httpProxy : SessionM Handover)
    (h : s.reader.bytes.head? = some 0x05) : dispatch socks5 socks4 httpProxy s = (some <$> socks5) s := by
  unfold dispatch
  rcases hb : s.reader.bytes with _ | ⟨b, bytes⟩
  · rw [hb] at h
    nomatch h
  · rw [hb] at h
    cases h
    rfl

/-- What a session writes, whom it dials and what its tunnel carries. -/
theorem socks5_session_answers (bytes : List UInt8) (seg : Wire.Segmentation) (fault : Option IoError) :
    let run := handleClient outbound sockets (.start bytes seg fault)
    let written := run.2.writer.written
    (∀ socks4 httpProxy, bytes.head? = some 0x05 →
      (dispatch (handleClient outbound sockets) socks4 httpProxy (.start bytes seg fault)).2 = run.2) ∧
    -- nothing for another version or a greeting that is cut off
    ((∀ methods rest, ¬Greeting bytes methods rest) →
      written = [] ∧ run.2.dialled = [] ∧ ∃ e, run.1 = .error e) ∧
    ∀ methods rest, Greeting bytes methods rest →
      (0x00 ∉ methods → written = [0x05, 0xFF] ∧ run.2.dialled = [] ∧ ∃ e, run.1 = .error e) ∧
      (0x00 ∈ methods → ∃ answer, written = [0x05, 0x00] ++ answer ∧
        (answer = [] ∨
          ∃ rep ∈ [REP_SUCCEEDED, REP_HOST_UNREACHABLE, REP_CMD_NOT_SUPPORTED, REP_ATYP_NOT_SUPPORTED],
            IsReply rep answer) ∧
        (IsReply REP_SUCCEEDED answer ↔ Connects outbound rest ∨ Associates outbound sockets rest) ∧
        (IsReply REP_SUCCEEDED answer ↔ ∃ handover, run.1 = .ok handover) ∧
        (IsReply REP_CMD_NOT_SUPPORTED answer ↔
          UnsupportedCommand rest ∨ AssociateRequest rest ∧ outbound.supportsUdp = false) ∧
        (IsReply REP_ATYP_NOT_SUPPORTED answer ↔ UnsupportedAddressType rest) ∧
        (IsReply REP_HOST_UNREACHABLE answer ↔ UnreadableTarget rest ∨ Refuses outbound rest) ∧
        (∀ host port tail, ConnectRequest rest host port tail →
          run.2.dialled = [(host, port)] ∧
          (IsReply REP_SUCCEEDED answer ↔ ∃ display conn, run.1 = .ok (.tunnel display conn)) ∧
          ∀ display conn, run.1 = .ok (.tunnel display conn) →
            outbound.connectTcp host port = .ok conn ∧ run.2.reader.bytes = tail ∧
            (conn.upstream.fault = none → ∀ rounds,
              let upload := Relay.copy rounds run.2.reader conn.upstream
              upload.2.2.written ++ upload.2.1.bytes = conn.upstream.written ++ tail ∧
                (tail.length < rounds → upload.2.2.written = conn.upstream.written ++ tail))) ∧
        ((∀ host port tail, ¬ConnectRequest rest host port tail) →
          run.2.dialled = [] ∧ ∀ display conn, run.1 ≠ .ok (.tunnel display conn))) := by
  intro run written
  refine ⟨?_, ?_⟩
  · intro socks4 httpProxy h5
    rw [dispatch_socks5 (s := .start bytes seg fault) _ _ _ h5]
    rcases hr : handleClient outbound sockets (.start bytes seg fault) with ⟨_ | _, s'⟩
    · rw [Action.map_error hr]
      exact (congrArg Prod.snd hr).symm
    · rw [Action.map_ok hr]
      exact (congrArg Prod.snd hr).symm
  have hstart : (Session.start bytes seg fault).writer.fault = none := rfl
  rcases handleClient_cases outbound sockets hstart with
    ⟨methods, rest, hg, h0, answer, dialled, result, s', hrun, hwritten, hdialled, hexit⟩ |
    ⟨methods, rest, e, s', hg, h0, hrun, hwritten, hdialled⟩ | ⟨hno, e, r, hrun⟩
  · have hrun : run = (result, s') := hrun
    simp only [written, hrun]
    refine ⟨fun hno => absurd hg (hno methods rest), ?_⟩
    intro methods' rest' hg'
    obtain ⟨rfl, rfl⟩ := hg.unique hg'
    refine ⟨fun hn => absurd h0 hn, fun _ => ⟨answer, hwritten, hexit.at_most_one_reply, hexit.succeeded_iff,
      hexit.succeeded_iff_ok, hexit.unsupported_iff, hexit.addressType_iff, hexit.unreachable_iff, ?_, ?_⟩⟩
    · intro host port tail hreq
      obtain ⟨hd, htail, htunnel, hconn⟩ := hexit.connect hreq
      refine ⟨hdialled.trans hd, htunnel, fun display conn hok => ⟨hconn display conn hok, htail, ?_⟩⟩
      intro hup rounds
      rw [← htail]
      exact Relay.copy_exact rounds s'.reader conn.upstream hup
    · intro hreq
      obtain ⟨hd, htunnel⟩ := hexit.no_connect hreq
      exact ⟨hdialled.trans hd, htunnel⟩
  · have hrun : run = (.error e, s') := hrun
    simp only [written, hrun]
    refine ⟨fun hno => absurd hg (hno methods rest), ?_⟩
    intro methods' rest' hg'
    obtain ⟨rfl, rfl⟩ := hg.unique hg'
    exact ⟨fun _ => ⟨hwritten, hdialled, e, rfl⟩, fun hn => absurd hn h0⟩
  · have hrun : run = (.error e, (Session.start bytes seg fault).at r) := hrun
    simp only [written, hrun]
    exact ⟨fun _ => ⟨rfl, rfl, e, rfl⟩, fun methods rest hg => absurd hg (hno methods rest)⟩

end Session

/-- A CONNECT to 1.2.3.4:80 with two bytes behind the request, in pieces of one byte. -/
theorem socks5_session_answers_connect :
    let outbound : Outbound := ⟨"test", false, fun _ _ => .ok ⟨⟨[], none⟩, none⟩⟩
    let sockets : Sockets := ⟨.error earlyEof, fun _ => .error earlyEof⟩
    let rest : List UInt8 := [5, 1, 0, 1, 1, 2, 3, 4, 0, 80, 104, 105]
    (handleClient outbound sockets (.start (5 :: 1 :: ([0] ++ rest))
      ⟨fun _ => 1, fun _ => by decide⟩ none)).2.dialled = [(.ip (.v4 ⟨[1, 2, 3, 4], rfl⟩), 80)] := by
  intro outbound sockets rest
  obtain ⟨-, -, h⟩ := socks5_session_answers outbound sockets (5 :: 1 :: ([0] ++ rest))
    ⟨fun _ => 1, fun _ => by decide⟩ none
  obtain ⟨-, hrest⟩ := h [0] rest ⟨1, rfl, rfl⟩
  obtain ⟨answer, -, -, -, -, -, -, -, hconnect, -⟩ := hrest (by decide)
  exact (hconnect _ _ [104, 105] ⟨1, [1, 2, 3, 4, 0, 80], rfl, .ipv4 ⟨[1, 2, 3, 4], rfl⟩ 0 80⟩).1

end WarpSocks.Socks5
