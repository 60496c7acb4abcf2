import WarpSocks.Socks5.Session

/-!
# What a SOCKS5 session answers

The request as RFC 1928 lays it out, as relations between bytes and what they encode (`AddressField`,
`EncodesTarget`), and the exits of a session (`Exit`): for each one what the bytes behind the greeting are, the
reply and the handover. The reading functions are sound and complete for the relations, so that a session takes
the one exit that fits its bytes (`handleClient_exit`), whatever the segmentation.
-/

namespace WarpSocks.Socks5

open Machine (Action)

/-- An address and a port, of the address type. -/
inductive AddressField : UInt8 → List UInt8 → Prop where
  | ipv4 (addr : Octets 4) (hi lo : UInt8) : AddressField 0x01 (addr.val ++ [hi, lo])
  | ipv6 (addr : Octets 16) (hi lo : UInt8) : AddressField 0x04 (addr.val ++ [hi, lo])
  | name (len : UInt8) (name : Octets len.toNat) (hi lo : UInt8) : AddressField 0x03 (len :: name.val ++ [hi, lo])

/-- The host and the port an address field encodes. -/
inductive EncodesTarget : UInt8 → List UInt8 → Host → UInt16 → Prop where
  | ipv4 (addr : Octets 4) (hi lo : UInt8) :
    EncodesTarget 0x01 (addr.val ++ [hi, lo]) (.ip (.v4 addr)) (fromBeBytes hi lo)
  | ipv6 (addr : Octets 16) (hi lo : UInt8) :
    EncodesTarget 0x04 (addr.val ++ [hi, lo]) (.ip (.v6 addr)) (fromBeBytes hi lo)
  | name (len : UInt8) (name : Octets len.toNat) (hi lo : UInt8) (text : String) :
    stringFromUtf8 name.val = some text →
      EncodesTarget 0x03 (len :: name.val ++ [hi, lo]) (.parse text) (fromBeBytes hi lo)

theorem EncodesTarget.field {atyp : UInt8} {enc : List UInt8} {host : Host} {port : UInt16}
    (h : EncodesTarget atyp enc host port) : AddressField atyp enc := by
  cases h with
  | ipv4 addr hi lo => exact .ipv4 addr hi lo
  | ipv6 addr hi lo => exact .ipv6 addr hi lo
  | name len name hi lo text _ => exact .name len name hi lo

/-- The session with the stream further on. -/
abbrev Session.at (s : Session) (reader : Wire.Reader IoError) : Session := { s with reader }

section Reading

variable (s : Session)

/-- Either the bytes are there, or too few are. -/
private theorem readExact_cases (n : Nat) :
    (∃ (x : Octets n) (reader : _), s.reader.bytes = x.val ++ reader.bytes ∧ readExact n s = (.ok x, s.at reader)) ∨
      s.reader.bytes.length < n ∧ ∃ e reader, readExact n s = (.error e, s.at reader) := by
  by_cases hn : n ≤ s.reader.bytes.length
  · left
    have hx : (s.reader.bytes.take n).length = n := List.length_take_of_le hn
    obtain ⟨reader, hread, hrest, -⟩ :=
      s.reader.readExact_of_le earlyEof (s.reader.bytes.take n) (s.reader.bytes.drop n) (by simp)
    rw [hx] at hread
    refine ⟨⟨_, hx⟩, reader, by rw [hrest, List.take_append_drop], ?_⟩
    unfold readExact
    split <;> rename_i h <;> rw [hread] at h <;> cases h
    rfl
  · right
    have hlt : s.reader.bytes.length < n := by omega
    obtain ⟨reader, hread⟩ := s.reader.readExact_of_lt earlyEof n hlt
    refine ⟨hlt, [(s.reader.fault.getD earlyEof).msg], reader, ?_⟩
    unfold readExact
    split <;> rename_i h <;> rw [hread] at h <;> cases h
    rfl

/-- The bytes that are there are read. -/
theorem readExact_run {s : Session} {n : Nat} {x : Octets n} {rest : List UInt8}
    (h : s.reader.bytes = x.val ++ rest) :
    ∃ reader, reader.bytes = rest ∧ readExact n s = (.ok x, s.at reader) := by
  rcases readExact_cases s n with ⟨x', reader, hb, hrun⟩ | ⟨hlt, -⟩
  · obtain ⟨hx, hrest⟩ := List.append_inj (h.symm.trans hb) (x.property.trans x'.property.symm)
    obtain rfl : x = x' := Subtype.ext hx
    exact ⟨reader, hrest.symm, hrun⟩
  · rw [h, List.length_append, x.property] at hlt
    omega

private theorem readTwo_cases :
    (∃ a b reader, s.reader.bytes = a :: b :: reader.bytes ∧ readExact 2 s = (.ok ⟨[a, b], rfl⟩, s.at reader)) ∨
      s.reader.bytes.length < 2 ∧ ∃ e reader, readExact 2 s = (.error e, s.at reader) := by
  rcases readExact_cases s 2 with ⟨⟨x, hx⟩, reader, hb, hr⟩ | hshort
  · left
    rcases x with _ | ⟨a, _ | ⟨b, _ | ⟨c, x⟩⟩⟩ <;> simp only [List.length_nil, List.length_cons] at hx
    · omega
    · omega
    · exact ⟨a, b, reader, hb, hr⟩
    · omega
  · exact .inr hshort

private theorem readPort_cases :
    (∃ hi lo reader, s.reader.bytes = hi :: lo :: reader.bytes ∧
      readPort s = (.ok (fromBeBytes hi lo), s.at reader)) ∨
      s.reader.bytes.length < 2 ∧ ∃ e reader, readPort s = (.error e, s.at reader) := by
  rcases readTwo_cases s with ⟨hi, lo, reader, hb, hr⟩ | ⟨hlt, e, reader, hr⟩
  · refine .inl ⟨hi, lo, reader, hb, ?_⟩
    rw [readPort, Action.bind_ok hr]
    rfl
  · exact .inr ⟨hlt, e, reader, Action.bind_error hr⟩

private theorem readIp_cases (n : Nat) (ofOctets : Octets n → IpAddr) :
    (∃ (addr : Octets n) (hi lo : UInt8) (display : String) (reader : _),
      s.reader.bytes = addr.val ++ hi :: lo :: reader.bytes ∧
        readIp n ofOctets s = (.ok ⟨.ip (ofOctets addr), fromBeBytes hi lo, display⟩, s.at reader)) ∨
      s.reader.bytes.length < n + 2 ∧ ∃ e reader, readIp n ofOctets s = (.error e, s.at reader) := by
  rcases readExact_cases s n with ⟨addr, r₁, hb, hr⟩ | ⟨hlt, e, r₁, hr⟩
  · rcases readPort_cases (s.at r₁) with ⟨hi, lo, r₂, hb₂, hr₂⟩ | ⟨hlt₂, e, r₂, hr₂⟩
    · exact .inl ⟨addr, hi, lo, _, r₂, by rw [hb, ← hb₂], (Action.bind_ok hr).trans (Action.bind_ok hr₂)⟩
    · refine .inr ⟨?_, e, r₂, (Action.bind_ok hr).trans (Action.bind_error hr₂)⟩
      have := addr.property
      rw [hb, List.length_append]
      simp only at hlt₂
      omega
  · exact .inr ⟨by omega, e, r₁, Action.bind_error hr⟩

/-- The length octet and what follows it. -/
private theorem readLen_cases :
    (∃ len reader, s.reader.bytes = len :: reader.bytes ∧ readExact 1 s = (.ok ⟨[len], rfl⟩, s.at reader)) ∨
      s.reader.bytes = [] ∧ ∃ e reader, readExact 1 s = (.error e, s.at reader) := by
  rcases readExact_cases s 1 with ⟨⟨x, hx⟩, reader, hb, hr⟩ | ⟨hlt, e, reader, hr⟩
  · left
    rcases x with _ | ⟨len, _ | ⟨b, x⟩⟩ <;> simp only [List.length_nil, List.length_cons] at hx
    · omega
    · exact ⟨len, reader, hb, hr⟩
    · omega
  · exact .inr ⟨List.length_eq_zero_iff.1 (by omega), e, reader, hr⟩

/-- The bytes do not start with an address field of the type. -/
def NoField (atyp : UInt8) (bytes : List UInt8) : Prop := ∀ enc tail, bytes = enc ++ tail → ¬AddressField atyp enc

/-- The bytes do not start with an encoded target of the type. -/
def NoTarget (atyp : UInt8) (bytes : List UInt8) : Prop :=
  ∀ enc tail host port, bytes = enc ++ tail → ¬EncodesTarget atyp enc host port

private theorem NoField.noTarget {atyp : UInt8} {bytes : List UInt8} (h : NoField atyp bytes) : NoTarget atyp bytes :=
  fun enc tail _ _ hb he => h enc tail hb he.field

private theorem noField_ipv4 {bytes : List UInt8} (h : bytes.length < 4 + 2) : NoField 0x01 bytes := by
  rintro enc tail rfl henc
  cases henc with
  | ipv4 addr hi lo =>
    have := addr.property
    simp only [List.length_append, List.length_cons, List.length_nil] at h
    omega

private theorem noField_ipv6 {bytes : List UInt8} (h : bytes.length < 16 + 2) : NoField 0x04 bytes := by
  rintro enc tail rfl henc
  cases henc with
  | ipv6 addr hi lo =>
    have := addr.property
    simp only [List.length_append, List.length_cons, List.length_nil] at h
    omega

private theorem noField_name_nil : NoField 0x03 [] := by
  rintro enc tail hb henc
  cases henc with
  | name len name hi lo => simp at hb

private theorem noField_name {len : UInt8} {bytes : List UInt8} (h : bytes.length < len.toNat + 2) :
    NoField 0x03 (len :: bytes) := by
  rintro enc tail hb henc
  cases henc with
  | name len' name hi lo =>
    simp only [List.cons_append, List.cons.injEq] at hb
    obtain ⟨rfl, rfl⟩ := hb
    have := name.property
    simp only [List.length_append, List.length_cons, List.length_nil] at h
    omega

private theorem readName_cases :
    (∃ len, ∃ (name : Octets len.toNat) (hi lo : UInt8) (text display : String) (reader : _),
      s.reader.bytes = len :: name.val ++ hi :: lo :: reader.bytes ∧ stringFromUtf8 name.val = some text ∧
        readName s = (.ok ⟨.parse text, fromBeBytes hi lo, display⟩, s.at reader)) ∨
      NoTarget 0x03 s.reader.bytes ∧ ∃ e reader, readName s = (.error e, s.at reader) := by
  rcases readLen_cases s with ⟨len, r₁, hb₁, hr₁⟩ | ⟨hnil, e, r₁, hr₁⟩
  · rcases readExact_cases (s.at r₁) len.toNat with ⟨name, r₂, hb₂, hr₂⟩ | ⟨hlt, e, r₂, hr₂⟩
    · have hread : readName s = _ := (Action.bind_ok hr₁).trans (Action.bind_ok hr₂)
      rcases readPort_cases (s.at r₂) with ⟨hi, lo, r₃, hb₃, hr₃⟩ | ⟨hlt, e, r₃, hr₃⟩
      · have hbytes : s.reader.bytes = len :: name.val ++ hi :: lo :: r₃.bytes := by
          rw [hb₁, hb₂, ← hb₃, List.cons_append]
        cases htext : stringFromUtf8 name.val with
        | some text =>
          refine .inl ⟨len, name, hi, lo, text, s!"{text}:{(fromBeBytes hi lo).toNat}", r₃, hbytes, htext, ?_⟩
          rw [hread, Action.bind_ok hr₃, htext]
          rfl
        | none =>
          -- another name would have the same bytes
          refine .inr ⟨?_, ["域名不是合法 UTF-8", utf8Error name.val], r₃, by rw [hread, Action.bind_ok hr₃, htext]; rfl⟩
          intro enc tail host port hb henc
          cases henc with
          | name len' name' hi' lo' text htext' =>
            rw [hbytes] at hb
            simp only [List.cons_append, List.append_assoc, List.cons.injEq] at hb
            obtain ⟨rfl, hb⟩ := hb
            have hname := (List.append_inj hb (by rw [name.property, name'.property])).1
            rw [hname, htext'] at htext
            nomatch htext
      · refine .inr ⟨?_, e, r₃, hread.trans (Action.bind_error hr₃)⟩
        rw [hb₁]
        apply (noField_name _).noTarget
        have := name.property
        rw [hb₂, List.length_append]
        simp only at hlt
        omega
    · refine .inr ⟨?_, e, r₂, (Action.bind_ok hr₁).trans (Action.bind_error hr₂)⟩
      rw [hb₁]
      apply (noField_name _).noTarget
      simp only at hlt
      omega
  · exact .inr ⟨hnil ▸ noField_name_nil.noTarget, e, r₁, Action.bind_error hr₁⟩

private theorem split_port {n : Nat} (x : Octets (n + 2)) :
    ∃ (addr : Octets n) (hi lo : UInt8), x.val = addr.val ++ [hi, lo] := by
  obtain ⟨x, hx⟩ := x
  have hdrop : (x.drop n).length = 2 := by rw [List.length_drop]; omega
  have htake : (x.take n).length = n := by rw [List.length_take]; omega
  have hsplit : x = x.take n ++ x.drop n := (List.take_append_drop n x).symm
  rcases hd : x.drop n with _ | ⟨hi, _ | ⟨lo, _ | ⟨b, y⟩⟩⟩ <;>
    simp only [hd, List.length_nil, List.length_cons] at hdrop
  · omega
  · omega
  · rw [hd] at hsplit
    exact ⟨⟨x.take n, htake⟩, hi, lo, hsplit⟩
  · omega

/-- `skip_target` passes over an address field and nothing else. -/
theorem skipTarget_cases {atyp : UInt8} (hatyp : atyp ∈ [0x01, 0x03, 0x04]) :
    (∃ enc reader, s.reader.bytes = enc ++ reader.bytes ∧ AddressField atyp enc ∧
        skipTarget atyp s = (.ok (), s.at reader)) ∨
      NoField atyp s.reader.bytes ∧ ∃ e reader, skipTarget atyp s = (.error e, s.at reader) := by
  simp only [List.mem_cons, List.not_mem_nil, or_false] at hatyp
  rcases hatyp with rfl | rfl | rfl
  · rcases readExact_cases s (4 + 2) with ⟨x, reader, hb, hr⟩ | ⟨hlt, e, reader, hr⟩
    · obtain ⟨addr, hi, lo, hx⟩ := split_port x
      exact .inl ⟨_, reader, hx ▸ hb, .ipv4 addr hi lo, Action.bind_ok hr⟩
    · exact .inr ⟨noField_ipv4 hlt, e, reader, Action.bind_error hr⟩
  · rcases readLen_cases s with ⟨len, r₁, hb₁, hr₁⟩ | ⟨hnil, e, r₁, hr₁⟩
    · rcases readExact_cases (s.at r₁) (len.toNat + 2) with ⟨x, r₂, hb₂, hr₂⟩ | ⟨hlt, e, r₂, hr₂⟩
      · obtain ⟨name, hi, lo, hx⟩ := split_port x
        refine .inl ⟨_, r₂, ?_, .name len name hi lo, (Action.bind_ok hr₁).trans (Action.bind_ok hr₂)⟩
        rw [hb₁, hb₂, hx, List.cons_append, List.cons_append]
      · exact .inr ⟨hb₁ ▸ noField_name hlt, e, r₂, (Action.bind_ok hr₁).trans (Action.bind_error hr₂)⟩
    · exact .inr ⟨hnil ▸ noField_name_nil, e, r₁, Action.bind_error hr₁⟩
  · rcases readExact_cases s (16 + 2) with ⟨x, reader, hb, hr⟩ | ⟨hlt, e, reader, hr⟩
    · obtain ⟨addr, hi, lo, hx⟩ := split_port x
      exact .inl ⟨_, reader, hx ▸ hb, .ipv6 addr hi lo, Action.bind_ok hr⟩
    · exact .inr ⟨noField_ipv6 hlt, e, reader, Action.bind_error hr⟩

/-- `read_target` is sound and complete for the encoding. -/
theorem readTarget_cases {atyp : UInt8} (hatyp : atyp ∈ [0x01, 0x03, 0x04]) :
    (∃ enc target reader, s.reader.bytes = enc ++ reader.bytes ∧ EncodesTarget atyp enc target.host target.port ∧
        readTarget atyp s = (.ok target, s.at reader)) ∨
      NoTarget atyp s.reader.bytes ∧ ∃ e reader, readTarget atyp s = (.error e, s.at reader) := by
  simp only [List.mem_cons, List.not_mem_nil, or_false] at hatyp
  rcases hatyp with rfl | rfl | rfl
  · rcases readIp_cases s 4 .v4 with ⟨addr, hi, lo, display, reader, hb, hr⟩ | ⟨hlt, e, reader, hr⟩
    · exact .inl ⟨_, _, reader, by rw [hb, List.append_assoc]; rfl, .ipv4 addr hi lo, hr⟩
    · exact .inr ⟨(noField_ipv4 hlt).noTarget, e, reader, hr⟩
  · rcases readName_cases s with ⟨len, name, hi, lo, text, display, reader, hb, htext, hr⟩ | ⟨hno, e, reader, hr⟩
    · exact .inl ⟨_, _, reader, by rw [hb, List.append_assoc]; rfl, .name len name hi lo text htext, hr⟩
    · exact .inr ⟨hno, e, reader, hr⟩
  · rcases readIp_cases s 16 .v6 with ⟨addr, hi, lo, display, reader, hb, hr⟩ | ⟨hlt, e, reader, hr⟩
    · exact .inl ⟨_, _, reader, by rw [hb, List.append_assoc]; rfl, .ipv6 addr hi lo, hr⟩
    · exact .inr ⟨(noField_ipv6 hlt).noTarget, e, reader, hr⟩

end Reading

section Writing

/-- The session with more bytes written. -/
def Session.answer (s : Session) (bytes : List UInt8) : Session :=
  { s with writer := ⟨s.writer.written ++ bytes, none⟩ }

/-- The address of a reply without one. -/
def unspecified : SocketAddr := .v4 ⟨[0, 0, 0, 0], rfl⟩ 0

variable {s : Session} (hw : s.writer.fault = none)

include hw

theorem writeAll_run (bytes : List UInt8) : writeAll bytes s = (.ok (), s.answer bytes) := by
  unfold writeAll
  rw [Wire.Writer.writeAll_of_none hw]
  rfl

private theorem reply_run (rep : UInt8) : reply rep s = (.ok (), s.answer (replyMessage rep unspecified)) :=
  writeAll_run hw _

private theorem ignore_reply_run (rep : UInt8) :
    ignore (reply rep) s = (.ok (), s.answer (replyMessage rep unspecified)) := by
  unfold ignore
  rw [reply_run hw]

end Writing

/-- A greeting that offers the methods, and the bytes behind it. -/
def Greeting (bytes methods rest : List UInt8) : Prop :=
  ∃ n : UInt8, methods.length = n.toNat ∧ bytes = 0x05 :: n :: (methods ++ rest)

/-- The methods are cut off. -/
private theorem not_greeting_of_lt {bytes tail : List UInt8} {n : UInt8} (hb : bytes = 0x05 :: n :: tail)
    (hlt : tail.length < n.toNat) (methods rest : List UInt8) : ¬Greeting bytes methods rest := by
  rintro ⟨n', hlen, hb'⟩
  rw [hb] at hb'
  simp only [List.cons.injEq, true_and] at hb'
  obtain ⟨rfl, rfl⟩ := hb'
  rw [List.length_append] at hlt
  omega

/-- The negotiation has three exits. -/
theorem negotiate_cases {s : Session} (hw : s.writer.fault = none) :
    (∃ methods reader, Greeting s.reader.bytes methods reader.bytes ∧ 0x00 ∈ methods ∧
        negotiate s = (.ok (), (s.at reader).answer [0x05, 0x00])) ∨
      (∃ methods reader e, Greeting s.reader.bytes methods reader.bytes ∧ 0x00 ∉ methods ∧
        negotiate s = (.error e, (s.at reader).answer [0x05, 0xFF])) ∨
      (∀ methods rest, ¬Greeting s.reader.bytes methods rest) ∧
      ∃ e reader, negotiate s = (.error e, s.at reader) := by
  rcases readTwo_cases s with ⟨version, n, r₁, hb₁, hr₁⟩ | ⟨hlt, e, r₁, hr₁⟩
  · have hneg : negotiate s = _ := Action.bind_ok hr₁
    simp only [List.getD_cons_zero] at hneg
    by_cases hv : version = 0x05
    · subst hv
      rw [if_neg (fun h => h rfl)] at hneg
      rcases readExact_cases (s.at r₁) n.toNat with ⟨methods, r₂, hb₂, hr₂⟩ | ⟨hlt, e, r₂, hr₂⟩
      · have hg : Greeting s.reader.bytes methods.val r₂.bytes := ⟨n, methods.property, by rw [hb₁, ← hb₂]⟩
        replace hneg := hneg.trans (Action.bind_ok hr₂)
        by_cases h0 : (0x00 : UInt8) ∈ methods.val
        · rw [List.contains_iff_mem.2 h0, Bool.not_true, if_neg Bool.false_ne_true] at hneg
          exact .inl ⟨methods.val, r₂, hg, h0, hneg.trans (writeAll_run (s := s.at r₂) hw _)⟩
        · rw [List.contains_eq_mem, decide_eq_false h0, Bool.not_false, if_pos rfl] at hneg
          exact .inr (.inl ⟨methods.val, r₂, _, hg, h0,
            hneg.trans (Action.bind_ok (writeAll_run (s := s.at r₂) hw _))⟩)
      · exact .inr (.inr ⟨not_greeting_of_lt hb₁ hlt, e, r₂, hneg.trans (Action.bind_error hr₂)⟩)
    · rw [if_pos hv] at hneg
      refine .inr (.inr ⟨?_, _, r₁, hneg⟩)
      rintro methods rest ⟨n', hlen, hb⟩
      rw [hb₁] at hb
      exact hv (List.cons.inj hb).1
  · refine .inr (.inr ⟨?_, e, r₁, Action.bind_error hr₁⟩)
    rintro methods rest ⟨n, hlen, hb⟩
    rw [hb] at hlt
    simp only [List.length_cons] at hlt
    omega

theorem Greeting.unique {bytes methods methods' rest rest' : List UInt8} (h : Greeting bytes methods rest)
    (h' : Greeting bytes methods' rest') : methods' = methods ∧ rest' = rest := by
  obtain ⟨n, hlen, rfl⟩ := h
  obtain ⟨n', hlen', hb⟩ := h'
  simp only [List.cons.injEq, true_and] at hb
  obtain ⟨rfl, hb⟩ := hb
  obtain ⟨h₁, h₂⟩ := List.append_inj hb (by omega)
  exact ⟨h₁.symm, h₂.symm⟩

/-- The command, the address type and what follows the header of a request. -/
def header : List UInt8 → Option (UInt8 × UInt8 × List UInt8)
  | version :: cmd :: _ :: atyp :: tail => if version = 0x05 then some (cmd, atyp, tail) else none
  | _ => none

/-- A CONNECT request for a host and a port, and the bytes behind it. -/
def ConnectRequest (rest : List UInt8) (host : Host) (port : UInt16) (tail : List UInt8) : Prop :=
  ∃ atyp enc, header rest = some (CMD_CONNECT, atyp, enc ++ tail) ∧ EncodesTarget atyp enc host port

/-- A complete UDP ASSOCIATE request. -/
def AssociateRequest (rest : List UInt8) : Prop :=
  ∃ atyp enc tail, header rest = some (CMD_UDP_ASSOCIATE, atyp, enc ++ tail) ∧ AddressField atyp enc

/-- A command other than CONNECT and UDP ASSOCIATE. -/
def UnsupportedCommand (rest : List UInt8) : Prop :=
  ∃ cmd atyp tail, header rest = some (cmd, atyp, tail) ∧ cmd ∉ [CMD_CONNECT, CMD_UDP_ASSOCIATE]

/-- One of the two commands with an address type other than IPv4, IPv6 and name. -/
def UnsupportedAddressType (rest : List UInt8) : Prop :=
  ∃ cmd atyp tail, header rest = some (cmd, atyp, tail) ∧ cmd ∈ [CMD_CONNECT, CMD_UDP_ASSOCIATE] ∧
    atyp ∉ [0x01, 0x03, 0x04]

/-- A CONNECT request whose target is cut off or no text. -/
def UnreadableTarget (rest : List UInt8) : Prop :=
  ∃ atyp tail, header rest = some (CMD_CONNECT, atyp, tail) ∧ atyp ∈ [0x01, 0x03, 0x04] ∧ NoTarget atyp tail

/-- A UDP ASSOCIATE request whose address field is cut off. -/
def UnreadableField (rest : List UInt8) : Prop :=
  ∃ atyp tail, header rest = some (CMD_UDP_ASSOCIATE, atyp, tail) ∧ atyp ∈ [0x01, 0x03, 0x04] ∧ NoField atyp tail

/-- The exits of a session behind the greeting: the reply, the calls of `connect_tcp`, the result, and the bytes
of the client that have not been read. -/
inductive Exit (outbound : Outbound) (sockets : Sockets) (rest : List UInt8) :
    List UInt8 → List (Host × UInt16) → Except Chain Handover → List UInt8 → Prop where
  | noHeader (e : Chain) (unread : List UInt8) : header rest = none →
    Exit outbound sockets rest [] [] (.error e) unread
  | command (addr : SocketAddr) (e : Chain) (unread : List UInt8) : UnsupportedCommand rest →
    Exit outbound sockets rest (replyMessage REP_CMD_NOT_SUPPORTED addr) [] (.error e) unread
  | addressType (addr : SocketAddr) (e : Chain) (unread : List UInt8) : UnsupportedAddressType rest →
    Exit outbound sockets rest (replyMessage REP_ATYP_NOT_SUPPORTED addr) [] (.error e) unread
  | field (e : Chain) (unread : List UInt8) : UnreadableField rest →
    Exit outbound sockets rest [] [] (.error e) unread
  | noUdp (addr : SocketAddr) (e : Chain) (unread : List UInt8) : AssociateRequest rest →
    outbound.supportsUdp = false →
    Exit outbound sockets rest (replyMessage REP_CMD_NOT_SUPPORTED addr) [] (.error e) unread
  | noRelay {e : Chain} (unread : List UInt8) : AssociateRequest rest → outbound.supportsUdp = true →
    sockets.relayAddr = .error e → Exit outbound sockets rest [] [] (.error e) unread
  | associated {relayAddr : SocketAddr} (unread : List UInt8) : AssociateRequest rest → outbound.supportsUdp = true →
    sockets.relayAddr = .ok relayAddr →
    Exit outbound sockets rest (replyMessage REP_SUCCEEDED relayAddr) [] (.ok (.associate relayAddr)) unread
  | target (addr : SocketAddr) (e : Chain) (unread : List UInt8) : UnreadableTarget rest →
    Exit outbound sockets rest (replyMessage REP_HOST_UNREACHABLE addr) [] (.error e) unread
  | refused {host : Host} {port : UInt16} {tail : List UInt8} {error : IoError} (addr : SocketAddr) (e : Chain) :
    ConnectRequest rest host port tail → outbound.connectTcp host port = .error error →
    Exit outbound sockets rest (replyMessage REP_HOST_UNREACHABLE addr) [(host, port)] (.error e) tail
  | connected {host : Host} {port : UInt16} {tail : List UInt8} {conn : Connected} (addr : SocketAddr)
    (display : String) :
    ConnectRequest rest host port tail → outbound.connectTcp host port = .ok conn →
    Exit outbound sockets rest (replyMessage REP_SUCCEEDED addr) [(host, port)] (.ok (.tunnel display conn)) tail

/-- An action that runs to an exit. -/
def Exits (outbound : Outbound) (sockets : Sockets) (rest : List UInt8) (action : SessionM Handover) (s : Session) :
    Prop :=
  ∃ answer dialled result s', action s = (result, s') ∧ s'.writer.written = s.writer.written ++ answer ∧
    s'.dialled = s.dialled ++ dialled ∧ Exit outbound sockets rest answer dialled result s'.reader.bytes

variable {outbound : Outbound} {sockets : Sockets} {rest : List UInt8}

private theorem handleUdpAssociate_exit {s : Session} (hw : s.writer.fault = none) (hreq : AssociateRequest rest) :
    Exits outbound sockets rest (handleUdpAssociate outbound sockets) s := by
  unfold handleUdpAssociate
  cases hudp : outbound.supportsUdp with
  | false =>
    refine ⟨_, [], .error ?e, s.answer (replyMessage REP_CMD_NOT_SUPPORTED unspecified), ?run, rfl,
      (List.append_nil _).symm, .noUdp _ ?e _ hreq hudp⟩
    case run => exact Action.bind_ok (reply_run hw _)
  | true =>
    cases hr : sockets.relayAddr with
    | error e =>
      exact ⟨[], [], .error e, s, rfl, (List.append_nil _).symm, (List.append_nil _).symm, .noRelay _ hreq hudp hr⟩
    | ok relayAddr =>
      refine ⟨_, [], _, s.answer (replyMessage REP_SUCCEEDED relayAddr), ?_, rfl, (List.append_nil _).symm,
        .associated _ hreq hudp hr⟩
      exact Action.bind_ok (Action.tryCatch_ok (writeAll_run hw _))

private theorem handleConnect_exit {s : Session} (hw : s.writer.fault = none) {target : Target}
    (hreq : ConnectRequest rest target.host target.port s.reader.bytes) :
    Exits outbound sockets rest (handleConnect outbound target) s := by
  unfold handleConnect
  let d : Session := { s with dialled := s.dialled ++ [(target.host, target.port)] }
  have hd :
      (modify fun s : Session => { s with dialled := s.dialled ++ [(target.host, target.port)] } : SessionM Unit) s =
    (.ok (), d) := rfl
  cases hc : outbound.connectTcp target.host target.port with
  | error error =>
    refine ⟨_, _, .error ?e, d.answer (replyMessage REP_HOST_UNREACHABLE unspecified), ?run, rfl, rfl,
      .refused _ ?e hreq hc⟩
    case run =>
      rw [Action.bind_ok hd]
      exact Action.bind_ok (ignore_reply_run (s := d) hw _)
  | ok conn =>
    refine ⟨_, _, _, d.answer (replyMessage REP_SUCCEEDED unspecified), ?_, rfl, rfl,
      .connected _ target.display hreq hc⟩
    rw [Action.bind_ok hd]
    exact Action.bind_ok (reply_run (s := d) hw _)

section Command

variable {s : Session}

private theorem Exits.of_error {answer : List UInt8} {action : SessionM Request} {s' : Session} {e : Chain}
    (hrun : action s = (.error e, s')) (hwritten : s'.writer.written = s.writer.written ++ answer)
    (hdialled : s'.dialled = s.dialled) (hexit : Exit outbound sockets rest answer [] (.error e) s'.reader.bytes) :
    Exits outbound sockets rest (action >>= serve outbound sockets) s :=
  ⟨answer, [], _, s', Action.bind_error hrun, hwritten, hdialled.trans (List.append_nil _).symm, hexit⟩

private theorem Exits.of_ok {action : SessionM Request} {reader : Wire.Reader IoError} {request : Request}
    (hrun : action s = (.ok request, s.at reader))
    (hserve : Exits outbound sockets rest (serve outbound sockets request) (s.at reader)) :
    Exits outbound sockets rest (action >>= serve outbound sockets) s := by
  obtain ⟨answer, dialled, result, s', hs, hwritten, hdialled, hexit⟩ := hserve
  exact ⟨answer, dialled, result, s', (Action.bind_ok hrun).trans hs, hwritten, hdialled, hexit⟩

private theorem header_eq_none_of_lt {bytes : List UInt8} (h : bytes.length < 4) : header bytes = none := by
  rcases bytes with _ | ⟨_, _ | ⟨_, _ | ⟨_, _ | ⟨_, _⟩⟩⟩⟩
  case cons.cons.cons.cons =>
    simp only [List.length_cons] at h
    omega
  all_goals rfl

private theorem associate_exit (hw : s.writer.fault = none) {atyp : UInt8} {r : Wire.Reader IoError}
    (hatyp : atyp ∈ [0x01, 0x03, 0x04]) (hheader : header rest = some (CMD_UDP_ASSOCIATE, atyp, r.bytes))
    {action : SessionM Request}
    (hrun : action s = (do skipTarget atyp; return .udpAssociate : SessionM Request) (s.at r)) :
    Exits outbound sockets rest (action >>= serve outbound sockets) s := by
  rcases skipTarget_cases (s.at r) hatyp with ⟨enc, r', hb, hfield, hskip⟩ | ⟨hno, e, r', hskip⟩
  · have hreq : AssociateRequest rest := ⟨atyp, enc, r'.bytes, by rw [hheader, ← hb], hfield⟩
    exact Exits.of_ok (hrun.trans (Action.bind_ok hskip)) (handleUdpAssociate_exit (s := s.at r') hw hreq)
  · exact Exits.of_error (hrun.trans (Action.bind_error hskip)) (List.append_nil _).symm rfl
      (.field e _ ⟨atyp, r.bytes, hheader, hatyp, hno⟩)

private theorem connect_exit (hw : s.writer.fault = none) {atyp : UInt8} {r : Wire.Reader IoError}
    (hatyp : atyp ∈ [0x01, 0x03, 0x04]) (hheader : header rest = some (CMD_CONNECT, atyp, r.bytes))
    {action : SessionM Request}
    (hrun : action s = (tryCatch (.connect <$> readTarget atyp) fun error => do
      ignore (reply REP_HOST_UNREACHABLE)
      throw error : SessionM Request) (s.at r)) :
    Exits outbound sockets rest (action >>= serve outbound sockets) s := by
  rcases readTarget_cases (s.at r) hatyp with ⟨enc, target, r', hb, henc, htarget⟩ | ⟨hno, e, r', htarget⟩
  · have hreq : ConnectRequest rest target.host target.port r'.bytes := ⟨atyp, enc, by rw [hheader, ← hb], henc⟩
    exact Exits.of_ok (hrun.trans (Action.tryCatch_ok (Action.map_ok htarget)))
      (handleConnect_exit (s := s.at r') hw hreq)
  · have hfail := hrun.trans (Action.tryCatch_error (Action.map_error htarget))
    exact Exits.of_error (hfail.trans (Action.bind_ok (ignore_reply_run (s := s.at r') hw _))) rfl rfl
      (.target _ e _ ⟨atyp, r.bytes, hheader, hatyp, hno⟩)

/-- The request takes the exit that fits its bytes. -/
theorem readCommand_exit (hw : s.writer.fault = none) :
    Exits outbound sockets s.reader.bytes (readCommand >>= serve outbound sockets) s := by
  rcases readExact_cases s 4 with ⟨⟨x, hx⟩, r, hb, hr⟩ | ⟨hlt, e, r, hr⟩
  · rcases x with _ | ⟨version, _ | ⟨cmd, _ | ⟨rsv, _ | ⟨atyp, _ | ⟨b, x⟩⟩⟩⟩⟩ <;>
      simp only [List.length_nil, List.length_cons] at hx <;> try omega
    have hread : readCommand s = _ := Action.bind_ok hr
    simp only [List.getD_cons_zero, List.getD_cons_succ] at hread
    have hheader : header s.reader.bytes = if version = 0x05 then some (cmd, atyp, r.bytes) else none := by
      rw [hb]
      rfl
    by_cases hv : version = 0x05
    · rw [if_neg (not_not_intro hv)] at hread
      rw [if_pos hv] at hheader
      by_cases hcmd : cmd ∈ [CMD_CONNECT, CMD_UDP_ASSOCIATE]
      · rw [if_neg (not_not_intro hcmd)] at hread
        by_cases hatyp : atyp ∈ [0x01, 0x03, 0x04]
        · rw [if_neg (not_not_intro hatyp)] at hread
          by_cases hudp : cmd = CMD_UDP_ASSOCIATE
          · rw [if_pos hudp] at hread
            subst hudp
            exact associate_exit hw hatyp hheader hread
          · rw [if_neg hudp] at hread
            obtain rfl : cmd = CMD_CONNECT := by simpa [hudp] using hcmd
            exact connect_exit hw hatyp hheader hread
        · rw [if_pos hatyp] at hread
          exact Exits.of_error (hread.trans (Action.bind_ok (ignore_reply_run (s := s.at r) hw _))) rfl rfl
            (.addressType _ _ _ ⟨cmd, atyp, r.bytes, hheader, hcmd, hatyp⟩)
      · rw [if_pos hcmd] at hread
        exact Exits.of_error (hread.trans (Action.bind_ok (ignore_reply_run (s := s.at r) hw _))) rfl rfl
          (.command _ _ _ ⟨cmd, atyp, r.bytes, hheader, hcmd⟩)
    · rw [if_pos hv] at hread
      rw [if_neg hv] at hheader
      exact Exits.of_error hread (List.append_nil _).symm rfl (.noHeader _ _ hheader)
  · exact Exits.of_error (Action.bind_error hr) (List.append_nil _).symm rfl
      (.noHeader e _ (header_eq_none_of_lt hlt))

end Command

end WarpSocks.Socks5
