import WarpSocks.IpDisplay

/-!
# Socket addresses as text

The literals of `SocketAddr`: an address and a port, with brackets around an IPv6 address, and its scope inside of
them. The flow label is not written, so an address without one is read back as it was (`parse_display`).
-/

namespace WarpSocks.SocketText

/-- `SocketAddr::fmt`. -/
def display : SocketAddr → String
  | .v4 ip port => IpText.display (.v4 ip) ++ ":" ++ toString port.toNat
  | .v6 ip port _ scopeId =>
    if scopeId = 0 then "[" ++ IpText.display (.v6 ip) ++ "]:" ++ toString port.toNat
    else "[" ++ IpText.display (.v6 ip) ++ "%" ++ toString scopeId.toNat ++ "]:" ++ toString port.toNat

/-- `Parser::read_given_char`. -/
def readGivenChar (c : UInt8) : List UInt8 → Option (List UInt8)
  | b :: p => if b = c then some p else none
  | [] => none

/-- A decimal number behind a character, with any number of digits. -/
def readNumberAfter (c : UInt8) (bound : Nat) (p : List UInt8) : Option (Nat × List UInt8) :=
  (readGivenChar c p).bind fun p => IpText.readNumber 10 p.length bound true p

/-- `Parser::read_port`. -/
def readPort (p : List UInt8) : Option (UInt16 × List UInt8) :=
  (readNumberAfter 58 65536 p).map fun (n, p) => (UInt16.ofNat n, p)

/-- `Parser::read_scope_id`. -/
def readScopeId (p : List UInt8) : Option (UInt32 × List UInt8) :=
  (readNumberAfter 37 4294967296 p).map fun (n, p) => (UInt32.ofNat n, p)

/-- `Parser::read_socket_addr_v4`. -/
def readSocketAddrV4 (p : List UInt8) : Option (SocketAddr × List UInt8) :=
  (IpText.readIpv4Addr p).bind fun (ip, p) => (readPort p).map fun (port, p) => (.v4 ip port, p)

/-- `Parser::read_socket_addr_v6`. -/
def readSocketAddrV6 (p : List UInt8) : Option (SocketAddr × List UInt8) :=
  (readGivenChar 91 p).bind fun p => (IpText.readIpv6Addr p).bind fun (ip, p) =>
    let (scopeId, p) := (readScopeId p).getD (0, p)
    (readGivenChar 93 p).bind fun p => (readPort p).map fun (port, p) => (.v6 ip port 0 scopeId, p)

/-- `SocketAddr::from_str`. -/
def parse (s : String) : Option SocketAddr :=
  match (readSocketAddrV4 (Text.asBytes s)).or (readSocketAddrV6 (Text.asBytes s)) with
  | some (addr, []) => some addr
  | _ => none

private theorem readNumberAfter_digitBytes (c : UInt8) {n bound : Nat} (h : n < bound) {rest : List UInt8}
    (hrest : IpText.NoDigit 10 rest) :
    readNumberAfter c bound (c :: (IpText.digitBytes 10 n ++ rest)) = some (n, rest) := by
  rw [readNumberAfter, readGivenChar, if_pos rfl, Option.bind_some]
  exact IpText.readNumber_digitBytes (by decide) (by decide) (by simp) h true hrest

private theorem readPort_digitBytes (port : UInt16) :
    readPort (58 :: IpText.digitBytes 10 port.toNat) = some (port, []) := by
  have hend : IpText.NoDigit 10 [] := by simp [IpText.NoDigit]
  have h := readNumberAfter_digitBytes 58 port.toNat_lt hend
  rw [List.append_nil] at h
  rw [readPort, h, Option.map_some]
  dsimp only
  rw [UInt16.ofNat_toNat]

private theorem readScopeId_digitBytes (scopeId : UInt32) (p : List UInt8) :
    readScopeId (37 :: (IpText.digitBytes 10 scopeId.toNat ++ 93 :: p)) = some (scopeId, 93 :: p) := by
  rw [readScopeId, readNumberAfter_digitBytes 37 scopeId.toNat_lt (IpText.forall_head_cons (by decide) p),
    Option.map_some]
  dsimp only
  rw [UInt32.ofNat_toNat]

/-- A closing bracket is no scope. -/
private theorem readScopeId_bracket (p : List UInt8) : readScopeId (93 :: p) = none := by
  rw [readScopeId, readNumberAfter, readGivenChar, if_neg (by decide)]
  rfl

/-- Both forms of an IPv6 address: what is between the address and the port is the scope. -/
private theorem readSocketAddrV6_of_scope {ip : Octets 16} {port : UInt16} {scopeId : UInt32} {p : List UInt8}
    (hfirst : ∀ b ∈ p.head?, IpText.isV6Byte b = false)
    (hscope : (readScopeId p).getD (0, p) = (scopeId, 93 :: 58 :: IpText.digitBytes 10 port.toNat)) :
    readSocketAddrV6 (91 :: (Text.asBytes (IpText.display (.v6 ip)) ++ p)) = some (.v6 ip port 0 scopeId, []) := by
  rw [readSocketAddrV6, readGivenChar, if_pos rfl, Option.bind_some, IpText.readIpv6Addr_display ip hfirst,
    Option.bind_some]
  dsimp only
  rw [hscope]
  dsimp only
  rw [readGivenChar, if_pos rfl, Option.bind_some, readPort_digitBytes, Option.map_some]

private theorem readSocketAddrV4_bracket (p : List UInt8) : readSocketAddrV4 (91 :: p) = none := by
  have hend : IpText.EndsGroup (91 :: p) := IpText.forall_head_cons (by decide) p
  have hv4 : IpText.readIpv4Addr (91 :: p) = none := IpText.readIpv4Addr_group hend [] (by simp)
  rw [readSocketAddrV4, hv4, Option.bind_none]

/-- What is displayed is read back, if there is no flow label. -/
theorem parse_display {addr : SocketAddr} (h : addr.flowinfo = 0) : parse (display addr) = some addr := by
  have hcolon : Text.asBytes ":" = [58] := by decide
  have hopen : Text.asBytes "[" = [91] := by decide
  have hclose : Text.asBytes "]:" = [93, 58] := by decide
  have hpercent : Text.asBytes "%" = [37] := by decide
  cases addr with
  | v4 ip port =>
    have hbytes : Text.asBytes (display (.v4 ip port)) =
        Text.asBytes (IpText.showV4 ip.val) ++ 58 :: IpText.digitBytes 10 port.toNat := by
      rw [display, Text.asBytes_append, Text.asBytes_append, hcolon, IpText.asBytes_toString, List.append_assoc]
      rfl
    have hread : readSocketAddrV4 (Text.asBytes (display (.v4 ip port))) = some (.v4 ip port, []) := by
      rw [hbytes, readSocketAddrV4, IpText.readIpv4Addr_showV4 ip (IpText.forall_head_cons (by decide) _),
        Option.bind_some]
      dsimp only
      rw [readPort_digitBytes, Option.map_some]
    rw [parse, hread, Option.some_or]
  | v6 ip port flowinfo scopeId =>
    obtain rfl : flowinfo = 0 := h
    have hread : ∃ p, Text.asBytes (display (.v6 ip port 0 scopeId)) = 91 :: p ∧
        readSocketAddrV6 (91 :: p) = some (.v6 ip port 0 scopeId, []) := by
      rw [display]
      split
      · rename_i hzero
        subst hzero
        refine ⟨Text.asBytes (IpText.display (.v6 ip)) ++ 93 :: 58 :: IpText.digitBytes 10 port.toNat, ?_, ?_⟩
        · simp only [Text.asBytes_append, hopen, hclose, IpText.asBytes_toString, List.append_assoc, List.cons_append,
            List.nil_append]
        · refine readSocketAddrV6_of_scope (IpText.forall_head_cons (by decide) _) ?_
          rw [readScopeId_bracket, Option.getD_none]
      · refine ⟨Text.asBytes (IpText.display (.v6 ip)) ++ 37 :: (IpText.digitBytes 10 scopeId.toNat ++
          93 :: 58 :: IpText.digitBytes 10 port.toNat), ?_, ?_⟩
        · simp only [Text.asBytes_append, hopen, hpercent, hclose, IpText.asBytes_toString, List.append_assoc,
            List.cons_append, List.nil_append]
        · refine readSocketAddrV6_of_scope (IpText.forall_head_cons (by decide) _) ?_
          rw [readScopeId_digitBytes, Option.getD_some]
    obtain ⟨p, hbytes, hread⟩ := hread
    rw [parse, hbytes, readSocketAddrV4_bracket, Option.none_or, hread]

theorem noWhitespace_display (addr : SocketAddr) : Text.NoWhitespace (display addr) := by
  cases addr with
  | v4 ip port => exact ((IpText.noWhitespace_display _).append (by decide)).append (Text.noWhitespace_toString _)
  | v6 ip port flowinfo scopeId =>
    have hopen : Text.NoWhitespace ("[" ++ IpText.display (.v6 ip)) :=
      .append (by decide) (IpText.noWhitespace_display _)
    rw [display]
    split
    · exact (hopen.append (by decide)).append (Text.noWhitespace_toString _)
    · exact (((hopen.append (by decide)).append (Text.noWhitespace_toString _)).append (by decide)).append
        (Text.noWhitespace_toString _)

end WarpSocks.SocketText
