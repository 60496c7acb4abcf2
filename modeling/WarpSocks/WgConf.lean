import WarpSocks.Io
import WarpSocks.SocketText
import WarpSocks.Wire.Base64

/-!
# The configuration of WireGuard as a file

`write_wg_conf` writes the configuration of a run to `wg0.conf`, one line for each field, and `parse_wg_conf`
reads such a file, line by line.  The resolver of the system, to which `to_socket_addrs` turns for what is no
literal, and the texts of the errors of the base64 decoder are parameters.
-/

namespace WarpSocks

/-- `WgConfig`. -/
structure WgConfig where
  privateKey : Octets 32
  peerPublicKey : Octets 32
  endpoint : SocketAddr
  reserved : Octets 3
  addressV4 : Octets 4
  addressV6 : Octets 16
  deriving DecidableEq

namespace WgConf

/-- The symbols of the base64 engine `STANDARD`. -/
def symbols : List Char := "ABCDEFGHIJKLMNOPQRSTUVWXYZabcdefghijklmnopqrstuvwxyz0123456789+/".toList

/-- `base64::engine::general_purpose::STANDARD`. -/
def standard : Wire.Alphabet Char where
  symbol n := symbols.getD n 'A'
  value c := if c ∈ symbols then some (symbols.idxOf c) else none
  pad := '='
  value_symbol := by decide +kernel
  value_pad := by decide +kernel

/-- `STANDARD.encode`. -/
def encode (bytes : List UInt8) : String := .ofList (standard.encode bytes)

/-- What is outside of the program. -/
structure Outside where
  /-- The text of the error of `STANDARD.decode`. -/
  decodeError : String → String
  /-- The resolver of the system. -/
  lookup : String → Except IoError (List SocketAddr)

variable (outside : Outside)

/-- `decode_key`. -/
def decodeKey (b64 : String) : Except Chain (Octets 32) :=
  match standard.decode (Text.trim b64).toList with
  | none => .error ["密钥 base64 解码失败", outside.decodeError (Text.trim b64)]
  | some raw => if h : raw.length = 32 then .ok ⟨raw, h⟩ else .error [s!"key 长度应为32字节，实际 {raw.length}"]

/-- `str::to_socket_addrs`. -/
def toSocketAddrs (s : String) : Except IoError (List SocketAddr) :=
  match SocketText.parse s with
  | some addr => .ok [addr]
  | none => outside.lookup s

/-- The variables of the loop of `parse_wg_conf`. -/
structure Fields where
  privateKey : Option (Octets 32)
  peerPublicKey : Option (Octets 32)
  endpoint : Option SocketAddr
  reserved : Octets 3
  addressV4 : Option (Octets 4)
  addressV6 : Option (Octets 16)

/-- The value of `Endpoint`. -/
def readEndpoint (value : String) : Except Chain SocketAddr :=
  (orContext [s!"Endpoint 解析失败: {value}"] (toSocketAddrs outside value)).bind fun addrs =>
    match addrs.head? with
    | some addr => .ok addr
    | none => .error [s!"Endpoint 无法解析为地址: {value}"]

/-- One of the numbers of `Reserved`. -/
def readReservedByte (value part : String) : Except Chain UInt8 :=
  match Text.parseUnsigned 256 (Text.trim part) with
  | some n => .ok (UInt8.ofNat n)
  | none => .error [s!"Reserved 解析失败: {value}", Text.parseIntError 256 (Text.trim part)]

/-- The value of `Reserved`. -/
def readReserved (value : String) : Except Chain (Octets 3) :=
  match Text.split value ',' with
  | [a, b, c] => do
    let a ← readReservedByte value a
    let b ← readReservedByte value b
    let c ← readReservedByte value c
    return ⟨[a, b, c], rfl⟩
  | _ => .error [s!"Reserved 字段格式错误: {value}"]

/-- The value of `Address`, of either family. -/
def readAddress (fields : Fields) (value : String) : Except Chain Fields :=
  match IpText.parse (Text.trim ((Text.split value '/').headD value)) with
  | some (.v4 v4) => .ok { fields with addressV4 := some v4 }
  | some (.v6 v6) => .ok { fields with addressV6 := some v6 }
  | none => .error [s!"Address 解析失败: {value}: invalid IP address syntax"]

/-- One field; other keys are ignored. -/
def readField (fields : Fields) (key value : String) : Except Chain Fields :=
  if key = "PrivateKey" then (decodeKey outside value).map fun k => { fields with privateKey := some k }
  else if key = "PublicKey" then (decodeKey outside value).map fun k => { fields with peerPublicKey := some k }
  else if key = "Endpoint" then (readEndpoint outside value).map fun addr => { fields with endpoint := some addr }
  else if key = "Reserved" then (readReserved value).map fun reserved => { fields with reserved := reserved }
  else if key = "Address" then readAddress fields value
  else .ok fields

/-- One turn of the loop. -/
def readLine (fields : Fields) (line : String) : Except Chain Fields :=
  match Text.splitOnce (Text.trim line) '=' with
  | none => .ok fields
  | some (key, value) => readField outside fields (Text.trim key) (Text.trim value)

/-- `Option::ok_or_else`. -/
def required {α : Type} (what : String) : Option α → Except Chain α
  | some a => .ok a
  | none => .error [s!"wg0.conf 缺少 {what}"]

/-- `parse_wg_conf`, with what `fs::read_to_string` returns for the path. -/
def parseWgConf (path : String) (text : Except IoError String) : Except Chain WgConfig := do
  let text ← orContext [s!"读取 {path} 失败"] text
  let fields ← (Text.lines text).foldlM (readLine outside) ⟨none, none, none, ⟨[0, 0, 0], rfl⟩, none, none⟩
  return {
    privateKey := ← required "PrivateKey" fields.privateKey
    peerPublicKey := ← required "[Peer] PublicKey" fields.peerPublicKey
    endpoint := ← required "Endpoint" fields.endpoint
    reserved := fields.reserved
    addressV4 := ← required "IPv4 Address" fields.addressV4
    addressV6 := ← required "IPv6 Address" fields.addressV6 }

/-- The lines that `write_wg_conf` writes. -/
def wgConfLines (config : WgConfig) : List String :=
  ["[Interface]",
    "PrivateKey = " ++ encode config.privateKey.val,
    "Address = " ++ (IpText.display (.v4 config.addressV4) ++ "/32"),
    "Address = " ++ (IpText.display (.v6 config.addressV6) ++ "/128"),
    "",
    "[Peer]",
    "PublicKey = " ++ encode config.peerPublicKey.val,
    "AllowedIPs = 0.0.0.0/0,::/0",
    "Endpoint = " ++ SocketText.display config.endpoint,
    "Reserved = " ++ ",".intercalate (config.reserved.val.map fun b => toString b.toNat)]

/-- `write_wg_conf`, with what `write_private` returns: the result, and the file afterwards. -/
def writeWgConf (config : WgConfig) (path : String) (written : Except IoError Unit) (file : Option String) :
    Except Chain Unit × Option String :=
  let text := String.join ((wgConfLines config).map (· ++ "\n"))
  match written with
  | .ok () => (.ok (), some text)
  | .error e => (.error [s!"写入 {path} 失败", e.msg], file)

/-! ### One line -/

/-- A line with a key and a value. -/
private theorem readLine_field {front key : String} (hfront : front = key ++ " = ")
    (hkey : Text.NoWhitespace key ∧ key.toList ≠ [] ∧ '=' ∉ key.toList) {value : String}
    (hvalue : Text.NoWhitespace value ∧ value.toList ≠ []) (fields : Fields) :
    readLine outside fields (front ++ value) = readField outside fields key value := by
  obtain ⟨hkey, hne, hequals⟩ := hkey
  obtain ⟨hvalue, hne'⟩ := hvalue
  have hspace : ∀ c ∈ " ".toList, Text.isWhitespace c := by
    intro c hc
    obtain rfl : c = ' ' := by simpa using hc
    decide
  have htrim : Text.trim (front ++ value) = front ++ value := by
    rw [hfront]
    refine Text.trim_eq_self ?_ ?_
    · intro c hc
      rw [String.toList_append, String.toList_append, List.append_assoc, List.head?_append_of_ne_nil _ hne] at hc
      exact Text.noWhitespace_iff.1 hkey c (List.mem_of_mem_head? hc)
    · intro c hc
      rw [String.toList_append, List.getLast?_append_of_ne_nil _ hne'] at hc
      exact Text.noWhitespace_iff.1 hvalue c (List.mem_of_getLast? hc)
  have hsplit : Text.splitOnce (front ++ value) '=' = some (key ++ " ", " " ++ value) := by
    rw [Text.splitOnce_eq_some_iff, hfront]
    simp [hequals]
  have hkey' : Text.trim (key ++ " ") = key := by simpa using hkey.trim_surrounded "" " " (by simp) hspace
  have hvalue' : Text.trim (" " ++ value) = value := by simpa using hvalue.trim_surrounded " " "" hspace (by simp)
  rw [readLine, htrim, hsplit]
  dsimp only
  rw [hkey', hvalue']

private theorem noWhitespace_encode (bytes : List UInt8) : Text.NoWhitespace (encode bytes) := by
  rw [Text.noWhitespace_iff, encode, String.toList_ofList]
  intro c hc
  rcases standard.mem_encode hc with rfl | ⟨n, hn, rfl⟩
  · decide
  · have hall : ∀ n < 64, Text.isWhitespace (standard.symbol n) = false := by decide +kernel
    exact hall n hn

/-- A key is read back. -/
private theorem decodeKey_encode (key : Octets 32) : decodeKey outside (encode key.val) = .ok key := by
  rw [decodeKey, (noWhitespace_encode key.val).trim, encode, String.toList_ofList, standard.decode_encode]
  dsimp only
  rw [dif_pos key.property]

private theorem readEndpoint_display {addr : SocketAddr} (h : addr.flowinfo = 0) :
    readEndpoint outside (SocketText.display addr) = .ok addr := by
  rw [readEndpoint, toSocketAddrs, SocketText.parse_display h]
  rfl

private theorem readReservedByte_toString (value : String) (b : UInt8) :
    readReservedByte value (toString b.toNat) = .ok b := by
  rw [readReservedByte, (Text.noWhitespace_toString _).trim, Text.parseUnsigned_toString b.toNat_lt]
  dsimp only
  rw [UInt8.ofNat_toNat]

/-- The three numbers are read back. -/
private theorem readReserved_intercalate (reserved : Octets 3) :
    readReserved (",".intercalate (reserved.val.map fun b => toString b.toNat)) = .ok reserved := by
  obtain ⟨bytes, hbytes⟩ := reserved
  obtain ⟨a, b, c, rfl⟩ := List.length_eq_three.1 hbytes
  have hcomma (n : Nat) : ',' ∉ (toString n).toList := fun h => absurd (Text.isDigit_of_mem_toString h) (by decide)
  have hsplit : Text.split (",".intercalate ([a, b, c].map fun b => toString b.toNat)) ',' =
      [toString a.toNat, toString b.toNat, toString c.toNat] := by
    rw [Text.split_of_append (a := toString a.toNat) (b := toString b.toNat ++ "," ++ toString c.toNat) (by simp)
      (hcomma _), Text.split_of_append (a := toString b.toNat) (b := toString c.toNat) (by simp) (hcomma _),
      Text.split_of_notMem (hcomma _)]
  rw [readReserved, hsplit]
  dsimp only
  rw [readReservedByte_toString, readReservedByte_toString, readReservedByte_toString]
  rfl

/-- An address is read back, whatever is behind the slash. -/
private theorem parse_before_slash (ip : IpAddr) (mask bits : String) (h : mask.toList = '/' :: bits.toList) :
    IpText.parse (Text.trim ((Text.split (IpText.display ip ++ mask) '/').headD (IpText.display ip ++ mask))) =
      some ip := by
  rw [Text.split_of_append (a := IpText.display ip) (b := bits) (by rw [String.toList_append, h])
    (IpText.slash_notMem_display ip), List.headD_cons, (IpText.noWhitespace_display ip).trim, IpText.parse_display]

private theorem value_key (key : Octets 32) : Text.NoWhitespace (encode key.val) ∧ (encode key.val).toList ≠ [] := by
  refine ⟨noWhitespace_encode _, ?_⟩
  rw [encode, String.toList_ofList]
  exact standard.encode_ne_nil (List.ne_nil_of_length_pos (by rw [key.property]; decide))

private theorem value_address (ip : IpAddr) {bits : String} (h : Text.NoWhitespace bits) :
    Text.NoWhitespace (IpText.display ip ++ bits) ∧ (IpText.display ip ++ bits).toList ≠ [] := by
  refine ⟨(IpText.noWhitespace_display ip).append h, ?_⟩
  rw [String.toList_append]
  exact List.append_ne_nil_of_left_ne_nil (IpText.ne_nil_of_parse (IpText.parse_display ip)) _

private theorem value_endpoint (addr : SocketAddr) :
    Text.NoWhitespace (SocketText.display addr) ∧ (SocketText.display addr).toList ≠ [] := by
  refine ⟨SocketText.noWhitespace_display addr, ?_⟩
  cases addr with
  | v4 ip port => simp [SocketText.display]
  | v6 ip port flowinfo scopeId =>
    rw [SocketText.display]
    split
    · simp
    · simp

private theorem value_reserved (reserved : Octets 3) :
    Text.NoWhitespace (",".intercalate (reserved.val.map fun b => toString b.toNat)) ∧
      (",".intercalate (reserved.val.map fun b => toString b.toNat)).toList ≠ [] := by
  obtain ⟨bytes, hbytes⟩ := reserved
  obtain ⟨a, b, c, rfl⟩ := List.length_eq_three.1 hbytes
  have hnumber (n : Nat) : Text.NoWhitespace (toString n ++ ",") := (Text.noWhitespace_toString n).append (by decide)
  have hjoin : ",".intercalate ([a, b, c].map fun b => toString b.toNat) =
      toString a.toNat ++ "," ++ (toString b.toNat ++ "," ++ toString c.toNat) := by
    rw [← String.toList_inj]
    simp
  rw [hjoin]
  exact ⟨(hnumber _).append ((hnumber _).append (Text.noWhitespace_toString _)), by simp⟩

/-! ### The lines -/

private theorem readLine_other (line : String) (hline : Text.splitOnce (Text.trim line) '=' = none)
    (fields : Fields) :
    readLine outside fields line = .ok fields := by rw [readLine, hline]

private theorem readLine_privateKey (key : Octets 32) (fields : Fields) :
    readLine outside fields ("PrivateKey = " ++ encode key.val) = .ok { fields with privateKey := some key } := by
  rw [readLine_field outside (by decide : _ = "PrivateKey" ++ " = ") (by decide) (value_key key), readField,
    if_pos rfl, decodeKey_encode]
  rfl

private theorem readLine_publicKey (key : Octets 32) (fields : Fields) :
    readLine outside fields ("PublicKey = " ++ encode key.val) = .ok { fields with peerPublicKey := some key } := by
  rw [readLine_field outside (by decide : _ = "PublicKey" ++ " = ") (by decide) (value_key key), readField,
    if_neg (by decide), if_pos rfl, decodeKey_encode]
  rfl

private theorem readLine_endpoint {addr : SocketAddr} (h : addr.flowinfo = 0) (fields : Fields) :
    readLine outside fields ("Endpoint = " ++ SocketText.display addr) =
      .ok { fields with endpoint := some addr } := by
  rw [readLine_field outside (by decide : _ = "Endpoint" ++ " = ") (by decide) (value_endpoint addr), readField,
    if_neg (by decide), if_neg (by decide), if_pos rfl, readEndpoint_display outside h]
  rfl

private theorem readLine_reserved (reserved : Octets 3) (fields : Fields) :
    readLine outside fields ("Reserved = " ++ ",".intercalate (reserved.val.map fun b => toString b.toNat)) =
      .ok { fields with reserved := reserved } := by
  rw [readLine_field outside (by decide : _ = "Reserved" ++ " = ") (by decide) (value_reserved reserved), readField,
    if_neg (by decide), if_neg (by decide), if_neg (by decide), if_pos rfl, readReserved_intercalate]
  rfl

/-- Both families have the same key. -/
private theorem readLine_address (ip : IpAddr) {mask : String} (hmask : Text.NoWhitespace mask) (fields : Fields) :
    readLine outside fields ("Address = " ++ (IpText.display ip ++ mask)) = readAddress fields
      (IpText.display ip ++ mask) := by
  rw [readLine_field outside (by decide : _ = "Address" ++ " = ") (by decide) (value_address ip hmask), readField,
    if_neg (by decide), if_neg (by decide), if_neg (by decide), if_neg (by decide), if_pos rfl]

private theorem readLine_addressV4 (ip : Octets 4) (fields : Fields) :
    readLine outside fields ("Address = " ++ (IpText.display (.v4 ip) ++ "/32")) =
      .ok { fields with addressV4 := some ip } := by
  rw [readLine_address outside (.v4 ip) (by decide)]
  unfold readAddress
  rw [parse_before_slash (.v4 ip) "/32" "32" (by decide)]

private theorem readLine_addressV6 (ip : Octets 16) (fields : Fields) :
    readLine outside fields ("Address = " ++ (IpText.display (.v6 ip) ++ "/128")) =
      .ok { fields with addressV6 := some ip } := by
  rw [readLine_address outside (.v6 ip) (by decide)]
  unfold readAddress
  rw [parse_before_slash (.v6 ip) "/128" "128" (by decide)]

/-- The key of this line is none of those that are read. -/
private theorem readLine_allowedIPs (fields : Fields) :
    readLine outside fields "AllowedIPs = 0.0.0.0/0,::/0" = .ok fields := by
  rw [show "AllowedIPs = 0.0.0.0/0,::/0" = "AllowedIPs = " ++ "0.0.0.0/0,::/0" by decide,
    readLine_field outside (by decide : _ = "AllowedIPs" ++ " = ") (by decide) (by decide), readField,
      if_neg (by decide),
    if_neg (by decide), if_neg (by decide), if_neg (by decide), if_neg (by decide)]

/-! ### The file -/

private theorem oneLine_wgConfLines (config : WgConfig) : ∀ line ∈ wgConfLines config, Text.OneLine line := by
  have hfield {front value : String} (hfront : Text.OneLine front) (hvalue : Text.NoWhitespace value) :
      Text.OneLine (front ++ value) := hfront.append hvalue.oneLine
  intro line hline
  simp only [wgConfLines, List.mem_cons, List.not_mem_nil, or_false] at hline
  rcases hline with rfl | rfl | rfl | rfl | rfl | rfl | rfl | rfl | rfl | rfl
  · decide
  · exact hfield (by decide) (value_key _).1
  · exact hfield (by decide) (value_address _ (by decide)).1
  · exact hfield (by decide) (value_address _ (by decide)).1
  · decide
  · decide
  · exact hfield (by decide) (value_key _).1
  · decide
  · exact hfield (by decide) (value_endpoint _).1
  · exact hfield (by decide) (value_reserved _).1

/-- What the lines give to the loop. -/
private theorem foldlM_wgConfLines {config : WgConfig} (h : config.endpoint.flowinfo = 0) (fields : Fields) :
    (wgConfLines config).foldlM (readLine outside) fields =
      .ok ⟨some config.privateKey, some config.peerPublicKey, some config.endpoint, config.reserved,
        some config.addressV4, some config.addressV6⟩ := by
  rw [wgConfLines]
  simp only [List.foldlM_cons, List.foldlM_nil, readLine_other outside "[Interface]" (by decide),
    readLine_other outside "" (by decide), readLine_other outside "[Peer]" (by decide),
    readLine_privateKey, readLine_addressV4, readLine_addressV6, readLine_publicKey, readLine_allowedIPs,
    readLine_endpoint outside h, readLine_reserved, bind, Except.bind]
  rfl

/-- What was written is read back, if the endpoint has no flow label. -/
theorem parseWgConf_writeWgConf {config : WgConfig} (h : config.endpoint.flowinfo = 0) (path : String)
    (file : Option String) :
    ∃ text, writeWgConf config path (.ok ()) file = (.ok (), some text) ∧
      parseWgConf outside path (.ok text) = .ok config := by
  refine ⟨_, rfl, ?_⟩
  rw [parseWgConf, orContext]
  dsimp only [bind, Except.bind]
  rw [Text.lines_join (oneLine_wgConfLines config), foldlM_wgConfLines outside h]
  rfl

/-- An endpoint with a scope. -/
theorem parseWgConf_writeWgConf_scoped :
    let config : WgConfig := ⟨⟨List.replicate 32 1, rfl⟩, ⟨List.replicate 32 2, rfl⟩,
      .v6 ⟨[0xfe, 0x80, 0, 0, 0, 0, 0, 0, 0, 0, 0, 0, 0, 0, 0, 1], rfl⟩ 2408 0 3, ⟨[1, 2, 3], rfl⟩,
      Ipv4Addr.new 10 0 0 2, ⟨[0xfd, 0, 0, 0, 0, 0, 0, 0, 0, 0, 0, 0, 0, 0, 0, 2], rfl⟩⟩
    ∃ text, writeWgConf config "wg0.conf" (.ok ()) none = (.ok (), some text) ∧
      parseWgConf ⟨fun _ => "", fun _ => .ok []⟩ "wg0.conf" (.ok text) = .ok config := by
  intro config
  exact parseWgConf_writeWgConf _ (show config.endpoint.flowinfo = 0 from rfl) "wg0.conf" none

end WgConf

end WarpSocks
