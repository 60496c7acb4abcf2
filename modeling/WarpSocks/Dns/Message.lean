import WarpSocks.Io
import WarpSocks.Machine.Checked
import WarpSocks.Net
import WarpSocks.Text

/-!
# DNS messages

`encode_dns_query` and `parse_dns_response`.  The response is read by position: each index of the source is
checked here, and one behind the end of the buffer is a panic.  Positions are natural numbers; they stay below the
length of the buffer plus a label.
-/

namespace WarpSocks.Dns

open Machine (Checked)

/-- `RecordType`. -/
inductive RecordType where
  | a
  | aaaa
  deriving DecidableEq, Repr

/-- `RecordType::qtype`. -/
def RecordType.qtype : RecordType → UInt16
  | .a => 1
  | .aaaa => 28

section Query

-- `{:?}` of a text, which only the errors hold
variable (debug : String → String)

/-- One round of the loop over the labels. -/
def pushLabel (msg : List UInt8) (label : String) : Except Chain (List UInt8) :=
  let bytes := Text.asBytes label
  if bytes = [] ∨ 63 < bytes.length then .error [s!"DNS 域名标签长度非法: {debug label}"]
  else .ok (msg ++ UInt8.ofNat bytes.length :: bytes)

/-- `encode_dns_query`. -/
def encodeDnsQuery (id : UInt16) (name : String) (recordType : RecordType) : Except Chain (List UInt8) := do
  -- flags with RD, one question and no other record
  let msg := toBeBytes id ++ toBeBytes 0x0100 ++ toBeBytes 1 ++ [0, 0, 0, 0, 0, 0]
  let name := Text.trimEndMatches name '.'
  let bytes := Text.asBytes name
  if bytes = [] ∨ 253 < bytes.length then throw [s!"DNS 域名长度非法: {debug name}"]
  else
    let msg ← (Text.split name '.').foldlM (pushLabel debug) msg
    return msg ++ [0] ++ toBeBytes recordType.qtype ++ toBeBytes 1

end Query

/-- The big-endian number in the two bytes at `pos`. -/
def u16At (buf : List UInt8) (pos : Nat) : Checked Chain UInt16 := do
  let hi ← Checked.index buf pos
  let lo ← Checked.index buf (pos + 1)
  return fromBeBytes hi lo

/-- The big-endian number in the four bytes at `pos`. -/
def u32At (buf : List UInt8) (pos : Nat) : Checked Chain UInt32 := do
  let a ← Checked.index buf pos
  let b ← Checked.index buf (pos + 1)
  let c ← Checked.index buf (pos + 2)
  let d ← Checked.index buf (pos + 3)
  return u32FromBeBytes a b c d

/-- `skip_name`: the position behind the name.  A pointer is not followed. -/
def skipName (buf : List UInt8) (pos : Nat) : Checked Chain Nat :=
  if buf.length ≤ pos then throw ["DNS 报文越界: name 解析越界"]
  else do
    let len ← Checked.index buf pos
    if len = 0 then return pos + 1
    else if len &&& 0xC0 = 0xC0 then
      if buf.length ≤ pos + 1 then throw ["DNS 报文越界: 压缩指针越界"]
      else return pos + 2
    else skipName buf (pos + (1 + len.toNat))
termination_by buf.length - pos

/-- The checks of `parse_dns_response` on the header. -/
def checkHeader (buf : List UInt8) (expectedId : UInt16) : Checked Chain Unit :=
  if buf.length < 12 then throw [s!"DNS 响应过短: {buf.length} 字节"]
  else do
    let id ← u16At buf 0
    if id ≠ expectedId then throw [s!"DNS 响应 ID 不匹配: 期望 {expectedId.toNat}, 实际 {id.toNat}"]
    else
      let flags ← u16At buf 2
      if flags &&& 0x8000 = 0 then throw ["DNS 报文不是响应"]
      else if flags &&& 0x0200 ≠ 0 then throw ["DNS UDP 响应被截断"]
      else
        match flags &&& 0x000f with
        | 0 => return ()
        | 3 => throw ["DNS 域名不存在（NXDOMAIN）"]
        | rcode => throw [s!"DNS 服务返回错误 RCODE={rcode.toNat}"]

/-- The loop over the questions, for the number of them that are left. -/
def skipQuestions (buf : List UInt8) : Nat → Nat → Checked Chain Nat
  | 0, pos => return pos
  | n + 1, pos => do
    let pos ← skipName buf pos
    if buf.length < pos + 4 then throw ["DNS 响应越界: question 不完整"]
    -- type and class
    else skipQuestions buf n (pos + 4)

/-- The address in the `rdlength` bytes at `pos`, for a record of the wanted type. -/
def addressAt (buf : List UInt8) (recordType : RecordType) (pos : Nat) (rtype : UInt16) (rdlength : Nat) :
    Checked Chain (Option IpAddr) :=
  match recordType, rtype, rdlength with
  | .a, 1, 4 => do
    let a ← Checked.index buf pos
    let b ← Checked.index buf (pos + 1)
    let c ← Checked.index buf (pos + 2)
    let d ← Checked.index buf (pos + 3)
    return some (.v4 (Ipv4Addr.new a b c d))
  | .aaaa, 28, 16 => do
    let octets ← Checked.slice buf pos 16
    return some (.v6 octets)
  | _, _, _ => return none

/-- The loop over the answers, for the number of them that are left: the addresses and the least time to live. -/
def readAnswers (buf : List UInt8) (recordType : RecordType) :
    Nat → Nat → List IpAddr → UInt32 → Checked Chain (List IpAddr × UInt32)
  | 0, _, addrs, minTtl => return (addrs, minTtl)
  | n + 1, pos, addrs, minTtl => do
    let pos ← skipName buf pos
    if buf.length < pos + 10 then throw ["DNS 响应越界: answer 头部不完整"]
    else
      let rtype ← u16At buf pos
      let ttl ← u32At buf (pos + 4)
      let rdlength ← u16At buf (pos + 8)
      let rdlength := rdlength.toNat
      let pos := pos + 10
      if buf.length < pos + rdlength then throw ["DNS 响应越界: rdata 不完整"]
      else
        match ← addressAt buf recordType pos rtype rdlength with
        | some addr => readAnswers buf recordType n (pos + rdlength) (addrs ++ [addr]) (min minTtl ttl)
        | none => readAnswers buf recordType n (pos + rdlength) addrs minTtl

/-- `parse_dns_response`. -/
def parseDnsResponse (buf : List UInt8) (expectedId : UInt16) (recordType : RecordType) :
    Checked Chain (List IpAddr × UInt32) := do
  checkHeader buf expectedId
  let qdcount ← u16At buf 4
  let ancount ← u16At buf 6
  let pos ← skipQuestions buf qdcount.toNat 12
  readAnswers buf recordType ancount.toNat pos [] 0xffffffff

end WarpSocks.Dns
