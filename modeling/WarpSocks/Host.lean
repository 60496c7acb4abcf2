import WarpSocks.Net

/-!
# Hosts

`Host::parse` takes a text that is the literal of an IP address for that address and every other text for a domain
name. The literals are those of the standard library: four decimal numbers, or up to eight groups of hexadecimal
digits, with one `::` for groups of zeros and the last two groups possibly in decimal.
-/

namespace WarpSocks

/-- `Host`. -/
inductive Host where
  | domain (name : String)
  | ip (addr : IpAddr)
  deriving DecidableEq

namespace IpText

/-- `char::to_digit`, for an ASCII character. -/
def toDigit (radix : Nat) (c : UInt8) : Option Nat :=
  let digit :=
    if 48 ≤ c ∧ c ≤ 57 then some (c.toNat - 48)
    else if 97 ≤ c ∧ c ≤ 122 then some (c.toNat - 97 + 10)
    else if 65 ≤ c ∧ c ≤ 90 then some (c.toNat - 65 + 10)
    else none
  digit.filter (· < radix)

/-- `Parser::read_number`, for at most `maxDigits` digits and a number below `bound`. -/
def readNumber (radix maxDigits bound : Nat) (allowZeroPrefix : Bool) (p : List UInt8) : Option (Nat × List UInt8) :=
  let digits := p.takeWhile fun c => (toDigit radix c).isSome
  let value := digits.foldl (fun n c => n * radix + (toDigit radix c).getD 0) 0
  if digits.length = 0 ∨ maxDigits < digits.length then none
  else if !allowZeroPrefix && p.head? == some 48 && decide (1 < digits.length) then none
  else if value < bound then some (value, p.drop digits.length)
  else none

/-- `Parser::read_separator`: no separator in front of the first part. -/
def readSeparator {α : Type} (sep : UInt8) (index : Nat) (inner : List UInt8 → Option (α × List UInt8))
    (p : List UInt8) : Option (α × List UInt8) :=
  if index = 0 then inner p
  else
    match p with
    | c :: p => if c = sep then inner p else none
    | [] => none

/-- The decimal number of one octet; octal numbers are not taken. -/
def readOctet (index : Nat) : List UInt8 → Option (Nat × List UInt8) :=
  readSeparator 46 index (readNumber 10 3 256 false)

/-- `Parser::read_ipv4_addr`. -/
def readIpv4Addr (p : List UInt8) : Option (Octets 4 × List UInt8) := do
  let (a, p) ← readOctet 0 p
  let (b, p) ← readOctet 1 p
  let (c, p) ← readOctet 2 p
  let (d, p) ← readOctet 3 p
  return (⟨[a, b, c, d].map UInt8.ofNat, rfl⟩, p)

theorem readIpv4Addr_eq (p : List UInt8) :
    readIpv4Addr p = (readOctet 0 p).bind fun a => (readOctet 1 a.2).bind fun b => (readOctet 2 b.2).bind fun c =>
      (readOctet 3 c.2).bind fun d => some (⟨[a.1, b.1, c.1, d.1].map UInt8.ofNat, rfl⟩, d.2) := rfl

/-- `read_groups`, with the index of the next group and the number of groups that may follow: the groups, whether
the last two were an IPv4 address, and the rest. -/
def readGroups (index : Nat) : Nat → List UInt8 → List Nat × Bool × List UInt8
  | 0, p => ([], false, p)
  | room + 1, p =>
    -- an embedded IPv4 address takes two groups
    match if 0 < room then readSeparator 58 index readIpv4Addr p else none with
    | some (v4, p) =>
      let octets := v4.val.map UInt8.toNat
      ([octets.getD 0 0 * 256 + octets.getD 1 0, octets.getD 2 0 * 256 + octets.getD 3 0], true, p)
    | none =>
      match readSeparator 58 index (readNumber 16 4 65536 true) p with
      | some (g, p) =>
        let (groups, ipv4, p) := readGroups (index + 1) room p
        (g :: groups, ipv4, p)
      | none => ([], false, p)

/-- The octets of eight groups. -/
def octetsOfGroups (groups : List Nat) : Octets 16 :=
  ⟨(List.range 16).map fun i =>
    let g := groups.getD (i / 2) 0
    UInt8.ofNat (if i % 2 = 0 then g / 256 else g), by simp⟩

/-- `Parser::read_ipv6_addr`. -/
def readIpv6Addr (p : List UInt8) : Option (Octets 16 × List UInt8) :=
  let (head, headIpv4, p) := readGroups 0 8 p
  if head.length = 8 then some (octetsOfGroups head, p)
  -- no IPv4 part in front of `::`
  else if headIpv4 then none
  else
    match p with
    | 58 :: 58 :: p =>
      let (tail, _, p) := readGroups 0 (8 - (head.length + 1)) p
      some (octetsOfGroups (head ++ List.replicate (8 - head.length - tail.length) 0 ++ tail), p)
    | _ => none

/-- `Parser::read_ip_addr`. -/
def readIpAddr (p : List UInt8) : Option (IpAddr × List UInt8) :=
  match readIpv4Addr p with
  | some (octets, p) => some (.v4 octets, p)
  | none => (readIpv6Addr p).map fun (octets, p) => (.v6 octets, p)

/-- `IpAddr::from_str`: the whole text has to be the literal. -/
def parse (s : String) : Option IpAddr :=
  match readIpAddr s.toUTF8.data.toList with
  | some (ip, []) => some ip
  | _ => none

/-- Lower-case hexadecimal digits without leading zeros. -/
def hex (n : Nat) : String := String.ofList (Nat.toDigits 16 n)

/-- The start and the length of the first longest run of zero groups, for groups that start at `i`. -/
def longestZeros : Nat → List Nat → (current longest : Nat × Nat) → Nat × Nat
  | _, [], _, longest => longest
  | i, g :: gs, (start, len), longest =>
    if g = 0 then
      let current := (if len = 0 then i else start, len + 1)
      longestZeros (i + 1) gs current (if longest.2 < current.2 then current else longest)
    else longestZeros (i + 1) gs (0, 0) longest

/-- The groups of sixteen octets. -/
def groupsOfOctets (octets : Octets 16) : List Nat :=
  (List.range 8).map fun i => (octets.val.getD (2 * i) 0).toNat * 256 + (octets.val.getD (2 * i + 1) 0).toNat

def showV4 (octets : List UInt8) : String := ".".intercalate (octets.map fun b => toString b.toNat)

/-- `IpAddr::fmt`. -/
def display : IpAddr → String
  | .v4 octets => showV4 octets.val
  | .v6 octets =>
    let groups := groupsOfOctets octets
    if groups.take 6 = [0, 0, 0, 0, 0, 0xffff] then "::ffff:" ++ showV4 (octets.val.drop 12)
    else
      let (start, len) := longestZeros 0 groups (0, 0) (0, 0)
      let join (gs : List Nat) := ":".intercalate (gs.map hex)
      if 1 < len then join (groups.take start) ++ "::" ++ join (groups.drop (start + len)) else join groups

end IpText

/-- `Host::parse`. -/
def Host.parse (s : String) : Host :=
  match IpText.parse s with
  | some addr => .ip addr
  | none => .domain s

end WarpSocks
