/-!
# Addresses of the standard library

`std::net::IpAddr` and `std::net::SocketAddr`.
-/

namespace WarpSocks

/-- A byte array of fixed length. -/
abbrev Octets (n : Nat) := { bytes : List UInt8 // bytes.length = n }

/-- `Ipv4Addr::new`. -/
def Ipv4Addr.new (a b c d : UInt8) : Octets 4 := ⟨[a, b, c, d], rfl⟩

/-- `std::net::IpAddr`. -/
inductive IpAddr where
  | v4 (octets : Octets 4)
  | v6 (octets : Octets 16)
  deriving DecidableEq

/-- `std::net::SocketAddr`.  Two addresses are equal if all their parts are, flow label and scope included. -/
inductive SocketAddr where
  | v4 (ip : Octets 4) (port : UInt16)
  | v6 (ip : Octets 16) (port : UInt16) (flowinfo scopeId : UInt32)
  deriving DecidableEq

namespace SocketAddr

/-- `SocketAddr::new`. -/
def new : IpAddr → UInt16 → SocketAddr
  | .v4 octets, port => .v4 octets port
  | .v6 octets, port => .v6 octets port 0 0

def ip : SocketAddr → IpAddr
  | .v4 ip _ => .v4 ip
  | .v6 ip _ _ _ => .v6 ip

def port : SocketAddr → UInt16
  | .v4 _ port => port
  | .v6 _ port _ _ => port

/-- `SocketAddr::is_ipv4`. -/
def isIpv4 : SocketAddr → Bool
  | .v4 _ _ => true
  | .v6 _ _ _ _ => false

/-- `SocketAddr::is_ipv6`. -/
def isIpv6 : SocketAddr → Bool
  | .v4 _ _ => false
  | .v6 _ _ _ _ => true

theorem isIpv6_eq (a : SocketAddr) : a.isIpv6 = !a.isIpv4 := by
  cases a <;> rfl

/-- The flow label; an IPv4 address has none. -/
def flowinfo : SocketAddr → UInt32
  | .v4 _ _ => 0
  | .v6 _ _ flowinfo _ => flowinfo

end SocketAddr

/-- `u16::from_be_bytes`. -/
def fromBeBytes (hi lo : UInt8) : UInt16 := UInt16.ofNat (hi.toNat * 256 + lo.toNat)

/-- `u16::to_be_bytes`. -/
def toBeBytes (n : UInt16) : List UInt8 := [UInt8.ofNat (n.toNat / 256), UInt8.ofNat n.toNat]

theorem fromBeBytes_toBeBytes (n : UInt16) :
    fromBeBytes (UInt8.ofNat (n.toNat / 256)) (UInt8.ofNat n.toNat) = n := by
  have hlt : n.toNat < 65536 := n.toNat_lt
  apply UInt16.toNat_inj.1
  simp only [fromBeBytes, UInt8.toNat_ofNat', UInt16.toNat_ofNat']
  omega

/-- `u32::from_be_bytes`. -/
def u32FromBeBytes (a b c d : UInt8) : UInt32 :=
  UInt32.ofNat (((a.toNat * 256 + b.toNat) * 256 + c.toNat) * 256 + d.toNat)

/-- `u32::to_be_bytes`. -/
def u32ToBeBytes (n : UInt32) : List UInt8 :=
  [UInt8.ofNat (n.toNat / 16777216), UInt8.ofNat (n.toNat / 65536), UInt8.ofNat (n.toNat / 256), UInt8.ofNat n.toNat]

theorem u32FromBeBytes_u32ToBeBytes (n : UInt32) :
    u32FromBeBytes (UInt8.ofNat (n.toNat / 16777216)) (UInt8.ofNat (n.toNat / 65536)) (UInt8.ofNat (n.toNat / 256))
      (UInt8.ofNat n.toNat) = n := by
  have hlt : n.toNat < 4294967296 := n.toNat_lt
  apply UInt32.toNat_inj.1
  simp only [u32FromBeBytes, UInt8.toNat_ofNat', UInt32.toNat_ofNat']
  omega

end WarpSocks
