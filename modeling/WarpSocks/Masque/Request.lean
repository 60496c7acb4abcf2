import WarpSocks.Masque.Frame
import WarpSocks.Text

/-!
# The CONNECT request

The encoders of `masque/qpack.rs`: a field section with three lines that refer to the static table, in a HEADERS
frame.
-/

namespace WarpSocks.Masque

namespace Qpack

/-- The loop of `encode_integer`: groups of seven bits, the least significant first. -/
def encodeGroups (out : List UInt8) (rest : Nat) : List UInt8 :=
  if 128 ≤ rest then encodeGroups (out ++ [UInt8.ofNat (rest &&& 0x7f) ||| 0x80]) (rest >>> 7)
  else out ++ [UInt8.ofNat rest]
termination_by rest
decreasing_by rw [Nat.shiftRight_eq_div_pow]; omega

/-- `encode_integer`. -/
def encodeInteger (out : List UInt8) (value prefixBits : Nat) (prefixMax : UInt8) : List UInt8 :=
  let max := 1 <<< prefixBits - 1
  if value < max then out ++ [prefixMax ||| UInt8.ofNat value]
  else encodeGroups (out ++ [prefixMax ||| UInt8.ofNat max]) (value - max)

/-- `encode_string`. -/
def encodeString (out s : List UInt8) : List UInt8 := encodeInteger out s.length 7 0x00 ++ s

/-- `encode_connect_request`. -/
def encodeConnectRequest (authority bearerToken : String) : List UInt8 :=
  -- the section prefix, `:method: CONNECT` and the name `:authority`
  let out := encodeString [0x00, 0x00, 0xcf, 0x50] (Text.asBytes authority)
  -- the name `authorization`, never indexed
  encodeString (out ++ [0x7f, 0x45]) (Text.asBytes bearerToken)

end Qpack

/-- `qpack::headers_frame`. -/
def headersFrame (payload : List UInt8) : Option (List UInt8) := writeFrame [] 0x01 payload

end WarpSocks.Masque
