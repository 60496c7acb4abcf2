import WarpSocks.HostCase
import WarpSocks.Socks5.Answers
import WarpSocks.Socks5.Header

/-!
# The decoders of an address field

`read_target` and `skip_target` read the address field of a request from a stream, `decode_udp_header` takes the
one of a datagram from a buffer.  Each of them is sound and complete for the same relation up to the case of a
name (`SpellsTarget.encodes`), and bytes begin with at most one address field (`AddressField.unique`), so they
agree.
-/

namespace WarpSocks.Socks5

/-- `target_host_port`. -/
def targetHostPort : SocketAddrOrName → Host × UInt16
  | .addr a => (.ip a.ip, a.port)
  | .name name port => (.parse name, port)

/-- A target spelt in a datagram is encoded in a request with the same bytes, up to the case of a name. -/
theorem SpellsTarget.encodes {atyp : UInt8} {enc : List UInt8} {t : SocketAddrOrName} (h : SpellsTarget atyp enc t) :
    ∃ host, EncodesTarget atyp enc host (targetHostPort t).2 ∧ (targetHostPort t).1.SameUpToCase host := by
  cases h with
  | ipv4 ip hi lo => exact ⟨_, .ipv4 ip hi lo, .refl _⟩
  | ipv6 ip hi lo => exact ⟨_, .ipv6 ip hi lo, .refl _⟩
  | name len name hi lo text htext => exact ⟨_, .name len name hi lo text htext, Host.parse_toLower text⟩

private theorem EncodesTarget.spells {atyp : UInt8} {enc : List UInt8} {host : Host} {port : UInt16}
    (h : EncodesTarget atyp enc host port) : ∃ t, SpellsTarget atyp enc t := by
  cases h with
  | ipv4 ip hi lo => exact ⟨_, .ipv4 ip hi lo⟩
  | ipv6 ip hi lo => exact ⟨_, .ipv6 ip hi lo⟩
  | name len name hi lo text htext => exact ⟨_, .name len name hi lo text htext⟩

/-- Bytes begin with at most one address field of a type. -/
theorem AddressField.unique {atyp : UInt8} {enc enc' tail tail' : List UInt8} (h : AddressField atyp enc)
    (h' : AddressField atyp enc') (hb : enc ++ tail = enc' ++ tail') : enc = enc' ∧ tail = tail' := by
  refine List.append_inj hb ?_
  cases h with
  | ipv4 addr hi lo =>
    cases h' with
    | ipv4 addr' hi' lo' => simp only [List.length_append, addr.property, addr'.property, List.length_cons]
  | ipv6 addr hi lo =>
    cases h' with
    | ipv6 addr' hi' lo' => simp only [List.length_append, addr.property, addr'.property, List.length_cons]
  | name len name hi lo =>
    cases h' with
    | name len' name' hi' lo' =>
      obtain rfl : len = len' := (List.cons.inj hb).1
      simp only [List.length_append, List.length_cons, name.property, name'.property]

section Agreement

variable (s : Session) {atyp : UInt8}

/-- The datagram whose header has the bytes of the stream for its address field. -/
def udpHeaderOf (atyp : UInt8) (bytes : List UInt8) : List UInt8 := 0x00 :: 0x00 :: 0x00 :: atyp :: bytes

private theorem decode_udpHeaderOf {bytes : List UInt8} {t : SocketAddrOrName} {m : Nat} :
    decodeUdpHeader (udpHeaderOf atyp bytes) = some (t, m) ↔
      ∃ enc tail, bytes = enc ++ tail ∧ SpellsTarget atyp enc t ∧ m = enc.length + 4 := by
  unfold udpHeaderOf
  rw [decodeUdpHeader_eq_some_iff]
  constructor
  · rintro ⟨r₀, r₁, atyp', enc, tail, hb, hspell, hm⟩
    simp only [List.cons.injEq, true_and] at hb
    obtain ⟨-, -, rfl, rfl⟩ := hb
    exact ⟨enc, tail, rfl, hspell, by omega⟩
  · rintro ⟨enc, tail, rfl, hspell, rfl⟩
    exact ⟨0, 0, atyp, enc, tail, rfl, hspell, by omega⟩

private theorem skipTarget_of_field {enc tail : List UInt8} (hb : s.reader.bytes = enc ++ tail)
    (h : AddressField atyp enc)
    (hatyp : atyp ∈ [0x01, 0x03, 0x04]) : ∃ s', skipTarget atyp s = (.ok (), s') ∧ s'.reader.bytes = tail := by
  obtain ⟨enc', reader, hb', hfield, hskip⟩ | ⟨hno, -⟩ := skipTarget_cases s hatyp
  · exact ⟨_, hskip, (h.unique hfield (hb.symm.trans hb')).2.symm⟩
  · exact absurd h (hno enc tail hb)

/-- The three decoders of an address field agree: on whether there is one, on where it ends, on the port, and on
the host up to the case of a name; and the end is found also behind a name that is not UTF-8. -/
theorem address_decoders_agree (hatyp : atyp ∈ [0x01, 0x03, 0x04]) :
    ((∃ target s', readTarget atyp s = (.ok target, s')) ↔
      ∃ t m, decodeUdpHeader (udpHeaderOf atyp s.reader.bytes) = some (t, m)) ∧
    (∀ target s' t m, readTarget atyp s = (.ok target, s') →
      decodeUdpHeader (udpHeaderOf atyp s.reader.bytes) = some (t, m) →
        (targetHostPort t).2 = target.port ∧ (targetHostPort t).1.SameUpToCase target.host ∧
        ∃ n ≤ s.reader.bytes.length, m = n + 4 ∧ s'.reader.bytes = s.reader.bytes.drop n ∧
          ∃ s'', skipTarget atyp s = (.ok (), s'') ∧ s''.reader.bytes = s.reader.bytes.drop n) ∧
    ∀ enc tail, s.reader.bytes = enc ++ tail → AddressField atyp enc →
      ∃ s'', skipTarget atyp s = (.ok (), s'') ∧ s''.reader.bytes = tail := by
  refine ⟨?_, ?_, fun enc tail hb h => skipTarget_of_field s hb h hatyp⟩
  · obtain ⟨enc, target, reader, hb, henc, hread⟩ | ⟨hno, e, reader, hread⟩ := readTarget_cases s hatyp
    · obtain ⟨t, hspell⟩ := henc.spells
      exact ⟨fun _ => ⟨t, _, decode_udpHeaderOf.2 ⟨enc, _, hb, hspell, rfl⟩⟩, fun _ => ⟨target, _, hread⟩⟩
    · refine ⟨?_, ?_⟩
      · rintro ⟨target, s', h⟩
        rw [hread] at h
        cases h
      · rintro ⟨t, m, hdecode⟩
        obtain ⟨enc, tail, hb, hspell, -⟩ := decode_udpHeaderOf.1 hdecode
        obtain ⟨host, henc, -⟩ := hspell.encodes
        exact absurd henc (hno enc tail host _ hb)
  · intro target s' t m hread hdecode
    obtain ⟨enc, target', reader, hb, henc, hread'⟩ | ⟨-, e, reader, hread'⟩ := readTarget_cases s hatyp
    · rw [hread'] at hread
      cases hread
      obtain ⟨enc', tail, hb', hspell, rfl⟩ := decode_udpHeaderOf.1 hdecode
      obtain ⟨host, henc', hcase⟩ := hspell.encodes
      obtain ⟨rfl, rfl⟩ := henc.field.unique henc'.field (hb.symm.trans hb')
      obtain ⟨rfl, hport, -⟩ := henc.unique henc' (rfl : enc ++ reader.bytes = _)
      have hdrop : s.reader.bytes.drop enc.length = reader.bytes := by rw [hb, List.drop_left]
      refine ⟨hport, hcase, enc.length, by rw [hb, List.length_append]; omega, rfl, hdrop.symm, ?_⟩
      rw [hdrop]
      exact skipTarget_of_field s hb henc.field hatyp
    · rw [hread'] at hread
      cases hread

end Agreement

/-- The name `A` and the port 53, read byte by byte, with one byte behind them. -/
theorem address_decoders_agree_name :
    ∃ target s', readTarget 0x03 (.start [1, 65, 0, 53, 9] ⟨fun _ => 1, fun _ => Nat.one_pos⟩ none) =
      (.ok target, s') ∧ target.port = 53 ∧ s'.reader.bytes = [9] := by
  have hagree := address_decoders_agree (.start [1, 65, 0, 53, 9] ⟨fun _ => 1, fun _ => Nat.one_pos⟩ none)
    (by decide : (0x03 : UInt8) ∈ [0x01, 0x03, 0x04])
  have hdecode : decodeUdpHeader (udpHeaderOf 0x03 [1, 65, 0, 53, 9]) = some (.name "A".toLower 53, 8) := rfl
  obtain ⟨target, s', hread⟩ := hagree.1.2 ⟨_, _, hdecode⟩
  obtain ⟨hport, -, n, -, hn, hrest, -⟩ := hagree.2.1 target s' _ _ hread hdecode
  obtain rfl : n = 4 := by omega
  exact ⟨target, s', hread, hport.symm, hrest⟩

end WarpSocks.Socks5
