import WarpSocks.Machine.Checked
import WarpSocks.Socks5.Udp

/-!
# The header of a relayed datagram

What RFC 1928 writes in front of the payload, as a relation between bytes and the target they spell
(`SpellsTarget`), and `decode_udp_header` as its decoder: one lemma for each outcome (`decode_ipv4`,
`decode_name`, ...), from which it is sound and complete.  `decodeUdpHeaderChecked` is the same function with the
indices of the source, each of them checked.
-/

namespace WarpSocks.Socks5

open Machine (Checked)

/-- The target that an address and a port spell under an address type.  A name is lower-cased. -/
inductive SpellsTarget : UInt8 → List UInt8 → SocketAddrOrName → Prop where
  | ipv4 (ip : Octets 4) (hi lo : UInt8) :
    SpellsTarget 0x01 (ip.val ++ [hi, lo]) (.addr (.new (.v4 ip) (fromBeBytes hi lo)))
  | ipv6 (ip : Octets 16) (hi lo : UInt8) :
    SpellsTarget 0x04 (ip.val ++ [hi, lo]) (.addr (.new (.v6 ip) (fromBeBytes hi lo)))
  | name (len : UInt8) (name : Octets len.toNat) (hi lo : UInt8) (text : String) :
    stringFromUtf8 name.val = some text →
      SpellsTarget 0x03 (len :: name.val ++ [hi, lo]) (.name text.toLower (fromBeBytes hi lo))

section Outcomes

private theorem portAt_append (front : List UInt8) (hi lo : UInt8) (rest : List UInt8) {pos : Nat}
    (h : pos = front.length) :
    portAt (front ++ hi :: lo :: rest) pos = fromBeBytes hi lo := by
  subst h
  simp [portAt]

private theorem octetsAt_append {n : Nat} (front : List UInt8) (x : Octets n) (rest : List UInt8) {pos : Nat}
    (hpos : pos = front.length) (h : pos + n ≤ (front ++ (x.val ++ rest)).length) :
    octetsAt (front ++ (x.val ++ rest)) pos n h = x := by
  subst hpos
  apply Subtype.ext
  simp only [octetsAt, List.drop_left, List.take_left' x.property]

variable (r₀ r₁ : UInt8)

/-- The address and the port behind the first four bytes. -/
private theorem at_field {n pos : Nat} (atyp : UInt8) (x : Octets n) (hi lo : UInt8) (p : List UInt8)
    (hpos : pos = 4 + n) (h : 4 + n ≤ (r₀ :: r₁ :: 0 :: atyp :: (x.val ++ hi :: lo :: p)).length) :
    octetsAt (r₀ :: r₁ :: 0 :: atyp :: (x.val ++ hi :: lo :: p)) 4 n h = x ∧
      portAt (r₀ :: r₁ :: 0 :: atyp :: (x.val ++ hi :: lo :: p)) pos = fromBeBytes hi lo := by
  have hx := x.property
  exact ⟨octetsAt_append [r₀, r₁, 0, atyp] x (hi :: lo :: p) rfl h,
    portAt_append (r₀ :: r₁ :: 0 :: atyp :: x.val) hi lo p (by simp only [List.length_cons]; omega)⟩

theorem decode_ipv4 (x : Octets 4) (hi lo : UInt8) (p : List UInt8) :
    decodeUdpHeader (r₀ :: r₁ :: 0 :: 0x01 :: (x.val ++ hi :: lo :: p)) =
      some (.addr (.new (.v4 x) (fromBeBytes hi lo)), 10) := by
  have hx := x.property
  unfold decodeUdpHeader
  rw [if_neg (by simp)]
  simp only [List.getD_cons_succ, List.getD_cons_zero]
  have hlen : 10 ≤ (r₀ :: r₁ :: 0 :: 0x01 :: (x.val ++ hi :: lo :: p)).length := by simp [hx]; omega
  obtain ⟨hip, hport⟩ := at_field r₀ r₁ 0x01 x hi lo p rfl (by omega)
  rw [dif_neg (by omega), hip, hport]

private theorem decode_ipv4_short {rest : List UInt8} (h : rest.length < 4 + 2) :
    decodeUdpHeader (r₀ :: r₁ :: 0 :: 0x01 :: rest) = none := by
  unfold decodeUdpHeader
  rw [if_neg (by simp)]
  simp only [List.getD_cons_succ, List.getD_cons_zero]
  rw [dif_pos (by simp only [List.length_cons]; omega)]

private theorem decode_ipv6 (x : Octets 16) (hi lo : UInt8) (p : List UInt8) :
    decodeUdpHeader (r₀ :: r₁ :: 0 :: 0x04 :: (x.val ++ hi :: lo :: p)) =
      some (.addr (.new (.v6 x) (fromBeBytes hi lo)), 22) := by
  have hx := x.property
  unfold decodeUdpHeader
  rw [if_neg (by simp)]
  simp only [List.getD_cons_succ, List.getD_cons_zero]
  have hlen : 22 ≤ (r₀ :: r₁ :: 0 :: 0x04 :: (x.val ++ hi :: lo :: p)).length := by simp [hx]; omega
  obtain ⟨hip, hport⟩ := at_field r₀ r₁ 0x04 x hi lo p rfl (by omega)
  rw [dif_neg (by omega), hip, hport]

private theorem decode_ipv6_short {rest : List UInt8} (h : rest.length < 16 + 2) :
    decodeUdpHeader (r₀ :: r₁ :: 0 :: 0x04 :: rest) = none := by
  unfold decodeUdpHeader
  rw [if_neg (by simp)]
  simp only [List.getD_cons_succ, List.getD_cons_zero]
  rw [dif_pos (by simp only [List.length_cons]; omega)]

theorem decode_name (len : UInt8) (x : Octets len.toNat) (hi lo : UInt8) (p : List UInt8) :
    decodeUdpHeader (r₀ :: r₁ :: 0 :: 0x03 :: len :: (x.val ++ hi :: lo :: p)) =
      (stringFromUtf8 x.val).map fun text => (.name text.toLower (fromBeBytes hi lo), 5 + len.toNat + 2) := by
  have hx := x.property
  unfold decodeUdpHeader
  rw [if_neg (by simp)]
  simp only [List.getD_cons_succ, List.getD_cons_zero]
  rw [if_neg (by simp), if_neg (by simp [hx]; omega)]
  have hport := portAt_append (r₀ :: r₁ :: 0 :: 0x03 :: len :: x.val) hi lo p
    (by simp [hx]; omega : 5 + len.toNat = _)
  simp only [List.drop_succ_cons, List.drop_zero, List.take_left' hx]
  cases stringFromUtf8 x.val with
  | none => rfl
  | some text => exact congrArg (fun port => some (SocketAddrOrName.name text.toLower port, _)) hport

private theorem decode_name_nil : decodeUdpHeader [r₀, r₁, 0, 0x03] = none := rfl

private theorem decode_name_short {len : UInt8} {rest : List UInt8} (h : rest.length < len.toNat + 2) :
    decodeUdpHeader (r₀ :: r₁ :: 0 :: 0x03 :: len :: rest) = none := by
  unfold decodeUdpHeader
  rw [if_neg (by simp)]
  simp only [List.getD_cons_succ, List.getD_cons_zero]
  rw [if_neg (by simp), if_pos (by simp only [List.length_cons]; omega)]

private theorem decode_other {atyp : UInt8} (h : atyp ∉ [0x01, 0x03, 0x04]) (rest : List UInt8) :
    decodeUdpHeader (r₀ :: r₁ :: 0 :: atyp :: rest) = none := by
  unfold decodeUdpHeader
  rw [if_neg (by simp)]
  simp only [List.getD_cons_succ, List.getD_cons_zero]
  simp only [List.mem_cons, List.not_mem_nil, or_false, not_or] at h
  split
  · exact absurd rfl h.1
  · exact absurd rfl h.2.2
  · exact absurd rfl h.2.1
  · rfl

private theorem decode_fragment {frag : UInt8} (h : frag ≠ 0) (atyp : UInt8) (rest : List UInt8) :
    decodeUdpHeader (r₀ :: r₁ :: frag :: atyp :: rest) = none := by
  unfold decodeUdpHeader
  exact if_pos (.inr h)

private theorem decode_short {b : List UInt8} (h : b.length < 4) : decodeUdpHeader b = none := by
  unfold decodeUdpHeader
  exact if_pos (.inl h)

end Outcomes

/-- The fields of an address with `n` octets and of a port. -/
private theorem exists_field {n : Nat} {rest : List UInt8} (h : n + 2 ≤ rest.length) :
    ∃ (x : Octets n) (hi lo : UInt8) (p : List UInt8), rest = x.val ++ hi :: lo :: p := by
  have htake : (rest.take n).length = n := List.length_take_of_le (by omega)
  have hdrop : 2 ≤ (rest.drop n).length := by rw [List.length_drop]; omega
  match hd : rest.drop n, hdrop with
  | hi :: lo :: p, _ => exact ⟨⟨rest.take n, htake⟩, hi, lo, p, by rw [← hd, List.take_append_drop]⟩

/-- What is decoded is spelt behind the first four bytes. -/
private theorem spells_of_decode {r₀ r₁ atyp : UInt8} {rest : List UInt8} {t : SocketAddrOrName} {n : Nat}
    (h : decodeUdpHeader (r₀ :: r₁ :: 0 :: atyp :: rest) = some (t, n)) :
    ∃ field p, rest = field ++ p ∧ SpellsTarget atyp field t ∧ n = 4 + field.length := by
  by_cases hatyp : atyp ∈ [0x01, 0x03, 0x04]
  · simp only [List.mem_cons, List.not_mem_nil, or_false] at hatyp
    rcases hatyp with rfl | rfl | rfl
    · by_cases hlen : rest.length < 4 + 2
      · rw [decode_ipv4_short r₀ r₁ hlen] at h
        cases h
      · obtain ⟨x, hi, lo, p, rfl⟩ := exists_field (Nat.not_lt.1 hlen)
        rw [decode_ipv4] at h
        cases h
        exact ⟨x.val ++ [hi, lo], p, by simp, .ipv4 x hi lo, by simp [x.property]⟩
    · match rest with
      | [] =>
        rw [decode_name_nil] at h
        cases h
      | len :: rest =>
        by_cases hlen : rest.length < len.toNat + 2
        · rw [decode_name_short r₀ r₁ hlen] at h
          cases h
        · obtain ⟨x, hi, lo, p, rfl⟩ := exists_field (Nat.not_lt.1 hlen)
          rw [decode_name] at h
          obtain ⟨text, htext, ht⟩ := Option.map_eq_some_iff.1 h
          cases ht
          exact ⟨len :: x.val ++ [hi, lo], p, by simp, .name len x hi lo text htext, by simp [x.property]; omega⟩
    · by_cases hlen : rest.length < 16 + 2
      · rw [decode_ipv6_short r₀ r₁ hlen] at h
        cases h
      · obtain ⟨x, hi, lo, p, rfl⟩ := exists_field (Nat.not_lt.1 hlen)
        rw [decode_ipv6] at h
        cases h
        exact ⟨x.val ++ [hi, lo], p, by simp, .ipv6 x hi lo, by simp [x.property]⟩
  · rw [decode_other r₀ r₁ hatyp] at h
    cases h

/-- `decode_udp_header` decodes the spelt targets, and nothing else. -/
theorem decodeUdpHeader_eq_some_iff {b : List UInt8} {t : SocketAddrOrName} {n : Nat} :
    decodeUdpHeader b = some (t, n) ↔ ∃ r₀ r₁ atyp field p,
      b = r₀ :: r₁ :: 0 :: atyp :: (field ++ p) ∧ SpellsTarget atyp field t ∧ n = 4 + field.length := by
  constructor
  · intro h
    match b with
    | [] | [_] | [_, _] | [_, _, _] =>
      rw [decode_short (by simp)] at h
      cases h
    | r₀ :: r₁ :: frag :: atyp :: rest =>
      by_cases hfrag : frag = 0
      · subst hfrag
        obtain ⟨field, p, rfl, hspell, hn⟩ := spells_of_decode h
        exact ⟨r₀, r₁, atyp, field, p, rfl, hspell, hn⟩
      · rw [decode_fragment r₀ r₁ hfrag] at h
        cases h
  · rintro ⟨r₀, r₁, atyp, field, p, rfl, hspell, rfl⟩
    cases hspell with
    | ipv4 x hi lo =>
      have := decode_ipv4 r₀ r₁ x hi lo p
      rw [List.append_assoc, List.length_append, x.property]
      exact this
    | ipv6 x hi lo =>
      have := decode_ipv6 r₀ r₁ x hi lo p
      rw [List.append_assoc, List.length_append, x.property]
      exact this
    | name len x hi lo text htext =>
      have := decode_name r₀ r₁ len x hi lo p
      rw [htext] at this
      simp only [List.cons_append, List.append_assoc, List.length_cons, List.length_append, x.property]
      rw [List.nil_append, this]
      simp
      omega

section Indices

open Machine.Checked (index slice)

/-- The port at `pos`, with checked indices. -/
def portAtChecked (buf : List UInt8) (pos : Nat) : Checked Unit UInt16 := do
  let hi ← index buf pos
  let lo ← index buf (pos + 1)
  return fromBeBytes hi lo

/-- `decode_udp_header` with the indices of the source, each of them checked; `()` stands for its `None`. -/
def decodeUdpHeaderChecked (buf : List UInt8) : Checked Unit (SocketAddrOrName × Nat) :=
  if buf.length < 4 then throw ()
  else do
    let frag ← index buf 2
    if frag ≠ 0x00 then throw ()
    else
      let atyp ← index buf 3
      match atyp with
      | 0x01 =>
        if buf.length < 4 + 4 + 2 then throw ()
        else
          let a ← index buf 4
          let b ← index buf 5
          let c ← index buf 6
          let d ← index buf 7
          let port ← portAtChecked buf 8
          return (.addr (.new (.v4 (Ipv4Addr.new a b c d)) port), 10)
      | 0x04 =>
        if buf.length < 4 + 16 + 2 then throw ()
        else
          let octets ← slice buf 4 16
          let port ← portAtChecked buf 20
          return (.addr (.new (.v6 octets) port), 22)
      | 0x03 =>
        if buf.length < 4 + 1 then throw ()
        else
          let len ← index buf 4
          let len := len.toNat
          if buf.length < 5 + len + 2 then throw ()
          else
            let bytes ← slice buf 5 len
            match stringFromUtf8 bytes.val with
            | none => throw ()
            | some name =>
              let port ← portAtChecked buf (5 + len)
              return (.name name.toLower port, 5 + len + 2)
      | _ => throw ()

private theorem portAtChecked_of_le {buf : List UInt8} {pos : Nat} (h : pos + 2 ≤ buf.length) :
    portAtChecked buf pos = pure (portAt buf pos) := by
  rw [portAtChecked, Checked.index_getD (by omega) 0, Checked.pure_bind, Checked.index_getD (by omega) 0,
    Checked.pure_bind]
  rfl

/-- The four bytes of an address, read one by one. -/
private theorem octetsAt_four {buf : List UInt8} (h : 4 + 4 ≤ buf.length) :
    octetsAt buf 4 4 h = Ipv4Addr.new (buf.getD 4 0) (buf.getD 5 0) (buf.getD 6 0) (buf.getD 7 0) := by
  match buf, h with
  | _ :: _ :: _ :: _ :: _ :: _ :: _ :: _ :: _, _ => rfl

/-- No index of the source is behind the end of the buffer. -/
private theorem decodeUdpHeaderChecked_eq (buf : List UInt8) :
    decodeUdpHeaderChecked buf = Checked.ofOption () (decodeUdpHeader buf) := by
  unfold decodeUdpHeaderChecked decodeUdpHeader
  by_cases hlen : buf.length < 4
  · rw [if_pos hlen, if_pos (.inl hlen), Checked.ofOption_none]
  · rw [if_neg hlen, Checked.index_getD (by omega) 0, Checked.pure_bind]
    by_cases hfrag : buf.getD 2 0 = 0
    · rw [if_neg (not_not_intro hfrag), if_neg (not_or.2 ⟨hlen, not_not_intro hfrag⟩),
        Checked.index_getD (by omega) 0, Checked.pure_bind]
      generalize buf.getD 3 0 = atyp
      split
      · by_cases hshort : buf.length < 4 + 4 + 2
        · rw [if_pos hshort, dif_pos hshort]
          rfl
        · rw [if_neg hshort, dif_neg hshort, Checked.index_getD (by omega) 0, Checked.pure_bind,
            Checked.index_getD (by omega) 0, Checked.pure_bind, Checked.index_getD (by omega) 0, Checked.pure_bind,
            Checked.index_getD (by omega) 0, Checked.pure_bind, portAtChecked_of_le (by omega), Checked.pure_bind,
            octetsAt_four (by omega)]
          rfl
      · by_cases hshort : buf.length < 4 + 16 + 2
        · rw [if_pos hshort, dif_pos hshort]
          rfl
        · obtain ⟨hx, hslice⟩ := Checked.slice_of_le (ε := Unit) (by omega : 4 + 16 ≤ buf.length)
          rw [if_neg hshort, dif_neg hshort, hslice, Checked.pure_bind, portAtChecked_of_le (by omega),
            Checked.pure_bind]
          rfl
      · by_cases hshort : buf.length < 4 + 1
        · rw [if_pos hshort, if_pos hshort]
          rfl
        · rw [if_neg hshort, if_neg hshort, Checked.index_getD (by omega) 0, Checked.pure_bind]
          dsimp only
          by_cases hname : buf.length < 5 + (buf.getD 4 0).toNat + 2
          · rw [if_pos hname, if_pos hname]
            rfl
          · obtain ⟨hx, hslice⟩ := Checked.slice_of_le (ε := Unit) (by omega : 5 + (buf.getD 4 0).toNat ≤ buf.length)
            rw [if_neg hname, if_neg hname, hslice, Checked.pure_bind]
            dsimp only
            cases stringFromUtf8 ((buf.drop 5).take (buf.getD 4 0).toNat) with
            | none => rfl
            | some name =>
              dsimp only
              rw [portAtChecked_of_le (by omega), Checked.pure_bind]
              rfl
      · simp
    · rw [if_pos hfrag, if_pos (.inr hfrag), Checked.ofOption_none]

end Indices

/-- The header of an address is decoded to that address, whatever follows it.  What is decoded is what RSV, FRAG,
ATYP and an address field spell, up to where the payload begins; and no index is behind the end of the
datagram. -/
theorem udpHeader_exact :
    (∀ (ip : IpAddr) (port : UInt16) (p : List UInt8),
      decodeUdpHeader (encodeUdpHeader (.new ip port) ++ p) =
        some (.addr (.new ip port), (encodeUdpHeader (.new ip port)).length)) ∧
    (∀ (b : List UInt8) (t : SocketAddrOrName) (n : Nat), decodeUdpHeader b = some (t, n) ↔
      ∃ r₀ r₁ atyp field p, b = r₀ :: r₁ :: 0 :: atyp :: (field ++ p) ∧ SpellsTarget atyp field t ∧
        n + p.length = b.length) ∧
    ∀ b : List UInt8, Checked.Safe (decodeUdpHeaderChecked b) ∧
      decodeUdpHeaderChecked b = Checked.ofOption () (decodeUdpHeader b) := by
  refine ⟨fun ip port p => ?_, fun b t n => ?_, fun b => ?_⟩
  · have hport := fromBeBytes_toBeBytes port
    cases ip with
    | v4 ip =>
      refine decodeUdpHeader_eq_some_iff.2 ⟨0, 0, 0x01, ip.val ++ toBeBytes port, p,
        by simp [encodeUdpHeader, SocketAddr.new], ?_, ?_⟩
      · have := SpellsTarget.ipv4 ip (UInt8.ofNat (port.toNat / 256)) (UInt8.ofNat port.toNat)
        rwa [hport] at this
      · simp [encodeUdpHeader, SocketAddr.new]
        omega
    | v6 ip =>
      refine decodeUdpHeader_eq_some_iff.2 ⟨0, 0, 0x04, ip.val ++ toBeBytes port, p,
        by simp [encodeUdpHeader, SocketAddr.new], ?_, ?_⟩
      · have := SpellsTarget.ipv6 ip (UInt8.ofNat (port.toNat / 256)) (UInt8.ofNat port.toNat)
        rwa [hport] at this
      · simp [encodeUdpHeader, SocketAddr.new]
        omega
  · rw [decodeUdpHeader_eq_some_iff]
    constructor
    · rintro ⟨r₀, r₁, atyp, field, p, rfl, hspell, rfl⟩
      exact ⟨r₀, r₁, atyp, field, p, rfl, hspell, by simp; omega⟩
    · rintro ⟨r₀, r₁, atyp, field, p, rfl, hspell, hn⟩
      refine ⟨r₀, r₁, atyp, field, p, rfl, hspell, ?_⟩
      simp only [List.length_cons, List.length_append] at hn
      omega
  · rw [decodeUdpHeaderChecked_eq]
    exact ⟨Checked.safe_ofOption _ _, rfl⟩

example : decodeUdpHeader [0, 0, 0, 1, 192, 0, 2, 1, 0, 53, 7] = some (.addr (.v4 ⟨[192, 0, 2, 1], rfl⟩ 53), 10) := by
  decide

end WarpSocks.Socks5
