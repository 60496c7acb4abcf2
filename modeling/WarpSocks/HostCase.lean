import WarpSocks.Host
import WarpSocks.Text

/-!
# Hosts and ASCII case

A text and its lower-case form are literals of the same IP address or of none: none of the readers of a literal
tells an upper-case letter from the lower-case one (`Blind`).  So the hosts they are parsed to are equal up to the
case of a domain (`parse_toLower`).
-/

namespace WarpSocks

namespace IpText

/-- `u8::to_ascii_lowercase`. -/
def lowerByte (b : UInt8) : UInt8 := if 65 ≤ b ∧ b ≤ 90 then b + 32 else b

private theorem lowerByte_of_lt {b : UInt8} (h : b.toNat < 65 ∨ 90 < b.toNat) : lowerByte b = b := by
  unfold lowerByte
  rw [if_neg]
  rintro ⟨hlow, hhigh⟩
  have hlow : 65 ≤ b.toNat := UInt8.le_iff_toNat_le.1 hlow
  have hhigh : b.toNat ≤ 90 := UInt8.le_iff_toNat_le.1 hhigh
  omega

private theorem lowerByte_of_upper {b : UInt8} (hlow : 65 ≤ b.toNat) (hhigh : b.toNat ≤ 90) : lowerByte b = b + 32 :=
  if_pos ⟨UInt8.le_iff_toNat_le.2 hlow, UInt8.le_iff_toNat_le.2 hhigh⟩

private theorem toNat_lowerByte_of_upper {b : UInt8} (hlow : 65 ≤ b.toNat) (hhigh : b.toNat ≤ 90) :
    (lowerByte b).toNat = b.toNat + 32 := by
  rw [lowerByte_of_upper hlow hhigh, UInt8.toNat_add]
  have : (32 : UInt8).toNat = 32 := rfl
  omega

/-- A byte that is not a letter stays what it is, and nothing else becomes it. -/
private theorem lowerByte_eq_iff {b sep : UInt8} (h : sep.toNat < 65) : lowerByte b = sep ↔ b = sep := by
  by_cases hb : b.toNat < 65 ∨ 90 < b.toNat
  · rw [lowerByte_of_lt hb]
  · have hlower := toNat_lowerByte_of_upper (b := b) (by omega) (by omega)
    constructor
    · rintro rfl
      omega
    · rintro rfl
      omega

/-- The bytes of a character that is not an upper-case letter are not those of one: outside of ASCII they are at
least 128. -/
private theorem bytes_not_upper {c : Char} (h : c.val.toNat < 65 ∨ 90 < c.val.toNat) {b : UInt8}
    (hb : b ∈ String.utf8EncodeChar c) : b.toNat < 65 ∨ 90 < b.toNat := by
  by_cases hlt : c.val.toNat < 128
  · rw [Text.utf8EncodeChar_of_lt hlt, List.mem_singleton] at hb
    rw [hb, UInt8.toNat_ofNat']
    omega
  · have hle := Text.le_of_mem_utf8EncodeChar (by omega) hb
    omega

private theorem utf8EncodeChar_toLower (c : Char) :
    String.utf8EncodeChar c.toLower = (String.utf8EncodeChar c).map lowerByte := by
  by_cases h : c.val ≥ 'A'.val ∧ c.val ≤ 'Z'.val
  · have hlow : 65 ≤ c.val.toNat := UInt32.le_iff_toNat_le.1 h.1
    have hhigh : c.val.toNat ≤ 90 := UInt32.le_iff_toNat_le.1 h.2
    have hlower : c.toLower.val.toNat = c.val.toNat + 32 := by
      unfold Char.toLower
      rw [dif_pos h]
      have : ('a'.val - 'A'.val).toNat = 32 := rfl
      simp only [UInt32.toNat_add, this]
      omega
    unfold String.utf8EncodeChar
    dsimp only
    rw [if_pos (by omega), if_pos (by omega), hlower, List.map_singleton]
    congr 1
    apply UInt8.toNat_inj.1
    rw [toNat_lowerByte_of_upper] <;> simp only [UInt8.toNat_ofNat'] <;> omega
  · have hc : c.toLower = c := by
      unfold Char.toLower
      rw [dif_neg h]
    have hval : c.val.toNat < 65 ∨ 90 < c.val.toNat := by
      by_contra hno
      exact h ⟨UInt32.le_iff_toNat_le.2 (by show 65 ≤ _; omega), UInt32.le_iff_toNat_le.2 (by show _ ≤ 90; omega)⟩
    rw [hc]
    refine ((List.map_congr_left fun b hb => ?_).trans (List.map_id _)).symm
    exact lowerByte_of_lt (bytes_not_upper hval hb)

/-- Lower-casing a text lower-cases its bytes. -/
private theorem asBytes_toLower (s : String) : Text.asBytes s.toLower = (Text.asBytes s).map lowerByte := by
  have hmap : s.toLower = s.map Char.toLower := rfl
  rw [Text.asBytes_eq_flatMap, Text.asBytes_eq_flatMap, hmap, String.toList_map, List.flatMap_map, List.map_flatMap]
  exact List.flatMap_congr fun c _ => utf8EncodeChar_toLower c

/-- The reader takes upper-case letters for lower-case ones. -/
def Blind {α : Type} (read : List UInt8 → Option (α × List UInt8)) : Prop :=
  ∀ p, read (p.map lowerByte) = (read p).map fun r => (r.1, r.2.map lowerByte)

private theorem toDigit_lowerByte (radix : Nat) (c : UInt8) : toDigit radix (lowerByte c) = toDigit radix c := by
  by_cases hc : c.toNat < 65 ∨ 90 < c.toNat
  · rw [lowerByte_of_lt hc]
  · have hlower := toNat_lowerByte_of_upper (b := c) (by omega) (by omega)
    unfold toDigit
    simp only [UInt8.le_iff_toNat_le, hlower]
    have h48 : (48 : UInt8).toNat = 48 := rfl
    have h57 : (57 : UInt8).toNat = 57 := rfl
    have h97 : (97 : UInt8).toNat = 97 := rfl
    have h122 : (122 : UInt8).toNat = 122 := rfl
    have h65 : (65 : UInt8).toNat = 65 := rfl
    have h90 : (90 : UInt8).toNat = 90 := rfl
    rw [if_neg (by omega), if_pos (by omega), if_neg (by omega), if_neg (by omega), if_pos (by omega)]
    congr 2

private theorem blind_readNumber (radix maxDigits bound : Nat) (allowZeroPrefix : Bool) :
    Blind (readNumber radix maxDigits bound allowZeroPrefix) := by
  intro p
  have hdigits : (p.map lowerByte).takeWhile (fun c => (toDigit radix c).isSome) =
      (p.takeWhile fun c => (toDigit radix c).isSome).map lowerByte := by
    rw [List.takeWhile_map]
    simp only [Function.comp_def, toDigit_lowerByte]
  have hhead : ((p.map lowerByte).head? == some 48) = (p.head? == some 48) := by
    cases p with
    | nil => rfl
    | cons c p =>
      simp only [List.map_cons, List.head?_cons, Option.some_beq_some]
      exact Bool.eq_iff_iff.2 (by simpa using lowerByte_eq_iff (by decide))
  unfold readNumber
  simp only [hdigits, hhead, List.length_map, List.foldl_map, toDigit_lowerByte, ← List.map_drop]
  split
  · rfl
  · split
    · rfl
    · split <;> rfl

private theorem blind_readSeparator {α : Type} {sep : UInt8} (hsep : sep.toNat < 65) (index : Nat)
    {inner : List UInt8 → Option (α × List UInt8)} (h : Blind inner) : Blind (readSeparator sep index inner) := by
  intro p
  unfold readSeparator
  split
  · exact h p
  · cases p with
    | nil => rfl
    | cons c p =>
      simp only [List.map_cons, lowerByte_eq_iff hsep]
      split
      · exact h p
      · rfl

private theorem blind_readOctet (index : Nat) : Blind (readOctet index) :=
  blind_readSeparator (by decide) index (blind_readNumber 10 3 256 false)

/-- Readers in sequence. -/
private theorem bind_lower {α β : Type} {read : List UInt8 → Option (α × List UInt8)} (hread : Blind read)
    {p : List UInt8} {next next' : α × List UInt8 → Option (β × List UInt8)}
    (hnext : ∀ r, next' (r.1, r.2.map lowerByte) = (next r).map fun r => (r.1, r.2.map lowerByte)) :
    (read (p.map lowerByte)).bind next' = ((read p).bind next).map fun r => (r.1, r.2.map lowerByte) := by
  rw [hread p]
  cases read p with
  | none => rfl
  | some r => exact hnext r

private theorem blind_readIpv4Addr : Blind readIpv4Addr := by
  intro p
  rw [readIpv4Addr_eq, readIpv4Addr_eq]
  refine bind_lower (blind_readOctet 0) fun a => ?_
  refine bind_lower (blind_readOctet 1) fun b => ?_
  refine bind_lower (blind_readOctet 2) fun c => ?_
  exact bind_lower (blind_readOctet 3) fun d => rfl

private theorem readGroups_lower (index room : Nat) (p : List UInt8) :
    readGroups index room (p.map lowerByte) =
      ((readGroups index room p).1, (readGroups index room p).2.1, (readGroups index room p).2.2.map lowerByte) := by
  induction room generalizing index p with
  | zero => rfl
  | succ room ih =>
    have hnum := blind_readSeparator (by decide : (58 : UInt8).toNat < 65) index (blind_readNumber 16 4 65536 true) p
    have hv4 : (if 0 < room then readSeparator 58 index readIpv4Addr (p.map lowerByte) else none) =
        (if 0 < room then readSeparator 58 index readIpv4Addr p else none).map fun r => (r.1, r.2.map lowerByte) := by
      split
      · exact blind_readSeparator (by decide : (58 : UInt8).toNat < 65) index blind_readIpv4Addr p
      · rfl
    unfold readGroups
    rw [hv4, hnum]
    cases if 0 < room then readSeparator 58 index readIpv4Addr p else none with
    | some r => rfl
    | none =>
      cases readSeparator 58 index (readNumber 16 4 65536 true) p with
      | none => rfl
      | some r =>
        simp only [Option.map_none, Option.map_some]
        rw [ih]

private theorem blind_readIpv6Addr : Blind readIpv6Addr := by
  intro p
  unfold readIpv6Addr
  rw [readGroups_lower]
  rcases readGroups 0 8 p with ⟨head, headIpv4, rest⟩
  dsimp only
  split
  · rfl
  · split
    · rfl
    · match rest with
      | [] => rfl
      | [c] =>
        simp only [List.map_cons, List.map_nil]
        split
        · rename_i hcolons
          simp at hcolons
        · rfl
      | c :: d :: rest =>
        by_cases hcolons : c = 58 ∧ d = 58
        · obtain ⟨rfl, rfl⟩ := hcolons
          have hcolon : lowerByte 58 = 58 := rfl
          simp only [List.map_cons, hcolon, readGroups_lower]
          rfl
        · simp only [List.map_cons]
          split
          · rename_i hlower
            simp only [List.cons.injEq, lowerByte_eq_iff (by decide : (58 : UInt8).toNat < 65)] at hlower
            exact absurd ⟨hlower.1, hlower.2.1⟩ hcolons
          · split
            · rename_i hrest
              simp only [List.cons.injEq] at hrest
              exact absurd ⟨hrest.1, hrest.2.1⟩ hcolons
            · rfl

private theorem blind_readIpAddr : Blind readIpAddr := by
  intro p
  unfold readIpAddr
  rw [blind_readIpv4Addr p, blind_readIpv6Addr p]
  cases readIpv4Addr p with
  | some r => rfl
  | none =>
    cases readIpv6Addr p with
    | some r => rfl
    | none => rfl

/-- A text and its lower-case form are literals of the same address or of none. -/
theorem parse_toLower (s : String) : parse s.toLower = parse s := by
  unfold parse
  have hbytes : s.toLower.toUTF8.data.toList = s.toUTF8.data.toList.map lowerByte := asBytes_toLower s
  rw [hbytes, blind_readIpAddr]
  rcases readIpAddr s.toUTF8.data.toList with _ | ⟨ip, _ | ⟨b, rest⟩⟩ <;> rfl

private theorem lowerByte_idem (b : UInt8) : lowerByte (lowerByte b) = lowerByte b := by
  by_cases hb : b.toNat < 65 ∨ 90 < b.toNat
  · rw [lowerByte_of_lt hb, lowerByte_of_lt hb]
  · have hlower := toNat_lowerByte_of_upper (b := b) (by omega) (by omega)
    exact lowerByte_of_lt (by omega)

private theorem toLower_toLower (s : String) : s.toLower.toLower = s.toLower := by
  apply Text.asBytes_injective
  rw [asBytes_toLower, asBytes_toLower, List.map_map]
  exact List.map_congr_left fun b _ => lowerByte_idem b

end IpText

namespace Host

/-- The same host, up to the ASCII case of a domain. -/
def SameUpToCase : Host → Host → Prop
  | .domain name, .domain name' => name.toLower = name'.toLower
  | .ip addr, .ip addr' => addr = addr'
  | _, _ => False

theorem SameUpToCase.refl (host : Host) : SameUpToCase host host := by
  cases host with
  | domain name => exact rfl
  | ip addr => exact rfl

theorem parse_toLower (s : String) : SameUpToCase (.parse s.toLower) (.parse s) := by
  unfold Host.parse
  rw [IpText.parse_toLower]
  cases IpText.parse s with
  | none => exact IpText.toLower_toLower s
  | some addr => exact rfl

end Host

end WarpSocks
