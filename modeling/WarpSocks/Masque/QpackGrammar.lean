import WarpSocks.Masque.Qpack
import WarpSocks.Text
import WarpSocks.Wire.PrefixInt

/-!
# The grammar of field sections

A field section is a prefix of two integers followed by field lines.  Every piece keeps the bytes that spell it,
and the decoding functions read exactly the pieces: what starts with a piece is read as that piece
(`decodeInteger_wire`, `decodeField_wire`, `decodeFields_wire`), and what is read on a wide machine is a piece
(`decodeInteger_ok`, `decodeField_ok`, `decodeFields_ok`).
-/

namespace WarpSocks.Masque.Qpack

open Wire (PrefixInt groups closes)
open Huffman (shl64)

/-! ### Bytes -/

theorem and_0x80 : ∀ b : UInt8, b &&& 0x80 = 0 ↔ b.toNat < 128 := Text.forall_byte (by decide +kernel)

theorem and_0x7f : ∀ b : UInt8, (b &&& 0x7f).toNat = b.toNat % 128 := Text.forall_byte (by decide +kernel)

theorem not_indexed_of_nameRef : ∀ b : UInt8, b &&& 0xc0 = 0x40 → ¬ (b &&& 0x80 ≠ 0) :=
  Text.forall_byte (by decide +kernel)

theorem not_other_of_literalName :
    ∀ b : UInt8, b &&& 0xe0 = 0x20 → ¬ (b &&& 0x80 ≠ 0) ∧ ¬ b &&& 0xc0 = 0x40 := Text.forall_byte (by decide +kernel)

theorem shl64_one {n : Nat} (hn : n ≤ 8) : shl64 1 n - 1 = 2 ^ n - 1 := by
  rw [Huffman.shl64_one_eq (by omega)]

theorem and_mask (b : UInt8) {n : Nat} (hn : n ≤ 8) :
    (b &&& UInt8.ofNat (2 ^ n - 1)).toNat = b.toNat % 2 ^ n := by
  have hlt : 2 ^ n - 1 < 256 := by
    have : 2 ^ n ≤ 2 ^ 8 := Nat.pow_le_pow_right (by decide) hn
    omega
  rw [UInt8.toNat_and, UInt8.toNat_ofNat', Nat.mod_eq_of_lt hlt, Nat.and_two_pow_sub_one_eq_mod]

/-! ### Integers -/

theorem drop_cons {buf y : List UInt8} {p : Nat} {b : UInt8} (h : buf.drop p = b :: y) :
    buf[p]? = some b ∧ buf.drop (p + 1) = y := by
  constructor
  · rw [← List.head?_drop, h]; rfl
  · rw [← List.drop_drop, h]; rfl

private theorem drop_of_getElem? {buf : List UInt8} {p : Nat} {b : UInt8} (h : buf[p]? = some b) :
    buf.drop p = b :: buf.drop (p + 1) := by
  obtain ⟨hlt, rfl⟩ := List.getElem?_eq_some_iff.1 h
  exact List.drop_eq_getElem_cons hlt

/-- Adding the next group does not overflow. -/
theorem add_group {value k : Nat} (b : UInt8) (hk : k ≤ 8) (hv : value < 2 ^ 8 + 128 ^ k) :
    (value + shl64 (b &&& 0x7f).toNat (7 * k)) % 2 ^ 64 = value + 128 ^ k * (b.toNat % 128) ∧
    value + 128 ^ k * (b.toNat % 128) < 2 ^ 8 + 128 ^ (k + 1) := by
  have hpow : 128 ^ k = 2 ^ (7 * k) := by rw [Nat.pow_mul]
  have hpos : 0 < 128 ^ k := Nat.pow_pos (by decide)
  have hle : 128 ^ (k + 1) ≤ 2 ^ 63 := Nat.pow_le_pow_right (by decide : 0 < 128) (show k + 1 ≤ 9 by omega)
  have hb : 128 ^ k * (b.toNat % 128) ≤ 128 ^ k * 127 := Nat.mul_le_mul_left _ (by omega)
  have hsum : value + 128 ^ k * (b.toNat % 128) < 2 ^ 8 + 128 ^ (k + 1) := by
    rw [Nat.pow_succ]; omega
  have hshl : shl64 (b &&& 0x7f).toNat (7 * k) = 128 ^ k * (b.toNat % 128) := by
    rw [shl64, Nat.mod_eq_of_lt (show 7 * k < 64 by omega), and_0x7f, Nat.shiftLeft_eq, ← hpow, Nat.mul_comm,
      Nat.mod_eq_of_lt (by omega)]
  exact ⟨by rw [hshl, Nat.mod_eq_of_lt (by omega)], hsum⟩

private theorem decodeContinuation_wire {buf y rest : List UInt8} (hrest : closes rest) : ∀ {value p k : Nat},
    value < 2 ^ 8 + 128 ^ k → rest.length + k ≤ 9 → buf.drop p = rest ++ y →
    decodeContinuation buf value p (7 * k) = .ok (value + 128 ^ k * groups rest, p + rest.length) := by
  induction rest with
  | nil => cases hrest
  | cons b rest ih =>
    intro value p k hv hlen hbuf
    rw [List.length_cons] at hlen
    obtain ⟨hget, hdrop⟩ := drop_cons hbuf
    obtain ⟨hadd, hlt⟩ := add_group b (show k ≤ 8 by omega) hv
    rw [decodeContinuation, hget]
    simp only [hadd, and_0x80]
    simp only [closes] at hrest
    by_cases hb : b.toNat < 128
    · simp only [hb, ↓reduceIte, List.isEmpty_iff] at hrest ⊢
      subst hrest
      simp [groups]
    · simp only [hb, ↓reduceIte] at hrest ⊢
      have hne : rest ≠ [] := by rintro rfl; cases hrest
      have hpos := List.length_pos_iff.2 hne
      rw [if_neg (by omega), show 7 * k + 7 = 7 * (k + 1) by omega, ih hrest hlt (by omega) hdrop]
      simp only [groups, List.length_cons, Nat.pow_succ, Nat.mul_add, Nat.mul_assoc]
      congr 2 <;> omega

private theorem decodeContinuation_ok {buf : List UInt8} {value p shift v q : Nat} :
    ∀ k, shift = 7 * k → k ≤ 8 → value < 2 ^ 8 + 128 ^ k → decodeContinuation buf value p shift = .ok (v, q) →
    ∃ rest, closes rest ∧ rest.length + k ≤ 9 ∧ buf.drop p = rest ++ buf.drop q ∧ q = p + rest.length ∧
      v = value + 128 ^ k * groups rest := by
  fun_induction decodeContinuation buf value p shift with
  | case1 => intro k _ _ _ h; cases h
  | case2 value p shift b hb value' hlast =>
    rintro k rfl hk hv h
    simp only [Except.ok.injEq, Prod.mk.injEq] at h
    obtain ⟨rfl, rfl⟩ := h
    rw [and_0x80] at hlast
    refine ⟨[b], by simp [closes, hlast], by simp only [List.length_singleton]; omega, drop_of_getElem? hb, rfl, ?_⟩
    show (value + shl64 (b &&& 0x7f).toNat (7 * k)) % 2 ^ 64 = _
    rw [(add_group b hk hv).1]
    rfl
  | case3 => intro k _ _ _ h; cases h
  | case4 value p shift b hb value' hmore hshift ih =>
    rintro k rfl hk hv h
    obtain ⟨hadd, hlt⟩ := add_group b hk hv
    have hvalue : value' = value + 128 ^ k * (b.toNat % 128) := hadd
    obtain ⟨rest, hrest, hlen, hdrop, hq, hval⟩ :=
      ih (k + 1) (by omega) (by omega) (by rw [hvalue]; exact hlt) h
    rw [and_0x80] at hmore
    refine ⟨b :: rest, by simp [closes, hmore, hrest], by simp only [List.length_cons]; omega, ?_, ?_, ?_⟩
    · rw [drop_of_getElem? hb, hdrop]; rfl
    · rw [hq, List.length_cons]; omega
    · rw [hval, hvalue, groups, Nat.pow_succ, Nat.mul_add, Nat.mul_assoc]
      omega

/-- What starts with an integer is read as that integer. -/
theorem decodeInteger_wire {n : Nat} (hn : n ≤ 8) (i : PrefixInt n) {buf y : List UInt8} {pos : Nat}
    (h : buf.drop pos = i.wire ++ y) : decodeInteger buf pos n = .ok (i.value, pos + i.wire.length) := by
  obtain ⟨b, rest, hspells⟩ := i
  obtain ⟨hget, hdrop⟩ := drop_cons (show buf.drop pos = b :: (rest ++ y) from h)
  have hpow : 2 ^ n ≤ 2 ^ 8 := Nat.pow_le_pow_right (by decide) hn
  unfold decodeInteger
  simp only [hget, shl64_one hn, and_mask b hn]
  by_cases hb : b.toNat % 2 ^ n < 2 ^ n - 1
  · simp only [hb, ↓reduceIte] at hspells ⊢
    subst hspells
    simp [PrefixInt.value, PrefixInt.wire, groups]
  · simp only [hb, ↓reduceIte] at hspells ⊢
    have hlt : b.toNat % 2 ^ n < 2 ^ n := Nat.mod_lt _ (Nat.two_pow_pos n)
    have hv : b.toNat % 2 ^ n < 2 ^ 8 + 128 ^ 0 := by omega
    have hrun := decodeContinuation_wire hspells.1 hv hspells.2 hdrop
    rw [Nat.mul_zero] at hrun
    rw [hrun]
    simp only [PrefixInt.value, PrefixInt.wire, List.length_cons, Nat.pow_zero, Nat.one_mul]
    congr 2
    omega

/-- What is read is an integer. -/
theorem decodeInteger_ok {n : Nat} (hn : n ≤ 8) {buf : List UInt8} {pos v q : Nat}
    (h : decodeInteger buf pos n = .ok (v, q)) :
    ∃ i : PrefixInt n, buf.drop pos = i.wire ++ buf.drop q ∧ q = pos + i.wire.length ∧ v = i.value := by
  have hpow : 2 ^ n ≤ 2 ^ 8 := Nat.pow_le_pow_right (by decide) hn
  unfold decodeInteger at h
  simp only [shl64_one hn] at h
  split at h
  · cases h
  rename_i b hget
  rw [and_mask b hn] at h
  by_cases hb : b.toNat % 2 ^ n < 2 ^ n - 1
  · simp only [hb, ↓reduceIte, Except.ok.injEq, Prod.mk.injEq] at h
    obtain ⟨rfl, rfl⟩ := h
    exact ⟨⟨b, [], by simp [hb]⟩, drop_of_getElem? hget, rfl, rfl⟩
  · simp only [hb, ↓reduceIte] at h
    have hlt : b.toNat % 2 ^ n < 2 ^ n := Nat.mod_lt _ (Nat.two_pow_pos n)
    obtain ⟨rest, hrest, hlen, hdrop, hq, hv⟩ := decodeContinuation_ok 0 rfl (by decide) (by omega) h
    refine ⟨⟨b, rest, by simp [hb, hrest]; omega⟩, ?_, ?_, ?_⟩
    · rw [drop_of_getElem? hget, hdrop]; rfl
    · show q = pos + (rest.length + 1)
      omega
    · rw [hv, PrefixInt.value, Nat.pow_zero, Nat.one_mul]

/-! ### Strings -/

/-- A string with its length in an `n`-bit prefix, whose first byte says in `huffmanBit` whether it is
compressed. -/
structure Literal (n : Nat) (huffmanBit : UInt8) where
  len : PrefixInt n
  raw : List UInt8
  raw_length : raw.length = len.value

namespace Literal

variable {n : Nat} {huffmanBit : UInt8}

/-- Its bytes. -/
def wire (l : Literal n huffmanBit) : List UInt8 := l.len.wire ++ l.raw

/-- What it stands for. -/
def text (l : Literal n huffmanBit) : Except String (List UInt8) :=
  decodeString l.raw (l.len.first &&& huffmanBit != 0)

private theorem eq_of_wire_append {l m : Literal n huffmanBit} {x y : List UInt8} (h : l.wire ++ x = m.wire ++ y) :
    l = m ∧ x = y := by
  obtain ⟨i, r, hr⟩ := l
  obtain ⟨j, s, hs⟩ := m
  simp only [wire, List.append_assoc] at h
  obtain ⟨rfl, hrest⟩ := PrefixInt.eq_of_wire_append h
  obtain ⟨rfl, hxy⟩ := List.append_inj hrest (hr.trans hs.symm)
  exact ⟨rfl, hxy⟩

end Literal

theorem drop_append {buf x y : List UInt8} {p : Nat} (h : buf.drop p = x ++ y) :
    buf.drop (p + x.length) = y := by rw [← List.drop_drop, h, List.drop_left]

theorem length_of_drop {buf x y : List UInt8} {p : Nat} (hx : x ≠ []) (h : buf.drop p = x ++ y) :
    buf.length = p + x.length + y.length := by
  have hlen := congrArg List.length h
  have hpos := List.length_pos_iff.2 hx
  simp only [List.length_drop, List.length_append] at hlen
  omega

theorem literalEnd_of_le {w start len : Nat} {payload : List UInt8} (e₁ e₂ : String) (hw : payload.length < 2 ^ w)
    (h : start + len ≤ payload.length) : literalEnd w payload start len e₁ e₂ = .ok (start + len) := by
  have hmod : len % 2 ^ w = len := Nat.mod_eq_of_lt (by omega)
  rw [literalEnd, hmod, if_neg (by omega), if_neg (by omega)]

theorem literalEnd_ok {w start len stop : Nat} {payload : List UInt8} {e₁ e₂ : String} (hlen : len < 2 ^ w)
    (h : literalEnd w payload start len e₁ e₂ = .ok stop) : stop = start + len ∧ start + len ≤ payload.length := by
  rw [literalEnd, Nat.mod_eq_of_lt hlen] at h
  split at h
  · cases h
  split at h
  · cases h
  · rw [Except.ok.injEq] at h
    omega

theorem value_lt_two_pow {n w : Nat} (hn : n ≤ 8) (hw : 64 ≤ w) (i : PrefixInt n) : i.value < 2 ^ w :=
  Nat.lt_trans (i.value_lt hn)
    (Nat.lt_of_lt_of_le (by decide : 2 ^ 63 + 2 ^ 8 < 2 ^ 64) (Nat.pow_le_pow_right (by decide) hw))

/-- The string at a position, as the functions read it: its length, and the end of its content. -/
theorem literalEnd_wire {n w pos : Nat} {huffmanBit : UInt8} (l : Literal n huffmanBit) {payload y : List UInt8}
    (e₁ e₂ : String) (hw : payload.length < 2 ^ w) (h : payload.drop pos = l.wire ++ y) :
    literalEnd w payload (pos + l.len.wire.length) l.len.value e₁ e₂ = .ok (pos + l.wire.length) ∧
    slice payload (pos + l.len.wire.length) (pos + l.wire.length) = l.raw := by
  have hlen := length_of_drop (by simp [Literal.wire, PrefixInt.wire]) h
  have hwire : l.wire.length = l.len.wire.length + l.raw.length := List.length_append
  constructor
  · rw [literalEnd_of_le e₁ e₂ hw (by rw [← l.raw_length]; omega), ← l.raw_length, hwire, Nat.add_assoc]
  · rw [Literal.wire, List.append_assoc] at h
    rw [slice, drop_append h, hwire, show pos + (l.len.wire.length + l.raw.length) - (pos + l.len.wire.length) =
      l.raw.length by omega, List.take_left]

/-- A length and as many bytes behind it make a string. -/
theorem exists_literal {n pos start stop : Nat} (huffmanBit : UInt8) (i : PrefixInt n) {payload : List UInt8}
    (hi : payload.drop pos = i.wire ++ payload.drop start) (hstart : start = pos + i.wire.length)
    (hstop : stop = start + i.value) (hle : start + i.value ≤ payload.length) :
    ∃ l : Literal n huffmanBit, l.len = i ∧ l.raw = slice payload start stop ∧
      payload.drop pos = l.wire ++ payload.drop stop ∧ stop = pos + l.wire.length := by
  have hslice : (slice payload start stop).length = i.value := by
    rw [slice, List.length_take, List.length_drop]; omega
  refine ⟨⟨i, slice payload start stop, hslice⟩, rfl, rfl, ?_, ?_⟩
  · show _ = i.wire ++ slice payload start stop ++ payload.drop stop
    rw [hi, List.append_assoc, slice]
    congr 1
    rw [show payload.drop stop = (payload.drop start).drop (stop - start) by
      rw [List.drop_drop, show start + (stop - start) = stop by omega], List.take_append_drop]
  · show stop = pos + (i.wire ++ slice payload start stop).length
    rw [List.length_append, hslice]; omega

/-! ### Field lines -/

/-- A field line: an Indexed Field Line, a Literal with Name Reference, whose value need not decode, or a Literal
with Literal Name, whose name and value do. -/
inductive FieldLine where
  | indexed (index : PrefixInt 6) (kind : index.first &&& 0x80 ≠ 0)
  | nameRef (name : PrefixInt 4) (kind : name.first &&& 0xc0 = 0x40) (value : Literal 7 0x80)
  | literalName (name : Literal 3 0x08) (kind : name.len.first &&& 0xe0 = 0x20) (value : Literal 7 0x80)
      (name_ok : ∃ s, name.text = .ok s) (value_ok : ∃ s, value.text = .ok s)

namespace FieldLine

/-- Its bytes. -/
def wire : FieldLine → List UInt8
  | .indexed index _ => index.wire
  | .nameRef name _ value => name.wire ++ value.wire
  | .literalName name _ value _ _ => name.wire ++ value.wire

/-- The status an Indexed Field Line of the static table stands for. -/
def status : FieldLine → Option Nat
  | .indexed index _ => if index.first &&& 0x40 != 0 then staticStatus index.value else none
  | _ => none

/-- The value of a literal-name field called `cf-warp-colo`, itself `none` if it is not UTF-8. -/
def colo : FieldLine → Option (Option String)
  | .literalName name _ value _ _ =>
    match name.text, value.text with
    | .ok n, .ok s => if n = cfWarpColo then some (stringFromUtf8 s) else none
    | _, _ => none
  | _ => none

/-- What a line changes in the variables of `decode_headers`. -/
def apply (line : FieldLine) (found : Found) : Found :=
  ⟨line.status.or found.status, line.colo.getD found.colo⟩

theorem wire_ne_nil (line : FieldLine) : line.wire ≠ [] := by
  cases line <;> simp [wire, PrefixInt.wire, Literal.wire]

end FieldLine

private theorem decodeIndexed_wire (index : PrefixInt 6) (kind : index.first &&& 0x80 ≠ 0) {payload y : List UInt8}
    {pos : Nat} (found : Found) (h : payload.drop pos = index.wire ++ y) :
    decodeIndexed payload pos index.first found =
      .ok ((FieldLine.indexed index kind).apply found, pos + index.wire.length) := by
  unfold decodeIndexed
  simp only [decodeInteger_wire (by decide) index h, FieldLine.apply, FieldLine.status, FieldLine.colo,
    Option.getD_none]
  by_cases hs : (index.first &&& 0x40 != 0) = true
  · simp only [hs, ↓reduceIte]
    by_cases h25 : index.value = 25
    · simp [h25, staticStatus]
    · rw [if_neg h25]
      cases staticStatus index.value <;> rfl
  · simp [hs]

private theorem skipLiteralValue_wire {w pos : Nat} (value : Literal 7 0x80) {payload y : List UInt8}
    (hw : payload.length < 2 ^ w) (h : payload.drop pos = value.wire ++ y) :
    skipLiteralValue w payload pos = .ok (pos + value.wire.length) := by
  have hlen : payload.drop pos = value.len.wire ++ (value.raw ++ y) := by rw [h, Literal.wire, List.append_assoc]
  simp only [skipLiteralValue, decodeInteger_wire (by decide) value.len hlen, (literalEnd_wire value _ _ hw h).1]

theorem readLiteralValue_wire {w pos : Nat} (value : Literal 7 0x80) {s payload y : List UInt8}
    (hs : value.text = .ok s) (hw : payload.length < 2 ^ w) (h : payload.drop pos = value.wire ++ y) :
    readLiteralValue w payload pos = .ok (s, pos + value.wire.length) := by
  have hlen : payload.drop pos = value.len.wire ++ (value.raw ++ y) := by rw [h, Literal.wire, List.append_assoc]
  obtain ⟨hget, -⟩ :=
    drop_cons (show payload.drop pos = value.len.first :: (value.len.rest ++ (value.raw ++ y)) from hlen)
  obtain ⟨hend, hslice⟩ := literalEnd_wire value "值长度溢出" "值内容越界" hw h
  rw [Literal.text] at hs
  simp only [readLiteralValue, hget, decodeInteger_wire (by decide) value.len hlen, hend, hslice, hs]

/-- What starts with a field line is read as that line. -/
theorem decodeField_wire {w pos : Nat} (line : FieldLine) {payload y : List UInt8} (found : Found)
    (hw : payload.length < 2 ^ w) (h : payload.drop pos = line.wire ++ y) :
    ∃ b, payload[pos]? = some b ∧
      decodeField w payload pos b found = .ok (line.apply found, pos + line.wire.length) := by
  cases line with
  | indexed index kind =>
    obtain ⟨hget, -⟩ := drop_cons (show payload.drop pos = index.first :: (index.rest ++ y) from h)
    refine ⟨index.first, hget, ?_⟩
    rw [decodeField, if_pos kind, decodeIndexed_wire index kind found h]
    rfl
  | nameRef name kind value =>
    have hname : payload.drop pos = name.wire ++ (value.wire ++ y) := by rw [h, FieldLine.wire, List.append_assoc]
    obtain ⟨hget, -⟩ := drop_cons (show payload.drop pos = name.first :: (name.rest ++ (value.wire ++ y)) from hname)
    have hbit : ¬ (name.first &&& 0x80 ≠ 0) := not_indexed_of_nameRef _ kind
    refine ⟨name.first, hget, ?_⟩
    rw [decodeField, if_neg hbit, if_pos kind, decodeNameRef]
    simp only [decodeInteger_wire (by decide) name hname, skipLiteralValue_wire value hw (drop_append hname),
      FieldLine.apply, FieldLine.status, FieldLine.colo, Option.none_or, Option.getD_none, FieldLine.wire,
      List.length_append, Nat.add_assoc]
  | literalName name kind value hn hv =>
    obtain ⟨n, hn'⟩ := id hn
    obtain ⟨v, hv'⟩ := id hv
    have hname : payload.drop pos = name.wire ++ (value.wire ++ y) := by rw [h, FieldLine.wire, List.append_assoc]
    have hlen : payload.drop pos = name.len.wire ++ (name.raw ++ (value.wire ++ y)) := by
      rw [hname, Literal.wire, List.append_assoc]
    obtain ⟨hget, -⟩ := drop_cons (show payload.drop pos = name.len.first :: (name.len.rest ++ _) from hlen)
    obtain ⟨hend, hslice⟩ := literalEnd_wire name "字段名长度溢出" "字段名内容越界" hw hname
    have hread := readLiteralValue_wire value hv' hw (drop_append hname)
    obtain ⟨hbit, hbits⟩ := not_other_of_literalName _ kind
    refine ⟨name.len.first, hget, ?_⟩
    have htext := hn'
    rw [Literal.text] at htext
    rw [decodeField, if_neg hbit, if_neg hbits, if_pos kind, decodeLiteralName]
    simp only [decodeInteger_wire (by decide) name.len hlen, hend, hslice, htext, hread, FieldLine.apply,
      FieldLine.status, FieldLine.colo, hn', hv', Option.none_or, FieldLine.wire, List.length_append, Nat.add_assoc]
    split <;> rfl

/-! ### What is read is a line -/

theorem first_of_wire {n pos : Nat} {i : PrefixInt n} {payload y : List UInt8} {b : UInt8}
    (hget : payload[pos]? = some b) (hi : payload.drop pos = i.wire ++ y) : i.first = b := by
  rw [drop_of_getElem? hget, PrefixInt.wire, List.cons_append, List.cons.injEq] at hi
  exact hi.1.symm

section Lines

variable {w pos q : Nat} {payload : List UInt8}

private theorem skipLiteralValue_ok (hw : 64 ≤ w) (h : skipLiteralValue w payload pos = .ok q) :
    ∃ value : Literal 7 0x80, payload.drop pos = value.wire ++ payload.drop q := by
  obtain ⟨len, start, hint, hend⟩ := skipLiteralValue_cases h
  obtain ⟨i, hi, hstart, rfl⟩ := decodeInteger_ok (by decide) hint
  obtain ⟨hstop, hle⟩ := literalEnd_ok (value_lt_two_pow (by decide) hw i) hend
  obtain ⟨l, -, -, hl, -⟩ := exists_literal 0x80 i hi hstart hstop hle
  exact ⟨l, hl⟩

private theorem readLiteralValue_ok {s : List UInt8} (hw : 64 ≤ w) (h : readLiteralValue w payload pos = .ok (s, q)) :
    ∃ value : Literal 7 0x80, value.text = .ok s ∧ payload.drop pos = value.wire ++ payload.drop q := by
  obtain ⟨b, len, start, hget, hint, hend, htext⟩ := readLiteralValue_cases h
  obtain ⟨i, hi, hstart, rfl⟩ := decodeInteger_ok (by decide) hint
  obtain ⟨hstop, hle⟩ := literalEnd_ok (value_lt_two_pow (by decide) hw i) hend
  obtain ⟨l, hli, hraw, hl, -⟩ := exists_literal 0x80 i hi hstart hstop hle
  refine ⟨l, ?_, hl⟩
  rw [Literal.text, hraw, hli, first_of_wire hget hi]
  exact htext

variable {b : UInt8} {found found' : Found}

private theorem decodeIndexed_ok (hget : payload[pos]? = some b) (kind : b &&& 0x80 ≠ 0)
    (h : decodeIndexed payload pos b found = .ok (found', q)) :
    ∃ line : FieldLine, payload.drop pos = line.wire ++ payload.drop q := by
  obtain ⟨idx, hint⟩ := decodeIndexed_cases h
  obtain ⟨i, hi, -, -⟩ := decodeInteger_ok (by decide) hint
  obtain rfl := first_of_wire hget hi
  exact ⟨.indexed i kind, hi⟩

private theorem decodeNameRef_ok (hw : 64 ≤ w) (hget : payload[pos]? = some b) (kind : b &&& 0xc0 = 0x40)
    (h : decodeNameRef w payload pos found = .ok (found', q)) :
    ∃ line : FieldLine, payload.drop pos = line.wire ++ payload.drop q := by
  obtain ⟨idx, n, hint, hskip⟩ := decodeNameRef_cases h
  obtain ⟨i, hi, -, -⟩ := decodeInteger_ok (by decide) hint
  obtain ⟨value, hvalue⟩ := skipLiteralValue_ok hw hskip
  obtain rfl := first_of_wire hget hi
  refine ⟨.nameRef i kind value, ?_⟩
  rw [FieldLine.wire, List.append_assoc, ← hvalue]
  exact hi

private theorem decodeLiteralName_ok (hw : 64 ≤ w) (hget : payload[pos]? = some b) (kind : b &&& 0xe0 = 0x20)
    (h : decodeLiteralName w payload pos b found = .ok (found', q)) :
    ∃ line : FieldLine, payload.drop pos = line.wire ++ payload.drop q := by
  obtain ⟨nameLen, n, nameEnd, text, s, hint, hend, htext, hread⟩ := decodeLiteralName_cases h
  obtain ⟨i, hi, hn, rfl⟩ := decodeInteger_ok (by decide) hint
  obtain ⟨hstop, hle⟩ := literalEnd_ok (value_lt_two_pow (by decide) hw i) hend
  obtain ⟨name, rfl, hraw, hname, -⟩ := exists_literal 0x08 i hi hn hstop hle
  obtain rfl := first_of_wire hget hi
  obtain ⟨value, hs, hvalue⟩ := readLiteralValue_ok hw hread
  have hok : ∃ t, name.text = .ok t := ⟨text, by rw [Literal.text, hraw]; exact htext⟩
  refine ⟨.literalName name kind value hok ⟨s, hs⟩, ?_⟩
  rw [hname, hvalue, FieldLine.wire, List.append_assoc]

/-- What a wide machine reads is a field line. -/
theorem decodeField_ok (hw : 64 ≤ w) (hlen : payload.length < 2 ^ w) (hget : payload[pos]? = some b)
    (h : decodeField w payload pos b found = .ok (found', q)) :
    ∃ line : FieldLine, payload.drop pos = line.wire ++ payload.drop q ∧ found' = line.apply found ∧
      q = pos + line.wire.length := by
  have hline : ∃ line : FieldLine, payload.drop pos = line.wire ++ payload.drop q := by
    rcases decodeField_cases h with ⟨kind, h⟩ | ⟨kind, h⟩ | ⟨kind, h⟩
    · exact decodeIndexed_ok hget kind h
    · exact decodeNameRef_ok hw hget kind h
    · exact decodeLiteralName_ok hw hget kind h
  -- what that line is read as is known
  obtain ⟨line, hline⟩ := hline
  obtain ⟨b', hget', hrun⟩ := decodeField_wire line found hlen hline
  obtain rfl : b = b' := by rwa [hget, Option.some.injEq] at hget'
  rw [h, Except.ok.injEq, Prod.mk.injEq] at hrun
  exact ⟨line, hline, hrun⟩

end Lines

/-! ### Sequences of lines -/

/-- The bytes of a sequence of lines. -/
def wireOf (lines : List FieldLine) : List UInt8 := lines.flatMap FieldLine.wire

/-- What the lines leave in the variables of `decode_headers`. -/
def applyAll (lines : List FieldLine) (found : Found) : Found :=
  lines.foldl (fun found line => line.apply found) found

/-- A sequence of lines is read as that sequence, whatever stands behind it. -/
theorem decodeFields_wire {w : Nat} {payload y : List UInt8} (hw : payload.length < 2 ^ w) (lines : List FieldLine) :
    ∀ {pos : Nat} (found : Found), payload.drop pos = wireOf lines ++ y →
      decodeFields w payload pos found = decodeFields w payload (pos + (wireOf lines).length)
        (applyAll lines found) := by
  induction lines with
  | nil => intro pos found _; rfl
  | cons line lines ih =>
    intro pos found h
    rw [wireOf, List.flatMap_cons, List.append_assoc] at h
    obtain ⟨b, hget, hrun⟩ := decodeField_wire line found hw h
    rw [decodeFields_eq, hget]
    simp only [hrun]
    rw [ih (line.apply found) (drop_append h)]
    simp [wireOf, applyAll, Nat.add_assoc]

theorem decodeFields_end (w : Nat) {payload : List UInt8} {pos : Nat} (found : Found)
    (h : payload.length ≤ pos) : decodeFields w payload pos found = .ok found := by
  rw [decodeFields_eq, List.getElem?_eq_none h]

theorem decodeFields_ok {w : Nat} {payload : List UInt8} (hw : 64 ≤ w) (hlen : payload.length < 2 ^ w) {pos : Nat}
    {found found' : Found} (h : decodeFields w payload pos found = .ok found') :
    ∃ lines, payload.drop pos = wireOf lines := by
  induction hm : payload.length - pos using Nat.strongRecOn generalizing pos found with
  | ind m ih =>
    rw [decodeFields_eq] at h
    cases hget : payload[pos]? with
    | none => exact ⟨[], List.drop_eq_nil_of_le (List.getElem?_eq_none_iff.1 hget)⟩
    | some b =>
      simp only [hget] at h
      cases hfield : decodeField w payload pos b found with
      | error e => simp [hfield] at h
      | ok p =>
        obtain ⟨found₁, q⟩ := p
        simp only [hfield] at h
        obtain ⟨line, hline, -, -⟩ := decodeField_ok hw hlen hget hfield
        have hlt := lt_of_decodeField hfield
        have hpos := (List.getElem?_eq_some_iff.1 hget).1
        obtain ⟨lines, hlines⟩ := ih (payload.length - q) (by omega) h rfl
        exact ⟨line :: lines, by rw [hline, hlines]; rfl⟩

/-- The first byte of a line. -/
private def FieldLine.first : FieldLine → UInt8
  | .indexed index _ => index.first
  | .nameRef name _ _ => name.first
  | .literalName name _ _ _ _ => name.len.first

private theorem FieldLine.head_wire (line : FieldLine) (x : List UInt8) :
    (line.wire ++ x).head? = some line.first := by
  cases line <;> rfl

/-- What a byte string starts with, it starts with in one way: the first byte tells the kind of the line. -/
theorem FieldLine.eq_of_wire_append {l m : FieldLine} {x y : List UInt8} (h : l.wire ++ x = m.wire ++ y) :
    l = m ∧ x = y := by
  have hfirst : l.first = m.first := by
    have := congrArg List.head? h
    rwa [head_wire, head_wire, Option.some.injEq] at this
  cases l with
  | indexed i hi =>
    cases m with
    | indexed j hj =>
      obtain ⟨rfl, hxy⟩ := PrefixInt.eq_of_wire_append h
      exact ⟨rfl, hxy⟩
    | nameRef j hj v => exact absurd ((show i.first = j.first from hfirst) ▸ hi) (not_indexed_of_nameRef _ hj)
    | literalName j hj v =>
      exact absurd ((show i.first = j.len.first from hfirst) ▸ hi) (not_other_of_literalName _ hj).1
  | nameRef i hi u =>
    cases m with
    | indexed j hj => exact absurd ((show i.first = j.first from hfirst) ▸ hj) (not_indexed_of_nameRef _ hi)
    | nameRef j hj v =>
      simp only [wire, List.append_assoc] at h
      obtain ⟨rfl, h'⟩ := PrefixInt.eq_of_wire_append h
      obtain ⟨rfl, hxy⟩ := Literal.eq_of_wire_append h'
      exact ⟨rfl, hxy⟩
    | literalName j hj v =>
      exact absurd ((show i.first = j.len.first from hfirst) ▸ hi) (not_other_of_literalName _ hj).2
  | literalName i hi u =>
    cases m with
    | indexed j hj => exact absurd ((show i.len.first = j.first from hfirst) ▸ hj) (not_other_of_literalName _ hi).1
    | nameRef j hj v => exact absurd ((show i.len.first = j.first from hfirst) ▸ hj) (not_other_of_literalName _ hi).2
    | literalName j hj v =>
      simp only [wire, List.append_assoc] at h
      obtain ⟨rfl, h'⟩ := Literal.eq_of_wire_append h
      obtain ⟨rfl, hxy⟩ := Literal.eq_of_wire_append h'
      exact ⟨rfl, hxy⟩

end WarpSocks.Masque.Qpack
