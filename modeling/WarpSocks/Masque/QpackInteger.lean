import WarpSocks.Machine.Checked
import WarpSocks.Masque.QpackGrammar
import WarpSocks.Masque.Request

/-!
# Prefix integers of QPACK

`encode_integer` writes the shortest spelling of its value (`encodeInteger_eq`), and `decode_integer` reads back
the values whose spelling has at most nine continuation bytes.  `decodeIntegerChecked` is `decode_integer` with a
check at every operation that could go wrong; as the accumulated value stays below `2 ^ 8 + 128 ^ k` after `k`
groups (`add_group`), no check fails (`decodeIntegerChecked_eq`).
-/

namespace WarpSocks.Masque.Qpack

open Machine (Checked)
open Wire (PrefixInt groups groupsOf closes)
open Huffman (shl64)

/-! ### The encoder -/

private theorem or_0x80 : ∀ r < 128, UInt8.ofNat r ||| 0x80 = UInt8.ofNat (r + 128) := by decide +kernel

private theorem encodeGroups_eq (out : List UInt8) (rest : Nat) : encodeGroups out rest = out ++ groupsOf rest := by
  fun_induction encodeGroups out rest with
  | case1 out rest h ih =>
    have hlow : rest &&& 0x7f = rest % 128 := Nat.and_two_pow_sub_one_eq_mod rest 7
    have hhigh : rest >>> 7 = rest / 128 := Nat.shiftRight_eq_div_pow rest 7
    rw [hhigh] at ih ⊢
    rw [ih, Wire.groupsOf_of_le h, hlow, or_0x80 _ (Nat.mod_lt _ (by decide)), List.append_assoc,
      List.singleton_append]
  | case2 out rest h => rw [Wire.groupsOf_of_lt (by omega)]

/-- `encode_integer` writes the prefix and the fewest groups. -/
theorem encodeInteger_eq (out : List UInt8) (value n : Nat) (flags : UInt8) :
    encodeInteger out value n flags = out ++
      if value < 2 ^ n - 1 then [flags ||| UInt8.ofNat value]
      else (flags ||| UInt8.ofNat (2 ^ n - 1)) :: groupsOf (value - (2 ^ n - 1)) := by
  unfold encodeInteger
  simp only [Nat.one_shiftLeft]
  split
  · rfl
  · rw [encodeGroups_eq, List.append_assoc, List.singleton_append]

/-- The prefix in a byte whose other bits are the flags. -/
private theorem or_mod {n v : Nat} {flags : UInt8} (hn : n ≤ 8) (hflags : flags.toNat % 2 ^ n = 0) (hv : v < 2 ^ n) :
    (flags ||| UInt8.ofNat v).toNat % 2 ^ n = v := by
  have hpow : 2 ^ n ≤ 2 ^ 8 := Nat.pow_le_pow_right (by decide) hn
  have hbyte : (UInt8.ofNat v).toNat = v := by
    rw [UInt8.toNat_ofNat']
    exact Nat.mod_eq_of_lt (by omega)
  rw [UInt8.toNat_or, hbyte, Nat.or_mod_two_pow, hflags, Nat.zero_or, Nat.mod_eq_of_lt hv]

/-- The value fits the prefix, or what is left for the groups fits nine of them. -/
def Fits (n value : Nat) : Prop := value < 2 ^ n - 1 ∨ value - (2 ^ n - 1) < 2 ^ 63

/-- What `encode_integer` writes for a value that fits is an integer with that value. -/
theorem encodeInteger_wire {n value : Nat} {flags : UInt8} (hn : n ≤ 8) (hflags : flags.toNat % 2 ^ n = 0)
    (hfits : Fits n value) :
    ∃ i : PrefixInt n, (∀ out, encodeInteger out value n flags = out ++ i.wire) ∧ i.value = value ∧
      i.first = flags ||| UInt8.ofNat (min value (2 ^ n - 1)) := by
  have hpos := Nat.two_pow_pos n
  by_cases hv : value < 2 ^ n - 1
  · have hfirst := or_mod hn hflags (show value < 2 ^ n by omega)
    refine ⟨⟨flags ||| UInt8.ofNat value, [], by rw [hfirst, if_pos hv]⟩, fun out => ?_, hfirst, ?_⟩
    · rw [encodeInteger_eq, if_pos hv, PrefixInt.wire]
    · rw [Nat.min_eq_left (by omega)]
  · have hfirst := or_mod hn hflags (show 2 ^ n - 1 < 2 ^ n by omega)
    have hrest : (groupsOf (value - (2 ^ n - 1))).length ≤ 9 := Wire.length_groupsOf_le (hfits.resolve_left hv)
    refine ⟨⟨flags ||| UInt8.ofNat (2 ^ n - 1), groupsOf (value - (2 ^ n - 1)), ?_⟩, fun out => ?_, ?_, ?_⟩
    · rw [hfirst, if_neg (Nat.lt_irrefl _)]
      exact ⟨Wire.closes_groupsOf _, hrest⟩
    · rw [encodeInteger_eq, if_neg hv, PrefixInt.wire]
    · show (flags ||| UInt8.ofNat (2 ^ n - 1)).toNat % 2 ^ n + groups (groupsOf (value - (2 ^ n - 1))) = value
      rw [hfirst, Wire.groups_groupsOf]
      omega
    · rw [Nat.min_eq_right (by omega)]

/-! ### The decoder -/

/-- Nine bytes that are all continued are too many. -/
private theorem decodeContinuation_long {buf y more : List UInt8} (hmore : ∀ b ∈ more, 128 ≤ b.toNat) :
    ∀ {value p k : Nat}, k ≤ 8 → more.length + k = 9 → buf.drop p = more ++ y →
      decodeContinuation buf value p (7 * k) = .error "整数过长" := by
  induction more with
  | nil =>
    intro value p k hk hlen _
    rw [List.length_nil] at hlen
    omega
  | cons b more ih =>
    intro value p k hk hlen hbuf
    obtain ⟨hget, hdrop⟩ := drop_cons (show buf.drop p = b :: (more ++ y) from hbuf)
    have hb : ¬b &&& 0x80 = 0 := by
      have := hmore b List.mem_cons_self
      rw [and_0x80]
      omega
    rw [List.length_cons] at hlen
    rw [decodeContinuation, hget]
    simp only [hb, ↓reduceIte]
    by_cases hlast : k = 8
    · rw [if_pos (by omega)]
    · rw [if_neg (by omega), show 7 * k + 7 = 7 * (k + 1) by omega]
      exact ih (fun c hc => hmore c (List.mem_cons_of_mem _ hc)) (by omega) (by omega) hdrop

private theorem decodeInteger_long {n value : Nat} {flags : UInt8} (hn : n ≤ 8) (hflags : flags.toNat % 2 ^ n = 0)
    (hfits : ¬Fits n value) (front back : List UInt8) :
    decodeInteger (encodeInteger front value n flags ++ back) front.length n = .error "整数过长" := by
  have hpos := Nat.two_pow_pos n
  obtain ⟨hv, hlong⟩ := not_or.1 hfits
  obtain ⟨more, rest, hgroups, hlen, hmore⟩ := Wire.groupsOf_long (k := 9) (Nat.le_of_not_lt hlong)
  have hfirst := or_mod hn hflags (show 2 ^ n - 1 < 2 ^ n by omega)
  have hwire : encodeInteger front value n flags ++ back =
      front ++ (flags ||| UInt8.ofNat (2 ^ n - 1)) :: (more ++ (rest ++ back)) := by
    rw [encodeInteger_eq, if_neg hv, hgroups]
    simp only [List.append_assoc, List.cons_append]
  obtain ⟨hget, hdrop⟩ := drop_cons (show (encodeInteger front value n flags ++ back).drop front.length = _ by
    rw [hwire, List.drop_left])
  unfold decodeInteger
  simp only [hget, shl64_one hn, and_mask _ hn, hfirst, Nat.lt_irrefl, ↓reduceIte]
  exact decodeContinuation_long hmore (Nat.zero_le 8) (by omega) hdrop

/-- The loop of `decode_integer` with its checks: reads are in bounds, and neither an addition nor a shift of a
group loses anything.  `w` is the number of bits of a `usize`. -/
def decodeContinuationChecked (w : Nat) (buf : List UInt8) (value p shift : Nat) : Checked String (Nat × Nat) :=
  if buf.length ≤ p then throw "整数续字节越界"
  else do
    let b ← Checked.index buf p
    Checked.require (p + 1 < 2 ^ w)
    Checked.require (shift < 64 ∧ (b &&& 0x7f).toNat <<< shift < 2 ^ 64)
    Checked.require (value + (b &&& 0x7f).toNat <<< shift < 2 ^ 64)
    let value := value + (b &&& 0x7f).toNat <<< shift
    if b &&& 0x80 = 0 then pure (value, p + 1)
    else
      Checked.require (shift + 7 < 2 ^ 32)
      if 56 < shift + 7 then throw "整数过长" else decodeContinuationChecked w buf value (p + 1) (shift + 7)
termination_by 63 - shift

/-- `decode_integer` with its checks. -/
def decodeIntegerChecked (w : Nat) (buf : List UInt8) (pos prefixBits : Nat) : Checked String (Nat × Nat) := do
  Checked.require (prefixBits < 64)
  Checked.require (1 ≤ 1 <<< prefixBits ∧ 1 <<< prefixBits < 2 ^ 64)
  let max := 1 <<< prefixBits - 1
  let mask := UInt8.ofNat max
  if buf.length ≤ pos then throw "整数解析越界"
  else
    let b ← Checked.index buf pos
    let value := (b &&& mask).toNat
    Checked.require (pos + 1 < 2 ^ w)
    if value < max then pure (value, pos + 1) else decodeContinuationChecked w buf value (pos + 1) 0

private theorem shift_group (b : UInt8) (k : Nat) : (b &&& 0x7f).toNat <<< (7 * k) = 128 ^ k * (b.toNat % 128) := by
  rw [and_0x7f, Nat.shiftLeft_eq, Nat.pow_mul, Nat.mul_comm]

/-- One round of the loop with its checks, none of which fails. -/
private theorem decodeContinuationChecked_step {w value p k : Nat} {buf : List UInt8} {b : UInt8}
    (hw : buf.length < 2 ^ w) (hget : buf[p]? = some b) (hk : k ≤ 8) (hv : value < 2 ^ 8 + 128 ^ k) :
    decodeContinuationChecked w buf value p (7 * k) =
      let value := (value + shl64 (b &&& 0x7f).toNat (7 * k)) % 2 ^ 64
      if b &&& 0x80 = 0 then pure (value, p + 1)
      else if 56 < 7 * k + 7 then throw "整数过长"
      else decodeContinuationChecked w buf value (p + 1) (7 * k + 7) := by
  obtain ⟨hp, rfl⟩ := List.getElem?_eq_some_iff.1 hget
  obtain ⟨hadd, hlt⟩ := add_group buf[p] hk hv
  have hle : 128 ^ (k + 1) ≤ 2 ^ 63 := Nat.pow_le_pow_right (by decide : 0 < 128) (show k + 1 ≤ 9 by omega)
  rw [decodeContinuationChecked, if_neg (by omega), Checked.index_of_lt hp, Checked.pure_bind,
    Checked.require_bind (by omega), shift_group, Checked.require_bind ⟨by omega, by omega⟩,
      Checked.require_bind (by omega),
    hadd]
  dsimp only
  rw [Checked.require_bind (by omega)]

/-- No check of the loop fails.  The invariant is the bound of the value after `k` groups. -/
private theorem decodeContinuationChecked_eq {w : Nat} {buf : List UInt8} {value p shift : Nat}
    (hw : buf.length < 2 ^ w) :
    ∀ k, shift = 7 * k → k ≤ 8 → value < 2 ^ 8 + 128 ^ k →
      decodeContinuationChecked w buf value p shift = .ofExcept (decodeContinuation buf value p shift) := by
  fun_induction decodeContinuation buf value p shift with
  | case1 value p shift hget =>
    intro k _ _ _
    rw [decodeContinuationChecked, if_pos (List.getElem?_eq_none_iff.1 hget)]
    rfl
  | case2 value p shift b hget value' hlast =>
    rintro k rfl hk hv
    rw [decodeContinuationChecked_step hw hget hk hv]
    simp only [hlast, ↓reduceIte]
    rfl
  | case3 value p shift b hget hmore hlong =>
    rintro k rfl hk hv
    rw [decodeContinuationChecked_step hw hget hk hv]
    simp only [hmore, hlong, ↓reduceIte]
    rfl
  | case4 value p shift b hget value' hmore hshort ih =>
    rintro k rfl hk hv
    have hvalue : value' < 2 ^ 8 + 128 ^ (k + 1) := by
      obtain ⟨hadd, hlt⟩ := add_group b hk hv
      exact hadd.trans_lt hlt
    rw [decodeContinuationChecked_step hw hget hk hv]
    simp only [hmore, hshort, ↓reduceIte]
    exact ih (k + 1) (by omega) (by omega) hvalue

/-- No check of `decode_integer` fails. -/
theorem decodeIntegerChecked_eq {w n : Nat} {buf : List UInt8} (hn : n ≤ 8) (hw : buf.length < 2 ^ w) (pos : Nat) :
    decodeIntegerChecked w buf pos n = .ofExcept (decodeInteger buf pos n) := by
  have hpow : 2 ^ n ≤ 2 ^ 8 := Nat.pow_le_pow_right (by decide) hn
  have hpos := Nat.two_pow_pos n
  unfold decodeIntegerChecked decodeInteger
  rw [Checked.require_bind (by omega), Nat.one_shiftLeft, Checked.require_bind ⟨hpos, by omega⟩]
  simp only [shl64_one hn]
  by_cases hp : buf.length ≤ pos
  · rw [if_pos hp, List.getElem?_eq_none hp]
    rfl
  · have hp : pos < buf.length := Nat.lt_of_not_le hp
    have hvalue : (buf[pos] &&& UInt8.ofNat (2 ^ n - 1)).toNat < 2 ^ 8 + 128 ^ 0 := by
      have := Nat.mod_lt buf[pos].toNat hpos
      rw [and_mask _ hn]
      omega
    rw [if_neg (by omega), Checked.index_of_lt hp, Checked.pure_bind, Checked.require_bind (by omega),
      List.getElem?_eq_getElem hp]
    dsimp only
    split
    · rfl
    · exact decodeContinuationChecked_eq hw 0 rfl (by decide) hvalue

/-- What is read is in the buffer, and its value fits a `u64`. -/
private theorem decodeInteger_bounds {n pos value stop : Nat} {buf : List UInt8} (hn : n ≤ 8)
    (h : decodeInteger buf pos n = .ok (value, stop)) :
    pos < stop ∧ stop ≤ buf.length ∧ stop ≤ pos + 10 ∧ value < 2 ^ 64 := by
  obtain ⟨i, hbuf, hstop, hvalue⟩ := decodeInteger_ok hn h
  have hlen := length_of_drop (show i.wire ≠ [] by simp [PrefixInt.wire]) hbuf
  have hwire : i.wire.length = i.rest.length + 1 := rfl
  have hrest := i.length_rest_le
  have hlt := i.value_lt hn
  refine ⟨by omega, ?_, by omega, by omega⟩
  rw [List.length_drop] at hlen
  omega

/-- Prefix integers come back exactly if they take at most nine continuation bytes, and are refused as too long
otherwise. On any bytes whatever, `decode_integer` reads in bounds and at most ten of them, and no operation
overflows. -/
theorem decodeInteger_encodeInteger :
    (∀ (n value : Nat) (flags : UInt8) (front back : List UInt8), 1 ≤ n → n ≤ 8 → value < 2 ^ 64 →
      flags.toNat % 2 ^ n = 0 →
      (decodeInteger (encodeInteger front value n flags ++ back) front.length n =
          .ok (value, (encodeInteger front value n flags).length) ↔
        value < 2 ^ n - 1 ∨ value - (2 ^ n - 1) < 2 ^ 63) ∧
      (¬(value < 2 ^ n - 1 ∨ value - (2 ^ n - 1) < 2 ^ 63) →
        decodeInteger (encodeInteger front value n flags ++ back) front.length n = .error "整数过长")) ∧
    (∀ (w n pos : Nat) (buf : List UInt8), 1 ≤ n → n ≤ 8 → buf.length < 2 ^ w →
      decodeIntegerChecked w buf pos n = .ofExcept (decodeInteger buf pos n) ∧
      ∀ value stop, decodeInteger buf pos n = .ok (value, stop) →
        pos < stop ∧ stop ≤ buf.length ∧ stop ≤ pos + 10 ∧ value < 2 ^ 64) := by
  refine ⟨fun n value flags front back _ hn _ hflags => ?_, fun w n pos buf _ hn hw => ?_⟩
  · have hlong (hfits : ¬Fits n value) := decodeInteger_long hn hflags hfits front back
    refine ⟨⟨fun h => ?_, fun hfits => ?_⟩, hlong⟩
    · by_contra hfits
      rw [hlong hfits] at h
      cases h
    · obtain ⟨i, hwire, hvalue, -⟩ := encodeInteger_wire hn hflags hfits
      have hbuf : (encodeInteger front value n flags ++ back).drop front.length = i.wire ++ back := by
        rw [hwire, List.append_assoc, List.drop_left]
      rw [decodeInteger_wire hn i hbuf, hvalue, hwire, List.length_append]
  · exact ⟨decodeIntegerChecked_eq hn hw pos, fun value stop h => decodeInteger_bounds hn h⟩

/-- The largest length of a string that can be read back, and the next one. -/
theorem decodeInteger_encodeInteger_limit :
    decodeInteger (encodeInteger [0x50] 9223372036854775934 7 0x00 ++ [0x68]) 1 7 = .ok (9223372036854775934, 11) ∧
    decodeInteger (encodeInteger [0x50] 9223372036854775935 7 0x00 ++ [0x68]) 1 7 = .error "整数过长" := by
  obtain ⟨hread, -⟩ := decodeInteger_encodeInteger
  have hok := (hread 7 9223372036854775934 0x00 [0x50] [0x68] (by decide) (by decide) (by decide) (by decide)).1.2
    (by decide)
  have hlong := (hread 7 9223372036854775935 0x00 [0x50] [0x68] (by decide) (by decide) (by decide) (by decide)).2
    (by decide)
  have hlen : (encodeInteger [0x50] 9223372036854775934 7 0x00).length = 11 := by
    simp [encodeInteger, encodeGroups]
  exact ⟨hlen ▸ hok, hlong⟩

end WarpSocks.Masque.Qpack
