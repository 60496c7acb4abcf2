import WarpSocks.Masque.HuffmanTable

/-!
# The decoder inverts Huffman encoding

`encode` is RFC 7541 §5.2: the code words of the bytes, padded with ones to a byte boundary.  The decoder's state
after some bytes is the unique split of their bits into code words and a remainder that no code word starts: the
code words are the output, the remainder is the accumulator (`takeSymbols_spec`, `decodeBytes_spec`).  The
remainder has at most 29 bits because the code is complete, so the 64-bit register never loses a bit.
-/

namespace WarpSocks.Masque.Huffman

open Wire (bits bitsOf)
open Wire.PrefixCode

/-- The end-of-string symbol. -/
def eos : Fin 257 := 256

/-- The symbol of a byte. -/
def byteSymbol (b : UInt8) : Fin 257 := ⟨b.toNat, by have := b.toNat_lt; omega⟩

/-- The code words of a byte string. -/
def codes (s : List UInt8) : List Bool := encodeAll code (s.map byteSymbol)

/-- Huffman encoding with the table: code words, then ones up to the next byte boundary. -/
def encode (s : List UInt8) : List UInt8 :=
  Wire.pack (codes s ++ List.replicate ((8 - (codes s).length % 8) % 8) true)

/-- The bytes of a list of symbols, as `sym as u8` makes them. -/
private def bytesOf (syms : List (Fin 257)) : List UInt8 := syms.map fun a => UInt8.ofNat a.val

private theorem bytesOf_append (s t : List (Fin 257)) : bytesOf (s ++ t) = bytesOf s ++ bytesOf t := by
  simp [bytesOf]

private theorem bytesOf_byteSymbol (s : List UInt8) : bytesOf (s.map byteSymbol) = s := by
  simp [bytesOf, byteSymbol, Function.comp_def]

/-- Symbols other than the end of string are bytes. -/
private theorem byteSymbol_bytesOf {syms : List (Fin 257)} (h : eos ∉ syms) :
    (bytesOf syms).map byteSymbol = syms := by
  induction syms with
  | nil => rfl
  | cons a syms ih =>
    simp only [List.mem_cons, not_or] at h
    have ha : a.val ≠ 256 := fun h' => h.1 (Fin.ext h').symm
    have hlt : a.val < 256 := by have := a.isLt; omega
    have hb : byteSymbol (UInt8.ofNat a.val) = a := Fin.ext (by simp [byteSymbol, Nat.mod_eq_of_lt hlt])
    have htail := ih h.2
    simp only [bytesOf, List.map_cons] at htail ⊢
    rw [hb, htail]

private theorem eos_notMem_byteSymbol (s : List UInt8) : eos ∉ s.map byteSymbol := by
  intro h
  obtain ⟨b, -, hb⟩ := List.mem_map.1 h
  have := congrArg Fin.val hb
  have := b.toNat_lt
  simp [byteSymbol, eos] at *
  omega

/-! ### Matching one symbol -/

private theorem candidate_eq {acc nbits len : Nat} (hacc : acc < 2 ^ nbits) (hn : nbits < 64) (hlen : len ≤ nbits) :
    shr64 acc (nbits - len) &&& (shl64 1 len - 1) = acc / 2 ^ (nbits - len) := by
  have hshl : shl64 1 len = 2 ^ len := shl64_one_eq (by omega)
  have hlt : acc / 2 ^ (nbits - len) < 2 ^ len := by
    rw [Nat.div_lt_iff_lt_mul (Nat.two_pow_pos _), ← Nat.pow_add, show len + (nbits - len) = nbits by omega]
    exact hacc
  rw [hshl, Nat.and_two_pow_sub_one_eq_mod, shr64, Nat.mod_eq_of_lt (show nbits - len < 64 by omega),
    Nat.shiftRight_eq_div_pow, Nat.mod_eq_of_lt hlt]

private theorem matchFrom_some {acc nbits sym len : Nat} {es : List (Nat × Nat)} : ∀ {s : Nat},
    matchFrom acc nbits s es = some (sym, len) →
    ∃ i c, sym = s + i ∧ es[i]? = some (c, len) ∧ len ≤ nbits ∧
      shr64 acc (nbits - len) &&& (shl64 1 len - 1) = c := by
  induction es with
  | nil => intro s h; cases h
  | cons e es ih =>
    intro s h
    obtain ⟨c, l⟩ := e
    have hskip : matchFrom acc nbits (s + 1) es = some (sym, len) → ∃ i c', sym = s + i ∧
        ((c, l) :: es)[i]? = some (c', len) ∧ len ≤ nbits ∧
          shr64 acc (nbits - len) &&& (shl64 1 len - 1) = c' := by
      intro h
      obtain ⟨i, c', hs, hi, hle, hc⟩ := ih h
      exact ⟨i + 1, c', by omega, by simpa using hi, hle, hc⟩
    simp only [matchFrom] at h
    split at h
    · rename_i hle
      split at h
      · rename_i hc
        simp only [Option.some.injEq, Prod.mk.injEq] at h
        obtain ⟨rfl, rfl⟩ := h
        exact ⟨0, c, rfl, rfl, hle, hc⟩
      · exact hskip h
    · exact hskip h

private theorem matchFrom_none {acc nbits : Nat} {es : List (Nat × Nat)} : ∀ {s : Nat},
    matchFrom acc nbits s es = none →
    ∀ e ∈ es, e.2 ≤ nbits → shr64 acc (nbits - e.2) &&& (shl64 1 e.2 - 1) ≠ e.1 := by
  induction es with
  | nil => intro s _ e he; cases he
  | cons f es ih =>
    intro s h e he hle
    simp only [matchFrom] at h
    rcases List.mem_cons.1 he with rfl | he
    · rw [if_pos hle] at h
      split at h
      · cases h
      · assumption
    · split at h
      · split at h
        · cases h
        · exact ih h e he hle
      · exact ih h e he hle

/-- A match is the symbol whose code word starts the accumulated bits. -/
private theorem matchSymbol_some {acc nbits sym len : Nat} (hacc : acc < 2 ^ nbits) (hn : nbits < 64)
    (h : matchSymbol acc nbits = some (sym, len)) :
    ∃ a : Fin 257, sym = a.val ∧ len = (code a).length ∧ code a <+: bits nbits acc := by
  obtain ⟨i, c, hsym, hi, hle, hc⟩ := matchFrom_some h
  obtain ⟨a, ha, hea⟩ := exists_entry hi
  refine ⟨a, by omega, by rw [length_code, hea], ?_⟩
  have hlt := entry_lt a
  rw [hea] at hlt
  rw [code, hea, Wire.bits_prefix_iff hle hlt hacc, ← candidate_eq hacc hn hle, hc]

/-- Where nothing matches, no code word starts the accumulated bits. -/
theorem matchSymbol_none {acc nbits : Nat} (hacc : acc < 2 ^ nbits) (hn : nbits < 64)
    (h : matchSymbol acc nbits = none) : Stuck code (bits nbits acc) := by
  intro a ha
  have hle : (entry a).2 ≤ nbits := by simpa using ha.length_le
  have hne := matchFrom_none h (entry a) (entry_mem a) hle
  rw [candidate_eq hacc hn hle] at hne
  rw [code, Wire.bits_prefix_iff hle (entry_lt a) hacc] at ha
  exact hne ha

/-! ### The loops -/

private theorem bits_drop {nbits len acc : Nat} {x y : List Bool} (h : bits nbits acc = x ++ y)
    (hx : x.length = len) : bits (nbits - len) acc = y := by
  have hlen := congrArg List.length h
  rw [Wire.length_bits, List.length_append] at hlen
  have hsplit := Wire.bits_add len (nbits - len) acc
  rw [show len + (nbits - len) = nbits by omega, h] at hsplit
  exact (List.append_inj hsplit (by simp [hx])).2.symm

theorem mask_eq {acc n : Nat} (hn : n < 64) : acc &&& (shl64 1 n - 1) = acc % 2 ^ n := by
  rw [shl64_one_eq hn, Nat.and_two_pow_sub_one_eq_mod]

/-- What the loops do with the code words `syms` followed by a stuck remainder `x`: they fail on an end-of-string
symbol, else they output the bytes and keep the remainder. -/
private def Takes (run : Except String (List UInt8 × Nat × Nat)) (out : List UInt8) (syms : List (Fin 257))
    (x : List Bool) : Prop :=
  (eos ∈ syms → run = .error "Huffman 流中出现 EOS 符号") ∧
  (eos ∉ syms → ∃ acc, run = .ok (out ++ bytesOf syms, acc, x.length) ∧ acc < 2 ^ x.length ∧ bits x.length acc = x)

private theorem takeSymbols_spec (syms : List (Fin 257)) : ∀ {acc nbits : Nat} (out : List UInt8) {x : List Bool},
    acc < 2 ^ nbits → nbits < 64 → bits nbits acc = encodeAll code syms ++ x → Stuck code x →
    Takes (takeSymbols acc nbits out) out syms x := by
  induction syms with
  | nil =>
    intro acc nbits out x hacc hn hbits hx
    rw [encodeAll_nil, List.nil_append] at hbits
    have hlen : nbits = x.length := by rw [← hbits, Wire.length_bits]
    have hnone : matchSymbol acc nbits = none := by
      cases hm : matchSymbol acc nbits with
      | none => rfl
      | some p =>
        obtain ⟨a, -, -, ha⟩ := matchSymbol_some hacc hn hm
        exact absurd (hbits ▸ ha) (hx a)
    refine ⟨fun h => by simp at h, fun _ => ⟨acc, ?_, hlen ▸ hacc, hlen ▸ hbits⟩⟩
    rw [takeSymbols_eq, hnone, ← hlen]
    simp [bytesOf]
  | cons a syms ih =>
    intro acc nbits out x hacc hn hbits hx
    rw [encodeAll_cons, List.append_assoc] at hbits
    have ha : code a <+: bits nbits acc := hbits ▸ List.prefix_append _ _
    obtain ⟨sym, len, hm⟩ : ∃ sym len, matchSymbol acc nbits = some (sym, len) := by
      cases hm : matchSymbol acc nbits with
      | none => exact absurd ha (matchSymbol_none hacc hn hm a)
      | some p => exact ⟨p.1, p.2, rfl⟩
    obtain ⟨b, rfl, rfl, hb⟩ := matchSymbol_some hacc hn hm
    obtain rfl := symbol_unique code_prefixFree ha hb
    by_cases hea : a = eos
    · subst hea
      refine ⟨fun _ => ?_, fun h => absurd List.mem_cons_self h⟩
      rw [takeSymbols_eq, hm]
      rfl
    · have hval : a.val ≠ 256 := fun h => hea (Fin.ext h)
      have hlt : nbits - (code a).length < 64 := by omega
      have hrest : bits (nbits - (code a).length) (acc % 2 ^ (nbits - (code a).length)) =
          encodeAll code syms ++ x := by rw [Wire.bits_mod, bits_drop hbits rfl]
      obtain ⟨h1, h2⟩ := ih (out ++ [UInt8.ofNat a.val]) (Nat.mod_lt _ (Nat.two_pow_pos _)) hlt hrest hx
      have hrun : takeSymbols acc nbits out = takeSymbols (acc % 2 ^ (nbits - (code a).length))
          (nbits - (code a).length) (out ++ [UInt8.ofNat a.val]) := by
        rw [takeSymbols_eq, hm]
        simp only [hval, ↓reduceIte, mask_eq hlt]
      rw [hrun]
      refine ⟨fun h => h1 ((List.mem_cons.1 h).resolve_left (Ne.symm hea)), fun h => ?_⟩
      obtain ⟨acc', hacc', hrest'⟩ := h2 fun h' => h (List.mem_cons_of_mem _ h')
      exact ⟨acc', by rw [hacc', List.append_assoc]; rfl, hrest'⟩

theorem shift_in {acc nbits : Nat} (hacc : acc < 2 ^ nbits) (hn : nbits < 30) (byte : UInt8) :
    shl64 acc 8 ||| byte.toNat = acc * 2 ^ 8 + byte.toNat := by
  have hlt : acc < 2 ^ 30 := Nat.lt_of_lt_of_le hacc (Nat.pow_le_pow_right (by decide) (by omega))
  have hshl : shl64 acc 8 = acc <<< 8 := by
    rw [shl64, show 8 % 64 = 8 from rfl, Nat.shiftLeft_eq, Nat.mod_eq_of_lt (by omega)]
  rw [hshl, ← Nat.shiftLeft_add_eq_or_of_lt byte.toNat_lt, Nat.shiftLeft_eq]

private theorem decodeBytes_spec (buf : List UInt8) : ∀ {acc nbits : Nat} (out : List UInt8) {syms : List (Fin 257)}
    {x : List Bool}, acc < 2 ^ nbits → Stuck code (bits nbits acc) →
    bits nbits acc ++ bitsOf buf = encodeAll code syms ++ x → Stuck code x →
    Takes (decodeBytes buf acc nbits out) out syms x := by
  induction buf with
  | nil =>
    intro acc nbits out syms x hacc hstuck hbits hx
    rw [Wire.bitsOf_nil, List.append_nil] at hbits
    have hsplit : encodeAll code [] ++ bits nbits acc = encodeAll code syms ++ x := hbits
    obtain ⟨rfl, rfl⟩ := parse_unique code_prefixFree hsplit hstuck hx
    exact ⟨fun h => by simp at h, fun _ => ⟨acc, by simp [decodeBytes, bytesOf], by simpa using hacc, by simp⟩⟩
  | cons byte buf ih =>
    intro acc nbits out syms x hacc hstuck hbits hx
    have hn : nbits < 30 := Nat.lt_of_not_le fun h => not_stuck_of_le hacc h hstuck
    have hnew : bits (nbits + 8) (acc * 2 ^ 8 + byte.toNat) = bits nbits acc ++ bits 8 byte.toNat :=
      Wire.bits_append byte.toNat_lt
    have hlt : acc * 2 ^ 8 + byte.toNat < 2 ^ (nbits + 8) := by
      have := byte.toNat_lt; rw [Nat.pow_add]; omega
    -- the symbols completed by this byte, then those of the rest
    obtain ⟨s₁, y, hy, hystuck⟩ := exists_parse code_ne_nil (bits nbits acc ++ bits 8 byte.toNat)
    obtain ⟨s₂, z, hz, hzstuck⟩ := exists_parse code_ne_nil (y ++ bitsOf buf)
    have hall : encodeAll code (s₁ ++ s₂) ++ z = encodeAll code syms ++ x := by
      rw [encodeAll_append, List.append_assoc, ← hz, ← List.append_assoc, ← hy, List.append_assoc, ← hbits,
        Wire.bitsOf_cons]
    obtain ⟨rfl, rfl⟩ := parse_unique code_prefixFree hall hzstuck hx
    obtain ⟨h1, h2⟩ := takeSymbols_spec s₁ out hlt (by omega) (hnew.trans hy) hystuck
    have hshift := shift_in hacc hn byte
    have hcount : (nbits + 8) % 2 ^ 32 = nbits + 8 := Nat.mod_eq_of_lt (by omega)
    by_cases hs₁ : eos ∈ s₁
    · refine ⟨fun _ => ?_, fun h => absurd (List.mem_append_left _ hs₁) h⟩
      simp only [decodeBytes, hshift, hcount, h1 hs₁]
    · obtain ⟨acc', hok, hacc', hbits'⟩ := h2 hs₁
      obtain ⟨h3, h4⟩ := ih (out ++ bytesOf s₁) hacc' (by rw [hbits']; exact hystuck)
        (by rw [hbits']; exact hz) hzstuck
      simp only [decodeBytes, hshift, hcount, hok]
      refine ⟨fun h => h3 ((List.mem_append.1 h).resolve_left hs₁), fun h => ?_⟩
      obtain ⟨acc'', hok', hrest⟩ := h4 fun h' => h (List.mem_append_right _ h')
      exact ⟨acc'', by simp only [hok', bytesOf_append, List.append_assoc], hrest⟩

/-! ### The whole string -/

private theorem padding_ok {acc n : Nat} (hn : n < 8) (hacc : acc < 2 ^ n) :
    acc &&& (shl64 1 n - 1) = shl64 1 n - 1 ↔ bits n acc = List.replicate n true := by
  rw [mask_eq (by omega), Nat.mod_eq_of_lt hacc, shl64_one_eq (by omega)]
  constructor
  · intro h
    rw [h, Wire.bits_ones]
  · intro h
    rw [← Wire.bits_ones] at h
    exact Wire.eq_of_bits hacc (by have := Nat.two_pow_pos n; omega) h

/-- The decoder on a byte string whose bits are the code words `syms` and a stuck remainder. -/
private theorem decode_parse {buf : List UInt8} {syms : List (Fin 257)} {x : List Bool}
    (hbits : bitsOf buf = encodeAll code syms ++ x) (hx : Stuck code x) (s : List UInt8) :
    decode buf = .ok s ↔ eos ∉ syms ∧ s = bytesOf syms ∧ x.length < 8 ∧ x = List.replicate x.length true := by
  have hstart : Stuck code (bits 0 0) := fun a ha => code_ne_nil a (List.prefix_nil.1 ha)
  obtain ⟨h1, h2⟩ := decodeBytes_spec buf [] (show 0 < 2 ^ 0 by decide) hstart hbits hx
  by_cases heos : eos ∈ syms
  · simp only [decode, h1 heos, heos, not_true_eq_false, false_and, iff_false]
    simp
  · obtain ⟨acc, hok, hacc, hb⟩ := h2 heos
    rw [List.nil_append] at hok
    simp only [decode, hok, heos, not_false_eq_true, true_and]
    by_cases h8 : 8 ≤ x.length
    · rw [if_pos h8]
      constructor
      · intro h; cases h
      · intro h; omega
    · rw [if_neg h8]
      have hpad := padding_ok (Nat.lt_of_not_le h8) hacc
      rw [hb] at hpad
      by_cases h0 : 0 < x.length
      · rw [if_pos h0]
        by_cases hones : x = List.replicate x.length true
        · simp only [hpad.2 hones, ne_eq, not_true_eq_false, ↓reduceIte, Except.ok.injEq]
          exact ⟨fun h => ⟨h.symm, by omega, hones⟩, fun h => h.1.symm⟩
        · have hne : acc &&& (shl64 1 x.length - 1) ≠ shl64 1 x.length - 1 := fun h => hones (hpad.1 h)
          rw [if_pos hne]
          exact ⟨fun h => (by cases h), fun h => absurd h.2.2 hones⟩
      · rw [if_neg h0]
        obtain rfl : x = [] := List.length_eq_zero_iff.1 (by omega)
        simp only [Except.ok.injEq]
        exact ⟨fun h => ⟨h.symm, by decide, rfl⟩, fun h => h.1.symm⟩

private theorem code_eos : code eos = List.replicate 30 true := by decide +kernel

/-- The end-of-string code is thirty ones, so fewer ones start with no code word. -/
private theorem stuck_ones {k : Nat} (hk : k < 30) : Stuck code (List.replicate k true) := by
  intro a ha
  have hones : List.replicate k true <+: code eos :=
    ⟨List.replicate (30 - k) true, by rw [code_eos, List.replicate_append_replicate, show k + (30 - k) = 30 by omega]⟩
  obtain rfl := code_prefixFree a eos (ha.trans hones)
  have hle := ha.length_le
  rw [code_eos, List.length_replicate, List.length_replicate] at hle
  omega

/-- Accepted strings are code words followed by less than a byte of ones. -/
private theorem decode_eq_ok_iff (b s : List UInt8) :
    decode b = .ok s ↔ ∃ k, k < 8 ∧ bitsOf b = codes s ++ List.replicate k true := by
  constructor
  · intro h
    obtain ⟨syms, x, hbits, hx⟩ := exists_parse code_ne_nil (bitsOf b)
    obtain ⟨heos, rfl, hlen, hones⟩ := (decode_parse hbits hx s).1 h
    exact ⟨x.length, hlen, by rw [codes, byteSymbol_bytesOf heos, ← hones, hbits]⟩
  · rintro ⟨k, hk, hbits⟩
    rw [decode_parse hbits (stuck_ones (by omega))]
    exact ⟨eos_notMem_byteSymbol s, (bytesOf_byteSymbol s).symm, by simpa using hk, by simp⟩

private theorem bitsOf_encode (s : List UInt8) :
    bitsOf (encode s) = codes s ++ List.replicate ((8 - (codes s).length % 8) % 8) true := by
  apply Wire.bitsOf_pack (((codes s).length + (8 - (codes s).length % 8) % 8) / 8)
  rw [List.length_append, List.length_replicate]
  omega

private theorem encode_eq_iff (b s : List UInt8) :
    encode s = b ↔ ∃ k, k < 8 ∧ bitsOf b = codes s ++ List.replicate k true := by
  constructor
  · rintro rfl
    exact ⟨_, Nat.mod_lt _ (by decide), bitsOf_encode s⟩
  · rintro ⟨k, hk, hbits⟩
    have hlen := congrArg List.length hbits
    rw [Wire.length_bitsOf, List.length_append, List.length_replicate] at hlen
    have hk' : (8 - (codes s).length % 8) % 8 = k := by omega
    exact Wire.bitsOf_injective (by rw [bitsOf_encode, hk', hbits])

/-- Both parses of a bit string end in the same stuck remainder. -/
private theorem rejected_of_split {b : List UInt8} {s : List UInt8} {x : List Bool} (hx : Stuck code x)
    (hbits : bitsOf b = codes s ++ x) (hbad : ∀ k, k < 8 → x ≠ List.replicate k true) (t : List UInt8) :
    decode b ≠ .ok t := by
  intro h
  obtain ⟨k, hk, hb⟩ := (decode_eq_ok_iff b t).1 h
  exact hbad k hk (parse_unique code_prefixFree (hbits.symm.trans hb) hx (stuck_ones (by omega))).2

private theorem rejected_of_eos {b : List UInt8} {s : List UInt8} {rest : List Bool}
    (hbits : bitsOf b = codes s ++ code eos ++ rest) (t : List UInt8) : decode b ≠ .ok t := by
  intro h
  obtain ⟨syms, x, hrest, hx⟩ := exists_parse code_ne_nil rest
  have hsplit : bitsOf b = encodeAll code (s.map byteSymbol ++ eos :: syms) ++ x := by
    rw [hbits, hrest, codes, encodeAll_append, encodeAll_cons]
    simp only [List.append_assoc]
  obtain ⟨heos, -⟩ := (decode_parse hsplit hx t).1 h
  exact heos (by simp)

/-- `decode` is the exact inverse of Huffman encoding.  In particular it undoes `encode`, accepts one encoding of a
string only, and rejects a complete end-of-string code, a padding of a byte or more, and a padding with a zero. -/
theorem decode_exact :
    (∀ b s, decode b = .ok s ↔ encode s = b) ∧
    (∀ s, decode (encode s) = .ok s) ∧
    (∀ b c s, decode b = .ok s → decode c = .ok s → b = c) ∧
    (∀ b s rest, bitsOf b = codes s ++ code eos ++ rest → ∃ e, decode b = .error e) ∧
    (∀ b s k, 8 ≤ k → bitsOf b = codes s ++ List.replicate k true → ∃ e, decode b = .error e) ∧
    (∀ b s x, Stuck code x → false ∈ x → bitsOf b = codes s ++ x → ∃ e, decode b = .error e) := by
  have hiff : ∀ b s, decode b = .ok s ↔ encode s = b := fun b s => by rw [decode_eq_ok_iff, encode_eq_iff]
  have hreject : ∀ b, (∀ t, decode b ≠ .ok t) → ∃ e, decode b = .error e := by
    intro b h
    cases hd : decode b with
    | error e => exact ⟨e, rfl⟩
    | ok t => exact absurd hd (h t)
  refine ⟨hiff, fun s => (hiff _ s).2 rfl, ?_, ?_, ?_, ?_⟩
  · intro b c s hb hc
    rw [← (hiff b s).1 hb, ← (hiff c s).1 hc]
  · intro b s rest hbits
    exact hreject b (rejected_of_eos hbits)
  · intro b s k hk hbits
    by_cases h30 : 30 ≤ k
    · -- thirty ones are the end-of-string code
      have hk' : List.replicate k true = code eos ++ List.replicate (k - 30) true := by
        rw [code_eos, List.replicate_append_replicate, show 30 + (k - 30) = k by omega]
      rw [hk', ← List.append_assoc] at hbits
      exact hreject b (rejected_of_eos hbits)
    · refine hreject b (rejected_of_split (stuck_ones (Nat.lt_of_not_le h30)) hbits ?_)
      intro j hj h
      have hlen := congrArg List.length h
      rw [List.length_replicate, List.length_replicate] at hlen
      omega
  · intro b s x hx hfalse hbits
    refine hreject b (rejected_of_split hx hbits ?_)
    rintro k - rfl
    simp at hfalse

/-- The string `LAX` as the edge sends it. -/
theorem decode_exact_lax : decode [0xcf, 0x0f, 0xe7] = .ok [0x4c, 0x41, 0x58] :=
  (decode_exact.1 _ _).2 (by decide +kernel)

end WarpSocks.Masque.Huffman
