import Mathlib.Algebra.Group.Nat.Defs

/-!
# Variable-length integers (RFC 9000 §16)

A variable-length integer is a big-endian number of 1, 2, 4 or 8 bytes whose two most significant bits give the
length.  `decode` accepts every length for a value, `encode` emits the shortest one.  The facts used elsewhere:
`decode` undoes `encode` in front of any bytes (`decode_encode_append`), what it consumes is a prefix whose length
is read off the first byte (`decode_eq_some`), and bytes behind a complete integer do not change it
(`decode_append`).
-/

namespace Wire.Varint

/-! ### Big-endian numbers -/

/-- The number spelled by a byte string, most significant byte first. -/
def beValue : List UInt8 → Nat
  | [] => 0
  | b :: bs => b.toNat * 256 ^ bs.length + beValue bs

/-- The `k` bytes of `v`, most significant byte first. -/
def beBytes : Nat → Nat → List UInt8
  | 0, _ => []
  | k + 1, v => UInt8.ofNat (v / 256 ^ k) :: beBytes k (v % 256 ^ k)

@[simp] theorem length_beBytes (k v : Nat) : (beBytes k v).length = k := by
  induction k generalizing v with
  | zero => rfl
  | succ k ih => simp [beBytes, ih]

theorem beValue_beBytes {k v : Nat} (h : v < 256 ^ k) : beValue (beBytes k v) = v := by
  induction k generalizing v with
  | zero => simp at h; simp [beBytes, beValue, h]
  | succ k ih =>
    have hpos : 0 < 256 ^ k := Nat.pow_pos (by decide)
    have hq : v / 256 ^ k < 256 := by
      rw [Nat.div_lt_iff_lt_mul hpos, Nat.mul_comm]
      simpa [Nat.pow_succ] using h
    simp only [beBytes, beValue, length_beBytes, ih (Nat.mod_lt v hpos), UInt8.toNat_ofNat']
    rw [Nat.mod_eq_of_lt hq, Nat.mul_comm]
    exact Nat.div_add_mod v (256 ^ k)

/-! ### The codec -/

/-- Total length of the integer that starts with the byte `b`. -/
def size (b : UInt8) : Nat := 2 ^ (b.toNat / 64)

/-- Reads one integer, returning its value and the bytes behind it; `none` when the bytes end inside it. -/
def decode : List UInt8 → Option (Nat × List UInt8)
  | [] => none
  | b :: bs =>
    if bs.length + 1 < size b then none
    else some (b.toNat % 64 * 256 ^ (size b - 1) + beValue (bs.take (size b - 1)), bs.drop (size b - 1))

/-- The shortest encoding of `v < 2 ^ 62`. -/
def encode (v : Nat) : List UInt8 :=
  if v < 2 ^ 6 then beBytes 1 v
  else if v < 2 ^ 14 then beBytes 2 (v + 1 * 2 ^ 14)
  else if v < 2 ^ 30 then beBytes 4 (v + 2 * 2 ^ 30)
  else beBytes 8 (v + 3 * 2 ^ 62)

theorem size_pos (b : UInt8) : 0 < size b := Nat.pow_pos (by decide)

theorem decode_cons (b : UInt8) {x : List UInt8} (hx : x.length + 1 = size b) (y : List UInt8) :
    decode (b :: x ++ y) = some (b.toNat % 64 * 256 ^ x.length + beValue x, y) := by
  have hlen : size b - 1 = x.length := by omega
  have hlt : ¬ (x ++ y).length + 1 < size b := by simp only [List.length_append]; omega
  simp only [List.cons_append, decode, hlt, ↓reduceIte, hlen, List.take_left, List.drop_left]

/-- A decoded integer is the prefix whose length its first byte tells. -/
theorem decode_eq_some {bs : List UInt8} {v : Nat} {rest : List UInt8} (h : decode bs = some (v, rest)) :
    ∃ b x, bs = b :: x ++ rest ∧ x.length + 1 = size b ∧ v = b.toNat % 64 * 256 ^ x.length + beValue x := by
  cases bs with
  | nil => simp [decode] at h
  | cons b bs =>
    simp only [decode] at h
    split at h
    · cases h
    · rename_i hlt
      simp only [Option.some.injEq, Prod.mk.injEq] at h
      obtain ⟨rfl, rfl⟩ := h
      have hpos := size_pos b
      have hlen : (bs.take (size b - 1)).length = size b - 1 := by rw [List.length_take]; omega
      exact ⟨b, bs.take (size b - 1), by simp, by omega, by rw [hlen]⟩

theorem decode_append {bs : List UInt8} {v : Nat} {rest : List UInt8} (h : decode bs = some (v, rest))
    (y : List UInt8) : decode (bs ++ y) = some (v, rest ++ y) := by
  obtain ⟨b, x, rfl, hx, rfl⟩ := decode_eq_some h
  rw [List.append_assoc, decode_cons b hx]

theorem length_of_decode {bs : List UInt8} {v : Nat} {rest : List UInt8} (h : decode bs = some (v, rest)) :
    rest.length < bs.length := by
  obtain ⟨b, x, rfl, -, -⟩ := decode_eq_some h
  simp only [List.cons_append, List.length_cons, List.length_append]
  omega

theorem decode_eq_none_iff (b : UInt8) (bs : List UInt8) :
    decode (b :: bs) = none ↔ bs.length + 1 < size b := by
  simp [decode]

private theorem decode_tagged {k t v : Nat} (hk : k + 1 = 2 ^ t) (ht : t < 4) (hv : v < 64 * 256 ^ k)
    (rest : List UInt8) :
    decode (beBytes (k + 1) (v + t * 64 * 256 ^ k) ++ rest) = some (v, rest) := by
  have hpos : 0 < 256 ^ k := Nat.pow_pos (by decide)
  have hq : v / 256 ^ k < 64 := by rw [Nat.div_lt_iff_lt_mul hpos]; exact hv
  have hdiv : (v + t * 64 * 256 ^ k) / 256 ^ k = v / 256 ^ k + t * 64 := Nat.add_mul_div_right _ _ hpos
  have hmod : (v + t * 64 * 256 ^ k) % 256 ^ k = v % 256 ^ k := Nat.add_mul_mod_self_right _ _ _
  have hb : (UInt8.ofNat (v / 256 ^ k + t * 64)).toNat = v / 256 ^ k + t * 64 := by
    rw [UInt8.toNat_ofNat', Nat.mod_eq_of_lt (by omega)]
  have hs : size (UInt8.ofNat (v / 256 ^ k + t * 64)) = k + 1 := by
    rw [size, hb, hk, Nat.add_mul_div_right _ _ (by decide : 0 < 64), Nat.div_eq_of_lt hq, Nat.zero_add]
  rw [beBytes, hdiv, hmod, decode_cons _ (by rw [hs, length_beBytes]), hb, length_beBytes,
    beValue_beBytes (Nat.mod_lt v hpos), Nat.add_mul_mod_self_right, Nat.mod_eq_of_lt hq, Nat.mul_comm,
    Nat.div_add_mod]

/-- `decode` undoes `encode`, whatever follows. -/
theorem decode_encode_append {v : Nat} (h : v < 2 ^ 62) (rest : List UInt8) :
    decode (encode v ++ rest) = some (v, rest) := by
  unfold encode
  split
  · exact decode_tagged (t := 0) (k := 0) (by decide) (by decide) (by omega) rest
  · split
    · exact decode_tagged (t := 1) (k := 1) (by decide) (by decide) (by omega) rest
    · split
      · exact decode_tagged (t := 2) (k := 3) (by decide) (by decide) (by omega) rest
      · exact decode_tagged (t := 3) (k := 7) (by decide) (by decide) (by omega) rest

end Wire.Varint
