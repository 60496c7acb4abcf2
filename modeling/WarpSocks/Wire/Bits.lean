import Mathlib.Algebra.Group.Nat.Defs

/-!
# Bit strings

`bits n v` are the `n` low bits of `v`, most significant first, and `bitsOf` spells a byte string bit by bit.  A
number of `m + n` bits splits into its high and low part (`bits_add`), so one number is a bit prefix of another
exactly when it is the other shifted (`bits_prefix_iff`).  `pack` undoes `bitsOf` on bit strings of whole bytes.
-/

namespace Wire

/-- The `n` low bits of `v`, most significant first. -/
def bits : Nat → Nat → List Bool
  | 0, _ => []
  | n + 1, v => v.testBit n :: bits n v

@[simp] theorem length_bits (n v : Nat) : (bits n v).length = n := by
  induction n with
  | zero => rfl
  | succ n ih => simp [bits, ih]

theorem bits_add (m n v : Nat) : bits (m + n) v = bits m (v / 2 ^ n) ++ bits n v := by
  induction m with
  | zero => simp [bits]
  | succ m ih =>
    rw [Nat.add_right_comm]
    simp only [bits, ih, List.cons_append]
    rw [Nat.testBit_div_two_pow]

theorem bits_congr {n v w : Nat} (h : ∀ i, i < n → v.testBit i = w.testBit i) : bits n v = bits n w := by
  induction n with
  | zero => rfl
  | succ n ih =>
    simp only [bits]
    rw [h n (by omega), ih fun i hi => h i (by omega)]

/-- Only the `n` low bits matter. -/
@[simp] theorem bits_mod (n v : Nat) : bits n (v % 2 ^ n) = bits n v :=
  bits_congr fun i hi => by simp [Nat.testBit_mod_two_pow, hi]

theorem testBit_of_bits {n v w : Nat} (h : bits n v = bits n w) : ∀ i, i < n → v.testBit i = w.testBit i := by
  induction n with
  | zero => intro i hi; omega
  | succ n ih =>
    simp only [bits, List.cons.injEq] at h
    intro i hi
    rcases Nat.lt_or_eq_of_le (Nat.lt_succ_iff.1 hi) with hlt | rfl
    · exact ih h.2 i hlt
    · exact h.1

theorem eq_of_bits {n v w : Nat} (hv : v < 2 ^ n) (hw : w < 2 ^ n) (h : bits n v = bits n w) : v = w := by
  apply Nat.eq_of_testBit_eq
  intro i
  by_cases hi : i < n
  · exact testBit_of_bits h i hi
  · have hle : 2 ^ n ≤ 2 ^ i := Nat.pow_le_pow_right (by decide) (by omega)
    rw [Nat.testBit_lt_two_pow (Nat.lt_of_lt_of_le hv hle), Nat.testBit_lt_two_pow (Nat.lt_of_lt_of_le hw hle)]

theorem bits_append {m n v w : Nat} (hw : w < 2 ^ n) : bits (m + n) (v * 2 ^ n + w) = bits m v ++ bits n w := by
  have hpos : 0 < 2 ^ n := Nat.two_pow_pos n
  rw [bits_add, Nat.mul_comm, Nat.mul_add_div hpos, Nat.div_eq_of_lt hw, Nat.add_zero]
  congr 1
  conv => lhs; rw [← bits_mod, Nat.mul_add_mod, Nat.mod_eq_of_lt hw]

/-- A number of `m` bits is a bit prefix of one of `n` bits when it is its high part. -/
theorem bits_prefix_iff {m n v w : Nat} (hmn : m ≤ n) (hv : v < 2 ^ m) (hw : w < 2 ^ n) :
    bits m v <+: bits n w ↔ w / 2 ^ (n - m) = v := by
  have hsplit : bits n w = bits m (w / 2 ^ (n - m)) ++ bits (n - m) w := by
    conv => lhs; rw [show n = m + (n - m) by omega]
    exact bits_add m (n - m) w
  have hlt : w / 2 ^ (n - m) < 2 ^ m := by
    rw [Nat.div_lt_iff_lt_mul (Nat.two_pow_pos _), ← Nat.pow_add, show m + (n - m) = n by omega]
    exact hw
  rw [hsplit]
  constructor
  · rintro ⟨t, ht⟩
    obtain ⟨h, -⟩ := List.append_inj ht (by simp)
    exact (eq_of_bits hv hlt h).symm
  · rintro rfl
    exact List.prefix_append _ _

@[simp] theorem bits_ones (n : Nat) : bits n (2 ^ n - 1) = List.replicate n true := by
  induction n with
  | zero => rfl
  | succ n ih =>
    have h : bits n (2 ^ (n + 1) - 1) = bits n (2 ^ n - 1) :=
      bits_congr fun i hi => by rw [Nat.testBit_two_pow_sub_one, Nat.testBit_two_pow_sub_one]; simp [hi]; omega
    simp only [bits, Nat.testBit_two_pow_sub_one, h, ih, List.replicate_succ]
    simp

/-! ### Byte strings -/

/-- The bits of a byte string. -/
def bitsOf (bs : List UInt8) : List Bool := bs.flatMap fun b => bits 8 b.toNat

@[simp] theorem bitsOf_nil : bitsOf [] = [] := rfl

@[simp] theorem bitsOf_cons (b : UInt8) (bs : List UInt8) : bitsOf (b :: bs) = bits 8 b.toNat ++ bitsOf bs := rfl

@[simp] theorem length_bitsOf (bs : List UInt8) : (bitsOf bs).length = 8 * bs.length := by
  induction bs with
  | nil => rfl
  | cons b bs ih => rw [bitsOf_cons, List.length_append, length_bits, ih, List.length_cons]; omega

/-- The number whose bits are given, most significant first. -/
def ofBits (x : List Bool) : Nat := x.foldl (fun v b => 2 * v + b.toNat) 0

/-- The bytes of a bit string, eight bits each; a last incomplete byte is dropped. -/
def pack : List Bool → List UInt8
  | a :: b :: c :: d :: e :: f :: g :: h :: x => UInt8.ofNat (ofBits [a, b, c, d, e, f, g, h]) :: pack x
  | _ => []

private theorem bits_ofBits : ∀ a b c d e f g h : Bool,
    bits 8 (UInt8.ofNat (ofBits [a, b, c, d, e, f, g, h])).toNat = [a, b, c, d, e, f, g, h] := by decide

theorem bitsOf_pack (n : Nat) : ∀ x : List Bool, x.length = 8 * n → bitsOf (pack x) = x := by
  induction n with
  | zero => intro x hx; obtain rfl : x = [] := List.length_eq_zero_iff.1 (by omega); rfl
  | succ n ih =>
    intro x hx
    match x, hx with
    | a :: b :: c :: d :: e :: f :: g :: h :: x, hx =>
      rw [pack, bitsOf_cons, bits_ofBits, ih x (by simp only [List.length_cons] at hx; omega)]
      rfl

theorem bitsOf_injective {bs cs : List UInt8} (h : bitsOf bs = bitsOf cs) : bs = cs := by
  induction bs generalizing cs with
  | nil =>
    cases cs with
    | nil => rfl
    | cons c cs => have := congrArg List.length h; simp at this; omega
  | cons b bs ih =>
    cases cs with
    | nil => have := congrArg List.length h; simp at this
    | cons c cs =>
      rw [bitsOf_cons, bitsOf_cons] at h
      obtain ⟨h1, h2⟩ := List.append_inj h (by simp)
      have hbc : b.toNat = c.toNat := eq_of_bits b.toNat_lt c.toNat_lt h1
      rw [UInt8.toNat_inj.1 hbc, ih h2]

end Wire
