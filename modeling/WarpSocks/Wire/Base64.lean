import Mathlib.Data.Option.Basic

/-!
# Base 64

Bytes as symbols of six bits, three bytes as four symbols, with padding where the last group has one or two bytes.
The decoder takes the padding only where the encoder writes it, and no bits behind the last byte.
-/

namespace Wire

/-- Sixty-four symbols and one for the padding. -/
structure Alphabet (α : Type) where
  symbol : Nat → α
  value : α → Option Nat
  pad : α
  value_symbol : ∀ n < 64, value (symbol n) = some n
  value_pad : value pad = none

namespace Alphabet

variable {α : Type} (A : Alphabet α)

/-- The symbols of the bytes. -/
def encode : List UInt8 → List α
  | [] => []
  | [a] => [A.symbol (a.toNat / 4), A.symbol (a.toNat % 4 * 16), A.pad, A.pad]
  | [a, b] =>
    [A.symbol (a.toNat / 4), A.symbol (a.toNat % 4 * 16 + b.toNat / 16), A.symbol (b.toNat % 16 * 4), A.pad]
  | a :: b :: c :: rest =>
    A.symbol (a.toNat / 4) :: A.symbol (a.toNat % 4 * 16 + b.toNat / 16) ::
      A.symbol (b.toNat % 16 * 4 + c.toNat / 64) :: A.symbol (c.toNat % 64) :: encode rest

variable [DecidableEq α]

/-- The bytes of a group with padding at its end, by the symbols in front of it. -/
def decodeLast (w x y : α) : Option (List UInt8) :=
  (A.value w).bind fun w => (A.value x).bind fun x =>
    if y = A.pad then
      if x % 16 = 0 then some [UInt8.ofNat (w * 4 + x / 16)] else none
    else
      (A.value y).bind fun y =>
        if y % 4 = 0 then some [UInt8.ofNat (w * 4 + x / 16), UInt8.ofNat (x * 16 + y / 4)] else none

/-- The bytes of the symbols. -/
def decode : List α → Option (List UInt8)
  | [] => some []
  | w :: x :: y :: z :: rest =>
    if z = A.pad ∧ rest = [] then A.decodeLast w x y
    else
      (A.value w).bind fun w => (A.value x).bind fun x => (A.value y).bind fun y => (A.value z).bind fun z =>
        (decode rest).map fun bytes =>
          UInt8.ofNat (w * 4 + x / 16) :: UInt8.ofNat (x * 16 + y / 4) :: UInt8.ofNat (y * 64 + z) :: bytes
  | _ => none

omit [DecidableEq α] in
theorem symbol_ne_pad {n : Nat} (hn : n < 64) : A.symbol n ≠ A.pad := by
  intro h
  have hvalue := A.value_symbol n hn
  rw [h, A.value_pad] at hvalue
  cases hvalue

omit [DecidableEq α] in
/-- The symbols of the encoder. -/
theorem mem_encode {bytes : List UInt8} {s : α} (h : s ∈ A.encode bytes) : s = A.pad ∨ ∃ n < 64, s = A.symbol n := by
  have hbyte (b : UInt8) : b.toNat < 256 := b.toNat_lt
  fun_induction encode A bytes with
  | case1 => cases h
  | case2 a =>
    have ha := hbyte a
    simp only [List.mem_cons, List.not_mem_nil, or_false] at h
    rcases h with rfl | rfl | rfl | rfl
    · exact .inr ⟨_, by omega, rfl⟩
    · exact .inr ⟨_, by omega, rfl⟩
    · exact .inl rfl
    · exact .inl rfl
  | case3 a b =>
    have ha := hbyte a
    have hb := hbyte b
    simp only [List.mem_cons, List.not_mem_nil, or_false] at h
    rcases h with rfl | rfl | rfl | rfl
    · exact .inr ⟨_, by omega, rfl⟩
    · exact .inr ⟨_, by omega, rfl⟩
    · exact .inr ⟨_, by omega, rfl⟩
    · exact .inl rfl
  | case4 a b c rest ih =>
    have ha := hbyte a
    have hb := hbyte b
    have hc := hbyte c
    simp only [List.mem_cons] at h
    rcases h with rfl | rfl | rfl | rfl | h
    · exact .inr ⟨_, by omega, rfl⟩
    · exact .inr ⟨_, by omega, rfl⟩
    · exact .inr ⟨_, by omega, rfl⟩
    · exact .inr ⟨_, by omega, rfl⟩
    · exact ih h

omit [DecidableEq α] in
theorem encode_ne_nil {bytes : List UInt8} (h : bytes ≠ []) : A.encode bytes ≠ [] := by
  fun_cases encode A bytes with
  | case1 => exact absurd rfl h
  | case2 a => exact List.cons_ne_nil _ _
  | case3 a b => exact List.cons_ne_nil _ _
  | case4 a b c rest => exact List.cons_ne_nil _ _

/-- What was encoded is decoded. -/
theorem decode_encode (bytes : List UInt8) : A.decode (A.encode bytes) = some bytes := by
  have hbyte (b : UInt8) : b.toNat < 256 := b.toNat_lt
  have hof {b : UInt8} {n : Nat} (h : n % 256 = b.toNat) : UInt8.ofNat n = b := by
    rw [← UInt8.toNat_inj, UInt8.toNat_ofNat', ← h]
  fun_induction encode A bytes with
  | case1 => rfl
  | case2 a =>
    have ha := hbyte a
    rw [decode, if_pos ⟨rfl, rfl⟩, decodeLast, A.value_symbol _ (by omega), A.value_symbol _ (by omega),
      Option.bind_some, Option.bind_some, if_pos rfl, if_pos (by omega), hof (b := a) (by omega)]
  | case3 a b =>
    have ha := hbyte a
    have hb := hbyte b
    rw [decode, if_pos ⟨rfl, rfl⟩, decodeLast, A.value_symbol _ (by omega), A.value_symbol _ (by omega),
      A.value_symbol _ (by omega), Option.bind_some, Option.bind_some, Option.bind_some,
      if_neg (A.symbol_ne_pad (by omega)), if_pos (by omega), hof (b := a) (by omega), hof (b := b) (by omega)]
  | case4 a b c rest ih =>
    have ha := hbyte a
    have hb := hbyte b
    have hc := hbyte c
    rw [decode, if_neg fun h => A.symbol_ne_pad (by omega) h.1, A.value_symbol _ (by omega),
      A.value_symbol _ (by omega),
      A.value_symbol _ (by omega), A.value_symbol _ (by omega), Option.bind_some, Option.bind_some, Option.bind_some,
      Option.bind_some, ih, Option.map_some, hof (b := a) (by omega), hof (b := b) (by omega),
        hof (b := c) (by omega)]

end Alphabet

end Wire
