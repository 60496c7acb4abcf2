import Mathlib.Algebra.Group.Nat.Defs

/-!
# Prefix integers (RFC 7541 §5.1)

An integer with an `n`-bit prefix starts in the low `n` bits of a byte whose other bits belong to something else.
A prefix of all ones is continued by groups of seven bits, least significant first, each but the last marked by
the top bit of its byte.  A `PrefixInt n` is such an integer with at most nine continuation bytes, and keeps the
bytes that spell it; what a byte string starts with, it starts with in one way only
(`PrefixInt.eq_of_wire_append`).  Of the spellings of a number, `groupsOf` is the shortest one.
-/

namespace Wire

/-- The number spelled by groups of seven bits, least significant first. -/
def groups : List UInt8 → Nat
  | [] => 0
  | b :: bs => b.toNat % 128 + 128 * groups bs

/-- The top bit is set in all bytes but the last. -/
def closes : List UInt8 → Bool
  | [] => false
  | b :: bs => if b.toNat < 128 then bs.isEmpty else closes bs

theorem groups_lt (bs : List UInt8) : groups bs < 128 ^ bs.length := by
  induction bs with
  | nil => decide
  | cons b bs ih =>
    simp only [groups, List.length_cons, Nat.pow_succ]
    omega

/-- The end of a sequence of groups is determined by its bytes. -/
theorem closes_unique {r s x y : List UInt8} (hr : closes r) (hs : closes s) (h : r ++ x = s ++ y) :
    r = s ∧ x = y := by
  induction r generalizing s with
  | nil => cases hr
  | cons b r ih =>
    cases s with
    | nil => cases hs
    | cons c s =>
      rw [List.cons_append, List.cons_append, List.cons.injEq] at h
      obtain ⟨rfl, h⟩ := h
      simp only [closes] at hr hs
      by_cases hb : b.toNat < 128
      · simp only [hb, ↓reduceIte, List.isEmpty_iff] at hr hs
        subst hr hs
        exact ⟨rfl, h⟩
      · simp only [hb, ↓reduceIte] at hr hs
        obtain ⟨rfl, hxy⟩ := ih hr hs h
        exact ⟨rfl, hxy⟩

/-- The groups of a number, as few as it needs. -/
def groupsOf (v : Nat) : List UInt8 :=
  if v < 128 then [UInt8.ofNat v] else UInt8.ofNat (v % 128 + 128) :: groupsOf (v / 128)
termination_by v
decreasing_by omega

theorem groupsOf_of_lt {v : Nat} (h : v < 128) : groupsOf v = [UInt8.ofNat v] := by rw [groupsOf, if_pos h]

theorem groupsOf_of_le {v : Nat} (h : 128 ≤ v) :
    groupsOf v = UInt8.ofNat (v % 128 + 128) :: groupsOf (v / 128) := by rw [groupsOf, if_neg (by omega)]

private theorem toNat_more (v : Nat) : (UInt8.ofNat (v % 128 + 128)).toNat = v % 128 + 128 := by
  rw [UInt8.toNat_ofNat', Nat.mod_eq_of_lt (by omega)]

theorem closes_groupsOf (v : Nat) : closes (groupsOf v) := by
  induction v using Nat.strongRecOn with
  | ind v ih =>
    by_cases hv : v < 128
    · rw [groupsOf_of_lt hv]
      simp [closes, Nat.mod_eq_of_lt (show v < 256 by omega), hv]
    · have hmore : ¬(UInt8.ofNat (v % 128 + 128)).toNat < 128 := by rw [toNat_more]; omega
      rw [groupsOf_of_le (by omega), closes, if_neg hmore]
      exact ih (v / 128) (by omega)

theorem groups_groupsOf (v : Nat) : groups (groupsOf v) = v := by
  induction v using Nat.strongRecOn with
  | ind v ih =>
    by_cases hv : v < 128
    · rw [groupsOf_of_lt hv]
      simp [groups, Nat.mod_eq_of_lt (show v < 256 by omega), Nat.mod_eq_of_lt hv]
    · rw [groupsOf_of_le (by omega), groups, toNat_more, ih (v / 128) (by omega)]
      omega

/-- A number below `128 ^ (k + 1)` needs at most `k + 1` groups. -/
theorem length_groupsOf_le {k : Nat} : ∀ {v : Nat}, v < 128 ^ (k + 1) → (groupsOf v).length ≤ k + 1 := by
  induction k with
  | zero =>
    intro v hv
    rw [groupsOf_of_lt (by omega)]
    exact Nat.le_refl 1
  | succ k ih =>
    intro v hv
    by_cases hlt : v < 128
    · rw [groupsOf_of_lt hlt, List.length_singleton]
      omega
    · have hdiv : v / 128 < 128 ^ (k + 1) := by
        rw [Nat.pow_succ] at hv
        exact Nat.div_lt_of_lt_mul (by omega)
      have := ih hdiv
      rw [groupsOf_of_le (by omega), List.length_cons]
      omega

/-- A number from `128 ^ k` on starts with `k` groups that are continued. -/
theorem groupsOf_long {k : Nat} : ∀ {v : Nat}, 128 ^ k ≤ v →
    ∃ more rest, groupsOf v = more ++ rest ∧ more.length = k ∧ ∀ b ∈ more, 128 ≤ b.toNat := by
  induction k with
  | zero => exact fun {v} _ => ⟨[], groupsOf v, rfl, rfl, fun b hb => nomatch hb⟩
  | succ k ih =>
    intro v hv
    have hpos : 0 < 128 ^ k := Nat.pow_pos (by decide)
    rw [Nat.pow_succ] at hv
    obtain ⟨more, rest, hrest, hlen, hmore⟩ := ih ((Nat.le_div_iff_mul_le (by decide)).2 hv)
    refine ⟨UInt8.ofNat (v % 128 + 128) :: more, rest, ?_, by rw [List.length_cons, hlen], ?_⟩
    · rw [groupsOf_of_le (by omega), hrest, List.cons_append]
    · intro b hb
      rcases List.mem_cons.1 hb with rfl | hb
      · rw [toNat_more]
        omega
      · exact hmore b hb

/-- An integer with an `n`-bit prefix, with the bytes that spell it. -/
structure PrefixInt (n : Nat) where
  first : UInt8
  rest : List UInt8
  spells : if first.toNat % 2 ^ n < 2 ^ n - 1 then rest = [] else closes rest ∧ rest.length ≤ 9

namespace PrefixInt

variable {n : Nat}

/-- Its bytes. -/
def wire (i : PrefixInt n) : List UInt8 := i.first :: i.rest

/-- Its value. -/
def value (i : PrefixInt n) : Nat := i.first.toNat % 2 ^ n + groups i.rest

theorem length_rest_le (i : PrefixInt n) : i.rest.length ≤ 9 := by
  have h := i.spells
  split at h
  · rw [h]; decide
  · exact h.2

theorem value_lt (i : PrefixInt n) (hn : n ≤ 8) : i.value < 2 ^ 63 + 2 ^ 8 := by
  have hfirst : i.first.toNat % 2 ^ n < 2 ^ 8 :=
    Nat.lt_of_lt_of_le (Nat.mod_lt _ (Nat.two_pow_pos n)) (Nat.pow_le_pow_right (by decide) hn)
  have hrest : groups i.rest < 2 ^ 63 :=
    Nat.lt_of_lt_of_le (groups_lt _) (Nat.pow_le_pow_right (by decide : 0 < 128) i.length_rest_le)
  unfold value
  omega

theorem eq_of_wire_append {i j : PrefixInt n} {x y : List UInt8} (h : i.wire ++ x = j.wire ++ y) :
    i = j ∧ x = y := by
  obtain ⟨b, r, hr⟩ := i
  obtain ⟨c, s, hs⟩ := j
  simp only [wire, List.cons_append, List.cons.injEq] at h
  obtain ⟨rfl, h⟩ := h
  by_cases hb : b.toNat % 2 ^ n < 2 ^ n - 1
  · simp only [hb, ↓reduceIte] at hr hs
    subst hr hs
    exact ⟨rfl, h⟩
  · simp only [hb, ↓reduceIte] at hr hs
    obtain ⟨rfl, hxy⟩ := closes_unique hr.1 hs.1 h
    exact ⟨rfl, hxy⟩

end PrefixInt

end Wire
