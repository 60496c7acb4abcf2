import WarpSocks.Wire.Bits

/-!
# Prefix codes

A code assigns a bit string to each symbol of an arbitrary alphabet.  When no code word is a prefix of another, a
bit string splits in one way into code words and a remainder that no code word starts (`parse_unique`), and such a
split always exists (`exists_parse`).  Code words given by number and length are such a code when the intervals of
the `n`-bit strings they start lie next to each other; when the intervals fill all `n`-bit strings, each of these
starts with a code word (`tile_apart`, `tile_covers`).
-/

namespace Wire.PrefixCode

variable {σ : Type} (code : σ → List Bool)

/-- No code word is a prefix of the code word of another symbol. -/
def PrefixFree : Prop := ∀ a b, code a <+: code b → a = b

/-- No code word starts `x`. -/
def Stuck (x : List Bool) : Prop := ∀ a, ¬ code a <+: x

/-- The code words of a list of symbols, one behind the other. -/
def encodeAll (s : List σ) : List Bool := s.flatMap code

@[simp] theorem encodeAll_nil : encodeAll code [] = [] := rfl

@[simp] theorem encodeAll_cons (a : σ) (s : List σ) : encodeAll code (a :: s) = code a ++ encodeAll code s := rfl

@[simp] theorem encodeAll_append (s t : List σ) : encodeAll code (s ++ t) = encodeAll code s ++ encodeAll code t := by
  simp [encodeAll]

variable {code}

/-- The symbol at the front of a bit string is determined. -/
theorem symbol_unique (hc : PrefixFree code) {a b : σ} {x : List Bool} (ha : code a <+: x) (hb : code b <+: x) :
    a = b := by
  rcases Nat.le_total (code a).length (code b).length with h | h
  · exact hc a b (List.prefix_of_prefix_length_le ha hb h)
  · exact (hc b a (List.prefix_of_prefix_length_le hb ha h)).symm

/-- A bit string splits into code words and a stuck remainder in one way only. -/
theorem parse_unique (hc : PrefixFree code) {s t : List σ} {x y : List Bool}
    (h : encodeAll code s ++ x = encodeAll code t ++ y) (hx : Stuck code x) (hy : Stuck code y) :
    s = t ∧ x = y := by
  induction s generalizing t with
  | nil =>
    cases t with
    | nil => exact ⟨rfl, h⟩
    | cons b t =>
      rw [encodeAll_nil, List.nil_append, encodeAll_cons, List.append_assoc] at h
      exact absurd (h ▸ List.prefix_append _ _) (hx b)
  | cons a s ih =>
    rw [encodeAll_cons, List.append_assoc] at h
    cases t with
    | nil =>
      rw [encodeAll_nil, List.nil_append] at h
      exact absurd (h ▸ List.prefix_append _ _) (hy a)
    | cons b t =>
      rw [encodeAll_cons, List.append_assoc] at h
      obtain rfl := symbol_unique hc (List.prefix_append _ _) (h ▸ List.prefix_append _ _)
      obtain ⟨rfl, hxy⟩ := ih (List.append_cancel_left h)
      exact ⟨rfl, hxy⟩

/-- Every bit string is a sequence of code words followed by a stuck remainder. -/
theorem exists_parse (hne : ∀ a, code a ≠ []) (z : List Bool) :
    ∃ s x, z = encodeAll code s ++ x ∧ Stuck code x := by
  induction h : z.length using Nat.strongRecOn generalizing z with
  | ind n ih =>
    by_cases hz : ∃ a, code a <+: z
    · obtain ⟨a, y, hy⟩ := hz
      have hlen := congrArg List.length hy
      have hpos := List.length_pos_iff.2 (hne a)
      rw [List.length_append] at hlen
      obtain ⟨s, x, rfl, hx⟩ := ih y.length (by omega) y rfl
      exact ⟨a :: s, x, by rw [encodeAll_cons, List.append_assoc, hy], hx⟩
    · exact ⟨[], z, rfl, fun a ha => hz ⟨a, ha⟩⟩

/-! ### Code words that tile the `n`-bit strings -/

/-- Lays the intervals of the `n`-bit strings started by the code words `(number, length)` one behind the other from
`start` on; the end of the last one, or `none` if one does not begin where the one before it ends. -/
def tile (n : Nat) : Nat → List (Nat × Nat) → Option Nat
  | start, [] => some start
  | start, (c, l) :: es => if l ≤ n ∧ c * 2 ^ (n - l) = start then tile n (start + 2 ^ (n - l)) es else none

/-- The intervals of two code words do not meet. -/
def Apart (n : Nat) (e f : Nat × Nat) : Prop :=
  (e.1 + 1) * 2 ^ (n - e.2) ≤ f.1 * 2 ^ (n - f.2) ∨ (f.1 + 1) * 2 ^ (n - f.2) ≤ e.1 * 2 ^ (n - e.2)

theorem Apart.symm {n : Nat} {e f : Nat × Nat} (h : Apart n e f) : Apart n f e := Or.symm h

private theorem tile_ge {n : Nat} {es : List (Nat × Nat)} : ∀ {start stop : Nat}, tile n start es = some stop →
    start ≤ stop ∧ ∀ e ∈ es, e.2 ≤ n ∧ start ≤ e.1 * 2 ^ (n - e.2) := by
  induction es with
  | nil => intro start stop h; simp only [tile, Option.some.injEq] at h; simp [h]
  | cons e es ih =>
    intro start stop h
    obtain ⟨c, l⟩ := e
    simp only [tile] at h
    split at h
    · rename_i hcl
      obtain ⟨hle, hes⟩ := ih h
      refine ⟨Nat.le_trans (Nat.le_add_right _ _) hle, ?_⟩
      intro f hf
      rcases List.mem_cons.1 hf with rfl | hf
      · exact ⟨hcl.1, Nat.le_of_eq hcl.2.symm⟩
      · exact ⟨(hes f hf).1, Nat.le_trans (Nat.le_add_right _ _) (hes f hf).2⟩
    · cases h

theorem tile_apart {n : Nat} {es : List (Nat × Nat)} : ∀ {start stop : Nat}, tile n start es = some stop →
    es.Pairwise (Apart n) := by
  induction es with
  | nil => intros; exact List.Pairwise.nil
  | cons e es ih =>
    intro start stop h
    obtain ⟨c, l⟩ := e
    simp only [tile] at h
    split at h
    · rename_i hcl
      refine List.Pairwise.cons ?_ (ih h)
      intro f hf
      left
      have := ((tile_ge h).2 f hf).2
      rw [Nat.add_mul, Nat.one_mul, hcl.2]
      exact this
    · cases h

/-- Every number in the tiled range has one of the code words as its high part. -/
theorem tile_covers {n : Nat} {es : List (Nat × Nat)} : ∀ {start stop : Nat}, tile n start es = some stop →
    ∀ v, start ≤ v → v < stop → ∃ e ∈ es, v / 2 ^ (n - e.2) = e.1 := by
  induction es with
  | nil =>
    intro start stop h v hs hv
    simp only [tile, Option.some.injEq] at h
    omega
  | cons e es ih =>
    intro start stop h v hs hv
    obtain ⟨c, l⟩ := e
    simp only [tile] at h
    split at h
    · rename_i hcl
      by_cases hlt : v < start + 2 ^ (n - l)
      · refine ⟨(c, l), List.mem_cons_self, ?_⟩
        rw [Nat.div_eq_iff (Nat.two_pow_pos _)]
        simp only [hcl.2]
        omega
      · obtain ⟨f, hf, hfv⟩ := ih h v (by omega) hv
        exact ⟨f, List.mem_cons_of_mem _ hf, hfv⟩
    · cases h

/-- A code word that is a bit prefix of another one meets its interval. -/
theorem not_apart_of_prefix {n : Nat} {e f : Nat × Nat} (he : e.2 ≤ n) (hf : f.2 ≤ n) (hen : e.1 < 2 ^ e.2)
    (hfn : f.1 < 2 ^ f.2) (h : bits e.2 e.1 <+: bits f.2 f.1) : ¬ Apart n e f := by
  have hlen : e.2 ≤ f.2 := by simpa using h.length_le
  rw [bits_prefix_iff hlen hen hfn, Nat.div_eq_iff (Nat.two_pow_pos _)] at h
  have hpow : 2 ^ (n - e.2) = 2 ^ (f.2 - e.2) * 2 ^ (n - f.2) := by
    rw [← Nat.pow_add]; congr 1; omega
  have hpos := Nat.two_pow_pos (n - f.2)
  have hlow : e.1 * 2 ^ (n - e.2) ≤ f.1 * 2 ^ (n - f.2) := by
    rw [hpow, ← Nat.mul_assoc]
    exact Nat.mul_le_mul_right _ h.1
  have hhigh : (f.1 + 1) * 2 ^ (n - f.2) ≤ (e.1 + 1) * 2 ^ (n - e.2) := by
    rw [hpow, ← Nat.mul_assoc]
    apply Nat.mul_le_mul_right
    have := Nat.two_pow_pos (f.2 - e.2)
    rw [Nat.add_mul, Nat.one_mul]
    omega
  have hstep : f.1 * 2 ^ (n - f.2) < (f.1 + 1) * 2 ^ (n - f.2) := by
    rw [Nat.add_mul, Nat.one_mul]; omega
  have hstep' : e.1 * 2 ^ (n - e.2) < (e.1 + 1) * 2 ^ (n - e.2) := by
    rw [Nat.add_mul, Nat.one_mul]; have := Nat.two_pow_pos (n - e.2); omega
  unfold Apart
  omega

end Wire.PrefixCode
